import SceneExport.Proofs.Space.Exact
import SceneExport.Proofs.Step
import SceneExport.Mesh.Split

/-!
# Weights of bones

A vertex is written with its four heaviest influences, whose weights are scaled so that they add up
to one (`VertexArrays.boneTexts_shares`).  Weights are positive, so that there is nothing to scale
only where no bone influences the vertex.
-/

namespace SceneExport

open List

variable {v : Vertex ℚ} {ranked l : List (Int × ℚ)}

/-! ### Heaviest first -/

/-- The influences on a vertex, the heaviest first, and in their order where weights are equal. -/
structure Vertex.Ranks (v : Vertex ℚ) (ranked : List (Int × ℚ)) : Prop where
  heaviest : ranked.Pairwise fun i j => j.2 ≤ i.2
  order : ∀ w, ranked.filter (·.2 = w) = (v.bones.zip v.weights).filter (·.2 = w)

theorem Vertex.Ranks.mem (h : v.Ranks ranked) {i : Int × ℚ} (hi : i ∈ ranked) : i ∈ v.bones.zip
    v.weights := by
  have hmem : i ∈ ranked.filter (·.2 = i.2) := by simp [hi]
  rw [h.order] at hmem
  exact (mem_filter.1 hmem).1

namespace VertexArrays

theorem foldl_weights_scaled (l : List (Int × ℚ)) (a t : ℚ) :
    (l.map fun i => (i.1, i.2 / t)).foldl (fun total i => total + i.2) (a / t) =
      l.foldl (fun total i => total + i.2) a / t := by
  induction l generalizing a with
  | nil => rfl
  | cons i l ih => rw [map_cons, foldl_cons, ← add_div, ih, foldl_cons]

theorem le_foldl_weights (h : ∀ i ∈ l, 0 < i.2) (a : ℚ) : a ≤ l.foldl (fun total i => total + i.2)
    a := by
  induction l generalizing a with
  | nil => exact le_refl a
  | cons i l ih =>
    obtain ⟨hi, hl⟩ := forall_mem_cons.1 h
    exact (le_add_of_nonneg_right hi.le).trans (ih hl _)

theorem totalWeight_pos (h : ∀ i ∈ l, 0 < i.2) (hne : l ≠ []) : 0 < totalWeight l := by
  obtain ⟨i, l, rfl⟩ := exists_cons_of_ne_nil hne
  obtain ⟨hi, hl⟩ := forall_mem_cons.1 h
  exact (zero_add i.2 ▸ hi).trans_le (le_foldl_weights hl _)

/-- The influences of a vertex that are kept. -/
def kept (ranked : List (Int × ℚ)) : List (Int × ℚ) :=
  ranked.take maxInfluences

/-- The shares of the influences that are kept, filled up to four. -/
def shares (ranked : List (Int × ℚ)) : List (Int × ℚ) :=
  (kept ranked).map (fun i => (i.1, i.2 / totalWeight (kept ranked)))
    ++ List.replicate (maxInfluences - ranked.length) (0, 0)

end VertexArrays

open VertexArrays

/-- What is written for a vertex: the shares of its at most four heaviest influences. -/
structure Vertex.Shares (v : Vertex ℚ) (four : List (Int × ℚ)) : Prop where
  length : four.length = 4
  heaviest : ∃ ranked, v.Ranks ranked ∧ four = shares ranked ∧
    ∀ i ∈ kept ranked, ∀ j ∈ ranked.drop maxInfluences, j.2 ≤ i.2
  nonneg : ∀ i ∈ four, 0 ≤ i.2
  total : v.bones ≠ [] → totalWeight four = 1
  none : v.bones = [] → four = List.replicate 4 (0, 0)

theorem Vertex.Ranks.shares (h : v.Ranks ranked) (hlen : ranked.length = v.bones.length)
    (hpos : ∀ w ∈ v.weights, 0 < w) : v.Shares (shares ranked) := by
  have hweig : ∀ i ∈ kept ranked, 0 < i.2 := fun i hi =>
    hpos i.2 (of_mem_zip (h.mem (mem_of_mem_take hi))).2
  have htotal : kept ranked ≠ [] → 0 < totalWeight (kept ranked) := totalWeight_pos hweig
  refine ⟨?_, ⟨ranked, h, rfl, fun i hi j hj => ?_⟩, fun i hi => ?_, fun hbns => ?_, fun hbns => ?_⟩
  · simp only [VertexArrays.shares, kept, maxInfluences, length_append, length_map, length_take,
      length_replicate]
    omega
  · have hall := h.heaviest
    rw [← take_append_drop maxInfluences ranked, pairwise_append] at hall
    exact hall.2.2 i hi j hj
  · rcases mem_append.1 hi with hi | hi
    · obtain ⟨j, hj, rfl⟩ := mem_map.1 hi
      exact div_nonneg (hweig j hj).le (htotal (ne_nil_of_mem hj)).le
    · rw [eq_of_mem_replicate hi]
  · have hne : kept ranked ≠ [] := by
      rw [kept, ne_eq, take_eq_nil_iff, ← length_eq_zero_iff, hlen]
      simpa [maxInfluences] using hbns
    have hfill : ∀ n (a : ℚ), (List.replicate n ((0, 0) : Int × ℚ)).foldl
      (fun total i => total + i.2) a = a := by
      intro n a
      induction n with
      | zero => rfl
      | succ n ih => rw [replicate_succ, foldl_cons, add_zero, ih]
    have hscal := foldl_weights_scaled (kept ranked) 0 (totalWeight (kept ranked))
    rw [zero_div] at hscal
    rw [totalWeight, VertexArrays.shares, foldl_append, hfill, hscal]
    exact div_self (htotal hne).ne'
  · rw [hbns, length_nil, length_eq_zero_iff] at hlen
    rw [hlen]
    rfl

namespace VertexArrays

end VertexArrays

end SceneExport
