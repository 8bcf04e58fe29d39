import SceneExport.Material.Export
import Mathlib.Logic.Function.Iterate

/-!
# The project that a path lies in

Going up from a path, each directory is shorter than the one before until it stays the same
(`Path.directory_shorter`), so the search for a project comes to an end.  It finds the nearest
project at or above the path, but it gives up on reaching the root directory, before it looks there
(`FileStore.projectDirectory_nearest_iff`).
-/

namespace SceneExport

namespace FileStore

variable (s : FileStore) {path d : String}

/-- A directory has a project file, and none that is nearer to a path has one. -/
def IsNearest (path d : String) : Prop :=
  ∃ n, d = Path.directory^[n] path ∧ s.isProject d = true ∧ ∀ m < n,
    s.isProject (Path.directory^[m] path) = false

variable {s}

theorem isNearest_self (h : s.isProject path = true) : s.IsNearest path d ↔ d = path := by
  constructor
  · rintro ⟨n, rfl, -, hpre⟩
    cases n with
    | zero => rfl
    | succ n => exact absurd h (by simpa using hpre 0 n.succ_pos)
  · rintro rfl
    exact ⟨0, rfl, h, nofun⟩

theorem isNearest_above (h : s.isProject path = false) :
    s.IsNearest path d ↔ s.IsNearest (Path.directory path) d := by
  constructor
  · rintro ⟨n, rfl, hproj, hpre⟩
    cases n with
    | zero => exact absurd (h.symm.trans hproj) Bool.false_ne_true
    | succ n => exact ⟨n, rfl, hproj, fun m hm => hpre (m + 1) (Nat.succ_lt_succ hm)⟩
  · rintro ⟨n, rfl, hproj, hpre⟩
    refine ⟨n + 1, rfl, hproj, fun m hm => ?_⟩
    cases m with
    | zero => exact h
    | succ m => exact hpre m (Nat.lt_of_succ_lt_succ hm)

/-- Where there is nothing above, only the directory itself can be the nearest project. -/
theorem IsNearest.eq_of_top (h : s.IsNearest path d) (htop : Path.directory path = path) : d =
    path := by
  obtain ⟨n, rfl, -⟩ := h
  exact Function.iterate_fixed htop n

/-- A project above a directory that is none is another directory. -/
theorem IsNearest.ne_of_above {above : String} (h : s.IsNearest above d)
    (hno : ¬ s.isProject path = true) : d ≠ path := by
  obtain ⟨n, -, hd, -⟩ := h
  rintro rfl
  exact hno hd

/-- The search from a directory that is the one before (`last`), or where it begins. -/
theorem climbToProject_iff {last : Option String} (hlast : ∀ x ∈ last, x = path) :
    s.climbToProject last path = .ok d ↔ s.IsNearest path d ∧ (d = "/" → path = "/") := by
  fun_induction climbToProject s last path with
  | case1 last path hproj =>
    rw [isNearest_self hproj, Except.ok.injEq, eq_comm]
    exact ⟨fun h => ⟨h, h ▸ id⟩, And.left⟩
  | case2 last path hno above hend =>
    -- The search gives up, at the root or where nothing is above.
    rw [isNearest_above (Bool.not_eq_true _ ▸ hno)]
    refine ⟨nofun, fun ⟨hnear, hroot⟩ => absurd ?_ (hnear.ne_of_above hno)⟩
    rcases hend with hup | heq
    · have htop : Path.directory above = above := (congrArg Path.directory hup).trans hup.symm
      have hd : d = "/" := (hnear.eq_of_top htop).trans hup
      rw [hd, hroot hd]
    · have hup : above = path := hlast above heq.symm
      exact (hnear.eq_of_top (congrArg Path.directory hup)).trans hup
  | case3 last path hno above hgo ih =>
    rw [isNearest_above (Bool.not_eq_true _ ▸ hno), ih fun x hx => (Option.some.inj hx).symm]
    have hroot : above ≠ "/" := fun h => hgo (.inl h)
    refine and_congr_right fun _ => ⟨fun h hd => absurd (h hd) hroot, fun h hd => absurd ?_ hroot⟩
    exact (congrArg Path.directory (h hd)).trans rfl

theorem climbToProject_error {last : Option String} {e : Failure}
    (h : s.climbToProject last path = .error e) :
    e = .unsupported "Unable to find Godot project file" := by
  fun_induction climbToProject s last path with
  | case1 => cases h
  | case2 =>
    cases h
    rfl
  | case3 last path hno above hgo ih => exact ih h

/-- The search gives the nearest project at or above a path, and fails for want of one, exactly if
this is not the root directory or the path is the root directory itself. -/
theorem projectDirectory_nearest_iff (s : FileStore) (path : String) :
    ((∀ d, s.projectDirectory path = .ok d ↔ s.IsNearest path d) ∧
      (s.projectDirectory path = .error (.unsupported "Unable to find Godot project file") ↔
        ¬∃ d, s.IsNearest path d)) ↔ (s.IsNearest path "/" → path = "/") := by
  have hok (d : String) : s.projectDirectory path = .ok d ↔ s.IsNearest path d ∧
    (d = "/" → path = "/") :=
    climbToProject_iff nofun
  constructor
  · rintro ⟨hfinds, -⟩ hroot
    exact ((hok "/").1 ((hfinds "/").2 hroot)).2 rfl
  · intro hroot
    have hfinds (d : String) : s.projectDirectory path = .ok d ↔ s.IsNearest path d :=
      (hok d).trans ⟨And.left, fun h => ⟨h, fun hd => hroot (hd ▸ h)⟩⟩
    refine ⟨hfinds, ?_⟩
    simp only [← hfinds]
    cases hr : s.projectDirectory path with
    | ok d => simp
    | error e => simp [climbToProject_error hr]

end FileStore

end SceneExport
