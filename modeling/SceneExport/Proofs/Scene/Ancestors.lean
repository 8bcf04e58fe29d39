import SceneExport.Export.Traversal
import SceneExport.Proofs.Export.Outline

/-!
# Objects above and below

In a forest climbing from an object ends at one without a parent, and going further up finds nothing
(`Scene.climb_succ`).  So the objects above an object are its parent and those above the parent
(`Scene.ancestors_eq`), and every object is found by going down from a root
(`Scene.below_of_climb`).

An export changes objects, but never their parents and rigid bodies: scenes whose objects have the
same outlines have the same objects above and below each object.
-/

namespace SceneExport.Scene

variable {α : Type} {s s' : Scene α} {id p root : ObjectId} {height depth : Nat} {c : ObjectId}

def parent? (s : Scene α) (id : ObjectId) : Option ObjectId :=
  s.objects[id]?.bind (·.parent)

/-- Whether an object has a rigid body. -/
def isRigid (s : Scene α) (id : ObjectId) : Bool :=
  (s.objects[id]?.bind (·.rigidBody)).isSome

/-! ### Climbing -/

theorem climb_of_none (h : s.parent? id = none) (height : Nat) : s.climb height id = [] := by
  cases height with
  | zero => rfl
  | succ height =>
    unfold parent? at h
    rw [climb, h]

theorem climb_of_some (h : s.parent? id = some p) (height : Nat) : s.climb (height + 1) id =
    p :: s.climb height p := by
  unfold parent? at h
  rw [climb, h]

/-- Nothing is above a root. -/
theorem climb_succ (hroot : s.parent? root = none) (h : root ∈ id :: s.climb height id) :
    s.climb (height + 1) id = s.climb height id := by
  induction height generalizing id with
  | zero =>
    obtain rfl : root = id := by simpa [climb] using h
    exact climb_of_none hroot 1
  | succ height ih =>
    cases hp : s.parent? id with
    | none => rw [climb_of_none hp, climb_of_none hp]
    | some p =>
      rw [climb_of_some hp] at h
      have hne : root ≠ id := by
        rintro rfl
        rw [hroot] at hp
        cases hp
      rw [climb_of_some hp, climb_of_some hp, ih (by simpa [hne] using h)]

/-- The objects above an object with a parent, which is not above itself. -/
theorem ancestors_eq (hid : s.parent? id = some p) (hroot : s.parent? root = none)
    (h : root ∈ id :: s.ancestors id) : s.ancestors id = p :: s.ancestors p := by
  have hne : root ≠ id := by
    rintro rfl
    rw [hroot] at hid
    cases hid
  have hpos : 0 < s.objects.size := by
    obtain ⟨o, ho, -⟩ := Option.bind_eq_some_iff.1 hid
    exact Nat.zero_lt_of_lt (Array.getElem?_eq_some_iff.1 ho).1
  obtain ⟨height, hsize⟩ := Nat.exists_eq_succ_of_ne_zero (Nat.ne_of_gt hpos)
  unfold ancestors at h ⊢
  rw [hsize, climb_of_some hid] at h ⊢
  rw [climb_succ hroot (by simpa [hne] using h)]

/-! ### Going down -/

theorem mem_children : c ∈ s.children id ↔ s.parent? c = some id := by
  unfold children parent?
  rw [List.mem_filter, List.mem_range, beq_iff_eq]
  refine ⟨fun h => h.2, fun h => ⟨?_, h⟩⟩
  obtain ⟨o, ho, -⟩ := Option.bind_eq_some_iff.1 h
  exact (Array.getElem?_eq_some_iff.1 ho).1

/-- An object is found below another one in fewer steps down than `depth`. -/
inductive Below (s : Scene α) : Nat → ObjectId → ObjectId → Prop
  | self (depth : Nat) (id : ObjectId) : Below s (depth + 1) id id
  | child {depth : Nat} {id c j : ObjectId} (hc : s.parent? c = some id) (h : Below s depth c j) :
      Below s (depth + 1) id j

theorem Below.step (h : s.Below depth root p) (hc : s.parent? c = some p) : s.Below (depth + 1) root
    c := by
  induction h with
  | self depth id => exact .child hc (.self depth c)
  | child hc' _ ih => exact .child hc' (ih hc)

theorem below_of_climb (h : root ∈ id :: s.climb height id) : s.Below (height + 1) root id := by
  induction height generalizing id with
  | zero =>
    obtain rfl : root = id := by simpa [climb] using h
    exact .self 0 root
  | succ height ih =>
    rcases List.mem_cons.1 h with rfl | h
    · exact .self _ _
    · cases hp : s.parent? id with
      | none =>
        rw [climb_of_none hp] at h
        cases h
      | some p =>
        rw [climb_of_some hp] at h
        exact (ih h).step hp

/-! ### The topmost body -/

/-- The topmost object with a rigid body at or above an object. -/
def topBody? (s : Scene α) : Option ObjectId → Option ObjectId
  | none => none
  | some id => ((id :: s.ancestors id).filter s.isRigid).getLast?

theorem physicsRoot?_eq (hroot : s.parent? root = none) (h : root ∈ id :: s.ancestors id) :
    s.physicsRoot? id = s.topBody? (s.parent? id) := by
  show ((s.ancestors id).filter s.isRigid).getLast? = _
  cases hp : s.parent? id with
  | none => rw [ancestors, climb_of_none hp]; rfl
  | some p => rw [ancestors_eq hp hroot h]; rfl

theorem topBody?_of_rigid (h : s.isRigid id = true) : s.topBody? (some id) =
    some ((s.physicsRoot? id).getD id) := by
  rw [topBody?, List.filter_cons_of_pos h, List.getLast?_cons]
  rfl

theorem topBody?_of_not_rigid (h : s.isRigid id = false) : s.topBody? (some id) = s.physicsRoot?
    id := by
  rw [topBody?, List.filter_cons_of_neg (by simp [h])]
  rfl

/-! ### Scenes whose objects have the same outlines -/

variable (h : s.objects.toList.map Object.outline = s'.objects.toList.map Object.outline)

include h

theorem outline_getElem?
    (id : ObjectId) : s.objects[id]?.map Object.outline = s'.objects[id]?.map Object.outline := by
  simpa using congrArg (·[id]?) h

theorem parent?_congr : s.parent? id = s'.parent? id := by
  have hmap : ∀ t : Scene α, t.parent? id = (t.objects[id]?.map Object.outline).bind
    (·.parent) := by
    intro t
    rw [parent?, Option.bind_map]
    rfl
  rw [hmap, hmap, outline_getElem? h]

theorem isRigid_congr : s.isRigid id = s'.isRigid id := by
  have hmap : ∀ t : Scene α, t.isRigid id =
    ((t.objects[id]?.map Object.outline).bind (·.rigidBody)).isSome := by
    intro t
    rw [isRigid, Option.bind_map]
    rfl
  rw [hmap, hmap, outline_getElem? h]

theorem climb_congr : s.climb height id = s'.climb height id := by
  induction height generalizing id with
  | zero => rfl
  | succ height ih =>
    cases hp : s.parent? id with
    | none => rw [climb_of_none hp, climb_of_none ((parent?_congr h).symm.trans hp)]
    | some p => rw [climb_of_some hp, climb_of_some ((parent?_congr h).symm.trans hp), ih]

theorem physicsRoot?_congr : s.physicsRoot? id = s'.physicsRoot? id := by
  have hsize : s.objects.size = s'.objects.size := by simpa using congrArg List.length h
  show ((s.ancestors id).filter s.isRigid).getLast? = ((s'.ancestors id).filter s'.isRigid).getLast?
  have hrig : s.isRigid = s'.isRigid := funext fun _ => isRigid_congr h
  unfold ancestors
  rw [hsize, climb_congr h, hrig]

theorem children_congr : s.children id = s'.children id := by
  have hsize : s.objects.size = s'.objects.size := by simpa using congrArg List.length h
  show (List.range s.objects.size).filter (fun i => s.parent? i == some id)
    = (List.range s'.objects.size).filter (fun i => s'.parent? i == some id)
  rw [hsize]
  simp [parent?_congr h]

end SceneExport.Scene

namespace SceneExport

variable {α : Type}

/-- The session has the objects of a scene, as far as an export never changes them. -/
def Session.Shows (s : Session α) (scene : Scene α) : Prop :=
  s.outline.objects = scene.objects.toList.map Object.outline

theorem Session.Shows.object {s : Session α} {scene : Scene α} (h : s.Shows scene) {id : ObjectId}
    {o : Object α} (ho : s.scene.objects[id]? = some o) : ∃ o', scene.objects[id]? = some o' ∧
    o'.outline = o.outline := by
  have hmap := Scene.outline_getElem? (s := s.scene) h id
  rw [ho, Option.map_some] at hmap
  exact Option.map_eq_some_iff.1 hmap.symm

end SceneExport
