import SceneExport.Proofs.Mesh.Morph

/-!
# Evaluated meshes

What the evaluation of an object gives depends only on the mesh that the object shows and on the
shape key (`evaluate_ok`): neither the modifiers nor the state of the armature matter.  The mesh
that an object shows is not changed by an export (`Session.shown`).  An evaluation leaves the object
as it was, but for one flag (`evaluate_restores_iff`).
-/

namespace SceneExport

variable {α : Type}

/-! ### Meshes with tangents -/

namespace Mesh

/-- Whether tangents can be calculated for a mesh. -/
def takesTangents (m : Mesh α) : Bool :=
  !m.uvs.isEmpty && !m.faces.isEmpty

/-- The mesh with its many-sided faces cut into triangles. -/
def cut (m : Mesh α) : Mesh α :=
  { m with faces := (m.faces.partition (4 < ·)).2 ++
      (m.faces.partition (4 < ·)).1.flatMap fun n => List.replicate (n - 2) 3 }

/-- The mesh as it is after its tangents were calculated, if it takes them. -/
def ready (m : Mesh α) : Mesh α :=
  if m.takesTangents && m.hasManySided then m.cut else m

theorem vertices_ready (m : Mesh α) : m.ready.vertices = m.vertices := by
  unfold ready
  split <;> rfl

end Mesh

/-! ### The mesh that an object shows -/

/-- The mesh that an object has when it is evaluated, and the one that its data are, if there is
such an object. -/
def Session.shown (id : ObjectId) (s : Session α) : Option (Option (Mesh α) × Option (Mesh α)) :=
  s.scene.objects[id]?.map fun o => (o.mesh.bind (s.scene.meshes[·]?), s.scene.dataMesh? o)

def Session.meshNumber? [Scalar α] (key : MeshKey α) (s : Session α) : Option Nat :=
  s.file.internal.find? (.mesh key)

theorem Scene.dataMesh?_eq (s : Scene α) (o : Object α) : s.dataMesh? o = o.data.mesh?.bind
    (s.meshes[·]?) := by
  unfold dataMesh? ObjectData.mesh?
  cases o.data with
  | mesh g => cases g <;> rfl
  | _ => rfl

instance (id : ObjectId) : Quiet (Session.shown (α := α) id) where
  object s id' f hf := by
    have hmesh (o : Object α) : (f o).mesh = o.mesh := congrArg LastingObject.mesh (hf o)
    have hdata (o : Object α) : (f o).data.mesh? = o.data.mesh? := congrArg LastingObject.dataMesh
      (hf o)
    unfold Session.shown Scene.updateObject
    dsimp only
    rw [Array.getElem?_modify]
    split
    · simp only [Option.map_map, Function.comp_def, Scene.dataMesh?_eq, hmesh, hdata]
    · rfl

instance (id : ObjectId) : Resourceless (Session.shown (α := α) id) where

instance : Quiet (Session.file : Session α → SceneFile α) where

instance : Aside (Session.scene : Session α → Scene α) where

/-! ### Evaluation -/

namespace ExportM

theorem withTangents_ok {m m' : Mesh α} {s s' : Session α}
    (h : withTangents m m.takesTangents s = .ok m' s') : m' = m.ready := by
  unfold Mesh.ready
  cases ht : m.takesTangents with
  | false =>
    rw [ht] at h
    cases h
    rfl
  | true =>
    rw [ht] at h
    obtain ⟨_, s1, -, h⟩ := bind_ok h
    cases hm : m.hasManySided with
    | false =>
      rw [hm] at h
      cases h
      rfl
    | true =>
      rw [hm] at h
      obtain ⟨cut, s3, hcut, h⟩ := bind_ok h
      cases h
      cases hcut
      rfl

/-- An object as it is while the shape of a key is evaluated. -/
def posed (o : Object α) (key : Int) (modifiers : Array (Modifier α)) : Object α :=
  { o with onlyShapeKey := true, activeShapeKey := key, modifiers }

theorem updateObject_eq_self_iff {x : Scene α} {id : ObjectId} {o o' : Object α}
    (ho : x.objects[id]? = some o) :
    (x.updateObject id fun _ => o') = x ↔ o' = o := by
  have hobjs : (x.objects.modify id fun _ => o') = x.objects ↔ o' = o := by
    constructor
    · intro h
      have hid := congrArg (·[id]?) h
      simpa [Array.getElem?_modify, ho] using hid
    · rintro rfl
      exact Array.ext_getElem? fun i => by grind
  rw [← hobjs]
  exact ⟨congrArg Scene.objects, fun h => by rw [Scene.updateObject, h]⟩

/-- The scene is a given one, but for one of its objects. -/
def HasObject (x : Scene α) (id : ObjectId) (o : Object α) (s : Session α) : Prop :=
  s.scene = x.updateObject id fun _ => o

theorem changeObject_leads (x : Scene α) (id : ObjectId) (o : Object α) (f : Object α → Object α) :
    Leads (HasObject x id o) (changeObject id f) fun _ => HasObject x id (f o) := by
  rintro s hs _ s' ⟨⟩
  have hobjs : (x.objects.modify id fun _ => o).modify id f = x.objects.modify id fun _ => f o := by
    refine Array.ext_getElem? fun i => ?_
    simp only [Array.getElem?_modify]
    split <;> simp [Function.comp_def]
  rw [HasObject] at hs ⊢
  simp only [hs, Scene.updateObject, hobjs]

/-- Modifiers that were all hidden are shown again as they were. -/
theorem modifiers_shown_again (ms : Array (Modifier α)) (off : KeyPart α) :
    ((((ms.zip ((ms.toList.map (·.shown)).map fun _ => off).toArray).map fun p =>
    { p.1 with shown := p.2 }).zip (ms.toList.map (·.shown)).toArray).map
    fun p : Modifier α × KeyPart α => { p.1 with shown := p.2 }) = ms := by
  refine Array.ext_getElem? fun i => ?_
  cases hm : ms[i]? with
  | none => simpa using hm
  | some m =>
    simp only [Array.getElem?_map, Option.map_eq_some_iff, Array.getElem?_zip_eq_some, Prod.exists]
    exact ⟨_, _, ⟨⟨m, off, by simp [hm], rfl⟩, by simp [hm]⟩, rfl⟩

/-- An evaluation gave the shape of a key, with tangents if they are calculated and it takes
them. -/
def Prepares (m? : Option (Mesh α)) (tangents : Bool) (key : Int)
    (r : Option (Mesh α) × Evaluation) : Prop :=
  ∃ shape?, m?.mapM (fun m => m.inShape key) = .ok shape? ∧
    r.1 = shape?.map (fun m => if tangents then m.ready else m) ∧
    r.2.hasTangents = shape?.any Mesh.takesTangents

theorem Prepares.of_some {m : Mesh α} {tangents : Bool} {key : Int}
    {r : Option (Mesh α) × Evaluation} (h : Prepares (some m) tangents key r) : ∃ shape,
    m.inShape key = .ok shape ∧ r.1 = some (if tangents then shape.ready else shape) ∧
    r.2.hasTangents = shape.takesTangents := by
  obtain ⟨shape?, hshps, hmesh, htang⟩ := h
  obtain ⟨shape, hshp, hsome⟩ := Outcome.bind_ok hshps
  cases hsome
  exact ⟨shape, hshp, hmesh, htang⟩

variable [Scalar α]

instance (key : MeshKey α) : Quiet (Session.meshNumber? key) where

instance (key : MeshKey α) : FindsMeshes (Session.meshNumber? key) where
  tables _ _ _ h := h (.mesh key) rfl

theorem requestMesh_ok {id : ObjectId} {allLayers : Bool} {mesh? : Option (Mesh α)}
    {s s' : Session α} {o : Object α} (ho : s.scene.objects[id]? = some o)
    (h : requestMesh id allLayers s = .ok mesh? s') :
    (o.mesh.bind (s.scene.meshes[·]?)).mapM (fun m => m.inShape o.activeShapeKey) = .ok mesh? ∧
    s'.scene = s.scene := by
  have hsc := (requestMesh_keeps id allLayers : Keeps false Session.scene _).ok h
  obtain ⟨o', ho', h1⟩ := look_ok object_ok h
  cases ho.symm.trans ho'
  obtain ⟨position, s2, hposi, h2⟩ := bind_ok h1
  have hsame := (armaturePosition?_keeps o : Keeps false Session.scene _).ok hposi
  obtain ⟨_, s3, hrequ, h3⟩ := bind_ok h2
  cases hrequ
  rw [activeMesh?, get_bind] at h3
  dsimp only at h3
  rw [hsame] at h3
  refine ⟨?_, hsc⟩
  cases hm : o.mesh.bind (s.scene.meshes[·]?) with
  | none =>
    rw [hm] at h3
    cases h3
    rfl
  | some m =>
    rw [hm] at h3
    obtain ⟨shape, hshp, rfl⟩ := map_ok h3
    rw [Option.mapM_some, (lift_ok hshp).1]
    rfl

/-- **What an evaluation gives and leaves.**  It is the mesh that the object shows, in the shape of
the key.  Of the scene one flag of the object is set, and all else is as it was. -/
theorem evaluate_ok {cfg : Settings} {e : Evaluation} {allLayers tangents : Bool} {key : Int}
    {r : Option (Mesh α) × Evaluation} {s s' : Session α}
    (h : evaluate cfg e allLayers tangents key s = .ok r s') :
    ∃ id o, e.object = some id ∧ s.scene.objects[id]? = some o ∧
      s'.scene = s.scene.updateObject id (fun _ => { o with onlyShapeKey := false }) ∧
      Prepares (o.mesh.bind (s.scene.meshes[·]?)) tangents key r := by
  obtain ⟨id, hid, h1⟩ := lift_bind_ok h
  obtain ⟨o, ho, h2⟩ := look_ok object_ok h1
  refine ⟨id, o, need_ok hid, ho, ?_⟩
  have hst : HasObject s.scene id o s := ((updateObject_eq_self_iff ho).2 rfl).symm
  generalize s.scene = x at ho hst ⊢
  let Q (r : Option (Mesh α) × Evaluation) (s : Session α) : Prop :=
    HasObject x id { o with onlyShapeKey := false } s ∧ Prepares (o.mesh.bind (x.meshes[·]?))
      tangents key r
  refine (?_ : Leads (HasObject x id o) _ Q) s hst r s' h2
  refine .bind (changeObject_leads x id o _) fun _ => ?_
  extract_lets shown request
  have hr (ms : Array (Modifier α)) (hms : (if !cfg.useModifiers then
      (ms.zip shown.toArray).map fun p => { p.1 with shown := p.2 } else ms) = o.modifiers) :
      Leads (HasObject x id (posed o key ms)) (request ()) Q := by
    refine .bind (Q := fun shape? s => HasObject x id (posed o key ms) s ∧
      (o.mesh.bind (x.meshes[·]?)).mapM (fun m => m.inShape key) = .ok shape?) ?_ fun shape? =>
      .of_fact fun hshp => ?_
    · intro s hs shape? s' h
      have hobj : s.scene.objects[id]? = some (posed o key ms) := by
        rw [hs]
        simp [Scene.updateObject, Array.getElem?_modify, ho]
      obtain ⟨hshp, hsc⟩ := requestMesh_ok hobj h
      rw [hs] at hshp
      exact ⟨hsc.trans hs, hshp⟩
    extract_lets hasTangents restore prepare
    have hhas : hasTangents = shape?.any Mesh.takesTangents := by
      cases shape? <;> rfl
    have hrest (mesh? : Option (Mesh α)) :
      Leads (fun s => HasObject x id (posed o key o.modifiers) s ∧
        mesh? = shape?.map fun m => if tangents then m.ready else m) (restore mesh?) Q :=
      .of_fact fun hmesh => .bind (changeObject_leads x id _ _) fun _ => .pure fun _ hs =>
        ⟨hs, shape?, hshp, hmesh, hhas⟩
    have hprep : Leads (HasObject x id (posed o key o.modifiers)) (prepare ()) Q := by
      cases shape? with
      | none => exact .bind (.pure fun _ hs => ⟨hs, rfl⟩) hrest
      | some m =>
        cases tangents with
        | false => exact .bind (.pure fun _ hs => ⟨hs, rfl⟩) hrest
        | true =>
          refine .bind (fun s hs mesh? s' h => ?_) hrest
          obtain ⟨m', hm', rfl⟩ := map_ok h
          have hsc := (withTangents_keeps m _ : Keeps false Session.scene _).ok hm'
          exact ⟨hsc.trans hs, by rw [withTangents_ok hm']; rfl⟩
    split
    · next hu =>
      rw [if_pos hu] at hms
      refine .bind ((changeObject_leads x id (posed o key ms) _).post fun _ _ hs => ?_) fun _ =>
        hprep
      rw [← hms]
      exact hs
    · next hu =>
      rw [if_neg hu] at hms
      exact hms ▸ hprep
  split
  · next hu =>
    refine .bind (changeObject_leads x id _ _) fun _ => hr _ ?_
    rw [if_pos hu]
    exact modifiers_shown_again _ _
  · next hu => exact hr _ (if_neg hu)

theorem evaluate_leads {cfg : Settings} {id : ObjectId} {allLayers tangents : Bool} {key : Int}
    {m? data? : Option (Mesh α)} :
    Leads (fun s => s.shown id = some (m?, data?))
      (evaluate cfg { object := some id } allLayers tangents key) fun r _ =>
      Prepares m? tangents key r := by
  rintro s hs r s' h
  obtain ⟨id, o, hid, ho, -, hr⟩ := evaluate_ok h
  cases hid
  rw [Session.shown, ho] at hs
  obtain ⟨rfl, -⟩ := Prod.mk.inj (Option.some.inj hs)
  exact hr

/-- **What an evaluation leaves behind.**  Whatever is evaluated, the active shape key and the
modifiers of the object are as they were.  That only one shape is shown is forgotten, so the scene
is as it was exactly if this flag was off. -/
theorem evaluate_restores_iff {cfg : Settings} {e : Evaluation} {allLayers tangents : Bool}
    {key : Int} {r : Option (Mesh α) × Evaluation} {s s' : Session α}
    (h : evaluate cfg e allLayers tangents key s = .ok r s') :
    ∃ id o, e.object = some id ∧ s.scene.objects[id]? = some o ∧
      s'.scene = s.scene.updateObject id (fun _ => { o with onlyShapeKey := false }) ∧
      (s'.scene = s.scene ↔ o.onlyShapeKey = false) := by
  obtain ⟨id, o, hid, ho, hsc, -⟩ := evaluate_ok h
  refine ⟨id, o, hid, ho, hsc, ?_⟩
  rw [hsc, updateObject_eq_self_iff ho]
  constructor
  · intro hsame
    rw [← hsame]
  · intro hoff
    rw [← hoff]

/-- A mouth of which only one shape is shown. -/
def heldMouth : Session ℚ :=
  { mouth with scene := mouth.scene.updateObject 0 fun o => { o with onlyShapeKey := true } }

/-- Once the mouth was evaluated all its shapes are shown together. -/
theorem evaluate_restores_iff_mouth :
    ∃ r s', evaluate { useModifiers := false } { object := some 0 } true true 1 heldMouth =
    .ok r s' ∧ s'.scene ≠ heldMouth.scene := by
  obtain ⟨r, s', h⟩ := exists_ok (evaluate { useModifiers := false } { object := some 0 } true true
    1) heldMouth
  obtain ⟨id, o, hid, ho, -, hsame⟩ := evaluate_restores_iff h
  cases hid
  cases ho
  exact ⟨r, s', h, fun hsc => Bool.noConfusion (hsame.1 hsc)⟩

end ExportM

end SceneExport
