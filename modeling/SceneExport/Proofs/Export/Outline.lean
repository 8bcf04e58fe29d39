import SceneExport.Proofs.Step
import SceneExport.Export.Nodes

/-!
# Outlines

What matters of a session for the nodes of the file: the objects as far as the export never changes
them, the frame, the headings, parents and transforms of all nodes, and the nodes that are written
(`Session.outline`).  Materials, meshes and animations come and go without a change to the outline.
This file shows so for the primitive steps of an export.
-/

namespace SceneExport

/-! ### Steps of an export -/

variable {α β γ : Type} {always : Bool}

namespace ExportM

/-- What holds of a view before the step makes something hold of the result and the view
afterwards. -/
abbrev Brings (view : Session α → γ) (P : γ → Prop) (step : ExportM α β) (Q : β → γ → Prop) :
    Prop :=
  Leads (fun s => P (view s)) step fun b s => Q b (view s)

/-- What holds of a view before the step holds of it afterwards. -/
abbrev Lasts (view : Session α → γ) (V : γ → Prop) (step : ExportM α β) : Prop :=
  Leads (fun s => V (view s)) step fun _ s => V (view s)

/-- What holds of a view before the step holds of it afterwards, and something holds of the result
and the view then. -/
abbrev Gets (view : Session α → γ) (V : γ → Prop) (step : ExportM α β) (Q : β → γ → Prop) : Prop :=
  Leads (fun s => V (view s)) step fun b s => V (view s) ∧ Q b (view s)

variable {x : Except Failure β} {s s' : Session α} {b : β}

theorem lift_ok (h : (liftM x : ExportM α β) s = .ok b s') : x = .ok b ∧ s' = s := by
  cases x with
  | ok a => cases h; exact ⟨rfl, rfl⟩
  | error e => cases h

theorem lift_bind_ok {next : β → ExportM α γ} {c : γ} (h : ((liftM x : ExportM α β) >>= next) s =
    .ok c s') :
    ∃ b, x = .ok b ∧ next b s = .ok c s' :=
  look_ok (fun hb => (lift_ok hb).symm) h

theorem lift_apply (h : x = .ok b) (s : Session α) : (liftM x : ExportM α β) s = .ok b s := by
  rw [h]
  rfl

theorem liftLogged_apply (step : Logged β) (s : Session α) :
    (liftM step : ExportM α β) s = match step s.log with
      | .ok b log => .ok b { s with log }
      | .error e log => .error e { s with log } := by
  change (match step s.log with
    | .ok b log => (set { s with log } >>= fun _ => pure b : ExportM α β)
    | .error e log => (set { s with log } >>= fun _ => throw e : ExportM α β)) s = _
  cases step s.log <;> rfl

end ExportM

variable {step : ExportM α β} {instead : String → ExportM α β} {P : Session α → Prop}

namespace Keeps

variable {view : Session α → γ}

theorem lift {x : Except Failure β} : Keeps always view (liftM x : ExportM α β) := by
  cases x with
  | ok b => exact .pure
  | error e => exact .throw

theorem liftLogged (hv : ∀ (s : Session α) (log : Log), view { s with log } = view s)
    (step : Logged β) : Keeps always view (liftM step : ExportM α β) := by
  intro s
  rw [ExportM.liftLogged_apply]
  cases step s.log with
  | ok b log => exact hv s log
  | error e log => exact fun _ => hv s log

theorem orUnsupported (h : Keeps true view step) (hi : ∀ reason, Keeps always view (instead reason))
    : Keeps always view (ExportM.orUnsupported step instead) := by
  intro s
  have hs := h s
  unfold ExportM.orUnsupported
  cases hr : step s with
  | ok b s1 =>
    rw [hr] at hs
    exact hs
  | error e s1 =>
    rw [hr] at hs
    cases e with
    | unsupported reason =>
      have hb := hi reason s1
      rwa [hs rfl] at hb
    | _ => exact fun _ => hs rfl

end Keeps

theorem Leads.lift {x : Except Failure β} : Leads P (liftM x : ExportM α β) fun b s => P s ∧
    x = .ok b := by
  intro s hP b s' hs
  obtain ⟨hx, rfl⟩ := ExportM.lift_ok hs
  exact ⟨hP, hx⟩

/-- What a computation with messages gives does not depend on the session. -/
theorem Leads.ofLogged {kind : β → Prop} {step : Logged β}
    (h : Leads (fun _ => True) step fun b _ => kind b) :
    Leads (fun _ => True) (liftM step : ExportM α β) fun b _ => kind b := by
  intro s _ b s' hs
  rw [ExportM.liftLogged_apply] at hs
  cases hr : step s.log with
  | ok b' log =>
    rw [hr] at hs
    cases hs
    exact h s.log trivial b log hr
  | error e log =>
    rw [hr] at hs
    cases hs

/-- A step whose failure is caught goes on from where it failed. -/
theorem Leads.orUnsupported {Q : β → Session α → Prop} (h : Leads P step Q) (hm : Maintains P step)
    (hi : ∀ reason, Leads P (instead reason) Q) : Leads P (ExportM.orUnsupported step instead)
    Q := by
  intro s hP b s' hs
  unfold ExportM.orUnsupported at hs
  cases hr : step s with
  | ok c s1 =>
    rw [hr] at hs
    cases hs
    exact h s hP b s' hr
  | error e s1 =>
    rw [hr] at hs
    cases e with
    | unsupported reason => exact hi reason s1 (hm.error hP hr) b s' hs
    | _ => cases hs

variable {α : Type}

/-- What an export never changes of an object. -/
structure ObjectOutline (α : Type) where
  kind : ObjectKind
  parent : Option ObjectId
  parentBone : String
  localTransform : FramedTransform α
  world : Placement α
  displayType : String
  rigidBody : Option (RigidBody α)
  /-- The type of the light or camera. -/
  type : Option String

/-- What matters of a node for its place in the scene. -/
structure NodeOutline (α : Type) where
  heading : Heading α
  parent : Option NodeId
  transform : Option (Value α)
  isSkeleton : Bool

/-- What matters of a session for the nodes of the file. -/
structure Outline (α : Type) where
  name : String
  frame : Int
  objects : List (ObjectOutline α)
  nodes : List (NodeOutline α)
  written : List NodeId

def Object.outline (o : Object α) : ObjectOutline α where
  kind := o.kind
  parent := o.parent
  parentBone := o.parentBone
  localTransform := o.localTransform
  world := o.world
  displayType := o.displayType
  rigidBody := o.rigidBody
  type := o.data.type?

def Role.isSkeleton : Role → Bool
  | .skeleton _ => true
  | _ => false

def Node.outline (n : Node α) : NodeOutline α where
  heading := n.entry.heading
  parent := n.parent
  transform := n.entry.properties.get? "transform"
  isSkeleton := n.role.isSkeleton

def Session.outline (s : Session α) : Outline α where
  name := s.scene.name
  frame := s.scene.frame
  objects := s.scene.objects.toList.map Object.outline
  nodes := s.file.tree.nodes.toList.map Node.outline
  written := s.file.written.toList

/-- The mesh that an object shows, if it is one that is given. -/
def ObjectData.mesh? : ObjectData α → Option MeshId
  | .mesh id => id
  | _ => none

/-- The splines of a curve. -/
def ObjectData.splines : ObjectData α → List (Spline α)
  | .curve c => c.splines
  | _ => []

/-- What of an object is there for good. -/
structure LastingObject (α : Type) where
  outline : ObjectOutline α
  mesh : Option MeshId
  dataMesh : Option MeshId
  particles : List (ParticleSystem α)
  activeParticles : Option Nat
  splines : List (Spline α)

def Object.lasting (o : Object α) : LastingObject α where
  outline := o.outline
  mesh := o.mesh
  dataMesh := o.data.mesh?
  particles := o.particles
  activeParticles := o.activeParticles
  splines := o.data.splines

/-- The view shows nothing of messages, requests and files. -/
class Aside {γ : Type} (view : Session α → γ) : Prop where
  aside : ∀ (s : Session α) log requests files project marks,
    view { s with log, requests, files, project, marks } = view s := by intros; rfl

/-- The view shows nothing of messages, requests and files, and of an object only what lasts. -/
class Quiet {γ : Type} (view : Session α → γ) : Prop extends Aside view where
  object : ∀ (s : Session α) id (f : Object α → Object α), (∀ o, (f o).lasting = o.lasting) →
    view { s with scene := s.scene.updateObject id f } = view s := by intros; rfl

/-- The view shows nothing of the resources. -/
class Resourceless {γ : Type} (view : Session α → γ) : Prop where
  tables : ∀ (s : Session α) internal external,
    view { s with file := { s.file with internal, external } } = view s := by intros; rfl

/-- Whether a key is that of a mesh or of a particle system. -/
def InternalKey.isGeometry : InternalKey α → Bool
  | .mesh _ | .particles _ _ => true
  | _ => false

theorem ResourceTable.find?_add {κ ρ : Type} [BEq κ] {t t' : ResourceTable κ ρ} {key other : κ}
    {item : Nat → ρ} {n : Nat} (h : t.add key item = .ok (n, t')) (hoth : (other == key) = false) :
    t'.find? other = t.find? other := by
  unfold ResourceTable.add at h
  split at h
  · cases h
  · cases h
    -- The new key stands after the others, and is not the one that is looked for.
    show List.lookup _ (t.numbers ++ _) = List.lookup _ t.numbers
    rw [List.lookup_append, List.lookup_cons, hoth]
    exact Option.or_none

/-- The view shows of the resources at most which of them the keys of meshes and particle systems
find. -/
class FindsMeshes [Scalar α] {γ : Type} (view : Session α → γ) : Prop where
  tables : ∀ (s : Session α) internal external,
    (∀ key : InternalKey α, key.isGeometry = true → internal.find? key = s.file.internal.find? key)
    →
    view { s with file := { s.file with internal, external } } = view s

instance [Scalar α] {γ : Type} {view : Session α → γ} [Resourceless view] : FindsMeshes view where
  tables s internal external _ := Resourceless.tables s internal external

/-- The view shows no external resource, and none that is added under a key which is not that of a
mesh or of a particle system. -/
class HidesOthers [Scalar α] {γ : Type} (view : Session α → γ) : Prop where
  external : ∀ (s : Session α) external, view { s with file := { s.file with external } } = view s
  other : ∀ (s : Session α) (key : InternalKey α) item n internal,
    key.isGeometry = false → s.file.internal.add key item = .ok (n, internal) →
    view { s with file := { s.file with internal } } = view s

/-- The view shows no resource that is added under a key. -/
class HidesKeyed [Scalar α] {γ : Type} (view : Session α → γ) : Prop extends HidesOthers view where
  keyed : ∀ (s : Session α) (key : InternalKey α) item n internal,
    s.file.internal.add key item = .ok (n, internal) →
    view { s with file := { s.file with internal } } = view s

instance [Scalar α] {γ : Type} {view : Session α → γ} [FindsMeshes view] : HidesOthers view where
  external s external := FindsMeshes.tables s s.file.internal external fun _ _ => rfl
  other s key item n internal hkey h := by
    refine FindsMeshes.tables s internal s.file.external fun other hoth => ResourceTable.find?_add h
      ?_
    cases other <;> cases hoth <;> cases key <;> first | rfl | cases hkey

instance [Scalar α] {γ : Type} {view : Session α → γ} [Resourceless view] : HidesKeyed view where
  keyed s _ _ _ internal _ := Resourceless.tables s internal s.file.external

/-- A change of one element, as a function sees it. -/
theorem map_toList_modify {β γ : Type} {g : β → γ} {f : β → β} {k : γ → γ}
    (h : ∀ b, g (f b) = k (g b)) (xs : Array β) (i : Nat) : (xs.modify i f).toList.map g =
    (xs.toList.map g).modify i k := by
  apply List.ext_getElem?
  intro j
  simp only [List.getElem?_map, Array.getElem?_toList, Array.getElem?_modify, List.getElem?_modify]
  split
  · simp [Function.comp_def, h]
  · simp

/-- A change of one element that a function does not see. -/
theorem map_modify {β γ : Type} (g : β → γ) {f : β → β} (h : ∀ b, g (f b) = g b) (xs : Array β)
    (i : Nat) : (xs.modify i f).toList.map g = xs.toList.map g :=
  (map_toList_modify (k := id) h xs i).trans (List.modify_id i _)

/-- A text that begins otherwise has another first character. -/
theorem head?_append_ne {start rest : String} {c : Char} (h : start.toList.head?.any (· != c)) :
    (start ++ rest).toList.head? ≠ some c := by
  rw [String.toList_append, List.head?_append]
  cases hs : start.toList.head? with
  | none => simp [hs] at h
  | some d => simpa [hs] using h

theorem append_ne_transform {start rest : String} (h : start.toList.head?.any (· != 't')) :
    start ++ rest ≠ "transform" :=
  fun he => head?_append_ne h (by rw [he]; rfl)

namespace ExportM

variable {β γ : Type}

/-! ### Steps that only read -/

section Reading

variable {view : Session α → γ} {id : NodeId} {s s' : Session α} {n : Node α}

theorem need_keeps {failure : Failure} {b : Option β} : Keeps always view
    (liftM (need failure b) : ExportM α β) :=
  .lift

theorem object_keeps (id : ObjectId) : Keeps always view (object id) := .bind .get fun _ => .lift

theorem object_ok {id : ObjectId} {o : Object α} (h : object id s = .ok o s') :
    s' = s ∧ s.scene.objects[id]? = some o := by
  rw [object, get_bind] at h
  obtain ⟨ho, rfl⟩ := lift_ok h
  exact ⟨rfl, need_ok ho⟩

theorem localTransform_keeps (o : Object α) : Keeps always view (localTransform o) :=
  .bind .get fun _ => .pure

theorem material_keeps {id : MaterialId} : Keeps always view (material id) := .bind .get fun _ =>
    .lift

theorem image_keeps {id : ImageId} : Keeps always view (image id) := .bind .get fun _ => .lift

theorem node_keeps : Keeps always view (node id) := .bind .get fun _ => .lift

theorem node_ok (h : node id s = .ok n s') : s' = s ∧ s.file.tree.nodes[id]? = some n := by
  rw [node, get_bind] at h
  obtain ⟨hn, rfl⟩ := lift_ok h
  exact ⟨rfl, need_ok hn⟩

theorem node_apply {s : Session α} (h : s.file.tree.nodes[id]? = some n) : node id s = .ok n s :=
  lift_apply (by rw [Tree.get, h]; rfl) s

theorem existing_keeps {id : Option NodeId} : Keeps always view (existing id) := .lift

theorem nodePath_keeps : Keeps always view (nodePath id) := .bind .get fun _ => .lift

theorem nodeType_keeps (id : NodeId) : Keeps always view (nodeType id) := .bind .get fun _ => .lift

variable [Scalar α]

theorem findInternal?_keeps {key : InternalKey α} : Keeps always view (findInternal? key) :=
  .bind .get fun _ => .pure

theorem findExternal?_keeps {key : ExternalKey α} : Keeps always view (findExternal? key) :=
  .bind .get fun _ => .pure

end Reading

instance : Quiet (Session.outline : Session α → Outline α) where
  object s id f hf := by
    have hoal : ∀ o, (f o).outline = o.outline := fun o => congrArg LastingObject.outline (hf o)
    simp only [Session.outline, Scene.updateObject, map_modify Object.outline hoal]

instance : Resourceless (Session.outline : Session α → Outline α) where

/-! ### Steps that change what no quiet view shows -/

section Quiet

variable {view : Session α → γ}

section Aside

variable [Aside view] {text : String}

theorem liftLogged_keeps (step : Logged β) : Keeps always view (liftM step : ExportM α β) :=
  .liftLogged (fun s log => Aside.aside s log s.requests s.files s.project s.marks) step

theorem say_keeps {level : Level} : Keeps always view (say level text) :=
  .modify fun s => Aside.aside s _ s.requests s.files s.project s.marks

theorem warn_keeps : Keeps always view (warn text) := say_keeps

theorem request_keeps {r : Request α} : Keeps always view (request r) :=
  .modify fun s => Aside.aside s s.log _ s.files s.project s.marks

theorem newMark_keeps : Keeps always view (newMark : ExportM α Nat) :=
  fun s => Aside.aside s s.log s.requests s.files s.project _

end Aside

theorem changeLasting_keeps [Quiet view] (id : ObjectId) {f : Object α → Object α}
    (hf : ∀ o, (f o).lasting = o.lasting) : Keeps always view (changeObject id f) :=
  .modify fun s => Quiet.object s id f hf

end Quiet

theorem forceInternal_keeps {view : Session α → γ} [Resourceless view] (r : Resource α) :
    Keeps always view (forceInternal r) :=
  fun s => Resourceless.tables s _ s.file.external

section HidesOthers

variable [Scalar α] {view : Session α → γ} {key : InternalKey α} {r : Resource α}

theorem addInternal_keeps [HidesKeyed view] : Keeps always view (addInternal key r) := by
  refine .of_get fun s => ?_
  unfold SceneFile.addInternal
  cases h : s.file.internal.add key r.numbered with
  | ok x => exact HidesKeyed.keyed s key _ x.1 x.2 h
  | error e => exact fun _ => rfl

variable [HidesOthers view]

theorem addOther_keeps (hk : key.isGeometry = false) : Keeps always view (addInternal key r) := by
  refine .of_get fun s => ?_
  unfold SceneFile.addInternal
  cases h : s.file.internal.add key r.numbered with
  | ok x => exact HidesOthers.other s key _ x.1 x.2 hk h
  | error e => exact fun _ => rfl

theorem addExternal_keeps {key : ExternalKey α} {path type : String} :
    Keeps always view (addExternal key path type) := by
  refine .of_get fun s => ?_
  unfold SceneFile.addExternal
  dsimp only
  cases s.file.external.add key _ with
  | ok x => exact HidesOthers.external s _
  | error e => exact fun _ => rfl

end HidesOthers

/-! ### Steps that change what no outline shows -/

theorem updateNode_keeps (id : NodeId) {f : Node α → Node α} (hf : ∀ n, (f n).outline = n.outline) :
    Keeps always Session.outline
    (changeFile fun file => { file with tree := file.tree.update id f }) :=
  .modify fun _ => congrArg (Outline.mk _ _ _ · _) (map_modify Node.outline hf _ _)

theorem setNode_keeps (id : NodeId) {name : String} (h : name ≠ "transform") (value : Value α) :
    Keeps always Session.outline (setNode id name value) :=
  updateNode_keeps id fun n => by
    simp [Node.outline, Entry.set, Record.get?_set_ne (Ne.symm h)]

end ExportM

end SceneExport
