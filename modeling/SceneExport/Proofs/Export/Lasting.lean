import SceneExport.Proofs.Export.Persistent

/-!
# What lasts through an export

Some things that hold of a session hold from the first step of an export to the last, whatever is
exported below whichever node: that the objects have the parents that they had, that the nodes of
the file stay where they are, that the resources refer to one another soundly.  They are shown of
the steps that make nodes and resources (`Lasting`).  This file takes them from there to the export
of a scene, one function after the other (`Lasting.exportScene`).

One of them is the plan of a session (`Session.plan`): of each object the kind, the parent and the
rigid body, and of each node the heading and the parent.  It only gets longer (`lasting_plan`).
-/

namespace SceneExport

variable {α β γ : Type} {view : Session α → γ} {V : γ → Prop}

namespace ExportM

/-- The properties and roles of nodes are not in view, but for the animations of players.  What
holds of the view holds after a node that is no player is made, after a node is written, after a
resource is made, and after an animation is exported. -/
structure Lasting [Scalar α] (view : Session α → γ) (V : γ → Prop) : Prop where
  set : ∀ id {name}, NoCue name → ∀ v, Keeps false view (setNode id name v)
  role : ∀ id role, Keeps false view (changeFile fun f =>
    { f with tree := f.tree.update id fun n => { n with role } })
  make : ∀ name {type}, type ≠ "AnimationPlayer" → ∀ parent role,
    Lasts view V (makeNode name type parent role)
  write : ∀ id, Lasts view V (writeNode id)
  animate : ∀ cfg a node, Lasts view V (exportAnimation cfg a node)
  substance : ∀ r : Resource α, r.PlainOf ["PhysicsMaterial"] → Lasts view V (forceInternal r)
  simpleShape : ∀ id o b name, Lasts view V (exportSimpleShape id o b name)
  meshShape : ∀ cfg id b convex, Lasts view V (exportMeshShape cfg id b convex)
  mesh : ∀ cfg id bones, Lasts view V (exportMesh cfg id bones)
  material : ∀ cfg object id, Lasts view V (exportMaterial cfg object id)
  spline : ∀ id curve, Lasts view V (exportSpline id curve)
  system : ∀ cfg target bones id index s,
    Lasts view V (exportMesh cfg target bones >>= exportSystem id index s)

/-! ### Where properties of nodes are not in view -/

section

variable [Scalar α] [Tracked view] (hset : ∀ id name v, Keeps false view (setNode id name v))
  (hmake : ∀ name type parent role, Lasts view V (makeNode name type parent role))
  (hwr : ∀ id, Lasts view V (writeNode id))

include hset hmake hwr

theorem lasts_exportAnimation (hanim : ∀ player name, Lasts view V (createAnimation player name))
    (cfg : Settings) (a : Animated) (node : Option NodeId) :
    Lasts view V (exportAnimation cfg a node) :=
  lasts_animation (fun parent => (hmake _ _ parent _).also) (fun _ v => (hset _ _ v).leads V) hwr
    hanim cfg a node

/-- If resources are not in view either, what stays true when a node is made or written lasts
through an export. -/
theorem lasting_of_make [Resourceless view]
    (hrole : ∀ id role, Keeps false view (changeFile fun f =>
      { f with tree := f.tree.update id fun n => { n with role } })) : Lasting view V where
  set id _ _ v := hset id _ v
  role := hrole
  make name type _ := hmake name type
  write := hwr
  animate := lasts_exportAnimation hset hmake hwr fun player name => by
    refine .keeping (liftLogged_keeps _) fun animation => .keeping (forceInternal_keeps _)
      fun number => ?_
    exact .keeping (hset _ _ _) fun _ => .done
  substance r _ := (forceInternal_keeps r).leads V
  simpleShape id o b name := (exportSimpleShape_keeps id o b name).leads V
  meshShape cfg id b convex := (exportMeshShape_keeps cfg id b convex).leads V
  mesh cfg id bones := (exportMesh_keeps cfg id bones).leads V
  material cfg object id := (exportMaterial_keeps cfg object id).leads V
  spline id curve := (exportSpline_keeps id curve).leads V
  system cfg target bones id index s :=
    ((exportMesh_keeps cfg target bones).bind fun mesh => exportSystem_keeps id index s
      mesh).leads V

end

/-! ### Scenes -/

/-- Which object is active is not in view. -/
abbrev Unfocused (view : Session α → γ) : Prop :=
  ∀ s active, view { s with scene := { s.scene with active } } = view s

section

variable [Scalar α] {cfg : Settings} {selection : Selection}
  (hact : Unfocused view)
  (hsing : ∀ id ∈ selection.valid, ∀ parent,
    Lasts view V (exportSingle cfg selection id parent))
  (hroot : ∀ name, Lasts view V (exportRoot name))
  (hlink : ∀ id v, Lasts view V (setNode id "skeleton" v))

include hact hsing

theorem lasts_exportObject {depth : Nat} {parent : Option NodeId} (id : ObjectId) :
    Lasts view V (exportObject cfg selection depth parent id) := by
  induction depth generalizing parent id with
  | zero => exact .done
  | succ depth ih =>
    unfold exportObject
    split
    · exact .done
    · next hvld =>
      have hid : id ∈ selection.valid := by simpa using hvld
      refine .keeping .get fun s => ?_
      refine .keeping (.modify fun s => hact s _) fun _ => .bind (hsing id hid parent) fun made =>
        ?_
      -- The children are exported into the file that the object itself has left.
      refine .keeping .get fun s => .bind (.mapM (fun child => ih child) _) fun below => ?_
      exact .keeping (.modify fun s => hact s _) fun _ => .done

include hroot

theorem lasts_exportObjects : Leads (fun s => V (view s) ∧ s.scene.selection cfg = selection)
      (exportObjects cfg) fun _ s => V (view s) := by
  rintro s ⟨hs, hsele⟩ nodes s' h
  unfold exportObjects at h
  rw [get_bind, hsele] at h
  obtain ⟨root, s1, hr, h1⟩ := bind_ok h
  obtain ⟨lists, s2, hlists, h2⟩ := bind_ok h1
  cases h2
  exact Leads.mapM (fun id => lasts_exportObject hact hsing id) _ s1 (hroot _ s hs root s1 hr) lists
    _ hlists

include hlink

theorem lasts_exportScene [Tracked view] :
    Leads (fun s => V (view s) ∧ s.scene.selection cfg = selection)
      (exportScene cfg) fun _ s => V (view s) := by
  have hview (s : Session α) (requests : Array (Request α)) : view { s with requests } = view s :=
    Aside.aside s s.log requests s.files s.project s.marks
  exact exportScene_of_objects (f := fun s => (view s, s.scene))
    (P := fun y => V y.1 ∧ y.2.selection cfg = selection) hview hlink
    (fun s requests => by rw [hview])
    (lasts_exportObjects hact hsing hroot)

end

namespace Lasting

variable [Scalar α] (h : Lasting view V) (cfg : Settings) (id : ObjectId) (o : Object α)
  (parent : Option NodeId)

include h

/-- What lasts through an export lasts through the export of each object, without a look at the
object. -/
theorem persistent :
    Persistent cfg id view (fun _ => V) (fun _ => True) (fun _ => True) fun _ _ _ => True where
  refl h := h
  trans _ h := h
  mono _ h := h
  object := ((object_keeps _).leads V).also
  make name _ htype parent role := (h.make name htype parent role).also
  write := h.write
  set _ _ hname v := (h.set _ hname.noCue v).leads V
  note i _ hname _ v := (h.set i hname.noCue v).leads V
  refer _ _ hname r := ((h.set _ hname (.reference r)).leads V).pre (fun _ h => h.1)
  role _ role := (h.role _ role).leads V
  turn _ := lasts_turnBack fun v => (h.set _ (by decide) v).leads V
  move _ o := lasts_moveAlongBone (fun _ v => (h.set _ (by decide) v).leads V) o
  animate := h.animate cfg
  substance r hr := (h.substance r hr).also
  meshShape b convex := (h.meshShape cfg id b convex).post fun _ _ h => ⟨h, fun _ _ => trivial⟩
  mesh bones := (h.mesh cfg id bones).post fun _ _ h => ⟨h, fun _ _ => trivial⟩
  material m := (h.material cfg id m).post fun _ _ h => ⟨h, fun _ => trivial⟩
  spline curve := (h.spline id curve).also
  system target bones index s := (h.system cfg target bones id index s).also
  idle _ _ _ _ _ := trivial

theorem shapes : Shapes id view (fun _ => V) (fun _ => True) fun _ _ _ => True :=
  fun _ o b name _ _ _ => (h.simpleShape id o b name).also

theorem exportCollision (body : NodeId) (root : Option ObjectId) :
    Lasts view V (exportCollision cfg id body root) := by
  intro s hs i s' hr
  exact ((h.persistent cfg id).exportCollision (x := view s) (h.shapes id) body root s hs i s'
    hr).1

theorem nodeAbove : Lasts view V (nodeAbove cfg id o parent) := by
  intro s hs i s' hr
  exact ((h.persistent cfg id).nodeAbove (x := view s) o parent s hs i s' hr).1

theorem exportOwnParticles : Lasts view V (exportOwnParticles cfg id o parent) :=
  fun s => (h.persistent cfg id).exportOwnParticles (x := view s) o trivial parent s

theorem animateObject (parent made : Option NodeId) :
    Lasts view V (animateObject cfg id parent made) :=
  lasts_animateObject (fun a => h.animate cfg a made) id

variable [Tracked view]

theorem exportInstance : Lasts view V (exportInstance cfg id o parent) := by
  intro s hs i s' hr
  exact ((h.persistent cfg id).exportInstance (x := view s) o parent trivial s hs i s' hr).1

theorem exportMeshNode : Lasts view V (exportMeshNode cfg id parent) := by
  intro s hs i s' hr
  exact ((h.persistent cfg id).exportMeshNode (x := view s) (fun _ _ => h.shapes id) parent s
    hs i s' hr).1

theorem exportKind (kind : ObjectKind) : Lasts view V (exportKind cfg kind id parent) := by
  intro s hs made s' hr
  exact ((h.persistent cfg id).exportKind (x := view s) kind (fun _ _ _ => h.shapes id) parent
    s hs made s' hr).1

omit [Scalar α] h in
theorem exportedKind (selection : Selection) : Keeps false view (exportedKind selection id o) := by
  unfold ExportM.exportedKind
  split
  · exact .bind warn_keeps fun _ => .pure
  · split
    · exact .pure
    · exact .bind warn_keeps fun _ => .pure

theorem exportSingle (selection : Selection) :
    Lasts view V (exportSingle cfg selection id parent) := by
  refine .keeping (object_keeps _) fun o => .keeping (exportedKind _ _ _) fun kind => ?_
  refine .bind (h.nodeAbove _ _ _ _) fun above => .bind (h.exportOwnParticles _ _ _ _) fun _ => ?_
  refine .bind (h.exportKind _ _ _ _) fun made => ?_
  refine .bind (lasts_correctTransform (fun _ v => (h.set _ (by decide) v).leads V)) fun _ => ?_
  exact .bind (h.animateObject _ _ _ _) fun _ => .done

omit [Tracked view] in
theorem exportRoot (name : String) : Lasts view V (exportRoot name) :=
  .bind (h.make _ (by decide) _ _) fun _ => .bind (h.write _) fun _ => .done

variable (hact : Unfocused view)

include hact

theorem exportScene (cfg : Settings) : Lasts view V (exportScene cfg) :=
  fun s hs => lasts_exportScene hact (fun id _ parent => h.exportSingle cfg id parent _)
    h.exportRoot (fun i v => (h.set i (by decide) v).leads V) s ⟨hs, rfl⟩

end Lasting

end ExportM

/-! ### An export only adds nodes -/

variable {α β γ δ : Type}

theorem Keeps.pair {σ : Type} {always : Bool} {view : σ → γ} {view' : σ → δ}
    {step : EStateM Failure σ β} (h : Keeps always view step) (h' : Keeps always view' step) :
    Keeps always (fun s => (view s, view' s)) step := by
  intro s
  have hs := h s
  have hs' := h' s
  cases hr : step s with
  | ok b s1 =>
    rw [hr] at hs hs'
    exact congrArg₂ Prod.mk hs hs'
  | error e s1 =>
    rw [hr] at hs hs'
    exact fun ha => congrArg₂ Prod.mk (hs ha) (hs' ha)

/-- What is to be exported, and what is there of the nodes. -/
def Outline.plan (o : Outline α) : List (ObjectOutline α) × Layout α :=
  (o.objects, o.layout)

def Session.plan (s : Session α) : List (ObjectOutline α) × Layout α :=
  s.outline.plan

/-- The session shows the same objects, and the nodes that were there are there. -/
structure Session.Adds (s s' : Session α) : Prop where
  objects : s'.outline.objects = s.outline.objects
  layout : s.layout.Extends s'.layout

theorem Session.Adds.refl (s : Session α) : s.Adds s := ⟨rfl, .refl _⟩

variable {s s' : Session α}

theorem Session.Adds.trans {s'' : Session α} (h : s.Adds s') (h' : s'.Adds s'') : s.Adds s'' :=
  ⟨h'.objects.trans h.objects, h.layout.trans h'.layout⟩

instance : Tracked (Session.plan : Session α → List (ObjectOutline α) × Layout α) :=
  Tracked.map Outline.plan

instance : Resourceless (Session.plan : Session α → List (ObjectOutline α) × Layout α) where

namespace ExportM

variable {parent : Option NodeId} {V : List (ObjectOutline α) × Layout α → Prop} {id : NodeId}

theorem makeNode_adds {name type : String} {role : Role}
    (h : makeNode name type parent role s = .ok id s') : s.Adds s' := by
  obtain ⟨-, heading, -, rfl⟩ := makeNode_push h
  refine ⟨rfl, ?_⟩
  rw [layout_push]
  exact s.layout.extends_push _

theorem writeNode_layout (id : NodeId) (s : Session α) :
    Session.layout { s with file := s.file.write id } = s.layout.write id := by
  simp [Session.layout, Session.outline, Outline.layout, Layout.write, SceneFile.write]

theorem writeNode_adds (h : writeNode id s = .ok () s') : s.Adds s' := by
  cases h
  refine ⟨rfl, ?_⟩
  rw [writeNode_layout]
  exact s.layout.extends_write id

/-- The plan is one that the session `base` can get to. -/
def PlanFrom (base : Session α) (plan : List (ObjectOutline α) × Layout α) : Prop :=
  plan.1 = base.outline.objects ∧ base.layout.Extends plan.2

theorem planFrom_iff {base : Session α} : PlanFrom base s.plan ↔ base.Adds s :=
  ⟨fun h => ⟨h.1, h.2⟩, fun h => ⟨h.objects, h.layout⟩⟩

theorem adds_of_ok {step : ExportM α β}
    (h : ∀ base : Session α, Lasts Session.plan (PlanFrom base) step) {b : β}
    (hs : step s = .ok b s') : s.Adds s' :=
  planFrom_iff.1 (h s s (planFrom_iff.2 (.refl s)) b s' hs)

theorem setNode_plan {always : Bool} (id : NodeId) (name : String) (v : Value α) :
    Keeps always Session.plan (setNode id name v) :=
  .pair (.modify fun _ => rfl) (setNode_layout id name v)

variable [Scalar α]

theorem lasting_plan_of_make (hmake : ∀ name type parent role, Lasts Session.plan V
    (makeNode name type parent role)) (hwr : ∀ id, Lasts Session.plan V (writeNode id)) :
    Lasting Session.plan V :=
  lasting_of_make setNode_plan hmake hwr fun id _ => .pair (.modify fun _ => rfl)
    (updateNode_layout id fun _ => rfl)

/-- What stays true while nodes are added lasts through an export. -/
theorem lasting_of_adds (hV : ∀ {s s' : Session α}, s.Adds s' → V s.plan → V s'.plan) :
    Lasting Session.plan V :=
  lasting_plan_of_make (fun _ _ _ _ _ hs _ _ h => hV (makeNode_adds h) hs) fun _ _ hs _ _ h =>
    hV (writeNode_adds h) hs

theorem lasting_plan (base : Session α) : Lasting Session.plan (PlanFrom base) :=
  lasting_of_adds fun h hs => planFrom_iff.2 ((planFrom_iff.1 hs).trans h)

end ExportM

end SceneExport
