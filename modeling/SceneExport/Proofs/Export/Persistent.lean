import SceneExport.Proofs.Export.Parents

/-!
# Exporting one object, step by step

What an export does to the nodes of a file comes down to a few steps: it makes nodes, sets
properties of the nodes that it made, lets them refer to resources, turns or moves nodes, and leaves
notes at nodes that were there before.  If something lasts through each of these steps for an object
(`Persistent`), then it lasts through the export of the object, whatever it is exported as.  This
file takes it from the steps to the functions that `exportSingle` is made of.

A persistent relation `V base now` may look back to where it started, so that what a resource was
made for is still true when a node refers to it.  What is known of the object, of the nodes that the
export made itself and of the references that nodes may have (`Seen`, `Own`, `Ref`) is up to the
user.
-/

namespace SceneExport

variable {α β γ : Type}

/-- Whether an object that is exported as something gets the nodes of its body. -/
def ObjectKind.Embodies (kind : ObjectKind) (o : Object α) : Prop :=
  match kind with
  | .mesh | .surface | .metaball | .font => True
  | .curve => o.data.splines ≠ []
  | _ => False

theorem ObjectKind.isKnown_of_embodies {kind : ObjectKind} {o : Object α} (h : kind.Embodies o) :
    kind.isKnown = true := by
  cases kind with
  | particle => exact h.elim
  | geometry => exact h.elim
  | other word => exact h.elim
  | _ => rfl

namespace ExportM

/-- The relation `V` lasts through the steps of which the export of an object is made, but for
turning nodes back.  The object is always `Seen`, the nodes that are made are `Own` ones, and only
these are set freely and refer to resources, if a reference is fine (`Ref`). -/
structure Steady [Scalar α] (cfg : Settings) (id : ObjectId) (view : Session α → γ)
    (V : γ → γ → Prop) (Seen : Object α → Prop) (Own : NodeId → Prop)
    (Ref : String → Reference → γ → Prop) : Prop where
  refl : ∀ {base x}, V base x → V x x
  trans : ∀ {base x y}, V base x → V x y → V base y
  mono : ∀ {x y name r}, V x y → Ref name r x → Ref name r y
  object : ∀ {base}, Gets view (V base) (object id) fun o _ => Seen o
  make : ∀ {base} name {type}, type ≠ "AnimationPlayer" → ∀ parent role,
    Gets view (V base) (makeNode name type parent role) fun i _ => Own i
  write : ∀ {base} i, Lasts view (V base) (writeNode i)
  set : ∀ {base i}, Own i → ∀ {name}, IsPlainName name → ∀ v, Lasts view (V base) (setNode i name v)
  note : ∀ {base} i {name}, IsPlainName name → name ≠ "transform" → ∀ v, Lasts view (V base)
    (setNode i name v)
  refer : ∀ {base i}, Own i → ∀ {name}, NoCue name → ∀ r,
    Leads (fun s => V base (view s) ∧ Ref name r (view s)) (setNode i name (.reference r))
    fun _ s => V base (view s)
  role : ∀ {base i}, Own i → ∀ role, Lasts view (V base) (changeFile fun f =>
    { f with tree := f.tree.update i fun n => { n with role } })
  move : ∀ {base i}, Own i → ∀ o, Lasts view (V base) (moveAlongBone o i)
  animate : ∀ {base} a node, Lasts view (V base) (exportAnimation cfg a node)
  substance : ∀ {base} (r : Resource α), r.PlainOf ["PhysicsMaterial"] → Gets view (V base)
    (forceInternal r) fun n => Ref "physics_material_override" (.internal (some n))
  meshShape : ∀ {base} b convex, Gets view (V base) (exportMeshShape cfg id b convex)
    fun found x =>
    ∀ n ∈ found, Ref "shape" (.internal (some n)) x
  mesh : ∀ {base} bones, Gets view (V base) (exportMesh cfg id bones) fun found x =>
    ∀ n ∈ found, Ref "mesh" (.internal (some n)) x
  material : ∀ {base} material, Gets view (V base) (exportMaterial cfg id material) fun r x =>
    ∀ surface : Nat, Ref ("material/" ++ toString surface) r x
  spline : ∀ {base} curve, Gets view (V base) (exportSpline id curve) fun n =>
    Ref "curve" (.internal (some n))
  system : ∀ {base} target bones index s,
    Gets view (V base) (exportMesh cfg target bones >>= exportSystem id index s) fun n =>
      Ref "multimesh" (.internal (some n))
  idle : ∀ {o o' x}, cfg.has .particle = true → Seen o → o.particles ≠ [] → Seen o' →
    (∀ i < o'.particles.length, o'.activeParticles ≠ some i) → Ref "multimesh" (.internal none) x

/-- The relation `V` lasts through all the steps of which the export of an object is made. -/
structure Persistent [Scalar α] (cfg : Settings) (id : ObjectId) (view : Session α → γ)
    (V : γ → γ → Prop) (Seen : Object α → Prop) (Own : NodeId → Prop)
    (Ref : String → Reference → γ → Prop) : Prop extends Steady cfg id view V Seen Own Ref
    where
  turn : ∀ {base} i, Lasts view (V base) (turnBack i)

/-- A shape of simple form may be referred to, or be missing. -/
def Shapes [Scalar α] (id : ObjectId) (view : Session α → γ) (V : γ → γ → Prop)
    (Seen : Object α → Prop) (Ref : String → Reference → γ → Prop) : Prop :=
  ∀ base o b name, Seen o → o.rigidBody = some b → ¬ (b.shape = "CONVEX_HULL" ∨ b.shape = "MESH") →
    Gets view (V base) (exportSimpleShape id o b name) fun n => Ref "shape" (.internal n)

/-- A node may show the copies of the system that was found. -/
def MayShow (Ref : String → Reference → γ → Prop) (active : Option Nat) (x : γ) : Prop :=
  ∀ n ∈ active, Ref "multimesh" (.internal (some n)) x

/-- The node of an object is an own one, but for an empty that is not to be exported. -/
def OwnUnlessDropped (cfg : Settings) (kind : ObjectKind) (Own : NodeId → Prop)
    (made : Option NodeId) : Prop :=
  (kind = .empty → cfg.has .empty = true) → ∀ i ∈ made, Own i

namespace Steady

variable [Scalar α] {cfg : Settings} {id : ObjectId} {view : Session α → γ} {V : γ → γ → Prop}
  {Seen : Object α → Prop} {Own : NodeId → Prop} {Ref : String → Reference → γ → Prop} {x : γ}
  (h : Steady cfg id view V Seen Own Ref)

include h

/-- What stays true along the relation is carried through a step. -/
theorem carry {step : ExportM α β} {Q : β → γ → Prop} (hstep : ∀ {base}, Gets view (V base) step Q)
    {K : γ → Prop} (hK : ∀ {x y}, V x y → K x → K y) : Gets view (fun y => V x y ∧ K y) step Q := by
  intro s hs b s' hr
  obtain ⟨hxy, hQ⟩ := hstep s (h.refl hs.1) b s' hr
  exact ⟨⟨h.trans hs.1 hxy, hK hxy hs.2⟩, hQ⟩

/-! ### Empties, cameras, lights and skeletons -/

variable (o : Object α) (parent : Option NodeId)

theorem crafts {type : String} (htype : type ≠ "AnimationPlayer") (parent : Option NodeId) :
    Crafts id parent type view Seen (fun _ => True) (V x) (fun i _ y => V x y ∧ Own i) fun i _ y =>
    V x y ∧ Own i where
  object := h.object
  make name role _ := h.make name htype parent role
  detail i _ j name hname v := .given fun _ => h.note j hname.1 hname.2 v
  localTransform i o _ := ((localTransform_keeps o).leads fun y => V x y ∧ Own i).also
  place i _ := .given fun hown => h.set hown (by decide) _
  write i _ := .given fun _ => h.write i

theorem exportEmpty : Gets view (V x) (exportEmpty cfg id parent) fun made _ =>
      OwnUnlessDropped cfg .empty Own made := by
  by_cases he : cfg.has .empty = true
  · refine ((h.crafts (by decide) parent).exportEmpty he).post ?_
    rintro _ s ⟨i, rfl, _, _, hs, hown⟩
    exact ⟨hs, fun _ j hj => Option.some.inj hj ▸ hown⟩
  · unfold ExportM.exportEmpty
    rw [if_pos (by simpa using he)]
    exact .pure fun _ h => ⟨h, fun hyes => absurd (hyes rfl) he⟩

theorem exportCamera : Gets view (V x) (exportCamera cfg id parent) fun i _ => Own i :=
  ((h.crafts (by decide) parent).exportCamera fun _ _ _ => .given fun _ => h.animate _ _).post
    fun _ _ ⟨_, _, hs⟩ => hs

theorem makeLight [Tracked view] (ho : Seen o) : Gets view (V x) (makeLight o parent) fun made _ =>
    ∀ i ∈ made, Own i := by
  cases htype : o.data.type?.bind lightNodeType? with
  | none =>
    refine (Crafts.makeLight_dark htype parent).post ?_
    rintro _ s ⟨hs, rfl⟩
    exact ⟨hs, nofun⟩
  | some type =>
    obtain ⟨word, -, hword⟩ := Option.bind_eq_some_iff.1 htype
    refine ((h.crafts (lightNodeType?_ne hword) parent).makeLight ho htype).post ?_
    rintro _ s ⟨i, rfl, _, _, hs, hown⟩
    exact ⟨hs, fun j hj => Option.some.inj hj ▸ hown⟩

theorem exportLight [Tracked view] :
    Gets view (V x) (exportLight cfg id parent) fun made _ => ∀ i ∈ made, Own i := by
  refine .bind h.object fun o => .of_fact fun ho => .bind (h.makeLight _ _ ho) fun node =>
    .of_fact fun hown => ?_
  exact .bind (h.animate _ _) fun _ => .pure fun _ h => ⟨h, hown⟩

theorem exportArmature : Gets view (V x) (exportArmature cfg id parent) fun i _ => Own i :=
  ((h.crafts (by decide) parent).exportArmature fun _ _ role => .given fun hown =>
    h.role hown role).post fun _ _ ⟨_, _, hs⟩ => hs

/-! ### Physics -/

theorem exportBody : Lasts view (V x) (exportBody id parent) := by
  refine (Crafts.exportBody (fun type ht => h.crafts (ne_of_mem_of_not_mem ht (by decide)) parent)
    fun _ i r hr => .given fun hown => ?_).post fun _ _ ⟨_, _, _, _, hs⟩ => hs.1
  exact .bind (h.substance r hr) fun number => h.refer hown (by decide) _

omit [Scalar α] h in
theorem bodyAbove (height : Nat) (id : Option NodeId) : Keeps false view (bodyAbove height id) := by
  induction height generalizing id with
  | zero => exact .throw
  | succ height ih =>
    refine .bind existing_keeps fun id => .bind (nodeType_keeps _) fun type => ?_
    split
    · exact .pure
    · exact .bind node_keeps fun n => ih _

theorem exportCollision (hshps : Shapes id view V Seen Ref) (body : NodeId)
    (root : Option ObjectId) :
    Gets view (V x) (exportCollision cfg id body root) fun i _ => Own i := by
  have hshap (i : NodeId) :
      Shaped cfg id view Seen (fun y => V x y ∧ Own i) i fun n => Ref "shape" (.internal n) :=
      {
    meshShape := fun b convex => .given_and fun _ => h.meshShape b convex
    simpleShape := fun o b name ho hb hno => .given_and fun _ => hshps _ o b name ho hb hno
    refer := fun n => (Leads.given fun hown => h.refer hown (by decide) _).pre fun _ h =>
      ⟨⟨h.1.1, h.2⟩, h.1.2⟩ }
  refine ((h.crafts (by decide) (some body)).exportCollision (fun _ => True) (fun i => ?_)
    (fun _ => True) (fun _ _ _ => trivial) fun i _ => hshap i).post fun _ _ ⟨_, _, hs⟩ => hs
  exact ((Keeps.option (fun _ => object_keeps _)).leads fun y => V x y ∧ Own i).also

theorem exportPhysics (hshps : Shapes id view V Seen Ref) (parent : Option NodeId) :
    Gets view (V x) (exportPhysics cfg id parent) fun i _ => Own i := by
  refine .keeping .get fun s => ?_
  extract_lets root rest
  have hr : ∀ parent, Gets view (V x) (rest parent) fun i _ => Own i := fun _ =>
    .keeping .get fun s => .keeping (bodyAbove _ _) fun body => h.exportCollision hshps _ _
  clear_value root
  split
  · exact .bind ((h.exportBody parent).map_any some) hr
  · exact .keeping .pure hr

/-! ### Meshes, curves and particles -/

theorem exportSkinnedMesh [Tracked view] : Gets view (V x) (exportSkinnedMesh cfg id)
    fun found x => ∀ n ∈ found, Ref "mesh" (.internal (some n)) x := by
  refine .keeping (object_keeps _) fun o => ?_
  extract_lets rest
  have hr : ∀ armature, Gets view (V x) (rest armature) fun found x =>
      ∀ n ∈ found, Ref "mesh" (.internal (some n)) x := by
    intro armature
    unfold rest
    split
    · exact h.mesh _
    · refine .keeping .get fun s => .keeping .lift fun numbers => ?_
      refine .keeping (object_keeps _) fun a => .keeping .lift fun a => ?_
      refine .keeping (setPosition_keeps _) fun _ => .bind (h.mesh _) fun found => ?_
      refine .keeping (V := fun y => V x y ∧ ∀ n ∈ found, Ref "mesh" (.internal (some n)) y)
        (setPosition_keeps _) fun _ => .pure fun _ h => h
  split
  · exact .keeping .lift hr
  · exact .keeping .pure hr

variable {node : NodeId}

theorem setOwnMaterials (hown : Own node) (surfaces : List (Int × Nat)) :
    Lasts view (V x) (setOwnMaterials cfg id o node surfaces) := by
  refine .bind (.forIn (fun _ s => V x (view s)) (fun x _ => ?_) _ _) fun _ => .done
  split
  split
  · next material surface _ _ _ =>
    split
    · refine .bind (h.material _) fun r => ?_
      refine .bind ((h.refer hown (noCue_append (by decide)) r).pre (fun s hs => ⟨hs.1, hs.2 _⟩))
        fun _ => .done
    · exact .done
  · exact .done

theorem showMesh [Tracked view] (hown : Own node) : Lasts view (V x)
    (showMesh cfg id o node) := by
  refine .bind h.exportSkinnedMesh fun number => ?_
  split
  · refine .bind ((h.refer hown (by decide) _).pre (fun s hs => ⟨hs.1, hs.2 _ rfl⟩)) fun _ => ?_
    refine .bind (h.set hown (by decide) _) fun _ => ?_
    refine .keeping (.bind .get fun s => ?_) fun surfaces => h.setOwnMaterials _ hown _
    split
    · exact .pure
    · exact .throw
  · exact .pure fun _ hs => hs.1

theorem exportInstance [Tracked view] (ho : Seen o) :
    Gets view (V x) (exportInstance cfg id o parent) fun i _ => Own i := by
  have hshow (i : NodeId) : Lasts view (fun y => V x y ∧ Own i)
    (ExportM.showMesh cfg id o i) :=
    .given fun hown => h.showMesh _ hown
  have hkeys (i : NodeId) : Lasts view (fun y => V x y ∧ Own i) (animateShapeKeys cfg o i) :=
    .given fun _ => lasts_animateShapeKeys (fun _ => h.animate _ _) o
  exact ((h.crafts (by decide) parent).exportInstance ho hshow fun i _ => hkeys i).post
    fun _ _ ⟨_, _, hs⟩ => hs

theorem exportMeshNode [Tracked view] (hshps : ∀ o, Seen o → Shapes id view V Seen Ref)
    (parent : Option NodeId) :
    Gets view (V x) (exportMeshNode cfg id parent) fun i _ => Own i := by
  refine .bind h.object fun o => .of_fact fun ho => ?_
  split
  · refine .bind (h.exportPhysics (hshps o ho) _) fun collision => .of_fact fun hown => ?_
    split
    · exact .pure fun _ h => ⟨h, hown⟩
    · exact h.exportInstance _ _ ho
  · exact h.exportInstance _ _ ho

theorem exportCurve [Tracked view] (hshps : ∀ o, Seen o → o.data.splines ≠ [] → Shapes id view V
    Seen Ref) (parent : Option NodeId) : Gets view (V x) (exportCurve cfg id parent) fun i _ =>
    Own i := by
  refine ((h.crafts (by decide) parent).exportCurve (fun _ _ n => Ref "curve" (.internal (some n)))
    (fun _ _ curve => .given_and fun _ => h.spline curve) (fun i _ n => ?_) fun ho hne i _ =>
    .given fun _ => ?_).post
    fun _ _ ⟨_, _, hs⟩ => hs
  · exact (Leads.given fun hown => h.refer hown (by decide) _).pre fun _ h => ⟨⟨h.1.1, h.2⟩, h.1.2⟩
  · refine .bind (h.exportMeshNode (fun _ _ => hshps _ ho hne) _) fun mesh => .of_fact fun hmesh =>
      ?_
    exact h.set hmesh (by decide) _

theorem exportParticles {o : Object α} (ho : Seen o) (hne : o.particles ≠ [])
    (hhas : cfg.has .particle = true) (parent : Option NodeId) : Lasts view (V x)
    (exportParticles cfg id parent) := by
  have hmono {active : Option Nat} {x y : γ} (hxy : V x y) (hx : MayShow Ref active x) :
    MayShow Ref active y :=
    fun n hn => h.mono hxy (hx n hn)
  refine (exportParticles_leads view Seen
    (K := fun active last y => (V x y ∧ MayShow Ref active y) ∧ ∀ i ∈ last, Own i)
    (F := fun i y => V x y ∧ Own i) (W := fun i y => V x y ∧ Own i) ?_ (fun active last name => ?_)
    (fun _ active i target index system _ => ?_) (fun ho' active i hidle => ?_)
    (fun i v => .given fun hown => h.set hown (by decide) v) fun i => .given fun _ =>
      h.write i).mono
    (fun _ hs => ⟨⟨hs, nofun⟩, nofun⟩) fun _ _ hs => hs.1
  · exact .given_and fun _ => h.carry h.object hmono
  · refine .of_fact fun _ => (h.carry (h.make name (by decide) _ _) hmono).post fun i s hs =>
      ⟨hs.1, ?_⟩
    exact fun j hj => Option.some.inj hj ▸ hs.2
  · refine .of_fact fun hlast => (h.carry (h.system _ _ _ _) hmono).post fun n s hs => ?_
    refine ⟨⟨hs.1, hlast⟩, fun _ => ⟨⟨hs.1.1, fun m hm => ?_⟩, hlast⟩⟩
    cases hm
    exact hs.2
  · refine .of_fact fun hown => ((h.refer (hown i rfl) (by decide) _).pre fun s hs =>
      ⟨hs.1, ?_⟩).post fun _ _ hs => ⟨hs, hown i rfl⟩
    cases active with
    | some n => exact hs.2 n rfl
    | none => exact h.idle hhas ho hne ho' (hidle rfl)

/-! ### Objects -/

theorem exportKind [Tracked view] (kind : ObjectKind)
    (hshps : ∀ o, Seen o → kind.Embodies o → Shapes id view V Seen Ref) (parent : Option NodeId) :
    Gets view (V x) (exportKind cfg kind id parent) fun made _ =>
      OwnUnlessDropped cfg kind Own made := by
  have hsome {step : ExportM α NodeId} (hstep : Gets view (V x) step fun i _ => Own i) :
      Gets view (V x) (some <$> step) fun made _ => OwnUnlessDropped cfg kind Own made := by
    refine (hstep.map some).post ?_
    rintro _ s ⟨i, ⟨hs, hown⟩, rfl⟩
    exact ⟨hs, fun _ j hj => Option.some.inj hj ▸ hown⟩
  have hmesh (hkind : ∀ o : Object α, kind.Embodies o) :=
    hsome (h.exportMeshNode (x := x) (fun o ho => hshps o ho (hkind o)) parent)
  cases kind with
  | mesh => exact hmesh fun _ => trivial
  | surface => exact hmesh fun _ => trivial
  | metaball => exact hmesh fun _ => trivial
  | font => exact hmesh fun _ => trivial
  | armature => exact hsome (h.exportArmature _)
  | camera => exact hsome (h.exportCamera _)
  | light => exact (h.exportLight _).post fun _ _ hs => ⟨hs.1, fun _ => hs.2⟩
  | empty => exact h.exportEmpty _
  | curve => exact hsome (h.exportCurve hshps _)
  | particle => exact .throw
  | geometry => exact .throw
  | other word => exact .throw

/-- What an object is put below is known, or it is an attachment that was made for the object. -/
theorem nodeAbove : Gets view (V x) (nodeAbove cfg id o parent) fun above _ =>
      isHung cfg o = true → ∀ i ∈ above, Own i := by
  unfold ExportM.nodeAbove
  split
  · refine (h.crafts (by decide) parent).exportAttachment.map some |>.post ?_
    rintro _ s ⟨node, ⟨⟨hs, hown⟩, -⟩, rfl⟩
    refine ⟨hs, fun _ i hi => ?_⟩
    cases hi
    exact hown
  · next hno => exact .pure fun _ h => ⟨h, fun hyes => absurd hyes hno⟩

theorem exportOwnParticles (ho : Seen o) (parent : Option NodeId) :
    Lasts view (V x) (exportOwnParticles cfg id o parent) :=
  lasts_exportOwnParticles fun hne hhas => h.exportParticles ho hne hhas parent

/-- The transform of a node is corrected.  What turning it back leads to is up to the user. -/
theorem correctTransform {above : Option NodeId} (made : Option NodeId)
    (hup : isHung cfg o = true → ∀ i ∈ above, Own i) {W : γ → Prop}
    (hnone : made = none → ∀ y, V x y → W y) (hturn : ∀ i ∈ made, Brings view (V x) (turnBack i)
    fun _ => W) :
    Brings view (V x) (correctTransform cfg o above made) fun _ => W := by
  unfold ExportM.correctTransform
  extract_lets rest
  have hr : ∀ r, Brings view (V x) (rest r) fun _ => W := by
    intro _
    cases made with
    | some i => exact hturn i rfl
    | none => exact .pure fun s hs => hnone rfl _ hs
  split
  · next hhung =>
    refine .bind .lift fun i => .of_fact fun hi => ?_
    exact .bind (h.move (hup hhung i (need_ok hi)) _) hr
  · exact hr ()

end Steady

end ExportM

end SceneExport
