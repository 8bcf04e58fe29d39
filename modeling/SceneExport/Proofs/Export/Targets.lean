import SceneExport.Proofs.Export.Held
import SceneExport.Proofs.Export.References

/-!
# What nodes refer to

Nodes refer to the resources of the file by some of their properties, and each of these needs a
resource of some types (`neededTypes`).  A reference is formatted with the number of the resource,
or without one if the resource was never made.  There are two places where this happens: a body of a
form for which there is no shape, and particle systems of which none is active (`Scene.Dangles`).

Main statement: in the file of a scene each property that is a reference is to a resource that is
there and has one of the types that it needs, unless it is one of these two, and these are written
if there are such objects (`ExportM.saveScene_targets`).

An object with particle systems gets one node for all of them, so that each system is shown exactly
if there is one and it is active (`ExportM.exportParticles_shown_iff`).

The references are followed in the cards of the nodes and the ledger of the resources together
(`Session.accounts`).
-/

namespace SceneExport

open List

variable {α β : Type} {scene : Scene α} {dangles : String → Prop} {name : String}
  {base : Cards α × Ledger α} {cfg : Settings} {b : RigidBody α} {id : ObjectId}

/-! ### Objects that lack a resource -/

/-- The forms of a rigid body that there are shapes for. -/
def shapeForms : List String := ["CONVEX_HULL", "MESH", "BOX", "SPHERE", "CAPSULE"]

variable {o x : Object α} {s : Session α}

namespace Object

/-- An object gets the nodes of a body, and there is no shape of the form of its body. -/
def Shapeless (o : Object α) : Prop :=
  o.kind.Embodies o ∧ ∃ b, o.rigidBody = some b ∧ b.shape ∉ shapeForms

/-- An object has particle systems, and none of them is active. -/
def Idles (o : Object α) : Prop :=
  o.particles ≠ [] ∧ ∀ i < o.particles.length, o.activeParticles ≠ some i

theorem embodies_of_lasting (h : x.lasting = o.lasting) {kind : ObjectKind} : kind.Embodies x ↔
    kind.Embodies o := by
  have hspli : x.data.splines = o.data.splines := congrArg (·.splines) h
  unfold ObjectKind.Embodies
  rw [hspli]

theorem particles_of_lasting (h : x.lasting = o.lasting) :
    x.particles = o.particles ∧ x.activeParticles = o.activeParticles :=
  ⟨congrArg (·.particles) h, congrArg (·.activeParticles) h⟩

theorem idles_of_lasting (h : x.lasting = o.lasting) : x.Idles ↔ o.Idles := by
  rw [Idles, Idles, (particles_of_lasting h).1, (particles_of_lasting h).2]

end Object

/-- In the export of a scene the property of a name refers to a resource that was never made. -/
def Scene.Dangles (scene : Scene α) (cfg : Settings) (name : String) : Prop :=
  (name = "shape" ∧ ∃ id ∈ (scene.selection cfg).accepted, ∃ o, scene.objects[id]? = some o ∧
    o.Shapeless) ∨ (name = "multimesh" ∧ cfg.has .particle = true ∧
      ∃ id ∈ (scene.selection cfg).valid, ∃ o, scene.objects[id]? = some o ∧ o.Idles)

/-! ### Accounts -/

/-- The property of a name refers to a resource of the file that has a type which it needs.  Only
materials may be in other files. -/
def SceneFile.Serves (f : SceneFile α) (name : String) : Reference → Prop
  | .internal (some n) => 1 ≤ n ∧ n ≤ f.internal.items.size ∧
      ∃ r, f.internal.get? n = some r ∧ ∃ t ∈ neededTypes name, r.entry.type? = some t
  | .internal none => False
  | .external n => neededTypes name = materialTypes ∧ 1 ≤ n ∧ n ≤ f.external.items.size
  | .named _ => False

namespace Ledger

variable {l l' : Ledger α} {r : Reference} {e : Entry α}

/-- As `SceneFile.Serves`, but for names with which a reference may dangle. -/
def Serves (l : Ledger α) (dangles : String → Prop) (name : String) : Reference → Prop
  | .internal (some n) => l.IsA n (neededTypes name)
  | .internal none => dangles name
  | .external n => neededTypes name = materialTypes ∧ l.IsFile n
  | .named _ => False

theorem Serves.mono (h : l.Extends l') (hr : l.Serves dangles name r) : l'.Serves dangles name
    r := by
  match r with
  | .internal (some n) => exact h.isA hr
  | .internal none => exact hr
  | .external n => exact ⟨hr.1, h.isFile hr.2⟩

theorem IsA.weaken {n : Nat} {types types' : List String} (h : l.IsA n types)
    (hs : types ⊆ types') :
    l.IsA n types' := by
  obtain ⟨hpos, e, he, t, ht, htype⟩ := h
  exact ⟨hpos, e, he, t, hs ht, htype⟩

/-- A material is in the file, or in another one. -/
theorem serves_of_allows (hname : neededTypes name = materialTypes) (h : l.Allows materialTypes r) :
    l.Serves dangles name r := by
  match r with
  | .internal (some n) =>
    rw [Serves, hname]
    exact h
  | .internal none =>
    have hno : materialTypes ≠ ["ArrayMesh"] := by decide
    exact absurd h hno
  | .external n => exact ⟨hname, h⟩

/-- All properties of an entry that are references serve. -/
def Supplies (l : Ledger α) (dangles : String → Prop) (e : Entry α) : Prop :=
  ∀ p ∈ e.properties, ¬ IsPlainName p.1 → ∃ r, p.2 = .reference r ∧ l.Serves dangles p.1 r

theorem Supplies.mono (h : l.Extends l') (he : l.Supplies dangles e) : l'.Supplies dangles e := by
  intro p hp hno
  obtain ⟨r, hr, hserv⟩ := he p hp hno
  exact ⟨r, hr, hserv.mono h⟩

theorem Supplies.set (h : l.Supplies dangles e) {v : Value α}
    (hv : ¬ IsPlainName name → ∃ r, v = .reference r ∧ l.Serves dangles name r) :
    l.Supplies dangles (e.set name v) := by
  intro p hp
  rcases Record.mem_set hp with hp | rfl
  · exact h p hp
  · exact hv

end Ledger

theorem Session.serves_or_dangles {dangles : String → Prop} {r : Reference}
    (h : s.ledger.Serves dangles name r) :
    s.file.Serves name r ∨ r = .internal none ∧ dangles name := by
  match r with
  | .internal (some n) =>
    left
    obtain ⟨hpos, e, he, htype⟩ := h
    simp only [Session.ledger, SceneFile.ledger, getElem?_map, Array.getElem?_toList,
      Option.map_eq_some_iff] at he
    obtain ⟨x, hx, rfl⟩ := he
    have hlt := (Array.getElem?_eq_some_iff.1 hx).1
    refine ⟨hpos, by omega, x, ?_, htype⟩
    rw [ResourceTable.get?, if_neg (by omega), hx]
  | .internal none => exact .inr ⟨rfl, h⟩
  | .external n => exact .inl h

/-- The nodes of a file together with its resources. -/
def Session.accounts (s : Session α) : Cards α × Ledger α :=
  (s.cards, s.ledger)

instance : Tracked (Session.accounts : Session α → Cards α × Ledger α) where
  object s id f hf := congrArg₂ Prod.mk (Quiet.object s id f hf) (Quiet.object s id f hf)
  detail s id detail := congrArg₂ Prod.mk (Tracked.detail s id detail) (Tracked.detail s id detail)
  playing s player id := congrArg₂ Prod.mk (Tracked.playing s player id)
    (Tracked.playing s player id)

/-- The nodes refer to what they need, and the ledger has grown from the one before. -/
structure Accounted (scene : Scene α) (dangles : String → Prop) (base x : Cards α × Ledger α) :
    Prop where
  scene : x.1.scene = scene.lasting
  grown : base.2.Grown x.2
  nodes : ∀ n ∈ x.1.nodes, x.2.Supplies dangles n.entry

namespace Accounted

variable {x : Cards α × Ledger α} (h : Accounted scene dangles base x) (i : NodeId)

include h

theorem push {n : NodeCard α} (hn : n.entry.properties = []) : Accounted scene dangles base
    (x.1.push n, x.2) := by
  refine ⟨h.scene, h.grown, fun m hm => ?_⟩
  rcases mem_append.1 hm with hm | hm
  · exact h.nodes m hm
  · cases mem_singleton.1 hm
    intro p hp
    rw [hn] at hp
    cases hp

theorem update {f : NodeCard α → NodeCard α} (hf : ∀ n, x.2.Supplies dangles n.entry →
    x.2.Supplies dangles (f n).entry) : Accounted scene dangles base (x.1.update i f, x.2) := by
  refine ⟨h.scene, h.grown, fun m hm => ?_⟩
  obtain ⟨j, hj⟩ := mem_iff_getElem?.1 hm
  simp only [Cards.update, getElem?_modify] at hj
  obtain ⟨n, hn, rfl⟩ := Option.map_eq_some_iff.1 hj
  have hn' := h.nodes n (mem_of_getElem? hn)
  split
  · exact hf n hn'
  · exact hn'

theorem set {v : Value α} (hv : ¬ IsPlainName name → ∃ r, v = .reference r ∧ x.2.Serves dangles name
    r) :
    Accounted scene dangles base (x.1.set i name v, x.2) :=
  h.update i fun _ hn => hn.set hv

/-- Resources are made. -/
theorem grow {l : Ledger α} (hl : x.2.Grown l) : Accounted scene dangles base (x.1, l) :=
  ⟨h.scene, h.grown.trans hl, fun n hn => (h.nodes n hn).mono hl.extension⟩

end Accounted

/-- The property by which a node refers to the resource of a particle system. -/
def Slot.particles (parent : Option NodeId) (i : NodeId) : Slot :=
  ⟨i, "MultiMeshInstance", parent, "multimesh"⟩

/-- The node of a slot refers to a resource if one of the particle systems of an object is
active. -/
def Cards.ShowsActive (c : Cards α) (scene : Scene α) (o : Object α) (slot : Slot) (done : Bool) :
    Prop :=
  ∃ active : Option Nat, (active = none ↔ ∀ k < o.particles.length, o.activeParticles ≠ some k) ∧
    c.Holds scene slot (some (.reference (.internal active))) done

namespace ExportM

open Session (cards accounts)

/-! ### Steps -/

variable {step : ExportM α β}

section

theorem makeNode_accounted (name type : String) (parent : Option NodeId) (role : Role) :
    Lasts accounts (Accounted scene dangles base) (makeNode name type parent role) := by
  intro s hs i s' h
  obtain ⟨-, heading, -, rfl⟩ := makeNode_push h
  show Accounted scene dangles base (cards _, s.ledger)
  rw [Session.cards_push]
  exact hs.push rfl

theorem writeNode_accounted (i : NodeId) : Lasts accounts (Accounted scene dangles base)
    (writeNode i) := by
  intro s hs _ s' h
  cases h
  exact ⟨hs.scene, hs.grown, hs.nodes⟩

theorem setNode_accounted (i : NodeId) (hname : IsPlainName name) (v : Value α) :
    Lasts accounts (Accounted scene dangles base) (setNode i name v) := by
  intro s hs _ s' h
  cases h
  show Accounted scene dangles base (cards _, s.ledger)
  rw [Session.cards_setNode]
  exact hs.set i fun hno => absurd hname hno

theorem setReference_accounted {i : NodeId} (name : String) (r : Reference) :
    Brings accounts (fun y => Accounted scene dangles base y ∧ y.2.Serves dangles name r)
      (setNode i name (.reference r)) fun _ => Accounted scene dangles base := by
  rintro s ⟨hs, hr⟩ _ s' h
  cases h
  show Accounted scene dangles base (cards _, s.ledger)
  rw [Session.cards_setNode]
  exact hs.set i fun _ => ⟨r, rfl, hr⟩

/-- Resources are made without a change of the nodes. -/
theorem resource_accounted {Q : β → Ledger α → Prop} (hcards : Keeps false cards step)
    (hledg : ∀ base : Ledger α, Brings Session.ledger base.Grown step fun b => base.With (Q b)) :
    Gets accounts (Accounted scene dangles base) step fun b x => Q b x.2 := by
  intro s hs b s' h
  have hwith := hledg s.ledger s hs.grown.sound.grown b s' h
  refine ⟨?_, hwith.fact⟩
  show Accounted scene dangles base (s'.cards, s'.ledger)
  rw [hcards.ok h]
  exact hs.grow hwith.grown

variable [Scalar α]

theorem forceInternal_accounted {r : Resource α} {types : List String} (hr : r.PlainOf types) :
    Gets accounts (Accounted scene dangles base) (forceInternal r) fun n x => x.2.IsA n types :=
  resource_accounted (forceInternal_keeps r) fun _ =>
    (forceInternal_leads r types).pre (fun _ hs => ⟨hs, Ledger.fits_of_plain hr⟩)

theorem createAnimation_accounted (player : NodeId) (name : String) :
    Lasts accounts (Accounted scene dangles base) (createAnimation player name) := by
  refine .keeping (liftLogged_keeps _) fun animation => ?_
  refine .bind (forceInternal_accounted Resource.plainOf_ofType) fun n => ?_
  refine .bind ((setReference_accounted _ _).pre (fun s hs => ⟨hs.1, ?_⟩)) fun _ => .done
  rw [Ledger.Serves, neededTypes_anims]
  exact hs.2

theorem exportAnimation_accounted (cfg : Settings) (a : Animated) {node : Option NodeId} :
    Lasts accounts (Accounted scene dangles base) (exportAnimation cfg a node) :=
  lasts_animation (fun parent => (makeNode_accounted _ _ parent _).also)
    (fun _ v => setNode_accounted _ (by decide) v) writeNode_accounted createAnimation_accounted
    cfg a node

end

/-! ### Objects -/

section

variable [Scalar α] {s' : Session α}

/-- The simple forms are known. -/
theorem simpleShape?_none (b : RigidBody α) (name : String) (sizes : List α) :
    Outcome.Gives (fun made => made = none ↔ b.shape ∉ ["BOX", "SPHERE", "CAPSULE"])
    (simpleShape? b name sizes) := by
  refine .skip fun size => ?_
  split
  · next hshp => exact .pure (by simp [hshp])
  · next hshp => exact .pure (by simp [hshp])
  · next hshp => exact .pure (by simp [hshp])
  · next hbox hsphe hcaps => exact .pure (by simpa using ⟨hbox, hsphe, hcaps⟩)

theorem exportSimpleShape_none {found : Option Nat} (h : exportSimpleShape id o b name s =
    .ok found s') :
    found = none ↔ b.shape ∉ ["BOX", "SPHERE", "CAPSULE"] := by
  obtain ⟨sizes, s1, -, h1⟩ := bind_ok h
  obtain ⟨shape, s2, hlift, h2⟩ := bind_ok h1
  have hnone : shape = none ↔ _ := simpleShape?_none b name sizes shape (lift_ok hlift).1
  rw [← hnone]
  cases shape with
  | none =>
    obtain ⟨_, s3, -, h3⟩ := bind_ok h2
    cases h3
    exact ⟨fun _ => rfl, fun _ => rfl⟩
  | some r =>
    obtain ⟨n, -, rfl⟩ := map_ok h2
    simp

/-- The references of nodes lead to what is needed through the export of an object that takes
part. -/
theorem persistent_accounted (hid : id ∈ (scene.selection cfg).valid) :
    Persistent cfg id accounts (Accounted scene (scene.Dangles cfg)) (scene.Recalls id)
      (fun _ => True) fun name r x => x.2.Serves (scene.Dangles cfg) name r where
  refl h := ⟨h.scene, h.grown.sound.grown, h.nodes⟩
  trans h h' := ⟨h'.scene, h.grown.trans h'.grown, h'.nodes⟩
  mono h hr := hr.mono h.grown.extension
  object := by
    intro _ s hs o s' h
    obtain ⟨rfl, ho⟩ := object_ok h
    exact ⟨hs, Scene.recalls_of_lasting hs.scene ho⟩
  make name type _ parent role := (makeNode_accounted name type parent role).also
  write := writeNode_accounted
  set _ _ hname v := setNode_accounted _ hname v
  note i _ hname _ v := setNode_accounted i hname v
  refer _ name _ r := setReference_accounted name r
  role := by
    intro _ i _ role s hs _ s' h
    cases h
    show Accounted scene (scene.Dangles cfg) _ (cards _, s.ledger)
    rw [Session.cards_update (g := fun n => { n with isSkeleton := role.isSkeleton }) s i fun _ =>
      rfl]
    exact hs.update i fun _ hn => hn
  turn i := lasts_turnBack fun v => setNode_accounted i (by decide) v
  move _ o := lasts_moveAlongBone (fun i v => setNode_accounted i (by decide) v) o
  animate := exportAnimation_accounted cfg
  substance _ hr := forceInternal_accounted hr
  meshShape b convex := by
    refine (resource_accounted (exportMeshShape_keeps cfg id b convex) fun _ =>
      exportMeshShape_leads cfg id b convex).post fun _ s h => ⟨h.1, fun n hn => ?_⟩
    exact (h.2 n hn).weaken (by decide)
  mesh bones := resource_accounted (exportMesh_keeps cfg id bones) fun _ => exportMesh_leads
    cfg id bones
  material m := by
    refine (resource_accounted (exportMaterial_keeps cfg id m) fun _ =>
      exportMaterial_leads cfg id m).post fun _ _ h => ⟨h.1, fun surface => ?_⟩
    exact Ledger.serves_of_allows neededTypes_material h.2
  spline curve := resource_accounted (exportSpline_keeps id curve) fun _ => exportSpline_leads id
    curve
  system target bones index system := resource_accounted
    ((exportMesh_keeps cfg target bones).bind fun mesh => exportSystem_keeps id index system
    mesh)
    fun _ => .bind (exportMesh_leads cfg target bones) fun mesh => exportSystem_leads id index
      system mesh
  idle := by
    rintro o o' _ hhas ⟨o0, ho0, ho⟩ hne ⟨o1, ho1, ho'⟩ hidle
    cases ho0.symm.trans ho1
    refine .inr ⟨rfl, hhas, id, hid, o0, ho0, ?_⟩
    have hpts : o'.particles = o.particles := congrArg (·.particles) (ho'.trans ho.symm)
    exact (Object.idles_of_lasting ho').1 ⟨hpts ▸ hne, hidle⟩

/-- A shape is missing only for a body of another form. -/
theorem shapes_accounted (hid : id ∈ (scene.selection cfg).accepted) {o' : Object α}
    (ho : scene.Recalls id o) (ho' : scene.Recalls id o') (he : o.kind.Embodies o') :
    Shapes id accounts (Accounted scene (scene.Dangles cfg)) (scene.Recalls id)
      fun name r x => x.2.Serves (scene.Dangles cfg) name r := by
  rintro base x b name ⟨o0, ho0, hx⟩ hb hoth s hs found s' h
  obtain ⟨hs', hfinds⟩ := resource_accounted (exportSimpleShape_keeps id x b name)
    (fun _ => exportSimpleShape_leads id x b name) s hs found s' h
  refine ⟨hs', ?_⟩
  cases hfnd : found with
  | some n => exact (hfinds n hfnd).weaken (by decide)
  | none =>
    have hunk := (exportSimpleShape_none h).1 hfnd
    -- What was read of the object at different times is all of one object of the scene.
    obtain ⟨o1, ho1, hlasti⟩ := ho
    cases ho0.symm.trans ho1
    obtain ⟨o2, ho2, hlasti'⟩ := ho'
    cases ho0.symm.trans ho2
    refine .inl ⟨rfl, id, hid, o0, ho0, ?_, b, ?_, ?_⟩
    · have hkind : o.kind = o0.kind := congrArg (·.outline.kind) hlasti
      rw [← hkind]
      exact (Object.embodies_of_lasting hlasti').1 he
    · rw [← hb]
      exact congrArg (·.outline.rigidBody) hx.symm
    · rw [not_or] at hoth
      simpa [shapeForms, hoth.1, hoth.2] using hunk

theorem exportScene_accounted {nodes : ExportedNodes} (hfile : s.file = {})
    (h : exportScene cfg s = .ok nodes s') : Accounted s.scene (s.scene.Dangles cfg)
    s.accounts s'.accounts := by
  have hst : Accounted s.scene (s.scene.Dangles cfg) s.accounts s.accounts := by
    have hemp : s.accounts = (⟨s.scene.lasting, [], []⟩, ({} : SceneFile α).ledger) := by
      simp [accounts, cards, Session.ledger, hfile]
    rw [hemp]
    exact ⟨rfl, Ledger.sound_empty.grown, nofun⟩
  refine lasts_exportScene (fun _ _ => rfl) (fun id hid parent => ?_) (fun name => ?_)
    (fun i v => setNode_accounted i (by decide) v) s ⟨hst, rfl⟩ nodes s' h
  · exact (persistent_accounted hid).exportSingle (fun o o' ho ho' hid he => shapes_accounted hid ho
      ho' he) parent
  · exact .bind (makeNode_accounted _ _ _ _) fun root => .bind (writeNode_accounted _) fun _ =>
      .done

end

/-! ### References that dangle -/

/-- A node that is written refers to a resource that was never made, by a property with a name. -/
def Dangling (scene : Scene α) (name : String) (c : Cards α) : Prop :=
  ∃ slot : Slot, slot.name = name ∧ c.Holds scene slot (some (.reference (.internal none))) true

theorem Dangling.lasting {scene : Scene α} (h : Dangling scene name s.cards) : s.lasting =
    scene.lasting := by
  obtain ⟨slot, -, hs⟩ := h
  exact hs.scene

/-- Wherever the step starts from in the export of a scene, it leaves a reference that dangles. -/
abbrev LeavesDangling (scene : Scene α) (name : String) (step : ExportM α β) : Prop :=
  Leads (fun s => s.lasting = scene.lasting) step fun _ s => Dangling scene name s.cards

section

variable {parent : Option NodeId}

theorem lasts_dangling (h : ∀ slot : Slot, slot.name = name →
    Lasts cards (Cards.Holds scene slot (some (.reference (.internal none))) true) step) :
    Lasts cards (Dangling scene name) step := by
  rintro s ⟨slot, hname, hs⟩ b s' hr
  exact ⟨slot, hname, h slot hname s hs b s' hr⟩

theorem makeReferring_holds (title : String) {type : String} (hname : name ≠ "transform") :
    Brings cards (·.scene = scene.lasting) (makeNode title type parent .plain) fun i =>
      (·.Holds scene ⟨i, type, parent, name⟩ none false) :=
  (makeNode_holds title rfl name).pre (fun _ hs => ⟨hs, fun he => absurd he hname⟩)

variable [Scalar α] (cfg : Settings) (ho : scene.objects[id]? = some o)

include ho

/-- However many systems there are, one node is written. -/
theorem exportParticles_holds (written : List NodeId) :
    Leads (fun s => s.lasting = scene.lasting ∧ s.cards.written = written)
    (exportParticles cfg id parent) fun i s =>
      s.cards.written = written ++ [i] ∧ s.cards.ShowsActive scene o (.particles parent i)
        true := by
  -- Only the node that was made last has a slot, and a system that was found active is one of the
  -- object's own.
  refine (exportParticles_leads cards (fun x => x.lasting = o.lasting)
    (K := fun active last c => ((c.scene = scene.lasting ∧ c.written = written) ∧
      ∀ i ∈ last, c.Holds scene (.particles parent i) none false) ∧
      (active ≠ none → ∃ k < o.particles.length, o.activeParticles = some k))
    (F := fun i c => c.written = written ∧ c.ShowsActive scene o (.particles parent i) false)
    (W := fun i c => c.written = written ++ [i] ∧ c.ShowsActive scene o (.particles parent i) true)
    (object_recalls ho fun h => h.1.1.1) ?_ ?_ ?_ ?_ ?_).pre fun s hs => ⟨⟨hs, nofun⟩, absurd rfl⟩
  · intro active last title s hs i s' h
    have hmade := makeReferring_holds title (show "multimesh" ≠ "transform" by decide) s hs.1.1.1 i
      s' h
    obtain ⟨-, heading, -, rfl⟩ := makeNode_push h
    exact ⟨⟨hs.1.1, fun j hj => Option.some.inj hj ▸ hmade⟩, hs.2⟩
  · intro x hx active i target index system hindex s hs n s' h
    have hkp : Keeps false cards (exportMesh cfg target [] >>= exportSystem id index system) :=
      .bind (exportMesh_keeps _ _ _) fun mesh => exportSystem_keeps _ _ _ mesh
    obtain ⟨hpts, hact⟩ := Object.particles_of_lasting hx
    rw [hkp.ok h, hact]
    exact ⟨hs, fun hindex' => ⟨hs.1, fun _ => ⟨index, hpts ▸ hindex, hindex'⟩⟩⟩
  · intro x hx active i hno s hs _ s' h
    obtain ⟨hpts, hact⟩ := Object.particles_of_lasting hx
    rw [hpts, hact] at hno
    cases h
    refine ⟨hs.1.1.2, active, ⟨hno, fun hidle => by_contra fun hne => ?_⟩, ?_⟩
    · obtain ⟨k, hk, hact⟩ := hs.2 hne
      exact hidle k hk hact
    · rw [Session.cards_setNode]
      exact (hs.1.2 i rfl).fill _
  · rintro i v s ⟨hw, active, hact, hs⟩ _ s' h
    cases h
    rw [Session.cards_setNode]
    exact ⟨hw, active, hact, hs.set (.inr (show "visible" ≠ "multimesh" by decide)) v⟩
  · rintro i s ⟨hw, active, hact, hs⟩ _ s' h
    cases h
    rw [Session.cards_write]
    exact ⟨congrArg (· ++ [i]) hw, active, hact, hs.finish⟩

/-- Of systems none of which is active, none is shown. -/
theorem exportParticles_idle (hidle : o.Idles) :
    LeavesDangling scene "multimesh" (exportParticles cfg id parent) := by
  intro s hs i s' h
  obtain ⟨-, active, hact, hholds⟩ := exportParticles_holds cfg ho s.cards.written s ⟨hs, rfl⟩
    i s' h
  rw [hact.2 hidle.2] at hholds
  exact ⟨_, rfl, hholds⟩

theorem exportInstance_dangling (hfix : FixedName name) (hx : x.lasting = o.lasting) :
    Lasts cards (Dangling scene name) (exportInstance cfg id x parent) := by
  refine lasts_dangling fun slot hslot s hs i s' h => ?_
  subst hslot
  exact ((persistent_holds hfix cfg id).exportInstance (x := s.cards) x parent ⟨o, ho, hx⟩ s hs
    i s' h).1

omit ho in
theorem exportSimpleShape_unknown {slot : Slot} {v : Option (Value α)} {done : Bool}
    (hunk : b.shape ∉ shapeForms) (x : Object α) (title : String) :
    Gets cards (·.Holds scene slot v done) (exportSimpleShape id x b title) fun found _ => found =
    none := by
  intro s hs found s' h
  refine ⟨((exportSimpleShape_keeps id x b title).leads _) s hs found s' h,
    (exportSimpleShape_none h).2 fun hmem => ?_⟩
  exact hunk (mem_cons_of_mem _ (mem_cons_of_mem _ hmem))

section

variable (hb : o.rigidBody = some b) (hunk : b.shape ∉ shapeForms)

include hb hunk

theorem exportCollision_shapeless (body : NodeId) (root : Option ObjectId) :
    LeavesDangling scene "shape" (exportCollision cfg id body root) := by
  have hname : "shape" ≠ "transform" := by decide
  refine .bind (object_recalls ho fun h => h) fun x => .of_fact fun hx => ?_
  extract_lets title
  refine .bind (makeReferring_holds title hname) fun node => ?_
  refine .keeping (.option (fun _ => object_keeps _)) fun rootObject => .keeping .lift fun t => ?_
  refine .bind (setNode_holds (.inr hname.symm) _) fun _ => .bind .lift fun found =>
    .of_fact fun hfnd => ?_
  have hbody : x.rigidBody = some b := (congrArg (·.outline.rigidBody) hx).trans hb
  cases (need_ok hfnd).symm.trans hbody
  have hoth : ¬ (b.shape = "CONVEX_HULL" ∨ b.shape = "MESH") := by
    rintro (hshp | hshp)
    · exact hunk (by simp [shapeForms, hshp])
    · exact hunk (by simp [shapeForms, hshp])
  rw [if_neg hoth]
  refine .bind (exportSimpleShape_unknown hunk x title) fun number => .of_fact fun hnum => ?_
  subst hnum
  exact .bind (fillSlot _) fun _ => .bind finishSlot fun _ => .pure fun s hs => ⟨_, rfl, hs⟩

theorem exportPhysics_shapeless : LeavesDangling scene "shape" (exportPhysics cfg id parent) :=
    by
  have hlast := (lasting_scene (α := α) (· = scene.lasting)).persistent cfg id
  refine .keeping (V := (· = scene.lasting)) .get fun s => ?_
  extract_lets root rest
  have hr : ∀ parent, LeavesDangling scene "shape" (rest parent) := by
    intro parent
    refine .keeping (V := (· = scene.lasting)) .get fun s => ?_
    refine .keeping (V := (· = scene.lasting)) (Steady.bodyAbove _ _) fun body => ?_
    exact exportCollision_shapeless cfg ho hb hunk body root
  clear_value root
  split
  · exact .bind ((hlast.exportBody (x := scene.lasting) parent).map_any some) hr
  · exact .keeping (V := (· = scene.lasting)) .pure hr

theorem exportMeshNode_shapeless : LeavesDangling scene "shape"
    (exportMeshNode cfg id parent) := by
  refine .bind (object_recalls ho fun h => h) fun x => .of_fact fun hx => ?_
  have hbody : x.rigidBody = some b := (congrArg (·.outline.rigidBody) hx).trans hb
  rw [Object.hasPhysics, hbody]
  refine .bind (exportPhysics_shapeless cfg ho hb hunk) fun collision => ?_
  split
  · exact .done
  · exact exportInstance_dangling cfg ho (by decide) hx

theorem exportCurve_shapeless (hne : o.data.splines ≠ []) :
    LeavesDangling scene "shape" (exportCurve cfg id parent) := by
  have hlast := lasting_scene (α := α) (· = scene.lasting)
  refine .bind (object_recalls ho fun h => h) fun x => .of_fact fun hx => ?_
  extract_lets rest
  have hr : ∀ curve, x.data = .curve curve → LeavesDangling scene "shape" (rest curve) := by
    intro curve hcurve
    refine .bind (hlast.make _ (by decide) _ _) fun path => ?_
    refine .keeping (V := (· = scene.lasting)) (localTransform_keeps _) fun t => ?_
    refine .keeping (V := (· = scene.lasting)) (hlast.set _ (by decide) _) fun _ => ?_
    refine .bind (hlast.write _) fun _ => ?_
    -- Every spline gets a collision shape of its own, so there is one after the first round.
    refine .bind (Leads.mono (.loop (fun rest _ s => s.lasting = scene.lasting ∧
      (rest = [] → Dangling scene "shape" s.cards)) ?_ _ _) ?_ fun _ _ h => h) fun d => ?_
    · rintro ⟨spline, index⟩ rest _
      refine Leads.mono (P := fun s => s.lasting = scene.lasting) ?_ (fun _ hs => hs.1) fun _ _ h =>
        h
      split
      extract_lets shown
      have hs : ∀ r, Leads (fun s => s.lasting = scene.lasting) (shown r) fun step s => ∃ d, step =
        .yield d ∧
          s.lasting = scene.lasting ∧ (rest = [] → Dangling scene "shape" s.cards) := by
        intro _
        refine .bind (exportMeshNode_shapeless cfg ho hb hunk) fun mesh => ?_
        refine .bind (lasts_dangling fun slot hslot => setNode_holds (.inr ?_) _) fun _ => ?_
        · rw [hslot]
          decide
        · exact .pure fun s hs => ⟨_, rfl, hs.lasting, fun _ => hs⟩
      split
      · refine .bind (hlast.spline _ _) fun number => ?_
        split
        · exact .keeping (V := (· = scene.lasting)) (hlast.set _ (by decide) _) hs
        · exact hs ()
      · exact hs ()
    · refine fun s hs => ⟨hs, fun hnil => absurd ?_ hne⟩
      have hspli : x.data.splines = o.data.splines := congrArg (·.splines) hx
      rw [← hspli, hcurve]
      exact zipIdx_eq_nil_iff.1 hnil
    · exact .pure fun s hs => hs.2 rfl
  split
  · next curve hcurve =>
    rw [pure_bind]
    exact hr curve hcurve
  · exact .bind (Q := fun _ _ => False) .throw fun _ _ hs => hs.elim

end

theorem exportKind_shapeless (hshp : o.Shapeless) :
    LeavesDangling scene "shape" (exportKind cfg o.kind id parent) := by
  obtain ⟨he, b, hb, hunk⟩ := hshp
  have hmesh : LeavesDangling scene "shape" (some <$> exportMeshNode cfg id parent) :=
    (exportMeshNode_shapeless cfg ho hb hunk).map_any some
  cases hkind : o.kind with
  | mesh => exact hmesh
  | surface => exact hmesh
  | metaball => exact hmesh
  | font => exact hmesh
  | curve =>
    rw [hkind] at he
    exact (exportCurve_shapeless cfg ho hb hunk he).map_any some
  | _ =>
    rw [hkind] at he
    exact he.elim

/-! ### From objects to scenes -/

omit ho

section

variable {cfg} {kind : ObjectKind} {above made : Option NodeId}

theorem exportKind_dangling (hfix : FixedName name) :
    Lasts cards (Dangling scene name) (exportKind cfg kind id parent) := by
  refine lasts_dangling fun slot hslot s hs made s' h => ?_
  subst hslot
  exact ((persistent_holds hfix cfg id).exportKind (x := s.cards) kind
    (fun _ _ _ => shapes_cards id) parent s hs made s' h).1

theorem correctTransform_dangling (hname : name ≠ "transform") :
    Lasts cards (Dangling scene name) (correctTransform cfg x above made) :=
  lasts_dangling fun _ hslot => correctTransform_holds (fun _ => hslot ▸ hname) above made

theorem animateObject_dangling (hfix : FixedName name) :
    Lasts cards (Dangling scene name) (animateObject cfg id above made) :=
  lasts_dangling fun _ hslot => animateObject_holds (hslot ▸ hfix) id above made

end

include ho

theorem exportOwnParticles_idle (hidle : o.Idles) (hhas : cfg.has .particle = true)
    (hx : x.lasting = o.lasting) :
    LeavesDangling scene "multimesh" (exportOwnParticles cfg id x parent) := by
  have hne : x.particles.isEmpty = false := by
    simpa using ((Object.idles_of_lasting hx).2 hidle).1
  rw [exportOwnParticles, hhas, hne]
  exact .bind (exportParticles_idle cfg ho hidle) fun _ => .done

theorem exportAs_idle (hidle : o.Idles) (hhas : cfg.has .particle = true)
    (hx : x.lasting = o.lasting) (kind : ObjectKind) : LeavesDangling scene "multimesh"
    (exportAs cfg kind id x parent) := by
  have hlast := lasting_scene (α := α) (· = scene.lasting)
  have hfix : FixedName "multimesh" := by decide
  refine .bind (hlast.nodeAbove cfg id x parent) fun above => ?_
  refine .bind (exportOwnParticles_idle cfg ho hidle hhas hx) fun _ => ?_
  refine .bind (exportKind_dangling hfix) fun made => ?_
  refine .bind (correctTransform_dangling (by decide)) fun _ => ?_
  exact .bind (animateObject_dangling hfix) fun _ => .done

theorem exportAs_shapeless (hshp : o.Shapeless) (hx : x.lasting = o.lasting) :
    LeavesDangling scene "shape" (exportAs cfg x.kind id x parent) := by
  have hlast := lasting_scene (α := α) (· = scene.lasting)
  have hfix : FixedName "shape" := by decide
  have hkind : x.kind = o.kind := congrArg (·.outline.kind) hx
  rw [hkind]
  refine .bind (hlast.nodeAbove cfg id x parent) fun above => ?_
  refine .bind (hlast.exportOwnParticles cfg id x above) fun _ => ?_
  refine .bind (exportKind_shapeless cfg ho hshp) fun made => ?_
  refine .bind (correctTransform_dangling (by decide)) fun _ => ?_
  exact .bind (animateObject_dangling hfix) fun _ => .done

theorem visit_dangling {selection : Selection}
    (h : ∀ x : Object α, x.lasting = o.lasting → ∀ kind, (id ∈ selection.accepted → kind = x.kind) →
    ∀ parent, LeavesDangling scene name (exportAs cfg kind id x parent)) (root : NodeId)
    (nodes : ExportedNodes) :
    LeavesDangling scene name (visit cfg scene selection root nodes id) := by
  refine .keeping (V := (· = scene.lasting)) (.modify fun _ => rfl) fun _ => ?_
  refine .bind (object_recalls ho fun h => h) fun x => .of_fact fun hx => ?_
  unfold visitedKind
  split
  · rw [pure_bind]
    exact .bind (h x hx _ (fun _ => rfl) _) fun made => .done
  · next hno =>
    rw [bind_assoc]
    refine .keeping (V := (· = scene.lasting)) warn_keeps fun _ => ?_
    rw [pure_bind]
    exact .bind (h x hx .empty (fun hyes => absurd (by simpa using hyes) hno) _) fun made => .done

end

section

variable [Scalar α] {s s' : Session α} {nodes : ExportedNodes}

theorem exportScene_of_visit {id : ObjectId} (hs : s.scene.IsForest)
    (hid : id ∈ (s.scene.selection cfg).valid) (hfix : FixedName name)
    (hskel : name ≠ "skeleton") (hvst : ∀ root nodes, LeavesDangling s.scene name
      (visit cfg s.scene (s.scene.selection cfg) root nodes id))
    (h : exportScene cfg s = .ok nodes s') : Dangling s.scene name s'.cards := by
  have hvis := visitScene_of_exportScene hs h
  obtain ⟨before, after, hord⟩ := append_of_mem (hs.mem_order.2 hid)
  rw [hord] at hvis
  obtain ⟨editing, root, done, done', t, u, hpre, hvisd, hpost⟩ := visitScene_cut hvis
  have hu := hvst root done t (visitBefore_scene hpre) done' u hvisd
  exact lasts_dangling (fun _ hslot => visitAfter_holds (hslot ▸ hfix) (hslot ▸ hskel) _ _ _) u hu _
    _ hpost

/-- Each object that lacks a resource leaves a reference that dangles. -/
theorem exportScene_dangling (hs : s.scene.IsForest) (hname : s.scene.Dangles cfg name)
    (h : exportScene cfg s = .ok nodes s') : Dangling s.scene name s'.cards := by
  rcases hname with ⟨rfl, id, hid, o, ho, hshp⟩ | ⟨rfl, hhas, id, hid, o, ho, hidle⟩
  · have hvld : id ∈ (s.scene.selection cfg).valid := Scene.mem_valid_of_accepted hid
    refine exportScene_of_visit hs hvld (by decide) (by decide) (fun root nodes => ?_) h
    refine visit_dangling cfg ho (fun x hx kind hkind parent => ?_) root nodes
    rw [hkind hid]
    exact exportAs_shapeless cfg ho hshp hx
  · refine exportScene_of_visit hs hid (by decide) (by decide) (fun root nodes => ?_) h
    exact visit_dangling cfg ho (fun x hx kind _ _ => exportAs_idle cfg ho hidle hhas hx
      kind) root nodes

/-! ### Saving a scene -/

omit [Scalar α] in
theorem withFeatures_leads : Leads (fun _ : Session α => True) (withFeatures cfg)
    fun found _ =>
    ∃ b, found = { cfg with bezierTracks := b } := by
  unfold withFeatures
  split
  · exact .pure fun _ _ => ⟨_, rfl⟩
  refine .bind (fun _ _ _ _ _ => trivial) fun directory => ?_
  extract_lets rest
  have hr : ∀ version, Leads (fun _ : Session α => True) (rest version) fun found _ =>
      ∃ b, found = { cfg with bezierTracks := b } := by
    intro version
    unfold rest
    split
    · exact .bind (fun _ _ _ _ _ => trivial) fun _ => .pure fun _ _ => ⟨_, rfl⟩
    · exact .pure fun _ _ => ⟨_, rfl⟩
  split
  · exact .bind (fun _ _ _ _ _ => trivial) hr
  · exact .bind (fun _ _ _ _ _ => trivial) hr

/-- What is written was exported from the scene with some features. -/
theorem saveScene_ok (h : saveScene cfg s = .ok () s') :
    ∃ b nodes t t', t.scene = s.scene ∧ t.file = s.file ∧
      exportScene { cfg.withGeometry with bezierTracks := b } t = .ok nodes t' ∧
      s'.accounts = t'.accounts := by
  obtain ⟨found, t, hfeat, h1⟩ := bind_ok h
  have : Aside fun s : Session α => (s.scene, s.file) := {}
  have ht := (withFeatures_keeps _ : Keeps true (fun s : Session α => (s.scene, s.file)) _).ok hfeat
  obtain ⟨b, rfl⟩ := withFeatures_leads s trivial found t hfeat
  obtain ⟨nodes, t', hexpo, h2⟩ := bind_ok h1
  have hpaths (target : String) : Keeps false accounts (fixPaths target : ExportM α Unit) :=
    .pair (fixPaths_keeps target) (fixPaths_ledger target)
  refine ⟨b, nodes, t, t', congrArg Prod.fst ht, congrArg Prod.snd ht, hexpo, ?_⟩
  refine (?_ : Keeps false accounts _).ok h2
  refine .bind (hpaths _) fun _ => .bind (writeFile_keeps _ _) fun _ => ?_
  exact .bind fileText_keeps fun text => writeFile_keeps _ text

/-- **What nodes refer to.**  A scene is saved to a file that was empty.  Then each property of a
node by which it refers to a resource has a reference, and this is to a resource that is there and
has a type which the property needs.  Only two of them may be without a resource: the shape of a
body of which there is no shape, and the copies that an object shows if none of its particle systems
is active.  If the objects are a forest, each of these is written if there is such an object among
those that are exported. -/
theorem saveScene_targets (hfile : s.file = {}) (h : saveScene cfg s = .ok () s') :
    (∀ n ∈ s'.file.tree.nodes, ∀ p ∈ n.entry.properties, ¬ IsPlainName p.1 →
    ∃ r, p.2 = .reference r ∧ (s'.file.Serves p.1 r ∨ r = .internal none ∧ s.scene.Dangles
    cfg.withGeometry p.1)) ∧ (s.scene.IsForest → ∀ name, s.scene.Dangles cfg.withGeometry
    name → ∃ i ∈ s'.file.written, ∃ n, s'.file.tree.nodes[i]? = some n ∧ n.entry.properties.get?
    name = some (.reference (.internal none))) := by
  obtain ⟨b, nodes, t, t', hsc, htfile, hexpo, hacco⟩ := saveScene_ok h
  -- It does not matter how curves are written.
  have hsame : s.scene.Dangles { cfg.withGeometry with bezierTracks := b } = s.scene.Dangles
    cfg.withGeometry :=
    rfl
  refine ⟨fun n hn p hp hno => ?_, fun hs name hname => ?_⟩
  · have haccou := exportScene_accounted (htfile.trans hfile) hexpo
    rw [← hacco, hsc, hsame] at haccou
    have hcard : n.card ∈ s'.cards.nodes := mem_map_of_mem (by simpa using hn)
    obtain ⟨r, hr, hserv⟩ := haccou.nodes _ hcard p hp hno
    exact ⟨r, hr, s'.serves_or_dangles hserv⟩
  · rw [← hsame, ← hsc] at hname
    rw [← hsc] at hs
    obtain ⟨slot, rfl, hholds⟩ := exportScene_dangling hs hname hexpo
    have hcards : s'.cards = t'.cards := congrArg Prod.fst hacco
    rw [← hcards] at hholds
    obtain ⟨card, hcard, -, -, -, hval⟩ := hholds.node
    obtain ⟨n, hn, rfl⟩ := Session.getElem?_cards hcard
    exact ⟨slot.node, by simpa [cards] using hholds.written rfl, n, hn, hval _ rfl⟩

/-! ### Particle systems -/

/-- The sub-resource that was made of a particle system, if it was. -/
def systemNumber? (id : ObjectId) (index : Nat) (s : Session α) : Option Nat :=
  s.file.internal.find? (.particles id index)

instance (id : ObjectId) (index : Nat) : Quiet (systemNumber? (α := α) id index) where

instance (id : ObjectId) (index : Nat) : FindsMeshes (systemNumber? (α := α) id index) where
  tables _ _ _ h := h (.particles id index) rfl

/-- Meshes are no particle systems. -/
theorem exportMesh_systemNumber? {cfg : Settings} {id : ObjectId} {index : Nat}
    (target : ObjectId) (bones : GroupBones) : Keeps false (systemNumber? (α := α) id index)
    (exportMesh cfg target bones) := by
  refine exportMesh_keeps_of cfg (fun key r => .of_get fun s => ?_) target bones
  unfold SceneFile.addInternal
  cases h : s.file.internal.add (.mesh key) r.numbered with
  | ok x => exact ResourceTable.find?_add h rfl
  | error e => exact fun _ => rfl

/-- In the session `s'`, which follows `s`, a sub-resource is the one made of a particle system: its
mesh is what the export of the object that the system copies gave in between. -/
def IsOfSystem (cfg : Settings) (s s' : Session α) (system : ParticleSystem α) (n : Nat) :
    Prop :=
  ∃ target t mesh t' r, system.copied? none = .ok (some target) ∧
    exportMesh cfg target [] t = .ok mesh t' ∧ system.resource mesh = .ok r ∧
    s'.file.internal.get? n = some (r.numbered n) ∧ t.lasting = s.lasting ∧
    s.file.internal.items.toList <+: t.file.internal.items.toList ∧
    t'.file.internal.items.toList <+: s'.file.internal.items.toList

/-- A particle system that is not in the file yet is added to it. -/
theorem exportSystem_new {k n : Nat} {system : ParticleSystem α} {mesh : Option Nat}
    (hnew : systemNumber? id k s = none) (h : exportSystem id k system mesh s = .ok n s') :
    ∃ r internal, system.resource mesh = .ok r ∧ s' = { s with file := { s.file with internal } } ∧
      s.file.internal.items.toList <+: internal.items.toList ∧
      internal.get? n = some (r.numbered n) := by
  obtain ⟨found, _, hfnd, h⟩ := bind_ok h
  cases hfnd
  rw [show s.file.internal.find? (.particles id k) = none from hnew] at h
  obtain ⟨r, hr, h⟩ := lift_bind_ok h
  obtain ⟨internal, hgive, rfl⟩ := addInternal_ok h
  obtain ⟨-, rfl, rfl⟩ := ResourceTable.give?_some hgive
  exact ⟨r, _, hr, rfl, by simp [ResourceTable.extended],
    by simp [ResourceTable.extended, ResourceTable.get?]⟩

/-- The node of the only particle system, which is active, shows what is made of the system. -/
theorem exportParticles_only {parent : Option NodeId} {node : NodeId} {system : ParticleSystem α}
    (ho : s.scene.objects[id]? = some o) (honly : o.particles = [system])
    (hact : o.activeParticles = some 0) (hnew : systemNumber? id 0 s = none)
    (h : exportParticles cfg id parent s = .ok node s') : ∃ n,
    s'.cards.Holds s.scene (.particles parent node) (some (.reference (.internal (some n)))) true ∧
    IsOfSystem cfg s s' system n := by
  obtain ⟨o', ho', h⟩ := look_ok object_ok h
  cases ho.symm.trans ho'
  rw [honly, hact] at h
  obtain ⟨d, t, hloop, h⟩ := bind_ok h
  rw [zipIdx_cons, zipIdx_nil, forIn_cons] at hloop
  obtain ⟨_, t₅, hbody, hloop⟩ := bind_ok hloop
  obtain ⟨copied, hcopi, hbody⟩ := lift_bind_ok hbody
  obtain ⟨_, t₁, hmake, hbody⟩ := bind_ok hbody
  obtain ⟨i, hmade, rfl⟩ := map_ok hmake
  obtain ⟨target, htgt, hbody⟩ := lift_bind_ok hbody
  obtain rfl : copied = some target := need_ok htgt
  obtain ⟨mesh, t₃, hmesh, hbody⟩ := bind_ok hbody
  obtain ⟨n, t₄, hsyst, hbody⟩ := bind_ok hbody
  rw [if_pos rfl] at hbody
  cases hbody
  cases hloop
  cases h
  -- Before the system is exported nothing is added but a node and the mesh.
  have hheld := makeReferring_holds system.name (show "multimesh" ≠ "transform" by decide) s rfl
    node t₁ hmade
  obtain ⟨-, heading, -, rfl⟩ := makeNode_push hmade
  rw [← (exportMesh_keeps cfg target [] : Keeps false cards _).ok hmesh] at hheld
  rw [← (exportSystem_keeps id 0 system mesh : Keeps false cards _).ok hsyst] at hheld
  obtain ⟨r, internal, hr, rfl, hitems, hget⟩ :=
    exportSystem_new ((exportMesh_systemNumber? target []).ok hmesh |>.trans hnew) hsyst
  refine ⟨n, ?_, target, _, mesh, t₃, r, hcopi, hmesh, hr, hget, rfl, prefix_rfl, hitems⟩
  rw [Session.cards_write, Session.cards_setNode, Session.cards_setNode]
  exact ((hheld.fill _).set (.inr (show "visible" ≠ "multimesh" by decide)) _).finish

/-- **Which particle systems are shown.**  Each particle system of an object has a node in the file
that refers to the resource made of it and of the mesh of the object that it copies, exactly if
there is one system and this is the active one. -/
theorem exportParticles_shown_iff {parent : Option NodeId} {node : NodeId}
    (ho : s.scene.objects[id]? = some o) (hnew : ∀ k, systemNumber? id k s = none)
    (h : exportParticles cfg id parent s = .ok node s') :
    (∃ nodes, s'.file.written.toList = s.file.written.toList ++ nodes ∧
      nodes.length = o.particles.length ∧
      ∀ (k : Nat) system, o.particles[k]? = some system → ∃ i n, nodes[k]? = some i ∧
        s'.cards.Holds s.scene (.particles parent i) (some (.reference (.internal (some n)))) true ∧
        IsOfSystem cfg s s' system n) ↔
    o.particles.length = 1 ∧ o.activeParticles = some 0 := by
  obtain ⟨hwrtn, active, hact, hholds⟩ := exportParticles_holds cfg ho s.cards.written s
    ⟨rfl, rfl⟩ node s' h
  constructor
  · rintro ⟨nodes, hnds, hlen, hshw⟩
    obtain rfl : [node] = nodes := append_cancel_left (hwrtn.symm.trans hnds)
    obtain ⟨system, honly⟩ := length_eq_one_iff.1 hlen.symm
    refine ⟨hlen.symm, by_contra fun hno => ?_⟩
    obtain ⟨i, n, hi, hn, -⟩ := hshw 0 system (by rw [honly]; rfl)
    cases hi
    -- The node has one reference, so it is to the resource of the active system.
    obtain ⟨x, hx, -, -, -, hv⟩ := hholds.node
    obtain ⟨y, hy, -, -, -, hw⟩ := hn.node
    cases hx.symm.trans hy
    cases (hv _ rfl).symm.trans (hw _ rfl)
    refine absurd (hact.2 fun k hk => ?_) (Option.some_ne_none n)
    rw [← hlen] at hk
    rwa [Nat.lt_one_iff.1 hk]
  · rintro ⟨hlen, hzero⟩
    obtain ⟨system, honly⟩ := length_eq_one_iff.1 hlen
    obtain ⟨n, hn, hsyst⟩ := exportParticles_only ho honly hzero (hnew 0) h
    refine ⟨[node], hwrtn, hlen.symm, fun k x hk => ?_⟩
    rw [honly] at hk
    obtain ⟨rfl, rfl⟩ : k = 0 ∧ system = x := by simpa [getElem?_singleton] using hk
    exact ⟨node, n, rfl, hn, hsyst⟩

end

/-- The lawn shows its flowers. -/
theorem exportParticles_shown_iff_lawn : ∃ o node s', lawn.scene.objects[1]? = some o ∧
    exportParticles lawnSettings 1 none lawn = .ok node s' ∧
    ∃ nodes, s'.file.written.toList = lawn.file.written.toList ++ nodes ∧
      nodes.length = o.particles.length ∧
      ∀ (k : Nat) system, o.particles[k]? = some system → ∃ i n, nodes[k]? = some i ∧
        s'.cards.Holds lawn.scene (.particles none i) (some (.reference (.internal (some n))))
          true ∧ IsOfSystem lawnSettings lawn s' system n := by
  obtain ⟨node, s', h⟩ := exists_ok (exportParticles lawnSettings 1 none) lawn
  exact ⟨_, node, s', rfl, h, (exportParticles_shown_iff rfl (fun _ => rfl) h).2 ⟨rfl, rfl⟩⟩

end ExportM

/-! ### A lawn in winter -/

/-- The lawn without an active particle system, and a can on it. -/
def winterLawn : Session ℚ where
  scene.objects := #[
    { Object.bare "Flower" .mesh none with mesh := some 0, data := .mesh (some 0) },
    { Object.bare "Lawn" .mesh none with
      particles := [⟨"Flowers", some 0, none, [⟨[0, 0, 0], [1, 0, 0, 0], 1⟩]⟩] },
    { Object.bare "Can" .mesh (some 1) with
      rigidBody := some { RigidBody.falling with shape := "CYLINDER" } }]
  scene.meshes := lawn.scene.meshes
  scene.materials := lawn.scene.materials
  scene.images := lawn.scene.images

namespace ExportM

theorem saveScene_targets_winterLawn : winterLawn.scene.IsForest ∧
    ∃ s', saveScene lawnSettings winterLawn = .ok () s' ∧
      (∀ n ∈ s'.file.tree.nodes, ∀ p ∈ n.entry.properties, ¬ IsPlainName p.1 → ∃ r, p.2 =
      .reference r ∧ (s'.file.Serves p.1 r ∨ r = .internal none ∧ winterLawn.scene.Dangles
      lawnSettings.withGeometry p.1)) ∧ ∀ name ∈ ["shape", "multimesh"], ∃ i ∈ s'.file.written, ∃ n,
      s'.file.tree.nodes[i]? = some n ∧
      n.entry.properties.get? name = some (.reference (.internal none)) := by
  have hfor : winterLawn.scene.IsForest := by decide +kernel
  obtain ⟨_, s', h⟩ := exists_ok (saveScene lawnSettings) winterLawn
  obtain ⟨hserv, hdang⟩ := saveScene_targets rfl h
  have hshp : winterLawn.scene.Dangles lawnSettings.withGeometry "shape" := by
    refine .inl ⟨rfl, 2, by decide +kernel, _, rfl, trivial, _, rfl, ?_⟩
    decide +kernel
  have hpts : winterLawn.scene.Dangles lawnSettings.withGeometry "multimesh" :=
    .inr ⟨rfl, rfl, 1, by decide +kernel, _, rfl, cons_ne_nil _ _, nofun⟩
  refine ⟨hfor, s', h, hserv, fun name hname => hdang hfor name ?_⟩
  simp only [mem_cons, not_mem_nil, or_false] at hname
  rcases hname with rfl | rfl
  · exact hshp
  · exact hpts

end ExportM

end SceneExport
