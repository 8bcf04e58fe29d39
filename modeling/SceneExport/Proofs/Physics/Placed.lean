import SceneExport.Proofs.Space.Exact
import SceneExport.Proofs.Export.Growth
import SceneExport.Proofs.Scene.Ancestors

/-!
# Where the nodes of objects are

In a well-placed scene (`Scene.WellPlaced`) the world transform of an object is that of its parent
times its own.  The node of an object stands for it (`Outline.Stands`) if it is where the object is,
and if the bodies above it are those of the objects above.

The product of the transforms from the root down to a node (`Outline.World`) and the nearest body at
or above it (`Outline.Body`) do not change while an outline grows.
-/

namespace SceneExport

/-! ### World transforms of nodes -/

variable {α : Type} {s : Session α} {i : NodeId} {scene : Scene α} {type : String} {o : Object α}
  {id : ObjectId}

/-- The transform of a node relative to its parent.  A node without a transform is where its parent
is. -/
def NodeOutline.matrix? [Zero α] [One α] (n : NodeOutline α) : Option (Mat4 α) :=
  match n.transform with
  | none => some .identity
  | some (.transform (.transform m)) => some m
  | some _ => none

def Outline.type? (o : Outline α) (i : NodeId) : Option String :=
  o.nodes[i]?.bind NodeOutline.type?

theorem Session.getElem?_of_outline {n : NodeOutline α}
    (h : s.outline.nodes[i]? = some n) : ∃ x, s.file.tree.nodes[i]? = some x ∧ x.outline = n := by
  simpa [Session.outline] using h

theorem Session.type_iff {type : String} : s.file.tree.type i = .ok type ↔
    s.outline.type? i = some type := by
  constructor
  · intro h
    obtain ⟨n, hn, h⟩ := Outcome.bind_ok h
    obtain ⟨v, hv, h⟩ := Outcome.bind_ok h
    simp [Outline.type?, Session.outline, need_ok hn, NodeOutline.type?, Node.outline, need_ok hv,
      need_ok h]
  · intro h
    obtain ⟨n, hn, h⟩ := Option.bind_eq_some_iff.1 h
    obtain ⟨x, hx, rfl⟩ := Session.getElem?_of_outline hn
    obtain ⟨v, hv, ht⟩ := Option.bind_eq_some_iff.1 h
    have hget : s.file.tree.get i = .ok x := by rw [Tree.get, hx]; rfl
    have hval : x.entry.heading.value "type" = .ok v := by
      rw [Heading.value, show x.entry.heading.get? "type" = some v from hv]
      rfl
    rw [Tree.type, hget]
    show (x.entry.heading.value "type" >>= Value.asText) = _
    rw [hval]
    show need .wrongKind v.text? = _
    rw [ht]
    rfl

namespace Outline

variable {base o o' : Outline α} {p b : NodeId}

theorem Grown.type? (h : o.Grown o') (hi : i < o.nodes.length) : o'.type? i = o.type? i := by
  have hn := List.getElem?_eq_getElem hi
  rw [Outline.type?, Outline.type?, h.getElem? hn, hn]

variable {t : Option (Value α)}

theorem Fresh.type? (h : Fresh base i type p t o) : o.type? i = some type := by
  obtain ⟨n, hn, ht, -⟩ := h.node
  rw [Outline.type?, hn, Option.bind_some, ht]

/-! ### Bodies -/

/-- The nearest body at or above a node. -/
inductive Body (o : Outline α) : NodeId → NodeId → Prop
  | here {i : NodeId} {t : String} (h : o.type? i = some t) (ht : t ∈ bodyTypes) : Body o i i
  | above {i p b : NodeId} {n : NodeOutline α} {t : String} (h : o.nodes[i]? = some n)
      (ht : n.type? = some t) (hb : t ∉ bodyTypes) (hp : n.parent = some p) (hab : Body o p b) :
      Body o i b

theorem Body.lt (h : o.Body i b) : i < o.nodes.length := by
  cases h with
  | here h =>
    obtain ⟨n, hn, -⟩ := Option.bind_eq_some_iff.1 h
    exact (List.getElem?_eq_some_iff.1 hn).1
  | above h => exact (List.getElem?_eq_some_iff.1 h).1

theorem Body.grow (h : o.Body i b) (hg : o.Grown o') : o'.Body i b := by
  induction h with
  | here h ht => exact .here ((hg.type? (Body.here h ht).lt).trans h) ht
  | above h ht hb hp _ ih => exact .above (hg.getElem? h) ht hb hp ih

theorem Body.type? (h : o.Body i b) : ∃ t ∈ bodyTypes, o.type? b = some t := by
  induction h with
  | here h ht => exact ⟨_, ht, h⟩
  | above _ _ _ _ _ ih => exact ih

theorem Body.unique {b' : NodeId} (h : o.Body i b) (h' : o.Body i b') : b = b' := by
  induction h with
  | here h ht =>
    cases h' with
    | here => rfl
    | above hn ht' hb => 
      rw [Outline.type?, hn, Option.bind_some, ht'] at h
      cases h
      exact absurd ht hb
  | above hn ht hb hp _ ih =>
    cases h' with
    | here h' ht' =>
      rw [Outline.type?, hn, Option.bind_some, ht] at h'
      cases h'
      exact absurd ht' hb
    | above hn' _ _ hp' hab' =>
      rw [hn] at hn'
      cases hn'
      rw [hp] at hp'
      cases hp'
      exact ih hab'

theorem Fresh.body (h : Fresh base i type p t o) (ht : type ∉ bodyTypes) (hb : base.Body p b) :
    o.Body i b := by
  obtain ⟨n, hn, hty, hp, -⟩ := h.node
  exact .above hn hty ht hp (hb.grow h.grown)

/-! ### World transforms -/

variable [ExactScalar α] {m w : Mat4 α}

/-- The product of the transforms from the root down to a node. -/
inductive World (o : Outline α) : NodeId → Mat4 α → Prop
  | root {i : NodeId} {n : NodeOutline α} {m : Mat4 α} (h : o.nodes[i]? = some n)
      (hp : n.parent = none) (hm : n.matrix? = some m) : World o i m
  | child {i p : NodeId} {n : NodeOutline α} {m w : Mat4 α} (h : o.nodes[i]? = some n)
      (hp : n.parent = some p) (hlt : p < i) (hm : n.matrix? = some m) (hw : World o p w) :
      World o i (w * m)

theorem World.lt (h : o.World i w) : i < o.nodes.length := by
  cases h with
  | root h => exact (List.getElem?_eq_some_iff.1 h).1
  | child h => exact (List.getElem?_eq_some_iff.1 h).1

theorem World.grow (h : o.World i w) (hg : o.Grown o') : o'.World i w := by
  induction h with
  | root h hp hm => exact .root (hg.getElem? h) hp hm
  | child h hp hlt hm _ ih => exact .child (hg.getElem? h) hp hlt hm ih

theorem Fresh.world (h : Fresh base i type p (some (.transform (.transform m))) o)
    (hw : base.World p w) : o.World i (w * m) := by
  obtain ⟨n, hn, -, hp, ht⟩ := h.node
  refine .child hn hp (Nat.lt_of_lt_of_le hw.lt h.new) ?_ (hw.grow h.grown)
  rw [NodeOutline.matrix?, ht]

end Outline

def Placement.matrix? : Placement α → Option (Mat4 α)
  | .transform m => some m
  | .rows _ => none

theorem Placement.eq_of_matrix? {p : Placement α} {m : Mat4 α} (h : p.matrix? = some m) : p =
    .transform m := by
  cases p with
  | transform m => cases h; rfl
  | rows entries => cases h

/-- Whether an object is exported as a collision shape alone. -/
def Object.isWireBody (o : Object α) : Bool :=
  o.rigidBody.isSome && o.displayType == "WIRE"

/-! ### Scenes -/

variable {above : Option ObjectId}

namespace Scene

def world? (s : Scene α) (id : ObjectId) : Option (Mat4 α) :=
  s.objects[id]?.bind (·.world.matrix?)

/-- The world transform of the parent of an object, or of the whole scene. -/
def worldAbove? [Zero α] [One α] (s : Scene α) : Option ObjectId → Option (Mat4 α)
  | none => some .identity
  | some id => s.world? id

/-- Whether a parent is exported as a collision shape alone. -/
def wireAbove (s : Scene α) : Option ObjectId → Bool
  | none => false
  | some id => s.objects[id]?.any Object.isWireBody

/-- A scene of empties and meshes in a forest.  The world transform of an object can be inverted,
and it is the world transform of the parent times the local transform of the object. -/
structure WellPlaced [ExactScalar α] (s : Scene α) : Prop where
  kinds : ∀ o ∈ s.objects, o.kind = .mesh ∨ o.kind = .empty ∧ o.rigidBody = none
  forest : ∀ id < s.objects.size, ∃ root ∈ id :: s.ancestors id, root < s.objects.size ∧
    s.parent? root = none
  placed : ∀ o ∈ s.objects, ∃ v l, s.worldAbove? o.parent = some v ∧
    s.localTransform o = .transform l ∧ o.world = .transform (v * l)
  invertible : ∀ o ∈ s.objects, ∀ w, o.world = .transform w → w.det ≠ 0

variable {s : Scene α}

theorem parent?_eq (ho : s.objects[id]? = some o) : s.parent? id = o.parent := by
  rw [parent?, ho, Option.bind_some]

theorem isRigid_eq (ho : s.objects[id]? = some o) : s.isRigid id = o.rigidBody.isSome := by
  rw [isRigid, ho, Option.bind_some]

theorem wireAbove_eq (ho : s.objects[id]? = some o) : s.wireAbove (some id) = o.isWireBody := by
  rw [wireAbove, ho, Option.any_some]

theorem world?_eq (ho : s.objects[id]? = some o) {w : Mat4 α} (hw : o.world = .transform w) :
    s.world? id = some w := by
  rw [world?, ho, Option.bind_some, hw]
  rfl

/-- What is drawn as wires has a body. -/
theorem wireAbove_of_topBody? (h : s.topBody? above = none) : s.wireAbove above = false := by
  cases above with
  | none => rfl
  | some a =>
    have hrig : s.isRigid a = false := by
      cases hr : s.isRigid a with
      | false => rfl
      | true =>
        rw [topBody?_of_rigid hr] at h
        cases h
    cases ho : s.objects[a]? with
    | none => rw [wireAbove, ho]; rfl
    | some o =>
      rw [isRigid_eq ho] at hrig
      rw [wireAbove_eq ho, Object.isWireBody, hrig, Bool.false_and]

namespace WellPlaced

variable [ExactScalar α]

theorem physicsRoot? (hs : s.WellPlaced) (ho : s.objects[id]? = some o) : s.physicsRoot? id =
    s.topBody? o.parent := by
  obtain ⟨root, hmem, -, hroot⟩ := hs.forest id (Array.getElem?_eq_some_iff.1 ho).1
  rw [physicsRoot?_eq hroot hmem, parent?_eq ho]

theorem det_ne_zero (hs : s.WellPlaced) {w : Mat4 α} (h : s.world? id = some w) : w.det ≠ 0 := by
  obtain ⟨o, ho, hw⟩ := Option.bind_eq_some_iff.1 h
  exact hs.invertible o (Array.mem_of_getElem? ho) w (Placement.eq_of_matrix? hw)

end WellPlaced

end Scene

/-- A transform that is turned like a collision shape, or not. -/
def Mat4.turnedIf [Scalar α] (turned : Bool) (m : Mat4 α) : Mat4 α :=
  if turned then m * axisCorrection else m

namespace Outline

/-- The outline is that of a scene in which no skeletons were made. -/
structure Shows (o : Outline α) (scene : Scene α) : Prop where
  objects : o.objects = scene.objects.toList.map Object.outline
  frame : o.frame = scene.frame
  plain : ∀ n ∈ o.nodes, n.isSkeleton = false

variable {o o' : Outline α}

theorem Shows.grow (h : o.Shows scene) (hg : o.Grown o') : o'.Shows scene :=
  ⟨hg.objects.trans h.objects, hg.frame.trans h.frame, hg.plain h.plain⟩

variable [ExactScalar α]

/-- A node is where an object is, or where the scene is, and the nearest body is that of the topmost
object with a body. -/
structure Stands (scene : Scene α) (above : Option ObjectId) (p : NodeId) (o : Outline α) :
    Prop where
  world : ∃ w, scene.worldAbove? above = some w ∧ o.World p (w.turnedIf (scene.wireAbove above))
  shape : o.type? p = some "CollisionShape" ↔ scene.wireAbove above = true
  body : ∀ r ∈ scene.topBody? above, ∃ b v, o.Body p b ∧ o.World b v ∧ scene.world? r = some v

theorem Stands.grow {p : NodeId} (h : Stands scene above p o)
    (hg : o.Grown o') : Stands scene above p o' := by
  obtain ⟨w, hw, hp⟩ := h.world
  refine ⟨⟨w, hw, hp.grow hg⟩, (hg.type? hp.lt).symm ▸ h.shape, fun r hr => ?_⟩
  obtain ⟨b, v, hb, hv, hr⟩ := h.body r hr
  exact ⟨b, v, hb.grow hg, hv.grow hg, hr⟩

end Outline

namespace ExportM

open Outline
open Session (outline)

variable {base : Outline α} {p : NodeId}

/-! ### Reading -/

variable {P : Outline α → Prop} {s' : Session α} {x : Object α} {b : NodeId}

theorem object_shows (hP : ∀ {o'}, P o' → base.Grown o') (hb : base.Shows scene)
    (ho : scene.objects[id]? = some o) :
    Gets outline P (object id) fun x _ => x.outline = o.outline := by
  intro s hs x s' h
  obtain ⟨rfl, hx⟩ := object_ok h
  have hget : s'.outline.objects[id]? = some x.outline := by simp [Session.outline, hx]
  rw [(hP hs).objects, hb.objects] at hget
  refine ⟨hs, ?_⟩
  simpa [ho, eq_comm] using hget

theorem localTransform_shows (hP : ∀ {o'}, P o' → base.Grown o') (hb : base.Shows scene)
    (hx : x.outline = o.outline) :
    Gets outline P (localTransform x) fun t _ => t = scene.localTransform o := by
  intro s hs t s' h
  cases h
  refine ⟨hs, ?_⟩
  have hfr : s.scene.frame = scene.frame := ((hP hs).frame).trans hb.frame
  have hlocal : x.localTransform = o.localTransform := congrArg ObjectOutline.localTransform hx
  rw [Scene.localTransform, Scene.localTransform, hfr, hlocal]

theorem crafts_fresh (hb : base.Shows scene) (ho : scene.objects[id]? = some o)
    (htype : type ≠ "Skeleton") (p : NodeId) :
    Crafts id (some p) type Session.outline (fun x => x.outline = o.outline)
    (· = scene.localTransform o) base.Grown (fun i t => Fresh base i type p (t.map .transform))
    fun i t => Fresh base i type p (t.map .transform) where
  object := object_shows (fun h => h) hb ho
  make name _ hrole := makeNode_fresh name type (Bool.eq_false_iff.2 fun h => htype (hrole h))
  detail _ _ j _ hd v := (setNode_keeps j hd.2 v).leads _
  localTransform _ _ hx := localTransform_shows Fresh.grown hb hx
  place _ _ := setTransform_fresh
  write i _ := (writeNode_grows i).leads Fresh.grow

theorem nodeType_ok (h : nodeType i s = .ok type s') : s' = s ∧ s.outline.type? i = some type := by
  rw [nodeType, get_bind] at h
  obtain ⟨h, rfl⟩ := lift_ok h
  exact ⟨rfl, Session.type_iff.1 h⟩

theorem nodeTransform_ok {t : Placement α} (h : nodeTransform i s = .ok t s') :
    s' = s ∧ ∃ n, s.file.tree.nodes[i]? = some n ∧ n.entry.properties.get? "transform" =
    some (.transform t) := by
  obtain ⟨n, hn, h1⟩ := look_ok node_ok h
  cases ht : n.entry.properties.get? "transform" with
  | none => rw [ht] at h1; cases h1
  | some value =>
    rw [ht] at h1
    cases value with
    | transform t =>
      cases h1
      exact ⟨rfl, n, hn, ht⟩
    | _ => cases h1

/-- Turning a node back changes its transform if it is below a collision shape, and nothing else. -/
theorem turnBack_cases [Scalar α] (h : turnBack i s = .ok () s') :
    ∃ n p type, s.file.tree.nodes[i]? = some n ∧ n.parent = some p ∧ s.outline.type? p = some type ∧
      ((type = "CollisionShape" ∧ ∃ turn t moved, axisCorrection.inverse? = some turn ∧
        n.entry.properties.get? "transform" = some (.transform t) ∧ (Placement.transform turn).mul
        t = .ok moved ∧ setNode i "transform" (.transform moved) s = .ok () s') ∨
        (type ≠ "CollisionShape" ∧ s' = s)) := by
  obtain ⟨n, hn, h1⟩ := look_ok node_ok h
  obtain ⟨p, hp, h2⟩ := lift_bind_ok h1
  obtain ⟨type, htype, h3⟩ := look_ok nodeType_ok h2
  refine ⟨n, p, type, hn, need_ok hp, htype, ?_⟩
  split at h3
  · rename_i hshp
    obtain ⟨turn, hturn, h4⟩ := lift_bind_ok h3
    obtain ⟨t, ⟨n', hn', ht⟩, h5⟩ := look_ok nodeTransform_ok h4
    cases hn.symm.trans hn'
    obtain ⟨moved, hmul, h6⟩ := lift_bind_ok h5
    exact .inl ⟨hshp, turn, t, moved, need_ok hturn, ht, hmul, h6⟩
  · rename_i hshp
    cases h3
    exact .inr ⟨hshp, rfl⟩

/-- Climbing from a node finds the nearest body. -/
theorem bodyAbove_ok {height : Nat} (h : bodyAbove height (some i) s = .ok b s') : s' = s ∧
    s.outline.Body i b := by
  induction height generalizing i with
  | zero => cases h
  | succ height ih =>
    obtain ⟨_, hid, h1⟩ := lift_bind_ok h
    obtain rfl := Option.some.inj (need_ok hid)
    obtain ⟨type, htype, h2⟩ := look_ok nodeType_ok h1
    split at h2
    · rename_i hbody
      cases h2
      exact ⟨rfl, .here htype (by simpa using hbody)⟩
    · rename_i hbody
      obtain ⟨n, hn, h3⟩ := look_ok node_ok h2
      have hget : s.outline.nodes[i]? = some n.outline := by simp [Session.outline, hn]
      rw [Outline.type?, hget, Option.bind_some] at htype
      cases hp : n.parent with
      | none =>
        rw [hp] at h3
        cases height with
        | zero => cases h3
        | succ height => cases h3
      | some p =>
        rw [hp] at h3
        obtain ⟨rfl, hb⟩ := ih h3
        exact ⟨rfl, .above hget htype (by simpa using hbody) hp hb⟩

/-! ### Collision shapes -/

variable [ExactScalar α] {w : Mat4 α} {root : Option ObjectId} (cfg : Settings)

/-- The transform of an object relative to the object that its body belongs to. -/
def relative (scene : Scene α) (root : Option ObjectId) (w : Mat4 α) : Mat4 α :=
  match root.bind scene.world? with
  | none => .identity
  | some v => v.inverseOrIdentity * w

omit [ExactScalar α] in
theorem rootObject_leads (hP : ∀ {o'}, P o' → base.Grown o') (hb : base.Shows scene)
    (hroot : ∀ r ∈ root, (scene.world? r).isSome) :
    Gets outline P (root.mapM object) fun x _ =>
      x.map Object.world = (root.bind scene.world?).map Placement.transform := by
  cases root with
  | none => exact .pure fun _ h => ⟨h, rfl⟩
  | some r =>
    obtain ⟨v, hv⟩ := Option.isSome_iff_exists.1 (hroot r rfl)
    obtain ⟨ro, hro, hm⟩ := Option.bind_eq_some_iff.1 hv
    refine .mono (.map some (object_shows hP hb hro)) (fun _ h => h) ?_
    rintro _ s ⟨x, ⟨hs, hx⟩, rfl⟩
    refine ⟨hs, show (some x).map Object.world = _ from ?_⟩
    have hxw : x.world = .transform v := (congrArg ObjectOutline.world hx).trans
      (Placement.eq_of_matrix? hm)
    rw [Option.bind_some, hv, Option.map_some, Option.map_some, hxw]

theorem collisionTransform_eq {rootObject : Option (Object α)} (hx : x.world = .transform w)
    (hr : rootObject.map Object.world = (root.bind scene.world?).map Placement.transform) :
    collisionTransform x rootObject = .ok (.transform (relative scene root w * axisCorrection)) :=
    by
  unfold collisionTransform relative
  cases hv : root.bind scene.world? with
  | none =>
    rw [hv, Option.map_none, Option.map_eq_none_iff] at hr
    subst hr
    rfl
  | some v =>
    rw [hv, Option.map_some, Option.map_eq_some_iff] at hr
    obtain ⟨r, rfl, hr⟩ := hr
    dsimp only
    rw [hr, hx]
    rfl

theorem exportCollision_fresh (hb : base.Shows scene) (ho : scene.objects[id]? = some o)
    (hw : o.world = .transform w) (hroot : ∀ r ∈ root, (scene.world? r).isSome) :
    Brings outline base.Grown (exportCollision cfg id p root) fun i =>
      Fresh base i "CollisionShape" p
        (some (.transform (.transform (relative scene root w * axisCorrection)))) := by
  refine ((crafts_fresh hb ho (by decide) p).exportCollision _
    (fun _ => rootObject_leads Fresh.grown hb hroot)
    (· = .transform (relative scene root w * axisCorrection)) (fun {x _ _} hx hr ht => ?_)
    fun i _ => shaped_of_keeps fun _ => (setNode_keeps i (by decide) _).leads _).post ?_
  · have hxw : x.world = .transform w := (congrArg ObjectOutline.world hx).trans hw
    exact Except.ok.inj (ht.symm.trans (collisionTransform_eq hxw hr))
  · rintro i s ⟨_, rfl, hs⟩
    exact hs

/-- A body that the collision shape of an object can be put below: it is that of the topmost object
with a body, and the shape is where the object is. -/
structure Carries (scene : Scene α) (id : ObjectId) (root : Option ObjectId) (w : Mat4 α)
    (b : NodeId) (o : Outline α) : Prop where
  body : ∃ type ∈ bodyTypes, o.type? b = some type
  world : ∃ v, o.World b v ∧ v * relative scene root w = w ∧
    ∃ r, scene.topBody? (some id) = some r ∧ scene.world? r = some v

theorem Carries.nearest {o : Outline α} (h : Carries scene id root w b o) : o.Body b b := by
  obtain ⟨type, htype, hb⟩ := h.body
  exact .here hb htype

omit [ExactScalar α] in
theorem get_shows (hb : base.Shows scene) (id : ObjectId) :
    Gets outline base.Grown get fun s0 _ => s0.scene.physicsRoot? id = scene.physicsRoot? id := by
  intro s hs _ _ h
  cases h
  exact ⟨hs, Scene.physicsRoot?_congr (hs.objects.trans hb.objects)⟩

/-- An object without a body above it gets a body of its own. -/
theorem exportBody_carries (hb : base.Shows scene) (ho : scene.objects[id]? = some o)
    (hs : scene.WellPlaced) (hw : o.world = .transform w) (hrig : scene.isRigid id = true)
    (hroot : scene.physicsRoot? id = none) (hp : Stands scene o.parent p base) :
    Gets outline base.Grown (exportBody id (some p)) (Carries scene id none w) := by
  refine (Crafts.exportBody (fun type ht => crafts_fresh hb ho (ne_of_mem_of_not_mem ht (by decide))
    p) fun _ i r _ => .keeping (forceInternal_keeps r) fun _ =>
    (setNode_keeps _ (by decide) _).leads _).post ?_
  rintro b s ⟨type, htype, _, rfl, hfresh⟩
  obtain ⟨v, l, hv, hl, hvl⟩ := hs.placed o (Array.mem_of_getElem? ho)
  obtain ⟨u, hu, hpw⟩ := hp.world
  obtain rfl : v = u := Option.some.inj (hv.symm.trans hu)
  obtain rfl : w = v * l := Placement.transform.inj (hw.symm.trans hvl)
  have htop : scene.topBody? o.parent = none := (hs.physicsRoot? ho).symm.trans hroot
  rw [hl] at hfresh
  rw [Scene.wireAbove_of_topBody? htop] at hpw
  refine ⟨hfresh.grown, ⟨type, htype, hfresh.type?⟩, v * l, hfresh.world hpw, Mat4.mul_identity _,
    id, ?_, Scene.world?_eq ho hw⟩
  rw [Scene.topBody?_of_rigid hrig, hroot, Option.getD_none]

theorem exportPhysics_shape (hb : base.Shows scene) (ho : scene.objects[id]? = some o)
    (hs : scene.WellPlaced) (hw : o.world = .transform w) (hrig : scene.isRigid id = true)
    (hp : Stands scene o.parent p base) :
    Brings outline base.Grown (exportPhysics cfg id (some p)) fun c y => ∃ mid b root,
    base.Grown mid ∧ Carries scene id root w b mid ∧
      Fresh mid c "CollisionShape" b
      (some (.transform (.transform (relative scene root w * axisCorrection)))) y := by
  refine .bind (get_shows hb id) fun s0 => .of_fact fun hroot => ?_
  extract_lets root rest
  have hroot : root = scene.physicsRoot? id := hroot
  have hroot' : root = scene.topBody? o.parent := hroot.trans (hs.physicsRoot? ho)
  have hworl : ∀ r ∈ root, (scene.world? r).isSome := by
    intro r hr
    obtain ⟨b, v, -, -, hv⟩ := hp.body r (hroot' ▸ hr)
    rw [hv, Option.isSome_some]
  have hr : ∀ parent, Brings outline
      (fun y => base.Grown y ∧ ∃ q b, parent = some q ∧ y.Body q b ∧ Carries scene id root w b y)
      (rest parent)
      fun c y => ∃ mid b root, base.Grown mid ∧ Carries scene id root w b mid ∧
      Fresh mid c "CollisionShape" b
        (some (.transform (.transform (relative scene root w * axisCorrection)))) y := by
    rintro parent s ⟨hg, q, b, rfl, hbody, hc⟩ c s' h
    obtain ⟨_, _, hget, h1⟩ := bind_ok h
    cases hget
    obtain ⟨b', hb', h2⟩ := look_ok bodyAbove_ok h1
    obtain rfl := hbody.unique hb'
    refine ⟨s.outline, b, root, hg, hc, ?_⟩
    exact exportCollision_fresh cfg (hb.grow hg) ho hw hworl s (.refl _) c s' h2
  clear_value root
  split
  · refine .bind (.map _ (exportBody_carries hb ho hs hw hrig hroot.symm hp)) fun parent => ?_
    refine (hr parent).mono ?_ fun _ _ h => h
    rintro s ⟨b, ⟨hg, hc⟩, rfl⟩
    exact ⟨hg, b, b, rfl, hc.nearest, hc⟩
  · rename_i r
    refine .bind (.pure fun s hg => ?_) hr
    obtain ⟨b, v, hbody, hv, hrv⟩ := (hp.grow hg).body r (hroot' ▸ rfl)
    refine ⟨hg, p, b, rfl, hbody, hbody.type?, v, hv, ?_, r, ?_, hrv⟩
    · rw [relative, Option.bind_some, hrv]
      show v * (v.inverseOrIdentity * w) = w
      rw [← Mat4.mul_assoc, Mat4.mul_inverseOrIdentity (hs.det_ne_zero hrv), Mat4.identity_mul]
    · rw [Scene.topBody?_of_rigid hrig, ← hroot, Option.getD_some]

end ExportM

end SceneExport
