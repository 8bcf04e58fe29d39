import SceneExport.Proofs.Physics.Placed
import SceneExport.Proofs.Export.Traversal

/-!
# World transforms survive the export

A mesh with a rigid body becomes up to three nodes, and its collision shape is put below the topmost
body.  Collision shapes are turned, and what is put below one is turned back.  Still, the node that
an export records for an object is where the object is (`exportScene_world`).
-/

namespace SceneExport

open List

variable {α : Type} [ExactScalar α]

namespace ExportM

open Outline
open Session (outline)

variable {base mid : Outline α} {scene : Scene α} {id : ObjectId} {o : Object α} {p q i : NodeId}
  {m v w : Mat4 α}

/-! ### Turning back -/

/-- A node was made for an object below a node that may be turned.  Turned back, it will be where
the object is. -/
structure Ready (scene : Scene α) (id : ObjectId) (mid : Outline α) (q i : NodeId) (v m : Mat4 α)
    (o : Outline α) : Prop where
  fresh : ∃ type, Fresh mid i type q (some (.transform (.transform m))) o ∧ type ∉ bodyTypes ∧
    (type = "CollisionShape" ↔ scene.wireAbove (some id) = true)
  above : mid.World q (v.turnedIf (mid.type? q == some "CollisionShape"))
  place : ∃ w, scene.world? id = some w ∧ v * m = w.turnedIf (scene.wireAbove (some id))
  body : ∀ r ∈ scene.topBody? (some id), ∃ b u, mid.Body q b ∧ mid.World b u ∧
    scene.world? r = some u

variable {o' : Outline α} {x : Object α} {selection : Selection} {nodes : ExportedNodes}
  {cfg : Settings}

/-- A node that was turned back stands for its object. -/
theorem Ready.stands {o : Outline α} (h : Ready scene id mid q i v m o) {n : Mat4 α}
    (ho : ∀ type, Fresh mid i type q (some (.transform (.transform m))) o → Fresh mid i type q
    (some (.transform (.transform n))) o') (hn : v.turnedIf (mid.type? q == some "CollisionShape") *
    n = v * m) :
    Stands scene (some id) i o' ∧ mid.Grown o' := by
  obtain ⟨type, hf, htype, hshp⟩ := h.fresh
  obtain ⟨w, hw, hvm⟩ := h.place
  have hf' := ho type hf
  have hworld := hf'.world h.above
  rw [hn, hvm] at hworld
  refine ⟨⟨⟨w, hw, hworld⟩, ?_, fun r hr => ?_⟩, hf'.grown⟩
  · rw [hf'.type?, Option.some.injEq]
    exact hshp
  · obtain ⟨b, u, hb, hu, hr⟩ := h.body r hr
    exact ⟨b, u, hf'.body htype hb, hu.grow hf'.grown, hr⟩

theorem turnBack_stands : Brings outline (Ready scene id mid q i v m) (turnBack i) fun _ y =>
      Stands scene (some id) i y ∧ mid.Grown y := by
  intro s hs _ s' h
  obtain ⟨type, hf, -⟩ := hs.fresh
  obtain ⟨n, hn, -, hpar, htr⟩ := hf.node
  obtain ⟨x, q', type', hx, hq, htype, h1⟩ := turnBack_cases h
  obtain rfl : n = x.outline := by simpa [Session.outline, hx, eq_comm] using hn
  obtain rfl : q' = q := Option.some.inj (hq.symm.trans hpar)
  rw [hf.grown.type? hs.above.lt] at htype
  rcases h1 with ⟨rfl, turn, t, moved, hturn, ht, hmul, h1⟩ | ⟨hshp, rfl⟩
  · cases htr.symm.trans ht
    cases hmul
    refine hs.stands (fun type hf => setTransform_fresh _ hf () s' h1) ?_
    have hyes : (mid.type? q' == some "CollisionShape") = true := by simp [htype]
    rw [hyes]
    show v * axisCorrection * (turn * m) = v * m
    rw [Mat4.mul_assoc, ← Mat4.mul_assoc axisCorrection, Mat4.axisCorrection_mul hturn,
      Mat4.identity_mul]
  · refine hs.stands (fun _ h => h) ?_
    have hno : (mid.type? q' == some "CollisionShape") = false := by simp [htype, hshp]
    rw [hno]
    rfl

/-! ### Making the node of an object -/

/-- A node without a body of its own, below the node of the parent. -/
theorem ready_of_local {type : String} (hs : scene.WellPlaced) (ho : scene.objects[id]? = some o)
    (hbody : o.rigidBody = none) (hp : Stands scene o.parent p base)
    (hf : Fresh base i type p (some (.transform (scene.localTransform o))) o')
    (htype : type ∉ bodyTypes) (hshp : type ≠ "CollisionShape") : ∃ v m, Ready scene id base p i v m
    o' := by
  obtain ⟨v, l, hv, hl, hvl⟩ := hs.placed o (Array.mem_of_getElem? ho)
  obtain ⟨u, hu, hpw⟩ := hp.world
  obtain rfl : v = u := Option.some.inj (hv.symm.trans hu)
  have hwire : scene.wireAbove (some id) = false := by
    rw [Scene.wireAbove_eq ho, Object.isWireBody, hbody]
    rfl
  have hflag : (base.type? p == some "CollisionShape") = scene.wireAbove o.parent := by
    rw [Bool.eq_iff_iff, beq_iff_eq]
    exact hp.shape
  have htop : scene.topBody? (some id) = scene.topBody? o.parent := by
    have hrig : scene.isRigid id = false := by rw [Scene.isRigid_eq ho, hbody]; rfl
    rw [Scene.topBody?_of_not_rigid hrig, hs.physicsRoot? ho]
  rw [hl] at hf
  refine ⟨v, l, ⟨type, hf, htype, ?_⟩, hflag ▸ hpw, ⟨_, Scene.world?_eq ho hvl, ?_⟩, htop ▸ hp.body⟩
  · simp [hshp, hwire]
  · rw [hwire]
    rfl

theorem exportInstance_fresh (cfg : Settings) (hb : base.Shows scene)
    (ho : scene.objects[id]? = some o) (hx : x.outline = o.outline) :
    Brings outline base.Grown (exportInstance cfg id x (some q)) fun i =>
      Fresh base i "MeshInstance" q
      (some (.transform (if o.rigidBody.isSome then .identity else scene.localTransform o))) := by
  have hphys : x.hasPhysics = o.rigidBody.isSome :=
    congrArg (fun y => y.rigidBody.isSome) hx
  refine ((crafts_fresh hb ho (by decide) q).exportInstance hx
    (fun i => (showMesh_keeps cfg id x i).leads _) fun i _ => ?_).post ?_
  · exact Grows.leads (fun base => lasts_animateShapeKeys
      (fun a => exportAnimation_grows cfg a base) x) Fresh.grow
  · rintro i s ⟨t, ⟨hyes, hno⟩, hs⟩
    rw [← hphys]
    split
    · next h => exact hyes h ▸ hs
    · next h => exact hno (by simpa using h) ▸ hs

section

variable {b c : NodeId} {root : Option ObjectId} {o1 : Outline α}

theorem ready_of_shape (hw : scene.world? id = some w) (hwire : scene.wireAbove (some id) = true)
    (hc : Carries scene id root w b mid)
    (hf : Fresh mid c "CollisionShape" b
    (some (.transform (.transform (relative scene root w * axisCorrection)))) o1) :
    ∃ v m, Ready scene id mid b c v m o1 := by
  obtain ⟨u, hu, hrel, r, hr, hru⟩ := hc.world
  obtain ⟨type, htype, hb⟩ := hc.body
  have hflag : (mid.type? b == some "CollisionShape") = false := by
    rw [hb]
    exact beq_false_of_ne fun h => absurd htype (Option.some.inj h ▸ by decide)
  refine ⟨u, _, ⟨_, hf, by decide, by simp [hwire]⟩, by rw [hflag]; exact hu, ⟨w, hw, ?_⟩, ?_⟩
  · rw [hwire, ← Mat4.mul_assoc, hrel]
    rfl
  · intro r' hr'
    obtain rfl : r' = r := Option.some.inj (hr'.symm.trans hr)
    exact ⟨b, u, hc.nearest, hu, hru⟩

theorem ready_of_instance {o2 : Outline α} (hw : scene.world? id = some w)
    (hwire : scene.wireAbove (some id) = false) (hc : Carries scene id root w b mid)
    (hf : Fresh mid c "CollisionShape" b
    (some (.transform (.transform (relative scene root w * axisCorrection)))) o1)
    (hi : Fresh o1 i "MeshInstance" c (some (.transform .identity)) o2) : ∃ v m, Ready scene id o1 c
    i v m o2 := by
  obtain ⟨u, hu, hrel, r, hr, hru⟩ := hc.world
  have hworld := hf.world hu
  rw [← Mat4.mul_assoc, hrel] at hworld
  have hflag : (o1.type? c == some "CollisionShape") = true := by rw [hf.type?]; rfl
  refine ⟨w, _, ⟨_, hi, by decide, by simp [hwire]⟩, by rw [hflag]; exact hworld, ⟨w, hw, ?_⟩, ?_⟩
  · rw [hwire, Mat4.mul_identity]
    rfl
  · intro r' hr'
    obtain rfl : r' = r := Option.some.inj (hr'.symm.trans hr)
    exact ⟨b, u, hf.body (by decide) hc.nearest, hu.grow hf.grown, hru⟩

end

omit [ExactScalar α] in
/-- Nothing can be hung on a bone if there are no skeletons. -/
theorem exportAttachment_fails (hb : base.Shows scene) :
    Leads (fun s => base.Grown s.outline) (exportAttachment id (some p)) fun _ _ => False := by
  refine exportAttachment_plain (fun name => makeNode_grows name _ _ rfl base)
    (fun {s n} hg hn => ?_) id
  refine (hb.grow hg).plain n.outline ?_
  exact mem_map_of_mem (Array.mem_toList_iff.2 (Array.mem_of_getElem? hn))

omit [ExactScalar α] in
theorem nodeAbove_shows (cfg : Settings) (hb : base.Shows scene) (x : Object α) :
    Gets outline base.Grown (nodeAbove cfg id x (some p)) fun above _ => above = some p ∧
      isHung cfg x = false := by
  unfold nodeAbove
  split
  · exact (exportAttachment_fails hb).map some |>.post fun _ _ ⟨_, h, _⟩ => h.elim
  · rename_i hno
    exact .pure fun _ h => ⟨h, rfl, by simpa using hno⟩

/-! ### Exporting an object -/

section

variable (cfg : Settings) (hs : scene.WellPlaced) (hb : base.Shows scene)
  (ho : scene.objects[id]? = some o) (hp : Stands scene o.parent p base)

include hs hb ho hp

theorem exportMeshNode_ready :
    Brings outline base.Grown (exportMeshNode cfg id (some p)) fun i y => ∃ mid q v m,
    base.Grown mid ∧ Ready scene id mid q i v m y := by
  refine .bind (object_shows (fun h => h) hb ho) fun x => .of_fact fun hx => ?_
  have hphys : x.hasPhysics = o.rigidBody.isSome := congrArg (fun y => y.rigidBody.isSome) hx
  have hdisp : x.displayType = o.displayType := congrArg ObjectOutline.displayType hx
  have hwire : scene.wireAbove (some id) = (o.rigidBody.isSome && o.displayType == "WIRE") :=
    Scene.wireAbove_eq ho
  rw [hphys, hdisp]
  split
  · rename_i hbody
    obtain ⟨v, l, -, -, hw⟩ := hs.placed o (Array.mem_of_getElem? ho)
    have hrig : scene.isRigid id = true := (Scene.isRigid_eq ho).trans hbody
    rw [hbody, Bool.true_and] at hwire
    refine .bind (exportPhysics_shape cfg hb ho hs hw hrig hp) fun c => ?_
    refine .of_exists fun mid => .of_exists fun b => .of_exists fun root => ?_
    split
    · rename_i hyes
      refine .pure fun s h => ?_
      obtain ⟨hg, hc, hf⟩ := h
      obtain ⟨v, m, hready⟩ := ready_of_shape (Scene.world?_eq ho hw) (hwire.trans hyes) hc hf
      exact ⟨mid, b, v, m, hg, hready⟩
    · rename_i hno
      rintro s ⟨hg, hc, hf⟩ i s' h
      have hg1 := hg.trans hf.grown
      have hi := exportInstance_fresh cfg (hb.grow hg1) ho hx s (.refl _) i s' h
      rw [if_pos hbody] at hi
      obtain ⟨v, m, hready⟩ := ready_of_instance (Scene.world?_eq ho hw)
        (hwire.trans (by simpa using hno)) hc hf hi
      exact ⟨s.outline, c, v, m, hg1, hready⟩
  · rename_i hbody
    have hnone : o.rigidBody = none := by simpa using hbody
    refine (exportInstance_fresh cfg hb ho hx).post ?_
    intro i s hf
    rw [hnone] at hf
    obtain ⟨v, m, hready⟩ := ready_of_local hs ho hnone hp hf (by decide) (by decide)
    exact ⟨base, p, v, m, .refl _, hready⟩

theorem exportKind_ready (hhas : cfg.has o.kind = true) :
    Brings outline base.Grown (exportKind cfg o.kind id (some p)) fun made y => ∃ i mid q v m,
    base.Grown mid ∧ Ready scene id mid q i v m y ∧ made = some i := by
  rcases hs.kinds o (Array.mem_of_getElem? ho) with hk | ⟨hk, hnone⟩
  · rw [hk]
    refine (Leads.map some (exportMeshNode_ready cfg hs hb ho hp)).post ?_
    rintro _ s ⟨i, ⟨mid, q, v, m, hg, hready⟩, rfl⟩
    exact ⟨i, mid, q, v, m, hg, hready, rfl⟩
  · rw [hk] at hhas ⊢
    refine ((crafts_fresh hb ho (by decide) p).exportEmpty hhas).post ?_
    rintro _ s ⟨i, rfl, _, rfl, hf⟩
    obtain ⟨v, m, hready⟩ := ready_of_local hs ho hnone hp hf (by decide) (by decide)
    exact ⟨i, base, p, v, m, .refl _, hready, rfl⟩

theorem exportAs_stands (hhas : cfg.has o.kind = true) (x : Object α) :
    Brings outline base.Grown (exportAs cfg o.kind id x (some p)) fun made y => ∃ i,
    base.Grown y ∧ Stands scene (some id) i y ∧ made = some i := by
  refine .bind (nodeAbove_shows cfg hb x) fun above => .of_fact fun ⟨hup, hhung⟩ => ?_
  subst hup
  refine .bind (lasts_exportOwnParticles fun _ _ => exportParticles_grows cfg id base) fun _ =>
    ?_
  refine .bind (exportKind_ready cfg hs hb ho hp hhas) fun made => ?_
  rintro s ⟨i, mid, q, v, m, hg, hready, rfl⟩ made s' h
  obtain ⟨_, s1, hcorr, h1⟩ := bind_ok h
  rw [correctTransform, hhung] at hcorr
  obtain ⟨hstan, hmid⟩ := turnBack_stands s hready () s1 hcorr
  obtain ⟨_, s2, hani, h2⟩ := bind_ok h1
  have hgrown := lasts_animateObject (fun a => exportAnimation_grows cfg a s1.outline) id s1
    (.refl _) () s2 hani
  cases h2
  exact ⟨i, (hg.trans hmid).trans hgrown, hstan.grow hgrown, rfl⟩

end

/-! ### Exporting the objects of a scene -/

/-- Every node that was recorded stands for its object. -/
def Records (scene : Scene α) (nodes : ExportedNodes) (o : Outline α) : Prop :=
  ∀ id made, (id, made) ∈ nodes → ∃ i, made = some i ∧ Stands scene (some id) i o

theorem Records.grow {o : Outline α} (h : Records scene nodes o) (hg : o.Grown o') :
    Records scene nodes o' := by
  intro id made hm
  obtain ⟨i, rfl, hi⟩ := h id made hm
  exact ⟨i, rfl, hi.grow hg⟩

/-- The settings select every object of a scene. -/
structure SelectsAll (cfg : Settings) (scene : Scene α) (selection : Selection) : Prop where
  has : ∀ o ∈ scene.objects, cfg.has o.kind = true
  accepted : ∀ id < scene.objects.size, id ∈ selection.accepted
  valid : ∀ id < scene.objects.size, id ∈ selection.valid

/-- The root stands for no object, and every node that was recorded for its object. -/
def Standing (scene : Scene α) (root : NodeId) (nodes : ExportedNodes) (s : Session α) : Prop :=
  s.outline.Shows scene ∧ Stands scene none root s.outline ∧ Records scene nodes s.outline

theorem visit_standing (hs : scene.WellPlaced) (hall : SelectsAll cfg scene selection)
    {root : NodeId} (ho : scene.objects[id]? = some o) (hpare : ∀ p, scene.parent? id = some p →
    p ∈ nodes.map Prod.fst) :
    Leads (Standing scene root nodes) (visit cfg scene selection root nodes id) fun nodes' s =>
      ∃ made, nodes' = nodes ++ [(id, made)] ∧ Standing scene root nodes' s := by
  rintro s ⟨hb, htop, hrec⟩ nodes' s' h
  rw [Scene.parent?_eq ho] at hpare
  obtain ⟨p, hover, hp⟩ : ∃ p, nodeOver scene root nodes id = some p ∧ Stands scene o.parent p
    s.outline := by
    rw [nodeOver, Scene.parent?_eq ho]
    cases hpar' : o.parent with
    | none => exact ⟨root, rfl, htop⟩
    | some a =>
      obtain ⟨made, hmade⟩ := Option.isSome_iff_exists.1 (lookup_isSome_iff.2 (hpare a hpar'))
      obtain ⟨_, _, rfl, -⟩ := lookup_eq_some_iff.1 hmade
      obtain ⟨i, rfl, hi⟩ := hrec a made (by simp)
      exact ⟨i, by rw [Option.elim_some, hmade]; rfl, hi⟩
  have hlt : id < scene.objects.size := (Array.getElem?_eq_some_iff.1 ho).1
  have hvst : Leads (fun t => s.outline.Grown t.outline)
    (visit cfg scene selection root nodes id)
      fun nodes' t => ∃ i, s.outline.Grown t.outline ∧ Stands scene (some id) i t.outline ∧
        nodes' = nodes ++ [(id, some i)] := by
    refine .keeping (.modify fun _ => rfl) fun _ => ?_
    refine .bind (object_shows (fun h => h) hb ho) fun x => .of_fact fun hx => ?_
    have hkind : x.kind = o.kind := congrArg ObjectOutline.kind hx
    rw [visitedKind, if_pos (by simpa using hall.accepted id hlt), pure_bind, hkind, hover]
    refine .bind (exportAs_stands cfg hs hb ho hp (hall.has o (Array.mem_of_getElem? ho)) x)
      fun made => ?_
    refine .pure fun t => ?_
    rintro ⟨i, hg, hi, rfl⟩
    exact ⟨i, hg, hi, rfl⟩
  obtain ⟨i, hg, hi, rfl⟩ := hvst s (.refl _) nodes' s' h
  refine ⟨some i, rfl, hb.grow hg, htop.grow hg, fun j made hm => ?_⟩
  rcases mem_append.1 hm with hm | hm
  · exact hrec.grow hg j made hm
  · cases mem_singleton.1 hm
    exact ⟨i, rfl, hi⟩

theorem rootOutline_stands {scene : Scene α} {o : Outline α} : Stands scene none 0
    (rootOutline o) := by
  refine ⟨⟨.identity, rfl, .root rfl rfl rfl⟩, ?_, ?_⟩
  · have htype : (rootOutline o).type? 0 = some "Spatial" := rfl
    rw [htype]
    simp [Scene.wireAbove]
  · intro r hr
    cases hr

omit [ExactScalar α] in
theorem selectsAll_of_accepts (h : ∀ o ∈ scene.objects, scene.accepts cfg o = true) :
    SelectsAll cfg scene (scene.selection cfg) := by
  have hacce : ∀ id < scene.objects.size, id ∈ (scene.selection cfg).accepted := by
    intro id hid
    have ho := Array.getElem?_eq_getElem hid
    refine mem_filter.2 ⟨mem_range.2 hid, ?_⟩
    rw [ho]
    exact h _ (Array.mem_of_getElem? ho)
  refine ⟨fun o ho => ?_, hacce, fun id hid => ?_⟩
  · have hacc := h o ho
    unfold Scene.accepts at hacc
    simp only [Bool.and_eq_true] at hacc
    exact hacc.1.1.1
  · exact Scene.mem_valid_of_accepted (hacce id hid)

/-- Every object of a well-placed scene is exported, as a node that stands for it. -/
theorem exportObjects_records {s s' : Session α} (hfile : s.file = {}) (hs : s.scene.WellPlaced)
    (haccs : ∀ o ∈ s.scene.objects, s.scene.accepts cfg o = true)
    (h : exportObjects cfg s = .ok nodes s') :
    Records s.scene nodes s'.outline ∧ ∀ id < s.scene.objects.size, ∃ made, (id, made) ∈ nodes := by
  have hfor : s.scene.IsForest := Scene.isForest_iff.2 hs.forest
  have hall := selectsAll_of_accepts haccs
  have hst : ∀ root s1, exportRoot s.scene.name s = .ok root s1 → Standing s.scene root [] s1 := by
    intro root s1 hroot
    obtain ⟨rfl, hs1⟩ := exportRoot_ok (by simp [Session.outline, hfile])
      (by simp [Session.outline, hfile]) hroot
    rw [Standing, hs1]
    exact ⟨⟨rfl, rfl, by simp [rootOutline]⟩, rootOutline_stands, nofun⟩
  obtain ⟨root, hkeys, -, -, hrec⟩ := exportObjects_induction hfor (fun _ h => h) hst
    (fun ho _ hpare => visit_standing hs hall ho hpare) h
  refine ⟨hrec, fun id hid => ?_⟩
  have hmem := hfor.mem_order.2 (hall.valid id hid)
  rw [← hkeys] at hmem
  obtain ⟨⟨_, made⟩, hmade, rfl⟩ := mem_map.1 hmem
  exact ⟨made, hmade⟩

end ExportM

/-! ### Trees -/

/-- The product of the transforms from the root of a tree down to a node, of which at most `height`
are taken. -/
def Tree.globalTransform? (t : Tree α) : Nat → NodeId → Option (Mat4 α)
  | 0, _ => none
  | height + 1, id => do
    let n ← t.nodes[id]?
    let m ← n.outline.matrix?
    match n.parent with
    | none => return m
    | some parent => return (← t.globalTransform? height parent) * m

theorem Tree.globalTransform?_of_world {s : Session α} {i : NodeId} {w : Mat4 α} {height : Nat}
    (h : s.outline.World i w) (hi : i < height) : s.file.tree.globalTransform? height i =
    some w := by
  induction h generalizing height with
  | root h hp hm =>
    obtain ⟨height, rfl⟩ := Nat.exists_eq_succ_of_ne_zero (Nat.ne_of_gt (Nat.zero_lt_of_lt hi))
    obtain ⟨x, hx, rfl⟩ := Session.getElem?_of_outline h
    have hpare : x.parent = none := hp
    simp [globalTransform?, hx, hm, hpare]
  | child h hp hlt hm _ ih =>
    obtain ⟨height, rfl⟩ := Nat.exists_eq_succ_of_ne_zero (Nat.ne_of_gt (Nat.zero_lt_of_lt hi))
    obtain ⟨x, hx, rfl⟩ := Session.getElem?_of_outline h
    have hpare : x.parent = some _ := hp
    simp [globalTransform?, hx, hm, hpare, ih (Nat.lt_of_lt_of_le hlt (Nat.le_of_lt_succ hi))]

/-- Every object was exported, and its node is where the object is.  The node of an object that is a
collision shape alone is turned. -/
def InPlace (scene : Scene α) (nodes : ExportedNodes) (t : Tree α) : Prop :=
  ∀ id o, scene.objects[id]? = some o → (∃ made, (id, made) ∈ nodes) ∧
    ∀ made, (id, made) ∈ nodes → ∃ i w, made = some i ∧ o.world = .transform w ∧
      t.globalTransform? t.nodes.size i = some (if o.isWireBody then w * axisCorrection else w) ∧
      (t.type i = .ok "CollisionShape" ↔ o.isWireBody = true)

namespace ExportM

/-- **World transforms survive the export.**  The product of the transforms from the root down to
the node of an object is the world transform of the object, wherever the bodies of the scene are. -/
theorem exportScene_world {cfg : Settings} {s s' : Session α} {nodes : ExportedNodes}
    (hfile : s.file = {}) (hs : s.scene.WellPlaced)
    (haccepts : ∀ o ∈ s.scene.objects, s.scene.accepts cfg o = true)
    (h : exportScene cfg s = .ok nodes s') : InPlace s.scene nodes s'.file.tree := by
  obtain ⟨s₁, s₂, hsc, hsame, hobjs, houtl⟩ := exportScene_ok h
  rw [← hsc] at hs haccepts ⊢
  obtain ⟨hrec, hfnd⟩ := exportObjects_records (hsame.trans hfile) hs haccepts hobjs
  rw [houtl] at hrec
  intro id o ho
  refine ⟨hfnd id (Array.getElem?_eq_some_iff.1 ho).1, fun made hm => ?_⟩
  obtain ⟨i, rfl, hi⟩ := hrec id made hm
  obtain ⟨w, hw, hworld⟩ := hi.world
  obtain ⟨o', ho', hw⟩ := Option.bind_eq_some_iff.1 hw
  obtain rfl := Option.some.inj (ho.symm.trans ho')
  have hlt : i < s'.file.tree.nodes.size := by simpa [Session.outline] using hworld.lt
  have hshp := hi.shape
  rw [Scene.wireAbove_eq ho] at hworld hshp
  exact ⟨i, w, rfl, Placement.eq_of_matrix? hw, Tree.globalTransform?_of_world hworld hlt,
    Session.type_iff.trans hshp⟩

end ExportM

/-! ### A yard of boxes -/

/-- An object with a local and a world transform. -/
def Object.at (o : Object α) (l w : Mat4 α) : Object α :=
  { o with localTransform := ⟨.transform l, []⟩, world := .transform w }

/-- A quarter turn about the third axis, twice as high. -/
def Mat4.raised : Mat4 ℚ :=
  ⟨⟨0, -1, 0, 1⟩, ⟨1, 0, 0, 0⟩, ⟨0, 0, 2, 0⟩, ⟨0, 0, 0, 1⟩⟩

/-- A box of wires in a yard, on it a lid with a box, and in that box a mesh without a body. -/
def yard : Session ℚ where
  scene.objects :=
    let m := Mat4.raised
    #[(Object.bare "Yard" .empty none).at m m,
      { (Object.bare "Crate" .mesh (some 0)).at m (m * m) with
        rigidBody := some .falling, displayType := "WIRE" },
      (Object.bare "Lid" .empty (some 1)).at m (m * m * m),
      { (Object.bare "Box" .mesh (some 2)).at m (m * m * m * m) with rigidBody := some .falling },
      (Object.bare "Ball" .mesh (some 3)).at m (m * m * m * m * m)]

theorem yard_wellPlaced : yard.scene.WellPlaced := by
  refine ⟨by decide +kernel, by decide +kernel, ?_, ?_⟩
  · intro o ho
    have hmem : o ∈ yard.scene.objects.toList := Array.mem_toList_iff.2 ho
    simp only [yard, mem_cons, not_mem_nil, or_false] at hmem
    rcases hmem with rfl | rfl | rfl | rfl | rfl
    · exact ⟨_, _, rfl, rfl, congrArg Placement.transform (Mat4.identity_mul _).symm⟩
    all_goals exact ⟨_, _, rfl, rfl, rfl⟩
  · intro o ho w hw
    have hmem : o ∈ yard.scene.objects.toList := Array.mem_toList_iff.2 ho
    simp only [yard, mem_cons, not_mem_nil, or_false] at hmem
    rcases hmem with rfl | rfl | rfl | rfl | rfl
    all_goals
      cases hw
      decide +kernel

namespace ExportM

theorem exportScene_world_yard : ∃ nodes s', exportScene (Settings.withGeometry {}) yard =
    .ok nodes s' ∧ InPlace yard.scene nodes s'.file.tree := by
  obtain ⟨nodes, s', h⟩ := exists_ok (exportScene (Settings.withGeometry {})) yard
  exact ⟨nodes, s', h, exportScene_world rfl yard_wellPlaced (by decide +kernel) h⟩

end ExportM

end SceneExport
