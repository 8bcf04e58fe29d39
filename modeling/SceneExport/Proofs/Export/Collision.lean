import SceneExport.Proofs.Space.Axes
import SceneExport.Proofs.Export.Directional
import SceneExport.Proofs.Mesh.Skin

/-!
# Meshes and their collision shapes

The points of a collision shape are written as they are in the scene, and its node is turned
instead.  The mesh is put below the shape with its corners turned up, and its node is turned
back.  So each corner should be where its point of the shape is.  But if empties are not exported,
an empty below the mesh takes the node of the mesh for its own, and turns it back once more
(`ExportM.exportScene_covers`).
-/

namespace SceneExport

open List
open Session (cards)

variable {α : Type} {cfg : Settings} {scene : Scene α} {s : Session α} {id : ObjectId}
  {i k : NodeId}

/-! ### Where points are -/

/-- Where a point below a node is in the world.  All transforms are taken with the second axis up,
and those of at most `height` nodes. -/
def Tree.placed? [Scalar α] (t : Tree α) : Nat → NodeId → Vec3 α → Option (Vec3 α)
  | 0, _, _ => none
  | height + 1, id, p => do
    let n ← t.nodes[id]?
    let m ← n.outline.matrix?
    match n.parent with
    | none => return m.toYUp.applyPoint p
    | some parent => t.placed? height parent (m.toYUp.applyPoint p)

/-- The change of axes back, from the second axis up to the third. -/
def Vec3.toZUp [Neg α] (v : Vec3 α) : Vec3 α :=
  ⟨v.x, -v.z, v.y⟩

/-- A number of turns back, each by a quarter. -/
def Mat4.turnedBack [Scalar α] (n : Nat) : Mat4 α :=
  (axisCorrection.inverseOrIdentity * ·)^[n] .identity

theorem Mat4.turnedBack_succ [Scalar α] (n : Nat) :
    (turnedBack (n + 1) : Mat4 α) = axisCorrection.inverseOrIdentity * turnedBack n :=
  Function.iterate_succ_apply' _ n _

section

variable [ExactScalar α]

theorem Mat4.applyPoint_mul {m : Mat4 α} {n : Mat4 α} (hn : n.IsAffine) (v : Vec3 α) :
    (m * n).applyPoint v = m.applyPoint (n.applyPoint v) := by
  simp only [IsAffine] at hn
  simp only [mul_eq, applyLeft, applyPoint, apply, Vec3.homogeneous, Vec4.dot, Vec4.xyz, hn, c0, c1,
    c2, c3, Vec3.mk.injEq]
  refine ⟨?_, ?_, ?_⟩ <;> ring

theorem Mat4.inverse_axisCorrection : (axisCorrection : Mat4 α).inverseOrIdentity =
    ⟨⟨1, 0, 0, 0⟩, ⟨0, 0, -1, 0⟩, ⟨0, 1, 0, 0⟩, ⟨0, 0, 0, 1⟩⟩ := by
  have hdet : (axisCorrection : Mat4 α).det ≠ 0 := by
    rw [det_axisCorrection]
    exact one_ne_zero
  refine mul_left_cancel hdet ((mul_inverseOrIdentity hdet).trans ?_)
  rw [axisCorrection_eq]
  simp [mul_eq, applyLeft, Vec4.dot, identity, c0, c1, c2, c3]

theorem Mat4.turnedBack_spec {n : Nat} :
    (turnedBack n : Mat4 α).IsAffine ∧
    ∀ p : Vec3 α, (turnedBack n).applyPoint p = Vec3.toZUp^[n] p := by
  induction n with
  | zero =>
    refine ⟨rfl, fun p => ?_⟩
    simp [turnedBack, identity, applyPoint, apply, Vec3.homogeneous, Vec4.dot, Vec4.xyz]
  | succ n ih =>
    rw [turnedBack_succ, inverse_axisCorrection]
    refine ⟨IsAffine.mul rfl ih.1, fun p => ?_⟩
    rw [applyPoint_mul ih.1, ih.2, Function.iterate_succ_apply']
    simp [applyPoint, apply, Vec3.homogeneous, Vec4.dot, Vec4.xyz, Vec3.toZUp]

/-- A point that is turned up and then back some times has lost one of the turns. -/
theorem Mat4.turnedBack_toYUp (n : Nat) (p : Vec3 α) :
    (turnedBack (n + 1)).toYUp.applyPoint p.toYUp = Vec3.toZUp^[n] p := by
  rw [applyPoint_toYUp, turnedBack_spec.2, Function.iterate_succ_apply']
  simp [Vec3.toYUp, Vec3.toZUp]

end

/-! ### What is right below a collision shape -/

variable {name : String}

namespace Cards

variable {j : NodeId} {v v' : Option (Value α)} {c : Cards α}

/-- A mesh is right below a collision shape, with a transform or without one. -/
structure Lies (scene : Scene α) (i k : NodeId) (v : Option (Value α)) (c : Cards α) : Prop where
  scene : c.scene = scene.lasting
  node : ∃ n, c.nodes[i]? = some n ∧ n.entry.type? = some "MeshInstance" ∧ n.parent = some k ∧
    n.entry.properties.get? "transform" = v
  above : ∃ n, c.nodes[k]? = some n ∧ n.entry.type? = some "CollisionShape"

namespace Lies

theorem push (h : c.Lies scene i k v) (n : NodeCard α) : (c.push n).Lies scene i k v :=
  ⟨h.scene, push_at h.node n, push_at h.above n⟩

theorem own_length (h : c.Lies scene i k v) : c.nodes.length ≠ i ∧ c.nodes.length ≠ k :=
  ⟨(lt_of_at h.node).ne', (lt_of_at h.above).ne'⟩

theorem update (h : c.Lies scene i k v) {f : NodeCard α → NodeCard α}
    (htype : ∀ n, (f n).entry.type? = n.entry.type?) (hi : j = i → ∀ n, (f n).parent = n.parent ∧
      (n.entry.properties.get? "transform" = v → (f n).entry.properties.get? "transform" = v'))
    (hv : j ≠ i → v' = v) : (c.update j f).Lies scene i k v' := by
  refine ⟨h.scene, update_at h.node ?_ fun hne n => ?_, ?_⟩
  · rintro hj n ⟨ht, hp, hget⟩
    exact ⟨(htype n).trans ht, (hi hj n).1.trans hp, (hi hj n).2 hget⟩
  · rw [hv hne]
    exact id
  · exact update_at h.above (fun _ n ht => (htype n).trans ht) fun _ _ ht => ht

theorem set (h : c.Lies scene i k v) (hj : j ≠ i ∨ name ≠ "transform") (w : Value α) :
    (c.set j name w).Lies scene i k v := by
  refine h.update (fun _ => rfl) (fun he n => ⟨rfl, fun hn => ?_⟩) fun _ => rfl
  exact (Record.get?_set_ne (Ne.symm (hj.resolve_left (absurd he))) _).trans hn

theorem move (h : c.Lies scene i k v) (w : Value α) : (c.set i "transform" w).Lies scene i k
    (some w) :=
  h.update (fun _ => rfl) (fun _ _ => ⟨rfl, fun _ => Record.get?_set_self _ _ _⟩) (absurd rfl)

end Lies

end Cards

namespace ExportM

open Cards

section

variable {v : Option (Value α)} {j : NodeId} {parent : Option NodeId} {type : String}

theorem setNode_lies (hj : j ≠ i ∨ name ≠ "transform") (w : Value α) :
    Lasts cards (Lies scene i k v) (setNode j name w) :=
  setNode_cards fun h => h.set hj w

theorem writeNode_lies (j : NodeId) : Lasts cards (Lies scene i k v) (writeNode j) :=
  writeNode_cards fun h => ⟨h.scene, h.node, h.above⟩

theorem setOther_lies (h : (j ≠ i ∧ j ≠ k) ∨ IsDetailName name) (w : Value α) :
    Lasts cards (Lies scene i k v) (setNode j name w) :=
  setNode_lies (h.imp (fun h => h.1) fun h => h.2) w

theorem makeOther_lies (name type : String) (parent : Option NodeId) (role : Role) :
    Gets cards (Lies scene i k v) (makeNode name type parent role) fun j _ => j ≠ i ∧ j ≠ k :=
  makeNode_cards (fun h => h.push) (fun h => h.own_length) name type parent role

theorem setCue_lies (j : NodeId) (name : String) (w : Value α) :
    Lasts cards (Lies scene i k v) (setNode j ("anims/" ++ name) w) :=
  setNode_lies (.inr (fixedName_transform.1.ne name)) w

theorem makeNode_lies {name : String} {role : Role} :
    Brings cards (fun y => y.scene = scene.lasting ∧ ∃ n, y.nodes[k]? = some n ∧ n.entry.type? =
    some "CollisionShape") (makeNode name "MeshInstance" (some k) role) fun i =>
    (·.Lies scene i k none) := by
  rintro s ⟨hs, n, hn, htype⟩ i s' h
  obtain ⟨rfl, heading, ht, rfl⟩ := makeNode_push h
  rw [Session.cards_push, Session.size_cards]
  refine ⟨hs, ⟨_, getElem?_concat_length, ?_, rfl, rfl⟩, n, ?_, htype⟩
  · simp [Entry.type?, ht, Value.text?]
  · rw [Cards.push, List.getElem?_append_left (List.getElem?_eq_some_iff.1 hn).1, hn]

theorem card_of_made (h : s.layout.Made k type parent) :
    ∃ n, s.cards.nodes[k]? = some n ∧ n.entry.type? = some type := by
  obtain ⟨n, hn, htype⟩ := Option.bind_eq_some_iff.1 (Session.type_iff.1 (type_of_made h))
  obtain ⟨y, hy, rfl⟩ := Session.getElem?_of_outline hn
  exact ⟨y.card, by simp [cards, hy], htype⟩

theorem other_of_made (h : s.cards.Lies scene i k v) {a : NodeId}
    (ha : s.layout.Made a type parent) (hmesh : type ≠ "MeshInstance")
    (hshp : type ≠ "CollisionShape") : a ≠ i ∧ a ≠ k := by
  obtain ⟨n, hn, htype⟩ := card_of_made ha
  obtain ⟨m, hm, hmtype, -⟩ := h.node
  obtain ⟨m', hm', hmtype'⟩ := h.above
  constructor
  · rintro rfl
    cases hn.symm.trans hm
    exact hmesh (Option.some.inj (htype.symm.trans hmtype))
  · rintro rfl
    cases hn.symm.trans hm'
    exact hshp (Option.some.inj (htype.symm.trans hmtype'))

variable [Scalar α] {o x : Object α}

/-- The mesh is not moved along a bone, as the collision shape is no attachment. -/
theorem moveAlongBone_lies (hj : j ≠ k) (o : Object α) : Lasts cards (Lies scene i k v)
    (moveAlongBone o j) := by
  refine moveAlongBone_cards (fun {c a n} hc ha hp => setNode_lies (.inl ?_)) o
  rintro rfl
  obtain ⟨n', hn', -, hpar, -⟩ := hc.node
  cases ha.symm.trans hn'
  exact hj (Option.some.inj (hp.symm.trans hpar))

/-- Where a mesh lies is not changed by the export of an object but for turning it back. -/
theorem steady_lies (id : ObjectId) :
    Steady cfg id cards (fun _ => Lies scene i k v) (scene.Recalls id) (fun j => j ≠ i ∧ j ≠ k)
      fun _ _ _ => True :=
  steady_cards cfg id makeOther_lies writeNode_lies setOther_lies setCue_lies
    (fun h => h.scene) (fun hown _ => setRole_cards fun h => h.update (fun _ => rfl)
    (fun he => absurd he hown.1) fun _ => rfl)
    fun hown => moveAlongBone_lies hown.2

theorem exportAnimation_lies (a : Animated) (node : Option NodeId) :
    Lasts cards (Lies scene i k v) (exportAnimation cfg a node) :=
  exportAnimation_cards cfg makeOther_lies writeNode_lies setOther_lies setCue_lies a node

/-- A mesh that is turned back some times. -/
abbrev TurnedBack (scene : Scene α) (i k : NodeId) (n : Nat) : Cards α → Prop :=
  Lies scene i k (some (.transform (.transform (.turnedBack n))))

/-- Only the mesh itself is turned back. -/
theorem turnBack_lies (n : Nat) (j : NodeId) :
    Brings cards (TurnedBack scene i k n) (turnBack j) fun _ =>
      TurnedBack scene i k (n + if some j = some i then 1 else 0) := by
  by_cases hj : j = i
  · subst hj
    rw [if_pos rfl]
    intro s hs _ s' h
    obtain ⟨x, hx, -, hpar, hget⟩ := hs.node
    obtain ⟨y, hy, rfl⟩ := Session.getElem?_cards hx
    obtain ⟨y', p, type, hy', hp, htype, h1⟩ := turnBack_cases h
    cases hy.symm.trans hy'
    obtain rfl : k = p := Option.some.inj (hpar.symm.trans hp)
    obtain ⟨m, hm, htm⟩ := hs.above
    rw [Session.type?_of_cards hm, htm] at htype
    obtain ⟨-, turn, t, moved, hturn, ht, hmul, h1⟩ := h1.resolve_right fun hno =>
      hno.1 (Option.some.inj htype.symm)
    cases hget.symm.trans ht
    cases hmul
    have hinve : (axisCorrection : Mat4 α).inverseOrIdentity = turn := by
      rw [Mat4.inverseOrIdentity, hturn]
      rfl
    rw [TurnedBack, Mat4.turnedBack_succ, hinve]
    exact setNode_cards (P := TurnedBack scene j k n) (fun h => h.move _) _ hs _ _ h1
  · rw [if_neg (fun he => hj (Option.some.inj he))]
    exact lasts_turnBack fun w => setNode_lies (.inl hj) w

/-- Turning the node of an object back turns the mesh if it is that node. -/
theorem turnsTo_turnedBack {n : Nat} :
    TurnsTo cfg cards (TurnedBack scene i k n : Cards α → Prop) fun made =>
      TurnedBack scene i k (n + if made = some i then 1 else 0) where
  none h := h
  some := turnBack_lies n
  animate _ := exportAnimation_lies

/-! ### Making the mesh -/

/-- The mesh of a body is where its collision shape is, at first. -/
theorem exportInstance_lies (hx : x.hasPhysics = true) :
    Brings cards (fun y => y.scene = scene.lasting ∧ ∃ n, y.nodes[k]? = some n ∧ n.entry.type? =
    some "CollisionShape") (exportInstance cfg id x (some k)) fun i => TurnedBack scene i k
    0 := by
  refine .bind makeNode_lies fun i => ?_
  refine .bind (showMesh_cards cfg (fun hne => setNode_lies (.inr hne)) x) fun _ => ?_
  rw [hx]
  refine .bind (.pure (Q := fun t s => Lies scene i k none s.cards ∧ t = .identity) fun _ h =>
    ⟨h, rfl⟩) fun t => .of_fact fun ht => ?_
  subst ht
  refine .bind (setNode_cards (P := Lies scene i k none) fun h => h.move _) fun _ => ?_
  refine .bind (writeNode_lies _) fun _ => .bind ?_ fun _ => .pure fun _ h => h
  exact lasts_animateShapeKeys (exportAnimation_lies · _) x

theorem exportMeshNode_lies {above : Option NodeId} (ho : scene.objects[id]? = some o)
    (hbody : o.rigidBody.isSome = true) (hshown : o.displayType ≠ "WIRE") :
    Brings cards (·.scene = scene.lasting) (exportMeshNode cfg id above) fun i y => ∃ k,
      TurnedBack scene i k 0 y := by
  refine .bind (object_recalls ho fun h => h) fun x => .of_fact fun hx => ?_
  have hphys : x.hasPhysics = true := (congrArg (·.outline.rigidBody.isSome) hx).trans hbody
  have hdisp : x.displayType = o.displayType := congrArg (·.outline.displayType) hx
  rw [if_pos hphys]
  intro s hs i s' h
  obtain ⟨k, s1, hk, h1⟩ := bind_ok h
  rw [hdisp, if_neg (by simpa using hshown)] at h1
  have hshw : s.Shows s.scene := rfl
  obtain ⟨b, -, -, hmade⟩ := exportPhysics_hangs cfg id above s hshw k s1 hk
  have hsc : s1.lasting = scene.lasting :=
    ((lasting_scene (α := α) (· = scene.lasting)).persistent cfg id).toSteady.exportPhysics
      (x := s.lasting) (Lasting.shapes (lasting_scene _) id) above s hs k s1 hk |>.1
  exact ⟨k, exportInstance_lies hphys s1 ⟨hsc, card_of_made hmade.made⟩ i s' h1⟩

/-! ### Visits -/

variable {root : NodeId} {nodes nodes' : ExportedNodes} {t t' : Session α}

theorem visit_turnedBack {selection : Selection} (ho : scene.objects[id]? = some o)
    (hkind : o.kind = .mesh) (hbody : o.rigidBody.isSome = true) (hshown : o.displayType ≠ "WIRE")
    (ht : t.cards.scene = scene.lasting) (hid : id ∈ selection.accepted)
    (h : visit cfg scene selection root nodes id t = .ok nodes' t') :
    ∃ i k, nodes' = nodes ++ [(id, some i)] ∧ TurnedBack scene i k 1 t'.cards := by
  obtain ⟨x, above, made, t1, hx, hplcd, hanid, rfl⟩ := visit_recalls ho ht hid h
  obtain ⟨t2, t3, t4, hup, hpts, ht3, hmade, hcorr⟩ := placeAs_recalls (t := t.withActive (some id))
    cfg hx ht hplcd
  rw [hkind] at hmade
  obtain ⟨i, hi, rfl⟩ := map_ok hmade
  obtain ⟨k, hk⟩ := exportMeshNode_lies ho hbody hshown t3 ht3 i t4 hi
  -- The node that the object is put below may be an attachment, which is another node by its type.
  have hown (hhung : isHung cfg x = true) : ∀ a ∈ above, a ≠ i ∧ a ≠ k := by
    rw [nodeAbove, if_pos hhung] at hup
    obtain ⟨a, ha, rfl⟩ := map_ok hup
    have hmade2 := (exportAttachment_hangs id _ _ trivial a t2 ha).1.made
    have hlasts := lasting_made (α := α) a "BoneAttachment" (nodeOver scene root nodes id)
    have hmade3 := hlasts.exportOwnParticles cfg id x _ t2 hmade2 _ _ hpts
    have hmade4 := hlasts.exportMeshNode cfg id _ t3 hmade3 _ _ hi
    rintro _ ⟨⟩
    exact other_of_made hk hmade4 (by decide) (by decide)
  have hturne : TurnedBack scene i k 1 t1.cards := by
    refine (steady_lies id).correctTransform (x := t4.cards) (W := TurnedBack scene i k 1) x
      (some i) hown (by simp) ?_ t4 hk _ _ hcorr
    rintro _ ⟨⟩
    refine (turnBack_lies 0 i).post fun _ _ h => ?_
    rwa [if_pos rfl] at h
  exact ⟨i, k, rfl, lasts_animateObject (exportAnimation_lies · _) id t1 hturne _ _ hanid⟩

/-- Objects that are visited later turn the mesh once more if its node is recorded for them. -/
theorem visits_turnedBack (ids : List ObjectId) : Leads (fun s => TurnedBack scene i k 1 s.cards)
      (ids.foldlM (visit cfg scene (scene.selection cfg) root) nodes) fun nodes' s =>
      ∃ below, nodes' = nodes ++ below ∧ TurnedBack scene i k (1 + below.countP (·.2 = some i))
      s.cards ∧ (cfg.has .empty = true → below.countP (·.2 = some i) = 0) := by
  refine (Leads.foldlM (fun _ nodes' (s : Session α) => ∃ below, nodes' = nodes ++ below ∧
    TurnedBack scene i k (1 + below.countP (·.2 = some i)) s.cards ∧
    (cfg.has .empty = true → below.countP (·.2 = some i) = 0)) (fun id rest nodes' => ?_) ids
      nodes).mono
    (fun _ hs => ⟨[], (append_nil _).symm, hs, fun _ => rfl⟩) fun _ _ h => h
  rintro s ⟨below, rfl, hs, hnone⟩ nodes'' s' h
  obtain ⟨made, rfl, hs', hown⟩ := (steady_lies id).visit (x := s.cards)
    (fun _ _ _ _ _ _ => shapes_cards id) turnsTo_turnedBack (fun _ _ => rfl) scene root _ s hs _ _ h
  have hcount : (below ++ [(id, made)]).countP (·.2 = some i) = below.countP (·.2 = some i) +
      if made = some i then 1 else 0 := by
    simp [countP_append, countP_singleton]
  refine ⟨below ++ [(id, made)], by simp, ?_, fun hemp => ?_⟩
  · rw [hcount, ← Nat.add_assoc]
    exact hs'
  · have hoth : made ≠ some i := fun he => (hown hemp i he).1 rfl
    rw [hcount, hnone hemp, if_neg hoth]

theorem exportScene_turnedBack (hs : t.scene.IsForest) (h : exportScene cfg t = .ok nodes t')
    (ho : t.scene.objects[id]? = some o) (hid : id ∈ (t.scene.selection cfg).accepted)
    (hkind : o.kind = .mesh) (hbody : o.rigidBody.isSome = true) (hshown : o.displayType ≠ "WIRE") :
    ∃ before below i k, nodes = before ++ (id, some i) :: below ∧
      TurnedBack t.scene i k (1 + below.countP (·.2 = some i)) t'.cards ∧
      (cfg.has .empty = true → below.countP (·.2 = some i) = 0) := by
  obtain ⟨before, after, hord⟩ :=
    append_of_mem (hs.mem_order.2 (hs.mem_valid.2 ⟨id, hid, .inl rfl⟩))
  have hvis := visitScene_of_exportScene hs h
  rw [hord] at hvis
  obtain ⟨editing, root, done, done', t1, t2, hpre, hvst, hpost⟩ := visitScene_cut hvis
  obtain ⟨i, k, rfl, ht2⟩ := visit_turnedBack ho hkind hbody hshown (visitBefore_scene hpre) hid
    hvst
  obtain ⟨nodes', t3, hfold, h1⟩ := bind_ok hpost
  obtain ⟨below, rfl, ht3, hnone⟩ := visits_turnedBack after t2 ht2 _ _ hfold
  have hrest : visitAfter cfg t.scene (editing, root, done ++ [(id, some i)] ++ below) [] t3 =
    .ok nodes t' := h1
  have ht' : TurnedBack t.scene i k (1 + below.countP (·.2 = some i)) t'.cards := by
    refine lasts_visitAfter (fun _ _ => rfl) (fun j w => setNode_lies (.inr (by decide)) w) ?_ _ t3
      ht3 _ _ hrest
    exact nofun
  obtain ⟨_, t4, -, h2⟩ := bind_ok h1
  obtain ⟨_, t5, -, h3⟩ := bind_ok h2
  cases h3
  exact ⟨done, below, i, k, by simp, ht', hnone⟩

end

end ExportM

/-! ### Points of a mesh -/

section

variable [ExactScalar α] {height n : Nat}

/-- A point of the mesh is where a point of its collision shape is, but for the turns that are too
many. -/
theorem Cards.Lies.placed? {scene : Scene α} (h : ExportM.TurnedBack scene i k (n + 1) s.cards)
    (p : Vec3 α) :
    s.file.tree.placed? (height + 1) i p.toYUp = s.file.tree.placed? height k
    (Vec3.toZUp^[n] p) := by
  obtain ⟨_, hcard, -, hpar, hget⟩ := h.node
  obtain ⟨x, hx, rfl⟩ := Session.getElem?_cards hcard
  have hpar : x.parent = some k := hpar
  have hm : x.outline.matrix? = some (.turnedBack (n + 1)) := by
    have hget : x.outline.transform = _ := hget
    rw [NodeOutline.matrix?, hget]
  simp [Tree.placed?, hx, hm, hpar, Mat4.turnedBack_toYUp n]

/-- A node with a world transform places each point. -/
theorem Tree.exists_placed? {w : Mat4 α} (h : s.outline.World i w) (hi : i < height) (p : Vec3 α) :
    ∃ q, s.file.tree.placed? height i p = some q := by
  induction h generalizing height p with
  | root h hp hm =>
    obtain ⟨height, rfl⟩ := Nat.exists_eq_succ_of_ne_zero (Nat.ne_zero_of_lt hi)
    obtain ⟨x, hx, rfl⟩ := Session.getElem?_of_outline h
    have hpar : x.parent = none := hp
    simp [Tree.placed?, hx, hm, hpar]
  | child h hp hlt hm _ ih =>
    obtain ⟨height, rfl⟩ := Nat.exists_eq_succ_of_ne_zero (Nat.ne_zero_of_lt hi)
    obtain ⟨x, hx, rfl⟩ := Session.getElem?_of_outline h
    have hpar : x.parent = some _ := hp
    simpa [Tree.placed?, hx, hm, hpar] using ih (Nat.lt_of_lt_of_le hlt (Nat.le_of_lt_succ hi)) _

end

/-- A corner of a mesh is written at `q`, and the vertex of the mesh that it is at lies at `p`. -/
def Mesh.Writes [Scalar α] (m : Mesh α) (p q : Vec3 α) : Prop :=
  ∃ bones tangents index x loop v, m.vertexAt bones tangents index = .ok x ∧
    elementAt m.loops index = .ok loop ∧ elementAt m.vertices loop.vertex = .ok v ∧
    Vec3.ofFirst v.position = .ok p ∧ Vec3.ofFirst x.position = .ok q

theorem Mesh.Writes.eq [Scalar α] {m : Mesh α} {p q : Vec3 α} (h : m.Writes p q) : q = p.toYUp := by
  obtain ⟨bones, tangents, index, x, loop, v, hx, hloop, hv, hp, hq⟩ := h
  obtain ⟨loop', v', hloop', hv', hturne, -⟩ := (Mesh.isCorner_of_vertexAt hx).place
  cases hloop.symm.trans hloop'
  cases hv.symm.trans hv'
  rw [turnedUp, hp] at hturne
  cases (congrArg Vec3.ofFirst (Except.ok.inj hturne)).trans hq
  rfl

namespace ExportM

theorem collisionPoints_gives [Scalar α] (m : Mesh α) :
    Outcome.Gives (fun points => ∀ x ∈ points, ∃ v ∈ m.vertices, v.position = x)
    m.collisionPoints :=
  .skip fun _ => .mapM (fun _ => .bind (fun _ hv => mem_of_elementAt hv) fun v hv =>
    .pure ⟨v, hv, rfl⟩) _

theorem shapeOfMesh?_points [Scalar α] {convex : Bool} {b : RigidBody α} {m : Mesh α}
    {r : Resource α} (h : shapeOfMesh? convex b (some m) = .ok (some r)) : ∃ type property points,
      r = meshShape type property b m points ∧ ∀ x ∈ points, ∃ v ∈ m.vertices, v.position = x := by
  cases convex with
  | true =>
    cases h
    exact ⟨_, _, _, rfl, by simp⟩
  | false =>
    rw [shapeOfMesh?, if_neg Bool.false_ne_true] at h
    split at h
    · cases h
    · obtain ⟨points, hpoin, h1⟩ := Outcome.bind_ok h
      cases h1
      exact ⟨_, _, points, rfl, collisionPoints_gives m points hpoin⟩

variable [ExactScalar α] {s s' : Session α} {nodes : ExportedNodes} {o : Object α}

/-- **Meshes and their collision shapes.**  An export completes, and a mesh with a rigid body is
shown.  Then its node is right below its collision shape.  A corner of the mesh is where the point
of the shape for its vertex is, but for a quarter turn for each object that comes later and has the
same node.  There is none if empties are exported.  In scenes whose world transforms agree with the
local ones, in which every object is exported, all points are somewhere. -/
theorem exportScene_covers (hs : s.scene.IsForest) (h : exportScene cfg s = .ok nodes s')
    (ho : s.scene.objects[id]? = some o) (hid : id ∈ (s.scene.selection cfg).accepted)
    (hkind : o.kind = .mesh) {b : RigidBody α} (hbody : o.rigidBody = some b)
    (hshown : o.displayType ≠ "WIRE") :
    ∃ before below i k, nodes = before ++ (id, some i) :: below ∧ s'.file.tree.type i =
    .ok "MeshInstance" ∧ s'.file.tree.type k = .ok "CollisionShape" ∧
      (∀ (m : Mesh α) (p q : Vec3 α), m.Writes p q → ∀ height, s'.file.tree.placed? (height + 1) i
      q = s'.file.tree.placed? height k (Vec3.toZUp^[below.countP (·.2 = some i)] p)) ∧
      (∀ (m : Mesh α) convex r, shapeOfMesh? convex b (some m) = .ok (some r) →
      ∃ type property points, r = meshShape type property b m points ∧ ∀ x ∈ points,
      ∃ v ∈ m.vertices, v.position = x) ∧
      (cfg.has .empty = true → below.countP (·.2 = some i) = 0) ∧
      (s.file = {} → s.scene.WellPlaced → (∀ o ∈ s.scene.objects, s.scene.accepts cfg o =
      true) → ∀ q, ∃ r, s'.file.tree.placed? s'.file.tree.nodes.size i q = some r) := by
  obtain ⟨before, below, i, k, hnds, hlies, hnone⟩ := exportScene_turnedBack hs h ho hid hkind
    (by rw [hbody]; rfl) hshown
  obtain ⟨n, hn, htype, -⟩ := hlies.node
  obtain ⟨n', hn', htype'⟩ := hlies.above
  refine ⟨before, below, i, k, hnds, Session.type_iff.2 ((Session.type?_of_cards hn).trans htype),
    Session.type_iff.2 ((Session.type?_of_cards hn').trans htype'), fun m p q hq height => ?_,
    fun m convex r => shapeOfMesh?_points, hnone, fun hfile hwell haccs q => ?_⟩
  · rw [hq.eq]
    exact (Nat.add_comm 1 _ ▸ hlies).placed? p
  · obtain ⟨s₁, s₂, hsc, hsame, hobjs, houtl⟩ := exportScene_ok h
    rw [← hsc] at hwell haccs
    obtain ⟨hreco, -⟩ := exportObjects_records (hsame.trans hfile) hwell haccs hobjs
    obtain ⟨_, ⟨⟩, hi⟩ := hreco id (some i) (hnds ▸ by simp)
    obtain ⟨w, -, hw⟩ := hi.world
    rw [houtl] at hw
    exact Tree.exists_placed? hw (by simpa [Session.outline] using hw.lt) q

end ExportM

/-! ### A box on a hinge -/

/-- A box, and a ball that is hung on it by a hinge. -/
def hinged : Session ℚ where
  scene.objects :=
    let m := Mat4.raised
    #[{ (Object.bare "Box" .mesh none).at m m with
        rigidBody := some { RigidBody.falling with shape := "CONVEX_HULL" } },
      (Object.bare "Hinge" .empty (some 0)).at m (m * m),
      (Object.bare "Ball" .mesh (some 1)).at m (m * m * m)]

/-- A mesh with one corner. -/
def speck : Mesh ℚ where
  name := "Speck"
  vertices := #[⟨[0, 1, 0], []⟩]
  loops := #[⟨0, [0, 0, 1], [1, 0, 0], [0, 1, 0]⟩]
  triangles := []
  faces := []
  uvs := []
  colors := []
  materials := []
  shapeKeys := none

/-- The hinge is no node of its own, so the box is turned once too often. -/
theorem ExportM.exportScene_covers_hinged : hinged.scene.IsForest ∧ speck.Writes ⟨0, 1, 0⟩
    ⟨0, 0, -1⟩ ∧ ∃ nodes s', exportScene { objectTypes := [.mesh] } hinged = .ok nodes s' ∧ ∃ i k,
    (0, some i) ∈ nodes ∧ (1, some i) ∈ nodes ∧ s'.file.tree.type k = .ok "CollisionShape" ∧
      ∀ height, s'.file.tree.placed? (height + 1) i ⟨0, 0, -1⟩ = s'.file.tree.placed? height k
      ⟨0, 0, 1⟩ := by
  have hfor : hinged.scene.IsForest := by decide +kernel
  have hwrit : speck.Writes ⟨0, 1, 0⟩ ⟨0, 0, -1⟩ := ⟨[], false, 0, _, _, _, rfl, rfl, rfl, rfl, rfl⟩
  obtain ⟨nodes, s', h, hall⟩ := exists_yield (exportScene { objectTypes := [.mesh] }) hinged
    (fun nodes _ => nodes == [(0, some 3), (1, some 3), (2, some 4)])
  have hbox : hinged.scene.objects[0]? = some _ := rfl
  obtain ⟨before, below, i, k, hcut, -, hk, hplcd, -⟩ := exportScene_covers hfor h hbox
    (by decide +kernel) rfl rfl (by decide)
  obtain rfl := eq_of_beq hall
  cases before with
  | nil =>
    cases hcut
    exact ⟨hfor, hwrit, _, s', h, 3, k, by simp, by simp, hk, hplcd speck _ _ hwrit⟩
  | cons x before =>
    have hmem : (0, some i) ∈ [((1 : ObjectId), some (3 : NodeId)), (2, some 4)] := by
      rw [(List.cons.inj hcut).2]
      simp
    simp at hmem

end SceneExport
