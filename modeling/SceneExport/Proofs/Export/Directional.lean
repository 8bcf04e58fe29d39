import SceneExport.Proofs.Export.Hanging
import SceneExport.Proofs.Export.Held
import SceneExport.Proofs.Export.World

/-!
# Below cameras and lights

Cameras and lights look along another axis in the two worlds, so their transforms are
turned.  Collision shapes are turned too, and what is put below one is turned back; what is put
below a camera or a light is not.  So an empty or a mesh below a camera is not where it was: between
the transforms of the two there is a quarter turn (`ExportM.exportScene_turns_children`).
-/

namespace SceneExport

open List

variable {α : Type} {nodes : ExportedNodes} {o child : Object α} {s s' : Session α}
  {t u : Session α} {a c : ObjectId} {m : Mat4 α}

/-- Cameras, and lights of the types that are supported. -/
def Object.IsDirected (o : Object α) : Prop :=
  o.kind = .camera ∨ o.kind = .light ∧ ∃ t ∈ ["POINT", "SPOT", "SUN"], o.data.type? = some t

/-- Empties, and meshes without a rigid body. -/
def Object.IsPlain (o : Object α) : Prop :=
  o.kind = .empty ∨ o.kind = .mesh ∧ o.rigidBody = none

namespace ExportM

open Cards
open Session (cards)

/-- The node of a slot for a transform is turned, or it is below a collision shape. -/
def Turned [Scalar α] (scene : Scene α) (slot : Slot) (m : Mat4 α) (s : Session α) : Prop :=
  (∃ p q, slot.parent = some p ∧ s.layout.Made p "CollisionShape" q) ∨
    s.cards.Holds scene slot (some (.transform (.transform (m * axisCorrection)))) true

section

variable {scene : Scene α} {id : ObjectId} {x : Object α} {slot : Slot} {v : Option (Value α)}
  {done : Bool} {parent : Option NodeId} {name : String} {type : String}

/-! ### Transforms -/

theorem localTransform_recalls (hx : x.lasting = o.lasting) :
    Gets cards (·.Holds scene slot v done) (localTransform x) fun t _ => t = scene.localTransform
    o := by
  intro s hs t s' h
  cases h
  refine ⟨hs, ?_⟩
  have hfr : s.scene.frame = scene.frame := congrArg LastingScene.frame hs.scene
  have hlocal : x.localTransform = o.localTransform := congrArg (·.outline.localTransform) hx
  rw [Scene.localTransform, Scene.localTransform, hfr, hlocal]

/-- The value of a property if it is the transform that is set. -/
def transformAt (name : String) (t : Placement α) : Option (Value α) :=
  if name = "transform" then some (.transform t) else none

theorem setTransform_holds (t : Placement α) :
    Brings cards (·.Holds scene slot none done) (setNode slot.node "transform" (.transform t))
    fun _ =>
      (·.Holds scene slot (transformAt slot.name t) done) := by
  by_cases hname : slot.name = "transform"
  · rw [transformAt, if_pos hname, ← hname]
    exact fillSlot _
  · rw [transformAt, if_neg hname]
    exact setNode_holds (.inr (Ne.symm hname)) _

/-- A node is made for an object.  What it holds in a slot is its transform, or nothing. -/
theorem crafts_holds (ho : scene.objects[id]? = some o) (hname : FixedName name)
    (htype : type ≠ "Skeleton") (parent : Option NodeId) :
    Crafts id parent type Session.cards (fun x => x.lasting = o.lasting)
    (· = scene.localTransform o) (fun c => c.scene = scene.lasting ∧
    (name = "transform" → c.Upright parent)) (fun i t c => c.Holds scene ⟨i, type, parent, name⟩
    (t.bind (transformAt name)) false) fun i t c => c.Holds scene ⟨i, type, parent, name⟩
    (t.bind (transformAt name)) true where
  object := object_recalls ho fun h => h.1
  make title _ hrole := makeNode_holds title (Bool.eq_false_iff.2 fun h => htype (hrole h)) name
  detail _ _ _ _ hd v := setNode_holds (.inr (hname.ne hd.1 hd.2)) v
  localTransform _ _ hx := localTransform_recalls hx
  place i := @setTransform_holds _ _ ⟨i, type, parent, name⟩ _
  write i _ := @finishSlot _ _ _ ⟨i, type, parent, name⟩ _

variable [Scalar α] (cfg : Settings) (ho : scene.objects[id]? = some o)
  (hname : FixedName name)

/-! ### Cameras and lights -/

include ho hname

/-- A camera or a light is turned, and its node is no collision shape. -/
theorem exportDirected_holds (hkind : o.IsDirected) :
    Brings cards (fun y => y.scene = scene.lasting ∧ (name = "transform" → y.Upright parent))
      (exportKind cfg o.kind id parent) fun made y => ∃ i type t, made = some i ∧
      type ≠ "CollisionShape" ∧ (scene.localTransform o).directional = .ok t ∧
      y.Holds scene ⟨i, type, parent, name⟩ (transformAt name t) true := by
  rcases hkind with hkind | ⟨hkind, word, hword, hdata⟩
  · rw [hkind]
    refine (((crafts_holds ho hname (by decide) parent).exportCamera fun _ _ a =>
      exportAnimation_holds hname cfg a _).map some).post ?_
    rintro _ s ⟨i, ⟨t, ⟨_, rfl, ht⟩, hs⟩, rfl⟩
    exact ⟨i, _, t, rfl, by decide, ht, hs⟩
  · rw [hkind]
    obtain ⟨type, htype, hne, hoth⟩ :
        ∃ type, lightNodeType? word = some type ∧ type ≠ "CollisionShape" ∧ type ≠ "Skeleton" := by
      simp only [mem_cons, not_mem_nil, or_false] at hword
      rcases hword with rfl | rfl | rfl
      · exact ⟨_, rfl, by decide⟩
      · exact ⟨_, rfl, by decide⟩
      · exact ⟨_, rfl, by decide⟩
    refine .bind (object_recalls ho fun h => h.1) fun x => .of_fact fun hx => ?_
    have hlight : x.data.type?.bind lightNodeType? = some type := by
      rw [show x.data.type? = o.data.type? from congrArg (·.outline.type) hx, hdata]
      exact htype
    refine .bind ((crafts_holds ho hname hoth parent).makeLight hx hlight) fun made =>
      .of_exists fun i => ?_
    rintro s ⟨rfl, t, ⟨_, rfl, ht⟩, hs⟩ made s' h
    obtain ⟨_, s1, hanim, h1⟩ := bind_ok h
    cases h1
    exact ⟨i, type, t, rfl, hne, ht, exportAnimation_holds hname cfg _ _ s hs () _ hanim⟩

/-! ### Empties and meshes -/

omit hname ho

theorem showMesh_cards {P : Cards α → Prop} {node : NodeId}
    (hset : ∀ {name}, name ≠ "transform" → ∀ w, Lasts Session.cards P (setNode node name w))
    (x : Object α) :
    Lasts Session.cards P (showMesh cfg id x node) := by
  refine .keeping (exportSkinnedMesh_keeps _) fun number => ?_
  split
  · refine .bind (hset (by decide) _) fun _ => .bind (hset (by decide) _) fun _ => ?_
    refine .keeping (.bind .get fun s => ?_) fun surfaces => ?_
    · split
      · exact .pure
      · exact .throw
    refine .bind (.forIn (fun _ (s : Session α) => P s.cards) (fun y _ => ?_) _ _) fun _ => .done
    split
    split
    · split
      · refine .keeping (exportMaterial_keeps _ _ _) fun r => ?_
        exact .bind (hset (append_ne_transform (by decide)) _) fun _ => .done
      · exact .done
    · exact .done
  · exact .done

omit [Scalar α] in
theorem hasPhysics_of_lasting (hx : x.lasting = o.lasting) (hbody : o.rigidBody = none) :
    x.hasPhysics = false := by
  have hsame : x.rigidBody = o.rigidBody := congrArg (·.outline.rigidBody) hx
  rw [Object.hasPhysics, hsame, hbody]
  rfl

include ho

theorem exportInstance_holds (hx : x.lasting = o.lasting) (hbody : o.rigidBody = none) :
    Brings cards (fun y => y.scene = scene.lasting ∧ y.Upright parent)
    (exportInstance cfg id x parent) fun j =>
      (·.Holds scene ⟨j, "MeshInstance", parent, "transform"⟩
        (some (.transform (scene.localTransform o))) true) := by
  refine ((crafts_holds ho fixedName_transform (by decide) parent).exportInstance hx
    (fun _ => showMesh_cards cfg (fun hne => setNode_holds (.inr hne)) x)
    fun _ _ => lasts_animateShapeKeys (fun a => exportAnimation_holds fixedName_transform cfg a
      _) x).mono
    (fun s hs => ⟨hs.1, fun _ => hs.2⟩) ?_
  rintro j s ⟨t, ⟨-, ht⟩, hs⟩
  cases ht (hasPhysics_of_lasting hx hbody)
  exact hs

theorem exportMeshNode_holds (hbody : o.rigidBody = none) :
    Brings cards (fun y => y.scene = scene.lasting ∧ y.Upright parent)
    (exportMeshNode cfg id parent) fun j =>
      (·.Holds scene ⟨j, "MeshInstance", parent, "transform"⟩
        (some (.transform (scene.localTransform o))) true) := by
  refine .bind (object_recalls ho fun h => h.1) fun x => .of_fact fun hx => ?_
  rw [hasPhysics_of_lasting hx hbody]
  exact exportInstance_holds cfg ho hx hbody

/-- An empty or a mesh lies where its object lies. -/
theorem exportPlain_holds (hkind : o.IsPlain) (hemp : o.kind = .empty →
    cfg.has .empty = true) :
    Brings cards (fun y => y.scene = scene.lasting ∧ y.Upright parent)
    (exportKind cfg o.kind id parent) fun made y => ∃ j type, made = some j ∧
      y.Holds scene ⟨j, type, parent, "transform"⟩ (some (.transform (scene.localTransform o)))
      true := by
  rcases hkind with hkind | ⟨hkind, hbody⟩
  · have hhas := hemp hkind
    rw [hkind]
    refine ((crafts_holds ho fixedName_transform (by decide) parent).exportEmpty hhas).mono
      (fun s hs => ⟨hs.1, fun _ => hs.2⟩) ?_
    rintro made s ⟨j, hmade, _, rfl, hs⟩
    exact ⟨j, _, hmade, hs⟩
  · rw [hkind]
    refine ((exportMeshNode_holds cfg ho hbody).map some).post ?_
    rintro made s ⟨j, hs, rfl⟩
    exact ⟨j, _, rfl, hs⟩

/-! ### Placing objects -/

omit ho

omit [Scalar α] in
/-- Nothing is hung on a bone of a node that is no skeleton. -/
theorem exportAttachment_holds :
    Leads (fun s => s.cards.Holds scene slot v done) (exportAttachment id (some slot.node))
    fun _ _ => False := by
  refine exportAttachment_plain (fun name => (makeOther_holds _ _ _ _).post fun _ _ h => h.1)
    (fun hs hn => ?_) id
  obtain ⟨c, hc, -, -, hpln, -⟩ := Holds.node hs
  obtain ⟨n', hn', rfl⟩ := Session.getElem?_cards hc
  cases hn.symm.trans hn'
  exact hpln

omit [Scalar α] in
theorem isHung_of_lasting (hx : x.lasting = o.lasting) : isHung cfg x = isHung cfg o := by
  have hpar : x.parent = o.parent := congrArg (·.outline.parent) hx
  have hbone : x.parentBone = o.parentBone := congrArg (·.outline.parentBone) hx
  rw [isHung, isHung, hpar, hbone]

variable {made : Option NodeId} {above : Option NodeId}

theorem placeAs_recalls (hx : x.lasting = o.lasting) (ht : t.cards.scene = scene.lasting)
    (h : placeAs cfg x.kind id x parent t = .ok (above, made) u) :
    ∃ t1 t2 t3, nodeAbove cfg id x parent t = .ok above t1 ∧
      exportOwnParticles cfg id x above t1 = .ok () t2 ∧ t2.cards.scene = scene.lasting ∧
      exportKind cfg o.kind id above t2 = .ok made t3 ∧ correctTransform cfg x above made
      t3 = .ok () u := by
  obtain ⟨_, t1, hup, h1⟩ := bind_ok h
  obtain ⟨_, t2, hpts, h2⟩ := bind_ok h1
  obtain ⟨_, t3, hmade, h3⟩ := bind_ok h2
  obtain ⟨_, t4, hcorr, h4⟩ := bind_ok h3
  cases h4
  have hlast := lasting_scene (α := α) (· = scene.lasting)
  have ht1 : t1.lasting = scene.lasting := hlast.nodeAbove cfg id x parent t ht _ _ hup
  have hxkind : x.kind = o.kind := congrArg (·.outline.kind) hx
  exact ⟨t1, t2, t3, hup, hpts, hlast.exportOwnParticles cfg id x above t1 ht1 _ _ hpts,
    hxkind ▸ hmade, hcorr⟩

include ho

/-- A child of the node of a slot is put below it and lies there as its object lies. -/
theorem placePlain (hx : x.lasting = o.lasting) (hkind : o.IsPlain)
    (hemp : o.kind = .empty → cfg.has .empty = true) (hname : FixedName slot.name)
    (hslot : slot.type ≠ "CollisionShape") (ht : t.cards.Holds scene slot v done)
    (h : placeAs cfg x.kind id x (some slot.node) t = .ok (above, made) u) :
    ∃ j type, made = some j ∧ u.cards.Holds scene ⟨j, type, some slot.node, "transform"⟩
      (some (.transform (scene.localTransform o))) true := by
  obtain ⟨t1, t2, t3, hup, hpts, -, hmade, hcorr⟩ := placeAs_recalls cfg hx ht.scene h
  -- The node above is no skeleton, so an object on a bone would have stopped the export.
  have hhung : isHung cfg x = false := by
    by_contra hyes
    rw [nodeAbove, if_pos (by simpa using hyes)] at hup
    obtain ⟨a, ha, -⟩ := map_ok hup
    exact exportAttachment_holds t ht a t1 ha
  rw [nodeAbove, hhung] at hup
  cases hup
  have hreca : scene.Recalls id x := ⟨o, ho, hx⟩
  have ht2 : t2.cards.Holds scene slot v done :=
    (persistent_holds hname cfg id).exportOwnParticles (x := t.cards) x hreca _ t ht _ _ hpts
  have hupri : t2.cards.Upright (some slot.node) := by
    intro p hp m hm htype
    cases hp
    obtain ⟨m', hm', htype', -⟩ := ht2.node
    cases hm.symm.trans hm'
    exact hslot (Option.some.inj (htype'.symm.trans htype))
  obtain ⟨j, type, hj, ht3⟩ := exportPlain_holds cfg ho hkind hemp t2 ⟨ht2.scene, hupri⟩ _ t3
    hmade
  refine ⟨j, type, hj, correctTransform_holds (fun hyes => ?_) _ _ t3 ht3 _ _ hcorr⟩
  rw [hhung] at hyes
  cases hyes

omit ho in
/-- What is turned stays so through steps that leave its node alone. -/
theorem lasts_turned {β : Type} {step : ExportM α β}
    (hmade : ∀ p q, Lasts Session.plan (fun plan => plan.2.Made p "CollisionShape" q) step)
    (hholds : Lasts Session.cards
    (Holds scene slot (some (.transform (.transform (m * axisCorrection)))) true) step) :
    Leads (Turned scene slot m) step fun _ => Turned scene slot m := by
  rintro s (⟨p, q, hp, hs⟩ | hs) b s' h
  · exact .inl ⟨p, q, hp, hmade p q s hs b s' h⟩
  · exact .inr (hholds s hs b s' h)

omit ho [Scalar α] in
theorem type_of_made {s : Session α} {n : NodeId} (h : s.layout.Made n type parent) :
    s.file.tree.type n = .ok type := by
  obtain ⟨heading, hn, ht⟩ := h
  obtain ⟨x, hx, hhead, -⟩ := getElem?_of_layout hn
  rw [Tree.type, Tree.get, hx]
  show x.entry.heading.text "type" = .ok type
  rw [hhead, ht]

omit ho in
theorem lasting_made (n : NodeId) (type : String) (parent : Option NodeId) :
    Lasting (Session.plan : Session α → _) fun plan => plan.2.Made n type parent :=
  lasting_of_adds fun h hm => hm.mono h.layout

/-- A camera or a light is exported. -/
theorem exportDirected_turned (hkind : o.IsDirected) (hm : scene.localTransform o = .transform m)
    (ht : t.cards.scene = scene.lasting) (h : exportKind cfg o.kind id parent t = .ok made u) :
    ∃ i type, made = some i ∧ type ≠ "CollisionShape" ∧ u.cards.Holds scene
    ⟨i, type, parent, "shape"⟩ none true ∧ Turned scene ⟨i, type, parent, "transform"⟩ m u := by
  have hshp : FixedName "shape" := by decide
  obtain ⟨i, type, _, rfl, htype, -, hi⟩ := exportDirected_holds cfg ho hshp hkind t
    ⟨ht, fun he => absurd he (by decide)⟩ made u h
  refine ⟨i, type, rfl, htype, hi, ?_⟩
  by_cases hupri : t.cards.Upright parent
  · right
    obtain ⟨i', type', turned, hsome, -, hturne, hi'⟩ := exportDirected_holds cfg ho
      fixedName_transform hkind t ⟨ht, fun _ => hupri⟩ _ u h
    cases hsome
    rw [hm] at hturne
    cases hturne
    -- It is the same node in both slots, so it has the same type.
    obtain ⟨n, hn, hntype, -⟩ := hi.node
    obtain ⟨n', hn', hntype', -⟩ := hi'.node
    cases hn.symm.trans hn'
    cases hntype.symm.trans hntype'
    exact hi'
  · left
    simp only [Cards.Upright, not_forall, not_not] at hupri
    obtain ⟨p, rfl, n, hn, htypes⟩ := hupri
    obtain ⟨y, -, hmade⟩ := made_of_type? ((Session.type?_of_cards hn).trans htypes)
    have hlasts := lasting_made (α := α) p "CollisionShape" y.parent
    exact ⟨p, y.parent, rfl, hlasts.exportKind cfg id (some p) o.kind t hmade _ u h⟩

theorem placeDirected (hx : x.lasting = o.lasting) (hkind : o.IsDirected)
    (hm : scene.localTransform o = .transform m) (ht : t.cards.scene = scene.lasting)
    (h : placeAs cfg x.kind id x parent t = .ok (above, made) u) :
    ∃ i type, made = some i ∧ type ≠ "CollisionShape" ∧ u.cards.Holds scene
    ⟨i, type, above, "shape"⟩ none true ∧
    (isHung cfg o = false → Turned scene ⟨i, type, above, "transform"⟩ m u) := by
  obtain ⟨_, _, t3, -, -, ht2, hmade, hcorr⟩ := placeAs_recalls cfg hx ht h
  obtain ⟨i, type, rfl, htype, hi, hturne⟩ := exportDirected_turned cfg ho hkind hm ht2 hmade
  have hoth : "shape" ≠ "transform" := by decide
  refine ⟨i, type, rfl, htype, correctTransform_holds (fun _ => hoth) _ _ t3 hi _ _ hcorr,
    fun hhung => ?_⟩
  refine lasts_turned (fun p q => lasts_correctTransform (fun i v => (setNode_plan i _ v).leads
    fun plan => plan.2.Made p "CollisionShape" q)) (correctTransform_holds (fun hyes => ?_) _ _) t3
    hturne _ _
    hcorr
  rw [isHung_of_lasting cfg hx, hhung] at hyes
  cases hyes

/-! ### Visits -/

section

variable {cfg : Settings} {selection : Selection} {root : NodeId}
  {nodes' : ExportedNodes}

omit ho in
theorem visit_recalls (ho : scene.objects[id]? = some o) (ht : t.cards.scene = scene.lasting)
    (hid : id ∈ selection.accepted) (h : visit cfg scene selection root nodes id t =
    .ok nodes' u) :
    ∃ x above made t1, x.lasting = o.lasting ∧
      placeAs cfg x.kind id x (nodeOver scene root nodes id) (t.withActive (some id)) =
      .ok (above, made) t1 ∧ animateObject cfg id above made t1 = .ok () u ∧ nodes' = nodes ++
      [(id, made)] := by
  obtain ⟨x, above, made, t1, hx, hplcd, hanid, hnds⟩ := visit_ok hid h
  obtain ⟨o', ho', hlasti⟩ := Scene.recalls_of_lasting ht hx
  cases ho.symm.trans ho'
  exact ⟨x, above, made, t1, hlasti, hplcd, hanid, hnds⟩

theorem visit_directed (hkind : o.IsDirected) (hm : scene.localTransform o = .transform m)
    (ht : t.cards.scene = scene.lasting) (hid : id ∈ selection.accepted)
    (h : visit cfg scene selection root nodes id t = .ok nodes' u) :
    ∃ i type above, nodes' = nodes ++ [(id, some i)] ∧ type ≠ "CollisionShape" ∧
      u.cards.Holds scene ⟨i, type, above, "shape"⟩ none true ∧
      (isHung cfg o = false → Turned scene ⟨i, type, above, "transform"⟩ m u) := by
  obtain ⟨x, above, made, t1, hx, hplcd, hanid, rfl⟩ := visit_recalls ho ht hid h
  obtain ⟨i, type, rfl, htype, hshp, hturne⟩ := placeDirected (t := t.withActive (some id)) cfg
    ho hx hkind hm ht hplcd
  have hshap : FixedName "shape" := by decide
  refine ⟨i, type, above, rfl, htype, animateObject_holds hshap _ _ _ t1 hshp _ _ hanid,
    fun hhung => ?_⟩
  exact lasts_turned (fun p q => (lasting_made p _ q).animateObject cfg id _ _)
    (animateObject_holds fixedName_transform _ _ _) t1 (hturne hhung) _ _ hanid

theorem visit_plain (hkind : o.IsPlain) (hemp : o.kind = .empty → cfg.has .empty = true)
    (hname : FixedName slot.name) (hslot : slot.type ≠ "CollisionShape")
    (ht : t.cards.Holds scene slot v done) (hid : id ∈ selection.accepted)
    (hover : nodeOver scene root nodes id = some slot.node)
    (h : visit cfg scene selection root nodes id t = .ok nodes' u) :
    ∃ j type, nodes' = nodes ++ [(id, some j)] ∧ u.cards.Holds scene
    ⟨j, type, some slot.node, "transform"⟩ (some (.transform (scene.localTransform o))) true := by
  obtain ⟨x, above, made, t1, hx, hplcd, hanid, rfl⟩ := visit_recalls ho ht.scene hid h
  rw [hover] at hplcd
  obtain ⟨j, type, rfl, hj⟩ := placePlain (t := t.withActive (some id)) cfg ho hx hkind hemp
    hname hslot ht hplcd
  exact ⟨j, type, rfl, animateObject_holds fixedName_transform _ _ _ t1 hj _ _ hanid⟩

end

end

/-! ### Scenes -/

/-- A child is visited some time after its parent. -/
theorem exists_order_of_parent [Scalar α] {cfg : Settings} {scene : Scene α}
    (hs : scene.IsForest) {a c : ObjectId} (hc : c ∈ (scene.selection cfg).accepted)
    (hpar : scene.parent? c = some a) :
    ∃ before mid after, scene.order (scene.selection cfg) = before ++
    a :: (mid ++ c :: after) := by
  have hvld : c ∈ (scene.selection cfg).valid := hs.mem_valid.2 ⟨c, hc, .inl rfl⟩
  obtain ⟨l1, l2, hl, ha, hsub⟩ := cons_sublist_iff.1
    (Scene.parent_before (hs.mem_order.2 hvld) hpar)
  obtain ⟨before, mid1, rfl⟩ := append_of_mem ha
  obtain ⟨mid2, after, rfl⟩ := append_of_mem (singleton_sublist.1 hsub)
  exact ⟨before, mid1 ++ mid2, after, by rw [hl]; simp⟩

section

variable [Scalar α] {cfg : Settings}

omit [Scalar α] in
theorem has_of_accepted {scene : Scene α} (hc : scene.objects[c]? = some child)
    (hid : c ∈ (scene.selection cfg).accepted) : cfg.has child.kind = true := by
  obtain ⟨child', hch, haccs⟩ := Scene.mem_accepted.1 hid
  cases hc.symm.trans hch
  unfold Scene.accepts at haccs
  simp only [Bool.and_eq_true] at haccs
  exact haccs.1.1.1

theorem exportScene_directed (hs : s.scene.IsForest) (h : exportScene cfg s = .ok nodes s')
    (ho : s.scene.objects[a]? = some o) (hc : s.scene.objects[c]? = some child)
    (hpar : child.parent = some a) (hacc : a ∈ (s.scene.selection cfg).accepted)
    (hcacc : c ∈ (s.scene.selection cfg).accepted) (hkind : o.IsDirected)
    (hpln : child.IsPlain) (hm : s.scene.localTransform o = .transform m) :
    ∃ i j type type' above, (a, some i) ∈ nodes ∧ (c, some j) ∈ nodes ∧
      s'.cards.Holds s.scene ⟨i, type, above, "shape"⟩ none true ∧
      s'.cards.Holds s.scene ⟨j, type', some i, "transform"⟩
      (some (.transform (s.scene.localTransform child))) true ∧
      (isHung cfg o = false → Turned s.scene ⟨i, type, above, "transform"⟩ m s') := by
  have hparent? : s.scene.parent? c = some a := by
    rw [Scene.parent?, hc]
    exact hpar
  obtain ⟨before, mid, after, hord⟩ := exists_order_of_parent hs hcacc hparent?
  have hvis := visitScene_of_exportScene hs h
  have hnd : (s.scene.order (s.scene.selection cfg)).Nodup := hs.nodup_order
  rw [hord] at hvis hnd
  obtain ⟨editing, root, done, done', t, u, hpre, hvst, hpost⟩ := visitScene_cut hvis
  obtain ⟨i, type, above, rfl, htype, hi, hturne⟩ := visit_directed ho hkind hm
    (visitBefore_scene hpre) hacc hvst
  obtain ⟨done1, done2, t1, u1, hmid, hvisit1, hafter1⟩ := visitAfter_cut hpost
  obtain ⟨below, rfl, -⟩ := visits_keys hmid
  -- The node of the parent is found for the child, as no object comes twice.
  have hover : nodeOver s.scene root (done ++ [(a, some i)] ++ below) c = some i := by
    have hnew : a ∉ done.map Prod.fst := by
      rw [visitBefore_keys hpre]
      exact fun hmem => disjoint_of_nodup_append hnd hmem mem_cons_self
    rw [nodeOver, hparent?]
    show (List.lookup a (done ++ [(a, some i)] ++ below)).join = some i
    rw [lookup_of_nodup below hnew]
    rfl
  have hemp (hk : child.kind = .empty) : cfg.has .empty = true := hk ▸ has_of_accepted hc hcacc
  have hshp : FixedName "shape" := by decide
  have ht1 : t1.cards.Holds s.scene ⟨i, type, above, "shape"⟩ none true :=
    lasts_visits (fun id _ root nodes => visit_holds hshp s.scene root nodes id) root _ u hi _ _
      hmid
  obtain ⟨j, type', rfl, hj⟩ := visit_plain hc hpln hemp hshp htype ht1 hcacc hover hvisit1
  obtain ⟨below', rfl⟩ := visitAfter_keys hafter1
  have hshapeLinks : "shape" ≠ "skeleton" := by decide
  have htran : "transform" ≠ "skeleton" := by decide
  refine ⟨i, j, type, type', above, by simp, by simp, ?_, ?_, fun hhung => ?_⟩
  · exact visitAfter_holds hshp hshapeLinks s.scene _ _ u hi _ _ hpost
  · exact visitAfter_holds fixedName_transform htran s.scene _ _ u1 hj _ _ hafter1
  · exact lasts_turned (fun p q => (lasting_made p _ q).visitAfter (fun _ _ => rfl) _ _)
      (visitAfter_holds fixedName_transform htran s.scene _ _) u (hturne hhung) _ _ hpost

end

section

variable [ExactScalar α] {cfg : Settings} {m n : Mat4 α}

/-- With a quarter turn between them, two maps that can be inverted compose to another map. -/
theorem turned_ne (hm : m.det ≠ 0) (hn : n.det ≠ 0) : m * axisCorrection * n ≠ m * n := by
  intro h
  have hturn : m * axisCorrection = m * .identity := by
    rw [Mat4.mul_right_cancel hn h, Mat4.mul_identity]
  exact Mat4.axisCorrection_ne_identity (Mat4.mul_left_cancel hm hturn)

/-- **Children of cameras and lights are turned.**  An export completes in which a camera or a
supported light has a child, an empty or a mesh without a rigid body.  Then the node of the child is
right below that of its parent, with the transform that the child has below its parent.  But the
transform of the parent, if it is not hung on a bone or below a collision shape, is turned.  So
there is a quarter turn between the two transforms, and their product is not that of the objects
unless one of these cannot be inverted. -/
theorem exportScene_turns_children (hs : s.scene.IsForest)
    (h : exportScene cfg s = .ok nodes s') (ho : s.scene.objects[a]? = some o)
    (hc : s.scene.objects[c]? = some child) (hparent : child.parent = some a)
    (haccepted : a ∈ (s.scene.selection cfg).accepted)
    (hcaccepted : c ∈ (s.scene.selection cfg).accepted) (hkind : o.IsDirected)
    (hplain : child.IsPlain) (hm : s.scene.localTransform o = .transform m)
    (hn : s.scene.localTransform child = .transform n) :
    ∃ i j x y, (a, some i) ∈ nodes ∧ (c, some j) ∈ nodes ∧ s'.file.tree.nodes[i]? = some x ∧
      s'.file.tree.nodes[j]? = some y ∧ y.parent = some i ∧
      y.entry.properties.get? "transform" = some (.transform (.transform n)) ∧
      (isHung cfg o = false → (∀ p ∈ x.parent, s'.file.tree.type p ≠ .ok "CollisionShape") →
        x.entry.properties.get? "transform" = some (.transform (.transform (m * axisCorrection))) ∧
        (m.det ≠ 0 → n.det ≠ 0 → m * axisCorrection * n ≠ m * n)) := by
  obtain ⟨i, j, type, type', above, hi, hj, hshp, htrans, hturne⟩ := exportScene_directed hs h ho hc
    hparent haccepted hcaccepted hkind hplain hm
  obtain ⟨_, hxcard, -, hxpar, -⟩ := hshp.node
  obtain ⟨x, hx, rfl⟩ := Session.getElem?_cards hxcard
  obtain ⟨_, hycard, -, hypar, -, hyval⟩ := htrans.node
  obtain ⟨y, hy, rfl⟩ := Session.getElem?_cards hycard
  refine ⟨i, j, x, y, hi, hj, hx, hy, hypar, hn ▸ hyval _ rfl, fun hhung hfree => ⟨?_, turned_ne⟩⟩
  rcases hturne hhung with ⟨p, q, rfl, hmade⟩ | hholds
  · exact absurd (type_of_made hmade) (hfree p hxpar)
  · obtain ⟨_, hcard, -, -, -, hval⟩ := hholds.node
    obtain ⟨x', hx', rfl⟩ := Session.getElem?_cards hcard
    cases hx.symm.trans hx'
    exact hval _ rfl

end

end ExportM

/-! ### A camera with a hood -/

/-- A camera on a stand, and a hood around its lens. -/
def tripod : Session ℚ where
  scene.objects := #[.bare "Stand" .empty none,
    { (Object.bare "Camera" .camera (some 0)).at .raised .raised with
      data := .camera ⟨"PERSP", none, 100, 1, 6, 40, 50, 36⟩ },
    (Object.bare "Hood" .mesh (some 1)).at .raised (.raised * .raised)]

namespace ExportM

theorem exportScene_turns_children_tripod : tripod.scene.IsForest ∧
    ∃ nodes s', exportScene (Settings.withGeometry {}) tripod = .ok nodes s' ∧
      ∃ i j x y, (1, some i) ∈ nodes ∧ (2, some j) ∈ nodes ∧ s'.file.tree.nodes[i]? = some x ∧
        s'.file.tree.nodes[j]? = some y ∧ y.parent = some i ∧
        y.entry.properties.get? "transform" = some (.transform (.transform .raised)) ∧
        x.entry.properties.get? "transform" =
        some (.transform (.transform (.raised * axisCorrection))) ∧ Mat4.raised * axisCorrection *
        Mat4.raised ≠ Mat4.raised * Mat4.raised := by
  have hfor : tripod.scene.IsForest := by decide +kernel
  obtain ⟨nodes, s', h, hall⟩ := exists_yield (exportScene (Settings.withGeometry {})) tripod
    (fun _ s' => s'.file.tree.nodes.all fun n => n.entry.type? != some "CollisionShape")
  have hfree (p : NodeId) : s'.file.tree.type p ≠ .ok "CollisionShape" := by
    intro hp
    obtain ⟨n, hn, htype⟩ := Option.bind_eq_some_iff.1 (Session.type_iff.1 hp)
    obtain ⟨x, hx, rfl⟩ := Session.getElem?_of_outline hn
    have hne : x.entry.type? ≠ some "CollisionShape" := by
      simpa using Array.all_eq_true'.1 hall x (Array.mem_of_getElem? hx)
    exact hne htype
  obtain ⟨i, j, x, y, hi, hj, hx, hy, hpar, hyval, hturne⟩ := exportScene_turns_children (a := 1)
    (c := 2) (m := .raised) (n := .raised) hfor h rfl rfl rfl (by decide +kernel)
    (by decide +kernel) (.inl rfl)
    (.inr ⟨rfl, rfl⟩) rfl rfl
  obtain ⟨hxval, hne⟩ := hturne rfl fun p _ => hfree p
  exact ⟨hfor, nodes, s', h, i, j, x, y, hi, hj, hx, hy, hpar, hyval, hxval,
    hne (by decide +kernel) (by decide +kernel)⟩

end ExportM

end SceneExport
