import SceneExport.Proofs.Export.Hanging
import SceneExport.Proofs.Export.Traversal

/-!
# Objects without a node

No node is made for an object that is exported as an empty while empties are not exported
(`Scene.isDropped`), and none for a light of a type that is not supported (`Scene.isDark`).  What is
below a dropped object is put below the node of the nearest object above that is not dropped
(`Scene.anchor?`); what is below a dark light has no node to be put below.

Main statement: what becomes of such objects, and where all others are after an export that
completes (`ExportM.exportScene_anchored`).  One visit settles one object
(`ExportM.exportAs_settles`), and all visits in order settle all (`ExportM.visits_anchored`).
-/

namespace SceneExport

open List

variable {α : Type} {kind : ObjectKind} {above : Option NodeId} {selection : Selection}
  {cfg : Settings} {handed made : Option NodeId} {nodes : ExportedNodes} {scene : Scene α}
  {o : Object α} {id : ObjectId}

namespace Scene

variable {s : Scene α} {p : ObjectId}

/-- What an object is exported as: what it is, if it is accepted, else an empty. -/
def shownAs? (s : Scene α) (selection : Selection) (id : ObjectId) : Option ObjectKind :=
  s.objects[id]?.map fun o => if selection.accepted.contains id then o.kind else .empty

/-- Whether an object hangs on a bone and is exported so. -/
def isHung (s : Scene α) (cfg : Settings) (id : ObjectId) : Bool :=
  s.objects[id]?.any (ExportM.isHung cfg)

/-- Whether an object is exported as an empty while empties are not exported.  If it hangs on a bone
then the attachment stands for it. -/
def isDropped (s : Scene α) (cfg : Settings) (selection : Selection) (id : ObjectId) : Bool :=
  s.shownAs? selection id == some .empty && !cfg.has .empty && !s.isHung cfg id

/-- Whether an object is exported as a light, but is none of a type that is supported. -/
def isDark (s : Scene α) (selection : Selection) (id : ObjectId) : Bool :=
  s.shownAs? selection id == some .light && (s.lightNode? id).isNone

/-- The nearest object above an object that is not dropped. -/
def anchor? (s : Scene α) (cfg : Settings) (selection : Selection) (id : ObjectId) :
    Option ObjectId :=
  (s.ancestors id).find? fun a => !s.isDropped cfg selection a

theorem isDropped_iff (cfg : Settings) (h : s.shownAs? selection id = some kind) :
    s.isDropped cfg selection id = true ↔
      kind = .empty ∧ cfg.has .empty = false ∧ s.isHung cfg id = false := by
  simp [isDropped, h, and_assoc]

theorem isDark_of_isDropped (h : s.isDropped cfg selection id = true) : s.isDark selection id =
    false := by
  have hkind : s.shownAs? selection id = some .empty := by
    simp only [isDropped, Bool.and_eq_true, beq_iff_eq] at h
    exact h.1.1
  simp [isDark, hkind]

theorem anchor?_of_root (h : s.parent? id = none) : s.anchor? cfg selection id = none := by
  rw [anchor?, ancestors, climb_of_none h]
  rfl

theorem IsForest.anchor?_of_dropped (hs : s.IsForest) (hp : s.parent? id = some p)
    (hd : s.isDropped cfg selection p = true) :
    s.anchor? cfg selection id = s.anchor? cfg selection p := by
  rw [anchor?, hs.ancestors_eq hp, find?_cons_of_neg (by simp [hd])]
  rfl

end Scene

/-! ### Places -/

namespace Layout

variable {l l' : Layout α} {n p a b : NodeId} {rigid part : Prop} {rigid' : Prop}

/-- Where a node is that was made for an object, which was to be put below the node handed to
it.  It is below that node, but for two cases: a rigid body that is part of another one is put below
that body, which may be further up; and only a rigid body can do without a node above. -/
inductive Placed (rigid part : Prop) (handed : Option NodeId) (n : NodeId) (l : Layout α) : Prop
  | below {p : NodeId} (ho : handed = some p) (h : l.Below n p)
  | beside {p b : NodeId} (hr : rigid) (hp : part) (ho : handed = some p) (hb : l.IsBody b)
      (hpb : l.Below p b) (h : l.Below n b)
  | apart (hr : rigid) (hp : ¬ part) (ho : handed = none)

theorem Placed.mono (h : l.Placed rigid part handed n) (hl : l.Extends l') : l'.Placed rigid part
    handed n := by
  cases h with
  | below ho h => exact .below ho (h.mono hl)
  | beside hr hp ho hb hpb h => exact .beside hr hp ho (hb.mono hl) (hpb.mono hl) (h.mono hl)
  | apart hr hp ho => exact .apart hr hp ho

/-- A node that is put somewhere and has a parent is placed. -/
theorem Put.placed (h : l.Put rigid part handed n) (hr : rigid → rigid')
    (hch : ∃ q, l.IsChild n q) :
    l.Placed rigid' part handed n := by
  cases h with
  | direct _ _ h =>
    cases handed with
    | none =>
      obtain ⟨q, heading, hq⟩ := hch
      obtain ⟨heading', hn, -⟩ := h.made
      cases hq.symm.trans hn
    | some p => exact .below rfl h.below
  | onBody hrig hb _ hc hn =>
    have h := hc.below_body hn
    rcases hb with ⟨hp, type, hb⟩ | ⟨hp, hbody, p, rfl, rfl | hpb⟩
    · cases handed with
      | none => exact .apart (hr hrig) hp rfl
      | some p => exact .below rfl (h.trans hb.below)
    · exact .below rfl h
    · exact .beside (hr hrig) hp rfl hbody hpb h

/-- An attachment is no body, so what is put below it is placed as if put below its parent. -/
theorem Put.placed_hung (h : l.Put rigid part (some a) n) (hr : rigid → rigid')
    (ha : l.Hangs a "BoneAttachment" (some p)) : l.Placed rigid' part (some p) n := by
  cases h with
  | direct _ _ h => exact .below rfl (h.below.trans ha.below)
  | @onBody b _ hrig hb _ hc hn =>
    have h := hc.below_body hn
    rcases hb with ⟨_, type, hb⟩ | ⟨hp, hbody, a', ha', hup⟩
    · exact .below rfl ((h.trans hb.below).trans ha.below)
    · cases ha'
      have hne : a ≠ b := by
        rintro rfl
        obtain ⟨type, parent, hmade, htype⟩ := hbody
        rw [← ha.made.type_eq hmade] at htype
        exact absurd htype (by decide)
      rcases (hup.resolve_left hne).of_made ha.made with rfl | hpb
      · exact .below rfl h
      · exact .beside (hr hrig) hp rfl hbody hpb h

/-- What the nodes of an object are put below: the node handed to it, or an attachment to that one
if the object hangs on a bone. -/
inductive Held (hung : Bool) (handed above : Option NodeId) (l : Layout α) : Prop
  | free (hh : hung = false) (ha : above = handed)
  | fixed {a p : NodeId} (hh : hung = true) (ha : above = some a) (hp : handed = some p)
      (h : l.Hangs a "BoneAttachment" (some p))

theorem Held.mono {hung : Bool} (h : l.Held hung handed above) (hl : l.Extends l') :
    l'.Held hung handed above := by
  cases h with
  | free hh ha => exact .free hh ha
  | fixed hh ha hp h => exact .fixed hh ha hp (h.mono hl)

/-- What became of an object.  The node of a dropped object is the one handed to it, if that has a
parent; a dark light has none; all others have a node of their own, which is written. -/
inductive Settled (cfg : Settings) (scene : Scene α) (selection : Selection) (id : ObjectId)
    (handed made : Option NodeId) (l : Layout α) : Prop
  | dropped (hd : scene.isDropped cfg selection id = true) (hm : made = handed)
      (hover : ∀ p, handed = some p → ∃ q, l.IsChild p q)
  | dark (hd : scene.isDark selection id = true) (hm : made = none)
  | node {n : NodeId} (hd : scene.isDropped cfg selection id = false)
      (hl : scene.isDark selection id = false) (hm : made = some n) (hw : n ∈ l.written)
      (hp : l.Placed (scene.isRigid id = true) ((scene.physicsRoot? id).isSome = true) handed n)

theorem Settled.mono (h : l.Settled cfg scene selection id handed made)
    (hl : l.Extends l') : l'.Settled cfg scene selection id handed made := by
  cases h with
  | dropped hd hm hover =>
    refine .dropped hd hm fun p hp => ?_
    obtain ⟨q, hq⟩ := hover p hp
    exact ⟨q, hq.mono hl⟩
  | dark hd hm => exact .dark hd hm
  | node hd hn hm hw hp => exact .node hd hn hm (hl.written.subset hw) (hp.mono hl)

theorem Settled.of_dropped (h : l.Settled cfg scene selection id handed made)
    (hd : scene.isDropped cfg selection id = true) :
    made = handed ∧ ∀ p, handed = some p → ∃ q, l.IsChild p q := by
  cases h with
  | dropped _ hm hover => exact ⟨hm, hover⟩
  | dark hdark _ =>
    rw [Scene.isDark_of_isDropped hd] at hdark
    cases hdark
  | node hkept =>
    rw [hd] at hkept
    cases hkept

/-- Without rigid bodies all other objects are below the node that they were to be put below. -/
theorem Settled.below_of_not_rigid (h : l.Settled cfg scene selection id handed made)
    (hd : scene.isDropped cfg selection id = false) (hl : scene.isDark selection id = false)
    (hr : scene.isRigid id = false) : ∃ n p, made = some n ∧ handed = some p ∧ l.Below n p := by
  cases h with
  | dropped hd' =>
    rw [hd] at hd'
    cases hd'
  | dark hl' =>
    rw [hl] at hl'
    cases hl'
  | @node n _ _ hm _ hp =>
    rw [hr] at hp
    cases hp with
    | @below p ho hb => exact ⟨n, p, hm, ho, hb⟩
    | beside hr' => cases hr'
    | apart hr' => cases hr'

end Layout

namespace ExportM

open Layout

variable [Scalar α] {s s' : Session α}

/-! ### One object -/

theorem turnBack_ok {n : NodeId} (h : turnBack n s = .ok () s') : ∃ q, s.layout.IsChild n q := by
  obtain ⟨m, q, -, hm, hq, -⟩ := turnBack_cases h
  exact ⟨q, m.entry.heading, hq ▸ getElem?_layout hm⟩

theorem correctTransform_ok (h : correctTransform cfg o above made s = .ok () s') :
    s.Adds s' ∧ ∀ n, made = some n → ∃ q, s.layout.IsChild n q := by
  refine ⟨adds_of_ok (fun _ => lasts_correctTransform (fun _ _ => (setNode_plan _ _ _).leads _)) h,
    ?_⟩
  rintro n rfl
  unfold correctTransform at h
  by_cases hhung : isHung cfg o = true
  · rw [if_pos hhung] at h
    obtain ⟨attachment, -, h1⟩ := lift_bind_ok h
    obtain ⟨_, s2, hmove, h2⟩ := bind_ok h1
    have hlasts : Lasts Session.layout (· = s.layout) (moveAlongBone o attachment) :=
      lasts_moveAlongBone (fun _ _ => (setNode_layout _ _ _).leads (· = s.layout)) o
    rw [← hlasts s rfl () s2 hmove]
    exact turnBack_ok h2
  · rw [if_neg hhung] at h
    exact turnBack_ok h

omit [Scalar α] in
theorem nodeAbove_held (h : nodeAbove cfg id o handed s = .ok above s') :
    s'.layout.Held (isHung cfg o) handed above := by
  unfold nodeAbove at h
  cases hhung : isHung cfg o with
  | false =>
    rw [hhung] at h
    cases h
    exact .free rfl rfl
  | true =>
    rw [hhung] at h
    obtain ⟨a, ha, rfl⟩ := map_ok h
    obtain ⟨ha, hsome⟩ := exportAttachment_hangs id handed s trivial a s' ha
    obtain ⟨p, rfl⟩ := Option.isSome_iff_exists.1 hsome
    exact .fixed rfl rfl rfl ha

omit [Scalar α] in
/-- What was made for an object settles it, if the node has a parent. -/
theorem Yields.settled {l : Layout α} (h : Yields cfg scene kind id above made l)
    (hkind : scene.shownAs? selection id = some kind)
    (hheld : l.Held (scene.isHung cfg id) handed above)
    (hch : ∀ n, made = some n → ∃ q, l.IsChild n q) : l.Settled cfg scene selection id handed
    made := by
  have hdrop := Scene.isDropped_iff cfg hkind
  have hdark : scene.isDark selection id = true ↔ kind = .light ∧ scene.lightNode? id = none := by
    simp [Scene.isDark, hkind]
  cases h with
  | dark hk hl hm => exact .dark (hdark.2 ⟨hk, hl⟩) hm
  | nothing hk he hm =>
    cases hheld with
    | free hfree ha =>
      subst ha
      exact .dropped (hdrop.2 ⟨hk, he, hfree⟩) hm fun p hp => hch p (hm.trans hp)
    | fixed hfix ha hp h =>
      -- The attachment stands for the object.
      subst ha hp
      refine .node ?_ ?_ hm h.written (.below rfl h.below)
      · rw [Bool.eq_false_iff, ne_eq, hdrop, hfix]
        simp
      · rw [Bool.eq_false_iff, ne_eq, hdark, hk]
        simp
  | node he hl hm hput =>
    refine .node ?_ ?_ hm hput.written ?_
    · rw [Bool.eq_false_iff, ne_eq, hdrop]
      rintro ⟨hk, hnone, -⟩
      rw [he hk] at hnone
      cases hnone
    · rw [Bool.eq_false_iff, ne_eq, hdark]
      rintro ⟨hk, hnone⟩
      have hsome := hl hk
      rw [hnone] at hsome
      cases hsome
    · cases hheld with
      | free _ ha =>
        subst ha
        exact hput.placed And.right (hch _ hm)
      | fixed _ ha hp h =>
        subst ha hp
        exact hput.placed_hung And.right h

/-- What was made for an object when the node that it is put below was settled. -/
theorem exportAs_yields (hs : s.Shows scene) (h : exportAs cfg kind id o handed s =
    .ok made s') :
    ∃ above s1, s.Adds s1 ∧ s1.Adds s' ∧ s1.layout.Held (isHung cfg o) handed above ∧
      Yields cfg scene kind id above made s1.layout ∧ ∀ n, made = some n → ∃ q,
      s1.layout.IsChild n q := by
  obtain ⟨above, s1, hup, h1⟩ := bind_ok h
  obtain ⟨_, s2, hpts, h2⟩ := bind_ok h1
  obtain ⟨made, s3, hmade, h3⟩ := bind_ok h2
  obtain ⟨_, s4, hcorr, h4⟩ := bind_ok h3
  obtain ⟨_, s5, hani, h5⟩ := bind_ok h4
  cases h5
  have hadds1 := adds_of_ok (fun base => (lasting_plan base).nodeAbove _ _ _ _) hup
  have hadds2 := adds_of_ok (fun base => (lasting_plan base).exportOwnParticles _ _ _ _) hpts
  have hadds3 := adds_of_ok (fun base => (lasting_plan base).exportKind _ _ _ _) hmade
  have hadds5 := adds_of_ok (fun base => (lasting_plan base).animateObject _ _ _ _) hani
  obtain ⟨hadds4, hch⟩ := correctTransform_ok hcorr
  have hshw : s2.Shows scene := (hadds2.objects.trans hadds1.objects).trans hs
  exact ⟨above, s3, (hadds1.trans hadds2).trans hadds3, hadds4.trans hadds5,
    (nodeAbove_held hup).mono (hadds2.trans hadds3).layout,
    exportKind_yields cfg kind id above s2 hshw made s3 hmade, hch⟩

theorem exportAs_settles (hs : s.Shows scene) (ho : s.scene.objects[id]? = some o)
    (hkind : scene.shownAs? selection id = some kind) (h : exportAs cfg kind id o handed s =
    .ok made s') :
    s.Adds s' ∧ s'.layout.Settled cfg scene selection id handed made := by
  have hhung : scene.isHung cfg id = isHung cfg o := by
    obtain ⟨o', ho', hout⟩ := hs.object ho
    have hpar : o'.parent = o.parent := congrArg ObjectOutline.parent hout
    have hbone : o'.parentBone = o.parentBone := congrArg ObjectOutline.parentBone hout
    rw [Scene.isHung, ho', Option.any_some, isHung, isHung, hpar, hbone]
  obtain ⟨above, s1, hadds, hadds', hheld, hyiel, hch⟩ := exportAs_yields hs h
  rw [← hhung] at hheld
  exact ⟨hadds.trans hadds', (hyiel.settled hkind hheld hch).mono hadds'.layout⟩

/-! ### One object after the other -/

/-- The node that stands for the nearest object above that is not dropped; the root if there is
none. -/
def anchorNode (cfg : Settings) (scene : Scene α) (selection : Selection) (root : NodeId)
    (nodes : ExportedNodes) (id : ObjectId) : Option NodeId :=
  (scene.anchor? cfg selection id).elim (some root) fun a => (nodes.lookup a).join

/-- Below a root objects were visited after their parents, and nodes were made for them. -/
structure Anchored (cfg : Settings) (scene : Scene α) (selection : Selection) (root : NodeId)
    (nodes : ExportedNodes) (s : Session α) : Prop where
  shows : s.Shows scene
  top : s.layout.Hangs root "Spatial" none
  closed : scene.UpClosed (nodes.map Prod.fst)
  settled : ∀ id made, nodes.lookup id = some made →
    s.layout.Settled cfg scene selection id (nodeOver scene root nodes id) made

omit [Scalar α] in
theorem visitedKind_apply (selection : Selection) (id : ObjectId) (o : Object α) (s : Session α) :
    ∃ log, visitedKind selection id o s =
      .ok (if selection.accepted.contains id then o.kind else .empty) { s with log } := by
  unfold visitedKind
  by_cases hid : selection.accepted.contains id = true
  · rw [if_pos hid, if_pos hid]
    exact ⟨s.log, rfl⟩
  · rw [if_neg hid, if_neg hid]
    exact ⟨_, rfl⟩

section

variable {root : NodeId}

/-- A visit settles an object and leaves alone what was settled before. -/
theorem visit_anchored (hnew : id ∉ nodes.map Prod.fst)
    (hpar : ∀ p, scene.parent? id = some p → p ∈ nodes.map Prod.fst) :
    Leads (Anchored cfg scene selection root nodes)
    (visit cfg scene selection root nodes id) fun nodes' s => ∃ made, nodes' = nodes ++
    [(id, made)] ∧ Anchored cfg scene selection root nodes' s := by
  intro s hs nodes' s' h
  obtain ⟨_, s1, hact, h1⟩ := bind_ok h
  obtain ⟨o, ho, h2⟩ := look_ok object_ok h1
  obtain ⟨log, hkind⟩ := visitedKind_apply selection id o s1
  obtain ⟨made, s3, hmade, h3⟩ := bind_ok (bind_of_ok hkind _ ▸ h2)
  cases h3
  have hadds2 : s.Adds { s1 with log } := by
    cases hact
    exact ⟨rfl, .refl _⟩
  have hshw : Session.Shows { s1 with log } scene := hadds2.objects.trans hs.shows
  have hshow : scene.shownAs? selection id =
    some (if selection.accepted.contains id then o.kind else .empty) := by
    obtain ⟨o', ho', hout⟩ := hshw.object ho
    have hsame : o'.kind = o.kind := congrArg ObjectOutline.kind hout
    rw [Scene.shownAs?, ho', Option.map_some, hsame]
  obtain ⟨hadds3, hsett⟩ := exportAs_settles hshw ho hshow hmade
  have hadds := hadds2.trans hadds3
  refine ⟨made, rfl, hadds.objects.trans hs.shows, hs.top.mono hadds.layout, ?_, fun c made' hc =>
    ?_⟩
  · rw [map_append]
    intro c hc p hp
    refine mem_append_left _ ?_
    rcases mem_append.1 hc with hc | hc
    · exact hs.closed c hc p hp
    · obtain rfl : c = id := by simpa using hc
      exact hpar p hp
  · by_cases hcid : c = id
    · subst hcid
      have hlook : (nodes ++ [(c, made)]).lookup c = some made := by
        simpa using lookup_of_nodup [] hnew
      cases hlook.symm.trans hc
      rw [nodeOver_append hpar]
      exact hsett
    · have hold : nodes.lookup c = some made' := by
        have hne : (c == id) = false := by simpa using hcid
        rwa [lookup_append, lookup_cons, hne, lookup_nil, Option.or_none] at hc
      have hmem : c ∈ nodes.map Prod.fst := lookup_isSome_iff.1 (by rw [hold]; rfl)
      rw [nodeOver_append (hs.closed c hmem)]
      exact (hs.settled c made' hold).mono hadds.layout

omit [Scalar α] in
/-- Past dropped objects the node that an object is put below is the one of its anchor. -/
theorem Anchored.nodeOver_eq (h : Anchored cfg scene selection root nodes s)
    (hs : scene.IsForest) (hid : id ∈ nodes.map Prod.fst) :
    nodeOver scene root nodes id = anchorNode cfg scene selection root nodes id := by
  induction id using hs.down with
  | root id hp =>
    rw [nodeOver, anchorNode, hp, Scene.anchor?_of_root hp]
  | child id p hp ih =>
    have hmem : p ∈ nodes.map Prod.fst := h.closed id hid p hp
    obtain ⟨made, hmade⟩ := Option.isSome_iff_exists.1 (lookup_isSome_iff.2 hmem)
    have hover : nodeOver scene root nodes id = made := by
      rw [nodeOver, hp, Option.elim_some, hmade, Option.join_some]
    cases hd : scene.isDropped cfg selection p with
    | false =>
      rw [hover, anchorNode, Scene.anchor?, hs.ancestors_eq hp, find?_cons_of_pos (by simp [hd]),
        Option.elim_some, hmade, Option.join_some]
    | true =>
      -- A dropped parent hands on the node that it was to be put below itself.
      have hsame : made = nodeOver scene root nodes p := ((h.settled p made hmade).of_dropped hd).1
      rw [hover, hsame, ih hmem, anchorNode, anchorNode, hs.anchor?_of_dropped hp hd]

omit [Scalar α] in
theorem Anchored.exists_settled (h : Anchored cfg scene selection root nodes s)
    (hs : scene.IsForest) (hid : id ∈ nodes.map Prod.fst) :
    ∃ made, nodes.lookup id = some made ∧ s.layout.Settled cfg scene selection id
      (anchorNode cfg scene selection root nodes id) made := by
  obtain ⟨made, hmade⟩ := Option.isSome_iff_exists.1 (lookup_isSome_iff.2 hid)
  refine ⟨made, hmade, ?_⟩
  rw [← h.nodeOver_eq hs hid]
  exact h.settled id made hmade

omit [Scalar α] in
/-- A dropped object has an anchor: were there none, then the root would have to have a parent. -/
theorem Anchored.anchor?_isSome (h : Anchored cfg scene selection root nodes s)
    (hs : scene.IsForest) (hid : id ∈ nodes.map Prod.fst)
    (hd : scene.isDropped cfg selection id = true) :
    (scene.anchor? cfg selection id).isSome = true := by
  obtain ⟨made, -, hsett⟩ := h.exists_settled hs hid
  by_contra hnone
  have hroot : anchorNode cfg scene selection root nodes id = some root := by
    rw [anchorNode, Option.not_isSome_iff_eq_none.1 hnone, Option.elim_none]
  obtain ⟨q, heading, hq⟩ := (hsett.of_dropped hd).2 root hroot
  obtain ⟨heading', hn, -⟩ := h.top.made
  cases hq.symm.trans hn

end

/-! ### Objects that no node is made for -/

/-- Whether an object has particles that are exported. -/
def showsParticles (cfg : Settings) (o : Object α) : Bool :=
  cfg.has .particle && !o.particles.isEmpty

section

variable {n p : NodeId} {type : String}

omit [Scalar α] in
theorem nodeType_apply (h : s.layout.Made n type above) : nodeType n s = .ok type s := by
  obtain ⟨heading, hn, ht⟩ := h
  obtain ⟨m, hm, rfl, -⟩ := getElem?_of_layout hn
  refine lift_apply ?_ s
  rw [Tree.type, Tree.get, hm]
  exact ht

/-- Turning a node back fails at a root, and does nothing to a node that is not below a collision
shape. -/
theorem turnBack_apply (h : s.layout.Made n type above)
    (hup : ∀ q, above = some q → ∃ type' above', s.layout.Made q type' above' ∧
    type' ≠ "CollisionShape") :
    turnBack n s = if above.isSome then .ok () s else .error .missingPart s := by
  obtain ⟨heading, hn, -⟩ := h
  obtain ⟨m, hm, -, hpar⟩ := getElem?_of_layout hn
  unfold turnBack
  rw [bind_of_ok (node_apply hm), hpar]
  cases above with
  | none => rfl
  | some q =>
    obtain ⟨type', above', hq, hne⟩ := hup q rfl
    have hexis : (existing (some q) : ExportM α NodeId) s = .ok q s := rfl
    rw [bind_of_ok hexis, bind_of_ok (nodeType_apply hq), if_neg hne]
    rfl

theorem exportSingle_apply (cfg : Settings) (ho : s.scene.objects[id]? = some o)
    (hkn : o.kind.isKnown = true) (parent : Option NodeId) :
    ∃ log, exportSingle cfg selection id parent s =
      exportAs cfg (if selection.accepted.contains id then o.kind else .empty) id o parent
        { s with log } := by
  obtain ⟨log, hkind⟩ := visitedKind_apply selection id o s
  refine ⟨log, ?_⟩
  rw [exportSingle_eq, bind_of_ok (object_apply ho), exportedKind_of_known hkn, bind_of_ok hkind]

theorem exportAs_free (hfree : isHung cfg o = false) (hpts : showsParticles cfg o = false)
    (kind : ObjectKind) (parent : Option NodeId) :
    exportAs cfg kind id o parent = do
      let made ← exportKind cfg kind id parent
      correctTransform cfg o parent made
      animateObject cfg id parent made
      return made := by
  unfold showsParticles at hpts
  simp [exportAs, nodeAbove, hfree, exportOwnParticles, hpts]

theorem exportAs_dropped (he : cfg.has .empty = false) (hfree : isHung cfg o = false)
    (hpts : showsParticles cfg o = false) (parent : Option NodeId) :
    exportAs cfg .empty id o parent = (parent.elim (pure ()) turnBack >>= fun _ => pure parent)
    := by
  rw [exportAs_free hfree hpts]
  cases parent with
  | none => simp [exportKind, exportEmpty, he, correctTransform, hfree, animateObject, differs]
  | some p => simp [exportKind, exportEmpty, he, correctTransform, hfree, animateObject, differs]

theorem exportSingle_dropped (ho : s.scene.objects[id]? = some o) (hkn : o.kind.isKnown = true)
    (hd : s.scene.isDropped cfg selection id = true) (hpts : showsParticles cfg o = false)
    (parent : Option NodeId) :
    ∃ log, exportSingle cfg selection id parent s =
      (parent.elim (pure ()) turnBack >>= fun _ => pure parent) { s with log } := by
  obtain ⟨log, hsing⟩ := exportSingle_apply cfg ho hkn parent
  have hshown : s.scene.shownAs? selection id =
    some (if selection.accepted.contains id then o.kind else .empty) := by
    rw [Scene.shownAs?, ho, Option.map_some]
  obtain ⟨hemp, he, hfree⟩ := (Scene.isDropped_iff cfg hshown).1 hd
  rw [Scene.isHung, ho, Option.any_some] at hfree
  refine ⟨log, ?_⟩
  rw [hsing, hemp, exportAs_dropped he hfree hpts]

/-- A dropped object hands on the node that it was to be put below, unless that is a root. -/
theorem exportSingle_dropped_below (ho : s.scene.objects[id]? = some o)
    (hkn : o.kind.isKnown = true) (hd : s.scene.isDropped cfg selection id = true)
    (hpts : showsParticles cfg o = false) (hp : s.layout.Made p type above)
    (hup : ∀ q, above = some q → ∃ type' above', s.layout.Made q type' above' ∧
    type' ≠ "CollisionShape") :
    ∃ s', s'.file = s.file ∧ exportSingle cfg selection id (some p) s =
      if above.isSome then .ok (some p) s' else .error .missingPart s' := by
  obtain ⟨log, hsing⟩ := exportSingle_dropped ho hkn hd hpts (some p)
  have hturn := turnBack_apply (s := { s with log }) hp hup
  refine ⟨{ s with log }, rfl, ?_⟩
  rw [hsing, Option.elim_some]
  cases hsome : above.isSome with
  | true =>
    rw [hsome, if_pos rfl] at hturn
    rw [bind_of_ok hturn]
    rfl
  | false =>
    rw [hsome, if_neg Bool.false_ne_true] at hturn
    exact bind_of_error hturn _

theorem exportAnimation_still {a : Animated} (node : Option NodeId)
    (h : cfg.exportAnimation = true → animation? a s = .ok none s ∧
    needsBaking a s = .ok false s) :
    exportAnimation cfg a node s = .ok () s := by
  unfold exportAnimation
  by_cases hset : cfg.exportAnimation = true
  · obtain ⟨hanim, hbaki⟩ := h hset
    rw [if_neg (by simp [hset])]
    rw [bind_of_ok hanim, bind_of_ok hbaki]
    rfl
  · rw [if_pos (by simpa using hset)]
    rfl

/-- Whether a light, or the object that it is the data of, has an animation that is exported. -/
def isAnimated (cfg : Settings) (o : Object α) (l : LightData α) : Bool :=
  cfg.exportAnimation && (l.animation.isSome || o.animation.isSome || o.needsBaking)

variable {l : LightData α}

theorem exportLight_dark (ho : s.scene.objects[id]? = some o) (hdata : o.data = .light l)
    (hl : lightNodeType? l.type = none) (hstill : isAnimated cfg o l = false)
    (parent : Option NodeId) :
    ∃ log, exportLight cfg id parent s = .ok none { s with log } := by
  have htype : (liftM (need .missingPart o.data.type?) : ExportM α String) s = .ok l.type s := by
    rw [hdata]
    rfl
  have hmake : ∃ log, makeLight o parent s = .ok none { s with log } := by
    unfold makeLight
    rw [bind_of_ok htype, hl]
    exact ⟨_, rfl⟩
  obtain ⟨log, hmake⟩ := hmake
  refine ⟨log, ?_⟩
  have hanim : exportAnimation cfg (.data id) none { s with log } = .ok () { s with log } := by
    refine exportAnimation_still none fun hset => ⟨?_, rfl⟩
    have hnone : l.animation = none := by
      simp only [isAnimated, hset, Bool.true_and, Bool.or_eq_false_iff] at hstill
      simpa using hstill.1.1
    rw [animation?, bind_of_ok (object_apply (t := { s with log }) ho), hdata]
    show (pure l.animation : ExportM α _) _ = _
    rw [hnone]
    rfl
  unfold exportLight
  rw [bind_of_ok (object_apply ho), bind_of_ok hmake, bind_of_ok hanim]
  rfl

theorem exportSingle_dark (ho : s.scene.objects[id]? = some o)
    (hid : selection.accepted.contains id = true) (hkind : o.kind = .light)
    (hdata : o.data = .light l) (hl : lightNodeType? l.type = none)
    (hfree : isHung cfg o = false) (hpts : showsParticles cfg o = false)
    (hstill : isAnimated cfg o l = false) (parent : Option NodeId) :
    ∃ s', s'.file = s.file ∧ exportSingle cfg selection id parent s = .ok none s' := by
  have hkn : o.kind.isKnown = true := by rw [hkind]; rfl
  obtain ⟨log, hsing⟩ := exportSingle_apply cfg ho hkn parent
  rw [if_pos hid, hkind] at hsing
  obtain ⟨log', hlight⟩ := exportLight_dark (s := { s with log }) ho hdata hl hstill parent
  let s' : Session α := { s with log := log' }
  have hcorr : correctTransform cfg o parent none s' = .ok () s' := by
    unfold correctTransform
    rw [hfree]
    rfl
  have hani : animateObject cfg id parent none s' = .ok () s' := by
    cases parent with
    | none => rfl
    | some p =>
      refine exportAnimation_still none fun hset => ?_
      simp only [isAnimated, hset, Bool.true_and, Bool.or_eq_false_iff] at hstill
      have hanim : o.animation = none := by simpa using hstill.1.2
      have hobj := object_apply (t := s') ho
      refine ⟨?_, ?_⟩
      · rw [animation?, bind_of_ok hobj, hanim]
        rfl
      · rw [needsBaking, bind_of_ok hobj, hstill.2]
        rfl
  refine ⟨s', rfl, ?_⟩
  rw [hsing, exportAs_free hfree hpts, exportKind, bind_of_ok hlight]
  rw [bind_of_ok hcorr, bind_of_ok hani]
  rfl

end

/-! ### The scene -/

omit [Scalar α] in
theorem exportRoot_hangs (name : String) : HangsBelow none "Spatial"
    (exportRoot name : ExportM α NodeId) := by
  refine .bind (makeNode_made _ _ _ _) fun root => ?_
  exact .bind (writeNode_hangs _) fun _ => .pure fun _ h => h

theorem exportObjects_anchored (hs : s.scene.IsForest) (h : exportObjects cfg s = .ok nodes s')
    : ∃ root, nodes.map Prod.fst = s.scene.order (s.scene.selection cfg) ∧
      Anchored cfg s.scene (s.scene.selection cfg) root nodes s' ∧
      ∀ id ∈ s.scene.order (s.scene.selection cfg),
        ∃ o, s.scene.objects[id]? = some o ∧ o.kind.isKnown = true := by
  obtain ⟨_, _, -, -, hvisd⟩ := visited_exportObjects hs h
  have hst : ∀ root s1, exportRoot s.scene.name s = .ok root s1 →
      Anchored cfg s.scene (s.scene.selection cfg) root [] s1 := by
    intro root s1 hroot
    refine ⟨?_, exportRoot_hangs _ s trivial root s1 hroot, Scene.upClosed_nil, nofun⟩
    rw [← exportRoot_scene hroot]
    rfl
  obtain ⟨root, hkeys, hend⟩ := exportObjects_induction hs
    (fun _ h => ⟨h.shows, h.top, h.closed, h.settled⟩) hst
    (fun _ hnew hpar => visit_anchored hnew hpar) h
  exact ⟨root, hkeys, hend, hvisd.known⟩

/-- **Objects without a node.**  An object of a type that cannot be exported stops the export.  A
dropped object hands on the node that it was to be put below, but it stops the export if that node
is a root; a light of a type that is not supported has no node to hand on.

So an export that completes has met objects of known types only, and dropped objects only below
others that are not dropped.  It has settled each object below the node of its anchor: every object
that is neither dropped nor dark has a node that is written, and it is below that node or, as a part
of a rigid body, below that body; if a dark light is the anchor, then only a rigid body has one. -/
theorem exportScene_anchored (cfg : Settings) (s : Session α) :
    (∀ selection id o, s.scene.objects[id]? = some o → o.kind.isKnown = false →
      ∀ parent made s', exportSingle cfg selection id parent s ≠ .ok made s') ∧
    (∀ selection id o, s.scene.objects[id]? = some o → o.kind.isKnown = true →
      s.scene.isDropped cfg selection id = true → showsParticles cfg o = false →
      (∃ s', s'.file = s.file ∧ exportSingle cfg selection id none s = .ok none s') ∧
      ∀ p type above, s.layout.Made p type above →
        (∀ q, above = some q → ∃ type' above', s.layout.Made q type' above' ∧
        type' ≠ "CollisionShape") → ∃ s', s'.file = s.file ∧ exportSingle cfg selection id
        (some p) s = if above.isSome then .ok (some p) s' else .error .missingPart s') ∧
    (∀ selection id o l, s.scene.objects[id]? = some o → selection.accepted.contains id = true →
      o.kind = .light → o.data = .light l → lightNodeType? l.type = none →
      isHung cfg o = false → showsParticles cfg o = false → isAnimated cfg o l = false →
      ∀ parent, ∃ s', s'.file = s.file ∧ exportSingle cfg selection id parent s = .ok none s')
      ∧
    (s.scene.IsForest → ∀ nodes s', exportScene cfg s = .ok nodes s' →
      ∃ root, s'.layout.Hangs root "Spatial" none ∧ ∀ id ∈ (s.scene.selection cfg).valid,
        (∃ o, s.scene.objects[id]? = some o ∧ o.kind.isKnown = true) ∧
        (s.scene.isDropped cfg (s.scene.selection cfg) id = true →
          (s.scene.anchor? cfg (s.scene.selection cfg) id).isSome = true) ∧
        ∃ made, nodes.lookup id = some made ∧
          s'.layout.Settled cfg s.scene (s.scene.selection cfg) id
            (anchorNode cfg s.scene (s.scene.selection cfg) root nodes id) made) := by
  refine ⟨?_, ?_, ?_, ?_⟩
  · intro selection id o ho hunk parent made s' h
    obtain ⟨o', ho', hkn⟩ := exportSingle_isKnown h
    cases ho.symm.trans ho'
    rw [hunk] at hkn
    cases hkn
  · intro selection id o ho hkn hd hpts
    obtain ⟨log, hnone⟩ := exportSingle_dropped ho hkn hd hpts none
    refine ⟨⟨{ s with log }, rfl, hnone⟩, fun p type above hp hup => ?_⟩
    exact exportSingle_dropped_below ho hkn hd hpts hp hup
  · intro selection id o l ho hid hkind hdata hl hfree hpts hstill parent
    exact exportSingle_dark ho hid hkind hdata hl hfree hpts hstill parent
  · intro hs nodes s' h
    obtain ⟨s₁, s₂, hsc, -, hobjs, houtl⟩ := exportScene_ok h
    have hlayo : s₂.layout = s'.layout := congrArg Outline.layout houtl
    rw [← hsc] at hs ⊢
    obtain ⟨root, hkeys, hanch, hkn⟩ := exportObjects_anchored hs hobjs
    rw [← hlayo]
    refine ⟨root, hanch.top, fun id hid => ?_⟩
    have hmem := hs.mem_order.2 hid
    refine ⟨hkn id hmem, ?_⟩
    rw [← hkeys] at hmem
    exact ⟨hanch.anchor?_isSome hs hmem, hanch.exists_settled hs hmem⟩

end ExportM

/-! ### A mast -/

/-- A mast with an arm that carries a lamp, a light of a type that is not supported and a horn. -/
def mast : Session ℚ where
  scene.objects := #[.bare "Mast" .mesh none,
    .bare "Arm" .empty (some 0),
    { Object.bare "Lamp" .light (some 1) with data := .light .sun },
    { Object.bare "Glow" .light (some 1) with data := .light { LightData.sun with type := "AREA" }
      },
    .bare "Horn" (.other "SPEAKER") (some 1)]

namespace ExportM

/-- Settings with which meshes and lights are exported, but no empties. -/
def mastSettings : Settings :=
  { objectTypes := [.mesh, .light] }

theorem exportScene_anchored_mast :
    (∀ made s', exportSingle mastSettings (mast.scene.selection mastSettings) 4 none mast ≠ .ok made
    s') ∧ (∃ root s₁ s', exportRoot "Deck" mast = .ok root s₁ ∧ exportSingle mastSettings
      (mast.scene.selection mastSettings) 1 (some root) s₁ = .error .missingPart s') ∧
    (∃ s', exportSingle mastSettings (mast.scene.selection mastSettings) 3 none mast = .ok none s')
    ∧ mast.scene.IsForest ∧ ∃ nodes s' n p, exportScene mastSettings mast = .ok nodes s' ∧
      nodes.lookup 0 = some (some p) ∧ nodes.lookup 2 = some (some n) ∧ s'.layout.Below n p := by
  refine ⟨fun made s' => ?_, ?_, ?_, ?_⟩
  · exact (exportScene_anchored mastSettings mast).1 _ 4 _ rfl rfl none made s'
  · obtain ⟨root, s₁, hroot⟩ : ∃ root s₁, exportRoot "Deck" mast = .ok root s₁ := ⟨_, _, rfl⟩
    have hsc := exportRoot_scene hroot
    have hmade := (exportRoot_hangs "Deck" mast trivial root s₁ hroot).made
    have harm : s₁.scene.objects[1]? = some (.bare "Arm" .empty (some 0)) := by rw [hsc]; rfl
    have hd : s₁.scene.isDropped mastSettings (mast.scene.selection mastSettings) 1 = true := by
      rw [hsc]
      decide +kernel
    obtain ⟨s', -, hs'⟩ := ((exportScene_anchored mastSettings s₁).2.1 _ 1 _ harm rfl hd rfl).2
      root "Spatial" none hmade nofun
    exact ⟨root, s₁, s', hroot, hs'⟩
  · obtain ⟨s', -, hs'⟩ := (exportScene_anchored mastSettings mast).2.2.1
      (mast.scene.selection mastSettings) 3 _ _ rfl (by decide +kernel) rfl rfl (by decide)
      (by decide +kernel)
      (by decide +kernel) (by decide +kernel) none
    exact ⟨s', hs'⟩
  · have hfor : mast.scene.IsForest := by decide +kernel
    obtain ⟨nodes, s', h⟩ := exists_ok (exportScene mastSettings) mast
    obtain ⟨root, -, hall⟩ := (exportScene_anchored mastSettings mast).2.2.2 hfor nodes s' h
    obtain ⟨-, -, made, hmade, hsett⟩ := hall 2 (by decide +kernel)
    obtain ⟨n, p, rfl, hp, hdn⟩ := hsett.below_of_not_rigid (by decide +kernel)
      (by decide +kernel) (by decide +kernel)
    have hancho : mast.scene.anchor? mastSettings (mast.scene.selection mastSettings) 2 =
      some 0 := by
      decide +kernel
    rw [anchorNode, hancho, Option.elim_some, Option.join_eq_some_iff] at hp
    exact ⟨hfor, nodes, s', n, p, h, hp, hmade, hdn⟩

end ExportM

end SceneExport
