import SceneExport.Proofs.Export.Lasting
import SceneExport.Proofs.Physics.Placed

/-!
# Where the nodes of an object hang

An object is exported below a node that is handed to it, or below none.  Most of what is exported
makes one node right below that node (`Layout.Hangs`).  A mesh with a rigid body hangs further down,
below a body and a collision shape of its own; and if its body is part of another one it hangs below
that body, wherever the node that was handed to it is (`Layout.Put`).  Each function that makes
nodes does so (`crafts_hangs`), and so do all of them together (`exportKind_yields`).  Whatever is
exported afterwards, nodes stay where they hang (`lasting_hangs`).
-/

namespace SceneExport

variable {α : Type} {parent : Option NodeId} {type : String}

namespace Layout

variable {l l' : Layout α} {n p b : NodeId} {rigid part : Prop} {q : NodeId}

/-- A node of a type was made below another node, or below none. -/
inductive Made (n : NodeId) (type : String) (parent : Option NodeId) (l : Layout α) : Prop
  | intro (heading : Heading α) (hn : l.nodes[n]? = some ⟨heading, parent⟩)
      (ht : heading.text "type" = .ok type)

/-- A node was made below another node, or below none, and is written. -/
structure Hangs (n : NodeId) (type : String) (parent : Option NodeId) (l : Layout α) : Prop where
  made : l.Made n type parent
  written : n ∈ l.written

/-- A node hangs right below another one. -/
def IsChild (l : Layout α) (n p : NodeId) : Prop :=
  ∃ heading, l.nodes[n]? = some ⟨heading, some p⟩

/-- A node lies below another one. -/
def Below (l : Layout α) : NodeId → NodeId → Prop :=
  Relation.TransGen l.IsChild

/-- A node is one that moves under physics. -/
def IsBody (l : Layout α) (n : NodeId) : Prop :=
  ∃ type parent, l.Made n type parent ∧ type ∈ bodyTypes

theorem Made.mono (h : l.Made n type parent) (hl : l.Extends l') : l'.Made n type parent := by
  obtain ⟨heading, hn, ht⟩ := h
  exact ⟨heading, hl.getElem? hn, ht⟩

theorem Hangs.mono (h : l.Hangs n type parent) (hl : l.Extends l') : l'.Hangs n type parent :=
  ⟨h.made.mono hl, hl.written.subset h.written⟩

theorem IsChild.mono (h : l.IsChild n p) (hl : l.Extends l') : l'.IsChild n p := by
  obtain ⟨heading, hn⟩ := h
  exact ⟨heading, hl.getElem? hn⟩

theorem Below.mono (h : l.Below n p) (hl : l.Extends l') : l'.Below n p :=
  Relation.TransGen.mono (fun _ _ hab => hab.mono hl) _ _ h

theorem IsBody.mono (h : l.IsBody n) (hl : l.Extends l') : l'.IsBody n := by
  obtain ⟨type, parent, hm, ht⟩ := h
  exact ⟨type, parent, hm.mono hl, ht⟩

theorem Made.isChild (h : l.Made n type (some p)) : l.IsChild n p := by
  obtain ⟨heading, hn, -⟩ := h
  exact ⟨heading, hn⟩

theorem Hangs.below (h : l.Hangs n type (some p)) : l.Below n p := .single h.made.isChild

theorem Below.trans (h : l.Below n p) (h' : l.Below p q) : l.Below n q := Relation.TransGen.trans h
    h'

theorem Made.type_eq {type' : String} {parent' : Option NodeId} (h : l.Made n type parent)
    (h' : l.Made n type' parent') : type = type' := by
  obtain ⟨heading, hn, ht⟩ := h
  obtain ⟨heading', hn', ht'⟩ := h'
  cases hn.symm.trans hn'
  exact Except.ok.inj (ht.symm.trans ht')

/-- What a node lies below is its parent or above its parent. -/
theorem Below.of_made (h : l.Below n q) (hn : l.Made n type (some p)) : p = q ∨ l.Below p q := by
  obtain ⟨heading, hn, -⟩ := hn
  obtain ⟨p', ⟨heading', hp'⟩, hrest⟩ := Relation.TransGen.head'_iff.1 h
  cases hn.symm.trans hp'
  rcases Relation.reflTransGen_iff_eq_or_transGen.1 hrest with rfl | hrest
  · exact .inl rfl
  · exact .inr hrest

/-- The body that a collision shape is put below when an object is exported below `parent`: its own,
or one at or above `parent` if its rigid body is part of another one. -/
def BodyOf (l : Layout α) (part : Prop) (parent : Option NodeId) (b : NodeId) : Prop :=
  (¬ part ∧ ∃ type, l.Hangs b type parent) ∨
    (part ∧ l.IsBody b ∧ ∃ p, parent = some p ∧ (p = b ∨ l.Below p b))

/-- Where a node is that was made for an object when it was exported below `parent`.  The object may
have a rigid body (`rigid`), which may be part of another one (`part`).  Then the node is the
collision shape below the body, or the mesh below that. -/
inductive Put (l : Layout α) (rigid part : Prop) (parent : Option NodeId) (n : NodeId) : Prop
  | direct {type : String} (hr : ¬ rigid) (ht : type ∉ bodyTypes) (h : l.Hangs n type parent)
  | onBody {b c : NodeId} (hr : rigid) (hb : l.BodyOf part parent b) (hbody : l.IsBody b)
      (hc : l.Hangs c "CollisionShape" (some b)) (hn : n = c ∨ l.Hangs n "MeshInstance" (some c))

theorem BodyOf.mono (h : l.BodyOf part parent b) (hl : l.Extends l') : l'.BodyOf part parent b := by
  rcases h with ⟨hp, type, hb⟩ | ⟨hp, hb, p, hpar, hpb⟩
  · exact .inl ⟨hp, type, hb.mono hl⟩
  · exact .inr ⟨hp, hb.mono hl, p, hpar, hpb.imp_right (·.mono hl)⟩

theorem Put.written (h : l.Put rigid part parent n) : n ∈ l.written := by
  cases h with
  | direct _ _ h => exact h.written
  | onBody _ _ _ hc hn =>
    rcases hn with rfl | hn
    · exact hc.written
    · exact hn.written

theorem Hangs.below_body {c : NodeId} (hc : l.Hangs c "CollisionShape" (some b))
    (hn : n = c ∨ l.Hangs n "MeshInstance" (some c)) : l.Below n b := by
  rcases hn with rfl | hn
  · exact hc.below
  · exact hn.below.trans hc.below

end Layout

/-- Whether an object that is exported as something gets a node below its body, if it has one. -/
def ObjectKind.isSolid : ObjectKind → Bool
  | .mesh | .surface | .metaball | .font => true
  | _ => false

def Scene.lightNode? (s : Scene α) (id : ObjectId) : Option String :=
  (s.objects[id]?.bind (·.data.type?)).bind lightNodeType?

namespace ExportM

open Layout

variable {n : NodeId}

/-! ### Making and writing nodes -/

theorem makeNode_made (name type : String) (parent : Option NodeId) (role : Role) :
    Leads (fun _ => True) (makeNode name type parent role : ExportM α NodeId) fun n s =>
      s.layout.Made n type parent := by
  intro s _ n s' h
  obtain ⟨rfl, heading, ht, rfl⟩ := makeNode_push h
  refine ⟨heading, ?_, ?_⟩
  · have hsize : s.file.tree.nodes.size = s.layout.nodes.length := by
      simp [Session.layout, Outline.layout, Session.outline]
    rw [layout_push, hsize]
    exact List.getElem?_concat_length
  · rw [Heading.text, Heading.value, ht]
    rfl

theorem writeNode_hangs (n : NodeId) :
    Brings (Session.layout (α := α)) (·.Made n type parent) (writeNode n) fun _ =>
    (·.Hangs n type parent) := by
  intro s hs _ s' h
  cases h
  rw [writeNode_layout]
  exact ⟨hs.mono (s.layout.extends_write n), List.mem_append_right _ (List.mem_singleton_self n)⟩

/-- A node is made below another one, or below none, and written. -/
abbrev HangsBelow (parent : Option NodeId) (type : String) (step : ExportM α NodeId) : Prop :=
  Leads (fun _ => True) step fun n s => s.layout.Hangs n type parent

theorem crafts_hangs (parent : Option NodeId) (type : String) (id : ObjectId) :
    LaysOut id parent type (fun _ : Layout α => True) (fun i l => l.Made i type parent) fun i l =>
    l.Hangs i type parent :=
  .intro (fun name role => makeNode_made name type parent role) writeNode_hangs id

variable (cfg : Settings) (o : Object α) (id : ObjectId)

theorem exportAttachment_hangs (parent : Option NodeId) :
    Leads (fun _ => True) (exportAttachment id parent : ExportM α NodeId) fun n s =>
      s.layout.Hangs n "BoneAttachment" parent ∧ parent.isSome :=
  (crafts_hangs parent _ id).exportAttachment

variable {s : Session α} {scene : Scene α}

theorem made_of_type? (h : s.outline.type? n = some type) :
    ∃ m, s.file.tree.nodes[n]? = some m ∧ s.layout.Made n type m.parent := by
  obtain ⟨m, hm, htype⟩ := Outcome.bind_ok (Session.type_iff.2 h)
  exact ⟨m, need_ok hm, _, getElem?_layout (need_ok hm), htype⟩

/-- The nearest body at or above a node is the node itself if that is one. -/
theorem body_below {b p : NodeId} (h : s.outline.Body p b) :
    s.layout.IsBody b ∧ (p = b ∨ s.layout.Below p b) ∧ (s.layout.IsBody p → b = p) := by
  induction h with
  | here ht hbody =>
    obtain ⟨m, -, hmade⟩ := made_of_type? ht
    exact ⟨⟨_, _, hmade, hbody⟩, .inl rfl, fun _ => rfl⟩
  | @above i q b x t hx ht hbody hq _ ih =>
    obtain ⟨hb, hup, -⟩ := ih
    have htype : s.outline.type? i = some t := by rw [Outline.type?, hx, Option.bind_some, ht]
    obtain ⟨m, hm, hmade⟩ := made_of_type? htype
    have hpar : m.parent = some q := by
      obtain ⟨m', hm', rfl⟩ := Session.getElem?_of_outline hx
      cases hm.symm.trans hm'
      exact hq
    rw [hpar] at hmade
    refine ⟨hb, .inr ?_, fun hself => ?_⟩
    · rcases hup with rfl | hup
      · exact .single hmade.isChild
      · exact .head hmade.isChild hup
    · obtain ⟨type', parent', hmade', htype'⟩ := hself
      rw [← hmade.type_eq hmade'] at htype'
      exact absurd htype' hbody

theorem bodyAbove_below {height : Nat} {b : NodeId} {s' : Session α}
    (h : bodyAbove height parent s = .ok b s') :
    s' = s ∧ s.layout.IsBody b ∧ ∃ p, parent = some p ∧ (p = b ∨ s.layout.Below p b) ∧
      (s.layout.IsBody p → b = p) := by
  cases parent with
  | none => cases height <;> cases h
  | some p =>
    obtain ⟨hs, hb⟩ := bodyAbove_ok h
    obtain ⟨hisBo, hup, hself⟩ := body_below hb
    exact ⟨hs, hisBo, p, rfl, hup, hself⟩

variable [Scalar α]

theorem lasting_hangs (n : NodeId) (type : String) (parent : Option NodeId) :
    Lasting (Session.plan : Session α → _) fun plan => plan.2.Hangs n type parent :=
  lasting_of_adds fun h hm => hm.mono h.layout

/-! ### Nodes of one object each -/

theorem makeLight_hangs (parent : Option NodeId) : Leads (fun _ => True) (makeLight o parent)
    fun made s =>
      (made = none ∧ o.data.type?.bind lightNodeType? = none) ∨
        ∃ n type, made = some n ∧ o.data.type?.bind lightNodeType? = some type ∧
          s.layout.Hangs n type parent := by
  cases hlight : o.data.type?.bind lightNodeType? with
  | none =>
    have hdark : Gets Session.layout (fun _ => True) (makeLight o parent) fun made _ => made =
      none :=
      Crafts.makeLight_dark hlight parent
    exact hdark.post fun _ _ h => .inl ⟨h.2, rfl⟩
  | some type =>
    refine ((crafts_hangs parent type 0).makeLight trivial hlight).post ?_
    rintro made s ⟨n, rfl, _, _, hn⟩
    exact .inr ⟨n, type, rfl, rfl, hn⟩

theorem exportLight_hangs (parent : Option NodeId) :
    Leads (fun s => s.Shows scene) (exportLight cfg id parent)
      fun made s => (made = none ∧ scene.lightNode? id = none) ∨
        ∃ n type, made = some n ∧ scene.lightNode? id = some type ∧ s.layout.Hangs n type
        parent := by
  intro s hs made s' h
  obtain ⟨o, ho, h1⟩ := look_ok object_ok h
  obtain ⟨made, s2, hlight, h2⟩ := bind_ok h1
  obtain ⟨_, s3, hanim, h3⟩ := bind_ok h2
  cases h3
  have htype : scene.lightNode? id = o.data.type?.bind lightNodeType? := by
    obtain ⟨o', ho', hout⟩ := hs.object ho
    have ht : o'.data.type? = o.data.type? := congrArg ObjectOutline.type hout
    rw [Scene.lightNode?, ho', Option.bind_some, ht]
  have hadds := adds_of_ok (fun base => (lasting_plan base).animate _ _ _) hanim
  rw [htype]
  rcases makeLight_hangs o parent s trivial made s2 hlight with hnone | ⟨n, type, hn, ht, hh⟩
  · exact .inl hnone
  · exact .inr ⟨n, type, hn, ht, hh.mono hadds.layout⟩

omit [Scalar α] in
theorem not_body_of_light {id : ObjectId} (h : scene.lightNode? id = some type) :
    type ∉ bodyTypes := by
  obtain ⟨word, -, hword⟩ := Option.bind_eq_some_iff.1 h
  unfold lightNodeType? at hword
  split at hword
  · cases hword; decide
  · cases hword; decide
  · cases hword; decide
  · cases hword

/-! ### Bodies, meshes and curves -/

/-- The collision shape of an object is put below the body of the object, which is made for it
unless it is part of another body. -/
theorem exportPhysics_hangs (parent : Option NodeId) :
    Leads (fun s => s.Shows scene) (exportPhysics cfg id parent : ExportM α NodeId) fun c s =>
      ∃ b, s.layout.BodyOf ((scene.physicsRoot? id).isSome = true) parent b ∧ s.layout.IsBody b ∧
        s.layout.Hangs c "CollisionShape" (some b) := by
  intro s hs c s' h
  unfold exportPhysics at h
  rw [get_bind, Scene.physicsRoot?_congr hs] at h
  cases hroot : scene.physicsRoot? id with
  | none =>
    rw [hroot] at h
    obtain ⟨parent', s1, hpar, h1⟩ := bind_ok h
    obtain ⟨b, hb, rfl⟩ := map_ok hpar
    obtain ⟨type, hb, htype⟩ := LaysOut.exportBody (crafts_hangs parent · id) s trivial b s1 hb
    obtain ⟨_, _, hget, h1⟩ := bind_ok h1
    cases hget
    obtain ⟨body, ⟨-, p, hp, -, hself⟩, h2⟩ := look_ok bodyAbove_below h1
    cases hp
    have hisBo : s1.layout.IsBody b := ⟨type, parent, hb.made, htype⟩
    obtain rfl : body = b := hself hisBo
    have hadds := adds_of_ok (fun base => (lasting_plan base).exportCollision _ _ _ _) h2
    refine ⟨body, .inl ⟨by simp, type, hb.mono hadds.layout⟩, hisBo.mono hadds.layout, ?_⟩
    exact (crafts_hangs (some body) _ id).exportCollision cfg none s1 trivial c s' h2
  | some r =>
    rw [hroot] at h
    obtain ⟨parent', s1, hpar, h1⟩ := bind_ok h
    cases hpar
    obtain ⟨_, _, hget, h1⟩ := bind_ok h1
    cases hget
    obtain ⟨body, ⟨hisBo, p, hp, hup, -⟩, h2⟩ := look_ok bodyAbove_below h1
    have hadds := adds_of_ok (fun base => (lasting_plan base).exportCollision _ _ _ _) h2
    refine ⟨body, .inr ⟨rfl, hisBo.mono hadds.layout, p, hp, ?_⟩, hisBo.mono hadds.layout, ?_⟩
    · exact hup.imp_right (·.mono hadds.layout)
    · exact (crafts_hangs (some body) _ id).exportCollision cfg (some r) s trivial c s' h2

theorem exportInstance_hangs (o : Object α) (parent : Option NodeId) :
    HangsBelow parent "MeshInstance" (exportInstance cfg id o parent) :=
  (crafts_hangs parent _ id).exportInstance (fun i a => (lasting_hangs i _ parent).animate _ a _) o

theorem exportMeshNode_put {id : ObjectId} {rigid : Prop} (hrig : rigid ↔ scene.isRigid id = true)
    (parent : Option NodeId) :
    Leads (fun s => s.Shows scene) (exportMeshNode cfg id parent) fun n s =>
      s.layout.Put rigid ((scene.physicsRoot? id).isSome = true) parent n := by
  intro s hs n s' h
  obtain ⟨o, ho, h1⟩ := look_ok object_ok h
  have hphys : rigid ↔ o.hasPhysics = true := by
    rw [hrig, ← Scene.isRigid_congr hs, Scene.isRigid, ho]
    rfl
  by_cases hr : rigid
  · rw [if_pos (hphys.1 hr)] at h1
    obtain ⟨c, s2, hc, h2⟩ := bind_ok h1
    obtain ⟨b, hb, hbody, hcb⟩ := exportPhysics_hangs cfg id parent s hs c s2 hc
    by_cases hwire : (o.displayType == "WIRE") = true
    · rw [if_pos hwire] at h2
      cases h2
      exact .onBody hr hb hbody hcb (.inl rfl)
    · rw [if_neg hwire] at h2
      have hadds := adds_of_ok (fun base => (lasting_plan base).exportInstance _ _ _ _) h2
      have hn := exportInstance_hangs cfg id o (some c) s2 trivial n s' h2
      exact .onBody hr (hb.mono hadds.layout) (hbody.mono hadds.layout) (hcb.mono hadds.layout)
        (.inr hn)
  · rw [if_neg fun h => hr (hphys.2 h)] at h1
    exact .direct hr (by decide) (exportInstance_hangs cfg id o parent s trivial n s' h1)

/-! ### All objects -/

/-- What was made for an object that was exported as something of a kind below `parent`: nothing for
an empty that is not to be exported, where the node is the one that was handed in; no node for a
light of a type that is not supported; else a node of its own. -/
inductive Yields (cfg : Settings) (scene : Scene α) (kind : ObjectKind) (id : ObjectId)
    (parent made : Option NodeId) (l : Layout α) : Prop
  | nothing (hk : kind = .empty) (he : cfg.has .empty = false) (hm : made = parent)
  | dark (hk : kind = .light) (hl : scene.lightNode? id = none) (hm : made = none)
  | node {n : NodeId} (he : kind = .empty → cfg.has .empty = true)
      (hl : kind = .light → (scene.lightNode? id).isSome = true) (hm : made = some n)
      (hp : l.Put (kind.isSolid = true ∧ scene.isRigid id = true)
      ((scene.physicsRoot? id).isSome = true) parent n)

theorem exportKind_yields (kind : ObjectKind) (id : ObjectId) (parent : Option NodeId) :
    Leads (fun s => s.Shows scene) (exportKind cfg kind id parent) fun made s =>
      Yields cfg scene kind id parent made s.layout := by
  have hmade {step : ExportM α NodeId} (he : kind ≠ .empty) (hl : kind ≠ .light)
      (h : Leads (fun s => s.Shows scene) step fun n s =>
      s.layout.Put (kind.isSolid = true ∧ scene.isRigid id = true)
        ((scene.physicsRoot? id).isSome = true) parent n) :
      Leads (fun s => s.Shows scene) (some <$> step) fun made s =>
        Yields cfg scene kind id parent made s.layout := by
    refine (h.map some).post ?_
    rintro _ s ⟨n, hn, rfl⟩
    exact .node (fun hk => absurd hk he) (fun hk => absurd hk hl) rfl hn
  have hdire {step : ExportM α NodeId} {type : String} (hk : kind.isSolid = false)
    (ht : type ∉ bodyTypes)
      (h : HangsBelow parent type step) :
      Leads (fun s => s.Shows scene) step fun n s =>
        s.layout.Put (kind.isSolid = true ∧ scene.isRigid id = true)
          ((scene.physicsRoot? id).isSome = true) parent n :=
    h.mono (fun _ _ => trivial) fun _ _ hn => .direct (by simp [hk]) ht hn
  have hsolid (hk : kind.isSolid = true) := @exportMeshNode_put α cfg scene _ id _
    (and_iff_right hk) parent
  unfold exportKind
  split
  · exact hmade nofun nofun (hsolid rfl)
  · exact hmade nofun nofun (hsolid rfl)
  · exact hmade nofun nofun (hsolid rfl)
  · exact hmade nofun nofun (hsolid rfl)
  · exact hmade nofun nofun
      (hdire rfl (by decide) ((crafts_hangs parent _ id).exportArmature cfg))
  · refine hmade nofun nofun
      (hdire rfl (by decide) ((crafts_hangs parent _ id).exportCamera fun i _ => ?_))
    exact (lasting_hangs i _ parent).animate _ _ _
  · refine (exportLight_hangs cfg id parent).post ?_
    rintro made s (⟨hm, hl⟩ | ⟨n, type, hm, hl, hn⟩)
    · exact .dark rfl hl hm
    · exact .node nofun (fun _ => by rw [hl]; rfl) hm
        (.direct (by simp [ObjectKind.isSolid]) (not_body_of_light hl) hn)
  · cases he : cfg.has .empty with
    | false =>
      unfold exportEmpty
      rw [he]
      exact .pure fun _ _ => .nothing rfl he rfl
    | true =>
      refine ((crafts_hangs parent _ id).exportEmpty he).mono (fun _ _ => trivial) ?_
      rintro made s ⟨n, hm, _, _, hn⟩
      exact .node (fun _ => he) nofun hm (.direct (by simp [ObjectKind.isSolid]) (by decide) hn)
  · refine hmade nofun nofun (hdire rfl (by decide) ((crafts_hangs parent _ id).exportCurve fun i =>
      ?_))
    exact (lasting_hangs i _ parent).exportMeshNode _ _ _
  · exact .throw
  · exact .throw
  · exact .throw

end ExportM

end SceneExport
