import SceneExport.Proofs.File.Layout
import SceneExport.Proofs.Export.Crafts

/-!
# Stages of an export

While nodes are made the layout of a session stays ordered and keeps the nodes that it has.  A stage
of an export (`Stage`) says so, and which nodes can be used further: those that are placed are
written, so that nodes can be made below them; the one that is pending is made and still has to be
written.  A step that makes nodes leads from one stage to another (`makeNode_leads`,
`writeNode_leads`), and a step that keeps the layout stays at its stage.

An export only adds nodes: what the outline says of a node that is there already stays as it is, but
for the node that is being made (`Outline.Grown`).  Players and particles grow an outline and do
nothing else to it (`Grows`).  A node that is being made is fresh (`Fresh`): it is not among the
nodes of an outline before, and its parent, type and transform are known.
-/

namespace SceneExport

open List
open Session (outline layout)

/-! ### Stages -/

variable {α β : Type} {pending : Option NodeId} {placed : List NodeId} {role : Role} {p : NodeId}
  {i : NodeId}

/-- The layout is ordered and has the nodes of `base`; the pending node is not written yet, and
those that are placed are. -/
structure Stage (base : Layout α) (pending : Option NodeId) (placed : List NodeId)
    (l : Layout α) : Prop where
  ordered : l.Ordered
  grown : base.Extends l
  pending : ∀ i ∈ pending, i < l.nodes.length ∧ i ∉ l.written
  placed : ∀ i ∈ placed, i ∈ l.written

variable {always : Bool}

namespace Stage

variable {base l : Layout α}

theorem start (h : l.Ordered) (hp : p ∈ l.written) : Stage l none [p] l :=
  ⟨h, .refl l, by simp, by simpa using hp⟩

/-- Placed nodes need not be used. -/
theorem weaken {placed' : List NodeId} (h : Stage base pending placed l) (hp : placed' ⊆ placed) :
    Stage base none placed' l :=
  ⟨h.ordered, h.grown, by simp, fun i hi => h.placed i (hp hi)⟩

theorem place (h : Stage base pending placed l) (hi : i ∈ l.written) : Stage base pending
    (i :: placed) l :=
  ⟨h.ordered, h.grown, h.pending, by simpa using ⟨hi, h.placed⟩⟩

theorem cons (h : Stage base pending placed l) (hi : i ∈ placed) : Stage base pending (i :: placed)
    l :=
  h.place (h.placed i hi)

end Stage

/-! ### Rules -/

instance : Tracked (layout : Session α → Layout α) :=
  Tracked.map Outline.layout

instance : Resourceless (layout : Session α → Layout α) where

theorem Keeps.layout {step : ExportM α β} (h : Keeps always outline step) : Keeps always layout
    step :=
  .mono Outline.layout (fun _ => rfl) h

namespace ExportM

theorem updateNode_layout (id : NodeId) {f : Node α → Node α}
    (hf : ∀ n, (f n).outline.layout = n.outline.layout) :
    Keeps always layout (changeFile fun file => { file with tree := file.tree.update id f }) := by
  refine .modify fun s => ?_
  simp only [layout, outline, Outline.layout, Tree.update, map_map]
  rw [map_modify (NodeOutline.layout ∘ Node.outline) hf]

theorem setNode_layout (id : NodeId) (name : String) (value : Value α) : Keeps always layout
    (setNode id name value) :=
  updateNode_layout id fun _ => rfl

/-! ### Making and writing nodes -/

variable {base : Layout α} {name type : String} {s s' : Session α} {id : NodeId}

theorem pathValue_eq_of_route {s : Session α} {names : List String} (h : s.layout.Route p names)
    {path : Value α} (hv : s.file.tree.pathValue p = .ok path) : path = .text (pathText names) := by
  obtain ⟨n, hn, hv⟩ := Outcome.bind_ok hv
  have hp := Node.pathValue_of_route (need_ok hn) h
  exact Except.ok.inj (hv.symm.trans hp)

theorem layout_push (s : Session α) (heading : Heading α) (parent : Option NodeId) (role : Role) :
    layout { s with file := { s.file with tree := s.file.tree.push heading parent role } }
      = s.layout.push ⟨heading, parent⟩ := by
  simp [layout, outline, Outline.layout, Layout.push, Tree.push, Node.outline, NodeOutline.layout]

/-- What making a node below another one does to the session. -/
theorem makeNode_ok (h : makeNode name type (some p) role s = .ok id s') :
    id = s.file.tree.nodes.size ∧ ∃ taken path, s.file.tree.childNames p = .ok taken ∧
      s.file.tree.pathValue p = .ok path ∧
      s' = { s with file := { s.file with tree :=
        (s.file.tree.push [("name", .text (uniqueName taken (nodeName name))),
          ("type", .text type), ("parent", path)] (some p) role) } } := by
  rw [makeNode, get_bind] at h
  unfold SceneFile.makeNode at h
  cases hm : s.file.tree.make name (.text type) (some p) role with
  | mk made tree =>
    rw [hm] at h
    obtain ⟨_, _, hset, h⟩ := bind_ok h
    cases hset
    obtain ⟨rfl, rfl⟩ := lift_ok h
    obtain ⟨rfl, taken, path, hc, hv, rfl⟩ := Tree.make_ok hm
    exact ⟨rfl, taken, path, hc, hv, rfl⟩

/-- What making a node does to the session, wherever the node is made. -/
theorem makeNode_push {parent : Option NodeId} (h : makeNode name type parent role s = .ok id s') :
    id = s.file.tree.nodes.size ∧ ∃ heading : Heading α, heading.get? "type" = some (.text type) ∧
      s' = { s with file := { s.file with tree := s.file.tree.push heading parent role } } := by
  cases parent with
  | none =>
    cases h
    exact ⟨rfl, _, rfl, rfl⟩
  | some p =>
    obtain ⟨hid, taken, path, -, -, hs'⟩ := makeNode_ok h
    exact ⟨hid, _, rfl, hs'⟩

theorem makeNode_leads (hp : p ∈ placed) (name type : String) (role : Role) :
    Brings layout (Stage base pending placed) (makeNode name type (some p) role) fun id =>
      Stage base (some id) placed := by
  intro s hs id s' h
  obtain ⟨rfl, taken, path, hc, hv, rfl⟩ := makeNode_ok h
  have hw := hs.placed p hp
  obtain ⟨names, hr⟩ := hs.ordered.route p (hs.ordered.bound p hw)
  obtain rfl : path = .text (pathText names) := pathValue_eq_of_route hr hv
  have hfree : ∀ (i : NodeId) (hd : Heading α), s.layout.nodes[i]? = some ⟨hd, some p⟩ →
      hd.get? "name" ≠ some (.text (uniqueName taken (nodeName name))) := by
    intro i hd hi hn
    obtain ⟨n, hn', rfl, hpar⟩ := getElem?_of_layout hi
    exact uniqueName_not_mem taken _ (Tree.mem_childNames hc hn' hpar hn)
  have ho := hs.ordered.make hw hr (isNodeName_uniqueName taken (isNodeName_nodeName name)) hfree
    (.text type)
  have hsize : s.file.tree.nodes.size = s.layout.nodes.length := by
    simp [layout, Outline.layout, outline]
  rw [layout_push, hsize]
  refine ⟨ho, hs.grown.trans (s.layout.extends_push _), ?_, hs.placed⟩
  intro i hi
  obtain rfl := Option.mem_some_iff.1 hi
  refine ⟨by simp [Layout.push], fun hw => ?_⟩
  exact absurd (hs.ordered.bound _ hw) (Nat.lt_irrefl _)

theorem writeNode_leads (id : NodeId) :
    Brings layout (Stage base (some id) placed) (writeNode id) fun _ => Stage base none
    (id :: placed) := by
  intro s hs _ s' h
  cases h
  obtain ⟨hlt, hw⟩ := hs.pending id rfl
  have hl : layout { s with file := s.file.write id } = s.layout.write id := by
    simp [layout, outline, Outline.layout, Layout.write, SceneFile.write]
  rw [hl]
  refine ⟨hs.ordered.write hlt hw, hs.grown.trans (s.layout.extends_write id), by simp, ?_⟩
  intro i hi
  rcases mem_cons.1 hi with rfl | hi
  · exact mem_append_right _ (mem_singleton_self _)
  · exact mem_append_left _ (hs.placed i hi)

theorem object_leads (id : ObjectId) :
    Gets layout (Stage base pending placed) (object id) fun o _ => base.objects[id]? =
    some (o.kind, o.data.type?) := by
  intro s hs o s' h
  obtain ⟨rfl, ho⟩ := object_ok h
  have hget : s'.layout.objects[id]? = some (o.kind, o.data.type?) := by
    simp [layout, outline, Outline.layout, ho, Object.outline]
  exact ⟨hs, hs.grown.objects ▸ hget⟩

end ExportM

/-! ### Growth -/

variable {α β : Type}

def NodeOutline.type? (n : NodeOutline α) : Option String :=
  (n.heading.get? "type").bind Value.text?

variable {o : Outline α} {n : NodeOutline α}

namespace Outline

/-- The second outline has the nodes of the first, and maybe more that are no skeletons. -/
structure Grown (o o' : Outline α) : Prop where
  objects : o'.objects = o.objects
  frame : o'.frame = o.frame
  nodes : o.nodes <+: o'.nodes
  plain : (∀ n ∈ o.nodes, n.isSkeleton = false) → ∀ n ∈ o'.nodes, n.isSkeleton = false

theorem Grown.refl (o : Outline α) : o.Grown o := ⟨rfl, rfl, prefix_rfl, fun h => h⟩

theorem Grown.trans {o' o'' : Outline α} (h : o.Grown o') (h' : o'.Grown o'') : o.Grown o'' :=
  ⟨h'.objects.trans h.objects, h'.frame.trans h.frame, h.nodes.trans h'.nodes, fun hp =>
    h'.plain (h.plain hp)⟩

theorem Grown.getElem? {o' : Outline α} (h : o.Grown o') (hi : o.nodes[i]? = some n) :
    o'.nodes[i]? = some n :=
  getElem?_of_initial h.nodes hi

/-- A node is not among those of `base`, and hangs below `p` with a type and a transform. -/
structure Fresh (base : Outline α) (i : NodeId) (type : String) (p : NodeId)
    (transform : Option (Value α)) (o : Outline α) : Prop where
  grown : base.Grown o
  new : base.nodes.length ≤ i
  node : ∃ n, o.nodes[i]? = some n ∧ n.type? = some type ∧ n.parent = some p ∧
    n.transform = transform

theorem Fresh.grow {base o' : Outline α} {p : NodeId} {type : String} {transform : Option (Value α)}
    (h : Fresh base i type p transform o) (hg : o.Grown o') : Fresh base i type p transform o' := by
  obtain ⟨n, hn, hrest⟩ := h.node
  exact ⟨h.grown.trans hg, h.new, n, hg.getElem? hn, hrest⟩

end Outline

namespace ExportM

open Outline

/-- The step adds nodes and changes none. -/
abbrev Grows (step : ExportM α β) : Prop :=
  ∀ base : Outline α, Leads (fun s => base.Grown s.outline) step fun _ s => base.Grown s.outline

theorem Grows.leads {step : ExportM α β} (h : Grows step) {P : Outline α → Prop}
    (hP : ∀ {o o'}, P o → o.Grown o' → P o') : Lasts outline P step :=
  fun s hs b s' hr => hP hs (h s.outline s (.refl _) b s' hr)

variable {base : Outline α}

/-! ### Making nodes -/

theorem outline_push (s : Session α) (heading : Heading α) (parent : Option NodeId) (role : Role) :
    outline { s with file := { s.file with tree := s.file.tree.push heading parent role } }
      = { s.outline with nodes := s.outline.nodes ++ [⟨heading, parent, none, role.isSkeleton⟩] } :=
      by
  simp [outline, Tree.push, Node.outline, Record.get?]

theorem grown_push {o : Outline α} (hn : n.isSkeleton = false) :
    o.Grown { o with nodes := o.nodes ++ [n] } := by
  refine ⟨rfl, rfl, prefix_append _ _, fun hp m hm => ?_⟩
  rcases mem_append.1 hm with hm | hm
  · exact hp m hm
  · rw [mem_singleton.1 hm]
    exact hn

theorem makeNode_fresh (name type : String) (hr : role.isSkeleton = false) :
    Brings outline base.Grown (makeNode name type (some p) role) fun i => Fresh base i type p
    none := by
  intro s hs i s' h
  obtain ⟨rfl, taken, path, -, -, rfl⟩ := makeNode_ok h
  have hsize : s.file.tree.nodes.size = s.outline.nodes.length := by simp [outline]
  rw [outline_push, hsize]
  exact ⟨hs.trans (grown_push hr), hs.nodes.length_le, _, getElem?_concat_length, rfl, rfl, rfl⟩

theorem makeNode_grows (name type : String) (parent : Option NodeId)
    (hr : role.isSkeleton = false) :
    Grows (makeNode name type parent role : ExportM α NodeId) := by
  intro base s hs i s' h
  obtain ⟨-, heading, -, rfl⟩ := makeNode_push h
  rw [outline_push]
  exact hs.trans (grown_push hr)

theorem writeNode_grows (id : NodeId) : Grows (writeNode id : ExportM α Unit) := by
  intro base s hs _ s' h
  cases h
  exact ⟨hs.objects, hs.frame, hs.nodes, hs.plain⟩

def setTransform (o : Outline α) (i : NodeId) (v : Value α) : Outline α :=
  { o with nodes := o.nodes.modify i fun n => { n with transform := some v } }

theorem outline_setTransform (s : Session α) (i : NodeId) (v : Value α) :
    outline { s with file := s.file.setNode i "transform" v } = setTransform s.outline i v := by
  simp only [outline, setTransform, SceneFile.setNode, Tree.set, Tree.update, Outline.mk.injEq,
    true_and, and_true]
  refine map_toList_modify (fun n => ?_) _ i
  simp [Node.outline, Entry.set]

theorem setTransform_grown (h : base.Grown o) (hi : base.nodes.length ≤ i) (v : Value α) :
    base.Grown (setTransform o i v) := by
  refine ⟨h.objects, h.frame, ?_, fun hp n hn => ?_⟩
  · rw [prefix_iff_getElem?]
    intro j hj
    have hne : i ≠ j := Nat.ne_of_gt (Nat.lt_of_lt_of_le hj hi)
    rw [setTransform, getElem?_modify_ne _ _ hne]
    exact prefix_iff_getElem?.1 h.nodes j hj
  · obtain ⟨j, hj⟩ := mem_iff_getElem?.1 hn
    rw [setTransform, getElem?_modify] at hj
    obtain ⟨m, hm, rfl⟩ := Option.map_eq_some_iff.1 hj
    have hskel := h.plain hp m (mem_of_getElem? hm)
    split
    · exact hskel
    · exact hskel

theorem setTransform_fresh {type : String} {t : Option (Value α)} {v : Value α} :
    Brings outline (Fresh base i type p t) (setNode i "transform" v) fun _ => Fresh base i type p
    (some v) := by
  intro s hs _ s' h
  cases h
  rw [outline_setTransform]
  obtain ⟨n, hn, ht, hp, -⟩ := hs.node
  refine ⟨setTransform_grown hs.grown hs.new v, hs.new, { n with transform := some v }, ?_, ht, hp,
    rfl⟩
  rw [setTransform, getElem?_modify_eq, hn]
  rfl

/-! ### Players and particles -/

variable [Scalar α] (cfg : Settings) (id : ObjectId)

theorem exportAnimation_grows (a : Animated) {node : Option NodeId} :
    Grows (exportAnimation cfg a node : ExportM α Unit) :=
  fun base => lasts_animation (fun parent => (makeNode_grows _ _ parent rfl base).also)
    (fun _ v => (setNode_keeps _ (by decide) v).leads base.Grown) (writeNode_grows · base)
    (fun _ _ => (createAnimation_keeps _ _).leads base.Grown) cfg a node

theorem exportParticles_grows {parent : Option NodeId} :
    Grows (exportParticles cfg id parent : ExportM α NodeId) := by
  intro base
  refine exportParticles_leads outline (fun _ => True) (K := fun _ _ => base.Grown)
    (F := fun _ => base.Grown) (W := fun _ => base.Grown) ((object_keeps id).leads base.Grown).also
    (fun _ _ name => makeNode_grows name _ _ rfl base)
    (fun _ _ _ target index system _ => ?_) (fun _ _ i _ => (setNode_keeps i (by decide) _).leads
      base.Grown)
    (fun i v => (setNode_keeps i (by decide) v).leads base.Grown) (writeNode_grows · base)
  exact (((exportMesh_keeps _ _ _).bind fun _ => exportSystem_keeps _ _ _ _).leads base.Grown).post
    fun _ _ h => ⟨h, fun _ => h⟩

end ExportM

end SceneExport
