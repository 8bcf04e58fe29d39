import SceneExport.Proofs.File.Layout

/-!
# Trees made node by node

A tree is made from its root by making one node after the other, each below a node that is there by
then (`Tree.grow`).  Whatever names are asked for, this never fails, and names and paths tell the
nodes apart (`Tree.grow_identifies`):

* a node gets the first of the candidates for its name that no elder sibling has, and it takes at
  most as many rounds of renaming as there are elder siblings,
* no name has a reserved character, and siblings have different names,
* different nodes have different paths.

The layout of a tree all of whose nodes are written is ordered from the first node to the last
(`Tree.Sprung`), so what is known of ordered layouts is known of such trees.
-/

namespace SceneExport

open List

variable {α : Type} (taken : List String) (base : String) {names : List String} {role : Role}

/-! ### Candidates for a name -/

/-- The name that is tried after some rounds of renaming. -/
def candidateName (base : String) : Nat → String
  | 0 => base
  | n + 1 => base ++ Text.padded 3 (n + 1)

theorem Text.padded_ne_empty (width n : Nat) : padded width n ≠ "" := by
  intro h
  have hl := congrArg String.toList h
  rw [toList_padded] at hl
  have hdigi := (append_eq_nil_iff.1 hl).2
  exact Nat.toDigits_ne_nil hdigi

theorem candidateName_injective : Function.Injective (candidateName base) := by
  have hzero : ∀ n, base ≠ base ++ Text.padded 3 (n + 1) := by
    intro n h
    have hemp : "" = Text.padded 3 (n + 1) := by
      apply (String.append_right_inj base).1
      rw [String.append_empty, ← h]
    exact Text.padded_ne_empty 3 (n + 1) hemp.symm
  intro m n h
  cases m with
  | zero =>
    cases n with
    | zero => rfl
    | succ n => exact absurd h (hzero n)
  | succ m =>
    cases n with
    | zero => exact absurd h.symm (hzero m)
    | succ n => exact Text.padded_injective 3 ((String.append_right_inj base).1 h)

theorem candidateName_ne_empty {base : String} (h : base ≠ "") (n : Nat) : candidateName base n ≠
    "" := by
  cases n with
  | zero => exact h
  | succ n =>
    intro he
    have hl := congrArg String.toList he
    rw [candidateName, String.toList_append] at hl
    exact h (String.toList_injective (append_eq_nil_iff.1 hl).1)

/-- A search passes over taken names only. -/
theorem freshName_eq_candidate (fuel counter : Nat) :
    ∃ k, freshName taken base fuel (counter + 1) = candidateName base (counter + 1 + k) ∧
      ∀ j < k, candidateName base (counter + 1 + j) ∈ taken := by
  induction fuel generalizing counter with
  | zero => exact ⟨0, rfl, by simp⟩
  | succ fuel ih =>
    rw [freshName]
    split
    · next hc =>
      obtain ⟨k, hk, hpre⟩ := ih (counter + 1)
      refine ⟨k + 1, hk.trans (congrArg _ (by omega)), fun j hj => ?_⟩
      cases j with
      | zero => exact contains_iff_mem.1 hc
      | succ j =>
        have hmem := hpre j (by omega)
        rwa [show counter + 1 + 1 + j = counter + 1 + (j + 1) by omega] at hmem
    · exact ⟨0, rfl, by simp⟩

/-- **The renaming ends.**  Candidates are tried until one is free, which is so after at most one
round for each name that is taken. -/
theorem uniqueName_eq_candidate : ∃ k ≤ taken.length, uniqueName taken base = candidateName base k ∧
      ∀ j < k, candidateName base j ∈ taken := by
  have hfst : ∃ k, uniqueName taken base = candidateName base k ∧ ∀ j < k, candidateName base j ∈
    taken := by
    unfold uniqueName
    split
    · next hbase =>
      obtain ⟨k, hk, hpre⟩ := freshName_eq_candidate taken base taken.length 0
      refine ⟨k + 1, hk.trans (congrArg _ (by omega)), fun j hj => ?_⟩
      cases j with
      | zero => exact contains_iff_mem.1 hbase
      | succ j =>
        have hmem := hpre j (by omega)
        rwa [show 0 + 1 + j = j + 1 by omega] at hmem
    · exact ⟨0, rfl, by simp⟩
  obtain ⟨k, hk, hpre⟩ := hfst
  refine ⟨k, ?_, hk, hpre⟩
  -- The candidates that were passed over are all different.
  have hsub : (List.range k).map (candidateName base) ⊆ taken := by
    intro s hs
    obtain ⟨j, hj, rfl⟩ := mem_map.1 hs
    exact hpre j (mem_range.1 hj)
  have hnd : ((List.range k).map (candidateName base)).Nodup :=
    List.Nodup.map (candidateName_injective base) nodup_range
  simpa using (List.Nodup.subperm hnd hsub).length_le

/-! ### Children -/

namespace Tree

variable {t t' : Tree α} {i p : NodeId} {s : String}

theorem children_eq (t : Tree α) (p : NodeId) :
    t.children p = (List.range t.nodes.size).filter fun i => t.nodes[i]?.map Node.parent == some
    (some p) := by
  refine filter_congr fun i hi => ?_
  rw [Array.getElem?_eq_getElem (mem_range.1 hi)]
  rfl

theorem mem_children : i ∈ t.children p ↔ ∃ n, t.nodes[i]? = some n ∧ n.parent = some p := by
  rw [children_eq, mem_filter, mem_range, beq_iff_eq, Option.map_eq_some_iff]
  refine ⟨fun h => h.2, ?_⟩
  rintro ⟨n, hn, hp⟩
  exact ⟨(Array.getElem?_eq_some_iff.1 hn).1, n, hn, hp⟩

def HasName (t : Tree α) (i : NodeId) (s : String) : Prop :=
  ∃ n, t.nodes[i]? = some n ∧ n.name = .ok s

def name? (t : Tree α) (i : NodeId) : Option String :=
  t.nodes[i]?.bind fun n => (n.entry.heading.get? "name").bind Value.text?

theorem hasName_iff : t.HasName i s ↔ t.name? i = some s := by
  constructor
  · rintro ⟨n, hn, hs⟩
    obtain ⟨v, hv, htext⟩ := Outcome.bind_ok hs
    have hget := need_ok hv
    rw [name?, hn, Option.bind_some, hget, Option.bind_some]
    exact need_ok htext
  · intro h
    obtain ⟨n, hn, h⟩ := Option.bind_eq_some_iff.1 h
    obtain ⟨v, hv, htext⟩ := Option.bind_eq_some_iff.1 h
    refine ⟨n, hn, ?_⟩
    rw [Node.name, Node.nameValue, hv]
    show v.asText = _
    rw [Value.asText, htext]
    rfl

/-- The children of a node that were made before some node. -/
def elders (t : Tree α) (p i : NodeId) : List NodeId :=
  (t.children p).filter (· < i)

/-- A node below `p` has the first of the candidates for its name that no elder sibling has.  For
each round of renaming there is such a sibling. -/
structure FirstFree (t : Tree α) (p i : NodeId) (base : String) : Prop where
  child : i ∈ t.children p
  first : ∃ k ≤ (t.elders p i).length, t.HasName i (candidateName base k) ∧
    ∀ j < k, ∃ e ∈ t.elders p i, t.HasName e (candidateName base j)

/-! ### One node more -/

variable {heading : Heading α} {parent : Option NodeId}

theorem getElem?_push_of_some {n : Node α} (h : t.nodes[i]? = some n) :
    (t.push heading parent role).nodes[i]? = some n := by
  have hlt := (Array.getElem?_eq_some_iff.1 h).1
  rw [push, Array.getElem?_push_lt hlt, ← h, Array.getElem?_eq_getElem hlt]

theorem getElem?_push_size (t : Tree α) (heading : Heading α) (parent : Option NodeId)
    (role : Role) :
    (t.push heading parent role).nodes[t.nodes.size]?
      = some { entry := { kind := "node", heading }, parent, role } :=
  Array.getElem?_push_size

/-- The new node is the last of its siblings. -/
theorem children_push (t : Tree α) (heading : Heading α) (parent : Option NodeId) (role : Role)
    (p : NodeId) :
    (t.push heading parent role).children p
      = t.children p ++ if parent = some p then [t.nodes.size] else [] := by
  have hsize : (t.push heading parent role).nodes.size = t.nodes.size + 1 := by simp [push]
  rw [children_eq, hsize, range_succ, filter_append, children_eq]
  congr 1
  · refine filter_congr fun i hi => ?_
    have hn := Array.getElem?_eq_getElem (mem_range.1 hi)
    rw [getElem?_push_of_some hn, hn]
  · simp [getElem?_push_size, filter_cons]

theorem elders_push {heading : Heading α} {parent : Option NodeId} (hi : i ≤ t.nodes.size) :
    (t.push heading parent role).elders p i = t.elders p i := by
  rw [elders, children_push, filter_append, ← elders]
  split
  · simpa using hi
  · simp

theorem HasName.push (h : t.HasName i s) : (t.push heading parent role).HasName i s := by
  obtain ⟨n, hn, hs⟩ := h
  exact ⟨n, getElem?_push_of_some hn, hs⟩

theorem FirstFree.push {base : String} (h : t.FirstFree p i base) :
    (t.push heading parent role).FirstFree p i base := by
  obtain ⟨n, hn, -⟩ := mem_children.1 h.child
  have hi : i ≤ t.nodes.size := Nat.le_of_lt (Array.getElem?_eq_some_iff.1 hn).1
  obtain ⟨k, hk, hname, hpre⟩ := h.first
  refine ⟨?_, k, ?_, hname.push, fun j hj => ?_⟩
  · rw [children_push]
    exact mem_append_left _ h.child
  · rwa [elders_push hi]
  · obtain ⟨e, he, hname⟩ := hpre j hj
    exact ⟨e, by rwa [elders_push hi], hname.push⟩

/-! ### Trees whose layout is ordered -/

/-- A session in which all nodes of a tree are written. -/
def session (t : Tree α) : Session α where
  file := { tree := t, written := Array.range t.nodes.size }

theorem length_layout (t : Tree α) : t.session.layout.nodes.length = t.nodes.size := by
  simp [session, Session.layout, Outline.layout, Session.outline]

theorem mem_written : i ∈ t.session.layout.written ↔ i < t.nodes.size := by
  simp [session, Session.layout, Outline.layout, Session.outline]

theorem layout_session_push (t : Tree α) (heading : Heading α) (parent : Option NodeId)
    (role : Role) :
    (t.push heading parent role).session.layout
      = (t.session.layout.push ⟨heading, parent⟩).write t.nodes.size := by
  simp [session, Session.layout, Session.outline, Outline.layout, Layout.push, Layout.write,
    Tree.push, Node.outline, NodeOutline.layout, Array.range_succ]

theorem get_of_route (h : t.session.layout.Route i names) : ∃ n, t.nodes[i]? = some n ∧
    t.get i = .ok n := by
  obtain ⟨m, hm⟩ := h.exists_node
  obtain ⟨n, hn, -⟩ := getElem?_of_layout hm
  refine ⟨n, hn, ?_⟩
  rw [Tree.get, show t.nodes[i]? = some n from hn]
  rfl

theorem path_of_route (h : t.session.layout.Route i names) : t.path i = .ok (pathText names) := by
  obtain ⟨n, hn, hget⟩ := get_of_route h
  rw [Tree.path, hget]
  exact Node.path_of_route hn h

theorem pathValue_of_route (h : t.session.layout.Route i names) : t.pathValue i =
    .ok (.text (pathText names)) := by
  obtain ⟨n, hn, hget⟩ := get_of_route h
  rw [Tree.pathValue, hget]
  exact Node.pathValue_of_route hn h

/-- The name of a new node below another one, which its siblings do not have. -/
def newName (t : Tree α) (p : NodeId) (name : String) : String :=
  uniqueName ((t.children p).filterMap t.name?) (nodeName name)

/-- The tree with a new node below one that is reached by way of some names. -/
def extended (t : Tree α) (p : NodeId) (names : List String) (name : String) (type : Value α)
    (role : Role) : Tree α :=
  t.push (childHeading (t.newName p name) type (pathText names)) (some p) role

theorem childNames_of_names (h : ∀ i ∈ t.children p, ∃ name, t.name? i = some name) :
    t.childNames p = .ok ((t.children p).filterMap t.name?) := by
  have hone : ∀ i ∈ t.children p, ∃ n name, t.get i = .ok n ∧ n.nameValue = .ok (.text name) ∧
      t.name? i = some name := by
    intro i hi
    obtain ⟨name, hname⟩ := h i hi
    obtain ⟨n, hn, hval⟩ := Option.bind_eq_some_iff.1 hname
    refine ⟨n, name, by rw [Tree.get, hn]; rfl, ?_, hname⟩
    obtain ⟨v, hv, htext⟩ := Option.bind_eq_some_iff.1 hval
    cases v with
    | text s =>
      cases htext
      rw [Node.nameValue, hv]
      rfl
    | _ => cases htext
  unfold childNames
  rw [Outcome.mapM_eq_ok t.name? fun i hi => ?_]
  · show Except.ok _ = _
    rw [filterMap_map]
    rfl
  · obtain ⟨n, name, hget, hval, hname⟩ := hone i hi
    rw [hget, hname]
    show (n.nameValue >>= _) = _
    rw [hval]
    rfl

variable (ho : t.session.layout.Ordered) {type : Value α} {name : String}

include ho

theorem exists_name_of_child (h : i ∈ t.children p) : ∃ names name, t.name? i = some name ∧
    IsNodeName name ∧ t.session.layout.Route p names ∧ t.session.layout.Route i
    (names ++ [name]) := by
  obtain ⟨n, hn, hp⟩ := mem_children.1 h
  have hl := getElem?_layout (s := t.session) hn
  obtain ⟨names, hr⟩ := ho.route i ((length_layout t).symm ▸ (Array.getElem?_eq_some_iff.1 hn).1)
  cases hr with
  | root h0 =>
    have hroot := Option.some.inj (hl.symm.trans h0)
    rw [NodeLayout.mk.injEq, hp] at hroot
    cases hroot.2
  | @child _ q names name type hq hname hr =>
    have hsame := Option.some.inj (hl.symm.trans hq)
    rw [NodeLayout.mk.injEq, hp] at hsame
    obtain ⟨hhead, hpar⟩ := hsame
    cases hpar
    refine ⟨names, name, ?_, hname, hr, .child hq hname hr⟩
    rw [name?, hn, Option.bind_some, hhead]
    rfl

theorem childNames_of_ordered (p : NodeId) : t.childNames p =
    .ok ((t.children p).filterMap t.name?) :=
  childNames_of_names fun i hi => by
    obtain ⟨names, name, hname, -⟩ := exists_name_of_child ho hi
    exact ⟨name, hname⟩

theorem length_childNames (p : NodeId) : ((t.children p).filterMap t.name?).length =
    (t.children p).length := by
  rw [length_filterMap_eq_countP, countP_eq_length]
  intro i hi
  obtain ⟨names, name, hname, -⟩ := exists_name_of_child ho hi
  rw [hname]
  rfl

/-- A node can be made below each node of the tree, and gets a name that its siblings do not
have. -/
theorem make_of_ordered (hr : t.session.layout.Route p names) (name : String) (type : Value α)
    (role : Role) :
    t.make name type (some p) role = (.ok t.nodes.size, t.extended p names name type role) := by
  unfold make
  dsimp only
  rw [childNames_of_ordered ho, pathValue_of_route hr]
  rfl

theorem ordered_extended (hp : p < t.nodes.size) (hr : t.session.layout.Route p names) :
    (t.extended p names name type role).session.layout.Ordered := by
  have hfree : ∀ (i : NodeId) (h : Heading α), t.session.layout.nodes[i]? = some ⟨h, some p⟩ →
      h.get? "name" ≠ some (.text (t.newName p name)) := by
    intro i h hi hn
    obtain ⟨n, hn', rfl, hpar⟩ := getElem?_of_layout hi
    exact uniqueName_not_mem _ _ (mem_childNames (childNames_of_ordered ho p) hn' hpar hn)
  have hmade := ho.make (mem_written.2 hp) hr (isNodeName_uniqueName _ (isNodeName_nodeName name))
    hfree type
  rw [extended, layout_session_push]
  refine hmade.write ?_ fun hw => Nat.lt_irrefl _ (mem_written.1 hw)
  rw [← length_layout]
  simp [Layout.push]

/-- A new node has the first candidate for its name that is free. -/
theorem firstFree_extended : (t.extended p names name type role).FirstFree p t.nodes.size
    (nodeName name) := by
  -- Of the new node all siblings are elder ones.
  have helde : ∀ heading : Heading α, (t.push heading (some p) role).elders p t.nodes.size =
    t.children p := by
    intro heading
    rw [elders_push (Nat.le_refl _), elders, filter_eq_self]
    intro i hi
    obtain ⟨n, hn, -⟩ := mem_children.1 hi
    simpa using (Array.getElem?_eq_some_iff.1 hn).1
  obtain ⟨k, hk, hname, hpre⟩ := uniqueName_eq_candidate ((t.children p).filterMap t.name?)
    (nodeName name)
  refine ⟨?_, k, ?_, ⟨_, getElem?_push_size _ _ _ _, ?_⟩, fun j hj => ?_⟩
  · rw [extended, children_push, if_pos rfl]
    exact mem_append_right _ (mem_singleton_self _)
  · rwa [extended, helde, ← length_childNames ho p]
  · rw [← hname]
    rfl
  · obtain ⟨e, he, hs⟩ := mem_filterMap.1 (hpre j hj)
    exact ⟨e, (helde _).symm ▸ he, (hasName_iff.2 hs).push⟩

end Tree

/-! ### Growing trees -/

/-- A node that is to be made below another one. -/
structure Branch (α : Type) where
  name : String
  type : Value α
  parent : NodeId
  role : Role := .plain

/-- Each node is to be made below one that is there by then; there are `size` nodes before the
first. -/
def Attached (size : Nat) : List (Branch α) → Prop
  | [] => True
  | b :: bs => b.parent < size ∧ Attached (size + 1) bs

instance decidableAttached : (size : Nat) → (bs : List (Branch α)) → Decidable (Attached size bs)
  | _, [] => .isTrue trivial
  | size, b :: bs => @instDecidableAnd _ _ (Nat.decLt b.parent size)
    (decidableAttached (size + 1) bs)

namespace Tree

def rooted (name : String) (type : Value α) (role : Role) : Tree α :=
  (({} : Tree α).make name type none role).2

/-- Make nodes one after the other. -/
def grow (t : Tree α) : List (Branch α) → Except Failure (Tree α)
  | [] => .ok t
  | b :: bs =>
    match t.make b.name b.type (some b.parent) b.role with
    | (.ok _, t') => t'.grow bs
    | (.error e, _) => .error e

/-- The tree was made from a root and the branches `made`. -/
structure Sprung (t : Tree α) (made : List (Branch α)) : Prop where
  ordered : t.session.layout.Ordered
  size : t.nodes.size = made.length + 1
  root : t.session.layout.Route 0 []
  rootName : ∃ s, t.HasName 0 s ∧ IsNodeName s
  first : ∀ (i : Nat) b, made[i]? = some b → t.FirstFree b.parent (i + 1) (nodeName b.name)

variable {t : Tree α} {made : List (Branch α)}

theorem sprung_rooted (name : String) (type : Value α) (role : Role) :
    (rooted name type role).Sprung [] where
  ordered := by
    have hlayo : (rooted name type role).session.layout
        = ⟨[], [⟨[("type", type), ("name", .text (nodeName name))], none⟩], [0]⟩ := rfl
    have hget : ∀ {i : NodeId} {n : NodeLayout α},
        (rooted name type role).session.layout.nodes[i]? = some n → n.parent = none := by
      intro i n hi
      rw [hlayo] at hi
      cases i with
      | zero => cases hi; rfl
      | succ i => simp at hi
    rw [hlayo] at hget ⊢
    refine ⟨?_, ?_, ?_, rfl, by simp, by simp, ?_⟩
    · intro i hi
      obtain rfl : i = 0 := by simpa using hi
      exact ⟨[], .root rfl rfl⟩
    · intro i j p h h' hi
      cases hget hi
    · intro i p h hi
      cases hget hi
    · intro k i p h _ hi
      cases hget hi
  size := rfl
  root := .root rfl rfl
  rootName := ⟨nodeName name, ⟨_, rfl, rfl⟩, isNodeName_nodeName name⟩
  first i b hb := by simp at hb

theorem Sprung.make (h : t.Sprung made) {b : Branch α} (hb : b.parent < t.nodes.size) :
    ∃ t', t.make b.name b.type (some b.parent) b.role = (.ok t.nodes.size, t') ∧
    t'.Sprung (made ++ [b]) := by
  obtain ⟨names, hr⟩ := h.ordered.route b.parent ((length_layout t).symm ▸ hb)
  refine ⟨_, make_of_ordered h.ordered hr b.name b.type b.role, ordered_extended h.ordered hb hr,
    ?_, ?_, ?_, fun i b' hb' => ?_⟩
  · simp [extended, push, h.size]
  · rw [extended, layout_session_push]
    exact (h.root.mono (Layout.extends_push _)).mono (Layout.extends_write _)
  · obtain ⟨s, hs, hname⟩ := h.rootName
    exact ⟨s, hs.push, hname⟩
  rcases getElem?_concat_cases hb' with hb' | ⟨rfl, rfl⟩
  · exact (h.first i b' hb').push
  · rw [← h.size]
    exact firstFree_extended h.ordered

theorem Sprung.grow (h : t.Sprung made) {branches : List (Branch α)}
    (hb : Attached t.nodes.size branches) :
    ∃ t', t.grow branches = .ok t' ∧ t'.Sprung (made ++ branches) := by
  induction branches generalizing t made with
  | nil => exact ⟨t, rfl, by simpa using h⟩
  | cons b bs ih =>
    obtain ⟨t1, hmake, h1⟩ := h.make hb.1
    have hsize : t1.nodes.size = t.nodes.size + 1 := by simp [h.size, h1.size]
    obtain ⟨t', hgrow, h'⟩ := ih h1 (hsize ▸ hb.2)
    refine ⟨t', ?_, by simpa using h'⟩
    rw [Tree.grow, hmake]
    exact hgrow

/-- Every node has a name, and no name has a reserved character. -/
theorem Sprung.exists_name (h : t.Sprung made) {i : NodeId} (hi : i < t.nodes.size) :
    ∃ s, t.HasName i s ∧ IsNodeName s := by
  cases i with
  | zero => exact h.rootName
  | succ i =>
    have hlt : i < made.length := Nat.lt_of_succ_lt_succ (Nat.lt_of_lt_of_eq hi h.size)
    obtain ⟨names, name, hname, hnode, -⟩ :=
      exists_name_of_child h.ordered (h.first i _ (getElem?_eq_getElem hlt)).child
    exact ⟨name, hasName_iff.2 hname, hnode⟩

theorem getElem?_of_name {p : NodeId} (hi : i ∈ t.children p) (hs : t.name? i = some s) :
    ∃ h, t.session.layout.nodes[i]? = some ⟨h, some p⟩ ∧ h.get? "name" = some (.text s) := by
  obtain ⟨n, hn, hp⟩ := mem_children.1 hi
  obtain ⟨m, hm, hname⟩ := Option.bind_eq_some_iff.1 hs
  obtain ⟨v, hv, htext⟩ := Option.bind_eq_some_iff.1 hname
  obtain rfl : n = m := Option.some.inj (hn.symm.trans hm)
  have hlayo := getElem?_layout (s := t.session) hn
  rw [hp] at hlayo
  refine ⟨_, hlayo, hv.trans ?_⟩
  cases v <;> cases htext
  rfl

theorem sibling_eq (hl : t.session.layout.SiblingsDiffer) {p i j : NodeId} {s : String}
    (hi : i ∈ t.children p) (hj : j ∈ t.children p) (hsi : t.name? i = some s)
    (hsj : t.name? j = some s) : i = j := by
  obtain ⟨h, hi, hname⟩ := getElem?_of_name hi hsi
  obtain ⟨h', hj, hname'⟩ := getElem?_of_name hj hsj
  exact hl hi hj (hname.trans hname'.symm)

theorem Sprung.path_injective (h : t.Sprung made) {i j : NodeId} (hi : i < t.nodes.size)
    (hj : j < t.nodes.size) (hpath : t.path i = t.path j) : i = j := by
  obtain ⟨names, hri⟩ := h.ordered.route i ((length_layout t).symm ▸ hi)
  obtain ⟨names', hrj⟩ := h.ordered.route j ((length_layout t).symm ▸ hj)
  rw [path_of_route hri, path_of_route hrj, Except.ok.injEq] at hpath
  obtain rfl := pathText_injective hri.isNodeName hrj.isNodeName hpath
  exact h.ordered.route_injective hri hrj

/-- **Names and paths identify nodes.**  Let a root be made, and then nodes below it, each below a
node that is there by then, with any names and types.  This succeeds.  Each node gets the first of
the candidates for its name that no elder sibling has, and for each round of renaming there is an
elder sibling; no name has a reserved character; siblings have different names; and every node has a
path, which no other node has. -/
theorem grow_identifies (name : String) (type : Value α) (role : Role) {branches : List (Branch α)}
    (h : Attached 1 branches) :
    ∃ t, (rooted name type role).grow branches = .ok t ∧ t.nodes.size = branches.length + 1 ∧
      (∀ (i : Nat) b, branches[i]? = some b → t.FirstFree b.parent (i + 1) (nodeName b.name)) ∧
      (∀ i < t.nodes.size, ∃ s, t.HasName i s ∧ IsNodeName s) ∧
      (∀ p i j s, i ∈ t.children p → j ∈ t.children p → t.HasName i s → t.HasName j s → i = j) ∧
      (∀ i < t.nodes.size, ∃ path, t.path i = .ok path) ∧ t.path 0 = .ok "." ∧
      ∀ i < t.nodes.size, ∀ j < t.nodes.size, t.path i = t.path j → i = j := by
  obtain ⟨t, hgrow, ht⟩ := (sprung_rooted name type role).grow h
  rw [nil_append] at ht
  have hroute : ∀ i < t.nodes.size, ∃ names, t.session.layout.Route i names := fun i hi =>
    ht.ordered.route i ((length_layout t).symm ▸ hi)
  refine ⟨t, hgrow, ht.size, ht.first, fun i hi => ht.exists_name hi, fun p i j s hi hj hsi hsj =>
    ?_, fun i hi => ?_, ?_, fun i hi j hj => ht.path_injective hi hj⟩
  · exact sibling_eq ht.ordered.siblingsDiffer hi hj (hasName_iff.1 hsi) (hasName_iff.1 hsj)
  · obtain ⟨names, hr⟩ := hroute i hi
    exact ⟨_, path_of_route hr⟩
  · exact path_of_route ht.root

/-- Three cubes, two nodes whose names come to nothing, and one below the second of these. -/
def clones : List (Branch α) :=
  [⟨"Cube", .text "Node3D", 0, .plain⟩, ⟨"Cube001", .text "Node3D", 0, .plain⟩,
    ⟨"Cube.001", .text "Node3D", 0, .plain⟩, ⟨"Cu:be", .text "Node3D", 0, .plain⟩,
    ⟨"..", .text "Node3D", 0, .plain⟩, ⟨":/\\", .text "Node3D", 0, .plain⟩,
    ⟨".", .text "Node3D", 6, .plain⟩]

theorem grow_identifies_clones : Attached 1 (clones : List (Branch Rat)) ∧
    ∃ t : Tree Rat, (rooted "Scene" (.text "Node3D") .plain).grow clones = .ok t ∧
      t.FirstFree 0 4 "Cube" ∧ t.path 1 ≠ t.path 4 ∧ t.path 5 ≠ t.path 7 ∧ t.path 0 ≠ t.path 5 := by
  have hatt : Attached 1 (clones : List (Branch Rat)) := by decide
  obtain ⟨t, hgrow, hsize, hfst, -, -, -, -, hpath⟩ :=
    grow_identifies "Scene" (.text "Node3D") .plain hatt
  have hsize : t.nodes.size = 8 := hsize
  refine ⟨hatt, t, hgrow, hfst 3 _ rfl, fun h => ?_, fun h => ?_, fun h => ?_⟩
  · exact absurd (hpath 1 (by omega) 4 (by omega) h) (by decide)
  · exact absurd (hpath 5 (by omega) 7 (by omega) h) (by decide)
  · exact absurd (hpath 0 (by omega) 5 (by omega) h) (by decide)

end Tree

end SceneExport
