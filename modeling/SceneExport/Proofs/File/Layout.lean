import Mathlib.Data.List.Induction
import Mathlib.Data.List.Nodup
import Mathlib.Data.List.Perm.Subperm
import SceneExport.Proofs.Export.Outline

/-!
# The order of nodes in a file

The layout of a session (`Session.layout`) is what its outline says of the headings and parents of
nodes and of the nodes that are written.  In an ordered layout (`Layout.Ordered`)

* every node is reached from the root along node names, and its heading holds the path of its
  parent (`Layout.Route`),
* siblings have different names,
* only written nodes have children, and a node is written after its parent.

Making a node below a written one (`Ordered.make`) and writing a node that is not written yet
(`Ordered.write`) keep a layout ordered.  In an ordered layout nodes have different paths
(`Ordered.route_injective`).

Node names hold neither slashes nor points, so different ways have different paths
(`pathText_injective`).
-/

namespace SceneExport

open List

/-! ### Numbers behind names -/

namespace Text

theorem toList_padded (width n : Nat) : (padded width n).toList =
    List.replicate (width - (Nat.toDigits 10 n).length) '0' ++ Nat.toDigits 10 n := by
  simp [padded]

theorem ofDigitChars_padded (width n : Nat) : Nat.ofDigitChars 10 (padded width n).toList 0 =
    n := by
  rw [toList_padded, Nat.ofDigitChars_append, Nat.ofDigitChars_replicate_zero, Nat.mul_zero,
    Nat.ofDigitChars_ten_toDigits]

theorem padded_injective (width : Nat) : Function.Injective (padded width) := by
  intro m n h
  rw [← ofDigitChars_padded width m, h, ofDigitChars_padded]

theorem isDigit_of_mem_padded {width n : Nat} {c : Char} (h : c ∈ (padded width n).toList) :
    c.isDigit = true := by
  rw [toList_padded, mem_append] at h
  rcases h with h | h
  · rw [eq_of_mem_replicate h]
    rfl
  · exact Nat.isDigit_of_mem_toDigits (by decide) (by decide) h

end Text

/-! ### Node names -/

/-- The text holds no character that node names cannot have. -/
def IsNodeName (s : String) : Prop :=
  ∀ c ∈ s.toList, isReserved c = false

theorem isNodeName_nodeName (name : String) : IsNodeName (nodeName name) := by
  intro c hc
  rw [nodeName, Text.without, String.toList_ofList, mem_filter] at hc
  simpa using hc.2

variable {s : String} {names : List String}

theorem IsNodeName.append {t : String} (hs : IsNodeName s) (ht : IsNodeName t) :
    IsNodeName (s ++ t) := by
  intro c hc
  rw [String.toList_append, mem_append] at hc
  exact hc.elim (hs c) (ht c)

theorem isNodeName_padded (width n : Nat) : IsNodeName (Text.padded width n) := by
  intro c hc
  have hd := Text.isDigit_of_mem_padded hc
  cases hr : isReserved c with
  | false => rfl
  | true =>
    have hc : c = '.' ∨ c = '\\' ∨ c = '/' ∨ c = ':' := by simpa [isReserved, or_assoc] using hr
    rcases hc with rfl | rfl | rfl | rfl <;> cases hd

/-! ### Names that are free -/

variable (taken : List String) {base : String}

theorem freshName_eq (base : String) (fuel counter : Nat) :
    ∃ n, freshName taken base fuel counter = base ++ Text.padded 3 n := by
  induction fuel generalizing counter with
  | zero => exact ⟨counter, rfl⟩
  | succ fuel ih =>
    rw [freshName]
    split
    · exact ih (counter + 1)
    · exact ⟨counter, rfl⟩

/-- A search that ends with a taken name has met taken names only. -/
theorem mem_of_freshName_mem {taken : List String} {fuel counter : Nat}
    (h : freshName taken base fuel counter ∈ taken) {k : Nat} (hk : k ≤ fuel) : base ++
    Text.padded 3 (counter + k) ∈ taken := by
  induction fuel generalizing counter k with
  | zero =>
    obtain rfl : k = 0 := by omega
    exact h
  | succ fuel ih =>
    rw [freshName] at h
    split at h
    · rename_i hc
      cases k with
      | zero => simpa using hc
      | succ k =>
        have := ih h (show k ≤ fuel by omega)
        rwa [Nat.add_right_comm, Nat.add_assoc] at this
    · rename_i hc
      simp [h] at hc

theorem freshName_not_mem (base : String) (counter : Nat) : freshName taken base taken.length
    counter ∉ taken := by
  intro h
  let candidate (k : Nat) : String := base ++ Text.padded 3 (counter + k)
  have hinj : Function.Injective candidate := by
    intro m n hmn
    have := Text.padded_injective 3 (String.append_right_inj _ |>.1 hmn)
    omega
  have hsub : (List.range (taken.length + 1)).map candidate ⊆ taken := by
    intro s hs
    obtain ⟨k, hk, rfl⟩ := mem_map.1 hs
    exact mem_of_freshName_mem h (by have := mem_range.1 hk; omega)
  have hnd : ((List.range (taken.length + 1)).map candidate).Nodup := List.Nodup.map hinj
    nodup_range
  have hle := (List.Nodup.subperm hnd hsub).length_le
  rw [length_map, length_range] at hle
  omega

theorem uniqueName_not_mem (base : String) : uniqueName taken base ∉ taken := by
  unfold uniqueName
  split
  · exact freshName_not_mem taken base 1
  · rename_i h
    simpa using h

theorem isNodeName_uniqueName (h : IsNodeName base) : IsNodeName (uniqueName taken base) := by
  unfold uniqueName
  split
  · obtain ⟨n, hn⟩ := freshName_eq taken base taken.length 1
    rw [hn]
    exact h.append (isNodeName_padded 3 n)
  · exact h

/-! ### Paths -/

/-- The path of the node that is reached from the root by way of some names. -/
def pathText : List String → String
  | [] => "."
  | name :: names => names.foldl (fun path name => path ++ "/" ++ name) name

theorem pathText_concat (h : names ≠ []) (name : String) :
    pathText (names ++ [name]) = pathText names ++ "/" ++ name := by
  cases names with
  | nil => exact absurd rfl h
  | cons n ns => simp [pathText]

theorem IsNodeName.slash_not_mem (h : IsNodeName s) : '/' ∉ s.toList := fun hs => absurd (h _ hs)
    (by decide)

theorem IsNodeName.ne_point (h : IsNodeName s) : s ≠ "." := by
  rintro rfl
  exact absurd (h '.' (by decide)) (by decide)

theorem slash_mem_append (s t : String) : '/' ∈ (s ++ "/" ++ t).toList := by
  simp

theorem append_cons_inj {x y c d : List Char} {z : Char} (hc : z ∉ c) (hd : z ∉ d)
    (h : x ++ z :: c = y ++ z :: d) : x = y ∧ c = d := by
  rcases append_eq_append_iff.1 h with ⟨e, rfl, he⟩ | ⟨e, rfl, he⟩ <;> cases e <;> simp_all

/-- A text is divided at its last slash in one way. -/
theorem append_slash_inj {t a b : String} (ha : '/' ∉ a.toList) (hb : '/' ∉ b.toList)
    (h : s ++ "/" ++ a = t ++ "/" ++ b) : s = t ∧ a = b := by
  have hl : s.toList ++ '/' :: a.toList = t.toList ++ '/' :: b.toList := by
    simpa [String.toList_append] using congrArg String.toList h
  obtain ⟨hs, hab⟩ := append_cons_inj ha hb hl
  exact ⟨String.toList_injective hs, String.toList_injective hab⟩

theorem pathText_ne_point {name : String} (h : IsNodeName name) : pathText (names ++ [name]) ≠
    "." := by
  by_cases hn : names = []
  · subst hn
    exact h.ne_point
  · rw [pathText_concat hn]
    intro he
    have := slash_mem_append (pathText names) name
    rw [he] at this
    exact absurd this (by decide)

/-- **Paths tell nodes apart.**  Two ways along node names with one path are the same. -/
theorem pathText_injective {ns ms : List String} (hn : ∀ n ∈ ns, IsNodeName n)
    (hm : ∀ m ∈ ms, IsNodeName m) (h : pathText ns = pathText ms) : ns = ms := by
  -- Both ways are followed from their ends, where the last slashes divide the paths.
  induction ns using List.reverseRecOn generalizing ms with
  | nil =>
    rcases eq_nil_or_concat ms with rfl | ⟨ms, m, rfl⟩
    · rfl
    · rw [concat_eq_append] at *
      exact absurd h.symm (pathText_ne_point (hm m (by simp)))
  | append_singleton ns n ih =>
    rcases eq_nil_or_concat ms with rfl | ⟨ms, m, rfl⟩
    · exact absurd h (pathText_ne_point (hn n (by simp)))
    rw [concat_eq_append] at *
    have hn' := (hn n (by simp)).slash_not_mem
    have hm' := (hm m (by simp)).slash_not_mem
    by_cases hns : ns = [] <;> by_cases hms : ms = []
    · subst hns hms
      simpa [pathText] using h
    · subst hns
      rw [pathText_concat hms] at h
      have hs := slash_mem_append (pathText ms) m
      rw [← h] at hs
      exact absurd hs hn'
    · subst hms
      rw [pathText_concat hns] at h
      have hs := slash_mem_append (pathText ns) n
      rw [h] at hs
      exact absurd hs hm'
    · rw [pathText_concat hns, pathText_concat hms] at h
      obtain ⟨hp, rfl⟩ := append_slash_inj hn' hm' h
      rw [ih (fun x hx => hn x (by simp [hx])) (fun x hx => hm x (by simp [hx])) hp]

variable {α : Type}

/-- The place of a node in its tree. -/
structure NodeLayout (α : Type) where
  heading : Heading α
  parent : Option NodeId

/-- What matters of a session for the order of its nodes. -/
structure Layout (α : Type) where
  /-- The kinds of the objects, and the types of lights and cameras. -/
  objects : List (ObjectKind × Option String)
  nodes : List (NodeLayout α)
  written : List NodeId

def NodeOutline.layout (n : NodeOutline α) : NodeLayout α :=
  ⟨n.heading, n.parent⟩

def Outline.layout (o : Outline α) : Layout α where
  objects := o.objects.map fun x => (x.kind, x.type)
  nodes := o.nodes.map NodeOutline.layout
  written := o.written

def Session.layout (s : Session α) : Layout α :=
  s.outline.layout

/-- The heading of a node below one with a path. -/
def childHeading (name : String) (type : Value α) (path : String) : Heading α :=
  [("name", .text name), ("type", type), ("parent", .text path)]

variable {i : NodeId} {name : String} {n : Node α} {s : Session α}

namespace Layout

variable {l' : Layout α} {l : Layout α} {j : NodeId}

/-- A node is reached from the root by way of some names. -/
inductive Route (l : Layout α) : NodeId → List String → Prop
  | root {heading : Heading α} (h : l.nodes[0]? = some ⟨heading, none⟩)
      (hp : heading.get? "parent" = none) : Route l 0 []
  | child {i p : NodeId} {names : List String} {name : String} {type : Value α}
      (h : l.nodes[i]? = some ⟨childHeading name type (pathText names), some p⟩)
      (hn : IsNodeName name) (hp : Route l p names) : Route l i (names ++ [name])

def SiblingsDiffer (l : Layout α) : Prop :=
  ∀ ⦃i j p : NodeId⦄ ⦃h h' : Heading α⦄, l.nodes[i]? = some ⟨h, some p⟩ →
    l.nodes[j]? = some ⟨h', some p⟩ → h.get? "name" = h'.get? "name" → i = j

/-- The nodes are named and written in a way that the file can be read from its start. -/
structure Ordered (l : Layout α) : Prop where
  route : ∀ i < l.nodes.length, ∃ names, l.Route i names
  sibling : ∀ {i j p : NodeId} {h h' : Heading α}, l.nodes[i]? = some ⟨h, some p⟩ →
    l.nodes[j]? = some ⟨h', some p⟩ → h.get? "name" = h'.get? "name" → i = j
  parent : ∀ {i p : NodeId} {h : Heading α}, l.nodes[i]? = some ⟨h, some p⟩ → p ∈ l.written
  first : l.written.head? = some 0
  bound : ∀ i ∈ l.written, i < l.nodes.length
  nodup : l.written.Nodup
  order : ∀ {k i p : Nat} {h : Heading α}, l.written[k]? = some i →
    l.nodes[i]? = some ⟨h, some p⟩ → p ∈ l.written.take k

/-- The second layout has the nodes of the first and maybe more. -/
structure Extends (l l' : Layout α) : Prop where
  objects : l'.objects = l.objects
  nodes : l.nodes <+: l'.nodes
  written : l.written <+: l'.written

theorem Extends.refl (l : Layout α) : l.Extends l := ⟨rfl, prefix_rfl, prefix_rfl⟩

theorem Extends.trans {l'' : Layout α} (h : l.Extends l') (h' : l'.Extends l'') : l.Extends l'' :=
  ⟨h'.objects.trans h.objects, h.nodes.trans h'.nodes, h.written.trans h'.written⟩

/-! ### Routes -/

theorem Route.isNodeName (h : l.Route i names) : ∀ n ∈ names, IsNodeName n := by
  induction h with
  | root => simp
  | child _ hn _ ih =>
    intro n hm
    rcases mem_append.1 hm with hm | hm
    · exact ih n hm
    · rw [mem_singleton.1 hm]
      exact hn

theorem Extends.getElem? (h : l.Extends l') {n : NodeLayout α} (hi : l.nodes[i]? = some n) :
    l'.nodes[i]? = some n :=
  getElem?_of_initial h.nodes hi

theorem Route.of_initial (hi : l.Route i names) (h : l.nodes <+: l'.nodes) : l'.Route i names := by
  induction hi with
  | root h0 hp => exact .root (getElem?_of_initial h h0) hp
  | child hc hn _ ih => exact .child (getElem?_of_initial h hc) hn ih

theorem Route.mono (h : l.Extends l') (hi : l.Route i names) : l'.Route i names :=
    hi.of_initial h.nodes

theorem Ordered.siblingsDiffer (ho : l.Ordered) : l.SiblingsDiffer := fun _ _ _ _ _ => ho.sibling

/-- **Nodes have different paths.**  A route leads to one node only. -/
theorem SiblingsDiffer.route_injective (hl : l.SiblingsDiffer) (hi : l.Route i names)
    (hj : l.Route j names) : i = j := by
  induction hi generalizing j with
  | root =>
    generalize hns : ([] : List String) = ns at hj
    cases hj with
    | root => rfl
    | child => simp at hns
  | @child i p names name type h hn hp ih =>
    generalize hns : names ++ [name] = ns at hj
    cases hj with
    | root => simp at hns
    | @child _ p' names' name' type' h' hn' hp' =>
      obtain ⟨rfl, hname⟩ := append_inj' hns rfl
      obtain rfl : name = name' := by simpa using hname
      obtain rfl := ih hp'
      exact hl h h' rfl

theorem Ordered.route_injective (ho : l.Ordered) (hi : l.Route i names) (hj : l.Route j names) : i =
    j :=
  ho.siblingsDiffer.route_injective hi hj

/-! ### Making and writing nodes -/

def push (l : Layout α) (n : NodeLayout α) : Layout α :=
  { l with nodes := l.nodes ++ [n] }

def write (l : Layout α) (id : NodeId) : Layout α :=
  { l with written := l.written ++ [id] }

theorem extends_push (n : NodeLayout α) : l.Extends (l.push n) :=
    ⟨rfl, prefix_append _ _, prefix_rfl⟩

theorem extends_write (id : NodeId) : l.Extends (l.write id) := ⟨rfl, prefix_rfl, prefix_append _ _⟩

theorem Ordered.make (ho : l.Ordered) {p : NodeId} (hp : p ∈ l.written) (hr : l.Route p names)
    (hn : IsNodeName name) (hfree : ∀ (i : NodeId) (h : Heading α), l.nodes[i]? = some ⟨h, some p⟩ →
    h.get? "name" ≠ some (.text name)) (type : Value α) :
    (l.push ⟨childHeading name type (pathText names), some p⟩).Ordered := by
  have hext := l.extends_push ⟨childHeading name type (pathText names), some p⟩
  have hlast : (l.push ⟨childHeading name type (pathText names), some p⟩).nodes[l.nodes.length]?
      = some ⟨childHeading name type (pathText names), some p⟩ := by simp [push]
  refine ⟨?_, ?_, ?_, ho.first, ?_, ho.nodup, ?_⟩
  · intro i hi
    by_cases hlt : i < l.nodes.length
    · obtain ⟨ns, hns⟩ := ho.route i hlt
      exact ⟨ns, hns.mono hext⟩
    · obtain rfl : i = l.nodes.length := by simp [push] at hi; omega
      exact ⟨names ++ [name], .child hlast hn (hr.mono hext)⟩
  · intro i j q h h' hi hj he
    rcases getElem?_concat_cases hi with hi' | ⟨hi, hi'⟩ <;> rcases getElem?_concat_cases hj with
      hj' | ⟨hj, hj'⟩
    · exact ho.sibling hi' hj' he
    · cases hj'
      exact absurd he (hfree i h hi')
    · cases hi'
      exact absurd he.symm (hfree j h' hj')
    · rw [hi, hj]
  · intro i q h hi
    rcases getElem?_concat_cases hi with hi | ⟨-, hi⟩
    · exact ho.parent hi
    · cases hi
      exact hp
  · intro i hi
    exact Nat.lt_of_lt_of_le (ho.bound i hi) (by simp [push])
  · intro k i q h hk hi
    have hb := ho.bound i (mem_of_getElem? hk)
    rcases getElem?_concat_cases hi with hi' | ⟨hi', -⟩
    · exact ho.order hk hi'
    · exact absurd hi' (Nat.ne_of_lt hb)

theorem Ordered.write (ho : l.Ordered) {id : NodeId} (hlt : id < l.nodes.length)
    (hw : id ∉ l.written) : (l.write id).Ordered := by
  refine ⟨?_, ho.sibling, ?_, ?_, ?_, ?_, ?_⟩
  · intro i hi
    obtain ⟨ns, hns⟩ := ho.route i hi
    exact ⟨ns, hns.mono (l.extends_write id)⟩
  · intro i p h hi
    exact mem_append_left _ (ho.parent hi)
  · have hf := ho.first
    cases hl : l.written with
    | nil => simp [hl] at hf
    | cons i is => simpa [Layout.write, hl] using hf
  · intro i hi
    rcases mem_append.1 hi with hi | hi
    · exact ho.bound i hi
    · rw [mem_singleton.1 hi]
      exact hlt
  · simp only [Layout.write, nodup_append, nodup_singleton]
    refine ⟨ho.nodup, trivial, ?_⟩
    rintro i hi j hj rfl
    rw [mem_singleton.1 hj] at hi
    exact hw hi
  · intro k i p h hk hi
    rcases getElem?_concat_cases hk with hk | ⟨rfl, rfl⟩
    · obtain ⟨hlt', -⟩ := List.getElem?_eq_some_iff.1 hk
      rw [Layout.write, take_append_of_le_length (by omega)]
      exact ho.order hk hi
    · rw [Layout.write, take_left']
      · exact ho.parent hi
      · rfl

/-! ### What an ordered layout says of the file -/

theorem Route.exists_node (h : l.Route i names) : ∃ n, l.nodes[i]? = some n := by
  cases h with
  | root h => exact ⟨_, h⟩
  | child h => exact ⟨_, h⟩

end Layout

/-! ### Paths of nodes -/

theorem getElem?_layout (h : s.file.tree.nodes[i]? = some n) :
    s.layout.nodes[i]? = some ⟨n.entry.heading, n.parent⟩ := by
  simp [Session.layout, Outline.layout, Session.outline, h, Node.outline, NodeOutline.layout]

theorem getElem?_of_layout {m : NodeLayout α} (h : s.layout.nodes[i]? = some m) :
    ∃ n, s.file.tree.nodes[i]? = some n ∧ n.entry.heading = m.heading ∧ n.parent = m.parent := by
  simp only [Session.layout, Outline.layout, Session.outline, getElem?_map,
    Array.getElem?_toList, Option.map_eq_some_iff] at h
  obtain ⟨_, ⟨n, hn, rfl⟩, rfl⟩ := h
  exact ⟨n, hn, rfl, rfl⟩

theorem Node.pathValue_of_text {parent : String}
    (hp : n.entry.heading.get? "parent" = some (.text parent)) (hne : parent ≠ ".")
    (hn : n.nameValue = .ok (.text name)) : n.pathValue = .ok (.text (parent ++ "/" ++ name)) := by
  unfold Node.pathValue Node.name
  rw [hp, hn]
  split
  · rename_i h
    cases h
  · rename_i h
    exact absurd (Value.text.inj (Option.some.inj h)) hne
  · rename_i h
    cases h
    rfl
  · rename_i h
    cases h
  · rename_i hno _ h
    cases h
    exact absurd rfl (hno _)

theorem Node.pathValue_of_route (hn : s.file.tree.nodes[i]? = some n) (h : s.layout.Route i names) :
    n.pathValue = .ok (.text (pathText names)) := by
  have hl := getElem?_layout hn
  cases h with
  | root h hp =>
    obtain ⟨rfl, -⟩ : n.entry.heading = _ ∧ n.parent = none := by simpa [hl] using h
    simp only [Node.pathValue, hp]
    rfl
  | @child _ p names name type h hname hp =>
    obtain ⟨he, -⟩ : n.entry.heading = childHeading name type (pathText names) ∧
      n.parent = some p := by
      simpa [hl] using h
    have hpar : n.entry.heading.get? "parent" = some (.text (pathText names)) := by rw [he]; rfl
    have hnam : n.nameValue = .ok (.text name) := by rw [Node.nameValue, he]; rfl
    have hnms := hp.isNodeName
    rcases eq_nil_or_concat names with rfl | ⟨ms, m, rfl⟩
    · unfold Node.pathValue
      rw [hpar, hnam]
      rfl
    · rw [concat_eq_append] at hnms hpar ⊢
      rw [pathText_concat (by simp)]
      exact Node.pathValue_of_text hpar (pathText_ne_point (hnms m (by simp))) hnam

theorem Node.path_of_route (hn : s.file.tree.nodes[i]? = some n) (h : s.layout.Route i names) :
    n.path = .ok (pathText names) := by
  rw [Node.path, Node.pathValue_of_route hn h]
  rfl

/-! ### Trees -/

namespace Tree

theorem mem_childNames {t : Tree α} {p : NodeId} {taken : List String}
    (h : t.childNames p = .ok taken) (hi : t.nodes[i]? = some n) (hp : n.parent = some p)
    (hn : n.entry.heading.get? "name" = some (.text name)) : name ∈ taken := by
  have hc : i ∈ t.children p := by
    have hlt : i < t.nodes.size := (Array.getElem?_eq_some_iff.1 hi).1
    rw [children, mem_filter]
    exact ⟨mem_range.2 hlt, by simp only [hi, hp, beq_self_eq_true]⟩
  obtain ⟨names, hm, h⟩ := Outcome.bind_ok h
  cases h
  obtain ⟨y, hy, hf⟩ := Outcome.mem_of_mapM_ok hm hc
  obtain ⟨m, hm, hf⟩ := Outcome.bind_ok hf
  obtain ⟨v, hv, hf⟩ := Outcome.bind_ok hf
  obtain rfl : m = n := Option.some.inj ((need_ok hm).symm.trans hi)
  obtain rfl : v = .text name := Option.some.inj ((need_ok hv).symm.trans hn)
  cases hf
  exact mem_filterMap.2 ⟨_, hy, rfl⟩

/-- What making a node below another one does. -/
theorem make_ok {t t' : Tree α} {type : Value α} {p id : NodeId} {role : Role}
    (h : t.make name type (some p) role = (.ok id, t')) :
    id = t.nodes.size ∧ ∃ taken path, t.childNames p = .ok taken ∧ t.pathValue p = .ok path ∧
      t' = t.push [("name", .text (uniqueName taken (nodeName name))), ("type", type),
        ("parent", path)] (some p) role := by
  unfold make at h
  dsimp only at h
  cases hc : t.childNames p with
  | error e => rw [hc] at h; cases h
  | ok taken =>
    cases hv : t.pathValue p with
    | error e => rw [hc, hv] at h; cases h
    | ok path =>
      rw [hc, hv] at h
      cases h
      exact ⟨rfl, taken, path, rfl, rfl, rfl⟩

end Tree

end SceneExport
