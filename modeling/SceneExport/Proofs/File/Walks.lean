import SceneExport.Proofs.File.Trees

/-!
# Following node paths

A node path is followed from a node component by component: `.` stays, `..` goes to the parent and
any other component goes to the child of that name (`Tree.walk?`).  In a tree made node by node,
none of whose names is empty, the path from one node to another leads there (`Tree.walk?_between`).

Such names are the components of a path as they are (`Path.absolute_pathText`), so the path from one
node to the other climbs to a node that is above both and goes down from there
(`Path.exists_climb`), and there is nothing in it to normalise (`Path.normalize_climb`).
-/

namespace SceneExport

open List
open List (replicate)

variable {α : Type}

theorem IsNodeName.ne_points {s : String} (h : IsNodeName s) : s ≠ "." ∧ s ≠ ".." := by
  refine ⟨h.ne_point, ?_⟩
  rintro rfl
  exact absurd (h '.' (by decide)) (by decide)

/-! ### Splitting and joining -/

variable {parts names down names' : List String}

namespace Text

variable {cs : List Char} {z : Char}

theorem splitOn_of_not_mem (h : z ∉ cs) : splitOn z cs = [cs] := by
  induction cs with
  | nil => rfl
  | cons c cs ih =>
    have hc : (c == z) = false := beq_eq_false_iff_ne.2 fun he => h (he ▸ mem_cons_self)
    rw [splitOn, hc, ih fun hm => h (mem_cons_of_mem _ hm)]
    rfl

theorem splitOn_ne_nil (z : Char) (cs : List Char) : splitOn z cs ≠ [] := by
  fun_cases splitOn z cs <;> simp

theorem splitOn_append (cs rest : List Char) : splitOn z (cs ++ z :: rest) = splitOn z cs ++
    splitOn z rest := by
  induction cs with
  | nil => simp [splitOn]
  | cons c cs ih =>
    obtain ⟨piece, pieces, hp⟩ := exists_cons_of_ne_nil (splitOn_ne_nil z cs)
    by_cases hc : c = z <;> simp [splitOn, hc, ih, hp]

theorem joinWith_cons_cons (sep a b : String) (parts : List String) :
    joinWith sep (a :: b :: parts) = a ++ sep ++ joinWith sep (b :: parts) :=
  String.intercalate_cons_cons

/-- Parts without slashes are found again. -/
theorem split_joinWith {part : String} (h : ∀ p ∈ part :: parts, '/' ∉ p.toList) :
    split '/' (joinWith "/" (part :: parts)) = part :: parts := by
  induction parts generalizing part with
  | nil =>
    have hsing : joinWith "/" [part] = part := String.intercalate_singleton
    rw [hsing, split, splitOn_of_not_mem (h part mem_cons_self), map_singleton,
      String.ofList_toList]
  | cons next parts ih =>
    have hnext := ih fun p hp => h p (mem_cons_of_mem _ hp)
    rw [split] at hnext ⊢
    rw [joinWith_cons_cons, String.toList_append, String.toList_append, append_assoc,
      show ("/" : String).toList = ['/'] from rfl, singleton_append,
      splitOn_append, splitOn_of_not_mem (h part mem_cons_self), map_append, hnext, map_singleton,
        String.ofList_toList]
    rfl

end Text

namespace Path

/-- A text can be a part of a path. -/
def IsPart (p : String) : Prop :=
  p ≠ "" ∧ '/' ∉ p.toList

theorem isPart_up : IsPart ".." := ⟨by decide, by decide⟩

theorem isPart_of_isNodeName {p : String} (h : IsNodeName p) (hne : p ≠ "") : IsPart p :=
  ⟨hne, h.slash_not_mem⟩

theorem components_joinWith (h : ∀ p ∈ parts, IsPart p) : components (Text.joinWith "/" parts) =
    parts := by
  cases parts with
  | nil => rfl
  | cons part parts =>
    rw [components, Text.split_joinWith fun p hp => (h p hp).2, filter_eq_self]
    exact fun p hp => bne_iff_ne.2 (h p hp).1

/-! ### Paths of nodes -/

theorem foldl_slash (start name : String) (names : List String) :
    names.foldl (fun path name => path ++ "/" ++ name) (start ++ "/" ++ name)
      = start ++ "/" ++ names.foldl (fun path name => path ++ "/" ++ name) name := by
  induction names generalizing name with
  | nil => rfl
  | cons next names ih =>
    rw [foldl_cons, foldl_cons, ← ih]
    simp only [String.append_assoc]

theorem pathText_cons (name : String) (names : List String) :
    pathText (name :: names) = Text.joinWith "/" (name :: names) := by
  induction names generalizing name with
  | nil => exact String.intercalate_singleton.symm
  | cons next names ih =>
    rw [Text.joinWith_cons_cons, ← ih, pathText, foldl_cons, foldl_slash]
    rfl

theorem resolve_names {rooted : Bool} {kept : List String} (h : ∀ n ∈ names, n ≠ "." ∧ n ≠ "..") :
    resolve rooted kept names = kept.reverse ++ names := by
  induction names generalizing kept with
  | nil => simp [resolve]
  | cons name names ih =>
    obtain ⟨hpoint, hup⟩ := h name mem_cons_self
    rw [resolve, ih fun n hn => h n (mem_cons_of_mem _ hn), reverse_cons, append_assoc,
      singleton_append]
    · exact hpoint
    · exact hup

theorem absolute_pathText (h : ∀ n ∈ names, IsNodeName n) (hne : ∀ n ∈ names, n ≠ "") :
    absolute (pathText names) = names := by
  cases names with
  | nil => decide
  | cons name names =>
    rw [absolute, pathText_cons, components_joinWith fun n hn => isPart_of_isNodeName (h n hn)
      (hne n hn), resolve_names fun n hn => (h n hn).ne_points]
    rfl

/-! ### The way between two nodes -/

/-- The way goes up from the start to a common part and down to the target. -/
theorem exists_climb (start target : List String) :
    ∃ common up down, start = common ++ up ∧ target = common ++ down ∧
      climb start target = replicate up.length ".." ++ down := by
  induction start generalizing target with
  | nil => exact ⟨[], [], target, rfl, rfl, by simp [climb, commonLength]⟩
  | cons a start ih =>
    cases target with
    | nil => exact ⟨[], a :: start, [], rfl, rfl, by simp [climb, commonLength]⟩
    | cons b target =>
      by_cases hab : a = b
      · subst hab
        obtain ⟨common, up, down, rfl, rfl, hclimb⟩ := ih target
        refine ⟨a :: common, up, down, rfl, rfl, ?_⟩
        rw [← hclimb]
        simp [climb, commonLength, Nat.add_comm 1, Nat.add_sub_add_right]
      · exact ⟨[], a :: start, b :: target, rfl, rfl, by simp [climb, commonLength, hab]⟩

theorem resolve_climb (kept n : Nat) (h : ∀ d ∈ down, IsNodeName d) :
    resolve false (replicate kept "..") (replicate n ".." ++ down) = replicate (kept + n) ".." ++
    down := by
  induction n generalizing kept with
  | zero => simp [resolve_names fun d hd => (h d hd).ne_points]
  | succ n ih =>
    have hnext : resolve false (replicate kept "..") (".." :: (replicate n ".." ++ down))
        = resolve false (replicate (kept + 1) "..") (replicate n ".." ++ down) := by
      cases kept <;> rfl
    rw [replicate_succ, cons_append, hnext, ih (kept + 1), Nat.add_right_comm, Nat.add_assoc]

theorem strip?_slash (cs : List Char) : (Text.strip? ['/'] cs).isSome = true ↔ cs.head? =
    some '/' := by
  cases cs with
  | nil => simp [Text.strip?]
  | cons c cs => by_cases hc : c = '/' <;> simp [Text.strip?, hc, Ne.symm]

theorem isAbsolute_joinWith {part : String} (h : IsPart part) (parts : List String) :
    isAbsolute (Text.joinWith "/" (part :: parts)) = false := by
  have hhead : (Text.joinWith "/" (part :: parts)).toList.head? = part.toList.head? := by
    cases parts with
    | nil => exact congrArg (·.toList.head?) String.intercalate_singleton
    | cons next parts =>
      rw [Text.joinWith_cons_cons, String.append_assoc, String.toList_append,
        head?_append_of_ne_nil]
      simpa using h.1
  rw [← Bool.not_eq_true, isAbsolute, Text.startsWith, show ("/" : String).toList = ['/'] from rfl,
    strip?_slash, hhead]
  exact fun hslash => h.2 (mem_of_mem_head? hslash)

theorem isPart_climb (n : Nat) (h : ∀ d ∈ down, IsNodeName d) (hne : ∀ d ∈ down, d ≠ "") :
    ∀ p ∈ replicate n ".." ++ down, IsPart p := by
  intro p hp
  rcases mem_append.1 hp with hp | hp
  · rw [(mem_replicate.1 hp).2]
    exact isPart_up
  · exact isPart_of_isNodeName (h p hp) (hne p hp)

theorem joinWith_ne_empty (h : ∀ p ∈ parts, IsPart p) (hne : parts ≠ []) : Text.joinWith "/" parts ≠
    "" := by
  intro he
  have hnone := components_joinWith h
  rw [he] at hnone
  exact hne hnone.symm

/-- There is nothing to normalise in the way from one node to another. -/
theorem normalize_climb (n : Nat) (h : ∀ d ∈ down, IsNodeName d) (hne : ∀ d ∈ down, d ≠ "")
    (hway : replicate n ".." ++ down ≠ []) :
    normalize (Text.joinWith "/" (replicate n ".." ++ down))
      = Text.joinWith "/" (replicate n ".." ++ down) := by
  have hparts := isPart_climb n h hne
  have hreso := resolve_climb 0 n h
  rw [Nat.zero_add] at hreso
  generalize replicate n ".." ++ down = way at hway hparts hreso ⊢
  cases way with
  | nil => exact absurd rfl hway
  | cons part parts =>
    have hst : leadingSlashes (Text.joinWith "/" (part :: parts)) = "" := by
      rw [leadingSlashes, isAbsolute_joinWith (hparts part mem_cons_self)]
      rfl
    have hbody : resolve false [] (components (Text.joinWith "/" (part :: parts))) =
      part :: parts := by
      rw [components_joinWith hparts]
      exact hreso
    have hfull := joinWith_ne_empty hparts hway
    rw [normalize, hst, show (("" : String) != "") = false from rfl, hbody, String.empty_append,
      if_neg]
    simpa using hfull

end Path

/-- The components of the path from one node to another are the way between them, or one `.` if
there is none. -/
theorem NodePath.between_pathText (h : ∀ n ∈ names, IsNodeName n) (h' : ∀ n ∈ names', IsNodeName n)
    (hne : ∀ n ∈ names, n ≠ "") (hne' : ∀ n ∈ names', n ≠ "") (property : String) :
    ∃ path, NodePath.between (pathText names) (pathText names') property = .ok path ∧
      Text.split '/' path.route = if Path.climb names names' = [] then ["."] else Path.climb names
      names' := by
  have htgt : (pathText names').isEmpty = false := by
    cases names' with
    | nil => decide
    | cons name names' =>
      have hfull := Path.joinWith_ne_empty
        (fun n hn => Path.isPart_of_isNodeName (h' n hn) (hne' n hn)) (cons_ne_nil name names')
      rw [Path.pathText_cons]
      simpa using hfull
  have hrela : Path.relative (pathText names') (pathText names)
      = .ok (if (Path.climb names names').isEmpty then "." else Text.joinWith "/"
      (Path.climb names names')) := by
    rw [Path.relative, htgt, Path.absolute_pathText h hne, Path.absolute_pathText h' hne']
    rfl
  refine ⟨⟨_, property⟩, by rw [NodePath.between, hrela]; rfl, ?_⟩
  obtain ⟨common, up, down, rfl, rfl, hclimb⟩ := Path.exists_climb names names'
  have hdown : ∀ d ∈ down, IsNodeName d := fun d hd => h' d (mem_append_right _ hd)
  have hdown' : ∀ d ∈ down, d ≠ "" := fun d hd => hne' d (mem_append_right _ hd)
  rw [hclimb]
  by_cases hway : replicate up.length ".." ++ down = []
  · rw [hway]
    show Text.split '/' (Path.normalize ".") = ["."]
    decide
  · have hemp : (replicate up.length ".." ++ down).isEmpty = false := by simpa using hway
    rw [if_neg hway, hemp, if_neg Bool.false_ne_true, Path.normalize_climb _ hdown hdown' hway]
    have hparts := Path.isPart_climb up.length hdown hdown'
    generalize replicate up.length ".." ++ down = way at hway hparts ⊢
    cases way with
    | nil => exact absurd rfl hway
    | cons part parts => exact Text.split_joinWith fun p hp => (hparts p hp).2

/-! ### Following a path -/

namespace Tree

/-- Where a component of a path leads from a node. -/
def step? (t : Tree α) (i : NodeId) (component : String) : Option NodeId :=
  if component = "." then some i
  else if component = ".." then t.nodes[i]?.bind Node.parent
  else (t.children i).find? fun j => t.name? j == some component

/-- Where a path leads from a node. -/
def walk? (t : Tree α) (i : NodeId) (components : List String) : Option NodeId :=
  components.foldlM t.step? i

variable {t : Tree α} {i p : NodeId} {name : String} {j : NodeId}

theorem walk?_append (t : Tree α) (i : NodeId) (cs ds : List String) :
    t.walk? i (cs ++ ds) = (t.walk? i cs).bind fun j => t.walk? j ds :=
  foldlM_append

theorem child_of_route (h : t.session.layout.Route i (names ++ [name])) :
    ∃ p, i ∈ t.children p ∧ t.name? i = some name ∧ t.session.layout.Route p names := by
  generalize hns : names ++ [name] = ns at h
  cases h with
  | root => simp at hns
  | @child _ p names' name' type hi hname hr =>
    obtain ⟨rfl, hlast⟩ := append_inj' hns rfl
    obtain rfl : name = name' := by simpa using hlast
    obtain ⟨n, hn, hheadi, hpar⟩ := getElem?_of_layout hi
    refine ⟨p, mem_children.2 ⟨n, hn, hpar⟩, ?_, hr⟩
    rw [name?, show t.nodes[i]? = some n from hn, Option.bind_some, hheadi]
    rfl

theorem step?_up (h : i ∈ t.children p) : t.step? i ".." = some p := by
  obtain ⟨n, hn, hp⟩ := mem_children.1 h
  rw [step?, if_neg (by decide), if_pos rfl, hn]
  exact hp

theorem step?_down (hl : t.session.layout.SiblingsDiffer) (hname : IsNodeName name)
    (h : i ∈ t.children p) (hi : t.name? i = some name) : t.step? p name = some i := by
  rw [step?, if_neg hname.ne_point, if_neg hname.ne_points.2]
  cases hfind : (t.children p).find? fun j => t.name? j == some name with
  | none =>
    have hnone := find?_eq_none.1 hfind i h
    exact absurd (beq_iff_eq.2 hi) hnone
  | some j =>
    have hj := find?_some hfind
    rw [beq_iff_eq] at hj
    exact congrArg some (sibling_eq hl (mem_of_find?_eq_some hfind) h hj hi)

/-- Climbing from a node leads to the nodes above it. -/
theorem walk?_up {common up : List String} (h : t.session.layout.Route i (common ++ up)) :
    ∃ p, t.session.layout.Route p common ∧ t.walk? i (replicate up.length "..") = some p := by
  induction up using List.reverseRecOn generalizing i with
  | nil => exact ⟨i, by simpa using h, rfl⟩
  | append_singleton up name ih =>
    rw [← append_assoc] at h
    obtain ⟨q, hch, -, hq⟩ := child_of_route h
    obtain ⟨p, hp, hwalk⟩ := ih hq
    refine ⟨p, hp, ?_⟩
    rw [length_append, length_singleton, replicate_succ, walk?, foldlM_cons, step?_up hch]
    exact hwalk

/-- Going down along the names on the way to a node leads to it. -/
theorem walk?_down (hl : t.session.layout.SiblingsDiffer) {common : List String}
    (hp : t.session.layout.Route p common) (h : t.session.layout.Route i (common ++ down)) :
    t.walk? p down = some i := by
  induction down using List.reverseRecOn generalizing i with
  | nil =>
    rw [append_nil] at h
    exact congrArg some (hl.route_injective hp h)
  | append_singleton down name ih =>
    have hname := h.isNodeName name (by simp)
    rw [← append_assoc] at h
    obtain ⟨q, hch, hi, hq⟩ := child_of_route h
    rw [walk?_append, ih hq, Option.bind_some, walk?, foldlM_cons, step?_down hl hname hch hi]
    rfl

/-- The way from one node to another leads there. -/
theorem walk?_routes (hl : t.session.layout.SiblingsDiffer) (hi : t.session.layout.Route i names)
    (hj : t.session.layout.Route j names') : t.walk? i (Path.climb names names') = some j := by
  obtain ⟨common, up, down, rfl, rfl, hclimb⟩ := Path.exists_climb names names'
  obtain ⟨p, hp, hup⟩ := walk?_up hi
  rw [hclimb, walk?_append, hup]
  exact walk?_down hl hp hj

/-- There is a path from one node to another, and it leads there. -/
theorem exists_walk? (hl : t.session.layout.SiblingsDiffer) (hi : t.session.layout.Route i names)
    (hj : t.session.layout.Route j names') (hne : ∀ n ∈ names, n ≠ "") (hne' : ∀ n ∈ names', n ≠ "")
    (property : String) :
    ∃ path, NodePath.between (pathText names) (pathText names') property = .ok path ∧
      t.walk? i (Text.split '/' path.route) = some j := by
  obtain ⟨path, hpath, hsplit⟩ := NodePath.between_pathText hi.isNodeName hj.isNodeName hne hne'
    property
  refine ⟨path, hpath, ?_⟩
  have hwalk := walk?_routes hl hi hj
  rw [hsplit]
  split
  · next hemp =>
    -- A node is where it is, and one step stays there.
    rw [hemp] at hwalk
    cases hwalk
    rfl
  · exact hwalk

variable {made : List (Branch α)}

theorem Sprung.exists_candidate (h : t.Sprung made) (hi : i ∈ t.children p) :
    ∃ b ∈ made, ∃ k, t.name? i = some (candidateName (nodeName b.name) k) := by
  cases i with
  | zero =>
    obtain ⟨names, name, -, hname, -, hr⟩ := exists_name_of_child h.ordered hi
    have hpath := (path_of_route hr).symm.trans (path_of_route h.root)
    have hroot := pathText_injective hr.isNodeName h.root.isNodeName (Except.ok.inj hpath)
    exact absurd hroot (by simp)
  | succ i =>
    obtain ⟨n, hn, -⟩ := mem_children.1 hi
    have hlt : i < made.length :=
      Nat.lt_of_succ_lt_succ (Nat.lt_of_lt_of_eq (Array.getElem?_eq_some_iff.1 hn).1 h.size)
    obtain ⟨k, -, hname, -⟩ := (h.first i _ (getElem?_eq_getElem hlt)).first
    exact ⟨_, getElem_mem hlt, k, hasName_iff.1 hname⟩

theorem Sprung.ne_empty (h : t.Sprung made) (hmade : ∀ b ∈ made, nodeName b.name ≠ "")
    (hr : t.session.layout.Route i names) : ∀ n ∈ names, n ≠ "" := by
  induction names using List.reverseRecOn generalizing i with
  | nil => simp
  | append_singleton names name ih =>
    obtain ⟨p, hch, hname, hp⟩ := child_of_route hr
    intro n hn
    rcases mem_append.1 hn with hn | hn
    · exact ih hp n hn
    · rw [mem_singleton.1 hn]
      obtain ⟨b, hb, k, hcand⟩ := h.exists_candidate hch
      cases hcand.symm.trans hname
      exact candidateName_ne_empty (hmade b hb) k

/-- **Node paths resolve.**  Let a tree be made node by node with names that do not come to
nothing.  Then there is a path from each node to each other one, and following its components from
the one, every step leads somewhere and the last one to the other. -/
theorem walk?_between (name : String) (type : Value α) (role : Role) {branches : List (Branch α)}
    (h : Attached 1 branches) (hnames : ∀ b ∈ branches, nodeName b.name ≠ "") :
    ∃ t, (rooted name type role).grow branches = .ok t ∧
      ∀ i < t.nodes.size, ∀ j < t.nodes.size, ∀ property, ∃ start target path,
        t.path i = .ok start ∧ t.path j = .ok target ∧ NodePath.between start target property =
        .ok path ∧ t.walk? i (Text.split '/' path.route) = some j := by
  obtain ⟨t, hgrow, ht⟩ := (sprung_rooted name type role).grow h
  rw [nil_append] at ht
  refine ⟨t, hgrow, fun i hi j hj property => ?_⟩
  obtain ⟨names, hri⟩ := ht.ordered.route i ((length_layout t).symm ▸ hi)
  obtain ⟨names', hrj⟩ := ht.ordered.route j ((length_layout t).symm ▸ hj)
  obtain ⟨path, hpath, hwalk⟩ := exists_walk? ht.ordered.siblingsDiffer hri hrj
    (ht.ne_empty hnames hri) (ht.ne_empty hnames hrj) property
  exact ⟨_, _, path, path_of_route hri, path_of_route hrj, hpath, hwalk⟩

/-- Two arms below a body, a hand below the first of them, and a lamp beside the body. -/
def limbs : List (Branch α) :=
  [⟨"Body", .text "Node3D", 0, .plain⟩, ⟨"Arm", .text "Node3D", 1, .plain⟩,
    ⟨"Arm", .text "Node3D", 1, .plain⟩, ⟨"Hand", .text "Node3D", 2, .plain⟩,
    ⟨"Lamp", .text "Node3D", 0, .plain⟩]

theorem walk?_between_limbs : Attached 1 (limbs : List (Branch Rat)) ∧
    (∀ b ∈ (limbs : List (Branch Rat)), nodeName b.name ≠ "") ∧
    ∃ t : Tree Rat, (rooted "Scene" (.text "Node3D") .plain).grow limbs = .ok t ∧ t.nodes.size = 6 ∧
      ∀ i < 6, ∀ j < 6, ∃ start target path, t.path i = .ok start ∧ t.path j = .ok target ∧
        NodePath.between start target "" = .ok path ∧ t.walk? i (Text.split '/' path.route) =
        some j := by
  have hatt : Attached 1 (limbs : List (Branch Rat)) := by decide
  have hnms : ∀ b ∈ (limbs : List (Branch Rat)), nodeName b.name ≠ "" := by
    simp only [limbs, forall_mem_cons]
    decide
  obtain ⟨t, hgrow, hpath⟩ := walk?_between "Scene" (.text "Node3D") .plain hatt hnms
  obtain ⟨t', hgrow', ht'⟩ := (sprung_rooted "Scene" (.text "Node3D") .plain).grow hatt
  cases hgrow.symm.trans hgrow'
  have hsize : t.nodes.size = 6 := ht'.size
  exact ⟨hatt, hnms, t, hgrow, hsize, fun i hi j hj => hpath i (hsize ▸ hi) j (hsize ▸ hj) ""⟩

end Tree

end SceneExport
