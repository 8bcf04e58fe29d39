import SceneExport.Proofs.Shader.Order

/-!
# What a texture is used for

The search for the use of a texture follows links from input to input and looks at an input again
on every path that leads to it.  It ends if and only if it has something to find or comes to no
cycle of links (`exists_rounds_iff`), and then answers whether a path of links enters an input that
is wanted (`found_iff_of_rounds`).
-/

namespace SceneExport

open List

namespace NodeTree

variable {α : Type} {t : NodeTree α} {wanted : ShaderNode α → Socket α → Bool} {k : Nat} {b : Bool}
  {x y : Target} {queue : List Target} {node output : Nat}

/-! ### Paths of links -/

/-- A link leads from the node of one input to another input. -/
def LeadsOn (t : NodeTree α) (x y : Target) : Prop :=
  ∃ l ∈ t.links, l.fromNode = x.1 ∧ (l.toNode, l.toSocket) = y

/-- A path of links that starts at an output enters an input. -/
def Enters (t : NodeTree α) (node output : Nat) (y : Target) : Prop :=
  ∃ l ∈ t.links, l.fromNode = node ∧ l.fromSocket = output ∧
    Relation.ReflTransGen t.LeadsOn (l.toNode, l.toSocket) y

theorem enters_iff : t.Enters node output y ↔
    ∃ x ∈ t.entries node output, Relation.ReflTransGen t.LeadsOn x y := by
  simp [Enters, entries, linksFrom, and_assoc]

theorem Enters.exists_link (h : t.Enters node output y) : ∃ l ∈ t.links, (l.toNode, l.toSocket) =
    y := by
  obtain ⟨l, hl, -, -, hly⟩ := h
  rcases hly.cases_tail with rfl | ⟨x, -, l', hl', -, rfl⟩
  · exact ⟨l, hl, rfl⟩
  · exact ⟨l', hl', rfl⟩

/-- All paths of links from an input come to an end. -/
abbrev Terminates (t : NodeTree α) : Target → Prop :=
  Acc (Function.swap t.LeadsOn)

theorem Terminates.not_cycle (h : t.Terminates x) : ¬ Relation.TransGen t.Wired x.1 x.1 := by
  induction h with
  | intro x _ ih =>
    intro hx
    -- The first link of the cycle leads to an input of a node that is on it too.
    obtain ⟨j, hj, hjx⟩ := Relation.TransGen.head'_iff.1 hx
    obtain ⟨l, hl, hfrom, rfl⟩ := id hj
    exact ih (l.toNode, l.toSocket) ⟨l, hl, hfrom, rfl⟩ (.tail' hjx hj)

theorem terminates_of_not_cycle (h : ∀ y, Relation.ReflTransGen t.LeadsOn x y → ¬ Relation.TransGen
    t.Wired y.1 y.1) :
    t.Terminates x := by
  have hwired : ∀ a b, t.LeadsOn a b → t.Wired a.1 b.1 := by
    rintro a b ⟨l, hl, hfrom, rfl⟩
    exact ⟨l, hl, hfrom, rfl⟩
  -- There are finitely many inputs that links lead to.
  refine acc_of_finite (finite_toSet (t.links.map fun l => (l.toNode, l.toSocket))) ?_ ?_
  · rintro _ _ ⟨l, hl, -, rfl⟩
    exact mem_map.2 ⟨l, hl, rfl⟩
  · intro y hxy hy
    exact h y (Relation.reflTransGen_swap.1 hxy)
      ((Relation.transGen_swap.1 hy).lift Prod.fst hwired)

/-! ### Rounds of the search -/

theorem rounds_cons (hx : ¬ t.accepts wanted x) :
    t.rounds wanted (k + 1) (x :: queue) = t.rounds wanted k (queue ++ t.targets x.1) := by
  simp [rounds, look, hx]

theorem rounds_cons_of_accepts (hx : t.accepts wanted x) : t.rounds wanted (k + 1) (x :: queue) =
    .inl true := by
  simp [rounds, look, hx]

/-- Counted rounds are rounds of the search. -/
theorem reaches_eq_rounds (k : Nat) (queue : List Target) :
    t.reaches wanted queue = (t.rounds wanted k queue).elim id (t.reaches wanted) := by
  induction k generalizing queue with
  | zero => rfl
  | succ k ih =>
    rw [rounds, reaches]
    split
    · rfl
    · exact ih _

/-- An answer of the search is its value. -/
theorem leadsTo_eq (h : t.rounds wanted k (t.entries node output) = .inl b) : t.leadsTo wanted node
    output = b := by
  have hreac : t.reaches wanted (t.entries node output) = b := by
    rw [reaches_eq_rounds k, h]
    rfl
  rw [← hreac, leadsTo, reaches_eq_rounds (Nat.pow 2 t.links.length)]
  cases t.rounds wanted (Nat.pow 2 t.links.length) (t.entries node output) <;> rfl

/-- A path of links enters an input that is wanted. -/
def Found (t : NodeTree α) (wanted : ShaderNode α → Socket α → Bool) (queue : List Target) : Prop :=
  ∃ x ∈ queue, ∃ y, Relation.ReflTransGen t.LeadsOn x y ∧ t.accepts wanted y

theorem found_entries : t.Found wanted (t.entries node output) ↔
    ∃ y, t.Enters node output y ∧ t.accepts wanted y := by
  simp only [Found, enters_iff]
  grind

/-- The search has an answer after some rounds. -/
def Ends (t : NodeTree α) (wanted : ShaderNode α → Socket α → Bool) (queue : List Target) : Prop :=
  ∃ k b, t.rounds wanted k queue = .inl b

theorem ends_cons (h : t.Ends wanted (queue ++ t.targets x.1)) : t.Ends wanted (x :: queue) := by
  obtain ⟨k, b, h⟩ := h
  by_cases hx : t.accepts wanted x
  · exact ⟨1, true, rounds_cons_of_accepts hx⟩
  · exact ⟨k + 1, b, by rwa [rounds_cons hx]⟩

/-- What is queued before an input is looked at first. -/
theorem ends_of_front (h : ∀ after, t.Ends wanted (x :: after)) (before after : List Target) :
    t.Ends wanted (before ++ x :: after) := by
  induction before generalizing after with
  | nil => exact h after
  | cons y before ih => exact ends_cons (by simpa using ih (after ++ t.targets y.1))

section

variable (hs : ∀ l ∈ t.links, (t.source? l).isSome)

include hs

theorem mem_targets : y ∈ t.targets x.1 ↔ t.LeadsOn x y := by
  simp only [targets, mem_map, LeadsOn, linksOut]
  constructor
  · rintro ⟨l, hl, rfl⟩
    split at hl
    · simp only [mem_flatMap, linksFrom, mem_filter] at hl
      obtain ⟨_, _, hl, h⟩ := hl
      exact ⟨l, hl, by simp_all, rfl⟩
    · simp at hl
  · rintro ⟨l, hl, hx, rfl⟩
    obtain ⟨s, hsome⟩ := Option.isSome_iff_exists.1 (hs l hl)
    obtain ⟨n, hn, hout⟩ := Option.bind_eq_some_iff.1 hsome
    have hlt := (Array.getElem?_eq_some_iff.1 hout).1
    refine ⟨l, ?_, rfl⟩
    rw [← hx, hn]
    simp [linksFrom, hl, hlt]

/-! ### The answer -/

theorem found_cons : t.Found wanted (x :: queue) ↔
    t.accepts wanted x ∨ t.Found wanted (queue ++ t.targets x.1) := by
  constructor
  · rintro ⟨z, hz, y, hzy, hy⟩
    rcases mem_cons.1 hz with rfl | hz
    · rcases hzy.cases_head with rfl | ⟨w, hzw, hwy⟩
      · exact .inl hy
      · exact .inr ⟨w, mem_append_right _ ((mem_targets hs).2 hzw), y, hwy, hy⟩
    · exact .inr ⟨z, mem_append_left _ hz, y, hzy, hy⟩
  · rintro (hx | ⟨z, hz, y, hzy, hy⟩)
    · exact ⟨x, mem_cons_self, x, .refl, hx⟩
    · rcases mem_append.1 hz with hz | hz
      · exact ⟨z, mem_cons_of_mem x hz, y, hzy, hy⟩
      · exact ⟨x, mem_cons_self, y, .head ((mem_targets hs).1 hz) hzy, hy⟩

/-- An answer says whether a path of links enters an input that is wanted; where nothing is found
all paths come to an end. -/
theorem found_iff_of_rounds (h : t.rounds wanted k queue = .inl b) :
    (t.Found wanted queue ↔ b = true) ∧ (b = false → ∀ x ∈ queue, t.Terminates x) := by
  induction k generalizing queue with
  | zero => cases h
  | succ k ih =>
    cases queue with
    | nil =>
      cases h
      simp [Found]
    | cons x queue =>
      rw [found_cons hs]
      by_cases hx : t.accepts wanted x
      · rw [rounds_cons_of_accepts hx] at h
        cases h
        exact ⟨iff_of_true (.inl hx) rfl, nofun⟩
      · rw [rounds_cons hx] at h
        obtain ⟨hfnd, hends⟩ := ih h
        refine ⟨by rw [hfnd, or_iff_right hx], fun hb => forall_mem_cons.2 ⟨?_, ?_⟩⟩
        · exact ⟨x, fun y hy => hends hb y (mem_append_right _ ((mem_targets hs).2 hy))⟩
        · exact fun z hz => hends hb z (mem_append_left _ hz)

/-! ### The end of the search -/

theorem Found.ends (h : t.Found wanted queue) : t.Ends wanted queue := by
  obtain ⟨x, hx, y, hxy, hy⟩ := h
  induction hxy using Relation.ReflTransGen.head_induction_on generalizing queue with
  | refl =>
    obtain ⟨before, after, rfl⟩ := append_of_mem hx
    exact ends_of_front (fun _ => ⟨1, true, rounds_cons_of_accepts hy⟩) before after
  | head hxz _ ih =>
    obtain ⟨before, after, rfl⟩ := append_of_mem hx
    refine ends_of_front (fun after => ends_cons ?_) before after
    exact ih (mem_append_right _ ((mem_targets hs).2 hxz))

/-- A search that ends does so with another input whose paths come to an end. -/
theorem Terminates.ends_insert (hx : t.Terminates x) (before after : List Target)
    (h : t.Ends wanted (before ++ after)) : t.Ends wanted (before ++ x :: after) := by
  induction hx generalizing before after with
  | intro x _ ih =>
    obtain ⟨k, b, h⟩ := h
    induction k generalizing before after with
    | zero => cases h
    | succ k ihk =>
      cases before with
      | cons y before =>
        by_cases hy : t.accepts wanted y
        · exact ⟨1, true, rounds_cons_of_accepts hy⟩
        · rw [cons_append, rounds_cons hy, append_assoc] at h
          exact ends_cons (by simpa using ihk before (after ++ t.targets y.1) h)
      | nil =>
        -- The inputs that come after `x` are added one by one.
        have hadd : ∀ ys ⊆ t.targets x.1, t.Ends wanted (after ++ ys) := by
          intro ys
          induction ys with
          | nil => exact fun _ => ⟨k + 1, b, by simpa using h⟩
          | cons y ys ihys =>
            intro hys
            obtain ⟨hy, hys⟩ := cons_subset.1 hys
            exact ih y ((mem_targets hs).1 hy) after ys (ihys hys)
        exact ends_cons (hadd _ (List.Subset.refl _))

theorem ends_of_terminates (h : ∀ x ∈ queue, t.Terminates x) : t.Ends wanted queue := by
  induction queue with
  | nil => exact ⟨1, false, rfl⟩
  | cons x queue ih =>
    obtain ⟨hx, h⟩ := forall_mem_cons.1 h
    exact hx.ends_insert hs [] queue (ih h)

theorem ends_of_not_cycle (h : ∀ y, t.Enters node output y → ¬ Relation.TransGen t.Wired y.1 y.1) :
    t.Ends wanted (t.entries node output) := by
  refine ends_of_terminates hs fun x hx => terminates_of_not_cycle fun y hxy => ?_
  exact h y (enters_iff.2 ⟨x, hx, hxy⟩)

end

/-- **The search ends if and only if it has something to find or comes to no cycle.**  Links that
are not valid count too. -/
theorem exists_rounds_iff (hs : ∀ l ∈ t.links, (t.source? l).isSome) (node output : Nat) :
    (∃ k b, t.rounds wanted k (t.entries node output) = .inl b) ↔
      (∃ y, t.Enters node output y ∧ t.accepts wanted y) ∨
        ∀ y, t.Enters node output y → ¬ Relation.TransGen t.Wired y.1 y.1 := by
  constructor
  · rintro ⟨k, b, h⟩
    cases b with
    | true => exact .inl (found_entries.1 ((found_iff_of_rounds hs h).1.2 rfl))
    | false =>
      refine .inr fun y hy => Terminates.not_cycle ?_
      obtain ⟨x, hx, hxy⟩ := enters_iff.1 hy
      have hx := (found_iff_of_rounds hs h).2 rfl x hx
      clear hy
      induction hxy with
      | refl => exact hx
      | tail _ hyz ih => exact ih.inv hyz
  · rintro (hfnd | hcyc)
    · exact (found_entries.2 hfnd).ends hs
    · exact ends_of_not_cycle hs hcyc

/-- Two nodes that invert a colour, the second of which leads back to the first by a link that is
not valid. -/
def endless : NodeTree Unit where
  name := "Endless"
  nodes := #[bareNode "ShaderNodeTexImage" ["Vector"] ["Color", "Alpha"],
    bareNode "ShaderNodeInvert" ["Fac", "Color"] ["Color"],
    bareNode "ShaderNodeInvert" ["Fac", "Color"] ["Color"],
    bareNode "ShaderNodeEmission" ["Color", "Strength"] ["Emission"]]
  links := [⟨0, 0, 1, 1, true⟩, ⟨1, 0, 2, 1, true⟩, ⟨2, 0, 1, 0, false⟩, ⟨2, 0, 3, 0, true⟩]

theorem exists_rounds_iff_endless : endless.order = [0, 1, 2, 3] ∧
      (∀ k b, endless.rounds isAlbedoInput k (endless.entries 0 0) ≠ .inl b) ∧
      ∀ k b, endless.rounds isNormalInput k (endless.entries 0 0) ≠ .inl b := by
  have hcyc : ¬ ∀ y, endless.Enters 0 0 y → ¬ Relation.TransGen endless.Wired y.1 y.1 := by
    intro h
    refine h (1, 1) ⟨⟨0, 0, 1, 1, true⟩, by decide, rfl, rfl, .refl⟩ ?_
    exact .tail (.single ⟨⟨1, 0, 2, 1, true⟩, by decide, rfl, rfl⟩)
      ⟨⟨2, 0, 1, 0, false⟩, by decide, rfl, rfl⟩
  have hsear : ∀ wanted, (∀ l ∈ endless.links, ¬ endless.accepts wanted (l.toNode, l.toSocket)) →
      ∀ k b, endless.rounds wanted k (endless.entries 0 0) ≠ .inl b := by
    intro wanted hno k b h
    rcases (exists_rounds_iff (by decide) 0 0).1 ⟨k, b, h⟩ with ⟨y, hy, hfnd⟩ | hnone
    · obtain ⟨l, hl, rfl⟩ := hy.exists_link
      exact hno l hl hfnd
    · exact hcyc hnone
  exact ⟨by decide +kernel, hsear _ (by decide +kernel), hsear _ (by decide +kernel)⟩

/-- **The use of a texture where links form no cycle.**  The searches end, and say whether a path of
links enters an input that gives the colour of a surface or the colours of a normal map. -/
theorem leadsTo_iff_enters (hs : ∀ l ∈ t.links, (t.source? l).isSome)
    (hc : ∀ i, ¬ Relation.TransGen t.Wired i i) (node output : Nat) :
    (∀ wanted, ∃ k, t.rounds wanted k (t.entries node output) = .inl (t.leadsTo wanted node output))
    ∧ (t.leadsTo isAlbedoInput node output = true ↔
      ∃ y n s, t.Enters node output y ∧ t.nodes[y.1]? = some n ∧ n.inputs[y.2]? = some s ∧
        (s.name = "Base Color" ∧ n.id = "ShaderNodeBsdfPrincipled" ∨
          s.name = "Color" ∧ n.id = "ShaderNodeBsdfDiffuse")) ∧
    (t.leadsTo isNormalInput node output = true ↔
      ∃ y n s, t.Enters node output y ∧ t.nodes[y.1]? = some n ∧ n.inputs[y.2]? = some s ∧
        s.name = "Color" ∧ n.id = "ShaderNodeNormalMap") := by
  have hends : ∀ wanted, ∃ k, t.rounds wanted k (t.entries node output) =
    .inl (t.leadsTo wanted node output) := by
    intro wanted
    obtain ⟨k, b, h⟩ : t.Ends wanted (t.entries node output) :=
      ends_of_not_cycle hs fun y _ => hc y.1
    exact ⟨k, by rw [h, leadsTo_eq h]⟩
  have hleads : ∀ wanted, t.leadsTo wanted node output = true ↔ ∃ y, t.Enters node output y ∧
    t.accepts wanted y := by
    intro wanted
    obtain ⟨k, h⟩ := hends wanted
    rw [← found_entries, (found_iff_of_rounds hs h).1]
  refine ⟨hends, ?_, ?_⟩
  · rw [hleads]
    simp [accepts, Option.any_eq_true, isAlbedoInput]
  · rw [hleads]
    simp [accepts, Option.any_eq_true, isNormalInput]

/-- A texture whose colour comes to a surface on two ways, one of them through a link that is not
valid. -/
def layered : NodeTree Unit where
  name := "Layered"
  nodes := #[bareNode "ShaderNodeTexImage" ["Vector"] ["Color", "Alpha"],
    bareNode "ShaderNodeInvert" ["Fac", "Color"] ["Color"],
    bareNode "ShaderNodeMixRGB" ["Fac", "Color1", "Color2"] ["Color"],
    bareNode "ShaderNodeBsdfPrincipled" ["Base Color", "Normal"] ["BSDF"]]
  links := [⟨0, 0, 1, 1, true⟩, ⟨0, 0, 2, 1, true⟩, ⟨1, 0, 2, 2, false⟩, ⟨2, 0, 3, 0, true⟩]

theorem leadsTo_iff_enters_layered :
    layered.leadsTo isAlbedoInput 0 0 = true ∧ layered.leadsTo isNormalInput 0 0 = false ∧
      ∃ y n, layered.Enters 0 0 y ∧ layered.nodes[y.1]? = some n ∧
        (n.id = "ShaderNodeBsdfPrincipled" ∨ n.id = "ShaderNodeBsdfDiffuse") := by
  have halbe : layered.leadsTo isAlbedoInput 0 0 = true := by decide +kernel
  obtain ⟨-, hiff, -⟩ := leadsTo_iff_enters (t := layered) (by decide)
    (not_wired_of_rank id (by decide)) 0 0
  obtain ⟨y, n, s, hy, hn, -, hid⟩ := hiff.1 halbe
  exact ⟨halbe, by decide +kernel, y, n, hy, hn, hid.imp And.right And.right⟩

end NodeTree

end SceneExport
