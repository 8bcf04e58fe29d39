import Mathlib.Data.Fintype.Order
import Mathlib.Order.RelClasses
import SceneExport.Shader.Tree

/-!
# The order of evaluation

A node is taken once it waits for nothing.  While the nodes are taken, the count of a node that was
not taken is the number of valid links that lead to it from nodes that were not taken either
(`Tally`).  So every node is taken after those that its valid links come from
(`source_before_of_order`), and a node is taken if and only if no cycle of valid links leads to it
(`mem_order_iff`).
-/

namespace SceneExport

open List

/-! ### Counting by a number -/

theorem countP_flatMap_range {β : Type} {p q : β → Bool} {number : β → Nat} {n : Nat} {l : List β} :
    ((List.range n).flatMap fun k => l.filter fun b => q b && number b == k).countP p =
      l.countP fun b => p b && q b && decide (number b < n) := by
  induction n with
  | zero => simp
  | succ n ih =>
    rw [range_succ, flatMap_append, countP_append, ih,
      countP_eq_countP_filter_add l (fun b => p b && q b && decide (number b < n + 1)) fun b =>
      decide (number b < n)]
    simp only [flatMap_cons, flatMap_nil, append_nil, countP_filter]
    congr 1 <;> exact countP_congr fun b _ => by grind

/-- Where a relation has finitely many elements on its left and no cycle leads to `x`, all ways back
from `x` come to an end. -/
theorem acc_of_finite {β : Type} {r : β → β → Prop} {s : Set β} {x : β} (hs : s.Finite)
    (hr : ∀ a b, r a b → a ∈ s)
    (h : ∀ y, Relation.ReflTransGen r y x → ¬ Relation.TransGen r y y) : Acc r x := by
  have := hs.to_subtype
  have hwf : WellFounded fun a b : s =>
      Relation.TransGen r a.1 b.1 ∧ Relation.ReflTransGen r b.1 x :=
    @Finite.wellFounded_of_trans_of_irrefl _ _ _
      ⟨fun _ _ _ hab hbc => ⟨hab.1.trans hbc.1, hbc.2⟩⟩ ⟨fun a ha => h a.1 ha.2 ha.1⟩
  have hacc : ∀ b : s, Relation.ReflTransGen r b.1 x → Acc r b.1 := by
    intro b
    induction b using hwf.induction with
    | _ b ih => exact fun hb => ⟨_, fun a ha => ih ⟨a, hr a b ha⟩ ⟨.single ha, hb⟩ (.head ha hb)⟩
  exact ⟨x, fun a ha => hacc ⟨a, hr a x ha⟩ (.single ha)⟩

namespace NodeTree

variable {α : Type} {t : NodeTree α} {i : Nat} {done : List Nat} {l : NodeLink}
  (links : List NodeLink)

/-- The output that a link comes from. -/
def source? (t : NodeTree α) (l : NodeLink) : Option (Socket α) :=
  t.nodes[l.fromNode]?.bind (·.outputs[l.fromSocket]?)

/-- The input that a link leads to. -/
def target? (t : NodeTree α) (l : NodeLink) : Option (Socket α) :=
  t.nodes[l.toNode]?.bind (·.inputs[l.toSocket]?)

/-- Links join sockets that there are, and no two links lead to one input. -/
structure Joined (t : NodeTree α) : Prop where
  source : ∀ l ∈ t.links, (t.source? l).isSome
  target : ∀ l ∈ t.links, (t.target? l).isSome
  single : (t.links.map fun l => (l.toNode, l.toSocket)).Nodup

theorem Joined.exists_source (h : t.Joined) (hl : l ∈ t.links) :
    ∃ n s, t.nodes[l.fromNode]? = some n ∧ n.outputs[l.fromSocket]? = some s := by
  obtain ⟨s, hs⟩ := Option.isSome_iff_exists.1 (h.source l hl)
  obtain ⟨n, hn, hs⟩ := Option.bind_eq_some_iff.1 hs
  exact ⟨n, s, hn, hs⟩

theorem Joined.exists_target (h : t.Joined) (hl : l ∈ t.links) :
    ∃ n s, t.nodes[l.toNode]? = some n ∧ n.inputs[l.toSocket]? = some s := by
  obtain ⟨s, hs⟩ := Option.isSome_iff_exists.1 (h.target l hl)
  obtain ⟨n, hn, hs⟩ := Option.bind_eq_some_iff.1 hs
  exact ⟨n, s, hn, hs⟩

theorem Joined.length_linksTo (h : t.Joined) (i k : Nat) : (t.linksTo i k).length ≤ 1 := by
  have hcount := nodup_iff_count_le_one.1 h.single (i, k)
  rw [count_eq_countP, countP_map] at hcount
  rw [linksTo, ← countP_eq_length_filter]
  exact hcount

/-- A valid link leads from one node to another. -/
def Feeds (t : NodeTree α) (i j : Nat) : Prop :=
  ∃ l ∈ t.links, l.valid ∧ l.fromNode = i ∧ l.toNode = j

/-- How many valid links lead to a node from nodes that are not `done`. -/
def pending (t : NodeTree α) (done : List Nat) (i : Nat) : Nat :=
  t.links.countP fun l => l.valid && l.toNode == i && !done.contains l.fromNode

theorem pending_eq_zero : t.pending done i = 0 ↔ ∀ j, t.Feeds j i → j ∈ done := by
  simp only [pending, countP_eq_zero, Feeds]
  grind

theorem pending_append (hi : i ∉ done) (j : Nat) : t.pending done j = t.pending (done ++ [i]) j +
      t.links.countP fun l => l.valid && l.toNode == j && l.fromNode == i := by
  rw [pending, countP_eq_countP_filter_add _ _ fun l => l.fromNode != i]
  simp only [pending, countP_filter]
  congr 1 <;> exact countP_congr fun l _ => by grind

theorem waiting_eq (h : t.Joined) (hi : i < t.nodes.size) : t.waiting i = t.pending [] i := by
  have hn : t.nodes[i]? = some t.nodes[i] := Array.getElem?_eq_getElem hi
  -- An input has one link at most, so that the first one stands for all of them.
  have hinpu : ∀ ks : List Nat, (ks.flatMap (t.linksTo i)).countP (·.valid) =
      ks.countP fun k => (t.linksTo i k).head?.any (·.valid) := by
    intro ks
    induction ks with
    | nil => rfl
    | cons k ks ih =>
      have hk := h.length_linksTo i k
      rw [flatMap_cons, countP_append, countP_cons, ih, Nat.add_comm]
      congr 1
      cases hl : t.linksTo i k with
      | nil => rfl
      | cons l ls =>
        rw [hl, length_cons] at hk
        obtain rfl : ls = [] := eq_nil_of_length_eq_zero (by omega)
        cases hv : l.valid <;> simp [hv]
  have hwait : t.waiting i = ↑((List.range t.nodes[i].inputs.size).countP fun k =>
      (t.linksTo i k).head?.any (·.valid)) := by
    rw [waiting, hn]
    refine congrArg Nat.cast (countP_congr fun k _ => ?_)
    cases t.linksTo i k <;> rfl
  rw [hwait, ← hinpu]
  refine congrArg Nat.cast (countP_flatMap_range.trans ?_)
  refine countP_congr fun l hl => ?_
  obtain ⟨n, s, hn, hs⟩ := h.exists_target hl
  grind

theorem countP_linksOut (h : t.Joined) (i j : Nat) :
    ((t.linksOut i).countP fun l => l.valid && l.toNode == j) =
      t.links.countP fun l => l.valid && l.toNode == j && l.fromNode == i := by
  unfold linksOut
  split
  · next n hn =>
    refine countP_flatMap_range.trans (countP_congr fun l hl => ?_)
    obtain ⟨n, s, hn, hs⟩ := h.exists_source hl
    grind
  · next hn =>
    refine (countP_eq_zero.2 fun l hl => ?_).symm
    obtain ⟨n, s, hn, hs⟩ := h.exists_source hl
    grind

theorem size_foldl_served (counts : Array Int) :
    (links.foldl (fun counts l => if l.valid then counts.modify l.toNode (· - 1) else counts)
      counts).size = counts.size := by
  induction links generalizing counts with
  | nil => rfl
  | cons l links ih =>
    rw [foldl_cons, ih]
    split
    · exact Array.size_modify
    · rfl

theorem getElem?_foldl_served (counts : Array Int) (j : Nat) :
    (links.foldl (fun counts l => if l.valid then counts.modify l.toNode (· - 1) else counts)
    counts)[j]? = counts[j]?.map (· - ↑(links.countP fun l => l.valid && l.toNode == j)) := by
  induction links generalizing counts with
  | nil => simp
  | cons l links ih =>
    rw [foldl_cons, ih, countP_cons]
    split
    · next hl =>
      rw [Array.getElem?_modify]
      split <;> cases counts[j]? <;> grind
    · next hl => simp [hl]

/-! ### One node after another -/

/-- The counts when some nodes are done. -/
structure Tally (t : NodeTree α) (done : List Nat) (counts : Array Int) : Prop where
  size : counts.size = t.nodes.size
  listed : ∀ i ∈ done, i < t.nodes.size
  nodup : done.Nodup
  closed : ∀ i ∈ done, ∀ c, counts[i]? = some c → c < 0
  waits : ∀ i < t.nodes.size, i ∉ done → counts[i]? = some ↑(t.pending done i)

theorem tally_start (h : t.Joined) : t.Tally [] ((Array.range t.nodes.size).map t.waiting) := by
  refine ⟨by simp, nofun, .nil, nofun, fun i hi _ => ?_⟩
  simp [hi, waiting_eq h hi]

variable {counts : Array Int}

/-- A node is the first one that is not done and waits for nothing. -/
structure IsNext (t : NodeTree α) (done : List Nat) (i : Nat) : Prop where
  lt_size : i < t.nodes.size
  new : i ∉ done
  ready : t.pending done i = 0
  first : ∀ j < i, j ∉ done → t.pending done j ≠ 0

theorem Tally.isNext (h : t.Tally done counts) (hi : counts.findIdx? (· == 0) = some i) :
    t.IsNext done i := by
  obtain ⟨hlt, hz, hfst⟩ := Array.findIdx?_eq_some_iff_getElem.1 hi
  have hzero : counts[i]? = some 0 := by rw [Array.getElem?_eq_getElem hlt, beq_iff_eq.1 hz]
  have hsize : i < t.nodes.size := h.size ▸ hlt
  have hnew : i ∉ done := fun hd => absurd (h.closed i hd 0 hzero) (by decide)
  refine ⟨hsize, hnew, ?_, fun j hj hd => ?_⟩
  · rw [h.waits i hsize hnew] at hzero
    exact Int.ofNat_eq_zero.1 (Option.some.inj hzero)
  · have hcount := h.waits j (hj.trans hsize) hd
    rw [Array.getElem?_eq_getElem (hj.trans hlt), Option.some_inj] at hcount
    simpa [hcount] using hfst j hj

/-- When as many nodes are done as there are all of them are. -/
theorem Tally.mem_done (h : t.Tally done counts) (hd : t.nodes.size ≤ done.length)
    (hi : i < t.nodes.size) : i ∈ done := by
  have hsub : done ⊆ List.range t.nodes.size := fun j hj => mem_range.2 (h.listed j hj)
  have hperm := (h.nodup.subperm hsub).perm_of_length_le (by simpa using hd)
  exact hperm.mem_iff.2 (mem_range.2 hi)

theorem getElem?_serve (ht : t.Joined) (counts : Array Int) (i j : Nat) :
    (t.serve counts i)[j]? = counts[j]?.map fun c => if j = i then -1 else
      c - ↑(t.links.countP fun l => l.valid && l.toNode == j && l.fromNode == i) := by
  rw [NodeTree.serve, Array.getElem?_setIfInBounds, size_foldl_served, getElem?_foldl_served,
    countP_linksOut ht]
  by_cases hj : j < counts.size
  · grind
  · grind

/-- A node is taken and serves its links. -/
theorem Tally.serve (h : t.Tally done counts) (ht : t.Joined)
    (hi : counts.findIdx? (· == 0) = some i) : t.Tally (done ++ [i]) (t.serve counts i) := by
  obtain ⟨hsize, hnew, -, -⟩ := h.isNext hi
  refine ⟨?_, ?_, ?_, ?_, ?_⟩
  · rw [NodeTree.serve, Array.size_setIfInBounds, size_foldl_served, h.size]
  · intro j hj
    rcases mem_append.1 hj with hj | hj
    · exact h.listed j hj
    · exact mem_singleton.1 hj ▸ hsize
  · exact nodup_append.2 ⟨h.nodup, nodup_singleton i, by grind⟩
  · -- The count of a node that is done can only go down further.
    intro j hj c hc
    rw [getElem?_serve ht] at hc
    obtain ⟨c', hc', rfl⟩ := Option.map_eq_some_iff.1 hc
    split
    · decide
    · next hne =>
      have := h.closed j (by simpa [hne] using hj) c' hc'
      omega
  · intro j hj hdone
    have hne : j ≠ i := by grind
    rw [getElem?_serve ht, h.waits j hj (by grind), pending_append hnew]
    simp [hne]

variable {fuel : Nat} {before after : List Nat} {j : Nat} (rank : Nat → Nat)

/-- Each node that is taken is the next one when it is taken. -/
theorem Tally.orderFrom_split (h : t.Tally done counts) (ht : t.Joined)
    (ho : t.orderFrom fuel counts = before ++ i :: after) : t.IsNext (done ++ before) i := by
  induction fuel generalizing done counts before with
  | zero => simp [orderFrom] at ho
  | succ fuel ih =>
    rw [orderFrom] at ho
    split at ho
    · next k hk =>
      cases before with
      | nil =>
        cases ho
        simpa using h.isNext hk
      | cons j before =>
        obtain ⟨rfl, hrest⟩ := List.cons.inj ho
        simpa using ih (h.serve ht hk) hrest
    · simp at ho

/-- Nodes that are never taken wait for others that are never taken. -/
theorem Tally.pending_of_not_mem (h : t.Tally done counts) (ht : t.Joined)
    (hf : t.nodes.size ≤ done.length + fuel) (hi : i < t.nodes.size)
    (hni : i ∉ done ++ t.orderFrom fuel counts) :
    t.pending (done ++ t.orderFrom fuel counts) i ≠ 0 := by
  induction fuel generalizing done counts with
  | zero => exact absurd (mem_append_left _ (h.mem_done hf hi)) hni
  | succ fuel ih =>
    rw [orderFrom] at hni ⊢
    split at hni
    · next k hk =>
      simpa using ih (h.serve ht hk) (by simp; omega) (by simpa using hni)
    · next hk =>
      -- No count is zero, and the count of a node that is not done is what it waits for.
      rw [append_nil] at hni ⊢
      have hne := Array.findIdx?_eq_none_iff.1 hk _ (Array.mem_of_getElem? (h.waits i hi hni))
      simpa using hne

/-- After as many rounds as there are nodes no node is left to take. -/
theorem Tally.orderFrom_add (h : t.Tally done counts) (ht : t.Joined)
    (hf : t.nodes.size ≤ done.length + fuel) (more : Nat) : t.orderFrom (fuel + more) counts =
    t.orderFrom fuel counts := by
  induction fuel generalizing done counts with
  | zero =>
    cases more with
    | zero => rfl
    | succ more =>
      rw [Nat.zero_add, orderFrom, orderFrom]
      split
      · next k hk => exact absurd (h.mem_done hf (h.isNext hk).lt_size) (h.isNext hk).new
      · rfl
  | succ fuel ih =>
    rw [Nat.succ_add, orderFrom, orderFrom]
    split
    · next k hk => rw [ih (h.serve ht hk) (by simp; omega)]
    · rfl

theorem Tally.nodup_orderFrom (h : t.Tally done counts) (ht : t.Joined) (fuel : Nat) :
    (done ++ t.orderFrom fuel counts).Nodup := by
  induction fuel generalizing done counts with
  | zero => simpa [orderFrom] using h.nodup
  | succ fuel ih =>
    rw [orderFrom]
    split
    · next k hk => simpa using ih (h.serve ht hk)
    · simpa using h.nodup

theorem isNext_of_order (ht : t.Joined) (ho : t.order = before ++ i :: after) : t.IsNext before i :=
  (tally_start ht).orderFrom_split ht ho

/-- **A node is taken after all nodes that its valid links come from.** -/
theorem source_before_of_order (ht : t.Joined) (ho : t.order = before ++ i :: after)
    (hj : t.Feeds j i) : j ∈ before :=
  pending_eq_zero.1 (isNext_of_order ht ho).ready j hj

/-- Valid links form no cycle. -/
def Acyclic (t : NodeTree α) : Prop :=
  ∀ i, ¬Relation.TransGen t.Feeds i i

/-- A link, valid or not, leads from one node to another. -/
def Wired (t : NodeTree α) (i j : Nat) : Prop :=
  ∃ l ∈ t.links, l.fromNode = i ∧ l.toNode = j

/-- Links that lead from lower to higher nodes form no cycle. -/
theorem not_wired_of_rank (h : ∀ l ∈ t.links, rank l.fromNode < rank l.toNode) (i : Nat) :
    ¬Relation.TransGen t.Wired i i := by
  have hlt : ∀ i j, Relation.TransGen t.Wired i j → rank i < rank j := by
    intro i j hij
    induction hij with
    | single hj =>
      obtain ⟨l, hl, rfl, rfl⟩ := hj
      exact h l hl
    | tail _ hj ih =>
      obtain ⟨l, hl, rfl, rfl⟩ := hj
      exact ih.trans (h l hl)
  exact fun hi => (hlt i i hi).false

theorem acyclic_of_rank (h : ∀ l ∈ t.links, rank l.fromNode < rank l.toNode) : t.Acyclic :=
  fun i hi => not_wired_of_rank rank h i (hi.lift id fun _ _ ⟨l, hl, _, hij⟩ => ⟨l, hl, hij⟩)

/-- A cycle of valid links leads to the node, or the node is on one. -/
def FollowsCycle (t : NodeTree α) (i : Nat) : Prop :=
  ∃ j, Relation.TransGen t.Feeds j j ∧ Relation.ReflTransGen t.Feeds j i

/-- A node that no cycle leads to is taken. -/
theorem mem_order_of_not_followsCycle (ht : t.Joined) (hi : i < t.nodes.size)
    (hc : ¬ t.FollowsCycle i) : i ∈ t.order := by
  have hfeeds : ∀ a b, t.Feeds a b → a < t.nodes.size := by
    rintro _ _ ⟨l, hl, -, rfl, -⟩
    obtain ⟨n, s, hn, -⟩ := ht.exists_source hl
    exact (Array.getElem?_eq_some_iff.1 hn).1
  have hacc : Acc t.Feeds i :=
    acc_of_finite (Set.finite_lt_nat t.nodes.size) hfeeds fun j hj hjj => hc ⟨j, hjj, hj⟩
  clear hc
  induction hacc with
  | intro i _ ih =>
    by_contra hn
    -- A node that is not taken waits for one that is not taken either.
    have hp := (tally_start ht).pending_of_not_mem ht (by simp) hi hn
    exact hp (pending_eq_zero.2 fun j hj => ih j hj (hfeeds j i hj))

theorem mem_before_of_order (ht : t.Joined) (hj : Relation.TransGen t.Feeds j i)
    (ho : t.order = before ++ i :: after) : j ∈ before := by
  induction hj generalizing before after with
  | single hj => exact source_before_of_order ht ho hj
  | tail _ hk ih =>
    obtain ⟨first, second, rfl⟩ := append_of_mem (source_before_of_order ht ho hk)
    exact mem_append_left _ (ih (by simpa using ho))

/-- A node is taken if and only if no cycle leads to it. -/
theorem mem_order_iff (ht : t.Joined) (hi : i < t.nodes.size) : i ∈ t.order ↔ ¬ t.FollowsCycle
    i := by
  refine ⟨?_, mem_order_of_not_followsCycle ht hi⟩
  rintro hmem ⟨j, hcyc, hpath⟩
  obtain ⟨before, after, ho⟩ := append_of_mem hmem
  -- A node on a cycle would be taken before itself.
  obtain ⟨first, second, rfl⟩ := append_of_mem (mem_before_of_order ht (hcyc.trans_left hpath) ho)
  rw [append_assoc, cons_append] at ho
  exact (isNext_of_order ht ho).new (mem_before_of_order ht hcyc ho)

/-- **The order of evaluation.**  The loop takes no node after as many rounds as there are
nodes.  No node is taken twice; the nodes that its valid links come from are taken before a node;
exactly the nodes that no cycle of valid links leads to are taken; and each time the first node is
taken that is ready. -/
theorem order_topological (ht : t.Joined) :
    (∀ more, t.orderFrom (t.nodes.size + more) ((Array.range t.nodes.size).map t.waiting) = t.order)
    ∧ t.order.Nodup ∧
    (∀ i j, t.Feeds i j → j ∈ t.order →
      ∃ before between after, t.order = before ++ i :: between ++ j :: after) ∧
    (∀ i < t.nodes.size, i ∉ t.order ↔ t.FollowsCycle i) ∧
    ∀ before i after, t.order = before ++ i :: after →
      IsLeast { j | j < t.nodes.size ∧ j ∉ before ∧ ∀ k, t.Feeds k j → k ∈ before } i := by
  refine ⟨fun more => (tally_start ht).orderFrom_add ht (by simp) more,
    (tally_start ht).nodup_orderFrom ht _, fun i j hij hj => ?_, fun i hi => ?_,
    fun before i after ho => ?_⟩
  · obtain ⟨first, after, ho⟩ := append_of_mem hj
    obtain ⟨before, between, rfl⟩ := append_of_mem (source_before_of_order ht ho hij)
    exact ⟨before, between, after, ho⟩
  · rw [mem_order_iff ht hi, not_not]
  · have hnext := isNext_of_order ht ho
    refine ⟨⟨hnext.lt_size, hnext.new, pending_eq_zero.1 hnext.ready⟩, ?_⟩
    rintro j ⟨-, hnew, hready⟩
    exact not_lt.1 fun hj => hnext.first j hj hnew (pending_eq_zero.2 hready)

/-- A node that has nothing but sockets. -/
def bareNode (id : String) (inputs outputs : List String) : ShaderNode Unit where
  id
  name := id
  type := ""
  settings := []
  image := none
  inputs := (inputs.map fun name => ⟨name, .value, .nothing, name⟩).toArray
  outputs := (outputs.map fun name => ⟨name, .value, .nothing, name⟩).toArray

/-- Nodes with a cycle, a link from a node to itself and an invalid link. -/
def tangled : NodeTree Unit where
  name := "Tangled"
  nodes := (["A", "B", "C", "D", "E"].map fun name => bareNode name ["X", "Y"] ["Z"]).toArray
  links := [⟨3, 0, 0, 0, true⟩, ⟨0, 0, 1, 0, true⟩, ⟨1, 0, 2, 0, true⟩, ⟨2, 0, 1, 1, true⟩,
    ⟨4, 0, 4, 0, true⟩, ⟨1, 0, 3, 0, false⟩]

theorem order_topological_tangled : tangled.order = [3, 0] ∧ tangled.FollowsCycle 2 ∧
    tangled.FollowsCycle 4 := by
  have hord : tangled.order = [3, 0] := by decide +kernel
  obtain ⟨-, -, -, hcyc, -⟩ := order_topological (t := tangled) ⟨by decide, by decide, by decide⟩
  refine ⟨hord, (hcyc 2 (by decide)).1 ?_, (hcyc 4 (by decide)).1 ?_⟩
  · simp [hord]
  · simp [hord]

end NodeTree

end SceneExport
