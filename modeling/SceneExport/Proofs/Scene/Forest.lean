import Mathlib.Data.List.Perm.Subperm
import Mathlib.Logic.Relation
import SceneExport.Proofs.Scene.Ancestors
import Mathlib.Data.List.Nodup

/-!
# Forests

The objects of a scene form a forest if all parents are in the scene and no object is above itself
(`Scene.IsForest`).  The objects above an object are found by climbing, which stops after as many
steps as the scene has objects.  In a forest that is enough: climbing meets no object twice
(`Scene.climb_nodup`), so it ends at a root (`Scene.IsForest.exists_root`), and it finds exactly the
objects above (`Scene.IsForest.mem_ancestors`).

Whether a scene is a forest can be decided by climbing from each object (`Scene.isForest_iff`).

The objects that take part in an export are those that are accepted and all above them
(`Scene.IsForest.mem_valid`).  `Scene.order` lists them from the roots down; in a forest it has each
of them once (`Scene.IsForest.nodup_order`, `Scene.IsForest.mem_order`), after its parent
(`Scene.parent_before`).
-/

namespace SceneExport.Scene

open List

variable {α : Type} {s : Scene α} {id p q root : ObjectId} {height depth : Nat}

/-- An object is above another: its parent, or further up. -/
def Above (s : Scene α) (p id : ObjectId) : Prop :=
  Relation.TransGen (fun c q => s.parent? c = some q) id p

/-- The parents of objects are objects of the scene, and no object is above itself. -/
structure IsForest (s : Scene α) : Prop where
  present : ∀ {id p}, s.parent? id = some p → p < s.objects.size
  acyclic : ∀ id, ¬ s.Above id id

theorem lt_of_parent? (h : s.parent? id = some p) : id < s.objects.size := by
  obtain ⟨o, ho, -⟩ := Option.bind_eq_some_iff.1 h
  exact (Array.getElem?_eq_some_iff.1 ho).1

/-! ### Objects above an object -/

theorem above_iff (h : s.parent? id = some q) : s.Above p id ↔ p = q ∨ s.Above p q := by
  unfold Above
  rw [Relation.TransGen.head'_iff]
  constructor
  · rintro ⟨q', hq', hp⟩
    obtain rfl : q' = q := Option.some.inj (hq'.symm.trans h)
    rcases Relation.reflTransGen_iff_eq_or_transGen.1 hp with rfl | hp
    · exact .inl rfl
    · exact .inr hp
  · rintro (rfl | hp)
    · exact ⟨p, h, .refl⟩
    · exact ⟨q, h, hp.to_reflTransGen⟩

theorem not_above_of_none (h : s.parent? id = none) : ¬ s.Above p id := by
  intro hp
  obtain ⟨q, hq, -⟩ := Relation.TransGen.head'_iff.1 hp
  rw [h] at hq
  cases hq

theorem Above.trans (h : s.Above p q) (h' : s.Above q id) : s.Above p id := Relation.TransGen.trans
    h' h

theorem above_total {c : ObjectId} (hp : c = p ∨ s.Above p c) (hq : c = q ∨ s.Above q c) :
    p = q ∨ s.Above q p ∨ s.Above p q := by
  have huniq : Relator.RightUnique fun c q => s.parent? c = some q :=
    fun c q q' h h' => Option.some.inj (h.symm.trans h')
  have hp' := Relation.reflTransGen_iff_eq_or_transGen.2 (hp.imp Eq.symm id)
  have hq' := Relation.reflTransGen_iff_eq_or_transGen.2 (hq.imp Eq.symm id)
  rcases hp'.total_of_right_unique huniq hq' with h | h
  · rcases Relation.reflTransGen_iff_eq_or_transGen.1 h with h | h
    · exact .inl h.symm
    · exact .inr (.inl h)
  · rcases Relation.reflTransGen_iff_eq_or_transGen.1 h with h | h
    · exact .inl h
    · exact .inr (.inr h)

theorem above_of_mem_climb (h : p ∈ s.climb height id) : s.Above p id := by
  induction height generalizing id with
  | zero => cases h
  | succ height ih =>
    cases hq : s.parent? id with
    | none =>
      rw [climb_of_none hq] at h
      cases h
    | some q =>
      rw [climb_of_some hq] at h
      exact (above_iff hq).2 ((mem_cons.1 h).imp_right ih)

theorem Below.above (h : s.Below depth root id) : id = root ∨ s.Above root id := by
  induction h with
  | self depth id => exact .inl rfl
  | child hc _ ih =>
    rcases ih with rfl | ih
    · exact .inr ((above_iff hc).2 (.inl rfl))
    · exact .inr (((above_iff hc).2 (.inl rfl)).trans ih)

/-! ### Climbing to a root -/

theorem climb_nodup (hs : ∀ id, ¬ s.Above id id) (height : Nat) (id : ObjectId) :
    (id :: s.climb height id).Nodup := by
  induction height generalizing id with
  | zero => simp [climb]
  | succ height ih =>
    refine nodup_cons.2 ⟨fun h => hs id (above_of_mem_climb h), ?_⟩
    cases hp : s.parent? id with
    | none =>
      rw [climb_of_none hp]
      exact nodup_nil
    | some p =>
      rw [climb_of_some hp]
      exact ih p

/-- Climbing goes on as long as it meets no root. -/
theorem length_climb (h : ∀ root ∈ id :: s.climb height id, s.parent? root ≠ none) :
    (s.climb height id).length = height := by
  induction height generalizing id with
  | zero => rfl
  | succ height ih =>
    cases hp : s.parent? id with
    | none => exact absurd hp (h id mem_cons_self)
    | some p =>
      rw [climb_of_some hp] at h ⊢
      rw [length_cons, ih fun root hroot => h root (mem_cons_of_mem _ hroot)]

theorem IsForest.lt_of_above (hs : s.IsForest) (h : s.Above p id) : p < s.objects.size := by
  obtain ⟨_, -, hp⟩ := Relation.TransGen.tail'_iff.1 h
  exact hs.present hp

/-- There is no room to climb without end. -/
theorem IsForest.exists_root (hs : s.IsForest) (hid : id < s.objects.size) :
    ∃ root ∈ id :: s.ancestors id, root < s.objects.size ∧ s.parent? root = none := by
  have hlt : ∀ root ∈ id :: s.ancestors id, root < s.objects.size := by
    intro root hroot
    rcases mem_cons.1 hroot with rfl | hroot
    · exact hid
    · exact hs.lt_of_above (above_of_mem_climb hroot)
  by_contra hnone
  push Not at hnone
  have hlen : (s.ancestors id).length = s.objects.size :=
    length_climb fun root hroot => hnone root hroot (hlt root hroot)
  -- More objects than the scene has would be above one another.
  have hsub : id :: s.ancestors id ⊆ List.range s.objects.size :=
    fun root hroot => mem_range.2 (hlt root hroot)
  have hnd : (id :: s.ancestors id).Nodup := climb_nodup hs.acyclic _ id
  have hle := (subperm_of_subset hnd hsub).length_le
  rw [length_cons, length_range, hlen] at hle
  omega

theorem IsForest.ancestors_eq (hs : s.IsForest) (hid : s.parent? id = some p) :
    s.ancestors id = p :: s.ancestors p := by
  obtain ⟨root, hmem, -, hroot⟩ := hs.exists_root (lt_of_parent? hid)
  exact Scene.ancestors_eq hid hroot hmem

theorem IsForest.down (hs : s.IsForest) {P : ObjectId → Prop} (root : ∀ id, s.parent? id = none →
    P id) (child : ∀ id p, s.parent? id = some p → P p → P id) (id : ObjectId) : P id := by
  induction hn : (s.ancestors id).length generalizing id with
  | zero =>
    refine root id ?_
    by_contra hne
    obtain ⟨p, hp⟩ := Option.ne_none_iff_exists'.1 hne
    rw [hs.ancestors_eq hp] at hn
    cases hn
  | succ n ih =>
    cases hp : s.parent? id with
    | none => exact root id hp
    | some p =>
      rw [hs.ancestors_eq hp, length_cons, Nat.add_right_cancel_iff] at hn
      exact child id p hp (ih p hn)

/-- Climbing finds all objects above an object. -/
theorem IsForest.mem_ancestors (hs : s.IsForest) : p ∈ s.ancestors id ↔ s.Above p id := by
  refine ⟨above_of_mem_climb, fun h => ?_⟩
  induction h using Relation.TransGen.head_induction_on with
  | single hp =>
    rw [hs.ancestors_eq hp]
    exact mem_cons_self
  | head hq _ ih =>
    rw [hs.ancestors_eq hq]
    exact mem_cons_of_mem _ ih

/-! ### Deciding whether a scene is a forest -/

theorem parent?_ne_none_of_cycle (hcyc : s.Above id id) (h : p = id ∨ s.Above p id) :
    s.parent? p ≠ none := by
  have hup : s.Above id p := by
    rcases h with rfl | h
    · exact hcyc
    -- One step up from an object with `id` above it leads to `id` or stays below it.
    induction h with
    | single hp =>
      rcases (above_iff hp).1 hcyc with rfl | h
      · exact hcyc
      · exact h
    | tail _ hp ih =>
      rcases (above_iff hp).1 ih with rfl | h
      · exact hcyc
      · exact h
  intro hnone
  exact not_above_of_none hnone hup

theorem isForest_iff : s.IsForest ↔ ∀ id < s.objects.size,
    ∃ root ∈ id :: s.ancestors id, root < s.objects.size ∧ s.parent? root = none := by
  refine ⟨fun hs id => hs.exists_root, fun h => ⟨fun {id p} hp => ?_, fun id hcyc => ?_⟩⟩
  · obtain ⟨root, hmem, hlt, hroot⟩ := h id (lt_of_parent? hp)
    rw [Scene.ancestors_eq hp hroot hmem] at hmem
    cases hq : s.parent? p with
    | some q => exact lt_of_parent? hq
    | none =>
      -- Nothing is above the parent, so it is the root that climbing ends at.
      rw [ancestors, climb_of_none hq] at hmem
      rcases mem_cons.1 hmem with rfl | hmem
      · rw [hroot] at hp
        cases hp
      · rwa [mem_singleton.1 hmem] at hlt
  · obtain ⟨q, hq, -⟩ := Relation.TransGen.head'_iff.1 hcyc
    obtain ⟨root, hmem, -, hroot⟩ := h id (lt_of_parent? hq)
    refine parent?_ne_none_of_cycle hcyc ?_ hroot
    exact (mem_cons.1 hmem).imp_right above_of_mem_climb

instance (s : Scene α) : Decidable s.IsForest :=
  decidable_of_iff _ isForest_iff.symm

variable {α : Type} {c : ObjectId} {valid : List ObjectId}
  {ids : List ObjectId}

/-! ### Closed upwards -/

/-- With an object also its parent is in the list. -/
def UpClosed (s : Scene α) (valid : List ObjectId) : Prop :=
  ∀ id ∈ valid, ∀ p, s.parent? id = some p → p ∈ valid

theorem UpClosed.of_above (h : s.UpClosed valid) (hp : s.Above p id) (hid : id ∈ valid) :
    p ∈ valid := by
  induction hp with
  | single hp => exact h _ hid _ hp
  | tail _ hp ih => exact h _ ih _ hp

theorem UpClosed.of_below {root : ObjectId} (h : s.UpClosed valid) (hid : s.Below depth root id)
    (hmem : id ∈ valid) : root ∈ valid := by
  rcases hid.above with rfl | habove
  · exact hmem
  · exact h.of_above habove hmem

/-- From an object that is there on nothing is missing. -/
theorem mem_takeWhile_climb (h : s.UpClosed valid) (hp : p ∈ id :: s.climb height id) :
    p ∈ valid ∨ p ∈ (id :: s.climb height id).takeWhile fun i => !valid.contains i := by
  induction height generalizing id with
  | zero =>
    obtain rfl : p = id := by simpa [climb] using hp
    by_cases hmem : p ∈ valid
    · exact .inl hmem
    · exact .inr (by simp [hmem])
  | succ height ih =>
    by_cases hmem : id ∈ valid
    · refine .inl ?_
      rcases mem_cons.1 hp with rfl | hp
      · exact hmem
      · exact h.of_above (above_of_mem_climb hp) hmem
    rw [takeWhile_cons_of_pos (by simpa using hmem)]
    rcases mem_cons.1 hp with rfl | hp
    · exact .inr mem_cons_self
    cases hq : s.parent? id with
    | none =>
      rw [climb_of_none hq] at hp
      cases hp
    | some q =>
      rw [climb_of_some hq] at hp ⊢
      exact (ih hp).imp_right (mem_cons_of_mem _)

theorem mem_withAncestors (h : s.UpClosed valid) :
    p ∈ s.withAncestors valid id ↔ p ∈ valid ∨ p ∈ id :: s.ancestors id := by
  unfold withAncestors
  rw [mem_append]
  refine ⟨Or.imp_right fun hp => (takeWhile_sublist _).subset hp, ?_⟩
  rintro (hp | hp)
  · exact .inl hp
  · exact mem_takeWhile_climb h hp

theorem IsForest.upClosed_withAncestors (hs : s.IsForest) (h : s.UpClosed valid) (id : ObjectId) :
    s.UpClosed (s.withAncestors valid id) := by
  intro q hq p hp
  rw [mem_withAncestors h] at hq ⊢
  rcases hq with hq | hq
  · exact .inl (h q hq p hp)
  right
  rw [mem_cons, hs.mem_ancestors] at hq ⊢
  have hpq : s.Above p q := (above_iff hp).2 (.inl rfl)
  rcases hq with rfl | hq
  · exact .inr hpq
  · exact .inr (hpq.trans hq)

theorem mem_withAncestors_self : id ∈ s.withAncestors valid id := by
  unfold withAncestors
  by_cases hmem : id ∈ valid
  · exact mem_append_left _ hmem
  · exact mem_append_right _ (by simp [hmem])

theorem upClosed_nil : s.UpClosed [] := by
  intro id hid
  cases hid

theorem IsForest.foldl_withAncestors (hs : s.IsForest) (h : s.UpClosed valid) :
    s.UpClosed (ids.foldl s.withAncestors valid) ∧ ∀ p, p ∈ ids.foldl s.withAncestors valid ↔
      p ∈ valid ∨ ∃ id ∈ ids, p = id ∨ s.Above p id := by
  induction ids generalizing valid with
  | nil => exact ⟨h, fun p => by simp⟩
  | cons id ids ih =>
    obtain ⟨hclos, hmem⟩ := ih (hs.upClosed_withAncestors h id)
    refine ⟨hclos, fun p => ?_⟩
    rw [foldl_cons, hmem, mem_withAncestors h, mem_cons, hs.mem_ancestors]
    simp only [exists_mem_cons_iff, or_assoc]

theorem subset_foldl_withAncestors (valid ids : List ObjectId) : valid ⊆ ids.foldl s.withAncestors
    valid := by
  induction ids generalizing valid with
  | nil => exact List.Subset.refl valid
  | cons id ids ih => exact List.Subset.trans (subset_append_left _ _) (ih _)

/-! ### The selection -/

variable {cfg : Settings}

theorem mem_accepted : id ∈ (s.selection cfg).accepted ↔
    ∃ o, s.objects[id]? = some o ∧ s.accepts cfg o = true := by
  unfold selection
  rw [mem_filter, mem_range]
  cases ho : s.objects[id]? with
  | none => simp
  | some o => simp [(Array.getElem?_eq_some_iff.1 ho).1]

/-- What is accepted takes part, in whatever scene. -/
theorem mem_valid_of_accepted (h : id ∈ (s.selection cfg).accepted) :
    id ∈ (s.selection cfg).valid := by
  obtain ⟨before, after, hsplit⟩ := append_of_mem h
  show id ∈ (s.selection cfg).accepted.foldl s.withAncestors []
  rw [hsplit, foldl_append, foldl_cons]
  exact subset_foldl_withAncestors _ after mem_withAncestors_self

theorem IsForest.upClosed_valid (hs : s.IsForest) : s.UpClosed (s.selection cfg).valid :=
  (hs.foldl_withAncestors upClosed_nil).1

/-- The objects that take part in an export are those that are accepted and all above them. -/
theorem IsForest.mem_valid (hs : s.IsForest) : id ∈ (s.selection cfg).valid ↔
    ∃ a ∈ (s.selection cfg).accepted, id = a ∨ s.Above id a := by
  show id ∈ (s.selection cfg).accepted.foldl s.withAncestors [] ↔ _
  rw [(hs.foldl_withAncestors upClosed_nil).2]
  simp

/-! ### Going down from an object -/

/-- An object and those below it down to a depth, each before the objects below it, as far as they
are selected. -/
def preorder (s : Scene α) (valid : List ObjectId) : Nat → ObjectId → List ObjectId
  | 0, _ => []
  | depth + 1, id =>
    if valid.contains id then id :: (s.children id).flatMap (s.preorder valid depth) else []

theorem preorder_of_mem (h : id ∈ valid) (depth : Nat) : s.preorder valid (depth + 1) id =
    id :: (s.children id).flatMap (s.preorder valid depth) := by
  rw [preorder, if_pos (by simpa using h)]

theorem preorder_of_not_mem (h : id ∉ valid) (depth : Nat) : s.preorder valid depth id = [] := by
  cases depth with
  | zero => rfl
  | succ depth => rw [preorder, if_neg (by simpa using h)]

theorem UpClosed.mem_preorder (h : s.UpClosed valid) :
    c ∈ s.preorder valid depth id ↔ c ∈ valid ∧ s.Below depth id c := by
  induction depth generalizing id with
  | zero =>
    refine ⟨fun hc => (not_mem_nil hc).elim, ?_⟩
    rintro ⟨-, hc⟩
    cases hc
  | succ depth ih =>
    by_cases hid : id ∈ valid
    · rw [preorder_of_mem hid, mem_cons, mem_flatMap]
      constructor
      · rintro (rfl | ⟨d, hd, hc⟩)
        · exact ⟨hid, .self _ _⟩
        · obtain ⟨hc, hdn⟩ := ih.1 hc
          exact ⟨hc, .child (mem_children.1 hd) hdn⟩
      · rintro ⟨hc, hdn⟩
        cases hdn with
        | self => exact .inl rfl
        | child hd hdn => exact .inr ⟨_, mem_children.2 hd, ih.2 ⟨hc, hdn⟩⟩
    · rw [preorder_of_not_mem hid]
      refine ⟨fun hc => (not_mem_nil hc).elim, fun ⟨hc, hdn⟩ => ?_⟩
      exact absurd (h.of_below hdn hc) hid

/-- Objects with one parent, or without a parent, are not above one another. -/
theorem IsForest.not_above_sibling (hs : s.IsForest) {d : ObjectId}
    (h : s.parent? c = s.parent? d) :
    ¬ s.Above d c := by
  intro hd
  cases hp : s.parent? c with
  | none => exact not_above_of_none hp hd
  | some p =>
    have hpd : s.Above p d := (above_iff (h.symm.trans hp)).2 (.inl rfl)
    rcases (above_iff hp).1 hd with rfl | hd
    · exact hs.acyclic d hpd
    · exact hs.acyclic p (hpd.trans hd)

/-- Siblings have nothing below them in common. -/
theorem IsForest.nodup_flatMap_preorder (hs : s.IsForest) (h : s.UpClosed valid)
    {parent : Option ObjectId} (hpar : ∀ id ∈ ids, s.parent? id = parent) (hids : ids.Nodup)
    (hnd : ∀ id ∈ ids, (s.preorder valid depth id).Nodup) :
    (ids.flatMap (s.preorder valid depth)).Nodup := by
  rw [nodup_flatMap]
  refine ⟨hnd, List.Pairwise.imp_of_mem (fun {c d} hc hd hne => ?_) hids⟩
  intro x hx hx'
  have hcd : s.parent? c = s.parent? d := (hpar c hc).trans (hpar d hd).symm
  rcases above_total (h.mem_preorder.1 hx).2.above (h.mem_preorder.1 hx').2.above with heq | hd | hc
  · exact hne heq
  · exact hs.not_above_sibling hcd hd
  · exact hs.not_above_sibling hcd.symm hc

theorem nodup_children : (s.children id).Nodup := nodup_range.filter _

theorem IsForest.nodup_preorder (hs : s.IsForest) (h : s.UpClosed valid) :
    (s.preorder valid depth id).Nodup := by
  induction depth generalizing id with
  | zero => exact nodup_nil
  | succ depth ih =>
    by_cases hid : id ∈ valid
    · rw [preorder_of_mem hid, nodup_cons]
      refine ⟨fun hmem => ?_, ?_⟩
      · -- An object that is below one of its children is above itself.
        obtain ⟨c, hc, hmem⟩ := mem_flatMap.1 hmem
        have hup : s.Above id c := (above_iff (mem_children.1 hc)).2 (.inl rfl)
        rcases (h.mem_preorder.1 hmem).2.above with rfl | habove
        · exact hs.acyclic id hup
        · exact hs.acyclic id (hup.trans habove)
      · exact hs.nodup_flatMap_preorder h (fun c hc => mem_children.1 hc) nodup_children fun c _ =>
          ih
    · rw [preorder_of_not_mem hid]
      exact nodup_nil

/-- Below the object that it starts from, each object comes after its parent. -/
theorem parent_before_preorder (hc : c ∈ s.preorder valid depth id) (hp : s.parent? c = some p) :
    c = id ∨ [p, c].Sublist (s.preorder valid depth id) := by
  induction depth generalizing id with
  | zero => cases hc
  | succ depth ih =>
    by_cases hid : id ∈ valid
    · rw [preorder_of_mem hid] at hc ⊢
      rcases mem_cons.1 hc with rfl | hc
      · exact .inl rfl
      right
      obtain ⟨d, hd, hcd⟩ := mem_flatMap.1 hc
      rcases ih hcd with rfl | hsub
      · obtain rfl : id = p := Option.some.inj ((mem_children.1 hd).symm.trans hp)
        exact (singleton_sublist.2 hc).cons_cons id
      · have hin : s.preorder valid depth d ∈ (s.children id).map (s.preorder valid depth) :=
          mem_map_of_mem hd
        rw [flatMap_def]
        exact (hsub.trans (sublist_flatten_of_mem hin)).cons id
    · rw [preorder_of_not_mem hid] at hc
      cases hc

/-! ### The order of an export -/

/-- The selected objects from the roots down. -/
def order (s : Scene α) (selection : Selection) : List ObjectId :=
  (s.selectedRoots selection).flatMap (s.preorder selection.valid (s.objects.size + 1))

variable {selection : Selection}

theorem mem_selectedRoots : id ∈ s.selectedRoots selection ↔
    id < s.objects.size ∧ id ∈ selection.valid ∧ s.parent? id = none := by
  unfold selectedRoots parent?
  rw [mem_filter, mem_range, Bool.and_eq_true, Option.isNone_iff_eq_none, contains_iff_mem]

theorem IsForest.nodup_order (hs : s.IsForest) : (s.order (s.selection cfg)).Nodup :=
  hs.nodup_flatMap_preorder hs.upClosed_valid (fun _ h => (mem_selectedRoots.1 h).2.2)
    (nodup_range.filter _) fun _ _ => hs.nodup_preorder hs.upClosed_valid

theorem IsForest.mem_order (hs : s.IsForest) :
    id ∈ s.order (s.selection cfg) ↔ id ∈ (s.selection cfg).valid := by
  have hclos : s.UpClosed (s.selection cfg).valid := hs.upClosed_valid
  unfold order
  rw [mem_flatMap]
  refine ⟨fun ⟨_, _, h⟩ => (hclos.mem_preorder.1 h).1, fun h => ?_⟩
  have hlt : id < s.objects.size := by
    obtain ⟨a, ha, hid⟩ := hs.mem_valid.1 h
    obtain ⟨o, ho, -⟩ := mem_accepted.1 ha
    rcases hid with rfl | hid
    · exact (Array.getElem?_eq_some_iff.1 ho).1
    · exact hs.lt_of_above hid
  obtain ⟨root, hmem, hrootl, hroot⟩ := hs.exists_root hlt
  have hdn := below_of_climb hmem
  exact ⟨root, mem_selectedRoots.2 ⟨hrootl, hclos.of_below hdn h, hroot⟩, hclos.mem_preorder.2
    ⟨h, hdn⟩⟩

theorem parent_before (hc : c ∈ s.order selection) (hp : s.parent? c = some p) :
    [p, c].Sublist (s.order selection) := by
  obtain ⟨root, hroot, hc⟩ := mem_flatMap.1 hc
  rcases parent_before_preorder hc hp with rfl | hsub
  · rw [(mem_selectedRoots.1 hroot).2.2] at hp
    cases hp
  · unfold order
    rw [flatMap_def]
    exact hsub.trans (sublist_flatten_of_mem (mem_map_of_mem hroot))

end SceneExport.Scene
