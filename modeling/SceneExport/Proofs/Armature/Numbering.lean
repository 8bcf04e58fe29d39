import SceneExport.Proofs.Export.Lasting
import SceneExport.Proofs.Mesh.Surfaces

/-!
# The numbers of bones

The line of a bone leads from it over the bones above to one without a parent (`Armature.Line`).  In
a forest each bone has a line (`Armature.IsForest`), and no line meets a bone twice, so there is
room for it in a walk down that goes as deep as there are bones.  The walk therefore comes to every
bone, and to no bone before one of its own line (`Armature.order_pairwise`).
-/

namespace SceneExport

open List

theorem Record.setAll_eq {β : Type} {r entries : Record β} (h : ((r ++ entries).map Prod.fst).Nodup)
    : r.setAll entries = r ++ entries := by
  induction entries generalizing r with
  | nil => exact (append_nil r).symm
  | cons e entries ih =>
    have hset : r.set e.1 e.2 = r ++ [e] := by
      have hnew : e.1 ∉ r.map Prod.fst := by
        rw [map_append, map_cons] at h
        exact fun hmem => (nodup_append.1 h).2.2 _ hmem _ mem_cons_self rfl
      clear h ih
      induction r with
      | nil => rfl
      | cons f r ih =>
        have hne : ¬ f.1 = e.1 := fun he => hnew (by simp [he])
        have hrest := ih fun hmem => hnew (mem_cons_of_mem _ hmem)
        simp [Record.set, hne, hrest]
    show (r.set e.1 e.2).setAll entries = _
    rw [hset, ih (by simpa using h), append_assoc, singleton_append]

namespace Armature

theorem getElem?_filterMap {β γ : Type} {f : β → Option γ} {l : List β}
    (h : ∀ x ∈ l, (f x).isSome = true) (k : Nat) : (l.filterMap f)[k]? = l[k]?.bind f := by
  induction l generalizing k with
  | nil => rfl
  | cons x l ih =>
    obtain ⟨y, hy⟩ := Option.isSome_iff_exists.1 (h x mem_cons_self)
    rw [filterMap_cons_some hy]
    cases k with
    | zero => simp [hy]
    | succ k => simpa using ih (fun x hx => h x (mem_cons_of_mem _ hx)) k

variable {α : Type} {a : Armature α} {i j k m p root : Nat} {path path' : List Nat}

/-! ### Lines of bones -/

/-- The bone above a bone. -/
def parent? (a : Armature α) (i : Nat) : Option Nat :=
  a.bones[i]?.bind (·.parent)

/-- The bones from a bone up to one without a parent. -/
inductive Line (a : Armature α) : Nat → List Nat → Prop
  | root {i : Nat} (h : a.parent? i = none) : Line a i [i]
  | child {i p : Nat} {path : List Nat} (h : a.parent? i = some p) (hp : Line a p path) :
      Line a i (i :: path)

/-- The parents of bones are bones of the armature, and each bone has a line. -/
structure IsForest (a : Armature α) : Prop where
  present : ∀ {i p}, a.parent? i = some p → p < a.bones.size
  lines : ∀ i, ∃ path, a.Line i path

namespace Line

theorem head (h : a.Line i path) : path[0]? = some i := by
  cases h <;> rfl

theorem unique (h : a.Line i path) (h' : a.Line i path') : path = path' := by
  induction h generalizing path' with
  | root hi =>
    cases h' with
    | root => rfl
    | child hp => simp [hi] at hp
  | child hp _ ih =>
    cases h' with
    | root hi => simp [hi] at hp
    | child hp' h' =>
      cases hp.symm.trans hp'
      rw [ih h']

/-- The rest of a line is the line of the bone that it begins with. -/
theorem drop (h : a.Line i path) (hj : path[k]? = some j) : a.Line j (path.drop k) := by
  induction h generalizing k with
  | root hi =>
    cases k with
    | zero =>
      cases hj
      exact .root hi
    | succ k => simp at hj
  | child hp hline ih =>
    cases k with
    | zero =>
      cases hj
      exact .child hp hline
    | succ k => exact ih hj

/-- Above each bone of a line stands the bone above it. -/
theorem next (h : a.Line i path) (hj : path[k]? = some j) : path[k + 1]? = a.parent? j := by
  have hdrop := h.drop hj
  have hnext : path[k + 1]? = (path.drop k)[1]? := by rw [getElem?_drop]
  rw [hnext]
  generalize path.drop k = rest at hdrop
  cases hdrop with
  | root hi => exact hi.symm
  | child hp hline => exact hline.head.trans hp.symm

/-- No bone is met twice. -/
theorem index_unique (h : a.Line i path) (hk : path[k]? = some j) (hm : path[m]? = some j) : k =
    m := by
  have hlen := congrArg List.length ((h.drop hk).unique (h.drop hm))
  have hk' := (List.getElem?_eq_some_iff.1 hk).1
  have hm' := (List.getElem?_eq_some_iff.1 hm).1
  rw [List.length_drop, List.length_drop] at hlen
  omega

theorem nodup (h : a.Line i path) : path.Nodup := by
  refine nodup_iff_getElem?_ne_getElem?.2 fun k m hlt hm heq => ?_
  have := h.index_unique (heq.trans (getElem?_eq_getElem hm)) (getElem?_eq_getElem hm)
  omega

theorem lt_size (hfor : a.IsForest) (h : a.Line i path) (hi : i < a.bones.size) (hj : j ∈ path) :
    j < a.bones.size := by
  induction h with
  | root => rwa [mem_singleton.1 hj]
  | child hp _ ih =>
    rcases mem_cons.1 hj with rfl | hj
    · exact hi
    · exact ih (hfor.present hp) hj

theorem length_le (hfor : a.IsForest) (h : a.Line i path) (hi : i < a.bones.size) :
    path.length ≤ a.bones.size := by
  have hsub : path ⊆ List.range a.bones.size := fun j hj => mem_range.2 (h.lt_size hfor hi hj)
  simpa using (subperm_of_subset h.nodup hsub).length_le

end Line

theorem climb_eq {height : Nat} (hline : a.Line i path) (hlen : path.length ≤ height) :
    a.climb height (some i) = path := by
  induction hline generalizing height with
  | root hi =>
    obtain ⟨height, rfl⟩ := Nat.exists_eq_succ_of_ne_zero (Nat.ne_zero_of_lt hlen)
    unfold parent? at hi
    rw [climb, hi]
    cases height <;> rfl
  | child hp _ ih =>
    obtain ⟨height, rfl⟩ := Nat.exists_eq_succ_of_ne_zero (Nat.ne_zero_of_lt hlen)
    have hstep := ih (Nat.le_of_succ_le_succ hlen)
    unfold parent? at hp
    rw [climb, hp, hstep]

theorem mem_children : j ∈ a.children i ↔ a.parent? j = some i := by
  unfold children parent?
  rw [mem_filter, mem_range, beq_iff_eq]
  refine ⟨fun h => h.2, fun h => ⟨?_, h⟩⟩
  obtain ⟨b, hb, -⟩ := Option.bind_eq_some_iff.1 h
  exact (Array.getElem?_eq_some_iff.1 hb).1

theorem mem_roots : i ∈ a.roots ↔ i < a.bones.size ∧ a.parent? i = none := by
  simp [roots, parent?, mem_filter]

theorem children_nodup : (a.children i).Nodup := nodup_range.filter _

theorem roots_nodup : a.roots.Nodup := nodup_range.filter _

/-! ### Going down -/

/-- Going down from a bone comes to the bones that have it in their lines, not too far up. -/
theorem mem_descend {depth : Nat} (h : a.Line j path) : j ∈ a.descend depth i ↔ ∃ k < depth,
    path[k]? = some i := by
  induction depth generalizing i with
  | zero => simp [descend]
  | succ depth ih =>
    rw [descend, mem_cons, mem_flatMap]
    constructor
    · rintro (rfl | ⟨c, hc, hj⟩)
      · exact ⟨0, Nat.succ_pos _, h.head⟩
      · obtain ⟨k, hk, hline⟩ := ih.1 hj
        exact ⟨k + 1, Nat.succ_lt_succ hk, (h.next hline).trans (mem_children.1 hc)⟩
    · rintro ⟨k, hk, hline⟩
      cases k with
      | zero => exact .inl (Option.some.inj (h.head.symm.trans hline))
      | succ k =>
        obtain ⟨c, hc⟩ : ∃ c, path[k]? = some c :=
          ⟨_, List.getElem?_eq_getElem (Nat.lt_of_succ_lt (List.getElem?_eq_some_iff.1 hline).1)⟩
        refine .inr ⟨c, mem_children.2 ?_, ih.2 ⟨k, Nat.lt_of_succ_lt_succ hk, hc⟩⟩
        rw [← hline, h.next hc]

/-- The second bone is not in the line of the first. -/
def NotAbove (a : Armature α) (i j : Nat) : Prop :=
  ∀ path, a.Line i path → j ∉ path

variable (hfor : a.IsForest)

include hfor

/-- Bones below two bones that share a parent, or have none, are not in lines of one another. -/
theorem notAbove_of_siblings {c d depth : Nat} (hne : c ≠ d) (hpar : a.parent? c = a.parent? d)
    (hi : i ∈ a.descend depth c) (hj : j ∈ a.descend depth d) : a.NotAbove i j := by
  intro path hline hmem
  obtain ⟨k, -, hk⟩ := (mem_descend hline).1 hi
  obtain ⟨m, hm⟩ := getElem?_of_mem hmem
  obtain ⟨path', hline'⟩ := hfor.lines j
  obtain ⟨l, -, hl⟩ := (mem_descend hline').1 hj
  -- The line of the lower bone goes on from the upper one, and so meets both siblings.
  rw [← (hline.drop hm).unique hline', getElem?_drop] at hl
  have hnext : path[k + 1]? = path[m + l + 1]? := by rw [hline.next hk, hline.next hl, hpar]
  have hk' := (List.getElem?_eq_some_iff.1 hk).1
  have hl' := (List.getElem?_eq_some_iff.1 hl).1
  have hkl : k = m + l := by
    cases hp : path[k + 1]? with
    | some p =>
      have := hline.index_unique hp (hnext ▸ hp)
      omega
    | none =>
      have h1 := getElem?_eq_none_iff.1 hp
      have h2 := getElem?_eq_none_iff.1 (hnext ▸ hp)
      omega
  rw [hkl, hl] at hk
  exact hne (Option.some.inj hk).symm

/-- Going down comes to no bone before one of its own line. -/
theorem descend_pairwise (depth i : Nat) : (a.descend depth i).Pairwise a.NotAbove := by
  induction depth generalizing i with
  | zero => exact .nil
  | succ depth ih =>
    rw [descend, pairwise_cons, pairwise_flatMap]
    refine ⟨fun j hj path hline hmem => ?_, fun c _ => ih c, ?_⟩
    · obtain ⟨c, hc, hj⟩ := mem_flatMap.1 hj
      obtain ⟨path', hline'⟩ := hfor.lines j
      obtain ⟨k, -, hk⟩ := (mem_descend hline').1 hj
      have hup := (hline'.next hk).trans (mem_children.1 hc)
      obtain ⟨m, hm⟩ := getElem?_of_mem hmem
      -- Each of the two lines would be a part of the other.
      have h1 := congrArg List.length ((hline.drop hm).unique hline')
      have h2 := congrArg List.length ((hline'.drop hup).unique hline)
      have hk' := (List.getElem?_eq_some_iff.1 hup).1
      rw [length_drop] at h1 h2
      omega
    · refine children_nodup.imp_of_mem fun {c d} hc hd hne x hx y hy => ?_
      exact notAbove_of_siblings hfor hne ((mem_children.1 hc).trans (mem_children.1 hd).symm) hx hy

theorem order_pairwise : a.order.Pairwise a.NotAbove := by
  rw [order, pairwise_flatMap]
  refine ⟨fun c _ => descend_pairwise hfor _ c, roots_nodup.imp_of_mem
    fun {c d} hc hd hne x hx y hy => ?_⟩
  exact notAbove_of_siblings hfor hne ((mem_roots.1 hc).2.trans (mem_roots.1 hd).2.symm) hx hy

theorem order_nodup : a.order.Nodup := by
  refine (order_pairwise hfor).imp fun {i j} h hij => ?_
  obtain ⟨path, hline⟩ := hfor.lines i
  exact h path hline (hij ▸ mem_of_getElem? hline.head)

/-- The walk down comes to every bone. -/
theorem mem_order : j ∈ a.order ↔ j < a.bones.size := by
  obtain ⟨path, hline⟩ := hfor.lines j
  rw [order, mem_flatMap]
  constructor
  · rintro ⟨root, hroot, hj⟩
    by_contra hsize
    have hnone : a.parent? j = none := by
      simp [parent?, Array.getElem?_eq_none (Nat.le_of_not_lt hsize)]
    cases hline with
    | root =>
      obtain ⟨k, -, hk⟩ := (mem_descend (.root hnone)).1 hj
      obtain rfl : root = j := by simpa using mem_of_getElem? hk
      exact hsize (mem_roots.1 hroot).1
    | child hp => simp [hnone] at hp
  · intro hj
    have hpos : 0 < path.length := (List.getElem?_eq_some_iff.1 hline.head).1
    have hlast := getElem?_eq_getElem (show path.length - 1 < path.length by omega)
    have hroot := (hline.next hlast).symm.trans (getElem?_eq_none (by omega))
    have hle := hline.length_le hfor hj
    exact ⟨_, mem_roots.2 ⟨hline.lt_size hfor hj (mem_of_getElem? hlast), hroot⟩,
      (mem_descend hline).2 ⟨_, by omega, hlast⟩⟩

/-! ### The exported bones in their order -/

variable {isExported : Bone α → Bool} {b c : Bone α} {name : String}

/-- No two bones have one name. -/
def HasUniqueNames (a : Armature α) : Prop :=
  (a.bones.toList.map (·.name)).Nodup

instance (a : Armature α) : Decidable a.HasUniqueNames :=
  inferInstanceAs (Decidable (List.Nodup _))

/-- The places of the exported bones, in the order of the walk down. -/
def places (a : Armature α) (isExported : Bone α → Bool) : List Nat :=
  a.order.filter fun i => a.bones[i]?.any isExported

/-- The exported bones, in the order of the walk down. -/
def exported (a : Armature α) (isExported : Bone α → Bool) : List (Bone α) :=
  (a.order.filterMap (a.bones[·]?)).filter isExported

theorem mem_places : i ∈ a.places isExported ↔ ∃ b, a.bones[i]? = some b ∧ isExported b = true := by
  rw [places, mem_filter, mem_order hfor]
  constructor
  · rintro ⟨-, h⟩
    simpa [Option.any_eq_true] using h
  · rintro ⟨b, hb, he⟩
    exact ⟨(Array.getElem?_eq_some_iff.1 hb).1, by simp [hb, he]⟩

omit hfor in
theorem getElem?_exported (k : Nat) : (a.exported isExported)[k]? = (a.places isExported)[k]?.bind
    (a.bones[·]?) := by
  have heq : a.exported isExported = (a.places isExported).filterMap (a.bones[·]?) := by
    rw [exported, places, filter_filterMap, filterMap_filter]
    congr 1
    funext i
    cases a.bones[i]? with
    | none => simp
    | some b => simp [Option.filter]
  rw [heq, getElem?_filterMap fun i hi => ?_]
  obtain ⟨-, h⟩ := mem_filter.1 hi
  obtain ⟨b, hb, -⟩ := (Option.any_eq_true _ _).1 h
  simp [hb]

/-- The walk down comes to each bone once. -/
theorem walk_perm : (a.order.filterMap (a.bones[·]?)).Perm a.bones.toList := by
  have hrange : a.order.Perm (List.range a.bones.size) :=
    (perm_ext_iff_of_nodup (order_nodup hfor) nodup_range).2 fun i => by
      rw [mem_order hfor, mem_range]
  have hbns : (List.range a.bones.size).filterMap (a.bones[·]?) = a.bones.toList := by
    apply ext_getElem?
    intro k
    rw [getElem?_filterMap fun i hi => by simpa using hi]
    by_cases hk : k < a.bones.size
    · simp [hk]
    · simp [hk]
  exact hbns ▸ hrange.filterMap (a.bones[·]?)

theorem exported_perm (isExported : Bone α → Bool) : (a.exported isExported).Perm
    (a.bones.toList.filter isExported) :=
  (walk_perm hfor).filter isExported

theorem exported_names_nodup (hnms : a.HasUniqueNames)
    (isExported : Bone α → Bool) : ((a.exported isExported).map (·.name)).Nodup := by
  refine (((exported_perm hfor isExported).map (·.name)).nodup_iff).2 ?_
  exact List.Nodup.sublist (filter_sublist.map _) hnms

/-! ### The bone above that is exported -/

/-- The nearest bone above a bone that is exported, if there is one. -/
inductive Nearest (a : Armature α) (isExported : Bone α → Bool) : Nat → Option Nat → Prop
  | root {i : Nat} (h : a.parent? i = none) : Nearest a isExported i none
  | here {i p : Nat} {b : Bone α} (h : a.parent? i = some p) (hb : a.bones[p]? = some b)
      (he : isExported b = true) : Nearest a isExported i (some p)
  | skip {i p : Nat} {b : Bone α} {above : Option Nat} (h : a.parent? i = some p)
      (hb : a.bones[p]? = some b) (he : isExported b = false) (hp : Nearest a isExported p above) :
      Nearest a isExported i above

namespace Nearest

variable {above : Option Nat}

omit hfor in
theorem unique {above' : Option Nat} (h : a.Nearest isExported i above)
    (h' : a.Nearest isExported i above') : above = above' := by
  induction h with
  | root hi =>
    cases h' with
    | root => rfl
    | here hp => simp [hi] at hp
    | skip hp => simp [hi] at hp
  | here hp hb he =>
    cases h' with
    | root hi => simp [hi] at hp
    | here hp' => exact hp.symm.trans hp'
    | skip hp' hb' he' =>
      cases hp.symm.trans hp'
      cases hb.symm.trans hb'
      simp [he] at he'
  | skip hp hb he _ ih =>
    cases h' with
    | root hi => simp [hi] at hp
    | here hp' hb' he' =>
      cases hp.symm.trans hp'
      cases hb.symm.trans hb'
      simp [he] at he'
    | skip hp' _ _ h' =>
      cases hp.symm.trans hp'
      exact ih h'

omit hfor in
/-- It is a bone of the line, above the first. -/
theorem mem_line (h : a.Nearest isExported i (some p)) (hline : a.Line i path) :
    p ∈ path.tail ∧ ∃ b, a.bones[p]? = some b ∧ isExported b = true := by
  generalize habove : some p = above at h
  induction h generalizing path with
  | root => cases habove
  | here hp hb he =>
    cases habove
    cases hline with
    | root hi => simp [hi] at hp
    | child hp' hline =>
      cases hp.symm.trans hp'
      exact ⟨mem_of_getElem? hline.head, _, hb, he⟩
  | skip hp _ _ _ ih =>
    cases hline with
    | root hi => simp [hi] at hp
    | child hp' hline =>
      cases hp.symm.trans hp'
      exact ⟨mem_of_mem_tail (ih hline habove).1, (ih hline habove).2⟩

end Nearest

theorem nearest_of_line (hline : a.Line i path) : ∃ above, a.Nearest isExported i above ∧
      (path.tail.filterMap (a.bones[·]?)).find? isExported = above.bind (a.bones[·]?) := by
  induction hline with
  | root hi => exact ⟨none, .root hi, rfl⟩
  | @child i p path hp hline ih =>
    obtain ⟨b, hb⟩ : ∃ b, a.bones[p]? = some b := ⟨_, Array.getElem?_eq_getElem (hfor.present hp)⟩
    have hcons : path = p :: path.tail := by cases hline <;> rfl
    rw [tail_cons, hcons, filterMap_cons_some hb, find?_cons]
    cases he : isExported b with
    | true => exact ⟨some p, .here hp hb he, by simp [hb]⟩
    | false =>
      obtain ⟨above, habove, hfind⟩ := ih
      exact ⟨above, .skip hp hb he habove, hfind⟩

/-- A bone has a greater number than the one it hangs on. -/
theorem Nearest.number_lt (h : a.Nearest isExported i (some p))
    (hi : (a.places isExported)[k]? = some i) : ∃ m < k, (a.places isExported)[m]? = some p := by
  obtain ⟨path, hline⟩ := hfor.lines i
  obtain ⟨hmem, hp⟩ := h.mem_line hline
  obtain ⟨m, hm⟩ := mem_iff_getElem?.1 ((mem_places hfor).2 hp)
  refine ⟨m, ?_, hm⟩
  have hhead : path = i :: path.tail := by cases hline <;> rfl
  have hne : p ≠ i := by
    rintro rfl
    have hnd := hline.nodup
    rw [hhead] at hnd
    exact (nodup_cons.1 hnd).1 hmem
  have hpair : (a.places isExported).Pairwise a.NotAbove := (order_pairwise hfor).filter _
  rw [pairwise_iff_getElem] at hpair
  obtain ⟨hk, hki⟩ := List.getElem?_eq_some_iff.1 hi
  obtain ⟨hm', hmp⟩ := List.getElem?_eq_some_iff.1 hm
  rcases Nat.lt_trichotomy m k with hlt | rfl | hgt
  · exact hlt
  · exact absurd (hmp.symm.trans hki) hne
  · have hnot := hpair k m hk hm' hgt path
    rw [hki, hmp] at hnot
    exact absurd (mem_of_mem_tail hmem) (hnot hline)

/-! ### Numbers -/

omit hfor in
theorem names_of_zipIdx (bones : List (Bone α)) :
    (bones.zipIdx.map fun x => (x.1.name, x.2)).map Prod.fst = bones.map (·.name) := by
  rw [map_map]
  show bones.zipIdx.map ((·.name) ∘ Prod.fst) = _
  rw [← map_map, zipIdx_map_fst]

variable (hnms : a.HasUniqueNames)

include hnms

theorem numbering_eq : a.numbering isExported = (a.exported isExported).zipIdx.map fun x =>
    (x.1.name, x.2) := by
  refine Record.setAll_eq (r := []) ?_
  show (((a.exported isExported).zipIdx.map fun x => (x.1.name, x.2)).map Prod.fst).Nodup
  rw [names_of_zipIdx]
  exact exported_names_nodup hfor hnms isExported

theorem numbering_names : (a.numbering isExported).map Prod.fst = (a.exported isExported).map
    (·.name) := by
  rw [numbering_eq hfor hnms, names_of_zipIdx]

/-- The number of a bone is its position among the exported bones. -/
theorem get?_numbering : (a.numbering isExported).get? name = some k ↔
      ∃ b, (a.exported isExported)[k]? = some b ∧ b.name = name := by
  have hnd : ((a.numbering isExported).map Prod.fst).Nodup := by
    rw [numbering_names hfor hnms]
    exact exported_names_nodup hfor hnms isExported
  have hmem : (name, k) ∈ a.numbering isExported ↔ ∃ b, (a.exported isExported)[k]? = some b ∧
    b.name = name := by
    simp [numbering_eq hfor hnms, mem_zipIdx_iff_getElem?]
  rw [← hmem]
  exact ⟨Record.mem_of_get?, Record.get?_of_mem hnd⟩

omit hfor in
/-- A bone is known by its name. -/
theorem HasUniqueNames.index_unique (hb : a.bones[i]? = some b)
    (hc : a.bones[j]? = some c) (h : b.name = c.name) : i = j := by
  have hi : (a.bones.toList.map (·.name))[i]? = some b.name := by simp [hb]
  have hj : (a.bones.toList.map (·.name))[j]? = some b.name := by simp [hc, h]
  exact (List.getElem?_inj (List.getElem?_eq_some_iff.1 hi).1 hnms).1 (hi.trans hj.symm)

theorem number_iff (hb : a.bones[i]? = some b) :
    (a.numbering isExported).get? b.name = some k ↔ (a.places isExported)[k]? = some i := by
  rw [get?_numbering hfor hnms]
  simp only [getElem?_exported, Option.bind_eq_some_iff]
  constructor
  · rintro ⟨c, ⟨j, hj, hc⟩, hname⟩
    rw [hj, hnms.index_unique hc hb hname]
  · exact fun hi => ⟨b, ⟨i, hi, hb⟩, rfl⟩

theorem has_numbering (hb : a.bones[i]? = some b) : Record.has (a.numbering isExported) b.name =
    isExported b := by
  rw [Bool.eq_iff_iff, Record.has, Option.isSome_iff_exists]
  simp only [number_iff hfor hnms hb]
  rw [← mem_iff_getElem?, mem_places hfor]
  simp [hb]

/-- A skeleton hangs each bone on the nearest bone above it that is exported. -/
theorem exportedParent?_nearest (hb : a.bones[i]? = some b) {above : Option Nat}
    (h : a.Nearest isExported i above) :
    a.exportedParent? (a.numbering isExported) b = above.bind (a.bones[·]?) := by
  obtain ⟨path, hline⟩ := hfor.lines i
  obtain ⟨_, habove, hfind⟩ : ∃ above, a.Nearest isExported i above ∧ _ := nearest_of_line hfor
    hline
  cases habove.unique h
  have hpar : b.parent = a.parent? i := by simp [parent?, hb]
  have hclimb : a.climb a.bones.size b.parent = path.tail := by
    rw [hpar]
    cases hline with
    | root hi =>
      rw [hi]
      cases a.bones.size <;> rfl
    | child hp hline =>
      rw [hp]
      exact climb_eq hline (hline.length_le hfor (hfor.present hp))
  rw [exportedParent?, hclimb, ← hfind]
  have hsame : ∀ c ∈ path.tail.filterMap (a.bones[·]?), Record.has (a.numbering isExported) c.name =
    isExported c := by
    intro c hc
    obtain ⟨j, -, hj⟩ := mem_filterMap.1 hc
    exact has_numbering hfor hnms hj
  rw [← head?_filter, filter_congr hsame, head?_filter]

theorem numbered_eq : a.numbered (a.numbering isExported) = (a.exported isExported).zipIdx.map
    Prod.swap := by
  let f (b : Bone α) : Option (Nat × Bone α) := ((a.numbering isExported).get? b.name).map (·, b)
  have hf {b : Bone α} {k : Nat} (hk : (a.exported isExported)[k]? = some b) : f b =
    some (k, b) := by
    have hnum := (get?_numbering hfor hnms).2 ⟨b, hk, rfl⟩
    simp [f, hnum]
  have hexp : (a.exported isExported).filterMap f = (a.exported isExported).zipIdx.map
    Prod.swap := by
    apply ext_getElem?
    intro k
    rw [getElem?_filterMap, getElem?_map, getElem?_zipIdx]
    · cases hk : (a.exported isExported)[k]? with
      | none => rfl
      | some b => simp [hf hk]
    · intro b hb
      obtain ⟨k, hk⟩ := mem_iff_getElem?.1 hb
      simp [hf hk]
  have hwalk : (a.order.filterMap (a.bones[·]?)).filterMap f = (a.exported isExported).filterMap
    f := by
    rw [exported, filterMap_filter]
    refine filterMap_congr fun b hb => ?_
    obtain ⟨i, -, hi⟩ := mem_filterMap.1 hb
    split
    · rfl
    · next he =>
      have hhas : (a.numbering isExported).has b.name = isExported b := has_numbering hfor hnms hi
      rw [Bool.not_eq_true] at he
      rw [he, Record.has, Option.isSome_eq_false_iff, Option.isNone_iff_eq_none] at hhas
      simp [f, hhas]
  have hperm : (a.bones.toList.filterMap f).Perm ((a.exported isExported).zipIdx.map Prod.swap) :=
    by
    rw [← hexp, ← hwalk]
    exact ((walk_perm hfor).filterMap f).symm
  show (a.bones.toList.filterMap f).mergeSort (fun x y => decide (x.1 ≤ y.1)) = _
  refine ((mergeSort_perm _ _).trans hperm).eq_of_pairwise
    (fun (x y : Nat × Bone α) hx hy (hxy : x.1 ≤ y.1) (hyx : y.1 ≤ x.1) => ?_) ?_ ?_
  · have hx' := hperm.mem_iff.1 ((mergeSort_perm _ _).mem_iff.1 hx)
    simp only [mem_map, mem_zipIdx_iff_getElem?] at hx' hy
    obtain ⟨⟨b, k⟩, hb, rfl⟩ := hx'
    obtain ⟨⟨c, m⟩, hc, rfl⟩ := hy
    obtain rfl : k = m := Nat.le_antisymm hxy hyx
    simp only [hb, Option.some.injEq] at hc
    rw [hc]
  · refine (pairwise_mergeSort (fun x y z hxy hyz => ?_) (fun x y => ?_) _).imp fun h =>
      of_decide_eq_true h
    · exact decide_eq_true (Nat.le_trans (of_decide_eq_true hxy) (of_decide_eq_true hyz))
    · simpa using Nat.le_total x.1 y.1
  · have hnums : ((a.exported isExported).zipIdx.map Prod.swap).map Prod.fst
        = List.range (a.exported isExported).length := by
      rw [map_map]
      show (a.exported isExported).zipIdx.map Prod.snd = _
      rw [zipIdx_map_snd, range_eq_range']
    have hsort := pairwise_lt_range (n := (a.exported isExported).length)
    rw [← hnums, pairwise_map] at hsort
    exact hsort.imp Nat.le_of_lt

end Armature

end SceneExport
