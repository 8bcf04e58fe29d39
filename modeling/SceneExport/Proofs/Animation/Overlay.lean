import Mathlib.Data.List.TakeDrop
import Mathlib.Data.List.TakeWhile
import Mathlib.Tactic.Tauto
import SceneExport.Animation.Track
import SceneExport.Proofs.Step

/-!
# Tracks that are laid over one another

Two tracks of one path are woven together frame by frame from the first frame that both have
(`weave`), up to the frame at which the first of them ends; what is left of the two is put one
behind the other.

Nothing is lost that way (`mem_overlaid`).  The frames come out in order if one of the tracks has
nothing beyond that frame (`overlaid_sorted`), and otherwise they do not
(`overlaid_not_sorted`).  The values that both tracks have for a frame are blended, which only some
kinds of tracks can do (`TrackKind.blends`).
-/

namespace SceneExport

open List

/-! ### Weaving frames -/

/-- The frames of two tracks in the order in which they are merged: by size while both are within
`limit`, then those of the first track before those of the second. -/
def weave (limit : Int) : List Int → List Int → List Int
  | a :: as, b :: bs =>
    if a ≤ limit ∧ b ≤ limit then
      if a = b then a :: weave limit as bs
      else if a < b then a :: weave limit as (b :: bs)
      else b :: weave limit (a :: as) bs
    else a :: as ++ b :: bs
  | as, bs => as ++ bs
termination_by as bs => as.length + bs.length

section Weave

variable {limit : Int} {as bs : List Int} {f : Int}

theorem mem_weave : f ∈ weave limit as bs ↔ f ∈ as ∨ f ∈ bs := by
  fun_induction weave limit as bs with
  | case1 as a bs hl ih =>
    simp only [mem_cons, ih]
    tauto
  | case2 a as b bs hl hne hlt ih =>
    simp only [mem_cons, ih]
    tauto
  | case3 a as b bs hl hne hlt ih =>
    simp only [mem_cons, ih]
    tauto
  | case4 a as b bs hl => exact mem_append
  | case5 as bs hnot => exact mem_append

/-- The frames of the first track keep their order. -/
theorem sublist_weave : as.Sublist (weave limit as bs) := by
  fun_induction weave limit as bs with
  | case1 as a bs hl ih => exact ih.cons_cons a
  | case2 a as b bs hl hne hlt ih => exact ih.cons_cons a
  | case3 a as b bs hl hne hlt ih => exact ih.cons b
  | case4 a as b bs hl => exact sublist_append_left _ _
  | case5 as bs hnot => exact sublist_append_left _ _

theorem head_le {a : Int} (h : (a :: as).Pairwise (· < ·)) : ∀ x ∈ a :: as, a ≤ x :=
  forall_mem_cons.2 ⟨Int.le_refl _, fun x hx => Int.le_of_lt ((pairwise_cons.1 h).1 x hx)⟩

theorem lt_of_lt_head {a c : Int} (h : (a :: as).Pairwise (· < ·)) (hc : c < a) : ∀ x ∈ a :: as,
    c < x :=
  fun x hx => Int.lt_of_lt_of_le hc (head_le h x hx)

/-- What is left of the second track when the limit is passed comes in order if all of the first
track is within the limit, and nothing is left if the first track has a frame within the limit that
comes later. -/
theorem weave_sorted (ha : as.Pairwise (· < ·)) (hb : bs.Pairwise (· < ·))
    (h : ∀ b ∈ bs, (∀ a ∈ as, a ≤ limit) ∨ ∃ a ∈ as, b ≤ a ∧ a ≤ limit) :
    (weave limit as bs).Pairwise (· < ·) := by
  have htail {a : Int} {as bs : List Int} (hlt : ∀ b ∈ bs, a < b)
      (h : ∀ b ∈ bs, (∀ x ∈ a :: as, x ≤ limit) ∨ ∃ x ∈ a :: as, b ≤ x ∧ x ≤ limit) :
      ∀ b ∈ bs, (∀ x ∈ as, x ≤ limit) ∨ ∃ x ∈ as, b ≤ x ∧ x ≤ limit := by
    refine fun b hb => (h b hb).imp (fun hall x hx => hall x (.tail _ hx)) ?_
    rintro ⟨x, hx, hle, hlimit⟩
    have hne : x ≠ a := by
      have := hlt b hb
      omega
    exact ⟨x, by simpa [hne] using hx, hle, hlimit⟩
  fun_induction weave limit as bs with
  | case1 as a bs hl ih =>
    obtain ⟨ha1, ha⟩ := pairwise_cons.1 ha
    obtain ⟨hb1, hb⟩ := pairwise_cons.1 hb
    refine pairwise_cons.2 ⟨fun f hf => (mem_weave.1 hf).elim (ha1 f) (hb1 f), ih ha hb ?_⟩
    exact htail hb1 fun b hb => h b (.tail _ hb)
  | case2 a as b bs hl hne hlt ih =>
    obtain ⟨ha1, ha⟩ := pairwise_cons.1 ha
    have hb1 := lt_of_lt_head hb hlt
    exact pairwise_cons.2 ⟨fun f hf => (mem_weave.1 hf).elim (ha1 f) (hb1 f),
      ih ha hb (htail hb1 h)⟩
  | case3 a as b bs hl hne hlt ih =>
    obtain ⟨hb1, hb⟩ := pairwise_cons.1 hb
    have ha1 := lt_of_lt_head ha (show b < a by omega)
    refine pairwise_cons.2 ⟨fun f hf => (mem_weave.1 hf).elim (ha1 f) (hb1 f), ih ha hb fun x hx =>
      ?_⟩
    exact h x (.tail _ hx)
  | case4 a as b bs hl =>
    refine pairwise_append.2 ⟨ha, hb, fun x hx y hy => ?_⟩
    have hy := head_le hb y hy
    rcases h b mem_cons_self with hall | ⟨later, hlat, hle, hlimit⟩
    · have := hall x hx
      have := hall a mem_cons_self
      omega
    · have := head_le ha later hlat
      omega
  | case5 as bs hnot =>
    cases as with
    | nil => exact hb
    | cons a as =>
      cases bs with
      | nil => simpa using ha
      | cons b bs => exact (hnot a as b bs rfl rfl).elim

/-- If the second track ends where the first has no key, but goes on, then its last frame comes
after later ones of the first track. -/
theorem weave_not_sorted (hb : ∀ b ∈ bs, b ≤ limit) (hmem : limit ∈ bs) (hnot : limit ∉ as)
    (hlat : ∃ a ∈ as, limit < a) : ¬(weave limit as bs).Pairwise (· < ·) := by
  obtain ⟨later, hlat, hlt⟩ := hlat
  fun_induction weave limit as bs with
  | case1 as a bs hl ih =>
    have hne : limit ≠ a := fun he => hnot (he ▸ mem_cons_self)
    have hla : later ≠ a := by omega
    refine fun h => ih (fun x hx => hb x (mem_cons_of_mem _ hx)) ?_ ?_ ?_ (pairwise_cons.1 h).2
    · simpa [hne] using hmem
    · exact fun h => hnot (mem_cons_of_mem _ h)
    · simpa [hla] using hlat
  | case2 a as b bs hl hne hlt' ih =>
    have hla : later ≠ a := by omega
    refine fun h => ih hb hmem (fun h => hnot (mem_cons_of_mem _ h)) ?_ (pairwise_cons.1 h).2
    simpa [hla] using hlat
  | case3 a as b bs hl hne hlt' ih =>
    have hlb : limit ≠ b := by omega
    refine fun h => ih (fun x hx => hb x (mem_cons_of_mem _ hx)) ?_ hnot hlat (pairwise_cons.1 h).2
    simpa [hlb] using hmem
  | case4 a as b bs hl =>
    intro h
    have := hb b mem_cons_self
    have := (pairwise_append.1 h).2.2 a mem_cons_self limit hmem
    omega
  | case5 as bs hnil =>
    cases as with
    | nil => cases hlat
    | cons a as =>
      cases bs with
      | nil => cases hmem
      | cons b bs => exact (hnil a as b bs rfl rfl).elim

/-! ### Laying frames over one another -/

/-- The frames of two tracks laid over one another from the frame `start` on. -/
def overlaid (start limit : Int) (as bs : List Int) : List Int :=
  as.takeWhile (· != start) ++ bs.takeWhile (· != start) ++
    weave limit (as.dropWhile (· != start)) (bs.dropWhile (· != start))

variable {start : Int}

theorem mem_overlaid : f ∈ overlaid start limit as bs ↔ f ∈ as ∨ f ∈ bs := by
  have hsplit (xs : List Int) : f ∈ xs ↔ f ∈ xs.takeWhile (· != start) ∨ f ∈ xs.dropWhile
    (· != start) := by
    rw [← mem_append, takeWhile_append_dropWhile]
  rw [overlaid, mem_append, mem_append, mem_weave, hsplit as, hsplit bs]
  tauto

theorem sublist_overlaid : as.Sublist (overlaid start limit as bs) := by
  have h : (as.takeWhile (· != start) ++ as.dropWhile (· != start)).Sublist
    (overlaid start limit as bs) :=
    (sublist_append_left _ _).append sublist_weave
  rwa [takeWhile_append_dropWhile] at h

theorem dropWhile_of_mem (h : start ∈ as) : ∃ rest, as.dropWhile (· != start) = start :: rest := by
  induction as with
  | nil => cases h
  | cons a as ih =>
    by_cases ha : a = start
    · exact ⟨as, by simp [ha]⟩
    · obtain ⟨rest, hrest⟩ := ih (by simpa [Ne.symm ha] using h)
      exact ⟨rest, by simpa [ha] using hrest⟩

/-- A list in order is cut into what is below a frame in it, and what is not. -/
theorem cut_of_mem (hs : start ∈ as) (ha : as.Pairwise (· < ·)) :
    (∀ f ∈ as.takeWhile (· != start), f < start) ∧ ∀ f ∈ as.dropWhile (· != start), start ≤ f := by
  obtain ⟨rest, hrest⟩ := dropWhile_of_mem hs
  rw [← takeWhile_append_dropWhile (p := (· != start)) (l := as), hrest, pairwise_append] at ha
  obtain ⟨-, hdrop, hlt⟩ := ha
  exact ⟨fun f hf => hlt f hf start mem_cons_self, hrest ▸ head_le hdrop⟩

theorem mem_dropWhile_of_le (hs : start ∈ as) (ha : as.Pairwise (· < ·)) (hf : f ∈ as)
    (hle : start ≤ f) : f ∈ as.dropWhile (· != start) := by
  rw [← takeWhile_append_dropWhile (p := (· != start)) (l := as), mem_append] at hf
  rcases hf with hf | hf
  · have := (cut_of_mem hs ha).1 f hf
    omega
  · exact hf

theorem overlaid_sorted (ha : as.Pairwise (· < ·)) (hb : bs.Pairwise (· < ·)) (hsa : start ∈ as)
    (hsb : start ∈ bs) (hfst : (∀ a ∈ as, start ≤ a) ∨ ∀ b ∈ bs, start ≤ b)
    (h : ∀ b ∈ bs, (∀ a ∈ as, a ≤ limit) ∨ ∃ a ∈ as, b ≤ a ∧ a ≤ limit) :
    (overlaid start limit as bs).Pairwise (· < ·) := by
  obtain ⟨hdn, hup⟩ := cut_of_mem hsa ha
  obtain ⟨hdn', hup'⟩ := cut_of_mem hsb hb
  -- One of the tracks has nothing before the frame at which both are.
  have hemp {xs : List Int} (hdn : ∀ f ∈ xs.takeWhile (· != start), f < start)
      (h : ∀ x ∈ xs, start ≤ x) : xs.takeWhile (· != start) = [] := by
    refine eq_nil_iff_forall_not_mem.2 fun f hf => ?_
    have := hdn f hf
    have := h f ((takeWhile_sublist _).subset hf)
    omega
  have hpre : (as.takeWhile (· != start) ++ bs.takeWhile (· != start)).Pairwise (· < ·) := by
    rcases hfst with hfst | hfst
    · rw [hemp hdn hfst]
      exact hb.sublist (takeWhile_sublist _)
    · rw [hemp hdn' hfst, append_nil]
      exact ha.sublist (takeWhile_sublist _)
  have hwoven : (weave limit (as.dropWhile (· != start)) (bs.dropWhile (· != start))).Pairwise
    (· < ·) := by
    refine weave_sorted (ha.sublist (dropWhile_sublist _)) (hb.sublist (dropWhile_sublist _))
      fun b hb => ?_
    refine (h b ((dropWhile_sublist _).subset hb)).imp
      (fun h a ha => h a ((dropWhile_sublist _).subset ha)) ?_
    rintro ⟨a, hmem, hle, hlimit⟩
    exact ⟨a, mem_dropWhile_of_le hsa ha hmem (Int.le_trans (hup' b hb) hle), hle, hlimit⟩
  refine pairwise_append.2 ⟨hpre, hwoven, fun f hf g hg => ?_⟩
  have hlt : f < start := (mem_append.1 hf).elim (hdn f) (hdn' f)
  have hle : start ≤ g := (mem_weave.1 hg).elim (hup g) (hup' g)
  omega

theorem overlaid_not_sorted (ha : as.Pairwise (· < ·)) (hb : bs.Pairwise (· < ·)) (hsa : start ∈ as)
    (hsb : start ∈ bs) (hle : start ≤ limit) (hlimit : ∀ b ∈ bs, b ≤ limit) (hmem : limit ∈ bs)
    (hnot : limit ∉ as) (hlat : ∃ a ∈ as, limit < a) : ¬(overlaid start limit as bs).Pairwise
    (· < ·) := by
  intro h
  obtain ⟨later, hlat, hlt⟩ := hlat
  refine weave_not_sorted (fun b hb => hlimit b ((dropWhile_sublist _).subset hb))
    (mem_dropWhile_of_le hsb hb hmem hle) (fun h => hnot ((dropWhile_sublist _).subset h))
    ⟨later, mem_dropWhile_of_le hsa ha hlat (by omega), hlt⟩ (pairwise_append.1 h).2.1

end Weave

variable {α : Type}

namespace Track

/-! ### The frames of keys -/

section Frames

variable {keys : List (Key α)} (frame : Int)

theorem keyList_frames (t : Track α) : t.keyList.map Prod.fst = t.frames := by
  refine map_fst_zip ?_
  simp
  omega

theorem cutAt_eq (keys : List (Key α)) : cutAt frame keys =
    if frame ∈ keys.map Prod.fst then
      .ok (keys.takeWhile (·.1 != frame), keys.dropWhile (·.1 != frame))
    else .error .outOfRange := by
  unfold cutAt
  rw [span_eq_takeWhile_dropWhile]
  dsimp only
  have hmem : frame ∈ keys.map Prod.fst ↔ (keys.dropWhile (·.1 != frame)).isEmpty = false := by
    rw [isEmpty_eq_false_iff, ne_eq, dropWhile_eq_nil_iff]
    simp
  by_cases h : (keys.dropWhile (·.1 != frame)).isEmpty = true
  · rw [if_pos h, if_neg (by simp [hmem, h])]
  · rw [if_neg h, if_pos (by simpa [hmem] using h)]

theorem map_takeWhile_fst (keys : List (Key α)) : (keys.takeWhile (·.1 != frame)).map Prod.fst
      = (keys.map Prod.fst).takeWhile (· != frame) := by
  rw [takeWhile_map]
  rfl

theorem map_dropWhile_fst (keys : List (Key α)) : (keys.dropWhile (·.1 != frame)).map Prod.fst
      = (keys.map Prod.fst).dropWhile (· != frame) := by
  rw [dropWhile_map]
  rfl

theorem mapM_need_frames {result : List (Int × KeyValue α)}
    (h : (keys.mapM fun k => do return (k.1, ← need .outOfRange k.2)) = .ok result) :
    result.map Prod.fst = keys.map Prod.fst := by
  induction keys generalizing result with
  | nil =>
    cases h
    rfl
  | cons key keys ih =>
    obtain ⟨x, rest, hx, hrest, rfl⟩ := Outcome.mapM_cons_ok h
    obtain ⟨v, -, hx⟩ := Outcome.bind_ok hx
    cases hx
    rw [map_cons, map_cons, ih hrest]

theorem dropWhile_key {frame : Int} (h : frame ∈ keys.map Prod.fst) :
    ∃ key rest, keys.dropWhile (·.1 != frame) = key :: rest ∧ key.1 = frame := by
  obtain ⟨frames, hfrs⟩ := dropWhile_of_mem h
  rw [← map_dropWhile_fst] at hfrs
  obtain ⟨key, rest, hkeys, hkey, -⟩ := map_eq_cons_iff.1 hfrs
  exact ⟨key, rest, hkeys, hkey⟩

theorem mergeKeys_frames {blend : KeyValue α → KeyValue α → Except Failure (KeyValue α)}
    {limit : Int} {as bs : List (Key α)} (h : mergeKeys blend limit as bs = .ok keys) :
    keys.map Prod.fst = weave limit (as.map Prod.fst) (bs.map Prod.fst) := by
  fun_induction mergeKeys blend limit as bs generalizing keys with
  | case1 a as b bs hl he ih =>
    obtain ⟨x, -, h⟩ := Outcome.bind_ok h
    obtain ⟨y, -, h⟩ := Outcome.bind_ok h
    obtain ⟨value, -, h⟩ := Outcome.bind_ok h
    obtain ⟨rest, hrest, h⟩ := Outcome.bind_ok h
    cases h
    rw [map_cons, map_cons, map_cons, weave, if_pos hl, if_pos he, ih hrest]
  | case2 a as b bs hl hne hlt ih =>
    obtain ⟨rest, hrest, h⟩ := Outcome.bind_ok h
    cases h
    rw [map_cons, map_cons, map_cons, weave, if_pos hl, if_neg hne, if_pos hlt, ih hrest, map_cons]
  | case3 a as b bs hl hne hlt ih =>
    obtain ⟨rest, hrest, h⟩ := Outcome.bind_ok h
    cases h
    rw [map_cons, map_cons, map_cons, weave, if_pos hl, if_neg hne, if_neg hlt, ih hrest, map_cons]
  | case4 a as b bs hl =>
    cases h
    rw [map_append, map_cons, map_cons, weave, if_neg hl]
  | case5 as bs hnot =>
    cases h
    cases as with
    | nil => simp [weave]
    | cons a as =>
      cases bs with
      | nil => simp [weave]
      | cons b bs => exact (hnot a as b bs rfl rfl).elim

end Frames

end Track

variable [Scalar α]

/-! ### Values of one kind -/

namespace TrackKind

/-- Whether two values at one frame can become one. -/
def blends : TrackKind → Bool
  | .transform | .value | .color => true
  | .bezier | .bare => false

/-- Whether the tracks of a kind have such values. -/
def takes : TrackKind → KeyValue α → Bool
  | .transform, .transform f => f.rotation.isOk
  | .value, v => v.quantity?.isSome
  | .color, .color _ => true
  | .bezier, .bezier _ => true
  | .bare, _ => true
  | _, _ => false

end TrackKind

namespace Track

variable {t : Track α} {kind : TrackKind} {keys : List (Key α)} {keys' : List (Key α)}

theorem blendValues_ok (hk : t.kind.blends = true) {a b : KeyValue α} (ha : t.kind.takes a = true)
    (hb : t.kind.takes b = true) : ∃ c, t.blendValues a b = .ok c ∧ t.kind.takes c = true := by
  unfold blendValues
  generalize t.kind = kind at hk ha hb ⊢
  cases kind with
  | transform =>
    cases a with
    | transform f =>
      cases b with
      | transform g =>
        cases hf : f.rotation with
        | error e => simp [TrackKind.takes, hf, Except.isOk, Except.toBool] at ha
        | ok p =>
          cases hg : g.rotation with
          | error e => simp [TrackKind.takes, hg, Except.isOk, Except.toBool] at hb
          | ok q =>
            refine ⟨.transform { TransformFrame.identity .quaternion with
              quaternion := p * q, location := f.location + g.location, scale := f.scale }, ?_, rfl⟩
            simp only [TransformFrame.combine, hf, hg]
            rfl
      | _ => cases hb
    | _ => cases ha
  | value =>
    obtain ⟨x, hx⟩ := Option.isSome_iff_exists.1 ha
    obtain ⟨y, hy⟩ := Option.isSome_iff_exists.1 hb
    have hlarg : a.larger b = .ok (if x.isBelow y then b else a) := by
      unfold KeyValue.larger
      split
      · cases hx
      · rw [hx, hy]
    refine ⟨_, hlarg, ?_⟩
    split
    · exact hb
    · exact ha
  | color =>
    cases a with
    | color c =>
      cases b with
      | color d => exact ⟨_, rfl, rfl⟩
      | _ => cases hb
    | _ => cases ha
  | bezier => cases hk
  | bare => cases hk

theorem blendValues_error (hk : t.kind.blends = false) (a b : KeyValue α) : ∃ e, t.blendValues a b =
    .error e := by
  unfold blendValues
  generalize t.kind = kind at hk ⊢
  cases kind with
  | bezier => exact ⟨_, rfl⟩
  | bare => exact ⟨_, rfl⟩
  | _ => cases hk

/-! ### Merging keys -/

/-- Every key has a value, of a kind. -/
def Full (kind : TrackKind) (keys : List (Key α)) : Prop :=
  ∀ key ∈ keys, ∃ v, key.2 = some v ∧ kind.takes v = true

theorem Full.append (h : Full kind keys) (h' : Full kind keys') : Full kind (keys ++ keys') := by
  intro key hkey
  exact (mem_append.1 hkey).elim (h key) (h' key)

theorem Full.mono (h : Full kind keys) (hs : keys' ⊆ keys) : Full kind keys' :=
  fun key hkey => h key (hs hkey)

section Merge

variable {blend : KeyValue α → KeyValue α → Except Failure (KeyValue α)} {as bs : List (Key α)}

theorem mergeKeys_ok (limit : Int) (hk : t.kind.blends = true) (ha : Full t.kind as)
    (hb : Full t.kind bs) :
    ∃ keys, mergeKeys t.blendValues limit as bs = .ok keys ∧ Full t.kind keys := by
  fun_induction mergeKeys t.blendValues limit as bs with
  | case1 a as b bs hl he ih =>
    obtain ⟨⟨x, hx, hxk⟩, ha⟩ := forall_mem_cons.1 ha
    obtain ⟨⟨y, hy, hyk⟩, hb⟩ := forall_mem_cons.1 hb
    obtain ⟨c, hc, hck⟩ := blendValues_ok hk hxk hyk
    obtain ⟨rest, hrest, hfull⟩ := ih ha hb
    refine ⟨(a.1, some c) :: rest, ?_, forall_mem_cons.2 ⟨⟨c, rfl, hck⟩, hfull⟩⟩
    simp only [hx, hy, need, bind, Except.bind, hc, hrest]
    rfl
  | case2 a as b bs hl hne hlt ih =>
    obtain ⟨hx, ha⟩ := forall_mem_cons.1 ha
    obtain ⟨rest, hrest, hfull⟩ := ih ha hb
    exact ⟨a :: rest, by rw [hrest]; rfl, forall_mem_cons.2 ⟨hx, hfull⟩⟩
  | case3 a as b bs hl hne hlt ih =>
    obtain ⟨hy, hb⟩ := forall_mem_cons.1 hb
    obtain ⟨rest, hrest, hfull⟩ := ih ha hb
    exact ⟨b :: rest, by rw [hrest]; rfl, forall_mem_cons.2 ⟨hy, hfull⟩⟩
  | case4 a as b bs hl => exact ⟨_, rfl, ha.append hb⟩
  | case5 as bs hnot => exact ⟨_, rfl, ha.append hb⟩

theorem mergeKeys_error (hk : t.kind.blends = false) {a b : Key α} (ha : a.1 ≤ limit)
    (hab : a.1 = b.1) (keys : List (Key α)) : mergeKeys t.blendValues limit (a :: as) (b :: bs) ≠
    .ok keys := by
  intro h
  rw [mergeKeys, if_pos ⟨ha, hab ▸ ha⟩, if_pos hab] at h
  obtain ⟨x, -, h⟩ := Outcome.bind_ok h
  obtain ⟨y, -, h⟩ := Outcome.bind_ok h
  obtain ⟨value, hval, -⟩ := Outcome.bind_ok h
  obtain ⟨e, he⟩ := blendValues_error hk x y
  rw [he] at hval
  cases hval

end Merge

/-! ### Laying a track over another -/

section Overlap

variable {u : Track α}

theorem mapM_need_ok (h : Full kind keys) :
    ∃ result, (keys.mapM fun k => do return (k.1, ← need .outOfRange k.2))
      = (.ok result : Except Failure (List (Int × KeyValue α))) ∧
      ∀ k ∈ result, kind.takes k.2 = true := by
  induction keys with
  | nil => exact ⟨[], rfl, by simp⟩
  | cons key keys ih =>
    obtain ⟨⟨v, hv, hk⟩, h⟩ := forall_mem_cons.1 h
    obtain ⟨result, hresu, hall⟩ := ih h
    refine ⟨(key.1, v) :: result, ?_, forall_mem_cons.2 ⟨hk, hall⟩⟩
    rw [mapM_cons, hresu, hv]
    rfl

/-- Where two tracks are laid over one another, and which frames that gives. -/
theorem overlap_frames {keys : List (Int × KeyValue α)} (h : t.overlap u = .ok keys) :
    max t.first u.first ∈ t.frames ∧ max t.first u.first ∈ u.frames ∧
      keys.map Prod.fst = overlaid (max t.first u.first) (min t.last u.last) t.frames u.frames := by
  unfold overlap at h
  simp only [cutAt_eq, keyList_frames] at h
  split at h
  · rename_i ht
    split at h
    · rename_i hu
      obtain ⟨_, hcut, h⟩ := Outcome.bind_ok h
      cases hcut
      obtain ⟨_, hcut, h⟩ := Outcome.bind_ok h
      cases hcut
      obtain ⟨merged, hmrg, h⟩ := Outcome.bind_ok h
      refine ⟨ht, hu, ?_⟩
      rw [mapM_need_frames h, map_append, map_append, mergeKeys_frames hmrg]
      simp only [map_takeWhile_fst, map_dropWhile_fst, keyList_frames]
      rfl
    · obtain ⟨_, -, h⟩ := Outcome.bind_ok h
      cases h
  · cases h

/-- Tracks that have a frame in common have values to blend there. -/
theorem blends_of_overlap (hle : max t.first u.first ≤ min t.last u.last)
    {keys : List (Int × KeyValue α)} (h : t.overlap u = .ok keys) : t.kind.blends = true := by
  obtain ⟨ht, hu, -⟩ := overlap_frames h
  obtain ⟨a, as, has, ha⟩ := dropWhile_key ((keyList_frames t).symm ▸ ht)
  obtain ⟨b, bs, hbs, hb⟩ := dropWhile_key ((keyList_frames u).symm ▸ hu)
  unfold overlap at h
  simp only [cutAt_eq, keyList_frames, if_pos ht, if_pos hu, has, hbs] at h
  obtain ⟨_, hcut, h⟩ := Outcome.bind_ok h
  cases hcut
  obtain ⟨_, hcut, h⟩ := Outcome.bind_ok h
  cases hcut
  obtain ⟨merged, hmrg, -⟩ := Outcome.bind_ok h
  by_contra hk
  exact mergeKeys_error (by simpa using hk) (ha ▸ hle) (ha.trans hb.symm) merged hmrg

/-- The values of a track are of a kind, one for each frame. -/
structure Holds (kind : TrackKind) (t : Track α) : Prop where
  values : t.values.length = t.frames.length
  taken : ∀ v ∈ t.values, kind.takes v = true

theorem Holds.full (h : t.Holds kind) : Full kind t.keyList := by
  intro key hkey
  unfold keyList at hkey
  rw [h.values, Nat.sub_self, replicate_zero, append_nil] at hkey
  obtain ⟨v, hv, he⟩ := mem_map.1 (of_mem_zip hkey).2
  exact ⟨v, he.symm, h.taken v hv⟩

theorem overlap_ok (hk : t.kind.blends = true) (ht : t.Holds t.kind) (hu : u.Holds t.kind)
    (hst : max t.first u.first ∈ t.frames) (hsu : max t.first u.first ∈ u.frames) :
    ∃ keys, t.overlap u = .ok keys ∧ ∀ k ∈ keys, t.kind.takes k.2 = true := by
  unfold overlap
  simp only [cutAt_eq, keyList_frames, if_pos hst, if_pos hsu]
  obtain ⟨merged, hmrg, hfull⟩ := mergeKeys_ok (min t.last u.last) hk
    (ht.full.mono (dropWhile_sublist (·.1 != max t.first u.first)).subset)
    (hu.full.mono (dropWhile_sublist (·.1 != max t.first u.first)).subset)
  have hpre := ht.full.mono (takeWhile_sublist (·.1 != max t.first u.first)).subset
  have hpre' := hu.full.mono (takeWhile_sublist (·.1 != max t.first u.first)).subset
  obtain ⟨keys, hkeys, hall⟩ := mapM_need_ok ((hpre.append hpre').append hfull)
  refine ⟨keys, ?_, hall⟩
  simp only [bind, Except.bind, hmrg]
  exact hkeys

end Overlap

end Track

end SceneExport
