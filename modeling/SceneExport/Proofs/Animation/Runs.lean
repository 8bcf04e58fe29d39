import SceneExport.Proofs.Animation.Strips

/-!
# Strips that overlap

The keys of a strip are a run: its values at one frame after the other.  Two runs with a frame in
common are cut at the later of their beginnings, and from there on they are blended value by value
as far as both go.  Main statement: the result has a key at every frame from the first to the last
of the two, with the value that both make there, or that one of them has (`Track.blend_gapless`).
-/

namespace SceneExport

open List

variable {α : Type}

namespace Track

def at? (t : Track α) (frame : Int) : Option (KeyValue α) :=
  (t.keyList.lookup frame).join

section Runs

variable (join : KeyValue α → KeyValue α → Except Failure (KeyValue α))

/-- What becomes of the values that two tracks have at a frame: two are joined, and one alone
stays. -/
def meet : Option (KeyValue α) → Option (KeyValue α) → Except Failure (Option (KeyValue α))
  | some x, some y => some <$> join x y
  | x, y => .ok (x.or y)

/-- Two lists of values, joined as far as both go. -/
def joinAll : List (KeyValue α) → List (KeyValue α) → Except Failure (List (KeyValue α))
  | x :: xs, y :: ys => do return (← join x y) :: (← joinAll xs ys)
  | [], ys => .ok ys
  | xs, [] => .ok xs

/-- Values at one frame after the other. -/
def run (first : Int) : List (KeyValue α) → List (Key α)
  | [] => []
  | v :: vs => (first, some v) :: run (first + 1) vs

variable {join}

theorem meet_none (x : Option (KeyValue α)) : meet join x none = .ok x := by
  cases x <;> rfl

theorem none_meet (y : Option (KeyValue α)) : meet join none y = .ok y := by
  cases y <;> rfl

/-- Either all values that stand at one place in two lists can be joined, or for some of them it
fails. -/
theorem joinAll_cases (xs ys : List (KeyValue α)) :
    (∃ e, joinAll join xs ys = .error e ∧ ∃ i : Nat, ∃ e, meet join xs[i]? ys[i]? = .error e) ∨
      ∃ vs, joinAll join xs ys = .ok vs ∧ vs.length = max xs.length ys.length ∧
        ∀ i : Nat, meet join xs[i]? ys[i]? = .ok vs[i]? := by
  induction xs generalizing ys with
  | nil => exact .inr ⟨ys, rfl, by simp, fun i => by rw [getElem?_nil, none_meet]⟩
  | cons x xs ih =>
    cases ys with
    | nil => exact .inr ⟨x :: xs, rfl, by simp, fun i => by rw [getElem?_nil, meet_none]⟩
    | cons y ys =>
      rw [joinAll]
      cases hv : join x y with
      | error e => exact .inl ⟨e, rfl, 0, e, congrArg (some <$> ·) hv⟩
      | ok v =>
        rcases ih ys with ⟨e, he, i, hi⟩ | ⟨vs, hvs, hlen, hmeet⟩
        · exact .inl ⟨e, by rw [he]; rfl, i + 1, hi⟩
        · refine .inr ⟨v :: vs, by rw [hvs]; rfl, by simp [hlen], fun i => ?_⟩
          cases i with
          | zero => exact congrArg (some <$> ·) hv
          | succ i => exact hmeet i

/-! ### The keys of a run -/

variable {t : Track α} {first frame : Int} {xs ys : List (KeyValue α)}

theorem run_frames (first : Int) (vs : List (KeyValue α)) :
    (run first vs).map Prod.fst = (List.range vs.length).map fun (i : Nat) => first + i := by
  induction vs generalizing first with
  | nil => rfl
  | cons v vs ih =>
    rw [run, map_cons, ih, length_cons, range_succ_eq_map, map_cons, map_map]
    congr 1
    · simp
    · exact map_congr_left fun i _ => by simp; omega

theorem run_append (first : Int) (xs ys : List (KeyValue α)) :
    run first (xs ++ ys) = run first xs ++ run (first + xs.length) ys := by
  induction xs generalizing first with
  | nil => simp [run]
  | cons x xs ih => simp [run, ih, Int.add_assoc, Int.add_comm]

theorem lookup_run (first frame : Int) (vs : List (KeyValue α)) :
    ((run first vs).lookup frame).join = if first ≤ frame then vs[(frame - first).toNat]? else
    none := by
  induction vs generalizing first with
  | nil => simp [run]
  | cons v vs ih =>
    rw [run, lookup_cons]
    by_cases hf : frame = first
    · simp [hf]
    · rw [beq_false_of_ne hf, ih]
      by_cases hle : first ≤ frame
      · rw [if_pos hle, if_pos (by omega), show (frame - first).toNat = (frame - (first + 1)).toNat
          + 1 by omega, getElem?_cons_succ]
      · rw [if_neg hle, if_neg (by omega)]

theorem lookup_run_late (h : first + xs.length ≤ frame) :
    ((run first (xs ++ ys)).lookup frame).join = ys[(frame - (first + xs.length)).toNat]? := by
  rw [lookup_run, if_pos (by omega), getElem?_append_right (by omega)]
  congr 1
  omega

theorem lookup_run_early (h : frame < first + xs.length) :
    ((run first (xs ++ ys)).lookup frame).join = ((run first xs).lookup frame).join := by
  rw [lookup_run, lookup_run]
  split
  · rw [getElem?_append_left (by omega)]
  · rfl

/-- A track with a value at one frame after the other. -/
theorem keyList_eq_run (h : t.frames = (run first t.values).map Prod.fst) : t.keyList =
    run first t.values := by
  have hzip (first : Int) (vs : List (KeyValue α)) : ((run first vs).map Prod.fst).zip
    (vs.map some) = run first vs := by
    induction vs generalizing first with
    | nil => rfl
    | cons v vs ih => rw [run, map_cons, map_cons, zip_cons_cons, ih]
  have hlen : t.frames.length = t.values.length := by simp [h, run_frames]
  rw [keyList, hlen, Nat.sub_self, replicate_zero, append_nil, h, hzip]

theorem ends_of_run (ht : t.keyList = run first xs) (hne : xs ≠ []) : t.first = first ∧
    t.last + 1 = first + xs.length := by
  have hfrs := keyList_frames t
  rw [ht, run_frames] at hfrs
  obtain ⟨n, hn⟩ := Nat.exists_eq_succ_of_ne_zero (length_eq_zero_iff.not.2 hne)
  constructor
  · simp [Track.first, ← hfrs, hn, range_succ_eq_map]
  · simp [Track.last, ← hfrs, hn, range_succ]
    omega

theorem mapM_need_run (first : Int) (vs : List (KeyValue α)) : ∃ keys,
    ((run first vs).mapM fun k => do return (k.1, ← need .outOfRange k.2)) =
      (.ok keys : Except Failure (List (Int × KeyValue α))) ∧
      keys.map Prod.fst = (run first vs).map Prod.fst ∧ keys.map Prod.snd = vs := by
  induction vs generalizing first with
  | nil => exact ⟨[], rfl, rfl, rfl⟩
  | cons v vs ih =>
    obtain ⟨keys, hkeys, hfst, hsnd⟩ := ih (first + 1)
    refine ⟨(first, v) :: keys, ?_, by simp [run, hfst], by simp [hsnd]⟩
    rw [run, mapM_cons, hkeys]
    rfl

theorem cutAt_run (first : Int) (xs : List (KeyValue α)) (h : ys ≠ []) : cutAt (first + xs.length)
    (run first (xs ++ ys)) = .ok (run first xs, run (first + xs.length) ys) := by
  have hpre : ∀ key ∈ run first xs, (key.1 != first + xs.length) = true := by
    intro key hkey
    have hfr := mem_map_of_mem (f := Prod.fst) hkey
    rw [run_frames, mem_map] at hfr
    obtain ⟨i, hi, hfr⟩ := hfr
    have := mem_range.1 hi
    rw [bne_iff_ne]
    omega
  obtain ⟨y, ys, rfl⟩ := exists_cons_of_ne_nil h
  unfold cutAt
  rw [span_eq_takeWhile_dropWhile, run_append, takeWhile_append_of_pos hpre, dropWhile_append_of_pos
    hpre]
  simp [run]

theorem mergeKeys_run (join : KeyValue α → KeyValue α → Except Failure (KeyValue α))
    (limit first : Int) (xs ys : List (KeyValue α))
    (hlimit : limit + 1 = first + (min xs.length ys.length : Nat)) :
    mergeKeys join limit (run first xs) (run first ys) = run first <$> joinAll join xs ys := by
  induction xs generalizing first ys with
  | nil => simp [run, mergeKeys, joinAll]; rfl
  | cons x xs ih =>
    cases ys with
    | nil => simp [run, mergeKeys, joinAll]; rfl
    | cons y ys =>
      rw [length_cons, length_cons, Nat.succ_min_succ] at hlimit
      have hle : first ≤ limit := by omega
      rw [run, run, mergeKeys, if_pos ⟨hle, hle⟩, if_pos rfl, ih (first + 1) ys (by omega), joinAll]
      simp only [need, bind, Except.bind]
      cases join x y with
      | error e => rfl
      | ok v =>
        cases joinAll join xs ys with
        | error e => rfl
        | ok vs => rfl

theorem Gapless.keyList_eq (ht : t.Gapless) (hvt : t.values.length = t.frames.length) :
    t.values ≠ [] ∧ t.keyList = run t.first t.values := by
  obtain ⟨first, more, hfrs⟩ := ht
  have hlen : t.values.length = more + 1 := by simp [hvt, hfrs]
  have hne : t.values ≠ [] := ne_nil_of_length_pos (by omega)
  have hrun : t.keyList = run first t.values := keyList_eq_run (by rw [run_frames, hlen, hfrs])
  exact ⟨hne, (ends_of_run hrun hne).1 ▸ hrun⟩

end Runs

/-! ### Laying one run over another -/

variable [Scalar α] {t u : Track α}

/-- Two runs, cut at the later of their beginnings, are laid over one another from there on. -/
theorem blend_runs {a a' : Int} {before before' xs ys : List (KeyValue α)}
    (ht : t.keyList = run a (before ++ xs)) (hu : u.keyList = run a' (before' ++ ys))
    (hxs : xs ≠ []) (hys : ys ≠ []) (hone : before = [] ∨ before' = [])
    (hst : a + before.length = a' + before'.length) (hi : t.interpolation = u.interpolation)
    (hw : t.kind.word = u.kind.word) :
    (∃ f e, meet t.blendValues (t.at? f) (u.at? f) = .error e ∧ ∃ e, blend u t = .error e t) ∨
      ∃ vs t', blend u t = .ok () t' ∧ vs.length = max xs.length ys.length ∧ t'.values = before ++
      before' ++ vs ∧ t'.frames = (run (min a a') t'.values).map Prod.fst ∧
        ∀ f, meet t.blendValues (t.at? f) (u.at? f) = .ok (t'.at? f) := by
  obtain ⟨hfirst, hlast⟩ := ends_of_run ht (by simp [hxs])
  obtain ⟨hfst', hlast'⟩ := ends_of_run hu (by simp [hys])
  have hpos := length_pos_iff.2 hxs
  have hpos' := length_pos_iff.2 hys
  rw [length_append] at hlast hlast'
  have hleng : before.length = 0 ∨ before'.length = 0 := hone.imp length_eq_zero_iff.2
    length_eq_zero_iff.2
  have hmin : min a a' + (before ++ before').length = a + before.length := by
    rw [length_append]
    omega
  have hruns (vs : List (KeyValue α)) : run (min a a') (before ++ before' ++ vs) =
      run a before ++ run a' before' ++ run (a + before.length) vs := by
    rw [run_append, hmin]
    rcases hone with rfl | rfl
    · rw [show min a a' = a' by simp at hst; omega]
      rfl
    · rw [show min a a' = a by simp at hst; omega, append_nil]
      simp [run]
  have hover : t.overlap u = joinAll t.blendValues xs ys >>= fun vs =>
      (run (min a a') (before ++ before' ++ vs)).mapM fun k =>
        do return (k.1, ← need .outOfRange k.2) := by
    have hmerge := mergeKeys_run t.blendValues (min t.last u.last) (a + before.length) xs ys
      (by omega)
    have hcut := cutAt_run a before hxs
    have hcut' := cutAt_run a' before' hys
    rw [← hst] at hcut'
    unfold overlap
    rw [show max t.first u.first = a + before.length by omega]
    simp only [ht, hu, hcut, hcut', bind, Except.bind, hmerge, hruns]
    cases joinAll t.blendValues xs ys <;> rfl
  have hbl : blend u t = _ := blend_eq hi hw
  rw [if_neg (by omega), if_neg (by omega)] at hbl
  have hat (f : Int) : t.at? f = ((run a (before ++ xs)).lookup f).join := by rw [at?, ht]
  have hat' (f : Int) : u.at? f = ((run a' (before' ++ ys)).lookup f).join := by rw [at?, hu]
  rcases joinAll_cases xs ys with ⟨e, he, i, e', hmeet⟩ | ⟨vs, hvs, hlen, hmeet⟩
  · refine .inl ⟨a + before.length + i, e', ?_, e, by rw [hbl, hover, he]; rfl⟩
    rw [hat, hat', lookup_run_late (by omega), lookup_run_late (by omega), ← hst]
    simpa using hmeet
  · obtain ⟨keys, hkeys, hfst, hsnd⟩ := mapM_need_run (min a a') (before ++ before' ++ vs)
    rw [hvs] at hover
    simp only [hover.trans hkeys, hfst, hsnd] at hbl
    refine .inr ⟨vs, _, hbl, hlen, rfl, rfl, fun f => ?_⟩
    rw [hat, hat', at?, @keyList_eq_run _ _ (min a a') rfl]
    by_cases hlate : a + before.length ≤ f
    · rw [lookup_run_late hlate, lookup_run_late (hst ▸ hlate), lookup_run_late (hmin ▸ hlate),
        hmin, ← hst]
      exact hmeet _
    · rw [lookup_run_early (by omega), lookup_run_early (by omega), lookup_run_early (by omega)]
      rcases hone with rfl | rfl
      · rw [show min a a' = a' by simp at hst; omega]
        exact none_meet _
      · rw [show min a a' = a by simp at hst; omega, append_nil]
        exact meet_none _

/-- **Strips that overlap are blended.**  Let two strips of one kind have a frame in common.  Either
the values at some frame that both have cannot be blended, and then neither can the strips.  Or the
one is laid over the other: there is a key at every frame from the first of the two to the last,
with the blended value where both have one, and else with the value of the one that has it. -/
theorem blend_gapless (ht : t.Gapless) (hu : u.Gapless) (hvt : t.values.length = t.frames.length)
    (hvu : u.values.length = u.frames.length) (hi : t.interpolation = u.interpolation)
    (hw : t.kind.word = u.kind.word) (hshared : ∃ f ∈ t.frames, f ∈ u.frames) :
    (∃ f e, meet t.blendValues (t.at? f) (u.at? f) = .error e ∧ ∃ e, blend u t = .error e t) ∨
      ∃ t', blend u t = .ok () t' ∧ t'.values.length = t'.frames.length ∧
        t'.frames = ((List.range (max t.last u.last - min t.first u.first + 1).toNat).map
          fun (i : Nat) => min t.first u.first + i) ∧
        ∀ f, meet t.blendValues (t.at? f) (u.at? f) = .ok (t'.at? f) := by
  obtain ⟨f, hft, hfu⟩ := hshared
  rw [ht.mem_frames] at hft
  rw [hu.mem_frames] at hfu
  obtain ⟨hne, hrun⟩ := ht.keyList_eq hvt
  obtain ⟨hne', hrun'⟩ := hu.keyList_eq hvu
  have hlast := (ends_of_run hrun hne).2
  have hlast' := (ends_of_run hrun' hne').2
  have hcut (t : Track α) (start : Int) (h : t.first ≤ start)
    (hlt : start < t.first + t.values.length) :
      ∃ before xs, t.values = before ++ xs ∧ xs ≠ [] ∧ t.first + before.length = start :=
    ⟨t.values.take (start - t.first).toNat, t.values.drop (start - t.first).toNat,
      (take_append_drop _ _).symm, ne_nil_of_length_pos (by simp; omega), by simp; omega⟩
  obtain ⟨before, xs, hsplit, hxs, hpre⟩ := hcut t (max t.first u.first) (by omega) (by omega)
  obtain ⟨before', ys, hsplit', hys, hpre'⟩ := hcut u (max t.first u.first) (by omega) (by omega)
  rw [hsplit, length_append] at hlast
  rw [hsplit', length_append] at hlast'
  have hone : before = [] ∨ before' = [] := by
    rw [← length_eq_zero_iff, ← length_eq_zero_iff]
    omega
  refine (blend_runs (hsplit ▸ hrun) (hsplit' ▸ hrun') hxs hys hone (by omega) hi hw).imp_right ?_
  rintro ⟨vs, t', hbl, hlen, hvalu, hfrs, hmeet⟩
  rw [run_frames] at hfrs
  refine ⟨t', hbl, by simp [hfrs], ?_, hmeet⟩
  rw [hfrs, hvalu, length_append, length_append, hlen]
  congr 2
  omega

/-- A node is shown for five frames, and hidden for six from the third of them on: it is shown for
five. -/
theorem blend_gapless_shown :
    (∃ f ∈ (still 1 4 true : Track ℚ).frames, f ∈ (still 3 5 false : Track ℚ).frames) ∧
    ∃ t', blend (still 3 5 false) (still 1 4 true : Track ℚ) = .ok () t' ∧
    t'.values.length = t'.frames.length ∧ t'.frames = [1, 2, 3, 4, 5, 6, 7, 8] ∧
      ∀ f, meet (still 1 4 true : Track ℚ).blendValues ((still 1 4 true : Track ℚ).at? f)
        ((still 3 5 false : Track ℚ).at? f) = .ok (t'.at? f) := by
  have hshar : ∃ f ∈ (still 1 4 true : Track ℚ).frames, f ∈ (still 3 5 false : Track ℚ).frames :=
    ⟨3, by decide, by decide⟩
  refine ⟨hshar, (blend_gapless (t := still 1 4 true) (u := still 3 5 false) ⟨1, 4, rfl⟩ ⟨3, 5, rfl⟩
    rfl
    rfl rfl rfl hshar).resolve_left ?_⟩
  rintro ⟨f, e, -, e', h⟩
  obtain ⟨_, t', hok⟩ := exists_ok (blend (still 3 5 false)) (still 1 4 true : Track ℚ)
  cases h.symm.trans hok

end Track

end SceneExport
