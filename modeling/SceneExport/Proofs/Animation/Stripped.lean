import Mathlib.Algebra.Module.Torsion.Field
import Mathlib.Algebra.Order.Field.Rat
import Mathlib.Tactic.FieldSimp
import Mathlib.Tactic.Ring
import SceneExport.Animation.Track
import SceneExport.Proofs.Step

/-!
# Keys that were left out

Between two keys a value lies on the line that joins theirs (`lineAt`), so a key can be left out if
it lies on the line between the keys that remain on its two sides.  `stripRepeats` leaves out keys
inside a run of equal values.

Its memory is whether the last two keys that it kept were equal.  A run of two keys sets that
memory, and if the next run is not a single key, then it begins with a key that is taken for one
inside the run before it and left out.  Main statements: the keys that remain are some of the keys
unless there is only one (`stripRepeats_thinned_iff`), and they give all values if and only if no
run of two keys is followed by a run of two or more (`stripRepeats_faithful_iff`).
-/

namespace SceneExport

open List

variable {β : Type}

/-! ### Values between keys -/

section Line

variable [AddCommGroup β] [Module ℚ β] {frame : Int}

/-- The value at a frame on the line through two keys. -/
def lineAt (a b : Int × β) (frame : Int) : β :=
  a.2 + ((frame - a.1 : ℚ) / (b.1 - a.1)) • (b.2 - a.2)

/-- The value at a frame after a key: on the line to the next key, and after the last key its
value. -/
def valueAfter (a : Int × β) : List (Int × β) → Int → β
  | [], _ => a.2
  | b :: keys, frame => if frame < b.1 then lineAt a b frame else valueAfter b keys frame

/-- The value that keys give at a frame. -/
def valueAt? : List (Int × β) → Int → Option β
  | [], _ => none
  | a :: keys, frame => some (valueAfter a keys frame)

theorem lineAt_self (a b : Int × β) : lineAt a b a.1 = a.2 := by
  simp [lineAt]

theorem valueAfter_self (a : Int × β) {keys : List (Int × β)} (h : ∀ k ∈ keys, a.1 < k.1) :
    valueAfter a keys a.1 = a.2 := by
  cases keys with
  | nil => rfl
  | cons b keys => rw [valueAfter, if_pos (h b mem_cons_self), lineAt_self]

theorem valueAfter_of_le (a : Int × β) {b : Int × β} (h : b.1 ≤ frame) (keys : List (Int × β)) :
    valueAfter a (b :: keys) frame = valueAfter b keys frame :=
  if_neg (Int.not_lt.2 h)

/-- Before its end a line has the value of its end only if it is level. -/
theorem lineAt_eq_end_iff {a b : Int × β} (ha : a.1 < frame) (hb : frame < b.1) :
    lineAt a b frame = b.2 ↔ a.2 = b.2 := by
  have hspan : (b.1 - a.1 : ℚ) ≠ 0 := by
    rw [sub_ne_zero]
    exact_mod_cast (ha.trans hb).ne'
  have hrest : (1 - (frame - a.1 : ℚ) / (b.1 - a.1)) ≠ 0 := by
    have hne : (b.1 - frame : ℚ) ≠ 0 := by
      rw [sub_ne_zero]
      exact_mod_cast hb.ne'
    rw [show (1 - (frame - a.1 : ℚ) / (b.1 - a.1)) = (b.1 - frame) / (b.1 - a.1) by
      field_simp; ring]
    exact div_ne_zero hne hspan
  have hdiff : b.2 - lineAt a b frame = (1 - (frame - a.1 : ℚ) / (b.1 - a.1)) • (b.2 - a.2) := by
    rw [lineAt, sub_smul, one_smul, sub_add_eq_sub_sub]
  rw [eq_comm, ← sub_eq_zero, hdiff, smul_eq_zero_iff_right hrest, sub_eq_zero, eq_comm]

end Line

/-! ### Runs of values -/

/-- After the value `previous`, if there is one, a run of two equal values begins and is followed by
a run of two or more. -/
def ShortRunAfter (previous : Option β) (values : List β) : Prop :=
  ∃ before a b after, values = before ++ a :: a :: b :: b :: after ∧ a ≠ b ∧ before.getLast?.or
    previous ≠ some a

/-- A run of two equal values is followed by a run of two or more. -/
def HasShortRun (values : List β) : Prop :=
  ShortRunAfter none values

variable {values : List β} {a b : β}

theorem shortRunAfter_cons {previous : Option β} {a : β} : ShortRunAfter previous (a :: values) ↔
      (previous ≠ some a ∧ ∃ b after, values = a :: b :: b :: after ∧ a ≠ b) ∨
      ShortRunAfter (some a) values := by
  constructor
  · rintro ⟨before, c, d, after, h, hne, hlast⟩
    cases before with
    | nil =>
      cases h
      exact .inl ⟨by simpa using hlast, d, after, rfl, hne⟩
    | cons x before =>
      cases h
      exact .inr ⟨before, c, d, after, rfl, hne, by simpa [getLast?_cons] using hlast⟩
  · rintro (⟨hprev, d, after, rfl, hne⟩ | ⟨before, c, d, after, rfl, hne, hlast⟩)
    · exact ⟨[], a, d, after, rfl, hne, by simpa using hprev⟩
    · exact ⟨a :: before, c, d, after, rfl, hne, by simpa [getLast?_cons] using hlast⟩

theorem not_hasShortRun (h : values.length < 4) : ¬ HasShortRun values := by
  rintro ⟨before, a, b, after, rfl, -⟩
  simp at h
  omega

theorem hasShortRun_twice : HasShortRun (a :: a :: b :: b :: values) ↔ a ≠ b ∨
    HasShortRun (a :: a :: b :: values) := by
  unfold HasShortRun
  by_cases h : a = b
  · simp [shortRunAfter_cons, h]
  · simp [shortRunAfter_cons, h]

theorem hasShortRun_single {a b c : β} (h : b ≠ c) :
    HasShortRun (a :: a :: b :: c :: values) ↔ HasShortRun (b :: c :: values) := by
  unfold HasShortRun
  simp [shortRunAfter_cons, h, Ne.symm h]

theorem hasShortRun_cons (h : a ≠ b) : HasShortRun (a :: b :: values) ↔
    HasShortRun (b :: values) := by
  unfold HasShortRun
  simp [shortRunAfter_cons, h, Ne.symm h]

/-! ### Keys that remain -/

/-- Some of the keys remain, the first and the last among them. -/
structure IsThinned (kept keys : List (Int × β)) : Prop where
  sublist : kept.Sublist keys
  first : kept.head? = keys.head?
  last : kept.getLast? = keys.getLast?

section

variable {same : β → β → Except Failure Bool}

theorem stripFrom_cons_cons (held : Bool) {previous : β} {key next : Int × β} {c d : Bool}
    (hc : same key.2 next.2 = .ok c) (hd : same key.2 previous = .ok d) (rest : List (Int × β)) :
    stripFrom same held previous (key :: next :: rest) =
      if held = true ∧ c = true then stripFrom same true key.2 (next :: rest)
      else stripFrom same (!held && d) key.2 (next :: rest) >>= fun kept => .ok (key :: kept) := by
  rw [stripFrom, hc, hd]
  cases held with
  | false => rfl
  | true => cases c <;> rfl

/-- Frames and values make keys. -/
theorem exists_keys {frames : List Int} (h : frames.length = values.length) :
    ∃ keys : List (Int × β), keys.map Prod.fst = frames ∧ keys.map Prod.snd = values ∧
    frames.zip values = keys :=
  ⟨_, map_fst_zip (Nat.le_of_eq h), map_snd_zip (Nat.le_of_eq h.symm), rfl⟩

/-- Of keys whose values can be compared some remain, the last among them. -/
theorem stripFrom_sublist (held : Bool) (previous : β) (keys : List (Int × β))
    (h : ∀ a ∈ previous :: keys.map Prod.snd, ∀ b ∈ previous :: keys.map Prod.snd, ∃ c, same a b =
    .ok c) :
    ∃ kept, stripFrom same held previous keys = .ok kept ∧ kept.Sublist keys ∧
    kept.getLast? = keys.getLast? := by
  induction keys generalizing held previous with
  | nil => exact ⟨[], rfl, .refl _, rfl⟩
  | cons key keys ih =>
    cases keys with
    | nil => exact ⟨[key], rfl, .refl _, rfl⟩
    | cons next rest =>
      obtain ⟨c, hc⟩ := h key.2 (by simp) next.2 (by simp)
      obtain ⟨d, hd⟩ := h key.2 (by simp) previous (by simp)
      have ih := fun held => ih held key.2 fun a ha b hb =>
        h a (mem_cons_of_mem _ ha) b (mem_cons_of_mem _ hb)
      rw [stripFrom_cons_cons held hc hd]
      split
      · obtain ⟨kept, hkept, hsub, hlast⟩ := ih true
        exact ⟨kept, hkept, hsub.cons key, by rw [hlast, getLast?_cons_cons]⟩
      · obtain ⟨kept, hkept, hsub, hlast⟩ := ih (!held && d)
        exact ⟨key :: kept, by rw [hkept]; rfl, hsub.cons_cons key, by simp [getLast?_cons, hlast]⟩

/-- **Stripping only takes keys away**, but for a single key.  Let keys at increasing frames be
given, with values that can be compared.  The keys that remain are some of them, the first and the
last among these, at increasing frames, if and only if there are two keys at least; a single key is
written twice. -/
theorem stripRepeats_thinned_iff {frames : List Int} {values : List β}
    (hframes : frames.Pairwise (· < ·)) (hlength : frames.length = values.length)
    (hne : frames ≠ []) (hsame : ∀ a ∈ values, ∀ b ∈ values, ∃ c, same a b = .ok c) :
    ∃ kept, stripRepeats same frames values = .ok kept ∧
      (IsThinned kept (frames.zip values) ∧ (kept.map Prod.fst).Pairwise (· < ·) ↔
      2 ≤ frames.length) ∧ (frames.length = 1 → kept = frames.zip values ++ frames.zip values) := by
  obtain ⟨keys, rfl, rfl, hzip⟩ := exists_keys hlength
  rw [stripRepeats, if_pos hlength, hzip]
  match keys, hne with
  | [key], _ =>
    refine ⟨[key, key], rfl, iff_of_false (fun h => ?_) (by simp), fun _ => rfl⟩
    simpa using h.1.sublist.length_le
  | key :: next :: rest, _ =>
    obtain ⟨kept, hkept, hsub, hlast⟩ := stripFrom_sublist false key.2 (next :: rest) hsame
    refine ⟨key :: kept, ?_, iff_of_true ⟨⟨hsub.cons_cons key, rfl, ?_⟩, ?_⟩ (by simp), by simp⟩
    · show (do return key :: (← stripFrom same false key.2 (next :: rest))) = _
      rw [hkept]
      rfl
    · simp [getLast?_cons, hlast]
    · exact hframes.sublist ((hsub.cons_cons key).map _)

end

/-- A single key is written twice, at one time. -/
theorem not_thinned_of_single :
    ∃ kept, stripRepeats (fun a b => .ok (decide (a = b))) [3] [(7 : ℚ)] = .ok kept ∧
      ¬ (IsThinned kept ([3].zip [(7 : ℚ)]) ∧ (kept.map Prod.fst).Pairwise (· < ·)) := by
  obtain ⟨kept, hkept, hiff, -⟩ := @stripRepeats_thinned_iff ℚ (fun a b => .ok (decide (a = b))) [3]
    [7] (by decide) rfl (by decide) fun _ _ _ _ => ⟨_, rfl⟩
  exact ⟨kept, hkept, fun h => absurd (hiff.1 h) (by decide)⟩

section

variable [DecidableEq β] {same : β → β → Except Failure Bool}
  (hsame : ∀ a b, same a b = .ok (decide (a = b)))

include hsame

omit [DecidableEq β] hsame in
theorem stripFrom_held_congr (a b : β) (keys : List (Int × β)) :
    stripFrom same true a keys = stripFrom same true b keys := by
  cases keys with
  | nil => rfl
  | cons key keys => cases keys <;> rfl

/-- Inside a run the next key that remains has the value of the run. -/
theorem stripFrom_held {previous : β} {next : Int × β} {rest kept : List (Int × β)}
    (h : (next :: rest).Pairwise (·.1 < ·.1)) (hkept : stripFrom same true previous (next :: rest) =
    .ok kept) :
    ∃ key more, kept = key :: more ∧ key.2 = next.2 ∧ next.1 ≤ key.1 := by
  induction rest generalizing previous next with
  | nil =>
    cases hkept
    exact ⟨next, [], rfl, rfl, Int.le_refl _⟩
  | cons after rest ih =>
    rw [pairwise_cons] at h
    rw [stripFrom_cons_cons true (hsame _ _) (hsame _ _)] at hkept
    simp only [true_and, decide_eq_true_eq] at hkept
    by_cases hv : next.2 = after.2
    · rw [if_pos hv] at hkept
      obtain ⟨key, more, hmore, hval, hle⟩ := ih h.2 hkept
      exact ⟨key, more, hmore, hval.trans hv.symm,
        Int.le_trans (Int.le_of_lt (h.1 after mem_cons_self)) hle⟩
    · rw [if_neg hv] at hkept
      obtain ⟨more, -, hmore⟩ := Outcome.bind_ok hkept
      cases hmore
      exact ⟨next, more, rfl, rfl, Int.le_refl _⟩

variable [AddCommGroup β] [Module ℚ β]

/-- After a key that remains, and that is equal to the one before it if `held` says so, the others
are given by those that remain exactly if there is no short run among the values. -/
theorem stripFrom_faithful_iff (held : Bool) (a : Int × β) (keys : List (Int × β))
    (h : (a :: keys).Pairwise (·.1 < ·.1)) :
    ∃ kept, stripFrom same held a.2 keys = .ok kept ∧ (∀ k ∈ kept, a.1 < k.1) ∧
      ((∀ k ∈ keys, valueAfter a kept k.1 = k.2) ↔
        ¬ HasShortRun ((if held then [a.2, a.2] else [a.2]) ++ keys.map Prod.snd)) := by
  induction keys generalizing held a with
  | nil =>
    refine ⟨[], rfl, nofun, iff_of_true nofun (not_hasShortRun ?_)⟩
    cases held <;> simp
  | cons key keys ih =>
    cases keys with
    | nil =>
      refine ⟨[key], rfl, by simpa using h, iff_of_true ?_ (not_hasShortRun ?_)⟩
      · simp [valueAfter]
      · cases held <;> simp
    | cons next rest =>
      have hkey : a.1 < key.1 := (pairwise_cons.1 h).1 key mem_cons_self
      have hkeys := (pairwise_cons.1 h).2
      have hpost : ∀ k ∈ next :: rest, key.1 < k.1 := (pairwise_cons.1 hkeys).1
      rw [stripFrom_cons_cons held (hsame _ _) (hsame _ _)]
      simp only [decide_eq_true_eq]
      by_cases hdrop : held = true ∧ key.2 = next.2
      · -- The key is left out, and the value at its frame is on the line to the end of the run.
        obtain ⟨rfl, hval⟩ := hdrop
        obtain ⟨kept, hkept, hlat, hiff⟩ := ih true a (h.sublist (by simp))
        rw [stripFrom_held_congr _ key.2] at hkept
        obtain ⟨b, more, rfl, hb, hle⟩ := stripFrom_held hsame (pairwise_cons.1 hkeys).2 hkept
        have hlt : key.1 < b.1 := Int.lt_of_lt_of_le (hpost next mem_cons_self) hle
        refine ⟨b :: more, by rw [if_pos ⟨rfl, hval⟩, hkept], hlat, ?_⟩
        have hfst : valueAfter a (b :: more) key.1 = key.2 ↔ a.2 = key.2 := by
          rw [valueAfter, if_pos hlt, hval, ← hb, lineAt_eq_end_iff hkey hlt]
        rw [forall_mem_cons, hfst, hiff]
        simp only [if_true, map_cons, cons_append, nil_append, ← hval, hasShortRun_twice, not_or,
          not_not]
      · obtain ⟨kept, hkept, hlat, hiff⟩ := ih (!held && decide (key.2 = a.2)) key hkeys
        refine ⟨key :: kept, by rw [if_neg hdrop, hkept]; rfl, ?_, ?_⟩
        · exact forall_mem_cons.2 ⟨hkey, fun k hk => Int.lt_trans hkey (hlat k hk)⟩
        have hfst : valueAfter a (key :: kept) key.1 = key.2 := by
          rw [valueAfter_of_le a (Int.le_refl _), valueAfter_self key hlat]
        have hrest : (∀ k ∈ next :: rest, valueAfter a (key :: kept) k.1 = k.2) ↔
            ∀ k ∈ next :: rest, valueAfter key kept k.1 = k.2 :=
          forall₂_congr fun k hk => by rw [valueAfter_of_le a (Int.le_of_lt (hpost k hk))]
        rw [forall_mem_cons, hrest, hiff, and_iff_right hfst, not_iff_not]
        cases held with
        | true => simp [hasShortRun_single fun hv => hdrop ⟨rfl, hv⟩]
        | false =>
          by_cases hv : key.2 = a.2
          · simp [hv]
          · simp [hv, hasShortRun_cons (Ne.symm hv)]

/-- **Stripping keys keeps the values**, but for short runs.  Let keys at increasing frames be
given, two at least.  The keys that remain give the value of every key, on the lines between them,
if and only if no run of two equal values is followed by a run of two or more. -/
theorem stripRepeats_faithful_iff {frames : List Int} {values : List β}
    (hframes : frames.Pairwise (· < ·)) (hlength : frames.length = values.length)
    (htwo : 2 ≤ frames.length) :
    ∃ kept, stripRepeats same frames values = .ok kept ∧
      ((∀ k ∈ frames.zip values, valueAt? kept k.1 = some k.2) ↔ ¬ HasShortRun values) := by
  obtain ⟨keys, rfl, rfl, hzip⟩ := exists_keys hlength
  rw [stripRepeats, if_pos hlength, hzip]
  rw [pairwise_map] at hframes
  obtain ⟨key, next, rest, rfl⟩ : ∃ key next rest, keys = key :: next :: rest := by
    match keys, htwo with
    | key :: next :: rest, _ => exact ⟨key, next, rest, rfl⟩
  obtain ⟨kept, hkept, hlat, hiff⟩ := stripFrom_faithful_iff hsame false key (next :: rest) hframes
  refine ⟨key :: kept, ?_, ?_⟩
  · show (do return key :: (← stripFrom same false key.2 (next :: rest))) = _
    rw [hkept]
    rfl
  · show (∀ k ∈ key :: next :: rest, some (valueAfter key kept k.1) = some k.2) ↔ _
    simp only [Option.some.injEq]
    rw [forall_mem_cons, and_iff_right (valueAfter_self key hlat), hiff]
    rfl

end

/-- Of two runs of two the second begins with a key that is left out, and the value at its frame is
lost. -/
theorem not_faithful_of_two_runs : HasShortRun [(0 : ℚ), 0, 1, 1, 2] ∧
      ∃ kept, stripRepeats (fun a b => .ok (decide (a = b))) [1, 2, 3, 4, 5] [(0 : ℚ), 0, 1, 1, 2] =
      .ok kept ∧ ¬ ∀ k ∈ [1, 2, 3, 4, 5].zip [(0 : ℚ), 0, 1, 1, 2], valueAt? kept k.1 =
      some k.2 := by
  have hrun : HasShortRun [(0 : ℚ), 0, 1, 1, 2] := ⟨[], 0, 1, [2], rfl, by decide, by simp⟩
  obtain ⟨kept, hkept, hiff⟩ := @stripRepeats_faithful_iff ℚ _ (fun a b => .ok (decide (a = b)))
    (fun _ _ => rfl) _ _ [1, 2, 3, 4, 5] [0, 0, 1, 1, 2] (by decide) rfl (by decide)
  exact ⟨hrun, kept, hkept, fun hall => hiff.1 hall hrun⟩

end SceneExport
