import SceneExport.Proofs.Space.Exact
import Mathlib.Algebra.Order.Field.Basic
import SceneExport.Animation.Track
import SceneExport.Proofs.Step

/-!
# Values that are held

Between its keys a track without interpolation holds a value: that of the last key.  Only keys from
the start of the scene on are written.  So a value that is held when the scene starts is lost until
the next key, unless a key stands exactly at the start (`Track.valueKeys_held_iff`).
-/

namespace SceneExport

open List

variable {β τ : Type} [LinearOrder τ] {keys : List (τ × β)}

/-- The value of the last key at or before a time. -/
def heldAt (keys : List (τ × β)) (time : τ) : Option β :=
  (keys.filter (·.1 ≤ time)).getLast?.map Prod.snd

/-- Times that are moved in order do not change what is held. -/
theorem heldAt_map {σ : Type} [LinearOrder σ] {f : τ → σ} (hf : ∀ x y, f x ≤ f y ↔ x ≤ y)
    (keys : List (τ × β)) (time : τ) : heldAt (keys.map fun k => (f k.1, k.2)) (f time) =
    heldAt keys time := by
  simp only [heldAt, filter_map, getLast?_map, Option.map_map, Function.comp_def, hf]

theorem heldAt_eq_none_iff {time : τ} : heldAt keys time = none ↔ ∀ k ∈ keys, time < k.1 := by
  simp [heldAt]

/-- Of keys in order, those from a start on hold what all of them hold, once the first of them has
come. -/
theorem heldAt_filter_le (h : keys.Pairwise (·.1 < ·.1)) {start time : τ} {k : τ × β}
    (hk : k ∈ keys) (hst : start ≤ k.1) (htime : k.1 ≤ time) : heldAt (keys.filter (start ≤ ·.1))
    time = heldAt keys time := by
  have hcome : k ∈ keys.filter (·.1 ≤ time) := mem_filter.2 ⟨hk, decide_eq_true htime⟩
  have hsort := h.sublist (filter_sublist (p := fun k => decide (k.1 ≤ time)))
  rw [heldAt, heldAt, filter_comm]
  generalize keys.filter (·.1 ≤ time) = come at *
  rcases eq_nil_or_concat come with rfl | ⟨before, last, rfl⟩
  · cases hcome
  -- The last key that has come is no earlier than the one that is given.
  have hlast : start ≤ last.1 := by
    rw [concat_eq_append] at hcome hsort
    rcases mem_append.1 hcome with hmem | hmem
    · exact hst.trans (le_of_lt ((pairwise_append.1 hsort).2.2 k hmem last (by simp)))
    · rwa [← mem_singleton.1 hmem]
  simp [filter_append, hlast]

namespace Timing

variable {timing : Timing}

/-- The time of a frame, in exact seconds. -/
def exactly (timing : Timing) (frame : Int) : ℚ :=
  ((frame - timing.start : Int) : ℚ) / timing.fps

theorem exactly_le_iff (h : 0 < timing.fps) (f g : Int) : timing.exactly f ≤ timing.exactly g ↔
    f ≤ g := by
  have hpos : (0 : ℚ) < timing.fps := Int.cast_pos.2 h
  rw [exactly, exactly, div_le_div_iff_of_pos_right hpos, Int.cast_le, Int.sub_le_sub_right_iff]

theorem quotient_rat {b : Int} (hb : b ≠ 0) (a : Int) : (Scalar.quotient a b : Except Failure ℚ) =
    .ok (a / b) := by
  rw [Scalar.quotient, if_neg hb]
  refine congrArg Except.ok (?_ : ((if b < 0 then -a else a : Int) : ℚ) / (b.natAbs : ℚ) = a / b)
  rw [Nat.cast_natAbs]
  split
  · next hneg => rw [abs_of_neg hneg, Int.cast_neg, Int.cast_neg, neg_div_neg_eq]
  · next hpos => rw [abs_of_nonneg (Int.not_lt.1 hpos)]

end Timing

namespace Track

variable {t : Track ℚ} {timing : Timing}

theorem valueKeys_nearest (h : t.interpolation = Interpolation.nearest) (hfps : 0 < timing.fps) :
    t.valueKeys timing = .ok (((t.frames.zip t.values).filter (timing.start ≤ ·.1)).map fun k =>
    (timing.exactly k.1, k.2)) := by
  have hkeys : t.writtenKeys = .ok (t.frames.zip t.values) := by rw [writtenKeys, h]; rfl
  rw [valueKeys, Timing.frameDuration, Timing.quotient_rat hfps.ne', hkeys]
  refine Outcome.mapM_eq_ok _ fun k _ => ?_
  have htime : (k.1 - timing.start : Int) / ((1 : Nat) : ℚ) * ((1 : Int) / (timing.fps : ℚ)) =
    timing.exactly k.1 := by
    rw [Nat.cast_one, div_one, Int.cast_one, mul_one_div]
    rfl
  exact congrArg (fun time => Except.ok (time, k.2)) htime

/-- **Held values and the start of the scene.**  Of a track without interpolation, with keys at
increasing frames, the keys that are written hold at each frame what the track holds, if a key from
the start of the scene on has come by then, and nothing otherwise.  So nothing is lost from the
start and the first key on if and only if the first key is not before the start, or a key stands at
the start. -/
theorem valueKeys_held_iff (hnearest : t.interpolation = Interpolation.nearest)
    (hframes : t.frames.Pairwise (· < ·)) (hlength : t.frames.length = t.values.length)
    (hsome : t.frames ≠ []) (hfps : 0 < timing.fps) :
    ∃ keys, t.valueKeys timing = .ok keys ∧ (∀ frame, heldAt keys (timing.exactly frame) =
        if ∃ f ∈ t.frames, timing.start ≤ f ∧ f ≤ frame then heldAt (t.frames.zip t.values) frame
        else none) ∧
      ((∀ frame, timing.start ≤ frame → t.first ≤ frame →
          heldAt keys (timing.exactly frame) = heldAt (t.frames.zip t.values) frame) ↔
        timing.start ≤ t.first ∨ timing.start ∈ t.frames) := by
  refine ⟨_, valueKeys_nearest hnearest hfps, ?_⟩
  have hfst : (t.frames.zip t.values).map Prod.fst = t.frames := map_fst_zip hlength.le
  have hkeys : (t.frames.zip t.values).Pairwise (·.1 < ·.1) := by rwa [← pairwise_map, hfst]
  have hkey : ∀ f ∈ t.frames, ∃ k ∈ t.frames.zip t.values, k.1 = f := fun f hf =>
    mem_map.1 (hfst.symm ▸ hf)
  have hfirst : t.first ∈ t.frames := by
    rw [first, headD_eq_head?_getD, head?_eq_some_head hsome]
    exact head_mem hsome
  have hheld (frame : Int) : heldAt (((t.frames.zip t.values).filter (timing.start ≤ ·.1)).map
      fun k => (timing.exactly k.1, k.2)) (timing.exactly frame) =
        if ∃ f ∈ t.frames, timing.start ≤ f ∧ f ≤ frame then heldAt (t.frames.zip t.values) frame
        else none := by
    rw [heldAt_map (Timing.exactly_le_iff hfps)]
    split
    · next hcome =>
      obtain ⟨_, hf, hst, hfr⟩ := hcome
      obtain ⟨k, hk, rfl⟩ := hkey _ hf
      exact heldAt_filter_le hkeys hk hst hfr
    · next hnone =>
      refine heldAt_eq_none_iff.2 fun k hk => Int.not_le.1 fun hfr => hnone ?_
      obtain ⟨hk, hst⟩ := mem_filter.1 hk
      exact ⟨k.1, (of_mem_zip hk).1, of_decide_eq_true hst, hfr⟩
  refine ⟨hheld, fun h => ?_, fun h frame hst hfr => ?_⟩
  · by_contra hnot
    obtain ⟨hlate, hnot⟩ := not_or.1 hnot
    have hlost := h timing.start le_rfl (Int.le_of_lt (Int.not_le.1 hlate))
    rw [hheld, if_neg fun ⟨f, hf, hge, hle⟩ => hnot (Int.le_antisymm hle hge ▸ hf)] at hlost
    obtain ⟨k, hk, hfirst⟩ := hkey _ hfirst
    have := heldAt_eq_none_iff.1 hlost.symm k hk
    omega
  · rw [hheld, if_pos]
    rcases h with h | h
    · exact ⟨_, hfirst, h, hfr⟩
    · exact ⟨_, h, le_rfl, hst⟩

/-- A lamp that is on from frame 1 and off from frame 9. -/
def lamp : Track ℚ where
  kind := .value
  path := ⟨".", "visible"⟩
  interpolation := Interpolation.nearest
  frames := [1, 9]
  values := [.flag true, .flag false]
  parentInverse := .identity

/-- In a scene that starts at frame 5 the lamp is neither on nor off before frame 9. -/
theorem valueKeys_held_lamp : ∃ keys, lamp.valueKeys { start := 5 } = .ok keys ∧
    heldAt keys (Timing.exactly { start := 5 } 7) = none ∧
      heldAt (lamp.frames.zip lamp.values) 7 = some (.flag true) := by
  obtain ⟨keys, hkeys, hheld, -⟩ := @valueKeys_held_iff lamp { start := 5 } rfl (by decide) rfl
    (by decide) (by decide)
  exact ⟨keys, hkeys, (hheld 7).trans (if_neg (by decide)), rfl⟩

end Track

end SceneExport
