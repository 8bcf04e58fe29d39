import SceneExport.Proofs.Space.Exact
import Mathlib.Algebra.Order.Archimedean.Basic
import Mathlib.Data.Rat.Floor
import Mathlib.Tactic.LinearCombination
import Mathlib.Tactic.Linarith
import SceneExport.Animation.Attribute

/-!
# Strips that move and stretch an action

A strip spreads its action over its frames, so that a time of the action is shown at one frame
(`Strip.frameAt`), and the frame shows that time.  `Playback` has one linear function for both
ways.  Main statement: over the rationals it gives the end of the action at the end of the strip,
the start at the start only if the strip is as long as the action, and it takes frames and times to
one another only if the strip plays the action as it is (`Playback.ofStrip_inverse_iff`).
-/

namespace SceneExport

/-- The frame at which a strip shows a time of its action. -/
def Strip.frameAt (s : Strip ℚ) (a : Action ℚ) (x : ℚ) : ℚ :=
  s.start + (x - a.start) * ((s.stop - s.start) / (a.stop - a.start))

/-! ### Cutting off a fraction -/

/-- A rational number without its fraction. -/
def cutOff (x : ℚ) : Int :=
  x.num.tdiv x.den

theorem cutOff_intCast (k : Int) : cutOff k = k := by
  simp [cutOff]

theorem cutOff_le {x : ℚ} (h : 0 ≤ x) : (cutOff x : ℚ) ≤ x := by
  rw [cutOff, Int.tdiv_eq_ediv_of_nonneg (Rat.num_nonneg.2 h), ← Rat.floor_def]
  exact Rat.floor_le x

theorem le_cutOff {x : ℚ} (h : x ≤ 0) : x ≤ cutOff x := by
  have hneg := cutOff_le (neg_nonneg.2 h)
  rw [cutOff, Rat.num_neg_eq_neg_num, Rat.den_neg_eq_den, Int.neg_tdiv] at hneg
  push_cast at hneg
  exact neg_le_neg_iff.1 hneg

/-- Only a move by nothing takes all integers to themselves. -/
theorem cutOff_add_iff {d : ℚ} : (∀ k : Int, cutOff (k + d) = k) ↔ d = 0 := by
  constructor
  · intro h
    obtain ⟨n, hn⟩ := exists_nat_ge |d|
    have hup := cutOff_le (x := (n : Int) + d) (by have := neg_abs_le d; push_cast; linarith)
    have hdown := le_cutOff (x := (-n : Int) + d) (by have := le_abs_self d; push_cast; linarith)
    rw [h] at hup hdown
    linarith
  · rintro rfl k
    rw [add_zero, cutOff_intCast]

/-! ### Times and frames -/

/-- One linear function takes the frames of a strip to times and the times to frames only if both
are the same. -/
theorem linear_inverse_iff {r start stop first last : ℚ} (hr : 0 < r) (hlong : 0 < last - first)
    (hspan : r * (last - first) = stop - start) :
    (∀ (x : ℚ) (k : Int), start + (x - first) * r = k →
      cutOff (r * x + (last - r * stop)) = k ∧ r * k + (last - r * stop) = x) ↔ start = first ∧
      stop = last := by
  constructor
  · intro h
    have hk (k : Int) := h (first + (k - start) / r) k (by field_simp; ring)
    have h0 := (hk 0).2
    have h1 := (hk 1).2
    push_cast at h0 h1
    have hsq : r * r = 1 := by
      field_simp at h0 h1
      linear_combination h1 - h0
    obtain rfl : r = 1 := (mul_self_eq_one_iff.1 hsq).resolve_right (by linarith)
    have hmove : first - start + (last - stop) = 0 := cutOff_add_iff.1 fun k => by
      have hcut := (hk k).1
      rwa [show 1 * (first + (k - start) / 1) + (last - 1 * stop) =
        k + (first - start + (last - stop)) by ring] at hcut
    constructor <;> linarith
  · rintro ⟨rfl, rfl⟩ x k hx
    obtain rfl : r = 1 := (mul_eq_right₀ hlong.ne').1 hspan
    obtain rfl : x = k := by linear_combination hx
    rw [show 1 * (k : ℚ) + (stop - 1 * stop) = k by ring]
    exact ⟨cutOff_intCast k, rfl⟩

namespace Playback

variable {s : Strip ℚ} {a : Action ℚ}

theorem ofStrip_eq (h : a.start < a.stop) : ofStrip s a = .ok
    { action := some a, first := cutOff s.start, stop := cutOff s.stop + 1,
      stretch := some ⟨(s.stop - s.start) / (a.stop - a.start),
        a.stop - (s.stop - s.start) / (a.stop - a.start) * s.stop⟩ } := by
  have hne : ¬ (a.stop - a.start == 0) = true := fun h0 => (sub_pos.2 h).ne'
    (ExactScalar.beq_iff_eq.1 h0)
  unfold ofStrip
  rw [Scalar.divide, if_neg hne]
  rfl

/-- **Strips and the times of their actions.**  A strip plays an action from its start to its
stop.  The time at the end of the strip is the end of the action.  The time at its start is the
start of the action just if the two are equally long.  Each point of a curve that is shown at a
whole frame is put there, and that frame shows its time, just if the strip has the start and the end
of the action. -/
theorem ofStrip_inverse_iff (hs : s.start < s.stop) (ha : a.start < a.stop) :
    ∃ p stretch, ofStrip s a = .ok p ∧ p.stretch = some stretch ∧ stretch.time s.stop = a.stop ∧
      (stretch.time s.start = a.start ↔ s.stop - s.start = a.stop - a.start) ∧
      ((∀ (point : CurvePoint ℚ) (k : Int), s.frameAt a point.x = k →
          p.pointFrame point = .ok k ∧ p.time k = .ok (.real point.x)) ↔ s.start = a.start ∧
          s.stop = a.stop) := by
  have hlong : (0 : ℚ) < s.stop - s.start := sub_pos.2 hs
  have hlong' : (0 : ℚ) < a.stop - a.start := sub_pos.2 ha
  obtain ⟨r, hr⟩ : ∃ r : ℚ, r = (s.stop - s.start) / (a.stop - a.start) := ⟨_, rfl⟩
  have hpos : 0 < r := hr ▸ div_pos hlong hlong'
  have hspan : r * (a.stop - a.start) = s.stop - s.start := by rw [hr, div_mul_cancel₀ _ hlong'.ne']
  have heq := ofStrip_eq (s := s) ha
  rw [← hr] at heq
  refine ⟨_, _, heq, rfl, ?_, ?_, ?_⟩
  · show r * s.stop + (a.stop - r * s.stop) = a.stop
    ring
  · show r * s.start + (a.stop - r * s.stop) = a.start ↔ _
    rw [← hspan]
    constructor
    · intro h
      have hsq : r * r = 1 := mul_right_cancel₀ hlong'.ne' (by linear_combination r * hspan - h)
      rw [(mul_self_eq_one_iff.1 hsq).resolve_right (by linarith), one_mul]
    · intro h
      rw [(mul_eq_right₀ hlong'.ne').1 h] at hspan ⊢
      linear_combination hspan
  · refine Iff.trans ?_ (linear_inverse_iff hpos hlong' hspan)
    have hfr (x : ℚ) : s.frameAt a x = s.start + (x - a.start) * r := by rw [hr]; rfl
    have hmaps (point : CurvePoint ℚ) (k : Int) :
        (.ok (cutOff (r * point.x + (a.stop - r * s.stop))) = (.ok k : Except Failure Int) ∧
          .ok (.real (r * (k / 1) + (a.stop - r * s.stop))) =
          (.ok (.real point.x) : Except Failure (Quantity ℚ))) ↔
        cutOff (r * point.x + (a.stop - r * s.stop)) = k ∧
          r * k + (a.stop - r * s.stop) = point.x := by
      rw [Except.ok.injEq, Except.ok.injEq, Quantity.real.injEq, div_one]
    constructor
    · intro h x k hx
      exact (hmaps ⟨x, 0, 0, 0, 0, 0⟩ k).1 (h _ k ((hfr x).trans hx))
    · intro h point k hx
      exact (hmaps point k).2 (h point.x k ((hfr point.x).symm.trans hx))

/-- A strip that plays an action half as fast does not begin with the start of the action. -/
theorem ofStrip_slowed : ∃ p stretch, ofStrip ⟨"Slow", none, 1, 3⟩ (⟨"Move", 1, 2, []⟩ : Action ℚ) =
    .ok p ∧ p.stretch = some stretch ∧ stretch.time 1 ≠ 1 ∧ stretch.time 3 = 2 := by
  obtain ⟨p, stretch, hp, hstre, hstop, hst, -⟩ :=
    ofStrip_inverse_iff (s := ⟨"Slow", none, 1, 3⟩) (a := ⟨"Move", 1, 2, []⟩) (by decide)
      (by decide)
  exact ⟨p, stretch, hp, hstre, fun h => absurd (hst.1 h) (by decide +kernel), hstop⟩

end Playback

end SceneExport
