import Mathlib.Algebra.Order.Field.Rat
import Mathlib.Tactic.FieldSimp
import Mathlib.Tactic.Ring
import SceneExport.Space.Placement

/-!
# Exact arithmetic

Scalars that are a field, with an exact quarter turn (`ExactScalar`).  Over them affine maps are
composed associatively, and a map whose determinant is not zero has an inverse.

The rationals are such scalars, with angles in degrees.

A module about exact scalars imports this one first.  Of two instances the one that came later is
tried first, and the operations are to be found as those of `Scalar`, which the exporter computes
with, not as those of the field.
-/

namespace SceneExport

open Vec4 (dot map)

/-- Scalars without rounding. -/
class ExactScalar (α : Type) extends Scalar α, Field α where
  beq_iff_eq : ∀ {a b : α}, (a == b) = true ↔ a = b
  /-- A quarter turn backwards is one exactly. -/
  cos_quarter : Scalar.cos (Scalar.radians (-90.0) : α) = 0
  sin_quarter : Scalar.sin (Scalar.radians (-90.0) : α) = -1

namespace Mat4

variable {α : Type}

/-! ### Composition -/

theorem mul_eq [Add α] [Mul α] (a b : Mat4 α) :
    a * b = ⟨applyLeft a.r0 b, applyLeft a.r1 b, applyLeft a.r2 b, applyLeft a.r3 b⟩ :=
  rfl

variable [ExactScalar α] (v w : Vec4 α) (d : α)

theorem applyLeft_applyLeft (v : Vec4 α) (a b : Mat4 α) : applyLeft (applyLeft v a) b =
    applyLeft v (a * b) := by
  simp only [mul_eq, applyLeft, Vec4.dot, c0, c1, c2, c3, Vec4.mk.injEq]
  refine ⟨?_, ?_, ?_, ?_⟩ <;> ring

theorem mul_assoc (a b c : Mat4 α) : a * b * c = a * (b * c) := by
  rw [mul_eq (a * b), mul_eq a (b * c), ← applyLeft_applyLeft, ← applyLeft_applyLeft,
    ← applyLeft_applyLeft, ← applyLeft_applyLeft]
  rfl

theorem mul_identity (a : Mat4 α) : a * identity = a := by
  simp [mul_eq, applyLeft, dot, identity, c0, c1, c2, c3]

theorem identity_mul (a : Mat4 α) : identity * a = a := by
  simp [mul_eq, applyLeft, dot, identity, c0, c1, c2, c3]

/-! ### Inverses -/

theorem dot_map_div : v.dot (w.map (· / d)) = v.dot w / d := by
  simp only [dot, map]
  ring

/-- A row times the cofactors of another row is the determinant of the matrix that has the row in
the place of the other. -/
theorem mul_cofactors (m : Mat4 α) : m * m.cofactors.transpose =
    ⟨⟨m.det, 0, 0, 0⟩, ⟨0, m.det, 0, 0⟩, ⟨0, 0, m.det, 0⟩, ⟨0, 0, 0, m.det⟩⟩ := by
  simp only [mul_eq, applyLeft, dot, c0, c1, c2, c3, transpose, cofactors, det, det3, Mat4.mk.injEq,
    Vec4.mk.injEq]
  refine ⟨⟨trivial, ?_, ?_, ?_⟩, ⟨?_, ?_, ?_, ?_⟩, ⟨?_, ?_, ?_, ?_⟩, ?_, ?_, ?_, ?_⟩ <;> ring

variable {m : Mat4 α} {a b : Mat4 α}

theorem mul_inverseOrIdentity (h : m.det ≠ 0) : m * m.inverseOrIdentity = identity := by
  have hd : ¬(m.det == 0) = true := fun hd => h (ExactScalar.beq_iff_eq.1 hd)
  have hrow : ∀ v : Vec4 α, applyLeft v m.inverseOrIdentity =
    (applyLeft v m.cofactors.transpose).map (· / m.det) := by
    intro v
    simp only [inverseOrIdentity, inverse?, if_neg hd, Option.getD_some]
    simp [applyLeft, c0, c1, c2, c3, map, ← dot_map_div]
  have hm := m.mul_cofactors
  simp only [mul_eq, Mat4.mk.injEq] at hm
  rw [mul_eq, hrow, hrow, hrow, hrow, hm.1, hm.2.1, hm.2.2.1, hm.2.2.2]
  simp [identity, map, h]

theorem map_div_dot : (v.map (· / d)).dot w = v.dot w / d := by
  simp only [dot, map]
  ring

theorem cofactors_mul (m : Mat4 α) : m.cofactors.transpose * m =
    ⟨⟨m.det, 0, 0, 0⟩, ⟨0, m.det, 0, 0⟩, ⟨0, 0, m.det, 0⟩, ⟨0, 0, 0, m.det⟩⟩ := by
  simp only [mul_eq, applyLeft, dot, c0, c1, c2, c3, transpose, cofactors, det, det3, Mat4.mk.injEq,
    Vec4.mk.injEq]
  refine ⟨⟨?_, ?_, ?_, ?_⟩, ⟨?_, ?_, ?_, ?_⟩, ⟨?_, ?_, ?_, ?_⟩, ?_, ?_, ?_, ?_⟩ <;> ring

theorem inverseOrIdentity_mul (h : m.det ≠ 0) : m.inverseOrIdentity * m = identity := by
  have hd : ¬(m.det == 0) = true := fun hd => h (ExactScalar.beq_iff_eq.1 hd)
  have hrow : ∀ v : Vec4 α, applyLeft (v.map (· / m.det)) m = (applyLeft v m).map (· / m.det) := by
    intro v
    simp only [applyLeft, map, ← map_div_dot]
  have hm := m.cofactors_mul
  simp only [mul_eq, Mat4.mk.injEq] at hm
  simp only [inverseOrIdentity, inverse?, if_neg hd, Option.getD_some, mul_eq]
  rw [hrow, hrow, hrow, hrow, hm.1, hm.2.1, hm.2.2.1, hm.2.2.2]
  simp [identity, map, h]

theorem mul_left_cancel (hm : m.det ≠ 0) (h : m * a = m * b) : a = b := by
  rw [← identity_mul a, ← inverseOrIdentity_mul hm, mul_assoc, h, ← mul_assoc, inverseOrIdentity_mul
    hm, identity_mul]

theorem mul_right_cancel (hm : m.det ≠ 0) (h : a * m = b * m) : a = b := by
  rw [← mul_identity a, ← mul_inverseOrIdentity hm, ← mul_assoc, h, mul_assoc, mul_inverseOrIdentity
    hm, mul_identity]

theorem det_mul (a b : Mat4 α) : (a * b).det = a.det * b.det := by
  simp only [mul_eq, applyLeft, dot, c0, c1, c2, c3, cofactors, det, det3]
  ring

theorem det_identity : (identity : Mat4 α).det = 1 := by
  simp [det, cofactors, det3, dot, identity]

theorem det_inverseOrIdentity_ne_zero (h : m.det ≠ 0) : m.inverseOrIdentity.det ≠ 0 := by
  have hone : m.det * m.inverseOrIdentity.det = 1 := by
    rw [← det_mul, mul_inverseOrIdentity h, det_identity]
  exact right_ne_zero_of_mul_eq_one hone

/-! ### The quarter turn -/

theorem axisCorrection_eq : (axisCorrection : Mat4 α) =
    ⟨⟨1, 0, 0, 0⟩, ⟨0, 0, 1, 0⟩, ⟨0, -1, 0, 0⟩, ⟨0, 0, 0, 1⟩⟩ := by
  simp [axisCorrection, rotationX, ExactScalar.cos_quarter, ExactScalar.sin_quarter, neg_neg]

theorem det_axisCorrection : (axisCorrection : Mat4 α).det = 1 := by
  rw [axisCorrection_eq]
  simp [det, cofactors, det3, dot]

theorem axisCorrection_mul (h : (axisCorrection : Mat4 α).inverse? = some m) : axisCorrection * m =
    identity := by
  have hdet : (axisCorrection : Mat4 α).det ≠ 0 := by
    rw [det_axisCorrection]
    exact one_ne_zero
  rw [← mul_inverseOrIdentity hdet, inverseOrIdentity, h, Option.getD_some]

theorem axisCorrection_ne_identity : (axisCorrection : Mat4 α) ≠ identity := by
  intro h
  have hy : (0 : α) = 1 := by simpa [axisCorrection_eq, identity] using congrArg (·.r1.y) h
  exact zero_ne_one hy

end Mat4

/-! ### The rationals -/

/-- The sine of an angle in degrees, exact at quarter turns and zero elsewhere. -/
def quarterSine (degrees : ℚ) : ℚ :=
  if (degrees - 90) / 360 = ↑((degrees - 90) / 360).floor then 1
  else if (degrees + 90) / 360 = ↑((degrees + 90) / 360).floor then -1
  else 0

/-- A rational number as a quotient. -/
def quotientText (x : ℚ) : String :=
  toString x.num ++ "/" ++ toString x.den

/-- Rational numbers are exact scalars, if angles are measured in degrees. -/
instance : ExactScalar ℚ where
  __ := (inferInstance : Field ℚ)
  ofScientific := OfScientific.ofScientific
  beq a b := decide (a = b)
  lt := (· < ·)
  le := (· ≤ ·)
  decidableLT := inferInstance
  decidableLE := inferInstance
  ofRatio a b := .ok (a / b)
  compareInt a n := some (compare a n)
  truncate a := .ok (Int.tdiv a.num a.den)
  pi := 180
  sqrt a := Nat.sqrt a.num.natAbs / Nat.sqrt a.den
  sin := quarterSine
  cos a := quarterSine (a + 90)
  atan _ := 0
  atan2 _ _ := 0
  power a b := a ^ b.floor
  isNegative a := decide (a < 0)
  isInfinite _ := false
  marked _ _ a := a
  fileText := quotientText
  codeText := quotientText
  partText := quotientText
  noteText := quotientText
  beq_iff_eq := by simp
  cos_quarter := by decide +kernel
  sin_quarter := by decide +kernel

end SceneExport
