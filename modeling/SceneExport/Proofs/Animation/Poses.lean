import Mathlib.Analysis.SpecialFunctions.Pow.Real
import Mathlib.Analysis.SpecialFunctions.Trigonometric.Arctan
import Mathlib.Tactic.LinearCombination
import SceneExport.Proofs.Space.Axes
import SceneExport.Proofs.Physics.Placed

/-!
# Keys and transforms

What the numbers of a transform key and of a written transform stand for (`keyMap?`,
`transformMap?`), in arithmetic with exact turns (`TurnScalar`).  The change of axes on location,
rotation and scale is the one on the map that they make up (`Mat4.toYUp_animated`), so the keys of a
bone stand for the poses that are written for it.  For the keys of an object that holds of the
location, but not always of the linear part.
-/

namespace SceneExport

open Mat3 (diagonal toMat4)
open Vec4 (dot xyz)
open Scalar (cos sin radians)

/-- Exact scalars whose square root and trigonometric functions are exact too. -/
class TurnScalar (α : Type) extends ExactScalar α where
  two_eq : (2.0 : α) = 1 + 1
  sqrt_one : Scalar.sqrt (1 : α) = 1
  cos_zero : cos (0 : α) = 1
  sin_zero : sin (0 : α) = 0
  cos_sq_add_sin_sq : ∀ x : α, cos x * cos x + sin x * sin x = 1
  cos_double : ∀ x : α, cos x = cos (x * 0.5) * cos (x * 0.5) - sin (x * 0.5) * sin (x * 0.5)
  sin_double : ∀ x : α, sin x = (1 + 1) * (cos (x * 0.5) * sin (x * 0.5))

/-! ### The real numbers -/

theorem quarter_eq : (-90.0 : ℝ) * (Real.pi / 180.0) = -(Real.pi / 2) := by
  norm_num
  ring

theorem double_half (x : ℝ) : x = 2 * (x * 0.5) := by
  norm_num
  ring

open Classical in
/-- The real numbers, which have no exact texts. -/
noncomputable instance : TurnScalar ℝ where
  __ := (inferInstance : Field ℝ)
  ofScientific := OfScientific.ofScientific
  beq a b := decide (a = b)
  lt := (· < ·)
  le := (· ≤ ·)
  decidableLT := inferInstance
  decidableLE := inferInstance
  ofRatio a b := .ok (a / b)
  compareInt a n := some (if a < n then .lt else if a = n then .eq else .gt)
  truncate a := .ok (if 0 ≤ a then ⌊a⌋ else ⌈a⌉)
  pi := Real.pi
  sqrt := Real.sqrt
  sin := Real.sin
  cos := Real.cos
  atan := Real.arctan
  atan2 y x := Complex.arg ⟨x, y⟩
  power a b := a ^ b
  isNegative a := decide (a < 0)
  isInfinite _ := false
  marked _ _ a := a
  fileText a := quotientText ⌊a⌋
  codeText a := quotientText ⌊a⌋
  partText a := quotientText ⌊a⌋
  noteText a := quotientText ⌊a⌋
  beq_iff_eq := by simp
  cos_quarter := (congrArg Real.cos quarter_eq).trans (by rw [Real.cos_neg, Real.cos_pi_div_two])
  sin_quarter := (congrArg Real.sin quarter_eq).trans (by rw [Real.sin_neg, Real.sin_pi_div_two])
  two_eq := show (2.0 : ℝ) = 1 + 1 by norm_num
  sqrt_one := Real.sqrt_one
  cos_zero := Real.cos_zero
  sin_zero := Real.sin_zero
  cos_sq_add_sin_sq x := by
    have h := Real.cos_sq_add_sin_sq x
    rwa [sq, sq] at h
  cos_double x := by
    have h := Real.cos_two_mul' (x * 0.5)
    rwa [← double_half, sq, sq] at h
  sin_double x := by
    have h := Real.sin_two_mul (x * 0.5)
    rw [← double_half] at h
    refine h.trans ?_
    ring

/-! ### Maps in parts -/

namespace Mat4

/-- A map in parts: a scaling, then a rotation, then a move. -/
def ofParts {α : Type} [Scalar α] (location : Vec3 α) (rotation : Quat α) (scale : Vec3 α) :
    Mat4 α :=
  ofLocation location * rotation.toMat3.toMat4 * (diagonal scale).toMat4

variable {α : Type} [ExactScalar α] (v : Vec3 α)

theorem toYUp_rotation (q : Quat α) : q.toMat3.toMat4.toYUp = q.toYUp.toMat3.toMat4 := by
  simp only [toYUp, Quat.toMat3, toMat4, Quat.toYUp, Mat4.mk.injEq, Vec4.mk.injEq]
  refine ⟨⟨?_, ?_, ?_, trivial⟩, ⟨?_, ?_, ?_, trivial⟩, ⟨?_, ?_, trivial, neg_zero⟩, trivial⟩ <;>
    ring

theorem toYUp_diagonal : (diagonal v).toMat4.toYUp = (diagonal v.scaleToYUp).toMat4 := by
  simp [toYUp, diagonal, toMat4, Vec3.scaleToYUp]

theorem toYUp_ofLocation : (ofLocation v).toYUp = ofLocation v.toYUp := by
  simp [toYUp, ofLocation, Vec3.toYUp]

theorem isAffine_ofLocation : (ofLocation v).IsAffine :=
  rfl

theorem isAffine_toMat4 (m : Mat3 α) : m.toMat4.IsAffine :=
  rfl

theorem isAffine_ofParts (l : Vec3 α) (q : Quat α) (s : Vec3 α) : (ofParts l q s).IsAffine :=
  ((isAffine_ofLocation l).mul (isAffine_toMat4 _)).mul (isAffine_toMat4 _)

end Mat4

namespace Quat

variable {α : Type} [TurnScalar α] {q : Quat α}

theorem mul_eq (p q : Quat α) : p * q =
    ⟨p.w * q.w - p.x * q.x - p.y * q.y - p.z * q.z, p.w * q.x + p.x * q.w + p.y * q.z - p.z * q.y,
      p.w * q.y + p.y * q.w + p.z * q.x - p.x * q.z, p.w * q.z + p.z * q.w + p.x * q.y - p.y * q.x⟩
      :=
  rfl

theorem normalize_of_unit (h : q.normSq = 1) : q.normalize = q := by
  have hone : ¬((1 : α) == 0) = true := fun h => one_ne_zero (ExactScalar.beq_iff_eq.1 h)
  simp [normalize, h, TurnScalar.sqrt_one, hone, map]

theorem normSq_toYUp (q : Quat α) : q.toYUp.normSq = q.normSq := by
  simp only [normSq, toYUp]
  ring

theorem normSq_mul (p q : Quat α) : (p * q).normSq = p.normSq * q.normSq := by
  simp only [normSq, mul_eq]
  ring

/-! ### The quarter turn -/

/-- Half of a quarter turn backwards, and the products of its cosine and sine. -/
theorem directionalTurn_eq : ∃ c s : α, TransformFrame.directionalTurn = ⟨c, s, 0, 0⟩ ∧
    c * c + s * s = 1 ∧ c * c - s * s = 0 ∧ (1 + 1) * (c * s) = -1 := by
  refine ⟨cos (radians (-90.0) * 0.5), sin (radians (-90.0) * 0.5), ?_, TurnScalar.cos_sq_add_sin_sq
    _, ?_, ?_⟩
  · simp [TransformFrame.directionalTurn, Euler.toQuat, EulerOrder.axes, EulerOrder.isOdd, Vec3.get,
      Vec3.set, TurnScalar.cos_zero, TurnScalar.sin_zero]
  · rw [← TurnScalar.cos_double, ExactScalar.cos_quarter]
  · rw [← TurnScalar.sin_double, ExactScalar.sin_quarter]

theorem normSq_directionalTurn : (TransformFrame.directionalTurn : Quat α).normSq = 1 := by
  obtain ⟨c, s, hturn, hone, -⟩ := directionalTurn_eq (α := α)
  rw [hturn, normSq, ← hone]
  ring

/-- A unit rotation after half of the quarter turn is the rotation after the quarter turn. -/
theorem toMat3_mul_directionalTurn (h : q.normSq = 1) :
    (q * TransformFrame.directionalTurn).toMat3.toMat4 = q.toMat3.toMat4 * axisCorrection := by
  obtain ⟨c, s, hturn, hone, hzero, htwo⟩ := directionalTurn_eq (α := α)
  rw [hturn, Mat4.axisCorrection_eq, Mat4.mul_eq]
  simp only [normSq] at h
  simp only [Quat.mul_eq, toMat3, toMat4, Mat4.applyLeft, dot, Mat4.c0, Mat4.c1, Mat4.c2,
    Mat4.c3, TurnScalar.two_eq, mul_zero, zero_mul, mul_one, add_zero, zero_add, sub_zero,
    Mat4.mk.injEq, Vec4.mk.injEq, and_true]
  refine ⟨⟨?_, ?_, ?_⟩, ⟨?_, ?_, ?_⟩, ?_, ?_, ?_⟩ <;> grind

theorem det_toMat3 (h : q.normSq = 1) : q.toMat3.toMat4.det = 1 := by
  simp only [normSq] at h
  simp only [Mat4.det, Mat4.cofactors, det3, dot, toMat4, toMat3, TurnScalar.two_eq]
  linear_combination 4 * (q.x * q.x + q.y * q.y + q.z * q.z) * h

end Quat

/-! ### Linear parts and locations -/

namespace Mat4

variable {α : Type} [ExactScalar α] {m n p : Mat4 α} (d : Bool)

theorem toYUp_inj : m.toYUp = n.toYUp ↔ m = n := by
  refine ⟨fun h => ?_, congrArg toYUp⟩
  obtain ⟨⟨_, _, _, _⟩, ⟨_, _, _, _⟩, ⟨_, _, _, _⟩, _⟩ := m
  obtain ⟨⟨_, _, _, _⟩, ⟨_, _, _, _⟩, ⟨_, _, _, _⟩, _⟩ := n
  simp only [toYUp, Mat4.mk.injEq, Vec4.mk.injEq, neg_inj] at h ⊢
  grind

theorem eq_iff_of_isAffine (hm : m.IsAffine) (hn : n.IsAffine) :
    m = n ↔ m.location = n.location ∧ m.linear = n.linear := by
  obtain ⟨⟨_, _, _, _⟩, ⟨_, _, _, _⟩, ⟨_, _, _, _⟩, _⟩ := m
  obtain ⟨⟨_, _, _, _⟩, ⟨_, _, _, _⟩, ⟨_, _, _, _⟩, _⟩ := n
  simp only [IsAffine] at hm hn
  simp only [location, linear, xyz, Mat4.mk.injEq, Vec4.mk.injEq, Vec3.mk.injEq, Mat3.mk.injEq, hm,
    hn]
  grind

theorem location_mul (m : Mat4 α) (hn : n.IsAffine) : (m * n).location =
    m.applyPoint n.location := by
  simp only [IsAffine] at hn
  simp [mul_eq, applyLeft, location, applyPoint, apply, Vec3.homogeneous, dot, xyz, hn, c3]

theorem linear_mul (m : Mat4 α) (hn : n.IsAffine) : (m * n).linear.toMat4 = m.linear.toMat4 *
    n.linear.toMat4 := by
  simp only [IsAffine] at hn
  simp [mul_eq, applyLeft, linear, toMat4, dot, xyz, hn, c0, c1, c2, c3]

theorem linear_toMat4 (m : Mat3 α) : m.toMat4.linear = m :=
  rfl

theorem location_mul_toMat4 (m : Mat4 α) (n : Mat3 α) : (m * n.toMat4).location = m.location := by
  simp [mul_eq, applyLeft, location, toMat4, dot, c3]

/-- A map that only moves counts nothing in a linear part. -/
theorem linear_mul_of_linear (hp : p.linear = (identity : Mat4 α).linear) (hm : m.IsAffine) :
    (p * m).linear = m.linear := by
  have hline := linear_mul p hm
  rw [hp, show (identity : Mat4 α).linear.toMat4 = identity from rfl, identity_mul] at hline
  simpa only [linear_toMat4] using congrArg linear hline

/-! ### Turned maps -/

theorem axisCorrection_eq_toMat4 : (axisCorrection : Mat4 α) =
    (⟨⟨1, 0, 0⟩, ⟨0, 0, 1⟩, ⟨0, -1, 0⟩⟩ : Mat3 α).toMat4 :=
  axisCorrection_eq

theorem isAffine_turnedIf (hm : m.IsAffine) (turned : Bool) : (m.turnedIf turned).IsAffine := by
  cases turned with
  | false => exact hm
  | true =>
    rw [turnedIf, if_pos rfl, axisCorrection_eq_toMat4]
    exact hm.mul (isAffine_toMat4 _)

theorem location_turnedIf (m : Mat4 α) (turned : Bool) : (m.turnedIf turned).location =
    m.location := by
  cases turned with
  | false => rfl
  | true => rw [turnedIf, if_pos rfl, axisCorrection_eq_toMat4, location_mul_toMat4]

theorem mul_turnedIf (m n : Mat4 α) (turned : Bool) : m * n.turnedIf turned = (m * n).turnedIf
    turned := by
  cases turned with
  | false => rfl
  | true => exact (mul_assoc m n axisCorrection).symm

theorem toYUp_turnedIf (hm : m.IsAffine) (turned : Bool) : (m.turnedIf turned).toYUp =
    m.toYUp.turnedIf turned := by
  cases turned with
  | false => rfl
  | true =>
    have hturn : (axisCorrection : Mat4 α).toYUp = axisCorrection := by
      simp [axisCorrection_eq, toYUp]
    have haffi : (axisCorrection : Mat4 α).IsAffine := by
      rw [axisCorrection_eq]
      rfl
    simp [turnedIf, toYUp_mul hm haffi, hturn]

/-- What the keys of a track show before the change of axes: the parent moves the location, and a
turn comes between the rotation and the scaling. -/
def animated (directional : Bool) (p : Mat4 α) (l : Vec3 α) (q : Quat α) (s : Vec3 α) : Mat4 α :=
  ofLocation (p.applyPoint l) * q.toMat3.toMat4.turnedIf directional * (diagonal s).toMat4

theorem animated_identity (l : Vec3 α) (q : Quat α) (s : Vec3 α) : animated false identity l q s =
    ofParts l q s := by
  have hl : (identity : Mat4 α).applyPoint l = l := by
    simp [identity, applyPoint, apply, Vec3.homogeneous, dot, xyz]
  rw [animated, hl]
  rfl

theorem isAffine_animated (p : Mat4 α) (l : Vec3 α) (q : Quat α) (s : Vec3 α) :
    (animated d p l q s).IsAffine :=
  ((isAffine_ofLocation _).mul (isAffine_turnedIf (isAffine_toMat4 _) d)).mul (isAffine_toMat4 _)

theorem location_animated (p : Mat4 α) (l : Vec3 α) (q : Quat α) (s : Vec3 α) :
    (animated d p l q s).location = p.applyPoint l := by
  rw [animated, location_mul_toMat4, mul_turnedIf, location_turnedIf, location_mul_toMat4]
  rfl

theorem linear_animated (p : Mat4 α) (l : Vec3 α) (q : Quat α) (s : Vec3 α) :
    (animated d p l q s).linear = (q.toMat3.toMat4.turnedIf d * (diagonal s).toMat4).linear := by
  rw [animated, mul_assoc]
  have hrs := (isAffine_turnedIf (isAffine_toMat4 q.toMat3) d).mul (isAffine_toMat4 (diagonal s))
  exact linear_mul_of_linear (p := ofLocation _) rfl hrs

theorem location_toYUp (m : Mat4 α) : m.toYUp.location = m.location.toYUp :=
  rfl

theorem location_turnedIf_mul_ofParts (turned : Bool) (p : Mat4 α) (l : Vec3 α) (q : Quat α)
    (s : Vec3 α) :
    ((p * ofParts l q s).turnedIf turned).location = p.applyPoint l := by
  rw [location_turnedIf, location_mul p (isAffine_ofParts l q s), ofParts, location_mul_toMat4,
    location_mul_toMat4]
  rfl

/-- The keys of a track show the map of a node exactly if the two have one linear part. -/
theorem animated_eq_iff (d turned : Bool) (hp : p.IsAffine) (l : Vec3 α) (q : Quat α) (s : Vec3 α) :
    animated d p l q s = (p * ofParts l q s).turnedIf turned ↔
    ((p * ofParts l q s).turnedIf turned).linear =
    (q.toMat3.toMat4.turnedIf d * (diagonal s).toMat4).linear := by
  have hmap := isAffine_turnedIf (hp.mul (isAffine_ofParts l q s)) turned
  rw [eq_iff_of_isAffine (isAffine_animated d p l q s) hmap, location_animated, linear_animated,
    location_turnedIf_mul_ofParts, eq_comm (a := Mat4.linear _)]
  exact and_iff_right rfl

section Turns

variable {α : Type} [TurnScalar α] {m n p : Mat4 α} {q : Quat α}

theorem toYUp_animated (hq : q.normSq = 1) (d : Bool) (p : Mat4 α) (l s : Vec3 α) :
    (animated d p l q s).toYUp = ofParts (p.applyPoint l).toYUp
      (if d then q.toYUp * TransformFrame.directionalTurn else q.toYUp) s.scaleToYUp := by
  have hr := isAffine_turnedIf (isAffine_toMat4 q.toMat3) d
  have hturn : (if d then q.toYUp * TransformFrame.directionalTurn else q.toYUp).toMat3.toMat4
      = q.toYUp.toMat3.toMat4.turnedIf d := by
    cases d with
    | false => rfl
    | true => exact Quat.toMat3_mul_directionalTurn (q.normSq_toYUp.trans hq)
  rw [animated, toYUp_mul ((isAffine_ofLocation _).mul hr) (isAffine_toMat4 _),
    toYUp_mul (isAffine_ofLocation _) hr, toYUp_turnedIf (isAffine_toMat4 _), toYUp_ofLocation,
    toYUp_rotation, toYUp_diagonal, ofParts, hturn]

/-- A rotation can be left out of an equality of linear parts. -/
theorem rotation_mul_linear_iff (hq : q.normSq = 1) (hm : m.IsAffine) (hn : n.IsAffine)
    (hloca : m.location = n.location) : (q.toMat3.toMat4 * m).linear =
    (q.toMat3.toMat4 * n).linear ↔ m = n := by
  have hr := isAffine_toMat4 q.toMat3
  have hdet : q.toMat3.toMat4.det ≠ 0 := by
    rw [Quat.det_toMat3 hq]
    exact one_ne_zero
  refine ⟨fun h => mul_left_cancel hdet ?_, fun h => h ▸ rfl⟩
  rw [eq_iff_of_isAffine (hr.mul hm) (hr.mul hn), location_mul _ hm, location_mul _ hn, hloca]
  exact ⟨rfl, h⟩

/-- A scaling and a quarter turn, in the one order and in the other. -/
theorem turned_diagonal_iff (turned d : Bool) (s : Vec3 α) :
    (diagonal s).toMat4.turnedIf turned = identity.turnedIf d * (diagonal s).toMat4 ↔
      if turned = d then turned = true → s.y = s.z else s.y = 0 ∧ s.z = 0 := by
  cases turned <;> cases d <;>
    simp [turnedIf, axisCorrection_eq, mul_eq, applyLeft, dot, diagonal, toMat4, identity, c0, c1,
      c2, c3]
  all_goals grind

/-- Below a parent that only moves, the turns before and after the scaling decide. -/
theorem turned_linear_iff_of_linear (hq : q.normSq = 1) {d turned : Bool}
    (hp : p.linear = (identity : Mat4 α).linear) {l s : Vec3 α} :
    ((p * ofParts l q s).turnedIf turned).linear =
    (q.toMat3.toMat4.turnedIf d * (diagonal s).toMat4).linear ↔ if turned = d then turned = true →
    s.y = s.z else s.y = 0 ∧ s.z = 0 := by
  have hr := isAffine_toMat4 q.toMat3
  have hs := isAffine_turnedIf (isAffine_toMat4 (diagonal s)) turned
  have hown : ((p * ofParts l q s).turnedIf turned).linear
      = (q.toMat3.toMat4 * (diagonal s).toMat4.turnedIf turned).linear := by
    rw [← mul_turnedIf, linear_mul_of_linear hp (isAffine_turnedIf (isAffine_ofParts l q s) turned),
      ofParts, mul_assoc, ← mul_turnedIf, ← mul_turnedIf]
    exact linear_mul_of_linear (p := ofLocation l) rfl (hr.mul hs)
  have hturn : q.toMat3.toMat4.turnedIf d * (diagonal s).toMat4
      = q.toMat3.toMat4 * (identity.turnedIf d * (diagonal s).toMat4) := by
    rw [← mul_assoc, mul_turnedIf, mul_identity]
  have hkey : (identity.turnedIf d * (diagonal s).toMat4).IsAffine :=
    (isAffine_turnedIf (show identity.IsAffine from rfl) d).mul (isAffine_toMat4 _)
  rw [hown, hturn, rotation_mul_linear_iff hq hs hkey, turned_diagonal_iff]
  rw [location_turnedIf, location_mul_toMat4, location_turnedIf]
  rfl

theorem det_diagonal (s : Vec3 α) : (diagonal s).toMat4.det = s.x * s.y * s.z := by
  simp only [det, cofactors, det3, dot, diagonal, toMat4]
  ring

/-- Below any parent, a node that is scaled to something shows whether the parent only moves. -/
theorem linear_iff_of_scale (hq : q.normSq = 1) (p : Mat4 α) (l : Vec3 α) {s : Vec3 α}
    (hs : s.x * s.y * s.z ≠ 0) :
    (p * ofParts l q s).linear = (q.toMat3.toMat4 * (diagonal s).toMat4).linear ↔
      p.linear = (identity : Mat4 α).linear := by
  have hown : (ofParts l q s).linear = (q.toMat3.toMat4 * (diagonal s).toMat4).linear := by
    rw [ofParts, mul_assoc]
    exact linear_mul_of_linear (p := ofLocation l) rfl ((isAffine_toMat4 _).mul (isAffine_toMat4 _))
  refine ⟨fun h => ?_, fun h => (linear_mul_of_linear h (isAffine_ofParts l q s)).trans hown⟩
  have hrs : (q.toMat3.toMat4 * (diagonal s).toMat4).linear.toMat4 = q.toMat3.toMat4 *
    (diagonal s).toMat4 :=
    linear_mul _ (isAffine_toMat4 _)
  have hdet : (q.toMat3.toMat4 * (diagonal s).toMat4).det ≠ 0 := by
    rw [det_mul, Quat.det_toMat3 hq, det_diagonal, one_mul]
    exact hs
  have hmul : p.linear.toMat4 * (q.toMat3.toMat4 * (diagonal s).toMat4)
      = identity * (q.toMat3.toMat4 * (diagonal s).toMat4) := by
    rw [identity_mul, ← hrs, ← hown, ← linear_mul p (isAffine_ofParts l q s), h, hown]
  simpa only [linear_toMat4] using congrArg linear (mul_right_cancel hdet hmul)

end Turns

end Mat4

/-! ### What numbers stand for -/

section Numbers

variable {α : Type} [Scalar α]

/-- The map of a transform key: after time and transition come location, rotation with its real part
last, and scale. -/
def keyMap? : List α → Option (Mat4 α)
  | [_, _, x, y, z, i, j, k, w, a, b, c] => some (.ofParts ⟨x, y, z⟩ ⟨w, i, j, k⟩ ⟨a, b, c⟩)
  | _ => none

/-- The map of a written transform: the rows of the linear part, then the location. -/
def transformMap? : List α → Option (Mat4 α)
  | [a, b, c, d, e, f, g, h, i, x, y, z] =>
    some ⟨⟨a, b, c, x⟩, ⟨d, e, f, y⟩, ⟨g, h, i, z⟩, ⟨0, 0, 0, 1⟩⟩
  | _ => none

end Numbers

section Keys

variable {α : Type}

theorem transformMap?_transformNumbers [ExactScalar α] {m : Mat4 α} (hm : m.IsAffine) :
    transformMap? (Value.transformNumbers m) = some m.toYUp := by
  simp only [Mat4.IsAffine] at hm
  simp only [Value.transformNumbers, xyz, Vec3.toList, Mat4.location, Mat4.toYUp, hm]
  rfl

variable [TurnScalar α] {f : TransformFrame α} {q : Quat α} {t : Track α}

theorem TransformFrame.keyRotation_of_unit (hf : f.rotation = .ok q) (hq : q.normSq = 1)
    (d : Bool) :
    f.keyRotation d = .ok (if d then q.toYUp * directionalTurn else q.toYUp) := by
  have hunit : (if d then q.toYUp * directionalTurn else q.toYUp).normSq = 1 := by
    cases d with
    | false => exact q.normSq_toYUp.trans hq
    | true =>
      rw [if_pos rfl, Quat.normSq_mul, Quat.normSq_toYUp, hq, Quat.normSq_directionalTurn, one_mul]
  simp only [keyRotation, hf, bind, Except.bind]
  rw [Quat.normalize_of_unit hunit]
  rfl

theorem Track.parentInverse_of_ofKeys {kind : TrackKind} {path : NodePath} {frames : List Int}
    {values : List (KeyValue α)} (ht : ofKeys kind path frames values = .ok t) :
    t.parentInverse = .transform .identity ∧ t.directional = false := by
  rw [ofKeys] at ht
  split at ht
  · cases ht
    exact ⟨rfl, rfl⟩
  · cases ht

theorem Track.transformKey_map (hf : f.rotation = .ok q) (hq : q.normSq = 1) {p : Mat4 α}
    (ht : t.parentInverse = .transform p) (hp : p.IsAffine) (timing : Timing) (duration : α)
    (frame : Int) :
    (t.transformKey timing duration frame (.transform f)).map keyMap? =
      (keyTime timing duration frame).map fun _ =>
        some (Mat4.animated t.directional p f.location q f.scale).toYUp := by
  simp only [transformKey, TransformFrame.key, ht, f.keyLocation_of_isAffine hp,
    TransformFrame.keyRotation_of_unit hf hq, bind, Except.bind, Mat4.toYUp_animated hq]
  cases keyTime timing duration frame with
  | error e => rfl
  | ok time => rfl

namespace Track

/-- A track that is made for a bone has no parent and no direction, so the key of a frame stands for
what is written for the frame put together. -/
theorem transformKey_eq_pose {path : NodePath} {frames : List Int} {values : List (KeyValue α)}
    {t : Track α} (ht : ofKeys .transform path frames values = .ok t) {f : TransformFrame α}
    {q : Quat α} (hf : f.rotation = .ok q) (hq : q.normSq = 1) (timing : Timing) (duration : α)
    (frame : Int) :
    ∃ pose, transformMap? (Value.transformNumbers (.ofParts f.location q f.scale)) = some pose ∧
      (t.transformKey timing duration frame (.transform f)).map keyMap? =
        (keyTime timing duration frame).map fun _ => some pose := by
  refine ⟨(Mat4.ofParts f.location q f.scale).toYUp, transformMap?_transformNumbers
    (Mat4.isAffine_ofParts _ _ _), ?_⟩
  obtain ⟨hpar, hdire⟩ := parentInverse_of_ofKeys ht
  rw [transformKey_map hf hq hpar rfl, hdire, Mat4.animated_identity]

/-- A nod of a thing that is twice as deep as it is high. -/
noncomputable def nod : TransformFrame ℝ :=
  ⟨⟨1, 2, 3⟩, ⟨1, 2, 1⟩, .quaternion, .identity, ⟨3 / 5, 4 / 5, 0, 0⟩⟩

theorem normSq_nod : nod.quaternion.normSq = 1 := by
  simp only [nod, Quat.normSq]
  norm_num

theorem transformKey_eq_pose_nod : ∃ t pose,
    ofKeys .transform ⟨"Skeleton", "Head"⟩ [5] [.transform nod] = .ok t ∧
      transformMap? (Value.transformNumbers (.ofParts nod.location nod.quaternion nod.scale)) =
      some pose ∧ (t.transformKey {} 1 5 (.transform nod)).map keyMap? = .ok (some pose) := by
  have ht : ofKeys .transform ⟨"Skeleton", "Head"⟩ [5] [.transform nod] = .ok _ := rfl
  obtain ⟨pose, hpose, hkey⟩ := transformKey_eq_pose ht (f := nod) rfl normSq_nod {} 1 5
  exact ⟨_, pose, ht, hpose, hkey⟩

/-- The key of a frame and what is written for a node with the same parts below a parent stand for
maps that share their location, and are one exactly if their linear parts are: the parent acts on
the location of a key alone, and a direction is corrected before the scaling and not after it.

Below a parent that only moves, that is so for a node without a direction, and for a node with one
if its second and third scale factors are equal.  It is so for no node of some size that is turned
in only one of the two ways.  Below any other parent it is not so for a node of some size without a
direction. -/
theorem transformKey_eq_node_iff {t : Track α} {p : Mat4 α} (ht : t.parentInverse = .transform p)
    (hp : p.IsAffine) {f : TransformFrame α} {q : Quat α} (hf : f.rotation = .ok q)
    (hq : q.normSq = 1) (timing : Timing) (duration : α) (frame : Int) :
    ∃ key, (t.transformKey timing duration frame (.transform f)).map keyMap? =
        (keyTime timing duration frame).map (fun _ => some key) ∧
      ∀ turned, ∃ node, transformMap? (Value.transformNumbers
          ((p * .ofParts f.location q f.scale).turnedIf turned)) = some node ∧
        key.location = node.location ∧
        (key = node ↔ ((p * .ofParts f.location q f.scale).turnedIf turned).linear
          = (q.toMat3.toMat4.turnedIf t.directional * (diagonal f.scale).toMat4).linear) ∧
        (p.linear = (Mat4.identity : Mat4 α).linear → (key = node ↔
          if turned = t.directional then turned = true → f.scale.y = f.scale.z
          else f.scale.y = 0 ∧ f.scale.z = 0)) ∧
        (turned = false → t.directional = false → f.scale.x * f.scale.y * f.scale.z ≠ 0 →
          (key = node ↔ p.linear = (Mat4.identity : Mat4 α).linear)) := by
  refine ⟨_, transformKey_map hf hq ht hp timing duration frame, fun turned => ?_⟩
  have hmap := hp.mul (Mat4.isAffine_ofParts f.location q f.scale)
  have hiff := Mat4.toYUp_inj.trans (Mat4.animated_eq_iff t.directional turned hp f.location q
    f.scale)
  refine ⟨_, transformMap?_transformNumbers (Mat4.isAffine_turnedIf hmap turned), ?_, hiff, ?_, ?_⟩
  · rw [Mat4.location_toYUp, Mat4.location_toYUp, Mat4.location_animated,
      Mat4.location_turnedIf_mul_ofParts]
  · intro hmove
    exact hiff.trans (Mat4.turned_linear_iff_of_linear hq hmove)
  · rintro rfl hpln hscale
    rw [hiff, hpln]
    exact Mat4.linear_iff_of_scale hq p f.location hscale

/-- A camera five above its parent, whose nod is animated. -/
noncomputable def camera : Track ℝ :=
  { kind := .transform, path := ⟨".", ""⟩, directional := true
    parentInverse := .transform (.ofLocation ⟨0, 0, 5⟩) }

theorem transformKey_eq_node_iff_camera :
    ∃ key node, (camera.transformKey {} 1 5 (.transform nod)).map keyMap? = .ok (some key) ∧
      transformMap? (Value.transformNumbers
        (.ofLocation ⟨0, 0, 5⟩ * Mat4.ofParts nod.location nod.quaternion nod.scale).directional)
          = some node ∧
      key.location = node.location ∧ key ≠ node := by
  obtain ⟨key, hkey, hnode⟩ :=
    transformKey_eq_node_iff (t := camera) rfl rfl (f := nod) rfl normSq_nod {} 1 5
  obtain ⟨node, hmap, hloca, -, hmove, -⟩ := hnode true
  refine ⟨key, node, hkey, hmap, hloca, fun h => ?_⟩
  have hscale : nod.scale.y = nod.scale.z := (hmove rfl).1 h rfl
  simp [nod] at hscale

end Track

end Keys

end SceneExport
