import SceneExport.Proofs.Space.Exact
import SceneExport.Export.Nodes

/-!
# One change of axes

The change of axes on affine maps is a homomorphism that agrees with the one on points
(`Mat4.toYUp_mul`, `Mat4.applyPoint_toYUp`), so a tree of nodes can be converted node by node.  The
corners of meshes, the points of curves and the locations of animated objects are all converted
by the one on points, although each place computes it in its own way.
-/

namespace SceneExport

/-- Scalars that are a commutative ring.  Of its quotients only those by one have to be exact. -/
class RingScalar (α : Type) extends Scalar α, CommRing α where
  one_beq_zero : ((1 : α) == 0) = false
  divide_one : ∀ a : α, a / 1 = a

instance {α : Type} [ExactScalar α] : RingScalar α where
  one_beq_zero := Bool.eq_false_iff.2 fun h => one_ne_zero (ExactScalar.beq_iff_eq.1 h)
  divide_one a := div_one a

/-! ### Affine maps -/

namespace Mat4

variable {R : Type} [CommRing R] {m n : Mat4 R}

/-- Whether the last row is that of an affine map. -/
def IsAffine (m : Mat4 R) : Prop :=
  m.r3 = ⟨0, 0, 0, 1⟩

theorem IsAffine.mul (hm : m.IsAffine) (hn : n.IsAffine) : (m * n).IsAffine := by
  simp only [IsAffine] at *
  simp [mul_eq, applyLeft, Vec4.dot, hm, hn, c0, c1, c2, c3]

theorem toYUp_identity : (identity : Mat4 R).toYUp = identity := by
  simp [toYUp, identity]

theorem toYUp_mul (hm : m.IsAffine) (hn : n.IsAffine) : (m * n).toYUp = m.toYUp * n.toYUp := by
  simp only [IsAffine] at hm hn
  simp only [mul_eq, applyLeft, Vec4.dot, c0, c1, c2, c3, toYUp, hm, hn, Mat4.mk.injEq,
    Vec4.mk.injEq]
  refine ⟨⟨?_, ?_, ?_, ?_⟩, ⟨?_, ?_, ?_, ?_⟩, ⟨?_, ?_, ?_, ?_⟩, ?_, ?_, ?_, ?_⟩ <;> ring

theorem applyPoint_toYUp (m : Mat4 R) (v : Vec3 R) : m.toYUp.applyPoint v.toYUp =
    (m.applyPoint v).toYUp := by
  simp only [applyPoint, apply, Vec3.homogeneous, Vec4.dot, Vec4.xyz, toYUp, Vec3.toYUp,
    Vec3.mk.injEq]
  refine ⟨?_, ?_, ?_⟩ <;> ring

end Mat4

/-! ### Points -/

section Points

variable {α : Type} [RingScalar α] {m : Mat4 α} (v : Vec3 α)

theorem turnedUp_toList : turnedUp v.toList = .ok v.toYUp.toList :=
  rfl

theorem applyLeft_curveAxes : Mat3.applyLeft v curveAxes = v.toYUp := by
  simp [Mat3.applyLeft, curveAxes, Mat3.col, Vec3.dot, Vec3.get, Vec3.toYUp]

theorem curveTurned_toList : curveTurned v.toList = .ok v.toYUp.toList := by
  rw [← applyLeft_curveAxes]
  rfl

theorem vectorMinus_toList (v w : Vec3 α) : vectorMinus v.toList w.toList = .ok (v - w).toList :=
  rfl

/-- The handles of a point are turned as the point is. -/
theorem SplinePoint.triple_toList {p : SplinePoint α} {position left right : Vec3 α}
    (hp : p.position = position.toList) (hl : p.left = left.toList) (hr : p.right = right.toList) :
    p.triple = .ok [(left - position).toYUp.toList, (right - position).toYUp.toList,
      position.toYUp.toList] := by
  simp only [triple, hp, hl, hr, vectorMinus_toList, curveTurned_toList, bind, Except.bind]
  rfl

theorem divide_one (a : α) : Scalar.divide a 1 = .ok a := by
  rw [Scalar.divide, RingScalar.one_beq_zero, RingScalar.divide_one]
  rfl

theorem Mat4.IsAffine.apply_w (hm : m.IsAffine) (v : Vec3 α) : (m.apply v.homogeneous).w = 1 := by
  simp only [IsAffine] at hm
  simp [apply, hm, Vec4.dot, Vec3.homogeneous]

theorem TransformFrame.keyLocation_of_isAffine (hm : m.IsAffine) (f : TransformFrame α) :
    f.keyLocation (.transform m) = .ok (m.applyPoint f.location).toYUp := by
  simp only [keyLocation, Placement.apply, hm.apply_w, divide_one, bind, Except.bind]
  rfl

end Points

/-- There is one change of axes.  On affine maps it is a homomorphism over any commutative ring, and
it agrees with the one on points.  The one on points is that of the corners of meshes, of the points
of curves with their handles, and of the locations of animated objects, below the inverse of a
parent. -/
theorem toYUp_everywhere : (∀ (R : Type) [CommRing R], (Mat4.identity : Mat4 R).toYUp = .identity ∧
      ∀ m n : Mat4 R, m.IsAffine → n.IsAffine → (m * n).toYUp = m.toYUp * n.toYUp ∧
        ∀ v : Vec3 R, m.toYUp.applyPoint v.toYUp = (m.applyPoint v).toYUp) ∧
    ∀ (α : Type) [RingScalar α], (∀ v : Vec3 α, turnedUp v.toList = .ok v.toYUp.toList ∧
        curveTurned v.toList = .ok v.toYUp.toList) ∧
      (∀ (p : SplinePoint α) (position left right : Vec3 α), p.position = position.toList →
        p.left = left.toList → p.right = right.toList →
        p.triple = .ok [(left - position).toYUp.toList, (right - position).toYUp.toList,
          position.toYUp.toList]) ∧
      ∀ (m : Mat4 α) (f : TransformFrame α), m.IsAffine →
        f.keyLocation (.transform m) = .ok (m.applyPoint f.location).toYUp := by
  refine ⟨fun R _ => ⟨Mat4.toYUp_identity, ?_⟩, fun α _ => ⟨?_, ?_, ?_⟩⟩
  · intro m n hm hn
    exact ⟨Mat4.toYUp_mul hm hn, m.applyPoint_toYUp⟩
  · intro v
    exact ⟨turnedUp_toList v, curveTurned_toList v⟩
  · intro p position left right hp hl hr
    exact SplinePoint.triple_toList hp hl hr
  · intro m f hm
    exact f.keyLocation_of_isAffine hm

/-- A half turn about the third axis that doubles depths and moves up by five. -/
def Mat4.spun : Mat4 ℚ :=
  ⟨⟨-1, 0, 0, 0⟩, ⟨0, -2, 0, 0⟩, ⟨0, 0, 1, 5⟩, ⟨0, 0, 0, 1⟩⟩

/-- A bend of a curve, with its handles to the left and above. -/
def SplinePoint.bend : SplinePoint ℚ :=
  ⟨[1, 2, 3], [0, 2, 3], [1, 4, 4], 0⟩

theorem toYUp_everywhere_spun :
    (Mat4.spun * Mat4.spun).toYUp = ⟨⟨1, 0, 0, 0⟩, ⟨0, 1, 0, 10⟩, ⟨0, 0, 4, 0⟩, ⟨0, 0, 0, 1⟩⟩ ∧
      Mat4.spun.toYUp.applyPoint (Vec3.toYUp ⟨1, 2, 3⟩) = ⟨-1, 8, 4⟩ ∧
      SplinePoint.bend.triple = .ok [[-1, 0, 0], [0, 1, -2], [1, 3, -2]] ∧
      ({ TransformFrame.identity .quaternion with location := ⟨1, 2, 3⟩ } :
      TransformFrame ℚ).keyLocation (.transform Mat4.spun) = .ok ⟨-1, 8, 4⟩ := by
  obtain ⟨hmul, happly⟩ := (toYUp_everywhere.1 ℚ).2 Mat4.spun Mat4.spun rfl rfl
  obtain ⟨-, htrip, hkey⟩ := toYUp_everywhere.2 ℚ
  have hbend := htrip SplinePoint.bend ⟨1, 2, 3⟩ ⟨0, 2, 3⟩ ⟨1, 4, 4⟩ rfl rfl rfl
  refine ⟨hmul.trans ?_, (happly _).trans ?_, hbend.trans ?_, (hkey Mat4.spun _ rfl).trans ?_⟩
  all_goals decide +kernel

end SceneExport
