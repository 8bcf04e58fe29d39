import SceneExport.Scalar
import SceneExport.Space.Matrix

/-!
# Rotations and placements

Where something is, as a matrix that was given (`Placement`).  A matrix of four rows and columns
is a transform, and what is computed from transforms is one; any other is kept row by row, and what
needs entries that it does not have fails.
-/

namespace SceneExport

/-! ### Rotations

Rotations as quaternions (`Quat`) and as three angles applied in one of six orders (`Euler`),
and the parts of an affine map: rotation, scale and angles.  A map that turns space inside out
has its linear part negated first, so its scale factors are negative. -/

/-- A quaternion, real part first. -/
structure Quat (α : Type) where
  w : α
  x : α
  y : α
  z : α
  deriving DecidableEq, BEq, Repr, Inhabited

namespace Quat

variable {α : Type}

def identity [Zero α] [One α] : Quat α :=
  ⟨1, 0, 0, 0⟩

def toList (q : Quat α) : List α :=
  [q.w, q.x, q.y, q.z]

def ofList? : List α → Option (Quat α)
  | [w, x, y, z] => some ⟨w, x, y, z⟩
  | _ => none

def map {β : Type} (f : α → β) (q : Quat α) : Quat β :=
  ⟨f q.w, f q.x, f q.y, f q.z⟩

section Arithmetic

variable [Add α] [Sub α] [Mul α]

/-- Rotation by `a` after rotation by `b`. -/
instance : Mul (Quat α) where
  mul a b :=
    ⟨a.w * b.w - a.x * b.x - a.y * b.y - a.z * b.z,
      a.w * b.x + a.x * b.w + a.y * b.z - a.z * b.y,
      a.w * b.y + a.y * b.w + a.z * b.x - a.x * b.z,
      a.w * b.z + a.z * b.w + a.x * b.y - a.y * b.x⟩

def normSq (q : Quat α) : α :=
  q.w * q.w + q.x * q.x + q.y * q.y + q.z * q.z

end Arithmetic

variable [Scalar α]

/-- The quaternion of length one in the same direction; zero becomes the half turn about the
first axis. -/
def normalize (q : Quat α) : Quat α :=
  let n := Scalar.sqrt q.normSq
  if n == 0 then ⟨0, 1, 0, 0⟩ else q.map (· / n)

def ofAxisAngle (axis : Vec3 α) (angle : α) : Quat α :=
  let n := Scalar.sqrt (axis.dot axis)
  let s := Scalar.sin (angle * 0.5)
  ⟨Scalar.cos (angle * 0.5), axis.x / n * s, axis.y / n * s, axis.z / n * s⟩

def toMat3 (q : Quat α) : Mat3 α :=
  let two : α := 2.0
  ⟨⟨1 - two * (q.y * q.y + q.z * q.z), two * (q.x * q.y - q.w * q.z),
      two * (q.x * q.z + q.w * q.y)⟩,
    ⟨two * (q.x * q.y + q.w * q.z), 1 - two * (q.x * q.x + q.z * q.z),
      two * (q.y * q.z - q.w * q.x)⟩,
    ⟨two * (q.x * q.z - q.w * q.y), two * (q.y * q.z + q.w * q.x),
      1 - two * (q.x * q.x + q.y * q.y)⟩⟩

end Quat

/-! ### Angles about the axes -/

inductive EulerOrder where
  | xyz
  | xzy
  | yxz
  | yzx
  | zxy
  | zyx
  deriving DecidableEq, Repr, Inhabited

namespace EulerOrder

def axes : EulerOrder → Axis × Axis × Axis
  | .xyz => (.x, .y, .z)
  | .xzy => (.x, .z, .y)
  | .yxz => (.y, .x, .z)
  | .yzx => (.y, .z, .x)
  | .zxy => (.z, .x, .y)
  | .zyx => (.z, .y, .x)

def isOdd : EulerOrder → Bool
  | .xyz | .yzx | .zxy => false
  | .xzy | .yxz | .zyx => true

end EulerOrder

structure Euler (α : Type) where
  angles : Vec3 α
  order : EulerOrder := .xyz
  deriving DecidableEq, Repr, Inhabited

namespace Euler

variable {α : Type} [Scalar α]

def identity : Euler α :=
  ⟨⟨0, 0, 0⟩, .xyz⟩

def toQuat (e : Euler α) : Quat α :=
  let (i, j, k) := e.order.axes
  let odd := e.order.isOdd
  let ti := e.angles.get i * 0.5
  let tj := e.angles.get j * (if odd then -0.5 else 0.5)
  let tk := e.angles.get k * 0.5
  let ci := Scalar.cos ti
  let cj := Scalar.cos tj
  let ck := Scalar.cos tk
  let si := Scalar.sin ti
  let sj := Scalar.sin tj
  let sk := Scalar.sin tk
  let cc := ci * ck
  let cs := ci * sk
  let sc := si * ck
  let ss := si * sk
  let second := cj * ss + sj * cc
  let a : Vec3 α := ⟨0, 0, 0⟩
  let a := a.set i (cj * sc - sj * cs)
  let a := a.set j (if odd then -second else second)
  let a := a.set k (cj * cs - sj * sc)
  ⟨cj * cc + sj * ss, a.x, a.y, a.z⟩

/-- The rotation by the three angles, which no infinite angle has. -/
def rotation (e : Euler α) : Except Failure (Quat α) :=
  if e.angles.toList.any Scalar.isInfinite then .error .unusableValue else .ok e.toQuat

end Euler

/-! ### The parts of an affine map -/

namespace Mat3

variable {α : Type} [Scalar α]

def columnLength (m : Mat3 α) (c : Axis) : α :=
  Scalar.sqrt ((m.col c).dot (m.col c))

/-- The columns with their lengths divided out; a zero column is kept. -/
def normalized (m : Mat3 α) : Mat3 α :=
  let unit (c : Axis) : Vec3 α :=
    let n := m.columnLength c
    if n == 0 then m.col c else (m.col c).divBy n
  .ofCols (unit .x) (unit .y) (unit .z)

def isReflected (m : Mat3 α) : Bool :=
  m.det < 0

def rotationPart (m : Mat3 α) : Mat3 α :=
  if m.isReflected then m.normalized.map (-·) else m.normalized

def scalePart (m : Mat3 α) : Vec3 α :=
  let lengths := Vec3.ofFn m.columnLength
  if m.isReflected then -lengths else lengths

/-- The quaternion of a rotation matrix, normalised. -/
def rotationToQuat (m : Mat3 α) : Quat α :=
  let m00 := m.r0.x
  let m01 := m.r0.y
  let m02 := m.r0.z
  let m10 := m.r1.x
  let m11 := m.r1.y
  let m12 := m.r1.z
  let m20 := m.r2.x
  let m21 := m.r2.y
  let m22 := m.r2.z
  let two : α := 2.0
  let t : α := 0.25 * (1 + m00 + m11 + m22)
  let q : Quat α :=
    if 0.0001 < t then
      let w := Scalar.sqrt t
      let s := 1 / (4.0 * w)
      ⟨w, (m21 - m12) * s, (m02 - m20) * s, (m10 - m01) * s⟩
    else if m11 < m00 ∧ m22 < m00 then
      let s := two * Scalar.sqrt (1 + m00 - m11 - m22)
      ⟨(m21 - m12) / s, 0.25 * s, (m01 + m10) / s, (m02 + m20) / s⟩
    else if m22 < m11 then
      let s := two * Scalar.sqrt (1 + m11 - m00 - m22)
      ⟨(m02 - m20) / s, (m01 + m10) / s, 0.25 * s, (m12 + m21) / s⟩
    else
      let s := two * Scalar.sqrt (1 + m22 - m00 - m11)
      ⟨(m10 - m01) / s, (m02 + m20) / s, (m12 + m21) / s, 0.25 * s⟩
  q.normalize

def angleSize (v : Vec3 α) : α :=
  Scalar.abs v.x + Scalar.abs v.y + Scalar.abs v.z

/-- The angles of a rotation matrix: of the two solutions, the one with the smaller angles. -/
def rotationToEuler (m : Mat3 α) (order : EulerOrder) : Euler α :=
  let (i, j, k) := order.axes
  let cy := Scalar.sqrt (m.get i i * m.get i i + m.get j i * m.get j i)
  let zero : Vec3 α := ⟨0, 0, 0⟩
  let (a, b) :=
    if 0.000001 < cy then
      let a := ((zero.set i (Scalar.atan2 (m.get k j) (m.get k k))).set j
        (Scalar.atan2 (-(m.get k i)) cy)).set k (Scalar.atan2 (m.get j i) (m.get i i))
      let b := ((zero.set i (Scalar.atan2 (-(m.get k j)) (-(m.get k k)))).set j
        (Scalar.atan2 (-(m.get k i)) (-cy))).set k (Scalar.atan2 (-(m.get j i)) (-(m.get i i)))
      (a, b)
    else
      let a := ((zero.set i (Scalar.atan2 (-(m.get j k)) (m.get j j))).set j
        (Scalar.atan2 (-(m.get k i)) cy)).set k 0
      (a, a)
  let (a, b) := if order.isOdd then (-a, -b) else (a, b)
  ⟨if angleSize b < angleSize a then b else a, order⟩

end Mat3

namespace Mat4

variable {α : Type} [Scalar α]

def toQuat (m : Mat4 α) : Quat α :=
  m.linear.rotationPart.rotationToQuat

def toEuler (m : Mat4 α) (order : EulerOrder) : Euler α :=
  m.linear.rotationPart.rotationToEuler order

def toScale (m : Mat4 α) : Vec3 α :=
  m.linear.scalePart

def rotationX (angle : α) : Mat4 α :=
  let c := Scalar.cos angle
  let s := Scalar.sin angle
  ⟨⟨1, 0, 0, 0⟩, ⟨0, c, -s, 0⟩, ⟨0, s, c, 0⟩, ⟨0, 0, 0, 1⟩⟩

end Mat4

/-! ### From z-up to y-up

Scenes are modelled with the third axis up and written with the second axis up.  The change of
axes sends `(x, y, z)` to `(x, z, -y)`.  It is applied to points (`Vec3.toYUp`), to affine maps
(`Mat4.toYUp`), to rotations (`Quat.toYUp`) and to scale factors (`Vec3.scaleToYUp`).

Cameras and lights look along another axis in the two worlds, which `directional` corrects. -/

variable {α : Type}

section Ring

variable [Neg α]

def Vec3.toYUp (v : Vec3 α) : Vec3 α :=
  ⟨v.x, v.z, -v.y⟩

def Vec3.scaleToYUp (v : Vec3 α) : Vec3 α :=
  ⟨v.x, v.z, v.y⟩

def Quat.toYUp (q : Quat α) : Quat α :=
  ⟨q.w, q.x, q.z, -q.y⟩

/-- The change of axes on affine maps: the last row is kept. -/
def Mat4.toYUp (m : Mat4 α) : Mat4 α :=
  ⟨⟨m.r0.x, m.r0.z, -m.r0.y, m.r0.w⟩, ⟨m.r2.x, m.r2.z, -m.r2.y, m.r2.w⟩,
    ⟨-m.r1.x, -m.r1.z, m.r1.y, -m.r1.w⟩, m.r3⟩

end Ring

variable [Scalar α]

/-- A quarter turn backwards about the first axis. -/
def axisCorrection : Mat4 α :=
  .rotationX (Scalar.radians (-90.0))

/-- Correct the viewing direction of a camera or light. -/
def Mat4.directional (m : Mat4 α) : Mat4 α :=
  m * axisCorrection

/-- Move a transform along the second axis, from one end of a bone to the other. -/
def Mat4.alongBone (m : Mat4 α) (length : α) : Mat4 α :=
  { m with r1 := { m.r1 with w := m.r1.w + length } }

/-- Move a location along the second axis, from one end of a bone to the other. -/
def Vec3.alongBone (v : Vec3 α) (length : α) : Vec3 α :=
  { v with y := v.y + length }

/-! ### Matrices of any shape

A matrix as it is given is a list of rows, and they may be of any number and any length (`Rows`).
The operations are those of a matrix of four rows and columns.  Entries that an operation does not
need are left alone, and it fails if one that it needs is missing. -/

abbrev Rows (α : Type) := List (List α)

namespace Rows

variable {α : Type} [Scalar α]

/-- A sum of products added to `sum`, for each component of the first list. -/
def dotFrom (sum : α) : List α → List α → Except Failure α
  | [], _ => .ok sum
  | x :: xs, y :: ys => dotFrom (sum + x * y) xs ys
  | _ :: _, [] => .error .outOfRange

/-- The inner product.  The first list has at least one component, and the second has no fewer;
what it has more is not used. -/
def dot : List α → List α → Except Failure α
  | x :: xs, y :: ys => dotFrom (x * y) xs ys
  | _, _ => .error .outOfRange

def columns (rows : Rows α) : Except Failure (List (List α)) :=
  (List.range rows.length).mapM fun c => rows.mapM fun row => need .outOfRange row[c]?

def mul (a b : Rows α) : Except Failure (Rows α) := do
  let cols ← columns b
  a.mapM fun row => cols.mapM (dot row)

def apply (rows : Rows α) (v : List α) : Except Failure (List α) :=
  rows.mapM (dot · v)

/-- The affine map that some rows are; they need a linear part and a location. -/
def affine (rows : Rows α) : Except Failure (Mat4 α) :=
  need .outOfRange (Mat4.ofRows? rows)

/-- The inverse, or the identity for a matrix that has none.  The determinant is expanded along the
whole first row, which has therefore exactly four entries. -/
def inverseOrIdentity (rows : Rows α) : Except Failure (Mat4 α) := do
  let m ← need .outOfRange (Mat4.ofFullRows? rows)
  if (rows.headD []).length = 4 then return m.inverseOrIdentity else throw .outOfRange

def toYUp : Rows α → Except Failure (Rows α)
  | (a0 :: a1 :: a2 :: a) :: (b0 :: b1 :: b2 :: b3 :: b) :: (c0 :: c1 :: c2 :: c3 :: c) :: rest =>
    .ok ((a0 :: a2 :: -a1 :: a) :: (c0 :: c2 :: -c1 :: c3 :: b) :: (-b0 :: -b2 :: b1 :: -b3 :: c)
      :: rest)
  | _ => .error .outOfRange

def directional (rows : Rows α) : Except Failure (Rows α) :=
  rows.mul (axisCorrection : Mat4 α).toRows

def alongBone (length : α) : Rows α → Except Failure (Rows α)
  | a :: (b0 :: b1 :: b2 :: b3 :: b) :: rest =>
    .ok (a :: (b0 :: b1 :: b2 :: (b3 + length) :: b) :: rest)
  | _ => .error .outOfRange

end Rows

/-! ### Placements -/

inductive Placement (α : Type) where
  | transform (m : Mat4 α)
  | rows (entries : Rows α)

namespace Placement

variable {α : Type} [Scalar α]

def ofRows : Rows α → Placement α
  | [[a, b, c, d], [e, f, g, h], [i, j, k, l], [m, n, o, p]] =>
    .transform ⟨⟨a, b, c, d⟩, ⟨e, f, g, h⟩, ⟨i, j, k, l⟩, ⟨m, n, o, p⟩⟩
  | entries => .rows entries

def toRows : Placement α → Rows α
  | .transform m => m.toRows
  | .rows entries => entries

/-- Matrices are equal if they have the same shape and entries. -/
instance : BEq (Placement α) where
  beq
    | .transform a, .transform b => a == b
    | a, b => a.toRows == b.toRows

def identity : Placement α :=
  .transform Mat4.identity

instance : Inhabited (Placement α) where
  default := identity

/-- The affine map: a linear part and a location have to be there. -/
def affine : Placement α → Except Failure (Mat4 α)
  | .transform m => .ok m
  | .rows entries => entries.affine

def mul : Placement α → Placement α → Except Failure (Placement α)
  | .transform a, .transform b => .ok (.transform (a * b))
  | a, b => do return .ofRows (← a.toRows.mul b.toRows)

def inverseOrIdentity : Placement α → Except Failure (Placement α)
  | .transform m => .ok (.transform m.inverseOrIdentity)
  | .rows entries => do return .transform (← entries.inverseOrIdentity)

/-- The image of a homogeneous vector, which has four components too. -/
def apply : Placement α → Vec4 α → Except Failure (Vec4 α)
  | .transform m, v => .ok (m.apply v)
  | .rows entries, v => do Vec4.ofFirst (← entries.apply v.toList)

def directional : Placement α → Except Failure (Placement α)
  | .transform m => .ok (.transform m.directional)
  | .rows entries => do return .ofRows (← entries.directional)

def alongBone (length : α) : Placement α → Except Failure (Placement α)
  | .transform m => .ok (.transform (m.alongBone length))
  | .rows entries => do return .rows (← entries.alongBone length)

end Placement

end SceneExport
