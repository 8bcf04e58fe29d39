import SceneExport.Failure

/-!
# Numbers of a scene

Scalars, and quantities, which are scalars or whole numbers.
-/

namespace SceneExport

/-! ### Scalars

The numbers that a scene is made of.  All geometry, animation and export code is written over
a `Scalar`, so that the same definitions run on doubles (`Number`) and can be read over an exact
field.

The order of scalars is that of their sizes, and an undefined number is neither below, above nor
equal to anything in it.  `==` is the equality by which parts of a scene are compared: two
numbers of one size are equal, and so is an undefined number and a copy of it. -/

/-- Numbers with the operations and the texts that an export needs. -/
class Scalar (α : Type) extends Add α, Sub α, Mul α, Div α, Neg α, Zero α, One α,
    OfScientific α, BEq α, LT α, LE α where
  decidableLT : DecidableLT α
  decidableLE : DecidableLE α
  /-- The number nearest to a quotient, whose divisor is not zero. -/
  ofRatio : Int → Nat → Except Failure α
  /-- How a number compares with an integer, unless it is undefined. -/
  compareInt : α → Int → Option Ordering
  /-- The integer part, cut towards zero. -/
  truncate : α → Except Failure Int
  pi : α
  sqrt : α → α
  sin : α → α
  cos : α → α
  atan : α → α
  atan2 : α → α → α
  power : α → α → α
  /-- Whether the scalar is below zero and finite. -/
  isNegative : α → Bool
  /-- Whether the scalar is beyond all finite ones. -/
  isInfinite : α → Bool
  /-- The number with a mark by which, if it is undefined, its copies are known.  The mark is two
  numbers: the thing that the number was computed for, and which of its parts it is. -/
  marked : Nat → Nat → α → α
  fileText : α → String
  codeText : α → String
  /-- The text of a component of a two-part number: like `codeText`, but a whole number has
  no point. -/
  partText : α → String
  noteText : α → String

namespace Scalar

variable {α : Type} [Scalar α]

instance (a b : α) : Decidable (a < b) := decidableLT a b

instance (a b : α) : Decidable (a ≤ b) := decidableLE a b

def ofInt (n : Int) : Except Failure α :=
  ofRatio n 1

/-- The scalar nearest to a quotient of integers, refused when the divisor is zero. -/
def quotient (a b : Int) : Except Failure α :=
  if b = 0 then throw .divisionByZero else ofRatio (if b < 0 then -a else a) b.natAbs

def sameSize (a b : α) : Bool :=
  decide (a ≤ b) && decide (b ≤ a)

def abs (x : α) : α :=
  if x < 0 then -x else x

def radians (x : α) : α :=
  x * (pi / 180.0)

def degrees (x : α) : α :=
  x * (180.0 / pi)

/-- The larger of two numbers, the first unless the second is above it. -/
def larger (a b : α) : α :=
  if a < b then b else a

/-- The smaller of two numbers, the first unless the second is below it. -/
def smaller (a b : α) : α :=
  if b < a then b else a

def divide (a b : α) : Except Failure α :=
  if b == 0 then throw .divisionByZero else pure (a / b)

end Scalar

/-! ### Quantities

A quantity is a whole number of any size or a scalar (`Quantity`).  Two quantities are compared
exactly, whatever they are; whole numbers are turned into scalars only when an operation needs
it, and that fails if they are too large. -/

inductive Quantity (α : Type) where
  | whole (n : Int)
  | real (x : α)
  deriving Repr, Inhabited

namespace Quantity

variable {α : Type} [Scalar α]

def toScalar : Quantity α → Except Failure α
  | .whole n => Scalar.ofInt n
  | .real x => .ok x

/-- How two quantities compare, unless one is undefined. -/
def compare? : Quantity α → Quantity α → Option Ordering
  | .whole a, .whole b => some (compare a b)
  | .real x, .whole n => Scalar.compareInt x n
  | .whole n, .real x => (Scalar.compareInt x n).map Ordering.swap
  | .real x, .real y =>
    if x < y then some .lt else if y < x then some .gt else if x ≤ y then some .eq else none

def isBelow (a b : Quantity α) : Bool :=
  a.compare? b == some .lt

def isAtMost (a b : Quantity α) : Bool :=
  a.isBelow b || a.compare? b == some .eq

def sameSize (a b : Quantity α) : Bool :=
  a.compare? b == some .eq

def same : Quantity α → Quantity α → Bool
  | .real x, .real y => x == y
  | a, b => a.sameSize b

def minus : Quantity α → Quantity α → Except Failure (Quantity α)
  | .whole a, .whole b => .ok (.whole (a - b))
  | a, b => do return .real ((← a.toScalar) - (← b.toScalar))

/-- The quotient of two quantities, refused when the divisor is zero. -/
def dividedBy : Quantity α → Quantity α → Except Failure α
  | .whole a, .whole b => Scalar.quotient a b
  | a, b => do
    let x ← a.toScalar
    Scalar.divide x (← b.toScalar)

end Quantity

end SceneExport
