import SceneExport.Scalar

/-!
# Numbers

The scalars of a running export: doubles, of which an undefined one may remember where it came
from (`Number`).  A number that is copied keeps its origin, a number that is computed has none,
so that an undefined number can be told from every other but its copies.
-/

namespace SceneExport.Decimal

/-! ### Doubles as exact binary fractions

A finite double is plus or minus `m * 2 ^ q` for a natural `m` and an integer `q`
(`Binary.mantissa`, `Binary.exponent`).  Everything that turns a number into text starts from
this form, so that the choice of digits is exact arithmetic on natural numbers. -/

/-- A positive or zero binary fraction `mantissa * 2 ^ exponent`.  `tight` says that the
fraction is the smallest of its power of two, so that its lower neighbour is only half as far
away as its upper one. -/
structure Binary where
  mantissa : Nat
  exponent : Int
  tight : Bool
  deriving DecidableEq, Repr

inductive Reading where
  | undefined
  | infinite (negative : Bool)
  | finite (negative : Bool) (value : Binary)
  deriving DecidableEq, Repr

/-- Read the sign, exponent and mantissa fields of a double. -/
def Reading.ofBits (bits : Nat) : Reading :=
  let negative := bits / Nat.pow 2 63 % 2 == 1
  let field : Nat := bits / Nat.pow 2 52 % Nat.pow 2 11
  let fraction : Nat := bits % Nat.pow 2 52
  if field == 2047 then
    if fraction == 0 then .infinite negative else .undefined
  else if field == 0 then
    .finite negative ⟨fraction, -1074, false⟩
  else
    .finite negative ⟨Nat.pow 2 52 + fraction, (field : Int) - 1075, fraction == 0 && field != 1⟩

def Reading.ofFloat (x : Float) : Reading :=
  .ofBits x.toBits.toNat

namespace Binary

variable (b : Binary)

def numerator : Nat :=
  b.mantissa * Nat.pow 2 b.exponent.toNat

def denominator : Nat :=
  Nat.pow 2 (-b.exponent).toNat

end Binary

/-! ### Choosing decimal digits

Two ways to pick the decimal that stands for a positive fraction: a given number of
significant digits (`significant`), and the fewest digits that still read back as the same
double (`shortest`).  A third one rounds to a given number of places (`places`).  All of them
compare natural numbers only.

A decimal `coefficient * 10 ^ exponent` is kept as its digits and the power of ten of its
first digit (`Digits`). -/

/-- The digits of a positive decimal, without trailing zeros, and the power of ten of the
first one: `⟨"123", 1⟩` is 12.3. -/
structure Digits where
  text : List Char
  power : Int
  deriving DecidableEq, Repr

def dropTrailingZeros (ds : List Char) : List Char :=
  (ds.reverse.dropWhile (· == '0')).reverse

/-- The decimal `coefficient * 10 ^ unit`, whose digits are those of `coefficient`. -/
def Digits.ofScaled (coefficient : Nat) (unit : Int) : Digits :=
  let ds := Nat.toDigits 10 coefficient
  ⟨dropTrailingZeros ds, unit + ds.length - 1⟩

/-- The quotient rounded to the nearest integer, a half to the even neighbour. -/
def roundHalfEven (num den : Nat) : Nat :=
  let quotient := num / den
  let twice := 2 * (num % den)
  if twice < den then quotient
  else if den < twice then quotient + 1
  else if quotient % 2 == 0 then quotient
  else quotient + 1

/-- `num / den` scaled by `10 ^ (-unit)`, as a numerator and a denominator. -/
def scaled (num den : Nat) (unit : Int) : Nat × Nat :=
  (num * Nat.pow 10 (-unit).toNat, den * Nat.pow 10 unit.toNat)

/-- The power of ten of the first digit of `num / den`, for positive `num` and `den`. -/
def leadingPower (num den : Nat) : Int :=
  let guess : Int := (Nat.toDigits 10 num).length - (Nat.toDigits 10 den).length
  let (n, d) := scaled num den guess
  if d ≤ n then guess else guess - 1

/-- Round a positive fraction to `count` significant digits, a half to the even neighbour. -/
def significant (count num den : Nat) : Digits :=
  let unit := leadingPower num den - count + 1
  let (n, d) := scaled num den unit
  .ofScaled (roundHalfEven n d) unit

/-- The fraction `num / den` in units of `10 ^ (-count)`, a half to the even neighbour. -/
def places (count num den : Nat) : Nat :=
  roundHalfEven (num * Nat.pow 10 count) den

/-- Whether `coefficient * 10 ^ unit` lies among the reals that round to `b`: between the
midpoints to its neighbours, the midpoints included when the mantissa is even. -/
def readsBack (b : Binary) (coefficient : Nat) (unit : Int) : Bool :=
  let (n, d) := scaled coefficient 1 (-unit)
  -- compare in quarters of the last place of the mantissa
  let quarters := 4 * n * b.denominator
  let last := d * Nat.pow 2 b.exponent.toNat
  let low := (4 * b.mantissa - if b.tight then 1 else 2) * last
  let high := (4 * b.mantissa + 2) * last
  if b.mantissa % 2 == 0 then low ≤ quarters && quarters ≤ high
  else low < quarters && quarters < high

/-- The digits of `b` with the unit `10 ^ unit`, if a decimal with that unit reads back as `b`:
the nearer of the two neighbours of `b`, and the even one if they are equally near. -/
def onGrid (b : Binary) (unit : Int) : Option Digits :=
  let (n, d) := scaled b.numerator b.denominator unit
  let below := n / d
  let above := below + 1
  match readsBack b below unit, readsBack b above unit with
  | true, true => some (.ofScaled (roundHalfEven n d) unit)
  | true, false => some (.ofScaled below unit)
  | false, true => some (.ofScaled above unit)
  | false, false => none

/-- The decimal with the fewest digits that reads back as the positive double `b`, and of
those the nearest.  Seventeen digits always suffice. -/
def shortest (b : Binary) : Digits :=
  let power := leadingPower b.numerator b.denominator
  let first := (List.range 17).findSome? fun k : Nat => onGrid b (power - k)
  first.getD (significant 17 b.numerator b.denominator)

/-! ### The nearest double

The double nearest to a fraction, a half going to the neighbour with the even mantissa
(`nearestBits?`).  Whole numbers, quotients of whole numbers and decimals are all read this way,
so that each is rounded once. -/

/-- `num / den` in units of `2 ^ exponent`, as a numerator and a denominator. -/
def inUnits (num den : Nat) (exponent : Int) : Nat × Nat :=
  (num * Nat.pow 2 (-exponent).toNat, den * Nat.pow 2 exponent.toNat)

/-- The power of two that the last place of a double near to a positive fraction stands for: in
units of it the fraction has 53 binary digits, or fewer if it is very small. -/
def unitExponent (num den : Nat) : Int :=
  let guess : Int := (Nat.log2 num : Int) - Nat.log2 den - 52
  let (n, d) := inUnits num den guess
  max (if n < d * Nat.pow 2 52 then guess - 1 else guess) (-1074)

/-- The bits of the double nearest to a fraction; a fraction that is too large has none. -/
def nearestBits? (num den : Nat) : Option Nat :=
  if num = 0 then some 0
  else
    let unit := unitExponent num den
    let (n, d) := inUnits num den unit
    let bits := (unit + 1074).toNat * Nat.pow 2 52 + roundHalfEven n d
    if bits < 2047 * Nat.pow 2 52 then some bits else none

def nearest? (negative : Bool) (num den : Nat) : Option Float :=
  (nearestBits? num den).map fun bits =>
    let size := Float.ofBits bits.toUInt64
    if negative then -size else size

/-! ### Number styles

How chosen digits become text: which magnitudes are written positionally, whether a whole
number keeps a final `.0`, and how an exponent is written (`Style`).  The styles in use are
values of that record, in the modules that write numbers. -/

inductive Precision where
  | fewest
  | significant (count : Nat)
  deriving DecidableEq, Repr

structure Style where
  precision : Precision
  /-- The least power of ten of the first digit that is written positionally. -/
  leastPositional : Int
  /-- The first power of ten that is written with an exponent again. -/
  firstExponential : Int
  /-- Whether a positional whole number ends in `.0`. -/
  pointZero : Bool
  deriving DecidableEq, Repr

def zeros (n : Nat) : List Char :=
  List.replicate n '0'

def positional (pointZero : Bool) (d : Digits) : List Char :=
  if d.power < 0 then
    ['0', '.'] ++ zeros (-d.power - 1).toNat ++ d.text
  else
    let whole := (d.power + 1).toNat
    let tail := d.text.drop whole
    let head := d.text.take whole ++ zeros (whole - d.text.length)
    if tail.isEmpty then head ++ (if pointZero then ['.', '0'] else []) else head ++ '.' :: tail

/-- Write digits with an exponent of at least two digits and its sign. -/
def exponential (d : Digits) : List Char :=
  let tail := d.text.drop 1
  let power := Nat.toDigits 10 d.power.natAbs
  d.text.take 1 ++ (if tail.isEmpty then [] else '.' :: tail) ++
    ['e', if d.power < 0 then '-' else '+'] ++ zeros (2 - power.length) ++ power

def Style.layOut (s : Style) (d : Digits) : List Char :=
  if s.leastPositional ≤ d.power && d.power < s.firstExponential then positional s.pointZero d
  else exponential d

def Style.digits (s : Style) (b : Binary) : Digits :=
  match s.precision with
  | .fewest => shortest b
  | .significant count => significant count b.numerator b.denominator

def Style.write (s : Style) (x : Float) : String :=
  match Reading.ofFloat x with
  | .undefined => "nan"
  | .infinite negative => if negative then "-inf" else "inf"
  | .finite negative b =>
    let body :=
      if b.mantissa = 0 then (if s.pointZero then ['0', '.', '0'] else ['0'])
      else s.layOut (s.digits b)
    String.ofList (if negative then '-' :: body else body)

/-- Write a double with a fixed number of places. -/
def writePlaces (count : Nat) (x : Float) : String :=
  match Reading.ofFloat x with
  | .undefined => "nan"
  | .infinite negative => if negative then "-inf" else "inf"
  | .finite negative b =>
    let units := Nat.toDigits 10 (places count b.numerator b.denominator)
    let padded := zeros (count + 1 - units.length) ++ units
    let whole := padded.length - count
    let body := padded.take whole ++ (if count = 0 then [] else '.' :: padded.drop whole)
    String.ofList (if negative then '-' :: body else body)

end SceneExport.Decimal

namespace SceneExport

/-- Where an undefined number came from. -/
inductive Origin where
  /-- The one undefined number that has a name. -/
  | constant
  /-- A place of the description of a scene. -/
  | read (place : Nat)
  /-- A part of something that was computed and then copied. -/
  | computed (owner part : Nat)
  deriving DecidableEq, Repr

/-- A double; an undefined one may know its origin. -/
structure Number where
  value : Float
  origin : Option Origin := none
  deriving Repr, Inhabited

/-! ### Styles -/

/-- Numbers in a scene file have six significant digits and keep a final `.0`; magnitudes from
`10 ^ (-4)` to below `10 ^ 5` are positional. -/
def fileStyle : Decimal.Style := ⟨.significant 6, -4, 5, true⟩

/-- Numbers in shader code have the fewest digits that read back; magnitudes from `10 ^ (-4)`
to below `10 ^ 16` are positional. -/
def codeStyle : Decimal.Style := ⟨.fewest, -4, 16, true⟩

/-- The parts of a two-part number are written like numbers in code, without a final `.0`. -/
def partStyle : Decimal.Style := { codeStyle with pointZero := false }

/-! ### Whole numbers -/

namespace Decimal

def truncate (x : Float) : Except Failure Int :=
  match Reading.ofFloat x with
  | .undefined => throw .unusableValue
  | .infinite _ => throw .tooLarge
  | .finite negative b =>
    let whole : Int := b.numerator / b.denominator
    pure (if negative then -whole else whole)

def compareInt (x : Float) (n : Int) : Option Ordering :=
  match Reading.ofFloat x with
  | .undefined => none
  | .infinite negative => some (if negative then .lt else .gt)
  | .finite negative b =>
    let size : Int := b.numerator
    some (compare (if negative then -size else size) (n * b.denominator))

end Decimal

/-! ### Arithmetic -/

namespace Number

def ofFloat (x : Float) : Number :=
  ⟨x, none⟩

def undefined (origin : Origin) : Number :=
  ⟨0.0 / 0.0, some origin⟩

def infinite (negative : Bool) : Number :=
  .ofFloat (if negative then -1.0 / 0.0 else 1.0 / 0.0)

def nearest (negative : Bool) (num den : Nat) : Except Failure Number :=
  (need .tooLarge (Decimal.nearest? negative num den)).map .ofFloat

/-- Whether two numbers are equal: they have one size, or they are copies of one undefined
number. -/
def same (a b : Number) : Bool :=
  a.value == b.value || (a.origin.isSome && a.origin == b.origin)

/-- Mark an undefined number that has no origin yet. -/
def marked (owner part : Nat) (x : Number) : Number :=
  if x.value.isNaN && x.origin.isNone then { x with origin := some (.computed owner part) } else x

end Number

instance : Scalar Number where
  add a b := .ofFloat (a.value + b.value)
  sub a b := .ofFloat (a.value - b.value)
  mul a b := .ofFloat (a.value * b.value)
  div a b := .ofFloat (a.value / b.value)
  neg a := .ofFloat (-a.value)
  zero := .ofFloat 0
  one := .ofFloat 1
  ofScientific m s e := .ofFloat (OfScientific.ofScientific m s e)
  beq := Number.same
  lt a b := a.value < b.value
  le a b := a.value ≤ b.value
  decidableLT a b := inferInstanceAs (Decidable (a.value < b.value))
  decidableLE a b := inferInstanceAs (Decidable (a.value ≤ b.value))
  ofRatio a b := Number.nearest (decide (a < 0)) a.natAbs b
  compareInt x := Decimal.compareInt x.value
  truncate x := Decimal.truncate x.value
  pi := .ofFloat 3.141592653589793
  sqrt x := .ofFloat x.value.sqrt
  sin x := .ofFloat x.value.sin
  cos x := .ofFloat x.value.cos
  atan x := .ofFloat x.value.atan
  atan2 y x := .ofFloat (Float.atan2 y.value x.value)
  power b e := .ofFloat (Float.pow b.value e.value)
  isNegative x := decide (x.value < 0) && x.value.isFinite
  isInfinite x := x.value.isInf
  marked := Number.marked
  fileText x := if x.value.abs < 1e-15 then "0.0" else fileStyle.write x.value
  codeText x := codeStyle.write x.value
  partText x := partStyle.write x.value
  noteText x := Decimal.writePlaces 4 x.value

end SceneExport
