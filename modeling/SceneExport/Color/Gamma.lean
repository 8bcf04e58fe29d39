import SceneExport.Scalar
import SceneExport.Space.Matrix

/-!
# Gamma correction

Colours are modelled in linear light and written with the gamma of a display, taken as `2.2`.
A channel below zero has no real root of that order; its principal complex root is kept as a
number of two parts (`Channel.complex`), and no colour can be made of it.
-/

namespace SceneExport

inductive Channel (α : Type) where
  | real (value : α)
  | complex (re im : α)
  deriving Repr, Inhabited

namespace Channel

variable {α : Type} [Scalar α]

def gamma : α :=
  1 / 2.2

def corrected (x : α) : Channel α :=
  if Scalar.isNegative x then
    let size := Scalar.power (-x) gamma
    let phase := Scalar.atan2 0 x * gamma
    .complex (size * Scalar.cos phase) (size * Scalar.sin phase)
  else .real (Scalar.power x gamma)

def real? : Channel α → Except Failure α
  | .real x => .ok x
  | .complex _ _ => .error .wrongKind

end Channel

/-- The colour of the first three of some components, with gamma correction.  Every channel has to
have one part, and there have to be three of them. -/
def gammaCorrected {α : Type} [Scalar α] (components : List α) : Except Failure (Vec3 α) := do
  let channels ← (components.take 3).mapM fun x => (Channel.corrected x).real?
  need .unusableValue (Vec3.ofList? channels)

end SceneExport
