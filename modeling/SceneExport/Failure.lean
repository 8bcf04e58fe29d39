
/-!
# Failures

How an export can stop, and look-ups that can fail.
-/

namespace SceneExport

/-! ### Failures

Every way in which an export, or one of its parts, can stop (`Failure`).  A failure names its
cause; the wording shown to a user is given once, by `Failure.message?`. -/

inductive Failure where
  /-- The scene asks for something the exporter does not support. -/
  | unsupported (reason : String)
  /-- A resource was added to a file under a key that is already taken. -/
  | duplicateResource
  /-- The user chose no file to export to. -/
  | noTarget
  /-- A condition that the exporter relies on does not hold. -/
  | unmet (condition : String)
  /-- A surface description was linked where a number, colour or vector is needed. -/
  | surfaceAsValue
  /-- A name or key that a collection does not have. -/
  | missingKey
  /-- A position past the end of a sequence. -/
  | outOfRange
  /-- A part that the thing at hand does not have. -/
  | missingPart
  /-- A value of a kind that the operation does not take. -/
  | wrongKind
  /-- A value of the right kind that the operation cannot use. -/
  | unusableValue
  | divisionByZero
  /-- A choice that was needed before it was made. -/
  | undecided
  | fileNotFound
  /-- Tangents were asked of a mesh with faces of more than four vertices. -/
  | manySidedFaces
  /-- A number too large for the result. -/
  | tooLarge
  deriving DecidableEq, Repr, Inhabited

def Failure.message? : Failure → Option String
  | .unsupported reason => some reason
  | .duplicateResource => some "Attempting to add object to file twice"
  | .noTarget => some "filepath not set"
  | .unmet condition => some condition
  | _ => none

def need {β : Type} (failure : Failure) : Option β → Except Failure β
  | some b => .ok b
  | none => .error failure

/-! ### Messages

What an export tells the user on the way.  A computation that may speak and may fail is
`Logged`; what it said before it failed is kept. -/

inductive Level where
  | warning
  | error
  deriving DecidableEq, Repr, Inhabited

def Level.word : Level → String
  | .warning => "WARNING"
  | .error => "ERROR"

structure Message where
  level : Level
  text : String
  deriving DecidableEq, Repr, Inhabited

abbrev Log := Array Message

/-- A computation that may give messages and may fail. -/
abbrev Logged := EStateM Failure Log

namespace Logged

def say (level : Level) (text : String) : Logged Unit :=
  modify (·.push ⟨level, text⟩)

def warn (text : String) : Logged Unit :=
  say .warning text

def ofExcept {β : Type} : Except Failure β → Logged β
  | .ok b => pure b
  | .error e => throw e

instance : MonadLift (Except Failure) Logged where
  monadLift := ofExcept

end Logged

/-! ### Positions in sequences

A position is counted from the beginning of a sequence or, if it is negative, from its end
(`position`).  A position outside the sequence is a failure. -/

/-- The position that an index means in a sequence; a negative one counts from the end. -/
def position (size : Nat) (index : Int) : Except Failure Nat :=
  let place := if index < 0 then index + size else index
  if 0 ≤ place ∧ place < size then .ok place.toNat else .error .outOfRange

variable {β : Type}

def itemAt (xs : List β) (index : Int) : Except Failure β := do
  need .outOfRange xs[← position xs.length index]?

def elementAt (xs : Array β) (index : Int) : Except Failure β := do
  need .outOfRange xs[← position xs.size index]?

end SceneExport
