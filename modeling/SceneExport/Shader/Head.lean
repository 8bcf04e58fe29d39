import SceneExport.Failure
import SceneExport.Text.Split

/-!
# Function heads

The name of the first function in a piece of shader code, and the types of its parameters.
-/

namespace SceneExport

/-- The name of a function, and the types of what it takes and returns. -/
structure FunctionHead where
  name : String
  inputs : List String
  outputs : List String
  deriving DecidableEq, Repr, Inhabited

namespace FunctionHead

open Text

def passingWords : Pattern :=
  .oneOf ["in", "inout", "out"]

def typeWords : Pattern :=
  .oneOf ["vec2", "vec3", "vec4", "float", "mat4", "sampler2D"]

def parameterPattern : Pattern :=
  let blanks := Pattern.many (.one .blank)
  let gap := Pattern.atLeastOne (.one .blank)
  .sequence [blanks, .optional (.seq passingWords gap), typeWords, gap,
    .one .latin, .many (.one .word), blanks, .optional (.one (.exact ','))]

def parametersPattern : Pattern :=
  .many parameterPattern

/-- A name and the text between brackets at the beginning of a text, after `void`. -/
def nameAndParameters? (cs : List Char) : Option (List Char × List Char) := do
  let cs ← strip? "void".toList cs
  let rest := cs.dropWhile isBlank
  if rest.length = cs.length then none
  let name := rest.takeWhile isWord
  if !(name.head?.any Char.isAlpha) then none
  match (rest.dropWhile isWord).dropWhile isBlank with
  | '(' :: inside =>
    let (parameters, tail) := inside.span (· != ')')
    if tail.isEmpty || !parametersPattern.fits parameters then none
    return (name, parameters)
  | _ => none

def parameterWords (parameters : List Char) : List (List String) :=
  (splitOn ',' (trim parameters)).map fun piece => (words piece).map String.ofList

/-- What a parameter is: a result with its type, or an input with its first word. -/
def classify : List String → Except Failure (Bool × String)
  | "out" :: type :: _ => .ok (true, type)
  | word :: _ => .ok (false, word)
  | [] => .error .outOfRange

def ofCode (code : String) : Except Failure FunctionHead := do
  let (name, parameters) ← need .outOfRange (findFirst? nameAndParameters? code.toList)
  let kinds ← (parameterWords parameters).mapM classify
  return { name := String.ofList name
           inputs := (kinds.filter (!·.1)).map Prod.snd
           outputs := (kinds.filter (·.1)).map Prod.snd }

end FunctionHead

end SceneExport
