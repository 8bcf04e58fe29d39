import SceneExport.Failure
import SceneExport.Text.Split

/-!
# Data paths

A curve names what it drives by a path such as `pose.bones["Arm"].location`: the thing before
the last point, the attribute after it.
-/

namespace SceneExport.DataPath

/-- The thing and the attribute that a path names; the thing is empty if there is no point. -/
def split (path : String) : String × String :=
  match Text.splitLast? '.' path.toList with
  | some (before, after) => (String.ofList before, String.ofList after)
  | none => ("", path)

/-- The text in quotes and a bracket at the beginning, if it is not empty: `Arm` of `Arm"]`. -/
def quotedName? (cs : List Char) : Option String :=
  let (name, rest) := cs.span (· != '"')
  if name.isEmpty then none
  else (Text.strip? ['"', ']'] rest).map fun _ => String.ofList name

def boneAt? (cs : List Char) : Option String := do
  match ← Text.strip? "pose".toList cs with
  | c :: rest =>
    if c == '\n' then none
    else quotedName? (← Text.strip? "bones[\"".toList rest)
  | [] => none

def boneName (path : String) : Except Failure String :=
  need .missingPart (Text.findFirst? boneAt? path.toList)

def shapeKeyAt? (cs : List Char) : Option String := do
  quotedName? (← Text.strip? "key_blocks[\"".toList cs)

def shapeKeyName (path : String) : Except Failure String :=
  need .missingPart (Text.findFirst? shapeKeyAt? path.toList)

end SceneExport.DataPath
