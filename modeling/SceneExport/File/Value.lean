import SceneExport.Mesh.Split
import SceneExport.Path

/-!
# Values and entries

The properties of a scene file, and the entries that hold them.
-/

namespace SceneExport

/-! ### Node paths

How one node of a scene tree refers to another, or to a property of another. -/

/-- The way from one node to another, and the property meant there. -/
structure NodePath where
  route : String
  property : String
  deriving DecidableEq, Repr, Inhabited

namespace NodePath

def between (start target property : String) : Except Failure NodePath := do
  let route ← Path.relative target start
  return ⟨Path.normalize route, property⟩

def withProperty (p : NodePath) (property : String) : NodePath :=
  { p with property }

def render (p : NodePath) : String :=
  "NodePath(\"" ++ p.route ++ ":" ++ p.property ++ "\")"

end NodePath

/-! ### Values

What a property of an entry can hold, and how it is written (`Value.render`).  Transforms are
written with the second axis up, whatever they are in memory.  In a heading values are written in
another way (`Value.headingText`).

`Value.same` is the equality by which two entries are compared. -/

/-- What an array is written between and around. -/
structure Brackets where
  opening : String
  separator : String := ", "
  closing : String := ")"
  deriving DecidableEq, Repr, Inhabited

inductive Value (α : Type) where
  | nothing
  /-- A text that is written as it is. -/
  | text (s : String)
  | int (n : Int)
  | real (x : α)
  | complex (re im : α)
  | flag (b : Bool)
  | vector (components : List α)
  /-- An opaque colour. -/
  | color (c : Vec3 α)
  /-- A colour whose fourth component, if there is one, is its alpha. -/
  | rgba (components : List (Value α))
  | transform (p : Placement α)
  | path (p : NodePath)
  | reference (r : Reference)
  | array (brackets : Brackets) (items : List (Value α))
  | map (entries : List (String × Value α))
  | surface (s : Surface α)

namespace Value

variable {α : Type} [Scalar α]

instance : Inhabited (Value α) where
  default := .nothing

def quoted (s : String) : Value α :=
  .text ("\"" ++ s ++ "\"")

def text? : Value α → Option String
  | .text s => some s
  | _ => none

def asText (v : Value α) : Except Failure String :=
  need .wrongKind v.text?

def isSingle : Value α → Bool
  | .vector _ | .color _ | .transform _ | .array _ _ | .map _ => false
  | _ => true

def isVoid : Value α → Bool
  | .nothing => true
  | .text s => s.isEmpty
  | .int n => n == 0
  | .real x => Scalar.sameSize x 0
  | .flag b => !b
  | .vector xs => xs.isEmpty
  | .transform p => p.toRows.isEmpty
  | .array _ items => items.isEmpty
  | .map entries => entries.isEmpty
  | _ => false

def ofChannel : Channel α → Value α
  | .real x => .real x
  | .complex re im => .complex re im

/-! ### Texts -/

def flagText (b : Bool) : String :=
  if b then "true" else "false"

/-- A number of two parts: the first is left out when it is a positive zero. -/
def complexText (re im : α) : String :=
  let imText := Scalar.partText im
  let reText := Scalar.partText re
  if reText == "0" then imText ++ "j"
  else
    let sign := if Text.startsWith imText "-" then "" else "+"
    "(" ++ reText ++ sign ++ imText ++ "j)"

def numbersText (opening : String) (xs : List α) : String :=
  opening ++ Text.joinWith ", " (xs.map Scalar.fileText) ++ ")"

/-- The numbers of a transform: the rows of its linear part, then its location, with the second
axis up. -/
def transformNumbers (m : Mat4 α) : List α :=
  let t := m.toYUp
  t.r0.xyz.toList ++ t.r1.xyz.toList ++ t.r2.xyz.toList ++ t.location.toList

/-- The numbers of a placement; all that a transform is written with have to be there. -/
def placementNumbers : Placement α → Except Failure (List α)
  | .transform m => .ok (transformNumbers m)
  | .rows entries => do return transformNumbers (← entries.affine)

def vectorText (xs : List α) : String :=
  numbersText ("Vector" ++ toString xs.length ++ "(") xs

/-- A colour from the texts of its components; without a fourth it is `solid`. -/
def rgbaText (solid : String) (components : List String) : String :=
  let alpha := components.getD 3 solid
  "Color(" ++ Text.joinWith ", " (components.take 3 ++ [alpha]) ++ ")"

mutual

def render : Value α → Logged String
  | .nothing => pure "None"
  | .text s => pure s
  | .int n => pure (toString n)
  | .real x => pure (Scalar.fileText x)
  | .complex re im => pure (complexText re im)
  | .flag b => pure (flagText b)
  | .vector xs => pure (vectorText xs)
  | .color c => pure (numbersText "Color(" (c.toList ++ [1]))
  | .rgba components => do return rgbaText (Scalar.fileText (1 : α)) (← renderAll components)
  | .transform p => do return numbersText "Transform(" (← placementNumbers p)
  | .path p => pure p.render
  | .reference r => pure r.render
  | .array b items => do
    return b.opening ++ Text.joinWith b.separator (← renderAll items) ++ b.closing
  | .map entries => do
    return "\x7b\n\t" ++ Text.joinWith ",\n\t" (← renderEntries entries) ++ "\n\x7d"
  | .surface s => s.render

def renderAll : List (Value α) → Logged (List String)
  | [] => pure []
  | v :: vs => do
    let text ← render v
    return text :: (← renderAll vs)

def renderEntries : List (String × Value α) → Logged (List String)
  | [] => pure []
  | (name, v) :: entries => do
    let text ← render v
    return ("\"" ++ name ++ "\":" ++ text) :: (← renderEntries entries)

end

/-! ### Texts in headings -/

/-- A description of some numbers under the name of what they are. -/
def numbersNote (kind : String) (xs : List α) : String :=
  "<" ++ kind ++ " (" ++ Text.joinWith ", " (xs.map Scalar.noteText) ++ ")>"

def listNote (items : List String) : String :=
  "[" ++ Text.joinWith ", " items ++ "]"

def rowsNote (rows : Rows α) : String :=
  listNote (rows.map (numbersNote "Vector"))

mutual

def note : Value α → String
  | .text s => Text.quoted s
  | .int n => toString n
  | .real x => Scalar.codeText x
  | .flag b => if b then "True" else "False"
  | .vector xs => numbersNote "Vector" xs
  | .color c => numbersNote "Color" c.toList
  | .transform p => rowsNote p.toRows
  | .array _ items => listNote (noteAll items)
  | .map [] => "Map()"
  | .map (entry :: entries) => "Map(" ++ listNote (noteEntries (entry :: entries)) ++ ")"
  | _ => "None"

def noteAll : List (Value α) → List String
  | [] => []
  | v :: vs => note v :: noteAll vs

def noteEntries : List (String × Value α) → List String
  | [] => []
  | (name, v) :: entries =>
    ("(" ++ Text.quoted name ++ ", " ++ note v ++ ")") :: noteEntries entries

end

/-- The text of a value in a heading: a text stands in quotes and is not escaped, anything else is
described. -/
def headingText : Value α → String
  | .text s => "\"" ++ s ++ "\""
  | v => note v

/-! ### Equality -/

/-- A value as a quantity, if it is one; the truth values are one and zero. -/
def quantity? : Value α → Option (Quantity α)
  | .int n => some (.whole n)
  | .real x => some (.real x)
  | .flag b => some (.whole (if b then 1 else 0))
  | _ => none

mutual

/-- Whether two values are equal.  Numbers are compared by size; node paths, colours with an
alpha and surfaces are each their own. -/
def same : Value α → Value α → Bool
  | .nothing, .nothing => true
  | .text a, .text b => a == b
  | .reference a, .reference b => a == b
  | .complex a b, .complex c d => a == c && b == d
  | .vector a, .vector b => a == b
  | .color a, .color b => a == b
  | .transform a, .transform b => a == b
  | .array _ as, .array _ bs => sameAll as bs
  | .map as, .map bs => sameEntries as bs
  | a, b =>
    match quantity? a, quantity? b with
    | some x, some y => x.same y
    | _, _ => false

def sameAll : List (Value α) → List (Value α) → Bool
  | [], [] => true
  | a :: as, b :: bs => same a b && sameAll as bs
  | _, _ => false

def sameEntries : List (String × Value α) → List (String × Value α) → Bool
  | [], [] => true
  | (m, a) :: as, (n, b) :: bs => m == n && same a b && sameEntries as bs
  | _, _ => false

end

end Value

/-! ### Entries

Everything in a scene file has one shape: a heading `[kind name=value …]` and, below it, lines
`name = value`.  Texts in a heading stand in quotes and are not escaped. -/

abbrev Heading (α : Type) := Record (Value α)

namespace Heading

variable {α : Type} [Scalar α]

def value (h : Heading α) (name : String) : Except Failure (Value α) :=
  need .missingKey (h.get? name)

def text (h : Heading α) (name : String) : Except Failure String := do
  (← h.value name).asText

def render (kind : String) (h : Heading α) : String :=
  "[" ++ kind ++ String.join (h.map fun e => " " ++ e.1 ++ "=" ++ e.2.headingText) ++ "]"

end Heading

structure Entry (α : Type) where
  kind : String
  heading : Heading α
  properties : Record (Value α) := []
  /-- Lines that follow the properties. -/
  contents : String := ""

namespace Entry

variable {α : Type} [Scalar α]

instance : Inhabited (Entry α) where
  default := ⟨"", [], [], ""⟩

def set (e : Entry α) (name : String) (value : Value α) : Entry α :=
  { e with properties := e.properties.set name value }

def setHeading (e : Entry α) (name : String) (value : Value α) : Entry α :=
  { e with heading := Record.set e.heading name value }

def bodyText (properties : Record (Value α)) : Logged String := do
  let lines ← properties.mapM fun p => do
    let value ← p.2.render
    return p.1 ++ " = " ++ value
  return Text.joinWith "\n" lines

/-- A heading, a body and further lines, which need a body before them. -/
def assemble (heading body contents : String) : String :=
  if body.isEmpty then heading
  else if contents.isEmpty then heading ++ "\n\n" ++ body
  else heading ++ "\n\n" ++ body ++ "\n" ++ contents

def render (e : Entry α) : Logged String := do
  let body ← bodyText e.properties
  return assemble (e.heading.render e.kind) body e.contents

end Entry

end SceneExport
