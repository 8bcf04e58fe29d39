import SceneExport.Description.Animation

/-!
# Descriptions of values

A value is described by a record of one entry, whose name says what it is.
-/

namespace SceneExport.Value

/-- The value that is described inside at most `depth` others. -/
def ofDatumWithin : Nat → Datum → Except Failure (Value Number)
  | 0, _ => .error .wrongKind
  | depth + 1, d => do
    match d.entries.headD ("", .nothing) with
    | ("int", v) => return .int (← v.integer)
    | ("float", v) => return .real (← v.number)
    | ("bool", v) => return .flag v.isOn
    | ("str", v) => return .text (← v.word)
    | ("vector", v) => return .vector (← v.as (List Number))
    | ("color", v) => return .color (← need .unusableValue (Vec3.ofList? (← v.as (List Number))))
    | ("matrix", v) => return .transform ((← v.as (Option (Placement Number))).getD .identity)
    | ("rgba", v) => return .rgba ((← v.as (List Number)).map .real)
    | ("path", v) => return .path (← NodePath.ofDatum v)
    | ("array", v) =>
      let brackets := ⟨← v.get "prefix" "", ← v.get "sep" ", ", ← v.get "suffix" ")"⟩
      return .array brackets (← (← v.all "values").mapM (ofDatumWithin depth))
    | ("map", v) =>
      let entries ← (← v.as (List (String × Datum))).mapM fun (name, item) =>
        return (name, ← ofDatumWithin depth item)
      return .map (Record.setAll [] entries)
    | ("none", _) => return .nothing
    | _ => throw .unusableValue

/-- Values are described at most so deep inside each other. -/
def mostNested : Nat := 1000

def ofDatum : Datum → Except Failure (Value Number) :=
  ofDatumWithin mostNested

def ofPlain : Datum → Value Number
  | .flag b => .flag b
  | .int n => .int n
  | .real x => .real x
  | .text s _ => .text s
  | .list items => .array ⟨"[", ", ", "]"⟩ (items.attach.map fun ⟨item, _⟩ => ofPlain item)
  | _ => .nothing

end SceneExport.Value
