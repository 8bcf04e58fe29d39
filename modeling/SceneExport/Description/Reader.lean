import SceneExport.File.Record
import SceneExport.Number

/-!
# Descriptions

Data that describe scenes, and how they are read.
-/

namespace SceneExport

/-! ### Data

Scenes and settings are described by data: numbers, texts, lists and records (`Datum`).  A type
whose values can be read off data is `Readable`.

A field that is missing or holds nothing has its default.  A text remembers its place in the
description, so that two undefined numbers that are written in two places are told apart. -/

inductive Datum where
  | nothing
  | flag (b : Bool)
  | int (n : Int)
  | real (x : Number)
  | text (s : String) (place : Nat)
  | list (items : List Datum)
  | record (entries : List (String × Datum))
  deriving Inhabited

namespace Datum

def entries : Datum → Record Datum
  | .record entries => entries
  | _ => []

def entry? (d : Datum) (name : String) : Option Datum :=
  d.entries.get? name

def field? (d : Datum) (name : String) : Option Datum :=
  (d.entry? name).filter fun
    | .nothing => false
    | _ => true

def items : Datum → Except Failure (List Datum)
  | .list items => .ok items
  | .nothing => .ok []
  | _ => .error .wrongKind

def item? (d : Datum) (index : Nat) : Option Datum :=
  match d with
  | .list items => items[index]?
  | _ => none

/-- Whether a datum counts as true: it is not empty, zero or nothing. -/
def isOn : Datum → Bool
  | .nothing => false
  | .flag b => b
  | .int n => n != 0
  | .real x => !Scalar.sameSize x 0
  | .text s _ => !s.isEmpty
  | .list items => !items.isEmpty
  | .record entries => !entries.isEmpty

def integer : Datum → Except Failure Int
  | .int n => .ok n
  | .flag b => .ok (if b then 1 else 0)
  | .real x => Scalar.truncate x
  | _ => .error .wrongKind

def wordNumber? (word : String) (place : Nat) : Option Number :=
  match word with
  | "nan" => some (.undefined (.read place))
  | "inf" => some (.infinite false)
  | "-inf" => some (.infinite true)
  | "-0.0" => some (.ofFloat (-0.0))
  | _ => none

def number : Datum → Except Failure Number
  | .real x => .ok x
  | .int n => Scalar.ofInt n
  | .flag b => .ok (if b then 1 else 0)
  | .text s place => need .unusableValue (wordNumber? s place)
  | _ => .error .wrongKind

def word : Datum → Except Failure String
  | .text s _ => .ok s
  | _ => .error .wrongKind

end Datum

/-! ### Types that are read -/

class Readable (β : Type) where
  read : Datum → Except Failure β

variable {β γ : Type}

namespace Datum

def as (β : Type) [Readable β] (d : Datum) : Except Failure β :=
  Readable.read d

def get [Readable β] (d : Datum) (name : String) (default : β) : Except Failure β :=
  match d.field? name with
  | some v => Readable.read v
  | none => .ok default

def find? [Readable β] (d : Datum) (name : String) : Except Failure (Option β) :=
  (d.field? name).mapM Readable.read

def all [Readable β] (d : Datum) (name : String) : Except Failure (List β) := do
  (← (d.field? name).elim (.ok []) items).mapM Readable.read

def isSet (d : Datum) (name : String) (default : Bool) : Bool :=
  (d.field? name).elim default isOn

def position? (d : Datum) (name : String) (size : Nat) : Except Failure (Option Nat) :=
  (d.field? name).mapM fun v => do position size (← v.integer)

end Datum

instance : Readable Datum := ⟨.ok⟩

instance : Readable String := ⟨Datum.word⟩

instance : Readable Bool := ⟨fun d => .ok d.isOn⟩

instance : Readable Int := ⟨Datum.integer⟩

instance : Readable Nat := ⟨fun d => do return (← d.integer).toNat⟩

instance : Readable Number := ⟨Datum.number⟩

instance [Readable β] : Readable (List β) := ⟨fun d => do (← d.items).mapM Readable.read⟩

instance [Readable β] : Readable (Array β) := ⟨fun d => do return (← d.as (List β)).toArray⟩

instance [Readable β] : Readable (Option β) := ⟨fun
  | .nothing => .ok none
  | d => some <$> Readable.read d⟩

instance [Readable β] [Readable γ] : Readable (β × γ) := ⟨fun d => do
  let first ← need .outOfRange (d.item? 0)
  let second ← need .outOfRange (d.item? 1)
  return (← first.as β, ← second.as γ)⟩

end SceneExport

/-! ### Reading data

Data are written in the usual notation of brackets, braces and quotes (`Datum.ofText?`).  Numbers
without a point and an exponent are whole; any other is the double nearest to it.  Of several
entries of a record with one name the last counts, at the place of the first.

The functions work on the characters of a text by position.  Each takes a bound on the number of
its steps, for which the number of characters is always enough. -/

namespace SceneExport.Reader

abbrev Source := Array Char

def isSpace (c : Char) : Bool :=
  c == ' ' || c == '\t' || c == '\n' || c == '\r'

def skipSpace (s : Source) : Nat → Nat → Nat
  | 0, place => place
  | fuel + 1, place =>
    match s[place]? with
    | some c => if isSpace c then skipSpace s fuel (place + 1) else place
    | none => place

/-! ### Texts -/

def hexValue? (c : Char) : Option Nat :=
  if c.isDigit then some (c.toNat - '0'.toNat)
  else if 'a' ≤ c ∧ c ≤ 'f' then some (c.toNat - 'a'.toNat + 10)
  else if 'A' ≤ c ∧ c ≤ 'F' then some (c.toNat - 'A'.toNat + 10)
  else none

def unit? (s : Source) (place : Nat) : Option Nat := do
  let digits ← (List.range 4).mapM fun i => do hexValue? (← s[place + i]?)
  return digits.foldl (fun value digit => 16 * value + digit) 0

/-- The character that a letter stands for behind a backslash. -/
def escaped? : Char → Option Char
  | 'n' => some '\n'
  | 't' => some '\t'
  | 'r' => some '\r'
  | 'b' => some '\x08'
  | 'f' => some '\x0c'
  | '"' => some '"'
  | '\\' => some '\\'
  | '/' => some '/'
  | _ => none

/-- The character that is written by its number at a place, and the place behind it.  A character
beyond the first plane is written as a pair of units. -/
def numbered? (s : Source) (place : Nat) : Option (Char × Nat) := do
  let unit ← unit? s place
  let second := if s[place + 4]? == some '\\' && s[place + 5]? == some 'u' then
    (unit? s (place + 6)).getD 0 else 0
  if 0xD800 ≤ unit ∧ unit < 0xDC00 ∧ 0xDC00 ≤ second ∧ second < 0xE000 then
    return (Char.ofNat (0x10000 + (unit - 0xD800) * 0x400 + (second - 0xDC00)), place + 10)
  else if 0xD800 ≤ unit ∧ unit < 0xE000 then return ('\ufffd', place + 4)
  else return (Char.ofNat unit, place + 4)

/-- The rest of a text up to its closing quote, and the place behind it. -/
def textFrom (s : Source) : Nat → Nat → String → Option (String × Nat)
  | 0, _, _ => none
  | fuel + 1, place, read => do
    match ← s[place]? with
    | '"' => return (read, place + 1)
    | '\\' =>
      match ← s[place + 1]? with
      | 'u' =>
        let (c, next) ← numbered? s (place + 2)
        textFrom s fuel next (read.push c)
      | letter => textFrom s fuel (place + 2) (read.push (← escaped? letter))
    | c => textFrom s fuel (place + 1) (read.push c)

/-! ### Numbers -/

/-- The digits from a place on: their number as a whole, how many they are, and the place behind
them. -/
def digitsFrom (s : Source) : Nat → Nat → Nat → Nat → Nat × Nat × Nat
  | 0, place, value, count => (value, count, place)
  | fuel + 1, place, value, count =>
    match s[place]? with
    | some c =>
      if c.isDigit then
        digitsFrom s fuel (place + 1) (10 * value + (c.toNat - '0'.toNat)) (count + 1)
      else (value, count, place)
    | none => (value, count, place)

/-- The exponent at a place, if there is one, and the place behind it. -/
def exponentAt (s : Source) (fuel place : Nat) : Option (Int × Nat) :=
  if s[place]? == some 'e' || s[place]? == some 'E' then
    let sign := s[place + 1]?
    let start := if sign == some '-' || sign == some '+' then place + 2 else place + 1
    let (value, count, next) := digitsFrom s fuel start 0 0
    if count = 0 then none
    else some (if sign == some '-' then -(value : Int) else value, next)
  else none

/-- The double nearest to `value * 10 ^ exponent`, with a sign.  Beyond all doubles it is infinite,
and far below the least it is zero. -/
def scaled (negative : Bool) (value : Nat) (digits : Nat) (exponent : Int) : Number :=
  let nearest (num den : Nat) : Number :=
    ((Decimal.nearest? negative num den).map Number.ofFloat).getD (.infinite negative)
  if value = 0 ∨ exponent + digits < -400 then nearest 0 1
  else if 400 < exponent then .infinite negative
  else nearest (value * Nat.pow 10 exponent.toNat) (Nat.pow 10 (-exponent).toNat)

def numberAt (s : Source) (fuel place : Nat) : Option (Datum × Nat) :=
  let negative := s[place]? == some '-'
  let start := if negative then place + 1 else place
  let (whole, digits, next) := digitsFrom s fuel start 0 0
  if digits = 0 then none
  else
    let hasPoint := s[next]? == some '.'
    let (value, all, behind) :=
      if hasPoint then digitsFrom s fuel (next + 1) whole digits else (whole, digits, next)
    match exponentAt s fuel behind with
    | some (exponent, last) =>
      some (.real (scaled negative value all (exponent - (all - digits : Nat))), last)
    | none =>
      if hasPoint then some (.real (scaled negative value all (-(all - digits : Nat))), behind)
      else some (.int (if negative then -(whole : Int) else whole), next)

/-! ### Lists and records -/

def literals : List (List Char × Datum) :=
  [("true".toList, .flag true), ("false".toList, .flag false), ("null".toList, .nothing),
    ("NaN".toList, .real (.undefined .constant)), ("Infinity".toList, .real (.infinite false)),
    ("-Infinity".toList, .real (.infinite true))]

def isAt (s : Source) (place : Nat) (word : List Char) : Bool :=
  word.zipIdx.all fun (c, i) => s[place + i]? == some c

/-- The word or number at a place, and the place behind it. -/
def atomAt (s : Source) (fuel place : Nat) : Option (Datum × Nat) :=
  match literals.find? (isAt s place ·.1) with
  | some (word, d) => some (d, place + word.length)
  | none => numberAt s fuel place

mutual

/-- The datum at a place, and the place behind it and the space that follows. -/
def datumAt (s : Source) : Nat → Nat → Option (Datum × Nat)
  | 0, _ => none
  | fuel + 1, place => do
    let (d, next) ← match s[place]? with
      | some '"' => do
        let (read, next) ← textFrom s (fuel + 1) (place + 1) ""
        pure (Datum.text read place, next)
      | some '[' => do
        let start := skipSpace s fuel (place + 1)
        if s[start]? == some ']' then pure (Datum.list [], start + 1)
        else do
          let (items, next) ← itemsFrom s fuel start []
          pure (Datum.list items, next)
      | some '\x7b' => do
        let start := skipSpace s fuel (place + 1)
        if s[start]? == some '\x7d' then pure (Datum.record [], start + 1)
        else do
          let (entries, next) ← entriesFrom s fuel start []
          pure (Datum.record (Record.setAll [] entries), next)
      | _ => atomAt s (fuel + 1) place
    return (d, skipSpace s (fuel + 1) next)

/-- The rest of a list, and the place behind it; `read` are the items before, reversed. -/
def itemsFrom (s : Source) : Nat → Nat → List Datum → Option (List Datum × Nat)
  | 0, _, _ => none
  | fuel + 1, place, read => do
    let (d, next) ← datumAt s fuel place
    match ← s[next]? with
    | ',' => itemsFrom s fuel (skipSpace s fuel (next + 1)) (d :: read)
    | ']' => return ((d :: read).reverse, next + 1)
    | _ => none

/-- The rest of a record, and the place behind it; `read` are the entries before, reversed. -/
def entriesFrom (s : Source) :
    Nat → Nat → List (String × Datum) → Option (List (String × Datum) × Nat)
  | 0, _, _ => none
  | fuel + 1, place, read => do
    if s[place]? != some '"' then none
    let (name, next) ← textFrom s (fuel + 1) (place + 1) ""
    let colon := skipSpace s (fuel + 1) next
    if s[colon]? != some ':' then none
    let (d, next) ← datumAt s fuel (skipSpace s (fuel + 1) (colon + 1))
    match ← s[next]? with
    | ',' => entriesFrom s fuel (skipSpace s fuel (next + 1)) ((name, d) :: read)
    | '\x7d' => return (((name, d) :: read).reverse, next + 1)
    | _ => none

end

end SceneExport.Reader

namespace SceneExport

def Datum.ofText? (text : String) : Option Datum := do
  let s := text.toList.toArray
  let (d, next) ← Reader.datumAt s (s.size + 1) (Reader.skipSpace s s.size 0)
  if next = s.size then return d else none

end SceneExport
