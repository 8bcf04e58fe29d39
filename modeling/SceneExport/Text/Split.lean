import SceneExport.Text.Character

/-!
# Taking text apart

Cutting texts, reading whole numbers, and matching patterns.
-/

namespace SceneExport.Text

/-! ### Splitting, joining and replacing text

Operations on lists of characters, and their forms on strings: cutting at a separator
(`splitOn`), cutting at the last one (`splitLast?`), joining (`joinWith`), replacing one text
by another (`replaceAll`), and searching (`startsWith`, `findFirst?`). -/

/-- Cut a list at every separator; there is one more piece than there are separators. -/
def splitOn {α : Type} [BEq α] (sep : α) : List α → List (List α)
  | [] => [[]]
  | c :: cs =>
    if c == sep then [] :: splitOn sep cs
    else
      match splitOn sep cs with
      | [] => [[c]]
      | piece :: pieces => (c :: piece) :: pieces

def split (sep : Char) (s : String) : List String :=
  (splitOn sep s.toList).map String.ofList

/-- Cut a list at its last separator, which is in neither part. -/
def splitLast? {α : Type} [BEq α] (sep : α) : List α → Option (List α × List α)
  | [] => none
  | c :: cs =>
    match splitLast? sep cs with
    | some (before, after) => some (c :: before, after)
    | none => if c == sep then some ([], cs) else none

def joinWith (sep : String) (parts : List String) : String :=
  sep.intercalate parts

def strip? {α : Type} [BEq α] : List α → List α → Option (List α)
  | [], cs => some cs
  | _ :: _, [] => none
  | p :: ps, c :: cs => if p == c then strip? ps cs else none

def startsWith (s start : String) : Bool :=
  (strip? start.toList s.toList).isSome

def endsWith (s ending : String) : Bool :=
  (strip? ending.toList.reverse s.toList.reverse).isSome

/-- Replace every occurrence of a non-empty `pattern`, from left to right.  `skip` characters
still belong to the occurrence found last. -/
def replaceFrom (pattern replacement : List Char) : Nat → List Char → List Char
  | _, [] => []
  | skip + 1, _ :: cs => replaceFrom pattern replacement skip cs
  | 0, c :: cs =>
    if (strip? pattern (c :: cs)).isSome then
      replacement ++ replaceFrom pattern replacement (pattern.length - 1) cs
    else c :: replaceFrom pattern replacement 0 cs

/-- Replace every occurrence of a text by another.  The empty text occurs before every
character and at the end. -/
def replaceAll (pattern replacement s : String) : String :=
  if pattern.isEmpty then
    replacement ++ String.join (s.toList.map fun c => String.ofList [c] ++ replacement)
  else String.ofList (replaceFrom pattern.toList replacement.toList 0 s.toList)

/-- The first result of `find` at a position of the list, from left to right. -/
def findFirst? {α β : Type} (find : List α → Option β) : List α → Option β
  | [] => find []
  | c :: cs =>
    match find (c :: cs) with
    | some b => some b
    | none => findFirst? find cs

def contains (s pattern : String) : Bool :=
  (findFirst? (strip? pattern.toList) s.toList).isSome

/-- A text without some characters at its ends. -/
def stripped (drop : Char → Bool) (s : String) : String :=
  String.ofList ((s.toList.dropWhile drop).reverse.dropWhile drop).reverse

def without (drop : Char → Bool) (s : String) : String :=
  String.ofList (s.toList.filter fun c => !drop c)

def padded (width n : Nat) : String :=
  let digits := Nat.toDigits 10 n
  String.ofList (List.replicate (width - digits.length) '0' ++ digits)

/-! ### Integers

Reading a whole number from a text: blanks around it, a sign, and decimal digits of any script,
between which single underscores may stand.  Numbers with more digits than `maxDigits` are
refused. -/

/-- The number of some digits, after the digits with value `value`.  `isOpen` holds between an
underscore or the beginning and the next digit. -/
def digitsValue? (isOpen : Bool) (value : Nat) : List Char → Option Nat
  | [] => if isOpen then none else some value
  | c :: cs =>
    match digit? c with
    | some d => digitsValue? false (10 * value + d) cs
    | none => if c == '_' && !isOpen then digitsValue? true value cs else none

def maxDigits : Nat := 4300

def magnitude? (cs : List Char) : Option Nat :=
  if maxDigits < cs.countP fun c => (digit? c).isSome then none else digitsValue? true 0 cs

/-- Whether a character can stand before and after a number: a blank, but no information
separator. -/
def isMargin (c : Char) : Bool :=
  isBlank c && !(28 ≤ c.toNat && c.toNat < 32)

/-- Leave out what can stand before and after a number. -/
def withoutMargins (cs : List Char) : List Char :=
  ((cs.dropWhile isMargin).reverse.dropWhile isMargin).reverse

def integer? (s : String) : Option Int :=
  match withoutMargins s.toList with
  | '-' :: cs => (magnitude? cs).map fun n => -(n : Int)
  | '+' :: cs => (magnitude? cs).map fun n => (n : Int)
  | cs => (magnitude? cs).map fun n => (n : Int)

/-! ### Patterns

Regular patterns over classes of characters, and whether a text fits one as a whole
(`Pattern.fits`).  A text is read character by character; what must follow is kept as a set of
patterns, of which there are finitely many for each pattern to begin with. -/

/-- A class of characters; `latin` is the unaccented letters of either case. -/
inductive CharClass where
  | exact (c : Char)
  | blank
  | word
  | latin
  deriving DecidableEq, Repr, Inhabited

def CharClass.has : CharClass → Char → Bool
  | .exact c, d => c == d
  | .blank, d => isBlank d
  | .word, d => isWord d
  | .latin, d => d.isAlpha

inductive Pattern where
  | empty
  | one (c : CharClass)
  | seq (p q : Pattern)
  | either (p q : Pattern)
  | many (p : Pattern)
  deriving DecidableEq, Repr, Inhabited

namespace Pattern

def text (s : String) : Pattern :=
  s.toList.foldr (fun c p => .seq (.one (.exact c)) p) .empty

def oneOf : List String → Pattern
  | [] => .empty
  | [s] => text s
  | s :: ss => .either (text s) (oneOf ss)

def atLeastOne (p : Pattern) : Pattern :=
  .seq p (.many p)

def optional (p : Pattern) : Pattern :=
  .either p .empty

def sequence (ps : List Pattern) : Pattern :=
  ps.foldr .seq .empty

def acceptsEmpty : Pattern → Bool
  | .empty => true
  | .one _ => false
  | .seq p q => p.acceptsEmpty && q.acceptsEmpty
  | .either p q => p.acceptsEmpty || q.acceptsEmpty
  | .many _ => true

def after (c : Char) : Pattern → List Pattern
  | .empty => []
  | .one k => if k.has c then [.empty] else []
  | .seq p q =>
    (p.after c).map (.seq · q) ++ if p.acceptsEmpty then q.after c else []
  | .either p q => p.after c ++ q.after c
  | .many p => (p.after c).map (.seq · (.many p))

def fitsOne (ps : List Pattern) : List Char → Bool
  | [] => ps.any acceptsEmpty
  | c :: cs => fitsOne (ps.flatMap (·.after c)).eraseDups cs

def fits (p : Pattern) (cs : List Char) : Bool :=
  fitsOne [p] cs

end Pattern

end SceneExport.Text
