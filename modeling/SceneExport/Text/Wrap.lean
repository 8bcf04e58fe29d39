import SceneExport.Text.Character

/-!
# Wrapping a line

A long line is cut into chunks (words, runs of spaces, dashes between words, and the parts of
hyphenated words: `chunks`), and the chunks are put into lines of at most a given width
(`fill`).  Spaces where a line ends or begins are left out, and a word longer than a line is
broken, after a hyphen if it has one (`breakPoint`).

Before that, tabs are widened to multiples of eight and every other space character becomes a
space (`spaced`).
-/

namespace SceneExport.Text

/-! ### Spaces -/

/-- The six characters at which a line can end. -/
def isSpacing (c : Char) : Bool :=
  c == ' ' || (9 ≤ c.toNat && c.toNat ≤ 13)

/-- Widen tabs to the next multiple of eight columns, from a given column on. -/
def expandTabs (column : Nat) : List Char → List Char
  | [] => []
  | c :: cs =>
    if c == '\t' then
      let width := 8 - column % 8
      List.replicate width ' ' ++ expandTabs (column + width) cs
    else if c == '\n' || c == '\r' then c :: expandTabs 0 cs
    else c :: expandTabs (column + 1) cs

/-- The line with tabs widened and every spacing character a space. -/
def spaced (cs : List Char) : List Char :=
  (expandTabs 0 cs).map fun c => if isSpacing c then ' ' else c

/-! ### Chunks -/

/-- Characters after which a dash can join two words. -/
def isWordEnd (c : Char) : Bool :=
  isWord c || c == '!' || c == '"' || c == '\'' || c == '&' || c == '.' || c == ',' || c == '?'

def dashes (cs : List Char) : Nat :=
  (cs.takeWhile (· == '-')).length

/-- Whether a line goes on with a dash of two or more hyphens and a word. -/
def meetsDash (cs : List Char) : Bool :=
  2 ≤ dashes cs && ((cs.drop (dashes cs)).head?.any isWord)

/-- Whether the text goes on with the second part of a hyphenated word. -/
def meetsWordPart : List Char → Bool
  | a :: '-' :: b :: _ => isLetter a && isLetter b
  | a :: b :: _ => isLetter a && isLetter b
  | _ => false

/-- Whether the text `before` (reversed) a hyphen is the first part of a hyphenated word. -/
def isWordPart : List Char → Bool
  | a :: '-' :: b :: _ => isLetter a && isLetter b
  | a :: b :: _ => isLetter a && isLetter b
  | _ => false

/-- How many characters of `rest` belong to the word that `before` (reversed) is part of. -/
def wordLength (before rest : List Char) : Nat :=
  match rest with
  | [] => 0
  | c :: cs =>
    if c == '-' && isWordPart before && meetsWordPart cs then 1
    else if isSpacing c then 0
    else if before.head?.any isWordEnd && meetsDash (c :: cs) then 0
    else 1 + wordLength (c :: before) cs

/-- The length of the first chunk of a text that stands after `before` (reversed). -/
def chunkLength (before : List Char) : List Char → Nat
  | [] => 0
  | c :: cs =>
    if isSpacing c then 1 + (cs.takeWhile isSpacing).length
    else if before.head?.any isWordEnd && meetsDash (c :: cs) then dashes (c :: cs)
    else 1 + wordLength (c :: before) cs

theorem chunkLength_pos (before : List Char) (c : Char) (cs : List Char) :
    0 < chunkLength before (c :: cs) := by
  simp only [chunkLength]
  split
  · omega
  · split
    · rename_i h
      simp only [meetsDash, Bool.and_eq_true, decide_eq_true_eq] at h
      omega
    · omega

/-- The chunks of a text that stands after `before` (reversed). -/
def chunksFrom (before : List Char) : List Char → List (List Char)
  | [] => []
  | c :: cs =>
    let n := chunkLength before (c :: cs)
    let chunk := (c :: cs).take n
    chunk :: chunksFrom (chunk.reverse ++ before) ((c :: cs).drop n)
termination_by cs => cs.length
decreasing_by
  have := chunkLength_pos before c cs
  simp only [List.length_drop, List.length_cons]
  omega

def chunks (cs : List Char) : List (List Char) :=
  chunksFrom [] cs

/-! ### Lines -/

/-- The chunks that fit into `room` characters, and the others. -/
def takeFitting : Nat → List (List Char) → List (List Char) × List (List Char)
  | _, [] => ([], [])
  | room, c :: cs =>
    if c.length ≤ room then
      let (line, rest) := takeFitting (room - c.length) cs
      (c :: line, rest)
    else ([], c :: cs)

def lastHyphen? (cs : List Char) : Option Nat :=
  (splitAtHyphen cs).map List.length
where
  splitAtHyphen : List Char → Option (List Char)
    | [] => none
    | c :: cs =>
      match splitAtHyphen cs with
      | some before => some (c :: before)
      | none => if c == '-' then some [] else none

/-- Where to break a chunk longer than `room`: after its last hyphen in the room, if there is
something else before it, and otherwise where the room ends. -/
def breakPoint (room : Nat) (chunk : List Char) : Nat :=
  match lastHyphen? (chunk.take room) with
  | some k => if (chunk.take k).any (· != '-') then k + 1 else room
  | none => room

def isBlankChunk (chunk : List Char) : Bool :=
  chunk.all isBlank

/-- Leave out the last chunk if it holds blanks only. -/
def dropLastBlank (line : List (List Char)) : List (List Char) :=
  match line.getLast? with
  | some chunk => if isBlankChunk chunk then line.dropLast else line
  | none => line

/-- The first line of the chunks, before blanks at its end are left out, and what remains. -/
def firstLine (width : Nat) (cs : List (List Char)) : List (List Char) × List (List Char) :=
  let (line, rest) := takeFitting width cs
  match rest with
  | [] => (line, [])
  | c :: more =>
    if width < c.length then
      let k := breakPoint (width - line.flatten.length) c
      (line ++ [c.take k], c.drop k :: more)
    else (line, rest)

/-- The size of what is left to do: every chunk counts one more than its length. -/
def load : List (List Char) → Nat
  | [] => 0
  | c :: cs => c.length + 1 + load cs

theorem takeFitting_append (room : Nat) (cs : List (List Char)) :
    (takeFitting room cs).1 ++ (takeFitting room cs).2 = cs := by
  induction cs generalizing room with
  | nil => simp [takeFitting]
  | cons c cs ih =>
    simp only [takeFitting]
    split
    · simpa using ih (room - c.length)
    · simp

theorem load_append (a b : List (List Char)) : load (a ++ b) = load a + load b := by
  induction a with
  | nil => simp [load]
  | cons c a ih => simp only [List.cons_append, load, ih]; omega

theorem breakPoint_pos {room : Nat} (h : 0 < room) (chunk : List Char) :
    0 < breakPoint room chunk := by
  unfold breakPoint
  split
  · split <;> omega
  · exact h

theorem load_drop_le (k : Nat) (c : List Char) (more : List (List Char)) :
    load (c.drop k :: more) ≤ load (c :: more) := by
  simp [load]

theorem load_firstLine_lt {width : Nat} (hw : 0 < width) {cs : List (List Char)} (hc : cs ≠ []) :
    load (firstLine width cs).2 < load cs := by
  have happ := takeFitting_append width cs
  unfold firstLine
  obtain ⟨line, rest, h⟩ : ∃ line rest, takeFitting width cs = (line, rest) := ⟨_, _, rfl⟩
  simp only [h] at happ ⊢
  cases line with
  | cons d l =>
    have hload : load cs = load (d :: l) + load rest := by rw [← load_append, happ]
    have hd : 0 < load (d :: l) := by simp only [load]; omega
    cases rest with
    | nil => simp only; omega
    | cons c more =>
      have := load_drop_le (breakPoint (width - (d :: l).flatten.length) c) c more
      dsimp only
      split <;> simp only <;> omega
  | nil =>
    cases rest with
    | nil => simp_all
    | cons c more =>
      subst happ
      have hlong : width < c.length := by
        simp only [takeFitting, List.nil_append] at h
        split at h
        · simp at h
        · omega
      have hpos := breakPoint_pos hw c
      simp only [hlong, if_true, List.flatten_nil, List.length_nil, Nat.sub_zero, List.nil_append]
      simp only [load, List.length_drop]
      omega

theorem load_firstLine_le {width : Nat} (hw : 0 < width) (cs : List (List Char)) :
    load (firstLine width cs).2 ≤ load cs := by
  cases cs with
  | nil => simp [firstLine, takeFitting]
  | cons c more => exact Nat.le_of_lt (load_firstLine_lt hw (List.cons_ne_nil c more))

/-- What is left of the chunks once a blank chunk at the beginning of a line is left out.  The
first line keeps it (`started` is false). -/
def dropFirstBlank (started : Bool) (c : List Char) (more : List (List Char)) : List (List Char) :=
  if started && isBlankChunk c then more else c :: more

theorem load_step_lt {width : Nat} (hw : 0 < width) {started : Bool} {c : List Char}
    {more : List (List Char)} :
    load (firstLine width (dropFirstBlank started c more)).2 < load (c :: more) := by
  unfold dropFirstBlank
  split
  · have := load_firstLine_le hw more
    have : load (c :: more) = c.length + 1 + load more := rfl
    omega
  · exact load_firstLine_lt hw (List.cons_ne_nil c more)

/-- Put chunks into lines of at most `width + 1` characters; `started` says that there is a
line already. -/
def fill (width : Nat) (started : Bool) : List (List Char) → List (List Char)
  | [] => []
  | c :: more =>
    let kept := dropLastBlank (firstLine (width + 1) (dropFirstBlank started c more)).1
    let rest := (firstLine (width + 1) (dropFirstBlank started c more)).2
    if kept.isEmpty then fill width started rest
    else kept.flatten :: fill width true rest
termination_by cs => load cs
decreasing_by
  all_goals exact load_step_lt (Nat.succ_pos _)

def wrap (width : Nat) (line : String) : List String :=
  (fill width false (chunks (spaced line.toList))).map String.ofList

end SceneExport.Text
