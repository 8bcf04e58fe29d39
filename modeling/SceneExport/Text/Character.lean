
/-!
# Characters

Classes of characters in every script, and what depends on them: words, identifiers and lower case.
-/

namespace SceneExport.Text

/-! ### Character classes given by ranges

A class of characters as an increasing list of ranges of code points, first and last included,
searched by halving. -/

abbrev Ranges := Array (Nat × Nat)

/-- The ranges after the code point `n` that follow from their gaps and lengths. -/
def Ranges.after (n : Nat) : List Nat → List (Nat × Nat)
  | gap :: length :: rest =>
    let first := n + gap
    (first, first + length) :: Ranges.after (first + length) rest
  | _ => []

/-- The ranges given by two numbers each: how far the first code point is from the last one of the
range before, and how far the last one is from the first. -/
def Ranges.ofGaps (gaps : List Nat) : Ranges :=
  (Ranges.after 0 gaps).toArray

/-- Look for `n` among the ranges from `low` to below `high`. -/
def Ranges.search (r : Ranges) (n low high : Nat) : Bool :=
  if low < high then
    let mid := (low + high) / 2
    match r[mid]? with
    | none => false
    | some (first, last) =>
      if n < first then r.search n low mid
      else if last < n then r.search n (mid + 1) high
      else true
  else false
termination_by high - low

def Ranges.has (r : Ranges) (c : Char) : Bool :=
  r.search c.toNat 0 r.size

/-! ### Blanks

The characters that separate words (`isBlank`), trimming, and the words of a text. -/

/-- Tabs, line ends, spaces of every width, and the four information separators. -/
def blankRanges : Ranges :=
  #[(9, 13), (28, 32), (133, 133), (160, 160), (5760, 5760), (8192, 8202), (8232, 8233),
    (8239, 8239), (8287, 8287), (12288, 12288)]

def isBlank (c : Char) : Bool :=
  blankRanges.has c

def trim (cs : List Char) : List Char :=
  ((cs.dropWhile isBlank).reverse.dropWhile isBlank).reverse

/-- The longest runs of characters that are not blanks; `word` is the run under way, reversed. -/
def wordsFrom (word : List Char) : List Char → List (List Char)
  | [] => if word.isEmpty then [] else [word.reverse]
  | c :: cs =>
    if isBlank c then
      if word.isEmpty then wordsFrom [] cs else word.reverse :: wordsFrom [] cs
    else wordsFrom (c :: word) cs

def words (cs : List Char) : List (List Char) :=
  wordsFrom [] cs

/-! ### Word characters

Letters, digits, other numerals and the underscore, in every script (`isWord`), and the
decimal digits among them with their values (`digit?`). -/

def letterRanges : Ranges :=
  .ofGaps [65,25,5,0,2,25,48,0,11,0,5,0,6,22,2,30,2,457,5,11,15,4,8,0,2,0,130,4,2,1,4,2,2,0,7,0,2,2,
    2,0,2,19,2,82,2,138,9,165,2,37,3,0,7,40,72,26,5,3,46,42,36,1,2,98,2,0,16,1,8,1,11,2,3,0,17,0,2,
    29,30,88,12,0,25,32,10,1,5,0,6,21,5,0,10,0,4,0,24,24,8,10,6,23,2,5,18,41,59,53,4,0,19,0,8,9,16,
    15,5,7,3,1,3,21,2,6,2,0,4,3,4,0,17,0,14,1,2,2,15,1,11,0,9,5,5,1,3,21,2,6,2,1,2,1,2,1,32,3,2,0,
    20,2,17,8,2,2,2,21,2,6,2,1,2,4,4,0,19,0,16,1,24,0,12,7,3,1,3,21,2,6,2,1,2,4,4,0,31,1,2,2,16,0,
    18,0,2,5,4,2,2,3,4,1,2,0,2,1,4,1,4,2,4,11,23,0,53,7,2,2,2,22,2,15,4,0,27,2,3,0,3,1,31,0,5,7,2,2,
    2,22,2,9,2,4,4,0,32,1,2,1,16,1,18,8,2,2,2,40,3,0,17,0,6,2,9,2,25,5,6,17,4,23,2,8,2,0,3,6,59,47,
    2,0,14,6,59,1,2,0,2,4,2,23,2,0,2,9,2,0,11,0,3,4,2,0,22,3,33,0,64,7,2,35,28,4,116,42,21,0,17,5,5,
    3,4,0,4,1,8,2,5,12,13,0,18,37,2,0,6,0,3,42,2,332,2,3,3,6,2,0,2,3,3,40,2,3,3,32,2,3,3,6,2,0,2,3,
    3,14,2,56,2,3,3,66,38,15,17,85,3,5,4,619,3,16,2,25,6,74,4,10,8,17,14,18,15,17,15,12,2,2,16,51,
    36,0,5,0,68,88,8,4,3,33,2,0,6,69,11,30,50,29,3,4,12,43,5,25,55,22,10,52,83,0,94,46,18,7,55,29,
    14,1,11,43,27,35,42,2,11,35,3,8,8,42,3,2,42,3,2,5,2,1,4,0,6,191,65,277,3,5,3,37,3,5,3,7,2,0,2,0,
    2,0,2,30,3,52,2,6,2,0,4,2,2,6,4,3,3,5,5,12,6,2,2,6,117,0,14,0,17,12,102,0,5,0,3,9,2,0,4,4,7,0,2,
    0,2,0,2,3,2,10,3,3,6,4,5,0,18,40,2680,228,7,3,4,1,13,37,2,0,6,0,3,55,8,0,17,22,10,6,2,6,2,6,2,6,
    2,6,2,6,2,6,2,6,551,2,26,8,8,4,3,4,5,85,7,2,2,89,2,3,6,42,2,93,18,31,49,15,513,6591,65,22156,68,
    45,3,268,4,15,11,1,21,46,17,30,3,79,40,8,3,102,3,63,6,1,2,0,2,4,25,15,2,2,2,3,2,22,30,51,15,49,
    63,5,4,0,2,1,12,27,11,22,26,28,8,46,29,0,17,4,2,9,11,4,2,40,24,2,2,7,21,22,4,0,4,49,2,0,4,1,3,4,
    3,0,2,0,25,2,3,10,8,2,13,5,3,5,3,5,10,6,2,6,2,42,2,13,7,114,30,11171,13,22,5,48,8453,365,3,105,
    39,6,13,4,6,0,2,9,2,12,2,4,2,0,2,1,2,1,2,107,34,138,7,217,19,63,3,53,41,9,120,0,2,0,4,0,2,0,2,0,
    2,0,2,125,37,25,7,25,12,55,3,30,4,5,3,5,3,5,3,2,36,11,2,25,2,18,2,1,2,14,3,13,35,122,70,52,268,
    28,4,48,48,31,14,29,6,37,11,29,3,35,5,7,2,4,43,157,19,35,5,35,5,39,9,51,13,10,2,14,2,6,2,1,2,10,
    2,14,2,6,2,1,68,310,10,21,11,7,25,5,2,41,2,8,70,5,3,0,2,43,2,1,4,0,3,22,11,22,10,30,66,18,2,1,
    11,21,11,25,71,55,7,1,65,0,16,3,2,2,2,28,43,28,4,28,36,7,2,27,28,53,11,21,11,18,14,17,111,72,56,
    50,14,50,14,35,349,41,7,1,79,28,11,0,9,21,43,17,47,20,28,22,13,52,58,1,3,0,14,44,33,24,27,35,30,
    0,3,0,9,34,4,0,13,47,15,3,22,0,2,0,36,17,2,24,85,6,2,0,2,3,2,14,2,9,8,46,39,7,3,1,3,21,2,6,2,1,
    2,4,4,0,19,0,13,4,159,52,19,3,21,2,31,47,21,1,2,0,185,46,42,3,37,47,21,0,60,42,14,0,72,26,38,6,
    186,43,117,63,32,7,3,0,3,7,2,1,2,23,16,0,2,0,95,7,3,38,17,0,2,0,29,0,11,39,8,0,22,0,12,45,20,0,
    19,72,264,8,2,36,18,0,50,29,113,6,2,1,2,37,22,0,26,5,2,1,2,31,15,0,328,18,190,0,80,921,103,110,
    18,195,2637,96,16,1070,4050,582,8634,568,8,30,18,78,18,29,19,47,17,3,32,20,6,18,689,63,129,74,6,
    0,67,12,65,1,2,0,29,6135,9,1237,43,8,8936,3,2,6,2,1,2,290,46,2,18,3,9,395,2309,106,6,12,4,8,8,9,
    5991,84,2,70,2,1,3,0,3,1,3,3,2,11,2,0,2,6,2,64,2,3,3,7,2,6,2,27,2,3,2,4,2,0,4,6,2,339,3,24,2,24,
    2,30,2,24,2,30,2,24,2,30,2,24,2,30,2,24,2,7,1845,30,482,44,11,6,17,0,322,29,19,43,1269,6,2,3,2,
    1,2,14,2,196,60,67,8,0,1205,3,2,26,2,1,2,0,3,0,2,9,2,3,2,0,2,0,7,0,5,0,2,0,2,0,2,2,2,1,2,0,3,0,
    2,0,2,0,2,0,2,0,2,1,2,0,3,3,2,6,2,3,2,3,2,0,2,9,2,16,6,2,2,4,2,16,4421,42719,33,4152,8,221,3,
    5761,15,7472,3104,541,1507,4938]

/-- The decimal digits: each range holds one or more sequences from zero to nine. -/
def digitRanges : Ranges :=
  .ofGaps [48,9,1575,9,135,9,199,9,413,9,119,9,119,9,119,9,119,9,119,9,119,9,119,9,119,9,119,9,97,9,
    119,9,71,9,279,9,71,9,1863,9,39,9,301,9,129,9,167,9,7,9,183,9,87,9,135,9,7,9,35271,9,679,9,39,9,
    199,9,23,9,87,9,407,9,21271,9,1415,9,2183,9,813,9,129,9,61,9,145,9,279,9,343,9,119,9,375,9,103,
    9,103,9,423,9,103,9,759,9,247,9,71,9,19639,9,87,9,135,9,27765,49,2369,9,423,9,1623,9,4759,9]

/-- The numerals that are no decimal digits, with letters and digits that stand between them. -/
def numeralRanges : Ranges :=
  .ofGaps [178,1,6,0,3,2,700,0,1658,5,377,5,121,2,134,6,218,6,18,8,187,0,128,0,119,9,1078,19,1140,9,
    481,0,1686,0,4,5,7,9,199,57,727,59,79,21,631,29,1386,0,306,0,867,3,139,9,31,7,2,14,33,9,40,14,
    30065,5,21545,5,407,1,117,4,2,8,288,1,360,44,66,3,18,1,342,26,37,3,1333,7,26,6,40,8,76,32,161,
    19,3,45,65,8,53,1,31,2,76,4,105,7,25,7,42,6,331,5,353,30,159,9,43,3,113,6,135,19,380,19,1350,1,
    431,8,872,18,852,20,19335,6,799,22,25674,19,109,24,5455,8,930,58,2,2,2,3,77,44,2,14,963,12]

def isWord (c : Char) : Bool :=
  if c.toNat < 128 then c.isAlphanum || c == '_'
  else letterRanges.has c || digitRanges.has c || numeralRanges.has c

def isDigit (c : Char) : Bool :=
  digitRanges.has c

def digit? (c : Char) : Option Nat :=
  (digitRanges.find? fun r => r.1 ≤ c.toNat && c.toNat ≤ r.2).map fun r => (c.toNat - r.1) % 10

/-- Whether a character is a letter of a word: a word character other than a digit. -/
def isLetter (c : Char) : Bool :=
  isWord c && !isDigit c

/-! ### Identifiers

The texts that can name a variable (`isIdentifier`): a letter or underscore, then letters,
digits, marks and connectors, in every script. -/

/-- Signs that can begin an identifier although they stand in no word. -/
def signRanges : Ranges :=
  #[(6277, 6278), (8472, 8472), (8494, 8494)]

/-- The marks and connectors of identifiers, with letters that stand between them. -/
def markRanges : Ranges :=
  .ofGaps [183,0,585,111,24,0,252,4,266,44,2,0,2,1,2,1,2,0,73,10,49,20,17,0,102,6,3,9,2,3,36,57,92,
    10,59,8,10,0,25,23,44,2,61,73,2,128,30,2,57,8,3,1,3,2,10,0,11,1,27,0,3,2,57,0,2,4,5,1,3,2,4,0,
    31,5,12,2,57,9,2,2,2,2,21,1,23,5,2,2,57,8,3,1,3,2,8,2,11,1,31,0,60,4,4,2,2,3,10,0,41,4,56,8,2,2,
    2,3,8,1,12,1,30,2,57,8,2,2,2,3,8,1,12,1,29,3,56,9,2,2,2,3,10,0,11,1,30,2,71,0,5,5,2,0,2,7,19,1,
    62,9,13,7,99,11,12,5,75,1,28,0,2,0,2,0,5,1,50,19,2,17,2,35,10,0,101,19,24,71,704,2,10,8,929,3,
    29,2,30,1,31,1,65,31,10,0,46,2,2,0,154,0,119,11,5,11,159,0,61,4,58,9,2,28,3,0,49,13,2,15,50,68,
    39,8,13,115,49,19,153,2,2,37,199,63,576,1,20,0,124,12,5,0,4,11,3071,2,142,0,97,31,555,5,106,1,
    30165,0,5,9,33,83,273,37,5,0,84,69,27,17,14,46,26,12,45,64,37,0,68,13,13,10,46,70,42,4,6,1,237,
    7,2,1,20273,0,738,15,17,15,4,1,25,2,240,0,95,1,606,0,227,0,150,4,1671,2,2,1,6,3,41,2,5,0,166,1,
    574,3,388,1,154,10,50,3,123,70,42,4,11,59,8,0,62,52,17,1,45,0,13,64,9,3,2,1,93,11,7,0,161,11,22,
    3,56,9,3,1,3,2,10,0,11,1,3,6,4,4,193,17,24,0,82,19,236,6,3,8,28,1,83,16,107,12,102,14,257,14,
    246,5,2,1,3,8,142,6,3,6,4,0,29,61,9,0,10,72,406,7,2,7,83,21,2,13,123,5,4,0,2,1,2,8,67,4,2,1,2,4,
    348,3,19450,4,60,6,1049,56,8,3,82,0,12,1,19628,1,4706,45,3,22,543,4,4,5,9,7,3,6,31,3,149,2,1980,
    54,5,49,9,0,15,0,23,4,2,14,1361,6,2,16,3,6,2,1,2,4,262,6,376,0,62,3,1505,6,110,6,792502,239]

def beginsIdentifier (c : Char) : Bool :=
  letterRanges.has c || signRanges.has c

def continuesIdentifier (c : Char) : Bool :=
  beginsIdentifier c || digitRanges.has c || markRanges.has c

def isIdentifier (s : String) : Bool :=
  match s.toList with
  | [] => false
  | c :: cs => beginsIdentifier c && cs.all continuesIdentifier

/-! ### Printable characters

The characters that a quoted text shows as they are (`isPrintable`): all but separators other
than the space, controls, and code points without a character. -/

/-- The space, punctuation and symbols, with letters that stand between them. -/
def symbolRanges : Ranges :=
  .ofGaps [32,94,35,11,2,711,9,0,6,1,113,147,209,48,3,2,47,8,45,1,18,21,2,183,10,47,233,3,5,1,49,14,
    32,0,42,0,220,12,130,11,121,0,122,1,127,0,131,7,125,13,203,0,42,0,123,0,75,28,166,60,72,0,57,14,
    2,12,112,85,92,0,613,8,40,9,103,622,45,1,79,2,72,1,158,7,37,10,310,0,4,1,153,33,31,1,129,13,17,
    0,156,36,126,3,60,4,63,1,65,7,12,0,746,4,12,2,14,18,14,1,18,23,9,46,28,20,18,32,29,7,28,139,5,
    662,26,10,82,1751,3,31,2,339,15,6,113,0,144,93,35,25,2,88,13,213,27,11,6,62,92,96,149,83,29,30,
    12,7125,22161,54,56,273,97,135,9,138,158,3,11,3,59,3,87,1,41,55,48,0,98,12,17,1,125,29,101,19,
    106,16,128,0,20286,0,137,16,380,17,128,0,45,29,23,34,2,18,2,3,150,100,123,6,2,6,14,1,259,2,53,
    87,2,12,4,0,48,44,419,0,49,0,415,0,744,33,167,0,32,0,273,8,39,0,73,0,40,6,67,6,90,3,785,0,168,4,
    45,3,190,6,110,1,2,3,127,3,49,1,80,26,89,5,108,0,418,16,2,0,105,0,251,22,106,2,29,12,77,0,131,3,
    252,0,265,2,156,0,93,7,84,8,415,4,43,1,646,1,221,28,14,0,1137,4,2941,1,14972,1,134,0,66,14,850,
    3,328,0,19642,3,4785,115,61,245,11,38,3,67,23,103,22,69,187,86,875,258,61,651,1732,0,432,0,1631,
    1,845,4,126,0,450,1,271,43,5,99,13,14,3,14,2,14,2,36,24,160,57,28,14,43,5,8,8,1,15,5,155,983,6,
    15,4,12,4,115,13,88,8,11,5,0,16,11,5,55,9,9,7,39,9,29,3,1,79,339,13,13,3,4,4,4,4,6,10,28,4,10,6,
    5,11,9,7,7,9,6,10,146,2,54]

def isPrintable (c : Char) : Bool :=
  isWord c || continuesIdentifier c || symbolRanges.has c

/-! ### Quoted texts

A text in quotes on one line (`quoted`).  The quotes are single, unless the text has single quotes
and no double ones.  What cannot be shown is written by its code point. -/

def hexCode (width n : Nat) : String :=
  let digits := Nat.toDigits 16 n
  String.ofList (List.replicate (width - digits.length) '0' ++ digits)

def escapeCode (c : Char) : String :=
  let n := c.toNat
  if n < 256 then "\\x" ++ hexCode 2 n
  else if n < 65536 then "\\u" ++ hexCode 4 n
  else "\\U" ++ hexCode 8 n

def quotedChar (quote c : Char) : String :=
  if c = quote ∨ c = '\\' then String.ofList ['\\', c]
  else if c = '\n' then "\\n"
  else if c = '\r' then "\\r"
  else if c = '\t' then "\\t"
  else if isPrintable c then String.singleton c
  else escapeCode c

def quoteFor (s : String) : Char :=
  if s.toList.contains '\'' && !s.toList.contains '"' then '"' else '\''

def quoted (s : String) : String :=
  let quote := quoteFor s
  String.singleton quote ++ String.join (s.toList.map (quotedChar quote)) ++ String.singleton quote

/-! ### Lower case

The lower-case form of a text (`lower`), in every script.  One capital, the dotted I, becomes
two characters, and the capital sigma depends on its place: at the end of a word it takes its
final form. -/

/-- Ranges in which every second character is a capital, followed by its lower-case letter. -/
def pairedRanges : Ranges :=
  .ofGaps [256,46,4,4,3,14,3,44,3,4,5,2,3,0,4,0,6,0,7,0,8,4,3,0,5,0,3,0,4,2,3,0,4,0,9,0,3,0,3,16,3,
    16,4,2,4,38,4,16,9,0,6,0,5,8,290,2,4,0,98,22,9,0,3,0,102,32,10,52,3,12,3,94,6354,148,12,94,645,
    0,2781,0,7,4,7,0,3,0,11,98,9,2,5,0,31054,44,20,26,136,12,4,60,11,2,3,8,5,0,5,2,4,18,12,14,5,2,7,
    0,6,2,29,0]

/-- Other capitals and the distance to their lower-case letters: first, last and distance. -/
def capitals : Array (Nat × Nat × Int) :=
  #[(192,214,32),(216,222,32),(376,376,-121),(385,385,210),(390,390,206),(393,394,205),(398,398,79),
    (399,399,202),(400,400,203),(403,403,205),(404,404,207),(406,406,211),(407,407,209),
    (412,412,211),(413,413,213),(415,415,214),(422,422,218),(425,425,218),(430,430,218),
    (433,434,217),(439,439,219),(452,452,2),(455,455,2),(458,458,2),(497,497,2),(502,502,-97),
    (503,503,-56),(544,544,-130),(570,570,10795),(573,573,-163),(574,574,10792),(579,579,-195),
    (580,580,69),(581,581,71),(895,895,116),(902,902,38),(904,906,37),(908,908,64),(910,911,63),
    (913,929,32),(931,939,32),(975,975,8),(1012,1012,-60),(1017,1017,-7),(1021,1023,-130),
    (1024,1039,80),(1040,1071,32),(1216,1216,15),(1329,1366,48),(4256,4293,7264),(4295,4295,7264),
    (4301,4301,7264),(5024,5103,38864),(5104,5109,8),(7312,7354,-3008),(7357,7359,-3008),
    (7838,7838,-7615),(7944,7951,-8),(7960,7965,-8),(7976,7983,-8),(7992,7999,-8),(8008,8013,-8),
    (8025,8025,-8),(8027,8027,-8),(8029,8029,-8),(8031,8031,-8),(8040,8047,-8),(8072,8079,-8),
    (8088,8095,-8),(8104,8111,-8),(8120,8121,-8),(8122,8123,-74),(8124,8124,-9),(8136,8139,-86),
    (8140,8140,-9),(8152,8153,-8),(8154,8155,-100),(8168,8169,-8),(8170,8171,-112),(8172,8172,-7),
    (8184,8185,-128),(8186,8187,-126),(8188,8188,-9),(8486,8486,-7517),(8490,8490,-8383),
    (8491,8491,-8262),(8498,8498,28),(8544,8559,16),(9398,9423,26),(11264,11311,48),
    (11362,11362,-10743),(11363,11363,-3814),(11364,11364,-10727),(11373,11373,-10780),
    (11374,11374,-10749),(11375,11375,-10783),(11376,11376,-10782),(11390,11391,-10815),
    (42877,42877,-35332),(42893,42893,-42280),(42922,42922,-42308),(42923,42923,-42319),
    (42924,42924,-42315),(42925,42925,-42305),(42926,42926,-42308),(42928,42928,-42258),
    (42929,42929,-42282),(42930,42930,-42261),(42931,42931,928),(42948,42948,-48),
    (42949,42949,-42307),(42950,42950,-35384),(65313,65338,32),(66560,66599,40),(66736,66771,40),
    (66928,66938,39),(66940,66954,39),(66956,66962,39),(66964,66965,39),(68736,68786,64),
    (71840,71871,32),(93760,93791,32),(125184,125217,34)]

def casedRanges : Ranges :=
  .ofGaps [65,25,7,25,48,0,11,0,5,0,6,22,2,30,2,194,2,3,5,207,2,26,193,3,3,1,4,2,2,0,7,0,2,2,2,0,2,
    19,2,82,2,138,9,165,2,37,10,40,2840,37,2,0,6,0,3,42,3,2,673,85,3,5,2179,8,8,42,3,2,65,43,64,12,
    2,33,102,277,3,5,3,37,3,5,3,7,2,0,2,0,2,0,2,30,3,52,2,6,2,0,4,2,2,6,4,3,3,5,5,12,6,2,2,6,262,0,
    5,0,3,9,2,0,4,4,7,0,2,0,2,0,2,3,2,5,5,0,3,3,6,4,5,0,18,31,4,1,818,51,1815,123,3,102,7,3,4,1,13,
    37,2,0,6,0,30995,45,19,27,135,77,2,22,4,3,2,58,6,1,2,0,2,4,28,1,4,0,822,42,6,8,8,79,20289,6,13,
    4,1034,25,7,25,1190,79,97,35,5,35,117,10,2,14,2,6,2,1,2,10,2,14,2,6,2,1,1732,50,14,50,2990,63,
    21857,63,25985,84,2,70,2,1,3,0,3,1,3,3,2,11,2,0,2,6,2,64,2,3,3,7,2,6,2,27,2,3,2,4,2,0,4,6,2,339,
    3,24,2,24,2,30,2,24,2,30,2,24,2,30,2,24,2,30,2,24,2,7,1845,9,2,19,2530,67,2029,25,7,25,7,25]

/-- Characters that are passed over when looking for the end of a word. -/
def passedOver : Ranges :=
  .ofGaps [39,0,7,0,12,0,36,0,2,0,72,0,5,0,2,0,5,0,3,1,504,191,5,1,5,0,10,1,2,0,252,6,208,0,6,0,50,
    44,2,0,2,1,2,1,2,0,45,0,12,5,11,10,2,0,36,0,11,20,17,0,102,7,2,9,2,3,34,0,2,0,31,26,92,10,59,10,
    5,0,3,0,25,23,44,2,45,0,8,1,7,7,42,57,56,0,2,0,5,7,5,0,4,6,11,1,14,0,16,0,59,0,5,3,9,0,21,1,27,
    0,3,1,58,0,5,1,5,1,3,2,4,0,31,1,4,0,12,1,58,0,5,4,2,1,5,0,21,1,23,5,2,0,59,0,3,0,2,3,9,0,8,1,12,
    1,31,0,62,0,13,0,51,0,4,0,56,0,2,2,6,2,2,3,8,1,12,1,30,0,59,0,3,0,7,0,6,1,21,1,29,1,58,1,5,3,9,
    0,21,1,30,0,73,0,8,2,2,0,91,0,3,6,12,8,99,0,3,8,10,0,2,5,75,1,28,0,2,0,2,0,56,13,2,4,2,1,6,10,2,
    35,10,0,103,3,2,5,2,1,3,1,26,1,5,2,17,3,14,0,3,1,7,0,16,0,95,0,609,2,947,2,30,1,31,1,31,1,65,1,
    2,6,9,0,3,10,4,0,6,0,46,4,52,0,66,1,35,0,119,2,5,1,10,0,7,2,220,1,3,0,59,0,2,6,2,0,2,0,3,7,7,9,
    3,0,40,0,9,30,50,3,49,0,2,4,2,0,6,0,41,8,13,1,33,3,3,1,2,2,57,0,2,1,4,0,2,2,59,7,3,1,65,5,83,2,
    2,12,2,6,5,0,7,0,4,1,51,62,14,0,35,100,446,0,2,2,12,2,14,2,14,2,14,1,13,4,9,1,11,0,3,0,3,4,50,4,
    2,9,2,0,14,0,17,12,52,32,2956,1,114,2,126,0,16,0,97,31,48,0,470,0,37,3,4,4,6,0,94,5,94,2,28439,
    0,1251,5,271,0,99,3,2,9,2,0,29,3,81,1,15,33,79,0,24,2,104,2,4,1,9,0,4,0,5,0,26,1,6,0,152,1,27,
    17,14,0,39,7,26,10,47,2,49,0,3,3,3,1,18,0,22,1,67,5,3,1,3,1,13,0,9,0,36,0,12,0,52,0,2,2,3,1,6,1,
    2,0,28,0,15,1,6,1,2,0,101,4,10,2,122,0,3,0,5,0,20273,0,148,16,574,15,4,0,13,15,35,0,3,0,170,0,8,
    0,7,0,12,0,36,0,2,0,48,0,46,1,68,0,22,2,514,0,227,0,150,4,1030,5,2,41,2,8,583,2,2,1,6,3,41,2,5,
    0,166,1,574,3,388,1,154,10,50,3,124,0,55,14,42,0,3,1,11,2,50,3,3,1,3,0,5,0,11,0,51,2,37,4,2,7,
    63,0,13,1,53,8,11,3,3,0,96,2,3,0,2,1,7,0,161,0,4,7,22,1,58,1,4,0,38,6,4,4,196,7,3,2,2,0,24,0,85,
    5,2,0,5,1,2,1,239,3,7,1,2,1,28,1,86,7,3,0,2,1,107,0,2,0,3,5,2,0,102,2,3,3,2,4,260,8,2,1,257,1,2,
    0,5,0,145,3,3,1,5,0,33,9,41,5,3,3,9,0,10,5,3,2,47,12,2,1,407,6,2,5,2,0,83,21,3,6,2,1,2,1,123,5,
    4,0,2,1,2,6,2,0,73,1,4,0,2,0,348,1,5436,8,14008,4,60,6,10,3,1036,0,64,16,65,1,2,1,16396,3,2,6,2,
    1,3231,1,2,3,4701,45,3,22,545,2,10,15,3,6,31,3,149,2,1980,54,5,49,9,0,15,0,23,4,2,14,1361,6,2,
    16,3,6,2,1,2,4,262,13,369,0,62,3,1505,6,110,7,2736,4,789506,0,31,95,129,239]

/-- The lower-case letter of a capital, elsewhere the character itself. -/
def lowerChar (c : Char) : Char :=
  let n := c.toNat
  if n < 128 then c.toLower
  else if pairedRanges.any fun r => r.1 ≤ n && n ≤ r.2 && (n - r.1) % 2 == 0 then Char.ofNat (n + 1)
  else
    match capitals.find? fun r => r.1 ≤ n && n ≤ r.2.1 with
    | some r => Char.ofNat (n + r.2.2).toNat
    | none => c

/-- Whether the next character that is not passed over has a case. -/
def meetsCased (cs : List Char) : Bool :=
  match cs.dropWhile passedOver.has with
  | [] => false
  | c :: _ => casedRanges.has c

/-- Lower case of the characters `cs`, which stand after `before` (reversed). -/
def lowerFrom (before : List Char) : List Char → List Char
  | [] => []
  | c :: cs =>
    let here :=
      if c.toNat == 0x130 then ['i', Char.ofNat 0x307]
      else if c.toNat == 0x3A3 then
        if meetsCased before && !meetsCased cs then [Char.ofNat 0x3C2] else [Char.ofNat 0x3C3]
      else [lowerChar c]
    here ++ lowerFrom (c :: before) cs

def lower (s : String) : String :=
  String.ofList (lowerFrom [] s.toList)

end SceneExport.Text
