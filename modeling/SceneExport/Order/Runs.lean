
/-!
# Sorting by merging runs

A sort that finds the runs of items that are in order already, makes short ones longer by
insertion, and merges them (`runSort`).  Which of the waiting runs are merged first is told by
where they lie in the list, so that the merges are balanced (`boundaryDepth`).  While runs are
merged, a run that wins often is searched by leaps (`gallop`) instead of item by item.

Where the relation is an order the result is the list in that order, with equal items as they
were.  Where it is not, as with numbers of which some are undefined, the result depends on the
comparisons that are made, so these are part of what is defined here.
-/

namespace SceneExport

/-! ### Runs and insertion

A list begins with a run of items that are in order, or in the opposite order, already
(`takeRun`).  An item is put into its place among sorted ones, which is found by halving
(`insertSorted`). -/

section

variable {β : Type} (below : β → β → Bool)

/-- The place in `xs`, between `low` and `high`, in front of the items that `x` is below. -/
def insertionPlace (xs : Array β) (x : β) (low high : Nat) : Nat :=
  if low < high then
    let middle := low + (high - low) / 2
    if xs[middle]?.any (below x) then insertionPlace xs x low middle
    else insertionPlace xs x (middle + 1) high
  else low
termination_by high - low

def insertSorted (xs : List β) (x : β) : List β :=
  let place := insertionPlace below xs.toArray x 0 xs.length
  xs.take place ++ x :: xs.drop place

/-- Cut a list, whose first item follows `x`, where a next item is not below the one before it
(or, for `falls` false, where it is). -/
def takeRun (falls : Bool) (x : β) : List β → List β × List β
  | [] => ([], [])
  | y :: ys =>
    if below y x == falls then
      let (run, rest) := takeRun falls y ys
      (y :: run, rest)
    else ([], y :: ys)
end

/-! ### Searching -/

/-- The first number from `low` to `high` for which `p` does not hold, if it holds for those before
and for none behind. -/
def bisect (p : Nat → Bool) (low high : Nat) : Nat :=
  if low < high then
    let middle := low + (high - low) / 2
    if p middle then bisect p (middle + 1) high else bisect p low middle
  else high
termination_by high - low

/-- Leap forwards in steps that double as long as `p` holds: the last number for which it held, and
the first for which it did not or the limit. -/
def leap (p : Nat → Bool) (limit last next : Nat) : Nat × Nat :=
  if next < limit then
    if p next then leap p limit next (2 * next + 1) else (last, next)
  else (last, limit)
termination_by limit - next

/-- How many of `size` places at the front satisfy `p`, if those that do stand in front of the
others.  The search begins at `hint`. -/
def gallop (p : Nat → Bool) (size hint : Nat) : Nat :=
  if p hint then
    let (last, next) := leap (fun step => p (hint + step)) (size - hint) 0 1
    bisect p (hint + last + 1) (hint + next)
  else
    let (last, next) := leap (fun step => !p (hint - step)) (hint + 1) 0 1
    bisect p (hint + 1 - next) (hint - last)

/-! ### Merging -/

/-- Two runs that are being merged, from the front or from the end. -/
structure Merge (β : Type) where
  left : Array β
  right : Array β
  merged : Array β := #[]
  fromEnd : Bool
  /-- How often in a row a run has to win until it is searched by leaps. -/
  patience : Nat

/-- How many items found by leaps make it worth to go on with them. -/
def worthyLeap : Nat := 7

namespace Merge

variable {β : Type}

def next? (m : Merge β) (run : Array β) : Option β :=
  if m.fromEnd then run.back? else run[0]?

def cut (m : Merge β) (run : Array β) (count : Nat) : Array β × Array β :=
  if m.fromEnd then
    (run.extract (run.size - count) run.size, run.extract 0 (run.size - count))
  else (run.extract 0 count, run.extract count run.size)

def extended (m : Merge β) (items : Array β) : Array β :=
  if m.fromEnd then items ++ m.merged else m.merged ++ items

def takeLeft (m : Merge β) (count : Nat) : Merge β :=
  let (taken, rest) := m.cut m.left count
  { m with left := rest, merged := m.extended taken }

def takeRight (m : Merge β) (count : Nat) : Merge β :=
  let (taken, rest) := m.cut m.right count
  { m with right := rest, merged := m.extended taken }

def isOver (m : Merge β) : Bool :=
  if m.fromEnd then m.left.isEmpty || m.right.size ≤ 1 else m.right.isEmpty || m.left.size ≤ 1

def result (m : Merge β) : Array β :=
  if m.fromEnd then m.right ++ m.left ++ m.merged else m.merged ++ m.right ++ m.left

/-- How many items of a run are taken next if `p` holds for those at its front. -/
def found (m : Merge β) (p : β → Bool) (run : Array β) : Nat :=
  let holds (i : Nat) : Bool := run[i]?.any p
  if m.fromEnd then run.size - gallop holds run.size (run.size - 1) else gallop holds run.size 0

variable (below : β → β → Bool)

/-- Whether the next item of the right run is below that of the left run. -/
def rightIsBelow (m : Merge β) : Bool :=
  (m.next? m.right).any fun b => (m.next? m.left).any fun a => below b a

/-- Take one item after another, at most `fuel`, until one run has won often enough.  So far the
left run, or the right, won the last `streak` times. -/
def oneByOne : Nat → Merge β → Bool → Nat → Merge β
  | 0, m, _, _ => m
  | fuel + 1, m, leftWon, streak =>
    if m.isOver then m
    else
      let leftWins := m.rightIsBelow below == m.fromEnd
      let m := if leftWins then m.takeLeft 1 else m.takeRight 1
      let streak := if leftWins == leftWon then streak + 1 else 1
      if m.patience ≤ streak then m else oneByOne fuel m leftWins streak

/-- Take the items of the left run up to the place of the next item of the right one, and that. -/
def leapLeft (m : Merge β) : Merge β × Nat :=
  let count := m.found (fun a => !(m.next? m.right).any fun b => below b a) m.left
  let m := m.takeLeft count
  (if m.isOver then m else m.takeRight 1, count)

/-- Take the items of the right run up to the place of the next item of the left one, and that. -/
def leapRight (m : Merge β) : Merge β × Nat :=
  let count := m.found (fun b => (m.next? m.left).any fun a => below b a) m.right
  let m := m.takeRight count
  (if m.isOver then m else m.takeLeft 1, count)

/-- Take items by leaps, at most `fuel` times, as long as that is worth it.  Patience shrinks with
each time and grows at the end. -/
def byLeaps : Nat → Merge β → Merge β
  | 0, m => m
  | fuel + 1, m =>
    let (m, fromLeft) := leapLeft below { m with patience := max 1 (m.patience - 1) }
    if m.isOver then m
    else
      let (m, fromRight) := leapRight below m
      if m.isOver then m
      else if worthyLeap ≤ fromLeft ∨ worthyLeap ≤ fromRight then byLeaps fuel m
      else { m with patience := m.patience + 1 }

def finish : Nat → Merge β → Merge β
  | 0, m => m
  | fuel + 1, m =>
    let size := m.left.size + m.right.size
    let m := oneByOne below size m true 0
    if m.isOver then m
    else
      let m := byLeaps below size { m with patience := m.patience + 1 }
      if m.isOver then m else finish fuel m

end Merge

variable {β : Type} (below : β → β → Bool)

/-- Merge a run with the one behind it, and the patience after that.  What comes before all of the
right run, or behind all of the left one, is in its place already.  The shorter of the runs is the
one that is exhausted. -/
def mergeRuns (patience : Nat) (left right : Array β) : Array β × Nat :=
  let first := gallop (fun i => left[i]?.any fun a => !right[0]?.any fun b => below b a) left.size 0
  let rest := left.extract first left.size
  if rest.isEmpty then (left ++ right, patience)
  else
    let holds (i : Nat) : Bool := right[i]?.any fun b => rest.back?.any fun a => below b a
    let last := gallop holds right.size (right.size - 1)
    if last = 0 then (left ++ right, patience)
    else
      let front := right.extract 0 last
      let start : Merge β := ⟨rest, front, #[], front.size < rest.size, patience⟩
      let start := if start.fromEnd then start.takeLeft 1 else start.takeRight 1
      let merged := start.finish below (rest.size + front.size)
      (left.extract 0 first ++ merged.result ++ right.extract last right.size, merged.patience)

/-! ### Runs -/

structure Run (β : Type) where
  /-- How many items of the list come before it. -/
  start : Nat
  items : Array β
  /-- How deep the boundary behind the run lies. -/
  depth : Nat := 0

/-- The depth of a boundary, whose sides have their middles at `a` and `b` of twice `size`, in a
tree that halves the whole again and again: the first level that divides them. -/
def depthFrom (size : Nat) : Nat → Nat → Nat → Nat → Nat
  | 0, depth, _, _ => depth
  | fuel + 1, depth, a, b =>
    if size ≤ a then depthFrom size fuel (depth + 1) (2 * (a - size)) (2 * (b - size))
    else if size ≤ b then depth + 1
    else depthFrom size fuel (depth + 1) (2 * a) (2 * b)

/-- The depth of the boundary between a run and the next, of a length, in a list of a size. -/
def boundaryDepth (size : Nat) (run : Run β) (next : Nat) : Nat :=
  let a := 2 * run.start + run.items.size
  depthFrom size (size + 1) 0 a (a + run.items.size + next)

/-- Merge the last runs, of which `top` is the very last, as long as the boundary between them lies
deeper than a new one. -/
def mergeDeeper (depth patience : Nat) (top : Run β) : List (Run β) → List (Run β) × Nat
  | [] => ([{ top with depth }], patience)
  | run :: runs =>
    if depth < run.depth then
      let (items, patience) := mergeRuns below patience run.items top.items
      mergeDeeper depth patience { run with items } runs
    else ({ top with depth } :: run :: runs, patience)

/-- Merge all runs, at most `fuel` times, the last first: of the three last runs the middle one is
merged with the shorter of the others. -/
def mergeAll : Nat → Nat → List (Run β) → Array β
  | fuel + 1, patience, last :: run :: before :: runs =>
    if before.items.size < last.items.size then
      let (items, patience) := mergeRuns below patience before.items run.items
      mergeAll fuel patience (last :: { before with items } :: runs)
    else
      let (items, patience) := mergeRuns below patience run.items last.items
      mergeAll fuel patience ({ run with items } :: before :: runs)
  | _, patience, [last, run] => (mergeRuns below patience run.items last.items).1
  | _, _, runs => runs.foldl (fun items run => run.items ++ items) #[]

/-- How long a run has to be at least: the list is halved until few items are left, and a rest
counts one. -/
def shortestRun (size rest : Nat) : Nat :=
  if 64 ≤ size then shortestRun (size / 2) (max rest (size % 2)) else size + rest
termination_by size

/-- The first run of a list, extended by insertion if it is short, and the rest. -/
def firstRun (least : Nat) : List β → List β × List β
  | x :: y :: ys =>
    let falls := below y x
    let (run, rest) := takeRun below falls x (y :: ys)
    let run := if falls then (x :: run).reverse else x :: run
    let missing := least - run.length
    ((rest.take missing).foldl (insertSorted below) run, rest.drop missing)
  | xs => (xs, [])

/-- Sort the rest of a list, of which the runs of the front are known, in at most `fuel` steps. -/
def sortFrom (size least : Nat) : Nat → Nat → Nat → List (Run β) → List β → Array β
  | 0, patience, _, runs, _ | _, patience, _, runs, [] => mergeAll below runs.length patience runs
  | fuel + 1, patience, start, runs, xs =>
    let (run, rest) := firstRun below least xs
    let items := run.toArray
    let (runs, patience) := match runs with
      | [] => ([], patience)
      | top :: runs => mergeDeeper below (boundaryDepth size top items.size) patience top runs
    sortFrom size least fuel patience (start + items.size) (⟨start, items, 0⟩ :: runs) rest

def runSort (xs : List β) : List β :=
  (sortFrom below xs.length (shortestRun xs.length 0) xs.length worthyLeap 0 [] xs).toList

end SceneExport
