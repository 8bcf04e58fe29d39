import SceneExport.File.Value

/-!
# Tracks and animations

The transform of an object or bone at one frame is held in parts: location, scale and a rotation
in two forms of which `mode` selects one.  Curves set one component at a time
(`TransformFrame.update`).
-/

namespace SceneExport

/-! ### Transform frames -/

inductive RotationMode where
  | quaternion
  | axisAngle
  | angles (order : EulerOrder)
  /-- Angles in an order that there is not. -/
  | unknown
  deriving DecidableEq, Repr, Inhabited

def RotationMode.ofWord : String → RotationMode
  | "QUATERNION" => .quaternion
  | "XYZ" => .angles .xyz
  | "XZY" => .angles .xzy
  | "YXZ" => .angles .yxz
  | "YZX" => .angles .yzx
  | "ZXY" => .angles .zxy
  | "ZYX" => .angles .zyx
  | "AXIS_ANGLE" => .axisAngle
  | _ => .unknown

def RotationMode.order : RotationMode → Except Failure EulerOrder
  | .quaternion | .axisAngle => .ok .xyz
  | .angles order => .ok order
  | .unknown => .error .missingKey

structure TransformFrame (α : Type) where
  location : Vec3 α
  scale : Vec3 α
  mode : RotationMode
  angles : Euler α
  quaternion : Quat α
  deriving Repr

inductive TransformPart where
  | location
  | scale
  | quaternion
  | angles
  deriving DecidableEq, Repr, Inhabited

def TransformPart.ofName? : String → Option TransformPart
  | "location" => some .location
  | "scale" => some .scale
  | "rotation_quaternion" => some .quaternion
  | "rotation_euler" => some .angles
  | _ => none

def Vec3.setAt {α : Type} (v : Vec3 α) (index : Int) (value : α) : Except Failure (Vec3 α) := do
  match ← position 3 index with
  | 0 => return v.set .x value
  | 1 => return v.set .y value
  | _ => return v.set .z value

def Quat.setAt {α : Type} (q : Quat α) (index : Int) (value : α) : Except Failure (Quat α) := do
  match ← position 4 index with
  | 0 => return { q with w := value }
  | 1 => return { q with x := value }
  | 2 => return { q with y := value }
  | _ => return { q with z := value }

namespace TransformFrame

variable {α : Type} [Scalar α]

def identity (mode : RotationMode) : TransformFrame α :=
  ⟨⟨0, 0, 0⟩, ⟨1, 1, 1⟩, mode, Euler.identity, Quat.identity⟩

def ofMat4 (m : Mat4 α) (mode : RotationMode) : Except Failure (TransformFrame α) := do
  return ⟨m.location, m.toScale, mode, m.toEuler (← mode.order), m.toQuat⟩

def ofPlacement (p : Placement α) (mode : RotationMode) : Except Failure (TransformFrame α) := do
  ofMat4 (← p.affine) mode

def update (f : TransformFrame α) (part : TransformPart) (index : Int) (value : α) :
    Except Failure (TransformFrame α) := do
  match part with
  | .location => return { f with location := ← f.location.setAt index value }
  | .scale => return { f with scale := ← f.scale.setAt index value }
  | .quaternion => return { f with quaternion := ← f.quaternion.setAt index value }
  | .angles =>
    return { f with angles := { f.angles with angles := ← f.angles.angles.setAt index value } }

def rotation (f : TransformFrame α) : Except Failure (Quat α) :=
  match f.mode with
  | .quaternion => .ok f.quaternion
  | _ => f.angles.rotation

def same (f g : TransformFrame α) : Except Failure Bool := do
  if !(f.scale == g.scale) then return false
  if !((← f.rotation) == (← g.rotation)) then return false
  return f.location == g.location

/-- One frame on top of another: rotations are composed, locations added, and the scale is that
of the first. -/
def combine (f g : TransformFrame α) : Except Failure (TransformFrame α) := do
  return { identity .quaternion with
    quaternion := (← f.rotation) * (← g.rotation)
    location := f.location + g.location
    scale := f.scale }

/-- A frame that is going to be copied; undefined parts of its copies are the same. -/
def marked (f : TransformFrame α) (owner : Nat) : TransformFrame α :=
  let vec (first : Nat) (v : Vec3 α) : Vec3 α :=
    ⟨Scalar.marked owner first v.x, Scalar.marked owner (first + 1) v.y,
      Scalar.marked owner (first + 2) v.z⟩
  let q := f.quaternion
  { f with
    location := vec 0 f.location
    scale := vec 3 f.scale
    quaternion := ⟨Scalar.marked owner 6 q.w, Scalar.marked owner 7 q.x, Scalar.marked owner 8 q.y,
      Scalar.marked owner 9 q.z⟩ }

/-! ### Keys -/

/-- The rotation that turns a camera or light from its rest direction in one world to that in
the other. -/
def directionalTurn : Quat α :=
  Euler.toQuat ⟨⟨Scalar.radians (-90.0), 0, 0⟩, .xyz⟩

/-- Where a frame is, in the space of the parent and with the second axis up. -/
def keyLocation (parentInverse : Placement α) (f : TransformFrame α) :
    Except Failure (Vec3 α) := do
  let t ← parentInverse.apply f.location.homogeneous
  let x ← Scalar.divide t.x t.w
  let y ← Scalar.divide t.y t.w
  let z ← Scalar.divide t.z t.w
  return Vec3.toYUp ⟨x, y, z⟩

def keyRotation (directional : Bool) (f : TransformFrame α) : Except Failure (Quat α) := do
  let q := (← f.rotation).toYUp
  return (if directional then q * directionalTurn else q).normalize

def keyScale (f : TransformFrame α) : Vec3 α :=
  f.scale.scaleToYUp

/-- The ten numbers of a transform key: location, rotation and scale. -/
def key (parentInverse : Placement α) (directional : Bool) (f : TransformFrame α) :
    Except Failure (List α) := do
  let location ← f.keyLocation parentInverse
  let q ← f.keyRotation directional
  return location.toList ++ [q.x, q.y, q.z, q.w] ++ f.keyScale.toList

end TransformFrame

/-! ### Tracks

A track drives one property of one node: values at frames, in the order in which they were
added.

* `stripRepeats` leaves out keys inside a run of equal values;
* `Track.blend` lays one track over another, where both have a frame their values are blended;
* `Track.keys` is what is written for a track. -/

structure Timing where
  start : Int := 1
  fps : Int := 24
  deriving DecidableEq, Repr, Inhabited

namespace Timing

variable {α : Type} [Scalar α]

def frameDuration (t : Timing) : Except Failure α :=
  Scalar.quotient 1 t.fps

def seconds (t : Timing) (frame : Int) : Except Failure α :=
  Scalar.quotient (frame - t.start) t.fps

end Timing

/-- A point of a Bézier curve; the heights of its handles are relative to its value. -/
structure BezierPoint (α : Type) where
  value : Channel α
  leftTime : α
  leftValue : Channel α
  rightTime : α
  rightValue : Channel α

inductive KeyValue (α : Type) where
  | transform (f : TransformFrame α)
  | location (v : Vec3 α)
  | number (c : Channel α)
  | int (n : Int)
  | flag (b : Bool)
  | color (c : Vec3 α)
  | bezier (p : BezierPoint α)

namespace KeyValue

variable {α : Type} [Scalar α]

def real (x : α) : KeyValue α :=
  .number (.real x)

/-- A value as a quantity, if it is one; the truth values are one and zero. -/
def quantity? : KeyValue α → Option (Quantity α)
  | .number (.real x) => some (.real x)
  | .int n => some (.whole n)
  | .flag b => some (.whole (if b then 1 else 0))
  | _ => none

def same : KeyValue α → KeyValue α → Except Failure Bool
  | .transform f, .transform g => f.same g
  | .location a, .location b => .ok (a == b)
  | .color a, .color b => .ok (a == b)
  | .number (.complex a b), .number (.complex c d) =>
    .ok (Scalar.sameSize a c && Scalar.sameSize b d)
  | a, b =>
    match a.quantity?, b.quantity? with
    | some x, some y => .ok (x.sameSize y)
    | _, _ => .ok false

/-- Whether a list of numbers comes before another: the first item in which they differ decides,
or the length. -/
def precedes : List α → List α → Bool
  | x :: xs, y :: ys => if x == y then precedes xs ys else decide (x < y)
  | [], _ :: _ => true
  | _, [] => false

def larger (a b : KeyValue α) : Except Failure (KeyValue α) :=
  match a, b with
  | .color c, .color d => .ok (if precedes c.toList d.toList then b else a)
  | _, _ =>
    match a.quantity?, b.quantity? with
    | some x, some y => .ok (if x.isBelow y then b else a)
    | _, _ => .error .wrongKind

def toValue : KeyValue α → Value α
  | .number c => .ofChannel c
  | .int n => .int n
  | .flag b => .flag b
  | .color c => .color c
  | .location v => .vector v.toList
  | .transform _ | .bezier _ => .nothing

end KeyValue

/-! ### Repeated values -/

section Strip

variable {β : Type} (same : β → β → Except Failure Bool)

/-- The keys that remain after the first.  The last one always does; inside a run of equal
values (`held`) only the one before a change does. -/
def stripFrom (held : Bool) (previous : β) : List (Int × β) → Except Failure (List (Int × β))
  | [] => .ok []
  | [last] => .ok [last]
  | key :: next :: rest => do
    if held then
      if ← same key.2 next.2 then stripFrom true key.2 (next :: rest)
      else return key :: (← stripFrom false key.2 (next :: rest))
    else return key :: (← stripFrom (← same key.2 previous) key.2 (next :: rest))

/-- The keys that are needed to hold the values of all.  A single key is written as the first
and as the last. -/
def stripKeys : List (Int × β) → Except Failure (List (Int × β))
  | [] => .error .outOfRange
  | [key] => .ok [key, key]
  | key :: rest => do return key :: (← stripFrom same false key.2 rest)

def stripRepeats (frames : List Int) (values : List β) : Except Failure (List (Int × β)) :=
  if frames.length = values.length then stripKeys same (frames.zip values)
  else .error (.unmet "")

end Strip

/-! ### Kinds of tracks -/

inductive TrackKind where
  | transform
  | value
  | color
  | bezier
  /-- A track without keys of its own. -/
  | bare
  deriving DecidableEq, Repr, Inhabited

def TrackKind.word : TrackKind → String
  | .transform => "transform"
  | .value | .color => "value"
  | .bezier => "bezier"
  | .bare => "base"

/-- How values between keys are found: the nearest, or on a line. -/
abbrev Interpolation := Int

def Interpolation.nearest : Interpolation := 0

def Interpolation.linear : Interpolation := 1

structure Track (α : Type) where
  kind : TrackKind
  path : NodePath
  interpolation : Interpolation := Interpolation.linear
  frames : List Int := []
  values : List (KeyValue α) := []
  /-- Whether the node is a camera or light, whose rest direction differs. -/
  directional : Bool := false
  /-- The inverse of the parent's transform when the two were joined. -/
  parentInverse : Placement α

namespace Track

variable {α : Type} [Scalar α]

def ofKeys (kind : TrackKind) (path : NodePath) (frames : List Int)
    (values : List (KeyValue α)) : Except Failure (Track α) :=
  if frames.length = values.length then
    .ok { kind, path, frames, values, parentInverse := .identity }
  else .error (.unmet "")

def push (t : Track α) (frame : Int) (value : KeyValue α) : Track α :=
  { t with frames := t.frames ++ [frame], values := t.values ++ [value] }

def first (t : Track α) : Int :=
  t.frames.headD 0

def last (t : Track α) : Int :=
  t.frames.getLastD 0

/-! ### Blending -/

/-- A frame and its value, unless that was lost. -/
abbrev Key (α : Type) := Int × Option (KeyValue α)

def keyList (t : Track α) : List (Key α) :=
  t.frames.zip (t.values.map some ++ List.replicate (t.frames.length - t.values.length) none)

/-- The value that a track and one laid over it have together. -/
def blendValues (t : Track α) (a b : KeyValue α) : Except Failure (KeyValue α) :=
  match t.kind, a, b with
  | .transform, .transform f, .transform g => do return .transform (← f.combine g)
  | .transform, _, _ => .error .missingPart
  | .value, _, _ => a.larger b
  | .color, .color c, .color d =>
    .ok (.color ⟨Scalar.larger c.x d.x, Scalar.larger c.y d.y, Scalar.larger c.z d.z⟩)
  | .color, _, _ => .error .wrongKind
  | .bezier, _, _ => .error .wrongKind
  | .bare, _, _ => .error (.unmet "")

/-- Merge two lists of keys in order of frames while both are within `limit`. -/
def mergeKeys (blend : KeyValue α → KeyValue α → Except Failure (KeyValue α)) (limit : Int) :
    List (Key α) → List (Key α) → Except Failure (List (Key α))
  | a :: as, b :: bs => do
    if a.1 ≤ limit ∧ b.1 ≤ limit then
      if a.1 = b.1 then
        let x ← need .outOfRange a.2
        let y ← need .outOfRange b.2
        let value ← blend x y
        return (a.1, some value) :: (← mergeKeys blend limit as bs)
      else if a.1 < b.1 then
        return a :: (← mergeKeys blend limit as (b :: bs))
      else
        return b :: (← mergeKeys blend limit (a :: as) bs)
    else return a :: as ++ b :: bs
  | as, bs => return as ++ bs
termination_by as bs => as.length + bs.length

def cutAt (frame : Int) (keys : List (Key α)) : Except Failure (List (Key α) × List (Key α)) :=
  let (before, rest) := keys.span (·.1 != frame)
  if rest.isEmpty then .error .outOfRange else .ok (before, rest)

/-- The keys of two tracks that have frames in common. -/
def overlap (t other : Track α) : Except Failure (List (Int × KeyValue α)) := do
  let start := max t.first other.first
  let limit := min t.last other.last
  let (before, mine) ← cutAt start t.keyList
  let (before', theirs) ← cutAt start other.keyList
  let merged ← mergeKeys t.blendValues limit mine theirs
  (before ++ before' ++ merged).mapM fun k => do return (k.1, ← need .outOfRange k.2)

/-- Lay another track over this one.  Both must be of one kind and interpolation.  A track that
ends before this one begins cannot be put in front: its frames are taken, then the blend
fails. -/
def blend (other : Track α) : EStateM Failure (Track α) Unit := do
  let t ← get
  if t.interpolation ≠ other.interpolation then throw (.unmet "")
  if t.kind.word ≠ other.kind.word then throw (.unmet "")
  if other.last < t.first then
    set { t with frames := other.frames ++ t.frames }
    throw .missingPart
  else if t.last < other.first then
    set { t with frames := t.frames ++ other.frames, values := t.values ++ other.values }
  else
    match t.overlap other with
    | .ok keys => set { t with frames := keys.map Prod.fst, values := keys.map Prod.snd }
    | .error e => throw e

/-! ### Written keys -/

/-- The keys that are written: without repeats if values are interpolated. -/
def writtenKeys (t : Track α) : Except Failure (List (Int × KeyValue α)) :=
  if t.interpolation = Interpolation.linear then stripRepeats KeyValue.same t.frames t.values
  else .ok (t.frames.zip t.values)

def listBrackets : Brackets := ⟨"[", ", ", "]"⟩

def realBrackets : Brackets := ⟨"PoolRealArray(", ", ", ")"⟩

def keyTime (timing : Timing) (duration : α) (frame : Int) : Except Failure α := do
  return (← Scalar.ofInt (frame - timing.start)) * duration

def transformKey (t : Track α) (timing : Timing) (duration : α) (frame : Int) :
    KeyValue α → Except Failure (List α)
  | .transform f => do
    let numbers ← f.key t.parentInverse t.directional
    return (← keyTime timing duration frame) :: 1 :: numbers
  | _ => .error .missingPart

/-- The numbers of the transform keys from the start of the scene on. -/
def transformKeys (t : Track α) (timing : Timing) : Except Failure (List α) := do
  let duration ← timing.frameDuration
  let keys ← t.writtenKeys
  let rows ← (keys.filter (timing.start ≤ ·.1)).mapM fun k =>
    t.transformKey timing duration k.1 k.2
  return rows.flatten

/-- The times and values of the value keys from the start of the scene on. -/
def valueKeys (t : Track α) (timing : Timing) : Except Failure (List (α × KeyValue α)) := do
  let duration ← timing.frameDuration
  let keys ← t.writtenKeys
  (keys.filter (timing.start ≤ ·.1)).mapM fun k => do
    return (← keyTime timing duration k.1, k.2)

def handleTime (timing : Timing) (frame : Int) (handle : α) : Except Failure α := do
  let lead := handle - (← Scalar.ofInt frame)
  Scalar.divide lead (← Scalar.ofInt timing.fps)

/-- The time of a Bézier point and the five numbers of its shape. -/
def bezierKey (timing : Timing) (frame : Int) :
    KeyValue α → Except Failure (Value α × List (Value α))
  | .bezier p => do
    let time ← timing.seconds frame
    let left ← handleTime timing frame p.leftTime
    let right ← handleTime timing frame p.rightTime
    return (.real time, [.ofChannel p.value, .real left, .ofChannel p.leftValue, .real right,
      .ofChannel p.rightValue])
  | _ => .error .missingPart

def keys (t : Track α) (timing : Timing) : Except Failure (Value α) :=
  match t.kind with
  | .transform => do
    let numbers ← t.transformKeys timing
    return .array listBrackets (numbers.map .real)
  | .value | .color => do
    let keys ← t.valueKeys timing
    return .map [("times", .array realBrackets (keys.map fun k => .real k.1)),
      ("transitions", .array realBrackets (keys.map fun _ => .int 1)),
      ("update", .int 0),
      ("values", .array listBrackets (keys.map fun k => k.2.toValue))]
  | .bezier => do
    let keys ← (t.frames.zip t.values).mapM fun k => bezierKey timing k.1 k.2
    return .map [("points", .array realBrackets (keys.flatMap Prod.snd)),
      ("times", .array realBrackets (keys.map Prod.fst))]
  | .bare => .error (.unmet "")

def render (t : Track α) (timing : Timing) : Logged String := do
  let value ← t.keys timing
  value.render

end Track

/-! ### Animations

An animation is a list of tracks, one for each property that it drives.  Adding a track for a
property that is driven already blends the two.

A name with `-loop` in it makes an animation that repeats; other spellings of that ending are
pointed out to the user. -/

structure Animation (α : Type) where
  /-- The time of the last frame of any track; none while no track is later than the start. -/
  length : Option α := none
  loops : Bool := false
  tracks : List (String × Track α) := []

namespace Animation

/-! ### The loop ending -/

/-- The four letters of the ending, in capitals or not. -/
def isLoopWord : List Char → Bool
  | [a, b, c, d] => [a, b, c, d].map Char.toLower == ['l', 'o', 'o', 'p']
  | _ => false

def endingAt? : List Char → Option String
  | c :: cs =>
    if (c == '-' || c == '_') && isLoopWord (cs.take 4) then some (String.ofList (c :: cs.take 4))
    else none
  | [] => none

def ending? (name : String) : Option String :=
  Text.findFirst? endingAt? name.toList

variable {α : Type} [Scalar α]

def ofName (name : String) : Logged (Animation α) := do
  match ending? name with
  | some "-loop" => return { loops := true }
  | some other =>
    Logged.warn ("Unknown suffix " ++ other ++ ", did you mean '-loop'?")
    return {}
  | none => return {}

/-- The length after a track that ends at a given time was added. -/
def extended (length : Option α) (time : α) : Option α :=
  if length.getD 0 < time then some time else length

def replaceTrack (a : Animation α) (path : String) (t : Track α) : Animation α :=
  { a with tracks := Record.set a.tracks path t }

/-- Add a track.  If blending fails, what it has changed by then stays. -/
def addTrack (t : Track α) (timing : Timing) : EStateM Failure (Animation α) Unit := do
  let path := t.path.render
  let time ← match timing.seconds t.last with
    | .ok time => pure time
    | .error e => throw e
  modify fun a => { a with length := extended a.length time }
  match Record.get? (← get).tracks path with
  | none => modify (·.replaceTrack path t)
  | some held =>
    match (Track.blend t).run held with
    | .ok _ blended => modify (·.replaceTrack path blended)
    | .error e blended =>
      modify (·.replaceTrack path blended)
      throw e

def trackProperties (timing : Timing) (index : Nat) (path : String) (t : Track α) :
    Except Failure (Record (Value α)) := do
  let base := "tracks/" ++ toString index
  return [(base ++ "/type", .quoted t.kind.word), (base ++ "/path", .text path),
    (base ++ "/interp", .int t.interpolation), (base ++ "/keys", ← t.keys timing)]

def properties (a : Animation α) (timing : Timing) : Except Failure (Record (Value α)) := do
  let length : Value α := match a.length with
    | some time => .real time
    | none => .int 0
  let tracks ← a.tracks.zipIdx.mapM fun e => trackProperties timing e.2 e.1.1 e.1.2
  return [("step", .real 0.1), ("length", length), ("loop", .flag a.loops)] ++ tracks.flatten

end Animation

end SceneExport
