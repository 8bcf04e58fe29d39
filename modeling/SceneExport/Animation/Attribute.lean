import SceneExport.Export.Session

/-!
# Animated attributes

How actions are played, who plays them, and the attributes that they drive.
-/

namespace SceneExport

/-! ### Playing an action

An action is played as it is, or by a strip, which moves and stretches it in time, so that the
time in the action is a linear function of the frame.  Without an action the first frames of the
scene are played. -/

/-- How a strip changes time. -/
structure Stretch (α : Type) where
  /-- How fast time goes in the action. -/
  factor : α
  /-- The time in the action at frame zero. -/
  offset : α

/-- The time in the action that goes with a time of the scene. -/
def Stretch.time {α : Type} [Scalar α] (s : Stretch α) (x : α) : α :=
  s.factor * x + s.offset

/-- An action, the frames at which it is played, and the times in it. -/
structure Playback (α : Type) where
  action : Option (Action α)
  first : Int
  /-- The frame after the last. -/
  stop : Int
  /-- How time is changed, unless the action is played as it is. -/
  stretch : Option (Stretch α) := none

namespace Playback

variable {α : Type} [Scalar α]

/-- No action, over a fixed number of frames. -/
def still : Playback α :=
  { action := none, first := 0, stop := 190 }

def ofAction (a : Action α) : Except Failure (Playback α) := do
  let first ← Scalar.truncate a.start
  return { action := some a, first, stop := (← Scalar.truncate a.stop) + 1 }

def ofStrip (s : Strip α) (a : Action α) : Except Failure (Playback α) := do
  let factor ← Scalar.divide (s.stop - s.start) (a.stop - a.start)
  let stretch : Stretch α := { factor, offset := a.stop - factor * s.stop }
  let first ← Scalar.truncate s.start
  return { action := some a, first, stop := (← Scalar.truncate s.stop) + 1
           stretch := some stretch }

def frames (p : Playback α) : List Int :=
  (List.range (p.stop - p.first).toNat).map fun (i : Nat) => p.first + i

def time (p : Playback α) (frame : Int) : Except Failure (Quantity α) :=
  match p.stretch with
  | none => .ok (.whole frame)
  | some s => do return .real (s.time (← Scalar.ofInt frame))

def evaluate (p : Playback α) (c : Curve α) (frame : Int) : Except Failure α := do
  c.evaluate (← p.time frame)

def pointFrame (p : Playback α) (point : CurvePoint α) : Except Failure Int :=
  Scalar.truncate (p.stretch.elim point.x (·.time point.x))

def curves (p : Playback α) : Except Failure (List (Curve α)) := do
  return (← need .missingPart p.action).curves

end Playback

/-! ### Animation players

The nodes that play animations.  Where they stand in the tree is a setting: below each animated
node, below the root, or below the topmost animated node (`ExportM.playerFor`). -/

/-- A player with a default animation; what is no player stays what it is. -/
def Role.playing (animation : Nat) : Role → Role
  | .player _ => .player (some animation)
  | role => role

namespace ExportM

variable {α : Type} [Scalar α]

def makePlayer (base : Option NodeId) : ExportM α NodeId := do
  let player ← makeNode "AnimationPlayer" "AnimationPlayer" base (.player none)
  let path ← NodePath.between (← nodePath player) (← nodePath (← existing base)) ""
  setNode player "root_node" (.path path)
  return player

/-- Whether a character cannot be in the name of an animation. -/
def isBracket (c : Char) : Bool :=
  c == '[' || c == ']' || c == '\x7b' || c == '\x7d'

def createAnimation (player : NodeId) (name : String) : ExportM α Nat := do
  let name := Text.without isBracket name
  let animation ← Animation.ofName name
  let id ← forceInternal (.ofType "Animation" name (.animation animation))
  setNode player ("anims/" ++ name) (.reference (.internal (some id)))
  return id

def activeAnimation? (player : NodeId) : ExportM α (Option Nat) := do
  match (← node player).role with
  | .player active => return active
  | _ => throw .missingPart

/-- The default animation of a player, made under a name if there is none yet. -/
def activeAnimation (player : NodeId) (name : String) : ExportM α Nat := do
  match ← activeAnimation? player with
  | some id => return id
  | none =>
    let id ← createAnimation player name
    changeFile fun f =>
      { f with tree := f.tree.update player fun n => { n with role := n.role.playing id } }
    return id

def addTrack (animation : Nat) (t : Track α) : ExportM α Unit := do
  let s : Session α ← get
  match (s.file.internal.get? animation).map Resource.detail with
  | some (.animation a) =>
    let keep (a : Animation α) : ExportM α Unit :=
      changeFile fun f =>
        { f with
          internal := f.internal.update animation fun r => { r with detail := .animation a } }
    match (Animation.addTrack t s.scene.timing).run a with
    | .ok _ a => keep a
    | .error e a =>
      keep a
      throw e
  | _ => throw .missingPart

def childPlayer? (id : NodeId) : ExportM α (Option NodeId) := do
  let tree := (← get).file.tree
  for child in tree.children id do
    if (← tree.type child) == "AnimationPlayer" then return some child
  return none

/-- The nearest player below a node or one of those above it, at most `fuel` of them. -/
def playerAbove? : Nat → Option NodeId → ExportM α (Option NodeId)
  | 0, _ => pure none
  | _, none => pure none
  | fuel + 1, some id => do
    match ← childPlayer? id with
    | some player => return some player
    | none => playerAbove? fuel (← node id).parent

def playerFor (settings : Settings) (target : Option NodeId) : ExportM α NodeId := do
  let (base, found) ← match settings.animationMode with
    | .actions => pure (target, none)
    | .scene => do
      let root ← need .outOfRange (← get).file.written[0]?
      pure (some root, ← childPlayer? root)
    | .squashed => do
      let nodes := (← get).file.tree.nodes.size
      pure (target, ← playerAbove? (nodes + 1) target)
  match found with
  | some player => return player
  | none =>
    let player ← makePlayer base
    writeNode player
    return player

end ExportM

/-! ### Attributes

A number or a colour of a light, a camera or a mesh that becomes a property of a node
(`Attribute`), and the track of a curve that drives a number.  A curve that holds its values
becomes a track of its points; with Bézier tracks a Bézier curve keeps its handles; any other
curve is evaluated at every frame. -/

variable {α : Type} [Scalar α]

abbrev Conversion (α : Type) := α → Except Failure (KeyValue α)

namespace Conversion

def same : Conversion α :=
  fun x => .ok (.real x)

def channel : Conversion α :=
  fun x => .ok (.number (Channel.corrected x))

end Conversion

inductive Reading (δ α : Type) where
  | number (get : δ → α) (convert : Conversion α)
  | color (get : δ → List α)

structure Attribute (δ α : Type) where
  source : String
  target : String
  reading : Reading δ α

namespace Attribute

variable {δ : Type}

def isColor (a : Attribute δ α) : Bool :=
  match a.reading with
  | .color _ => true
  | .number _ _ => false

def convert (a : Attribute δ α) : Conversion α :=
  match a.reading with
  | .number _ convert => convert
  | .color _ => Conversion.channel

def value (a : Attribute δ α) (data : δ) : Except Failure (Value α) := do
  match a.reading with
  | .number get convert => return (← convert (get data)).toValue
  | .color get => return .color (← gammaCorrected (get data))

end Attribute

/-! ### Tracks of curves -/

def Channel.minus : Channel α → Channel α → Channel α
  | .real a, .real b => .real (a - b)
  | .real a, .complex re im => .complex (a - re) (-im)
  | .complex re im, .real b => .complex (re - b) im
  | .complex re im, .complex re' im' => .complex (re - re') (im - im')

def KeyValue.channel : KeyValue α → Except Failure (Channel α)
  | .number c => .ok c
  | _ => .error .wrongKind

namespace Curve

def heldTrack (c : Curve α) (p : Playback α) (path : NodePath) (convert : Conversion α) :
    Except Failure (Track α) := do
  let keys ← c.points.mapM fun point => do
    return (← p.pointFrame point, ← convert point.y)
  let t ← Track.ofKeys .value path (keys.map (·.1)) (keys.map (·.2))
  return { t with interpolation := Interpolation.nearest }

/-- The key of a point of a Bézier curve, at its own time; the heights of its handles are relative
to it. -/
def bezierKey (convert : Conversion α) (point : CurvePoint α) :
    Except Failure (Int × KeyValue α) := do
  let value ← (← convert point.y).channel
  let frame ← Scalar.truncate point.x
  let left ← (← convert point.leftY).channel
  let right ← (← convert point.rightY).channel
  return (frame, .bezier ⟨value, point.leftX, left.minus value, point.rightX, right.minus value⟩)

def bezierTrack (c : Curve α) (path : NodePath) (convert : Conversion α) :
    Except Failure (Track α) := do
  let keys ← c.points.mapM (bezierKey convert)
  Track.ofKeys .bezier path (keys.map (·.1)) (keys.map (·.2))

def sampledTrack (c : Curve α) (p : Playback α) (path : NodePath) (convert : Conversion α) :
    Except Failure (Track α) := do
  let values ← p.frames.mapM fun frame => do convert (← p.evaluate c frame)
  Track.ofKeys .value path p.frames values

/-- The track of a curve.  Without a conversion the numbers are taken as they are, but Bézier
points need one. -/
def track (c : Curve α) (p : Playback α) (path : NodePath) (convert : Option (Conversion α))
    (bezier : Bool) : Except Failure (Track α) :=
  match c.kind with
  | .constant => c.heldTrack p path (convert.getD Conversion.same)
  | .bezier =>
    if bezier then do c.bezierTrack path (← need .wrongKind convert)
    else c.sampledTrack p path (convert.getD Conversion.same)
  | .linear => c.sampledTrack p path (convert.getD Conversion.same)

end Curve

/-- The node that an animation drives, and the player and number of the animation. -/
structure AnimationTarget where
  node : Option NodeId
  player : NodeId
  animation : Nat
  deriving DecidableEq, Repr, Inhabited

namespace ExportM

/-- The path from the node above the player to the node that is driven. -/
def targetPath (t : AnimationTarget) (property : String) : ExportM α NodePath := do
  let base ← existing (← node t.player).parent
  NodePath.between (← nodePath base) (← nodePath (← existing t.node)) property

/-- Add the track of a curve to an animation; a curve without points has none. -/
def addCurve (animation : Nat) (p : Playback α) (curve : Option (Curve α))
    (convert : Option (Conversion α)) (path : NodePath) (bezier : Bool) : ExportM α Unit := do
  match curve with
  | none => return
  | some c =>
    if c.points.isEmpty then return
    addTrack animation (← c.track p path convert bezier)

end ExportM

end SceneExport
