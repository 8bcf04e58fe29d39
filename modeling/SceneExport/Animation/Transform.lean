import SceneExport.Animation.Attribute
import SceneExport.Animation.DataPath
import SceneExport.Armature.Skeleton

/-!
# Animated transforms

Transforms that curves drive, and those that are baked.
-/

namespace SceneExport

/-! ### Animated transforms

The curves of an action drive single components of the transforms of an object and its bones.
All curves of one thing are put together, frame by frame, over the transform that the thing has
without them. -/

variable {α : Type} [Scalar α]

/-- The types of node whose rest direction differs. -/
def directionalTypes : List String :=
  ["SpotLight", "DirectionalLight", "Camera", "CollisionShape"]

/-- The transforms of an object or bone over the frames of an action, by the path of the thing. -/
abbrev TransformFrames (α : Type) := Record (List (TransformFrame α))

namespace ExportM

def attachedBoneLength (o : Object α) : ExportM α α := do
  let armature ← (← object (← need .missingPart o.parent)).armature
  let bone ← need .missingKey (armature.bones.find? (·.name == o.parentBone))
  return bone.length

/-- Whether a node is below an attachment to a bone. -/
def isAttached (id : NodeId) : ExportM α Bool := do
  return (← nodeType (← existing (← node id).parent)) == "BoneAttachment"

/-- The values of the transform track of an object.  Of an object that hangs on a bone only the
location is kept, from the other end of the bone. -/
def transformValues (node : NodeId) (o : Object α) (frames : List (TransformFrame α)) :
    ExportM α (List (KeyValue α)) := do
  if ← isAttached node then
    frames.mapM fun f => do return .location (f.location.alongBone (← attachedBoneLength o))
  else return frames.map .transform

def addObjectTrack (t : AnimationTarget) (p : Playback α) (o : Object α)
    (frames : List (TransformFrame α)) (parentInverse : Placement α) : ExportM α Unit := do
  let path ← targetPath t ""
  let node ← existing t.node
  let values ← transformValues node o frames
  let directional := directionalTypes.contains (← nodeType node)
  let track ← Track.ofKeys .transform path p.frames values
  addTrack t.animation { track with directional, parentInverse }

def addBoneTrack (t : AnimationTarget) (p : Playback α) (bone : String)
    (frames : List (TransformFrame α)) : ExportM α Unit := do
  let numbers ← skeletonNumbers t.node
  let path ← targetPath t (← boneName (← existing t.node) numbers bone)
  addTrack t.animation (← Track.ofKeys .transform path p.frames (frames.map .transform))

/-- Where the curves of a bone start, if its skeleton was exported and has it. -/
def boneStart? (node : Option NodeId) (o : Object α) (thing : String) :
    ExportM α (Option (TransformFrame α)) := do
  let bone ← DataPath.boneName thing
  if (← nodeType (← existing node)) ≠ "Skeleton" then
    warn ("Skip bone fcurves of Armature object not being exported. object '" ++ o.name ++ "'")
    return none
  if Record.has (← skeletonNumbers node) bone then
    let bones := (← o.armature).bones
    let b ← need .outOfRange ((bones.find? (·.name == bone)).or bones.back?)
    return some (← TransformFrame.ofPlacement b.basis b.rotationMode)
  else return none

/-- Where the curves of a thing start. -/
def frameStart? (node : Option NodeId) (o : Object α) (thing : String) :
    ExportM α (Option (TransformFrame α)) :=
  if Text.startsWith thing "pose" then boneStart? node o thing
  else do return some (← TransformFrame.ofPlacement o.basis o.rotationMode)

/-- A copy of the start of a thing for each frame. -/
def startFrames (node : Option NodeId) (o : Object α) (p : Playback α) (thing : String) :
    ExportM α (List (TransformFrame α)) := do
  match ← frameStart? node o thing with
  | some f =>
    let copied := f.marked (← newMark)
    return p.frames.map fun _ => copied
  | none => return []

/-- The frames with one part of each set to what the curve gives there. -/
def driveFrames (p : Playback α) (c : Curve α) (part : TransformPart)
    (frames : List (TransformFrame α)) : Except Failure (List (TransformFrame α)) :=
  (frames.zip p.frames).mapM fun (f, frame) => do f.update part c.index (← p.evaluate c frame)

/-- Add a curve to the frames of the thing that its path names. -/
def addTransformCurve (node : Option NodeId) (o : Object α) (p : Playback α)
    (things : TransformFrames α) (c : Curve α) : ExportM α (TransformFrames α) := do
  let (thing, attribute') := DataPath.split c.path
  match TransformPart.ofName? attribute' with
  | none => return things
  | some part =>
    let frames ← match things.get? thing with
      | some frames => pure frames
      | none => startFrames node o p thing
    if frames.isEmpty then return things
    return things.set thing (← driveFrames p c part frames)

def exportTransformAction (t : AnimationTarget) (id : ObjectId) (p : Playback α) :
    ExportM α Unit := do
  let o ← object id
  let things ← (← p.curves).foldlM (addTransformCurve t.node o p) ([] : TransformFrames α)
  for (thing, frames) in things do
    if thing = "" then
      addObjectTrack t p o frames o.parentInverse
    else if Text.startsWith thing "pose" then
      addBoneTrack t p (← DataPath.boneName thing) frames

end ExportM

/-! ### Baking

What is moved by constraints, or by bones that do not follow the bones above them, is not found
in curves.  It is baked: the scene is played frame by frame, and the transforms that come about
are written. -/

def Object.hasConstraints (o : Object α) : Bool :=
  o.constraints != 0

def Object.hasBoneConstraints (o : Object α) : Bool :=
  match o.data with
  | .armature a => a.bones.any (·.constraints != 0)
  | _ => false

/-- Whether a bone of an object does not follow the bone above it in all respects. -/
def Object.hasFreeBones (o : Object α) : Bool :=
  match o.data with
  | .armature a => a.bones.any fun b => !b.inheritsRotation || !b.inheritsScale
  | _ => false

def Object.needsBaking (o : Object α) : Bool :=
  o.hasConstraints || o.hasBoneConstraints || o.hasFreeBones

def Playback.drivesObject (p : Playback α) : Bool :=
  match p.action with
  | some a => a.curves.any fun c => (DataPath.split c.path).1 == ""
  | none => false

/-- The pose of a bone at a frame relative to its rest pose, in the space of the exported bone
above it. -/
def Bone.bakedPose (b : Bone α) (parent : Option (Bone α)) (rest : Placement α) (frame : Int) :
    Except Failure (Placement α) := do
  let pose (b : Bone α) : Placement α := b.pose.atFrame frame
  match parent with
  | none => (← b.rest.inverseOrIdentity).mul (pose b)
  | some parent =>
    let above ← (← rest.inverseOrIdentity).mul (← (pose parent).inverseOrIdentity)
    above.mul (pose b)

/-- The exported bone above each bone, by name; of bones with one name the last counts. -/
def Armature.exportedParents (a : Armature α) (numbers : Record Nat) : Record (Option (Bone α)) :=
  Record.setAll [] (a.bones.toList.map fun b => (b.name, a.exportedParent? numbers b))

namespace ExportM

def setFrame (frame : Int) : ExportM α Unit :=
  changeScene fun s => { s with frame }

def bakeBones (skeleton : NodeId) (a : Armature α) (numbers : Record Nat) (frame : Int) :
    ExportM α (List (String × Placement α)) := do
  let parents := a.exportedParents numbers
  a.bones.toList.mapM fun b => do
    let parent := (parents.get? b.name).join
    let rest ← match parent with
      | none => pure .identity
      | some _ => boneRest skeleton numbers b.name
    return (b.name, ← b.bakedPose parent rest frame)

/-- The armature of a skeleton with the numbers of its bones, if an object is exported as one. -/
def bakedArmature? (node : NodeId) (o : Object α) :
    ExportM α (Option (Armature α × Record Nat)) := do
  match (← nodeType node) == "Skeleton", o.data with
  | true, .armature a => return some (a, ← skeletonNumbers (some node))
  | _, _ => return none

/-- Go to a frame: the placement of an object there, and the poses of its bones. -/
def bakeFrame (node : NodeId) (o : Object α) (armature : Option (Armature α × Record Nat))
    (frame : Int) : ExportM α (Placement α × List (String × Placement α)) := do
  setFrame frame
  let placement ← localTransform o
  let poses ← match armature with
    | some (a, numbers) => bakeBones node a numbers frame
    | none => pure []
  return (placement, poses)

/-- Play the scene: the placements of an object, and the poses of its bones frame by frame. -/
def bakeFrames (node : NodeId) (o : Object α) (frames : List Int) :
    ExportM α (List (Placement α) × List (String × Placement α)) := do
  let armature ← bakedArmature? node o
  let before := (← get).scene.frame
  let baked ← frames.mapM (bakeFrame node o armature)
  setFrame before
  return (baked.map (·.1), baked.flatMap (·.2))

def addBakedBones (t : AnimationTarget) (p : Playback α) (poses : List (String × Placement α)) :
    ExportM α Unit := do
  for name in (poses.map (·.1)).eraseDups do
    if Record.has (← skeletonNumbers t.node) name then
      let frames ← (poses.filter (·.1 == name)).mapM fun (_, p) =>
        (TransformFrame.ofPlacement p .quaternion : Except Failure (TransformFrame α))
      addBoneTrack t p name frames

def exportBakedAction (t : AnimationTarget) (id : ObjectId) (p : Playback α) : ExportM α Unit := do
  let o ← object id
  let node ← existing t.node
  let (placements, poses) ← bakeFrames node o p.frames
  if o.hasConstraints || p.drivesObject then
    let frames ← placements.mapM fun p =>
      (TransformFrame.ofPlacement p .quaternion : Except Failure (TransformFrame α))
    addObjectTrack t p o frames .identity
  addBakedBones t p poses

end ExportM

end SceneExport
