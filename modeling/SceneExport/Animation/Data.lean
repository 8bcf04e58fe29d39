import SceneExport.Animation.Transform
import SceneExport.Animation.Light

/-!
# Animation data

Something that is animated (`Animated`) has an action of its own and layers of strips.  Its
action and the layers that are heard become the default animation of a player; each muted layer
becomes an animation of its own, with the layers that are heard laid over it.  While the muted
layers are exported the action is put aside; afterwards all settings are as before.
-/

namespace SceneExport

inductive Animated where
  | object (id : ObjectId)
  /-- The light or camera that an object shows. -/
  | data (id : ObjectId)
  | shapeKeys (id : MeshId)
  deriving DecidableEq, Repr, Inhabited

namespace ExportM

variable {α : Type} [Scalar α]

/-- Export the action that drives how much each shape key of a mesh counts. -/
def exportShapeKeyAction (settings : Settings) (t : AnimationTarget) (p : Playback α) :
    ExportM α Unit := do
  let path ← targetPath t ""
  for c in ← p.curves do
    let (thing, name) := DataPath.split c.path
    if name = "value" then
      let key ← DataPath.shapeKeyName thing
      addCurve t.animation p (some c) (some Conversion.same)
        (path.withProperty ("blend_shapes/" ++ key)) settings.bezierTracks

def animation? : Animated → ExportM α (Option (AnimationData α))
  | .object id => do return (← object id).animation
  | .data id => do
    match (← object id).data with
    | .light l => return l.animation
    | .camera c => return c.animation
    | _ => return none
  | .shapeKeys id => do
    return ((← get).scene.meshes[id]?.bind (·.shapeKeys)).bind (·.animation)

def changeDataAnimation (f : AnimationData α → AnimationData α) : ObjectData α → ObjectData α
  | .light l => .light { l with animation := l.animation.map f }
  | .camera c => .camera { c with animation := c.animation.map f }
  | data => data

def changeAnimation (a : Animated) (f : AnimationData α → AnimationData α) : ExportM α Unit :=
  match a with
  | .object id => changeObject id fun o => { o with animation := o.animation.map f }
  | .data id => changeObject id fun o => { o with data := changeDataAnimation f o.data }
  | .shapeKeys id => changeScene fun s =>
    { s with meshes := s.meshes.modify id fun m =>
        { m with shapeKeys := m.shapeKeys.map fun k => { k with animation := k.animation.map f } } }

def animatedName : Animated → ExportM α String
  | .object id | .data id => do return (← object id).name
  | .shapeKeys _ => return "Key"

def needsBaking : Animated → ExportM α Bool
  | .object id => do return (← object id).needsBaking
  | _ => return false

def exportAction (settings : Settings) (a : Animated) (t : AnimationTarget) (p : Playback α) :
    ExportM α Unit := do
  match a with
  | .object id =>
    if ← needsBaking a then exportBakedAction t id p else exportTransformAction t id p
  | .data id =>
    match (← object id).data with
    | .camera c => exportCameraAction settings t c p
    | _ => exportLightAction settings t p
  | .shapeKeys _ => exportShapeKeyAction settings t p

def restBones : ObjectData α → ObjectData α
  | .armature a =>
    .armature { a with bones := a.bones.map fun b => { b with basis := Placement.identity } }
  | data => data

def clearPose : Animated → ExportM α Unit
  | .object id => changeObject id fun o => { o with data := restBones o.data }
  | _ => return

def playAction (settings : Settings) (a : Animated) (t : AnimationTarget) (p : Playback α) :
    ExportM α Unit := do
  exportAction settings a t p
  clearPose a

/-- Export the actions of some strips; a strip without an action is silent. -/
def playStrips (settings : Settings) (a : Animated) (t : AnimationTarget)
    (strips : List (Strip α)) : ExportM α Unit := do
  for s in strips do
    if let some id := s.action then
      let action ← need .outOfRange (← get).scene.actions[id]?
      playAction settings a t (← Playback.ofStrip s action)

def playTracks (settings : Settings) (a : Animated) (t : AnimationTarget)
    (tracks : List (StripTrack α)) : ExportM α Unit :=
  tracks.forM fun track => playStrips settings a t track.strips

/-- Export the default animation: the action of something and the layers that are heard.  What is
baked has them in it already. -/
def exportActiveAction (settings : Settings) (a : Animated) (node : Option NodeId) (player : NodeId)
    (action : Option ActionId) (heard : List (StripTrack α)) : ExportM α Unit := do
  let action ← action.mapM fun id => do
    (need .outOfRange (← get).scene.actions[id]? : Except Failure (Action α))
  let name ← match action with
    | some action => pure action.name
    | none => (· ++ "Action") <$> animatedName a
  let t : AnimationTarget := ⟨node, player, ← activeAnimation player name⟩
  let p ← match action with
    | some action => Playback.ofAction action
    | none => pure .still
  playAction settings a t p
  if !(← needsBaking a) then playTracks settings a t heard

def exportHeardTracks (settings : Settings) (a : Animated) (node : Option NodeId) (player : NodeId)
    (heard : List (StripTrack α)) : ExportM α Unit := do
  let name := (← animatedName a) ++ "Action"
  let t : AnimationTarget := ⟨node, player, ← activeAnimation player name⟩
  playTracks settings a t heard

def setMuted (a : Animated) (index : Nat) (muted : Bool) : ExportM α Unit :=
  changeAnimation a fun d => { d with tracks := d.tracks.modify index fun t => { t with muted } }

/-- The name of the animation of a muted layer: that of its only strip, or its own. -/
def stashedName (track : StripTrack α) : String :=
  match track.strips with
  | [s] => s.name
  | _ => track.name

/-- Export a muted layer as an animation of its own. -/
def exportStashedTrack (settings : Settings) (a : Animated) (node : Option NodeId) (player : NodeId)
    (heard : List (StripTrack α)) (track : StripTrack α) (index : Nat) : ExportM α Unit := do
  let t : AnimationTarget := ⟨node, player, ← createAnimation player (stashedName track)⟩
  let baking ← needsBaking a
  if baking then setMuted a index false
  playStrips settings a t track.strips
  if baking then setMuted a index true
  else playTracks settings a t heard

def exportStashed (settings : Settings) (a : Animated) (node : Option NodeId) (player : NodeId)
    (heard : List (StripTrack α)) (muted : List (StripTrack α × Nat)) : ExportM α Unit := do
  let before ← animation? a
  changeAnimation a fun d => { d with action := none, usesStrips := true }
  for (track, index) in muted do
    exportStashedTrack settings a node player heard track index
  if let some d := before then
    changeAnimation a fun now => { now with usesStrips := d.usesStrips }

def exportAnimation (settings : Settings) (a : Animated) (node : Option NodeId) :
    ExportM α Unit := do
  if !settings.exportAnimation then return
  let data ← animation? a
  let baking ← needsBaking a
  if data.isNone && !baking then return
  let tracks := (data.elim [] (·.tracks)).zipIdx.filter fun t => !t.1.strips.isEmpty
  let (muted, heard) := tracks.partition fun t => t.1.muted
  let heard := heard.map (·.1)
  let player ← playerFor settings node
  let action := data.bind (·.action)
  if action.isSome || baking then
    exportActiveAction settings a node player action heard
  else if !heard.isEmpty then
    exportHeardTracks settings a node player heard
  if settings.exportStashed then
    exportStashed settings a node player heard muted
  changeAnimation a fun d => { d with action }

end ExportM

end SceneExport
