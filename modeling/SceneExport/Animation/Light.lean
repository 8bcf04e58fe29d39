import SceneExport.Animation.Attribute
import SceneExport.Animation.DataPath

/-!
# Animated lights and cameras
-/

namespace SceneExport

/-! ### Animated lights

The attributes of a light that become properties of its node, and the action that drives them.
Colours are driven channel by channel: with Bézier tracks each channel has a track of its own,
else the channels are put together frame by frame. -/

variable {α : Type} [Scalar α]

namespace LightData

def commonAttributes : List (Attribute (LightData α) α) :=
  [⟨"specular_factor", "light_specular", .number (·.specularFactor) Conversion.same⟩,
    ⟨"color", "light_color", .color (·.color.toList)⟩,
    ⟨"shadow_color", "shadow_color", .color (·.shadowColor.toList)⟩]

/-- The energy of a light that shines from a point: a hundredth, and not below zero. -/
def pointEnergy : Attribute (LightData α) α :=
  ⟨"energy", "light_energy", .number (·.energy) fun x => .ok (.real (Scalar.abs (x / 100.0)))⟩

/-- The energy of a light from afar, not below zero. -/
def sunEnergy : Attribute (LightData α) α :=
  ⟨"energy", "light_energy", .number (·.energy) fun x => .ok (.real (Scalar.abs x))⟩

def reach (target : String) : Attribute (LightData α) α :=
  ⟨"cutoff_distance", target, .number (·.cutoffDistance) Conversion.same⟩

/-- The angle between the axis of a cone and its side, in degrees. -/
def spotAngle : Attribute (LightData α) α :=
  ⟨"spot_size", "spot_angle", .number (·.spotSize) fun x => .ok (.real (Scalar.degrees (x / 2.0)))⟩

def spotAttenuation : Attribute (LightData α) α :=
  ⟨"spot_blend", "spot_angle_attenuation",
    .number (·.spotBlend) fun x => do return .real (← Scalar.divide 0.2 (x + 0.01))⟩

def attributes (nodeType : String) : List (Attribute (LightData α) α) :=
  commonAttributes ++ match nodeType with
    | "OmniLight" => [pointEnergy, reach "omni_range"]
    | "SpotLight" => [pointEnergy, spotAngle, spotAttenuation, reach "spot_range"]
    | "DirectionalLight" => [sunEnergy]
    | _ => []

end LightData

def channelName (index : Int) : Except Failure String := do
  need .outOfRange (["r", "g", "b", "a"][← position 4 index]?)

namespace ExportM

def driveColors (p : Playback α) (c : Curve α) (colors : List (Vec3 α)) :
    Except Failure (List (Vec3 α)) :=
  (colors.zip p.frames).mapM fun (color, frame) => do color.setAt c.index (← p.evaluate c frame)

def addColorCurve (p : Playback α) (colors : Record (List (Vec3 α))) (c : Curve α) :
    Except Failure (Record (List (Vec3 α))) := do
  let name := (DataPath.split c.path).2
  if name = "color" ∨ name = "shadow_color" then
    let frames := (colors.get? name).getD (p.frames.map fun _ => ⟨0, 0, 0⟩)
    return colors.set name (← driveColors p c frames)
  else return colors

def addChannels (t : AnimationTarget) (p : Playback α) (path : NodePath)
    (colors : List (Attribute (LightData α) α)) (c : Curve α) : ExportM α Unit := do
  for a in colors do
    if a.source = (DataPath.split c.path).2 then
      let channel ← channelName c.index
      addCurve t.animation p (some c) (some a.convert)
        (path.withProperty (a.target ++ ":" ++ channel)) true

def correctColors (colors : Record (List (Vec3 α))) (a : Attribute (LightData α) α) :
    Except Failure (Record (List (Vec3 α))) := do
  match colors.get? a.source with
  | some frames => return colors.set a.source (← frames.mapM fun c => gammaCorrected c.toList)
  | none => return colors

def drivenColors (p : Playback α) (attributes : List (Attribute (LightData α) α))
    (curves : List (Curve α)) : Except Failure (Record (List (Vec3 α))) := do
  let colors ← curves.foldlM (addColorCurve p) ([] : Record (List (Vec3 α)))
  attributes.foldlM correctColors colors

def addColors (t : AnimationTarget) (p : Playback α) (path : NodePath)
    (attributes : List (Attribute (LightData α) α)) (curves : List (Curve α)) : ExportM α Unit := do
  for (name, frames) in ← drivenColors p attributes curves do
    let target := if name = "color" then "light_color" else "shadow_color"
    addTrack t.animation
      (← Track.ofKeys .color (path.withProperty target) p.frames (frames.map .color))

def exportLightAction (settings : Settings) (t : AnimationTarget) (p : Playback α) :
    ExportM α Unit := do
  let path ← targetPath t ""
  let action ← need .missingPart p.action
  addCurve t.animation p (action.find? "shadow_method") (some fun x => .ok (.flag (0 < x)))
    (path.withProperty "shadow_enabled") false
  let attributes : List (Attribute (LightData α) α) :=
    LightData.attributes (← nodeType (← existing t.node))
  let (colors, numbers) := attributes.partition (·.isColor)
  for a in numbers do
    addCurve t.animation p (action.find? a.source) (some a.convert) (path.withProperty a.target)
      settings.bezierTracks
  if settings.bezierTracks then
    for c in action.curves do
      addChannels t p path colors c
  else addColors t p path colors action.curves

end ExportM

/-! ### Animated cameras

The attributes of a camera that become properties of its node, and the action that drives them.
The field of view follows from the focal length and the width of the sensor, either of which may
be driven. -/

def CameraData.attributes : List (Attribute (CameraData α) α) :=
  [⟨"clip_end", "far", .number (·.clipEnd) Conversion.same⟩,
    ⟨"clip_start", "near", .number (·.clipStart) Conversion.same⟩,
    ⟨"ortho_scale", "size", .number (·.orthoScale) Conversion.same⟩]

/-- The field of view in degrees, of a sensor at a focal length. -/
def fieldOfView (sensor lens : α) : Except Failure α := do
  return 2.0 * Scalar.degrees (Scalar.atan (← Scalar.divide (sensor / 2.0) lens))

namespace ExportM

/-- The values of a curve at all frames, or of something that is not driven. -/
def driven (p : Playback α) (value : α) : Option (Curve α) → Except Failure (List α)
  | some c => p.frames.mapM (p.evaluate c)
  | none => .ok (p.frames.map fun _ => value)

def addFieldOfView (t : AnimationTarget) (p : Playback α) (path : NodePath) (camera : CameraData α)
    (action : Action α) : ExportM α Unit := do
  let lens := action.find? "lens"
  let sensor := action.find? "sensor_width"
  if lens.isNone && sensor.isNone then return
  let lengths ← driven p camera.lens lens
  let widths ← driven p camera.sensorWidth sensor
  let fields ← (widths.zip lengths).mapM fun (width, length) => fieldOfView width length
  addTrack t.animation
    (← Track.ofKeys .value (path.withProperty "fov") p.frames (fields.map .real))

def exportCameraAction (settings : Settings) (t : AnimationTarget) (camera : CameraData α)
    (p : Playback α) : ExportM α Unit := do
  let path ← targetPath t ""
  let action ← need .missingPart p.action
  for a in (CameraData.attributes : List (Attribute (CameraData α) α)) do
    addCurve t.animation p (action.find? a.source) (some a.convert) (path.withProperty a.target)
      settings.bezierTracks
  addCurve t.animation p (action.find? "type") (some fun x => .ok (.int (if x == 0 then 0 else 1)))
    (path.withProperty "projection") false
  addFieldOfView t p path camera action

end ExportM

end SceneExport
