import SceneExport.Description.Reader
import SceneExport.Shader.Tree

/-!
# Descriptions of node trees and animations
-/

namespace SceneExport

/-! ### Descriptions of node trees

Shader nodes with their sockets, and the links between them.  Links name nodes and sockets by
position, and a position may be counted from the end. -/

instance : Readable SocketType := ⟨fun d => do return .ofWord (← d.word)⟩

instance : Readable (Vec3 Number) := ⟨fun d => do
  need .unusableValue (Vec3.ofList? (← d.as (List Number)))⟩

instance : Readable (Placement Number) := ⟨fun d => do return .ofRows (← d.as (Rows Number))⟩

def SocketValue.ofDatum (d : Datum) : Except Failure (SocketValue Number) := do
  match d with
  | .nothing => return .nothing
  | .list _ => return .list (← d.as (List Number))
  | .record _ =>
    if let some v := d.entry? "vector" then return .vector (← v.as (List Number))
    if let some v := d.entry? "euler" then return .angles (← v.as (List Number))
    if let some v := d.field? "matrix" then return .matrix (← v.as (Rows Number))
    if let some v := d.field? "int" then return .int (← v.integer)
    return .matrix (Mat4.identity : Mat4 Number).toRows
  | _ => return .real (← d.number)

instance : Readable (SocketValue Number) := ⟨SocketValue.ofDatum⟩

instance : Readable (NodeSetting Number) := ⟨fun
  | .text s _ => .ok (.text s)
  | .flag b => .ok (.flag b)
  | .int n => .ok (.value (.int n))
  | .real x => .ok (.value (.real x))
  | d => .value <$> SocketValue.ofDatum d⟩

instance : Readable (Socket Number) := ⟨fun d => do
  let name ← (← need .outOfRange (d.item? 0)).word
  let type ← (← need .outOfRange (d.item? 1)).as SocketType
  let value ← ((d.item? 2).getD .nothing).as (SocketValue Number)
  return { name, type, value, identifier := ← (d.item? 3).elim (.ok name) Datum.word }⟩

namespace ShaderNode

def readSettings (d : Datum) : Except Failure (Record (NodeSetting Number)) :=
  ((d.field? "props").elim [] Datum.entries).mapM fun (name, v) => do
    return (name, ← v.as (NodeSetting Number))

/-- A shader node of a scene with a number of images.  Settings can have the names of the node's
own parts and then take their place. -/
def ofDatum (images : Nat) (d : Datum) : Except Failure (ShaderNode Number) := do
  let id ← d.get "id" ""
  let settings ← readSettings d
  let setting (name given : String) : String := (settings.get? name).elim given NodeSetting.note
  let image ← match d.entry? "image", settings.get? "image" with
    | some _, _ => some <$> d.position? "image" images
    | none, some (.value .nothing) => pure (some none)
    | none, _ => pure none
  return { id := setting "bl_idname" id, image, name := setting "name" (← d.get "name" id),
           type := setting "type" (← d.get "type" ""), settings,
           inputs := ← d.get "ins" #[], outputs := ← d.get "outs" #[] }

end ShaderNode

def NodeLink.ofDatum (nodes : Array (ShaderNode Number)) (d : Datum) : Except Failure NodeLink := do
  let part (i : Nat) : Except Failure Int := do (← need .outOfRange (d.item? i)).integer
  let fromNode ← position nodes.size (← part 0)
  let fromSocket ← position (nodes[fromNode]?.elim 0 (·.outputs.size)) (← part 1)
  let toNode ← position nodes.size (← part 2)
  let toSocket ← position (nodes[toNode]?.elim 0 (·.inputs.size)) (← part 3)
  return { fromNode, fromSocket, toNode, toSocket, valid := (d.item? 4).elim true Datum.isOn }

def NodeTree.ofDatum (images : Nat) (d : Datum) : Except Failure (NodeTree Number) := do
  let nodes ← (← d.all "nodes").mapM (ShaderNode.ofDatum images)
  let links ← (← d.all "links").mapM (NodeLink.ofDatum nodes.toArray)
  return { name := ← d.get "name" "Shader Nodetree", nodes := nodes.toArray, links }

/-! ### Descriptions of animations

Actions with their curves, the animation data of things, and single frames and tracks. -/

instance : Readable RotationMode := ⟨fun d => do return .ofWord (← d.word)⟩

/-! ### Actions -/

instance : Readable (CurvePoint Number) := ⟨fun d => do
  match ← d.as (List Number) with
  | x :: y :: a :: b :: c :: e :: _ => return ⟨x, y, a, b, c, e⟩
  | [x, y] => return ⟨x, y, x, y, x, y⟩
  | _ => throw .outOfRange⟩

instance : Readable (Curve Number) := ⟨fun d => do
  return { path := ← d.get "path" "", index := ← d.get "index" 0,
           kind := .ofWord (← d.get "interp" "LINEAR"), points := ← d.get "keys" [] }⟩

instance : Readable (Action Number) := ⟨fun d => do
  let (start, stop) ← d.get "range" (0, 0)
  return { name := ← d.get "name" "", start, stop, curves := ← d.get "fcurves" [] }⟩

def Strip.ofDatum (actions : Nat) (d : Datum) : Except Failure (Strip Number) := do
  return { name := ← d.get "name" "", action := ← d.position? "action" actions,
           start := ← d.get "start" 0, stop := ← d.get "end" 0 }

def StripTrack.ofDatum (actions : Nat) (d : Datum) : Except Failure (StripTrack Number) := do
  return { name := ← d.get "name" "", muted := d.isSet "mute" false,
           strips := ← (← d.all "strips").mapM (Strip.ofDatum actions) }

def AnimationData.ofDatum (actions : Nat) (d : Datum) : Except Failure (AnimationData Number) := do
  return { action := ← d.position? "action" actions, usesStrips := d.isSet "use_nla" true,
           tracks := ← (← d.all "tracks").mapM (StripTrack.ofDatum actions) }

def Datum.animation? (d : Datum) (actions : Nat) : Except Failure (Option (AnimationData Number)) :=
  (d.field? "animation").mapM (AnimationData.ofDatum actions)

/-! ### Frames -/

/-- Set the component of a frame that an update names; an unknown name changes nothing. -/
def TransformFrame.updated (f : TransformFrame Number) (update : Datum) :
    Except Failure (TransformFrame Number) := do
  let part (i : Nat) : Except Failure Datum := need .outOfRange (update.item? i)
  let index ← (← part 1).integer
  let value ← (← part 2).number
  match TransformPart.ofName? (← (← part 0).word) with
  | some name => f.update name index value
  | none => return f

instance : Readable (TransformFrame Number) := ⟨fun d => do
  let mode ← d.get "mode" RotationMode.quaternion
  let start ← match d.field? "matrix" with
    | some rows => TransformFrame.ofPlacement ((← rows.as (Option _)).getD .identity) mode
    | none => pure (.identity mode)
  (← d.all "update").foldlM TransformFrame.updated start⟩

/-! ### Tracks -/

def NodePath.ofDatum (d : Datum) : Except Failure NodePath := do
  match ← d.as (List String) with
  | start :: target :: rest => NodePath.between start target (rest.headD "")
  | _ => throw .wrongKind

def KeyValue.ofDatum (kind : TrackKind) (d : Datum) : Except Failure (KeyValue Number) := do
  match kind with
  | .transform => return .transform (← d.as (TransformFrame Number))
  | .color => return .color (← need .unusableValue (Vec3.ofList? (← d.as (List Number))))
  | .bezier =>
    match ← d.as (List Number) with
    | value :: leftX :: leftY :: rightX :: rightY :: _ =>
      return .bezier ⟨.real value, leftX, .real leftY, rightX, .real rightY⟩
    | _ => throw .outOfRange
  | .value | .bare => return .real (← d.number)

def TrackKind.ofWord : String → TrackKind
  | "transform" => .transform
  | "value" | "float" => .value
  | "color" => .color
  | "bezier" => .bezier
  | _ => .bare

instance : Readable (Track Number) := ⟨fun d => do
  let kind := TrackKind.ofWord (← d.get "kind" "")
  let values ← (← d.all "values").mapM (KeyValue.ofDatum kind)
  let path ← (d.field? "path").elim (NodePath.between "." "A" "") NodePath.ofDatum
  let t ← Track.ofKeys kind path (← d.get "frames" []) values
  return { t with
    interpolation := ← d.get "interp" t.interpolation
    directional := d.isSet "directional" false
    parentInverse := ← d.get "parent_inverse" t.parentInverse }⟩

end SceneExport
