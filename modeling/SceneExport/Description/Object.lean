import SceneExport.Description.Animation
import SceneExport.Scene.Object

/-!
# Descriptions of meshes and objects
-/

namespace SceneExport

/-! ### Descriptions of meshes

Meshes as they are modelled, and the vertices of surfaces as they are written. -/

instance : Readable (MeshVertex Number) := ⟨fun d => do
  return { position := ← d.get "co" [0, 0, 0], groups := ← d.get "groups" [] }⟩

instance : Readable (Loop Number) := ⟨fun d => do
  return { vertex := ← d.get "v" 0, normal := ← d.get "n" [0, 0, 1],
           tangent := ← d.get "t" [1, 0, 0], bitangent := ← d.get "b" [0, 1, 0] }⟩

instance : Readable LoopTriangle := ⟨fun d => do
  return { loops := ← d.get "l" [], material := ← d.get "m" 0 }⟩

instance : Readable (ShapeKey Number) := ⟨fun d => do
  return { name := ← d.get "name" "", positions := ← d.find? "co" }⟩

def ShapeKeys.ofDatum (actions : Nat) (d : Datum) : Except Failure (ShapeKeys Number) := do
  let keys ← d.all "keys"
  let reference ← if keys.isEmpty then pure none else d.position? "reference" keys.length
  return { keys, reference := reference.getD 0, animation := ← d.animation? actions }

def Mesh.ofDatum (actions materials : Nat) (d : Datum) : Except Failure (Mesh Number) := do
  let triangles ← d.all "tris"
  let slots ← (← d.all "materials").mapM fun m =>
    (m : Option Int).mapM (position materials)
  return { name := ← d.get "name" "", vertices := ← d.get "vertices" #[],
           loops := ← d.get "loops" #[], triangles,
           faces := ← d.get "faces" (triangles.map fun _ => 3), uvs := ← d.get "uvs" [],
           colors := ← d.get "colors" [], materials := slots,
           shapeKeys := ← (d.field? "shape_keys").mapM (ShapeKeys.ofDatum actions) }

instance : Readable (Vertex Number) := ⟨fun d => do
  return { position := ← d.get "v" [0, 0, 0], normal := ← d.get "n" [0, 0, 0],
           tangent := ← d.find? "t", bitangent := ← d.find? "b", color := ← d.find? "c",
           uvs := ← d.get "uv" [], bones := ← d.get "bones" [], weights := ← d.get "weights" [] }⟩

/-! ### Descriptions of objects

The objects of a scene.  What an object refers to — its parent, its mesh, a material — is named by
position, and a position may be counted from the end; there has to be something at it. -/

structure SceneSizes where
  images : Nat
  materials : Nat
  actions : Nat
  meshes : Nat
  objects : Nat
  deriving DecidableEq, Repr, Inhabited

instance : Readable ObjectKind := ⟨fun d => do return .ofWord (← d.word)⟩

def FramedTransform.ofDatum (base : Placement Number) (d : Datum) :
    Except Failure (FramedTransform Number) := do
  let frames ← ((d.field? "frames").elim [] Datum.entries).mapM fun (name, rows) => do
    let frame ← need .unusableValue (Text.integer? name)
    return (frame, ((← rows.as (Option (Placement Number))).getD .identity))
  return { base, frames }

/-! ### Armatures, cameras, lights, curves -/

/-- Whether a field is there and is the truth value false. -/
def Datum.isDenied (d : Datum) (name : String) : Bool :=
  match d.entry? name with
  | some (.flag b) => !b
  | _ => false

def Bone.ofDatum (bones : Nat) (d : Datum) : Except Failure (Bone Number) := do
  return { name := ← d.get "name" "", parent := ← d.position? "parent" bones,
           length := ← d.get "length" 1, deforms := d.isSet "deform" true,
           rest := ← d.get "rest" .identity, basis := ← d.get "basis" .identity,
           pose := ← FramedTransform.ofDatum (← d.get "pose" .identity) d,
           rotationMode := ← d.get "rotation_mode" .quaternion,
           constraints := ← d.get "constraints" 0,
           inheritsRotation := !d.isDenied "inherit_rotation",
           inheritsScale := !d.isDenied "inherit_scale" }

instance : Readable (Armature Number) := ⟨fun d => do
  let bones : List Datum ← d.all "bones"
  return { posePosition := ← d.get "pose_position" "POSE",
           bones := (← bones.mapM (Bone.ofDatum bones.length)).toArray }⟩

def CameraData.ofDatum (actions : Nat) (d : Datum) : Except Failure (CameraData Number) := do
  return { type := ← d.get "type" "PERSP", animation := ← d.animation? actions,
           clipEnd := ← d.get "clip_end" 100.0, clipStart := ← d.get "clip_start" 0.1,
           orthoScale := ← d.get "ortho_scale" 6.0, angle := ← d.get "angle" 0.6911,
           lens := ← d.get "lens" 50.0, sensorWidth := ← d.get "sensor_width" 36.0 }

def LightData.ofDatum (actions : Nat) (d : Datum) : Except Failure (LightData Number) := do
  return { type := ← d.get "type" "POINT", animation := ← d.animation? actions,
           color := ← d.get "color" ⟨1, 1, 1⟩, shadowColor := ← d.get "shadow_color" ⟨0, 0, 0⟩,
           useShadow := d.isSet "use_shadow" true, castShadow := d.isSet "cast_shadow" true,
           energy := ← d.get "energy" 100.0, specularFactor := ← d.get "specular_factor" 1,
           cutoffDistance := ← d.get "cutoff_distance" 40.0, spotSize := ← d.get "spot_size" 0.8,
           spotBlend := ← d.get "spot_blend" 0.15 }

instance : Readable (SplinePoint Number) := ⟨fun d => do
  return { position := ← d.get "co" [0, 0, 0], left := ← d.get "left" [0, 0, 0],
           right := ← d.get "right" [0, 0, 0], tilt := ← d.get "tilt" 0 }⟩

instance : Readable (Spline Number) := ⟨fun d => do
  return { type := ← d.get "type" "BEZIER", cyclic := d.isSet "cyclic" false,
           points := ← d.all "points" }⟩

def CurveData.ofDatum (object : String) (d : Datum) : Except Failure (CurveData Number) := do
  let splines ← d.all "splines"
  return { name := ← d.get "name" object, active := ← d.position? "active_spline" splines.length,
           splines }

def ObjectData.ofDatum (sizes : SceneSizes) (name : String) (mesh : Option MeshId) (d : Datum) :
    ObjectKind → Except Failure (ObjectData Number)
  | .mesh => return .mesh mesh
  | .armature => return .armature (← d.as (Armature Number))
  | .camera => return .camera (← CameraData.ofDatum sizes.actions d)
  | .light => return .light (← LightData.ofDatum sizes.actions d)
  | .curve | .surface | .metaball | .font => return .curve (← CurveData.ofDatum name d)
  | _ => return .nothing

/-! ### Modifiers -/

def KeyPart.ofDatum : Datum → KeyPart Number
  | .nothing => .nothing
  | .flag b => .flag b
  | .int n => .int n
  | .real x => .real x
  | .text s _ => .text s
  | .list items => .list (items.attach.map fun ⟨item, _⟩ => ofDatum item)
  | .record entries => .list (entries.map fun entry => .text entry.1)

def ModifierSetting.readValue (sizes : SceneSizes) (object modifier index : Nat) (kind : String)
    (d : Datum) : Except Failure (KeyPart Number) := do
  match kind, d with
  | "COLLECTION", _ => return .collection object modifier index
  | _, .nothing => return .nothing
  | "POINTER", _ => return .object (← position sizes.objects (← d.integer))
  | "FLOAT", .list items => return .list (← items.mapM fun item => return .real (← item.number))
  | "FLOAT", _ => return .real (← d.number)
  | _, _ => return .ofDatum d

/-- A modifier of an object.  Settings can have the names of the modifier's own parts, and of two
settings of one name both have the kind of the first and the value of the last. -/
def Modifier.ofDatum (sizes : SceneSizes) (object modifier : Nat) (d : Datum) :
    Except Failure (Modifier Number) := do
  let given ← (← d.all "props").zipIdx.mapM fun (setting, index) => do
    let name ← (← need .outOfRange (Datum.item? setting 0)).word
    let kind ← (← need .outOfRange (setting.item? 1)).word
    let value ← readValue sizes object modifier index kind ((setting.item? 2).getD .nothing)
    return (name, ModifierSetting.mk kind value)
  let last (name : String) : Option (KeyPart Number) := (given.reverse.lookup name).map (·.value)
  let type ← d.get "type" ""
  let object ← d.position? "object" sizes.objects
  return { type,
           label := (last "type").getD (.text type)
           name := (last "name").getD (.text (← d.get "name" type))
           shown := (last "show_viewport").getD
             ((d.entry? "show_viewport").elim (.flag true) KeyPart.ofDatum)
           target := (last "object").getD (object.elim .nothing .object)
           settings := given.map fun (name, setting) =>
             { kind := (given.lookup name).elim setting.kind (·.kind)
               value := (last name).getD setting.value } }
where
  readValue := ModifierSetting.readValue

/-! ### Other parts -/

def MaterialSlot.ofDatum (materials : Nat) (d : Datum) : Except Failure MaterialSlot := do
  return { link := ← d.get "link" "", material := ← d.position? "material" materials }

instance : Readable (RigidBody Number) := ⟨fun d => do
  return { shape := ← d.get "shape" "BOX", type := ← d.get "type" "ACTIVE",
           kinematic := d.isSet "kinematic" false, useMargin := d.isSet "use_margin" false,
           margin := ← d.get "margin" 0.04, collections := ← d.get "collections" [true],
           friction := ← d.get "friction" 0.5, restitution := ← d.get "restitution" 0,
           linearDamping := ← d.get "linear_damping" 0.04,
           angularDamping := ← d.get "angular_damping" 0.1,
           useDeactivation := d.isSet "use_deactivation" false,
           startDeactivated := d.isSet "use_start_deactivated" false }⟩

instance : Readable (Particle Number) := ⟨fun d => do
  return { location := ← d.get "location" [0, 0, 0], rotation := ← d.get "rotation" [1, 0, 0, 0],
           size := ← d.get "size" 1 }⟩

def ParticleSystem.ofDatum (objects : Nat) (d : Datum) :
    Except Failure (ParticleSystem Number) := do
  let members : Option (List (Option Int)) ← d.find? "collection"
  return { name := ← d.get "name" "", object := ← d.position? "object" objects,
           collection := ← members.mapM fun members =>
             members.mapM fun member => member.mapM (position objects)
           particles := ← d.all "particles" }

/-! ### Objects -/

def Object.ofDatum (sizes : SceneSizes) (index : Nat) (d : Datum) :
    Except Failure (Object Number) := do
  let name ← d.get "name" ""
  let kind ← d.get "type" ObjectKind.empty
  let matrix ← d.get "matrix" (.identity : Placement Number)
  let mesh ← d.position? "mesh" sizes.meshes
  let modifiers : List Datum ← d.all "modifiers"
  let systems ← (← d.all "particles").mapM (ParticleSystem.ofDatum sizes.objects)
  return {
    name, kind, mesh
    parent := ← d.position? "parent" sizes.objects
    parentBone := ← d.get "parent_bone" ""
    inEditMode := (← d.get "mode" "OBJECT") == "EDIT"
    localTransform := ← FramedTransform.ofDatum matrix d
    basis := ← d.get "basis" matrix
    world := ← d.get "world" matrix
    parentInverse := ← d.get "parent_inverse" .identity
    rotationMode := ← d.get "rotation_mode" (.angles .xyz)
    hiddenInRender := d.isSet "hide_render" false
    visible := d.isSet "visible" true
    selected := d.isSet "selected" false
    inViewLayer := d.isSet "in_view_layer" true
    displayType := ← d.get "display_type" "TEXTURED"
    emptyDisplayType := ← d.get "empty_display_type" "PLAIN_AXES"
    boundBox := ← d.get "bound_box" BoundingBox.unitCorners
    constraints := ← d.get "constraints" 0
    animation := ← d.animation? sizes.actions
    activeShapeKey := ← d.get "active_shape_key" 0
    onlyShapeKey := false
    slots := ← (← d.all "slots").mapM (MaterialSlot.ofDatum sizes.materials)
    vertexGroups := ← d.all "vertex_groups"
    modifiers := (← modifiers.zipIdx.mapM fun (m, i) => Modifier.ofDatum sizes index i m).toArray
    rigidBody := ← d.find? "rigid_body"
    data := ← ObjectData.ofDatum sizes name mesh ((d.field? "data").getD .nothing) kind
    particles := systems
    activeParticles := ← d.position? "active_particles" systems.length }

end SceneExport
