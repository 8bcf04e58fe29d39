import SceneExport.File.SceneFile
import SceneExport.Shader.Compile

/-!
# Objects and scenes

The objects of a scene, and the scene that holds them.
-/

namespace SceneExport

/-! ### Objects

The objects of a scene and what they are made of: armatures, lights, cameras and curves;
modifiers, rigid bodies and particles. -/

/-- What an object is, or a class of objects that can be chosen for an export. -/
inductive ObjectKind where
  | empty
  | camera
  | light
  | armature
  | mesh
  | curve
  | surface
  | metaball
  | font
  | particle
  | geometry
  | other (word : String)
  deriving DecidableEq, Repr, Inhabited

def ObjectKind.ofWord : String → ObjectKind
  | "EMPTY" => .empty
  | "CAMERA" => .camera
  | "LIGHT" => .light
  | "ARMATURE" => .armature
  | "MESH" => .mesh
  | "CURVE" => .curve
  | "SURFACE" => .surface
  | "META" => .metaball
  | "FONT" => .font
  | "PARTICLE" => .particle
  | "GEOMETRY" => .geometry
  | word => .other word

def ObjectKind.word : ObjectKind → String
  | .empty => "EMPTY"
  | .camera => "CAMERA"
  | .light => "LIGHT"
  | .armature => "ARMATURE"
  | .mesh => "MESH"
  | .curve => "CURVE"
  | .surface => "SURFACE"
  | .metaball => "META"
  | .font => "FONT"
  | .particle => "PARTICLE"
  | .geometry => "GEOMETRY"
  | .other word => word

/-- A transform, with those of certain frames. -/
structure FramedTransform (α : Type) where
  base : Placement α
  frames : List (Int × Placement α) := []

def FramedTransform.atFrame {α : Type} (t : FramedTransform α) (frame : Int) : Placement α :=
  (t.frames.lookup frame).getD t.base

/-! ### Armatures -/

structure Bone (α : Type) where
  name : String
  parent : Option Nat
  length : α
  deforms : Bool := true
  rest : Placement α
  /-- The pose relative to the bone at rest. -/
  basis : Placement α
  /-- The pose in the space of the armature. -/
  pose : FramedTransform α
  rotationMode : RotationMode := .quaternion
  constraints : Nat := 0
  inheritsRotation : Bool := true
  inheritsScale : Bool := true

structure Armature (α : Type) where
  posePosition : String := "POSE"
  bones : Array (Bone α)

/-! ### Lights, cameras, curves -/

structure CameraData (α : Type) where
  type : String
  animation : Option (AnimationData α)
  clipEnd : α
  clipStart : α
  orthoScale : α
  angle : α
  lens : α
  sensorWidth : α

structure LightData (α : Type) where
  type : String
  animation : Option (AnimationData α)
  color : Vec3 α
  shadowColor : Vec3 α
  useShadow : Bool
  castShadow : Bool
  energy : α
  specularFactor : α
  cutoffDistance : α
  spotSize : α
  spotBlend : α

structure SplinePoint (α : Type) where
  position : List α
  left : List α
  right : List α
  tilt : α

structure Spline (α : Type) where
  type : String := "BEZIER"
  cyclic : Bool := false
  points : List (SplinePoint α)

structure CurveData (α : Type) where
  name : String
  active : Option Nat
  splines : List (Spline α)

inductive ObjectData (α : Type) where
  | nothing
  | mesh (id : Option MeshId)
  | armature (a : Armature α)
  | camera (c : CameraData α)
  | light (l : LightData α)
  | curve (c : CurveData α)

/-! ### Parts of objects -/

/-- A setting of a modifier: its kind and its value. -/
structure ModifierSetting (α : Type) where
  kind : String
  value : KeyPart α

/-- A change of an object's geometry.  What it does is told by its type.  Its other parts are
settings too, and may have been given values of any kind. -/
structure Modifier (α : Type) where
  type : String
  /-- The type that the modifier shows. -/
  label : KeyPart α
  name : KeyPart α
  /-- Whether the modifier takes effect in the scene. -/
  shown : KeyPart α
  /-- The object that the modifier refers to. -/
  target : KeyPart α
  settings : List (ModifierSetting α)

structure MaterialSlot where
  link : String
  material : Option MaterialId
  deriving DecidableEq, Repr, Inhabited

structure RigidBody (α : Type) where
  shape : String
  type : String
  kinematic : Bool
  useMargin : Bool
  margin : α
  collections : List Bool
  friction : α
  restitution : α
  linearDamping : α
  angularDamping : α
  useDeactivation : Bool
  startDeactivated : Bool

structure Particle (α : Type) where
  location : List α
  rotation : List α
  size : α

/-- Particles that are shown as copies of an object. -/
structure ParticleSystem (α : Type) where
  name : String
  object : Option ObjectId
  /-- The objects of a collection, of which the first is copied. -/
  collection : Option (List (Option ObjectId))
  particles : List (Particle α)

/-! ### The whole object -/

structure Object (α : Type) where
  name : String
  kind : ObjectKind
  parent : Option ObjectId
  parentBone : String
  inEditMode : Bool
  /-- The transform relative to the parent. -/
  localTransform : FramedTransform α
  basis : Placement α
  world : Placement α
  parentInverse : Placement α
  rotationMode : RotationMode
  hiddenInRender : Bool
  visible : Bool
  selected : Bool
  inViewLayer : Bool
  displayType : String
  emptyDisplayType : String
  boundBox : List (List α)
  constraints : Nat
  animation : Option (AnimationData α)
  activeShapeKey : Int
  onlyShapeKey : Bool
  slots : List MaterialSlot
  vertexGroups : List String
  modifiers : Array (Modifier α)
  rigidBody : Option (RigidBody α)
  /-- The geometry that the object has when it is evaluated. -/
  mesh : Option MeshId
  data : ObjectData α
  particles : List (ParticleSystem α)
  activeParticles : Option Nat

/-! ### Bounding boxes

An object has the eight corners of its bounding box, in a fixed order: along the third axis
first, then along the second, and last along the first. -/

section

/-- A box along the axes, with the second axis up. -/
structure BoundingBox (α : Type) where
  position : Vec3 α
  size : Vec3 α

variable {α : Type} [Scalar α]

def BoundingBox.unitCorners : List (List α) :=
  [[-1, -1, -1], [-1, -1, 1], [-1, 1, 1], [-1, 1, -1], [1, -1, -1], [1, -1, 1], [1, 1, 1],
    [1, 1, -1]]

def BoundingBox.ofCorners (corners : List (List α)) : Except Failure (BoundingBox α) := do
  let coordinate (corner axis : Nat) : Except Failure α := do
    need .outOfRange (← need .outOfRange corners[corner]?)[axis]?
  let start ← Vec3.ofFirst (← need .outOfRange corners[0]?)
  return { position := ⟨start.x, start.z, -start.y⟩
           size := ⟨(← coordinate 7 0) - (← coordinate 3 0),
             (← coordinate 2 2) - (← coordinate 3 2),
             (← coordinate 3 1) - start.y⟩ }

/-- The sizes along the axes of the smallest box around some points.  The first point may have
more coordinates, along which the box is flat. -/
def extents (points : List (List α)) : Except Failure (List α) := do
  let start ← need .outOfRange points.head?
  let first ← Vec3.ofFirst start
  let points ← points.mapM Vec3.ofFirst
  let least (get : Vec3 α → α) : α := points.foldl (fun m p => Scalar.smaller (get p) m) (get first)
  let most (get : Vec3 α → α) : α := points.foldl (fun m p => Scalar.larger (get p) m) (get first)
  let size (get : Vec3 α → α) : α := most get - least get
  return [size (·.x), size (·.y), size (·.z)] ++ (start.drop 3).map fun x => x - x

end

/-! ### Scenes

A scene with everything that it is made of.  An export reads a scene, and while it runs it also
changes it: it moves through the frames, and hides and shows things in order to evaluate others. -/

structure Image where
  name : String
  format : String := "PNG"
  path : String := ""
  packed : Bool := false
  deriving DecidableEq, Repr, Inhabited

structure Material (α : Type) where
  name : String
  tree : Option (NodeTree α)
  diffuse : List α
  metallic : α
  specular : α
  roughness : α

structure Scene (α : Type) where
  name : String := "Scene"
  timing : Timing := {}
  frame : Int := 1
  engine : String := "CYCLES"
  version : Version := {}
  active : Option ObjectId := none
  images : Array Image := #[]
  materials : Array (Material α) := #[]
  actions : Array (Action α) := #[]
  meshes : Array (Mesh α) := #[]
  objects : Array (Object α) := #[]

namespace Scene

variable {α : Type}

def object (s : Scene α) (id : ObjectId) : Except Failure (Object α) :=
  need .outOfRange s.objects[id]?

def children (s : Scene α) (id : ObjectId) : List ObjectId :=
  (List.range s.objects.size).filter fun i => (s.objects[i]?.bind (·.parent)) == some id

/-- The objects above an object, the nearest first, up to a height. -/
def climb (s : Scene α) : Nat → ObjectId → List ObjectId
  | 0, _ => []
  | height + 1, id =>
    match s.objects[id]?.bind (·.parent) with
    | none => []
    | some parent => parent :: s.climb height parent

def ancestors (s : Scene α) (id : ObjectId) : List ObjectId :=
  s.climb s.objects.size id

def updateObject (s : Scene α) (id : ObjectId) (f : Object α → Object α) : Scene α :=
  { s with objects := s.objects.modify id f }

/-- The transform of an object relative to its parent, at the current frame. -/
def localTransform (s : Scene α) (o : Object α) : Placement α :=
  o.localTransform.atFrame s.frame

def dataMesh? (s : Scene α) (o : Object α) : Option (Mesh α) :=
  match o.data with
  | .mesh (some id) => s.meshes[id]?
  | _ => none

def shapeKeys? (s : Scene α) (o : Object α) : Option (ShapeKeys α) :=
  (s.dataMesh? o).bind (·.shapeKeys)

end Scene

end SceneExport
