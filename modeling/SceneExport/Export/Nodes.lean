import SceneExport.Animation.Data
import SceneExport.Physics.Shape

/-!
# Nodes of objects

The nodes that stand for the objects of a scene, kind by kind.
-/

namespace SceneExport

/-! ### Empties, cameras and lights

Nodes that stand for one object each.  Cameras and lights look along another axis in the scene
file, so their transforms are corrected. -/

variable {α : Type} [Scalar α]

/-- What the importer needs to know of an empty that marks a collision shape. -/
def Object.collisionMark? (o : Object α) : Option String :=
  if Text.endsWith o.name "-colonly" || Text.endsWith o.name "-convcolonly" then
    some ("\x7b \"empty_draw_type\": \"" ++ o.emptyDisplayType ++ "\" \x7d")
  else none

def lightNodeType? : String → Option String
  | "POINT" => some "OmniLight"
  | "SPOT" => some "SpotLight"
  | "SUN" => some "DirectionalLight"
  | _ => none

def ObjectData.type? : ObjectData α → Option String
  | .light l => some l.type
  | .camera c => some c.type
  | _ => none

namespace ExportM

/-- Export an empty, or anything as an empty.  Without empties what is below it is put below its
parent. -/
def exportEmpty (settings : Settings) (id : ObjectId) (parent : Option NodeId) :
    ExportM α (Option NodeId) := do
  if !settings.has .empty then return parent
  let o ← object id
  let node ← makeNode o.name "Spatial" parent .plain
  setNode node "transform" (.transform (← localTransform o))
  if let some mark := o.collisionMark? then
    setNode node "__meta__" (.text mark)
  writeNode node
  return some node

def setAttributes {δ : Type} (node : NodeId) (data : δ) (attributes : List (Attribute δ α)) :
    ExportM α Unit :=
  attributes.forM fun a => do setNode node a.target (← a.value data)

def exportCamera (settings : Settings) (id : ObjectId) (parent : Option NodeId) :
    ExportM α NodeId := do
  let o ← object id
  let node ← makeNode o.name "Camera" parent .camera
  let camera ← match o.data with
    | .camera c => pure c
    | _ => throw .missingPart
  setAttributes node camera CameraData.attributes
  setNode node "projection" (.int (if camera.type = "PERSP" then 0 else 1))
  setNode node "fov" (.real (Scalar.degrees camera.angle))
  setNode node "transform" (.transform (← (← localTransform o).directional))
  writeNode node
  exportAnimation settings (.data id) (some node)
  return node

/-- Make the node of a light, if it is of a type that is supported.  What has such a type but is no
light has no attributes for the node. -/
def makeLight (o : Object α) (parent : Option NodeId) : ExportM α (Option NodeId) := do
  match lightNodeType? (← need .missingPart o.data.type?) with
  | none =>
    warn (o.name ++ " light is not supported. Use Point, Spot or Sun")
    return none
  | some type =>
    let node ← makeNode o.name type parent .light
    let light ← match o.data with
      | .light l => pure l
      | _ => throw .missingPart
    setAttributes node light (LightData.attributes type)
    setNode node "transform" (.transform (← (← localTransform o).directional))
    setNode node "light_negative" (.flag (light.energy < 0))
    setNode node "shadow_enabled" (.flag (light.useShadow && light.castShadow))
    writeNode node
    return some node

def exportLight (settings : Settings) (id : ObjectId) (parent : Option NodeId) :
    ExportM α (Option NodeId) := do
  let node ← makeLight (← object id) parent
  exportAnimation settings (.data id) node
  return node

end ExportM

end SceneExport

namespace SceneExport.ExportM

/-! ### Mesh nodes

A node that shows a mesh.  An object with a rigid body gets the nodes of its physics first, and
its mesh is put below them; an object drawn as wires is a collision shape only. -/

variable {α : Type} [Scalar α]

def setPosition (armature : ObjectId) (position : String) : ExportM α Unit :=
  changeObject armature fun o =>
    match o.data with
    | .armature a => { o with data := .armature { a with posePosition := position } }
    | _ => o

/-- Take a step while an armature is at rest, so that its pose does not move the mesh. -/
def atRest {β : Type} (armature : ObjectId) (step : ExportM α β) : ExportM α β := do
  let before := (← (← object armature).armature).posePosition
  setPosition armature "REST"
  let result ← step
  setPosition armature before
  return result

/-- The number of the mesh of an object.  If armatures are exported, the vertex groups stand for
the bones of the object's armature. -/
def exportSkinnedMesh (settings : Settings) (id : ObjectId) : ExportM α (Option Nat) := do
  let o ← object id
  match ← if settings.has .armature then o.armature? else pure none with
  | none => exportMesh settings id []
  | some armature =>
    let numbers ← (← get).scene.boneNumbers settings armature
    atRest armature (exportMesh settings id (o.groupBones numbers))

def setOwnMaterials (settings : Settings) (id : ObjectId) (o : Object α) (node : NodeId)
    (surfaces : List (Int × Nat)) : ExportM α Unit := do
  for (slot, index) in o.slots.zipIdx do
    match slot.link == "OBJECT", slot.material, surfaces.lookup (index : Int) with
    | true, some material, some surface =>
      if settings.materialMode ≠ .none then
        setNode node ("material/" ++ toString surface)
          (.reference (← exportMaterial settings id material))
    | _, _, _ => pure ()

def meshSurfaces (number : Nat) : ExportM α (List (Int × Nat)) := do
  let s : Session α ← get
  match (s.file.internal.get? number).map Resource.detail with
  | some (.mesh surfaces) => return surfaces
  | _ => throw .missingPart

def showMesh (settings : Settings) (id : ObjectId) (o : Object α) (node : NodeId) :
    ExportM α Unit := do
  if let some number ← exportSkinnedMesh settings id then
    setNode node "mesh" (.reference (.internal (some number)))
    setNode node "visible" (.flag o.visible)
    setOwnMaterials settings id o node (← meshSurfaces number)

def animateShapeKeys (settings : Settings) (o : Object α) (node : NodeId) : ExportM α Unit := do
  if settings.exportShapeKeys then
    if let .mesh (some mesh) := o.data then
      if ((← get).scene.meshes[mesh]?.bind (·.shapeKeys)).isSome then
        exportAnimation settings (.shapeKeys mesh) (some node)

def exportInstance (settings : Settings) (id : ObjectId) (o : Object α) (parent : Option NodeId) :
    ExportM α NodeId := do
  let node ← makeNode o.name "MeshInstance" parent .plain
  showMesh settings id o node
  -- The transform of a body is that of its collision shape.
  let transform ← if o.hasPhysics then pure .identity else localTransform o
  setNode node "transform" (.transform transform)
  writeNode node
  animateShapeKeys settings o node
  return node

def exportMeshNode (settings : Settings) (id : ObjectId) (parent : Option NodeId) :
    ExportM α NodeId := do
  let o ← object id
  if o.hasPhysics then
    let collision ← exportPhysics settings id parent
    if o.displayType == "WIRE" then return collision
    exportInstance settings id o (some collision)
  else exportInstance settings id o parent

end SceneExport.ExportM

namespace SceneExport

/-! ### Curves

A curve becomes a path, with a mesh below it that shows its thickness.  The handles of its
points are written relative to them. -/

variable {α : Type} [Scalar α]

/-- The change of axes as a matrix that is multiplied from the right. -/
def curveAxes : Mat3 α :=
  ⟨⟨1, 0, 0⟩, ⟨0, 0, -1⟩, ⟨0, 1, 0⟩⟩

/-- The points of a spline, with the first again at the end if it is closed. -/
def Spline.path (s : Spline α) : Except Failure (List (SplinePoint α)) :=
  if s.cyclic then do return s.points ++ [← need .outOfRange s.points.head?]
  else .ok s.points

/-- A vector with the second axis up.  A component that it does not have counts nothing, but it has
at least one and no more than three. -/
def curveTurned : List α → Except Failure (List α)
  | [x, y, z] => .ok (Mat3.applyLeft ⟨x, y, z⟩ curveAxes).toList
  | xs => [Axis.x, .y, .z].mapM fun c => Rows.dot xs ((curveAxes : Mat3 α).col c).toList

def vectorMinus (xs ys : List α) : Except Failure (List α) :=
  if xs.length = ys.length then .ok (List.zipWith (· - ·) xs ys) else .error .unusableValue

def SplinePoint.triple (p : SplinePoint α) : Except Failure (List (List α)) := do
  let left ← curveTurned (← vectorMinus p.left p.position)
  let right ← curveTurned (← vectorMinus p.right p.position)
  return [left, right, ← curveTurned p.position]

def Spline.resource (s : Spline α) (name : String) : Except Failure (Resource α) := do
  let points ← s.path
  let triples ← points.mapM SplinePoint.triple
  let numbers := triples.flatten.flatten
  return (Resource.ofType "Curve3D" name .plain).set "_data"
    (.map [("points", .array ⟨"PoolVector3Array(", ", ", ")"⟩ (numbers.map .real)),
      ("tilts", .array ⟨"PoolRealArray(", ", ", ")"⟩ (points.map fun p => .real p.tilt))])

namespace ExportM

def exportSpline (id : ObjectId) (curve : CurveData α) : ExportM α Nat := do
  let first ← need .outOfRange curve.splines.head?
  let r ← first.resource curve.name
  match ← findInternal? (.spline id 0) with
  | some number => return number
  | none => addInternal (.spline id 0) r

def exportCurve (settings : Settings) (id : ObjectId) (parent : Option NodeId) :
    ExportM α NodeId := do
  let o ← object id
  let curve ← match o.data with
    | .curve c => pure c
    | _ => throw .missingPart
  let path ← makeNode o.name "Path" parent .plain
  setNode path "transform" (.transform (← localTransform o))
  writeNode path
  for (spline, index) in curve.splines.zipIdx do
    if spline.type = "BEZIER" then
      let number ← exportSpline id curve
      if curve.active = some index then
        setNode path "curve" (.reference (.internal (some number)))
    let mesh ← exportMeshNode settings id (some path)
    -- The path has the transform already.
    setNode mesh "transform" (.transform .identity)
  return path

end ExportM

/-! ### Particles

Particles are shown as many copies of one mesh.  Each particle system becomes a resource with
the transforms of its particles; the node refers to that of the active system. -/

/-- How a particle is turned: a quarter turn about each axis on top of its own rotation, with the
first and the third axis exchanged. -/
def particleTurn (rotation : Quat α) : Quat α :=
  let quarter (axis : Vec3 α) : Quat α := .ofAxisAngle axis (Scalar.radians 90.0)
  let q := (quarter ⟨0, 0, 1⟩ * (quarter ⟨0, 1, 0⟩ * (quarter ⟨1, 0, 0⟩ * rotation))).normalize
  ⟨q.w, q.z, q.y, q.x⟩

def particleTransform (location : Vec3 α) (rotation : Quat α) (size : α) : Mat4 α :=
  let scale (axis : Vec3 α) : Mat4 α := .scaling size axis
  .ofLocation (location - ⟨0, 0, 1⟩) * (particleTurn rotation).toMat3.toMat4 * scale ⟨1, 0, 0⟩
    * scale ⟨0, 1, 0⟩ * scale ⟨0, 0, 1⟩

/-- The transform of a particle, which needs a rotation and a location in space. -/
def Particle.transform (p : Particle α) : Except Failure (Mat4 α) := do
  let rotation ← need .outOfRange (Quat.ofList? (p.rotation.take 4))
  let location ← need .unusableValue (Vec3.ofList? p.location)
  return particleTransform location rotation p.size

namespace ParticleSystem

/-- The object that is copied: the first of the collection, or the object chosen.  Without either
the object of the system before (`previous`) is taken. -/
def copied? (s : ParticleSystem α) (previous : Option ObjectId) :
    Except Failure (Option ObjectId) := do
  let first ← match s.collection with
    | some objects => need .outOfRange objects.head?
    | none => pure none
  return first.or (s.object.or previous)

/-- The placements of the particles, as numbers in the order of the file. -/
def transforms (s : ParticleSystem α) : Except Failure String := do
  let texts ← s.particles.mapM fun p => do
    return Text.joinWith ", " ((Value.transformNumbers (← p.transform)).map Scalar.fileText)
  return Text.joinWith "," texts

/-- The resource of a particle system whose copies have a mesh with a number. -/
def resource (s : ParticleSystem α) (mesh : Option Nat) : Except Failure (Resource α) := do
  return ((((Resource.ofType "MultiMesh" s.name .plain).set "transform_format" (.int 1)).set
    "instance_count" (.int s.particles.length)).set "mesh" (.reference (.internal mesh))).set
    "transform_array" (.text ("PoolVector3Array(" ++ (← s.transforms) ++ ")"))

end ParticleSystem

namespace ExportM

/-- The number of the resource of a system, which is made once. -/
def exportSystem (id : ObjectId) (index : Nat) (s : ParticleSystem α) (mesh : Option Nat) :
    ExportM α Nat := do
  match ← findInternal? (.particles id index) with
  | some number => return number
  | none => addInternal (.particles id index) (← s.resource mesh)

/-- Export the particles of an object.  Of several nodes only the last is written. -/
def exportParticles (settings : Settings) (id : ObjectId) (parent : Option NodeId) :
    ExportM α NodeId := do
  let o ← object id
  let mut copied : Option ObjectId := none
  let mut active : Option Nat := none
  let mut last : Option NodeId := none
  for (s, index) in o.particles.zipIdx do
    copied ← s.copied? copied
    last ← some <$> makeNode s.name "MultiMeshInstance" parent .plain
    let mesh ← exportMesh settings (← need .undecided copied) []
    let number ← exportSystem id index s mesh
    if o.activeParticles = some index then active := some number
  let node ← need .undecided last
  setNode node "multimesh" (.reference (.internal active))
  setNode node "visible" (.flag o.visible)
  writeNode node
  return node

end ExportM

end SceneExport
