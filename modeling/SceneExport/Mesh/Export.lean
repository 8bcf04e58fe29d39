import SceneExport.Material.Export

/-!
# Meshes

The mesh that is exported is that of the object after its modifiers, in the shape of one of its
shape keys.  In order to evaluate it the object is changed for a moment: only the shape key is
shown, and modifiers that are not to be applied are hidden.  Afterwards all is as before.

An evaluated mesh belongs to the modelling program and is released after its use.  It becomes a
sub-resource with one surface for each material, and with the shape keys of the mesh as morph
targets.  Objects with equal keys share one sub-resource.
-/

namespace SceneExport

/-! ### Keys of meshes

Two objects show the same mesh when they share their geometry and the modifiers that are applied
to it agree in every setting (`MeshKey.ofObject`).  Armature modifiers are not applied when
armatures are exported, since then the skeleton deforms the mesh. -/

section

variable {α : Type}

def Modifier.isArmature (m : Modifier α) : Bool :=
  m.type == "ARMATURE"

/-- Whether a modifier shows itself as one that lets an armature deform the geometry. -/
def Modifier.looksLikeArmature (m : Modifier α) : Bool :=
  match m.label with
  | .text label => label == "ARMATURE"
  | _ => false

/-- Whether the modifiers of an object keep its vertices, so that its shape keys fit the result. -/
def Object.keepsVertices (o : Object α) : Bool :=
  !o.modifiers.any (·.type == "SUBSURF")

def Object.appliedModifiers [Scalar α] (o : Object α) (settings : Settings) : List (Modifier α) :=
  if settings.useModifiers then
    o.modifiers.toList.filter fun m => m.shown.isOn && !(m.isArmature && settings.has .armature)
  else []

def ModifierSetting.kinds : List String :=
  ["COLLECTION", "POINTER", "BOOLEAN", "ENUM", "INT", "STRING", "FLOAT"]

def ModifierSetting.part (s : ModifierSetting α) : Except Failure (KeyPart α) :=
  if kinds.contains s.kind then .ok s.value else .error (.unmet "")

def Modifier.parts (m : Modifier α) : Except Failure (List (KeyPart α)) := do
  return m.name :: (← m.settings.mapM ModifierSetting.part)

def Object.geometry (o : Object α) (id : ObjectId) : Geometry :=
  match o.data with
  | .nothing => .nothing
  | .mesh (some mesh) => .mesh mesh
  | _ => .own id

/-- Objects with equal keys share a mesh in the file. -/
def MeshKey.ofObject [Scalar α] (settings : Settings) (type : String) (id : ObjectId)
    (o : Object α) : Except Failure (MeshKey α) := do
  let modifiers := o.appliedModifiers settings
  let parts := (← modifiers.mapM Modifier.parts).flatten
  if parts.any (·.isNested) || modifiers.any (·.name.isList) then throw .wrongKind
  return ⟨o.geometry id, type, parts⟩

end

/-! ### Evaluation of meshes -/

structure Evaluation where
  /-- The object, until it is released. -/
  object : Option ObjectId
  /-- Whether the object was evaluated, or at least that was begun. -/
  isEvaluated : Bool := false
  hasTangents : Bool := false
  deriving DecidableEq, Repr, Inhabited

def Evaluation.begun (e : Evaluation) : Evaluation :=
  { e with isEvaluated := e.isEvaluated || e.object.isSome }

variable {α : Type} [Scalar α]

def Object.targetOf? (o : Object α) (p : Modifier α → Bool) : Except Failure (Option ObjectId) :=
  match o.modifiers.toList.find? p with
  | some m => m.target.object?
  | none => .ok none

def Object.armature? (o : Object α) : Except Failure (Option ObjectId) :=
  o.targetOf? Modifier.isArmature

namespace ExportM

/-- The position of the armature that deforms an object, as its modifiers show it. -/
def armaturePosition? (o : Object α) : ExportM α (Option String) := do
  match ← o.targetOf? Modifier.looksLikeArmature with
  | none => return none
  | some id =>
    match (← object id).data with
    | .armature a => return some a.posePosition
    | _ => throw .missingPart

def activeMesh? (o : Object α) : ExportM α (Option (Mesh α)) := do
  let meshes := (← get).scene.meshes
  (o.mesh.bind (meshes[·]?)).mapM fun m =>
    (m.inShape o.activeShapeKey : Except Failure (Mesh α))

def requestMesh (id : ObjectId) (allLayers : Bool) : ExportM α (Option (Mesh α)) := do
  let o ← object id
  let position ← armaturePosition? o
  request (.evaluate o.name o.activeShapeKey o.onlyShapeKey (o.modifiers.toList.map (·.shown))
    allLayers position)
  activeMesh? o

def showModifiers (id : ObjectId) (shown : List (KeyPart α)) : ExportM α Unit :=
  changeObject id fun o =>
    { o with
      modifiers := (o.modifiers.zip shown.toArray).map fun (m, on) => { m with shown := on } }

/-- Whether triangles are calculated along with an update. -/
def updateOptions (v : Version) : List String :=
  if 2 < v.major || 80 < v.minor then [] else ["calc_loop_triangles"]

/-- Cut the faces of more than four vertices into triangles. -/
def triangulate (m : Mesh α) : ExportM α (Mesh α) := do
  let (large, small) := m.faces.partition (4 < ·)
  request (.triangulate large.length "ALTERNATE")
  request (.update m.name (updateOptions (← get).scene.version))
  return { m with faces := small ++ large.flatMap fun n => List.replicate (n - 2) 3 }

/-- Calculate the tangents of a mesh, for which its faces have four vertices at most. -/
def calculateTangents (m : Mesh α) : ExportM α (Mesh α) := do
  request (.tangents m.name)
  if m.hasManySided then
    warn ("Mesh '" ++ m.name ++ "' had n-gons and had to be triangulated to calculate tangents; "
      ++ "n-gons may look wrong.")
    let m ← triangulate m
    request (.tangents m.name)
    return m
  else return m

def withTangents (m : Mesh α) (hasTangents : Bool) : ExportM α (Mesh α) :=
  if hasTangents then calculateTangents m
  else do
    request (.normals m.name)
    return m

def evaluate (settings : Settings) (e : Evaluation) (allLayers tangents : Bool) (key : Int) :
    ExportM α (Option (Mesh α) × Evaluation) := do
  let id ← need .missingPart e.object
  let before ← object id
  changeObject id fun o => { o with onlyShapeKey := true, activeShapeKey := key }
  let shown := before.modifiers.toList.map (·.shown)
  if !settings.useModifiers then
    showModifiers id (shown.map fun _ => .flag false)
  let mesh? ← requestMesh id allLayers
  if !settings.useModifiers then
    showModifiers id shown
  let hasTangents := match mesh? with
    | some m => !m.uvs.isEmpty && !m.faces.isEmpty
    | none => false
  let mesh? ← match mesh? with
    | some m => if tangents then some <$> withTangents m hasTangents else pure (some m)
    | none => pure none
  changeObject id fun o => { o with onlyShapeKey := false, activeShapeKey := before.activeShapeKey }
  return (mesh?, { e with isEvaluated := true, hasTangents })

/-- Release an evaluated mesh; once released, an evaluation is over. -/
def release (e : Evaluation) : ExportM α Evaluation := do
  match e.object with
  | none => return e
  | some id =>
    if !e.isEvaluated then throw .missingPart
    request (.release (← object id).name)
    return { e with object := none, isEvaluated := false }

end ExportM

end SceneExport

namespace SceneExport.ExportM

/-! ### Mesh resources -/

variable {α : Type} [Scalar α]

/-- The material of the surface at a material position.  A mesh without materials has none. -/
def surfaceMaterial (settings : Settings) (id : ObjectId) (m : Mesh α) (position : Int) :
    ExportM α (Option Reference) := do
  if m.materials.isEmpty then return none
  match ← itemAt m.materials position with
  | none => return none
  | some material =>
    if settings.materialMode = .none then return none
    some <$> exportMaterial settings id material

/-- Add a triangle to the surface of its material, which is begun at its first triangle. -/
def splitTriangle (settings : Settings) (id : ObjectId) (m : Mesh α) (bones : GroupBones)
    (hasTangents : Bool) (s : MeshSplit α) (t : LoopTriangle) : ExportM α (MeshSplit α) := do
  match s.surfaceOf? t.material with
  | some surface => s.addTriangle m bones hasTangents surface t
  | none =>
    let material ← surfaceMaterial settings id m t.material
    (s.addSurface t.material material).addTriangle m bones hasTangents s.surfaces.size t

/-- One surface for each material of the triangles. -/
def splitMesh (settings : Settings) (id : ObjectId) (m : Mesh α) (bones : GroupBones)
    (hasTangents : Bool) : ExportM α (MeshSplit α) := do
  (← m.corneredTriangles).foldlM
    (fun s (t, _) => splitTriangle settings id m bones hasTangents s t) ({} : MeshSplit α)

/-- The vertices of the surfaces in the shape of a key. -/
def exportMorph (settings : Settings) (id : ObjectId) (s : MeshSplit α) (bones : GroupBones)
    (hasTangents : Bool) (key : Nat) : ExportM α (Array (Array (Option (Vertex α)))) := do
  let (mesh?, e) ← evaluate settings { object := some id } true true key
  let m ← need .missingPart mesh?
  let morph ← s.morph m bones hasTangents
  let _ ← release e
  return morph

/-- The shape keys that become morph targets, with their positions: all but the one that the
others are relative to. -/
def morphKeys (keys : ShapeKeys α) : List (ShapeKey α × Nat) :=
  keys.keys.zipIdx.filter fun k => k.2 != keys.reference

def morphProperties (keys : ShapeKeys α) : Record (Value α) :=
  [("blend_shape/names",
      .array ⟨"PoolStringArray(", ", ", ")"⟩ ((morphKeys keys).map fun k => .quoted k.1.name)),
    ("blend_shape/mode", .int 0)]

def meshResource (settings : Settings) (id : ObjectId) (m : Mesh α) (bones : GroupBones)
    (hasTangents : Bool) : ExportM α (Resource α) := do
  let split ← splitMesh settings id m bones hasTangents
  let r : Resource α := .ofType "ArrayMesh" m.name (.mesh split.places)
  let o ← object id
  let keys := ((← get).scene.shapeKeys? o).filter fun _ => settings.exportShapeKeys
  let morphs ← match keys with
    | none => pure []
    | some keys =>
      (morphKeys keys).mapM fun k => exportMorph settings id split bones hasTangents k.2
  let r := ((keys.map morphProperties).getD []).foldl (fun r (k, v) => r.set k v) r
  let surfaces := split.finish morphs (!bones.isEmpty)
  return surfaces.foldl (fun r s => r.set s.propertyName (.surface s)) r

/-- The number of the mesh of an object, if it has faces.  Vertex groups stand for bones as
`bones` says. -/
def exportMesh (settings : Settings) (id : ObjectId) (bones : GroupBones) :
    ExportM α (Option Nat) := do
  let key : InternalKey α := .mesh (← MeshKey.ofObject settings "ArrayMesh" id (← object id))
  if let some number ← findInternal? key then return some number
  let (mesh?, e) ← evaluate settings { object := some id } true true 0
  let number ← match mesh? with
    | some m =>
      if m.faces.isEmpty then pure none
      else do
        let r ← meshResource settings id m bones e.hasTangents
        some <$> addInternal key r
    | none => pure none
  let _ ← release e
  return number

end SceneExport.ExportM
