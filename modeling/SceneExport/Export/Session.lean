import SceneExport.Scene.Object

/-!
# Exports under way
-/

namespace SceneExport

/-! ### Export settings

What a user can choose for an export, with the defaults. -/

inductive AnimationMode where
  /-- Each animated node has its own player. -/
  | actions
  /-- One player at the root has all animations. -/
  | scene
  /-- The players of nodes are merged into those of the nodes above them. -/
  | squashed
  deriving DecidableEq, Repr, Inhabited

/-- The choice that a word stands for; players are merged unless a word says otherwise. -/
def AnimationMode.ofWord : String → AnimationMode
  | "ACTIONS" => .actions
  | "SCENE_ANIMATION" => .scene
  | _ => .squashed

def AnimationMode.word : AnimationMode → String
  | .actions => "ACTIONS"
  | .scene => "SCENE_ANIMATION"
  | .squashed => "SQUASHED_ACTIONS"

inductive MaterialMode where
  | none
  | spatial
  | script
  deriving DecidableEq, Repr, Inhabited

/-- The choice that a word stands for; materials are plain unless a word says otherwise. -/
def MaterialMode.ofWord : String → MaterialMode
  | "NONE" => .none
  | "SCRIPT_SHADER" => .script
  | _ => .spatial

def MaterialMode.word : MaterialMode → String
  | .none => "NONE"
  | .spatial => "SPATIAL"
  | .script => "SCRIPT_SHADER"

inductive MaterialSearch where
  | nowhere
  | exportDirectory
  | projectDirectory
  deriving DecidableEq, Repr, Inhabited

def MaterialSearch.ofWord : String → MaterialSearch
  | "EXPORT_DIR" => .exportDirectory
  | "PROJECT_DIR" => .projectDirectory
  | _ => .nowhere

def MaterialSearch.word : MaterialSearch → String
  | .nowhere => "NONE"
  | .exportDirectory => "EXPORT_DIR"
  | .projectDirectory => "PROJECT_DIR"

structure Settings where
  path : String := ""
  objectTypes : List ObjectKind := [.empty, .camera, .light, .armature, .geometry]
  onlyVisible : Bool := true
  onlySelected : Bool := false
  onlyRendered : Bool := false
  useModifiers : Bool := true
  excludeControlBones : Bool := true
  exportAnimation : Bool := true
  exportShapeKeys : Bool := true
  exportStashed : Bool := true
  useBetaFeatures : Bool := true
  externalMaterials : Bool := false
  animationMode : AnimationMode := .actions
  materialMode : MaterialMode := .script
  materialSearch : MaterialSearch := .projectDirectory
  /-- Whether curves are written with their handles, which not every engine can read. -/
  bezierTracks : Bool := false
  deriving DecidableEq, Repr, Inhabited

namespace Settings

def has (s : Settings) (k : ObjectKind) : Bool :=
  s.objectTypes.contains k

def geometryKinds : List ObjectKind := [.mesh, .curve, .surface, .metaball, .font]

/-- The settings with the class of geometry replaced by the kinds in it. -/
def withGeometry (s : Settings) : Settings :=
  if s.has .geometry then
    { s with objectTypes := s.objectTypes.filter (· != .geometry) ++ geometryKinds }
  else s

end Settings

/-! ### Options

The settings that are on or off (`Switch`) and those with a choice of words (`Choice`), by the
names under which the modelling program keeps them. -/

structure Switch where
  name : String
  isOn : Settings → Bool
  turn : Settings → Bool → Settings

def Settings.switches : List Switch :=
  [⟨"generate_external_material", (·.externalMaterials),
      fun s b => { s with externalMaterials := b }⟩,
    ⟨"use_beta_features", (·.useBetaFeatures), fun s b => { s with useBetaFeatures := b }⟩,
    ⟨"use_exclude_ctrl_bone", (·.excludeControlBones),
      fun s b => { s with excludeControlBones := b }⟩,
    ⟨"use_export_animation", (·.exportAnimation), fun s b => { s with exportAnimation := b }⟩,
    ⟨"use_export_selected", (·.onlySelected), fun s b => { s with onlySelected := b }⟩,
    ⟨"use_export_shape_key", (·.exportShapeKeys), fun s b => { s with exportShapeKeys := b }⟩,
    ⟨"use_included_in_render", (·.onlyRendered), fun s b => { s with onlyRendered := b }⟩,
    ⟨"use_mesh_modifiers", (·.useModifiers), fun s b => { s with useModifiers := b }⟩,
    ⟨"use_stashed_action", (·.exportStashed), fun s b => { s with exportStashed := b }⟩,
    ⟨"use_visible_objects", (·.onlyVisible), fun s b => { s with onlyVisible := b }⟩]

def Settings.bezierSwitch : Switch :=
  ⟨"feature_bezier_track", (·.bezierTracks), fun s b => { s with bezierTracks := b }⟩

structure Choice where
  name : String
  word : Settings → String
  choose : Settings → String → Settings

def Settings.choices : List Choice :=
  [⟨"animation_modes", (·.animationMode.word), fun s w => { s with animationMode := .ofWord w }⟩,
    ⟨"material_mode", (·.materialMode.word), fun s w => { s with materialMode := .ofWord w }⟩,
    ⟨"material_search_paths", (·.materialSearch.word), fun s w =>
      { s with materialSearch := .ofWord w }⟩]

/-! ### Files

The files that an export can read and write, each with its text.  A directory exists when a file
lies below it. -/

/-- Texts under absolute paths, in the order in which they were written. -/
abbrev FileStore := List (String × String)

namespace FileStore

def place (path : String) : String :=
  Path.normalize (Path.join "/" path)

/-- The files with given texts; of two at one place the later counts. -/
def ofEntries (entries : List (String × String)) : FileStore :=
  Record.setAll [] (entries.map fun f => (place f.1, f.2))

def read? (s : FileStore) (path : String) : Option String :=
  s.lookup (place path)

def isFile (s : FileStore) (path : String) : Bool :=
  (s.read? path).isSome

/-- The steps from a directory down to a file that lies in or below it. -/
def stepsBelow? (directory path : String) : Option (List String) :=
  if Path.leadingSlashes (place directory) = Path.leadingSlashes path then
    Text.strip? (Path.absolute directory) (Path.absolute path)
  else none

def hasPath (s : FileStore) (path : String) : Bool :=
  s.any fun f => (stepsBelow? path f.1).isSome

def write (s : FileStore) (path text : String) : Except Failure FileStore :=
  if path.isEmpty then .error .fileNotFound
  else
    let path := place path
    .ok (if s.any (·.1 == path) then s.map fun f => if f.1 == path then (path, text) else f
      else s ++ [(path, text)])

/-- The order in which directories are visited: a directory before those in it, and those in
the order of their names. -/
def visitedBefore : List String → List String → Bool
  | [], _ => true
  | _ :: _, [] => false
  | a :: as, b :: bs => if a = b then visitedBefore as bs else decide (a < b)

/-- The directory of a file as seen from another that it lies in. -/
def below? (directory path : String) : Option (List String) := do
  let rest ← stepsBelow? directory path
  if rest.isEmpty then none else some rest.dropLast

/-- The paths of all files with a name in and below a directory, in the order in which the
directories are visited. -/
def findNamed (s : FileStore) (directory name : String) : List String :=
  let found := s.filterMap fun f =>
    if Path.fileName f.1 == name then below? directory f.1 else none
  (found.mergeSort visitedBefore).map fun steps => Path.join (steps.foldl Path.join directory) name

end FileStore

/-! ### Sessions

The state of an export: the scene, the file under way, what was said, and what was asked of the
modelling program (`Request`).  State that was changed before a failure stays changed. -/

inductive Request (α : Type) where
  /-- Evaluate the geometry of an object: its active shape key, whether only that is shown, the
  modifiers that are shown, whether all layers are kept, and the position of its armature. -/
  | evaluate (object : String) (shapeKey : Int) (only : Bool) (modifiers : List (KeyPart α))
      (allLayers : Bool) (position : Option String)
  | release (object : String)
  | tangents (mesh : String)
  | normals (mesh : String)
  | triangulate (faces : Nat) (method : String)
  | update (mesh : String) (options : List String)
  | toggleEditMode (active : Option String)
  | saveImage (name path : String)
  | copyFile (source target : String)

structure Session (α : Type) where
  scene : Scene α := {}
  file : SceneFile α := {}
  files : FileStore := []
  /-- The project that the scene is exported to, once it was asked for and found. -/
  project : Option String := none
  log : Log := #[]
  requests : Array (Request α) := #[]
  /-- How many things were copied whose undefined numbers have to be known. -/
  marks : Nat := 0

abbrev ExportM (α : Type) := EStateM Failure (Session α)

namespace ExportM

variable {α : Type} [Scalar α]

instance : MonadLift (Except Failure) (ExportM α) where
  monadLift
    | .ok a => pure a
    | .error e => throw e

instance : MonadLift Logged (ExportM α) where
  monadLift step := do
    let s ← get
    match step.run s.log with
    | .ok a log =>
      set { s with log }
      return a
    | .error e log =>
      set { s with log }
      throw e

def say (level : Level) (text : String) : ExportM α Unit :=
  modify fun s => { s with log := s.log.push ⟨level, text⟩ }

def warn (text : String) : ExportM α Unit :=
  say .warning text

/-- Take a step, and another in its place if the scene asks for what is not supported.  What the
first step changed stays changed. -/
def orUnsupported {β : Type} (step : ExportM α β) (instead : String → ExportM α β) : ExportM α β :=
  fun s => match step s with
    | .error (.unsupported reason) s => instead reason s
    | result => result

def request (r : Request α) : ExportM α Unit :=
  modify fun s => { s with requests := s.requests.push r }

def newMark : ExportM α Nat :=
  modifyGet fun s => (s.marks, { s with marks := s.marks + 1 })

/-! ### The scene -/

def changeScene (f : Scene α → Scene α) : ExportM α Unit :=
  modify fun s => { s with scene := f s.scene }

def object (id : ObjectId) : ExportM α (Object α) := do
  (← get).scene.object id

def changeObject (id : ObjectId) (f : Object α → Object α) : ExportM α Unit :=
  changeScene (·.updateObject id f)

def localTransform (o : Object α) : ExportM α (Placement α) := do
  return (← get).scene.localTransform o

def material (id : MaterialId) : ExportM α (Material α) := do
  need .outOfRange (← get).scene.materials[id]?

def image (id : ImageId) : ExportM α Image := do
  need .outOfRange (← get).scene.images[id]?

/-! ### The file -/

def changeFile (f : SceneFile α → SceneFile α) : ExportM α Unit :=
  modify fun s => { s with file := f s.file }

def makeNode (name type : String) (parent : Option NodeId) (role : Role) : ExportM α NodeId := do
  let s ← get
  let (made, file) := s.file.makeNode name (.text type) parent role
  set { s with file }
  made

def writeNode (id : NodeId) : ExportM α Unit :=
  changeFile (·.write id)

def setNode (id : NodeId) (name : String) (value : Value α) : ExportM α Unit :=
  changeFile (·.setNode id name value)

def node (id : NodeId) : ExportM α (Node α) := do
  (← get).file.tree.get id

def nodePath (id : NodeId) : ExportM α String := do
  (← get).file.tree.path id

def nodeType (id : NodeId) : ExportM α String := do
  (← get).file.tree.type id

def existing (id : Option NodeId) : ExportM α NodeId :=
  need .missingPart id

def addInternal (key : InternalKey α) (r : Resource α) : ExportM α Nat := do
  let (id, file) ← (← get).file.addInternal key r
  modify fun s => { s with file }
  return id

/-- Add a sub-resource that is never looked up again. -/
def forceInternal (r : Resource α) : ExportM α Nat := do
  let s ← get
  let (id, file) := s.file.forceInternal r
  set { s with file }
  return id

def findInternal? (key : InternalKey α) : ExportM α (Option Nat) := do
  return (← get).file.internal.find? key

def addExternal (key : ExternalKey α) (path type : String) : ExportM α Nat := do
  let (id, file) ← (← get).file.addExternal key (.text path) (.text type)
  modify fun s => { s with file }
  return id

def findExternal? (key : ExternalKey α) : ExportM α (Option Nat) := do
  return (← get).file.external.find? key

end ExportM

end SceneExport
