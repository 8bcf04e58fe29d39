import SceneExport.Export.Traversal

/-!
# Exports from the menu
-/

namespace SceneExport

/-! ### Saving a scene

The version of the engine that a project is made for is in its project file, and tells which
features can be used.  A scene is exported into a file whose references are relative to the place
of the file. -/

/-- The version that is assumed if a project does not tell its own. -/
def defaultConfigVersion : Int := 3

/-- The version in a line of a project file: what follows the only `=`. -/
def lineVersion (line : String) : Except Failure Int := do
  match Text.split '=' line with
  | [_, version] => need .unusableValue (Text.integer? version)
  | _ => .error .unusableValue

/-- The version that a project file tells in its first line about it. -/
def configVersion (text : String) : Except Failure Int :=
  match (Text.split '\n' text).find? (Text.startsWith · "config_version") with
  | some line => lineVersion line
  | none => .ok defaultConfigVersion

namespace ExportM

variable {α : Type} [Scalar α]

/-- The directory of the project; a scene that is not in a project has none. -/
def projectDirectory? (settings : Settings) : ExportM α (Option String) :=
  orUnsupported (some <$> projectDirectory settings) fun _ => do
    warn "Not export to Godot project dir, disable all beta features."
    return none

/-- The version that a project in a directory is made for.  The current directory is not asked. -/
def projectVersion (directory : String) : ExportM α Int := do
  if directory.isEmpty then return defaultConfigVersion
  configVersion (← need .fileNotFound ((← get).files.read? (Path.join directory projectFile)))

def withFeatures (settings : Settings) : ExportM α Settings := do
  if !settings.useBetaFeatures then return { settings with bezierTracks := false }
  let version ← match ← projectDirectory? settings with
    | some directory => projectVersion directory
    | none => pure defaultConfigVersion
  if version < 2 then
    say .error "Godot version smaller than 3.0, not supported by this addon"
  return { settings with bezierTracks := decide (4 ≤ version) }

def writeFile (path text : String) : ExportM α Unit := do
  let files ← (← get).files.write path text
  modify fun s => { s with files }

def fixPaths (target : String) : ExportM α Unit := do
  let (file, result) := (← get).file.fixPaths target
  modify fun s => { s with file }
  result

def fileText : ExportM α String := do
  let s : Session α ← get
  (s.file.render s.scene.timing : Logged String)

def saveScene (settings : Settings) : ExportM α Unit := do
  let settings ← withFeatures settings.withGeometry
  let _ ← exportScene settings
  fixPaths settings.path
  writeFile settings.path ""
  writeFile settings.path (← fileText)

end ExportM

/-! ### The menu entry

What a user of the modelling program sees of the exporter: an entry in the menu, which exports
the scene and reports what was said. -/

/-- What the exporter asks of the modelling program when it is switched on and off, and when the
menu is drawn. -/
inductive MenuRequest where
  | register
  | unregister
  | appendEntry
  | removeEntry
  /-- An entry that runs an operator, and its text. -/
  | showEntry (operator text : String)
  deriving DecidableEq, Repr, Inhabited

namespace MenuRequest

def switchOn : List MenuRequest := [.register, .appendEntry]

def switchOff : List MenuRequest := [.unregister, .removeEntry]

def draw : List MenuRequest := [.showEntry "export_godot.escn" "Godot Engine (.escn)"]

end MenuRequest

def fileFilter : String := "*.escn"

def acceptsAnyExtension : Bool := true

inductive Outcome where
  | finished
  | cancelled
  deriving DecidableEq, Repr, Inhabited

def Outcome.word : Outcome → String
  | .finished => "FINISHED"
  | .cancelled => "CANCELLED"

/-- Export the scene from the menu.  A scene that asks for what is not supported is reported and
the export cancelled. -/
def ExportM.runOperator {α : Type} [Scalar α] (settings : Settings) :
    ExportM α (Outcome × Log) := do
  if settings.path.isEmpty then throw .noTarget
  let said (s : Session α) (before : Log) : Log := s.log.extract before.size s.log.size
  let before := (← get).log
  orUnsupported (do
    saveScene settings
    return (.finished, said (← get) before)) fun reason => do
      return (.cancelled, (said (← get) before).push ⟨.error, reason⟩)

end SceneExport
