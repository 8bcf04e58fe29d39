import SceneExport.Export.Session

/-!
# Materials of objects

Materials are found in the project or made from those of the scene.
-/

namespace SceneExport

/-! ### Projects

A game project is a directory with a project file.  The project that a scene is exported to is
the nearest one at or above the place of the scene; the root directory is not a project. -/

def projectFile : String := "project.godot"

namespace FileStore

/-- Whether the project file is in a directory. -/
def isProject (s : FileStore) (directory : String) : Bool :=
  s.isFile (Path.join directory projectFile)

/-- The nearest project at or above a directory.  The search ends at the root and where climbing
leads no further than the directory before (`last`). -/
def climbToProject (s : FileStore) (last : Option String) (directory : String) :
    Except Failure String :=
  if s.isProject directory then .ok directory
  else
    let above := Path.directory directory
    if above = "/" ∨ some above = last then
      .error (.unsupported "Unable to find Godot project file")
    else s.climbToProject (some above) above
-- Each step up makes the path shorter; only the first one may leave it as it is.
termination_by 2 * directory.length + if last = some directory then 0 else 1
decreasing_by
  next hgo =>
  rw [if_pos trivial]
  rcases Path.directory_shorter directory with hlt | heq
  · omega
  · rw [if_neg fun hlast => hgo (.inr ((congrArg some heq).trans hlast.symm)), heq]
    omega

/-- The project that a path lies in. -/
def projectDirectory (s : FileStore) (path : String) : Except Failure String :=
  s.climbToProject none path

end FileStore

/-- The project that a scene is exported to.  Once it was found it stays, whatever is
written since. -/
def ExportM.projectDirectory {α : Type} (settings : Settings) : ExportM α String := do
  let s ← get
  match s.project with
  | some directory => return directory
  | none =>
    let directory ← s.files.projectDirectory settings.path
    set { s with project := some directory }
    return directory

/-! ### Materials that exist already

A material that was made by hand in the project takes the place of the one in the scene, if it
is in a file with the name of the material.  The first line of the file tells its type. -/

variable {α : Type} [Scalar α]

def materialTypes : List String := ["SpatialMaterial", "ShaderMaterial"]

namespace FileStore

def firstLine (text : String) : String :=
  (Text.split '\n' text).headD ""

/-- The files with a material of a given name below a directory, each with a type that its first
line names. -/
def materialsNamed (s : FileStore) (directory name : String) :
    Except Failure (List (String × String)) := do
  let found ← (s.findNamed directory (name ++ ".tres")).mapM fun path => do
    let text ← need .fileNotFound (s.read? path)
    return (materialTypes.filter (Text.contains (firstLine text))).map (path, ·)
  return found.flatten

end FileStore

namespace ExportM

def searchDirectory? (settings : Settings) : ExportM α (Option String) := do
  match settings.materialSearch with
  | .nowhere => return none
  | .exportDirectory => return some (Path.directory settings.path)
  | .projectDirectory => return some (← projectDirectory settings)

/-- The first file of a material where the settings say to look. -/
def findMaterial? (settings : Settings) (name : String) : ExportM α (Option (String × String)) := do
  match ← searchDirectory? settings with
  | none => return none
  | some directory =>
    let found ← (← get).files.materialsNamed directory name
    if 1 < found.length then
      warn ("Multiple materials found for " ++ name)
    return found.head?

end ExportM

/-! ### Spatial materials

A material with a fixed set of properties.  They are taken from the material, and from the
shader node at its surface where that is of a kind that has such properties. -/

namespace SocketValue

def quantity : SocketValue α → Except Failure (Quantity α)
  | .real x => .ok (.real x)
  | .int n => .ok (.whole n)
  | _ => .error .wrongKind

def components : SocketValue α → Except Failure (List α)
  | .list xs | .vector xs | .angles xs => .ok xs
  | .matrix [] => .ok []
  | _ => .error .wrongKind

/-- Whether a colour is not black. -/
def hasLight (v : SocketValue α) : Except Failure Bool := do
  return ((← v.components).take 3).any fun x => !(x == 0)

/-- The colour of a value with gamma correction; a single number is a single channel. -/
def gammaCorrected : SocketValue α → Except Failure (Value α)
  | .real x => .ok (.ofChannel (Channel.corrected x))
  | v => do return .color (← SceneExport.gammaCorrected (← v.components))

def hundredth : SocketValue α → Except Failure (Value α)
  | .vector xs => .ok (.vector (xs.map (· / 100.0)))
  | v => do return .real (← (← v.quantity).dividedBy (.whole 100))

end SocketValue

namespace SpatialMaterial

def principled (value : String → Except Failure (SocketValue α)) :
    Except Failure (Record (Value α)) := do
  let positive (q : Quantity α) : Value α := .flag ((Quantity.whole 0).isBelow q)
  let base ← gammaCorrected (← (← value "Base Color").components)
  let opacity ← value "Alpha"
  let alpha ← opacity.quantity
  let metallic ← value "Metallic"
  let specular ← value "Specular"
  let roughness ← value "Roughness"
  let anisotropic ← value "Anisotropic"
  let anisotropy ← anisotropic.quantity
  let clearcoat ← value "Clearcoat"
  let coat ← clearcoat.quantity
  let coatRoughness ← (← (← value "Clearcoat Roughness").quantity).toScalar
  let emission ← value "Emission"
  let glows ← emission.hasLight
  let light ← emission.gammaCorrected
  let subsurface ← value "Subsurface"
  let scatter ← subsurface.quantity
  return [("albedo_color", .rgba (base.toList.map .real ++ [.ofSocket opacity])),
    ("flags_transparent", .flag (alpha.isBelow (.whole 1))),
    ("metallic", .ofSocket metallic),
    ("metallic_specular", .ofSocket specular),
    ("roughness", .ofSocket roughness),
    ("anisotropy_enabled", positive anisotropy),
    ("anisotropy", .ofSocket anisotropic),
    ("clearcoat_enabled", positive coat),
    ("clearcoat", .ofSocket clearcoat),
    ("clearcoat_gloss", .real (1 - coatRoughness)),
    ("emission_enabled", .flag glows),
    ("emission_energy", .real (if glows then 1 else 0)),
    ("emission", light),
    ("subsurf_scatter_enabled", positive scatter),
    ("subsurf_scatter_strength", .ofSocket subsurface)]

def emissive (value : String → Except Failure (SocketValue α)) :
    Except Failure (Record (Value α)) := do
  let energy ← (← value "Strength").hundredth
  let light ← (← value "Color").gammaCorrected
  return [("emission_enabled", .flag true), ("emission_energy", energy), ("emission", light)]

/-- The properties of a matt surface; the roughness takes the place of the colour. -/
def diffuse (value : String → Except Failure (SocketValue α)) :
    Except Failure (Record (Value α)) := do
  let _ ← (← value "Color").gammaCorrected
  let albedo ← (← value "Roughness").gammaCorrected
  return [("albedo_color", albedo)]

def ofNode (n : ShaderNode α) : Except Failure (Record (Value α)) :=
  let value (name : String) : Except Failure (SocketValue α) := do
    return (← n.input (← n.inputNamed name)).value
  match n.type with
  | "BSDF_PRINCIPLED" => principled value
  | "EMISSION" => emissive value
  | "BSDF_DIFFUSE" => diffuse value
  | _ => .ok []

def surfaceNode? (t : NodeTree α) : Except Failure (Option (ShaderNode α)) := do
  match t.outputNodes.head? with
  | none => return none
  | some output =>
    let input ← (← t.node output).inputNamed "Surface"
    match t.linksTo output input with
    | [] => return none
    | link :: _ => return some (← t.node link.fromNode)

def basic (m : Material α) : Except Failure (Record (Value α)) := do
  let albedo ← gammaCorrected m.diffuse
  return [("albedo_color", .color albedo), ("metallic", .real m.metallic),
    ("metallic_specular", .real m.specular), ("roughness", .real m.roughness)]

def properties (m : Material α) : Logged (Record (Value α)) := do
  let start ← basic m
  match m.tree with
  | none => return start
  | some tree =>
    match ← surfaceNode? tree with
    | none =>
      Logged.warn ("No Surface output for " ++ m.name)
      return start
    | some node => return start.setAll (← ofNode node)

def resource (name : String) (m : Material α) : Logged (Resource α) := do
  let more ← properties m
  return more.foldl (fun r (k, v) => r.set k v) (.ofType "SpatialMaterial" name .plain)

end SpatialMaterial

/-! ### Textures

Images become files next to the exported scene: a packed image is saved there, another is copied
there. -/

def sceneDirectory : String := "/blend/"

/-- A path from the root; two slashes stand for the directory of the scene. -/
def expandPath (path : String) : String :=
  if Text.startsWith path "//" then sceneDirectory ++ String.ofList (path.toList.drop 2) else path

def Image.extensions (i : Image) : List String :=
  if i.format = "JPEG" ∨ i.format = "JPEG2000" then [".jpg", ".jpeg"]
  else ["." ++ Text.lower i.format]

/-- The name of the file for an image, which ends in a way that suits its format. -/
def Image.fileName (i : Image) : String :=
  if i.extensions.any (Text.endsWith (Text.lower i.name)) then i.name
  else i.name ++ i.extensions.headD ""

namespace ExportM

variable {α : Type} [Scalar α]

def copyFile (source target : String) : ExportM α Unit := do
  request (.copyFile source target)
  let text ← need .fileNotFound ((← get).files.read? source)
  let files ← (← get).files.write target text
  modify fun s => { s with files }

def placeImage (i : Image) (target : String) : ExportM α Unit := do
  if i.packed then
    request (.saveImage i.name target)
  else
    let source := expandPath i.path
    if Path.normalize source ≠ Path.normalize target then
      if (← get).files.hasPath source then
        copyFile source target
      else
        warn ("Texture Image '" ++ source ++ "' does not exist!")

/-- The number of the texture of an image, which is put next to the scene at first. -/
def exportTexture (settings : Settings) (id : ImageId) : ExportM α Nat := do
  match ← findExternal? (.image id) with
  | some number => return number
  | none =>
    let image ← image id
    let target := Path.join (Path.directory settings.path) image.fileName
    placeImage image target
    addExternal (.image id) target "Texture"

/-- The number of an image that stays where it is. -/
def exportImage (settings : Settings) (id : ImageId) : ExportM α Nat := do
  match ← findExternal? (.image id) with
  | some number => return number
  | none =>
    let image ← image id
    let path ← Path.relative (expandPath image.path) (Path.directory settings.path)
    addExternal (.image id) (Path.slashed path) "Image"

/-! ### Materials

A material that exists in the project is referred to.  Any other becomes a sub-resource: a
shader material if its node tree can be compiled, else a spatial material.  The sub-resource is
made for one object, because a shader can depend on the object that it is used for. -/

/-- The images that a script uses, each once and in order. -/
def scriptImages (s : ShaderScript) : List ImageId :=
  (s.imageTextures.map (·.1)).eraseDups.mergeSort fun a b => decide (a ≤ b)

/-- The number of the shader of a material's node tree and its script.  The tree is compiled
once. -/
def exportShader (settings : Settings) (id : MaterialId) (name : String) (tree : NodeTree α) :
    ExportM α (Nat × ShaderScript) := do
  if let some number ← findInternal? (.shader id) then
    match ((← get).file.internal.get? number).map Resource.detail with
    | some (.shader script) => return (number, script)
    | _ => throw .missingPart
  match ← tree.compile (← get).scene.version with
  | none =>
    throw (.unsupported ("Blender material '" ++ name ++ "' not able to export as Shader Material"))
  | some script =>
    for image in scriptImages script do
      let _ ← exportTexture settings image
    let number ← addInternal (.shader id) (.ofType "Shader" tree.name (.shader script))
    return (number, script)

def boundingParameters (o : Object α) (script : ShaderScript) :
    Except Failure (Record (Value α)) := do
  if script.flags.boundingBox then
    let box ← BoundingBox.ofCorners o.boundBox
    return [("shader_param/" ++ boundingPosition, .vector box.position.toList),
      ("shader_param/" ++ boundingSize, .vector box.size.toList)]
  else return []

def textureParameters (script : ShaderScript) : ExportM α (Record (Value α)) :=
  script.imageTextures.mapM fun (image, name) => do
    let number ← need .wrongKind (← findExternal? (.image image))
    return ("shader_param/" ++ name, .reference (.external number))

def shaderMaterial (settings : Settings) (object : ObjectId) (id : MaterialId) (shown name : String)
    (tree : NodeTree α) : ExportM α (Resource α) := do
  let (number, script) ← exportShader settings id name tree
  let bounds ← boundingParameters (← ExportM.object object) script
  let textures ← textureParameters script
  let properties := [("shader", .reference (.internal (some number)))] ++ bounds ++ textures
  return properties.foldl (fun r (k, v) => r.set k v) (.ofType "ShaderMaterial" shown .plain)

def drawsNodeTrees (engine : String) : Bool :=
  engine == "CYCLES" || engine == "BLENDER_EEVEE"

def materialResource (settings : Settings) (object : ObjectId) (id : MaterialId) (m : Material α) :
    ExportM α (Resource α) := do
  -- A resource with a name is moved to a file of its own when it is imported.
  let shown := if settings.externalMaterials then m.name else ""
  match settings.materialMode, drawsNodeTrees (← get).scene.engine, m.tree with
  | .script, true, some tree =>
    orUnsupported (shaderMaterial settings object id shown m.name tree) fun reason => do
      let spatial ← SpatialMaterial.resource shown m
      say .error (reason ++ ", in material '" ++ m.name ++ "'")
      return spatial
  | _, _, _ => SpatialMaterial.resource shown m

/-- Refer to the material of an object, which is made or found first. -/
def exportMaterial (settings : Settings) (object : ObjectId) (id : MaterialId) :
    ExportM α Reference := do
  let m ← material id
  match ← findMaterial? settings m.name with
  | some (path, type) =>
    match ← findExternal? (.material id) with
    | some number => return .external number
    | none => return .external (← addExternal (.material id) path type)
  | none =>
    let r ← materialResource settings object id m
    return .internal (some (← addInternal (.material object id) r))

end ExportM

end SceneExport
