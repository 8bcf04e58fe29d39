import SceneExport.Shader.Library
import SceneExport.Text.Wrap
import SceneExport.Shader.Tree

/-!
# Shader code

The lines of a shader, the scripts that they are put together to, and the shader code of one node
while it is written: its lines, the names that were given out, and what its sockets are bound to.

A value socket is bound to a variable.  A surface socket is bound to a closure, which all that
are linked to it share: when one of them renames the variables of the closure, the others see
the new names.  Closures are therefore kept in a store of their own (`Workspace.closures`).
-/

namespace SceneExport

/-! ### Lines of shader code

Shader code is a list of lines.  In an expression the variables stand apart from the text around
them, so that what a line reads and sets can be told without reading its text. -/

inductive Piece where
  | text (s : String)
  | var (id : String)
  /-- The texture of the node that the line belongs to. -/
  | sampler
  deriving DecidableEq, Repr, Inhabited

/-- The text of a piece; a texture that has no name yet is left out. -/
def Piece.render : Piece → String
  | .text s => s
  | .var id => id
  | .sampler => ""

abbrev Expr := List Piece

namespace Expr

def render (e : Expr) : String :=
  String.join (e.map Piece.render)

def reads (e : Expr) : List String :=
  e.filterMap fun
    | .var id => some id
    | _ => none

def bindSampler (name : String) (e : Expr) : Expr :=
  e.map fun
    | .sampler => .text name
    | p => p

def text (s : String) : Expr :=
  [.text s]

def var (id : String) : Expr :=
  [.var id]

end Expr

inductive Line where
  | comment (text : String)
  | blank
  /-- A new variable, with a value or without. -/
  | declare (type id : String) (value : Option Expr)
  /-- A new value for a variable; `closed` lines carry their semicolon. -/
  | assign (target : String) (value : Expr) (closed : Bool)
  | call (function : String) (args : List Expr) (closed : Bool)
  | statement (value : Expr) (closed : Bool)
  /-- A line that was given as text. -/
  | raw (text : String)
  deriving DecidableEq, Repr, Inhabited

namespace Line

def close (closed : Bool) : String :=
  if closed then ";" else ""

def render : Line → String
  | .comment text => "// " ++ text
  | .blank => "\n"
  | .declare type id none => type ++ " " ++ id
  | .declare type id (some value) => type ++ " " ++ id ++ " = " ++ value.render
  | .assign target value closed => target ++ " = " ++ value.render ++ close closed
  | .call function args closed =>
    function ++ "(" ++ Text.joinWith ", " (args.map Expr.render) ++ ")" ++ close closed
  | .statement value closed => value.render ++ close closed
  | .raw text => text

def reads : Line → List String
  | .declare _ _ (some value) => value.reads
  | .assign _ value _ => value.reads
  | .call _ args _ => args.flatMap Expr.reads
  | .statement value _ => value.reads
  | _ => []

/-- Give the texture of a line its name, which stands for `placeholder` in a text. -/
def bindSampler (placeholder : Option String) (name : String) : Line → Line
  | .declare type id value => .declare type id (value.map (·.bindSampler name))
  | .assign target value closed => .assign target (value.bindSampler name) closed
  | .call function args closed => .call function (args.map (·.bindSampler name)) closed
  | .statement value closed => .statement (value.bindSampler name) closed
  | .raw text =>
    match placeholder with
    | some p => .raw (Text.replaceAll p name text)
    | none => .raw text
  | line => line

end Line

/-! ### Shader scripts

A script is put together from declarations, library functions and the lines of its two
functions, `vertex` and `fragment`.  Long lines are wrapped.

`ShaderScript.addOutput` ends the fragment function: it hands the properties of the surface to
the renderer, and leaves those that need more than the scene has as comments. -/

inductive TextureUse where
  | plain
  | albedo
  | normal
  deriving DecidableEq, Repr, Inhabited

def TextureUse.hint : TextureUse → String
  | .plain => ""
  | .albedo => ": hint_albedo"
  | .normal => ": hint_normal"

/-- A texture that shader code looks up.  No two textures are the same, even if their images
are. -/
structure Texture where
  /-- Tells textures apart. -/
  key : Nat
  image : Option ImageId
  use : TextureUse := .plain
  /-- What stands for the texture in lines given as text. -/
  placeholder : Option String := none
  deriving DecidableEq, Repr, Inhabited

structure ShadingFlags where
  transparent : Bool := false
  glass : Bool := false
  invViewMat : Bool := false
  invModelMat : Bool := false
  uvOrTangent : Bool := false
  transmission : Bool := false
  boundingBox : Bool := false
  deriving DecidableEq, Repr, Inhabited

def ShadingFlags.names (f : ShadingFlags) : List String :=
  [("aabb_tex_coord_used", f.boundingBox), ("glass", f.glass),
    ("inv_model_mat_used", f.invModelMat), ("inv_view_mat_used", f.invViewMat),
    ("transmission_used", f.transmission), ("transparent", f.transparent),
    ("uv_or_tangent_used", f.uvOrTangent)].filterMap fun (name, on) =>
      if on then some name else none

def ShadingFlags.ofNames (names : List String) : ShadingFlags :=
  { transparent := names.contains "transparent"
    glass := names.contains "glass"
    invViewMat := names.contains "inv_view_mat_used"
    invModelMat := names.contains "inv_model_mat_used"
    uvOrTangent := names.contains "uv_or_tangent_used"
    transmission := names.contains "transmission_used"
    boundingBox := names.contains "aabb_tex_coord_used" }

def ShadingFlags.join (a b : ShadingFlags) : ShadingFlags :=
  { transparent := a.transparent || b.transparent
    glass := a.glass || b.glass
    invViewMat := a.invViewMat || b.invViewMat
    invModelMat := a.invModelMat || b.invModelMat
    uvOrTangent := a.uvOrTangent || b.uvOrTangent
    transmission := a.transmission || b.transmission
    boundingBox := a.boundingBox || b.boundingBox }

/-- The variable for the map from the world to the model. -/
def invModelMat : String := "INV_MODEL_MAT"

/-- The variable for the map from the view to the world. -/
def invViewMat : String := "INV_VIEW_MAT"

/-- The variable for the place of a point in the bounding box. -/
def boundingUvw : String := "AABB_UVW"

/-- The parameter for the corner of the bounding box. -/
def boundingPosition : String := "AABB_POS"

def boundingSize : String := "AABB_SIZE"

structure ShaderScript where
  functions : List String := []
  uniforms : List String := []
  varyings : List String := []
  vertex : List Line := []
  fragment : List Line := []
  textures : List (Texture × String) := []
  flags : ShadingFlags := {}
  deriving DecidableEq, Repr, Inhabited

namespace ShaderScript

def addFunction (s : ShaderScript) (name : String) : ShaderScript :=
  if s.functions.contains name then s else { s with functions := s.functions ++ [name] }

def addFunctions (s : ShaderScript) (names : List String) : ShaderScript :=
  names.foldl addFunction s

def addFragment (s : ShaderScript) (lines : List Line) : ShaderScript :=
  { s with fragment := s.fragment ++ lines }

/-- The name of a texture in the script; a new texture gets the next number. -/
def textureName (s : ShaderScript) (t : Texture) : String × ShaderScript :=
  match s.textures.find? (·.1.key == t.key) with
  | some (_, name) => (name, s)
  | none =>
    let name := "texture_" ++ toString s.textures.length
    (name, { s with textures := s.textures ++ [(t, name)] })

def bindTexture (t : Texture) (work : ShaderScript × List Line) : ShaderScript × List Line :=
  let (name, s) := work.1.textureName t
  (s, work.2.map (Line.bindSampler t.placeholder name))

/-- Give several textures their names in the script and in some lines. -/
def bindTextures (s : ShaderScript) (ts : List Texture) (lines : List Line) :
    ShaderScript × List Line :=
  ts.foldl (fun work t => bindTexture t work) (s, lines)

def imageTextures (s : ShaderScript) : List (ImageId × String) :=
  s.textures.filterMap fun (t, name) => t.image.map (·, name)

/-! ### The surface -/

/-- The properties that are handed to the renderer as they are. -/
def plainOutputs : List SurfaceProperty :=
  [.albedo, .sssStrength, .specular, .metallic, .roughness, .clearcoat, .clearcoatGloss,
    .emission, .normal]

def outputName (p : SurfaceProperty) : String :=
  p.name.toUpper

def matrixLines (flags : ShadingFlags) : List Line :=
  (if flags.invModelMat then
    [.declare "mat4" invModelMat (some (.text "inverse(WORLD_MATRIX)"))] else [])
  ++ (if flags.invViewMat then
    [.declare "mat4" invViewMat (some (.text "inverse(INV_CAMERA_MATRIX)"))] else [])
  ++ [.blank]

def boundingLine : Line :=
  .assign boundingUvw
    (.text ("mat3(vec3(1, 0, 0), vec3(0, 0, 1), vec3(0, -1, 0))"
      ++ "                    * ((VERTEX - " ++ boundingPosition ++ ") * (1.0 / "
      ++ boundingSize ++ "))")) false

def addBoundingBox (s : ShaderScript) : ShaderScript :=
  if s.flags.boundingBox then
    { s with
      uniforms := s.uniforms
        ++ ["uniform vec3 " ++ boundingPosition, "uniform vec3 " ++ boundingSize]
      varyings := s.varyings ++ ["varying smooth vec3 " ++ boundingUvw]
      vertex := boundingLine :: s.vertex }
  else s

/-- A line, or a comment with the line under a remark when it is of no use yet. -/
def useful (isUseful : Bool) (remark : String) (lines : List Line) : List Line :=
  if isUseful then lines else .comment remark :: lines.map fun l => .comment l.render

def transmissionLines (flags : ShadingFlags) (c : Closure) : List Line :=
  match c.get? .transmission with
  | none => []
  | some v =>
    useful flags.transmission "uncomment it when you need it"
      [.assign "TRANSMISSION" [.text "vec3(1.0, 1.0, 1.0) * ", .var v] true]

/-- The roughness of a matt surface, which only one way of shading uses. -/
def orenNayarLines (c : Closure) : List Line :=
  match c.get? .orenNayarRoughness with
  | none => []
  | some v =>
    useful false "uncomment it only when you set diffuse mode to oren nayar"
      [.assign "ROUGHNESS" (.var v) true]

def tangentLines (flags : ShadingFlags) (c : Closure) : List Line :=
  match c.get? .tangent with
  | none => []
  | some v =>
    useful flags.uvOrTangent "uncomment it when you are modifing TANGENT"
      [.assign "TANGENT" [.text "normalize(cross(cross(", .var v, .text ", NORMAL), NORMAL))"] true,
        .assign "BINORMAL" (.text "cross(TANGENT, NORMAL)") true]

def anisotropyLines (flags : ShadingFlags) (c : Closure) : List Line :=
  match c.get? .anisotropy with
  | none => []
  | some v =>
    useful flags.uvOrTangent "uncomment it when you have tangent(UV) set"
      [.assign "ANISOTROPY" (.var v) true]

def refractionOffset : String := "refraction_offset"

def addTransparency (s : ShaderScript) (c : Closure) : ShaderScript :=
  match s.flags.transparent, c.get? .alpha with
  | true, some alpha =>
    let s := match s.flags.glass, c.get? .ior with
      | true, some ior =>
        let s := s.addFunction "refraction_fresnel"
        let s := { s with
          uniforms := s.uniforms ++ ["uniform vec2 " ++ refractionOffset ++ " = vec2(0.2, 0.2)"] }
        s.addFragment
          [.call "refraction_fresnel" [.text "VERTEX", .text "NORMAL", .var ior, .var alpha] false,
            .statement [.text ("EMISSION += textureLod(SCREEN_TEXTURE, SCREEN_UV - NORMAL.xy * "
              ++ refractionOffset ++ " , ROUGHNESS).rgb * (1.0 - "), .var alpha, .text ")"] false]
      | _, _ =>
        s.addFragment
          [.statement [
            .text "EMISSION += textureLod(SCREEN_TEXTURE, SCREEN_UV, ROUGHNESS).rgb * (1.0 - ",
            .var alpha, .text ")"] false]
    s.addFragment [.statement [.text "ALBEDO *= ", .var alpha] false,
      .assign "ALPHA" (.text "1.0") true]
  | _, _ => s

def plainLines (c : Closure) : List Line :=
  plainOutputs.filterMap fun p =>
    (c.get? p).map fun v => Line.assign (outputName p) (.var v) false

def addOutput (s : ShaderScript) (c : Closure) : ShaderScript :=
  let s := { s with fragment := matrixLines s.flags ++ s.fragment }
  let s := s.addBoundingBox
  let s := s.addFragment (plainLines c ++ transmissionLines s.flags c ++ orenNayarLines c
    ++ tangentLines s.flags c ++ anisotropyLines s.flags c)
  s.addTransparency c

/-! ### The text -/

def maxWidth : Nat := 80

/-- What ends a line: a comment ends with the line, a statement with a semicolon. -/
def lineEnd (line : String) : String :=
  if Text.startsWith line "//" then "\n"
  else if Text.endsWith line "\n" then ""
  else if Text.endsWith line ";" then "\n"
  else ";\n"

/-- A long line on several lines, each after the first moved in twice. -/
def wrapped (line : String) : Except Failure String := do
  let mark := if Text.startsWith line "\\" then "\\ " else ""
  let pieces := Text.wrap (maxWidth - 1) line
  let first ← need .outOfRange pieces.head?
  let last ← need .outOfRange pieces.getLast?
  let middle := (pieces.drop 1).dropLast
  return "\t" ++ first ++ "\n" ++ String.join (middle.map fun p => "\t\t" ++ mark ++ p ++ "\n")
    ++ "\t\t" ++ mark ++ last ++ lineEnd line

def lineText (line : String) : Except Failure String :=
  if maxWidth < line.length then wrapped line else .ok ("\t" ++ line ++ lineEnd line)

def functionText (name : String) (lines : List Line) : Except Failure String := do
  let texts ← lines.mapM fun l => lineText l.render
  return "void " ++ name ++ " () \x7b\n" ++ String.join texts ++ "\x7d\n"

def renderMode : String :=
  "render_mode blend_mix, depth_draw_always, cull_back, diffuse_burley, specular_schlick_ggx;\n"

def functionTexts (names : List String) : Except Failure String := do
  let functions ← names.mapM fun name => need .missingPart (Library.find? name)
  let sorted := functions.mergeSort fun f g => decide (f.name ≤ g.name)
  return String.join (sorted.map fun f => f.code ++ "\n")

def render (s : ShaderScript) : Except Failure String := do
  let functions ← functionTexts s.functions
  let vertex ← functionText "vertex" s.vertex
  let fragment ← functionText "fragment" s.fragment
  let textures := s.textures.map fun (t, name) =>
    "uniform sampler2D " ++ name ++ t.use.hint ++ ";\n"
  return "shader_type spatial;\n" ++ renderMode ++ "\n"
    ++ String.join (s.uniforms.map (· ++ ";\n")) ++ String.join textures ++ "\n"
    ++ String.join (s.varyings.map (· ++ ";\n")) ++ functions
    ++ vertex ++ "\n" ++ fragment

end ShaderScript

/-! ### Names in shader code

The name of the library function for a node is made of the kind of node, in words divided by
underscores (`snakeCase`), and of the setting that selects between several functions.  Names of
sockets become parts of identifiers (`identifierPart`). -/

namespace Names

/-- Put an underscore in front of every capital that begins a lower-case word. -/
def splitWords : List Char → List Char
  | c :: u :: l :: rest =>
    if c != '\n' && u.isUpper && l.isLower then
      c :: '_' :: u :: l ::
        (rest.takeWhile Char.isLower ++ splitWords (rest.dropWhile Char.isLower))
    else c :: splitWords (u :: l :: rest)
  | cs => cs
termination_by cs => cs.length
decreasing_by
  · have := (List.dropWhile_suffix (l := rest) Char.isLower).length_le
    simp only [List.length_cons]
    omega
  · simp

/-- Put an underscore between a lower-case letter or digit and a capital. -/
def splitCapitals : List Char → List Char
  | a :: b :: rest =>
    if (a.isLower || a.isDigit) && b.isUpper then a :: '_' :: b :: splitCapitals rest
    else a :: splitCapitals (b :: rest)
  | cs => cs

def snakeCase (s : String) : String :=
  Text.lower (String.ofList (splitCapitals (splitWords s.toList)))

def identifierPart (s : String) : String :=
  Text.lower (Text.without (fun c => !Text.isWord c) s)

variable {α : Type} [Scalar α]

def ofNode (n : ShaderNode α) : Except Failure String := do
  let base := snakeCase (String.ofList (n.id.toList.drop "Shader".length))
  match n.id with
  | "ShaderNodeMath" =>
    let operation ← n.textSetting "operation"
    let clamp ← n.setting "use_clamp"
    return base ++ "_" ++ Text.lower operation ++ (if clamp.isOn then "_clamp" else "_no_clamp")
  | "ShaderNodeVectorMath" =>
    let operation ← n.textSetting "operation"
    return base ++ "_" ++ Text.lower operation
  | "ShaderNodeNormalMap" =>
    let space ← n.textSetting "space"
    return base ++ "_" ++ Text.lower space
  | _ => return base

def hasFunction (n : ShaderNode α) : Except Failure Bool := do
  return (Library.find? (← ofNode n)).isSome

def findFunction (n : ShaderNode α) : Except Failure ShaderFunction := do
  match Library.find? (← ofNode n) with
  | some f => return f
  | none =>
    throw (.unsupported ("Node with type '" ++ n.id ++ "' at '" ++ n.name ++ "' is not supported"))

end Names

/-! ### Drafts -/

inductive Binding where
  | variable (id : String)
  | closure (id : Nat)
  deriving DecidableEq, Repr, Inhabited

def Binding.expr : Binding → Expr
  | .variable id => Expr.var id
  | .closure _ => []

def Binding.closure? : Binding → Except Failure Nat
  | .closure id => .ok id
  | .variable _ => .error .missingPart

def Binding.name : Binding → String
  | .variable id => id
  | .closure _ => ""

structure Draft where
  /-- The number of the node in the order of evaluation. -/
  index : Int
  variableCount : Nat := 0
  inputs : Nat := 0
  outputs : Nat := 0
  functions : List String := []
  textures : List Texture := []
  inputLines : List Line := [.comment "input sockets handling"]
  outputLines : List Line := [.comment "output sockets definitions"]
  code : List Line := [.blank]
  defined : List String := []
  flags : ShadingFlags := {}
  inBindings : List (Nat × Binding) := []
  outBindings : List (Nat × Binding) := []
  deriving Inhabited

/-- A draft, the closures of all nodes, and what was said. -/
structure Workspace where
  draft : Draft
  closures : Array Closure := #[]
  log : Log := #[]

abbrev Drafting := EStateM Failure Workspace

namespace Drafting

instance : MonadLift (Except Failure) Drafting where
  monadLift
    | .ok a => pure a
    | .error e => throw e

def change (f : Draft → Draft) : Drafting Unit :=
  modify fun w => { w with draft := f w.draft }

def warn (text : String) : Drafting Unit :=
  modify fun w => { w with log := w.log.push ⟨.warning, text⟩ }

/-! ### Names -/

def nodePart (d : Draft) : String :=
  "node" ++ toString d.index ++ "_"

/-- The number of the next input or output name. -/
def socketPart (isOutput : Bool) : Drafting String := do
  let d := (← get).draft
  if isOutput then
    change fun d => { d with outputs := d.outputs + 1 }
    return "out" ++ toString d.outputs ++ "_"
  else
    change fun d => { d with inputs := d.inputs + 1 }
    return "in" ++ toString d.inputs ++ "_"

def socketId (isOutput : Bool) (name : String) : Drafting String := do
  let part ← socketPart isOutput
  return nodePart (← get).draft ++ part ++ Names.identifierPart name

def shaderId (isOutput : Bool) (name property : String) : Drafting String := do
  let part ← socketPart isOutput
  return nodePart (← get).draft ++ Names.identifierPart (name ++ "_" ++ part ++ property)

def variableId (hint : String) : Drafting String := do
  let d := (← get).draft
  change fun d => { d with variableCount := d.variableCount + 1 }
  return nodePart d ++ "var" ++ toString d.variableCount ++ "_" ++ Names.identifierPart hint

/-! ### Lines -/

def emit (line : Line) : Drafting Unit :=
  change fun d => { d with code := d.code ++ [line] }

def assign (target : String) (value : Expr) : Drafting Unit :=
  emit (.assign target value false)

def call (function : String) (args : List Expr) : Drafting Unit := do
  change fun d =>
    { d with functions := if d.functions.contains function then d.functions
                          else d.functions ++ [function] }
  emit (.call function args true)

/-! ### Changes of space -/

def yupToZup (id : String) : Drafting Unit :=
  call "space_convert_yup_to_zup" [.var id]

def zupToYup (id : String) : Drafting Unit :=
  call "space_convert_zup_to_yup" [.var id]

def spaceFunction (isDirection : Bool) (name : String) : String :=
  (if isDirection then "dir_space_convert_" else "point_space_convert_") ++ name

def viewToModel (id : String) (isDirection : Bool) : Drafting Unit := do
  change fun d => { d with flags := { d.flags with invViewMat := true, invModelMat := true } }
  call (spaceFunction isDirection "view_to_model")
    [.var id, .text SceneExport.invModelMat, .text SceneExport.invViewMat]

def modelToView (id : String) (isDirection : Bool) : Drafting Unit :=
  call (spaceFunction isDirection "model_to_view")
    [.var id, .text "INV_CAMERA_MATRIX", .text "WORLD_MATRIX"]

def viewToWorld (id : String) (isDirection : Bool) : Drafting Unit := do
  change fun d => { d with flags := { d.flags with invViewMat := true } }
  call (spaceFunction isDirection "view_to_world") [.var id, .text SceneExport.invViewMat]

def worldToView (id : String) (isDirection : Bool) : Drafting Unit :=
  call (spaceFunction isDirection "world_to_view") [.var id, .text "INV_CAMERA_MATRIX"]

/-- A variable for the matrix that a library function makes of a vector. -/
def matrixOf (hint function : String) (vector : Expr) : Drafting String := do
  let id ← variableId hint
  emit (.declare "mat4" id none)
  call function [vector, .var id]
  return id

def locationMatrix (vector : Expr) : Drafting String :=
  matrixOf "location" "location_to_mat4" vector

def rotationMatrix (vector : Expr) : Drafting String :=
  matrixOf "rotation" "euler_angle_XYZ_to_mat4" vector

def scaleMatrix (vector : Expr) : Drafting String :=
  matrixOf "scale" "scale_to_mat4" vector

/-! ### Sockets -/

def convertValue (target source : SocketType) (value : Expr) : Option Expr :=
  if target = source then some value
  else
    match target, source with
    | .value, .vector =>
      some ([.text "dot("] ++ value ++ [.text ", vec3(0.333333, 0.333333, 0.333333))"])
    | .value, .rgba =>
      some ([.text "dot("] ++ value ++ [.text ".rgb, vec3(0.2126, 0.7152, 0.0722))"])
    | .vector, .value =>
      some ([.text "vec3("] ++ value ++ [.text ", "] ++ value ++ [.text ", "] ++ value
        ++ [.text ")"])
    | .rgba, .value =>
      some ([.text "vec4("] ++ value ++ [.text ", "] ++ value ++ [.text ", "] ++ value
        ++ [.text ", "] ++ value ++ [.text ")"])
    | .rgba, .vector => some ([.text "vec4("] ++ value ++ [.text ", 1.0)"])
    | .vector, .rgba => some (value ++ [.text ".rgb"])
    | _, _ => none

def linkedValue (targetId : String) (target : SocketType) (sourceId : String)
    (source : SocketType) : Except Failure Expr :=
  match convertValue target source (.var sourceId) with
  | some value => .ok value
  | none => .error (.unmet ("Cannot link sockets '" ++ targetId ++ "' and '" ++ sourceId ++ "'"))

def bindInput (i : Nat) (b : Binding) : Drafting Unit :=
  change fun d => { d with inBindings := (i, b) :: d.inBindings.filter (·.1 != i) }

def bindOutput (i : Nat) (b : Binding) : Drafting Unit :=
  change fun d => { d with outBindings := (i, b) :: d.outBindings.filter (·.1 != i) }

def inputBinding (i : Nat) : Drafting Binding := do
  need .missingKey ((← get).draft.inBindings.lookup i)

def outputBinding (i : Nat) : Drafting Binding := do
  need .missingKey ((← get).draft.outBindings.lookup i)

def markDefined (id : String) : Drafting Unit :=
  change fun d =>
    { d with defined := if d.defined.contains id then d.defined else id :: d.defined }

def declareInput (type id : String) (value : Expr) : Drafting Unit :=
  change fun d => { d with inputLines := d.inputLines ++ [.declare type id (some value)] }

def newClosure (c : Closure) : Drafting Nat := do
  let w ← get
  set { w with closures := w.closures.push c }
  return w.closures.size

def closure (id : Nat) : Drafting Closure := do
  need .missingPart (← get).closures[id]?

def setProperty (id : Nat) (p : SurfaceProperty) (name : String) : Drafting Unit :=
  modify fun w => { w with closures := w.closures.modify id (·.set p name) }

/-- Mix two closures, property by property.  A closure without an alpha is solid next to one
that has an alpha; any other property that only one has is kept as it is. -/
def mixClosures (outputName : String) (a b : Closure) (factor : Expr) : Drafting Closure := do
  let mut mixed : Closure := []
  for p in SurfaceProperty.all do
    let id ← shaderId true outputName p.name
    match a.get? p, b.get? p with
    | none, none => pure ()
    | some x, some y =>
      assign id ([.text "mix(", .var x, .text ", ", .var y, .text ", "] ++ factor ++ [.text ")"])
      mixed := mixed.set p id
    | some x, none =>
      if p = .alpha then
        assign id ([.text "mix(", .var x, .text ", 1.0, "] ++ factor ++ [.text ")"])
        mixed := mixed.set p id
      else mixed := mixed.set p x
    | none, some y =>
      if p = .alpha then
        assign id ([.text "mix(1.0, ", .var y, .text ", "] ++ factor ++ [.text ")"])
        mixed := mixed.set p id
      else mixed := mixed.set p y
  return mixed

end Drafting

end SceneExport
