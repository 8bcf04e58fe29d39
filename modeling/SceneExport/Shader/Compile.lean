import SceneExport.Shader.Draft

/-!
# From shader nodes to shader code

Every kind of node has a rule by which its code is written (`NodeRule`).  Its inputs are
declared first, from what is linked to them or from their own values (`bindInputs`); then the
rule writes the code and binds the outputs (`NodeRule.write`); last the variables of the outputs
are declared (`declareOutputs`).
-/

namespace SceneExport

/-- The version of the program that made the scene. -/
structure Version where
  major : Nat := 2
  minor : Nat := 83
  patch : Nat := 0
  deriving DecidableEq, Repr, Inhabited

inductive NodeRule where
  | mapping
  | imageTexture
  | textureCoordinate
  | rgb
  | mixRgb
  | normalMap
  | bump
  | reroute
  | mixShader
  | addShader
  | tangent
  | uvMap
  | value
  | geometry
  | hueSaturation
  | invert
  | surface
  | general
  | unsupported
  deriving DecidableEq, Repr, Inhabited

def NodeRule.ofId? : String → Option NodeRule
  | "ShaderNodeMapping" => some .mapping
  | "ShaderNodeTexImage" => some .imageTexture
  | "ShaderNodeTexCoord" => some .textureCoordinate
  | "ShaderNodeRGB" => some .rgb
  | "ShaderNodeMixRGB" => some .mixRgb
  | "ShaderNodeNormalMap" => some .normalMap
  | "ShaderNodeBump" => some .bump
  | "NodeReroute" => some .reroute
  | "ShaderNodeMixShader" => some .mixShader
  | "ShaderNodeAddShader" => some .addShader
  | "ShaderNodeTangent" => some .tangent
  | "ShaderNodeUVMap" => some .uvMap
  | "ShaderNodeValue" => some .value
  | "ShaderNodeNewGeometry" => some .geometry
  | "ShaderNodeHueSaturation" => some .hueSaturation
  | "ShaderNodeInvert" => some .invert
  | _ => none

def surfaceOutputs : List String := ["Emission", "BSDF", "BSSRDF"]

variable {α : Type} [Scalar α]

def NodeRule.ofNode (n : ShaderNode α) : Except Failure NodeRule := do
  match NodeRule.ofId? n.id with
  | some rule => return rule
  | none =>
    if n.outputs[0]?.any fun s => surfaceOutputs.contains s.identifier then return .surface
    if ← Names.hasFunction n then return .general
    return .unsupported

def NodeRule.isValid (r : NodeRule) : Bool :=
  r != .unsupported

/-- What later nodes need to know of a node. -/
structure Finished where
  valid : Bool
  outputs : List (Nat × Binding)
  deriving Inhabited

/-- A node, its place in its tree, and the nodes before it. -/
structure NodeContext (α : Type) where
  tree : NodeTree α
  position : Nat
  node : ShaderNode α
  version : Version
  /-- The nodes that were begun, by their positions. -/
  finished : List (Nat × Finished)

open Drafting

/-! ### Inputs -/

def NodeContext.isLinked (c : NodeContext α) (i : Nat) : Bool :=
  c.tree.isInputLinked c.position i

/-- The link that an input takes its value from, and the node and output that it comes from. -/
def NodeContext.source? (c : NodeContext α) (i : Nat) :
    Except Failure (Option (NodeLink × Finished × Socket α)) := do
  match c.tree.linksTo c.position i with
  | [] => return none
  | link :: _ =>
    let finished ← need .missingKey (c.finished.lookup link.fromNode)
    let socket ← (← c.tree.node link.fromNode).output link.fromSocket
    return some (link, finished, socket)

def defaultValue (s : Socket α) : Except Failure Expr :=
  match s.name with
  | "Normal" => .ok (.text "NORMAL")
  | "Tangent" => .ok (.text "TANGENT")
  | _ => do return .text (← s.value.code)

/-- The value of an input that is linked, unless it comes from a node that is not supported. -/
def inputValue? (c : NodeContext α) (i : Nat) (s : Socket α) (id : String) :
    Drafting (Option Expr) := do
  match ← c.source? i with
  | none => return none
  | some (link, finished, source) =>
    if finished.valid then
      match ← need .missingKey (finished.outputs.lookup link.fromSocket) with
      | .variable sourceId => return some (← linkedValue id s.type sourceId source.type)
      | .closure _ => throw .surfaceAsValue
    else
      let origin ← c.tree.node link.fromNode
      warn ("input node '" ++ origin.name ++ "' not supported,use default value for socket '"
        ++ s.name ++ "'")
      return none

def bindValueInput (c : NodeContext α) (i : Nat) (s : Socket α) : Drafting Unit := do
  let type ← s.type.codeType
  let id ← socketId false s.name
  bindInput i (.variable id)
  markDefined id
  let value ← match ← inputValue? c i s id with
    | some value => pure value
    | none => liftM (defaultValue s)
  declareInput type id value

def inputClosure? (c : NodeContext α) (i : Nat) : Drafting (Option Nat) := do
  match ← c.source? i with
  | none => return none
  | some (link, finished, source) =>
    if source.type = .shader ∧ finished.valid then
      match ← need .missingKey (finished.outputs.lookup link.fromSocket) with
      | .closure id => return some id
      | .variable _ => throw .missingPart
    else return none

/-- Declare a variable for a property of a surface input, which from now on is that of its
closure. -/
def renameProperty (id : Nat) (name : String) (p : SurfaceProperty) : Drafting Unit := do
  match (← closure id).get? p with
  | none => pure ()
  | some source =>
    let new ← shaderId false name p.name
    markDefined new
    setProperty id p new
    declareInput p.type new (.var source)

/-- Declare variables for the properties of a surface input.  Without a link the surface is
black. -/
def bindSurfaceInput (c : NodeContext α) (i : Nat) (s : Socket α) : Drafting Unit := do
  let id ← match ← inputClosure? c i with
    | some id => pure id
    | none =>
      let albedo ← shaderId false s.name SurfaceProperty.albedo.name
      declareInput "vec3" albedo (.text "vec3(0.0, 0.0, 0.0)")
      newClosure [(.albedo, albedo)]
  bindInput i (.closure id)
  for p in SurfaceProperty.all do
    renameProperty id s.name p

def bindInputs (c : NodeContext α) : Drafting Unit := do
  for (s, i) in c.node.inputs.toList.zipIdx do
    if s.type = .shader then bindSurfaceInput c i s else bindValueInput c i s

/-! ### Outputs -/

def outputVariables (s : Socket α) : Binding → Drafting (List (String × Option String))
  | .variable id =>
    if s.type = .shader then throw .missingPart
    else do return [(← s.type.codeType, some id)]
  | .closure id => do
    if s.type = .shader then
      let c ← closure id
      return SurfaceProperty.all.filterMap fun p => (c.get? p).map fun v => (p.type, some v)
    else return [(← s.type.codeType, none)]

/-- Declare a variable of an output, unless an input has it already. -/
def declareOutput (type : String) (id : Option String) : Drafting Unit := do
  match id with
  | none => throw (.unmet "")
  | some id =>
    if !Text.isIdentifier id then throw (.unmet "")
    if !(← get).draft.defined.contains id then
      markDefined id
      change fun d => { d with outputLines := d.outputLines ++ [.declare type id none] }

def boundVariables (c : NodeContext α) : Drafting (List (String × Option String)) := do
  let mut found := []
  for (s, i) in c.node.outputs.toList.zipIdx do
    match (← get).draft.outBindings.lookup i with
    | none => pure ()
    | some b => found := found ++ (← outputVariables s b)
  return found

def declareOutputs (c : NodeContext α) : Drafting Unit := do
  for (type, id) in ← boundVariables c do
    declareOutput type id

/-! ### Rules -/

def inputAt (c : NodeContext α) (i : Nat) : Drafting Binding := do
  let _ ← c.node.input i
  inputBinding i

def inputNamed (c : NodeContext α) (name : String) : Drafting Binding := do
  inputBinding (← c.node.inputNamed name)

def nameOutput (c : NodeContext α) (i : Nat) : Drafting String := do
  let s ← c.node.output i
  socketId true s.name

/-- A new variable for the output at a position, which is bound to it. -/
def bindNewOutput (c : NodeContext α) (i : Nat) : Drafting String := do
  let id ← nameOutput c i
  bindOutput i (.variable id)
  return id

def inputArguments (c : NodeContext α) : Drafting (List Expr) :=
  (List.range c.node.inputs.size).mapM fun i => do return (← inputBinding i).expr

def outputArguments (c : NodeContext α) : Drafting (List Expr) :=
  (List.range c.node.outputs.size).mapM fun i => do return .var (← bindNewOutput c i)

/-- A library function with all inputs and outputs as arguments. -/
def writeGeneral (c : NodeContext α) : Drafting Unit := do
  let f ← Names.findFunction c.node
  let inputs ← inputArguments c
  let outputs ← outputArguments c
  call f.name (inputs ++ outputs)

/-- Two surfaces mixed by a factor, into a new closure of the first output. -/
def writeMix (c : NodeContext α) (a b : Binding) (factor : Expr) : Drafting Unit := do
  let a ← closure (← a.closure?)
  let b ← closure (← b.closure?)
  let output ← c.node.output 0
  let mixed ← mixClosures output.name a b factor
  bindOutput 0 (.closure (← newClosure mixed))

def writeAddShader (c : NodeContext α) : Drafting Unit := do
  let a ← inputAt c 0
  let b ← inputAt c 1
  writeMix c a b (.text "0.5")

def writeMixShader (c : NodeContext α) : Drafting Unit := do
  let factor ← inputNamed c "Fac"
  let a ← inputAt c 1
  let b ← inputAt c 2
  writeMix c a b factor.expr

/-- The normal or tangent of a surface, which does not go through its function.  A linked value
is in the space of the world. -/
def writeDirection (c : NodeContext α) (out : Nat) (p : SurfaceProperty) (name : String) :
    Drafting Unit := do
  match c.node.inputNamed? name with
  | none => pure ()
  | some i =>
    let id := (← inputBinding i).name
    if c.isLinked i then
      zupToYup id
      worldToView id true
    setProperty out p id

def SocketValue.isZero : SocketValue α → Bool
  | .real x => x == 0
  | .int n => n == 0
  | _ => false

def surfaceFlags (c : NodeContext α) : ShadingFlags :=
  let linked (name : String) := (c.node.inputNamed? name).any c.isLinked
  { glass := c.node.id == "ShaderNodeBsdfGlass"
    transparent := c.node.id == "ShaderNodeBsdfTransparent" || c.node.id == "ShaderNodeBsdfGlass"
    uvOrTangent := linked "Tangent"
    transmission := linked "Transmission" &&
      ((c.node.inputNamed? "Transmission").bind (c.node.inputs[·]?)).any (·.value.isZero) }

/-- A surface: its function decides properties from the values of some inputs. -/
def writeSurface (c : NodeContext α) : Drafting Unit := do
  let output ← c.node.output 0
  let out ← newClosure []
  bindOutput 0 (.closure out)
  change fun d => { d with flags := d.flags.join (surfaceFlags c) }
  let f ← Names.findFunction c.node
  let properties ← need .missingPart f.properties
  let inputs ← f.sockets.mapM fun name => do return (← inputNamed c name).expr
  let outputs ← properties.mapM fun p => do
    let id ← shaderId true output.name p.name
    setProperty out p id
    return Expr.var id
  call f.name (inputs ++ outputs)
  writeDirection c out .normal "Normal"
  writeDirection c out .tangent "Tangent"

def writeReroute (c : NodeContext α) : Drafting Unit := do
  let _ ← c.node.input 0
  let _ ← c.node.output 0
  bindOutput 0 (← inputBinding 0)

def switch (s : NodeSetting α) : Expr :=
  .text (if s.isOn then "1.0" else "0.0")

def writeBump (c : NodeContext α) : Drafting Unit := do
  let f ← Names.findFunction c.node
  let mut args : List Expr := []
  for (s, i) in c.node.inputs.toList.zipIdx do
    let b ← inputBinding i
    if s.name != "Height_dx" && s.name != "Height_dy" then
      if s.name == "Normal" && c.isLinked i then
        zupToYup b.name
        worldToView b.name true
      args := args ++ [b.expr]
  let invert ← c.node.setting "invert"
  let out ← bindNewOutput c 0
  call f.name (args ++ [.text "VERTEX", switch invert, .var out])
  viewToWorld out true
  yupToZup out

def writeNormalMap (c : NodeContext α) : Drafting Unit := do
  let f ← Names.findFunction c.node
  let args ← inputArguments c
  let out ← bindNewOutput c 0
  let space ← c.node.setting "space"
  if space.isText "TANGENT" then
    call f.name (args ++ [.text "NORMAL", .text "TANGENT", .text "BINORMAL", .var out])
    viewToWorld out true
    yupToZup out
  else if space.isText "WORLD" then
    change fun d => { d with flags := { d.flags with invViewMat := true } }
    call f.name (args ++ [.text "NORMAL", .text invViewMat, .var out])
    yupToZup out
  else if space.isText "OBJECT" then
    change fun d => { d with flags := { d.flags with invViewMat := true } }
    call f.name (args ++ [.text "NORMAL", .text invViewMat, .text "WORLD_MATRIX", .var out])
    yupToZup out

def writeLinked (c : NodeContext α) (name : String) (write : String → Drafting Unit) :
    Drafting Unit := do
  let i ← c.node.outputNamed name
  if c.tree.isOutputLinked c.position i then
    write (← outputBinding i).name

/-- Coordinates for textures.  The coordinates in the bounding box also serve as the direction
of the reflection. -/
def writeTextureCoordinate (c : NodeContext α) : Drafting Unit := do
  for i in List.range c.node.outputs.size do
    if c.tree.isOutputLinked c.position i then
      let _ ← bindNewOutput c i
  writeLinked c "UV" fun id => assign id (.text "vec3(UV, 0.0)")
  writeLinked c "Window" fun id => assign id (.text "vec3(SCREEN_UV, 0.0)")
  writeLinked c "Camera" fun id => assign id (.text "vec3(VERTEX.xy, -VERTEX.z)")
  writeLinked c "Normal" fun id => do
    assign id (.text "NORMAL")
    viewToModel id true
    yupToZup id
  writeLinked c "Object" fun id => do
    assign id (.text "VERTEX")
    viewToModel id false
    yupToZup id
  writeLinked c "Reflection" fun id => do
    assign id (.text "reflect(normalize(VERTEX), NORMAL)")
    viewToModel id true
    yupToZup id
  let reflection ← c.node.outputNamed "Reflection"
  writeLinked c "Generated" fun id => do
    change fun d => { d with flags := { d.flags with boundingBox := true } }
    assign id (.text boundingUvw)
    bindOutput reflection (.variable id)

def writeRgb (c : NodeContext α) : Drafting Unit := do
  let s ← c.node.output 0
  let id ← nameOutput c 0
  assign id (.text (← s.value.code))
  bindOutput 0 (.variable id)

/-- A number.  The assignment takes the place of the variable, which no identifier can, so that
the outputs cannot be declared. -/
def writeValue (c : NodeContext α) : Drafting Unit := do
  let i ← c.node.outputNamed "Value"
  let s ← c.node.output i
  let id ← nameOutput c i
  bindOutput i (.variable (id ++ " = " ++ (← s.value.code)))

def writeMixRgb (c : NodeContext α) : Drafting Unit := do
  let factor ← inputNamed c "Fac"
  let color1 ← inputNamed c "Color1"
  let color2 ← inputNamed c "Color2"
  let blend ← c.node.textSetting "blend_type"
  assign factor.name ([.text "clamp("] ++ factor.expr ++ [.text ", 0.0, 1.0)"])
  let function ← match Library.find? ("node_mix_rgb_" ++ Text.lower blend) with
    | some f => pure f.name
    | none =>
      let note := "blend type " ++ blend ++ " not supported at " ++ c.node.name
        ++ ", fall back to blend type MIX"
      warn note
      emit (.comment note)
      pure "node_mix_rgb_mix"
  let i ← c.node.outputNamed "Color"
  let out ← nameOutput c i
  call function [factor.expr, color1.expr, color2.expr, .var out]
  if (← c.node.setting "use_clamp").isOn then
    assign out [.text "clamp(", .var out, .text ", vec4(0.0), vec4(1.0))"]
  bindOutput i (.variable out)

def textureUse (c : NodeContext α) : Except Failure TextureUse := do
  let color ← c.node.outputNamed "Color"
  if c.tree.leadsTo NodeTree.isNormalInput c.position color then return .normal
  if c.tree.leadsTo NodeTree.isAlbedoInput c.position color then return .albedo
  return .plain

def writeImageTexture (c : NodeContext α) : Drafting Unit := do
  let f ← Names.findFunction c.node
  let coordinate ← inputAt c 0
  if !c.isLinked 0 then assign coordinate.name (.text "vec3(UV, 0.0)")
  let use ← textureUse c
  let image ← need .missingPart c.node.image
  change fun d => { d with textures := d.textures ++ [{ key := c.position, image, use }] }
  let outputs ← outputArguments c
  call f.name ([coordinate.expr, [.sampler]] ++ outputs)

def NodeSetting.components : NodeSetting α → Except Failure (List α)
  | .value (.list xs) | .value (.vector xs) | .value (.angles xs) => .ok xs
  | _ => .error .wrongKind

def locationSetting (c : NodeContext α) (name : String) : Except Failure (Mat4 α) := do
  let xs ← (← c.node.setting name).components
  return Mat4.ofLocation (← Vec3.ofFirst xs)

def rotationSetting (c : NodeContext α) (name : String) : Except Failure (Mat4 α) := do
  match ← c.node.setting name with
  | .value (.angles xs) =>
    let turn ← Euler.rotation ⟨← Vec3.ofFirst xs, .xyz⟩
    return turn.toMat3.toMat4
  | _ => throw .missingPart

def scaleSetting (c : NodeContext α) (name : String) : Except Failure (Mat4 α) := do
  let xs ← (← c.node.setting name).components
  return (Mat3.diagonal (← Vec3.ofFirst xs)).toMat4

def mappingMatrix (kind : NodeSetting α) (loc rot sca : Mat4 α) : Mat4 α :=
  if kind.isText "TEXTURE" then (loc * rot * sca).inverseOrIdentity
  else if kind.isText "POINT" then loc * rot * sca
  else if kind.isText "NORMAL" then (rot * sca).inverseOrIdentity.transpose
  else rot * sca

def writeFixedMapping (c : NodeContext α) (kind : NodeSetting α) (input : Expr) (out : String) :
    Drafting Unit := do
  let loc ← locationSetting c "translation"
  let rot ← rotationSetting c "rotation"
  let sca ← scaleSetting c "scale"
  let f ← Names.findFunction c.node
  let matrix ← Literal.matrix (mappingMatrix kind loc rot sca).toRows
  let low ← (← c.node.setting "min").code
  let high ← (← c.node.setting "max").code
  let useLow ← c.node.setting "use_min"
  let useHigh ← c.node.setting "use_max"
  call f.name [input, .text matrix, .text low, .text high, switch useLow, switch useHigh, .var out]

def writeLinkedMapping (c : NodeContext α) (kind : NodeSetting α) (input : Expr) (out : String) :
    Drafting Unit := do
  let locVec ← inputAt c 1
  let rotVec ← inputAt c 2
  let scaVec ← inputAt c 3
  let loc ← locationMatrix locVec.expr
  let rot ← rotationMatrix rotVec.expr
  let sca ← scaleMatrix scaVec.expr
  let matrix ← variableId "xform_mat"
  let value : Expr :=
    if kind.isText "TEXTURE" then
      [.text "inverse(", .var loc, .text " * ", .var rot, .text " * ", .var sca, .text ")"]
    else if kind.isText "POINT" then [.var loc, .text " * ", .var rot, .text " * ", .var sca]
    else if kind.isText "NORMAL" then
      [.text "transpose(inverse(", .var rot, .text " * ", .var sca, .text "))"]
    else [.var rot, .text " * ", .var sca]
  emit (.declare "mat4" matrix (some value))
  emit (.assign out
    ([.text "(", .var matrix, .text " * vec4("] ++ input ++ [.text ", 1.0)).xyz"]) true)

/-- A mapping of coordinates.  Since version 2.81 its parts are inputs. -/
def writeMapping (c : NodeContext α) : Drafting Unit := do
  let input ← inputAt c 0
  let out ← nameOutput c 0
  let kind ← c.node.setting "vector_type"
  emit (.comment ("Mapping type: " ++ kind.note))
  if c.version.major < 2 || (c.version.major == 2 && c.version.minor < 81) then
    writeFixedMapping c kind input.expr out
  else writeLinkedMapping c kind input.expr out
  bindOutput 0 (.variable out)
  if kind.isText "NORMAL" then
    emit (.comment "Normalization for NORMAL mapping")
    assign out [.text "normalize(", .var out, .text ")"]

def writeTangent (c : NodeContext α) : Drafting Unit := do
  let direction ← c.node.setting "direction_type"
  if !direction.isText "UV_MAP" then
    warn ("tangent space Radial not supported at " ++ c.node.name)
  change fun d => { d with flags := { d.flags with uvOrTangent := true } }
  let out ← bindNewOutput c 0
  assign out (.text "TANGENT")

def writeUvMap (c : NodeContext α) : Drafting Unit := do
  change fun d => { d with flags := { d.flags with uvOrTangent := true } }
  let out ← bindNewOutput c (← c.node.outputNamed "UV")
  assign out (.text "vec3(UV, 0.0)")
  warn ("'" ++ c.node.id ++ "' use the active UV map, make sure the correct one is selected, at '"
    ++ c.node.name)

/-- A value of the surface, in the space of the world. -/
def writeGeometryValue (c : NodeContext α) (name value : String) (isDirection : Bool) :
    Drafting Unit := do
  let out ← bindNewOutput c (← c.node.outputNamed name)
  assign out (.text value)
  viewToWorld out isDirection
  yupToZup out

def writeGeometry (c : NodeContext α) : Drafting Unit := do
  writeGeometryValue c "Position" "VERTEX" false
  writeGeometryValue c "Normal" "NORMAL" true
  writeGeometryValue c "Tangent" "TANGENT" true

/-- A colour from a library function of named inputs. -/
def writeColorFunction (c : NodeContext α) (function : String) (args : List String) :
    Drafting Unit := do
  let inputs ← args.mapM fun name => do return (← inputNamed c name).expr
  let i ← c.node.outputNamed "Color"
  let out ← nameOutput c i
  call function (inputs ++ [.var out])
  bindOutput i (.variable out)

/-- Why a node is not written by a rule that does not say how. -/
def withoutRule : Failure :=
  .unmet "Not implemented"

def remarkUnsupported : Drafting Unit :=
  emit (.comment "Warn: node not supported")

def NodeRule.write (c : NodeContext α) : NodeRule → Drafting Unit
  | .mapping => writeMapping c
  | .imageTexture => writeImageTexture c
  | .textureCoordinate => writeTextureCoordinate c
  | .rgb => writeRgb c
  | .mixRgb => writeMixRgb c
  | .normalMap => writeNormalMap c
  | .bump => writeBump c
  | .reroute => writeReroute c
  | .mixShader => writeMixShader c
  | .addShader => writeAddShader c
  | .tangent => writeTangent c
  | .uvMap => writeUvMap c
  | .value => writeValue c
  | .geometry => writeGeometry c
  | .hueSaturation => writeColorFunction c "node_hsv" ["Fac", "Hue", "Saturation", "Value", "Color"]
  | .invert => writeColorFunction c "node_invert" ["Fac", "Color"]
  | .surface => writeSurface c
  | .general => writeGeneral c
  | .unsupported => remarkUnsupported

def draftNode (c : NodeContext α) (rule : NodeRule) : Drafting Unit := do
  bindInputs c
  rule.write c
  declareOutputs c

/-! ### From node trees to scripts

The nodes of a tree are taken in the order of evaluation, and the code of each is added to the
script under a comment that names it.  The closure that the material's surface is linked to ends
the script.  A tree whose surface comes from no supported node has no script. -/

/-- A script under way, and what is known of the nodes before. -/
structure Compilation where
  script : ShaderScript := {}
  closures : Array Closure := #[]
  finished : List (Nat × Finished) := []

/-- Write the draft of a node.  Its messages come after those before, even if it fails. -/
def runDraft (c : NodeContext α) (rule : NodeRule) (index : Nat) (closures : Array Closure) :
    Logged Workspace := do
  match (draftNode c rule).run { draft := { index }, closures } with
  | .ok _ w =>
    modify (· ++ w.log)
    return w
  | .error e w =>
    modify (· ++ w.log)
    throw e

def ShaderScript.addDraft (s : ShaderScript) (n : ShaderNode α) (d : Draft) : ShaderScript :=
  let (s, code) := (s.addFunctions d.functions).bindTextures d.textures d.code
  let s := s.addFragment
    ([.comment ("node: '" ++ n.name ++ "'"), .comment ("type: '" ++ n.id ++ "'")]
    ++ d.inputLines ++ d.outputLines ++ code ++ [.blank, .blank])
  { s with flags := s.flags.join d.flags }

/-- Compile the node at a position of the tree, the `index`-th in the order of evaluation. -/
def Compilation.addNode (t : NodeTree α) (version : Version) (c : Compilation)
    (position index : Nat) : Logged Compilation := do
  let node ← t.node position
  let rule ← NodeRule.ofNode node
  let begun : List (Nat × Finished) := (position, ⟨rule.isValid, []⟩) :: c.finished
  let w ← runDraft ⟨t, position, node, version, begun⟩ rule index c.closures
  return { script := c.script.addDraft node w.draft
           closures := w.closures
           finished := (position, ⟨rule.isValid, w.draft.outBindings⟩) :: c.finished }

def Compilation.surface? (t : NodeTree α) (c : Compilation) (output : Nat) :
    Except Failure (Option Closure) := do
  let input ← (← t.node output).inputNamed "Surface"
  match t.linksTo output input with
  | [] => return none
  | link :: _ =>
    let root ← need .missingKey (c.finished.lookup link.fromNode)
    if !root.valid then return none
    let binding ← need .missingKey (root.outputs.lookup link.fromSocket)
    let id ← binding.closure?
    let closure ← need .missingPart c.closures[id]?
    return some closure

/-- Compile the nodes in the order of evaluation, without the one that ends the material. -/
def NodeTree.compileNodes (t : NodeTree α) (version : Version) (output : Nat) :
    Logged Compilation := do
  let mut c : Compilation := {}
  for (position, index) in t.order.zipIdx do
    if position ≠ output then
      c ← c.addNode t version position index
  return c

def NodeTree.compile (t : NodeTree α) (version : Version) : Logged (Option ShaderScript) := do
  match ← t.outputNode? with
  | none => return none
  | some output =>
    let c ← t.compileNodes version output
    match ← c.surface? t output with
    | none => return none
    | some surface => return some (c.script.addOutput surface)

end SceneExport
