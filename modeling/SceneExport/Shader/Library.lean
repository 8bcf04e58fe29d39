import SceneExport.Text.Split

/-!
# The function library

The functions that shader code can call.  A function is kept in parts, its parameters in the rows in
which they are laid out, and its code is put together from them (`ShaderFunction.code`).
-/

namespace SceneExport

/-! ### Surface properties

What a surface shader decides about a point of a surface.  A `Closure` holds, for some of the
properties, the variable of the shader code that has the value. -/

inductive SurfaceProperty where
  | albedo
  | alpha
  | sssStrength
  | specular
  | metallic
  | roughness
  | orenNayarRoughness
  | clearcoat
  | clearcoatGloss
  | anisotropy
  | transmission
  | ior
  | emission
  | normal
  | tangent
  deriving DecidableEq, Repr, Inhabited

namespace SurfaceProperty

def all : List SurfaceProperty :=
  [.albedo, .alpha, .sssStrength, .specular, .metallic, .roughness, .orenNayarRoughness,
    .clearcoat, .clearcoatGloss, .anisotropy, .transmission, .ior, .emission, .normal, .tangent]

def name : SurfaceProperty → String
  | .albedo => "albedo"
  | .alpha => "alpha"
  | .sssStrength => "sss_strength"
  | .specular => "specular"
  | .metallic => "metallic"
  | .roughness => "roughness"
  | .orenNayarRoughness => "oren_nayar_roughness"
  | .clearcoat => "clearcoat"
  | .clearcoatGloss => "clearcoat_gloss"
  | .anisotropy => "anisotropy"
  | .transmission => "transmission"
  | .ior => "ior"
  | .emission => "emission"
  | .normal => "normal"
  | .tangent => "tangent"

def ofName? (name : String) : Option SurfaceProperty :=
  all.find? (·.name == name)

def type : SurfaceProperty → String
  | .albedo | .emission | .normal | .tangent => "vec3"
  | _ => "float"

end SurfaceProperty

abbrev Closure := List (SurfaceProperty × String)

namespace Closure

def get? (c : Closure) (p : SurfaceProperty) : Option String :=
  c.lookup p

def set (c : Closure) (p : SurfaceProperty) (id : String) : Closure :=
  (p, id) :: c.filter (·.1 != p)

end Closure

/-! ### Shader functions -/

inductive Passing where
  | plain
  | input
  | inputOutput
  | output
  deriving DecidableEq, Repr, Inhabited

def Passing.word : Passing → Option String
  | .plain => none
  | .input => some "in"
  | .inputOutput => some "inout"
  | .output => some "out"

structure Parameter where
  passing : Passing := .plain
  type : String
  name : String
  deriving DecidableEq, Repr, Inhabited

def Parameter.render (p : Parameter) : String :=
  match p.passing.word with
  | some word => word ++ " " ++ p.type ++ " " ++ p.name
  | none => p.type ++ " " ++ p.name

structure ShaderFunction where
  name : String
  /-- The parameters, one list for each line of the head. -/
  rows : List (List Parameter)
  /-- How far the second and later lines of the head are moved in. -/
  indent : Nat := 8
  /-- The lines of the body, with their indentation. -/
  body : String
  /-- The input sockets whose values a surface function takes. -/
  sockets : List String := []
  /-- The surface properties that a surface function decides. -/
  properties : Option (List SurfaceProperty) := none
  deriving DecidableEq, Repr, Inhabited

namespace ShaderFunction

def parameters (f : ShaderFunction) : List Parameter :=
  f.rows.flatten

/-- The types of the parameters that are given a value; of one that says how it is passed, the
word that says so. -/
def inputs (f : ShaderFunction) : List String :=
  (f.parameters.filter (·.passing != .output)).map fun p => p.passing.word.getD p.type

def outputs (f : ShaderFunction) : List String :=
  (f.parameters.filter (·.passing == .output)).map (·.type)

def parameterText (f : ShaderFunction) : String :=
  let rows := f.rows.map fun row => Text.joinWith ", " (row.map Parameter.render)
  Text.joinWith (",\n" ++ String.ofList (List.replicate f.indent ' ')) rows

def code (f : ShaderFunction) : String :=
  "\nvoid " ++ f.name ++ "(" ++ f.parameterText ++ ") \x7b\n"
    ++ f.body ++ "\n\x7d\n"

end ShaderFunction

/-! ### Parameters -/

namespace Parameter

def float (name : String) : Parameter := { type := "float", name }

def vec3 (name : String) : Parameter := { type := "vec3", name }

def vec4 (name : String) : Parameter := { type := "vec4", name }

def mat4 (name : String) : Parameter := { type := "mat4", name }

def input (type name : String) : Parameter := { passing := .input, type, name }

def inout (type name : String) : Parameter := { passing := .inputOutput, type, name }

def out (type name : String) : Parameter := { passing := .output, type, name }

end Parameter

end SceneExport

namespace SceneExport.Library

/-! ### Surface shaders

The shaders that decide the properties of a surface, each from the values of some sockets. -/

def surface : List ShaderFunction :=
  [ { name := "node_bsdf_principled"
      rows := [[.vec4 "color", .float "subsurface", .vec4 "subsurface_color"],
        [.float "metallic", .float "specular", .float "roughness", .float "clearcoat"],
        [.float "clearcoat_roughness", .float "anisotropy", .float "transmission"],
        [.float "IOR", .out "vec3" "albedo", .out "float" "sss_strength_out"],
        [.out "float" "metallic_out", .out "float" "specular_out"],
        [.out "float" "roughness_out", .out "float" "clearcoat_out"],
        [.out "float" "clearcoat_gloss_out", .out "float" "anisotropy_out"],
        [.out "float" "transmission_out", .out "float" "ior"]]
      body := "    metallic = clamp(metallic, 0.0, 1.0);
    transmission = clamp(transmission, 0.0, 1.0);

    subsurface = subsurface * (1.0 - metallic);

    albedo = mix(color.rgb, subsurface_color.rgb, subsurface);
    sss_strength_out = subsurface;
    metallic_out = metallic;
    specular_out = pow((IOR - 1.0)/(IOR + 1.0), 2)/0.08;
    roughness_out = roughness;
    clearcoat_out = clearcoat * (1.0 - transmission);
    clearcoat_gloss_out = 1.0 - clearcoat_roughness;
    anisotropy_out = clamp(anisotropy, 0.0, 1.0);
    transmission_out = (1.0 - transmission) * (1.0 - metallic);
    ior = IOR;"
      sockets := ["Base Color", "Subsurface", "Subsurface Color", "Metallic", "Specular",
        "Roughness", "Clearcoat", "Clearcoat Roughness", "Anisotropic", "Transmission", "IOR"]
      properties := some [.albedo, .sssStrength, .metallic, .specular, .roughness, .clearcoat,
        .clearcoatGloss, .anisotropy, .transmission, .ior] },
    { name := "node_emission"
      rows := [[.vec4 "emission_color", .float "strength"],
        [.out "vec3" "emission_out", .out "float" "alpha_out"]]
      body := "    emission_out = emission_color.rgb * strength;
    alpha_out = emission_color.a;"
      sockets := ["Color", "Strength"]
      properties := some [.emission, .alpha] },
    { name := "node_bsdf_diffuse"
      rows := [[.vec4 "color", .float "roughness", .out "vec3" "albedo"],
        [.out "float" "specular_out", .out "float" "oren_nayar_roughness_out"]]
      body := "    albedo = color.rgb;
    specular_out = 0.5;
    oren_nayar_roughness_out = roughness;"
      sockets := ["Color", "Roughness"]
      properties := some [.albedo, .specular, .orenNayarRoughness] },
    { name := "node_bsdf_glossy"
      rows := [[.vec4 "color", .float "roughness", .out "vec3" "albedo"],
        [.out "float" "metallic_out", .out "float" "roughness_out"]]
      body := "    albedo = color.rgb;
    roughness_out = roughness;
    metallic_out = 1.0;"
      sockets := ["Color", "Roughness"]
      properties := some [.albedo, .metallic, .roughness] },
    { name := "node_bsdf_transparent"
      rows := [[.vec4 "color", .out "float" "alpha"]]
      body := "    alpha = clamp(1.0 - dot(color.rgb, vec3(0.3333334)), 0.0, 1.0);"
      sockets := ["Color"]
      properties := some [.alpha] },
    { name := "node_bsdf_glass"
      rows := [[.vec4 "color", .float "roughness", .float "IOR", .out "vec3" "albedo"],
        [.out "float" "alpha", .out "float" "specular_out", .out "float" "roughness_out"],
        [.out "float" "transmission_out", .out "float" "ior"]]
      body := "    albedo = color.rgb;
    alpha = 0.0;
    specular_out = pow((IOR - 1.0)/(IOR + 1.0), 2)/0.08;
    roughness_out = roughness;
    transmission_out = 0.0;
    ior = IOR;"
      sockets := ["Color", "Roughness", "IOR"]
      properties := some [.albedo, .alpha, .specular, .roughness, .transmission, .ior] }]

/-! ### Colours

Taking colours apart, putting them together and changing them. -/

def color : List ShaderFunction :=
  [ { name := "node_rgb_to_bw"
      rows := [[.vec4 "color", .out "float" "result"]]
      body := "    result = color.r * 0.2126 + color.g * 0.7152 + color.b * 0.0722;" },
    { name := "node_separate_xyz"
      rows := [[.vec3 "in_vec", .out "float" "x", .out "float" "y", .out "float" "z"]]
      body := "    x = in_vec.x;
    y = in_vec.y;
    z = in_vec.z;" },
    { name := "node_separate_rgb"
      rows := [[.vec4 "color", .out "float" "r", .out "float" "g", .out "float" "b"]]
      body := "    r = color.r;
    g = color.g;
    b = color.b;" },
    { name := "node_combine_rgb"
      rows := [[.float "r", .float "g", .float "b", .out "vec4" "color"]]
      body := "    color = vec4(r, g, b, 1.0);" },
    { name := "node_hsv"
      rows := [[.float "fac", .float "in_hue", .float "in_saturation",
          .float "in_value"],
        [.vec4 "in_color", .out "vec4" "out_color"]]
      indent := 24
      body := "    
    vec3 rgb = in_color.rgb;
    vec4 K = vec4(0.0, -1.0 / 3.0, 2.0 / 3.0, -1.0);
    vec4 p = mix(vec4(rgb.bg, K.wz), vec4(rgb.gb, K.xy), step(rgb.b, rgb.g));
    vec4 q = mix(vec4(p.xyw, rgb.r), vec4(rgb.r, p.yzx), step(p.x, rgb.r));

    float d = q.x - min(q.w, q.y);
    float e = 1.0e-10;
    vec3 hsv = vec3(abs(q.z + (q.w - q.y) / (6.0 * d + e)), d / (q.x + e), q.x);
    
    hsv.x = hsv.x + in_hue - 0.5;
    hsv.y = clamp(hsv.y * in_saturation, 0.0, 1.0);
    hsv.z = clamp(hsv.z * in_value, 0.0, 1.0);
    
    K = vec4(1.0, 2.0 / 3.0, 1.0 / 3.0, 3.0);
    vec3 p2 = abs(fract(hsv.xxx + K.xyz) * 6.0 - K.www);
    rgb = hsv.z * mix(K.xxx, clamp(p2 - K.xxx, 0.0, 1.0), hsv.y);
    
    out_color.rgb = mix(in_color.rgb, rgb, fac);
    out_color.a = in_color.a;" },
    { name := "node_invert"
      rows := [[.float "fac", .vec4 "in_color"],
        [.out "vec4" "out_color"]]
      indent := 24
      body := "    
    out_color = mix(in_color, vec4(1.0) - in_color, fac);
    out_color.a = in_color.a;" },
    { name := "node_gamma"
      rows := [[.vec4 "color", .float "gamma", .out "vec4" "out_color"]]
      body := "    out_color = color
    if (out_color.r > 0.0) \x7b
        out_color.r = pow(color.r, gamma);
    \x7d
    if (out_color.g > 0.0) \x7b
        out_color.g = pow(color.g, gamma);
    \x7d
    if (out_color.b > 0.0) \x7b
        out_color.b = pow(color.b, gamma);
    \x7d" }]

/-! ### Blending colours

One way of blending two colours for each function. -/

def blending (name : String) (indent : Nat) (body : String) : ShaderFunction :=
  { name
    rows := [[.float "fac", .vec4 "in_color1", .vec4 "in_color2"],
      [.out "vec4" "out_color"]]
    indent
    body }

def blend : List ShaderFunction :=
  [blending "node_mix_rgb_mix" 22 "    out_color = mix(in_color1, in_color2, fac);
    out_color.a = in_color1.a;",
    blending "node_mix_rgb_add" 22 "    out_color = mix(in_color1, in_color1 + in_color2, fac);
    out_color.a = in_color1.a;",
    blending "node_mix_rgb_subtract" 27 "    out_color = mix(in_color1, in_color1 - in_color2, fac);
    out_color.a = in_color1.a;",
    blending "node_mix_rgb_multiply" 27 "    out_color = mix(in_color1, in_color1 * in_color2, fac);
    out_color.a = in_color1.a;",
    blending "node_mix_rgb_divide" 25 "    float fac_cpl = 1.0 - fac;
    out_color = in_color1;
    if (in_color2.r != 0.0) \x7b
        out_color.r = fac_cpl * in_color1.r +  fac * in_color1.r / in_color2.r;
    \x7d
    if (in_color2.g != 0.0) \x7b
        out_color.g = fac_cpl * in_color1.g +  fac * in_color1.g / in_color2.g;
    \x7d
    if (in_color2.b != 0.0) \x7b
        out_color.b = fac_cpl * in_color1.b +  fac * in_color1.b / in_color2.b;
    \x7d",
    blending "node_mix_rgb_difference" 29
      "    out_color = mix(in_color1, abs(in_color1 - in_color2), fac);
    out_color.a = in_color1.a;",
    blending "node_mix_rgb_darken" 25 "    out_color.rgb = min(in_color1.rgb, in_color2.rgb * fac);
    out_color.a = in_color1.a;",
    blending "node_mix_rgb_lighten" 26 "    out_color.rgb = max(in_color1.rgb, in_color2.rgb * fac);
    out_color.a = in_color1.a;"]

/-! ### Textures

Looking up images, placing them, and surface detail that comes from images. -/

def texture : List ShaderFunction :=
  [ { name := "node_bump"
      rows := [[.float "strength", .float "dist", .float "height", .vec3 "normal"],
        [.vec3 "surf_pos", .float "invert", .out "vec3" "out_normal"]]
      indent := 15
      body := "    if (invert != 0.0) \x7b
        dist *= -1.0;
    \x7d
    vec3 dPdx = dFdx(surf_pos);
    vec3 dPdy = dFdy(surf_pos);

    /* Get surface tangents from normal. */
    vec3 Rx = cross(dPdy, normal);
    vec3 Ry = cross(normal, dPdx);

    /* Compute surface gradient and determinant. */
    float det = dot(dPdx, Rx);
    float absdet = abs(det);

    float dHdx = dFdx(height);
    float dHdy = dFdy(height);
    vec3 surfgrad = dHdx * Rx + dHdy * Ry;

    strength = max(strength, 0.0);

    out_normal = normalize(absdet * normal - dist * sign(det) * surfgrad);
    out_normal = normalize(strength * out_normal + (1.0 - strength) * normal);" },
    { name := "node_normal_map_tangent"
      rows := [[.float "strength", .vec4 "color", .vec3 "normal"],
        [.vec3 "tangent", .vec3 "binormal", .out "vec3" "out_normal"]]
      body := "    vec3 signed_color = vec3(2.0, -2.0, -2.0) * (color.xyz - vec3(0.5));
    vec3 tex_normal = signed_color.x * tangent +
                      signed_color.y * binormal +
                      signed_color.z * normal;
    out_normal = strength * tex_normal + (1.0 - strength) * normal;" },
    { name := "node_normal_map_world"
      rows := [[.float "strength", .vec4 "color", .vec3 "view_normal"],
        [.mat4 "inv_view_mat", .out "vec3" "out_normal"]]
      body := "    vec3 tex_normal = vec3(2.0, -2.0, -2.0) * (color.xzy - vec3(0.5));
    vec3 world_normal = (inv_view_mat * vec4(view_normal, 0.0)).xyz;
    out_normal = strength * tex_normal + (1.0 - strength) * world_normal;" },
    { name := "node_normal_map_object"
      rows := [[.float "strength", .vec4 "color", .vec3 "view_normal"],
        [.mat4 "inv_view_mat", .mat4 "model_mat", .out "vec3" "out_normal"]]
      body := "    vec3 signed_color = vec3(2.0, -2.0, -2.0) * (color.xzy - vec3(0.5));
    vec3 tex_normal = (model_mat * vec4(signed_color, 0.0)).xyz;
    vec3 world_normal = (inv_view_mat * vec4(view_normal, 0.0)).xyz;
    out_normal = strength * tex_normal + (1.0 - strength) * world_normal;" },
    { name := "node_tex_image"
      rows := [[.vec3 "co", { type := "sampler2D", name := "ima" }, .out "vec4" "color",
        .out "float" "alpha"]]
      body := "    color = texture(ima, co.xy);
    alpha = color.a;" },
    { name := "node_mapping"
      rows := [[.vec3 "vec", .mat4 "mat", .vec3 "minvec", .vec3 "maxvec",
          .float "domin"],
        [.float "domax", .out "vec3" "outvec"]]
      body := "    outvec = (mat * vec4(vec, 1.0)).xyz;
    if (domin == 1.0) \x7b
        outvec = max(outvec, minvec);
    \x7d
    if (domax == 1.0) \x7b
        outvec = min(outvec, maxvec);
    \x7d" }]

/-! ### Arithmetic of two numbers

For every operation there is a function that returns its value, and one that returns the value
clamped to the unit interval. -/

/-- When an operation has no value and zero is returned in its place. -/
inductive Guard where
  | never
  | zeroIf (condition : String)
  | zeroUnless (condition : String)
  deriving DecidableEq, Repr, Inhabited

structure MathRule where
  operation : String
  /-- The value, as an expression of the two operands. -/
  value : String
  /-- The value as it is written inside a clamp. -/
  inside : String := value
  guard : Guard := .never
  left : String := "value1"
  right : String := "value2"
  result : String := "result"
  /-- How long the head may be on one line. -/
  width : Nat := 79
  deriving DecidableEq, Repr, Inhabited

namespace MathRule

/-- The lines that assign the value, or zero where the guard says so. -/
def lines (r : MathRule) (value : String) : String :=
  let assign (v : String) := "    " ++ r.result ++ " = " ++ v ++ ";"
  let choose (c a b : String) :=
    "    if (" ++ c ++ ")\n    " ++ assign a ++ "\n    else\n    " ++ assign b
  match r.guard with
  | .never => assign value
  | .zeroIf c => choose c "0.0" value
  | .zeroUnless c => choose c value "0.0"

/-- A function with two numbers and a result, on one line if that is not too long. -/
def assemble (r : MathRule) (name value : String) : ShaderFunction :=
  let operands : List Parameter := [.float r.left, .float r.right]
  let result : List Parameter := [.out "float" r.result]
  let oneRow : ShaderFunction := { name, rows := [operands ++ result], body := r.lines value }
  let head := "void " ++ name ++ "(" ++ oneRow.parameterText ++ ") \x7b"
  if head.length ≤ r.width then oneRow else { oneRow with rows := [operands, result] }

def plain (r : MathRule) : ShaderFunction :=
  r.assemble ("node_math_" ++ r.operation ++ "_no_clamp") r.value

/-- The function that returns the value clamped to the unit interval. -/
def clamped (r : MathRule) : ShaderFunction :=
  r.assemble ("node_math_" ++ r.operation ++ "_clamp") ("clamp(" ++ r.inside ++ ", 0.0, 1.0)")

end MathRule

def mathRules : List MathRule :=
  [ { operation := "add", value := "value1 +  value2", inside := "value1 + value2" },
    { operation := "subtract", value := "value1 - value2" },
    { operation := "multiply", value := "value1 * value2" },
    { operation := "divide", value := "value1 / value2", guard := .zeroIf "value2 == 0.0" },
    { operation := "power", value := "pow(val1, val2)", left := "val1", right := "val2"
      result := "outval" },
    { operation := "logarithm", value := "log2(val1) / log2(val2)"
      guard := .zeroUnless "val1 > 0.0  && val2 > 0.0", left := "val1", right := "val2"
      result := "outval" },
    { operation := "sqrt", value := "sqrt(value1)" },
    { operation := "absolute", value := "abs(value1)" },
    { operation := "minimum", value := "min(value1, value2)", width := 78 },
    { operation := "maximum", value := "max(value1, value2)" },
    { operation := "less_than", value := "float(value1 < value2)" },
    { operation := "greater_than", value := "float(value1 > value2)" },
    { operation := "round", value := "round(value1)" },
    { operation := "floor", value := "floor(value1)" },
    { operation := "ceil", value := "ceil(value1)" },
    { operation := "fract", value := "fract(value1)" },
    { operation := "modulo", value := "mod(value1, value2)" },
    { operation := "sine", value := "sin(value1)" },
    { operation := "cosine", value := "cos(value1)" },
    { operation := "tangent", value := "tan(value1)" },
    { operation := "arcsine", value := "asin(value1)"
      guard := .zeroIf "value1 < 0.0 || value1 > 1.0" },
    { operation := "arccosine", value := "acos(value1)"
      guard := .zeroIf "value1 < 0.0 || value1 > 1.0" },
    { operation := "arctangent", value := "atan(value1)" },
    { operation := "arctan2", value := "atan(value1, value2)" }]

def math : List ShaderFunction :=
  mathRules.map MathRule.plain ++ mathRules.map MathRule.clamped

/-! ### Arithmetic of vectors

Operations on two vectors that return a vector and a number. -/

def vectorOperation (name body : String) : ShaderFunction :=
  { name
    rows := [[.vec3 "v1", .vec3 "v2", .out "vec3" "outvec"],
      [.out "float" "outval"]]
    body }

def vectors : List ShaderFunction :=
  [vectorOperation "node_vector_math_add" "    outvec = v1 + v2;
    outval = (abs(outvec[0]) + abs(outvec[1]) + abs(outvec[2])) * 0.333333;",
    vectorOperation "node_vector_math_subtract" "    outvec = v1 - v2;
    outval = (abs(outvec[0]) + abs(outvec[1]) + abs(outvec[2])) * 0.333333;",
    vectorOperation "node_vector_math_averate" "    outvec = v1 + v2;
    outval = length(outvec);
    outvec = normalize(outvec);",
    vectorOperation "node_vector_math_dot_product" "    outvec = vec3(0);
    outval = dot(v1, v2);",
    vectorOperation "node_vector_math_cross_product" "    outvec = cross(v1, v2);
    outval = length(outvec);
    outvec /= outval;",
    { name := "node_vector_math_multiply"
      rows := [[.vec3 "v1", .vec3 "v2", .vec3 "unused", .float "unused2"],
        [.out "vec3" "outvec", .out "float" "outval"]]
      body := "    outvec = vec3(v1.x*v2.x, v1.y*v2.y, v1.z*v2.z);" },
    { name := "node_vector_math_normalize"
      rows := [[.vec3 "v", .out "vec3" "outvec", .out "float" "outval"]]
      body := "  outval = length(v);
  outvec = normalize(v);" }]

/-! ### Changes of space

Points and directions between the spaces of model, world and view, between the two choices of an
up axis, and transforms as matrices. -/

def spaces : List ShaderFunction :=
  [ { name := "space_convert_zup_to_yup"
      rows := [[.inout "vec3" "dir"]]
      body := "    dir = mat3(vec3(1, 0, 0), vec3(0, 0, -1), vec3(0, 1, 0)) * dir;" },
    { name := "space_convert_yup_to_zup"
      rows := [[.inout "vec3" "dir"]]
      body := "    dir = mat3(vec3(1, 0, 0), vec3(0, 0, 1), vec3(0, -1, 0)) * dir;" },
    { name := "dir_space_convert_view_to_model"
      rows := [[.inout "vec3" "dir"],
        [.input "mat4" "inv_model_mat", .input "mat4" "inv_view_mat"]]
      body := "    dir = normalize( inv_model_mat * (inv_view_mat * vec4(dir, 0.0))).xyz;" },
    { name := "point_space_convert_view_to_model"
      rows := [[.inout "vec3" "pos"],
        [.input "mat4" "inv_model_mat", .input "mat4" "inv_view_mat"]]
      body := "    pos = (inv_model_mat * (inv_view_mat * vec4(pos, 1.0))).xyz;" },
    { name := "dir_space_convert_model_to_view"
      rows := [[.inout "vec3" "dir"],
        [.input "mat4" "view_mat", .input "mat4" "model_mat"]]
      body := "    dir = normalize(view_mat * (model_mat * vec4(dir, 0.0))).xyz;" },
    { name := "point_space_convert_model_to_view"
      rows := [[.inout "vec3" "pos"],
        [.input "mat4" "view_mat", .input "mat4" "model_mat"]]
      body := "    pos = (view_mat * (model_mat * vec4(pos, 1.0))).xyz;" },
    { name := "dir_space_convert_view_to_world"
      rows := [[.inout "vec3" "dir", .input "mat4" "inv_view_mat"]]
      body := "    dir = normalize(inv_view_mat * vec4(dir, 0.0)).xyz;" },
    { name := "point_space_convert_view_to_world"
      rows := [[.inout "vec3" "pos", .input "mat4" "inv_view_mat"]]
      body := "    pos = (inv_view_mat * vec4(pos, 1.0)).xyz;" },
    { name := "dir_space_convert_world_to_view"
      rows := [[.inout "vec3" "dir", .input "mat4" "view_mat"]]
      body := "    dir = normalize(view_mat * vec4(dir, 0.0)).xyz;" },
    { name := "location_to_mat4"
      rows := [[.input "vec3" "loc", .out "mat4" "loc_mat"]]
      body := "    loc_mat = mat4(vec4(1.0, 0.0, 0.0, 0),
                   vec4(0.0, 1.0, 0.0, 0),
                   vec4(0.0, 0.0, 1.0, 0),
                   vec4(loc, 1.0));" },
    { name := "euler_angle_XYZ_to_mat4"
      rows := [[.input "vec3" "rot", .out "mat4" "rot_mat"]]
      body := "    mat3 rx = mat3(vec3(1, 0, 0),
                   vec3(0, cos(rot.x), sin(rot.x)),
                   vec3(0, -sin(rot.x), cos(rot.x)));
    mat3 ry = mat3(vec3(cos(rot.y), 0, -sin(rot.y)),
                   vec3(0, 1, 0),
                   vec3(sin(rot.y), 0, cos(rot.y)));
    mat3 rz = mat3(vec3(cos(rot.z), sin(rot.z), 0),
                   vec3(-sin(rot.z), cos(rot.z), 0),
                   vec3(0, 0, 1));
    rot_mat = mat4(rz * ry * rx);" },
    { name := "scale_to_mat4"
      rows := [[.input "vec3" "scale", .out "mat4" "scale_mat"]]
      body := "    scale_mat = mat4(vec4(scale.x, 0.0, 0.0, 0.0),
                     vec4(0.0, scale.y, 0.0, 0.0),
                     vec4(0.0, 0.0, scale.z, 0.0),
                     vec4(0.0, 0.0, 0.0, 1.0));" },
    { name := "point_space_convert_world_to_view"
      rows := [[.inout "vec3" "pos", .input "mat4" "view_mat"]]
      body := "    pos = (view_mat * vec4(dir, 1.0)).xyz;" },
    { name := "refraction_fresnel"
      rows := [[.vec3 "view_dir", .vec3 "normal", .float "ior", .out "float" "kr"]]
      body := "// reference [https://www.scratchapixel.com/lessons/
// 3d-basic-rendering/introduction-to-shading/reflection-refraction-fresnel]
    float cosi = clamp(-1.0, 1.0, dot(view_dir, normal));
    float etai = 1.0, etat = ior;
    if (cosi > 0.0) \x7b
        float tmp = etai;
        etai = etat;
        etat = tmp;
    \x7d
    // Compute sini using Snell's law
    float sint = etai / etat * sqrt(max(0.0, 1.0 - cosi * cosi));
    // Total internal reflection
    if (sint >= 1.0) \x7b
        kr = 1.0;
    \x7d
    else \x7b
        float cost = sqrt(max(0.0, 1.0 - sint * sint));
        cosi = abs(cosi);
        float Rs = ((etat * cosi) - (etai * cost))
                    / ((etat * cosi) + (etai * cost));
        float Rp = ((etai * cosi) - (etat * cost))
                    / ((etai * cosi) + (etat * cost));
        kr = (Rs * Rs + Rp * Rp) * 0.5;
    \x7d" }]

/-! ### The function library

All functions that shader code can call, found by name. -/

def all : List ShaderFunction :=
  surface ++ color ++ blend ++ texture ++ math ++ vectors ++ spaces

def find? (name : String) : Option ShaderFunction :=
  all.find? (·.name == name)

end SceneExport.Library
