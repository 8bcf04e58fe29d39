import SceneExport.Animation.Track

/-!
# Node trees

The graphs of shader nodes, and their values as shader code.
-/

namespace SceneExport

/-! ### Node trees of materials

A material is described by a graph of shader nodes.  A node has input and output sockets, and
links lead from an output of one node to an input of another.  Links can be flagged as invalid,
and still count where a socket is asked whether it is linked. -/

/-- The value that a socket has when nothing is linked to it. -/
inductive SocketValue (α : Type) where
  | nothing
  | real (x : α)
  | int (n : Int)
  | list (xs : List α)
  | vector (xs : List α)
  | angles (xs : List α)
  | matrix (rows : Rows α)

inductive NodeSetting (α : Type) where
  | text (s : String)
  | flag (b : Bool)
  | value (v : SocketValue α)

inductive SocketType where
  | value
  | vector
  | rgba
  | shader
  | other (word : String)
  deriving DecidableEq, Repr, Inhabited

namespace SocketType

def ofWord : String → SocketType
  | "VALUE" => .value
  | "VECTOR" => .vector
  | "RGBA" => .rgba
  | "SHADER" => .shader
  | word => .other word

def word : SocketType → String
  | .value => "VALUE"
  | .vector => "VECTOR"
  | .rgba => "RGBA"
  | .shader => "SHADER"
  | .other word => word

def codeType (t : SocketType) : Except Failure String :=
  match t with
  | .rgba => .ok "vec4"
  | .vector => .ok "vec3"
  | .value => .ok "float"
  | _ => .error (.unmet ("Unknown type " ++ t.word))

end SocketType

structure Socket (α : Type) where
  name : String
  type : SocketType
  value : SocketValue α
  identifier : String

structure ShaderNode (α : Type) where
  /-- The kind of node. -/
  id : String
  name : String
  type : String
  settings : Record (NodeSetting α)
  /-- The image of the node, if it is of a kind that has one. -/
  image : Option (Option ImageId)
  inputs : Array (Socket α)
  outputs : Array (Socket α)

/-- A link from an output to an input, by the positions of nodes and sockets. -/
structure NodeLink where
  fromNode : Nat
  fromSocket : Nat
  toNode : Nat
  toSocket : Nat
  valid : Bool := true
  deriving DecidableEq, Repr, Inhabited

structure NodeTree (α : Type) where
  name : String
  nodes : Array (ShaderNode α)
  links : List NodeLink

namespace ShaderNode

variable {α : Type}

def inputNamed? (n : ShaderNode α) (name : String) : Option Nat :=
  n.inputs.findIdx? (·.name == name)

def inputNamed (n : ShaderNode α) (name : String) : Except Failure Nat :=
  need .missingKey (n.inputNamed? name)

def outputNamed (n : ShaderNode α) (name : String) : Except Failure Nat :=
  need .missingKey (n.outputs.findIdx? (·.name == name))

def input (n : ShaderNode α) (i : Nat) : Except Failure (Socket α) :=
  need .outOfRange n.inputs[i]?

def output (n : ShaderNode α) (i : Nat) : Except Failure (Socket α) :=
  need .outOfRange n.outputs[i]?

def setting (n : ShaderNode α) (name : String) : Except Failure (NodeSetting α) :=
  need .missingPart (n.settings.get? name)

def textSetting (n : ShaderNode α) (name : String) : Except Failure String := do
  match ← n.setting name with
  | .text s => return s
  | _ => throw .missingPart

end ShaderNode

namespace NodeSetting

variable {α : Type} [Scalar α]

def isOn : NodeSetting α → Bool
  | .text s => s != ""
  | .flag b => b
  | .value .nothing => false
  | .value (.int n) => n != 0
  | .value (.real x) => !(x == 0)
  | .value (.list xs) | .value (.vector xs) | .value (.angles xs) => !xs.isEmpty
  | .value (.matrix rows) => !rows.isEmpty

def isText : NodeSetting α → String → Bool
  | .text s, t => s == t
  | _, _ => false

end NodeSetting

namespace NodeTree

variable {α : Type}

def linksTo (t : NodeTree α) (node input : Nat) : List NodeLink :=
  t.links.filter fun l => l.toNode == node && l.toSocket == input

def linksFrom (t : NodeTree α) (node output : Nat) : List NodeLink :=
  t.links.filter fun l => l.fromNode == node && l.fromSocket == output

def isInputLinked (t : NodeTree α) (node input : Nat) : Bool :=
  !(t.linksTo node input).isEmpty

def isOutputLinked (t : NodeTree α) (node output : Nat) : Bool :=
  !(t.linksFrom node output).isEmpty

def linksOut (t : NodeTree α) (node : Nat) : List NodeLink :=
  match t.nodes[node]? with
  | some n => (List.range n.outputs.size).flatMap (t.linksFrom node)
  | none => []

def node (t : NodeTree α) (i : Nat) : Except Failure (ShaderNode α) :=
  need .outOfRange t.nodes[i]?

def outputId : String := "ShaderNodeOutputMaterial"

def outputNodes (t : NodeTree α) : List Nat :=
  (List.range t.nodes.size).filter fun i => (t.nodes[i]?.map (·.id)) == some outputId

/-- The first node that ends the material; more of them are pointed out to the user. -/
def outputNode? (t : NodeTree α) : Logged (Option Nat) := do
  for _ in t.outputNodes.drop 1 do
    Logged.warn "More than one material output node find"
  return t.outputNodes.head?

/-! ### Order of evaluation -/

/-- How many inputs of a node wait for a value. -/
def waiting (t : NodeTree α) (i : Nat) : Int :=
  match t.nodes[i]? with
  | some n => (List.range n.inputs.size).countP fun s =>
      match t.linksTo i s with
      | l :: _ => l.valid
      | [] => false
  | none => 0

/-- The counts after a node was evaluated: its valid links are served, and it is done. -/
def serve (t : NodeTree α) (counts : Array Int) (i : Nat) : Array Int :=
  let served := (t.linksOut i).foldl
    (fun counts l => if l.valid then counts.modify l.toNode (· - 1) else counts) counts
  served.setIfInBounds i (-1)

/-- Repeatedly take the first node that waits for nothing, at most `fuel` times. -/
def orderFrom (t : NodeTree α) : Nat → Array Int → List Nat
  | 0, _ => []
  | fuel + 1, counts =>
    match counts.findIdx? (· == 0) with
    | some i => i :: orderFrom t fuel (t.serve counts i)
    | none => []

/-- The nodes in an order in which each comes after those that its valid links come from.  No
node is taken twice, so there are at most as many steps as nodes. -/
def order (t : NodeTree α) : List Nat :=
  t.orderFrom t.nodes.size ((Array.range t.nodes.size).map t.waiting)

/-! ### What a texture is used for -/

abbrev Target := Nat × Nat

/-- Where the links of a node's outputs lead to. -/
def targets (t : NodeTree α) (node : Nat) : List Target :=
  (t.linksOut node).map fun l => (l.toNode, l.toSocket)

/-- Where the links of an output lead to. -/
def entries (t : NodeTree α) (node output : Nat) : List Target :=
  (t.linksFrom node output).map fun l => (l.toNode, l.toSocket)

def accepts (t : NodeTree α) (wanted : ShaderNode α → Socket α → Bool) (target : Target) : Bool :=
  t.nodes[target.1]?.any fun n => n.inputs[target.2]?.any (wanted n)

/-- One round of the search: the answer, or the inputs that are queued then. -/
def look (t : NodeTree α) (wanted : ShaderNode α → Socket α → Bool) :
    List Target → Bool ⊕ List Target
  | [] => .inl false
  | target :: queue =>
    if t.accepts wanted target then .inl true else .inr (queue ++ t.targets target.1)

/-- Whether a path of links from a queued input enters one that is `wanted`.  An input is looked at
again on every path that leads to it, so that a cycle of links can keep the search going forever. -/
def reaches (t : NodeTree α) (wanted : ShaderNode α → Socket α → Bool) (queue : List Target) :
    Bool :=
  match t.look wanted queue with
  | .inl found => found
  | .inr queue => by apply reaches <;> assumption
partial_fixpoint

/-- Some rounds of the search, fewer if there is an answer before. -/
def rounds (t : NodeTree α) (wanted : ShaderNode α → Socket α → Bool) :
    Nat → List Target → Bool ⊕ List Target
  | 0, queue => .inr queue
  | k + 1, queue =>
    match t.look wanted queue with
    | .inl found => .inl found
    | .inr queue => rounds t wanted k queue

/-- Whether a path of links from an output enters an input that is `wanted`.  Rounds are counted up
to the number of sets of links, which no search without a cycle comes to, so that such a search can
be evaluated. -/
def leadsTo (t : NodeTree α) (wanted : ShaderNode α → Socket α → Bool) (node output : Nat) : Bool :=
  match t.rounds wanted (Nat.pow 2 t.links.length) (t.entries node output) with
  | .inl found => found
  | .inr queue => t.reaches wanted queue

def isAlbedoInput (n : ShaderNode α) (s : Socket α) : Bool :=
  (s.name == "Base Color" && n.id == "ShaderNodeBsdfPrincipled")
    || (s.name == "Color" && n.id == "ShaderNodeBsdfDiffuse")

def isNormalInput (n : ShaderNode α) (s : Socket α) : Bool :=
  s.name == "Color" && n.id == "ShaderNodeNormalMap"

end NodeTree

/-! ### Literals

Values of sockets and settings as expressions of shader code. -/

variable {α : Type} [Scalar α]

namespace Literal

def vector (xs : List α) : String :=
  "vec" ++ toString xs.length ++ "(" ++ Text.joinWith ", " (xs.map Scalar.codeText) ++ ")"

def angles (xs : List α) : String :=
  "vec3(" ++ Text.joinWith ", " (xs.map Scalar.codeText) ++ ")"

def matrix (rows : Rows α) : Except Failure String := do
  let cols ← rows.columns
  return "mat" ++ toString cols.length ++ "(" ++ Text.joinWith ", " (cols.map vector) ++ ")"

def number (text : String) : String :=
  "float(" ++ text ++ ")"

end Literal

def SocketValue.code : SocketValue α → Except Failure String
  | .list xs | .vector xs => .ok (Literal.vector xs)
  | .angles xs => .ok (Literal.angles xs)
  | .matrix rows => Literal.matrix rows
  | .real x => .ok (Literal.number (Scalar.codeText x))
  | .int n => .ok (Literal.number (toString n))
  | .nothing => .ok (Literal.number "None")

def NodeSetting.code : NodeSetting α → Except Failure String
  | .value v => v.code
  | .text s => .ok (Literal.number s)
  | .flag b => .ok (Literal.number (if b then "True" else "False"))

def SocketValue.note : SocketValue α → String
  | .nothing => "None"
  | .real x => Scalar.codeText x
  | .int n => toString n
  | .list xs => Value.listNote (xs.map Scalar.codeText)
  | .vector xs => Value.numbersNote "Vector" xs
  | .angles xs => Value.numbersNote "Euler" xs
  | .matrix rows => Value.rowsNote rows

def NodeSetting.note : NodeSetting α → String
  | .text s => s
  | .flag b => if b then "True" else "False"
  | .value v => v.note

def Value.ofSocket (v : SocketValue α) : Value α :=
  match v with
  | .nothing => .nothing
  | .real x => .real x
  | .int n => .int n
  | .list _ | .angles _ => .text v.note
  | .vector xs => .vector xs
  | .matrix rows => .transform (.ofRows rows)

end SceneExport
