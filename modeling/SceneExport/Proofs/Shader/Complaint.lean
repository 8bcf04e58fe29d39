import SceneExport.Proofs.Shader.Order
import SceneExport.Shader.Compile

/-!
# Complaints about node trees

Whether a node tree can be compiled can be told without compiling it.  The nodes of a well-formed
tree have what the code of their rules asks for (`NodeRule.Fits`), and its links join sockets that
suit each other.  Even then there can be a complaint about a tree (`NodeTree.complaint?`).  Some
complaints say that there is no support for the tree.  The others are faults of the rules:

* a rule does not give all outputs of its node (`NodeRule.given`), and a link comes from one that it
  does not give;
* the rule for numbers binds an output to what is no variable (`NodeRule.complaint?`);
* the surface of the material is linked to an output for values (`NodeTree.surfaceFault?`).
-/

namespace SceneExport

def Outcome.failure? {β : Type} : Except Failure β → Option Failure
  | .ok _ => none
  | .error e => some e

variable {α : Type} [Scalar α]

/-! ### What nodes have -/

/-- A name of the first 128 characters. -/
def Names.IsPlain (name : String) : Prop :=
  ∀ c ∈ name.toList, c.toNat < 128

instance (name : String) : Decidable (Names.IsPlain name) :=
  List.decidableBAll (fun c : Char => c.toNat < 128) name.toList

/-- One of the types that shader code knows. -/
def SocketType.isKnown : SocketType → Bool
  | .other _ => false
  | _ => true

/-- A socket value other than a matrix. -/
def SocketValue.isSimple : SocketValue α → Bool
  | .matrix _ => false
  | _ => true

/-- A socket as nodes of shaders have them. -/
structure Socket.IsUsual (s : Socket α) : Prop where
  name : Names.IsPlain s.name
  type : s.type.isKnown = true
  value : s.value.isSimple = true

instance (s : Socket α) : Decidable s.IsUsual :=
  decidable_of_iff (Names.IsPlain s.name ∧ s.type.isKnown = true ∧ s.value.isSimple = true)
    ⟨fun ⟨hn, ht, hv⟩ => ⟨hn, ht, hv⟩, fun h => ⟨h.name, h.type, h.value⟩⟩

/-- What the code of a rule asks of a node: a number of inputs and outputs, sockets with certain
names and settings. -/
structure Needs where
  inputs : Nat := 0
  outputs : Nat := 0
  inputNames : List String := []
  outputNames : List String := []
  settings : List String := []

/-- The node has what is needed. -/
structure ShaderNode.Has (n : ShaderNode α) (needs : Needs) : Prop where
  inputs : needs.inputs ≤ n.inputs.size
  outputs : needs.outputs ≤ n.outputs.size
  inputNames : ∀ x ∈ needs.inputNames, (n.inputNamed? x).isSome
  outputNames : ∀ x ∈ needs.outputNames, (n.outputs.findIdx? (·.name == x)).isSome
  settings : ∀ x ∈ needs.settings, (n.settings.get? x).isSome

instance (n : ShaderNode α) (needs : Needs) : Decidable (n.Has needs) :=
  decidable_of_iff (needs.inputs ≤ n.inputs.size ∧ needs.outputs ≤ n.outputs.size ∧
      (∀ x ∈ needs.inputNames, (n.inputNamed? x).isSome) ∧
      (∀ x ∈ needs.outputNames, (n.outputs.findIdx? (·.name == x)).isSome) ∧
      ∀ x ∈ needs.settings, (n.settings.get? x).isSome)
    ⟨fun ⟨hi, ho, hin, hon, hs⟩ => ⟨hi, ho, hin, hon, hs⟩,
      fun h => ⟨h.inputs, h.outputs, h.inputNames, h.outputNames, h.settings⟩⟩

/-- Whether the parts of a mapping are settings, and not inputs. -/
def Version.fixesMapping (v : Version) : Bool :=
  v.major < 2 || (v.major == 2 && v.minor < 81)

namespace NodeRule

/-- What the code of a rule asks of a node. -/
def needs (v : Version) : NodeRule → Needs
  | .mapping =>
    if v.fixesMapping then
      { inputs := 1, outputs := 1
        settings := ["vector_type", "use_min", "use_max"] }
    else { inputs := 4, outputs := 1, settings := ["vector_type"] }
  | .imageTexture => { inputs := 1, outputNames := ["Color"] }
  | .textureCoordinate =>
    { outputNames := ["UV", "Window", "Camera", "Normal", "Object", "Reflection", "Generated"] }
  | .rgb | .normalMap | .surface => { outputs := 1 }
  | .mixRgb =>
    { inputNames := ["Fac", "Color1", "Color2"], outputNames := ["Color"], settings :=
      ["use_clamp"] }
  | .bump => { outputs := 1, settings := ["invert"] }
  | .reroute => { inputs := 1, outputs := 1 }
  | .mixShader => { inputs := 3, outputs := 1, inputNames := ["Fac"] }
  | .addShader => { inputs := 2, outputs := 1 }
  | .tangent => { outputs := 1, settings := ["direction_type"] }
  | .uvMap => { outputNames := ["UV"] }
  | .value => { outputNames := ["Value"] }
  | .geometry => { outputNames := ["Position", "Normal", "Tangent"] }
  | .hueSaturation =>
    { inputNames := ["Fac", "Hue", "Saturation", "Value", "Color"], outputNames := ["Color"] }
  | .invert => { inputNames := ["Fac", "Color"], outputNames := ["Color"] }
  | .general | .unsupported => {}

end NodeRule

/-- The settings that are the parts of a mapping. -/
structure ShaderNode.HasMapping (n : ShaderNode α) : Prop where
  translation : ∃ x y z, n.settings.get? "translation" = some (.value (.vector [x, y, z]))
  rotation : ∃ x y z, n.settings.get? "rotation" = some (.value (.angles [x, y, z])) ∧
    [x, y, z].any Scalar.isInfinite = false
  scale : ∃ x y z, n.settings.get? "scale" = some (.value (.vector [x, y, z]))
  min : ∃ xs, n.settings.get? "min" = some (.value (.vector xs))
  max : ∃ xs, n.settings.get? "max" = some (.value (.vector xs))

def ShaderNode.TakesSurface (n : ShaderNode α) (i : Nat) : Prop :=
  n.inputs[i]?.map (·.type) = some .shader

/-- The first output of the node is a surface. -/
def ShaderNode.IsSurface (n : ShaderNode α) : Prop :=
  n.outputs[0]?.map (·.type) = some .shader

def ShaderNode.IsValue (n : ShaderNode α) : Prop :=
  ∀ s ∈ n.outputs, s.type ≠ .shader

namespace NodeRule

/-- What goes through the sockets of a node suits the code of a rule, as do its other settings. -/
def Suits (v : Version) (n : ShaderNode α) : NodeRule → Prop
  | .mapping => n.IsValue ∧ (v.fixesMapping = true → n.HasMapping)
  | .imageTexture => n.IsValue ∧ n.image.isSome
  | .mixRgb => n.IsValue ∧ ∃ blend, n.settings.get? "blend_type" = some (.text blend)
  | .normalMap => n.IsValue ∧ ∃ space, n.settings.get? "space" = some (.text space)
  | .reroute => n.outputs[0]?.map (·.type) = n.inputs[0]?.map (·.type)
  | .mixShader => n.IsSurface ∧ n.TakesSurface 1 ∧ n.TakesSurface 2
  | .addShader => n.IsSurface ∧ n.TakesSurface 0 ∧ n.TakesSurface 1
  | .surface => n.IsSurface ∧ (∀ s ∈ n.inputs, s.name ∈ ["Normal", "Tangent"] → s.type ≠ .shader) ∧
      ∀ f, Names.findFunction n = .ok f →
        f.properties.isSome ∧ ∀ x ∈ f.sockets, (n.inputNamed? x).isSome
  | .unsupported => True
  | _ => n.IsValue

/-- The node has what the code of the rule asks for. -/
structure Fits (v : Version) (n : ShaderNode α) (r : NodeRule) : Prop where
  has : n.Has (r.needs v)
  suits : r.Suits v n

/-! ### What rules give -/

def outputsNamed (n : ShaderNode α) (names : List String) : List Nat :=
  names.filterMap fun x => n.outputs.findIdx? (·.name == x)

/-- The outputs that the code of a rule gives, for the node `n` at a position of a tree. -/
def given (t : NodeTree α) (position : Nat) (n : ShaderNode α) : NodeRule → List Nat
  | .imageTexture | .general => List.range n.outputs.size
  | .textureCoordinate =>
    (List.range n.outputs.size).filter (t.isOutputLinked position) ++
      if (outputsNamed n ["Generated"]).any (t.isOutputLinked position) then
        outputsNamed n ["Reflection"] else []
  | .mixRgb | .hueSaturation | .invert => outputsNamed n ["Color"]
  | .uvMap => outputsNamed n ["UV"]
  | .value => outputsNamed n ["Value"]
  | .geometry => outputsNamed n ["Position", "Normal", "Tangent"]
  | .unsupported => []
  | _ => [0]

/-- Why the code of a rule cannot be written for a node, whatever is linked to the node. -/
def complaint? (v : Version) (n : ShaderNode α) : NodeRule → Option Failure
  | .mapping => if v.fixesMapping then Outcome.failure? (Names.findFunction n) else none
  | .imageTexture | .normalMap | .bump | .surface | .general =>
    Outcome.failure? (Names.findFunction n)
  | .value => some (.unmet "")
  | _ => none

end NodeRule

namespace NodeTree

/-! ### Complaints -/

/-- The node and output that a link comes from, and the rule of the node. -/
def origin? (t : NodeTree α) (l : NodeLink) : Option (ShaderNode α × Socket α × NodeRule) := do
  let n ← t.nodes[l.fromNode]?
  let s ← n.outputs[l.fromSocket]?
  let r ← (NodeRule.ofNode n).toOption
  return (n, s, r)

/-- A link comes from an output that its node does not give, though the node is supported. -/
def isVoid (t : NodeTree α) (l : NodeLink) : Bool :=
  (t.origin? l).any fun o => o.2.2.isValid && !(o.2.2.given t l.fromNode o.1).contains l.fromSocket

/-- Whether an input reads what a link leads to it: an input for surfaces passes over values. -/
def isRead (t : NodeTree α) (l : NodeLink) : Bool :=
  (t.target? l).any (·.type ≠ .shader) || (t.source? l).any (·.type = .shader)

/-- Why the link to an input cannot be used. -/
def inputComplaint? (t : NodeTree α) (position i : Nat) : Option Failure :=
  (t.linksTo position i).head?.bind fun l =>
    if t.isRead l && t.isVoid l then some .missingKey else none

/-- Why the code of a node cannot be written. -/
def nodeComplaint? (t : NodeTree α) (v : Version) (position : Nat) : Option Failure := do
  let n ← t.nodes[position]?
  let r ← (NodeRule.ofNode n).toOption
  ((List.range n.inputs.size).findSome? (t.inputComplaint? position)).or (r.complaint? v n)

/-- The link that the surface of the material comes from. -/
def surfaceLink? (t : NodeTree α) (output : Nat) : Option NodeLink := do
  let n ← t.nodes[output]?
  let i ← n.inputNamed? "Surface"
  (t.linksTo output i).head?

/-- Whether the surface of the material comes from a node that is supported. -/
def hasSurface (t : NodeTree α) (output : Nat) : Bool :=
  ((t.surfaceLink? output).bind t.origin?).any (·.2.2.isValid)

/-- Why the surface of the material cannot be used, though it comes from a node that is
supported. -/
def surfaceFault? (t : NodeTree α) (output : Nat) : Option Failure := do
  let l ← t.surfaceLink? output
  let o ← t.origin? l
  if !o.2.2.isValid then none
  else if t.isVoid l then some .missingKey
  else if o.2.1.type ≠ .shader then some .missingPart
  else none

/-- There is no support for the tree of the material with a name. -/
def withoutScript (name : String) : Failure :=
  .unsupported ("Blender material '" ++ name ++ "' not able to export as Shader Material")

/-- The first complaint about the tree of the material with a name. -/
def complaint? (t : NodeTree α) (v : Version) (name : String) : Option Failure :=
  match t.outputNodes.head? with
  | none => some (withoutScript name)
  | some output =>
    ((t.order.filter (· ≠ output)).findSome? (t.nodeComplaint? v)).or
      ((t.surfaceFault? output).or
      (if t.hasSurface output then none else some (withoutScript name)))

end NodeTree

/-! ### Well-formed trees -/

/-- A node as there are in trees of shaders. -/
structure ShaderNode.WellFormed (v : Version) (n : ShaderNode α) : Prop where
  inputs : ∀ s ∈ n.inputs, s.IsUsual
  outputs : ∀ s ∈ n.outputs, s.IsUsual
  named : ∃ name, Names.ofNode n = .ok name
  fits : ∀ r, NodeRule.ofNode n = .ok r → r.Fits v n
  ending : n.id = NodeTree.outputId → (n.inputNamed? "Surface").isSome ∧ n.outputs = #[]

namespace ShaderNode.WellFormed

variable {v : Version} {n : ShaderNode α}

theorem of_rule {r : NodeRule} (hr : NodeRule.ofId? n.id = some r)
    (hin : ∀ s ∈ n.inputs, s.IsUsual) (hout : ∀ s ∈ n.outputs, s.IsUsual)
    (hnamed : ∃ name, Names.ofNode n = .ok name) (hfits : r.Fits v n) : n.WellFormed v := by
  refine ⟨hin, hout, hnamed, fun r' hr' => ?_, fun hid => ?_⟩
  · rw [NodeRule.ofNode, hr] at hr'
    cases hr'
    exact hfits
  · rw [hid] at hr
    cases hr

theorem of_ending (hid : n.id = NodeTree.outputId) (hin : ∀ s ∈ n.inputs, s.IsUsual)
    (hnone : n.outputs = #[]) (hs : (n.inputNamed? "Surface").isSome) : n.WellFormed v := by
  have hnamed : ∃ name, Names.ofNode n = .ok name := by
    rw [Names.ofNode, hid]
    exact ⟨_, rfl⟩
  refine ⟨hin, by simp [hnone], hnamed, fun r hr => ?_, fun _ => ⟨hs, hnone⟩⟩
  -- There is no rule for its kind, and no output that could be a surface.
  have hrule : r = .general ∨ r = .unsupported := by
    obtain ⟨name, hname⟩ := hnamed
    have hid? : NodeRule.ofId? n.id = none := by rw [hid]; rfl
    cases hf : (Library.find? name).isSome <;>
      simp [NodeRule.ofNode, hid?, hnone, Names.hasFunction, hname, hf, bind, Except.bind, pure,
        Except.pure] at hr
    · exact .inr hr.symm
    · exact .inl hr.symm
  rcases hrule with rfl | rfl
  · exact ⟨⟨Nat.zero_le _, Nat.zero_le _, nofun, nofun, nofun⟩, by
      simp [NodeRule.Suits, IsValue, hnone]⟩
  · exact ⟨⟨Nat.zero_le _, Nat.zero_le _, nofun, nofun, nofun⟩, trivial⟩

end ShaderNode.WellFormed

/-- A tree of well-formed nodes whose links are valid and form no cycle.  Surfaces are linked to
inputs for surfaces only. -/
structure NodeTree.WellFormed (v : Version) (t : NodeTree α) : Prop where
  nodes : ∀ n ∈ t.nodes, n.WellFormed v
  joined : t.Joined
  acyclic : t.Acyclic
  valid : ∀ l ∈ t.links, l.valid = true
  typed : ∀ l ∈ t.links, (t.source? l).map (·.type) = some .shader →
    (t.target? l).map (·.type) = some .shader

end SceneExport
