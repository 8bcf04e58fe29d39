import SceneExport.Shader.Tree

/-!
# Looking up nodes

Finding a shader node of a kind and the value of one of its inputs; what is not there is pointed
out to the user.
-/

namespace SceneExport

variable {α : Type}

def NodeTree.firstOfKind? (t : NodeTree α) (kind : String) : Logged (Option (ShaderNode α)) := do
  match t.nodes.find? (·.id == kind) with
  | some n => return some n
  | none =>
    Logged.warn (kind ++ " node not found")
    return none

def ShaderNode.inputValue (n : ShaderNode α) (name : String) : Logged (SocketValue α) := do
  match n.inputs.find? (·.name == name) with
  | some s => return s.value
  | none =>
    Logged.warn (name ++ " input not found in " ++ n.id)
    return .nothing

end SceneExport
