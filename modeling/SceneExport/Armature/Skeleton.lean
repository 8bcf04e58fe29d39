import SceneExport.Export.Session

/-!
# Skeletons

An armature becomes a skeleton.  The rest transform of a bone is relative to the nearest bone
above it that is exported.  An object that hangs on a bone is put below an attachment, and the
bone lists the attachment among its children.
-/

namespace SceneExport

/-! ### Numbers of bones

The bones of an armature are numbered from zero, each after the bone above it: a bone comes
before all bones below it, and those in the order of the armature.  Bones that only control
others can be left out. -/

section

variable {α : Type}

namespace Armature

def children (a : Armature α) (i : Nat) : List Nat :=
  (List.range a.bones.size).filter fun j => (a.bones[j]?.bind (·.parent)) == some i

def roots (a : Armature α) : List Nat :=
  (List.range a.bones.size).filter fun i => (a.bones[i]?.bind (·.parent)).isNone

def descend (a : Armature α) : Nat → Nat → List Nat
  | 0, _ => []
  | depth + 1, i => i :: (a.children i).flatMap (a.descend depth)

def order (a : Armature α) : List Nat :=
  a.roots.flatMap (a.descend a.bones.size)

def numbering (a : Armature α) (isExported : Bone α → Bool) : Record Nat :=
  let exported := (a.order.filterMap (a.bones[·]?)).filter isExported
  Record.setAll [] (exported.zipIdx.map fun (b, i) => (b.name, i))

/-- The bones above a bone, the nearest first, up to a height. -/
def climb (a : Armature α) : Nat → Option Nat → List Nat
  | 0, _ => []
  | _, none => []
  | height + 1, some i => i :: a.climb height (a.bones[i]?.bind (·.parent))

def exportedParent? (a : Armature α) (numbers : Record Nat) (b : Bone α) : Option (Bone α) :=
  ((a.climb a.bones.size b.parent).filterMap (a.bones[·]?)).find? fun p => Record.has numbers p.name

end Armature

def Object.armature (o : Object α) : Except Failure (Armature α) :=
  match o.data with
  | .armature a => .ok a
  | _ => .error .missingPart

/-- Whether a bone is exported: a bone that holds an object always is, others unless they only
control others and such bones are left out. -/
def Scene.exportsBone (s : Scene α) (settings : Settings) (armature : ObjectId) (b : Bone α) :
    Bool :=
  (s.children armature).any (fun i => (s.objects[i]?.map (·.parentBone)) == some b.name)
    || !(settings.excludeControlBones && !b.deforms)

def Scene.boneNumbers (s : Scene α) (settings : Settings) (armature : ObjectId) :
    Except Failure (Record Nat) := do
  let a ← (← s.object armature).armature
  return a.numbering (s.exportsBone settings armature)

def Object.groupBones (o : Object α) (numbers : Record Nat) : List (Int × Nat) :=
  numbers.filterMap fun (name, bone) =>
    (o.vertexGroups.findIdx? (· == name)).map fun (group : Nat) => ((group : Int), bone)

end

/-! ### Skeletons -/

variable {α : Type} [Scalar α]

/-- The transform of a bone at rest, relative to the nearest exported bone above it. -/
def Armature.restTransform (a : Armature α) (numbers : Record Nat) (b : Bone α) :
    Except Failure (Placement α) :=
  match a.exportedParent? numbers b with
  | some parent => do (← parent.rest.inverseOrIdentity).mul b.rest
  | none => .ok b.rest

def boneNumber (numbers : Record Nat) (bone : String) : Int :=
  match Record.get? numbers bone with
  | some number => number
  | none => -1

/-- The number of the nearest exported bone above a bone, which has the empty name if it is not
there. -/
def Armature.parentNumber (a : Armature α) (numbers : Record Nat) (b : Bone α) : Int :=
  boneNumber numbers (((a.exportedParent? numbers b).map (·.name)).getD "")

/-- The name of a bone without the characters that bone names cannot have. -/
def boneLabel (name : String) : String :=
  Text.without (fun c => c == ':' || c == '/') name

/-- Names for bones in turn, each different from those before it. -/
def boneLabels (taken : List String) : List String → List String
  | [] => []
  | name :: names =>
    let label := uniqueName taken (boneLabel name)
    label :: boneLabels (label :: taken) names

def boneProperty (number : Int) (name : String) : String :=
  "bones/" ++ toString number ++ "/" ++ name

/-- The exported bones with their numbers, in the order of the numbers. -/
def Armature.numbered (a : Armature α) (numbers : Record Nat) : List (Nat × Bone α) :=
  let bones := a.bones.toList.filterMap fun b => (Record.get? numbers b.name).map (·, b)
  bones.mergeSort fun x y => decide (x.1 ≤ y.1)

def Armature.boneEntry (a : Armature α) (numbers : Record Nat) (number : Nat) (label : String)
    (b : Bone α) : Except Failure (Record (Value α)) := do
  return [(boneProperty number "name", .quoted label),
    (boneProperty number "parent", .int (a.parentNumber numbers b)),
    (boneProperty number "rest", .transform (← a.restTransform numbers b)),
    (boneProperty number "pose", .transform b.basis),
    (boneProperty number "enabled", .flag true),
    (boneProperty number "bound_children", .array ⟨"[", ", ", "]"⟩ [])]

def Armature.entries (a : Armature α) (numbers : Record Nat) :
    Except Failure (Record (Value α)) := do
  let bones := a.numbered numbers
  let labels := boneLabels [] (bones.map (·.2.name))
  let entries ← (bones.zip labels).mapM fun ((number, b), label) =>
    a.boneEntry numbers number label b
  return entries.flatten

namespace ExportM

def setAll (id : NodeId) (properties : Record (Value α)) : ExportM α Unit :=
  properties.forM fun (name, value) => setNode id name value

def exportArmature (settings : Settings) (id : ObjectId) (parent : Option NodeId) :
    ExportM α NodeId := do
  let o ← object id
  let node ← makeNode o.name "Skeleton" parent (.skeleton [])
  setNode node "bones_in_world_transform" (.flag true)
  setNode node "transform" (.transform (← localTransform o))
  let numbers ← (← get).scene.boneNumbers settings id
  changeFile fun f =>
    { f with tree := f.tree.update node fun n => { n with role := .skeleton numbers } }
  setAll node (← (← o.armature).entries numbers)
  writeNode node
  return node

def skeletonNumbers (skeleton : Option NodeId) : ExportM α (Record Nat) := do
  match (← node (← existing skeleton)).role with
  | .skeleton numbers => return numbers
  | _ => throw .missingPart

/-- The name that a skeleton has for a bone, without quotes around it. -/
def boneName (skeleton : NodeId) (numbers : Record Nat) (bone : String) : ExportM α String := do
  match (← node skeleton).entry.properties.get? (boneProperty (boneNumber numbers bone) "name") with
  | some (.text s) => return Text.stripped (· == '"') s
  | _ => return ""

/-- The transform of a bone at rest in a skeleton; the identity if it is not there. -/
def boneRest (skeleton : NodeId) (numbers : Record Nat) (bone : String) :
    ExportM α (Placement α) := do
  match (← node skeleton).entry.properties.get? (boneProperty (boneNumber numbers bone) "rest") with
  | some (.transform p) => return p
  | _ => return .identity

def exportAttachment (id : ObjectId) (skeleton : Option NodeId) : ExportM α NodeId := do
  let bone := (← object id).parentBone
  let attachment ← makeNode (bone ++ "BoneAttachment") "BoneAttachment" skeleton .plain
  let numbers ← skeletonNumbers skeleton
  let skeleton ← existing skeleton
  setNode attachment "bone_name" (.quoted (← boneName skeleton numbers bone))
  let property := boneProperty (boneNumber numbers bone) "bound_children"
  match (← node skeleton).entry.properties.get? property with
  | some (.array brackets bound) =>
    let path ← NodePath.between (← nodePath skeleton) (← nodePath attachment) ""
    setNode skeleton property (.array brackets (bound ++ [.path path]))
    writeNode attachment
    return attachment
  | _ => throw .missingKey

end ExportM

end SceneExport
