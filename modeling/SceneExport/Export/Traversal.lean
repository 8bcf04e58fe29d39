import SceneExport.Export.Nodes

/-!
# Traversal

A scene is exported object by object, each before the objects below it.  An object that is there
only because of those below it becomes an empty.  At the end deformed meshes are linked to their
skeletons.
-/

namespace SceneExport

/-! ### Selection

Which objects of a scene are exported: those that the settings accept, and in order to keep the
tree also all objects above them. -/

section

variable {α : Type}

def Scene.viewLayerHas (s : Scene α) (name : String) : Bool :=
  s.objects.any fun o => o.inViewLayer && o.name == name

def Scene.accepts (s : Scene α) (settings : Settings) (o : Object α) : Bool :=
  settings.has o.kind
    && !(settings.onlyRendered && o.hiddenInRender)
    && !(settings.onlyVisible && !(s.viewLayerHas o.name && o.visible))
    && !(settings.onlySelected && !o.selected)

/-- The objects to export. -/
structure Selection where
  /-- Those that the settings accept. -/
  accepted : List ObjectId
  /-- Those and the objects above them. -/
  valid : List ObjectId
  deriving DecidableEq, Repr, Inhabited

/-- Put an object and the objects above it to others, up to the first that is there. -/
def Scene.withAncestors (s : Scene α) (valid : List ObjectId) (id : ObjectId) : List ObjectId :=
  valid ++ (id :: s.ancestors id).takeWhile fun i => !valid.contains i

def Scene.selection (s : Scene α) (settings : Settings) : Selection :=
  let accepted := (List.range s.objects.size).filter fun i =>
    match s.objects[i]? with
    | some o => s.accepts settings o
    | none => false
  ⟨accepted, accepted.foldl s.withAncestors []⟩

/-- The chosen objects without a parent. -/
def Scene.selectedRoots (s : Scene α) (selection : Selection) : List ObjectId :=
  (List.range s.objects.size).filter fun i =>
    selection.valid.contains i && (s.objects[i]?.bind (·.parent)).isNone

end

/-! ### Traversal -/

abbrev ExportedNodes := List (ObjectId × Option NodeId)

def ObjectKind.isKnown : ObjectKind → Bool
  | .particle | .geometry | .other _ => false
  | _ => true

namespace ExportM

variable {α : Type} [Scalar α]

def exportKind (settings : Settings) (kind : ObjectKind) (id : ObjectId) (parent : Option NodeId) :
    ExportM α (Option NodeId) :=
  match kind with
  | .mesh | .surface | .metaball | .font => some <$> exportMeshNode settings id parent
  | .armature => some <$> exportArmature settings id parent
  | .camera => some <$> exportCamera settings id parent
  | .light => exportLight settings id parent
  | .empty => exportEmpty settings id parent
  | .curve => some <$> exportCurve settings id parent
  | .particle | .geometry | .other _ => throw .undecided

def exportedKind (selection : Selection) (id : ObjectId) (o : Object α) : ExportM α ObjectKind := do
  if !o.kind.isKnown then
    warn ("Unknown object type. Treating as empty: " ++ o.name)
    return o.kind
  else if selection.accepted.contains id then return o.kind
  else
    warn ("Object is parent of exported objects. Treating as empty: " ++ o.name)
    return .empty

def nodeTransform (id : NodeId) : ExportM α (Placement α) := do
  match (← node id).entry.properties.get? "transform" with
  | some (.transform p) => return p
  | _ => throw .missingKey

/-- Move the nodes below an attachment to the other end of the bone. -/
def moveAlongBone (o : Object α) (attachment : NodeId) : ExportM α Unit := do
  for child in (← get).file.tree.children attachment do
    let p ← nodeTransform child
    setNode child "transform" (.transform (← p.alongBone (← attachedBoneLength o)))

/-- Turn a node below a collision shape back, since collision shapes look along another axis. -/
def turnBack (id : NodeId) : ExportM α Unit := do
  let parent ← existing (← node id).parent
  if (← nodeType parent) = "CollisionShape" then
    let correction ← need .unusableValue (axisCorrection : Mat4 α).inverse?
    let turned ← (Placement.transform correction).mul (← nodeTransform id)
    setNode id "transform" (.transform turned)

/-- Whether a node says something else than the node above it. -/
def differs (made parent : Option NodeId) : ExportM α Bool := do
  match made, parent with
  | some a, some b =>
    if a = b then return false
    return !Value.sameEntries (← node a).entry.properties (← node b).entry.properties
  | none, none => return false
  | _, _ => return true

def isHung (settings : Settings) (o : Object α) : Bool :=
  settings.has .armature && o.parent.isSome && o.parentBone != ""

/-- What the node of an object is put below: an attachment, if the object hangs on a bone. -/
def nodeAbove (settings : Settings) (id : ObjectId) (o : Object α) (parent : Option NodeId) :
    ExportM α (Option NodeId) :=
  if isHung settings o then some <$> exportAttachment id parent else pure parent

def exportOwnParticles (settings : Settings) (id : ObjectId) (o : Object α)
    (parent : Option NodeId) : ExportM α Unit := do
  if settings.has .particle && !o.particles.isEmpty then
    let _ ← exportParticles settings id parent

def correctTransform (settings : Settings) (o : Object α) (parent made : Option NodeId) :
    ExportM α Unit := do
  if isHung settings o then moveAlongBone o (← existing parent)
  if let some node := made then turnBack node

/-- Export the animation of an object whose node does not say the same as the one above it. -/
def animateObject (settings : Settings) (id : ObjectId) (parent made : Option NodeId) :
    ExportM α Unit := do
  if ← differs made parent then exportAnimation settings (.object id) made

/-- Export an object without those below it. -/
def exportSingle (settings : Settings) (selection : Selection) (id : ObjectId)
    (parent : Option NodeId) : ExportM α (Option NodeId) := do
  let o ← object id
  let kind ← exportedKind selection id o
  let parent ← nodeAbove settings id o parent
  exportOwnParticles settings id o parent
  let made ← exportKind settings kind id parent
  correctTransform settings o parent made
  animateObject settings id parent made
  return made

def setActive (active : Option ObjectId) : ExportM α Unit :=
  changeScene fun s => { s with active }

/-- Export an object and those below it, down to a depth. -/
def exportObject (settings : Settings) (selection : Selection) :
    Nat → Option NodeId → ObjectId → ExportM α ExportedNodes
  | 0, _, _ => return []
  | depth + 1, parent, id => do
    if !selection.valid.contains id then return []
    let before := (← get).scene.active
    setActive (some id)
    let made ← exportSingle settings selection id parent
    let below ← ((← get).scene.children id).mapM (exportObject settings selection depth made)
    setActive before
    return (id, made) :: below.flatten

def exportedNode (nodes : ExportedNodes) : KeyPart α → Except Failure (Option NodeId)
  | .object id => need .missingKey (nodes.lookup id)
  | _ => .error .missingKey

/-- Tell a mesh where the skeletons of its modifiers are. -/
def linkSkeletons (nodes : ExportedNodes) (id : ObjectId) (made : Option NodeId) :
    ExportM α Unit := do
  for m in (← object id).modifiers do
    if m.looksLikeArmature then
      let skeleton ← exportedNode nodes m.target
      let mesh ← existing made
      let path ← NodePath.between (← nodePath mesh) (← nodePath (← existing skeleton)) ""
      setNode mesh "skeleton" (.path path)

def toggleEditMode : ExportM α Unit := do
  let active ← (← get).scene.active.mapM object
  request (.toggleEditMode (active.map (·.name)))

def isEditing : ExportM α Bool := do
  match (← get).scene.active with
  | some id => return (← object id).inEditMode
  | none => return false

def exportRoot (name : String) : ExportM α NodeId := do
  let root ← makeNode name "Spatial" none .plain
  writeNode root
  return root

/-- Export the root of the scene and the chosen objects below it. -/
def exportObjects (settings : Settings) : ExportM α ExportedNodes := do
  let scene := (← get).scene
  let selection := scene.selection settings
  let root ← exportRoot scene.name
  let nodes ← (scene.selectedRoots selection).mapM
    (exportObject settings selection (scene.objects.size + 1) (some root))
  return nodes.flatten

/-- Export the scene, out of edit mode. -/
def exportScene (settings : Settings) : ExportM α ExportedNodes := do
  let editing ← isEditing
  if editing then toggleEditMode
  let nodes ← exportObjects settings
  if settings.has .armature then
    nodes.forM fun (id, made) => linkSkeletons nodes id made
  if editing then toggleEditMode
  return nodes

end ExportM

end SceneExport
