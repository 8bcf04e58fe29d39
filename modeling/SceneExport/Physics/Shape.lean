import SceneExport.Mesh.Export

/-!
# Collision shapes

The shape with which a body collides: a simple form of the size of the object's bounding box, or
a form made of the object's mesh.  Shapes of meshes are shared between objects whose meshes and
margins agree.
-/

namespace SceneExport

/-! ### Bodies

The node that moves under physics.  An object with a rigid body below another such object is part
of the body of the topmost of them (`Scene.physicsRoot?`), which alone gets a node of its own. -/

section

variable {α : Type} [Scalar α]

def Scene.physicsRoot? (s : Scene α) (id : ObjectId) : Option ObjectId :=
  ((s.ancestors id).filter fun i =>
    ((s.objects[i]?).bind (·.rigidBody)).isSome).getLast?

def Object.hasPhysics (o : Object α) : Bool :=
  o.rigidBody.isSome

def bodyTypes : List String := ["KinematicBody", "RigidBody", "StaticBody"]

def RigidBody.nodeType (b : RigidBody α) : String :=
  if b.type = "ACTIVE" then if b.kinematic then "KinematicBody" else "RigidBody" else "StaticBody"

/-- The collections that a body collides with, as the sum of their powers of two. -/
def RigidBody.layers (b : RigidBody α) : Nat :=
  b.collections.foldr (fun on rest => on.toNat + 2 * rest) 0

namespace ExportM

def rigidBody (o : Object α) : ExportM α (RigidBody α) :=
  need .missingPart o.rigidBody

def exportBody (id : ObjectId) (parent : Option NodeId) : ExportM α NodeId := do
  let o ← object id
  let b ← rigidBody o
  let node ← makeNode (o.name ++ "Physics") b.nodeType parent .plain
  if b.nodeType != "KinematicBody" then
    let material : Resource α := .ofType "PhysicsMaterial" (o.name ++ "PhysicsMaterial") .plain
    let number ← forceInternal
      ((material.set "friction" (.real b.friction)).set "bounce" (.real b.restitution))
    setNode node "physics_material_override" (.reference (.internal (some number)))
  setNode node "transform" (.transform (← localTransform o))
  setNode node "collision_layer" (.int b.layers)
  setNode node "collision_mask" (.int b.layers)
  if b.nodeType = "RigidBody" then
    setNode node "can_sleep" (.flag b.useDeactivation)
    setNode node "linear_damp" (.real b.linearDamping)
    setNode node "angular_damp" (.real b.angularDamping)
    setNode node "sleeping" (.flag b.startDeactivated)
  writeNode node
  return node

/-- The nearest body at or above a node, of which at most `height` are tried. -/
def bodyAbove : Nat → Option NodeId → ExportM α NodeId
  | 0, _ => throw .missingPart
  | height + 1, id => do
    let id ← existing id
    if bodyTypes.contains (← nodeType id) then return id
    bodyAbove height (← node id).parent

end ExportM

end

/-! ### Collision shapes -/

variable {α : Type} [Scalar α]

def pointArray (points : List (List α)) : Value α :=
  .array ⟨"PoolVector3Array(", ", ", ")"⟩ (points.flatten.map .real)

/-- The corners of all triangles, each triangle the other way round. -/
def Mesh.collisionPoints (m : Mesh α) : Except Failure (List (List α)) := do
  let corners := (← m.corneredTriangles).flatMap fun (_, vertices) => vertices.reverse
  corners.mapM fun i => do return (← elementAt m.vertices i).position

namespace ExportM

def withMargin (b : RigidBody α) (r : Resource α) : Resource α :=
  if b.useMargin then r.set "margin" (.real b.margin) else r

def meshShape (type property : String) (b : RigidBody α) (m : Mesh α) (points : List (List α)) :
    Resource α :=
  withMargin b ((Resource.ofType type m.name .plain).set property (pointArray points))

/-- The shape that is made of an evaluated mesh.  A hull takes every vertex, a shape of triangles
is there only if the mesh has faces. -/
def shapeOfMesh? (convex : Bool) (b : RigidBody α) : Option (Mesh α) →
    Except Failure (Option (Resource α))
  | none => .ok none
  | some m =>
    if convex then
      .ok (some (meshShape "ConvexPolygonShape" "points" b m
        (m.vertices.toList.map (·.position))))
    else if m.faces.isEmpty then .ok none
    else do
      return some (meshShape "ConcavePolygonShape" "data" b m (← m.collisionPoints))

def exportMeshShape (settings : Settings) (id : ObjectId) (b : RigidBody α) (convex : Bool) :
    ExportM α (Option Nat) := do
  let o ← object id
  let type := if convex then "ConvexPolygonShape" else "ConcavePolygonShape"
  let meshKey ← MeshKey.ofObject settings type id o
  let key : InternalKey α := .collision (if b.useMargin then b.margin else 0) meshKey
  if let some number ← findInternal? key then return some number
  let (mesh?, e) ← evaluate settings { object := some id } false false 0
  let number ← match ← shapeOfMesh? convex b mesh? with
    | some r => some <$> addInternal key r
    | none => pure none
  let _ ← release e
  return number

/-- A shape of simple form and the sizes of a box, along three axes at least. -/
def simpleShape? (b : RigidBody α) (name : String) (sizes : List α) :
    Except Failure (Option (Resource α)) := do
  let shape (type : String) : Resource α := .ofType type name .plain
  let half (x : α) : α := x / 2.0
  let size ← Vec3.ofFirst sizes
  match b.shape with
  | "BOX" => return some ((shape "BoxShape").set "extents" (.vector (sizes.map half)))
  | "SPHERE" =>
    let radius := half ((sizes.drop 1).foldl Scalar.larger size.x)
    return some ((shape "SphereShape").set "radius" (.real radius))
  | "CAPSULE" =>
    let radius := half (Scalar.larger size.x size.y)
    return some (((shape "CapsuleShape").set "radius" (.real radius)).set
      "height" (.real (size.z - radius * 2.0)))
  | _ => return none

/-- The number of the shape of simple form of an object, if its form is known. -/
def exportSimpleShape (id : ObjectId) (o : Object α) (b : RigidBody α) (name : String) :
    ExportM α (Option Nat) := do
  let sizes ← extents o.boundBox
  match ← simpleShape? b name sizes with
  | some r => some <$> addInternal (.body id) (withMargin b r)
  | none =>
    warn ("Unable to export physics shape for " ++ o.name)
    return none

/-- The transform of an object relative to the object that its body belongs to. -/
def collisionTransform (o : Object α) : Option (Object α) → Except Failure (Placement α)
  | none => Placement.identity.directional
  | some root => do (← (← root.world.inverseOrIdentity).mul o.world).directional

/-- The node with the shape of an object, below its body. -/
def exportCollision (settings : Settings) (id : ObjectId) (body : NodeId) (root : Option ObjectId) :
    ExportM α NodeId := do
  let o ← object id
  let name := o.name ++ "Collision"
  let node ← makeNode name "CollisionShape" (some body) .plain
  let rootObject ← root.mapM object
  setNode node "transform" (.transform (← collisionTransform o rootObject))
  let b ← rigidBody o
  if b.shape = "CONVEX_HULL" ∨ b.shape = "MESH" then
    if let some number ← exportMeshShape settings id b (b.shape = "CONVEX_HULL") then
      setNode node "shape" (.reference (.internal (some number)))
  else
    setNode node "shape" (.reference (.internal (← exportSimpleShape id o b name)))
  writeNode node
  return node

def exportPhysics (settings : Settings) (id : ObjectId) (parent : Option NodeId) :
    ExportM α NodeId := do
  let root := (← get).scene.physicsRoot? id
  let parent ← match root with
    | none => some <$> exportBody id parent
    | some _ => pure parent
  let body ← bodyAbove ((← get).file.tree.nodes.size + 1) parent
  exportCollision settings id body root

end ExportM

end SceneExport
