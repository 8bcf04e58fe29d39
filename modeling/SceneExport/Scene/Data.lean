import SceneExport.Scalar
import SceneExport.Space.Matrix

/-!
# Actions and meshes

What objects of a scene share.
-/

namespace SceneExport

/-! ### Positions in a scene

The parts of a scene are held in arrays; they refer to each other by position. -/

abbrev ObjectId := Nat

abbrev MeshId := Nat

abbrev MaterialId := Nat

abbrev ImageId := Nat

abbrev ActionId := Nat

/-! ### Actions

An action holds curves, each of which drives one number over time.  Things that are animated
have an action of their own and layers of strips, which play actions at other times. -/

/-- How a curve runs between its points. -/
inductive CurveKind where
  | constant
  | bezier
  | linear
  deriving DecidableEq, Repr, Inhabited

def CurveKind.ofWord : String → CurveKind
  | "CONSTANT" => .constant
  | "BEZIER" => .bezier
  | _ => .linear

structure CurvePoint (α : Type) where
  x : α
  y : α
  leftX : α
  leftY : α
  rightX : α
  rightY : α

structure Curve (α : Type) where
  path : String
  /-- The component that it drives. -/
  index : Int := 0
  kind : CurveKind := .linear
  points : List (CurvePoint α)

namespace Curve

variable {α : Type} [Scalar α]

/-- The value between two points; a constant curve holds the first. -/
def between (kind : CurveKind) (a b : CurvePoint α) (x : Quantity α) : Except Failure α := do
  if kind = .constant then return a.y
  let x ← x.toScalar
  return a.y + (b.y - a.y) * ((x - a.x) / (b.x - a.x))

/-- The value after the first of some points. -/
def evaluateFrom (kind : CurveKind) (x : Quantity α) :
    CurvePoint α → List (CurvePoint α) → Except Failure α
  | last, [] => .ok last.y
  | a, b :: rest =>
    if x.isBelow (.real b.x) then between kind a b x else evaluateFrom kind x b rest

/-- The value of a curve at a time: that of the nearest end outside its points. -/
def evaluate (c : Curve α) (x : Quantity α) : Except Failure α :=
  match c.points with
  | [] => .error .outOfRange
  | first :: rest =>
    if x.isAtMost (.real first.x) then .ok first.y else evaluateFrom c.kind x first rest

end Curve

structure Action (α : Type) where
  name : String
  start : α
  stop : α
  curves : List (Curve α)

namespace Action

variable {α : Type}

/-- The curve that drives the first component of something. -/
def find? (a : Action α) (path : String) : Option (Curve α) :=
  a.curves.find? fun c => c.path == path && c.index == 0

end Action

/-- An action played between two times. -/
structure Strip (α : Type) where
  name : String
  action : Option ActionId
  start : α
  stop : α

structure StripTrack (α : Type) where
  name : String
  muted : Bool := false
  strips : List (Strip α)

structure AnimationData (α : Type) where
  action : Option ActionId
  usesStrips : Bool := true
  tracks : List (StripTrack α)

/-! ### Meshes

A mesh has vertices, loops (the corners of faces, with their normals and tangents) and triangles
over the loops.  Shape keys move the vertices.  Positions of loops, vertices and materials may be
counted from the end. -/

/-- A vertex and the groups that it belongs to, each with a weight. -/
structure MeshVertex (α : Type) where
  position : List α
  groups : List (Int × α) := []

structure Loop (α : Type) where
  vertex : Int
  normal : List α
  tangent : List α
  bitangent : List α

structure LoopTriangle where
  loops : List Int
  material : Int := 0
  deriving DecidableEq, Repr, Inhabited

/-- A shape of a mesh; without positions it is the shape that the mesh has. -/
structure ShapeKey (α : Type) where
  name : String
  positions : Option (List (List α))

structure ShapeKeys (α : Type) where
  keys : List (ShapeKey α)
  /-- The shape that the others are relative to. -/
  reference : Nat := 0
  animation : Option (AnimationData α)

structure Mesh (α : Type) where
  name : String
  vertices : Array (MeshVertex α)
  loops : Array (Loop α)
  triangles : List LoopTriangle
  /-- The numbers of vertices of the faces. -/
  faces : List Nat
  /-- Layers of texture coordinates, one for each loop. -/
  uvs : List (Array (List α))
  /-- Layers of colours, one for each loop. -/
  colors : List (Array (List α))
  materials : List (Option MaterialId)
  shapeKeys : Option (ShapeKeys α)

namespace Mesh

variable {α : Type}

def hasManySided (m : Mesh α) : Bool :=
  m.faces.any (4 < ·)

def corners (m : Mesh α) (t : LoopTriangle) : Except Failure (List Int) :=
  t.loops.mapM fun i => do return (← elementAt m.loops i).vertex

/-- The triangles of a mesh, each with its vertices.  All their loops have to be there. -/
def corneredTriangles (m : Mesh α) : Except Failure (List (LoopTriangle × List Int)) :=
  m.triangles.mapM fun t => do return (t, ← m.corners t)

def moved (m : Mesh α) (positions : List (List α)) : Mesh α :=
  { m with
    vertices := (m.vertices.zip positions.toArray).map fun (v, p) => { v with position := p } }

/-- The mesh in the shape of a key; after the last key it is in its own shape. -/
def inShape (m : Mesh α) (key : Int) : Except Failure (Mesh α) := do
  match m.shapeKeys with
  | none => return m
  | some shapes =>
    if (shapes.keys.length : Int) ≤ key then return m
    match (← itemAt shapes.keys key).positions with
    | some positions => return m.moved positions
    | none => return m

end Mesh

end SceneExport
