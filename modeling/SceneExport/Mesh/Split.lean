import SceneExport.File.Record
import SceneExport.Order.Runs
import SceneExport.Text.Split
import SceneExport.Color.Gamma
import SceneExport.Scene.Data
import SceneExport.Space.Placement

/-!
# Surfaces

A surface is the part of a mesh that has one material.  Its corners are held as a list of
`Vertex` and a list of faces over it (`VertexArrays`); a morph target is such a list without
faces.

Two vertices are the same when all their numbers agree (`Vertex.signature`).  In a file a vertex
is influenced by at most four bones, the heaviest first, with weights that add up to one
(`VertexArrays.influences`).
-/

namespace SceneExport

/-- Everything known about one corner of a surface.  Vectors have at least the components that are
used of them, and all that they have are written. -/
structure Vertex (α : Type) where
  position : List α
  normal : List α
  tangent : Option (List α) := none
  bitangent : Option (List α) := none
  color : Option (List α) := none
  uvs : List (List α) := []
  bones : List Int := []
  weights : List α := []
  deriving Inhabited

/-- Corners and the faces between them.  A corner that no loop reached is `none`. -/
structure VertexArrays (α : Type) where
  vertices : Array (Option (Vertex α)) := #[]
  /-- The positions of the corners of each face, of which three are written. -/
  faces : List (List Int) := []
  hasBones : Bool := false
  deriving Inhabited

structure Surface (α : Type) where
  index : Int
  material : Option Reference := none
  base : VertexArrays α := {}
  morphs : List (VertexArrays α) := []
  deriving Inhabited

variable {α : Type} [Scalar α]

namespace Vertex

def threeOf (xs : List α) : Except Failure (List α) := do
  return (← Vec3.ofFirst xs).toList

def twoOf : List α → Except Failure (List α)
  | x :: y :: _ => .ok [x, y]
  | _ => .error .outOfRange

/-- The first three components of a vector that may be missing. -/
def threeOf? : Option (List α) → Except Failure (List α)
  | some xs => threeOf xs
  | none => .ok []

/-- All numbers of a vertex in a row; two vertices with the same numbers are one. -/
def signature (v : Vertex α) : Except Failure (List α) := do
  let position ← threeOf v.position
  let normal ← threeOf v.normal
  let uvs ← v.uvs.mapM twoOf
  let color ← threeOf? v.color
  let tangent ← threeOf? v.tangent
  let bitangent ← threeOf? v.bitangent
  let bones ← v.bones.mapM Scalar.ofInt
  return position ++ normal ++ uvs.flatten ++ color ++ tangent ++ bitangent ++ bones ++ v.weights

/-- The side of the surface that the texture's second direction lies on. -/
def handedness (v : Vertex α) (tangent : List α) : Except Failure α := do
  let normal ← Vec3.ofFirst v.normal
  let product := normal.cross (← Vec3.ofFirst tangent)
  let bitangent ← Vec3.ofFirst (← need .wrongKind v.bitangent)
  return if 0 < product.dot bitangent then 1 else -1

def colorEntry (c : List α) : List α :=
  if c.length == 3 then c ++ [1] else c

/-- The bones of a vertex with their weights, the heaviest first, and in their order where weights
are equal.  An undefined weight has no place in the order and ends up where the sort leaves it. -/
def heaviestFirst (v : Vertex α) : Except Failure (List (Int × α)) := do
  if v.weights.length < v.bones.length then throw .outOfRange
  let influences := v.bones.zip v.weights
  if influences.all fun i => decide (i.2 ≤ i.2) then
    return influences.mergeSort fun a b => decide (b.2 ≤ a.2)
  else return (runSort (fun a b => decide (a.2 < b.2)) influences.reverse).reverse

end Vertex

def maxInfluences : Nat := 4

namespace VertexArrays

/-! ### Influences -/

def totalWeight (influences : List (Int × α)) : α :=
  influences.foldl (fun total i => total + i.2) 0

/-- The strongest influences with weights that add up to one, filled up to four. -/
def normalizedInfluences (influences : List (Int × α)) : Except Failure (List (Int × α)) := do
  let kept := influences.take maxInfluences
  let total := totalWeight kept
  let scaled ← kept.mapM fun i => do return (i.1, ← Scalar.divide i.2 total)
  return scaled ++ List.replicate (maxInfluences - kept.length) (0, 0)

/-- The four influences written for a vertex; weaker ones are dropped with a warning. -/
def influences (v : Vertex α) : Logged (List (Int × α)) := do
  let sorted ← v.heaviestFirst
  if maxInfluences < sorted.length then Logged.warn "Vertex weights more than maximal"
  normalizedInfluences sorted

/-! ### Texts -/

def arrayText (opening : String) (items : List String) : String :=
  opening ++ Text.joinWith ", " items ++ ")"

def numbersText (opening : String) (items : List α) : String :=
  arrayText opening (items.map Scalar.fileText)

def allVertices (a : VertexArrays α) : Except Failure (List (Vertex α)) :=
  a.vertices.toList.mapM (need .missingPart)

/-- The tangents, each with its handedness, if the first vertex has one. -/
def tangentText (first : Vertex α) (vertices : List (Vertex α)) : Except Failure String :=
  if first.tangent.isSome then do
    let entries ← vertices.mapM fun v => do
      let tangent ← need .wrongKind v.tangent
      return tangent ++ [← v.handedness tangent]
    return numbersText "FloatArray(" entries.flatten
  else return "null, ; No Tangents"

def colorText (first : Vertex α) (vertices : List (Vertex α)) : Except Failure String :=
  if first.color.isSome then do
    let entries ← vertices.mapM fun v => do
      let color ← need .wrongKind v.color
      return Vertex.colorEntry color
    return numbersText "ColorArray(" entries.flatten
  else return "null, ; no Vertex Colors"

def uvEntry : List α → Except Failure (List α)
  | x :: y :: _ => .ok [x, 1 - y]
  | _ => .error .outOfRange

/-- A layer of texture coordinates, counted upwards, if the first vertex has it. -/
def uvText (first : Vertex α) (vertices : List (Vertex α)) (layer : Nat) : Except Failure String :=
  if layer < first.uvs.length then do
    let entries ← vertices.mapM fun v => do uvEntry (← need .outOfRange v.uvs[layer]?)
    return numbersText "Vector2Array(" entries.flatten
  else return "null, ; No UV" ++ toString (layer + 1)

def boneTexts (a : VertexArrays α) (vertices : List (Vertex α)) : Logged (List String) :=
  if a.hasBones then do
    let entries ← vertices.mapM influences
    return [arrayText "IntArray(" (entries.flatten.map fun i => toString i.1),
      numbersText "FloatArray(" (entries.flatten.map Prod.snd)]
  else return ["null, ; No Bones", "null, ; No Weights"]

/-- The first three corners of a face, wound the other way round. -/
def faceEntry : List Int → Except Failure (List Int)
  | a :: b :: c :: _ => .ok [a, c, b]
  | _ => .error .outOfRange

def faceText (a : VertexArrays α) : Except Failure String :=
  if a.faces.isEmpty then return "null, ; Morph Object"
  else do
    let entries ← a.faces.mapM faceEntry
    return arrayText "IntArray(" (entries.flatten.map toString)

def render (a : VertexArrays α) : Logged String := do
  let vertices ← a.allVertices
  let first ← need .outOfRange vertices.head?
  let tangents ← tangentText first vertices
  let colors ← colorText first vertices
  let uv ← uvText first vertices 0
  let uv2 ← uvText first vertices 1
  let bones ← a.boneTexts vertices
  let faces ← a.faceText
  let lines := [numbersText "Vector3Array(" (vertices.flatMap fun v => v.position),
    numbersText "Vector3Array(" (vertices.flatMap fun v => v.normal),
    tangents, colors, uv, uv2] ++ bones ++ [faces]
  return "[\n\t\t" ++ Text.joinWith ",\n\t\t" lines ++ "\n\t]"

end VertexArrays

namespace Surface

def propertyName (s : Surface α) : String :=
  "surfaces/" ++ toString s.index

def render (s : Surface α) : Logged String := do
  let base ← s.base.render
  let morphs ← s.morphs.mapM VertexArrays.render
  let material := match s.material with
    | some m => ["\"material\":" ++ m.render]
    | none => []
  let entries := material ++ ["\"primitive\":4", "\"arrays\":" ++ base,
    "\"morph_arrays\":[" ++ Text.joinWith ",\n" morphs ++ "]"]
  return "\x7b\n\t" ++ Text.joinWith ",\n\t" entries ++ "\n\x7d"

end Surface

/-! ### Corners of meshes

A corner of a face becomes a vertex with all that the mesh knows about it, with the second axis
up.  Vertex groups become influences of bones; a vertex of a deformed mesh that no bone
influences is pointed out to the user. -/

variable {α : Type} [Scalar α]

def vectorNote (xs : List α) : String :=
  "<Vector (" ++ Text.joinWith ", " (xs.map Scalar.noteText) ++ ")>"

/-- The first three components of a vector, with the second axis up. -/
def turnedUp (xs : List α) : Except Failure (List α) := do
  return (← Vec3.ofFirst xs).toYUp.toList

/-- The bones that vertex groups stand for, by the numbers of the groups. -/
abbrev GroupBones := List (Int × Nat)

/-- The influences on a vertex: the groups that stand for bones, unless their weight is zero. -/
def MeshVertex.influences (v : MeshVertex α) (bones : GroupBones) : List (Nat × α) :=
  v.groups.filterMap fun (group, weight) =>
    if weight == 0 then none else (bones.lookup group).map (·, weight)

namespace Mesh

/-- The colour of a corner, of which only the first layer counts. -/
def cornerColor? (m : Mesh α) (loop : Int) : Except Failure (Option (List α)) :=
  match m.colors with
  | [] => .ok none
  | layer :: _ => do
    let color ← gammaCorrected (← elementAt layer loop)
    return some color.toList

def corner (m : Mesh α) (bones : GroupBones) (hasTangents : Bool) (index : Int) :
    Logged (Vertex α) := do
  let loop ← elementAt m.loops index
  let vertex ← elementAt m.vertices loop.vertex
  let position ← turnedUp vertex.position
  let uvs ← m.uvs.mapM fun layer => elementAt layer index
  let color ← m.cornerColor? index
  let normal ← turnedUp loop.normal
  let tangent ← if hasTangents then some <$> turnedUp loop.tangent else pure none
  let bitangent ← if hasTangents then some <$> turnedUp loop.bitangent else pure none
  let influences := vertex.influences bones
  if !bones.isEmpty && influences.isEmpty then
    Logged.warn ("No bone assigned vertex detected in mesh '" ++ m.name ++ "' at local position "
      ++ vectorNote vertex.position ++ ".")
  return { position, normal, tangent, bitangent, color, uvs
           bones := influences.map fun i => (i.1 : Int)
           weights := influences.map (·.2) }

end Mesh

/-! ### Splitting a mesh into surfaces

The triangles of a mesh are dealt out to surfaces, one for each material position, in the order
in which the positions are first used (`MeshSplit`).  Within a surface corners with the same
numbers are one vertex (`SurfaceDraft.addVertex`), and it is kept where each corner went, so that
shape keys can be laid over the surface later (`SurfaceDraft.morph`). -/

structure SurfaceDraft (α : Type) where
  material : Option Reference := none
  vertices : Array (Vertex α) := #[]
  /-- The numbers of each vertex. -/
  signatures : List (List α) := []
  /-- The vertices of each triangle. -/
  faces : List (List Int) := []
  /-- The vertex that each corner became, the latest first. -/
  corners : List (Int × Nat) := []

namespace SurfaceDraft

/-- The position of a vertex, which is added unless one with the same numbers is there. -/
def addVertex (d : SurfaceDraft α) (v : Vertex α) : Except Failure (Nat × SurfaceDraft α) := do
  let signature ← v.signature
  match d.signatures.findIdx? (· == signature) with
  | some i => return (i, d)
  | none =>
    return (d.vertices.size,
      { d with vertices := d.vertices.push v, signatures := d.signatures ++ [signature] })

def addCorner (d : SurfaceDraft α) (m : Mesh α) (bones : GroupBones) (hasTangents : Bool)
    (loop : Int) : Logged (Nat × SurfaceDraft α) := do
  let v ← m.corner bones hasTangents loop
  let (i, d) ← d.addVertex v
  return (i, { d with corners := (loop, i) :: d.corners })

def addTriangle (d : SurfaceDraft α) (m : Mesh α) (bones : GroupBones) (hasTangents : Bool)
    (t : LoopTriangle) : Logged (SurfaceDraft α) := do
  let (indices, d) ← t.loops.foldlM (fun (indices, d) loop => do
    let (i, d) ← d.addCorner m bones hasTangents loop
    return (indices ++ [(i : Int)], d)) (([] : List Int), d)
  return { d with faces := d.faces ++ [indices] }

end SurfaceDraft

structure MeshSplit (α : Type) where
  surfaces : Array (SurfaceDraft α) := #[]
  /-- The surface of each material position. -/
  places : List (Int × Nat) := []

namespace MeshSplit

def surfaceOf? (s : MeshSplit α) (material : Int) : Option Nat :=
  s.places.lookup material

def addSurface (s : MeshSplit α) (position : Int) (material : Option Reference) : MeshSplit α :=
  { surfaces := s.surfaces.push { material }
    places := s.places ++ [(position, s.surfaces.size)] }

def addTriangle (s : MeshSplit α) (m : Mesh α) (bones : GroupBones) (hasTangents : Bool)
    (surface : Nat) (t : LoopTriangle) : Logged (MeshSplit α) := do
  let d ← need .outOfRange s.surfaces[surface]?
  let d ← d.addTriangle m bones hasTangents t
  return { s with surfaces := s.surfaces.setIfInBounds surface d }

/-! ### Morph targets -/

/-- Put a corner of a shape over the surfaces.  Each surface has one vertex list in `morphs`. -/
def addMorphCorner (s : MeshSplit α) (m : Mesh α) (bones : GroupBones) (hasTangents : Bool)
    (surface : Nat) (morphs : Array (Array (Option (Vertex α)))) (loop : Int) :
    Logged (Array (Array (Option (Vertex α)))) := do
  let v ← m.corner bones hasTangents loop
  let d ← need .outOfRange s.surfaces[surface]?
  let i ← need .missingKey (d.corners.lookup loop)
  return morphs.modify surface (·.setIfInBounds i (some v))

/-- The vertices of a shape, for each surface.  Each vertex of a surface is taken from the last
corner that became it. -/
def morph (s : MeshSplit α) (m : Mesh α) (bones : GroupBones) (hasTangents : Bool) :
    Logged (Array (Array (Option (Vertex α)))) := do
  let start := s.surfaces.map fun d => d.vertices.map fun _ => none
  (← m.corneredTriangles).foldlM (fun morphs (t, _) => do
    let surface ← need .wrongKind (s.surfaceOf? t.material)
    t.loops.foldlM (s.addMorphCorner m bones hasTangents surface) morphs) start

/-- The finished surfaces, with morph targets that each have one vertex list for each surface. -/
def finish (s : MeshSplit α) (morphs : List (Array (Array (Option (Vertex α))))) (hasBones : Bool) :
    List (Surface α) :=
  s.surfaces.toList.zipIdx.map fun (d, i) =>
    { index := i
      material := d.material
      base := { vertices := d.vertices.map some, faces := d.faces, hasBones }
      morphs := morphs.map fun shapes => { vertices := shapes.getD i #[], hasBones } }

end MeshSplit

end SceneExport
