import SceneExport.Shader.Draft

/-!
# Scene files

The tree of nodes, what its nodes share and the keys by which that is found again, and the file
that they are written to.
-/

namespace SceneExport

/-! ### Resource keys

What a resource was made of.  Two resources made of the same things are the same resource, so
these are the keys of the resource tables. -/

inductive Geometry where
  /-- A mesh that several objects may share. -/
  | mesh (id : MeshId)
  /-- Geometry that belongs to one object. -/
  | own (object : ObjectId)
  | nothing
  deriving DecidableEq, Repr, Inhabited

/-- A setting of a modifier, as far as it tells meshes apart. -/
inductive KeyPart (α : Type) where
  | nothing
  | text (s : String)
  | int (n : Int)
  | real (x : α)
  | flag (b : Bool)
  | object (id : ObjectId)
  /-- A collection, which is like no other: the object, modifier and setting that hold it. -/
  | collection (object : ObjectId) (modifier setting : Nat)
  | list (items : List (KeyPart α))

namespace KeyPart

variable {α : Type} [Scalar α]

/-- A part as a quantity, if it is one; the truth values are one and zero. -/
def quantity? : KeyPart α → Option (Quantity α)
  | .int n => some (.whole n)
  | .real x => some (.real x)
  | .flag b => some (.whole (if b then 1 else 0))
  | _ => none

/-- Whether a part counts as true: it is not empty, zero or nothing. -/
def isOn : KeyPart α → Bool
  | .nothing => false
  | .text s => !s.isEmpty
  | .int n => n != 0
  | .real x => !Scalar.sameSize x 0
  | .flag b => b
  | .object _ | .collection _ _ _ => true
  | .list items => !items.isEmpty

def isList : KeyPart α → Bool
  | .list _ => true
  | _ => false

/-- Whether a part is a list of lists, which cannot be looked up. -/
def isNested : KeyPart α → Bool
  | .list items => items.any isList
  | _ => false

def object? (part : KeyPart α) : Except Failure (Option ObjectId) :=
  match part with
  | .object id => .ok (some id)
  | _ => if part.isOn then .error .missingPart else .ok none

mutual

def same : KeyPart α → KeyPart α → Bool
  | .nothing, .nothing => true
  | .text a, .text b => a == b
  | .object a, .object b => a == b
  | .collection a b c, .collection d e f => a == d && b == e && c == f
  | .list as, .list bs => sameAll as bs
  | a, b =>
    match quantity? a, quantity? b with
    | some x, some y => x.same y
    | _, _ => false

def sameAll : List (KeyPart α) → List (KeyPart α) → Bool
  | [], [] => true
  | a :: as, b :: bs => same a b && sameAll as bs
  | _, _ => false

end

instance : BEq (KeyPart α) where
  beq := same

end KeyPart

/-- What a mesh resource is made of: geometry, the kind of resource, and the modifiers that are
applied with their settings. -/
structure MeshKey (α : Type) where
  geometry : Geometry
  type : String
  modifiers : List (KeyPart α)

instance {α : Type} [Scalar α] : BEq (MeshKey α) where
  beq a b := a.geometry == b.geometry && a.type == b.type && KeyPart.sameAll a.modifiers b.modifiers

inductive InternalKey (α : Type) where
  | mesh (key : MeshKey α)
  | collision (margin : α) (key : MeshKey α)
  /-- A collision shape of simple form: the body that it belongs to. -/
  | body (object : ObjectId)
  | spline (object : ObjectId) (index : Nat)
  | particles (object : ObjectId) (index : Nat)
  | material (object : ObjectId) (material : MaterialId)
  /-- The shader of the node tree that a material has. -/
  | shader (tree : MaterialId)
  /-- A value that someone chose. -/
  | named (name : KeyPart α)

namespace InternalKey

variable {α : Type} [Scalar α]

def same : InternalKey α → InternalKey α → Bool
  | .mesh a, .mesh b => a == b
  | .collision m a, .collision n b => m == n && a == b
  | .body a, .body b => a == b
  | .spline a i, .spline b j => a == b && i == j
  | .particles a i, .particles b j => a == b && i == j
  | .material a m, .material b n => a == b && m == n
  | .shader a, .shader b => a == b
  | .named a, .named b => a == b
  | _, _ => false

instance : BEq (InternalKey α) where
  beq := same

end InternalKey

inductive ExternalKey (α : Type) where
  | image (id : ImageId)
  | material (id : MaterialId)
  | named (name : KeyPart α)

namespace ExternalKey

variable {α : Type} [Scalar α]

def same : ExternalKey α → ExternalKey α → Bool
  | .image a, .image b => a == b
  | .material a, .material b => a == b
  | .named a, .named b => a == b
  | _, _ => false

instance : BEq (ExternalKey α) where
  beq := same

end ExternalKey

/-! ### Resources

What the nodes of a scene share: references to other files (external resources) and entries of
the same file (sub-resources).  Resources are numbered from one in the order in which they were
added, and a key under which a resource was added finds it again (`ResourceTable`). -/

structure ResourceTable (κ ρ : Type) where
  items : Array ρ := #[]
  numbers : List (κ × Nat) := []
  deriving Inhabited

namespace ResourceTable

variable {κ ρ : Type} [BEq κ]

def find? (t : ResourceTable κ ρ) (key : κ) : Option Nat :=
  t.numbers.lookup key

def get? (t : ResourceTable κ ρ) (id : Nat) : Option ρ :=
  if id = 0 then none else t.items[id - 1]?

def force (t : ResourceTable κ ρ) (item : Nat → ρ) : Nat × ResourceTable κ ρ :=
  let id := t.items.size + 1
  (id, { t with items := t.items.push (item id) })

def add (t : ResourceTable κ ρ) (key : κ) (item : Nat → ρ) :
    Except Failure (Nat × ResourceTable κ ρ) :=
  match t.find? key with
  | some _ => .error .duplicateResource
  | none =>
    let (id, t) := t.force item
    .ok (id, { t with numbers := t.numbers ++ [(key, id)] })

def update (t : ResourceTable κ ρ) (id : Nat) (f : ρ → ρ) : ResourceTable κ ρ :=
  if id = 0 then t else { t with items := t.items.modify (id - 1) f }

end ResourceTable

/-! ### External resources -/

variable {α : Type} [Scalar α]

def externalEntry (path type : Value α) : Entry α :=
  { kind := "ext_resource"
    heading := [("id", .nothing), ("path", path), ("type", type)] }

/-- Express the path of an external resource relative to the file that is written to
`target`. -/
def Entry.relativeTo (e : Entry α) (target : String) : Except Failure (Entry α) := do
  let path ← e.heading.value "path"
  if path.isVoid then throw .unusableValue
  let relative ← Path.relative (← path.asText) (Path.directory target)
  return e.setHeading "path" (.text (Path.slashed relative))

/-! ### Sub-resources -/

/-- What a sub-resource is beyond its entry. -/
inductive Detail (α : Type) where
  | plain
  /-- A mesh, with the surface of each material position. -/
  | mesh (surfaces : List (Int × Nat))
  | animation (a : Animation α)
  | shader (s : ShaderScript)

structure Resource (α : Type) where
  entry : Entry α
  detail : Detail α

namespace Resource

instance : Inhabited (Resource α) where
  default := ⟨default, .plain⟩

/-- A sub-resource of a type, before it has a number.  Its name has no points and slashes. -/
def ofType (type name : String) (detail : Detail α) : Resource α :=
  let shown := Text.without (fun c => c == '.' || c == '/') name
  { entry :=
      { kind := "sub_resource"
        heading := [("id", .nothing), ("type", .text type)]
        properties := [("resource_name", .quoted shown)] }
    detail }

def set (r : Resource α) (name : String) (value : Value α) : Resource α :=
  { r with entry := r.entry.set name value }

def withType (r : Resource α) (type : Value α) : Resource α :=
  { r with entry := r.entry.setHeading "type" type }

def numbered (r : Resource α) (id : Nat) : Resource α :=
  { r with entry := r.entry.setHeading "id" (.int id) }

def written (r : Resource α) (timing : Timing) : Except Failure (Entry α) :=
  match r.detail with
  | .animation a => do
    let more ← a.properties timing
    return { r.entry with properties := r.entry.properties.setAll more }
  | .shader s => do
    return r.entry.set "code" (.quoted (← s.render))
  | .plain | .mesh _ => .ok r.entry

def render (r : Resource α) (timing : Timing) : Logged String := do
  let entry ← r.written timing
  entry.render

end Resource

/-! ### Node trees

The nodes of a scene.  Every node that was made is in the tree, in the order of making, whether
or not it is written; a node is known by its position there (`NodeId`).  A new node gets a name
that none of its siblings has, and its heading holds the path of its parent.

A heading can be changed, so that a name or path need not be a text any more.  Then a node below
may not get a heading; it stays among the children of its parent all the same (`Tree.make`). -/

abbrev NodeId := Nat

/-- What a node is beyond its entry. -/
inductive Role where
  | plain
  | camera
  | light
  /-- A skeleton with the bones that it was given: the name of each in the scene and its number. -/
  | skeleton (bones : List (String × Nat))
  /-- An animation player and the sub-resource of its default animation. -/
  | player (active : Option Nat)
  deriving DecidableEq, Repr, Inhabited

structure Node (α : Type) where
  entry : Entry α
  parent : Option NodeId
  role : Role := .plain

namespace Node

variable {α : Type} [Scalar α]

def nameValue (n : Node α) : Except Failure (Value α) :=
  need .missingPart (n.entry.heading.get? "name")

def name (n : Node α) : Except Failure String := do
  (← n.nameValue).asText

def type (n : Node α) : Except Failure String :=
  n.entry.heading.text "type"

/-- What the heading of a node says of its path from the root of the scene. -/
def pathValue (n : Node α) : Except Failure (Value α) := do
  match n.entry.heading.get? "parent" with
  | none => return .text "."
  | some (.text ".") => n.nameValue
  | some (.text parent) => return .text (parent ++ "/" ++ (← n.name))
  | some (.vector xs) => throw (if xs.length = 1 then .wrongKind else .unusableValue)
  | some _ => throw .wrongKind

def path (n : Node α) : Except Failure String := do
  (← n.pathValue).asText

end Node

/-! ### Names -/

def isReserved (c : Char) : Bool :=
  c == '.' || c == '\\' || c == '/' || c == ':'

def nodeName (name : String) : String :=
  Text.without isReserved name

/-- The name with the least of `counter`, `counter + 1`, … behind it that is not taken, after at
most `fuel` tries. -/
def freshName (taken : List String) (base : String) : Nat → Nat → String
  | 0, counter => base ++ Text.padded 3 counter
  | fuel + 1, counter =>
    let candidate := base ++ Text.padded 3 counter
    if taken.contains candidate then freshName taken base fuel (counter + 1) else candidate

/-- A name that is not taken: the given one, or the first free one with a number behind it.  One
of as many numbers as there are names, and one more, is free. -/
def uniqueName (taken : List String) (base : String) : String :=
  if taken.contains base then freshName taken base taken.length 1 else base

/-! ### Trees -/

structure Tree (α : Type) where
  nodes : Array (Node α) := #[]

namespace Tree

variable {α : Type} [Scalar α]

instance : Inhabited (Tree α) where
  default := ⟨#[]⟩

def get (t : Tree α) (id : NodeId) : Except Failure (Node α) :=
  need .missingPart t.nodes[id]?

def children (t : Tree α) (id : NodeId) : List NodeId :=
  (List.range t.nodes.size).filter fun i =>
    match t.nodes[i]? with
    | some n => n.parent == some id
    | none => false

def pathValue (t : Tree α) (id : NodeId) : Except Failure (Value α) := do
  (← t.get id).pathValue

def path (t : Tree α) (id : NodeId) : Except Failure String := do
  (← t.get id).path

def type (t : Tree α) (id : NodeId) : Except Failure String := do
  (← t.get id).type

def update (t : Tree α) (id : NodeId) (f : Node α → Node α) : Tree α :=
  { t with nodes := t.nodes.modify id f }

def set (t : Tree α) (id : NodeId) (name : String) (value : Value α) : Tree α :=
  t.update id fun n => { n with entry := n.entry.set name value }

/-- The names of the children of a node that are texts; a name has to be a single value. -/
def childNames (t : Tree α) (id : NodeId) : Except Failure (List String) := do
  let names ← (t.children id).mapM fun i => do
    let name ← (← t.get i).nameValue
    if name.isSingle then return name.text? else throw .wrongKind
  return names.filterMap fun name => name

def push (t : Tree α) (heading : Heading α) (parent : Option NodeId) (role : Role) : Tree α :=
  { t with nodes := t.nodes.push { entry := { kind := "node", heading }, parent, role } }

/-- Make a node, at the root or below another one.  A node below one whose path is not known is
made without a heading, and then that fails. -/
def make (t : Tree α) (name : String) (type : Value α) (parent : Option NodeId) (role : Role) :
    Except Failure NodeId × Tree α :=
  match parent with
  | none =>
    (.ok t.nodes.size, t.push [("type", type), ("name", .text (nodeName name))] none role)
  | some above =>
    match t.childNames above with
    | .error e => (.error e, t)
    | .ok taken =>
      let unique := uniqueName taken (nodeName name)
      match t.pathValue above with
      | .error e => (.error e, t.push [] parent role)
      | .ok path =>
        (.ok t.nodes.size,
          t.push [("name", .text unique), ("type", type), ("parent", path)] parent role)

end Tree

/-! ### Scene files

A scene file has four sections: its heading, the external resources, the sub-resources and the
nodes.  Sections that are empty are left out, the others are divided by blank lines. -/

structure SceneFile (α : Type) where
  external : ResourceTable (ExternalKey α) (Entry α) := {}
  internal : ResourceTable (InternalKey α) (Resource α) := {}
  tree : Tree α := {}
  /-- The nodes that are written, in order. -/
  written : Array NodeId := #[]

namespace SceneFile

variable {α : Type} [Scalar α]

instance : Inhabited (SceneFile α) where
  default := {}

def heading : Entry α :=
  { kind := "gd_scene", heading := [("load_steps", .int 1), ("format", .int 2)] }

def addExternal (f : SceneFile α) (key : ExternalKey α) (path type : Value α) :
    Except Failure (Nat × SceneFile α) := do
  let entry := externalEntry path type
  let (id, external) ← f.external.add key fun id => entry.setHeading "id" (.int id)
  return (id, { f with external })

def addInternal (f : SceneFile α) (key : InternalKey α) (r : Resource α) :
    Except Failure (Nat × SceneFile α) := do
  let (id, internal) ← f.internal.add key r.numbered
  return (id, { f with internal })

def forceInternal (f : SceneFile α) (r : Resource α) : Nat × SceneFile α :=
  let (id, internal) := f.internal.force r.numbered
  (id, { f with internal })

def write (f : SceneFile α) (id : NodeId) : SceneFile α :=
  { f with written := f.written.push id }

def makeNode (f : SceneFile α) (name : String) (type : Value α) (parent : Option NodeId)
    (role : Role) : Except Failure NodeId × SceneFile α :=
  let (made, tree) := f.tree.make name type parent role
  (made, { f with tree })

def setNode (f : SceneFile α) (id : NodeId) (name : String) (value : Value α) : SceneFile α :=
  { f with tree := f.tree.set id name value }

/-- Express the paths of entries relative to `target`, as far as that is possible: the entries
before the first that has no such path are changed. -/
def relativePaths (target : String) : List (Entry α) → List (Entry α) × Except Failure Unit
  | [] => ([], .ok ())
  | e :: es =>
    match e.relativeTo target with
    | .ok e' =>
      let (rest, result) := relativePaths target es
      (e' :: rest, result)
    | .error failure => (e :: es, .error failure)

/-- Express the paths of all external resources relative to the file that is written to
`target`. -/
def fixPaths (f : SceneFile α) (target : String) : SceneFile α × Except Failure Unit :=
  let (items, result) := relativePaths target f.external.items.toList
  ({ f with external := { f.external with items := items.toArray } }, result)

def joinSections (sections : List String) : String :=
  Text.joinWith "\n\n" (sections.filter (· != "")) ++ "\n"

def render (f : SceneFile α) (timing : Timing) : Logged String := do
  let top ← (heading : Entry α).render
  let external ← f.external.items.toList.mapM Entry.render
  let internal ← f.internal.items.toList.mapM (Resource.render · timing)
  let nodes ← f.written.toList.mapM fun id => do
    let node ← f.tree.get id
    node.entry.render
  return joinSections [top, Text.joinWith "\n\n" external, Text.joinWith "\n\n" internal,
    Text.joinWith "\n\n" nodes]

end SceneFile

end SceneExport
