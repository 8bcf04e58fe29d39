import SceneExport.Proofs.Space.Exact
import SceneExport.Export.Operator
import SceneExport.Proofs.Export.Order

/-!
# Parents come first

In the file of every scene whose lights are supported the root comes first, and every other node
names its parent by the path of exactly one node before it (`saveScene_parent_first`).
-/

namespace SceneExport

open List

variable {α : Type} {view : Session α → γ} {always : Bool}

/-! ### Files of ordered layouts -/

/-- The nodes of a file in the order in which they are written. -/
def SceneFile.writtenNodes (f : SceneFile α) : Except Failure (List (Node α)) :=
  f.written.toList.mapM f.tree.get

def rootHeading (name : String) : Heading α :=
  [("type", .text "Spatial"), ("name", .text (nodeName name))]

/-- The first node is the root of the scene, which has no parent in its heading.  Every other node
has one, and it is the path of exactly one node that is written before. -/
def SceneFile.ParentsFirst (f : SceneFile α) (name : String) : Prop :=
  ∃ nodes, f.writtenNodes = .ok nodes ∧
    (∃ root, nodes[0]? = some root ∧ root.entry.heading = rootHeading name) ∧
    ∀ k n, nodes[k]? = some n → k ≠ 0 → ∃ path,
      n.entry.heading.get? "parent" = some (.text path) ∧
        ∃! j, j < k ∧ nodes[j]?.map Node.path = some (.ok path)

theorem Tree.mapM_get {t : Tree α} {ids : List NodeId} (h : ∀ i ∈ ids, i < t.nodes.size) :
    ∃ nodes, ids.mapM t.get = .ok nodes ∧ ∀ k : Nat, nodes[k]? = ids[k]?.bind fun i =>
    t.nodes[i]? := by
  induction ids with
  | nil => exact ⟨[], rfl, by simp⟩
  | cons i ids ih =>
    obtain ⟨nodes, hm, hk⟩ := ih fun j hj => h j (mem_cons_of_mem _ hj)
    have hi := h i mem_cons_self
    have hget : t.get i = .ok t.nodes[i] := by
      rw [Tree.get, Array.getElem?_eq_getElem hi]
      rfl
    refine ⟨t.nodes[i] :: nodes, ?_, fun k => ?_⟩
    · rw [mapM_cons, hget, hm]
      rfl
    · cases k with
      | zero => simp [hi]
      | succ k => simpa using hk k

namespace Layout

variable {l : Layout α}

theorem Ordered.position_unique (ho : l.Ordered) {j k i : Nat} (hj : l.written[j]? = some i)
    (hk : l.written[k]? = some i) : j = k :=
  (List.getElem?_inj (List.getElem?_eq_some_iff.1 hj).1 ho.nodup).1 (hj.trans hk.symm)

/-- A node that is not the first to be written has a parent, and its heading holds the path of
that parent, which is the path of one node before it. -/
theorem Ordered.parent_first (ho : l.Ordered) {k i : Nat} (hk : l.written[k]? = some i)
    (h0 : k ≠ 0) : ∃ n path, l.nodes[i]? = some n ∧ n.heading.get? "parent" = some (.text path) ∧
      ∃! j, j < k ∧ ∃ q names, l.written[j]? = some q ∧ l.Route q names ∧
      pathText names = path := by
  obtain ⟨names, hr⟩ := ho.route i (ho.bound i (mem_of_getElem? hk))
  cases hr with
  | root h hp =>
    have hfst : l.written[0]? = some 0 := by rw [← head?_eq_getElem?, ho.first]
    exact absurd (ho.position_unique hk hfst) h0
  | @child _ p names name type h hn hp =>
    refine ⟨_, pathText names, h, rfl, ?_⟩
    obtain ⟨j, hj⟩ := mem_iff_getElem?.1 (ho.order hk h)
    rw [getElem?_take] at hj
    obtain ⟨hjk, hj⟩ : j < k ∧ l.written[j]? = some p := by simpa using hj
    refine ⟨j, ⟨hjk, p, names, hj, hp, rfl⟩, ?_⟩
    rintro j' ⟨-, q, names', hq, hr', hpath⟩
    obtain rfl := pathText_injective hr'.isNodeName hp.isNodeName hpath
    obtain rfl := ho.route_injective hr' hp
    exact ho.position_unique hq hj

end Layout

variable {s : Session α}

theorem Session.path_iff_route (ho : s.layout.Ordered) {nodes : List (Node α)}
    (hnds : ∀ k : Nat, nodes[k]? = s.file.written.toList[k]?.bind fun i => s.file.tree.nodes[i]?)
    {j : Nat} {path : String} : nodes[j]?.map Node.path = some (.ok path) ↔
      ∃ q names, s.layout.written[j]? = some q ∧ s.layout.Route q names ∧
      pathText names = path := by
  rw [hnds]
  constructor
  · intro h
    obtain ⟨n, hn, hpath⟩ := Option.map_eq_some_iff.1 h
    obtain ⟨q, hq, hn⟩ := Option.bind_eq_some_iff.1 hn
    obtain ⟨names, hr⟩ := ho.route q (ho.bound q (mem_of_getElem? hq))
    exact ⟨q, names, hq, hr, Except.ok.inj ((Node.path_of_route hn hr).symm.trans hpath)⟩
  · rintro ⟨q, names, hq, hr, rfl⟩
    obtain ⟨m, hm⟩ := hr.exists_node
    obtain ⟨n, hn, -⟩ := getElem?_of_layout hm
    have hw : s.file.written.toList[j]? = some q := hq
    rw [hw, Option.bind_some, hn, Option.map_some, Node.path_of_route hn hr]

theorem Session.parentsFirst_of_ordered {name : String} (ho : s.layout.Ordered)
    (h0 : s.layout.nodes[0]? = some ⟨rootHeading name, none⟩) : s.file.ParentsFirst name := by
  have hsize : s.layout.nodes.length = s.file.tree.nodes.size := by
    simp [Session.layout, Outline.layout, Session.outline]
  have hbound : ∀ i ∈ s.file.written.toList, i < s.file.tree.nodes.size := by
    intro i hi
    rw [← hsize]
    exact ho.bound i hi
  obtain ⟨nodes, hm, hnds⟩ := Tree.mapM_get hbound
  refine ⟨nodes, hm, ?_, ?_⟩
  · obtain ⟨root, hroot, hh, -⟩ := getElem?_of_layout h0
    have hfst : s.file.written.toList[0]? = some 0 := by
      rw [← head?_eq_getElem?]
      exact ho.first
    exact ⟨root, by rw [hnds, hfst, Option.bind_some, hroot], hh⟩
  · intro k n hk hk0
    rw [hnds, Option.bind_eq_some_iff] at hk
    obtain ⟨i, hi, hn⟩ := hk
    obtain ⟨m, path, hm, hp, huniq⟩ := ho.parent_first hi hk0
    obtain rfl := Option.some.inj ((getElem?_layout hn).symm.trans hm)
    exact ⟨path, hp, by simpa only [path_iff_route ho hnds] using huniq⟩

namespace ExportM

/-! ### Exporting a scene -/

variable {γ : Type}

theorem toggleEditMode_keeps (hv : ∀ (s : Session α) requests, view { s with requests } = view s) :
    Keeps always view (toggleEditMode : ExportM α Unit) := by
  refine .bind .get fun _ => .bind (.option (fun _ => object_keeps _)) fun _ => ?_
  exact .modify fun s => hv s _

theorem isEditing_keeps : Keeps always view (isEditing : ExportM α Bool) := by
  refine .bind .get fun s => ?_
  split
  · exact .bind (object_keeps _) fun _ => .pure
  · exact .pure

/-- Leave edit mode, and say whether it was on. -/
def leaveEditMode : ExportM α Bool := do
  let editing ← isEditing
  if editing then toggleEditMode
  return editing

/-- Link skeletons, and go back to edit mode if it was on. -/
def finishScene (cfg : Settings) (editing : Bool) (nodes : ExportedNodes) : ExportM α Unit :=
    do
  if cfg.has .armature then
    nodes.forM fun x => linkSkeletons nodes x.1 x.2
  if editing then toggleEditMode

theorem exportScene_eq [Scalar α] (cfg : Settings) :
    (exportScene cfg : ExportM α ExportedNodes) = do
    let editing ← leaveEditMode
    let nodes ← exportObjects cfg
    finishScene cfg editing nodes
    return nodes := by
  unfold exportScene leaveEditMode finishScene
  simp only [bind_assoc]
  congr 1
  funext editing
  cases editing with
  | true =>
    cases cfg.has .armature <;> simp
  | false =>
    cases cfg.has .armature <;> simp

theorem leaveEditMode_keeps (hv : ∀ (s : Session α) requests, view { s with requests } = view s) :
    Keeps false view (leaveEditMode : ExportM α Bool) := by
  refine .bind isEditing_keeps fun editing => ?_
  split
  · exact .bind (toggleEditMode_keeps hv) fun _ => .pure
  · exact .pure

section

variable {view : Session α → γ} {V : γ → Prop}
  (hv : ∀ (s : Session α) requests, view { s with requests } = view s)
    (hlink : ∀ id v, Lasts view V (setNode id "skeleton" v)) {cfg : Settings}

include hlink

theorem lasts_linkSkeletons (nodes : ExportedNodes) (id : ObjectId) (made : Option NodeId) :
    Lasts view V (linkSkeletons nodes id made) := by
  refine .keeping (object_keeps _) fun o => ?_
  rw [← Array.forIn_toList]
  refine .bind (.forIn (fun _ s => V (view s)) (fun m _ => ?_) _ _) fun _ => .done
  split
  · refine .keeping .lift fun skeleton => .keeping existing_keeps fun mesh => ?_
    refine .keeping nodePath_keeps fun from' => .keeping existing_keeps fun id => ?_
    refine .keeping nodePath_keeps fun to' => .keeping .lift fun path => ?_
    exact .bind (hlink _ _) fun _ => .done
  · exact .done

include hv

theorem lasts_finishScene {editing : Bool} {nodes : ExportedNodes} :
    Lasts view V (finishScene cfg editing nodes) := by
  unfold finishScene
  extract_lets rest
  have hr : ∀ r, Lasts view V (rest r) := by
    intro _
    unfold rest
    split
    · exact (toggleEditMode_keeps hv).leads V
    · exact .done
  split
  · exact .bind (.forM_mem fun x _ => lasts_linkSkeletons hlink _ _ _) hr
  · exact hr ()

theorem exportScene_of_objects [Scalar α] {δ : Type} {f : Session α → δ} {P : δ → Prop}
    (hf : ∀ (s : Session α) requests, f { s with requests } = f s)
    (h : Leads (fun s => P (f s)) (exportObjects cfg) fun _ s => V (view s)) :
    Leads (fun s => P (f s)) (exportScene cfg) fun _ s => V (view s) := by
  rw [exportScene_eq]
  refine .keeping (leaveEditMode_keeps hf) fun editing => .bind h fun nodes => ?_
  exact .bind (lasts_finishScene hv hlink) fun _ => .done

end

/-- The outline of a scene of which only the root is made. -/
def rootOutline (o : Outline α) : Outline α :=
  { o with nodes := [⟨rootHeading o.name, none, none, false⟩], written := [0] }

theorem exportRoot_ok {s' : Session α} {root : NodeId} (hn : s.outline.nodes = [])
    (hw : s.outline.written = []) (h : exportRoot s.scene.name s = .ok root s') : root = 0 ∧
    s'.outline = rootOutline s.outline := by
  have hnds : s.file.tree.nodes = #[] := by simpa [Session.outline] using hn
  have hwrtn : s.file.written = #[] := by simpa [Session.outline] using hw
  cases h
  refine ⟨by rw [hnds]; rfl, ?_⟩
  simp [Session.outline, rootOutline, rootHeading, SceneFile.write, Tree.push, Node.outline, hnds,
    hwrtn, Record.get?, Role.isSkeleton]

/-- The layout of a scene of which only the root is made. -/
def rootLayout (o : Outline α) : Layout α :=
  (rootOutline o).layout

variable (cfg : Settings) (o : Outline α)

theorem rootLayout_ordered : (rootLayout o).Ordered := by
  have hget : ∀ {i : NodeId} {n : NodeLayout α}, (rootLayout o).nodes[i]? = some n → i = 0 ∧
    n.parent = none := by
    intro i n hi
    cases i with
    | zero => cases hi; exact ⟨rfl, rfl⟩
    | succ i => simp [rootLayout, rootOutline, Outline.layout] at hi
  refine ⟨?_, ?_, ?_, rfl, by simp [rootLayout, rootOutline, Outline.layout],
    by simp [rootLayout, rootOutline, Outline.layout], ?_⟩
  · intro i hi
    obtain rfl : i = 0 := by simpa [rootLayout, rootOutline, Outline.layout] using hi
    exact ⟨[], .root rfl rfl⟩
  · intro i j p h h' hi
    exact absurd (hget hi).2 (by simp)
  · intro i p h hi
    exact absurd (hget hi).2 (by simp)
  · intro k i p h _ hi
    exact absurd (hget hi).2 (by simp)

variable [Scalar α]

theorem exportObjects_leads (hn : o.nodes = []) (hw : o.written = []) (hl : o.layout.LightsKnown) :
    Leads (fun s => o = s.outline) (exportObjects cfg) fun _ s =>
      Stage (rootLayout o) none [0] s.layout := by
  intro s hs nodes s' h
  subst hs
  rw [exportObjects, get_bind] at h
  obtain ⟨root, s1, hroot, h2⟩ := bind_ok h
  obtain ⟨made, s2, hmade, h3⟩ := bind_ok h2
  cases h3
  obtain ⟨rfl, hs1⟩ := exportRoot_ok hn hw hroot
  have hst : Stage (rootLayout s.outline) none [0] s1.layout := by
    rw [Session.layout, hs1]
    exact .start (rootLayout_ordered _) (mem_singleton_self 0)
  have hkn : (rootLayout s.outline).LightsKnown := hl
  exact Leads.mapM (fun id => exportObject_stays cfg _ _ id mem_cons_self hkn) _ s1 hst made _
    hmade

theorem exportScene_leads (hn : o.nodes = []) (hw : o.written = []) (hl : o.layout.LightsKnown) :
    Leads (fun s => o = s.outline) (exportScene cfg) fun _ s =>
      Stage (rootLayout o) none [0] s.layout := by
  refine exportScene_of_objects (f := Session.outline) (fun _ _ => rfl) (fun id v => ?_)
    (fun _ _ => rfl) ?_
  · exact (setNode_layout id _ v).leads _
  · exact exportObjects_leads cfg o hn hw hl

/-! ### Saving a scene -/

section Saving

omit [Scalar α]

theorem projectVersion_keeps {directory : String} : Keeps always view (projectVersion directory) :=
    by
  unfold projectVersion
  split
  · exact .pure
  · exact .bind .get fun _ => .bind need_keeps fun _ => .lift

variable {γ : Type} [Aside view]

theorem withFeatures_keeps : Keeps always view (withFeatures cfg) := by
  unfold withFeatures
  split
  · exact .pure
  · have hasked : Keeps always view (projectDirectory? cfg) :=
      .orUnsupported (.map _ (projectDirectory_keeps _)) fun _ => .bind warn_keeps fun _ => .pure
    refine .bind hasked fun directory => ?_
    extract_lets rest
    have hr : ∀ version, Keeps always view (rest version) := by
      intro version
      unfold rest
      split
      · exact .bind say_keeps fun _ => .pure
      · exact .pure
    split
    · exact .bind projectVersion_keeps hr
    · exact .bind .pure hr

theorem writeFile_keeps (path text : String) : Keeps always view (writeFile path text) :=
  .bind .get fun _ => .bind .lift fun files =>
    .modify fun s => Aside.aside s s.log s.requests files s.project s.marks

variable [Scalar α] in
theorem fileText_keeps : Keeps always view (fileText : ExportM α String) :=
  .bind .get fun _ => liftLogged_keeps _

end Saving

theorem fixPaths_keeps [Resourceless view] (target : String) : Keeps always view
    (fixPaths target) := by
  refine .of_get fun s => ?_
  unfold SceneFile.fixPaths
  cases SceneFile.relativePaths target s.file.external.items.toList with
  | mk items result =>
    have hview : view { s with file :=
      { s.file with external := { s.file.external with items := items.toArray } } }
        = view s := Resourceless.tables s s.file.internal _
    cases result with
    | ok _ => exact hview
    | error e => exact fun _ => hview

theorem saveScene_leads (hn : o.nodes = []) (hw : o.written = []) (hl : o.layout.LightsKnown) :
    Leads (fun s => o = s.outline) (saveScene cfg) fun _ s =>
      Stage (rootLayout o) none [0] s.layout := by
  refine .keeping (withFeatures_keeps _) fun cfg => ?_
  refine .bind (exportScene_leads cfg o hn hw hl) fun _ => ?_
  refine .keeping (fixPaths_keeps _).layout fun _ => .keeping (writeFile_keeps _ _).layout fun _ =>
    ?_
  refine .keeping fileText_keeps.layout fun text => ?_
  exact (writeFile_keeps _ _).layout.leads _

/-- **Parents come first.**  If the lights of a scene are supported, the first node in its file is
the root, and every other node has a parent in its heading, which is the path of exactly one of the
nodes before it. -/
theorem saveScene_parent_first {cfg : Settings} {s s' : Session α} (hfile : s.file = {})
    (hlights : ∀ o ∈ s.scene.objects, o.kind = .light → ∀ t ∈ o.data.type?,
      t = "POINT" ∨ t = "SPOT" ∨ t = "SUN")
    (h : saveScene cfg s = .ok () s') : s'.file.ParentsFirst s.scene.name := by
  have hkn : s.outline.layout.LightsKnown := by
    intro t ht
    simp only [Session.outline, Outline.layout, map_map, mem_map, Array.mem_toList_iff] at ht
    obtain ⟨o, ho, he⟩ := ht
    obtain ⟨hk, ht⟩ := Prod.mk.inj he
    rcases hlights o ho hk t ht with rfl | rfl | rfl <;> rfl
  have hstage := saveScene_leads cfg s.outline (by simp [Session.outline, hfile])
    (by simp [Session.outline, hfile]) hkn s rfl () s' h
  exact Session.parentsFirst_of_ordered hstage.ordered (hstage.grown.getElem? rfl)

end ExportM

/-! ### A pile of boxes -/

/-- An object at the origin with nothing but a name, a kind and a parent. -/
def Object.bare {α : Type} [Scalar α] (name : String) (kind : ObjectKind)
    (parent : Option ObjectId) :
    Object α where
  name := name
  kind := kind
  parent := parent
  parentBone := ""
  inEditMode := false
  localTransform := ⟨.identity, []⟩
  basis := .identity
  world := .identity
  parentInverse := .identity
  rotationMode := .quaternion
  hiddenInRender := false
  visible := true
  selected := false
  inViewLayer := true
  displayType := "TEXTURED"
  emptyDisplayType := "PLAIN_AXES"
  boundBox := [[0, 0, 0], [1, 1, 1]]
  constraints := 0
  animation := none
  activeShapeKey := 0
  onlyShapeKey := false
  slots := []
  vertexGroups := []
  modifiers := #[]
  rigidBody := none
  mesh := none
  data := .nothing
  particles := []
  activeParticles := none

def RigidBody.falling {α : Type} [Scalar α] : RigidBody α where
  shape := "BOX"
  type := "ACTIVE"
  kinematic := false
  useMargin := false
  margin := 0
  collections := [true]
  friction := 0
  restitution := 0
  linearDamping := 0
  angularDamping := 0
  useDeactivation := false
  startDeactivated := false

def LightData.sun {α : Type} [Scalar α] : LightData α where
  type := "SUN"
  animation := none
  color := ⟨1, 1, 1⟩
  shadowColor := ⟨0, 0, 0⟩
  useShadow := true
  castShadow := true
  energy := 1
  specularFactor := 0
  cutoffDistance := 0
  spotSize := 0
  spotBlend := 0

/-- A pile of boxes, one of wires, under the sun: two objects of one name, and nodes that belong
to the body of another object. -/
def pile : Session ℚ where
  scene.objects := #[.bare "Pile" .empty none, .bare "Pile" .empty none,
    { Object.bare "Box" .mesh (some 0) with rigidBody := some .falling, displayType := "WIRE" },
    .bare "Lid" .empty (some 2),
    { Object.bare "Box" .mesh (some 3) with rigidBody := some .falling },
    { Object.bare "Sun" .light none with data := .light .sun }]

namespace ExportM

theorem saveScene_parent_first_pile :
    ∃ s', saveScene { path := "/pile.escn" } pile = .ok () s' ∧ s'.file.ParentsFirst "Scene" := by
  obtain ⟨_, s', h⟩ := exists_ok (saveScene { path := "/pile.escn" }) pile
  exact ⟨s', h, saveScene_parent_first rfl (by decide +kernel) h⟩

end ExportM

end SceneExport
