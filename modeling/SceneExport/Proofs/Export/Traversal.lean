import SceneExport.Proofs.Export.Lasting
import SceneExport.Proofs.Scene.Forest

/-!
# Objects are exported one after the other

An export goes down from the roots of a scene by recursion, and at each object it sets the object
that is worked on and sets it back in the end.  All the same it is a plain loop over the selected
objects in order (`Scene.order`): each is visited once, is exported as what it is or as an empty,
and is put below the node that the visit of its parent made (`ExportM.visit`).

Main statement: an export that completes gives the nodes, and leaves the session, that the visits in
order do (`ExportM.exportScene_visits`).
-/

namespace SceneExport

open List

variable {α : Type} {cfg : Settings} {id : ObjectId} {selection : Selection}

/-- The session with another object that is worked on. -/
def Session.withActive (s : Session α) (active : Option ObjectId) : Session α :=
  { s with scene := { s.scene with active } }

namespace ExportM

variable [Scalar α]

/-! ### Visits -/

/-- Export an object as something, below a node. -/
def exportAs (cfg : Settings) (kind : ObjectKind) (id : ObjectId) (o : Object α)
    (parent : Option NodeId) : ExportM α (Option NodeId) := do
  let parent ← nodeAbove cfg id o parent
  exportOwnParticles cfg id o parent
  let made ← exportKind cfg kind id parent
  correctTransform cfg o parent made
  animateObject cfg id parent made
  return made

/-- The node that was made for the parent of an object; the root if it has no parent. -/
def nodeOver (scene : Scene α) (root : NodeId) (nodes : ExportedNodes) (id : ObjectId) :
    Option NodeId :=
  (scene.parent? id).elim (some root) fun p => (nodes.lookup p).join

/-- What an object is exported as: what it is, if it is accepted, else an empty. -/
def visitedKind (selection : Selection) (id : ObjectId) (o : Object α) : ExportM α ObjectKind := do
  if selection.accepted.contains id then return o.kind
  warn ("Object is parent of exported objects. Treating as empty: " ++ o.name)
  return .empty

def visit (cfg : Settings) (scene : Scene α) (selection : Selection) (root : NodeId)
    (nodes : ExportedNodes) (id : ObjectId) : ExportM α ExportedNodes := do
  setActive (some id)
  let o ← object id
  let kind ← visitedKind selection id o
  let made ← exportAs cfg kind id o (nodeOver scene root nodes id)
  return nodes ++ [(id, made)]

def visitObjects (cfg : Settings) (order : List ObjectId) : ExportM α ExportedNodes := do
  let scene := (← get).scene
  let root ← exportRoot scene.name
  let nodes ← order.foldlM (visit cfg scene (scene.selection cfg) root) []
  setActive scene.active
  return nodes

def visitScene (cfg : Settings) (order : List ObjectId) : ExportM α ExportedNodes := do
  let editing ← leaveEditMode
  let nodes ← visitObjects cfg order
  finishScene cfg editing nodes
  return nodes

/-! ### One visit -/

section

variable {parent made : Option NodeId} {t t' : Session α} {o : Object α} {kind : ObjectKind}

omit [Scalar α] in
theorem object_apply (ho : t.scene.objects[id]? = some o) : object id t = .ok o t :=
  lift_apply (by rw [Scene.object, ho]; rfl) t

/-- An object of a type that cannot be exported stops the export. -/
theorem exportKind_isKnown (h : exportKind cfg kind id parent t = .ok made t') : kind.isKnown =
    true := by
  cases kind with
  | particle => cases h
  | geometry => cases h
  | other word => cases h
  | _ => rfl

theorem exportAs_isKnown (h : exportAs cfg kind id o parent t = .ok made t') : kind.isKnown =
    true := by
  obtain ⟨above, _, -, h⟩ := bind_ok h
  obtain ⟨_, _, -, h⟩ := bind_ok h
  obtain ⟨made, _, hkind, -⟩ := bind_ok h
  exact exportKind_isKnown hkind

omit [Scalar α] in
theorem exportedKind_of_known (hk : o.kind.isKnown = true) :
    exportedKind selection id o = visitedKind selection id o := by
  unfold exportedKind visitedKind
  rw [hk]
  rfl

theorem exportSingle_eq (cfg : Settings) (selection : Selection) (id : ObjectId)
    (parent : Option NodeId) :
    (exportSingle cfg selection id parent : ExportM α (Option NodeId)) = object id >>= fun o =>
    exportedKind selection id o >>= fun kind =>
        exportAs cfg kind id o parent :=
  rfl

theorem exportSingle_isKnown (h : exportSingle cfg selection id parent t = .ok made t') :
    ∃ o, t.scene.objects[id]? = some o ∧ o.kind.isKnown = true := by
  rw [exportSingle_eq] at h
  obtain ⟨o, ho, h1⟩ := look_ok object_ok h
  refine ⟨o, ho, ?_⟩
  obtain ⟨kind, s2, hkind, h2⟩ := bind_ok h1
  by_contra hk
  -- The warning says that it is treated as an empty, but it is not.
  unfold exportedKind at hkind
  rw [if_pos (by simpa using hk)] at hkind
  obtain ⟨_, _, -, hkind⟩ := bind_ok hkind
  cases hkind
  exact hk (exportAs_isKnown h2)

theorem visit_of_exportSingle {scene : Scene α} {root : NodeId} {nodes : ExportedNodes}
    (h : exportSingle cfg selection id (nodeOver scene root nodes id)
    (t.withActive (some id)) = .ok made t') (active : Option ObjectId) :
    visit cfg scene selection root nodes id (t.withActive active) = .ok (nodes ++ [(id, made)])
    t' := by
  obtain ⟨o, ho, hkn⟩ := exportSingle_isKnown h
  have hobj := object_apply ho
  have hvst : visit cfg scene selection root nodes id (t.withActive active)
      = (object id >>= fun o => visitedKind selection id o >>= fun kind =>
        exportAs cfg kind id o (nodeOver scene root nodes id) >>= fun made =>
          pure (nodes ++ [(id, made)])) (t.withActive (some id)) := rfl
  rw [exportSingle_eq] at h
  obtain ⟨o', _, ho', h⟩ := bind_ok h
  rw [hobj] at ho'
  cases ho'
  rw [exportedKind_of_known hkn] at h
  obtain ⟨kind, s1, hkind, h⟩ := bind_ok h
  rw [hvst]
  rw [bind_of_ok hobj, bind_of_ok hkind, bind_of_ok h]
  rfl

end

/-! ### Visits one after the other -/

section

variable {scene : Scene α} {root : NodeId} {ids ids' : List ObjectId}
  {nodes below below' : ExportedNodes} {t t1 t' : Session α}

/-- Objects were exported, and the nodes `below` were made for them.  Visiting them in order does
the same, but for the object that is worked on in the end. -/
structure Visited (cfg : Settings) (scene : Scene α) (selection : Selection) (root : NodeId)
    (ids : List ObjectId) (nodes : ExportedNodes) (t : Session α) (below : ExportedNodes)
    (t' : Session α) : Prop where
  keys : below.map Prod.fst = ids
  known : ∀ id ∈ ids, ∃ o, scene.objects[id]? = some o ∧ o.kind.isKnown = true
  objects : t'.outline.objects = t.outline.objects
  visits : ∀ active, ∃ u, ids.foldlM (visit cfg scene selection root) nodes
    (t.withActive active) = .ok (nodes ++ below) u ∧ t' = u.withActive t.scene.active

theorem Visited.nil : Visited cfg scene selection root [] nodes t [] t := by
  refine ⟨rfl, nofun, rfl, fun active => ⟨t.withActive active, ?_, rfl⟩⟩
  rw [append_nil]
  rfl

theorem Visited.append (h : Visited cfg scene selection root ids nodes t below t1)
    (h' : Visited cfg scene selection root ids' (nodes ++ below) t1 below' t') :
    Visited cfg scene selection root (ids ++ ids') nodes t (below ++ below') t' := by
  refine ⟨?_, fun id hid => ?_, h'.objects.trans h.objects, fun active => ?_⟩
  · rw [map_append, h.keys, h'.keys]
  · exact (mem_append.1 hid).elim (h.known id) (h'.known id)
  · obtain ⟨u, hu, rfl⟩ := h.visits active
    -- The second visits start from the session that the first visits have left.
    obtain ⟨u', hu', rfl⟩ := h'.visits u.scene.active
    refine ⟨u', ?_, rfl⟩
    have hsame : (u.withActive t.scene.active).withActive u.scene.active = u := rfl
    rw [hsame] at hu'
    rw [foldlM_append, bind_of_ok hu, hu', append_assoc]

variable {made parent : Option NodeId} {depth : Nat}

theorem Visited.cons (hshw : t.Shows scene)
    (h : exportSingle cfg selection id (nodeOver scene root nodes id)
    (t.withActive (some id)) = .ok made t1)
    (h' : Visited cfg scene selection root ids (nodes ++ [(id, made)]) t1 below t') :
    Visited cfg scene selection root (id :: ids) nodes t ((id, made) :: below)
      (t'.withActive t.scene.active) := by
  have hadds := adds_of_ok (fun base => (lasting_plan base).exportSingle _ _ _ _) h
  refine ⟨?_, forall_mem_cons.2 ⟨?_, h'.known⟩, h'.objects.trans hadds.objects, fun active => ?_⟩
  · rw [map_cons, h'.keys]
  · obtain ⟨o, ho, hkn⟩ := exportSingle_isKnown h
    obtain ⟨o', ho', hout⟩ := hshw.object ho
    have hkind : o'.kind = o.kind := congrArg ObjectOutline.kind hout
    exact ⟨o', ho', hkind ▸ hkn⟩
  · obtain ⟨u, hu, rfl⟩ := h'.visits t1.scene.active
    refine ⟨u, ?_, rfl⟩
    have hsame : t1.withActive t1.scene.active = t1 := rfl
    rw [hsame] at hu
    rw [foldlM_cons, bind_of_ok (visit_of_exportSingle h active), hu, append_assoc]
    rfl

theorem visited_mapM {results : List ExportedNodes}
    (hone : ∀ id ∈ ids, ∀ {nodes below t t'}, t.outline.objects = scene.objects.toList.map
    Object.outline → nodeOver scene root nodes id = parent →
      (nodes.map Prod.fst ++ scene.preorder selection.valid depth id).Nodup →
      exportObject cfg selection depth parent id t = .ok below t' →
      Visited cfg scene selection root (scene.preorder selection.valid depth id) nodes t below
      t')
    (hobjs : t.outline.objects = scene.objects.toList.map Object.outline)
    (hover : ∀ id ∈ ids, ∀ more, nodeOver scene root (nodes ++ more) id = parent)
    (hnd : (nodes.map Prod.fst ++ ids.flatMap (scene.preorder selection.valid depth)).Nodup)
    (h : ids.mapM (exportObject cfg selection depth parent) t = .ok results t') :
    Visited cfg scene selection root (ids.flatMap (scene.preorder selection.valid depth)) nodes
    t results.flatten t' := by
  induction ids generalizing nodes t results with
  | nil =>
    cases h
    exact .nil
  | cons id ids ih =>
    rw [mapM_cons] at h
    obtain ⟨first, t1, hfst, h1⟩ := bind_ok h
    obtain ⟨rest, t2, hrest, h2⟩ := bind_ok h1
    cases h2
    rw [flatMap_cons, ← append_assoc] at hnd
    have hnds : nodeOver scene root nodes id = parent := by
      simpa using hover id mem_cons_self []
    have hid := hone id mem_cons_self hobjs hnds hnd.of_append_left hfst
    refine hid.append (ih (fun c hc => hone c (mem_cons_of_mem _ hc)) (hid.objects.trans hobjs)
      (fun c hc more => ?_) ?_ hrest)
    · rw [append_assoc]
      exact hover c (mem_cons_of_mem _ hc) _
    · rw [map_append, hid.keys]
      exact hnd

theorem lookup_of_nodup (more : ExportedNodes) (h : id ∉ nodes.map Prod.fst) :
    (nodes ++ [(id, made)] ++ more).lookup id = some made := by
  induction nodes with
  | nil => simp
  | cons x nodes ih =>
    rw [map_cons, mem_cons, not_or] at h
    have hne : (id == x.1) = false := by simpa using h.1
    rw [cons_append, cons_append, lookup_cons, hne]
    exact ih h.2

theorem visited_exportObject (hobjs : t.outline.objects = scene.objects.toList.map Object.outline)
    (hover : nodeOver scene root nodes id = parent)
    (hnd : (nodes.map Prod.fst ++ scene.preorder selection.valid depth id).Nodup)
    (h : exportObject cfg selection depth parent id t = .ok below t') :
    Visited cfg scene selection root (scene.preorder selection.valid depth id) nodes t below
    t' := by
  induction depth generalizing parent id nodes t below t' with
  | zero =>
    cases h
    exact .nil
  | succ depth ih =>
    by_cases hid : id ∈ selection.valid
    · rw [Scene.preorder_of_mem hid] at hnd ⊢
      rw [exportObject, if_neg (by simpa using hid)] at h
      rw [get_bind] at h
      obtain ⟨_, _, hact, h2⟩ := bind_ok h
      cases hact
      obtain ⟨made, t1, hsing, h3⟩ := bind_ok h2
      rw [get_bind] at h3
      obtain ⟨results, t2, hresu, h5⟩ := bind_ok h3
      obtain ⟨_, _, hact, h6⟩ := bind_ok h5
      cases hact
      cases h6
      rw [← hover] at hsing
      have hadds := adds_of_ok (fun base => (lasting_plan base).exportSingle _ _ _ _) hsing
      have hobjects1 := hadds.objects.trans hobjs
      rw [Scene.children_congr hobjects1] at hresu
      -- The node of the object is found for each of its children, as no object comes twice.
      have hnew : id ∉ nodes.map Prod.fst := by
        intro hmem
        exact (disjoint_of_nodup_append hnd) hmem mem_cons_self
      refine .cons hobjs hsing (visited_mapM (fun c _ => ih) hobjects1 (fun c hc more => ?_) ?_
        hresu)
      · rw [nodeOver, Scene.mem_children.1 hc]
        show (List.lookup id (nodes ++ [(id, made)] ++ more)).join = made
        rw [lookup_of_nodup more hnew]
        rfl
      · rw [map_append, append_assoc]
        exact hnd
    · rw [Scene.preorder_of_not_mem hid]
      rw [exportObject, if_pos (by simpa using hid)] at h
      cases h
      exact .nil

theorem lookup_isSome_iff : (nodes.lookup id).isSome = true ↔ id ∈ nodes.map Prod.fst := by
  rw [List.lookup_isSome_iff, List.mem_map]
  refine exists_congr fun x => and_congr_right fun _ => ?_
  rw [beq_iff_eq, eq_comm]

omit [Scalar α] in
theorem nodeOver_append {root : NodeId} (h : ∀ p, scene.parent? id = some p →
    p ∈ nodes.map Prod.fst) (more : ExportedNodes) : nodeOver scene root (nodes ++ more) id =
    nodeOver scene root nodes id := by
  unfold nodeOver
  cases hp : scene.parent? id with
  | none => rfl
  | some p =>
    have hsome := lookup_isSome_iff.2 (h p hp)
    rw [Option.elim_some, Option.elim_some, lookup_append, Option.or_of_isSome hsome]

/-- In a list without repetition what comes before an object of the list is found in front of it. -/
theorem mem_of_pair_sublist {before after : List ObjectId} {p : ObjectId}
    (hnd : (before ++ id :: after).Nodup) (h : [p, id].Sublist (before ++ id :: after)) :
    p ∈ before := by
  obtain ⟨first, second, hsplit, hfst, hseco⟩ := sublist_append_iff.1 h
  cases first with
  | cons x first =>
    obtain ⟨rfl, -⟩ := List.cons.inj hsplit
    exact hfst.subset mem_cons_self
  | nil =>
    have hpost : id ∉ after := (nodup_cons.1 hnd.of_append_right).1
    rw [nil_append] at hsplit
    subst hsplit
    rcases sublist_cons_iff.1 hseco with hseco | ⟨rest, hrest, hseco⟩
    · exact absurd (hseco.subset (by simp)) hpost
    · cases hrest
      exact absurd (hseco.subset (by simp)) hpost

end

/-! ### The scene -/

section

variable {nodes : ExportedNodes} {s s' : Session α} {editing : Bool}

omit [Scalar α] in
theorem exportRoot_scene {name : String} {root : NodeId} (h : exportRoot name s = .ok root s') :
    s'.scene = s.scene := by
  cases h
  rfl

theorem visited_exportObjects (hs : s.scene.IsForest) (h : exportObjects cfg s = .ok nodes s')
    : ∃ root s1, exportRoot s.scene.name s = .ok root s1 ∧ s1.scene = s.scene ∧
      Visited cfg s.scene (s.scene.selection cfg) root
        (s.scene.order (s.scene.selection cfg)) [] s1 nodes s' := by
  rw [exportObjects, get_bind] at h
  obtain ⟨root, s1, hroot, h2⟩ := bind_ok h
  obtain ⟨results, s2, hresu, h3⟩ := bind_ok h2
  cases h3
  have hsc : s1.scene = s.scene := exportRoot_scene hroot
  have hobjs : s1.outline.objects = s.scene.objects.toList.map Object.outline := by
    rw [← hsc]
    rfl
  refine ⟨root, s1, hroot, hsc, visited_mapM (fun id _ => visited_exportObject) hobjs
    (fun id hid more => ?_) hs.nodup_order hresu⟩
  rw [nodeOver, (Scene.mem_selectedRoots.1 hid).2.2]
  rfl

/-- What holds of the root, and after each visit of an object that comes after that of its parent,
holds when all objects are exported. -/
theorem exportObjects_induction {I : NodeId → ExportedNodes → Session α → Prop}
    (hs : s.scene.IsForest) (hact : ∀ {root nodes t} active, I root nodes t →
    I root nodes (t.withActive active)) (hroot : ∀ root s1, exportRoot s.scene.name s =
    .ok root s1 → I root [] s1) (hvst : ∀ {root nodes id o}, s.scene.objects[id]? = some o →
    id ∉ nodes.map Prod.fst → (∀ p, s.scene.parent? id = some p → p ∈ nodes.map Prod.fst) →
    Leads (I root nodes) (visit cfg s.scene (s.scene.selection cfg) root nodes id)
    fun nodes' t =>
          ∃ made, nodes' = nodes ++ [(id, made)] ∧ I root nodes' t)
    (h : exportObjects cfg s = .ok nodes s') :
    ∃ root, nodes.map Prod.fst = s.scene.order (s.scene.selection cfg) ∧ I root nodes s' := by
  obtain ⟨root, s1, hr, -, hvisd⟩ := visited_exportObjects hs h
  obtain ⟨u, hu, rfl⟩ := hvisd.visits s1.scene.active
  -- What is still to be visited completes what was visited to the order.
  have hend := Leads.foldlM (fun rest nodes t => I root nodes t ∧
    nodes.map Prod.fst ++ rest = s.scene.order (s.scene.selection cfg))
    (fun id rest nodes => ?_) _ [] s1
      ⟨hroot root s1 hr, rfl⟩ _ u hu
  · exact ⟨root, hvisd.keys, hact _ hend.1⟩
  · refine .of_fact fun hord => ?_
    have hmem : id ∈ s.scene.order (s.scene.selection cfg) := by simp [← hord]
    have hnd := hord ▸ hs.nodup_order
    have hnew : id ∉ nodes.map Prod.fst := fun h => (disjoint_of_nodup_append hnd) h mem_cons_self
    obtain ⟨o, ho, -⟩ := hvisd.known id hmem
    refine (hvst ho hnew fun p hp => ?_).post ?_
    · exact mem_of_pair_sublist hnd (hord ▸ Scene.parent_before hmem hp)
    · rintro _ t ⟨made, rfl, ht⟩
      exact ⟨ht, by simp [← hord]⟩

theorem exportObjects_visits (hs : s.scene.IsForest) (h : exportObjects cfg s = .ok nodes s') :
    visitObjects cfg (s.scene.order (s.scene.selection cfg)) s = .ok nodes s' ∧
      nodes.map Prod.fst = s.scene.order (s.scene.selection cfg) ∧
      s'.scene.active = s.scene.active := by
  obtain ⟨root, s1, hroot, hsc, hvisd⟩ := visited_exportObjects hs h
  obtain ⟨u, hu, rfl⟩ := hvisd.visits s1.scene.active
  have hsame : s1.withActive s1.scene.active = s1 := rfl
  rw [hsame, nil_append] at hu
  refine ⟨?_, hvisd.keys, ?_⟩
  · unfold visitObjects
    rw [get_bind, bind_of_ok hroot, bind_of_ok hu, hsc]
    rfl
  · rw [← hsc]
    rfl

omit [Scalar α] in
theorem leaveEditMode_scene (h : leaveEditMode s = .ok editing s') : s'.scene = s.scene := by
  have hkp : Keeps false Session.scene (leaveEditMode : ExportM α Bool) :=
    leaveEditMode_keeps fun _ _ => rfl
  exact hkp.ok h

omit [Scalar α] in
theorem finishScene_scene (h : finishScene cfg editing nodes s = .ok () s') : s'.scene =
    s.scene := by
  have hset (id : NodeId) (v : Value α) : Keeps false Session.scene (setNode id "skeleton" v) :=
    .modify fun _ => rfl
  have hlasts : Lasts Session.scene (· = s.scene) (finishScene cfg editing nodes) :=
    lasts_finishScene (fun _ _ => rfl) (fun id v => (hset id v).leads (· = s.scene))
  exact hlasts s rfl () s' h

/-- What is done before and after the objects are exported changes neither the scene nor its
nodes. -/
theorem exportScene_ok (h : exportScene cfg s = .ok nodes s') :
    ∃ s1 s2, s1.scene = s.scene ∧ s1.file = s.file ∧ exportObjects cfg s1 = .ok nodes s2 ∧
      s2.outline = s'.outline := by
  rw [exportScene_eq] at h
  obtain ⟨editing, s1, hleave, h1⟩ := bind_ok h
  obtain ⟨nodes', s2, hobjs, h2⟩ := bind_ok h1
  obtain ⟨_, s3, hfini, h3⟩ := bind_ok h2
  cases h3
  have hfile : Keeps false Session.file (leaveEditMode : ExportM α Bool) := leaveEditMode_keeps
    fun _ _ => rfl
  have houtl : Lasts Session.outline (s2.outline = ·) (finishScene cfg editing nodes) :=
    lasts_finishScene (fun _ _ => rfl) (fun _ _ => (setNode_keeps _ (by decide) _).leads _)
  exact ⟨s1, s2, leaveEditMode_scene hleave, hfile.ok hleave, hobjs, houtl s2 rfl () _ hfini⟩

/-- **Selection and traversal.**  Of a forest of objects those take part in an export that the
settings accept, and all above them.  An export that completes visits each of them once, after its
parent, and nothing else; it exports what is accepted as what it is and the others as empties, and
it records a node for exactly these objects.  Afterwards the object that was worked on before is
worked on again. -/
theorem exportScene_visits (hs : s.scene.IsForest) (h : exportScene cfg s = .ok nodes s') :
    (∀ id, id ∈ (s.scene.selection cfg).accepted ↔
      ∃ o, s.scene.objects[id]? = some o ∧ s.scene.accepts cfg o = true) ∧
    (∀ id, id ∈ (s.scene.selection cfg).valid ↔
      ∃ a ∈ (s.scene.selection cfg).accepted, id = a ∨ s.scene.Above id a) ∧
    ∃ order : List ObjectId, order.Nodup ∧
    (∀ id, id ∈ order ↔ id ∈ (s.scene.selection cfg).valid) ∧
    (∀ id ∈ order, ∀ p, s.scene.parent? id = some p → [p, id].Sublist order) ∧ visitScene cfg
    order s = .ok nodes s' ∧ nodes.map Prod.fst = order ∧ s'.scene.active = s.scene.active := by
  refine ⟨fun id => Scene.mem_accepted, fun id => hs.mem_valid,
    s.scene.order (s.scene.selection cfg), hs.nodup_order, fun id => hs.mem_order,
    fun id hid p hp => Scene.parent_before hid hp, ?_⟩
  rw [exportScene_eq] at h
  obtain ⟨editing, s₁, hleave, h1⟩ := bind_ok h
  obtain ⟨nodes', s₂, hobjs, h2⟩ := bind_ok h1
  obtain ⟨_, s₃, hfini, h3⟩ := bind_ok h2
  cases h3
  have hsc := leaveEditMode_scene hleave
  rw [← hsc] at hs ⊢
  obtain ⟨hvis, hkeys, hact⟩ := exportObjects_visits hs hobjs
  refine ⟨?_, hkeys, ?_⟩
  · unfold visitScene
    rw [bind_of_ok hleave, bind_of_ok hvis, bind_of_ok hfini]
    rfl
  · rw [finishScene_scene hfini]
    exact hact

end

end ExportM

/-! ### A grove -/

/-- A nest and a leaf are selected, on a branch of a tree that is not; a stone is edited. -/
def grove : Session ℚ where
  scene.active := some 1
  scene.objects := #[{ Object.bare "Nest" .mesh (some 2) with selected := true },
    { Object.bare "Stone" .mesh none with inEditMode := true },
    .bare "Branch" .mesh (some 3),
    .bare "Tree" .empty none,
    { Object.bare "Leaf" .empty (some 2) with selected := true },
    .bare "Bird" .empty (some 0)]

namespace ExportM

/-- Settings with which only what is selected is exported. -/
def groveSettings : Settings :=
  { Settings.withGeometry {} with onlySelected := true }

theorem exportScene_visits_grove : grove.scene.IsForest ∧
    ∃ nodes s', exportScene groveSettings grove = .ok nodes s' ∧
      visitScene groveSettings [3, 2, 0, 4] grove = .ok nodes s' ∧
      nodes.map Prod.fst = [3, 2, 0, 4] ∧ s'.scene.active = some 1 := by
  have hfor : grove.scene.IsForest := by decide +kernel
  obtain ⟨nodes, s', h, hkeys⟩ := exists_yield (exportScene groveSettings) grove
    (fun nodes _ => nodes.map Prod.fst == [3, 2, 0, 4])
  obtain ⟨-, -, order, -, -, -, hvis, hord, hact⟩ := exportScene_visits hfor h
  obtain rfl : order = [3, 2, 0, 4] := hord.symm.trans (eq_of_beq hkeys)
  exact ⟨hfor, nodes, s', h, hvis, hord, hact⟩

end ExportM

end SceneExport
