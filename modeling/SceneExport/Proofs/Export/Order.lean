import SceneExport.Proofs.Export.Growth

/-!
# The order in which objects are exported

Whatever is exported, a node is made below a node that is written already and is written itself
before anything is made below it.  So each function that makes a node of its own leads from a stage
at which a node is placed to one at which the node that is returned is placed too (`crafts_stage`),
and the same holds of an object and all objects below it (`exportObject_stays`).
-/

namespace SceneExport

open List
open Session (layout outline)

/-- Every light of the scene is of a type that is supported. -/
def Layout.LightsKnown {α : Type} (l : Layout α) : Prop :=
  ∀ t, (ObjectKind.light, some t) ∈ l.objects → (lightNodeType? t).isSome

namespace ExportM

variable {α : Type} {base : Layout α} {placed : List NodeId} {p : NodeId}

/-- If all nodes of `placed` are written, the step leads to a session in which the node that it
returns is written too. -/
abbrev Places (base : Layout α) (placed : List NodeId) (step : ExportM α NodeId) : Prop :=
  Leads (fun s => Stage base none placed s.layout) step
    fun id s => Stage base none (id :: placed) s.layout

/-- As `Places`, of a step that could also return nothing. -/
abbrev PlacesSome (base : Layout α) (placed : List NodeId) (step : ExportM α (Option NodeId)) :
    Prop :=
  Leads (fun s => Stage base none placed s.layout) step
    fun made s => ∃ i, Stage base none (i :: placed) s.layout ∧ made = some i

/-- The step leads from a stage to itself. -/
abbrev Stays {β : Type} (base : Layout α) (placed : List NodeId) (step : ExportM α β) : Prop :=
  Leads (fun s => Stage base none placed s.layout) step fun _ s => Stage base none placed s.layout

/-! ### Players -/

theorem makePlayer_leads (hp : p ∈ placed) :
    Brings layout (Stage base none placed) (makePlayer (some p)) fun id => Stage base (some id)
    placed := by
  refine .bind (makeNode_leads hp _ _ _) fun player => ?_
  refine .keeping nodePath_keeps fun path => .keeping existing_keeps fun above => ?_
  refine .keeping nodePath_keeps fun path' => .keeping .lift fun between => ?_
  exact .keeping (setNode_layout _ _ _) fun _ => .pure fun _ h => h

variable (cfg : Settings) (selection : Selection) (o : Object α) (id : ObjectId)

theorem playerFor_stays (hp : p ∈ placed) : Stays base placed (playerFor cfg (some p)) := by
  unfold playerFor
  extract_lets rest
  have hr : ∀ {q : NodeId} {placed' : List NodeId} (found : Option NodeId), q ∈ placed' →
      placed ⊆ placed' → Brings layout (Stage base none placed') (rest (some q, found)) fun _ =>
        Stage base none placed := by
    intro q placed' found hq hsub
    cases found with
    | some player => exact .pure fun _ h => h.weaken hsub
    | none =>
      refine .bind (makePlayer_leads hq) fun player => .bind (writeNode_leads _) fun _ => ?_
      exact .pure fun _ h => h.weaken (subset_cons_of_subset _ hsub)
  split
  · exact hr none hp (List.Subset.refl _)
  · -- The root of the scene is the first node that was written.
    intro s hs player s' h
    obtain ⟨root, hroot, h2⟩ := lift_bind_ok (get_bind _ s ▸ h)
    have hw : root ∈ s.layout.written := by
      have := Array.mem_of_getElem? (need_ok hroot)
      simpa [Session.layout, Session.outline, Outline.layout] using this
    have hk : Leads (fun s : Session α => Stage base none (root :: placed) s.layout) _ _ :=
      .keeping (childPlayer?_keeps root) fun found =>
        hr found mem_cons_self (subset_cons_self _ _)
    exact hk s (hs.place hw) player s' h2
  · refine .keeping .get fun s => .keeping playerAbove?_keeps fun found => ?_
    exact hr found hp (List.Subset.refl _)

/-! ### Nodes of one object each -/

/-- A node is made and written, as far as the layout shows. -/
abbrev LaysOut (id : ObjectId) (parent : Option NodeId) (type : String) (P : Layout α → Prop)
    (M W : NodeId → Layout α → Prop) : Prop :=
  Crafts id parent type Session.layout (fun _ => True) (fun _ => True) P (fun i _ => M i) fun i _ =>
    W i

namespace LaysOut

variable {cfg : Settings} {id : ObjectId} {parent : Option NodeId} {type : String}
  {P : Layout α → Prop} {M W : NodeId → Layout α → Prop}

theorem intro (hmake : ∀ name role, Brings layout P (makeNode name type parent role) M)
    (hwr : ∀ i, Brings layout (M i) (writeNode i) fun _ => W i) (id : ObjectId) :
    LaysOut id parent type P M W where
  object := ((object_keeps id).leads P).also
  make name role _ := hmake name role
  detail i _ j name _ v := (setNode_layout j name v).leads (M i)
  localTransform i o _ := ((localTransform_keeps o).leads (M i)).also
  place i _ := (setNode_layout i _ _).leads (M i)
  write i _ := hwr i

theorem exportBody {M W : String → NodeId → Layout α → Prop}
    (h : ∀ type, LaysOut id parent type P (M type) (W type)) :
    Brings layout P (exportBody id parent) fun i y => ∃ type, W type i y ∧ type ∈ bodyTypes := by
  refine (Crafts.exportBody (fun type _ => h type) fun type i r _ => ?_).post
    fun _ _ ⟨type, ht, _, _, hs⟩ => ⟨type, hs, ht⟩
  exact .keeping (forceInternal_keeps r) fun _ => (setNode_layout _ _ _).leads _

variable [Scalar α]

theorem exportCamera (h : LaysOut id parent "Camera" P M W)
    (hani : ∀ i a, Lasts Session.layout (W i) (exportAnimation cfg a (some i))) :
    Brings layout P (exportCamera cfg id parent) W :=
  (Crafts.exportCamera h fun i _ => hani i).post fun _ _ ⟨_, _, hs⟩ => hs

theorem exportArmature (h : LaysOut id parent "Skeleton" P M W) (cfg : Settings) :
    Brings layout P (exportArmature cfg id parent) W :=
  (Crafts.exportArmature h fun i _ role => (updateNode_layout i (f := ({ · with role })) fun _ =>
    rfl).leads (M i)).post fun _ _ ⟨_, _, hs⟩ => hs

theorem exportCollision {body : NodeId} (h : LaysOut id (some body) "CollisionShape" P M W)
    (cfg : Settings) (root : Option ObjectId) : Brings layout P
    (exportCollision cfg id body root) W :=
  (Crafts.exportCollision h (fun _ => True)
    (fun i => ((Keeps.option (fun _ => object_keeps _)).leads (M i)).also) (fun _ => True)
    (fun _ _ _ => trivial) fun i _ => shaped_of_keeps fun _ => (setNode_layout i _ _).leads
      (M i)).post
    fun _ _ ⟨_, _, hs⟩ => hs

theorem exportInstance (h : LaysOut id parent "MeshInstance" P M W)
    (hani : ∀ i a, Lasts Session.layout (W i) (exportAnimation cfg a (some i)))
    (o : Object α) :
    Brings layout P (exportInstance cfg id o parent) W :=
  (Crafts.exportInstance h trivial (fun i => (showMesh_keeps cfg id o i).layout.leads (M i))
    fun i _ => lasts_animateShapeKeys (hani i) o).post fun _ _ ⟨_, _, hs⟩ => hs

theorem exportCurve (h : LaysOut id parent "Path" P M W)
    (hmesh : ∀ i, Lasts Session.layout (W i) (exportMeshNode cfg id (some i))) :
    Brings layout P (exportCurve cfg id parent) W :=
  (Crafts.exportCurve h (fun _ _ _ _ => True)
    (fun i _ curve => ((exportSpline_keeps id curve).leads (W i)).also)
    (fun i _ _ => ((setNode_layout i _ _).leads (W i)).pre fun _ h => h.1)
    fun _ _ i _ => .bind (hmesh i) fun _ => (setNode_layout _ _ _).leads (W i)).post
      fun _ _ ⟨_, _, hs⟩ => hs

end LaysOut

/-! ### Placing nodes -/

theorem crafts_stage (hp : p ∈ placed) (type : String) (id : ObjectId) :
    LaysOut id (some p) type (Stage base none placed) (fun i => Stage base (some i) placed) fun i =>
      Stage base none (i :: placed) :=
  .intro (fun name role => makeNode_leads hp name type role) writeNode_leads id

theorem exportEmpty_places (hp : p ∈ placed) : PlacesSome base placed
    (exportEmpty cfg id (some p)) := by
  by_cases he : cfg.has .empty = true
  · exact ((crafts_stage hp _ id).exportEmpty he).post fun _ _ ⟨i, hi, _, _, hs⟩ => ⟨i, hs, hi⟩
  · unfold exportEmpty
    rw [if_pos (by simpa using he)]
    exact .pure fun s h => ⟨p, h.cons hp, rfl⟩

variable [Scalar α] {o : Object α}

theorem exportAnimation_stays (a : Animated) (hp : p ∈ placed) :
    Stays base placed (exportAnimation cfg a (some p)) := by
  let P (o : Outline α) : Prop := Stage base none placed o.layout
  have hc (player : NodeId) (name : String) : Lasts outline P (createAnimation player name) :=
    (createAnimation_keeps player name).leads P
  exact exportAnimation_leads hc cfg a (some p) (playerFor_stays cfg hp)

theorem exportLight_places (hp : p ∈ placed)
    (hl : ∀ k t, base.objects[id]? = some (k, some t) → (lightNodeType? t).isSome) :
    PlacesSome base placed (exportLight cfg id (some p)) := by
  refine .bind (object_leads id) fun o => .of_fact fun ho => ?_
  refine .bind (Q := fun made s => ∃ i, Stage base none (i :: placed) s.layout ∧ made = some i)
    (fun s hs made s' h => ?_) fun made => .of_exists fun i => .of_fact fun hi => ?_
  · obtain ⟨t, s1, hex, -⟩ := bind_ok h
    obtain ⟨ht, -⟩ := lift_ok hex
    obtain ⟨type, htype⟩ := Option.isSome_iff_exists.1 (hl o.kind t (need_ok ht ▸ ho))
    obtain ⟨i, hi, _, _, hs'⟩ := (crafts_stage hp type id).makeLight trivial
      (by rw [need_ok ht]; exact htype) s hs made s' h
    exact ⟨i, hs', hi⟩
  subst hi
  refine .bind (exportAnimation_stays _ _ mem_cons_self) fun _ => ?_
  exact .pure fun _ h => ⟨i, h, rfl⟩

/-! ### Physics -/

omit [Scalar α] in
theorem bodyAbove_places {height : Nat} (hp : p ∈ placed) : Places base placed
    (bodyAbove height (some p)) := by
  induction height generalizing p placed with
  | zero => exact .throw
  | succ height ih =>
    refine .bind .lift fun id => .of_fact fun hid => ?_
    obtain rfl : p = id := Option.some.inj (need_ok hid)
    refine .keeping (nodeType_keeps _) fun type => ?_
    split
    · exact .pure fun _ h => h.cons hp
    intro s hs body s' h
    obtain ⟨n, hn, h1⟩ := look_ok node_ok h
    cases hq : n.parent with
    | none =>
      rw [hq] at h1
      cases height with
      | zero => cases h1
      | succ height => cases h1
    | some q =>
      rw [hq] at h1
      have hw := hs.ordered.parent (hq ▸ getElem?_layout hn)
      have hb := ih mem_cons_self s (hs.place hw) body s' h1
      exact hb.weaken (cons_subset_cons _ (subset_cons_self _ _))

theorem exportPhysics_places (hp : p ∈ placed) : Places base placed
    (exportPhysics cfg id (some p)) := by
  refine .keeping .get fun s => ?_
  extract_lets root rest
  have hr : ∀ {q : NodeId} {placed' : List NodeId}, q ∈ placed' → placed ⊆ placed' →
      Brings layout (Stage base none placed') (rest (some q)) fun id => Stage base none
      (id :: placed) := by
    intro q placed' hq hsub
    refine .keeping .get fun s => .bind (bodyAbove_places hq) fun body => ?_
    refine ((crafts_stage mem_cons_self _ id).exportCollision cfg root).post ?_
    intro id s h
    exact h.weaken (cons_subset_cons _ (subset_cons_of_subset _ hsub))
  clear_value root
  split
  · refine .bind (.map _ (LaysOut.exportBody fun type => crafts_stage hp type id)) fun parent => ?_
    refine .of_exists fun body => .of_fact fun hb => .of_exists fun _ => .of_fact fun _ => ?_
    subst hb
    exact hr mem_cons_self (subset_cons_self _ _)
  · exact hr hp (List.Subset.refl _)

/-! ### Meshes, curves and particles -/

theorem exportInstance_places (o : Object α) (hp : p ∈ placed) :
    Places base placed (exportInstance cfg id o (some p)) :=
  (crafts_stage hp _ id).exportInstance (fun _ a => exportAnimation_stays cfg a mem_cons_self)
    o

theorem exportMeshNode_places (hp : p ∈ placed) : Places base placed
    (exportMeshNode cfg id (some p)) := by
  refine .keeping (object_keeps _) fun o => ?_
  split
  · refine .bind (exportPhysics_places _ _ hp) fun collision => ?_
    split
    · exact .pure fun _ h => h
    · refine (exportInstance_places cfg id o mem_cons_self).post ?_
      exact fun _ _ h => h.weaken (cons_subset_cons _ (subset_cons_self _ _))
  · exact exportInstance_places _ _ _ hp

theorem exportParticles_stays (hp : p ∈ placed) : Stays base placed
    (exportParticles cfg id (some p)) := by
  -- Of the nodes that were made only the last is still to be written.
  refine (exportParticles_leads Session.layout (fun _ => True)
    (K := fun _ last => Stage base last placed) (F := fun i => Stage base (some i) placed)
    (W := fun i => Stage base none (i :: placed)) ?_ (fun _ _ name => makeNode_leads hp name _ _)
    (fun _ active i target index system _ => ?_)
      (fun _ active i _ => (setNode_layout _ _ _).leads _)
    (fun i v => (setNode_layout i _ v).leads _) writeNode_leads).post fun _ _ h =>
      h.weaken (subset_cons_self _ _)
  · exact ((object_keeps id).leads _).also
  · exact (((exportMesh_keeps _ _ _).bind fun _ => exportSystem_keeps _ _ _ _).leads _).post
      fun _ _ h => ⟨h, fun _ => h⟩

/-! ### Objects -/

theorem exportKind_places (kind : ObjectKind) (id : ObjectId) (hp : p ∈ placed)
    (hl : kind = .light → ∀ k t, base.objects[id]? = some (k, some t) → (lightNodeType? t).isSome) :
    PlacesSome base placed (exportKind cfg kind id (some p)) := by
  have hsome : ∀ {step : ExportM α NodeId}, Places base placed step →
      PlacesSome base placed (some <$> step) := fun h => h.map some
  unfold exportKind
  split
  · exact hsome (exportMeshNode_places _ _ hp)
  · exact hsome (exportMeshNode_places _ _ hp)
  · exact hsome (exportMeshNode_places _ _ hp)
  · exact hsome (exportMeshNode_places _ _ hp)
  · exact hsome ((crafts_stage hp _ id).exportArmature cfg)
  · exact hsome ((crafts_stage hp _ id).exportCamera fun _ a => exportAnimation_stays _ a
      mem_cons_self)
  · exact exportLight_places _ _ hp (hl rfl)
  · exact exportEmpty_places _ _ hp
  · refine hsome ((crafts_stage hp _ id).exportCurve fun path => ?_)
    refine (exportMeshNode_places cfg id mem_cons_self).post fun _ _ h => ?_
    exact h.weaken (subset_cons_self _ _)
  · exact .throw
  · exact .throw
  · exact .throw

omit [Scalar α] in
theorem nodeTransform_keeps {view : Session α → γ} {id : NodeId} : Keeps false view
    (nodeTransform id) := by
  refine .bind node_keeps fun n => ?_
  split
  · exact .pure
  · exact .throw

section

variable {view : Session α → γ} {V : γ → Prop} {i : NodeId}

theorem lasts_moveAlongBone (hset : ∀ i v, Lasts view V (setNode i "transform" v)) (o : Object α) :
    Lasts view V (moveAlongBone o i) := by
  refine .keeping .get fun s => ?_
  refine .bind (.forIn (fun _ s => V (view s)) (fun child _ => ?_) _ _) fun _ => .done
  refine .keeping nodeTransform_keeps fun t => .keeping attachedBoneLength_keeps fun n => ?_
  exact .keeping .lift fun moved => .bind (hset _ _) fun _ => .done

theorem lasts_turnBack (hset : ∀ v, Lasts view V (setNode i "transform" v)) :
    Lasts view V (turnBack i) := by
  refine .keeping node_keeps fun n => .keeping existing_keeps fun parent => ?_
  refine .keeping (nodeType_keeps _) fun type => ?_
  split
  · refine .keeping .lift fun correction => .keeping nodeTransform_keeps fun t => ?_
    exact .keeping .lift fun _ => hset _
  · exact .done

theorem lasts_correctTransform (hset : ∀ i v, Lasts view V (setNode i "transform" v))
    {cfg : Settings} {o : Object α} {parent made : Option NodeId} :
    Lasts view V (correctTransform cfg o parent made) := by
  unfold correctTransform
  extract_lets rest
  have hr : ∀ r, Lasts view V (rest r) := by
    intro _
    unfold rest
    split
    · exact lasts_turnBack (hset _)
    · exact .done
  split
  · exact .keeping existing_keeps fun _ => .bind (lasts_moveAlongBone hset _) hr
  · exact hr ()

end

omit [Scalar α] in
theorem exportedKind_leads :
    Gets layout (Stage base none placed) (exportedKind selection id o) fun kind _ => kind = o.kind ∨
    kind = .empty := by
  unfold exportedKind
  split
  · exact .keeping warn_keeps fun _ => .pure fun _ h => ⟨h, .inl rfl⟩
  · split
    · exact .pure fun _ h => ⟨h, .inl rfl⟩
    · exact .keeping warn_keeps fun _ => .pure fun _ h => ⟨h, .inr rfl⟩

omit [Scalar α] in
theorem nodeAbove_places (hp : p ∈ placed) : PlacesSome base placed
    (nodeAbove cfg id o (some p)) := by
  unfold nodeAbove
  split
  · exact ((crafts_stage hp _ id).exportAttachment.post fun _ _ h => h.1).map some
  · exact .pure fun _ h => ⟨p, h.cons hp, rfl⟩

theorem exportSingle_places (hp : p ∈ placed) (hl : base.LightsKnown) : PlacesSome base placed
      (exportSingle cfg selection id (some p)) := by
  refine .bind (object_leads id) fun o => .of_fact fun ho => ?_
  refine .bind (exportedKind_leads _ _) fun kind => .of_fact fun hk => ?_
  refine .bind (nodeAbove_places _ _ hp) fun above => .of_exists fun q => .of_fact fun hq => ?_
  subst hq
  refine .bind (lasts_exportOwnParticles fun _ _ => exportParticles_stays _ _ mem_cons_self)
    fun _ => ?_
  have hlight : kind = .light → ∀ k t, base.objects[id]? = some (k, some t) →
    (lightNodeType? t).isSome := by
    rintro rfl k t hkt
    rcases hk with hk | hk
    · have hkind : k = o.kind := (Prod.mk.inj (Option.some.inj (hkt.symm.trans ho))).1
      rw [hkind, ← hk] at hkt
      exact hl t (mem_of_getElem? hkt)
    · cases hk
  refine .bind (exportKind_places cfg kind id mem_cons_self hlight) fun made => ?_
  refine .of_exists fun i => .of_fact fun hi => ?_
  subst hi
  refine .bind (lasts_correctTransform (fun _ _ => (setNode_layout _ _ _).leads _)) fun _ => ?_
  refine .bind (lasts_animateObject (fun _ => exportAnimation_stays _ _ mem_cons_self) _) fun _ =>
    .pure fun _ h => ⟨i, ?_, rfl⟩
  exact h.weaken (cons_subset_cons _ (subset_cons_self _ _))

theorem exportObject_stays (depth : Nat) (id : ObjectId) (hp : p ∈ placed) (hl : base.LightsKnown) :
    Stays base placed (exportObject cfg selection depth (some p) id : ExportM α ExportedNodes)
    := by
  induction depth generalizing p placed id with
  | zero => exact .done
  | succ depth ih =>
    unfold exportObject
    split
    · exact .done
    refine .keeping .get fun s => ?_
    refine .keeping (.modify fun _ => rfl) fun _ => ?_
    refine .bind (exportSingle_places cfg selection id hp hl) fun made => ?_
    refine .of_exists fun i => .of_fact fun hi => ?_
    subst hi
    refine .keeping .get fun s => ?_
    refine .bind (.mapM (fun child => ih child mem_cons_self) _) fun below => ?_
    refine .keeping (.modify fun _ => rfl) fun _ => .pure fun _ h => ?_
    exact h.weaken (subset_cons_self _ _)

end ExportM

end SceneExport
