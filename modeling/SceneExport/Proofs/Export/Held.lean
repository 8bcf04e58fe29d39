import SceneExport.Proofs.Export.Animated
import SceneExport.Proofs.File.Trees
import SceneExport.Proofs.Physics.Placed

/-!
# What a node holds to the end

A property of a node that was made for an object may be set once more before the export is done: the
transform of a node is corrected for what the node was put below, and players get animations.  Other
than that only the node that is being made is changed.  So the properties by which a node refers to
resources stay as they are, and so does the transform of a node that is not below a collision shape
(`FixedName`, `persistent_holds`).
-/

namespace SceneExport

open List

variable {α : Type} {cfg : Settings} {Seen : Object α → Prop} {γ : Type} {v : Option (Value α)}
  {selection : Selection} {scene : Scene α} {id : ObjectId} {slot : Slot} {done : Bool}

/-! ### Scenes -/

/-- What of a scene is there for good. -/
structure LastingScene (α : Type) where
  frame : Int
  objects : List (LastingObject α)

def Scene.lasting (s : Scene α) : LastingScene α where
  frame := s.frame
  objects := s.objects.toList.map Object.lasting

def Session.lasting (s : Session α) : LastingScene α :=
  s.scene.lasting

theorem Scene.lasting_updateObject {f : Object α → Object α} (hf : ∀ o, (f o).lasting = o.lasting)
    (s : Scene α) (id : ObjectId) : (s.updateObject id f).lasting = s.lasting := by
  simp only [Scene.lasting, Scene.updateObject, map_modify Object.lasting hf]

/-- An object of a scene, as far as it lasts. -/
def Scene.Recalls (scene : Scene α) (id : ObjectId) (o : Object α) : Prop :=
  ∃ o0, scene.objects[id]? = some o0 ∧ o.lasting = o0.lasting

variable {o : Object α} {s : Session α} {i : NodeId} {name type : String} {parent : Option NodeId}

theorem Scene.recalls_of_lasting {scene s : Scene α} (h : s.lasting = scene.lasting)
    {id : ObjectId} (ho : s.objects[id]? = some o) : scene.Recalls id o := by
  have hid := congrArg (·.objects[id]?) h
  simp only [Scene.lasting, getElem?_map, Array.getElem?_toList, ho, Option.map_some] at hid
  obtain ⟨o0, ho0, hlasti⟩ := Option.map_eq_some_iff.1 hid.symm
  exact ⟨o0, ho0, hlasti.symm⟩

/-! ### Cards -/

/-- What is there of a node but for what it plays. -/
structure NodeCard (α : Type) where
  entry : Entry α
  parent : Option NodeId
  isSkeleton : Bool

def Node.card (n : Node α) : NodeCard α where
  entry := n.entry
  parent := n.parent
  isSkeleton := n.role.isSkeleton

/-- The nodes of a file, and the scene as far as it lasts. -/
structure Cards (α : Type) where
  scene : LastingScene α
  nodes : List (NodeCard α)
  written : List NodeId

def Session.cards (s : Session α) : Cards α where
  scene := s.scene.lasting
  nodes := s.file.tree.nodes.toList.map Node.card
  written := s.file.written.toList

instance : Tracked (Session.cards : Session α → Cards α) where
  object s id f hf := by simp only [Session.cards, Scene.lasting_updateObject hf]
  playing s player id := by
    have hn (n : Node α) : { n with role := n.role.playing id }.card = n.card := by
      simp only [Node.card, Role.isSkeleton_playing]
    simp only [Session.cards, Tree.update, map_modify Node.card hn]

instance : Resourceless (Session.cards : Session α → Cards α) where

namespace Cards

def push (c : Cards α) (n : NodeCard α) : Cards α :=
  { c with nodes := c.nodes ++ [n] }

/-- Change a node. -/
def update (c : Cards α) (i : NodeId) (f : NodeCard α → NodeCard α) : Cards α :=
  { c with nodes := c.nodes.modify i f }

def set (c : Cards α) (i : NodeId) (name : String) (v : Value α) : Cards α :=
  c.update i fun n => { n with entry := n.entry.set name v }

def write (c : Cards α) (i : NodeId) : Cards α :=
  { c with written := c.written ++ [i] }

end Cards

namespace Session

theorem size_cards (s : Session α) : s.file.tree.nodes.size = s.cards.nodes.length := by
    simp [cards]

theorem cards_push (s : Session α) (heading : Heading α) (parent : Option NodeId) (role : Role) :
    Session.cards { s with file := { s.file with tree := s.file.tree.push heading parent role } }
      = s.cards.push ⟨{ kind := "node", heading }, parent, role.isSkeleton⟩ := by
  simp [Session.cards, Cards.push, Tree.push, Node.card]

theorem cards_update (s : Session α) (i : NodeId) {f : Node α → Node α}
    {g : NodeCard α → NodeCard α} (hfg : ∀ n, (f n).card = g n.card) :
    Session.cards { s with file := { s.file with tree := s.file.tree.update i f } } =
    s.cards.update i g := by
  simp only [Session.cards, Cards.update, Tree.update, Cards.mk.injEq, true_and, and_true]
  exact map_toList_modify hfg _ i

theorem cards_setNode (s : Session α) (i : NodeId) (name : String) (v : Value α) :
    Session.cards { s with file := s.file.setNode i name v } = s.cards.set i name v :=
  s.cards_update i fun _ => rfl

theorem cards_write (s : Session α) (i : NodeId) :
    Session.cards { s with file := s.file.write i } = s.cards.write i := by
  simp [Session.cards, Cards.write, SceneFile.write]

variable {n : NodeCard α}

theorem getElem?_cards (h : s.cards.nodes[i]? = some n) : ∃ x, s.file.tree.nodes[i]? = some x ∧
    x.card = n := by
  simpa [Session.cards] using h

theorem type?_of_cards (h : s.cards.nodes[i]? = some n) : s.outline.type? i = n.entry.type? := by
  obtain ⟨x, hx, rfl⟩ := getElem?_cards h
  simp only [Outline.type?, Session.outline, getElem?_map, Array.getElem?_toList, hx]
  rfl

end Session

/-! ### Slots -/

/-- A property that is a reference other than to an animation, or the transform. -/
def FixedName (name : String) : Prop :=
  NoCue name ∧ (name = "transform" ∨ ¬ IsPlainName name)

instance (name : String) : Decidable (FixedName name) :=
  inferInstanceAs (Decidable (_ ∧ _))

theorem fixedName_transform : FixedName "transform" := by
  decide

theorem FixedName.ne {other : String} (h : FixedName name) (hpln : IsPlainName other)
    (hne : other ≠ "transform") : other ≠ name := by
  rintro rfl
  exact h.2.elim hne fun hno => hno hpln

/-- A property of a node, and what does not change of the node. -/
structure Slot where
  node : NodeId
  type : String
  parent : Option NodeId
  name : String

namespace Slot

/-- Setting properties of another node, or moving what is below it, does not matter to a slot. -/
def Own (slot : Slot) (i : NodeId) : Prop :=
  i ≠ slot.node ∧ (slot.name = "transform" → slot.parent ≠ some i)

end Slot

namespace Cards

variable {c : Cards α}

section

variable {j : NodeId} {P Q : NodeCard α → Prop} {f : NodeCard α → NodeCard α}

theorem lt_of_at (h : ∃ n, c.nodes[i]? = some n ∧ P n) : i < c.nodes.length := by
  obtain ⟨n, hn, -⟩ := h
  exact (List.getElem?_eq_some_iff.1 hn).1

/-- A node is still there when another one is made. -/
theorem push_at (h : ∃ n, c.nodes[i]? = some n ∧ P n) (new : NodeCard α) :
    ∃ n, (c.push new).nodes[i]? = some n ∧ P n := by
  rwa [Cards.push, getElem?_append_left (lt_of_at h)]

/-- A node is still there when a node is changed, be it this one or another one. -/
theorem update_at (h : ∃ n, c.nodes[i]? = some n ∧ P n) (hf : j = i → ∀ n, P n → Q (f n))
    (hne : j ≠ i → ∀ n, P n → Q n) : ∃ n, (c.update j f).nodes[i]? = some n ∧ Q n := by
  obtain ⟨n, hn, hP⟩ := h
  rw [Cards.update, getElem?_modify, hn]
  by_cases hj : j = i
  · exact ⟨f n, by simp [hj], hf hj n hP⟩
  · exact ⟨n, by simp [hj], hne hj n hP⟩

end

/-- The node of a slot is there, with a value if one is given, and is written if it is `done`.  If
the slot is for a transform, the node is not below a collision shape. -/
structure Holds (scene : Scene α) (slot : Slot) (v : Option (Value α)) (done : Bool) (c : Cards α) :
    Prop where
  scene : c.scene = scene.lasting
  node : ∃ n, c.nodes[slot.node]? = some n ∧ n.entry.type? = some slot.type ∧ n.parent =
    slot.parent ∧ n.isSkeleton = false ∧ ∀ w ∈ v, n.entry.properties.get? slot.name = some w
  above : slot.name = "transform" → ∀ p ∈ slot.parent, ∃ m, c.nodes[p]? = some m ∧
    m.entry.type? ≠ some "CollisionShape"
  written : done = true → slot.node ∈ c.written

namespace Holds

theorem push (h : c.Holds scene slot v done) (n : NodeCard α) : (c.push n).Holds scene slot v
    done :=
  ⟨h.scene, push_at h.node n, fun hname p hp => push_at (h.above hname p hp) n, h.written⟩

theorem own_length (h : c.Holds scene slot v done) : slot.Own c.nodes.length :=
  ⟨(lt_of_at h.node).ne', fun hname hp => Nat.lt_irrefl _ (lt_of_at (h.above hname _ hp))⟩

theorem update (h : c.Holds scene slot v done) {f : NodeCard α → NodeCard α}
    {v' : Option (Value α)} (htype : ∀ n, (f n).entry.type? = n.entry.type?)
    (hi : i = slot.node → ∀ n, (∀ w ∈ v, n.entry.properties.get? slot.name = some w) →
      (f n).parent = n.parent ∧ (f n).isSkeleton = n.isSkeleton ∧
      ∀ w ∈ v', (f n).entry.properties.get? slot.name = some w) (hv : i ≠ slot.node → v' = v) :
    (c.update i f).Holds scene slot v' done := by
  refine ⟨h.scene, update_at h.node ?_ fun hne n => ?_, fun hname p hp => ?_, h.written⟩
  · rintro hslot n ⟨ht, hp, hs, hget⟩
    obtain ⟨hpar, hskel, hget'⟩ := hi hslot n hget
    exact ⟨(htype n).trans ht, hpar.trans hp, hskel.trans hs, hget'⟩
  · rw [hv hne]
    exact id
  · exact update_at (h.above hname p hp) (fun _ n hne => by rwa [htype]) fun _ _ hne => hne

theorem set (h : c.Holds scene slot v done) (hi : i ≠ slot.node ∨ name ≠ slot.name) (w : Value α) :
    (c.set i name w).Holds scene slot v done := by
  refine h.update (fun _ => rfl) (fun hslot n hn => ⟨rfl, rfl, fun u hu => ?_⟩) fun _ => rfl
  have hname : slot.name ≠ name := Ne.symm (hi.resolve_left (absurd hslot))
  exact (Record.get?_set_ne hname _).trans (hn u hu)

theorem fill (h : c.Holds scene slot v done) (w : Value α) :
    (c.set slot.node slot.name w).Holds scene slot (some w) done := by
  refine h.update (fun _ => rfl) (fun _ n _ => ⟨rfl, rfl, fun u hu => ?_⟩) (absurd rfl)
  cases hu
  exact Record.get?_set_self _ _ _

theorem write (h : c.Holds scene slot v done) (i : NodeId) : (c.write i).Holds scene slot v done :=
  ⟨h.scene, h.node, h.above, fun hd => mem_append_left _ (h.written hd)⟩

theorem finish (h : c.Holds scene slot v done) : (c.write slot.node).Holds scene slot v true :=
  ⟨h.scene, h.node, h.above, fun _ => mem_append_right _ (mem_singleton_self _)⟩

end Holds

/-- A node that something is put below is no collision shape. -/
def Upright (c : Cards α) (parent : Option NodeId) : Prop :=
  ∀ p ∈ parent, ∀ m, c.nodes[p]? = some m → m.entry.type? ≠ some "CollisionShape"

/-- The node of a slot is made. -/
theorem holds_push (h : c.scene = scene.lasting) {heading : Heading α}
    (ht : heading.get? "type" = some (.text type)) (hp : ∀ p ∈ parent, p < c.nodes.length)
    (hup : name = "transform" → c.Upright parent) :
    (c.push ⟨{ kind := "node", heading }, parent, false⟩).Holds scene
    ⟨c.nodes.length, type, parent, name⟩ none false := by
  refine ⟨h, ⟨_, getElem?_concat_length, ?_, rfl, rfl, nofun⟩, fun hname p hm => ?_, nofun⟩
  · simp [Entry.type?, ht, Value.text?]
  · have hget := getElem?_eq_getElem (hp p hm)
    refine ⟨_, ?_, hup hname p hm _ hget⟩
    rw [Cards.push, getElem?_append_left (hp p hm), hget]

end Cards

namespace ExportM

open Session (cards)

open Cards

/-! ### Steps -/

theorem object_recalls {id : ObjectId} (ho : scene.objects[id]? = some o) {P : Session α → Prop}
    (hP : ∀ {s}, P s → s.cards.scene = scene.lasting) : Leads P (object id) fun x s => P s ∧
    x.lasting = o.lasting := by
  intro s hs x s' h
  obtain ⟨rfl, hx⟩ := object_ok h
  obtain ⟨o', ho', hlasti⟩ := Scene.recalls_of_lasting (hP hs) hx
  cases ho.symm.trans ho'
  exact ⟨hs, hlasti⟩

variable {role : Role} {P : Cards α → Prop} {start : Bool × NodeId × ExportedNodes}

/-- A node is made only below one that is there. -/
theorem makeNode_lt {p : NodeId} {s' : Session α}
    (h : makeNode name type (some p) role s = .ok i s') : p < s.file.tree.nodes.size := by
  obtain ⟨-, taken, path, -, hpath, -⟩ := makeNode_ok h
  obtain ⟨n, hn, -⟩ := Outcome.bind_ok hpath
  exact (Array.getElem?_eq_some_iff.1 (need_ok hn)).1

theorem makeNode_holds (name : String) (hrole : role.isSkeleton = false) (property : String) :
    Brings cards (fun y => y.scene = scene.lasting ∧ (property = "transform" → y.Upright parent))
      (makeNode name type parent role) fun i =>
      (·.Holds scene ⟨i, type, parent, property⟩ none false) := by
  intro s hs i s' h
  have hp : ∀ p ∈ parent, p < s.file.tree.nodes.size := by
    rintro p rfl
    exact makeNode_lt h
  obtain ⟨rfl, heading, ht, rfl⟩ := makeNode_push h
  rw [Session.size_cards] at hp ⊢
  rw [Session.cards_push, hrole]
  exact holds_push hs.1 ht hp hs.2

section

variable {Q : Cards α → Prop}

theorem setNode_cards {w : Value α} (hset : ∀ {c}, P c → Q (c.set i name w)) :
    Brings cards P (setNode i name w) fun _ => Q := by
  intro s hs _ s' h
  cases h
  rw [Session.cards_setNode]
  exact hset hs

theorem writeNode_cards (hwr : ∀ {c}, P c → Q (c.write i)) : Brings cards P (writeNode i) fun _ =>
    Q := by
  intro s hs _ s' h
  cases h
  rw [Session.cards_write]
  exact hwr hs

theorem setRole_cards
    (hrole : ∀ {c}, P c → P (c.update i fun n => { n with isSkeleton := role.isSkeleton })) :
    Lasts cards P (changeFile fun f => { f with tree := f.tree.update i fun n => { n with role } })
      := by
  intro s hs _ s' h
  cases h
  rw [Session.cards_update (g := fun n => { n with isSkeleton := role.isSkeleton }) s i fun _ =>
    rfl]
  exact hrole hs

/-- A node is made, as the last one. -/
theorem makeNode_cards {Own : NodeId → Prop} (hpush : ∀ {c}, P c → ∀ n, P (c.push n))
    (hown : ∀ {c}, P c → Own c.nodes.length) (name type : String) (parent : Option NodeId)
    (role : Role) :
    Gets cards P (makeNode name type parent role) fun i _ => Own i := by
  intro s hs i s' h
  obtain ⟨rfl, heading, -, rfl⟩ := makeNode_push h
  refine ⟨?_, s.size_cards ▸ hown hs⟩
  rw [Session.cards_push]
  exact hpush hs _

end

theorem setNode_holds (hi : i ≠ slot.node ∨ name ≠ slot.name) (w : Value α) :
    Lasts cards (Holds scene slot v done) (setNode i name w) :=
  setNode_cards fun h => h.set hi w

theorem fillSlot (w : Value α) :
    Brings cards (·.Holds scene slot v done) (setNode slot.node slot.name w) fun _ =>
      (·.Holds scene slot (some w) done) :=
  setNode_cards (P := Holds scene slot v done) fun h => h.fill w

theorem writeNode_holds (i : NodeId) : Lasts cards (Holds scene slot v done) (writeNode i) :=
  writeNode_cards fun h => h.write i

theorem finishSlot : Brings cards (·.Holds scene slot v done) (writeNode slot.node) fun _ =>
      (·.Holds scene slot v true) :=
  writeNode_cards (P := Holds scene slot v done) fun h => h.finish

/-- Another node is made. -/
theorem makeOther_holds (name type : String) (parent : Option NodeId) (role : Role) :
    Gets cards (Holds scene slot v done) (makeNode name type parent role) fun i _ => slot.Own i :=
  makeNode_cards (fun h => h.push) (fun h => h.own_length) name type parent role

/-- Only what is below a collision shape is turned back. -/
theorem turnBack_holds [Scalar α] (i : NodeId) : Lasts cards (Holds scene slot v done)
    (turnBack i) := by
  by_cases hfree : i ≠ slot.node ∨ "transform" ≠ slot.name
  · exact lasts_turnBack fun w => setNode_holds hfree w
  · -- The transform of the slot itself would be turned, but the node above is no collision shape.
    rw [not_or, not_not, not_not] at hfree
    obtain ⟨rfl, hname⟩ := hfree
    intro s hs _ s' h
    obtain ⟨n, p, type, hn, hp, htype, h1⟩ := turnBack_cases h
    obtain ⟨x, hx, -, hpar, -⟩ := hs.node
    obtain ⟨n', hn', rfl⟩ := Session.getElem?_cards hx
    cases hn.symm.trans hn'
    obtain ⟨m, hm, hne⟩ := hs.above hname.symm p (hpar ▸ hp)
    rw [Session.type?_of_cards hm] at htype
    rcases h1 with ⟨rfl, -⟩ | ⟨-, rfl⟩
    · exact absurd htype hne
    · exact hs

/-- What is below an attachment is moved along a bone. -/
theorem moveAlongBone_cards [Scalar α] (hmove : ∀ {c j n}, P c → c.nodes[j]? = some n →
    n.parent = some i → ∀ w, Lasts cards P (setNode j "transform" w)) (o : Object α) :
    Lasts cards P (moveAlongBone o i) := by
  intro s hs _ s' h
  unfold moveAlongBone at h
  rw [get_bind] at h
  -- The children are found before any of them is moved.
  have hfree : ∀ j ∈ s.file.tree.children i, ∀ w, Lasts cards P (setNode j "transform" w) := by
    intro j hj
    obtain ⟨n, hn, hp⟩ := Tree.mem_children.1 hj
    exact hmove hs (n := n.card) (by simp [cards, hn]) hp
  obtain ⟨_, s1, hloop, h1⟩ := bind_ok h
  cases h1
  refine (Leads.loop (fun rest _ s => P s.cards ∧ ∀ j ∈ rest, ∀ w,
    Lasts cards P (setNode j "transform" w)) ?_ _ _ s ⟨hs, hfree⟩ _ _ hloop).1
  intro j rest _
  refine .of_fact fun hrest => .keeping nodeTransform_keeps fun t => ?_
  refine .keeping attachedBoneLength_keeps fun n => .keeping .lift fun moved => ?_
  refine .bind (hrest j mem_cons_self _) fun _ => .pure fun _ h => ⟨_, rfl, h, fun k hk => ?_⟩
  exact hrest k (mem_cons_of_mem _ hk)

/-- The node of a slot for a transform is not moved along a bone if it is not below the
attachment. -/
theorem moveAlongBone_holds [Scalar α] (hi : slot.name = "transform" → slot.parent ≠ some i)
    (o : Object α) : Lasts cards (Holds scene slot v done) (moveAlongBone o i) := by
  refine moveAlongBone_cards (fun {c j n} hc hj hp => setNode_holds ?_) o
  by_contra hno
  rw [not_or, not_not, not_not] at hno
  obtain ⟨rfl, hname⟩ := hno
  obtain ⟨x, hx, -, hpar, -⟩ := hc.node
  cases hj.symm.trans hx
  exact hi hname.symm (hpar.symm.trans hp)

/-! ### What is held lasts -/

section

variable [Scalar α] (hfix : FixedName slot.name) (cfg : Settings) (id : ObjectId)

section

variable {Own : NodeId → Prop}
  (make : ∀ name type parent role, Gets cards P (makeNode name type parent role) fun i _ => Own i)
  (write : ∀ i, Lasts cards P (writeNode i))
  (set : ∀ {i name}, Own i ∨ IsDetailName name → ∀ w, Lasts cards P (setNode i name w))
  (cue : ∀ i name w, Lasts cards P (setNode i ("anims/" ++ name) w))

include make write set cue

theorem exportAnimation_cards (a : Animated) (node : Option NodeId) :
    Lasts cards P (exportAnimation cfg a node) := by
  refine lasts_animation (make _ _ · _) (fun hown => set (.inl hown)) write (fun player name => ?_)
    cfg a node
  refine .keeping (liftLogged_keeps _) fun animation => .keeping (forceInternal_keeps _)
    fun number => ?_
  exact .bind (cue _ _ _) fun _ => .done

/-- What is known of the nodes lasts through the export of an object if it lasts through the steps
that change nodes, whatever the resources are. -/
theorem steady_cards (hsc : ∀ {c}, P c → c.scene = scene.lasting)
    (role : ∀ {i}, Own i → ∀ role, Lasts cards P (changeFile fun f =>
      { f with tree := f.tree.update i fun n => { n with role } }))
    (move : ∀ {i}, Own i → ∀ o, Lasts cards P (moveAlongBone o i)) :
    Steady cfg id cards (fun _ => P) (scene.Recalls id) Own fun _ _ _ => True where
  refl h := h
  trans _ h := h
  mono _ h := h
  object := by
    intro _ s hs o s' h
    obtain ⟨rfl, ho⟩ := object_ok h
    exact ⟨hs, Scene.recalls_of_lasting (hsc hs) ho⟩
  make name type _ parent role := make name type parent role
  write := write
  set hown _ _ w := set (.inl hown) w
  note _ _ hpln hne w := set (.inr ⟨hpln, hne⟩) w
  refer hown _ _ r := (set (.inl hown) _).pre (fun _ h => h.1)
  role := role
  move := move
  animate := exportAnimation_cards cfg make write set cue
  substance r _ := ((forceInternal_keeps r).leads _).also
  meshShape b convex := ((exportMeshShape_keeps cfg id b convex).leads _).post fun _ _ h =>
    ⟨h, fun _ _ => trivial⟩
  mesh bones := ((exportMesh_keeps cfg id bones).leads _).post fun _ _ h =>
    ⟨h, fun _ _ => trivial⟩
  material m := ((exportMaterial_keeps cfg id m).leads _).post fun _ _ h =>
    ⟨h, fun _ => trivial⟩
  spline curve := ((exportSpline_keeps id curve).leads _).also
  system target bones index s := (((exportMesh_keeps cfg target bones).bind fun mesh =>
    exportSystem_keeps id index s mesh).leads _).also
  idle _ _ _ _ _ := trivial

end

include hfix

omit [Scalar α] in
theorem setOther_holds {other : String} (h : slot.Own i ∨ IsDetailName other) (w : Value α) :
    Lasts cards (Holds scene slot v done) (setNode i other w) :=
  setNode_holds (h.imp (fun hown => hown.1) fun hd => hfix.ne hd.1 hd.2) w

theorem exportAnimation_holds (a : Animated) (node : Option NodeId) :
    Lasts cards (Holds scene slot v done) (exportAnimation cfg a node) :=
  exportAnimation_cards cfg makeOther_holds writeNode_holds (setOther_holds hfix)
    (fun _ _ => setNode_holds (.inr (hfix.1.ne _))) a node

/-- What a node holds in a fixed slot lasts through the export of an object. -/
theorem persistent_holds : Persistent cfg id cards (fun _ => Holds scene slot v done)
    (scene.Recalls id) slot.Own fun _ _ _ => True where
  toSteady := steady_cards cfg id makeOther_holds writeNode_holds (setOther_holds hfix)
    (fun _ _ => setNode_holds (.inr (hfix.1.ne _))) (fun h => h.scene)
    (fun hown _ => setRole_cards fun h => h.update (fun _ => rfl) (fun he => absurd he hown.1)
      fun _ => rfl)
    fun hown => moveAlongBone_holds hown.2
  turn := turnBack_holds

omit hfix in
theorem shapes_cards : Shapes id cards (fun _ => P) (scene.Recalls id) fun _ _ _ => True :=
  fun _ o b name _ _ _ => ((exportSimpleShape_keeps id o b name).leads _).also

end

section

variable [Scalar α]

/-- A node that is not hung on a bone, or another property than the transform, is left alone when
the transform is corrected. -/
theorem correctTransform_holds (h : isHung cfg o = true → slot.name ≠ "transform")
    (above made : Option NodeId) :
    Lasts cards (Holds scene slot v done) (correctTransform cfg o above made) := by
  unfold correctTransform
  extract_lets rest
  have hr : ∀ r, Lasts cards (Holds scene slot v done) (rest r) := by
    intro _
    unfold rest
    split
    · exact turnBack_holds _
    · exact .done
  split
  · next hhung =>
    refine .keeping existing_keeps fun i => .bind (moveAlongBone_holds (fun hno => ?_) _) hr
    exact absurd hno (h hhung)
  · exact hr ()

theorem animateObject_holds (hname : FixedName slot.name) (id : ObjectId)
    (above made : Option NodeId) :
    Lasts cards (Holds scene slot v done) (animateObject cfg id above made) :=
  lasts_animateObject (exportAnimation_holds hname cfg · made) id

end

/-! ### Visits -/

section

variable [Scalar α] {view : Session α → γ} {V : γ → γ → Prop} {Own : NodeId → Prop}
  {Ref : String → Reference → γ → Prop} {x : γ} [Tracked view]

/-- What turning the node of an object back leads to, which has to last through animations. -/
structure TurnsTo (cfg : Settings) (view : Session α → γ) (V : γ → Prop)
    (W : Option NodeId → γ → Prop) : Prop where
  none : ∀ {y}, V y → W none y
  some : ∀ i, Leads (fun s => V (view s)) (turnBack i) fun _ s => W (some i) (view s)
  animate : ∀ made a node, Lasts view (W made) (exportAnimation cfg a node)

variable {W : Option NodeId → γ → Prop}

theorem Steady.exportAs (h : Steady cfg id view V Seen Own Ref)
    (hW : TurnsTo cfg view (V x) W) (kind : ObjectKind)
    (hshps : ∀ o, Seen o → kind.Embodies o → Shapes id view V Seen Ref) (ho : Seen o)
    (parent : Option NodeId) :
    Brings view (V x) (exportAs cfg kind id o parent) fun made y => W made y ∧
      OwnUnlessDropped cfg kind Own made := by
  refine .bind (h.nodeAbove o parent) fun above => .of_fact fun hup => ?_
  refine .bind (h.exportOwnParticles o ho above) fun _ => .bind (h.exportKind kind hshps above)
    fun made => ?_
  refine .of_fact fun hmade => .bind (h.correctTransform (W := W made) o made hup ?_ ?_) fun _ => ?_
  · rintro rfl y hy
    exact hW.none hy
  · rintro i rfl
    exact hW.some i
  · exact .bind (lasts_animateObject (hW.animate made · made) id) fun _ => .pure fun _ h =>
      ⟨h, hmade⟩

variable (hshps : ∀ o o', Seen o → Seen o' → id ∈ selection.accepted → o.kind.Embodies o' →
  Shapes id view V Seen Ref)

include hshps

theorem Steady.visit (h : Steady cfg id view V Seen Own Ref)
    (hW : TurnsTo cfg view (V x) W) (hact : Unfocused view) (scene : Scene α) (root : NodeId)
    (nodes : ExportedNodes) :
    Leads (fun s => V x (view s)) (visit cfg scene selection root nodes id) fun nodes' s =>
    ∃ made, nodes' = nodes ++ [(id, made)] ∧ W made (view s) ∧
    (cfg.has .empty = true → ∀ i ∈ made, Own i) := by
  have hresu {kind : ObjectKind} {step : ExportM α (Option NodeId)}
    (hstep : Brings view (V x) step fun made y =>
      W made y ∧ OwnUnlessDropped cfg kind Own made) :
      Leads (fun s => V x (view s)) (step >>= fun made => pure (nodes ++ [(id, made)]))
        fun nodes' s => ∃ made, nodes' = nodes ++ [(id, made)] ∧ W made (view s) ∧
        (cfg.has .empty = true → ∀ i ∈ made, Own i) :=
    .bind hstep fun made => .pure fun _ hs => ⟨made, rfl, hs.1, fun hemp => hs.2 fun _ => hemp⟩
  refine .keeping (.modify fun s => hact s _) fun _ => .bind h.object fun o => .of_fact fun ho => ?_
  unfold visitedKind
  split
  · next hid =>
    exact hresu (h.exportAs hW o.kind (fun o' ho' => hshps o o' ho ho' (by simpa using hid)) ho _)
  · rw [bind_assoc]
    refine .keeping warn_keeps fun _ => ?_
    exact hresu (h.exportAs hW .empty (fun _ _ he => he.elim) ho _)

end

namespace Persistent

variable [Scalar α] {view : Session α → γ} {V : γ → γ → Prop} {Own : NodeId → Prop}
  {Ref : String → Reference → γ → Prop} {x : γ} [Tracked view]
  (h : Persistent cfg id view V Seen Own Ref)

include h

omit [Tracked view] in
theorem turnsTo : TurnsTo cfg view (V x) fun _ => V x :=
    ⟨fun h => h, h.turn, fun _ => h.animate⟩

theorem exportAs (kind : ObjectKind)
    (hshps : ∀ o, Seen o → kind.Embodies o → Shapes id view V Seen Ref) (ho : Seen o)
    (parent : Option NodeId) : Lasts view (V x) (exportAs cfg kind id o parent) :=
  (h.toSteady.exportAs h.turnsTo kind hshps ho parent).post fun _ _ h => h.1

variable (hshps : ∀ o o', Seen o → Seen o' → id ∈ selection.accepted → o.kind.Embodies o' →
  Shapes id view V Seen Ref)

include hshps

theorem exportSingle (parent : Option NodeId) : Lasts view (V x)
    (exportSingle cfg selection id parent) := by
  refine .bind h.object fun o => .of_fact fun ho => ?_
  unfold exportedKind
  split
  · next hunk =>
    rw [bind_assoc]
    refine .keeping warn_keeps fun _ => h.exportAs o.kind (fun o' _ he => ?_) ho parent
    rw [ObjectKind.isKnown_of_embodies he] at hunk
    cases hunk
  · split
    · next hid =>
        exact h.exportAs o.kind (fun o' ho' => hshps o o' ho ho' (by simpa using hid)) ho parent
    · rw [bind_assoc]
      exact .keeping warn_keeps fun _ => h.exportAs .empty (fun _ _ he => he.elim) ho parent

theorem visit (hact : Unfocused view) (scene : Scene α) (root : NodeId) (nodes : ExportedNodes) :
    Lasts view (V x) (visit cfg scene selection root nodes id) :=
  (h.toSteady.visit hshps h.turnsTo hact scene root nodes).post fun _ _ ⟨_, _, h, _⟩ => h

end Persistent

section

variable [Scalar α] {γ : Type} {view : Session α → γ} {V : γ → Prop}
  (hact : Unfocused view) (hroot : ∀ name, Lasts view V (exportRoot name))
  (hlink : ∀ id v, Lasts view V (setNode id "skeleton" v))
  {ids : List ObjectId} (hvst : ∀ id ∈ ids, ∀ root nodes,
    Lasts view V (visit cfg scene (scene.selection cfg) root nodes id))

include hvst

theorem lasts_visits (root : NodeId) (nodes : ExportedNodes) :
    Lasts view V (ids.foldlM (visit cfg scene (scene.selection cfg) root) nodes) := by
  refine (Leads.foldlM (fun rest _ s => V (view s) ∧ ∀ id ∈ rest, id ∈ ids) ?_ ids nodes).mono
    (fun _ h => ⟨h, fun _ h => h⟩) fun _ _ h => h.1
  intro id rest nodes
  refine .of_fact fun hrest => (hvst id (hrest id mem_cons_self) root nodes).post ?_
  exact fun _ _ h => ⟨h, fun i hi => hrest i (mem_cons_of_mem _ hi)⟩

variable [Tracked view]

include hroot in
theorem lasts_visitBefore :
    Leads (fun s => V (view s) ∧ s.scene = scene) (visitBefore cfg ids) fun _ s =>
    V (view s) := by
  rintro s ⟨hs, rfl⟩ start s' h
  obtain ⟨editing, s1, hleave, h1⟩ := bind_ok h
  rw [get_bind, leaveEditMode_scene hleave] at h1
  obtain ⟨root, s2, hr, h2⟩ := bind_ok h1
  obtain ⟨nodes, s3, hvis, h3⟩ := bind_ok h2
  cases h3
  have hkp : Keeps false view (leaveEditMode : ExportM α Bool) :=
    leaveEditMode_keeps fun s requests => Aside.aside s s.log requests s.files s.project s.marks
  have hs1 : V (view s1) := hkp.leads V s hs _ _ hleave
  exact lasts_visits hvst root [] s2 (hroot _ s1 hs1 root s2 hr) _ _ hvis

include hact hlink in
theorem lasts_visitAfter (start : Bool × NodeId × ExportedNodes) :
    Lasts view V (visitAfter cfg scene start ids) := by
  refine .bind (lasts_visits hvst _ _) fun nodes => .keeping (.modify fun s => hact s _) fun _ => ?_
  refine .bind (lasts_finishScene (fun s requests => ?_) hlink) fun _ => .done
  exact Aside.aside s s.log requests s.files s.project s.marks

end

/-! ### The nodes of visits -/

section

variable [Scalar α] {nodes done : ExportedNodes} {ids : List ObjectId} {s' t t' : Session α}
  {root : NodeId} {editing : Bool}

/-- Visits record a node for each object, after those that there are. -/
theorem visits_keys {selection : Selection} (h : ids.foldlM (visit cfg scene selection root)
    done t = .ok nodes t') : ∃ below, nodes = done ++ below ∧ below.map Prod.fst = ids := by
  induction ids generalizing done t with
  | nil =>
    cases h
    exact ⟨[], by simp, rfl⟩
  | cons id ids ih =>
    obtain ⟨done', t1, hvst, h1⟩ := bind_ok h
    obtain ⟨_, t2, -, h2⟩ := bind_ok hvst
    obtain ⟨_, t3, -, h3⟩ := bind_ok h2
    obtain ⟨_, t4, -, h4⟩ := bind_ok h3
    obtain ⟨made, t5, -, h5⟩ := bind_ok h4
    cases h5
    obtain ⟨below, rfl, rfl⟩ := ih h1
    exact ⟨(id, made) :: below, by simp, rfl⟩

theorem visitBefore_keys
    (h : visitBefore cfg ids s = .ok (editing, root, done) t) : done.map Prod.fst = ids := by
  obtain ⟨_, s1, -, h1⟩ := bind_ok h
  obtain ⟨_, s2, -, h2⟩ := bind_ok h1
  obtain ⟨_, s3, -, h3⟩ := bind_ok h2
  obtain ⟨_, s4, hvis, h4⟩ := bind_ok h3
  cases h4
  obtain ⟨below, rfl, hkeys⟩ := visits_keys hvis
  exact hkeys

theorem visitAfter_keys (h : visitAfter cfg scene start ids t = .ok nodes t') :
    ∃ below, nodes = start.2.2 ++ below := by
  obtain ⟨_, t1, hvis, h1⟩ := bind_ok h
  obtain ⟨_, t2, -, h2⟩ := bind_ok h1
  obtain ⟨_, t3, -, h3⟩ := bind_ok h2
  cases h3
  obtain ⟨below, rfl, -⟩ := visits_keys hvis
  exact ⟨below, rfl⟩

theorem visitAfter_cut {id : ObjectId} {mid after : List ObjectId}
    (h : visitAfter cfg scene (editing, root, done) (mid ++ id :: after) t = .ok nodes t') :
    ∃ done1 done2 t1 t2, mid.foldlM (visit cfg scene (scene.selection cfg) root) done t =
    .ok done1 t1 ∧ visit cfg scene (scene.selection cfg) root done1 id t1 = .ok done2 t2 ∧
      visitAfter cfg scene (editing, root, done2) after t2 = .ok nodes t' := by
  obtain ⟨done', t3, hfold, h1⟩ := bind_ok h
  rw [foldlM_append] at hfold
  obtain ⟨done1, t1, hmid, hfold⟩ := bind_ok hfold
  obtain ⟨done2, t2, hvst, hpost⟩ := bind_ok hfold
  refine ⟨done1, done2, t1, t2, hmid, hvst, ?_⟩
  rw [visitAfter, bind_of_ok hpost]
  exact h1

end

/-! ### Slots and scenes through visits -/

section

variable [Scalar α] {view : Session α → γ} {V : γ → Prop}

theorem Lasting.visit [Tracked view] (h : Lasting view V) (hact : Unfocused view)
    (selection : Selection) (root : NodeId) (nodes : ExportedNodes) (id : ObjectId) :
    Lasts view V (visit cfg scene selection root nodes id) :=
  fun s => (h.persistent cfg id).visit (x := view s) (fun _ _ _ _ _ _ => h.shapes id) hact
    scene root nodes s

theorem Lasting.visitAfter [Tracked view] (h : Lasting view V) (hact : Unfocused view)
    (start : Bool × NodeId × ExportedNodes) (ids : List ObjectId) :
    Lasts view V (visitAfter cfg scene start ids) :=
  lasts_visitAfter hact (fun i w => (h.set i (by decide) w).leads V)
    (fun id _ root nodes => h.visit hact _ root nodes id) start

theorem visit_holds (hfix : FixedName slot.name) (scene' : Scene α) {selection : Selection}
    (root : NodeId) (nodes : ExportedNodes) (id : ObjectId) :
    Lasts cards (Holds scene slot v done) (visit cfg scene' selection root nodes id) :=
  fun s => (persistent_holds hfix cfg id).visit (x := s.cards)
    (fun _ _ _ _ _ _ => shapes_cards id) (fun _ _ => rfl) scene' root nodes s

theorem visitAfter_holds (hfix : FixedName slot.name) (hskel : slot.name ≠ "skeleton")
    (scene' : Scene α) (start : Bool × NodeId × ExportedNodes) (ids : List ObjectId) :
    Lasts cards (Holds scene slot v done) (visitAfter cfg scene' start ids) :=
  lasts_visitAfter (fun _ _ => rfl) (fun _ w => setNode_holds (.inr hskel.symm) w)
    (fun id _ root nodes => visit_holds hfix scene' root nodes id) start

instance : Tracked (Session.lasting : Session α → LastingScene α) where
  object s id _ hf := Scene.lasting_updateObject hf s.scene id
  playing _ _ _ := rfl

instance : Resourceless (Session.lasting : Session α → LastingScene α) where

theorem lasting_scene (V : LastingScene α → Prop) :
    Lasting (Session.lasting : Session α → LastingScene α) V := by
  refine lasting_of_make (fun _ _ _ => .modify fun _ => rfl)
    (fun name type parent role s hs i s' h => ?_) (fun id s hs _ s' h => ?_) fun _ _ =>
    .modify fun _ => rfl
  · obtain ⟨-, heading, -, rfl⟩ := makeNode_push h
    exact hs
  · cases h
    exact hs

theorem visitBefore_scene {ids : List ObjectId} {t : Session α}
    (h : visitBefore cfg ids s = .ok start t) : t.scene.lasting = s.scene.lasting := by
  have hlast := lasting_scene (α := α) (· = s.scene.lasting)
  refine lasts_visitBefore (V := (· = s.lasting)) (fun name => ?_) (fun id _ root nodes => ?_) s
    ⟨rfl, rfl⟩ start t h
  · exact .bind (hlast.make _ (by decide) _ _) fun _ => .bind (hlast.write _) fun _ => .done
  · exact hlast.visit (fun _ _ => rfl) _ root nodes id

end

end ExportM

end SceneExport
