import SceneExport.Export.Traversal
import SceneExport.Proofs.Animation.Keeps
import SceneExport.Proofs.Export.Resources
import SceneExport.Proofs.File.References

/-!
# Making the node of an object

Most functions of an export make one node: they look at an object, make the node, set its details
and its transform, and write it.  What such a function leads to follows from what these steps do
(`Crafts`), whatever is known of the nodes of the file.  Where nodes also refer to resources or are
animated, what that does is given as well.
-/

namespace SceneExport

open List

variable {α β γ : Type} {view : Session α → γ} {parent : Option NodeId} {cfg : Settings}
  {id : ObjectId}

/-! ### Names of properties and types of nodes -/

/-- The types of resources that a node may refer to by a property.  There are none for properties
that are no references. -/
def neededTypes (name : String) : List String :=
  if Text.startsWith name "anims/" then ["Animation"]
  else if Text.startsWith name "material/" then materialTypes
  else
    match name with
    | "mesh" => ["ArrayMesh"]
    | "shape" =>
      ["ConvexPolygonShape", "ConcavePolygonShape", "BoxShape", "SphereShape", "CapsuleShape"]
    | "multimesh" => ["MultiMesh"]
    | "curve" => ["Curve3D"]
    | "physics_material_override" => ["PhysicsMaterial"]
    | _ => []

/-- The property of a name refers to no resource. -/
def IsPlainName (name : String) : Prop :=
  neededTypes name = []

instance (name : String) : Decidable (IsPlainName name) :=
  inferInstanceAs (Decidable (_ = _))

theorem Text.strip?_append (cs rest : List Char) : strip? cs (cs ++ rest) = some rest := by
  induction cs with
  | nil => rfl
  | cons c cs ih => rw [cons_append, strip?, beq_self_eq_true, if_pos rfl, ih]

theorem Text.startsWith_append (start rest : String) : startsWith (start ++ rest) start = true := by
  rw [startsWith, String.toList_append, strip?_append]
  rfl

theorem neededTypes_anims (name : String) : neededTypes ("anims/" ++ name) = ["Animation"] := by
  unfold neededTypes
  rw [Text.startsWith_append]
  rfl

variable {start name : String} {rest : String}

/-- Texts that begin with different letters. -/
theorem Text.startsWith_append_of_ne {c d : Char} {cs ds : List Char} (hs : start.toList = c :: cs)
    (hn : name.toList = d :: ds) (hne : d ≠ c) (rest : String) : startsWith (start ++ rest) name =
    false := by
  have hdc : (d == c) = false := beq_eq_false_iff_ne.2 hne
  rw [startsWith, String.toList_append, hs, hn, cons_append, strip?, hdc]
  rfl

theorem neededTypes_material {surface : String} : neededTypes ("material/" ++ surface) =
    materialTypes := by
  have hanims : Text.startsWith ("material/" ++ surface) "anims/" = false :=
    Text.startsWith_append_of_ne rfl rfl (by decide) surface
  unfold neededTypes
  rw [hanims, Text.startsWith_append, if_neg Bool.false_ne_true, if_pos rfl]

/-- The name of a property under which players do not keep their animations. -/
def NoCue (name : String) : Prop :=
  name.toList.take 6 ≠ "anims/".toList

instance (name : String) : Decidable (NoCue name) :=
  inferInstanceAs (Decidable (_ ≠ _))

theorem NoCue.ne (h : NoCue name) (animation : String) : "anims/" ++ animation ≠ name := by
  rintro rfl
  exact h (by rw [String.toList_append]; rfl)

/-- A name that begins otherwise is not that of an animation. -/
theorem noCue_append (h : start.toList.head?.any (· != 'a') = true) : NoCue (start ++ rest) :=
  fun he => head?_append_ne h (by simpa [head?_take] using congrArg List.head? he)

theorem IsPlainName.noCue (h : IsPlainName name) : NoCue name := by
  intro htake
  have hname : name = "anims/" ++ String.ofList (name.toList.drop 6) := by
    apply String.toList_injective
    rw [String.toList_append, ← htake, String.toList_ofList, take_append_drop]
  rw [hname, IsPlainName, neededTypes_anims] at h
  cases h

/-- A name that begins with a letter which no reference begins with. -/
theorem isPlainName_append {c : Char} {cs : List Char} (hs : start.toList = c :: cs)
    (hc : c ∉ ['a', 'm', 's', 'c', 'p']) : IsPlainName (start ++ rest) := by
  have hl : (start ++ rest).toList = c :: (cs ++ rest.toList) := by
    rw [String.toList_append, hs]; rfl
  have hne {name : String} {d : Char} {ds : List Char} (hd : name.toList = d :: ds)
      (hm : d ∈ ['a', 'm', 's', 'c', 'p']) : start ++ rest ≠ name := by
    rintro rfl
    rw [hl] at hd
    exact hc ((List.cons.inj hd).1 ▸ hm)
  have hst {name : String} {d : Char} {ds : List Char} (hd : name.toList = d :: ds)
      (hm : d ∈ ['a', 'm', 's', 'c', 'p']) : Text.startsWith (start ++ rest) name = false :=
    Text.startsWith_append_of_ne hs hd (fun he => hc (he ▸ hm)) rest
  have hanims : Text.startsWith (start ++ rest) "anims/" = false := hst rfl (by decide)
  have hmate : Text.startsWith (start ++ rest) "material/" = false := hst rfl (by decide)
  unfold IsPlainName neededTypes
  rw [hanims, hmate, if_neg Bool.false_ne_true, if_neg Bool.false_ne_true]
  split
  · next he => exact absurd he (hne rfl (by decide))
  · next he => exact absurd he (hne rfl (by decide))
  · next he => exact absurd he (hne rfl (by decide))
  · next he => exact absurd he (hne rfl (by decide))
  · next he => exact absurd he (hne rfl (by decide))
  · rfl

/-- The property of a name is neither a reference nor the transform. -/
def IsDetailName (name : String) : Prop :=
  IsPlainName name ∧ name ≠ "transform"

instance (name : String) : Decidable (IsDetailName name) :=
  inferInstanceAs (Decidable (_ ∧ _))

theorem isDetailName_of_targets {δ : Type} {attributes : List (Attribute δ α)}
    (targets : List String) (h : attributes.map Attribute.target = targets)
    (ht : ∀ t ∈ targets, IsDetailName t) :
    ∀ a ∈ attributes, IsDetailName a.target :=
  fun _ ha => ht _ (h ▸ mem_map_of_mem ha)

theorem CameraData.attributes_detail : ∀ a ∈ (attributes : List (Attribute (CameraData α) α)),
    IsDetailName a.target :=
  isDetailName_of_targets ["far", "near", "size"] rfl (by decide)

section

variable [Scalar α] (a : Armature α) (numbers : Record Nat)

theorem LightData.attributes_detail (type : String) :
    ∀ a ∈ (attributes type : List (Attribute (LightData α) α)), IsDetailName a.target := by
  have hcomm : ∀ a ∈ (commonAttributes : List (Attribute (LightData α) α)), IsDetailName a.target :=
    isDetailName_of_targets ["light_specular", "light_color", "shadow_color"] rfl (by decide)
  refine forall_mem_append.2 ⟨hcomm, ?_⟩
  split
  · exact isDetailName_of_targets ["light_energy", "omni_range"] rfl (by decide)
  · exact isDetailName_of_targets ["light_energy", "spot_angle", "spot_angle_attenuation",
      "spot_range"] rfl (by decide)
  · exact isDetailName_of_targets ["light_energy"] rfl (by decide)
  · exact forall_mem_nil _

theorem boneProperty_detail (number : Int) (name : String) :
    IsDetailName (boneProperty number name) := by
  unfold boneProperty
  rw [String.append_assoc, String.append_assoc]
  exact ⟨isPlainName_append rfl (by decide), append_ne_transform (by decide)⟩

theorem Armature.boneEntry_detail (number : Nat) (label : String)
    (b : Bone α) : Outcome.Gives (fun ps => ∀ p ∈ ps, IsDetailName p.1)
    (a.boneEntry numbers number label b) := by
  refine .skip fun rest => .pure ?_
  simp [boneProperty_detail]

theorem Armature.entries_detail : Outcome.Gives (fun ps => ∀ p ∈ ps, IsDetailName p.1)
    (a.entries numbers) := by
  refine .bind (.mapM (fun (x : (Nat × Bone α) × String) => a.boneEntry_detail numbers x.1.1 x.2
    x.1.2) _) fun entries h => .pure fun p hp => ?_
  obtain ⟨ps, hps, hp⟩ := mem_flatten.1 hp
  exact h ps hps p hp

theorem lightNodeType?_ne {t type : String} (h : lightNodeType? t = some type) :
    type ≠ "AnimationPlayer" := by
  unfold lightNodeType? at h
  split at h <;> first | (cases h; decide) | cases h

omit [Scalar α] in
theorem nodeType_mem_bodyTypes (b : RigidBody α) : b.nodeType ∈ bodyTypes := by
  unfold RigidBody.nodeType
  split
  · split <;> decide
  · decide

end

namespace ExportM

/-- A node for an object is made below another one, or below none, gets its details and a transform,
and is written.  What holds before the node is made (`P`), while it has a transform or none yet
(`M`) and when it is written (`W`) is up to the user, and so is what is known of the object and of
its local transform. -/
structure Crafts (id : ObjectId) (parent : Option NodeId) (type : String) (view : Session α → γ)
    (Seen : Object α → Prop) (Local : Placement α → Prop) (P : γ → Prop)
    (M W : NodeId → Option (Placement α) → γ → Prop) : Prop where
  object : Gets view P (object id) fun o _ => Seen o
  make : ∀ name {role : Role}, (role.isSkeleton = true → type = "Skeleton") →
    Leads (fun s => P (view s)) (makeNode name type parent role) fun i s => M i none (view s)
  detail : ∀ i t j {name}, IsDetailName name → ∀ v, Lasts view (M i t) (setNode j name v)
  localTransform : ∀ i {o}, Seen o → Gets view (M i none) (localTransform o) fun t _ => Local t
  place : ∀ i t, Leads (fun s => M i none (view s)) (setNode i "transform" (.transform t))
    fun _ s =>
    M i (some t) (view s)
  write : ∀ i t, Leads (fun s => M i t (view s)) (writeNode i) fun _ s => W i t (view s)

/-- The node is written, with a transform of some kind. -/
abbrev Crafted (view : Session α → γ) (W : NodeId → Option (Placement α) → γ → Prop)
    (kind : Placement α → Prop) (i : NodeId) (s : Session α) : Prop :=
  ∃ t, kind t ∧ W i (some t) (view s)

/-- A transform that is turned like cameras and lights are. -/
def Directed [Scalar α] (kind : Placement α → Prop) (t : Placement α) : Prop :=
  ∃ t0, kind t0 ∧ t0.directional = .ok t

/-- A collision shape may refer to the shapes that are exported for it. -/
structure Shaped [Scalar α] (cfg : Settings) (id : ObjectId) (view : Session α → γ)
    (Seen : Object α → Prop) (M : γ → Prop) (i : NodeId) (Ref : Option Nat → γ → Prop) : Prop where
  meshShape : ∀ b convex, Gets view M (exportMeshShape cfg id b convex) fun found y =>
    ∀ n ∈ found, Ref (some n) y
  simpleShape : ∀ o b name, Seen o → o.rigidBody = some b →
    ¬ (b.shape = "CONVEX_HULL" ∨ b.shape = "MESH") → Gets view M (exportSimpleShape id o b name) Ref
  refer : ∀ n, Leads (fun s => M (view s) ∧ Ref n (view s))
    (setNode i "shape" (.reference (.internal n))) fun _ s => M (view s)

theorem shaped_of_keeps [Scalar α] [Quiet view] [HidesKeyed view] {cfg : Settings}
    {id : ObjectId} {Seen : Object α → Prop} {M : γ → Prop} {i : NodeId}
    (hset : ∀ n, Lasts view M (setNode i "shape" (.reference (.internal n)))) :
    Shaped cfg id view Seen M i fun _ _ => True where
  meshShape b convex := ((exportMeshShape_keeps cfg id b convex).leads M).post fun _ _ h =>
    ⟨h, fun _ _ => trivial⟩
  simpleShape o b name _ _ _ := ((exportSimpleShape_keeps id o b name).leads M).also
  refer n := (hset n).pre fun _ h => h.1

namespace Crafts

variable {type : String} {Seen : Object α → Prop} {Local : Placement α → Prop} {P : γ → Prop}
  {M W : NodeId → Option (Placement α) → γ → Prop}

theorem exportEmpty (h : Crafts id parent "Spatial" view Seen Local P M W)
    (he : cfg.has .empty = true) :
    Leads (fun s => P (view s)) (exportEmpty cfg id parent) fun made s =>
      ∃ i, made = some i ∧ Crafted view W Local i s := by
  unfold ExportM.exportEmpty
  rw [he]
  refine .bind h.object fun o => .of_fact fun ho => .bind (h.make _ nofun) fun node => ?_
  refine .bind (h.localTransform _ ho) fun t => .of_fact fun ht => .bind (h.place _ _) fun _ => ?_
  extract_lets written
  have hw : ∀ r, Leads (fun s => M node (some t) (view s)) (written r) fun made s =>
      ∃ i, made = some i ∧ Crafted view W Local i s :=
    fun _ => .bind (h.write _ _) fun _ => .pure fun _ hs => ⟨node, rfl, t, ht, hs⟩
  split
  · exact .bind (h.detail _ _ _ (by decide) _) hw
  · exact hw ()

theorem exportAttachment (h : Crafts id parent "BoneAttachment" view Seen Local P M W) :
    Brings view P (exportAttachment id parent) fun i y => W i none y ∧ parent.isSome := by
  refine .bind h.object fun o => .of_fact fun _ => ?_
  refine .bind (h.make _ nofun) fun attachment => .keeping skeletonNumbers_keeps fun numbers => ?_
  refine .bind .lift fun skeleton => .of_fact fun hskel => ?_
  have hsome : parent.isSome := by rw [need_ok hskel]; rfl
  refine .keeping boneName_keeps fun name => .bind (h.detail _ _ _ (by decide) _) fun _ => ?_
  refine .keeping node_keeps fun n => ?_
  split
  · refine .keeping nodePath_keeps fun above => .keeping nodePath_keeps fun below => ?_
    refine .keeping .lift fun path => .bind (h.detail _ _ _ (boneProperty_detail _ _) _) fun _ => ?_
    exact .bind (h.write _ _) fun _ => .pure fun _ hs => ⟨hs, hsome⟩
  · exact .throw

theorem exportBody {M W : String → NodeId → Option (Placement α) → γ → Prop}
    (h : ∀ type ∈ bodyTypes, Crafts id parent type view Seen Local P (M type) (W type))
    (hsubs : ∀ type i (r : Resource α), r.PlainOf ["PhysicsMaterial"] → Lasts view (M type i none)
      (forceInternal r >>= fun n => setNode i "physics_material_override"
      (.reference (.internal (some n))))) :
    Leads (fun s => P (view s)) (exportBody id parent) fun i s =>
      ∃ type ∈ bodyTypes, Crafted view (W type) Local i s := by
  refine .bind (h "RigidBody" (by decide)).object fun o => .of_fact fun ho =>
    .keeping .lift fun b => ?_
  have hb := nodeType_mem_bodyTypes b
  refine .bind ((h _ hb).make _ nofun) fun node => ?_
  extract_lets written rest material
  have hw (t : Placement α) (ht : Local t) : ∀ r,
    Leads (fun s => M b.nodeType node (some t) (view s)) (written r)
      fun i s => ∃ type ∈ bodyTypes, Crafted view (W type) Local i s :=
    fun _ => .bind ((h _ hb).write _ _) fun _ => .pure fun _ hs => ⟨_, hb, t, ht, hs⟩
  have hset {name : String} (hname : IsDetailName name) (t : Option (Placement α)) :=
    (h _ hb).detail node t node hname
  have hr : ∀ r, Leads (fun s => M b.nodeType node none (view s)) (rest r) fun i s =>
      ∃ type ∈ bodyTypes, Crafted view (W type) Local i s := by
    intro _
    refine .bind ((h _ hb).localTransform _ ho) fun t => .of_fact fun ht =>
      .bind ((h _ hb).place _ _) fun _ => ?_
    refine .bind (hset (by decide) _ _) fun _ => .bind (hset (by decide) _ _) fun _ => ?_
    split
    · refine .bind (hset (by decide) _ _) fun _ => .bind (hset (by decide) _ _) fun _ => ?_
      exact .bind (hset (by decide) _ _) fun _ => .bind (hset (by decide) _ _) (hw t ht)
    · exact hw t ht ()
  have hpln (x y : α) : ((material.set "friction" (.real x)).set "bounce" (.real y)).PlainOf
    ["PhysicsMaterial"] :=
    (Resource.plainOf_ofType.set _ (Value.plain_real x)).set _ (Value.plain_real y)
  split
  · exact .bind_bind (hsubs _ _ _ (hpln _ _)) hr
  · exact hr ()

variable [Scalar α] {o : Object α}

theorem setAttributes {δ : Type} (h : Crafts id parent type view Seen Local P M W)
    {attributes : List (Attribute δ α)} (ha : ∀ a ∈ attributes, IsDetailName a.target) (i : NodeId)
    (t : Option (Placement α)) (data : δ) :
    Lasts view (M i t) (setAttributes i data attributes) :=
  .forM_mem fun a hm => .keeping .lift fun v => h.detail i t i (ha a hm) v

theorem exportCamera (h : Crafts id parent "Camera" view Seen Local P M W)
    (hani : ∀ i t a, Lasts view (W i t) (exportAnimation cfg a (some i))) :
    Leads (fun s => P (view s)) (exportCamera cfg id parent)
    (Crafted view W (Directed Local)) := by
  refine .bind h.object fun o => .of_fact fun ho => .bind (h.make _ nofun) fun node => ?_
  extract_lets rest
  have hr : ∀ camera, Leads (fun s => M node none (view s)) (rest camera)
    (Crafted view W (Directed Local)) := by
    intro camera
    refine .bind (h.setAttributes CameraData.attributes_detail _ _ _) fun _ => ?_
    refine .bind (h.detail _ _ _ (by decide) _) fun _ => .bind (h.detail _ _ _ (by decide) _)
      fun _ => ?_
    refine .bind (h.localTransform _ ho) fun t => .of_fact fun ht => .bind .lift fun turned => ?_
    refine .of_fact fun hturn => .bind (h.place _ _) fun _ => .bind (h.write _ _) fun _ => ?_
    exact .bind (hani _ _ _) fun _ => .pure fun _ hs => ⟨turned, ⟨t, ht, hturn⟩, hs⟩
  split
  · exact .keeping .pure hr
  · exact .keeping .throw hr

theorem makeLight (h : Crafts id parent type view Seen Local P M W) (ho : Seen o)
    (htype : o.data.type?.bind lightNodeType? = some type) :
    Leads (fun s => P (view s)) (makeLight o parent) fun made s =>
      ∃ i, made = some i ∧ Crafted view W (Directed Local) i s := by
  refine .bind .lift fun word => .of_fact fun hword => ?_
  rw [need_ok hword, Option.bind_some] at htype
  rw [htype]
  refine .bind (h.make _ nofun) fun node => ?_
  extract_lets rest
  have hr : ∀ light, Leads (fun s => M node none (view s)) (rest light) fun made s =>
      ∃ i, made = some i ∧ Crafted view W (Directed Local) i s := by
    intro light
    refine .bind (h.setAttributes (LightData.attributes_detail _) _ _ _) fun _ => ?_
    refine .bind (h.localTransform _ ho) fun t => .of_fact fun ht => .bind .lift fun turned => ?_
    refine .of_fact fun hturn => .bind (h.place _ _) fun _ => .bind (h.detail _ _ _ (by decide) _)
      fun _ => ?_
    refine .bind (h.detail _ _ _ (by decide) _) fun _ => .bind (h.write _ _) fun _ => ?_
    exact .pure fun _ hs => ⟨node, rfl, turned, ⟨t, ht, hturn⟩, hs⟩
  split
  · exact .keeping .pure hr
  · exact .keeping .throw hr

omit [Scalar α] in
theorem makeLight_dark [Quiet view] {V : γ → Prop} [Scalar α]
    (htype : o.data.type?.bind lightNodeType? = none) (parent : Option NodeId) :
    Gets view V (ExportM.makeLight o parent) fun made _ => made = none := by
  refine .bind .lift fun word => .of_fact fun hword => ?_
  rw [need_ok hword, Option.bind_some] at htype
  rw [htype]
  exact .keeping warn_keeps fun _ => .pure fun _ h => ⟨h, rfl⟩

theorem exportArmature (h : Crafts id parent "Skeleton" view Seen Local P M W)
    (hrole : ∀ i t role, Lasts view (M i t) (changeFile fun f =>
      { f with tree := f.tree.update i fun n => { n with role } })) :
    Leads (fun s => P (view s)) (exportArmature cfg id parent) (Crafted view W Local) := by
  refine .bind h.object fun o => .of_fact fun ho => .bind (h.make _ fun _ => rfl) fun node => ?_
  refine .bind (h.detail _ _ _ (by decide) _) fun _ => .bind (h.localTransform _ ho) fun t =>
    .of_fact fun ht => ?_
  refine .bind (h.place _ _) fun _ => .keeping .get fun s => .keeping .lift fun numbers => ?_
  refine .bind (hrole _ _ _) fun _ => .keeping .lift fun a => .bind .lift fun ps =>
    .of_fact fun hps => ?_
  refine .bind (.forM_mem fun p hp => h.detail _ _ _ (a.entries_detail numbers ps hps p hp) _)
    fun _ => ?_
  exact .bind (h.write _ _) fun _ => .pure fun _ hs => ⟨t, ht, hs⟩

theorem exportCollision {body : NodeId} (h : Crafts id (some body) "CollisionShape" view Seen Local
    P M W) {root : Option ObjectId} (Root : Option (Object α) → Prop)
    (hroot : ∀ i, Gets view (M i none) (root.mapM ExportM.object) fun x _ => Root x)
    (kind : Placement α → Prop) (hkind : ∀ {o x t}, Seen o → Root x → collisionTransform o x =
    .ok t → kind t) {Ref : NodeId → Option (Placement α) → Option Nat → γ → Prop}
    (hshap : ∀ i t, Shaped cfg id view Seen (M i t) i (Ref i t)) :
    Leads (fun s => P (view s)) (exportCollision cfg id body root) (Crafted view W kind) := by
  refine .bind h.object fun o => .of_fact fun ho => ?_
  refine .bind (h.make _ nofun) fun node => .bind (hroot _) fun x => .of_fact fun hx => ?_
  refine .bind .lift fun t => .of_fact fun ht => .bind (h.place _ _) fun _ => ?_
  refine .bind .lift fun b => .of_fact fun hb => ?_
  extract_lets written
  have hw : ∀ r, Leads (fun s => M node (some t) (view s)) (written r) (Crafted view W kind) :=
    fun _ =>
    .bind (h.write _ _) fun _ => .pure fun _ hs => ⟨t, hkind ho hx ht, hs⟩
  have hs := hshap node (some t)
  split
  · refine .bind (hs.meshShape _ _) fun number => ?_
    split
    · exact .bind ((hs.refer _).pre fun _ h => ⟨h.1, h.2 _ rfl⟩) hw
    · exact (hw ()).pre fun _ h => h.1
  · next hno =>
      exact .bind (hs.simpleShape o b _ ho (need_ok hb) hno) fun _ => .bind (hs.refer _) hw

theorem exportInstance (h : Crafts id parent "MeshInstance" view Seen Local P M W) (ho : Seen o)
    (hshow : ∀ i, Lasts view (M i none) (showMesh cfg id o i))
    (hkeys : ∀ i t, Lasts view (W i t) (animateShapeKeys cfg o i)) :
    Leads (fun s => P (view s)) (exportInstance cfg id o parent)
      (Crafted view W fun t => (o.hasPhysics = true → t = .identity) ∧
      (o.hasPhysics = false → Local t)) := by
  refine .bind (h.make _ nofun) fun node => .bind (hshow _) fun _ => ?_
  extract_lets rest
  have hr (t : Placement α) (ht : (o.hasPhysics = true → t = .identity) ∧
    (o.hasPhysics = false → Local t)) :
      Leads (fun s => M node none (view s)) (rest t)
        (Crafted view W fun t => (o.hasPhysics = true → t = .identity) ∧
        (o.hasPhysics = false → Local t)) := by
    refine .bind (h.place _ _) fun _ => .bind (h.write _ _) fun _ => .bind (hkeys _ _) fun _ => ?_
    exact .pure fun _ hs => ⟨t, ht, hs⟩
  split
  · next hphys =>
    exact hr _ ⟨fun _ => rfl, fun hno => absurd hphys (Bool.eq_false_iff.1 hno)⟩
  · next hphys =>
    refine .bind (h.localTransform _ ho) fun t => .of_fact fun ht =>
      hr t ⟨fun hyes => absurd hyes hphys, fun _ => ht⟩

theorem exportCurve (h : Crafts id parent "Path" view Seen Local P M W)
    (Ref : NodeId → Option (Placement α) → Nat → γ → Prop)
    (hspli : ∀ i t curve, Gets view (W i t) (exportSpline id curve) (Ref i t))
    (hrefer : ∀ i t n, Brings view (fun y => W i t y ∧ Ref i t n y)
      (setNode i "curve" (.reference (.internal (some n)))) fun _ => W i t)
    (hmesh : ∀ {o}, Seen o → o.data.splines ≠ [] → ∀ i t, Lasts view (W i t)
    (exportMeshNode cfg id (some i) >>= fun mesh => setNode mesh "transform"
    (.transform .identity))) :
    Leads (fun s => P (view s)) (exportCurve cfg id parent) (Crafted view W Local) := by
  refine .bind h.object fun o => .of_fact fun ho => ?_
  extract_lets rest
  have hr : ∀ curve, o.data = .curve curve → Leads (fun s => P (view s)) (rest curve)
    (Crafted view W Local) := by
    intro curve hcurve
    refine .bind (h.make _ nofun) fun path => .bind (h.localTransform _ ho) fun t =>
      .of_fact fun ht => ?_
    refine .bind (h.place _ _) fun _ => .bind (h.write _ _) fun _ => ?_
    by_cases hne : curve.splines = []
    · rw [hne]
      exact .bind .done fun _ => .pure fun _ hs => ⟨t, ht, hs⟩
    have hsplin : o.data.splines ≠ [] := by rwa [hcurve]
    refine .bind (.forIn (fun _ s => W path (some t) (view s)) (fun x _ => ?_) _ _) fun _ =>
      .pure fun _ hs => ⟨t, ht, hs⟩
    split
    extract_lets shown
    have hs : ∀ r, Lasts view (W path (some t)) (shown r) := fun _ =>
      .bind_bind (hmesh ho hsplin path (some t)) fun _ => .done
    split
    · refine .bind (hspli _ _ _) fun number => ?_
      split
      · exact .bind (hrefer _ _ _) hs
      · exact (hs ()).pre fun _ hs => hs.1
    · exact hs ()
  split
  · next curve hcurve =>
    exact hr curve hcurve
  · exact .bind (Q := fun _ _ => False) .throw fun _ _ hs => hs.elim

end Crafts

theorem exportAttachment_plain {V : γ → Prop} {p : NodeId}
    (hmake : ∀ name, Lasts view V (makeNode name "BoneAttachment" (some p) .plain))
    (hpln : ∀ {s : Session α} {n}, V (view s) → s.file.tree.nodes[p]? = some n → n.role.isSkeleton =
    false) (id : ObjectId) : Leads (fun s => V (view s)) (exportAttachment id (some p)) fun _ _ =>
    False := by
  refine .keeping (object_keeps _) fun x => ?_
  refine .bind (hmake _) fun attachment s hs _ s' h => ?_
  obtain ⟨numbers, s1, hnums, -⟩ := bind_ok h
  obtain ⟨_, hi, h1⟩ := lift_bind_ok hnums
  cases need_ok hi
  obtain ⟨n, hn, h2⟩ := look_ok node_ok h1
  have hrole := hpln hs hn
  cases hr : n.role with
  | skeleton bones => rw [hr] at hrole; cases hrole
  | _ => rw [hr] at h2; cases h2

/-! ### Particles -/

section

variable {V : γ → Prop} {K : Option Nat → Option NodeId → γ → Prop} {F W : NodeId → γ → Prop}

/-- Of the systems of an object the active one is found, or it is among the `rest`. -/
def StillToCome (o : Object α) (active : Option Nat) (rest : List (ParticleSystem α × Nat)) :
    Prop :=
  (∀ x ∈ rest, x.2 < o.particles.length) ∧
    (active = none → ∀ x ∈ o.particles.zipIdx, o.activeParticles = some x.2 → x ∈ rest)

/-- The systems of an object are exported one after the other, each with a node.  What holds (`K`)
may depend on the active one, if it was found, and on the last node, which is finished (`F`) and
written (`W`) in the end. -/
theorem exportParticles_leads [Scalar α] (view : Session α → γ) (Seen : Object α → Prop)
    (hobj : Gets view (K none none) (object id) fun o _ => Seen o)
    (hmake : ∀ active last name, Brings view (K active last)
    (makeNode name "MultiMeshInstance" parent .plain) fun i =>
      K active (some i))
    (hsyst : ∀ {o}, Seen o → ∀ active i target index system, index < o.particles.length →
      Gets view (K active (some i)) (exportMesh cfg target [] >>= exportSystem id index system)
      fun n y =>
        o.activeParticles = some index → K (some n) (some i) y)
    (hshow : ∀ {o}, Seen o → ∀ active i,
      (active = none → ∀ k < o.particles.length, o.activeParticles ≠ some k) →
      Brings view (K active (some i)) (setNode i "multimesh" (.reference (.internal active)))
        fun _ => F i)
    (hdeta : ∀ i v, Lasts view (F i) (setNode i "visible" v))
    (hwr : ∀ i, Brings view (F i) (writeNode i) fun _ => W i) :
    Brings view (K none none) (exportParticles cfg id parent) W := by
  refine .bind hobj fun o => .of_fact fun ho => ?_
  refine .bind ((Leads.loop (fun rest d s => K d.2.1 d.2.2 (view s) ∧ StillToCome o d.2.1 rest) ?_ _
    _).pre ?_) fun d => ?_
  · rintro ⟨system, index⟩ rest ⟨copied, active, last⟩
    refine .of_fact fun hcome => .keeping (V := K active last) .lift fun copied => ?_
    refine .bind ((hmake active last _).map some) fun last => .of_exists fun node =>
      .of_fact fun hlast => ?_
    subst hlast
    refine .keeping (V := K active (some node)) .lift fun target => ?_
    have hrest : ∀ x ∈ rest, x.2 < o.particles.length := fun x hx =>
      hcome.1 x (mem_cons_of_mem _ hx)
    refine .bind_bind (hsyst ho active node target index system (hcome.1 _ mem_cons_self))
      fun number => ?_
    split
    · next hact => exact .pure fun s hs => ⟨_, rfl, hs.2 hact, hrest, nofun⟩
    · next hoth =>
      refine .pure fun s hs => ⟨_, rfl, hs.1, hrest, fun hno x hx hact => ?_⟩
      rcases mem_cons.1 (hcome.2 hno x hx hact) with rfl | hx
      · exact absurd hact hoth
      · exact hx
  · refine fun s hs => ⟨hs, fun x hx => ?_, fun _ x hx _ => hx⟩
    exact (List.getElem?_eq_some_iff.1 (List.mk_mem_zipIdx_iff_getElem?.1 hx)).1
  · obtain ⟨copied, active, last⟩ := d
    refine .of_fact fun hcome => .bind .lift fun node => .of_fact fun hnode => ?_
    obtain rfl : last = some node := need_ok hnode
    refine .bind (hshow ho active node fun hno k hk hact => ?_) fun _ => ?_
    · have hx : (o.particles[k], k) ∈ o.particles.zipIdx := mk_mem_zipIdx_iff_getElem?.2 (by simp)
      exact absurd (hcome.2 hno _ hx hact) not_mem_nil
    · exact .bind (hdeta _ _) fun _ => .bind (hwr _) fun _ => .pure fun _ hs => hs

theorem lasts_exportOwnParticles [Scalar α] {o : Object α}
    (h : o.particles ≠ [] → cfg.has .particle = true →
    Lasts view V (exportParticles cfg id parent)) :
    Lasts view V (exportOwnParticles cfg id o parent) := by
  unfold exportOwnParticles
  split
  · next hhas =>
    rw [Bool.and_eq_true] at hhas
    exact .bind (h (by simpa using hhas.2) hhas.1) fun _ => .done
  · exact .done

/-! ### Animations -/

theorem differs_keeps [Scalar α] {made parent : Option NodeId} : Keeps false view
    (differs made parent) := by
  unfold differs
  split
  · split
    · exact .pure
    · exact .bind node_keeps fun _ => .bind node_keeps fun _ => .pure
  · exact .pure
  · exact .pure

theorem lasts_animateObject [Scalar α] {above made : Option NodeId}
    (hani : ∀ a, Lasts view V (exportAnimation cfg a made)) (id : ObjectId) :
    Lasts view V (animateObject cfg id above made) := by
  refine .keeping differs_keeps fun differ => ?_
  split
  · exact hani _
  · exact .done

theorem lasts_animateShapeKeys [Scalar α] {node : NodeId}
    (hani : ∀ a, Lasts view V (exportAnimation cfg a (some node))) (o : Object α) :
    Lasts view V (animateShapeKeys cfg o node) := by
  unfold animateShapeKeys
  split
  · split
    · refine .keeping .get fun s => ?_
      split
      · exact hani _
      · exact .done
    · exact .done
  · exact .done

end

section

variable {V : γ → Prop} {Own : NodeId → Prop}
  (hmake : ∀ parent, Gets view V (makeNode "AnimationPlayer" "AnimationPlayer" parent
    (.player none)) fun i _ => Own i)
  (hroot : ∀ {i}, Own i → ∀ v, Lasts view V (setNode i "root_node" v))
  (hwr : ∀ id, Lasts view V (writeNode id))

include hmake hroot

theorem lasts_makePlayer {above : Option NodeId} : Lasts view V (makePlayer above) := by
  refine .bind (hmake _) fun player => .of_fact fun hown => .keeping nodePath_keeps fun path => ?_
  refine .keeping existing_keeps fun id => .keeping nodePath_keeps fun path' => ?_
  exact .keeping .lift fun between => .bind (hroot hown _) fun _ => .done

include hwr

theorem lasts_playerFor {cfg : Settings} {target : Option NodeId} :
    Lasts view V (playerFor cfg target) := by
  unfold ExportM.playerFor
  extract_lets rest
  have hr : ∀ x, Lasts view V (rest x) := by
    rintro ⟨above, found⟩
    cases found with
    | some player => exact .done
    | none =>
      exact .bind (lasts_makePlayer hmake hroot) fun player => .bind (hwr _) fun _ => .done
  split
  · exact .keeping .pure hr
  · refine .keeping .get fun s => .keeping need_keeps fun root => ?_
    exact .keeping (childPlayer?_keeps _) fun found => .keeping .pure hr
  · refine .keeping .get fun s => .keeping playerAbove?_keeps fun found => ?_
    exact .keeping .pure hr

theorem lasts_animation [Scalar α] [Tracked view]
    (hanim : ∀ player name, Lasts view V (createAnimation player name)) (cfg : Settings)
    (a : Animated) (node : Option NodeId) : Lasts view V (exportAnimation cfg a node) :=
  exportAnimation_leads hanim cfg a node (lasts_playerFor hmake hroot hwr)

end

end ExportM

end SceneExport
