import SceneExport.Proofs.Armature.Numbering
import SceneExport.Proofs.Export.Traversal

/-!
# Skeletons

The skeleton of an armature has its exported bones in the order of their numbers, each with the same
six properties (`SkeletonBone.properties`).
-/

namespace SceneExport

open List

variable {α : Type} {taken : List String}

/-! ### Labels -/

theorem mem_uniqueName {base : String} {c : Char} (h : c ∈ (uniqueName taken base).toList) :
    c ∈ base.toList ∨ c.isDigit = true := by
  unfold uniqueName at h
  split at h
  · obtain ⟨n, hn⟩ := freshName_eq taken base taken.length 1
    rw [hn, String.toList_append, mem_append] at h
    exact h.imp_right Text.isDigit_of_mem_padded
  · exact .inl h

/-- The text has none of the characters that bone names cannot have. -/
def IsBoneLabel (s : String) : Prop :=
  ':' ∉ s.toList ∧ '/' ∉ s.toList

theorem isBoneLabel_uniqueName {name : String} : IsBoneLabel (uniqueName taken (boneLabel name)) :=
    by
  have hlabel : ∀ c, c == ':' || c == '/' → c ∉ (uniqueName taken (boneLabel name)).toList := by
    intro c hc hmem
    rcases mem_uniqueName hmem with h | h
    · rw [boneLabel, Text.without, String.toList_ofList, mem_filter] at h
      simp [hc] at h
    · rcases Bool.or_eq_true_iff.1 hc with hc | hc <;>
        (rw [eq_of_beq hc] at h; exact absurd h (by decide))
  exact ⟨hlabel ':' rfl, hlabel '/' rfl⟩

theorem boneLabels_spec (taken names : List String) :
    (boneLabels taken names).length = names.length ∧ (boneLabels taken names).Nodup ∧
      ∀ label ∈ boneLabels taken names, label ∉ taken ∧ IsBoneLabel label := by
  induction names generalizing taken with
  | nil => simp [boneLabels]
  | cons name names ih =>
    obtain ⟨hlen, hnd, hlabe⟩ := ih (uniqueName taken (boneLabel name) :: taken)
    refine ⟨by simp [boneLabels, hlen], nodup_cons.2 ⟨fun h => ?_, hnd⟩, fun label hl => ?_⟩
    · exact (hlabe _ h).1 mem_cons_self
    · rcases mem_cons.1 hl with rfl | hl
      · exact ⟨uniqueName_not_mem _ _, isBoneLabel_uniqueName⟩
      · exact ⟨fun h => (hlabe label hl).1 (mem_cons_of_mem _ h), (hlabe label hl).2⟩

/-! ### Properties -/

/-- A bone as a skeleton has it. -/
structure SkeletonBone (α : Type) where
  bone : Bone α
  label : String
  parent : Int
  rest : Placement α

def SkeletonBone.properties (b : SkeletonBone α) (number : Nat) : Record (Value α) :=
  [(boneProperty number "name", .quoted b.label), (boneProperty number "parent", .int b.parent),
    (boneProperty number "rest", .transform b.rest),
    (boneProperty number "pose", .transform b.bone.basis),
    (boneProperty number "enabled", .flag true),
    (boneProperty number "bound_children", .array ⟨"[", ", ", "]"⟩ [])]

/-- The properties of all bones, numbered from zero. -/
def skeletonProperties (bones : List (SkeletonBone α)) : Record (Value α) :=
  bones.zipIdx.flatMap fun x => x.1.properties x.2

theorem boneProperty_inj {k m : Nat} {x y : String} (hx : '/' ∉ x.toList) (hy : '/' ∉ y.toList)
    (h : boneProperty k x = boneProperty m y) : k = m ∧ x = y := by
  obtain ⟨hnum, hname⟩ := append_slash_inj hx hy h
  exact ⟨Text.repr_injective ((String.append_right_inj _).1 hnum), hname⟩

/-- What a skeleton says of each bone. -/
def boneFields : List String :=
  ["name", "parent", "rest", "pose", "enabled", "bound_children"]

theorem slash_not_mem_boneFields : ∀ field ∈ boneFields, '/' ∉ field.toList := by
  decide

theorem skeletonProperties_names (bones : List (SkeletonBone α)) : (skeletonProperties bones).map
    Prod.fst = bones.zipIdx.flatMap fun x => boneFields.map (boneProperty x.2) := by
  rw [skeletonProperties, map_flatMap]
  rfl

theorem skeletonProperties_nodup (bones : List (SkeletonBone α)) :
    ((skeletonProperties bones).map Prod.fst).Nodup := by
  rw [skeletonProperties_names, nodup_flatMap]
  constructor
  · intro x _
    refine (nodup_map_iff_inj_on (by decide)).2 fun y hy z hz h => ?_
    exact (boneProperty_inj (slash_not_mem_boneFields y hy) (slash_not_mem_boneFields z hz) h).2
  · have hnums : (bones.zipIdx.map Prod.snd).Nodup := by
      rw [zipIdx_map_snd]
      exact nodup_range'
    refine (pairwise_map.1 hnums).imp fun {x y} hne => ?_
    refine disjoint_iff_ne.2 ?_
    rintro p hp q hq rfl
    obtain ⟨u, hu, rfl⟩ := mem_map.1 hp
    obtain ⟨v, hv, h⟩ := mem_map.1 hq
    exact hne (boneProperty_inj (slash_not_mem_boneFields u hu) (slash_not_mem_boneFields v hv)
      h.symm).1

/-! ### The bones of a skeleton -/

theorem map_zip_numbered {β γ δ : Type} (f : Nat → β → γ → δ) (xs : List β) (ys : List γ)
    (n : Nat) :
    (((xs.zipIdx n).map Prod.swap).zip ys).map (fun x => f x.1.1 x.1.2 x.2)
      = ((xs.zip ys).zipIdx n).map fun x => f x.2 x.1.1 x.1.2 := by
  induction xs generalizing ys n with
  | nil => rfl
  | cons x xs ih =>
    cases ys with
    | nil => rfl
    | cons y ys => simpa using ih ys (n + 1)

namespace Armature

variable [Scalar α] {a : Armature α} {isExported : Bone α → Bool} {bones : List (SkeletonBone α)}

/-- The transforms of all bones at rest are affine maps. -/
def HasRests (a : Armature α) : Prop :=
  ∀ (i : Nat) (b : Bone α), a.bones[i]? = some b → ∃ m, b.rest = .transform m

/-- The bones are those of the armature that are exported, in the order of their numbers, each with
a label of its own. -/
structure Skeleton (a : Armature α) (isExported : Bone α → Bool) (bones : List (SkeletonBone α)) :
    Prop where
  exported : bones.map (·.bone) = a.exported isExported
  labels : (bones.map (·.label)).Nodup
  isLabel : ∀ b ∈ bones, IsBoneLabel b.label
  parent : ∀ b ∈ bones, b.parent = a.parentNumber (a.numbering isExported) b.bone
  rest : ∀ b ∈ bones, a.restTransform (a.numbering isExported) b.bone = .ok b.rest

variable {b : Bone α} {numbers : Record Nat}

theorem Skeleton.bone_of_number (hbns : a.Skeleton isExported bones) (hfor : a.IsForest)
    (hnms : a.HasUniqueNames) {i k : Nat} (hb : a.bones[i]? = some b)
    (hk : (a.numbering isExported).get? b.name = some k) : ∃ x, bones[k]? = some x ∧
    x.bone = b := by
  have hexp : (a.exported isExported)[k]? = some b := by
    rw [getElem?_exported, (number_iff hfor hnms hb).1 hk]
    exact hb
  rwa [← hbns.exported, getElem?_map, Option.map_eq_some_iff] at hexp

theorem restTransform_root (h : a.exportedParent? numbers b = none) : a.restTransform numbers b =
    .ok b.rest := by
  simp [restTransform, h]

theorem restTransform_below {p : Bone α} {m n : Mat4 α} (h : a.exportedParent? numbers b = some p)
    (hm : b.rest = .transform m) (hn : p.rest = .transform n) :
    a.restTransform numbers b = .ok (.transform (n.inverseOrIdentity * m)) := by
  simp only [restTransform, h, hm, hn]
  rfl

theorem restTransform_ok (hrests : a.HasRests) (numbers : Record Nat) {i : Nat}
    (hb : a.bones[i]? = some b) : ∃ m, a.restTransform numbers b = .ok (.transform m) := by
  obtain ⟨m, hm⟩ := hrests i b hb
  cases hp : a.exportedParent? numbers b with
  | none => exact ⟨m, hm ▸ restTransform_root hp⟩
  | some p =>
    obtain ⟨j, -, hj⟩ := mem_filterMap.1 (mem_of_find?_eq_some hp)
    obtain ⟨n, hn⟩ := hrests j p hj
    exact ⟨_, restTransform_below hp hm hn⟩

theorem entries_ok (hfor : a.IsForest) (hnms : a.HasUniqueNames) (hrests : a.HasRests) :
    ∃ bones, a.Skeleton isExported bones ∧
      a.entries (a.numbering isExported) = .ok (skeletonProperties bones) := by
  let numbers := a.numbering isExported
  let exported := a.exported isExported
  let labels := boneLabels [] (exported.map (·.name))
  obtain ⟨hlen, hnd, hlabe⟩ := boneLabels_spec [] (exported.map (·.name))
  rw [length_map] at hlen
  have hrest : ∀ b ∈ exported, ∃ rest, a.restTransform numbers b = .ok rest := by
    intro b hb
    obtain ⟨i, -, hi⟩ := mem_filterMap.1 (mem_filter.1 hb).1
    exact (restTransform_ok hrests numbers hi).imp' _ fun _ => id
  choose! rest hrest using hrest
  let bone (x : Bone α × String) : SkeletonBone α :=
    ⟨x.1, x.2, a.parentNumber numbers x.1, rest x.1⟩
  have hmem : ∀ b ∈ (exported.zip labels).map bone, ∃ x ∈ exported.zip labels, b = bone x :=
    fun b hb => (mem_map.1 hb).imp fun _ hx => ⟨hx.1, hx.2.symm⟩
  refine ⟨(exported.zip labels).map bone, ⟨?_, ?_, ?_, ?_, ?_⟩, ?_⟩
  · rw [map_map]
    exact map_fst_zip (Nat.le_of_eq hlen.symm)
  · rw [map_map]
    show ((exported.zip labels).map Prod.snd).Nodup
    rw [map_snd_zip (Nat.le_of_eq hlen)]
    exact hnd
  · intro b hb
    obtain ⟨x, hx, rfl⟩ := hmem b hb
    exact (hlabe x.2 (of_mem_zip hx).2).2
  · intro b hb
    obtain ⟨x, hx, rfl⟩ := hmem b hb
    rfl
  · intro b hb
    obtain ⟨x, hx, rfl⟩ := hmem b hb
    exact hrest x.1 (of_mem_zip hx).1
  · have hnumb : (a.numbered numbers).map (·.2.name) = exported.map (·.name) := by
      rw [numbered_eq hfor hnms, map_map]
      show exported.zipIdx.map ((·.name) ∘ Prod.fst) = _
      rw [← map_map, zipIdx_map_fst]
    let entry (x : (Nat × Bone α) × String) : Record (Value α) := (bone (x.1.2, x.2)).properties
      x.1.1
    have hmapM : ((a.numbered numbers).zip labels).mapM
      (fun x => a.boneEntry numbers x.1.1 x.2 x.1.2)
        = .ok (((a.numbered numbers).zip labels).map entry) := by
      refine Outcome.mapM_eq_ok entry fun x hx => ?_
      have hx : x.1.2 ∈ exported := by
        have := (of_mem_zip hx).1
        rw [numbered_eq hfor hnms] at this
        obtain ⟨y, hy, h⟩ := mem_map.1 this
        rw [← h]
        exact mem_of_getElem? (mem_zipIdx_iff_getElem?.1 hy)
      simp only [boneEntry, hrest _ hx]
      rfl
    have hentr : ((a.numbered numbers).zip labels).map entry
        = ((exported.zip labels).map bone).zipIdx.map fun x => x.1.properties x.2 := by
      rw [numbered_eq hfor hnms, zipIdx_map, map_map]
      exact map_zip_numbered (fun k b label => (bone (b, label)).properties k) exported labels 0
    show (do
      let entries ← ((a.numbered numbers).zip
        (boneLabels [] ((a.numbered numbers).map (·.2.name)))).mapM fun x => a.boneEntry numbers
        x.1.1 x.2 x.1.2
      return entries.flatten : Except Failure (Record (Value α))) = _
    rw [hnumb, hmapM, hentr, skeletonProperties, flatMap_def]
    rfl

end Armature

/-! ### Parents -/

namespace Armature

variable {a : Armature α} {isExported : Bone α → Bool} {i k p : Nat} {b : Bone α}

/-- The number of the nearest bone above that is exported, or `-1` if there is none. -/
inductive HangsOn (a : Armature α) (isExported : Bone α → Bool) (i : Nat) : Int → Prop
  | nothing (h : a.Nearest isExported i none) : HangsOn a isExported i (-1)
  | bone {p m : Nat} {b : Bone α} (h : a.Nearest isExported i (some p)) (hb : a.bones[p]? = some b)
      (hm : (a.numbering isExported).get? b.name = some m) : HangsOn a isExported i m

/-- Every exported bone has a name. -/
def NamesExported (a : Armature α) (isExported : Bone α → Bool) : Prop :=
  ∀ (i : Nat) (b : Bone α), a.bones[i]? = some b → isExported b = true → b.name ≠ ""

variable (hfor : a.IsForest) (hnms : a.HasUniqueNames)

include hfor hnms

theorem boneNumber_empty : boneNumber (a.numbering isExported) "" = -1 ↔ a.NamesExported
    isExported := by
  constructor
  · intro h i b hb he hname
    have hhas := (has_numbering hfor hnms hb).trans he
    rw [hname, Record.has, Option.isSome_iff_exists] at hhas
    obtain ⟨m, hm⟩ := hhas
    rw [boneNumber, hm] at h
    change (m : Int) = -1 at h
    omega
  · intro h
    have hnone : (a.numbering isExported).get? "" = none := by
      rw [Option.eq_none_iff_forall_ne_some]
      intro m hm
      obtain ⟨b, hb, hname⟩ := (get?_numbering hfor hnms).1 hm
      obtain ⟨hmem, he⟩ := mem_filter.1 (mem_of_getElem? hb)
      obtain ⟨i, -, hi⟩ := mem_filterMap.1 hmem
      exact h i b hi he hname
    rw [boneNumber, hnone]

theorem parentNumber_root (hb : a.bones[i]? = some b) (h : a.Nearest isExported i none) :
    a.parentNumber (a.numbering isExported) b = boneNumber (a.numbering isExported) "" := by
  rw [parentNumber, exportedParent?_nearest hfor hnms hb h]
  rfl

theorem parentNumber_below (hb : a.bones[i]? = some b) (hi : (a.places isExported)[k]? = some i)
    (h : a.Nearest isExported i (some p)) :
    ∃ m < k, a.HangsOn isExported i (m : Nat) ∧
    a.parentNumber (a.numbering isExported) b = (m : Nat) := by
  obtain ⟨m, hmk, hm⟩ := h.number_lt hfor hi
  obtain ⟨line, hline⟩ := hfor.lines i
  obtain ⟨c, hc, -⟩ := (h.mem_line hline).2
  have hnum := (number_iff hfor hnms hc).2 hm
  refine ⟨m, hmk, .bone h hc hnum, ?_⟩
  rw [parentNumber, exportedParent?_nearest hfor hnms hb h, Option.bind_some, hc, Option.map_some,
    Option.getD_some, boneNumber, hnum]

/-- A skeleton states the right parent of a bone, which comes before it, unless the bone hangs on
nothing and an exported bone has no name. -/
theorem parentNumber_hangsOn_iff (hb : a.bones[i]? = some b)
    (hi : (a.places isExported)[k]? = some i) :
    (a.HangsOn isExported i (a.parentNumber (a.numbering isExported) b) ↔
        (a.Nearest isExported i none → a.NamesExported isExported)) ∧
      (a.HangsOn isExported i (a.parentNumber (a.numbering isExported) b) →
        a.parentNumber (a.numbering isExported) b < k) := by
  obtain ⟨path, hline⟩ := hfor.lines i
  obtain ⟨above, hup, -⟩ : ∃ above, a.Nearest isExported i above ∧ _ := nearest_of_line hfor hline
  cases above with
  | none =>
    rw [parentNumber_root hfor hnms hb hup, ← boneNumber_empty hfor hnms]
    have hnoth : a.HangsOn isExported i (boneNumber (a.numbering isExported) "") →
        boneNumber (a.numbering isExported) "" = -1 := by
      generalize boneNumber (a.numbering isExported) "" = number
      intro h
      cases h with
      | nothing => rfl
      | bone h => cases hup.unique h
    refine ⟨⟨fun h _ => hnoth h, fun h => ?_⟩, fun h => ?_⟩
    · rw [h hup]
      exact .nothing hup
    · have := hnoth h
      omega
  | some p =>
    obtain ⟨m, hmk, hangs, hpar⟩ := parentNumber_below hfor hnms hb hi hup
    rw [hpar]
    exact ⟨⟨fun _ h => (by cases hup.unique h), fun _ => hangs⟩, fun _ => by omega⟩

end Armature

/-! ### Exporting an armature -/

/-- The properties of the skeleton of an object. -/
def skeletonRecord (placement : Placement α) (bones : List (SkeletonBone α)) : Record (Value α) :=
  [("bones_in_world_transform", .flag true), ("transform", .transform placement)] ++
    skeletonProperties bones

theorem boneProperty_not_mem (number : Int) (field : String) :
    boneProperty number field ∉ ["bones_in_world_transform", "transform"] := by
  intro h
  have hslash : '/' ∈ (boneProperty number field).toList := by simp [boneProperty]
  have hnone : ∀ name ∈ ["bones_in_world_transform", "transform"], '/' ∉ name.toList := by decide
  exact hnone _ h hslash

theorem skeletonRecord_nodup (placement : Placement α) (bones : List (SkeletonBone α)) :
    ((skeletonRecord placement bones).map Prod.fst).Nodup := by
  rw [skeletonRecord, map_append, nodup_append]
  refine ⟨by simp, skeletonProperties_nodup bones, ?_⟩
  rintro x hx y hy rfl
  rw [skeletonProperties_names] at hy
  obtain ⟨z, -, hz⟩ := mem_flatMap.1 hy
  obtain ⟨field, -, rfl⟩ := mem_map.1 hz
  exact boneProperty_not_mem z.2 field hx

/-- What a skeleton says of a bone is found under the number of the bone. -/
theorem get?_skeletonRecord (placement : Placement α) {bones : List (SkeletonBone α)} {k : Nat}
    {x : SkeletonBone α} (hx : bones[k]? = some x) {name : String} {v : Value α}
    (hv : (name, v) ∈ x.properties k) :
    (skeletonRecord placement bones).get? name = some v := by
  refine Record.get?_of_mem (skeletonRecord_nodup placement bones) (mem_append_right _ ?_)
  exact mem_flatMap.2 ⟨(x, k), mem_zipIdx_iff_getElem?.2 hx, hv⟩

namespace ExportM

theorem setAll_run (i : NodeId) (properties : Record (Value α)) (s : Session α) :
    ∃ s', setAll i properties s = .ok () s' ∧ s'.file.tree.nodes[i]? = s.file.tree.nodes[i]?.map
    fun n =>
        { n with entry := { n.entry with properties := n.entry.properties.setAll properties } } :=
          by
  induction properties generalizing s with
  | nil => exact ⟨s, rfl, by simp [Record.setAll]⟩
  | cons p properties ih =>
    obtain ⟨s', hrun, hnode⟩ := ih { s with file := s.file.setNode i p.1 p.2 }
    refine ⟨s', hrun, ?_⟩
    rw [hnode, SceneFile.setNode, Tree.set, Tree.update, Array.getElem?_modify, if_pos rfl,
      Option.map_map]
    rfl

theorem skeletonNumbers_apply {i : NodeId} {n : Node α} {numbers : Record Nat} {s : Session α}
    (hn : s.file.tree.nodes[i]? = some n) (hrole : n.role = .skeleton numbers) :
    skeletonNumbers (some i) s = .ok numbers s := by
  unfold skeletonNumbers
  refine (bind_of_ok (show existing (some i) s = .ok i s from rfl) _).trans ?_
  rw [bind_of_ok (node_apply hn), hrole]
  rfl

variable [Scalar α] {root : String} {cfg : Settings} {id : ObjectId} {parent : Option NodeId}
  {o : Object α} {a : Armature α} {node : NodeId} {s s₁ : Session α}

theorem exportArmature_run (ho : s.scene.objects[id]? = some o) (ha : o.data = .armature a)
    (hfor : a.IsForest) (hnms : a.HasUniqueNames) (hrests : a.HasRests)
    (hmake : makeNode o.name "Skeleton" parent (.skeleton []) s = .ok node s₁) :
    ∃ bones s' n, a.Skeleton (s.scene.exportsBone cfg id) bones ∧
      exportArmature cfg id parent s = .ok node s' ∧ node ∈ s'.file.written ∧
      s'.file.tree.nodes[node]? = some n ∧ n.entry.heading.get? "type" = some (.text "Skeleton") ∧
      n.role = .skeleton (a.numbering (s.scene.exportsBone cfg id)) ∧
      n.entry.properties = skeletonRecord (s.scene.localTransform o) bones := by
  obtain ⟨bones, hbns, hentr⟩ : ∃ bones, a.Skeleton (s.scene.exportsBone cfg id) bones ∧ _ :=
    a.entries_ok hfor hnms hrests
  obtain ⟨rfl, heading, htype, hs1⟩ := makeNode_push hmake
  have hsc : s₁.scene = s.scene := by rw [hs1]
  have hmade : s₁.file.tree.nodes[s.file.tree.nodes.size]?
      = some ⟨{ kind := "node", heading }, parent, .skeleton []⟩ := by
    simp [hs1, Tree.push]
  generalize s.file.tree.nodes.size = node at hmake hmade ⊢
  clear hs1
  let numbers := a.numbering (s.scene.exportsBone cfg id)
  have hnums : s₁.scene.boneNumbers cfg id = .ok numbers := by
    simp only [hsc, Scene.boneNumbers, Scene.object, ho, need, bind, Except.bind, Object.armature,
      ha]
    rfl
  have harma : o.armature = .ok a := by rw [Object.armature, ha]
  -- the file once the node is placed, and the session once the node has its role
  let placed := (s₁.file.setNode node "bones_in_world_transform" (.flag true)).setNode node
    "transform" (.transform (s₁.scene.localTransform o))
  let t : Session α := { s₁ with file := { placed with
    tree := placed.tree.update node fun n => { n with role := .skeleton numbers } } }
  obtain ⟨s', hset, hnode⟩ := setAll_run node (skeletonProperties bones) t
  let entry : Entry α :=
    { kind := "node", heading, properties := skeletonRecord (s.scene.localTransform o) bones }
  refine ⟨bones, { s' with file := s'.file.write node }, ⟨entry, parent, .skeleton numbers⟩, hbns,
    ?_, ?_, ?_, htype, rfl, rfl⟩
  · unfold exportArmature
    rw [bind_of_ok (object_apply ho), bind_of_ok hmake]
    refine (bind_of_ok (lift_apply hnums { s₁ with file := placed }) _).trans ?_
    refine (bind_of_ok (lift_apply harma t) _).trans ?_
    rw [bind_of_ok (lift_apply hentr t), bind_of_ok hset]
    rfl
  · simp [SceneFile.write]
  · have hplcd : t.file.tree.nodes[node]? = some ⟨{ kind := "node", heading, properties :=
        [("bones_in_world_transform", .flag true),
          ("transform", .transform (s.scene.localTransform o))] },
        parent, .skeleton numbers⟩ := by
      simp only [t, placed, SceneFile.setNode, Tree.set, Tree.update, Array.getElem?_modify,
        if_true, hmade, hsc]
      rfl
    show s'.file.tree.nodes[node]? = _
    rw [hnode, hplcd, Option.map_some]
    simp only [Record.setAll_eq (skeletonRecord_nodup (s.scene.localTransform o) bones)]
    rfl

/-- The exported bones of an armature have the numbers from zero on, and stand in the skeleton in
their order, each under a label of its own.  The parent of a bone is the nearest exported bone
above, which comes before it; only where there is none, and an exported bone has no name, that bone
stands in its place. -/
theorem exportArmature_numbered {isExported : Bone α → Bool}
    (ho : s.scene.objects[id]? = some o) (ha : o.data = .armature a) (hforest : a.IsForest)
    (hnames : a.HasUniqueNames) (hrests : a.HasRests)
    (hexported : isExported = s.scene.exportsBone cfg id)
    (hmake : makeNode o.name "Skeleton" parent (.skeleton []) s = .ok node s₁) :
    ((a.numbering isExported).map Prod.snd = List.range (a.bones.toList.countP isExported) ∧
      ((a.numbering isExported).map Prod.fst).Perm
      ((a.bones.toList.filter isExported).map (·.name))) ∧
    ∃ bones s' n, exportArmature cfg id parent s = .ok node s' ∧
      node ∈ s'.file.written ∧ s'.file.tree.nodes[node]? = some n ∧
      n.role = .skeleton (a.numbering isExported) ∧
      n.entry.properties = skeletonRecord (s.scene.localTransform o) bones ∧
      bones.map (·.bone.name) = (a.numbering isExported).map Prod.fst ∧
      (bones.map (·.label)).Nodup ∧ (∀ b ∈ bones, IsBoneLabel b.label) ∧
      ∀ (k : Nat) (b : SkeletonBone α), bones[k]? = some b → ∃ i, a.bones[i]? = some b.bone ∧
        (a.HangsOn isExported i b.parent → b.parent < k) ∧
        (a.HangsOn isExported i b.parent ↔
        (a.Nearest isExported i none → a.NamesExported isExported)) := by
  subst hexported
  obtain ⟨bones, s', n, hbns, hrun, hwrtn, hn, -, hrole, hprops⟩ :=
    exportArmature_run ho ha hforest hnames hrests hmake
  refine ⟨⟨?_, ?_⟩, bones, s', n, hrun, hwrtn, hn, hrole, hprops, ?_, hbns.labels, hbns.isLabel, ?_⟩
  · have hcount := (Armature.exported_perm hforest (s.scene.exportsBone cfg id)).length_eq
    rw [← countP_eq_length_filter] at hcount
    rw [Armature.numbering_eq hforest hnames, map_map, ← hcount]
    show (a.exported _).zipIdx.map Prod.snd = _
    rw [zipIdx_map_snd, range_eq_range']
  · rw [Armature.numbering_names hforest hnames]
    exact (Armature.exported_perm hforest _).map _
  · rw [Armature.numbering_names hforest hnames, ← hbns.exported, map_map]
    rfl
  · intro k b hb
    have hexported : (a.exported (s.scene.exportsBone cfg id))[k]? = some b.bone := by
      rw [← hbns.exported, getElem?_map, hb]
      rfl
    obtain ⟨i, hi, hbone⟩ := Option.bind_eq_some_iff.1
      ((Armature.getElem?_exported k).symm.trans hexported)
    have hpar := Armature.parentNumber_hangsOn_iff hforest hnames hbone hi
    rw [← hbns.parent b (mem_of_getElem? hb)] at hpar
    exact ⟨i, hbone, hpar.2, hpar.1⟩

/-! ### A forearm -/

/-- Up by `y`. -/
def lift (y : ℚ) : Mat4 ℚ :=
  { Mat4.identity with r1 := ⟨0, 1, 0, y⟩ }

/-- A bone at a height, which is twice as high at frame 2. -/
def boneAt (y : ℚ) (name : String) (parent : Option Nat) (deforms : Bool) : Bone ℚ where
  name
  parent
  length := 1
  deforms
  rest := .transform (lift y)
  basis := .identity
  pose := ⟨.transform (lift y), [(2, .transform (lift (2 * y)))]⟩

/-- A hand on a forearm, with a control bone between them, and the bone of another arm. -/
def forearm (root : String) : Armature ℚ where
  bones := #[boneAt 3 "Hand" (some 1) true, boneAt 2 "Twist" (some 2) false, boneAt 1 root none
    true, boneAt 1 "ArmL" none true]

def forearmRig (root : String) : Object ℚ :=
  { Object.bare "Rig" .armature none with data := .armature (forearm root) }

def forearmScene (root : String) : Session ℚ where
  scene.objects := #[forearmRig root]

theorem forearm_line (root : String) : (forearm root).Line 0 [0, 1, 2] :=
    .child rfl (.child rfl (.root rfl))

theorem forearm_isForest (root : String) : (forearm root).IsForest where
  present {i p} h := by
    match i, h with
    | 0, h => cases h; exact (by decide : 1 < 4)
    | 1, h => cases h; exact (by decide : 2 < 4)
    | 2, h => cases h
    | 3, h => cases h
    | i + 4, h => cases h
  lines i :=
    match i with
    | 0 => ⟨_, forearm_line root⟩
    | 1 => ⟨_, .child rfl (.root rfl)⟩
    | i + 2 => ⟨[i + 2], .root (match i with | 0 | 1 | _ + 2 => rfl)⟩

theorem forearm_bones {b : Bone ℚ} (hb : b ∈ (forearm root).bones.toList) :
    ∃ y name parent deforms, b = boneAt y name parent deforms := by
  simp only [forearm, mem_cons, not_mem_nil, or_false] at hb
  rcases hb with rfl | rfl | rfl | rfl <;> exact ⟨_, _, _, _, rfl⟩

theorem forearm_hasRests : (forearm root).HasRests := by
  intro i b hb
  obtain ⟨y, name, parent, deforms, rfl⟩ :=
    forearm_bones (Array.mem_toList_iff.2 (Array.mem_of_getElem? hb))
  exact ⟨_, rfl⟩

theorem forearm_exports : (fun b => b.deforms) = (forearmScene root).scene.exportsBone {} 0 := by
  funext b
  cases h : b.deforms <;> simp [Scene.exportsBone, h, forearmScene, forearmRig, Scene.children,
    Object.bare]

theorem forearm_namesExported : (forearm "Arm:L").NamesExported (·.deforms) := by
  intro i b hb _
  have hnms : ∀ c ∈ (forearm "Arm:L").bones.toList, c.name ≠ "" := by decide
  exact hnms b (by simpa using Array.mem_of_getElem? hb)

/-- The hand hangs on the forearm, which hangs on nothing.  A forearm without a name is said to hang
on itself. -/
theorem exportArmature_numbered_forearm :
    (∃ bones s' n, exportArmature {} 0 none (forearmScene "Arm:L") = .ok 0 s' ∧
      s'.file.tree.nodes[0]? = some n ∧ n.entry.properties = skeletonRecord .identity bones ∧
      bones.map (·.bone.name) = ["Arm:L", "Hand", "ArmL"] ∧ (bones.map (·.label)).Nodup ∧
      ∀ (k : Nat) (b : SkeletonBone ℚ), bones[k]? = some b → ∃ i, (forearm "Arm:L").bones[i]? =
      some b.bone ∧ (forearm "Arm:L").HangsOn (·.deforms) i b.parent ∧ b.parent < k) ∧
    ∃ bones s' n, exportArmature {} 0 none (forearmScene "") = .ok 0 s' ∧
      s'.file.tree.nodes[0]? = some n ∧ n.entry.properties = skeletonRecord .identity bones ∧
      bones.map (·.bone.name) = ["", "Hand", "ArmL"] ∧
      ∃ b : SkeletonBone ℚ, bones[0]? = some b ∧ ¬ (forearm "").HangsOn (·.deforms) 2 b.parent := by
  have hmake (root : String) : ∃ s₁, makeNode "Rig" "Skeleton" none (.skeleton [])
    (forearmScene root) = .ok 0 s₁ :=
    ⟨_, rfl⟩
  constructor
  · obtain ⟨s₁, hmade⟩ := hmake "Arm:L"
    obtain ⟨-, bones, s', n, hrun, -, hn, -, hprops, hbns, hlabe, -, hpare⟩ :=
      exportArmature_numbered (s := forearmScene "Arm:L") rfl rfl (forearm_isForest _) (by decide)
        forearm_hasRests forearm_exports hmade
    refine ⟨bones, s', n, hrun, hn, hprops, hbns, hlabe, fun k b hb => ?_⟩
    obtain ⟨i, hi, hlt, hangs⟩ := hpare k b hb
    have hright := hangs.2 fun _ => forearm_namesExported
    exact ⟨i, hi, hright, hlt hright⟩
  · obtain ⟨s₁, hmade⟩ := hmake ""
    obtain ⟨-, bones, s', n, hrun, -, hn, -, hprops, hbns, -, -, hpare⟩ :=
      exportArmature_numbered (s := forearmScene "") rfl rfl (forearm_isForest _) (by decide)
        forearm_hasRests forearm_exports hmade
    have hfst : (bones.map (·.bone.name))[0]? = some "" := by
      rw [hbns]
      rfl
    rw [getElem?_map, Option.map_eq_some_iff] at hfst
    obtain ⟨b, hb, hname⟩ := hfst
    refine ⟨bones, s', n, hrun, hn, hprops, hbns, b, hb, ?_⟩
    obtain ⟨i, hi, -, hangs⟩ := hpare 0 b hb
    obtain rfl : i = 2 := Armature.HasUniqueNames.index_unique (a := forearm "") (by decide) hi rfl
      hname
    exact fun h => hangs.1 h (.root rfl) 2 _ rfl rfl rfl

end ExportM

end SceneExport
