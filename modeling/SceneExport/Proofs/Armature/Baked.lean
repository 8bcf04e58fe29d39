import SceneExport.Proofs.Armature.Skeleton
import SceneExport.Proofs.Physics.Placed

/-!
# Baked poses

The baked pose of a bone is relative to the nearest exported bone above it, as its transform at rest
is.  The products of both along the exported bones, from the topmost one down to a bone
(`Armature.Composed`), therefore cancel out to the pose of the bone.
-/

namespace SceneExport

open List

variable {α : Type} (placement : Placement α) {isExported : Bone α → Bool}

/-- The placement is an affine map that has an inverse. -/
def Placement.IsInvertible [ExactScalar α] (p : Placement α) : Prop :=
  ∃ m, p = .transform m ∧ m.det ≠ 0

namespace Armature

variable {a : Armature α} {i k p : Nat} {b : Bone α} {numbers : Record Nat}

/-- The product of the maps of the exported bones, from the topmost one above a bone down to the
bone. -/
inductive Composed [Scalar α] (a : Armature α) (isExported : Bone α → Bool) (map : Nat → Mat4 α) :
    Nat → Mat4 α → Prop
  | root {i : Nat} (h : a.Nearest isExported i none) : Composed a isExported map i (map i)
  | down {i p : Nat} {m : Mat4 α} (h : a.Nearest isExported i (some p))
      (hp : Composed a isExported map p m) : Composed a isExported map i (m * map i)

theorem composed_of_steps [Scalar α] {map pose : Nat → Mat4 α} (hfor : a.IsForest)
    (hroot : ∀ i ∈ a.places isExported, a.Nearest isExported i none → map i = pose i)
    (hdn : ∀ i ∈ a.places isExported, ∀ p ∈ a.places isExported, a.Nearest isExported i (some p) →
      pose p * map i = pose i)
    (hi : (a.places isExported)[k]? = some i) : a.Composed isExported map i (pose i) := by
  -- the bone above has a smaller number
  induction k using Nat.strongRecOn generalizing i with
  | ind k ih =>
    have hmem := mem_of_getElem? hi
    obtain ⟨line, hline⟩ := hfor.lines i
    obtain ⟨above, hup, -⟩ : ∃ above, a.Nearest isExported i above ∧ _ := nearest_of_line hfor hline
    cases above with
    | none =>
      rw [← hroot i hmem hup]
      exact .root hup
    | some p =>
      obtain ⟨m, hm, hp⟩ := hup.number_lt hfor hi
      rw [← hdn i hmem p (mem_of_getElem? hp) hup]
      exact .down hup (ih m hm hp)

/-! ### The pose of one bone -/

theorem get?_exportedParents (hnms : a.HasUniqueNames) (hb : b ∈ a.bones.toList) :
    (a.exportedParents numbers).get? b.name = some (a.exportedParent? numbers b) := by
  have hnd : ((a.bones.toList.map fun b => (b.name, a.exportedParent? numbers b)).map
    Prod.fst).Nodup := by
    rw [map_map]
    exact hnms
  rw [exportedParents, Record.setAll_eq hnd]
  exact Record.get?_of_mem hnd (mem_map.2 ⟨b, hb, rfl⟩)

theorem filter_name_eq {β : Type} (hnms : a.HasUniqueNames) {f : Bone α → β}
    (hb : b ∈ a.bones.toList) :
    (a.bones.toList.map fun c => (c.name, f c)).filter (·.1 == b.name) = [(b.name, f b)] := by
  unfold HasUniqueNames at hnms
  generalize a.bones.toList = l at hnms hb
  induction l with
  | nil => cases hb
  | cons c l ih =>
    rw [map_cons, nodup_cons] at hnms
    rcases mem_cons.1 hb with rfl | hb
    · have hrest : (l.map fun c => (c.name, f c)).filter (·.1 == b.name) = [] := by
        refine filter_eq_nil_iff.2 fun x hx he => hnms.1 ?_
        obtain ⟨d, hd, rfl⟩ := mem_map.1 hx
        exact mem_map.2 ⟨d, hd, eq_of_beq he⟩
      rw [map_cons, filter_cons_of_pos (by simp), hrest]
    · have hne : c.name ≠ b.name := fun he => hnms.1 (he ▸ mem_map.2 ⟨b, hb, rfl⟩)
      rw [map_cons, filter_cons_of_neg (by simpa using hne), ih hnms.2 hb]

theorem mem_bones (hb : a.bones[i]? = some b) : b ∈ a.bones.toList := by
  simpa using Array.mem_of_getElem? hb

/-- What there is for each bone is a map of the places of the bones. -/
theorem exists_at {β : Type} [Inhabited β] {P : Bone α → β → Prop}
    (h : ∀ b ∈ a.bones.toList, ∃ x, P b x) :
    ∃ f : Nat → β, ∀ i b, a.bones[i]? = some b → P b (f i) := by
  choose! f hf using h
  exact ⟨fun i => (a.bones[i]?.map f).getD default, fun i b hb => by
    simpa [hb] using hf b (mem_bones hb)⟩

theorem mem_of_exportedParent? {p : Bone α} (h : a.exportedParent? numbers b = some p) :
    p ∈ a.bones.toList := by
  obtain ⟨j, -, hj⟩ := mem_filterMap.1 (mem_of_find?_eq_some h)
  exact mem_bones hj

end Armature

section

variable [ExactScalar α] {b p : Bone α} {rest pose above r : Mat4 α} {q : Placement α} {frame : Int}

theorem Bone.bakedPose_root (hrest : b.rest = .transform rest) (hdet : rest.det ≠ 0)
    (hpose : b.pose.atFrame frame = .transform pose) :
    ∃ m, b.bakedPose none q frame = .ok (.transform m) ∧ rest * m = pose := by
  refine ⟨rest.inverseOrIdentity * pose, ?_, ?_⟩
  · simp only [Bone.bakedPose, hrest, hpose]
    rfl
  · rw [← Mat4.mul_assoc, Mat4.mul_inverseOrIdentity hdet, Mat4.identity_mul]

theorem Bone.bakedPose_below (hdet : r.det ≠ 0) (hup : p.pose.atFrame frame = .transform above)
    (hdetA : above.det ≠ 0) (hpose : b.pose.atFrame frame = .transform pose) :
    ∃ m, b.bakedPose (some p) (.transform r) frame = .ok (.transform m) ∧
    above * (r * m) = pose := by
  refine ⟨r.inverseOrIdentity * above.inverseOrIdentity * pose, ?_, ?_⟩
  · simp only [Bone.bakedPose, hup, hpose]
    rfl
  · rw [Mat4.mul_assoc, ← Mat4.mul_assoc r, Mat4.mul_inverseOrIdentity hdet, Mat4.identity_mul,
      ← Mat4.mul_assoc, Mat4.mul_inverseOrIdentity hdetA, Mat4.identity_mul]

end

/-! ### What baking reads of a skeleton -/

theorem get?_rest {bones : List (SkeletonBone α)} {k : Nat} {x : SkeletonBone α}
    (hx : bones[k]? = some x) :
    (skeletonRecord placement bones).get? (boneProperty k "rest") = some (.transform x.rest) :=
  get?_skeletonRecord placement hx (by simp [SkeletonBone.properties])

theorem get?_rest_unnumbered (bones : List (SkeletonBone α)) :
    (skeletonRecord placement bones).get? (boneProperty (-1) "rest") = none := by
  rw [Option.eq_none_iff_forall_ne_some]
  intro v hv
  have hname := mem_map_of_mem (f := Prod.fst) (Record.mem_of_get? hv)
  rw [skeletonRecord, map_append, mem_append, skeletonProperties_names] at hname
  rcases hname with h | h
  · exact boneProperty_not_mem (-1) "rest" h
  · obtain ⟨x, -, hx⟩ := mem_flatMap.1 h
    obtain ⟨field, hfield, hx⟩ := mem_map.1 hx
    obtain ⟨hnum, -⟩ := append_slash_inj (slash_not_mem_boneFields field hfield) (by decide) hx
    have hminus : Nat.repr x.2 = "-1" := (String.append_right_inj _).1 hnum
    have hsign : '-' ∈ Nat.toDigits 10 x.2 := by
      rw [← Nat.toList_repr, hminus]
      decide
    exact absurd (Nat.isDigit_of_mem_toDigits (Nat.succ_pos 9) (Nat.le_refl 10) hsign) (by decide)

/-- The node is a skeleton, with the numbers and the transforms at rest of a record. -/
structure SceneFile.ShowsSkeleton (f : SceneFile α) (node : NodeId) (numbers : Record Nat)
    (record : Record (Value α)) : Prop where
  made : ∃ n, f.tree.nodes[node]? = some n ∧ n.entry.heading.get? "type" = some (.text "Skeleton") ∧
    n.role = .skeleton numbers ∧
    ∀ number : Int, n.entry.properties.get? (boneProperty number "rest") =
      record.get? (boneProperty number "rest")

variable {o : Object α}

namespace ExportM

variable {s : Session α} {node : NodeId} {numbers : Record Nat} {record : Record (Value α)}

theorem bakedArmature?_apply {a : Armature α} (ha : o.data = .armature a)
    (h : s.file.ShowsSkeleton node numbers record) : bakedArmature? node o s =
    .ok (some (a, numbers)) s := by
  obtain ⟨n, hn, htype, hrole, -⟩ := h.made
  have htype : s.file.tree.type node = .ok "Skeleton" := by
    rw [Tree.type, Tree.get, hn]
    simp only [need, bind, Except.bind, Node.type, Heading.text, Heading.value, htype]
    rfl
  unfold bakedArmature?
  rw [bind_of_ok (show nodeType node s = .ok "Skeleton" s from lift_apply htype s), ha]
  exact (bind_of_ok (skeletonNumbers_apply hn hrole) _).trans rfl

def restIn [Scalar α] (record : Record (Value α)) (number : Int) : Placement α :=
  match record.get? (boneProperty number "rest") with
  | some (.transform p) => p
  | _ => .identity

variable [Scalar α]

theorem boneRest_apply (h : s.file.ShowsSkeleton node numbers record) (bone : String) :
    boneRest node numbers bone s = .ok (restIn record (boneNumber numbers bone)) s := by
  obtain ⟨n, hn, -, -, hrest⟩ := h.made
  unfold boneRest
  rw [bind_of_ok (node_apply hn), hrest, restIn]
  cases record.get? (boneProperty (boneNumber numbers bone) "rest") with
  | none => rfl
  | some v => cases v <;> rfl

end ExportM

/-! ### Playing the scene -/

namespace ExportM

open Armature

variable [ExactScalar α] {s : Session α} {node : NodeId} {a : Armature α}
  {bones : List (SkeletonBone α)} {frame : Int}

/-- What the pose of a bone is baked to: with the transform at rest it leads from the pose of the
exported bone above to that of the bone. -/
structure Bakes (a : Armature α) (numbers : Record Nat) (frame : Int) (b : Bone α)
    (rest m : Mat4 α) : Prop where
  root : a.exportedParent? numbers b = none → b.pose.atFrame frame = .transform (rest * m)
  below : ∀ p above, a.exportedParent? numbers b = some p →
    p.pose.atFrame frame = .transform above → b.pose.atFrame frame = .transform (above * (rest * m))

variable {b : Bone α}

theorem restTransform_invertible (hrests : ∀ b ∈ a.bones.toList, b.rest.IsInvertible)
    (numbers : Record Nat) (hb : b ∈ a.bones.toList) : ∃ q, a.restTransform numbers b =
    .ok (.transform q) ∧ q.det ≠ 0 := by
  obtain ⟨m, hm, hdet⟩ := hrests b hb
  cases hp : a.exportedParent? numbers b with
  | none => exact ⟨m, hm ▸ restTransform_root hp, hdet⟩
  | some p =>
    obtain ⟨n, hn, hdetn⟩ := hrests p (mem_of_exportedParent? hp)
    refine ⟨_, restTransform_below hp hm hn, ?_⟩
    rw [Mat4.det_mul]
    exact mul_ne_zero (Mat4.det_inverseOrIdentity_ne_zero hdetn) hdet

section Reads

variable (hfor : a.IsForest) (hnms : a.HasUniqueNames) (hbns : a.Skeleton isExported bones)
  (hrests : ∀ b ∈ a.bones.toList, b.rest.IsInvertible) (placement : Placement α)

include hfor hnms hbns hrests

/-- The transform at rest that is read for a bone can be inverted.  It is that of the bone if the
bone is exported. -/
theorem restIn_invertible (hb : b ∈ a.bones.toList) :
    ∃ q, restIn (skeletonRecord placement bones) (boneNumber (a.numbering isExported) b.name) =
    .transform q ∧ q.det ≠ 0 ∧
      (isExported b = true → a.restTransform (a.numbering isExported) b = .ok (.transform q)) := by
  obtain ⟨i, hi⟩ := Array.mem_iff_getElem?.1 (Array.mem_toList_iff.1 hb)
  have hhas : (a.numbering isExported).has b.name = isExported b := has_numbering hfor hnms hi
  cases hk : (a.numbering isExported).get? b.name with
  | none =>
    rw [Record.has, hk] at hhas
    refine ⟨.identity, ?_, ?_, fun he => by simp [he] at hhas⟩
    · rw [boneNumber, hk, restIn, get?_rest_unnumbered]
      rfl
    · rw [Mat4.det_identity]
      exact one_ne_zero
  | some k =>
    obtain ⟨x, hx, rfl⟩ := hbns.bone_of_number hfor hnms hi hk
    obtain ⟨q, hq, hdet⟩ := restTransform_invertible hrests (a.numbering isExported) hb
    have hrest : x.rest = .transform q :=
      Except.ok.inj ((hbns.rest x (mem_of_getElem? hx)).symm.trans hq)
    have hnum : boneNumber (a.numbering isExported) x.bone.name = k := by rw [boneNumber, hk]
    refine ⟨q, ?_, hdet, fun _ => hq⟩
    rw [hnum, restIn, get?_rest placement hx]
    exact hrest

theorem bakedPose_ok (hposes : ∀ b ∈ a.bones.toList, (b.pose.atFrame frame).IsInvertible)
    (hb : b ∈ a.bones.toList) :
    ∃ m, b.bakedPose (a.exportedParent? (a.numbering isExported) b)
        (restIn (skeletonRecord placement bones) (boneNumber (a.numbering isExported) b.name)) frame
          = .ok (.transform m) ∧
      (isExported b = true → ∃ q, a.restTransform (a.numbering isExported) b = .ok (.transform q) ∧
        Bakes a (a.numbering isExported) frame b q m) := by
  obtain ⟨q, hread, hdet, hq⟩ := restIn_invertible hfor hnms hbns hrests placement hb
  obtain ⟨pose, hpose, -⟩ := hposes b hb
  rw [hread]
  cases hp : a.exportedParent? (a.numbering isExported) b with
  | none =>
    obtain ⟨r, hr, hdetr⟩ := hrests b hb
    obtain ⟨m, hm, hmul⟩ := Bone.bakedPose_root (q := .transform q) hr hdetr hpose
    refine ⟨m, hm, fun _ => ⟨r, hr ▸ restTransform_root hp, ?_, ?_⟩⟩
    · rw [hmul]
      exact fun _ => hpose
    · rw [hp]
      simp
  | some p =>
    obtain ⟨above, hup, hdetA⟩ := hposes p (mem_of_exportedParent? hp)
    obtain ⟨m, hm, hmul⟩ := Bone.bakedPose_below hdet hup hdetA hpose
    refine ⟨m, hm, fun he => ⟨q, hq he, ?_, ?_⟩⟩
    · rw [hp]
      simp
    · intro p' above' hp' hup'
      cases hp.symm.trans hp'
      cases hup.symm.trans hup'
      rw [hmul]
      exact hpose

theorem bakeBones_ok (hposes : ∀ b ∈ a.bones.toList, (b.pose.atFrame frame).IsInvertible)
    (node : NodeId) :
    ∃ baked : Bone α → Mat4 α,
      (∀ s, s.file.ShowsSkeleton node (a.numbering isExported) (skeletonRecord placement bones) →
        bakeBones node a (a.numbering isExported) frame s
          = .ok (a.bones.toList.map fun b => (b.name, .transform (baked b))) s) ∧
      ∀ b ∈ a.bones.toList, isExported b = true → ∃ q,
        a.restTransform (a.numbering isExported) b = .ok (.transform q) ∧
        Bakes a (a.numbering isExported) frame b q (baked b) := by
  have hbaked : ∀ b ∈ a.bones.toList, _ := fun b hb =>
    bakedPose_ok hfor hnms hbns hrests placement hposes hb
  have : Nonempty (Mat4 α) := ⟨.identity⟩
  choose! baked hbaked hexp using hbaked
  refine ⟨baked, fun s hs => mapM_apply fun b hb => ?_, hexp⟩
  have hpose := hbaked b hb
  rw [get?_exportedParents hnms hb, Option.join_some]
  cases hp : a.exportedParent? (a.numbering isExported) b with
  | none =>
    rw [hp] at hpose
    exact (bind_of_ok (lift_apply hpose s) _).trans rfl
  | some p =>
    rw [hp] at hpose
    exact (bind_of_ok (boneRest_apply hs b.name) _).trans
      ((bind_of_ok (lift_apply hpose s) _).trans rfl)

theorem bakeFrames_ok {frames : List Int} (ha : o.data = .armature a)
    (hposes : ∀ frame ∈ frames, ∀ b ∈ a.bones.toList, (b.pose.atFrame frame).IsInvertible)
    (hs : s.file.ShowsSkeleton node (a.numbering isExported) (skeletonRecord placement bones)) :
    ∃ s' placements, ∃ baked : Int → Bone α → Mat4 α,
      bakeFrames node o frames s = .ok (placements, frames.flatMap fun frame =>
        a.bones.toList.map fun b => (b.name, .transform (baked frame b))) s' ∧
      ∀ frame ∈ frames, ∀ b ∈ a.bones.toList, isExported b = true → ∃ q,
        a.restTransform (a.numbering isExported) b = .ok (.transform q) ∧
        Bakes a (a.numbering isExported) frame b q (baked frame b) := by
  have hbaked : ∀ frame ∈ frames, _ := fun frame hfr =>
    bakeBones_ok hfor hnms hbns hrests placement (hposes frame hfr) node
  have : Nonempty (Mat4 α) := ⟨.identity⟩
  choose! baked hrun hexp using hbaked
  let g (frame : Int) : Placement α × List (String × Placement α) :=
    (o.localTransform.atFrame frame, a.bones.toList.map fun b =>
      (b.name, .transform (baked frame b)))
  -- going to a frame leaves the file as it is
  obtain ⟨s1, hfrs, -⟩ : ∃ s1, frames.mapM (bakeFrame node o (some (a, a.numbering isExported))) s
      = .ok (frames.map g) s1 ∧ s1.file = s.file := by
    refine mapM_run (P := fun t : Session α => t.file = s.file) (fun frame hfr t ht => ?_) rfl
    let t' : Session α := { t with scene := { t.scene with frame } }
    have hbns := hrun frame hfr t' (show t.file.ShowsSkeleton _ _ _ by rwa [ht])
    exact ⟨t', (bind_of_ok hbns _).trans rfl, ht⟩
  refine ⟨{ s1 with scene := { s1.scene with frame := s.scene.frame } }, frames.map (g · |>.1),
    baked, ?_, hexp⟩
  unfold bakeFrames
  rw [bind_of_ok (bakedArmature?_apply ha hs), get_bind, bind_of_ok hfrs]
  show EStateM.Result.ok ((frames.map g).map (·.1), (frames.map g).flatMap (·.2)) _ = _
  rw [map_map, flatMap_map]
  rfl

end Reads

theorem exportArmature_made {cfg : Settings} {id : ObjectId} {parent : Option NodeId}
    {s1 : Session α} {n : Node α} (ho : s.scene.objects[id]? = some o) (ha : o.data = .armature a)
    (hfor : a.IsForest) (hnms : a.HasUniqueNames) (hrests : a.HasRests)
    (hrun : exportArmature cfg id parent s = .ok node s1)
    (hn : s1.file.tree.nodes[node]? = some n) :
    ∃ bones, a.Skeleton (s.scene.exportsBone cfg id) bones ∧
      n.entry.heading.get? "type" = some (.text "Skeleton") ∧
      n.role = .skeleton (a.numbering (s.scene.exportsBone cfg id)) ∧
      n.entry.properties = skeletonRecord (s.scene.localTransform o) bones := by
  have hstep := hrun
  unfold exportArmature at hstep
  rw [bind_of_ok (object_apply ho)] at hstep
  obtain ⟨node', s', hmake, -⟩ := bind_ok hstep
  obtain ⟨bones, s'', n', hbns, hrun', -, hn', htype, hrole, hprops⟩ :=
    exportArmature_run ho ha hfor hnms hrests hmake
  cases hrun'.symm.trans hrun
  cases hn.symm.trans hn'
  exact ⟨bones, hbns, htype, hrole, hprops⟩

/-- The baked poses of a skeleton reproduce the poses of its bones: at every frame the product, from
the topmost exported bone down to a bone, of the transforms at rest and the baked poses is the pose
of the bone. -/
theorem bakeFrames_composes {cfg : Settings} {id : ObjectId} {parent : Option NodeId}
    {frames : List Int} {o : Object α} {s₁ s₂ : Session α} {n₁ n₂ : Node α}
    (ho : s.scene.objects[id]? = some o) (ha : o.data = .armature a) (hforest : a.IsForest)
    (hnames : a.HasUniqueNames) (hrests : ∀ b ∈ a.bones.toList, b.rest.IsInvertible)
    (hposes : ∀ frame ∈ frames, ∀ b ∈ a.bones.toList, (b.pose.atFrame frame).IsInvertible)
    (hexported : isExported = s.scene.exportsBone cfg id)
    (hrun : exportArmature cfg id parent s = .ok node s₁)
    (hn₁ : s₁.file.tree.nodes[node]? = some n₁) (hn₂ : s₂.file.tree.nodes[node]? = some n₂)
    (htype : n₂.entry.heading.get? "type" = n₁.entry.heading.get? "type")
    (hrole : n₂.role = n₁.role)
    (hkept : ∀ number : Int, n₂.entry.properties.get? (boneProperty number "rest") =
    n₁.entry.properties.get? (boneProperty number "rest")) :
    ∃ s₃ placements poses, ∃ rest : Nat → Mat4 α, ∃ baked : Nat → Int → Mat4 α,
      bakeFrames node o frames s₂ = .ok (placements, poses) s₃ ∧
      (∀ (i k : Nat) (b : Bone α), a.bones[i]? = some b → (a.numbering isExported).get? b.name =
      some k → n₂.entry.properties.get? (boneProperty k "rest") =
      some (.transform (.transform (rest i))) ∧ poses.filter (·.1 == b.name) =
      frames.map fun frame => (b.name, .transform (baked i frame))) ∧ ∀ frame ∈ frames,
      ∀ (i : Nat) (b : Bone α), a.bones[i]? = some b → isExported b = true → ∃ m, b.pose.atFrame
      frame = .transform m ∧ a.Composed isExported (fun j => rest j * baked j frame) i m := by
  obtain ⟨bones, hbns, htype₁, hrole₁, hprops⟩ : ∃ bones, a.Skeleton _ bones ∧ _ :=
    exportArmature_made ho ha hforest hnames (fun i b hb => (hrests b (mem_bones hb)).imp fun _ =>
      And.left) hrun hn₁
  rw [← hexported] at hbns hrole₁
  have hshw : s₂.file.ShowsSkeleton node (a.numbering isExported)
    (skeletonRecord (s.scene.localTransform o) bones) :=
    ⟨n₂, hn₂, htype.trans htype₁, hrole.trans hrole₁, fun number => (hkept number).trans
      (by rw [hprops])⟩
  obtain ⟨s₃, placements, baked, hbake, hbakes⟩ := bakeFrames_ok hforest hnames hbns hrests _ ha
    hposes hshw
  have : Inhabited (Mat4 α) := ⟨.identity⟩
  obtain ⟨rest, hrest⟩ := exists_at fun _ hb => restTransform_invertible hrests
    (a.numbering isExported) hb
  obtain ⟨bakedAt, hbaked⟩ := exists_at (P := fun b f => f = fun frame => baked frame b) fun _ _ =>
    ⟨_, rfl⟩
  refine ⟨s₃, placements, _, rest, bakedAt, hbake, fun i k b hb hk => ?_, fun frame hfr i b hb he =>
    ?_⟩
  · obtain ⟨x, hx, rfl⟩ := hbns.bone_of_number hforest hnames hb hk
    have hstat := (hbns.rest x (mem_of_getElem? hx)).symm.trans (hrest i _ hb).1
    constructor
    · rw [hkept, hprops, get?_rest _ hx, Except.ok.inj hstat]
    · rw [filter_flatMap, map_eq_flatMap]
      simp [hbaked i _ hb, filter_name_eq hnames (mem_bones hb)]
  · obtain ⟨pose, hpose⟩ := exists_at (hposes frame hfr)
    -- what is baked of an exported bone, by its place
    have hstep {j : Nat} (hj : j ∈ a.places isExported) : ∃ c, a.bones[j]? = some c ∧
        Bakes a (a.numbering isExported) frame c (rest j) (bakedAt j frame) := by
      obtain ⟨c, hc, he⟩ := (mem_places hforest).1 hj
      obtain ⟨q, hq, hbakes⟩ := hbakes frame hfr c (mem_bones hc) he
      cases (hrest j c hc).1.symm.trans hq
      exact ⟨c, hc, hbaked j c hc ▸ hbakes⟩
    obtain ⟨k, hk⟩ := mem_iff_getElem?.1 ((mem_places hforest).2 ⟨b, hb, he⟩)
    refine ⟨pose i, (hpose i b hb).1, composed_of_steps hforest (fun j hj hnone => ?_)
      (fun j hj p hp hup => ?_) hk⟩
    · obtain ⟨c, hc, hbakes⟩ := hstep hj
      have hpar := exportedParent?_nearest hforest hnames hc hnone
      exact Placement.transform.inj ((hbakes.root hpar).symm.trans (hpose j c hc).1)
    · obtain ⟨c, hc, hbakes⟩ := hstep hj
      obtain ⟨d, hd, -⟩ := hstep hp
      have hpar := exportedParent?_nearest hforest hnames hc hup
      have hposed := hbakes.below d _ (hpar.trans hd) (hpose p d hd).1
      exact Placement.transform.inj (hposed.symm.trans (hpose j c hc).1)

theorem lift_isInvertible (y : ℚ) : (Placement.transform (lift y)).IsInvertible := by
  refine ⟨lift y, rfl, ?_⟩
  simp [lift, Mat4.det, Mat4.cofactors, Mat4.identity, det3, Vec4.dot]

theorem forearm_rests {b : Bone ℚ} (hb : b ∈ (forearm "Arm:L").bones.toList) :
    b.rest.IsInvertible := by
  obtain ⟨y, name, parent, deforms, rfl⟩ := forearm_bones hb
  exact lift_isInvertible y

/-- At frame 2 the hand is where the product along the forearm takes it, past the control bone
between them. -/
theorem bakeFrames_composes_forearm :
    ∃ s₁ n₁ s₃ placements poses, ∃ rest : Nat → Mat4 ℚ, ∃ baked : Nat → Int → Mat4 ℚ,
      exportArmature {} 0 none (forearmScene "Arm:L") = .ok 0 s₁ ∧ s₁.file.tree.nodes[0]? =
      some n₁ ∧ bakeFrames 0 (forearmRig "Arm:L") [1, 2] s₁ = .ok (placements, poses) s₃ ∧
      n₁.entry.properties.get? "bones/1/rest" = some (.transform (.transform (rest 0))) ∧
      poses.filter (·.1 == "Hand") =
      [("Hand", .transform (baked 0 1)), ("Hand", .transform (baked 0 2))] ∧ rest 2 * baked 2 2 *
      (rest 0 * baked 0 2) = lift 6 := by
  obtain ⟨s', hmake⟩ : ∃ s', makeNode "Rig" "Skeleton" none (.skeleton []) (forearmScene "Arm:L") =
    .ok 0 s' :=
    ⟨_, rfl⟩
  obtain ⟨-, s₁, n₁, -, hrun, -, hn₁, -⟩ := @exportArmature_run _ _ {} 0 none (forearmRig "Arm:L") _
    _ _ _ rfl rfl (forearm_isForest "Arm:L") (by decide) forearm_hasRests hmake
  have hposes : ∀ frame ∈ ([1, 2] : List Int), ∀ b ∈ (forearm "Arm:L").bones.toList,
      (b.pose.atFrame frame).IsInvertible := by
    intro frame hfr b hb
    obtain ⟨y, name, parent, deforms, rfl⟩ := forearm_bones hb
    rcases mem_pair.1 hfr with rfl | rfl
    · exact lift_isInvertible y
    · exact lift_isInvertible (2 * y)
  obtain ⟨s₃, placements, poses, rest, baked, hbake, hstat, hcomp⟩ :=
    bakeFrames_composes (s := forearmScene "Arm:L") rfl rfl (forearm_isForest "Arm:L") (by decide)
      (fun _ => forearm_rests) hposes forearm_exports hrun hn₁ hn₁ rfl rfl fun _ => rfl
  obtain ⟨hrest, hbaked⟩ := hstat 0 1 _ rfl rfl
  refine ⟨s₁, n₁, s₃, placements, poses, rest, baked, hrun, hn₁, hbake, hrest, hbaked, ?_⟩
  obtain ⟨m, hm, hprod⟩ := hcomp 2 (by simp) 0 _ rfl rfl
  have hup : (forearm "Arm:L").Nearest (·.deforms) 0 (some 2) := .skip rfl rfl rfl
    (.here rfl rfl rfl)
  have hm : lift 6 = m := (congrArg lift (by norm_num)).trans (Placement.transform.inj hm)
  cases hprod with
  | root h => cases hup.unique h
  | down h hp =>
    cases hup.unique h
    cases hp with
    | root => exact hm.symm
    | down h => cases h.unique (.root rfl)

/-- The transforms at rest of a skeleton reproduce those of the armature: whichever bones are left
out, their product from the topmost exported bone down to a bone is the transform of the bone at
rest.  The parents that the skeleton states are those along which the product is taken, but where a
bone hangs on nothing and an exported one has no name. -/
theorem exportArmature_rests {cfg : Settings} {id : ObjectId} {parent : Option NodeId}
    {o : Object α} {s₁ : Session α} (ho : s.scene.objects[id]? = some o) (ha : o.data = .armature a)
    (hforest : a.IsForest) (hnames : a.HasUniqueNames)
    (hrests : ∀ b ∈ a.bones.toList, b.rest.IsInvertible)
    (hexported : isExported = s.scene.exportsBone cfg id)
    (hmake : makeNode o.name "Skeleton" parent (.skeleton []) s = .ok node s₁) :
    ∃ s' n, ∃ rest : Nat → Mat4 α, exportArmature cfg id parent s = .ok node s' ∧
      s'.file.tree.nodes[node]? = some n ∧
      ∀ (i k : Nat) (b : Bone α), a.bones[i]? = some b → (a.numbering isExported).get? b.name =
      some k → n.entry.properties.get? (boneProperty k "rest") =
      some (.transform (.transform (rest i))) ∧
      (∃ above, n.entry.properties.get? (boneProperty k "parent") = some (.int above) ∧
      (a.HangsOn isExported i above ↔ (a.Nearest isExported i none → a.NamesExported isExported))) ∧
      ∃ m, b.rest = .transform m ∧ a.Composed isExported rest i m := by
  subst hexported
  obtain ⟨bones, s', n, hbns, hrun, -, hn, -, -, hprops⟩ := exportArmature_run ho ha hforest hnames
    (fun i b hb => (hrests b (mem_bones hb)).imp fun _ => And.left) hmake
  generalize s.scene.exportsBone cfg id = isExported at hbns ⊢
  have : Inhabited (Mat4 α) := ⟨.identity⟩
  obtain ⟨pose, hpose⟩ := exists_at hrests
  obtain ⟨rest, hrest⟩ := exists_at fun _ hb => restTransform_invertible hrests
    (a.numbering isExported) hb
  refine ⟨s', n, rest, hrun, hn, fun i k b hb hk => ?_⟩
  have hi := (number_iff hforest hnames hb).1 hk
  obtain ⟨x, hx, rfl⟩ := hbns.bone_of_number hforest hnames hb hk
  have hmem := mem_of_getElem? hx
  refine ⟨?_, ⟨x.parent, ?_, ?_⟩, pose i, (hpose i _ hb).1, ?_⟩
  · rw [hprops, get?_rest _ hx, Except.ok.inj ((hbns.rest x hmem).symm.trans (hrest i _ hb).1)]
  · rw [hprops]
    exact get?_skeletonRecord _ hx (by simp [SkeletonBone.properties])
  · rw [hbns.parent x hmem]
    exact (parentNumber_hangsOn_iff hforest hnames hb hi).1
  · refine composed_of_steps hforest (fun j hj hnone => ?_) (fun j hj p hp hup => ?_) hi
    · obtain ⟨c, hc, -⟩ := (mem_places hforest).1 hj
      have hpar := exportedParent?_nearest hforest hnames hc hnone
      have hsame := (hrest j c hc).1.symm.trans (restTransform_root hpar)
      rw [(hpose j c hc).1] at hsame
      exact Placement.transform.inj (Except.ok.inj hsame)
    · obtain ⟨c, hc, -⟩ := (mem_places hforest).1 hj
      obtain ⟨d, hd, -⟩ := (mem_places hforest).1 hp
      have hpar := exportedParent?_nearest hforest hnames hc hup
      obtain ⟨hd', hdet⟩ := hpose p d hd
      have hsame := (hrest j c hc).1.symm.trans
        (restTransform_below (hpar.trans hd) (hpose j c hc).1 hd')
      rw [Placement.transform.inj (Except.ok.inj hsame), ← Mat4.mul_assoc,
        Mat4.mul_inverseOrIdentity hdet, Mat4.identity_mul]

/-- The hand is three up at rest, past the control bone on which it hangs. -/
theorem exportArmature_rests_forearm :
    ∃ s' n, ∃ rest : Nat → Mat4 ℚ, exportArmature {} 0 none (forearmScene "Arm:L") = .ok 0 s' ∧
      s'.file.tree.nodes[0]? = some n ∧
      n.entry.properties.get? "bones/1/rest" = some (.transform (.transform (rest 0))) ∧
      (forearm "Arm:L").Composed (·.deforms) rest 0 (lift 3) := by
  obtain ⟨s', n, rest, hrun, hn, hbns⟩ := exportArmature_rests (s := forearmScene "Arm:L") rfl rfl
    (forearm_isForest "Arm:L") (by decide) (fun _ => forearm_rests) forearm_exports
    (show makeNode "Rig" "Skeleton" none (.skeleton []) (forearmScene "Arm:L") = .ok 0 _ from rfl)
  obtain ⟨hrest, -, m, hm, hprod⟩ := hbns 0 1 _ rfl rfl
  cases hm
  exact ⟨s', n, rest, hrun, hn, hrest, hprod⟩

end ExportM

end SceneExport
