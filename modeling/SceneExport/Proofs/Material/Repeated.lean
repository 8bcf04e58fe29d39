import SceneExport.Proofs.Material.References
import SceneExport.Proofs.Space.Exact

/-!
# Materials that are exported again

A material that a file of the project holds is referred to, however often it is exported: the search
finds the same file again, and the table the same number.  A material that is made for an object is
added to the file without a look whether it is there.  So a second export for the same object makes
the same resource again, and the file refuses it (`exportMaterial_repeated`).

That the second export gets as far as that rests on two facts.  A shader is looked up before it is
compiled (`exportShader_found`), and a node tree that has no script has none the second time either,
because what the compiler gives does not depend on the messages before (`NodeTree.compile_steady`).
-/

namespace SceneExport

open List
open ResourceTable (add_eq find?_given give?_some)

variable {α β γ δ : Type} {script : ShaderScript} {cfg : Settings} {s s' : Session α}
  {r : Resource α}

/-! ### Outcomes that do not depend on messages -/

theorem Logged.Steady.forIn {f : β → δ → Logged (ForInStep δ)} (hf : ∀ b d, (f b d).Steady)
    (xs : List β) (d : δ) : Steady (forIn xs d f) := by
  induction xs generalizing d with
  | nil => exact .pure
  | cons x xs ih =>
    rw [forIn_cons]
    refine (hf x d).bind fun step => ?_
    cases step with
    | done d => exact .pure
    | yield d => exact ih d

theorem NodeTree.outputNode?_steady (t : NodeTree α) : t.outputNode?.Steady :=
  .bind (.forIn (fun _ _ => .bind (.warn _) fun _ => .pure) _ _) fun _ => .pure

section Compiler

variable [Scalar α] {version : Version}

theorem runDraft_steady {c : NodeContext α} {rule : NodeRule} {index : Nat}
    {closures : Array Closure} : (runDraft c rule index closures).Steady := by
  intro log
  unfold runDraft
  split <;> rfl

theorem NodeTree.compileNodes_steady (t : NodeTree α) {output : Nat} :
    (t.compileNodes version output).Steady := by
  refine .bind (.forIn (fun x c => ?_) _ _) fun _ => .pure
  obtain ⟨position, index⟩ := x
  dsimp only
  split
  · exact .bind (.bind .lift fun _ => .bind .lift fun _ => .bind runDraft_steady fun _ => .pure)
      fun _ => .pure
  · exact .pure

/-- What the compiler gives does not depend on the messages before. -/
theorem NodeTree.compile_steady (t : NodeTree α) (version : Version) :
    (t.compile version).Steady := by
  refine .bind t.outputNode?_steady fun output => ?_
  split
  · exact .pure
  · refine .bind t.compileNodes_steady fun c => .bind .lift fun surface => ?_
    split
    · exact .pure
    · exact .pure

theorem SpatialMaterial.resource_steady (name : String) (m : Material α) :
    (resource name m).Steady := by
  refine .bind (.bind .lift fun start => ?_) fun _ => .pure
  split
  · exact .pure
  · refine .bind .lift fun node => ?_
    split
    · exact .bind (.warn _) fun _ => .pure
    · exact .bind .lift fun _ => .pure

end Compiler

/-! ### Failures for want of support -/

/-- The computation does not fail for want of support. -/
def Outcome.Supported (x : Except Failure β) : Prop :=
  ∀ reason, x ≠ .error (.unsupported reason)

variable {failure : Failure} {x : Except Failure β} {f : β → ExportM α γ}

namespace Outcome.Supported

theorem pure {b : β} : Supported (.ok b) := by
  simp [Supported]

theorem need (h : ∀ reason, failure ≠ .unsupported reason) (o : Option β) :
    Supported (need failure o) := by
  intro reason
  cases o with
  | none => exact fun he => h reason (Except.error.inj he)
  | some b => exact nofun

theorem bind {f : β → Except Failure γ} (hx : Supported x) (hf : ∀ b, Supported (f b)) :
    Supported (x >>= f) := by
  cases x with
  | ok b => exact hf b
  | error e => exact fun reason he => hx reason (congrArg Except.error (Except.error.inj he))

end Outcome.Supported

/-- The step does not fail for want of support. -/
def Supported (step : ExportM α β) : Prop :=
  ∀ s reason s', step s ≠ .error (.unsupported reason) s'

namespace Supported

theorem pure {b : β} : Supported (pure b : ExportM α β) := fun _ _ _ => nofun

theorem get : Supported (get : ExportM α (Session α)) := fun _ _ _ => nofun

theorem modify (f : Session α → Session α) : Supported (modify f : ExportM α Unit) := fun _ _ _ =>
    nofun

theorem lift (h : Outcome.Supported x) : Supported (liftM x : ExportM α β) := by
  intro s reason s'
  cases x with
  | ok b => exact nofun
  | error e =>
    intro he
    cases he
    exact h reason rfl

theorem need (h : ∀ reason, failure ≠ .unsupported reason) (o : Option β) :
    Supported (liftM (need failure o) : ExportM α β) :=
  .lift (.need h o)

theorem bind {step : ExportM α β} {next : β → ExportM α γ} (h : Supported step)
    (hn : ∀ b, Supported (next b)) : Supported (step >>= next) := by
  intro s reason s'
  change EStateM.bind step next s ≠ _
  unfold EStateM.bind
  cases hs : step s with
  | ok b s1 => exact hn b s1 reason s'
  | error e s1 =>
    intro he
    cases he
    exact h s reason s' hs

theorem mapM (hf : ∀ b, Supported (f b)) (xs : List β) : Supported (xs.mapM f) := by
  induction xs with
  | nil => exact .pure
  | cons x xs ih =>
    rw [mapM_cons]
    exact (hf x).bind fun y => ih.bind fun ys => .pure

theorem forIn {f : β → δ → ExportM α (ForInStep δ)} (hf : ∀ b d, Supported (f b d)) (xs : List β)
    (d : δ) : Supported (forIn xs d f) := by
  induction xs generalizing d with
  | nil => exact .pure
  | cons x xs ih =>
    rw [forIn_cons]
    refine (hf x d).bind fun step => ?_
    cases step with
    | done d => exact .pure
    | yield d => exact ih d

end Supported

theorem BoundingBox.ofCorners_supported [Scalar α] {corners : List (List α)} :
    Outcome.Supported (BoundingBox.ofCorners corners) := by
  have hfst : ∀ xs : List α, Outcome.Supported (Vec3.ofFirst xs) := by
    intro xs reason
    unfold Vec3.ofFirst
    split <;> exact nofun
  have hneed {b : Type} (o : Option b) : Outcome.Supported (need .outOfRange o) := .need (by simp) o
  unfold BoundingBox.ofCorners
  extract_lets coordinate
  have hcoord : ∀ corner axis, Outcome.Supported (coordinate corner axis) :=
    fun corner axis => .bind (hneed _) fun _ => hneed _
  refine .bind (hneed _) fun first => .bind (hfst _) fun start => ?_
  refine .bind (hcoord _ _) fun _ => .bind (hcoord _ _) fun _ => ?_
  refine .bind (hcoord _ _) fun _ => .bind (hcoord _ _) fun _ => ?_
  exact .bind (hcoord _ _) fun _ => .pure

namespace ExportM

variable [Scalar α] {key : ExternalKey α}

theorem addExternal_supported {path type : String} : Supported (addExternal key path type) := by
  intro s reason s'
  rw [addExternal_apply, add_eq]
  cases s.file.external.give? ⟨some key, numberedExternal path type⟩ with
  | none => exact nofun
  | some given => exact nofun

theorem addInternal_supported {key : InternalKey α} : Supported (addInternal key r) := by
  intro s reason s'
  rw [addInternal_apply, add_eq]
  cases s.file.internal.give? ⟨some key, r.numbered⟩ with
  | none => exact nofun
  | some given => exact nofun

omit [Scalar α] in
theorem placeImage_supported {i : Image} {target : String} :
    Supported (placeImage i target : ExportM α Unit) := by
  have hwr : ∀ (files : FileStore) text, Outcome.Supported (files.write target text) := by
    intro files text reason
    unfold FileStore.write
    split <;> exact nofun
  unfold placeImage
  split
  · exact .modify _
  dsimp only
  split
  · refine .bind .get fun s => ?_
    split
    · refine .bind (.modify _) fun _ => .bind .get fun s => .bind (.need (by simp) _) fun text => ?_
      exact .bind .get fun s => .bind (.lift (hwr _ _)) fun files => .modify _
    · exact .modify _
  · exact .pure

theorem exportTexture_supported {id : ImageId} :
    Supported (exportTexture cfg id : ExportM α Nat) := by
  refine .bind (.bind .get fun _ => .pure) fun found => ?_
  split
  · exact .pure
  · refine .bind (.bind .get fun _ => .need (by simp) _) fun i => ?_
    exact .bind placeImage_supported fun _ => addExternal_supported

theorem boundingParameters_supported {o : Object α} : Outcome.Supported
    (boundingParameters o script) := by
  unfold boundingParameters
  split
  · exact .bind BoundingBox.ofCorners_supported fun _ => .pure
  · exact .pure

theorem textureParameters_supported :
    Supported (textureParameters script : ExportM α (Record (Value α))) := by
  refine .mapM (fun x => ?_) _
  obtain ⟨image, name⟩ := x
  exact .bind (.bind .get fun _ => .pure) fun _ => .bind (.need (by simp) _) fun _ => .pure

/-! ### Shaders -/

variable {step : Logged β} {reason : String} {id : MaterialId}

omit [Scalar α] in
/-- A computation whose outcome is settled changes nothing but the messages. -/
theorem liftLogged_steady (h : step.Steady) (s : Session α) :
    ∃ log, (liftM step : ExportM α β) s = match step.outcome with
      | .ok b => .ok b { s with log }
      | .error e => .error e { s with log } := by
  rw [liftLogged_apply, ← h s.log, Logged.outcomeAfter]
  cases step s.log with
  | ok b log => exact ⟨log, rfl⟩
  | error e log => exact ⟨log, rfl⟩

omit [Scalar α] in
/-- A computation whose outcome is settled is done again in any session. -/
theorem liftLogged_again (hs : step.Steady) {b : β} (h : (liftM step : ExportM α β) s = .ok b s') :
    s'.file = s.file ∧ ∀ t : Session α, ∃ log, (liftM step : ExportM α β) t =
    .ok b { t with log } := by
  obtain ⟨log, hl⟩ := liftLogged_steady hs s
  rw [h] at hl
  cases ho : step.outcome with
  | error e => simp [ho] at hl
  | ok c =>
    rw [ho] at hl
    cases hl
    refine ⟨rfl, fun t => ?_⟩
    obtain ⟨log', ht⟩ := liftLogged_steady hs t
    exact ⟨log', by rw [ht, ho]⟩

/-- The script of a node tree, or why there is none. -/
def scriptFor (name : String) (tree : NodeTree α) (version : Version) :
    Except Failure ShaderScript :=
  match (tree.compile version).outcome with
  | .ok (some script) => .ok script
  | .ok none =>
    .error (.unsupported ("Blender material '" ++ name ++
      "' not able to export as Shader Material"))
  | .error e => .error e

/-- Add a shader with its textures to the file. -/
def addShader (cfg : Settings) (id : MaterialId) (tree : NodeTree α) (script : ShaderScript) :
    ExportM α (Nat × ShaderScript) := do
  for image in scriptImages script do
    let _ ← exportTexture cfg image
  let number ← addInternal (.shader id) (.ofType "Shader" tree.name (.shader script))
  return (number, script)

theorem addShader_supported {tree : NodeTree α} : Supported (addShader cfg id tree script) :=
    by
  refine .bind (.forIn (fun _ _ => ?_) _ _) fun _ => .bind addInternal_supported fun _ => .pure
  exact .bind exportTexture_supported fun _ => .pure

theorem findInternal?_apply (key : InternalKey α) (s : Session α) :
    findInternal? key s = .ok (s.file.internal.find? key) s :=
  rfl

theorem findExternal?_apply (s : Session α) : findExternal? key s = .ok (s.file.external.find? key)
    s :=
  rfl

section Shader

variable (cfg : Settings) (name : String) (tree : NodeTree α) {number : Nat}

theorem exportShader_found (hf : s.file.internal.find? (.shader id) = some number) :
    exportShader cfg id name tree s =
      match (s.file.internal.get? number).map Resource.detail with
      | some (.shader script) => .ok (number, script) s
      | _ => .error .missingPart s := by
  have hfnd : findInternal? (.shader id) s = .ok (some number) s := by
    rw [findInternal?_apply, hf]
  rw [exportShader, bind_of_ok hfnd]
  change (match (s.file.internal.get? number).map Resource.detail with
    | some (.shader script) => pure (number, script)
    | _ => _ : ExportM α (Nat × ShaderScript)) s = _
  cases (s.file.internal.get? number).map Resource.detail with
  | none => rfl
  | some detail => cases detail <;> rfl

theorem exportShader_unfound (hf : s.file.internal.find? (.shader id) = none) :
    ∃ log, exportShader cfg id name tree s = match scriptFor name tree s.scene.version with
      | .ok script => addShader cfg id tree script { s with log }
      | .error e => .error e { s with log } := by
  obtain ⟨log, hc⟩ := liftLogged_steady (tree.compile_steady s.scene.version) s
  refine ⟨log, ?_⟩
  have hfnd : findInternal? (.shader id) s = .ok none s := by
    rw [findInternal?_apply, hf]
  rw [exportShader, bind_of_ok hfnd, scriptFor]
  change ((liftM (tree.compile s.scene.version) : ExportM α _) >>= _) s = _
  cases ho : (tree.compile s.scene.version).outcome with
  | error e =>
    rw [ho] at hc
    exact bind_of_error hc _
  | ok script? =>
    rw [ho] at hc
    rw [bind_of_ok hc]
    cases script? with
    | none => rfl
    | some script => rfl

variable {cfg name tree}

theorem exportShader_ok (h : exportShader cfg id name tree s = .ok (number, script) s') :
    s'.file.internal.find? (.shader id) = some number ∧
      (s'.file.internal.get? number).map Resource.detail = some (.shader script) := by
  cases hf : s.file.internal.find? (.shader id) with
  | some n =>
    rw [exportShader_found cfg name tree hf] at h
    split at h
    · next hd =>
      cases h
      exact ⟨hf, hd⟩
    · cases h
  | none =>
    obtain ⟨log, he⟩ := exportShader_unfound cfg name tree hf
    rw [he] at h
    split at h
    · obtain ⟨_, s1, -, h1⟩ := bind_ok h
      obtain ⟨n, s2, hadd, h2⟩ := bind_ok h1
      cases h2
      obtain ⟨internal, hg, rfl⟩ := addInternal_ok hadd
      refine ⟨find?_given hg rfl (by simp [BEq.beq, InternalKey.same]), ?_⟩
      obtain ⟨-, rfl, rfl⟩ := give?_some hg
      simp [ResourceTable.get?, ResourceTable.extended, Resource.numbered, Resource.ofType]
    · cases h

/-- A shader is given up only when its node tree has no script, and then before anything but a
message is added. -/
theorem exportShader_unsupported (h : exportShader cfg id name tree s =
    .error (.unsupported reason) s') :
    s.file.internal.find? (.shader id) = none ∧ (∃ log, s' = { s with log }) ∧
      scriptFor name tree s.scene.version = .error (.unsupported reason) := by
  cases hf : s.file.internal.find? (.shader id) with
  | some n =>
    rw [exportShader_found cfg name tree hf] at h
    split at h <;> cases h
  | none =>
    obtain ⟨log, he⟩ := exportShader_unfound cfg name tree hf
    rw [he] at h
    split at h
    · exact absurd h (addShader_supported _ _ _)
    · next hs =>
      cases h
      exact ⟨rfl, ⟨log, rfl⟩, hs⟩

end Shader

/-! ### Sessions with one more material -/

/-- What a material is made of is there in the later session as it was in the earlier one. -/
structure Retains (s t : Session α) : Prop where
  scene : t.scene = s.scene
  external : t.file.external = s.file.external
  shaders : ∀ id, t.file.internal.find? (.shader id) = s.file.internal.find? (.shader id)
  items : ∀ n r, s.file.internal.get? n = some r → t.file.internal.get? n = some r

theorem retains_of_addMaterial {object : ObjectId} {n : Nat}
    {t : Session α} (h : addInternal (.material object id) r s = .ok n t) : Retains s t := by
  obtain ⟨internal, hg, rfl⟩ := addInternal_ok h
  obtain ⟨-, rfl, rfl⟩ := give?_some hg
  refine ⟨rfl, rfl, fun id' => ?_, fun n r' hr => ResourceTable.get?_extended hr⟩
  have hoth : ((.shader id' : InternalKey α) == .material object id) = false := rfl
  rw [ResourceTable.find?_extended, hoth]
  exact Option.or_none

omit [Scalar α] in
/-- A list of steps that only read is taken again in any session where each of them reads the
same. -/
theorem mapM_again {P : Session α → Prop}
    (hf : ∀ b c s', f b s = .ok c s' → s' = s ∧ ∀ t, P t → f b t = .ok c t) {xs : List β}
    {ys : List γ} (h : xs.mapM f s = .ok ys s') : s' = s ∧ ∀ t, P t → xs.mapM f t = .ok ys t := by
  induction xs generalizing ys s' with
  | nil =>
    cases h
    exact ⟨rfl, fun t _ => rfl⟩
  | cons x xs ih =>
    rw [mapM_cons] at h
    obtain ⟨y, s1, hy, h1⟩ := bind_ok h
    obtain ⟨rfl, hyt⟩ := hf x y s1 hy
    obtain ⟨zs, s2, hzs, h2⟩ := bind_ok h1
    obtain ⟨rfl, hzt⟩ := ih hzs
    cases h2
    refine ⟨rfl, fun t ht => ?_⟩
    rw [mapM_cons, bind_of_ok (hyt t ht), bind_of_ok (hzt t ht)]
    rfl

theorem textureParameters_again {ps : Record (Value α)} (h : textureParameters script s = .ok ps s')
    : s' = s ∧ ∀ t, t.file.external = s.file.external → textureParameters script t = .ok ps t := by
  refine mapM_again (fun x p s1 hx => ?_) h
  obtain ⟨image, name⟩ := x
  obtain ⟨found, s2, hf, hx1⟩ := bind_ok hx
  obtain ⟨number, s3, hn, hx2⟩ := bind_ok hx1
  cases hf
  obtain ⟨hneed, rfl⟩ := lift_ok hn
  cases hx2
  refine ⟨rfl, fun t ht => ?_⟩
  dsimp only
  rw [bind_of_ok (findExternal?_apply t), ht, hneed]
  rfl

section Material

variable {object : ObjectId} {id : MaterialId} {shown name : String} {tree : NodeTree α}
  {m : Material α} {s' t : Session α}

theorem shaderMaterial_again (h : shaderMaterial cfg object id shown name tree s = .ok r s')
    (ht : Retains s' t) : shaderMaterial cfg object id shown name tree t = .ok r t := by
  obtain ⟨⟨number, script⟩, s1, hshad, h1⟩ := bind_ok h
  obtain ⟨o, s2, hobj, h2⟩ := bind_ok h1
  obtain ⟨bounds, s3, hboun, h3⟩ := bind_ok h2
  obtain ⟨textures, s4, htex, h4⟩ := bind_ok h3
  cases h4
  obtain ⟨rfl, ho⟩ := object_ok hobj
  obtain ⟨hb, rfl⟩ := lift_ok hboun
  obtain ⟨hfnd, hdeta⟩ := exportShader_ok hshad
  obtain ⟨rfl, htex'⟩ := textureParameters_again htex
  -- The shader is found with the script it has, so nothing is compiled or added.
  have hshad' : exportShader cfg id name tree t = .ok (number, script) t := by
    obtain ⟨shader, hget, hd⟩ := Option.map_eq_some_iff.1 hdeta
    rw [exportShader_found _ _ _ ((ht.shaders id).trans hfnd), ht.items _ _ hget]
    simp [hd]
  have hobj' : ExportM.object object t = .ok o t := by
    change (liftM (need .outOfRange t.scene.objects[object]?) : ExportM α _) t = _
    rw [ht.scene, ho]
    rfl
  rw [shaderMaterial, bind_of_ok hshad']
  dsimp only
  rw [bind_of_ok hobj', hb]
  exact bind_of_ok (htex' t ht.external) _

theorem shaderMaterial_unsupported
    (h : shaderMaterial cfg object id shown name tree s = .error (.unsupported reason) s') :
    s.file.internal.find? (.shader id) = none ∧ (∃ log, s' = { s with log }) ∧
      scriptFor name tree s.scene.version = .error (.unsupported reason) := by
  rcases bind_error h with hshad | ⟨⟨number, script⟩, s1, -, h1⟩
  · exact exportShader_unsupported hshad
  · refine absurd h1 (Supported.bind (.bind .get fun _ => .need (by simp) _) (fun o => ?_) _ _ _)
    refine .bind (.lift boundingParameters_supported) fun _ => ?_
    exact .bind textureParameters_supported fun _ => .pure

/-- A material that has no script is given up again, before anything is added. -/
theorem shaderMaterial_unsupported_again
    (h : shaderMaterial cfg object id shown name tree s = .error (.unsupported reason) s')
    (hv : t.scene.version = s.scene.version)
    (ht : t.file.internal.find? (.shader id) = s.file.internal.find? (.shader id)) :
    ∃ log, shaderMaterial cfg object id shown name tree t =
      .error (.unsupported reason) { t with log } := by
  obtain ⟨hnone, -, hscri⟩ := shaderMaterial_unsupported h
  obtain ⟨log, he⟩ := exportShader_unfound cfg name tree (ht.trans hnone)
  rw [hv, hscri] at he
  exact ⟨log, bind_of_error he _⟩

/-- What is made of a material depends on the kind of scene that it is in. -/
def library (s : Session α) : Array (Material α) × String × Version :=
  (s.scene.materials, s.scene.engine, s.scene.version)

instance : Quiet (library : Session α → _) where

instance : Resourceless (library : Session α → _) where

variable (cfg object id m) in
theorem materialResource_cases (engine : String) :
    (∃ shown tree, ∀ s : Session α, s.scene.engine = engine → materialResource cfg object id m
    s = orUnsupported (shaderMaterial cfg object id shown m.name tree) (fun reason => do
          let spatial ← SpatialMaterial.resource shown m
          say .error (reason ++ ", in material '" ++ m.name ++ "'")
          return spatial) s) ∨
    ∃ shown, ∀ s : Session α, s.scene.engine = engine → materialResource cfg object id m s =
        (liftM (SpatialMaterial.resource shown m) : ExportM α (Resource α)) s := by
  cases hmode : cfg.materialMode with
  | script =>
    cases hdraws : drawsNodeTrees engine with
    | true =>
      cases htree : m.tree with
      | some tree =>
        refine .inl ⟨if cfg.externalMaterials then m.name else "", tree, fun s hs => ?_⟩
        rw [materialResource, get_bind, hs, hmode, hdraws, htree]
      | none =>
        refine .inr ⟨if cfg.externalMaterials then m.name else "", fun s hs => ?_⟩
        rw [materialResource, get_bind, hs, hmode, hdraws, htree]
    | false =>
      refine .inr ⟨if cfg.externalMaterials then m.name else "", fun s hs => ?_⟩
      rw [materialResource, get_bind, hs, hmode, hdraws]
  | _ =>
    refine .inr ⟨if cfg.externalMaterials then m.name else "", fun s hs => ?_⟩
    rw [materialResource, get_bind, hmode]

/-- The resource of a material is made again as it was, and nothing is added on the way. -/
theorem materialResource_again (h : materialResource cfg object id m s = .ok r s')
    (ht : Retains s' t) : ∃ log, materialResource cfg object id m t =
    .ok r { t with log } := by
  have hkp : Keeps false library (materialResource cfg object id m) := materialResource_keeps _
  have hlibr : library t = library s := by
    rw [← hkp.ok h, library, library, ht.scene]
  simp only [library, Prod.mk.injEq] at hlibr
  obtain ⟨-, hengi, hvers⟩ := hlibr
  rcases materialResource_cases cfg object id m s.scene.engine with ⟨shown, tree, he⟩
    | ⟨shown, he⟩
  · rw [he s rfl] at h
    rw [he t hengi]
    unfold orUnsupported at h ⊢
    cases hr : shaderMaterial cfg object id shown m.name tree s with
    | ok r' s1 =>
      rw [hr] at h
      cases h
      exact ⟨t.log, by rw [shaderMaterial_again hr ht]⟩
    | error e s1 =>
      rw [hr] at h
      cases e with
      | unsupported reason =>
        obtain ⟨spatial, s2, hspat, h1⟩ := bind_ok h
        obtain ⟨hfile, hagain⟩ := liftLogged_again (SpatialMaterial.resource_steady _ _) hspat
        cases h1
        -- What failed left the file as it was, so the shader is not there now either.
        obtain ⟨-, ⟨_, rfl⟩, -⟩ := shaderMaterial_unsupported hr
        have hshad : t.file.internal.find? (.shader id) = s.file.internal.find? (.shader id) := by
          rw [ht.shaders id, ← hfile]
        obtain ⟨log, hfails⟩ := shaderMaterial_unsupported_again hr hvers hshad
        obtain ⟨log', hmade⟩ := hagain { t with log }
        refine ⟨log'.push ⟨.error, reason ++ ", in material '" ++ m.name ++ "'"⟩, ?_⟩
        rw [hfails]
        exact bind_of_ok hmade _
      | _ => cases h
  · rw [he s rfl] at h
    rw [he t hengi]
    exact (liftLogged_again (SpatialMaterial.resource_steady _ _) h).2 t

/-! ### Materials of the project -/

omit [Scalar α] in
theorem projectDirectory_ok {directory : String}
    (h : projectDirectory cfg s = .ok directory s') :
    s' = { s with project := some directory } := by
  rw [projectDirectory, get_bind] at h
  cases hproj : s.project with
  | some directory' =>
    rw [hproj] at h
    cases h
    rw [← hproj]
  | none =>
    rw [hproj] at h
    obtain ⟨directory', s1, hd, h1⟩ := bind_ok h
    cases h1
    obtain ⟨-, rfl⟩ := lift_ok hd
    rfl

omit [Scalar α] in
theorem searchDirectory?_again {directory : Option String}
    (h : searchDirectory? cfg s = .ok directory s') :
    (∃ project, s' = { s with project }) ∧
      ∀ t : Session α, t.project = s'.project → searchDirectory? cfg t = .ok directory t := by
  unfold searchDirectory? at h ⊢
  cases hsear : cfg.materialSearch with
  | nowhere =>
    rw [hsear] at h
    cases h
    exact ⟨⟨s.project, rfl⟩, fun t _ => rfl⟩
  | exportDirectory =>
    rw [hsear] at h
    cases h
    exact ⟨⟨s.project, rfl⟩, fun t _ => rfl⟩
  | projectDirectory =>
    rw [hsear] at h
    obtain ⟨project, s1, hproj, h1⟩ := bind_ok h
    cases h1
    obtain rfl := projectDirectory_ok hproj
    refine ⟨⟨some project, rfl⟩, fun t ht => ?_⟩
    have hcach : projectDirectory cfg t = .ok project t := by
      rw [projectDirectory, get_bind, ht]
      rfl
    exact bind_of_ok hcach _

omit [Scalar α] in
/-- A search that is repeated while the files are the same finds the same. -/
theorem findMaterial?_again {found : Option (String × String)} (h : findMaterial? cfg name s =
    .ok found s') :
    (∃ log project, s' = { s with log, project }) ∧
      ∀ t : Session α, t.files = s'.files → t.project = s'.project →
        ∃ log, findMaterial? cfg name t = .ok found { t with log } := by
  unfold findMaterial? at h ⊢
  obtain ⟨directory, s1, hdire, h1⟩ := bind_ok h
  obtain ⟨⟨project, rfl⟩, hagain⟩ := searchDirectory?_again hdire
  cases directory with
  | none =>
    cases h1
    refine ⟨⟨s.log, project, rfl⟩, fun t _ ht => ⟨t.log, ?_⟩⟩
    rw [bind_of_ok (hagain t ht)]
    rfl
  | some directory =>
    dsimp only at h1
    rw [get_bind] at h1
    obtain ⟨all, hnamed, h2⟩ := lift_bind_ok h1
    have hlift (t : Session α) (hfiles : t.files = s.files) :
        (liftM (t.files.materialsNamed directory name) : ExportM α _) t = .ok all t := by
      rw [hfiles, hnamed]
      rfl
    by_cases hmany : 1 < all.length
    · simp only [hmany, if_true] at h2
      cases h2
      refine ⟨⟨_, project, rfl⟩, fun t hfiles hproj =>
        ⟨t.log.push ⟨.warning, "Multiple materials found for " ++ name⟩, ?_⟩⟩
      rw [bind_of_ok (hagain t hproj)]
      dsimp only
      rw [get_bind, bind_of_ok (hlift t hfiles)]
      simp only [hmany, if_true]
      rfl
    · simp only [hmany, if_false] at h2
      cases h2
      refine ⟨⟨_, project, rfl⟩, fun t hfiles hproj => ⟨t.log, ?_⟩⟩
      rw [bind_of_ok (hagain t hproj)]
      dsimp only
      rw [get_bind, bind_of_ok (hlift t hfiles)]
      simp only [hmany, if_false]
      rfl

/-! ### Materials that are exported twice -/

omit [Scalar α] in
theorem material_apply (hm : s.scene.materials[id]? = some m) : material id s = .ok m s := by
  rw [material, get_bind, hm]
  rfl

/-- What an export of a material does: it refers to a file that the search found, or it adds a
resource under the key of the object and the material. -/
theorem exportMaterial_ok {ref : Reference} (h : exportMaterial cfg object id s = .ok ref s') :
    ∃ m, s.scene.materials[id]? = some m ∧
      ((∃ found t n, findMaterial? cfg m.name s = .ok (some found) t ∧ ref = .external n ∧
          s'.file.external.find? (.material id) = some n ∧
          s'.scene = t.scene ∧ s'.files = t.files ∧ s'.project = t.project) ∨
        ∃ t r t' n, findMaterial? cfg m.name s = .ok none t ∧
          materialResource cfg object id m t = .ok r t' ∧
          addInternal (.material object id) r t' = .ok n s' ∧ ref = .internal (some n)) := by
  obtain ⟨m, s0, hm, h1⟩ := bind_ok h
  rw [material, get_bind] at hm
  obtain ⟨hm, rfl⟩ := lift_ok hm
  refine ⟨m, need_ok hm, ?_⟩
  obtain ⟨found, t, hfind, h2⟩ := bind_ok h1
  cases found with
  | some found =>
    obtain ⟨path, type⟩ := found
    refine .inl ⟨(path, type), t, ?_⟩
    dsimp only at h2
    rw [bind_of_ok (findExternal?_apply t)] at h2
    cases hx : t.file.external.find? (.material id) with
    | some n =>
      rw [hx] at h2
      cases h2
      exact ⟨n, hfind, rfl, hx, rfl, rfl, rfl⟩
    | none =>
      rw [hx] at h2
      obtain ⟨n, t', hadd, h3⟩ := bind_ok h2
      cases h3
      obtain ⟨external, hg, rfl⟩ := addExternal_ok hadd
      refine ⟨_, hfind, rfl, find?_given hg rfl ?_, rfl, rfl, rfl⟩
      simp [BEq.beq, ExternalKey.same]
  | none =>
    obtain ⟨r, t', hr, h3⟩ := bind_ok h2
    obtain ⟨n, t'', hadd, h4⟩ := bind_ok h3
    cases h4
    exact .inr ⟨t, r, t', n, hfind, hr, hadd, rfl⟩

/-- A material whose file is found again is referred to by the number it has. -/
theorem exportMaterial_found {found : String × String} {n : Nat}
    (hm : s.scene.materials[id]? = some m) (hf : findMaterial? cfg m.name s = .ok (some found)
    t) (hx : t.file.external.find? (.material id) = some n) :
    exportMaterial cfg object id s = .ok (.external n) t := by
  rw [exportMaterial, bind_of_ok (material_apply hm), bind_of_ok hf]
  obtain ⟨path, type⟩ := found
  dsimp only
  rw [bind_of_ok (findExternal?_apply t), hx]
  rfl

theorem exportMaterial_refused {n : Nat} {s1 t1 : Session α} (hm : s1.scene.materials[id]? = some m)
    (hr : materialResource cfg object id m s = .ok r s')
    (hadd : addInternal (.material object id) r s' = .ok n s1)
    (hf : findMaterial? cfg m.name s1 = .ok none t1) :
    ∃ s2, exportMaterial cfg object id s1 = .error .duplicateResource s2 ∧
    s2.file = s1.file := by
  have hreta := retains_of_addMaterial hadd
  obtain ⟨⟨log, project, rfl⟩, -⟩ := findMaterial?_again hf
  obtain ⟨log', hr'⟩ := materialResource_again hr (t := { s1 with log, project })
    ⟨hreta.scene, hreta.external, hreta.shaders, hreta.items⟩
  have htaken : s1.file.internal.find? (.material object id) ≠ none := by
    obtain ⟨internal, hg, rfl⟩ := addInternal_ok hadd
    simp [find?_given hg rfl (by simp [BEq.beq, InternalKey.same])]
  refine ⟨{ s1 with log := log', project }, ?_, rfl⟩
  rw [exportMaterial, bind_of_ok (material_apply hm), bind_of_ok hf]
  dsimp only
  rw [bind_of_ok hr']
  refine bind_of_error ?_ _
  rw [addInternal_apply, ResourceTable.add_of_taken htaken]

/-- A material is exported twice for the same object.  The second time gives the same reference and
leaves the file as it is if, and only if, the material is one of the project.  Else the resource is
made again and refused, unless a file with the material came to be in the meantime. -/
theorem exportMaterial_repeated {ref : Reference} {s s₁ : Session α}
    (h : exportMaterial cfg object id s = .ok ref s₁) :
    ((∃ s₂, exportMaterial cfg object id s₁ = .ok ref s₂ ∧ s₂.file = s₁.file) ↔
    ∃ n, ref = .external n) ∧ ∀ n, ref = .internal n → (∀ m, s₁.scene.materials[id]? = some m →
        ∃ t, findMaterial? cfg m.name s₁ = .ok none t) →
      ∃ s₂, exportMaterial cfg object id s₁ = .error .duplicateResource s₂ ∧
      s₂.file = s₁.file := by
  have hkp : Keeps false library (exportMaterial cfg object id : ExportM α Reference) :=
    exportMaterial_keeps _ _ _
  have hmate : s₁.scene.materials = s.scene.materials := congrArg Prod.fst (hkp.ok h)
  obtain ⟨m, hm, hcases⟩ := exportMaterial_ok h
  rw [← hmate] at hm
  rcases hcases with ⟨found, t, n, hfind, rfl, hx, hsc, hfiles, hproj⟩
    | ⟨t, r, t', n, hfind, hr, hadd, rfl⟩
  · -- The search finds the file again, since only the messages and the project changed.
    obtain ⟨-, hagain⟩ := findMaterial?_again hfind
    obtain ⟨log, hfind'⟩ := hagain s₁ hfiles hproj
    refine ⟨⟨fun _ => ⟨n, rfl⟩, fun _ => ⟨_, exportMaterial_found hm hfind' hx, rfl⟩⟩, ?_⟩
    intro n' hn
    cases hn
  · refine ⟨⟨fun hsame => ?_, fun ⟨n', hn⟩ => by cases hn⟩, fun _ _ hnone => ?_⟩
    · obtain ⟨s₂, h2, -⟩ := hsame
      obtain ⟨m', hm', hcases'⟩ := exportMaterial_ok h2
      cases hm.symm.trans hm'
      rcases hcases' with ⟨_, _, _, _, hn, _⟩ | ⟨t₁, _, _, _, hfind₁, _⟩
      · cases hn
      · obtain ⟨s₃, h3, -⟩ := exportMaterial_refused hm hr hadd hfind₁
        cases h2.symm.trans h3
    · obtain ⟨t₁, hfind₁⟩ := hnone m hm
      exact exportMaterial_refused hm hr hadd hfind₁

end Material

/-! ### An example -/

/-- A material without a node tree. -/
def paint : Material ℚ where
  name := "Paint"
  tree := none
  diffuse := [1 / 2, 1 / 4, 1, 1]
  metallic := 0
  specular := 1 / 2
  roughness := 1 / 2

/-- A session with one material, and with a file of that name or without. -/
def painted (files : FileStore) : Session ℚ where
  scene := { materials := #[paint] }
  files := files

/-- The material is found next to the scene and referred to twice; if it is not there, it is made
and then refused. -/
theorem exportMaterial_repeated_paint :
    (∃ s₁ s₂, exportMaterial { path := "/game/scene.escn", materialSearch := .exportDirectory } 0 0
        (painted [("/game/Paint.tres", "[gd_resource type=\"SpatialMaterial\"]")]) =
        .ok (.external 1) s₁ ∧
      exportMaterial { path := "/game/scene.escn", materialSearch := .exportDirectory } 0 0 s₁
        = .ok (.external 1) s₂ ∧ s₂.file = s₁.file) ∧
    ∃ s₁ s₂, exportMaterial { path := "/game/scene.escn", materialSearch := .nowhere } 0 0
        (painted []) = .ok (.internal (some 1)) s₁ ∧
      exportMaterial { path := "/game/scene.escn", materialSearch := .nowhere } 0 0 s₁
        = .error .duplicateResource s₂ ∧ s₂.file = s₁.file := by
  constructor
  · obtain ⟨ref, s₁, h, href⟩ := exists_yield (exportMaterial
        { path := "/game/scene.escn", materialSearch := .exportDirectory } 0 0)
        (painted [("/game/Paint.tres", "[gd_resource type=\"SpatialMaterial\"]")])
        (fun ref _ => decide (ref = .external 1))
    obtain rfl := of_decide_eq_true href
    obtain ⟨s₂, h2, hfile⟩ := (exportMaterial_repeated h).1.2 ⟨1, rfl⟩
    exact ⟨s₁, s₂, h, h2, hfile⟩
  · obtain ⟨ref, s₁, h, href⟩ := exists_yield (exportMaterial
        { path := "/game/scene.escn", materialSearch := .nowhere } 0 0) (painted [])
        (fun ref _ => decide (ref = .internal (some 1)))
    obtain rfl := of_decide_eq_true href
    obtain ⟨s₂, h2, hfile⟩ := (exportMaterial_repeated h).2 (some 1) rfl fun m _ => ⟨s₁, rfl⟩
    exact ⟨s₁, s₂, h, h2, hfile⟩

end ExportM

end SceneExport
