import SceneExport.Proofs.Export.Outline

/-!
# Resources and outlines

Materials, textures and meshes become resources of the file.  On the way files are copied, shaders
are compiled and objects are evaluated.  What a session shows of its messages, requests and files
is all that an evaluation changes (`evaluate_keeps`), and of all else only the resources become
more (`exportMaterial_keeps`, `exportMesh_keeps`).
-/

namespace SceneExport.ExportM

variable {α γ : Type} {always : Bool} (armature : ObjectId) (e : Evaluation) (m : Mesh α)
  (tangents : Bool) (id : ObjectId) (allLayers : Bool) (o : Object α) (b : RigidBody α)
  (name : String) (cfg : Settings) {view : Session α → γ}

theorem activeMesh?_keeps : Keeps always view (activeMesh? o) := .bind .get fun _ =>
    .option (fun _ => .lift)

theorem armaturePosition?_keeps [Scalar α] : Keeps always view (armaturePosition? o) := by
  refine .bind .lift fun target => ?_
  split
  · exact .pure
  · refine .bind (object_keeps _) fun o => ?_
    split
    · exact .pure
    · exact .throw

section Aside

variable [Aside view]

/-! ### Files and requests -/

theorem copyFile_keeps {source target : String} : Keeps always view (copyFile source target) := by
  refine .bind request_keeps fun _ => .bind .get fun s => .bind need_keeps fun text => ?_
  refine .bind .get fun s => .bind .lift fun files => ?_
  exact .modify fun s => Aside.aside s s.log s.requests files s.project s.marks

theorem placeImage_keeps {i : Image} {target : String} : Keeps always view
    (placeImage i target) := by
  unfold placeImage
  split
  · exact request_keeps
  dsimp only
  split
  · refine .bind .get fun s => ?_
    split
    · exact copyFile_keeps
    · exact warn_keeps
  · exact .pure

theorem projectDirectory_keeps : Keeps always view (projectDirectory cfg) := by
  refine .of_get fun s => ?_
  cases s.project with
  | some directory => rfl
  | none =>
    cases s.files.projectDirectory cfg.path with
    | ok directory => exact Aside.aside s s.log s.requests s.files _ s.marks
    | error e => exact fun _ => rfl

theorem searchDirectory?_keeps : Keeps always view (searchDirectory? cfg) := by
  unfold searchDirectory?
  split
  · exact .pure
  · exact .pure
  · exact .bind (projectDirectory_keeps _) fun _ => .pure

theorem findMaterial?_keeps {name : String} : Keeps always view (findMaterial? cfg name) := by
  refine .bind (searchDirectory?_keeps _) fun directory => ?_
  split
  · exact .pure
  · refine .bind .get fun s => .bind .lift fun found => ?_
    extract_lets rest
    have hr : ∀ r, Keeps always view (rest r) := fun _ => .pure
    split
    · exact .bind warn_keeps hr
    · exact hr ()

/-! ### Evaluated objects -/

theorem triangulate_keeps : Keeps always view (triangulate m) := by
  refine .bind request_keeps fun _ => .bind .get fun s => ?_
  exact .bind request_keeps fun _ => .pure

theorem withTangents_keeps : Keeps always view (withTangents m tangents) := by
  unfold withTangents
  split
  · refine .bind request_keeps fun _ => ?_
    split
    · refine .bind warn_keeps fun _ => .bind (triangulate_keeps _) fun m => ?_
      exact .bind request_keeps fun _ => .pure
    · exact .pure
  · exact .bind request_keeps fun _ => .pure

theorem release_keeps : Keeps always view (release e) := by
  unfold release
  split
  · exact .pure
  · extract_lets rest
    have hr : ∀ r, Keeps always view (rest r) := fun _ =>
      .bind (object_keeps _) fun _ => .bind request_keeps fun _ => .pure
    split
    · exact .bind .throw hr
    · exact hr ()

theorem requestMesh_keeps [Scalar α] : Keeps always view (requestMesh id allLayers) := by
  refine .bind (object_keeps _) fun o => .bind (armaturePosition?_keeps _) fun position => ?_
  exact .bind request_keeps fun _ => activeMesh?_keeps _

end Aside

section Quiet

variable [Quiet view] {name : String}

theorem setPosition_keeps {position : String} : Keeps always view (setPosition armature position) :=
    by
  refine changeLasting_keeps _ fun o => ?_
  split
  · rename_i a ha
    simp only [Object.lasting, Object.outline, ha]
    rfl
  · rfl

theorem atRest_keeps {β : Type} {step : ExportM α β} (h : Keeps always view step) :
    Keeps always view (atRest armature step) := by
  refine .bind (object_keeps _) fun o => .bind .lift fun a => ?_
  refine .bind (setPosition_keeps _) fun _ => .bind h fun result => ?_
  exact .bind (setPosition_keeps _) fun _ => .pure

variable [Scalar α]

theorem evaluate_keeps (e : Evaluation) (allLayers tangents : Bool) (key : Int) : Keeps always view
      (evaluate cfg e allLayers tangents key) := by
  refine .bind need_keeps fun id => .bind (object_keeps _) fun before => ?_
  refine .bind (changeLasting_keeps _ fun _ => rfl) fun _ => ?_
  extract_lets shown asked
  have ha : ∀ r, Keeps always view (asked r) := by
    intro _
    refine .bind (requestMesh_keeps _ _) fun mesh? => ?_
    extract_lets tangents restored shownAgain
    have hr : ∀ r, Keeps always view (restored r) := fun _ =>
      .bind (changeLasting_keeps _ fun _ => rfl) fun _ => .pure
    have hs : ∀ r, Keeps always view (shownAgain r) := by
      intro _
      unfold shownAgain
      split
      · split
        · exact .bind (.map _ (withTangents_keeps _ _)) hr
        · exact .bind .pure hr
      · exact .bind .pure hr
    split
    · exact .bind (changeLasting_keeps _ fun _ => rfl) hs
    · exact hs ()
  split
  · exact .bind (changeLasting_keeps _ fun _ => rfl) ha
  · exact ha ()

/-! ### Textures and materials -/

variable [HidesOthers view] {id : MaterialId} {tree : NodeTree α} {object : ObjectId}

theorem exportTexture_keeps {id : ImageId} : Keeps always view (exportTexture cfg id) := by
  refine .bind findExternal?_keeps fun found => ?_
  split
  · exact .pure
  · refine .bind image_keeps fun i => ?_
    exact .bind placeImage_keeps fun _ => addExternal_keeps

theorem exportShader_keeps : Keeps always view (exportShader cfg id name tree) := by
  refine .bind findInternal?_keeps fun found => ?_
  extract_lets rest
  have hr : ∀ r, Keeps always view (rest r) := by
    intro _
    refine .bind .get fun s => .bind (liftLogged_keeps _) fun script => ?_
    split
    · exact .throw
    · refine .bind (.forIn (fun i _ => ?_) _ _) fun _ => ?_
      · exact .bind (exportTexture_keeps _) fun _ => .pure
      · exact .bind (addOther_keeps rfl) fun _ => .pure
  split
  · refine .bind .get fun s => ?_
    split
    · exact .pure
    · exact .bind .throw hr
  · exact hr ()

omit [Quiet view] [HidesOthers view] in
theorem textureParameters_keeps {script : ShaderScript} : Keeps always view
    (textureParameters script) :=
  .mapM (fun _ => .bind findExternal?_keeps fun _ => .bind .lift fun _ => .pure) _

theorem shaderMaterial_keeps {shown name : String} :
    Keeps always view (shaderMaterial cfg object id shown name tree) := by
  refine .bind (exportShader_keeps _) fun (number, script) => ?_
  refine .bind (object_keeps _) fun o => .bind .lift fun bounds => ?_
  exact .bind textureParameters_keeps fun _ => .pure

theorem materialResource_keeps {m : Material α} : Keeps always view
    (materialResource cfg object id m) := by
  refine .bind .get fun s => ?_
  split
  · refine .orUnsupported (shaderMaterial_keeps _) fun reason => ?_
    exact .bind (liftLogged_keeps _) fun _ => .bind say_keeps fun _ => .pure
  · exact liftLogged_keeps _

theorem exportMaterial_keeps (object : ObjectId) (id : MaterialId) :
    Keeps always view (exportMaterial cfg object id) := by
  refine .bind material_keeps fun m => .bind (findMaterial?_keeps _) fun found => ?_
  split
  · refine .bind findExternal?_keeps fun number => ?_
    split
    · exact .pure
    · exact .bind addExternal_keeps fun _ => .pure
  · refine .bind (materialResource_keeps _) fun r => ?_
    exact .bind (addOther_keeps rfl) fun _ => .pure

/-! ### Meshes -/

variable (id : ObjectId) {bones : GroupBones} {tangents : Bool} {m : Mesh α} {s : MeshSplit α}

theorem surfaceMaterial_keeps {position : Int} : Keeps always view
    (surfaceMaterial cfg id m position) := by
  unfold surfaceMaterial
  split
  · exact .pure
  · refine .bind .lift fun found => ?_
    split
    · exact .pure
    · split
      · exact .pure
      · exact .map _ (exportMaterial_keeps _ _ _)

theorem splitTriangle_keeps {t : LoopTriangle} :
    Keeps always view (splitTriangle cfg id m bones tangents s t) := by
  unfold splitTriangle
  split
  · exact liftLogged_keeps _
  · exact .bind (surfaceMaterial_keeps _ _) fun _ => liftLogged_keeps _

theorem splitMesh_keeps : Keeps always view (splitMesh cfg id m bones tangents) :=
  .bind .lift fun _ => .foldlM (fun _ _ => splitTriangle_keeps _ _) _ _

omit [HidesOthers view] in
theorem exportMorph_keeps {key : Nat} : Keeps always view
    (exportMorph cfg id s bones tangents key) := by
  refine .bind (evaluate_keeps _ _ _ _ _) fun (mesh?, e) => .bind need_keeps fun m => ?_
  exact .bind (liftLogged_keeps _) fun _ => .bind (release_keeps _) fun _ => .pure

theorem meshResource_keeps : Keeps always view (meshResource cfg id m bones tangents) := by
  refine .bind (splitMesh_keeps _ _) fun split => ?_
  refine .bind (object_keeps _) fun o => .bind .get fun s => ?_
  extract_lets keys r rest
  have hr : ∀ r, Keeps always view (rest r) := fun _ => .pure
  clear_value keys
  split
  · exact .bind .pure hr
  · exact .bind (.mapM (fun _ => exportMorph_keeps _ _) _) hr

end Quiet

theorem exportMesh_keeps_of [Scalar α] [Quiet view] [HidesOthers view]
    (hadd : ∀ key r, Keeps always view (addInternal (.mesh key) r)) (id : ObjectId)
    (bones : GroupBones) :
    Keeps always view (exportMesh cfg id bones) := by
  refine .bind (object_keeps _) fun o => .bind .lift fun key => ?_
  refine .bind findInternal?_keeps fun found => ?_
  split
  · exact .pure
  · refine .bind (evaluate_keeps _ _ _ _ _) fun x => ?_
    split
    extract_lets rest
    have hr : ∀ r, Keeps always view (rest r) := fun _ =>
      .bind (release_keeps _) fun _ => .pure
    split
    · split
      · exact .bind .pure hr
      · refine .bind (meshResource_keeps _ _) fun r => ?_
        exact .bind (.map _ (hadd key r)) hr
    · exact .bind .pure hr

section HidesKeyed

variable [Scalar α] [Quiet view] [HidesKeyed view]

theorem exportMesh_keeps (id : ObjectId) (bones : GroupBones) : Keeps always view
    (exportMesh cfg id bones) :=
  exportMesh_keeps_of cfg (fun _ _ => addInternal_keeps) id bones

theorem exportSkinnedMesh_keeps {id : ObjectId} : Keeps always view
    (exportSkinnedMesh cfg id) := by
  refine .bind (object_keeps _) fun o => ?_
  extract_lets rest
  have hr : ∀ r, Keeps always view (rest r) := by
    intro armature
    unfold rest
    split
    · exact exportMesh_keeps _ _ _
    · refine .bind .get fun s => .bind .lift fun numbers => ?_
      exact atRest_keeps _ (exportMesh_keeps _ _ _)
  split
  · exact .bind .lift hr
  · exact .bind .pure hr

/-! ### Shapes, splines and particles -/

theorem exportMeshShape_keeps (id : ObjectId) (b : RigidBody α) (convex : Bool) :
    Keeps always view (exportMeshShape cfg id b convex) := by
  refine .bind (object_keeps _) fun o => ?_
  refine .bind .lift fun meshKey => ?_
  refine .bind findInternal?_keeps fun found => ?_
  split
  · exact .pure
  · refine .bind (evaluate_keeps _ _ _ _ _) fun x => ?_
    split
    refine .bind .lift fun shape => ?_
    extract_lets rest
    have hr : ∀ r, Keeps always view (rest r) := fun _ =>
      .bind (release_keeps _) fun _ => .pure
    split
    · exact .bind (.map _ addInternal_keeps) hr
    · exact .bind .pure hr

theorem exportSimpleShape_keeps : Keeps always view (exportSimpleShape id o b name) := by
  refine .bind .lift fun sizes => .bind .lift fun shape => ?_
  split
  · exact .map _ addInternal_keeps
  · exact .bind warn_keeps fun _ => .pure

omit [Quiet view] in
theorem exportSpline_keeps (curve : CurveData α) : Keeps always view (exportSpline id curve) := by
  refine .bind .lift fun first => .bind .lift fun r => ?_
  refine .bind findInternal?_keeps fun found => ?_
  split
  · exact .pure
  · exact addInternal_keeps

omit [Quiet view] in
theorem exportSystem_keeps (index : Nat) (s : ParticleSystem α) (mesh : Option Nat) :
    Keeps always view (exportSystem id index s mesh) := by
  refine .bind findInternal?_keeps fun found => ?_
  split
  · exact .pure
  · exact .bind .lift fun _ => addInternal_keeps

end HidesKeyed

/-! ### Materials of a mesh node -/

variable [Scalar α]

theorem setOwnMaterials_keeps {id : ObjectId} {o : Object α} {node : NodeId}
    {surfaces : List (Int × Nat)} :
    Keeps always Session.outline (setOwnMaterials cfg id o node surfaces) := by
  refine .bind (.forIn (fun x _ => ?_) _ _) fun _ => .pure
  split
  split
  · rename_i surface _ _ _
    have hn : "material/" ++ toString surface ≠ "transform" := append_ne_transform (by decide)
    split
    · refine .bind (exportMaterial_keeps _ _ _) fun r => ?_
      exact .bind (setNode_keeps _ hn _) fun _ => .pure
    · exact .pure
  · exact .pure

omit [Scalar α] in
theorem meshSurfaces_keeps {number : Nat} :
    Keeps always Session.outline (meshSurfaces number : ExportM α (List (Int × Nat))) := by
  refine .bind .get fun s => ?_
  split
  · exact .pure
  · exact .throw

theorem showMesh_keeps (id : ObjectId) (o : Object α) (node : NodeId) :
    Keeps always Session.outline (showMesh cfg id o node) := by
  refine .bind (exportSkinnedMesh_keeps _) fun number => ?_
  split
  · refine .bind (setNode_keeps _ (by decide) _) fun _ => ?_
    refine .bind (setNode_keeps _ (by decide) _) fun _ => .bind meshSurfaces_keeps fun s => ?_
    exact setOwnMaterials_keeps _
  · exact .pure

end SceneExport.ExportM
