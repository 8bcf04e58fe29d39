import SceneExport.Proofs.Export.Lasting
import SceneExport.Proofs.Mesh.References

/-!
# References of an exported scene

Nodes are made, written and changed without a change of the resources, so the export of a node keeps
the ledger sound if the resources that it needs are exported so (`Safe`).  By that and by the lemmas
about resources the ledger stays sound through the export of a scene (`lasting_grown`).

Main statement: in the file of a scene every sub-resource refers only to sub-resources before it,
each of the type that is needed, and to external resources that are there (`saveScene_refersBack`).
-/

namespace SceneExport

open Session (ledger)

variable {α β : Type}

instance : Tracked (ledger : Session α → Ledger α) where
  detail s id detail := by
    have hentry (r : Resource α) : { r with detail }.entry = r.entry := rfl
    simp only [ledger, SceneFile.ledger, ResourceTable.update]
    split
    · rfl
    · simp only [map_modify Resource.entry hentry]
  playing _ _ _ := rfl

namespace ExportM

open Ledger

/-- The step keeps the ledger sound and what is in it. -/
abbrev Safe (base : Ledger α) (step : ExportM α β) : Prop :=
  Lasts ledger base.Grown step

theorem safe_of_keeps {base : Ledger α} {step : ExportM α β} (h : Keeps false ledger step) :
    Safe base step :=
  h.leads base.Grown

/-! ### Nodes -/

section Nodes

variable {always : Bool} (id : NodeId)

theorem makeNode_ledger (name type : String) (parent : Option NodeId) (role : Role) :
    Keeps always ledger (makeNode name type parent role : ExportM α NodeId) := by
  refine .of_get fun s => ?_
  unfold SceneFile.makeNode
  cases s.file.tree.make name (.text type) parent role with
  | mk made tree =>
    cases made with
    | ok id => rfl
    | error e => exact fun _ => rfl

theorem writeNode_ledger : Keeps always ledger (writeNode id : ExportM α Unit) := .modify fun _ =>
    rfl

theorem setNode_ledger (name : String) (v : Value α) : Keeps always ledger (setNode id name v) :=
  .modify fun _ => rfl

end Nodes

variable [Scalar α] {base : Ledger α}

theorem createAnimation_safe (player : NodeId) (name : String) :
    Safe base (createAnimation player name) := by
  refine .keeping (liftLogged_keeps _) fun animation => ?_
  refine .bind ((forceInternal_leads _ ["Animation"]).mono (fun s hs => ⟨hs, ?_⟩) fun _ _ h =>
    h.grown) fun id => ?_
  · exact fits_of_plain Resource.plainOf_ofType
  · exact .keeping (setNode_ledger _ _ _) fun _ => .done

theorem exportSystem_safe (cfg : Settings) (target : ObjectId) (bones : GroupBones)
    (id : ObjectId) (index : Nat) (system : ParticleSystem α) :
    Safe base (exportMesh cfg target bones >>= exportSystem id index system) :=
  .bind (exportMesh_leads _ _ _) fun mesh =>
    (exportSystem_leads id index system mesh).post fun _ _ h => h.grown

/-- Nodes are made, written and changed without a change of the ledger, and resources keep it
sound. -/
theorem lasting_grown (base : Ledger α) : Lasting ledger base.Grown where
  set id _ _ v := setNode_ledger id _ v
  role _ _ := .modify fun _ => rfl
  make name _ _ parent role := safe_of_keeps (makeNode_ledger name _ parent role)
  write id := safe_of_keeps (writeNode_ledger id)
  animate := lasts_exportAnimation setNode_ledger
    (fun name type parent role => safe_of_keeps (makeNode_ledger name type parent role))
    (fun id => safe_of_keeps (writeNode_ledger id)) createAnimation_safe
  substance r hr := (forceInternal_leads r ["PhysicsMaterial"]).mono
    (fun _ hs => ⟨hs, fits_of_plain hr⟩) fun _ _ h => h.grown
  simpleShape id o b name := (exportSimpleShape_leads id o b name).post fun _ _ h => h.grown
  meshShape cfg id b convex := (exportMeshShape_leads cfg id b convex).post fun _ _ h =>
    h.grown
  mesh cfg id bones := (exportMesh_leads cfg id bones).post fun _ _ h => h.grown
  material cfg object id := (exportMaterial_leads cfg object id).post fun _ _ h => h.grown
  spline id curve := (exportSpline_leads id curve).post fun _ _ h => h.grown
  system := exportSystem_safe

/-! ### Saving a scene -/

theorem fixPaths_ledger (target : String) : Keeps false ledger (fixPaths target : ExportM α Unit) :=
    by
  -- Paths are rewritten one by one until one of them fails, so the number of files is kept in any
  -- case.
  have hlen (es : List (Entry α)) : (SceneFile.relativePaths target es).1.length = es.length := by
    induction es with
    | nil => rfl
    | cons e es ih =>
      unfold SceneFile.relativePaths
      split
      · simpa using ih
      · rfl
  refine .of_get fun s => ?_
  have hsize := hlen s.file.external.items.toList
  unfold SceneFile.fixPaths
  cases hr : SceneFile.relativePaths target s.file.external.items.toList with
  | mk items result =>
    rw [hr] at hsize
    have hledg : ledger { s with file := { s.file with external := { s.file.external with
        items := items.toArray } } } = s.ledger := by
      simpa [ledger, SceneFile.ledger] using hsize
    cases result with
    | ok _ => exact hledg
    | error e => exact fun _ => hledg

/-- **No forward references.**  In the file of a scene every sub-resource refers only to
sub-resources before it, a surface to a material, a shader material to a shader and a multiple mesh
to a mesh, and to external resources that are there. -/
theorem saveScene_refersBack {cfg : Settings} {s s' : Session α} (hfile : s.file = {})
    (h : saveScene cfg s = .ok () s') : s'.file.RefersBack := by
  have hst : s.ledger.Sound := by
    rw [ledger, hfile]
    exact Ledger.sound_empty
  have hsafe : Safe s.ledger (saveScene cfg) := by
    refine .keeping (withFeatures_keeps _) fun cfg => ?_
    refine .bind ((lasting_grown _).exportScene (fun _ _ => rfl) cfg) fun _ => ?_
    refine .keeping (fixPaths_ledger _) fun _ => .keeping (writeFile_keeps _ _) fun _ => ?_
    exact .keeping fileText_keeps fun text => safe_of_keeps (writeFile_keeps _ _)
  exact (hsafe s hst.grown () s' h).sound.refersBack

end ExportM

/-! ### A lawn with flowers -/

/-- A tree whose surface glows in the colour of an image. -/
def glowingTree : NodeTree ℚ where
  name := "Glow"
  nodes :=
    #[{ id := "ShaderNodeTexImage", name := "Petals", type := "", settings := [], image :=
      some (some 0)
        inputs := #[⟨"Vector", .vector, .list [0, 0, 0], "Vector"⟩]
        outputs := #[⟨"Color", .rgba, .nothing, "Color"⟩, ⟨"Alpha", .value, .nothing, "Alpha"⟩] },
      { id := "ShaderNodeEmission", name := "Light", type := "", settings := [], image := none
        inputs := #[⟨"Color", .rgba, .nothing, "Color"⟩, ⟨"Strength", .value, .real 1, "Strength"⟩]
        outputs := #[⟨"Emission", .shader, .nothing, "Emission"⟩] },
      { id := NodeTree.outputId, name := "Output", type := "", settings := [], image := none
        inputs := #[⟨"Surface", .shader, .nothing, "Surface"⟩]
        outputs := #[] }]
  links := [⟨0, 0, 1, 0, true⟩, ⟨1, 0, 2, 0, true⟩]

/-- A flower of two materials, and a lawn that shows it many times. -/
def lawn : Session ℚ where
  scene.objects := #[
    { Object.bare "Flower" .mesh none with mesh := some 0, data := .mesh (some 0) },
    { Object.bare "Lawn" .mesh none with
      particles := [⟨"Flowers", some 0, none, [⟨[0, 0, 0], [1, 0, 0, 0], 1⟩]⟩]
      activeParticles := some 0 }]
  scene.meshes := #[{ ExportM.pennant with materials := [some 0, some 1] }]
  scene.materials := #[⟨"Petal", some glowingTree, [1, 0, 0, 1], 0, 0, 1⟩,
    ⟨"Stem", none, [0, 1, 0, 1], 0, 0, 1⟩]
  scene.images := #[{ name := "petals.png", path := "//petals.png" }]

namespace ExportM

/-- Settings with which particles are exported and materials are not searched for. -/
def lawnSettings : Settings :=
  { path := "/lawn.escn", objectTypes := [.geometry, .particle], materialSearch := .nowhere }

theorem saveScene_refersBack_lawn : ∃ s', saveScene lawnSettings lawn = .ok () s' ∧
    s'.file.internal.items.toList.map (·.entry.type?) =
      ["SpatialMaterial", "Shader", "ShaderMaterial", "ArrayMesh", "MultiMesh"].map some ∧
    s'.file.RefersBack := by
  obtain ⟨_, s', h, htypes⟩ := exists_yield (saveScene lawnSettings) lawn
    (fun _ s' => s'.file.internal.items.toList.map (·.entry.type?) ==
    ["SpatialMaterial", "Shader", "ShaderMaterial", "ArrayMesh", "MultiMesh"].map some)
  exact ⟨s', h, eq_of_beq htypes, saveScene_refersBack rfl h⟩

end ExportM

end SceneExport
