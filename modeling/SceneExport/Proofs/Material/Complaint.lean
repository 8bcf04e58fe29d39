import SceneExport.Proofs.Material.Repeated
import SceneExport.Proofs.Shader.Judged

/-!
# How the export of a shader fails

The caller of the shader export handles one kind of failure, that there is no support for a tree,
and makes a spatial material instead.  Any other failure ends the whole export.  For a well-formed
tree the failure is the first complaint about the tree (`exportShader_fails_iff`).  Textures add
none to that, as long as their images are files.

A shader that is given up leaves nothing behind but what was said on the way
(`shaderMaterial_traceless`).
-/

namespace SceneExport

open List

/-! ### Shaders that are given up -/

variable {α : Type} [Scalar α] {places : List String} {cfg : Settings} {id : MaterialId}

theorem SpatialMaterial.resource_type {name : String} {m : Material α} {r : Resource α}
    (h : (resource name m).outcome = .ok r) : r.entry.type? = some "SpatialMaterial" := by
  unfold Logged.outcome Logged.outcomeAfter at h
  cases hr : resource name m #[] with
  | error e log => simp [hr] at h
  | ok r' log =>
    rw [hr] at h
    cases h
    obtain ⟨-, hpln⟩ := resource_plain name m #[] trivial r log hr
    simpa using hpln

namespace ExportM

variable {object : ObjectId} {shown name : String} {tree : NodeTree α} {m : Material α}
  {r : Resource α} {s s' : Session α}

theorem addInternal_of_free {key : InternalKey α} (h : s.file.internal.find? key = none)
    (r : Resource α) :
    addInternal key r s = .ok (s.file.internal.items.size + 1)
      { s with file := { s.file with internal := s.file.internal.extended ⟨some key, r.numbered⟩ } }
      := by
  rw [addInternal_apply, ResourceTable.add_of_free h]

theorem materialResource_of_unsupported {reason : String} (hmode : cfg.materialMode = .script)
    (hdraws : drawsNodeTrees s.scene.engine = true) (htree : m.tree = some tree)
    (h : shaderMaterial cfg object id (if cfg.externalMaterials then m.name else "")
    m.name tree s = .error (.unsupported reason) s')
    (hr : (SpatialMaterial.resource (if cfg.externalMaterials then m.name else "") m).outcome =
    .ok r) :
    ∃ log, materialResource cfg object id m s = .ok r { s with log } := by
  obtain ⟨-, ⟨log, rfl⟩, -⟩ := shaderMaterial_unsupported h
  obtain ⟨log', hspat⟩ := liftLogged_steady (SpatialMaterial.resource_steady
    (if cfg.externalMaterials then m.name else "") m) { s with log }
  rw [hr] at hspat
  refine ⟨log'.push ⟨.error, reason ++ ", in material '" ++ m.name ++ "'"⟩, ?_⟩
  rw [materialResource, get_bind, hmode, hdraws, htree]
  dsimp only
  rw [orUnsupported, h]
  exact bind_of_ok hspat _

/-- **A shader that is given up leaves no trace.**  If the shader of a material is not supported,
whatever its node tree, the object and the session are, then nothing but messages is added to the
session: its nodes, its resources and the keys that find them, its images, files and requests are as
before.  If moreover the material was not made for the object yet and has the properties of a
spatial material, then one resource is added in place of the shader, and that is a spatial
material. -/
theorem shaderMaterial_traceless {reason : String}
    (h : shaderMaterial cfg object id shown name tree s = .error (.unsupported reason) s') :
    (∃ log, s' = { s with log }) ∧
    ∀ (m : Material α) (r : Resource α), cfg.materialMode = .script →
      drawsNodeTrees s.scene.engine = true → m.tree = some tree → m.name = name →
      (if cfg.externalMaterials then m.name else "") = shown →
      s.file.internal.find? (.material object id) = none →
      (SpatialMaterial.resource shown m).outcome = .ok r →
      r.entry.type? = some "SpatialMaterial" ∧
      ∃ log, (materialResource cfg object id m >>= addInternal (.material object id)) s =
        .ok (s.file.internal.items.size + 1) { s with
          log
          file := { s.file with
            internal := s.file.internal.extended ⟨some (.material object id), r.numbered⟩ } } := by
  refine ⟨(shaderMaterial_unsupported h).2.1, ?_⟩
  rintro m r hmode hdraws htree rfl rfl hfree hr
  refine ⟨SpatialMaterial.resource_type hr, ?_⟩
  obtain ⟨log, hmade⟩ := materialResource_of_unsupported hmode hdraws htree h hr
  refine ⟨log, ?_⟩
  rw [bind_of_ok hmade]
  exact addInternal_of_free (s := { s with log }) hfree r

/-! ### An example -/

/-- Whether a step ends because something is not supported. -/
def givesUp {β : Type} (step : ExportM α β) (s : Session α) : Bool :=
  match step s with
  | .error (.unsupported _) _ => true
  | _ => false

omit [Scalar α] in
theorem of_givesUp {β : Type} {step : ExportM α β} (h : givesUp step s = true) :
    ∃ reason s', step s = .error (.unsupported reason) s' := by
  unfold givesUp at h
  split at h
  · next reason s' hs => exact ⟨reason, s', hs⟩
  · cases h

/-- A picture that is looked up and shown on no surface. -/
def unseenTree : NodeTree ℚ where
  name := "Unseen"
  nodes :=
    #[{ id := "ShaderNodeTexImage", name := "Picture", type := "", settings := [], image :=
      some (some 0)
        inputs := #[⟨"Vector", .vector, .nothing, "Vector"⟩]
        outputs := #[⟨"Color", .rgba, .nothing, "Color"⟩, ⟨"Alpha", .value, .nothing, "Alpha"⟩] },
      { id := NodeTree.outputId, name := "Output", type := "", settings := [], image := none
        inputs := #[⟨"Surface", .shader, .nothing, "Surface"⟩]
        outputs := #[] }]
  links := []

/-- A material with the picture. -/
def unseen : Material ℚ :=
  { paint with name := "Unseen", tree := some unseenTree }

/-- A session with the material and its picture. -/
def unseenSession : Session ℚ where
  scene := { materials := #[unseen], images := #[{ name := "Picture", path := "/art/picture.png" }]
    }
  files := [("/art/picture.png", "picture")]

/-- The picture comes first and is no part of the session afterwards; the only resource is a spatial
material. -/
theorem shaderMaterial_traceless_unseen :
    (∃ reason log, shaderMaterial {} 0 0 "" "Unseen" unseenTree unseenSession
      = .error (.unsupported reason) { unseenSession with log }) ∧
    ∃ (r : Resource ℚ) (s' : Session ℚ), r.entry.type? = some "SpatialMaterial" ∧
      (materialResource {} 0 0 unseen >>= addInternal (.material 0 0)) unseenSession = .ok 1 s' ∧
      s'.file.internal.items = #[r.numbered 1] ∧ s'.file.external.items = #[] ∧
      s'.files = unseenSession.files ∧ s'.requests = #[] := by
  have hgvn : givesUp (shaderMaterial {} 0 0 "" "Unseen" unseenTree) unseenSession = true := by
    decide +kernel
  have hspat : (SpatialMaterial.resource "" unseen).outcome.isOk = true := by decide +kernel
  obtain ⟨reason, s', h⟩ := of_givesUp hgvn
  cases hr : (SpatialMaterial.resource "" unseen).outcome with
  | error e => simp [hr, Except.isOk, Except.toBool] at hspat
  | ok r =>
    obtain ⟨⟨log, rfl⟩, hadds⟩ := shaderMaterial_traceless h
    obtain ⟨htype, log', hmade⟩ := hadds unseen r rfl (by decide) rfl rfl rfl rfl hr
    exact ⟨⟨reason, log, h⟩, r, _, htype, hmade, rfl, rfl, rfl, rfl⟩

end ExportM

/-! ### Files for images -/

theorem Text.ne_empty_of_endsWith {s ending : String} (h : Text.endsWith s ending = true)
    (he : ending ≠ "") : s ≠ "" := by
  rintro rfl
  unfold Text.endsWith at h
  cases hr : ending.toList.reverse with
  | nil => exact he (String.toList_eq_nil_iff.1 (reverse_eq_nil_iff.1 hr))
  | cons c cs =>
    rw [hr] at h
    cases h

theorem Image.extension_ne_empty {i : Image} {e : String} (h : e ∈ i.extensions) : e ≠ "" := by
  rintro rfl
  unfold Image.extensions at h
  split at h <;> simp at h

theorem Image.fileName_ne_empty (i : Image) : i.fileName ≠ "" := by
  unfold Image.fileName
  split
  · next h =>
    obtain ⟨e, he, hends⟩ := any_eq_true.1 h
    intro hname
    refine Text.ne_empty_of_endsWith hends (extension_ne_empty he) ?_
    rw [hname]
    rfl
  · have hfst : i.extensions.headD "" ∈ i.extensions := by
      unfold Image.extensions
      split <;> simp
    intro hname
    exact extension_ne_empty hfst (String.append_eq_empty_iff.1 hname).2

theorem Path.join_ne_empty {dir : String} {p : String} (hp : p ≠ "") : Path.join dir p ≠ "" := by
  unfold Path.join
  split
  · exact hp
  · split <;> simp [hp]

/-- Where an image is put. -/
def Image.target (i : Image) (cfg : Settings) : String :=
  Path.join (Path.directory cfg.path) i.fileName

/-- No file at one of the places lies below the one that the image comes from. -/
def Image.IsFile (i : Image) (places : List String) : Prop :=
  i.packed = true ∨ ∀ p ∈ places, (FileStore.stepsBelow? (expandPath i.path) p).isSome →
    p = FileStore.place (expandPath i.path)

namespace FileStore

/-- All files lie at certain places. -/
def Within (s : FileStore) (places : List String) : Prop :=
  ∀ f ∈ s, f.1 ∈ places

variable {s : FileStore} {path : String}

theorem exists_read (h : s.Within places) (hp : ∀ p ∈ places, (stepsBelow? path p).isSome →
    p = place path) (hs : s.hasPath path = true) : ∃ text, s.read? path = some text := by
  obtain ⟨f, hf, hsteps⟩ := any_eq_true.1 hs
  have hplc : f.1 = place path := hp f.1 (h f hf) hsteps
  refine Option.ne_none_iff_exists'.1 fun hnone => ?_
  have hne := lookup_eq_none_iff.1 hnone f hf
  simp [hplc] at hne

theorem exists_write (h : s.Within places) (hne : path ≠ "") (hp : place path ∈ places)
    (text : String) : ∃ s', s.write path text = .ok s' ∧ FileStore.Within s' places := by
  have hemp : path.isEmpty = false := by simpa using hne
  simp only [write, hemp]
  generalize place path = p at hp ⊢
  refine ⟨_, rfl, fun f hf => ?_⟩
  split at hf
  · obtain ⟨f', hf', rfl⟩ := mem_map.1 hf
    split
    · exact hp
    · exact h f' hf'
  · rcases mem_append.1 hf with hf | hf
    · exact h f hf
    · exact mem_singleton.1 hf ▸ hp

end FileStore

/-! ### Textures -/

namespace ExportM

variable {α : Type} [Scalar α]

/-- The images of the scene are known, and all files lie at certain places. -/
structure Placing (images : Array Image) (places : List String) (f : SceneFile α) (s : Session α) :
    Prop where
  images : s.scene.images = images
  files : s.files.Within places
  file : s.file = f

variable {images : Array Image} {image : Image} {s : Session α} {t : NodeTree α}
  {script : ShaderScript} {k : ImageId}

omit [Scalar α] in
theorem copyFile_of_read {source target text : String} {files : FileStore}
    (hread : s.files.read? source = some text) (hwr : s.files.write target text = .ok files) :
    copyFile source target s =
      .ok () { s with requests := s.requests.push (.copyFile source target), files } := by
  let s' : Session α := { s with requests := s.requests.push (.copyFile source target) }
  have hrequ : request (.copyFile source target) s = .ok () s' := rfl
  unfold copyFile
  rw [bind_of_ok hrequ]
  change ((liftM (need .fileNotFound (s.files.read? source)) : ExportM α String) >>= _) s' = _
  rw [hread]
  change ((liftM (s.files.write target text) : ExportM α FileStore) >>= _) s' = _
  rw [hwr]
  rfl

omit [Scalar α] in
theorem placeImage_decides {f : SceneFile α} (hfile : image.IsFile places)
    (htgt : FileStore.place (image.target cfg) ∈ places) :
    Decides none (Placing images places f) (placeImage image (image.target cfg))
      fun _ => Placing images places f := by
  have hnamed : image.target cfg ≠ "" := Path.join_ne_empty image.fileName_ne_empty
  intro s hs
  unfold placeImage
  split
  · exact .returns ⟨hs.images, hs.files, hs.file⟩
  · next hpack =>
    have hsrc := hfile.resolve_left hpack
    dsimp only
    split
    · change Ends _ none ((if s.files.hasPath (expandPath image.path) = true then _ else _ :
        ExportM α Unit) s)
      split
      · next hpath =>
        -- What exists is a file and no directory, because no file lies below it.
        obtain ⟨text, htext⟩ := FileStore.exists_read hs.files hsrc hpath
        obtain ⟨files, hwr, hwith⟩ := FileStore.exists_write hs.files hnamed htgt text
        rw [copyFile_of_read htext hwr]
        exact .returns ⟨hs.images, hwith, hs.file⟩
      · exact .returns ⟨hs.images, hs.files, hs.file⟩
    · exact .returns ⟨hs.images, hs.files, hs.file⟩

/-- Every image that the nodes of a tree show is in the scene, comes from a file, and is put at one
of the places. -/
def ImagesPlaced (cfg : Settings) (t : NodeTree α) (images : Array Image)
    (places : List String) :
    Prop :=
  ∀ n ∈ t.nodes, ∀ k, n.image = some (some k) → ∃ image, images[k]? = some image ∧
    image.IsFile places ∧ FileStore.place (image.target cfg) ∈ places

/-- The shader of a material can be added, with its images. -/
structure Awaiting (images : Array Image) (places : List String) (id : MaterialId) (s : Session α) :
    Prop where
  images : s.scene.images = images
  files : s.files.Within places
  free : s.file.internal.find? (.shader id) = none

theorem exportTexture_decides (hk : images[k]? = some image) (hfile : image.IsFile places)
    (htgt : FileStore.place (image.target cfg) ∈ places) :
    Decides none (Awaiting images places id) (exportTexture cfg k : ExportM α Nat)
      fun _ => Awaiting images places id := by
  intro s hs
  unfold exportTexture
  rw [bind_of_ok (findExternal?_apply s)]
  cases hf : s.file.external.find? (.image k) with
  | some number => exact .returns hs
  | none =>
    have himage : ExportM.image k s = .ok image s := by
      change (liftM (need .outOfRange s.scene.images[k]?) : ExportM α Image) s = _
      rw [hs.images, hk]
      rfl
    obtain ⟨_, s', hplcd, hs'⟩ := (placeImage_decides hfile htgt s ⟨hs.images, hs.files, rfl⟩).ok
    -- The file is as before the image was placed, so that its key is still free.
    rw [Image.target] at hplcd
    dsimp only
    rw [bind_of_ok himage, bind_of_ok hplcd, addExternal_apply, ResourceTable.add_of_free
      (by rw [hs'.file]; exact hf)]
    refine .returns ⟨hs'.images, hs'.files, ?_⟩
    rw [hs'.file]
    exact hs.free

/-! ### Shaders -/

omit [Scalar α] in
theorem exists_node_of_mem_scriptImages
    (h : script.TexturesWithin fun image => ∃ n ∈ t.nodes, n.image = some image)
    (hk : k ∈ scriptImages script) : ∃ n ∈ t.nodes, n.image = some (some k) := by
  unfold scriptImages ShaderScript.imageTextures at hk
  rw [mem_mergeSort, mem_eraseDups] at hk
  obtain ⟨x, hx, rfl⟩ := mem_map.1 hk
  obtain ⟨⟨texture, name⟩, htextu, hx⟩ := mem_filterMap.1 hx
  obtain ⟨k', hk', rfl⟩ := Option.map_eq_some_iff.1 hx
  exact hk' ▸ h _ htextu

theorem addShader_decides (h : ImagesPlaced cfg t images places)
    (hs : script.TexturesWithin fun image => ∃ n ∈ t.nodes, n.image = some image) :
    Decides none (Awaiting images places id) (addShader cfg id t script) fun _ _ => True := by
  refine (Decides.forIn_sure (fun _ _ => Awaiting images places id) (fun _ k _ hsplit _ => ?_)
    _).bind fun _ => .bind (Q := fun _ _ => True) ?_ fun _ => .pure fun _ _ => trivial
  · have hk : k ∈ scriptImages script := hsplit ▸ mem_append_right _ mem_cons_self
    obtain ⟨n, hn, himage⟩ := exists_node_of_mem_scriptImages hs hk
    obtain ⟨image, hi, hfile, htgt⟩ := h n hn k himage
    exact (exportTexture_decides hi hfile htgt).bind fun _ => .pure fun _ hs => ⟨_, rfl, hs⟩
  · intro s hs
    rw [addInternal_of_free hs.free]
    exact .returns trivial

/-- There is a script for a well-formed tree unless there is a complaint about it. -/
theorem scriptFor_outcome {v : Version} (ht : t.WellFormed v) (name : String) :
    Outcome.failure? (scriptFor name t v) = t.complaint? v name ∧ ∀ script, scriptFor name t v =
    .ok script → script.TexturesWithin fun image => ∃ n ∈ t.nodes, n.image = some image := by
  have hcomp := NodeTree.compile_decides ht (fun _ => True) #[] trivial
  unfold scriptFor Logged.outcome Logged.outcomeAfter NodeTree.complaint?
  generalize t.compile v #[] = result at hcomp
  cases ho : t.outputNodes.head? with
  | none =>
    rw [ho] at hcomp
    obtain ⟨script, log, rfl, hnone, -⟩ := hcomp.ok
    obtain rfl : script = none := by simpa using hnone
    exact ⟨rfl, nofun⟩
  | some output =>
    rw [ho] at hcomp
    simp only [Option.bind_some, Option.any_some] at hcomp
    dsimp only
    -- What the compiler meets comes before the complaint that it gives no script.
    rw [← Option.or_assoc]
    generalize ((t.order.filter (· ≠ output)).findSome? (t.nodeComplaint? v)).or
      (t.surfaceFault? output) = verdict at hcomp
    cases hcomp with
    | fails => exact ⟨rfl, nofun⟩
    | @returns script log h =>
      obtain ⟨hsome, htex⟩ := h
      rw [← hsome]
      cases script with
      | none => exact ⟨rfl, nofun⟩
      | some script => exact ⟨rfl, fun _ hscri => Except.ok.inj hscri ▸ htex script rfl⟩

theorem exportShader_ends (ht : t.WellFormed s.scene.version)
    (hnew : s.file.internal.find? (.shader id) = none) (hfiles : s.files.Within places)
    (himag : ImagesPlaced cfg t s.scene.images places) (name : String) :
    Ends (fun _ _ => True) (t.complaint? s.scene.version name)
    (exportShader cfg id name t s) := by
  obtain ⟨log, hrun⟩ := exportShader_unfound cfg name t hnew
  obtain ⟨hfail, htex⟩ := scriptFor_outcome ht name
  rw [hrun, ← hfail]
  cases hscri : scriptFor name t s.scene.version with
  | error e => exact .fails
  | ok script => exact addShader_decides himag (htex script hscri) _ ⟨rfl, hfiles, hnew⟩

/-- **The export of a shader fails exactly with the first complaint about its tree.**  The caller
makes a spatial material if that says that there is no support for the tree.  Otherwise the tree has
a node for a number, a link from an output that the code of its node does not give, or a value for
its surface. -/
theorem exportShader_fails_iff (cfg : Settings) (id : MaterialId) (name : String)
    {t : NodeTree α} {s : Session α} {places : List String} (ht : t.WellFormed s.scene.version)
    (hnew : s.file.internal.find? (.shader id) = none) (hfiles : s.files.Within places)
    (himages : ImagesPlaced cfg t s.scene.images places) :
    ((∃ r s', exportShader cfg id name t s = .ok r s') ↔ t.complaint? s.scene.version name =
    none) ∧ (∀ e, (∃ s', exportShader cfg id name t s = .error e s') ↔
      t.complaint? s.scene.version name = some e) ∧
    ∀ e, t.complaint? s.scene.version name = some e → (∃ reason, e = .unsupported reason) ∨
    t.Fault e := by
  have hends := exportShader_ends ht hnew hfiles himages name
  exact ⟨hends.ok_iff, hends.error_iff, fun e => NodeTree.complaint?_cases ht⟩

/-- A picture is tinted by a number, and the result is how much of one surface there is on
another. -/
def tintedTree : NodeTree ℚ where
  name := "Tinted"
  nodes :=
    #[{ id := "ShaderNodeValue", name := "Amount", type := "", settings := [], image := none
        inputs := #[]
        outputs := #[⟨"Value", .value, .real (1 / 4), "Value"⟩] },
      { id := "ShaderNodeTexImage", name := "Picture", type := "", settings := []
        image := some (some 0), inputs := #[⟨"Vector", .vector, .nothing, "Vector"⟩]
        outputs := #[⟨"Color", .rgba, .nothing, "Color"⟩, ⟨"Alpha", .value, .nothing, "Alpha"⟩] },
      { id := "ShaderNodeMixRGB", name := "Tint", type := "", image := none
        settings := [("blend_type", .text "MIX"), ("use_clamp", .flag false)]
        inputs := #[⟨"Fac", .value, .real (1 / 2), "Fac"⟩, ⟨"Color1", .rgba, .nothing, "Color1"⟩,
          ⟨"Color2", .rgba, .nothing, "Color2"⟩]
        outputs := #[⟨"Color", .rgba, .nothing, "Color"⟩] },
      { id := "ShaderNodeMixShader", name := "Mix", type := "", settings := [], image := none
        inputs := #[⟨"Fac", .value, .real (1 / 2), "Fac"⟩, ⟨"Shader", .shader, .nothing, "Shader"⟩,
          ⟨"Shader", .shader, .nothing, "Shader_001"⟩]
        outputs := #[⟨"Shader", .shader, .nothing, "Shader"⟩] },
      { id := NodeTree.outputId, name := "Output", type := "", settings := [], image := none
        inputs := #[⟨"Surface", .shader, .nothing, "Surface"⟩]
        outputs := #[] }]
  links := [⟨0, 0, 2, 0, true⟩, ⟨1, 0, 2, 1, true⟩, ⟨2, 0, 3, 0, true⟩, ⟨3, 0, 4, 0, true⟩]

/-- A session with the picture. -/
def tintedSession : Session ℚ where
  scene := { images := #[{ name := "Picture", path := "/art/picture.png" }] }
  files := [("/art/picture.png", "picture")]

theorem tintedTree_wellFormed : tintedTree.WellFormed tintedSession.scene.version := by
  refine ⟨fun n hn => ?_, ⟨by decide +kernel, by decide +kernel, by decide⟩,
    NodeTree.acyclic_of_rank id (by decide), by decide, by decide +kernel⟩
  simp only [tintedTree, mem_toArray, mem_cons, not_mem_nil, or_false] at hn
  rcases hn with rfl | rfl | rfl | rfl | rfl
  · exact .of_rule rfl (by decide) (by decide) ⟨_, rfl⟩
      ⟨by decide +kernel, by simp [NodeRule.Suits, ShaderNode.IsValue]⟩
  · exact .of_rule rfl (by decide) (by decide) ⟨_, rfl⟩
      ⟨by decide +kernel, by simp [NodeRule.Suits, ShaderNode.IsValue]⟩
  · exact .of_rule rfl (by decide) (by decide) ⟨_, rfl⟩
      ⟨by decide +kernel, by simp [ShaderNode.IsValue], _, rfl⟩
  · exact .of_rule rfl (by decide) (by decide) ⟨_, rfl⟩ ⟨by decide +kernel, rfl, rfl, rfl⟩
  · exact .of_ending rfl (by decide) rfl (by decide +kernel)

/-- The number ends the export, though the picture could be placed. -/
theorem exportShader_fails_tinted :
    tintedTree.complaint? tintedSession.scene.version "Tinted" = some (.unmet "") ∧
      ∃ s', exportShader {} 0 "Tinted" tintedTree tintedSession = .error (.unmet "") s' := by
  have hcompl : tintedTree.complaint? tintedSession.scene.version "Tinted" = some (.unmet "") := by
    decide +kernel
  have himag : ImagesPlaced {} tintedTree tintedSession.scene.images
    ["/art/picture.png", "/Picture.png"] := by
    intro n hn k hk
    simp only [tintedTree, mem_toArray, mem_cons, not_mem_nil, or_false] at hn
    rcases hn with rfl | rfl | rfl | rfl | rfl <;> cases hk
    exact ⟨_, rfl, .inr (by decide +kernel), by decide +kernel⟩
  obtain ⟨-, hfails, -⟩ := exportShader_fails_iff {} 0 "Tinted" tintedTree_wellFormed rfl
    (by simp [FileStore.Within, tintedSession]) himag
  exact ⟨hcompl, (hfails (.unmet "")).2 hcompl⟩

end ExportM

end SceneExport
