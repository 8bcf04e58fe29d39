import SceneExport.Proofs.Export.Resources
import SceneExport.Proofs.File.References
import SceneExport.Proofs.File.Table

/-!
# References of materials

A material is looked up among those of the project or made: a shader material refers to its shader
and to the textures of its shader, a spatial material refers to nothing.  Either way what
`exportMaterial` gives can be referred to from then on, and the ledger of the file stays sound
(`exportMaterial_leads`).

A shader material that turns out not to be supported is given up, but its textures and its shader
stay in the file.  So of what leads there it is also shown that the ledger is sound if it fails
(`shaderMaterial_maintains`).
-/

namespace SceneExport

open List

variable {α β γ : Type}

instance : Quiet (Session.ledger : Session α → Ledger α) where

/-! ### Spatial materials -/

theorem Value.plain_ofSocket [Scalar α] (v : SocketValue α) : (Value.ofSocket v).Plain := by
  cases v <;> rfl

variable (cfg : Settings) (object : ObjectId) (id : MaterialId) (shown : String)
  (key : ExternalKey α) (path type : String) (r : Resource α) (s : Session α) (name : String)
  (tree : NodeTree α) (m : Material α) (value : String → Except Failure (SocketValue α))

section Spatial

variable [Scalar α] (v : SocketValue α)

open Outcome

theorem SocketValue.gammaCorrected_plain : Gives Value.Plain v.gammaCorrected := by
  unfold SocketValue.gammaCorrected
  split
  · exact .pure (Value.plain_ofChannel _)
  · exact .skip fun components => .skip fun color => .pure rfl

theorem SocketValue.hundredth_plain : Gives Value.Plain v.hundredth := by
  unfold SocketValue.hundredth
  split
  · exact .pure rfl
  · exact .skip fun quantity => .skip fun x => .pure rfl

namespace SpatialMaterial

theorem principled_plain : Gives Record.Plain (principled value) := by
  unfold principled
  extract_lets positive
  refine .skip fun color => .skip fun components => .skip fun base => .skip fun opacity => ?_
  refine .skip fun alpha => .skip fun metallic => .skip fun specular => .skip fun roughness => ?_
  refine .skip fun anisotropic => .skip fun anisotropy => .skip fun clearcoat => .skip fun coat =>
    ?_
  refine .skip fun gloss => .skip fun quantity => .skip fun coatRoughness => .skip fun emission =>
    ?_
  refine .skip fun glows => .bind (emission.gammaCorrected_plain) fun light hlight => ?_
  refine .skip fun subsurface => .skip fun scatter => .pure ?_
  have halbe : (Value.rgba (base.toList.map .real ++ [.ofSocket opacity])).Plain := by
    refine Value.allReferences_eq_nil fun v hv => ?_
    rcases mem_append.1 hv with hv | hv
    · exact Value.plain_reals v hv
    · rw [mem_singleton.1 hv]
      exact Value.plain_ofSocket _
  simp only [Record.Plain, forall_mem_cons, not_mem_nil, false_implies, implies_true,
    and_true, Value.plain_ofSocket, halbe, hlight, true_and]
  exact ⟨rfl, rfl, rfl, rfl, rfl, rfl, rfl⟩

theorem emissive_plain : Gives Record.Plain (emissive value) := by
  refine .skip fun strength => .bind strength.hundredth_plain fun energy hener => ?_
  refine .skip fun color => .bind color.gammaCorrected_plain fun light hlight => .pure ?_
  simp only [Record.Plain, forall_mem_cons, not_mem_nil, false_implies, implies_true, and_true,
    hener, hlight]
  rfl

theorem diffuse_plain : Gives Record.Plain (diffuse value) := by
  refine .skip fun color => .skip fun corrected => .skip fun roughness => ?_
  refine .bind roughness.gammaCorrected_plain fun albedo halbe => .pure fun p hp => ?_
  rw [mem_singleton.1 hp]
  exact halbe

theorem ofNode_plain {n : ShaderNode α} : Gives Record.Plain (ofNode n) := by
  unfold ofNode
  extract_lets value
  split
  · exact principled_plain _
  · exact emissive_plain _
  · exact diffuse_plain _
  · exact .pure (forall_mem_nil _)

theorem basic_plain : Gives Record.Plain (basic m) := by
  refine .skip fun albedo => .pure ?_
  simp only [Record.Plain, forall_mem_cons, not_mem_nil, false_implies, implies_true, and_true]
  exact ⟨rfl, rfl, rfl, rfl⟩

theorem properties_plain : Leads (fun _ => True) (properties m) fun r _ => r.Plain := by
  refine .bind .liftLogged fun start => .of_fact fun hb => ?_
  have hst : start.Plain := basic_plain m start hb
  split
  · exact .pure fun _ _ => hst
  · refine .bind .liftLogged fun node => .of_fact fun _ => ?_
    split
    · exact .bind (Q := fun _ _ => True) (fun _ _ _ _ _ => trivial) fun _ => .pure fun _ _ => hst
    · refine .bind .liftLogged fun more => .of_fact fun hmore => .pure fun _ _ => ?_
      exact hst.setAll (ofNode_plain more hmore)

theorem resource_plain : Leads (fun _ => True) (resource name m) fun r _ =>
    r.PlainOf ["SpatialMaterial"] := by
  refine .bind (properties_plain m) fun more => .pure fun _ hmore => ?_
  exact Resource.plainOf_ofType.foldl_set hmore

end SpatialMaterial

end Spatial

/-- What a computation gives is known, and it leaves a quiet view as it is. -/
theorem Leads.quietly {view : Session α → γ} [Quiet view] {P : γ → Prop} {kind : β → Prop}
    {step : Logged β} (h : Leads (fun _ => True) step fun b _ => kind b) :
    ExportM.Gets view P (liftM step : ExportM α β) fun b _ => kind b := by
  intro s hs b s' hr
  exact ⟨(ExportM.liftLogged_keeps step).leads P s hs b s' hr, Leads.ofLogged h s trivial b s' hr⟩

namespace ExportM

open Ledger
open Session (ledger)

variable {base : Ledger α}

/-! ### Tables -/

/-- What a look-up finds stands under an equal key. -/
theorem lookup_mem {κ : Type} [BEq κ] {xs : List (κ × β)} {key : κ} {b : β}
    (h : b ∈ xs.lookup key) : ∃ key', (key == key') = true ∧ (key', b) ∈ xs := by
  induction xs with
  | nil => cases h
  | cons x xs ih =>
    rw [lookup_cons] at h
    split at h
    · next hx =>
      cases h
      exact ⟨x.1, hx, mem_cons_self⟩
    · obtain ⟨key', hk, hm⟩ := ih h
      exact ⟨key', hk, mem_cons_of_mem _ hm⟩

theorem length_entries : s.ledger.entries.length = s.file.internal.items.size := by
  simp [Session.ledger, SceneFile.ledger]

theorem ledger_extended [Scalar α] (key : Option (InternalKey α)) (r : Resource α) :
    Session.ledger { s with file := { s.file with
        internal := s.file.internal.extended ⟨key, r.numbered⟩ } }
      = s.ledger.add key (r.numbered (s.ledger.entries.length + 1)).entry := by
  rw [length_entries]
  simp [Session.ledger, SceneFile.ledger, ResourceTable.extended, Ledger.add]

variable [Scalar α] {l : Ledger α}

theorem forceInternal_leads (types : List String) :
    Brings ledger (base.With (·.Fits types r)) (forceInternal r) fun n =>
    base.With (·.IsA n types) := by
  intro s hs n s' h
  obtain ⟨rfl, rfl⟩ : n = s.ledger.entries.length + 1 ∧ s' = { s with file := { s.file with
      internal := s.file.internal.extended ⟨none, r.numbered⟩ } } := by
    cases h
    simp [length_entries, ResourceTable.extended]
  rw [ledger_extended]
  exact hs.add (by simp)

theorem addInternal_cases (key : InternalKey α) (r : Resource α) (s : Session α) :
    (∃ e, addInternal key r s = .error e s) ∨
      addInternal key r s = .ok (s.ledger.entries.length + 1) { s with file := { s.file with
        internal := s.file.internal.extended ⟨some key, r.numbered⟩ } } := by
  rw [addInternal_apply, ResourceTable.add_eq, length_entries]
  rcases s.file.internal.give?_cases ⟨some key, r.numbered⟩ with ⟨-, h⟩ | ⟨-, h⟩
  · exact .inl ⟨_, by rw [h]⟩
  · exact .inr (by rw [h])

theorem addInternal_leads (key : InternalKey α) (r : Resource α) :
    Brings ledger (base.With (·.Fits key.types r)) (addInternal key r) fun n =>
    base.With (·.IsA n key.types) := by
  intro s hs n s' h
  rcases addInternal_cases key r s with ⟨e, he⟩ | hr
  · cases h.symm.trans he
  · cases h.symm.trans hr
    show base.With _ (Session.ledger _)
    rw [ledger_extended]
    exact hs.add (by simp)

/-- A resource that refers to nothing can be tried at any time. -/
theorem addInternal_maintains {key : InternalKey α} {r : Resource α} (h : r.PlainOf key.types) :
    Maintains (fun s => base.Grown s.ledger) (addInternal key r) := by
  intro s hs
  rcases addInternal_cases key r s with ⟨e, he⟩ | hr
  · rw [he]
    exact hs
  · have hadd : base.With _ _ := addInternal_leads key r s ⟨hs, fits_of_plain h⟩ _ _ hr
    rw [hr]
    exact hadd.grown

theorem findInternal?_leads (key : InternalKey α) :
    Brings ledger base.Grown (findInternal? key) fun found =>
    base.With (·.Finds found key.types) := by
  intro s hs found s' h
  cases h
  refine ⟨hs, fun n hn => ?_⟩
  -- The key found need not be the key asked for, but keys that count as the same ask for the same
  -- types.
  obtain ⟨key', hsame, hmem⟩ := lookup_mem hn
  rw [InternalKey.types_of_same hsame]
  exact hs.sound.numbers key' n hmem

theorem addExternal_cases : (∃ e, addExternal key path type s = .error e s) ∨
      ∃ s', addExternal key path type s = .ok (s.ledger.files + 1) s' ∧ s'.ledger = s.ledger.addFile
      key := by
  rw [addExternal_apply, ResourceTable.add_eq]
  rcases s.file.external.give?_cases ⟨some key, numberedExternal path type⟩ with ⟨-, h⟩ | ⟨-, h⟩
  · exact .inl ⟨_, by rw [h]⟩
  · refine .inr ⟨_, by rw [h]; rfl, ?_⟩
    simp [Session.ledger, SceneFile.ledger, ResourceTable.extended, Ledger.addFile]

theorem addExternal_leads : Brings ledger base.Grown (addExternal key path type) fun n =>
    base.With (·.IsFile n) := by
  intro s hs n s' h
  rcases addExternal_cases key path type s with ⟨e, he⟩ | ⟨t, hr, ht⟩
  · cases h.symm.trans he
  · cases h.symm.trans hr
    rw [ht]
    refine ⟨⟨hs.sound.addFile key, hs.extension.trans (extends_addFile _)⟩, ?_⟩
    exact ⟨Nat.succ_pos _, Nat.le_refl _⟩

theorem addExternal_maintains : Maintains (fun s => base.Grown s.ledger)
    (addExternal key path type) := by
  intro s hs
  rcases addExternal_cases key path type s with ⟨e, he⟩ | ⟨t, hr, ht⟩
  · rw [he]
    exact hs
  · have hadd : base.With _ _ := addExternal_leads key path type s hs _ _ hr
    rw [hr]
    exact hadd.grown

theorem findExternal?_sound (hl : l.Sound) (key : ExternalKey α) :
    Gets ledger (· = l) (findExternal? key) fun found _ => ∀ n ∈ found, l.IsFile n := by
  rintro s rfl found s' h
  cases h
  refine ⟨rfl, fun n hn => ?_⟩
  obtain ⟨key', -, hmem⟩ := lookup_mem hn
  exact hl.fileNumbers key' n hmem

theorem findExternal?_leads : Brings ledger base.Grown (findExternal? key) fun found =>
      base.With (fun l => ∀ n ∈ found, l.IsFile n) := by
  intro s hs found s' h
  obtain ⟨he, hfnd⟩ := findExternal?_sound hs.sound key s rfl found s' h
  rw [he]
  exact ⟨hs, hfnd⟩

/-! ### Shaders -/

theorem exportTexture_maintains {id : ImageId} :
    Maintains (fun s => base.Grown s.ledger) (exportTexture cfg id) := by
  unfold exportTexture
  refine .bind (.of_keeps findExternal?_keeps) fun found => ?_
  split
  · exact .of_keeps .pure
  · refine .bind (.of_keeps image_keeps) fun i => ?_
    exact .bind (.of_keeps placeImage_keeps) fun _ => addExternal_maintains _ _ _

theorem exportShader_maintains : Maintains (fun s => base.Grown s.ledger)
    (exportShader cfg id name tree) := by
  unfold exportShader
  refine .bind (.of_keeps findInternal?_keeps) fun found => ?_
  extract_lets rest
  -- A shader can be refused half-way, after its textures are in the file, so soundness is asked of
  -- failures too.
  have hr : ∀ r, Maintains (fun s => base.Grown s.ledger) (rest r) := by
    intro _
    refine .bind (.of_keeps .get) fun s => .bind (.of_keeps (liftLogged_keeps _)) fun script => ?_
    split
    · exact .of_keeps .throw
    · refine .bind (.forIn (fun i _ => ?_) _ _) fun _ => ?_
      · exact .bind (exportTexture_maintains _) fun _ => .of_keeps .pure
      · refine .bind (addInternal_maintains ?_) fun _ => .of_keeps .pure
        exact Resource.plainOf_ofType
  split
  · refine .bind (.of_keeps .get) fun s => ?_
    split
    · exact .of_keeps .pure
    · exact .bind (.of_keeps .throw) hr
  · exact hr ()

theorem exportShader_leads :
    Brings ledger base.Grown (exportShader cfg id name tree) fun x =>
    base.With (·.IsA x.1 ["Shader"]) := by
  unfold exportShader
  refine .bind (findInternal?_leads _) fun found => ?_
  extract_lets rest
  have hr : ∀ r, Brings ledger base.Grown (rest r) fun x => base.With (·.IsA x.1 ["Shader"]) := by
    intro _
    refine .keeping .get fun s => .keeping (liftLogged_keeps _) fun script => ?_
    split
    · exact .throw
    · refine .bind (.forIn (fun _ (s : Session α) => base.Grown s.ledger) (fun i _ => ?_) _ _)
        fun _ => ?_
      · exact .bind (exportTexture_maintains _).leads fun _ => .done
      · refine .bind ((addInternal_leads (.shader id) _).pre
          (fun s hs => ⟨hs, Ledger.fits_of_plain Resource.plainOf_ofType⟩)) fun number =>
          .pure fun _ h => h
  split
  · refine .keeping .get fun s => ?_
    split
    · exact .pure fun _ h => ⟨h.grown, h.fact _ rfl⟩
    · exact .bind (Q := fun _ s => base.Grown s.ledger) .throw hr
  · exact (hr ()).pre (fun _ h => h.grown)

theorem textureParameters_leads (hl : l.Sound) (script : ShaderScript) :
    Gets ledger (· = l) (textureParameters script) fun ps _ => ∀ p ∈ ps, ∀ r ∈ p.2.references, ∃ n,
    r = .external n ∧ l.IsFile n := by
  refine .mapM_all (fun x => ?_)
  obtain ⟨image, name⟩ := x
  refine .bind (findExternal?_sound hl _) fun found => .of_fact fun hfnd => ?_
  refine .bind .lift fun number => .of_fact fun hn => .pure fun s hs => ⟨hs, fun r hr => ?_⟩
  exact ⟨number, mem_singleton.1 hr, hfnd number (need_ok hn)⟩

/-! ### Materials -/

theorem shaderMaterial_maintains : Maintains (fun s => base.Grown s.ledger)
      (shaderMaterial cfg object id shown name tree) := by
  refine .bind (exportShader_maintains _ _ _ _) fun x => ?_
  refine .bind (.of_keeps (object_keeps _)) fun o => .bind (.of_keeps .lift) fun bounds => ?_
  exact .bind (.of_keeps textureParameters_keeps) fun _ => .of_keeps .pure

omit [Scalar α] in
theorem boundingParameters_plain [Scalar α] (o : Object α) (script : ShaderScript) :
    Outcome.Gives Record.Plain (boundingParameters o script) := by
  unfold boundingParameters
  split
  · refine .skip fun box => .pure ?_
    simp only [Record.Plain, forall_mem_cons, not_mem_nil, false_implies, implies_true, and_true]
    exact ⟨rfl, rfl⟩
  · exact .pure (forall_mem_nil _)

theorem shaderMaterial_leads :
    Brings ledger base.Grown (shaderMaterial cfg object id shown name tree) fun r =>
      base.With (·.Fits materialTypes r) := by
  refine .bind (exportShader_leads _ _ _ _) fun x => ?_
  refine .keeping (object_keeps _) fun o => .bind .lift fun bounds => .of_fact fun hboun => ?_
  -- From here on the ledger stays the same.
  intro s hs r s' h
  obtain ⟨textures, s1, htex, h1⟩ := bind_ok h
  obtain ⟨he, hfiles⟩ := textureParameters_leads hs.grown.sound x.2 s rfl textures s1 htex
  cases h1
  rw [he]
  have hst : s.ledger.Fits ["ShaderMaterial"] (.ofType "ShaderMaterial" shown .plain) :=
    s.ledger.fits_of_plain Resource.plainOf_ofType
  refine ⟨hs.grown, (hst.foldl_set Prod.fst Prod.snd fun p hp ref href => ?_).weaken (by decide)⟩
  -- The parameters are the shader itself, the bounding box, and the textures.
  rcases mem_append.1 hp with hp | hp
  · rcases mem_append.1 hp with hp | hp
    · cases mem_singleton.1 hp
      rw [mem_singleton.1 href]
      exact hs.fact
    · rw [show p.2.references = [] from boundingParameters_plain o x.2 bounds hboun p hp] at href
      cases href
  · obtain ⟨n, rfl, hn⟩ := hfiles p hp ref href
    exact hn

theorem materialResource_leads :
    Brings ledger base.Grown (materialResource cfg object id m) fun r =>
    base.With (·.Fits materialTypes r) := by
  have hspat {r : Resource α} (h : r.PlainOf ["SpatialMaterial"]) (l : Ledger α) :
    l.Fits materialTypes r :=
    l.fits_of_plain (h.weaken (by decide))
  refine .keeping .get fun s => ?_
  split
  · refine .orUnsupported (shaderMaterial_leads _ _ _ _ _ _) (shaderMaterial_maintains _ _ _ _ _ _)
      fun reason => ?_
    refine .bind (.quietly (SpatialMaterial.resource_plain _ _)) fun r => .of_fact fun hr => ?_
    exact .keeping say_keeps fun _ => .pure fun s hs => ⟨hs, hspat hr _⟩
  · exact (Leads.quietly (SpatialMaterial.resource_plain _ _)).post fun r s h => ⟨h.1, hspat h.2 _⟩

theorem exportMaterial_leads : Brings ledger base.Grown (exportMaterial cfg object id) fun r =>
      base.With (·.Allows materialTypes r) := by
  refine .keeping material_keeps fun m => .keeping (findMaterial?_keeps _) fun found => ?_
  split
  · refine .bind (findExternal?_leads _) fun number => ?_
    split
    · exact .pure fun _ h => ⟨h.grown, h.fact _ rfl⟩
    · refine .bind ((addExternal_leads _ _ _).pre (fun _ h => h.grown)) fun number => ?_
      exact .pure fun _ h => ⟨h.grown, h.fact⟩
  · refine .bind (materialResource_leads _ _ _ _) fun r => ?_
    refine .bind (addInternal_leads (.material object id) r) fun number => ?_
    exact .pure fun _ h => ⟨h.grown, h.fact⟩

omit [Scalar α] in
/-- What stays true while a ledger grows is true after a step that lets it grow. -/
theorem carrying {step : ExportM α β} {T : β → Ledger α → Prop} {F : Ledger α → Prop}
    (h : ∀ base : Ledger α, Brings ledger base.Grown step fun b => base.With (T b))
    (hF : ∀ {l l' : Ledger α}, F l → l.Extends l' → F l') :
    Brings ledger (base.With F) step fun b => base.With (fun l => F l ∧ T b l) := by
  intro s hs b s' hr
  have hstep := h s.ledger s hs.grown.sound.grown b s' hr
  exact ⟨hs.grown.trans hstep.grown, hF hs.fact hstep.grown.extension, hstep.fact⟩

end ExportM

end SceneExport
