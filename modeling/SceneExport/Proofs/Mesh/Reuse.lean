import SceneExport.Proofs.File.Table
import SceneExport.Proofs.Mesh.Evaluated
import SceneExport.Proofs.Mesh.Skin

/-!
# Shared meshes

An object is given the mesh that was made for another one if their keys are equal.  A key says which
mesh an object shows and which modifiers are applied to it, but not which bones its vertex groups
stand for (`Scene.skin`), nor which materials it has.  So a mesh is shared rightly by objects whose
skins pull alike, and wrongly by those that follow different bones (`exportSkinnedMesh_shared`).
-/

namespace SceneExport

open List
open Session (shown)

variable {α : Type}

/-! ### Resources without materials -/

/-- A value; if it is a surface, without its material. -/
def Value.unpainted : Value α → Value α
  | .surface s => .surface s.unpainted
  | v => v

/-- A resource whose surfaces have no materials. -/
def Resource.unpainted (r : Resource α) : Resource α :=
  { r with entry.properties := r.entry.properties.map fun p => (p.1, p.2.unpainted) }

theorem Record.map_set {β γ : Type} (f : β → γ) (r : Record β) (name : String) (value : β) :
    (r.set name value).map (fun p => (p.1, f p.2)) =
      Record.set (r.map fun p => (p.1, f p.2)) name (f value) := by
  induction r with
  | nil => rfl
  | cons p rest ih =>
    obtain ⟨n, v⟩ := p
    by_cases hn : n = name
    · simp [Record.set, hn]
    · simpa [Record.set, hn] using ih

theorem Resource.unpainted_set (r : Resource α) (name : String) (value : Value α) :
    (r.set name value).unpainted = r.unpainted.set name value.unpainted := by
  simp [set, Entry.set, unpainted, Record.map_set]

theorem Resource.unpainted_foldl_set {β : Type} (name : β → String) (value : β → Value α)
    (xs : List β) (r : Resource α) : (xs.foldl (fun r x => r.set (name x) (value x)) r).unpainted =
      xs.foldl (fun r x => r.set (name x) (value x).unpainted) r.unpainted := by
  induction xs generalizing r with
  | nil => rfl
  | cons x xs ih => rw [foldl_cons, ih, unpainted_set, foldl_cons]

variable [Scalar α] {bones bones' : GroupBones} {cfg : Settings} {id : ObjectId} {m : Mesh α}
  {o : Object α} {s s' : Session α} {key : MeshKey α} {given : Option Nat}

theorem Mesh.SameBones.of_ready (h : m.ready.SameBones bones bones') : m.SameBones bones
    bones' := by
  unfold Mesh.ready at h
  split at h
  · exact h
  · exact h

theorem Mesh.SkinnedAlike.ready (h : m.SkinnedAlike bones bones') : m.ready.SkinnedAlike bones
    bones' :=
  ⟨h.isEmpty, fun v hv => h.influences v (m.vertices_ready ▸ hv)⟩

namespace ExportM

omit [Scalar α] in
theorem unpainted_assembled (name : String) (places : List (Int × Nat))
    (keys : Option (ShapeKeys α)) (surfaces : List (Surface α)) :
    (assembled name places keys surfaces).unpainted =
      assembled name places keys (surfaces.map Surface.unpainted) := by
  rw [assembled, Resource.unpainted_foldl_set, Resource.unpainted_foldl_set, assembled, foldl_map]
  cases keys <;> rfl

/-! ### Meshes of two objects -/

omit [Scalar α] in
theorem exportedKeys?_of_shown (cfg : Settings) (ho : s.scene.object id = .ok o)
    {m? data? : Option (Mesh α)} (hs : s.shown id = some (m?, data?)) :
    exportedKeys? cfg s o = (data?.bind Mesh.shapeKeys).filter fun _ =>
    cfg.exportShapeKeys := by
  rw [shown, need_ok ho] at hs
  obtain ⟨-, hdata⟩ := Prod.mk.inj (Option.some.inj hs)
  rw [exportedKeys?, Scene.shapeKeys?, hdata]

variable {r : Resource α}

section Alike

variable {id' : ObjectId} {m0 : Mesh α} {data? : Option (Mesh α)} {tangents : Bool}
  {t t' : Session α}

variable (h0 : m0.SkinnedAlike bones bones') {split split' : MeshSplit α}
include h0

theorem exportMorph_alike (hsplit : split.unpainted = split'.unpainted) {key : Nat}
    {shapes shapes' : Array (Array (Option (Vertex α)))} (hs : s.shown id = some (some m0, data?))
    (ht : t.shown id' = some (some m0, data?))
    (h : exportMorph cfg id split bones tangents key s = .ok shapes s')
    (h' : exportMorph cfg id' split' bones' tangents key t = .ok shapes' t') : shapes =
    shapes' := by
  obtain ⟨⟨mesh?, e⟩, s1, he, h⟩ := bind_ok h
  obtain ⟨⟨mesh?', e'⟩, t1, he', h'⟩ := bind_ok h'
  obtain ⟨shape, hshp, hmesh, -⟩ := Prepares.of_some (evaluate_leads s hs _ _ he)
  obtain ⟨shape', hshp', hmesh', -⟩ := Prepares.of_some (evaluate_leads t ht _ _ he')
  cases hshp.symm.trans hshp'
  cases hmesh
  cases hmesh'
  obtain ⟨_, hneed, h⟩ := lift_bind_ok h
  obtain ⟨_, hneed', h'⟩ := lift_bind_ok h'
  cases need_ok hneed
  cases need_ok hneed'
  obtain ⟨morph, s2, hmorph, h⟩ := bind_ok h
  obtain ⟨morph', t2, hmorph', h'⟩ := bind_ok h'
  have heq := Agree.ofLogged (MeshSplit.morph_agree (h0.inShape hshp).ready tangents hsplit)
    s1 t1 morph morph' s2 t2 hmorph hmorph'
  obtain ⟨_, _, -, h⟩ := bind_ok h
  obtain ⟨_, _, -, h'⟩ := bind_ok h'
  cases h
  cases h'
  exact heq

theorem morphs_alike (hsplit : split.unpainted = split'.unpainted)
    {keys : List (ShapeKey α × Nat)} {morphs morphs' : List (Array (Array (Option (Vertex α))))}
    (hs : s.shown id = some (some m0, data?)) (ht : t.shown id' = some (some m0, data?))
    (h : keys.mapM (fun k => exportMorph cfg id split bones tangents k.2) s = .ok morphs s')
    (h' : keys.mapM (fun k => exportMorph cfg id' split' bones' tangents k.2) t
      = .ok morphs' t') : morphs = morphs' := by
  induction keys generalizing s t morphs morphs' with
  | nil =>
    cases h
    cases h'
    rfl
  | cons key keys ih =>
    rw [mapM_cons] at h h'
    obtain ⟨shapes, s1, hshps, h⟩ := bind_ok h
    obtain ⟨shapes', t1, hshps', h'⟩ := bind_ok h'
    obtain ⟨rest, s2, hrest, h⟩ := bind_ok h
    obtain ⟨rest', t2, hrest', h'⟩ := bind_ok h'
    cases h
    cases h'
    have hs1 : s1.shown id = s.shown id := (exportMorph_keeps _ _ : Keeps false (shown id) _).ok
      hshps
    have ht1 : t1.shown id' = t.shown id' := (exportMorph_keeps _ _ : Keeps false (shown id') _).ok
      hshps'
    rw [exportMorph_alike h0 hsplit hs ht hshps hshps', ih (hs1.trans hs) (ht1.trans ht) hrest
      hrest']

/-- **Mesh resources of objects that are skinned alike differ in their materials only.** -/
theorem meshResource_alike (hm : m.SkinnedAlike bones bones') {r' : Resource α}
    (hs : s.shown id = some (some m0, data?)) (ht : t.shown id' = some (some m0, data?))
    (h : meshResource cfg id m bones tangents s = .ok r s')
    (h' : meshResource cfg id' m bones' tangents t = .ok r' t') : r.unpainted =
    r'.unpainted := by
  obtain ⟨split, s1, o, morphs, hsplit, ho, hmorp, rfl⟩ := meshResource_ok h
  obtain ⟨split', t1, o', morphs', hsplit', ho', hmorp', rfl⟩ := meshResource_ok h'
  have halike := splitMesh_agree hm tangents cfg cfg id id' s t split split' s1 t1
    hsplit hsplit'
  have hs1 : s1.shown id = s.shown id := (splitMesh_keeps _ _ : Keeps false (shown id) _).ok hsplit
  have ht1 : t1.shown id' = t.shown id' := (splitMesh_keeps _ _ : Keeps false (shown id') _).ok
    hsplit'
  rw [hs] at hs1
  rw [ht] at ht1
  -- Both objects have the shape keys of the one mesh, so they have the same morph targets.
  have hkeys := exportedKeys?_of_shown cfg ho hs1
  have hkeys' := exportedKeys?_of_shown cfg ho' ht1
  rw [exportedMorphs, hkeys] at hmorp
  rw [exportedMorphs, hkeys'] at hmorp'
  have hsame := morphs_alike h0 halike hs1 ht1 hmorp hmorp'
  have hplac : split.unpainted.places = split'.unpainted.places := congrArg MeshSplit.places halike
  change split.places = split'.places at hplac
  rw [unpainted_assembled, unpainted_assembled, hkeys, hkeys', MeshSplit.map_unpainted_finish,
    MeshSplit.map_unpainted_finish, halike, hsame, hplac, hm.isEmpty]

end Alike

omit [Scalar α] in
/-- A mesh resource tells which surfaces it has, and in which order. -/
theorem assembled_inj {name name' : String} {places places' : List (Int × Nat)}
    {keys keys' : Option (ShapeKeys α)} {xs ys : List (Surface α)}
    (hx : ∀ (i : Nat) x, xs[i]? = some x → x.index = i)
    (hy : ∀ (i : Nat) y, ys[i]? = some y → y.index = i)
    (h : assembled name places keys xs = assembled name' places' keys' ys) : xs = ys := by
  have hmem (x : Surface α) : x ∈ xs ↔ x ∈ ys := by
    have hget : x ∈ xs ∧ x.propertyName = x.propertyName ↔ x ∈ ys ∧
      x.propertyName = x.propertyName := by
      -- The property of a surface is named after its number, so no surface overwrites another.
      rw [← assembled_surface hx, ← assembled_surface hy, h]
    simpa using hget
  -- A surface has the same number, and so the same place, in both lists.
  have hplc {i j : Nat} {x : Surface α} (hi : xs[i]? = some x) (hj : ys[j]? = some x) : i = j :=
    Int.ofNat.inj ((hx i x hi).symm.trans (hy j x hj))
  refine ext_getElem? fun i => Option.ext fun x => ⟨fun hi => ?_, fun hi => ?_⟩
  · obtain ⟨j, hj⟩ := getElem?_of_mem ((hmem x).1 (mem_of_getElem? hi))
    rw [hplc hi hj, hj]
  · obtain ⟨j, hj⟩ := getElem?_of_mem ((hmem x).2 (mem_of_getElem? hi))
    rw [← hplc hj hi, hj]

/-- Mesh resources that differ in their materials only have the same bones at each corner. -/
theorem meshResource_sameBones {id id' : ObjectId} {tangents : Bool} {r' : Resource α}
    {t t' : Session α} (h : meshResource cfg id m bones tangents s = .ok r s')
    (h' : meshResource cfg id' m bones' tangents t = .ok r' t') (hb : bones.ToldApart α)
    (hb' : bones'.ToldApart α) (hr : r.unpainted = r'.unpainted) : m.SameBones bones bones' := by
  obtain ⟨split, s1, o, morphs, hsplit, -, -, rfl⟩ := meshResource_ok h
  obtain ⟨split', t1, o', morphs', hsplit', -, -, rfl⟩ := meshResource_ok h'
  have hinto := (splitMesh_deals cfg id s trivial split s1 hsplit).splitInto morphs
    (!bones.isEmpty)
  have hinto' :=
    (splitMesh_deals cfg id' t trivial split' t1 hsplit').splitInto morphs' (!bones'.isEmpty)
  have hnumb {xs : List (Surface α)} (hx : ∀ (i : Nat) x, xs[i]? = some x → x.index = i)
      (i : Nat) (x : Surface α) (hi : (xs.map Surface.unpainted)[i]? = some x) : x.index = i := by
    rw [getElem?_map] at hi
    obtain ⟨y, hy, rfl⟩ := Option.map_eq_some_iff.1 hi
    exact hx i y hy
  rw [unpainted_assembled, unpainted_assembled] at hr
  have hsame := assembled_inj (hnumb hinto.numbered) (hnumb hinto'.numbered) hr
  have hbases := congrArg (List.map Surface.base) hsame
  rw [map_map, map_map] at hbases
  exact hinto.sameBones hinto' hbases hb hb'

/-! ### A mesh that is made -/

/-- A mesh that is added gets a number under which it is found, also by keys that are equal to its
own. -/
theorem addMesh_ok {n : Nat} (h : addInternal (.mesh key) r s = .ok n s') :
    s'.file.internal.get? n = some (r.numbered n) ∧ ∀ other, (other == key) = true →
      s.meshNumber? other = none → s'.meshNumber? other = some n := by
  obtain ⟨internal, hg, rfl⟩ := addInternal_ok h
  obtain ⟨-, rfl, rfl⟩ := ResourceTable.give?_some hg
  refine ⟨?_, fun other hoth hfree => ?_⟩
  · simp [ResourceTable.extended, ResourceTable.get?]
  · have hnew : s.file.internal.numbers.lookup (.mesh other) = none := hfree
    show List.lookup (.mesh other) (_ ++ [(InternalKey.mesh key, _)]) = _
    rw [lookup_append, hnew]
    -- The key of the new mesh is the last one, and the other key equals it.
    show List.lookup _ [(InternalKey.mesh key, _)] = _
    rw [lookup_cons, show (InternalKey.mesh other == .mesh key) = true from hoth]

theorem exportMesh_made (ho : s.scene.object id = .ok o)
    (hkey : MeshKey.ofObject cfg "ArrayMesh" id o = .ok key)
    (hfree : s.meshNumber? key = none) (h : exportMesh cfg id bones s = .ok given s') :
    ∃ mesh? e s1, evaluate cfg { object := some id } true true 0 s = .ok (mesh?, e) s1 ∧
      ((mesh?.all (·.faces.isEmpty) = true ∧ given = none) ∨ ∃ m r s2 n, mesh? = some m ∧
      m.faces.isEmpty = false ∧
          meshResource cfg id m bones e.hasTangents s1 = .ok r s2 ∧ given = some n ∧
          s'.file.internal.get? n = some (r.numbered n) ∧
          ∀ other, (other == key) = true → s.meshNumber? other = none →
            s'.meshNumber? other = some n) := by
  obtain ⟨o', ho', h0⟩ := look_ok object_ok h
  cases ho'.symm.trans (need_ok ho)
  obtain ⟨key', hkey', h1⟩ := lift_bind_ok h0
  obtain rfl : key = key' := Except.ok.inj (hkey.symm.trans hkey')
  obtain ⟨found, s1, hfnd, h2⟩ := bind_ok h1
  cases hfnd
  rw [show s.file.internal.find? (.mesh key) = none from hfree] at h2
  obtain ⟨⟨mesh?, e⟩, s2, he, h3⟩ := bind_ok h2
  refine ⟨mesh?, e, s2, he, ?_⟩
  cases mesh? with
  | none =>
    obtain ⟨_, _, hnone, h4⟩ := bind_ok h3
    cases hnone
    obtain ⟨_, _, -, h5⟩ := bind_ok h4
    cases h5
    exact .inl ⟨rfl, rfl⟩
  | some m =>
    dsimp only at h3
    cases hfaces : m.faces.isEmpty with
    | true =>
      rw [if_pos hfaces] at h3
      obtain ⟨_, _, hnone, h4⟩ := bind_ok h3
      cases hnone
      obtain ⟨_, _, -, h5⟩ := bind_ok h4
      cases h5
      exact .inl ⟨hfaces, rfl⟩
    | false =>
      rw [if_neg (by simp [hfaces])] at h3
      obtain ⟨r, s3, hr, h4⟩ := bind_ok h3
      obtain ⟨number, s4, hadd, h5⟩ := bind_ok h4
      obtain ⟨n, hn, rfl⟩ := map_ok hadd
      obtain ⟨_, s5, hrele, h6⟩ := bind_ok h5
      cases h6
      have hfile := (release_keeps _ : Keeps false Session.file _).ok hrele
      obtain ⟨hget, hnum⟩ := addMesh_ok hn
      refine .inr ⟨m, r, s3, n, rfl, hfaces, hr, rfl, by
        rw [hfile, hget], fun other hoth hnone => ?_⟩
      -- No mesh is added before this one.
      have hs2 : s2.meshNumber? other = s.meshNumber? other :=
        (evaluate_keeps _ _ _ _ _ : Keeps false (Session.meshNumber? other) _).ok he
      have hs3 : s3.meshNumber? other = s2.meshNumber? other :=
        (meshResource_keeps _ _ : Keeps false (Session.meshNumber? other) _).ok hr
      have hs4 := hnum other hoth (hs3.trans (hs2.trans hnone))
      rw [Session.meshNumber?, hfile]
      exact hs4

end ExportM

/-! ### Skins -/

/-- The object evaluates to one mesh, and its data are another one or the same. -/
def Object.Shows (o : Object α) (g data : MeshId) : Prop :=
  o.mesh = some g ∧ o.data = .mesh (some data)

/-- The bones that the vertex groups of an object stand for. -/
def Scene.skin (scene : Scene α) (cfg : Settings) (o : Object α) : Except Failure GroupBones :=
    do
  match ← if cfg.has .armature then o.armature? else pure none with
  | none => return []
  | some armature => return o.groupBones (← scene.boneNumbers cfg armature)

namespace ExportM

omit [Scalar α] in
theorem object_setPosition {armature id : ObjectId} {position : String}
    (ho : s.scene.object id = .ok o) (hdata : ∀ a, o.data ≠ .armature a)
    (h : setPosition armature position s = .ok () s') : s'.scene.object id = .ok o := by
  cases h
  show need _ ((s.scene.objects.modify armature _)[id]?) = _
  rw [Array.getElem?_modify, need_ok ho]
  split
  · rw [Option.map_some]
    split
    · next a ha => exact absurd ha (hdata a)
    · rfl
  · rfl

theorem exportSkinnedMesh_ok (ho : s.scene.object id = .ok o) (hdata : ∀ a, o.data ≠ .armature a)
    (h : exportSkinnedMesh cfg id s = .ok given s') :
    ∃ bones s0 s1, s.scene.skin cfg o = .ok bones ∧ s0.scene.object id = .ok o ∧
      s0.shown id = s.shown id ∧ s0.file = s.file ∧
      exportMesh cfg id bones s0 = .ok given s1 ∧ s'.file = s1.file := by
  obtain ⟨o', ho', h0⟩ := look_ok object_ok h
  cases ho'.symm.trans (need_ok ho)
  unfold Scene.skin
  cases hhas : cfg.has .armature with
  | false =>
    rw [hhas] at h0
    exact ⟨[], s, s', rfl, ho, rfl, rfl, h0, rfl⟩
  | true =>
    rw [hhas] at h0
    obtain ⟨armature?, harm, h1⟩ := lift_bind_ok h0
    rw [if_pos rfl, harm]
    cases armature? with
    | none => exact ⟨[], s, s', rfl, ho, rfl, rfl, h1, rfl⟩
    | some armature =>
      obtain ⟨_, _, hget, h2⟩ := bind_ok h1
      cases hget
      obtain ⟨numbers, hnums, h3⟩ := lift_bind_ok h2
      obtain ⟨_, -, h4⟩ := look_ok object_ok h3
      obtain ⟨_, -, h5⟩ := lift_bind_ok h4
      obtain ⟨_, s6, hrest, h6⟩ := bind_ok h5
      obtain ⟨result, s7, hmesh, h7⟩ := bind_ok h6
      obtain ⟨_, s8, hback, h8⟩ := bind_ok h7
      cases h8
      -- The armature is put to rest before the mesh is read, and back afterwards; neither touches
      -- the file.
      refine ⟨o.groupBones numbers, s6, s7, ?_, ?_, ?_, ?_, hmesh, ?_⟩
      · change (s.scene.boneNumbers cfg armature >>= fun numbers =>
          pure (o.groupBones numbers)) = _
        rw [hnums]
        rfl
      · exact object_setPosition ho hdata hrest
      · exact (setPosition_keeps _ : Keeps false (shown id) _).ok hrest
      · exact (setPosition_keeps _ : Keeps false Session.file _).ok hrest
      · exact (setPosition_keeps _ : Keeps false Session.file _).ok hback

/-- What an export of an object's mesh does if its key is free: the mesh gets a resource, unless it
has no faces. -/
theorem exportSkinnedMesh_made {g d : MeshId} (ho : s.scene.object id = .ok o) (hg : o.Shows g d)
    (hkey : MeshKey.ofObject cfg "ArrayMesh" id o = .ok key) (hfree : s.meshNumber? key = none)
    (h : exportSkinnedMesh cfg id s = .ok given s') :
    ∃ bones, s.scene.skin cfg o = .ok bones ∧
      ((given = none ∧ ∀ m0 m, s.scene.meshes[g]? = some m0 → m0.inShape 0 = .ok m →
          m.ready.faces.isEmpty = true) ∨
        ∃ m0 m s1 r s2 n, s.scene.meshes[g]? = some m0 ∧ m0.inShape 0 = .ok m ∧
          m.ready.faces.isEmpty = false ∧ s1.shown id = some (some m0, s.scene.meshes[d]?) ∧
          meshResource cfg id m.ready bones m.takesTangents s1 = .ok r s2 ∧ given = some n ∧
          s'.file.internal.get? n = some (r.numbered n) ∧
          ∀ other, (other == key) = true → s.meshNumber? other = none →
          s'.meshNumber? other = some n) := by
  have hdata : ∀ a, o.data ≠ .armature a := fun a ha => by cases hg.2.symm.trans ha
  obtain ⟨bones, s0, s1, hskin, ho0, hshown, hfile0, hmesh, hfile⟩ := exportSkinnedMesh_ok ho hdata
    h
  have hnum (k : MeshKey α) : s0.meshNumber? k = s.meshNumber? k := by
    rw [Session.meshNumber?, hfile0, Session.meshNumber?]
  have hs0 : s0.shown id = some (s.scene.meshes[g]?, s.scene.meshes[d]?) := by
    rw [hshown, shown, need_ok ho, Option.map_some, hg.1, Scene.dataMesh?_eq, hg.2]
    rfl
  obtain ⟨mesh?, e, s2, he, hmade⟩ := exportMesh_made ho0 hkey ((hnum key).trans hfree) hmesh
  have hprep := evaluate_leads s0 hs0 _ _ he
  refine ⟨bones, hskin, hmade.imp ?_ ?_⟩
  · rintro ⟨hemp, rfl⟩
    refine ⟨rfl, fun m0 m hm0 hm => ?_⟩
    rw [hm0] at hprep
    obtain ⟨m', hm', hmesh', -⟩ := Prepares.of_some hprep
    cases hm.symm.trans hm'
    cases hmesh'
    exact hemp
  · rintro ⟨m', r, s3, n, hsome, hfaces, hr, rfl, hget, hfinds⟩
    cases hm0 : s.scene.meshes[g]? with
    | none =>
      rw [hm0] at hprep
      obtain ⟨shape?, hshp, hnone, -⟩ := hprep
      cases hshp
      cases hsome.symm.trans hnone
    | some m0 =>
      rw [hm0] at hprep hs0
      obtain ⟨m, hm, hready, htang⟩ := Prepares.of_some hprep
      cases hsome.symm.trans hready
      rw [htang] at hr
      have hs2 : s2.shown id = s0.shown id :=
        (evaluate_keeps _ _ _ _ _ : Keeps false (shown id) _).ok he
      refine ⟨m0, m, s2, r, s3, n, rfl, hm, hfaces, hs2.trans hs0, hr, rfl, by rw [hfile, hget],
        fun other hoth hnone => ?_⟩
      rw [Session.meshNumber?, hfile]
      exact hfinds other hoth ((hnum other).trans hnone)

theorem geometry_of_key {type : String}
    (h : MeshKey.ofObject cfg type id o = .ok key) : key.geometry = o.geometry id := by
  obtain ⟨parts, -, h⟩ := Outcome.bind_ok h
  dsimp only at h
  split at h
  · cases h
  · cases h
    rfl

/-- **Which objects can share a mesh.**  Two objects evaluate to one mesh, and their keys are
equal.  Once the mesh of the first was exported, the key of the second finds it.  If the second were
exported to an empty file instead, its mesh would be the same but for its materials, provided that
the skins of the objects pull at the mesh alike.  It would not be the same if they had different
bones at some corner. -/
theorem exportSkinnedMesh_shared {cfg : Settings} {a b : ObjectId} {oa ob : Object α}
    {g d d' : MeshId} {keyA keyB : MeshKey α} {n : Nat} {given : Option Nat} {s s₁ t t₁ : Session α}
    (hoa : s.scene.object a = .ok oa) (hob : s.scene.object b = .ok ob) (hga : oa.Shows g d)
    (hgb : ob.Shows g d') (hka : MeshKey.ofObject cfg "ArrayMesh" a oa = .ok keyA)
    (hkb : MeshKey.ofObject cfg "ArrayMesh" b ob = .ok keyB) (hkeys : (keyB == keyA) = true)
    (hfa : s.meshNumber? keyA = none) (hfb : s.meshNumber? keyB = none)
    (ha : exportSkinnedMesh cfg a s = .ok (some n) s₁) (hscene : t.scene = s.scene)
    (hfile : t.file = {}) (hb : exportSkinnedMesh cfg b t = .ok given t₁) :
    s₁.meshNumber? keyB = some n ∧
      ∃ (m₀ m : Mesh α) (bones bones' : GroupBones) (r : Resource α) (k : Nat) (r' : Resource α),
      s.scene.meshes[g]? = some m₀ ∧ m₀.inShape 0 = .ok m ∧ s.scene.skin cfg oa = .ok bones ∧
      s.scene.skin cfg ob = .ok bones' ∧ s₁.file.internal.get? n = some (r.numbered n) ∧
      given = some k ∧ t₁.file.internal.get? k = some (r'.numbered k) ∧
      (m₀.SkinnedAlike bones bones' → r.unpainted = r'.unpainted) ∧
      (bones.ToldApart α → bones'.ToldApart α → r.unpainted = r'.unpainted → m.SameBones bones
      bones') := by
  -- Equal keys are keys of objects with the same data.
  have hd : d' = d := by
    have hgeom : keyB.geometry = keyA.geometry := by
      have hfst := (Bool.and_eq_true ..).mp ((Bool.and_eq_true ..).mp hkeys).1
      exact eq_of_beq hfst.1
    rw [geometry_of_key hka, geometry_of_key hkb, Object.geometry, Object.geometry, hga.2, hgb.2]
      at hgeom
    exact Geometry.mesh.inj hgeom
  subst hd
  have hfree : t.meshNumber? keyB = none := by
    rw [Session.meshNumber?, hfile]
    rfl
  obtain ⟨bones, hbns, ⟨hnone, -⟩ | hmade⟩ := exportSkinnedMesh_made hoa hga hka hfa ha
  · cases hnone
  obtain ⟨m₀, m, s₂, r, s₃, n', hm₀, hm, hfaces, hshown, hr, hn, hget, hfinds⟩ := hmade
  cases hn
  obtain ⟨bones', hbns', hmade'⟩ := exportSkinnedMesh_made (hscene ▸ hob) hgb hkb hfree hb
  rw [hscene] at hbns' hmade'
  obtain ⟨-, hemp⟩ | hmade' := hmade'
  · cases hfaces.symm.trans (hemp m₀ m hm₀ hm)
  obtain ⟨m₀', m', t₂, r', t₃, k, hm₀', hm', -, hshown', hr', hk, hget', -⟩ := hmade'
  cases hm₀.symm.trans hm₀'
  cases hm.symm.trans hm'
  refine ⟨hfinds keyB hkeys hfb, m₀, m, bones, bones', r, k, r', hm₀, hm, hbns, hbns', hget, hk,
    hget', fun halike => ?_, fun htold htold' hsame => ?_⟩
  · exact meshResource_alike halike (halike.inShape hm).ready hshown hshown' hr hr'
  · exact (meshResource_sameBones hr hr' htold htold' hsame).of_ready

/-! ### Sleeves -/

/-- A sleeve that follows a hand. -/
def sleeve : Mesh ℚ where
  name := "Sleeve"
  vertices := #[⟨[0, 0, 0], [(0, 1)]⟩, ⟨[1, 0, 0], [(0, 1)]⟩, ⟨[0, 0, 1], [(0, 1)]⟩]
  loops := #[⟨0, [0, 1, 0], [1, 0, 0], [0, 0, 1]⟩, ⟨1, [0, 1, 0], [1, 0, 0], [0, 0, 1]⟩,
    ⟨2, [0, 1, 0], [1, 0, 0], [0, 0, 1]⟩]
  triangles := [⟨[0, 1, 2], 0⟩]
  faces := [3]
  uvs := []
  colors := []
  materials := []
  shapeKeys := none

def arm (name : String) (bones : List String) : Object ℚ :=
  { Object.bare name .armature none with
    data := .armature { bones := (bones.map fun name =>
      { name, parent := none, length := 1, rest := .identity, basis := .identity
        pose := ⟨.identity, []⟩ }).toArray } }

/-- A sleeve that an arm is put into. -/
def sleeveOf (armature : ObjectId) : Object ℚ :=
  { Object.bare "Sleeve" .mesh none with
    mesh := some 0
    data := .mesh (some 0)
    vertexGroups := ["Hand", "Thumb"]
    modifiers := #[⟨"ARMATURE", .text "ARMATURE", .text "Armature", .flag true, .object armature,
      []⟩] }

/-- Three arms and a sleeve for each of them.  The hand is the first bone of two of them. -/
def wardrobe : Session ℚ where
  scene.objects := #[arm "Left" ["Hand", "Thumb"], arm "Right" ["Hand"],
    arm "Spare" ["Elbow", "Hand"], sleeveOf 0, sleeveOf 1, sleeveOf 2]
  scene.meshes := #[sleeve]

theorem skin_left : wardrobe.scene.skin {} (sleeveOf 0) = .ok [(0, 0), (1, 1)] := by
  rfl

theorem skin_right : wardrobe.scene.skin {} (sleeveOf 1) = .ok [(0, 0)] := by
  rfl

theorem skin_spare : wardrobe.scene.skin {} (sleeveOf 2) = .ok [(0, 1)] := by
  rfl

/-- No vertex of the sleeve is in the group of the thumb. -/
theorem sleeve_skinnedAlike : sleeve.SkinnedAlike [(0, 0), (1, 1)] [(0, 0)] := by
  refine ⟨rfl, fun v hv => ?_⟩
  have hgrou : v.groups = [(0, 1)] := by
    simp only [sleeve, mem_toArray, mem_cons, not_mem_nil, or_false] at hv
    rcases hv with rfl | rfl | rfl <;> rfl
  rw [MeshVertex.influences, MeshVertex.influences, hgrou]
  rfl

/-- The left and the right arm can share a sleeve although the right one has no thumb.  The spare
arm, whose hand is its second bone, cannot. -/
theorem exportSkinnedMesh_shared_sleeves : (∃ (n k : Nat) (s₁ t₁ : Session ℚ) (r r' : Resource ℚ),
      exportSkinnedMesh {} 3 wardrobe = .ok (some n) s₁ ∧
      exportSkinnedMesh {} 4 wardrobe = .ok (some k) t₁ ∧
      s₁.file.internal.get? n = some (r.numbered n) ∧
      t₁.file.internal.get? k = some (r'.numbered k) ∧ r.unpainted = r'.unpainted) ∧
    ∃ (n k : Nat) (s₁ t₁ : Session ℚ) (r r' : Resource ℚ), exportSkinnedMesh {} 3 wardrobe =
    .ok (some n) s₁ ∧ exportSkinnedMesh {} 5 wardrobe = .ok (some k) t₁ ∧
      s₁.file.internal.get? n = some (r.numbered n) ∧
      t₁.file.internal.get? k = some (r'.numbered k) ∧ r.unpainted ≠ r'.unpainted := by
  obtain ⟨given, s₁, hs₁, hsome⟩ := exists_yield (exportSkinnedMesh {} 3) wardrobe
    (fun given _ => given.isSome)
  obtain ⟨n, rfl⟩ := Option.isSome_iff_exists.1 hsome
  obtain ⟨givenRight, t₁, ht₁⟩ := exists_ok (exportSkinnedMesh {} 4) wardrobe
  obtain ⟨givenSpare, t₂, ht₂⟩ := exists_ok (exportSkinnedMesh {} 5) wardrobe
  have hshw (armature : ObjectId) : (sleeveOf armature).Shows 0 0 := ⟨rfl, rfl⟩
  refine ⟨?_, ?_⟩
  · obtain ⟨-, m₀, m, bones, bones', r, k, r', hm₀, -, hbns, hbns', hget, rfl, hget', halike, -⟩ :=
      exportSkinnedMesh_shared (a := 3) (b := 4) (g := 0) (s := wardrobe) (t := wardrobe) rfl rfl
        (hshw 0) (hshw 1) rfl rfl (by decide) rfl rfl hs₁ rfl rfl ht₁
    cases hm₀
    cases skin_left.symm.trans hbns
    cases skin_right.symm.trans hbns'
    exact ⟨n, k, s₁, t₁, r, r', hs₁, ht₁, hget, hget', halike sleeve_skinnedAlike⟩
  · obtain ⟨-, m₀, m, bones, bones', r, k, r', hm₀, hm, hbns, hbns', hget, rfl, hget', -, hsame⟩ :=
      exportSkinnedMesh_shared (a := 3) (b := 5) (g := 0) (s := wardrobe) (t := wardrobe) rfl rfl
        (hshw 0) (hshw 2) rfl rfl (by decide) rfl rfl hs₁ rfl rfl ht₂
    cases hm₀
    cases hm
    cases skin_left.symm.trans hbns
    cases skin_spare.symm.trans hbns'
    refine ⟨n, k, s₁, t₂, r, r', hs₁, ht₂, hget, hget', fun heq => ?_⟩
    have hbone := hsame toldApart_rat toldApart_rat heq ⟨[0, 1, 2], 0⟩ mem_cons_self 0
      mem_cons_self ⟨0, [0, 1, 0], [1, 0, 0], [0, 0, 1]⟩ ⟨[0, 0, 0], [(0, 1)]⟩ rfl rfl
    exact absurd hbone (by decide)

end ExportM

end SceneExport
