import SceneExport.Proofs.Export.Parents
import SceneExport.Proofs.Mesh.Split

/-!
# Mesh resources hold the mesh

A mesh resource has one surface for each material position that the mesh uses.  Splitting the mesh
loses nothing (`SplitInto`): the surfaces are numbered in the order in which the positions are first
used, each triangle is in the surface of its position, in the order of the mesh, and each corner of
it is a vertex that agrees with the corner in all its parts.
-/

namespace SceneExport

open List

/-! ### Properties -/

variable {name : String}

section Record

variable {β : Type} {r : Record β} {value : β}

theorem Record.get?_setAll {entries : List (String × β)} (hn : (entries.map Prod.fst).Nodup)
    (name : String) :
    (r.setAll entries).get? name = (entries.lookup name).or (r.get? name) := by
  induction entries generalizing r with
  | nil => rfl
  | cons e entries ih =>
    obtain ⟨n, v⟩ := e
    obtain ⟨hnew, hn⟩ := nodup_cons.1 hn
    show ((r.set n v).setAll entries).get? name = _
    rw [ih hn, lookup_cons]
    by_cases h : name = n
    · subst h
      have hnone : entries.lookup name = none := by
        rw [lookup_eq_none_iff]
        intro e he
        simpa using fun heq : name = e.1 => hnew (mem_map.2 ⟨e, he, heq.symm⟩)
      simp [hnone]
    · have hb : (name == n) = false := beq_false_of_ne h
      rw [hb, get?_set_ne h]

theorem Record.mem_of_get? (h : r.get? name = some value) : (name, value) ∈ r := by
  obtain ⟨before, after, rfl, -⟩ := lookup_eq_some_iff.1 h
  exact mem_append_right before mem_cons_self

theorem Record.get?_of_mem (hn : (r.map Prod.fst).Nodup)
    (h : (name, value) ∈ r) : r.get? name = some value := by
  obtain ⟨before, after, rfl⟩ := append_of_mem h
  refine lookup_eq_some_iff.2 ⟨before, after, rfl, fun e he => ?_⟩
  rw [map_append, nodup_append] at hn
  have hne := hn.2.2 e.1 (mem_map_of_mem he) name (by simp)
  simpa using hne.symm

end Record

variable {α : Type} [Scalar α] {s : Surface α}

omit [Scalar α] in
theorem Surface.propertyName_inj {s' : Surface α} {i j : Nat} (hs : s.index = i)
    (hs' : s'.index = j) (h : s.propertyName = s'.propertyName) : i = j := by
  have hnum : Nat.repr i = Nat.repr j := by
    rw [propertyName, propertyName, hs, hs'] at h
    exact (String.append_right_inj _).1 h
  exact Text.repr_injective hnum

/-! ### What a mesh is split into -/

variable (m : Mesh α) (bones : GroupBones) (tangents : Bool)

/-- The vertex at an index of a surface is that of a corner: it has the same numbers, and so agrees
with it in all parts. -/
def Surface.ShowsCorner (s : Surface α) (index loop : Int) : Prop :=
  ∃ (i : Nat) (v w : Vertex α) (a b : List α), index = i ∧ s.base.vertices[i]? = some (some v) ∧
    m.vertexAt bones tangents loop = .ok w ∧ v.signature = .ok a ∧ w.signature = .ok b ∧
    SameNumbers a b ∧ v.Agrees bones w

/-- The vertices of a surface have different numbers. -/
def Surface.DistinctVertices (s : Surface α) : Prop :=
  ∀ (i j : Nat) v w, i < j → s.base.vertices[i]? = some (some v) →
    s.base.vertices[j]? = some (some w) →
    ∃ a b, v.signature = .ok a ∧ w.signature = .ok b ∧ (a == b) = false

/-- The surfaces hold the mesh. -/
structure SplitInto (surfaces : List (Surface α)) : Prop where
  /-- There is one surface for each material position. -/
  length : surfaces.length = (materialPositions m.triangles).length
  /-- Surfaces are numbered from zero. -/
  numbered : ∀ (i : Nat) s, surfaces[i]? = some s → s.index = i
  /-- The position of each triangle has one place in the order of positions. -/
  own : ∀ t ∈ m.triangles, ∃! i : Nat, (materialPositions m.triangles)[i]? = some t.material
  /-- The faces of a surface are the triangles of its material position, in their order. -/
  faces : ∀ (i : Nat) p s, (materialPositions m.triangles)[i]? = some p → surfaces[i]? = some s →
    List.Forall₂ (fun face t => List.Forall₂ (s.ShowsCorner m bones tangents) face t.loops)
      s.base.faces (m.triangles.filter (·.material == p))
  distinct : ∀ s ∈ surfaces, s.DistinctVertices

variable {m bones tangents} {d : SurfaceDraft α}

theorem SurfaceDraft.Shows.showsCorner (hd : d.Merges m bones tangents) {loop : Int} {i : Nat}
    (h : SurfaceDraft.Shows m bones tangents d.vertices loop i)
    (hs : s.base.vertices = d.vertices.map some) : s.ShowsCorner m bones tangents i loop := by
  obtain ⟨v, w, a, b, hi, hw, ha, hb, hab⟩ := h
  obtain ⟨-, -, -, loop', hv⟩ := hd.vertex hi
  have hagre := (Mesh.isCorner_of_vertexAt hv).fits.agrees (Mesh.isCorner_of_vertexAt hw).fits ha hb
    hab
  exact ⟨i, v, w, a, b, rfl, by simp [hs, hi], hw, ha, hb, hab, hagre⟩

theorem SurfaceDraft.Merges.distinctVertices (h : d.Merges m bones tangents)
    (hs : s.base.vertices = d.vertices.map some) : s.DistinctVertices := by
  intro i j v w hij hv hw
  obtain ⟨a, hia, ha, -⟩ := h.vertex (i := i) (v := v) (by simpa [hs] using hv)
  obtain ⟨b, hjb, hb, -⟩ := h.vertex (i := j) (v := w) (by simpa [hs] using hw)
  obtain ⟨hil, rfl⟩ := List.getElem?_eq_some_iff.1 hia
  obtain ⟨hjl, rfl⟩ := List.getElem?_eq_some_iff.1 hjb
  exact ⟨_, _, ha, hb, List.pairwise_iff_getElem.1 h.distinct i j hil hjl hij⟩

omit [Scalar α] in
theorem MeshSplit.getElem?_finish (s : MeshSplit α)
    (morphs : List (Array (Array (Option (Vertex α))))) (hasBones : Bool) (i : Nat) :
    (s.finish morphs hasBones)[i]? = (s.surfaces[i]?).map fun d =>
      { index := i
        material := d.material
        base := { vertices := d.vertices.map some, faces := d.faces, hasBones }
        morphs := morphs.map fun shapes => { vertices := shapes.getD i #[], hasBones } } := by
  simp [finish, getElem?_map, getElem?_zipIdx, Function.comp_def]

theorem MeshSplit.Deals.splitInto {s : MeshSplit α} (h : s.Deals m bones tangents m.triangles)
    (morphs : List (Array (Array (Option (Vertex α))))) (hasBones : Bool) :
    SplitInto m bones tangents (s.finish morphs hasBones) := by
  have hdraft {i : Nat} {surface : Surface α} (hs : (s.finish morphs hasBones)[i]? = some surface) :
      ∃ d, s.surfaces[i]? = some d ∧ surface.index = i ∧ surface.base.faces = d.faces ∧
        surface.base.vertices = d.vertices.map some := by
    rw [getElem?_finish] at hs
    obtain ⟨d, hd, rfl⟩ := Option.map_eq_some_iff.1 hs
    exact ⟨d, hd, rfl, rfl, rfl⟩
  have hholds {i : Nat} {d : SurfaceDraft α} (hd : s.surfaces[i]? = some d) :
      ∃ p, (materialPositions m.triangles)[i]? = some p ∧
        d.Holds m bones tangents (m.triangles.filter (·.material == p)) := by
    have hlt : i < (materialPositions m.triangles).length := by
      rw [← h.size]
      exact (Array.getElem?_eq_some_iff.1 hd).1
    obtain ⟨d', hd', hh⟩ := h.surfaces i _ (getElem?_eq_getElem hlt)
    cases hd.symm.trans hd'
    exact ⟨_, getElem?_eq_getElem hlt, hh⟩
  refine ⟨?_, fun i surface hs => ?_, fun t ht => ?_, fun i p surface hp hs => ?_, fun surface hs =>
    ?_⟩
  · simp [finish, h.size]
  · obtain ⟨d, -, hindex, -⟩ := hdraft hs
    exact hindex
  · obtain ⟨i, hi⟩ := getElem?_of_mem (mem_materialPositions.2 ⟨t, ht, rfl⟩)
    exact ⟨i, hi, fun j hj => materialPositions_inj hj hi⟩
  · obtain ⟨d, hd, -, hfaces, hvert⟩ := hdraft hs
    obtain ⟨p', hp', hh⟩ := hholds hd
    cases hp.symm.trans hp'
    rw [hfaces]
    refine hh.faces.imp fun face t hdraws => List.Forall₂.imp (fun index loop => ?_) hdraws
    rintro ⟨k, rfl, hcorn⟩
    exact (hh.merges.corners loop k hcorn).showsCorner hh.merges hvert
  · obtain ⟨i, hi⟩ := getElem?_of_mem hs
    obtain ⟨d, hd, -, -, hvert⟩ := hdraft hi
    obtain ⟨p, -, hh⟩ := hholds hd
    exact hh.merges.distinctVertices hvert

/-! ### Mesh resources -/

omit [Scalar α] in
theorem Mesh.corneredTriangles_ok {ts : List (LoopTriangle × List Int)}
    (h : m.corneredTriangles = .ok ts) : ts.map Prod.fst = m.triangles := by
  unfold corneredTriangles at h
  generalize m.triangles = triangles at h
  induction triangles generalizing ts with
  | nil =>
    cases h
    rfl
  | cons t triangles ih =>
    obtain ⟨y, ys, hy, hys, rfl⟩ := Outcome.mapM_cons_ok h
    obtain ⟨corners, -, hy⟩ := Outcome.bind_ok hy
    cases hy
    rw [map_cons, ih hys]

namespace ExportM

variable (cfg : Settings) (id : ObjectId)

theorem splitTriangle_deals {ts : List LoopTriangle} {split : MeshSplit α}
    (h : split.Deals m bones tangents ts) (t : LoopTriangle) :
    Leads (fun _ => True) (splitTriangle cfg id m bones tangents split t) fun split' _ =>
      split'.Deals m bones tangents (ts ++ [t]) := by
  unfold splitTriangle
  split
  · next i hi => exact .ofLogged (h.awaits_known hi).addTriangle
  · next hnone =>
    exact .bind (fun _ _ _ _ _ => trivial) fun material =>
      .ofLogged (h.awaits_new hnone material).addTriangle

theorem splitMesh_deals : Leads (fun _ => True) (splitMesh cfg id m bones tangents)
    fun split _ =>
      split.Deals m bones tangents m.triangles := by
  refine .bind .lift fun ts => .of_fact fun hts => ?_
  -- The triangles before those that are still to come are dealt out.
  let I (rest : List (LoopTriangle × List Int)) (split : MeshSplit α) (_ : Session α) : Prop :=
    ∃ before, before ++ rest.map Prod.fst = m.triangles ∧ split.Deals m bones tangents before
  refine (Leads.foldlM I (fun entry rest split => ?_) ts {}).mono (fun _ _ => ?_) fun split _ => ?_
  · rintro s ⟨before, hpre, hdeals⟩ split' s' h
    refine ⟨before ++ [entry.1], by simpa using hpre, ?_⟩
    exact splitTriangle_deals cfg id hdeals entry.1 s trivial split' s' h
  · exact ⟨[], by simpa using Mesh.corneredTriangles_ok hts, MeshSplit.deals_start⟩
  · rintro ⟨before, hpre, hdeals⟩
    rw [map_nil, append_nil] at hpre
    exact hpre ▸ hdeals

/-- A mesh resource with surfaces, and the names of its morph targets if it has shape keys. -/
def assembled (name : String) (places : List (Int × Nat)) (keys : Option (ShapeKeys α))
    (surfaces : List (Surface α)) : Resource α :=
  surfaces.foldl (fun r s => r.set s.propertyName (.surface s))
    (((keys.map morphProperties).getD []).foldl (fun r (k, v) => r.set k v)
      (.ofType "ArrayMesh" name (.mesh places)))

def exportedKeys? (cfg : Settings) (s : Session α) (o : Object α) : Option (ShapeKeys α) :=
  (s.scene.shapeKeys? o).filter fun _ => cfg.exportShapeKeys

section

omit [Scalar α]

theorem properties_foldl_set {β : Type} (name : β → String) (value : β → Value α) (xs : List β)
    (r : Resource α) : (xs.foldl (fun r x => r.set (name x) (value x)) r).entry.properties =
      r.entry.properties.setAll (xs.map fun x => (name x, value x)) := by
  induction xs generalizing r with
  | nil => rfl
  | cons x xs ih => exact ih _

theorem detail_foldl_set {β : Type} (name : β → String) (value : β → Value α) (xs : List β)
    (r : Resource α) : (xs.foldl (fun r x => r.set (name x) (value x)) r).detail = r.detail := by
  induction xs generalizing r with
  | nil => rfl
  | cons x xs ih => exact ih _

theorem assembled_detail (name : String) (places : List (Int × Nat)) (keys : Option (ShapeKeys α))
    (surfaces : List (Surface α)) : (assembled name places keys surfaces).detail =
    .mesh places := by
  rw [assembled, detail_foldl_set, detail_foldl_set]
  rfl

theorem plainProperties_ne_surface (name : String) (places : List (Int × Nat))
    (keys : Option (ShapeKeys α)) (property : String) (surface : Surface α) :
    (((keys.map morphProperties).getD []).foldl (fun r (k, v) => r.set k v)
      (.ofType "ArrayMesh" name (.mesh places) : Resource α)).entry.properties.get? property
      ≠ some (.surface surface) := by
  have hnms : ((((keys.map morphProperties).getD []).map fun e => (e.1, e.2)).map Prod.fst).Nodup :=
    by
    cases keys <;> simp [morphProperties]
  rw [properties_foldl_set, Record.get?_setAll hnms]
  intro h
  rcases Option.or_eq_some_iff.1 h with h | ⟨-, h⟩
  · have hmem := Record.mem_of_get? h
    cases keys <;> simp [morphProperties] at hmem
  · have hmem := Record.mem_of_get? h
    simp [Resource.ofType, Value.quoted] at hmem

/-- The surfaces of a mesh resource are under their names, and nothing else is a surface. -/
theorem assembled_surface {places : List (Int × Nat)} {keys : Option (ShapeKeys α)}
    {surfaces : List (Surface α)} (hs : ∀ (i : Nat) s, surfaces[i]? = some s → s.index = i)
    {property : String} {surface : Surface α} :
    (assembled name places keys surfaces).entry.properties.get? property = some (.surface surface) ↔
      surface ∈ surfaces ∧ property = surface.propertyName := by
  have hnms : ((surfaces.map fun s => (s.propertyName, Value.surface s)).map Prod.fst).Nodup := by
    rw [map_map, List.Nodup, pairwise_map, pairwise_iff_getElem]
    intro i j hi hj hij heq
    exact Nat.ne_of_lt hij (Surface.propertyName_inj (hs i _ (getElem?_eq_getElem hi))
      (hs j _ (getElem?_eq_getElem hj)) heq)
  rw [assembled, properties_foldl_set, Record.get?_setAll hnms]
  constructor
  · intro h
    rcases Option.or_eq_some_iff.1 h with h | ⟨-, h⟩
    · obtain ⟨s, hs, he⟩ := mem_map.1 (Record.mem_of_get? h)
      cases he
      exact ⟨hs, rfl⟩
    · exact absurd h (plainProperties_ne_surface name places keys property surface)
  · rintro ⟨hmem, rfl⟩
    have hfnd := Record.get?_of_mem hnms (mem_map_of_mem hmem)
    rw [Record.get?] at hfnd
    rw [hfnd, Option.some_or]

end

/-- The shape keys of an object that become morph targets, with their positions. -/
def exportedMorphs (cfg : Settings) (s : Session α) (o : Object α) : List (ShapeKey α × Nat) :=
  ((exportedKeys? cfg s o).map morphKeys).getD []

theorem meshResource_ok {cfg : Settings} {id : ObjectId} {r : Resource α} {s s' : Session α}
    (h : meshResource cfg id m bones tangents s = .ok r s') :
    ∃ split s1 o morphs, splitMesh cfg id m bones tangents s = .ok split s1 ∧
      s1.scene.object id = .ok o ∧
      (exportedMorphs cfg s1 o).mapM (fun k =>
        exportMorph cfg id split bones tangents k.2) s1 = .ok morphs s' ∧
      r = assembled m.name split.places (exportedKeys? cfg s1 o)
        (split.finish morphs (!bones.isEmpty)) := by
  obtain ⟨split, s1, hsplit, h1⟩ := bind_ok h
  obtain ⟨o, s2, ho, h2⟩ := bind_ok h1
  obtain ⟨hobj, rfl⟩ : s1.scene.object id = .ok o ∧ s2 = s1 := lift_ok ho
  obtain ⟨s3, s4, hget, h3⟩ := bind_ok h2
  obtain ⟨rfl, rfl⟩ := EStateM.Result.ok.inj hget
  have hkeys : (s2.scene.shapeKeys? o).filter (fun _ => cfg.exportShapeKeys) =
    exportedKeys? cfg s2 o := rfl
  simp only [hkeys] at h3
  cases hk : exportedKeys? cfg s2 o with
  | none =>
    rw [hk] at h3
    cases h3
    exact ⟨split, s', o, [], hsplit, hobj, by rw [exportedMorphs, hk]; rfl, by rw [hk]; rfl⟩
  | some keys =>
    rw [hk] at h3
    obtain ⟨morphs, s3, hmorp, h4⟩ := bind_ok h3
    cases h4
    refine ⟨split, s2, o, morphs, hsplit, hobj, ?_, by rw [hk]; rfl⟩
    rw [exportedMorphs, hk]
    exact hmorp

/-- **Splitting a mesh loses nothing.**  The surfaces that a mesh is split into hold the mesh,
whatever morph targets they get, and they are the surfaces of its resource. -/
theorem splitMesh_splitInto {cfg : Settings} {id : ObjectId} {split : MeshSplit α}
    {s s₁ : Session α} (h : splitMesh cfg id m bones tangents s = .ok split s₁) :
    (∀ morphs hasBones, SplitInto m bones tangents (split.finish morphs hasBones)) ∧
    ∀ r s', meshResource cfg id m bones tangents s = .ok r s' →
      r.detail = .mesh (materialPositions m.triangles).zipIdx ∧
      ∃ morphs, ∀ name surface, r.entry.properties.get? name = some (.surface surface) ↔
        surface ∈ split.finish morphs (!bones.isEmpty) ∧ name = surface.propertyName := by
  have hdeals := splitMesh_deals cfg id s trivial split s₁ h
  refine ⟨fun morphs hasBones => hdeals.splitInto morphs hasBones, fun r s' hr => ?_⟩
  obtain ⟨split', s₂, o, morphs, hsplit, -, -, rfl⟩ := meshResource_ok hr
  cases hsplit.symm.trans h
  refine ⟨by rw [assembled_detail, hdeals.places], morphs, fun name surface => ?_⟩
  exact assembled_surface (hdeals.splitInto morphs _).numbered

/-- Three triangles over five points.  The second one has a material of its own, and the others
share an edge. -/
def pennant : Mesh ℚ where
  name := "Pennant"
  vertices := #[⟨[0, 0, 0], [(0, 1)]⟩, ⟨[1, 0, 0], [(0, 1), (1, 2)]⟩, ⟨[1, 1, 0], [(1, 1)]⟩,
    ⟨[0, 1, 0], [(0, 0), (1, 1)]⟩, ⟨[2, 0, 0], []⟩]
  loops := #[0, 1, 2, 1, 4, 2, 0, 2, 3].map fun vertex => ⟨vertex, [0, 0, 1], [1, 0, 0], [0, 1, 0]⟩
  triangles := [⟨[0, 1, 2], 1⟩, ⟨[3, 4, 5], 0⟩, ⟨[6, 7, 8], 1⟩]
  faces := [3, 3, 3]
  uvs := [#[[0, 0], [1, 0], [1, 1], [1, 0], [2, 0], [1, 1], [0, 0], [1, 1], [0, 1]]]
  colors := []
  materials := []
  shapeKeys := none

/-- A pole with a pennant. -/
def flagpole : Session ℚ where
  scene.objects := #[.bare "Pole" .empty none, .bare "Pennant" .mesh (some 0)]

theorem toldApart_rat {bones : GroupBones} : bones.ToldApart ℚ := by
  intro e _ e' _ x y hx hy h
  cases hx
  cases hy
  simpa [SameNumber, ExactScalar.beq_iff_eq] using h

theorem splitMesh_splitInto_pennant :
    GroupBones.ToldApart ℚ [(0, 0), (1, 1)] ∧ ∃ split s₁ r s', splitMesh {} 1 pennant
    [(0, 0), (1, 1)] true flagpole = .ok split s₁ ∧ meshResource {} 1 pennant [(0, 0), (1, 1)] true
    flagpole = .ok r s' ∧
    (∀ morphs hasBones, SplitInto pennant [(0, 0), (1, 1)] true (split.finish morphs hasBones)) ∧
    r.detail = .mesh [(1, 0), (0, 1)] := by
  obtain ⟨split, s₁, h⟩ := exists_ok (splitMesh {} 1 pennant [(0, 0), (1, 1)] true) flagpole
  obtain ⟨r, s', hr⟩ := exists_ok (meshResource {} 1 pennant [(0, 0), (1, 1)] true) flagpole
  obtain ⟨hinto, hreso⟩ := splitMesh_splitInto h
  exact ⟨toldApart_rat, split, s₁, r, s', h, hr, hinto, (hreso r s' hr).1⟩

end ExportM

end SceneExport
