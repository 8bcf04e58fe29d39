import SceneExport.Proofs.Mesh.Surfaces

/-!
# Shape keys over surfaces

A shape key is laid over the surfaces of a mesh corner by corner: the vertex that a corner has in
the shape is put where the corner went when the mesh was split (`MeshSplit.placeOf?`).  Corners that
were merged into one vertex have one place, and the last of them in the order of the triangles wins
(`MeshSplit.LaidOver`).

So the shape is shown faithfully exactly if it moves corners of one place to one position
(`MeshSplit.LaidOver.faithful_iff`).  Corners of different points of the mesh can have one place, if
the points are at one position in the mesh as it is; a shape that parts them is lost on all but the
last.
-/

namespace SceneExport

open List

variable {α : Type} [Scalar α] {m : Mesh α}

/-! ### Places of corners -/

variable {bones : GroupBones} {tangents : Bool} {shapes : Array (Array (Option (Vertex α)))}

namespace Mesh

/-- The corners of the triangles in their order, each with the material position of its triangle. -/
def materialCorners (m : Mesh α) : List (Int × Int) :=
  m.triangles.flatMap fun t => t.loops.map (t.material, ·)

/-- The position of the point that a corner is at. -/
def positionAt (m : Mesh α) (loop : Int) : Except Failure (List α) := do
  turnedUp (← elementAt m.vertices (← elementAt m.loops loop).vertex).position

theorem positionAt_of_vertexAt {m : Mesh α} {loop : Int} {v : Vertex α}
    (h : m.vertexAt bones tangents loop = .ok v) : m.positionAt loop = .ok v.position := by
  obtain ⟨corner, vertex, hcorn, hvtx, hposi, -⟩ := (isCorner_of_vertexAt h).place
  unfold positionAt
  rw [hcorn]
  change elementAt m.vertices corner.vertex >>= (fun v => turnedUp v.position) = _
  rw [hvtx]
  exact hposi

end Mesh

namespace MeshSplit

/-- The surface and the vertex in it that a corner became. -/
def placeOf? (s : MeshSplit α) (corner : Int × Int) : Option (Nat × Nat) := do
  let i ← s.surfaceOf? corner.1
  let d ← s.surfaces[i]?
  let k ← d.corners.lookup corner.2
  return (i, k)

/-- The last of some corners that became the vertex at a place. -/
def lastAt? (s : MeshSplit α) (corners : List (Int × Int)) (place : Nat × Nat) :
    Option (Int × Int) :=
  corners.reverse.find? fun c => s.placeOf? c == some place

def vertexIn? (shapes : Array (Array (Option (Vertex α)))) (place : Nat × Nat) :
    Option (Vertex α) := do
  let row ← shapes[place.1]?
  let v ← row[place.2]?
  v

omit [Scalar α] in
theorem lastAt?_concat (s : MeshSplit α) (corners : List (Int × Int)) (corner : Int × Int)
    (place : Nat × Nat) : s.lastAt? (corners ++ [corner]) place =
      if s.placeOf? corner = some place then some corner else s.lastAt? corners place := by
  split <;> simp_all [lastAt?]

variable {s : MeshSplit α} {corners : List (Int × Int)} {place : Nat × Nat}
  {morphs : List (Array (Array (Option (Vertex α))))}

omit [Scalar α] in
theorem exists_lastAt? {corner : Int × Int} (hc : corner ∈ corners)
    (hp : s.placeOf? corner = some place) : ∃ last, s.lastAt? corners place = some last := by
  rw [← Option.isSome_iff_exists, lastAt?, find?_isSome]
  exact ⟨corner, mem_reverse.2 hc, by simp [hp]⟩

/-! ### Laying a shape over the surfaces -/

/-- Every corner went to a vertex of its surface. -/
def InBounds (s : MeshSplit α) : Prop :=
  ∀ (i : Nat) (d : SurfaceDraft α) loop k, s.surfaces[i]? = some d →
    d.corners.lookup loop = some k → k < d.vertices.size

theorem Deals.inBounds {m : Mesh α} {ts : List LoopTriangle} (h : s.Deals m bones tangents ts) :
    s.InBounds := by
  intro i d loop k hd hk
  have hlt : i < (materialPositions ts).length := by
    rw [← h.size]
    exact (Array.getElem?_eq_some_iff.1 hd).1
  obtain ⟨d', hd', hholds⟩ := h.surfaces i _ (getElem?_eq_getElem hlt)
  cases hd.symm.trans hd'
  obtain ⟨before, after, he, -⟩ := lookup_eq_some_iff.1 hk
  obtain ⟨v, -, -, -, hv, -⟩ := hholds.merges.corners loop k (by simp [he])
  exact (Array.getElem?_eq_some_iff.1 hv).1

/-- The vertices of a shape are in the places of its corners; of corners with one place the last
one counts. -/
structure LaidOver (s : MeshSplit α) (m : Mesh α) (bones : GroupBones) (tangents : Bool)
    (corners : List (Int × Int)) (shapes : Array (Array (Option (Vertex α)))) : Prop where
  rows : ∀ (i : Nat) (d : SurfaceDraft α), s.surfaces[i]? = some d →
    ∃ row, shapes[i]? = some row ∧ row.size = d.vertices.size
  places : ∀ c ∈ corners, ∃ place, s.placeOf? c = some place
  last : ∀ place c, s.lastAt? corners place = some c →
    ∃ v, vertexIn? shapes place = some v ∧ m.vertexAt bones tangents c.2 = .ok v

variable {position : Int} {surface : Nat} {target : Nat}

theorem laidOver_start :
    s.LaidOver m bones tangents [] (s.surfaces.map fun d => d.vertices.map fun _ => none) where
  rows i d hd := ⟨d.vertices.map fun _ => none, by simp [hd], by simp⟩
  places := by simp
  last place c h := by simp [lastAt?] at h

omit [Scalar α] in
theorem vertexIn?_modify {i k : Nat} {row : Array (Option (Vertex α))}
    (hrow : shapes[i]? = some row) (hk : k < row.size) (v : Vertex α) (place : Nat × Nat) :
    vertexIn? (shapes.modify i (·.setIfInBounds k (some v))) place =
      if place = (i, k) then some v else vertexIn? shapes place := by
  obtain ⟨j, l⟩ := place
  rw [vertexIn?, vertexIn?, Array.getElem?_modify]
  by_cases hj : i = j
  · subst hj
    by_cases hl : k = l
    · subst hl
      simp [hrow, hk]
    · simp [hrow, hl, Ne.symm hl]
  · simp [hj, Ne.symm hj]

theorem LaidOver.addMorphCorner (h : s.LaidOver m bones tangents corners shapes)
    (hs : s.InBounds) (hp : s.surfaceOf? position = some surface) (loop : Int) :
    Leads (fun _ => True) (s.addMorphCorner m bones tangents surface shapes loop)
    fun shapes' _ =>
      s.LaidOver m bones tangents (corners ++ [(position, loop)]) shapes' := by
  intro log _ shapes' log' hr
  obtain ⟨v, log1, hv, hr⟩ := bind_ok hr
  obtain ⟨d, log2, hd, hr⟩ := bind_ok hr
  obtain ⟨k, log3, hk, hr⟩ := bind_ok hr
  cases hr
  have hd := need_ok (Logged.lift_ok hd).1
  have hk := need_ok (Logged.lift_ok hk).1
  have hplc : s.placeOf? (position, loop) = some (surface, k) := by
    simp [placeOf?, hp, hd, hk]
  obtain ⟨row, hrow, hsize⟩ := h.rows surface d hd
  have hlt : k < row.size := hsize ▸ hs surface d loop k hd hk
  refine ⟨fun i d' hd' => ?_, fun c hc => ?_, fun place c hc => ?_⟩
  · obtain ⟨row', hrow', hsize'⟩ := h.rows i d' hd'
    rw [Array.getElem?_modify, hrow']
    by_cases hi : surface = i
    · exact ⟨_, by rw [if_pos hi]; rfl, by simpa using hsize'⟩
    · exact ⟨row', by rw [if_neg hi], hsize'⟩
  · rcases mem_append.1 hc with hc | hc
    · exact h.places c hc
    · rw [mem_singleton.1 hc]
      exact ⟨_, hplc⟩
  · rw [vertexIn?_modify hrow hlt]
    rw [lastAt?_concat, hplc] at hc
    by_cases he : place = (surface, k)
    · rw [if_pos (congrArg some he.symm)] at hc
      cases hc
      exact ⟨v, if_pos he, Mesh.vertexAt_of_corner hv⟩
    · rw [if_neg (fun h => he (Option.some.inj h).symm)] at hc
      rw [if_neg he]
      exact h.last place c hc

theorem LaidOver.addTriangle (h : s.LaidOver m bones tangents corners shapes) (hs : s.InBounds)
    (hp : s.surfaceOf? position = some surface) (loops : List Int) :
    Leads (fun _ => True) (loops.foldlM (s.addMorphCorner m bones tangents surface) shapes)
      fun shapes' _ =>
        s.LaidOver m bones tangents (corners ++ loops.map (position, ·)) shapes' := by
  induction loops generalizing corners shapes with
  | nil => exact .pure fun _ _ => by simpa using h
  | cons loop loops ih =>
    refine .bind (h.addMorphCorner hs hp loop) fun shapes' => ?_
    intro log hshps shapes'' log' hr
    have hmore := ih hshps log trivial shapes'' log' hr
    rwa [append_assoc] at hmore

/-- **The last corner of a place wins.**  A shape that can be laid over the surfaces is in the
places of its corners. -/
theorem morph_laidOver (hs : s.InBounds) : Leads (fun _ => True) (s.morph m bones tangents)
    fun shapes _ =>
      s.LaidOver m bones tangents m.materialCorners shapes := by
  refine .bind .liftLogged fun ts => .of_fact fun hts => ?_
  -- The corners of the triangles before those that are still to come are in their places.
  let I (rest : List (LoopTriangle × List Int)) (shapes : Array (Array (Option (Vertex α))))
      (_ : Log) : Prop :=
    ∃ before, before ++ rest.map Prod.fst = m.triangles ∧ s.LaidOver m bones tangents
      (before.flatMap fun t => t.loops.map (t.material, ·)) shapes
  refine (Leads.foldlM I (fun entry rest shapes => ?_) ts _).mono (fun _ _ => ?_) fun shapes _ => ?_
  · rintro log ⟨before, hpre, hshps⟩ shapes' log' hr
    obtain ⟨surface, log1, hsurf, hr⟩ := bind_ok hr
    have hsurf := need_ok (Logged.lift_ok hsurf).1
    refine ⟨before ++ [entry.1], by simpa using hpre, ?_⟩
    have hmore := hshps.addTriangle hs hsurf entry.1.loops log1 trivial shapes' log' hr
    simpa using hmore
  · exact ⟨[], by simpa using Mesh.corneredTriangles_ok hts, laidOver_start⟩
  · rintro ⟨before, hpre, hshps⟩
    rw [map_nil, append_nil] at hpre
    rw [Mesh.materialCorners, ← hpre]
    exact hshps

/-! ### Faithful shapes -/

/-- The vertex at a place in one of the morph targets of surfaces. -/
def morphVertex? (surfaces : List (Surface α)) (target : Nat) (place : Nat × Nat) :
    Option (Vertex α) := do
  let surface ← surfaces[place.1]?
  let morph ← surface.morphs[target]?
  let v ← morph.vertices[place.2]?
  v

/-- At the place of each corner is the position that the corner has in the shape. -/
def Faithful (s : MeshSplit α) (shape : Mesh α) (corners : List (Int × Int))
    (shown : Nat × Nat → Option (Vertex α)) : Prop :=
  ∀ c ∈ corners, ∃ place v, s.placeOf? c = some place ∧ shown place = some v ∧
    shape.positionAt c.2 = .ok v.position

/-- At the place of each corner is the vertex that the last corner of the place has in the shape. -/
def LastShown (s : MeshSplit α) (shape : Mesh α) (bones : GroupBones) (tangents : Bool)
    (corners : List (Int × Int)) (shown : Nat × Nat → Option (Vertex α)) : Prop :=
  ∀ c ∈ corners, ∃ place last v, s.placeOf? c = some place ∧ s.lastAt? corners place = some last ∧
    shown place = some v ∧ shape.vertexAt bones tangents last.2 = .ok v

/-- Corners with one place are at one position in the shape. -/
def KeptTogether (s : MeshSplit α) (shape : Mesh α) (corners : List (Int × Int)) : Prop :=
  ∀ c ∈ corners, ∀ c' ∈ corners, s.placeOf? c = s.placeOf? c' →
    shape.positionAt c.2 = shape.positionAt c'.2

omit [Scalar α] in
theorem morphVertex?_finish (ht : morphs[target]? = some shapes) (hasBones : Bool) {c : Int × Int}
    (hc : s.placeOf? c = some place) :
    morphVertex? (s.finish morphs hasBones) target place = vertexIn? shapes place := by
  simp only [placeOf?, Option.bind_eq_bind, Option.bind_eq_some_iff] at hc
  obtain ⟨i, -, d, hd, k, -, hplc⟩ := hc
  cases hplc
  simp only [morphVertex?, getElem?_finish, hd, vertexIn?, getElem?_map, ht, Option.map_some,
    Option.bind_eq_bind, Option.bind_some, Array.getD_eq_getD_getElem?]
  cases shapes[i]? <;> simp

theorem LaidOver.lastShown (ht : morphs[target]? = some shapes) (hasBones : Bool)
    (h : s.LaidOver m bones tangents corners shapes) :
    s.LastShown m bones tangents corners (morphVertex? (s.finish morphs hasBones) target) := by
  intro c hc
  obtain ⟨place, hplc⟩ := h.places c hc
  obtain ⟨last, hlast⟩ := exists_lastAt? hc hplc
  obtain ⟨v, hv, hvtx⟩ := h.last place last hlast
  exact ⟨place, last, v, hplc, hlast, (morphVertex?_finish ht hasBones hplc).trans hv, hvtx⟩

/-- What is shown is faithful if and only if the corners of each place are kept together. -/
theorem LastShown.faithful_iff {shown : Nat × Nat → Option (Vertex α)}
    (h : s.LastShown m bones tangents corners shown) : s.Faithful m corners shown ↔
    s.KeptTogether m corners := by
  constructor
  · intro hf c hc c' hc' heq
    obtain ⟨place, v, hplc, hv, hposi⟩ := hf c hc
    obtain ⟨place', v', hplc', hv', hposi'⟩ := hf c' hc'
    cases hplc.symm.trans (heq.trans hplc')
    cases hv.symm.trans hv'
    rw [hposi, hposi']
  · intro hk c hc
    obtain ⟨place, last, v, hplc, hlast, hv, hvtx⟩ := h c hc
    have hmem := mem_reverse.1 (mem_of_find?_eq_some hlast)
    have hsame : s.placeOf? last = some place := by simpa using find?_some hlast
    refine ⟨place, v, hplc, hv, ?_⟩
    rw [hk c hc last hmem (hplc.trans hsame.symm), Mesh.positionAt_of_vertexAt hvtx]

end MeshSplit

/-! ### Morph targets of mesh resources -/

namespace ExportM

variable {cfg : Settings} {id : ObjectId}

theorem exportMorph_laidOver {split : MeshSplit α} {key : Nat} {s s' : Session α}
    (hs : split.InBounds) (h : exportMorph cfg id split bones tangents key s =
    .ok shapes s') :
    ∃ shape e s1, evaluate cfg { object := some id } true true key s = .ok (some shape, e) s1 ∧
      split.LaidOver shape bones tangents shape.materialCorners shapes := by
  obtain ⟨⟨mesh?, e⟩, s1, heval, h1⟩ := bind_ok h
  obtain ⟨shape, hmesh, h2⟩ := lift_bind_ok h1
  cases need_ok hmesh
  obtain ⟨shapes', s3, hmorph, h3⟩ := bind_ok h2
  obtain ⟨e', s4, -, h4⟩ := bind_ok h3
  cases h4
  exact ⟨shape, e, s1, heval, Leads.ofLogged (MeshSplit.morph_laidOver hs) s1 trivial _ _ hmorph⟩

/-- **Which shape keys are exported faithfully.**  A morph target shows at the place of each corner
the vertex that the last corner of the place has in the shape of its key.  So it shows all corners
where they are in the shape if and only if the shape keeps together the corners that were merged. -/
theorem meshResource_faithful_iff {r : Resource α} {s s' : Session α}
    (h : meshResource cfg id m bones tangents s = .ok r s') :
    ∃ split s₁ o morphs surfaces, splitMesh cfg id m bones tangents s = .ok split s₁ ∧
      s₁.scene.object id = .ok o ∧ surfaces = split.finish morphs (!bones.isEmpty) ∧
      (∀ name surface, r.entry.properties.get? name = some (.surface surface) ↔
        surface ∈ surfaces ∧ name = surface.propertyName) ∧
      ∀ target key, (exportedMorphs cfg s₁ o)[target]? = some key →
        ∃ s₂ shape e s₃, ((exportedMorphs cfg s₁ o).take target).mapM (fun k =>
            exportMorph cfg id split bones tangents k.2) s₁ = .ok (morphs.take target) s₂ ∧
          evaluate cfg { object := some id } true true key.2 s₂ = .ok (some shape, e) s₃ ∧
          (shape.triangles = m.triangles → split.LastShown shape bones tangents m.materialCorners
              (MeshSplit.morphVertex? surfaces target) ∧
            (split.Faithful shape m.materialCorners (MeshSplit.morphVertex? surfaces target) ↔
              split.KeptTogether shape m.materialCorners)) := by
  obtain ⟨split, s₁, o, morphs, hsplit, ho, hmorp, rfl⟩ := meshResource_ok h
  have hdeals := splitMesh_deals cfg id s trivial split s₁ hsplit
  refine ⟨split, s₁, o, morphs, _, hsplit, ho, rfl, fun name surface => ?_, fun target key hkey =>
    ?_⟩
  · exact assembled_surface (hdeals.splitInto morphs _).numbered
  · obtain ⟨shapes, s₂, s₃, hpre, hmorph, hshps⟩ := mapM_ok_take hmorp hkey
    obtain ⟨shape, e, s₄, heval, hlaid⟩ := exportMorph_laidOver hdeals.inBounds hmorph
    refine ⟨s₂, shape, e, s₄, hpre, heval, fun htris => ?_⟩
    have hcrns : shape.materialCorners = m.materialCorners := by
      rw [Mesh.materialCorners, htris, Mesh.materialCorners]
    have hlast := hlaid.lastShown hshps (!bones.isEmpty)
    rw [hcrns] at hlast
    exact ⟨hlast, hlast.faithful_iff⟩

/-- Two lips that touch.  They are opened by one shape key and raised by another one. -/
def lips : Mesh ℚ where
  name := "Lips"
  vertices := #[[0, 0, 0], [1, 0, 0], [0, 0, 1], [0, 0, 0], [1, 0, 0], [0, 0, -1]].map fun p =>
    ⟨p, []⟩
  loops := #[0, 1, 2, 3, 4, 5].map fun vertex => ⟨vertex, [0, 1, 0], [1, 0, 0], [0, 0, 1]⟩
  triangles := [⟨[0, 1, 2], 0⟩, ⟨[3, 4, 5], 0⟩]
  faces := [3, 3]
  uvs := []
  colors := []
  materials := []
  shapeKeys := some {
    keys := [⟨"Closed", none⟩,
      ⟨"Open", some [[0, 0, 0], [1, 0, 0], [0, 0, 1], [0, 0, -1], [1, 0, -1], [0, 0, -2]]⟩,
      ⟨"Raised", some [[0, 1, 0], [1, 1, 0], [0, 1, 1], [0, 1, 0], [1, 1, 0], [0, 1, -1]]⟩]
    animation := none }

/-- A mouth that is closed. -/
def mouth : Session ℚ where
  scene.objects := #[{ Object.bare "Lips" .mesh none with mesh := some 0, data := .mesh (some 0) }]
  scene.meshes := #[lips]

instance (s : MeshSplit ℚ) (shape : Mesh ℚ) (corners : List (Int × Int)) :
    Decidable (s.KeptTogether shape corners) :=
  inferInstanceAs (Decidable (∀ c ∈ corners, ∀ c' ∈ corners, s.placeOf? c = s.placeOf? c' →
    shape.positionAt c.2 = shape.positionAt c'.2))

/-- Whether an evaluation gives a shape of the lips that keeps merged corners together or, without
`together`, parts some. -/
def lipsAre (together : Bool) (split : MeshSplit ℚ) (evaluated : Option (Mesh ℚ) × Evaluation) :
    Bool :=
  evaluated.1.any fun shape => decide (shape.triangles = lips.triangles) &&
    decide (split.KeptTogether shape lips.materialCorners) == together

theorem of_lipsAre {together : Bool} {split : MeshSplit ℚ} {shape : Mesh ℚ} {e : Evaluation}
    (h : lipsAre together split (some shape, e) = true) : shape.triangles = lips.triangles ∧
      (split.KeptTogether shape lips.materialCorners ↔ together = true) := by
  obtain ⟨htris, htoge⟩ := (Bool.and_eq_true ..).mp h
  exact ⟨of_decide_eq_true htris, by rw [← eq_of_beq htoge, decide_eq_true_iff]⟩

/-- Opened lips stick together where they touch, and raised ones are shown as they are. -/
theorem meshResource_faithful_iff_lips :
    ∃ (r : Resource ℚ) (s' : Session ℚ) (split : MeshSplit ℚ) (surfaces : List (Surface ℚ)),
      meshResource {} 0 lips [] false mouth = .ok r s' ∧
      (∀ name surface, r.entry.properties.get? name = some (.surface surface) ↔
        surface ∈ surfaces ∧ name = surface.propertyName) ∧
      (∃ opened s₁ e s₂, evaluate {} { object := some 0 } true true 1 s₁ = .ok (some opened, e) s₂ ∧
        ¬ split.Faithful opened lips.materialCorners (MeshSplit.morphVertex? surfaces 0)) ∧
      ∃ raised s₁ e s₂, evaluate {} { object := some 0 } true true 2 s₁ = .ok (some raised, e) s₂ ∧
        split.Faithful raised lips.materialCorners (MeshSplit.morphVertex? surfaces 1) := by
  have hspli : yields (splitMesh {} 0 lips [] false) mouth (fun split s₁ =>
      yields (object 0) s₁ fun o _ => decide ((exportedMorphs {} s₁ o).map (·.2) = [1, 2]) &&
        (yields (evaluate {} { object := some 0 } true true 1) s₁ (fun r _ => lipsAre false split r)
        &&
        yields (((exportedMorphs {} s₁ o).take 1).mapM fun k =>
            exportMorph {} 0 split [] false k.2) s₁ fun _ s₂ =>
          yields (evaluate {} { object := some 0 } true true 2) s₂ fun r _ => lipsAre true split r))
      = true := by
    decide +kernel
  obtain ⟨r, s', hr⟩ := exists_ok (meshResource {} 0 lips [] false) mouth
  obtain ⟨split, s₁, o, morphs, surfaces, hsplit, ho, -, hsurfs, htarg⟩ := meshResource_faithful_iff
    hr
  obtain ⟨split', s₁', hsplit', hspli⟩ := of_yields hspli
  cases hsplit.symm.trans hsplit'
  obtain ⟨o', s₁'', ho', hspli⟩ := of_yields hspli
  cases ho.symm.trans (lift_ok ho').1
  obtain ⟨hkeys, hspli⟩ := (Bool.and_eq_true ..).mp hspli
  obtain ⟨hopen, hrais⟩ := (Bool.and_eq_true ..).mp hspli
  obtain ⟨k₁, k₂, hkeys⟩ : ∃ k₁ k₂, exportedMorphs {} s₁ o = [(k₁, 1), (k₂, 2)] := by
    obtain ⟨⟨k₁, _⟩, rest, hkeys, rfl, hrest⟩ := map_eq_cons_iff.1 (of_decide_eq_true hkeys)
    obtain ⟨⟨k₂, _⟩, none, rfl, rfl, hnone⟩ := map_eq_cons_iff.1 hrest
    cases map_eq_nil_iff.1 hnone
    exact ⟨k₁, k₂, hkeys⟩
  rw [hkeys] at htarg hrais
  refine ⟨r, s', split, surfaces, hr, hsurfs, ?_, ?_⟩
  · obtain ⟨s₂, opened, e, s₃, hpre, heval, hfait⟩ := htarg 0 _ rfl
    obtain ⟨evaluated, s₃', heval', hopen⟩ := of_yields hopen
    cases hpre
    cases heval.symm.trans heval'
    obtain ⟨htris, htoge⟩ := of_lipsAre hopen
    exact ⟨opened, s₁, e, s₃, heval, fun hf =>
      Bool.false_ne_true (htoge.1 ((hfait htris).2.1 hf))⟩
  · obtain ⟨s₂, raised, e, s₃, hpre, heval, hfait⟩ := htarg 1 _ rfl
    obtain ⟨first, s₂', hpre', hrais⟩ := of_yields hrais
    cases hpre.symm.trans hpre'
    obtain ⟨evaluated, s₃', heval', hrais⟩ := of_yields hrais
    cases heval.symm.trans heval'
    obtain ⟨htris, htoge⟩ := of_lipsAre hrais
    exact ⟨raised, s₂, e, s₃, heval, (hfait htris).2.2 (htoge.2 rfl)⟩

end ExportM

end SceneExport
