import SceneExport.Proofs.Mesh.Surfaces

/-!
# Skins of a mesh

Which bones pull at the vertices of a mesh depends on the object that shows it.  Two objects may
pull alike (`Mesh.SkinnedAlike`); then each corner of the mesh is the same vertex for both, and the
mesh is split into the same surfaces.  Only the materials of the surfaces belong to the object, so
surfaces are compared without them (`Surface.unpainted`).

If on the other hand the surfaces are the same, each corner has the same bones for both objects
(`SplitInto.sameBones`).

Steps that differ in the state that they start from may still give related results (`Agree`).
-/

namespace SceneExport

open List

/-! ### Two steps side by side -/

variable {σ τ β γ δ ε : Type} {bones bones' : GroupBones}

/-- If both steps succeed, their results are related, whatever states they start from. -/
def Agree (R : β → γ → Prop) (step : EStateM Failure σ β) (other : EStateM Failure τ γ) : Prop :=
  ∀ s t b c s' t', step s = .ok b s' → other t = .ok c t' → R b c

namespace Agree

variable {R : β → γ → Prop} {S : δ → ε → Prop} {b : β} {c : γ}

theorem pure (h : R b c) : Agree R (pure b : EStateM Failure σ β) (pure c : EStateM Failure τ γ) :=
    by
  intro s t b' c' s' t' hb hc
  cases hb
  cases hc
  exact h

theorem bind {step : EStateM Failure σ β} {other : EStateM Failure τ γ}
    {next : β → EStateM Failure σ δ} {next' : γ → EStateM Failure τ ε} (h : Agree R step other)
    (hn : ∀ b c, R b c → Agree S (next b) (next' c)) : Agree S (step >>= next)
    (other >>= next') := by
  intro s t d e s' t' hd he
  obtain ⟨b, s1, hb, hd⟩ := bind_ok hd
  obtain ⟨c, t1, hc, he⟩ := bind_ok he
  exact hn b c (h s t b c s1 t1 hb hc) s1 t1 d e s' t' hd he

theorem foldlM {f : β → δ → EStateM Failure σ β} {g : γ → δ → EStateM Failure τ γ}
    (hf : ∀ b c d, R b c → Agree R (f b d) (g c d)) (xs : List δ) (h : R b c) :
    Agree R (xs.foldlM f b) (xs.foldlM g c) := by
  induction xs generalizing b c with
  | nil => exact .pure h
  | cons x xs ih => exact (hf b c x h).bind fun _ _ => ih

variable {x : Except Failure β} {y : Except Failure γ}

theorem liftLogged (h : ∀ b c, x = .ok b → y = .ok c → R b c) : Agree R (liftM x : Logged β)
    (liftM y : Logged γ) :=
  fun _ _ b c _ _ hb hc => h b c (Logged.lift_ok hb).1 (Logged.lift_ok hc).1

/-- One computation is done twice. -/
theorem liftLogged_eq {y : Except Failure β} (h : x = y) : Agree (· = ·) (liftM x : Logged β)
    (liftM y : Logged β) :=
  .liftLogged fun _ _ hb hc => Except.ok.inj (hb.symm.trans (h.trans hc))

variable {α : Type}

theorem lift_eq {y : Except Failure β} (h : x = y) : Agree (· = ·) (liftM x : ExportM α β)
    (liftM y : ExportM α β) :=
  fun _ _ _ _ _ _ hb hc =>
    Except.ok.inj ((ExportM.lift_ok hb).1.symm.trans (h.trans (ExportM.lift_ok hc).1))

theorem ofLogged {step : Logged β} {other : Logged γ} (h : Agree R step other) :
    Agree R (liftM step : ExportM α β) (liftM other : ExportM α γ) := by
  intro s t b c s' t' hb hc
  rw [ExportM.liftLogged_apply] at hb hc
  cases hs : step s.log with
  | error e log =>
    rw [hs] at hb
    cases hb
  | ok b' log =>
    cases ho : other t.log with
    | error e log' =>
      rw [ho] at hc
      cases hc
    | ok c' log' =>
      rw [hs] at hb
      rw [ho] at hc
      cases hb
      cases hc
      exact h s.log t.log b c log log' hs ho

end Agree

variable {α : Type} {β γ : Type} {index : Int}

theorem mem_of_elementAt {β : Type} {xs : Array β} {x : β} (h : elementAt xs index = .ok x) :
    x ∈ xs := by
  obtain ⟨i, -, h⟩ := Outcome.bind_ok h
  exact Array.mem_of_getElem? (need_ok h)

theorem Logged.lift_bind_congr {x : Except Failure β} {f g : β → Logged γ}
    (h : ∀ b, x = .ok b → f b = g b) : ((liftM x : Logged β) >>= f) = liftM x >>= g := by
  cases x with
  | ok b => exact h b rfl
  | error e => rfl

/-- What is related to an item by two relations, item by item. -/
theorem exists_of_forall₂ {R S : β → γ → Prop} {xs : List β} {ys : List γ}
    (hr : List.Forall₂ R xs ys) (hs : List.Forall₂ S xs ys) {y : γ} (hy : y ∈ ys) : ∃ x, R x y ∧
    S x y := by
  induction hr with
  | nil => cases hy
  | cons hxy hr ih =>
    obtain ⟨hxy', hs⟩ := forall₂_cons.1 hs
    rcases mem_cons.1 hy with rfl | hy
    · exact ⟨_, hxy, hxy'⟩
    · exact ih hs hy

/-! ### Surfaces without their materials -/

/-- A surface under way without its material. -/
def SurfaceDraft.unpainted (d : SurfaceDraft α) : SurfaceDraft α :=
  { d with material := none }

/-- The surfaces of a mesh under way without their materials. -/
def MeshSplit.unpainted (s : MeshSplit α) : MeshSplit α :=
  { s with surfaces := s.surfaces.map SurfaceDraft.unpainted }

/-- A surface without its material. -/
def Surface.unpainted (s : Surface α) : Surface α :=
  { s with material := none }

theorem MeshSplit.map_unpainted_finish (s : MeshSplit α)
    (morphs : List (Array (Array (Option (Vertex α))))) (hasBones : Bool) :
    (s.finish morphs hasBones).map Surface.unpainted = s.unpainted.finish morphs hasBones := by
  apply ext_getElem?
  intro i
  rw [getElem?_map, getElem?_finish, getElem?_finish]
  simp [unpainted, Function.comp_def, Surface.unpainted, SurfaceDraft.unpainted]

namespace MeshSplit

variable {s s' : MeshSplit α} {d d' : SurfaceDraft α} (hs : s.unpainted = s'.unpainted)

include hs

theorem getElem?_alike (i : Nat) :
    (s.surfaces[i]?).map SurfaceDraft.unpainted = (s'.surfaces[i]?).map SurfaceDraft.unpainted := by
  have hsurfs := congrArg MeshSplit.surfaces hs
  rw [← Array.getElem?_map, ← Array.getElem?_map]
  exact congrArg (·[i]?) hsurfs

theorem surface_alike {i : Nat} (hd : need .outOfRange s.surfaces[i]? = .ok d)
    (hd' : need .outOfRange s'.surfaces[i]? = .ok d') : d.unpainted = d'.unpainted := by
  have hi := getElem?_alike hs i
  rw [need_ok hd, need_ok hd'] at hi
  exact Option.some.inj hi

theorem surfaceOf?_alike (position : Int) : s.surfaceOf? position = s'.surfaceOf? position := by
  have hplac : s.unpainted.places = s'.unpainted.places := congrArg MeshSplit.places hs
  exact congrArg (List.lookup position) hplac

theorem addSurface_alike {position : Int} (material material' : Option Reference) :
    (s.addSurface position material).unpainted = (s'.addSurface position material').unpainted := by
  obtain ⟨hsurfs, hplac⟩ := MeshSplit.mk.inj hs
  have hsize := congrArg Array.size hsurfs
  simp only [Array.size_map] at hsize
  simp [unpainted, addSurface, hsurfs, hplac, hsize, SurfaceDraft.unpainted]

end MeshSplit

variable [Scalar α]

/-! ### Corners -/

/-- Two skins pull at the vertices of a mesh alike. -/
structure Mesh.SkinnedAlike (m : Mesh α) (bones bones' : GroupBones) : Prop where
  isEmpty : bones.isEmpty = bones'.isEmpty
  influences : ∀ v ∈ m.vertices, v.influences bones = v.influences bones'

/-- Two skins have the same bones at each corner of the triangles of a mesh. -/
def Mesh.SameBones (m : Mesh α) (bones bones' : GroupBones) : Prop :=
  ∀ t ∈ m.triangles, ∀ index ∈ t.loops, ∀ loop vertex, elementAt m.loops index = .ok loop →
    elementAt m.vertices loop.vertex = .ok vertex →
    (vertex.influences bones).map Prod.fst = (vertex.influences bones').map Prod.fst

variable {m : Mesh α} {tangents : Bool}

theorem Mesh.SkinnedAlike.corner (h : m.SkinnedAlike bones bones') (tangents : Bool)
    (index : Int) : m.corner bones tangents index = m.corner bones' tangents index := by
  refine Logged.lift_bind_congr fun loop _ => Logged.lift_bind_congr fun vertex hvtx => ?_
  rw [h.influences vertex (mem_of_elementAt hvtx), h.isEmpty]

theorem Mesh.SkinnedAlike.agree (h : m.SkinnedAlike bones bones') (tangents : Bool)
    (index : Int) :
    Agree (· = ·) (m.corner bones tangents index) (m.corner bones' tangents index) := by
  rw [h.corner]
  intro log log' v w _ _ hv hw
  exact Except.ok.inj ((Mesh.vertexAt_of_corner hv).symm.trans (Mesh.vertexAt_of_corner hw))

theorem Mesh.SkinnedAlike.inShape {shape : Mesh α} (h : m.SkinnedAlike bones bones') {key : Int}
    (hshp : m.inShape key = .ok shape) : shape.SkinnedAlike bones bones' := by
  refine ⟨h.isEmpty, fun v hv => ?_⟩
  unfold Mesh.inShape at hshp
  split at hshp
  · cases hshp
    exact h.influences v hv
  · split at hshp
    · cases hshp
      exact h.influences v hv
    · obtain ⟨shapeKey, -, hshp⟩ := Outcome.bind_ok hshp
      split at hshp
      · cases hshp
        obtain ⟨⟨before, p⟩, hmem, rfl⟩ := Array.mem_map.1 hv
        exact h.influences before (Array.of_mem_zip hmem).1
      · cases hshp
        exact h.influences v hv

/-! ### Splitting -/

section Alike

variable (h : m.SkinnedAlike bones bones') (tangents : Bool) {d d' : SurfaceDraft α}

namespace SurfaceDraft

theorem addVertex_alike {e e' : SurfaceDraft α} (hd : d.unpainted = d'.unpainted) {v : Vertex α}
    {i i' : Nat} (he : d.addVertex v = .ok (i, e)) (he' : d'.addVertex v = .ok (i', e')) : i = i' ∧
    e.unpainted = e'.unpainted := by
  obtain ⟨material, vertices, signatures, faces, corners⟩ := d
  obtain ⟨material', vertices', signatures', faces', corners'⟩ := d'
  obtain ⟨-, rfl, rfl, rfl, rfl⟩ := SurfaceDraft.mk.inj hd
  obtain ⟨signature, hs, he⟩ := Outcome.bind_ok he
  obtain ⟨signature', hs', he'⟩ := Outcome.bind_ok he'
  cases hs.symm.trans hs'
  cases hfnd : signatures.findIdx? (· == signature) with
  | some j =>
    rw [hfnd] at he he'
    cases he
    cases he'
    exact ⟨rfl, rfl⟩
  | none =>
    rw [hfnd] at he he'
    cases he
    cases he'
    exact ⟨rfl, rfl⟩

include h

theorem addCorner_agree (hd : d.unpainted = d'.unpainted) (loop : Int) :
    Agree (fun r r' => r.1 = r'.1 ∧ r.2.unpainted = r'.2.unpainted)
      (d.addCorner m bones tangents loop) (d'.addCorner m bones' tangents loop) := by
  refine .bind (h.agree tangents loop) fun v w hvw => ?_
  cases hvw
  refine .bind (.liftLogged fun r r' hr hr' => addVertex_alike hd hr hr') fun (i, e) (i', e') he =>
    ?_
  obtain ⟨rfl, he⟩ : i = i' ∧ e.unpainted = e'.unpainted := he
  have hnext := congrArg (fun e : SurfaceDraft α => { e with corners := (loop, i) :: e.corners }) he
  exact .pure ⟨rfl, hnext⟩

theorem addTriangle_agree (hd : d.unpainted = d'.unpainted) (t : LoopTriangle) :
    Agree (fun e e' => e.unpainted = e'.unpainted)
      (d.addTriangle m bones tangents t) (d'.addTriangle m bones' tangents t) := by
  -- Along the loops the two surfaces stay alike, and the triangle has the same indices in both.
  refine .bind (.foldlM (R := fun r r' => r.1 = r'.1 ∧ r.2.unpainted = r'.2.unpainted)
    (fun (is, e) (is', e') loop he => ?_) t.loops ⟨rfl, hd⟩) fun (is, e) (is', e') he => ?_
  · obtain ⟨rfl, he⟩ : is = is' ∧ e.unpainted = e'.unpainted := he
    have hnext := congrArg (fun e : SurfaceDraft α => { e with faces := e.faces ++ [is] }) he
    exact .pure hnext
  · obtain ⟨rfl, he⟩ : is = is' ∧ e.unpainted = e'.unpainted := he
    refine .bind (addCorner_agree h tangents he loop) fun (i, f) (i', f') hf => ?_
    obtain ⟨rfl, hf⟩ : i = i' ∧ f.unpainted = f'.unpainted := hf
    exact .pure ⟨rfl, hf⟩

end SurfaceDraft

namespace MeshSplit

variable {s s' : MeshSplit α} (hs : s.unpainted = s'.unpainted) (surface : Nat)

include h hs

theorem addTriangle_agree (t : LoopTriangle) :
    Agree (fun r r' => r.unpainted = r'.unpainted) (s.addTriangle m bones tangents surface t)
      (s'.addTriangle m bones' tangents surface t) := by
  refine .bind (.liftLogged fun d d' hd hd' => surface_alike hs hd hd') fun d d' hd => ?_
  refine .bind (SurfaceDraft.addTriangle_agree h tangents hd t) fun e e' he => .pure ?_
  obtain ⟨hsurfs, hplac⟩ := MeshSplit.mk.inj hs
  simp [unpainted, hsurfs, hplac, he]

theorem addMorphCorner_agree (morphs : Array (Array (Option (Vertex α)))) (loop : Int) :
    Agree (· = ·) (s.addMorphCorner m bones tangents surface morphs loop)
      (s'.addMorphCorner m bones' tangents surface morphs loop) := by
  refine .bind (h.agree tangents loop) fun v w hvw => ?_
  cases hvw
  refine .bind (.liftLogged fun d d' hd hd' => surface_alike hs hd hd') fun d d' hd => ?_
  have hcrns : d.unpainted.corners = d'.unpainted.corners := congrArg SurfaceDraft.corners hd
  change d.corners = d'.corners at hcrns
  exact .bind (.liftLogged_eq (by rw [hcrns])) fun i i' hi => .pure (by rw [hi])

theorem morph_agree : Agree (· = ·) (s.morph m bones tangents) (s'.morph m bones' tangents) :=
    by
  refine .bind (.liftLogged_eq rfl) fun ts ts' hts => ?_
  cases hts
  refine .foldlM (fun morphs morphs' t hm => ?_) ts ?_
  · cases hm
    refine .bind (.liftLogged_eq (by rw [surfaceOf?_alike hs])) fun i i' hi => ?_
    cases hi
    refine .foldlM (fun morphs morphs' loop hm => ?_) _ rfl
    cases hm
    exact addMorphCorner_agree h tangents hs i morphs loop
  · -- A surface has as many vertices with its material as without.
    have hvert := congrArg (fun s : MeshSplit α =>
      s.surfaces.map fun d => d.vertices.map fun _ => (none : Option (Vertex α))) hs
    simpa [unpainted, Function.comp_def, SurfaceDraft.unpainted] using hvert

end MeshSplit

namespace ExportM

include h

variable (cfg settings' : Settings) (id id' : ObjectId)

theorem splitTriangle_agree {split split' : MeshSplit α} (hs : split.unpainted = split'.unpainted)
    (t : LoopTriangle) :
    Agree (fun r r' => r.unpainted = r'.unpainted)
    (splitTriangle cfg id m bones tangents split t)
    (splitTriangle settings' id' m bones' tangents split' t) := by
  unfold splitTriangle
  rw [MeshSplit.surfaceOf?_alike hs]
  split
  · exact .ofLogged (MeshSplit.addTriangle_agree h tangents hs _ t)
  · refine .bind (R := fun _ _ => True) (fun _ _ _ _ _ _ _ _ => True.intro)
      fun material material' _ => ?_
    have hsize := congrArg (fun s : MeshSplit α => s.surfaces.size) hs
    simp only [MeshSplit.unpainted, Array.size_map] at hsize
    rw [hsize]
    exact .ofLogged (MeshSplit.addTriangle_agree h tangents
      (MeshSplit.addSurface_alike hs material material') _ t)

/-- **A mesh that is skinned alike is split alike.** -/
theorem splitMesh_agree : Agree (fun split split' => split.unpainted = split'.unpainted)
      (splitMesh cfg id m bones tangents)
      (splitMesh settings' id' m bones' tangents) := by
  refine .bind (.lift_eq rfl) fun ts ts' hts => ?_
  cases hts
  exact .foldlM (fun split split' entry hs =>
    splitTriangle_agree h tangents cfg settings' id id' hs entry.1) ts rfl

end ExportM

end Alike

/-! ### Bones of equal surfaces -/

theorem Mesh.IsCorner.bones_eq {v : Vertex α} (h : m.IsCorner bones tangents index v)
    {loop : Loop α} {vertex : MeshVertex α} (hloop : elementAt m.loops index = .ok loop)
    (hvtx : elementAt m.vertices loop.vertex = .ok vertex) :
    v.bones = (vertex.influences bones).map fun i => (i.1 : Int) := by
  obtain ⟨loop', vertex', hloop', hvtx', -, hbns⟩ := h.place
  cases hloop.symm.trans hloop'
  cases hvtx.symm.trans hvtx'
  exact hbns

/-- **Surfaces tell the bones of a skin.**  If a mesh is split into the same vertices and faces
under two skins, the skins have the same bones at each corner. -/
theorem SplitInto.sameBones {surfaces surfaces' : List (Surface α)}
    (h : SplitInto m bones tangents surfaces) (h' : SplitInto m bones' tangents surfaces')
    (hs : surfaces.map Surface.base = surfaces'.map Surface.base) (hb : bones.ToldApart α)
    (hb' : bones'.ToldApart α) : m.SameBones bones bones' := by
  intro t ht index hindex loop vertex hloop hvtx
  obtain ⟨i, hi, -⟩ := h.own t ht
  have hlt := (List.getElem?_eq_some_iff.1 hi).1
  -- The surface of the triangle's material under each of the skins.
  obtain ⟨s, hsi⟩ : ∃ s, surfaces[i]? = some s := ⟨_, getElem?_eq_getElem (h.length ▸ hlt)⟩
  obtain ⟨s', hsi'⟩ : ∃ s, surfaces'[i]? = some s := ⟨_, getElem?_eq_getElem (h'.length ▸ hlt)⟩
  have hbase : s.base = s'.base := by
    have hbases := congrArg (·[i]?) hs
    simpa [getElem?_map, hsi, hsi'] using hbases
  have hfaces := h.faces i _ s hi hsi
  have hfaces' := h'.faces i _ s' hi hsi'
  rw [← hbase] at hfaces'
  obtain ⟨face, hface, hface'⟩ := exists_of_forall₂ hfaces hfaces' (mem_filter.2 ⟨ht, by simp⟩)
  obtain ⟨place, hplc, hplc'⟩ := exists_of_forall₂ hface hface' hindex
  obtain ⟨j, u, v, -, -, rfl, hu, hv, -, -, -, hagre⟩ := hplc
  obtain ⟨j', u', w, -, -, hj, hu', hw, -, -, -, hagre'⟩ := hplc'
  cases Int.ofNat.inj hj
  rw [← hbase, hu] at hu'
  cases hu'
  have hbns := (hagre.bones hb).symm.trans (hagre'.bones hb')
  rw [(Mesh.isCorner_of_vertexAt hv).bones_eq hloop hvtx,
    (Mesh.isCorner_of_vertexAt hw).bones_eq hloop hvtx] at hbns
  have hmap := map_injective_iff.2 (fun a b => Int.ofNat.inj : Function.Injective Int.ofNat)
  exact hmap (by simpa [Function.comp_def] using hbns)

end SceneExport
