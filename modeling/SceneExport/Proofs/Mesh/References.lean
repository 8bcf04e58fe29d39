import SceneExport.Proofs.Material.References
import SceneExport.Proofs.Mesh.Surfaces

/-!
# References of meshes and shapes

A mesh refers to the materials of its surfaces, which are exported while it is split, and a particle
system refers to the mesh that it shows.  Curves and collision shapes refer to nothing.  All of them
keep the ledger of the file sound, and give a resource of their type.
-/

namespace SceneExport

open List

variable {α β : Type} {tangents : Bool} {bones : GroupBones} {m : Mesh α}

/-! ### Surfaces -/

/-- The materials of the surfaces of a mesh are there. -/
def MeshSplit.Refers (split : MeshSplit α) (l : Ledger α) : Prop :=
  ∀ d ∈ split.surfaces, ∀ r ∈ d.material, l.Allows materialTypes r

variable {split : MeshSplit α} {l : Ledger α}

section Split

variable [Scalar α] (d : SurfaceDraft α)

theorem SurfaceDraft.addCorner_material (loop : Int) :
    Leads (fun _ => True) (d.addCorner m bones tangents loop) fun x _ =>
      x.2.material = d.material := by
  refine .bind (Q := fun _ _ => True) (fun _ _ _ _ _ => trivial) fun v => ?_
  refine .bind .liftLogged fun (i, d') => .of_fact fun hd => .pure fun _ _ => ?_
  obtain ⟨signature, -, hd⟩ := Outcome.bind_ok hd
  split at hd <;> cases hd <;> rfl

theorem SurfaceDraft.addTriangle_material (t : LoopTriangle) :
    Leads (fun _ => True) (d.addTriangle m bones tangents t) fun d' _ =>
      d'.material = d.material := by
  have hloop := Leads.foldlM (fun _ r (_ : Log) => r.2.material = d.material) (f := fun r loop => do
      let x ← r.2.addCorner m bones tangents loop
      return (r.1 ++ [(x.1 : Int)], x.2)) (fun loop rest r => ?_) t.loops ([], d)
  · exact .bind (hloop.pre (fun _ _ => rfl)) fun x => .pure fun _ h => h
  · intro log hr r' log' h
    obtain ⟨x, log1, hx, h1⟩ := bind_ok h
    cases h1
    exact (r.2.addCorner_material loop log trivial x log' hx).trans hr

theorem MeshSplit.addTriangle_refers (h : split.Refers l) (surface : Nat) (t : LoopTriangle) :
    Leads (fun _ => True) (split.addTriangle m bones tangents surface t) fun split' _ =>
      split'.Refers l := by
  refine .bind .liftLogged fun d => .of_fact fun hd => ?_
  refine .bind (d.addTriangle_material t) fun d' => .pure fun _ hm => ?_
  intro e he r hr
  rcases Array.mem_or_eq_of_mem_setIfInBounds he with he | rfl
  · exact h e he r hr
  · rw [hm] at hr
    exact h d (Array.mem_of_getElem? (need_ok hd)) r hr

end Split

namespace ExportM

open Ledger
open Session (ledger)

variable [Scalar α] {base : Ledger α} (b : RigidBody α) (convex : Bool) (name : String)
 (cfg : Settings) (id : ObjectId)

theorem surfaceMaterial_leads {id : ObjectId} {position : Int} :
    Brings ledger base.Grown (surfaceMaterial cfg id m position) fun material =>
      base.With (fun l => ∀ r ∈ material, l.Allows materialTypes r) := by
  have hnone {s : Session α} (h : base.Grown s.ledger) :
      base.With (fun l => ∀ r ∈ (none : Option Reference), l.Allows materialTypes r) s.ledger :=
    ⟨h, by simp⟩
  unfold surfaceMaterial
  split
  · exact .pure fun _ h => hnone h
  · refine .keeping .lift fun found => ?_
    split
    · exact .pure fun _ h => hnone h
    · split
      · exact .pure fun _ h => hnone h
      · refine (Leads.map _ (exportMaterial_leads _ _ _)).post ?_
        rintro _ s ⟨r, hr, rfl⟩
        exact ⟨hr.grown, by simpa using hr.fact⟩

theorem splitTriangle_leads {id : ObjectId} {split : MeshSplit α} {t : LoopTriangle} :
    Leads (fun s => base.With split.Refers s.ledger)
      (splitTriangle cfg id m bones tangents split t) fun split' s =>
        base.With split'.Refers s.ledger := by
  have hadd (split : MeshSplit α) (surface : Nat) : Leads (fun s => base.With split.Refers s.ledger)
        (liftM (split.addTriangle m bones tangents surface t) : ExportM α (MeshSplit α))
        fun split' s => base.With split'.Refers s.ledger := by
    intro s hs split' s' h
    have hkp : Keeps true Session.ledger
        (liftM (split.addTriangle m bones tangents surface t) : ExportM α (MeshSplit α)) :=
      liftLogged_keeps _
    have hrefe := Leads.ofLogged (MeshSplit.addTriangle_refers hs.fact surface t) s trivial split'
      s' h
    rw [hkp.ok h]
    exact ⟨hs.grown, hrefe⟩
  unfold splitTriangle
  split
  · exact hadd _ _
  -- The new material may add to the ledger, under which the materials of the other surfaces stay
  -- allowed.
  · refine .bind (carrying (fun _ => surfaceMaterial_leads _) fun h hl d hd r hr =>
      hl.allows (h d hd r hr)) fun material => (hadd _ _).pre (fun s hs => ⟨hs.grown, ?_⟩)
    intro d hd r hr
    rcases Array.mem_push.1 hd with hd | rfl
    · exact hs.fact.1 d hd r hr
    · exact hs.fact.2 r hr

theorem splitMesh_leads (m : Mesh α) (bones : GroupBones) (tangents : Bool) :
    Brings ledger base.Grown (splitMesh cfg id m bones tangents) fun split =>
    base.With split.Refers := by
  refine .keeping .lift fun triangles => ?_
  refine (Leads.foldlM (fun _ (split : MeshSplit α) (s : Session α) =>
    base.With split.Refers s.ledger) (fun t _ split => ?_) triangles {}).pre
      (fun s hs => ⟨hs, fun d hd => ?_⟩)
  · exact splitTriangle_leads _
  · simp at hd

omit [Scalar α] in
theorem assembled_fits (h : split.Refers l) {name : String} {keys : Option (ShapeKeys α)}
    {morphs : List (Array (Array (Option (Vertex α))))} {hasBones : Bool} :
    l.Fits ["ArrayMesh"] (assembled name split.places keys (split.finish morphs hasBones)) := by
  have hnms : ((keys.map morphProperties).getD []).Plain := by
    cases keys with
    | none => exact forall_mem_nil _
    | some keys =>
      have harray (b : Brackets) : (Value.array b
          ((morphKeys keys).map fun k => .quoted k.1.name) : Value α).Plain := by
        refine Value.plain_array b fun v hv => ?_
        obtain ⟨k, -, rfl⟩ := mem_map.1 hv
        rfl
      intro p hp
      rcases mem_cons.1 hp with rfl | hp
      · exact harray _
      · cases mem_singleton.1 hp
        rfl
  have hst : l.Fits ["ArrayMesh"] (((keys.map morphProperties).getD []).foldl
      (fun r p => r.set p.1 p.2) (.ofType "ArrayMesh" name (.mesh split.places))) :=
    l.fits_of_plain (Resource.plainOf_ofType.foldl_set hnms)
  refine hst.foldl_set Surface.propertyName Value.surface fun surface hs r hr => ?_
  obtain ⟨⟨d, i⟩, hd, rfl⟩ := mem_map.1 hs
  have hmem : d ∈ split.surfaces := Array.mem_toList_iff.1 (fst_mem_of_mem_zipIdx hd)
  exact h d hmem r (Option.mem_toList.1 hr)

theorem meshResource_leads {id : ObjectId} :
    Brings ledger base.Grown (meshResource cfg id m bones tangents) fun r =>
      base.With (·.Fits ["ArrayMesh"] r) := by
  intro s hs r s' h
  obtain ⟨split, s1, o, morphs, hsplit, -, hmorp, rfl⟩ := meshResource_ok h
  have hmade := splitMesh_leads cfg id m bones tangents s hs split s1 hsplit
  have hkp : Keeps true Session.ledger ((exportedMorphs cfg s1 o).mapM fun k =>
      exportMorph cfg id split bones tangents k.2) :=
    .mapM (fun _ => exportMorph_keeps _ _) _
  rw [hkp.ok hmorp]
  exact ⟨hmade.grown, assembled_fits hmade.fact⟩

theorem exportMesh_leads (bones : GroupBones) :
    Brings ledger base.Grown (exportMesh cfg id bones) fun found =>
    base.With (·.Finds found ["ArrayMesh"]) := by
  refine .keeping (object_keeps _) fun o => .keeping .lift fun key => ?_
  refine .bind (findInternal?_leads (.mesh key)) fun found => ?_
  split
  · exact .pure fun _ h => h
  · refine .mono ?_ (fun _ h => h.grown) fun _ _ h => h
    refine .keeping (evaluate_keeps _ _ _ _ _) fun x => ?_
    split
    extract_lets rest
    have hr (number : Option Nat) : Brings ledger (base.With (·.Finds number ["ArrayMesh"]))
      (rest number) fun found =>
      base.With (·.Finds found ["ArrayMesh"]) :=
      .keeping (release_keeps _) fun _ => .pure fun _ h => h
    split
    · split
      · refine .bind ?_ hr
        exact .pure fun _ h => ⟨h, finds_none⟩
      · refine .bind (meshResource_leads _) fun r => .bind ?_ hr
        refine (Leads.map _ (addInternal_leads (.mesh key) r)).post ?_
        rintro _ s ⟨n, hn, rfl⟩
        exact ⟨hn.grown, finds_some hn.fact⟩
    · refine .bind ?_ hr
      exact .pure fun _ h => ⟨h, finds_none⟩

/-! ### Particles, curves and collision shapes -/

theorem system_fits {mesh : Option Nat} (h : l.Finds mesh ["ArrayMesh"]) (s : ParticleSystem α) :
    Outcome.Gives (l.Fits ["MultiMesh"]) (s.resource mesh) := by
  refine .skip fun transforms => .pure ?_
  have hst : l.Fits ["MultiMesh"] (.ofType "MultiMesh" s.name .plain) :=
    l.fits_of_plain Resource.plainOf_ofType
  refine (((hst.set fun r hr => ?_).set fun r hr => ?_).set fun r hr => ?_).set fun r hr => ?_
  · cases hr
  · cases hr
  · rw [mem_singleton.1 hr]
    -- Without a mesh the number is left out, and the reference names nothing.
    cases mesh with
    | none => rfl
    | some n => exact h n rfl
  · cases hr

theorem exportSystem_leads (index : Nat) (system : ParticleSystem α) (mesh : Option Nat) :
    Brings ledger (base.With (·.Finds mesh ["ArrayMesh"])) (exportSystem id index system mesh)
    fun n =>
      base.With (·.IsA n ["MultiMesh"]) := by
  refine .bind (carrying (fun _ => findInternal?_leads (.particles id index)) fun h hl n hn =>
    hl.isA (h n hn)) fun found => ?_
  split
  · exact .pure fun _ h => ⟨h.grown, h.fact.2 _ rfl⟩
  · refine .bind .lift fun r => .of_fact fun hr => ?_
    exact (addInternal_leads (.particles id index) r).mono
      (fun s hs => ⟨hs.grown, system_fits hs.fact.1 system r hr⟩) fun _ _ h => h

theorem spline_plain (spline : Spline α) (name : String) :
    Outcome.Gives (Resource.PlainOf ["Curve3D"]) (spline.resource name) := by
  refine .skip fun points => .skip fun triples => .pure ?_
  refine Resource.plainOf_ofType.set _ (Value.plain_map fun e he => ?_)
  rcases mem_cons.1 he with rfl | he
  · exact Value.plain_array _ Value.plain_reals
  · cases mem_singleton.1 he
    refine Value.plain_array _ fun v hv => ?_
    obtain ⟨p, -, rfl⟩ := mem_map.1 hv
    rfl

theorem exportSpline_leads (curve : CurveData α) :
    Brings ledger base.Grown (exportSpline id curve) fun n => base.With (·.IsA n ["Curve3D"]) := by
  refine .keeping .lift fun first => .bind .lift fun r => .of_fact fun hr => ?_
  refine .bind (findInternal?_leads (.spline id 0)) fun found => ?_
  split
  · exact .pure fun _ h => ⟨h.grown, h.fact _ rfl⟩
  · refine (addInternal_leads (.spline id 0) r).pre (fun s hs => ⟨hs.grown, ?_⟩)
    exact fits_of_plain (spline_plain first curve.name r hr)

section

omit [Scalar α]

theorem withMargin_plain {r : Resource α} {types : List String} (h : r.PlainOf types) :
    (withMargin b r).PlainOf types := by
  unfold withMargin
  split
  · exact h.set _ rfl
  · exact h

theorem meshShape_plain {type property : String} {b : RigidBody α}
    {points : List (List α)} : (meshShape type property b m points).PlainOf [type] :=
  withMargin_plain b (Resource.plainOf_ofType.set _ (Value.plain_array _ Value.plain_reals))

theorem shapeOfMesh?_plain (b : RigidBody α) {mesh : Option (Mesh α)} :
    Outcome.Gives (fun made => ∀ r ∈ made, r.PlainOf ["ConvexPolygonShape", "ConcavePolygonShape"])
    (shapeOfMesh? convex b mesh) := by
  unfold shapeOfMesh?
  split
  · exact .pure (by simp)
  · split
    · refine .pure fun r hr => ?_
      cases hr
      exact meshShape_plain.weaken (by simp)
    · split
      · exact .pure (by simp)
      · refine .skip fun points => .pure fun r hr => ?_
        cases hr
        exact meshShape_plain.weaken (by simp)

end

theorem exportMeshShape_leads (b : RigidBody α) (convex : Bool) :
    Brings ledger base.Grown (exportMeshShape cfg id b convex) fun found =>
      base.With (·.Finds found ["ConvexPolygonShape", "ConcavePolygonShape"]) := by
  refine .keeping (object_keeps _) fun o => ?_
  refine .keeping .lift fun meshKey => ?_
  extract_lets key
  refine .bind (findInternal?_leads key) fun found => ?_
  split
  · exact .pure fun _ h => h
  · refine .mono ?_ (fun _ h => h.grown) fun _ _ h => h
    refine .keeping (evaluate_keeps _ _ _ _ _) fun x => ?_
    split
    refine .bind .lift fun shape => .of_fact fun hshp => ?_
    have hpln := shapeOfMesh?_plain convex b shape hshp
    extract_lets rest
    have hr (number : Option Nat) : Brings ledger
      (base.With (·.Finds number ["ConvexPolygonShape", "ConcavePolygonShape"])) (rest number)
      fun found =>
      base.With (·.Finds found ["ConvexPolygonShape", "ConcavePolygonShape"]) :=
      .keeping (release_keeps _) fun _ => .pure fun _ h => h
    split
    · refine .bind ?_ hr
      refine (Leads.map _ (addInternal_leads key _)).mono
        (fun s hs => ⟨hs, fits_of_plain (hpln _ rfl)⟩) ?_
      rintro _ s ⟨n, hn, rfl⟩
      exact ⟨hn.grown, finds_some hn.fact⟩
    · refine .bind ?_ hr
      exact .pure fun _ h => ⟨h, finds_none⟩

theorem simpleShape?_plain (sizes : List α) :
    Outcome.Gives (fun made => ∀ r ∈ made, r.PlainOf ["BoxShape", "SphereShape", "CapsuleShape"])
      (simpleShape? b name sizes) := by
  have hst (type : String) : (Resource.ofType type name .plain : Resource α).PlainOf [type] :=
    Resource.plainOf_ofType
  refine .skip fun size => ?_
  split
  · refine .pure fun r hr => ?_
    cases hr
    refine ((hst "BoxShape").set _ ?_).weaken (by simp)
    rfl
  · refine .pure fun r hr => ?_
    cases hr
    exact ((hst _).set _ (Value.plain_real _)).weaken (by simp)
  · refine .pure fun r hr => ?_
    cases hr
    exact (((hst _).set _ (Value.plain_real _)).set _ (Value.plain_real _)).weaken (by simp)
  · exact .pure (by simp)

theorem exportSimpleShape_leads (o : Object α) (b : RigidBody α) (name : String) :
    Brings ledger base.Grown (exportSimpleShape id o b name) fun found =>
      base.With (·.Finds found ["BoxShape", "SphereShape", "CapsuleShape"]) := by
  refine .keeping .lift fun sizes => .bind .lift fun shape => .of_fact fun hshp => ?_
  have hpln := simpleShape?_plain b name sizes shape hshp
  split
  · refine (Leads.map _ (addInternal_leads (.body id) _)).mono
      (fun s hs => ⟨hs, fits_of_plain (withMargin_plain b (hpln _ rfl))⟩) ?_
    rintro _ s ⟨n, hn, rfl⟩
    exact ⟨hn.grown, finds_some hn.fact⟩
  · exact .keeping warn_keeps fun _ => .pure fun _ h => ⟨h, finds_none⟩

end ExportM

end SceneExport
