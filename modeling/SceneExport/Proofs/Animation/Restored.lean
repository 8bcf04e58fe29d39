import Mathlib.Logic.Function.Basic
import SceneExport.Proofs.Export.Parents

/-!
# Settings that are put back

While the animations of something are exported its action is put aside, its strips are turned on,
its muted layers are heard one after the other, and the scene moves through its frames.  A session
that has exported the animations of something has the animation data of everything and the frame
that it had before (`exportAnimation_restores`).

Each change is followed as a change of the settings (`Settable.change`).  Those that belong together
undo one another: a layer is heard and muted again (`exportStashedTrack_settable`), strips are
turned on and back, the action is put aside and given back.
-/

namespace SceneExport

open List

variable {α β : Type} {a : Animated}

def ObjectData.animation? : ObjectData α → Option (AnimationData α)
  | .light l => l.animation
  | .camera c => c.animation
  | _ => none

/-- How something is animated, if it is. -/
def Scene.animation? (s : Scene α) : Animated → Option (AnimationData α)
  | .object id => s.objects[id]?.bind (·.animation)
  | .data id => s.objects[id]?.bind (·.data.animation?)
  | .shapeKeys id => (s.meshes[id]?.bind (·.shapeKeys)).bind (·.animation)

/-- What the export of an animation sets: how everything is animated, and the frame. -/
structure Settable (α : Type) where
  animation : Animated → Option (AnimationData α)
  frame : Int

def Session.settable (s : Session α) : Settable α :=
  ⟨s.scene.animation?, s.scene.frame⟩

namespace Settable

variable {x : Settable α} {f : AnimationData α → AnimationData α}

/-- The settings with a change of how one thing is animated. -/
def change (x : Settable α) (a : Animated) (f : AnimationData α → AnimationData α) : Settable α :=
  { x with animation := Function.update x.animation a ((x.animation a).map f) }

theorem change_change (x : Settable α) (a : Animated) (f g : AnimationData α → AnimationData α) :
    (x.change a f).change a g = x.change a (g ∘ f) := by
  simp [change]

theorem change_eq_self (h : ∀ d ∈ x.animation a, f d = d) : x.change a f = x := by
  have hmap : (x.animation a).map f = x.animation a := by
    cases hd : x.animation a with
    | none => rfl
    | some d => exact congrArg some (h d hd)
  simp [change, hmap]

theorem mem_change {d : AnimationData α} : d ∈ (x.change a f).animation a ↔ ∃ d0 ∈ x.animation a,
    f d0 = d := by
  simp [change]

end Settable

/-! ### Changes of the scene -/

/-- A change of one element, where it is seen as a change of what the element has. -/
theorem bind_getElem?_modify {γ : Type} {f : β → β} {g : β → Option γ} {h : γ → γ}
    (hg : ∀ b, g (f b) = (g b).map h) (xs : Array β) (i j : Nat) :
    (xs.modify i f)[j]?.bind g = if i = j then (xs[j]?.bind g).map h else xs[j]?.bind g := by
  rw [Array.getElem?_modify]
  split
  · cases xs[j]? <;> simp [hg]
  · rfl

/-- A change of an object that is seen as a change of its animation data, and of the data that it
shows. -/
theorem Scene.animation?_updateObject (s : Scene α) (id : ObjectId) {f : Object α → Object α}
    {g h : AnimationData α → AnimationData α} (hf : ∀ o, (f o).animation = o.animation.map g)
    (hd : ∀ o, (f o).data.animation? = o.data.animation?.map h) :
    (s.updateObject id f).animation? = Function.update (Function.update s.animation? (.object id)
      ((s.animation? (.object id)).map g)) (.data id) ((s.animation? (.data id)).map h) := by
  funext b
  cases b with
  | object j =>
    rw [Function.update_of_ne (by simp), Function.update_apply]
    refine (bind_getElem?_modify hf s.objects id j).trans ?_
    simp only [Animated.object.injEq, eq_comm (a := j)]
    split
    · next hj => subst hj; rfl
    · rfl
  | data j =>
    rw [Function.update_apply, Function.update_of_ne (by simp)]
    refine (bind_getElem?_modify hd s.objects id j).trans ?_
    simp only [Animated.data.injEq, eq_comm (a := j)]
    split
    · next hj => subst hj; rfl
    · rfl
  | shapeKeys j => rfl

namespace ExportM

open Session (settable)

theorem changeAnimation_settable (a : Animated) (f : AnimationData α → AnimationData α)
    (x : Settable α) :
    Brings settable (· = x) (changeAnimation a f) fun _ => (· = x.change a f) := by
  rintro s rfl u s' h
  suffices hdata : s'.scene.animation? = (s.settable.change a f).animation ∧
    s'.scene.frame = s.scene.frame by
    exact congrArg₂ Settable.mk hdata.1 hdata.2
  cases a with
  | object id =>
    cases h
    refine ⟨?_, rfl⟩
    refine (Scene.animation?_updateObject (g := f) (h := fun d => d) s.scene id (fun _ => rfl)
      fun o => by simp).trans ?_
    simp [Settable.change, settable]
  | data id =>
    cases h
    refine ⟨?_, rfl⟩
    refine (Scene.animation?_updateObject (g := fun d => d) (h := f) s.scene id (fun o => by simp)
      fun o => by cases o.data <;> rfl).trans ?_
    simp [Settable.change, settable]
  | shapeKeys id =>
    cases h
    refine ⟨funext fun b => ?_, rfl⟩
    cases b with
    | object j => rfl
    | data j => rfl
    | shapeKeys j =>
      have hkeys (m : Mesh α) :
        (m.shapeKeys.map fun k : ShapeKeys α => { k with animation := k.animation.map f }).bind
          (·.animation) = (m.shapeKeys.bind (·.animation)).map f := by
        cases m.shapeKeys <;> rfl
      simp only [Settable.change, settable, Function.update_apply, Animated.shapeKeys.injEq,
        eq_comm (a := j), Scene.animation?, Option.bind_assoc]
      refine (bind_getElem?_modify hkeys s.scene.meshes id j).trans ?_
      split
      · next hj => rw [hj]
      · rfl

theorem animation?_ok {a : Animated} {s s' : Session α} {d : Option (AnimationData α)}
    (h : animation? a s = .ok d s') : d = s.scene.animation? a ∧ s' = s := by
  have hkp : Keeps false id (animation? a : ExportM α _) := animation?_keeps a
  refine ⟨?_, hkp.ok h⟩
  cases a with
  | object id =>
    obtain ⟨o, ho, h⟩ := look_ok object_ok h
    cases h
    simp [Scene.animation?, ho]
  | data id =>
    obtain ⟨o, ho, h⟩ := look_ok object_ok h
    simp only [Scene.animation?, ho, Option.bind_some]
    cases hd : o.data <;> rw [hd] at h <;> cases h <;> rfl
  | shapeKeys id =>
    cases h
    rfl

/-! ### Players and animations -/

variable {x : Settable α} {cfg : Settings} {node : Option NodeId} {player : NodeId}

theorem changeFile_settable (f : SceneFile α → SceneFile α) : Keeps false settable (changeFile f) :=
  .modify fun _ => rfl

theorem playerFor_settable (target : Option NodeId) :
    Keeps false (settable : Session α → Settable α) (playerFor cfg target) := by
  refine .of_ok fun s player s' h => ?_
  have hmake (parent : Option NodeId) : Gets settable (· = s.settable)
      (makeNode "AnimationPlayer" "AnimationPlayer" parent (.player none)) fun _ _ => True := by
    intro t ht i t' h
    obtain ⟨-, _, -, rfl⟩ := makeNode_push h
    exact ⟨ht, trivial⟩
  have hfile (f : SceneFile α → SceneFile α) : Lasts settable (· = s.settable) (changeFile f) :=
    (changeFile_settable f).leads (· = s.settable)
  exact lasts_playerFor hmake (fun _ _ => hfile _) (fun _ => hfile _) s rfl player s' h

variable [Scalar α]

instance : Trackless (settable : Session α → Settable α) where
  aside _ _ _ _ _ _ := rfl
  detail _ _ _ := rfl
  playing _ _ _ := rfl
  pose s id := by
    refine congrArg₂ Settable.mk ?_ rfl
    refine (Scene.animation?_updateObject (g := fun d => d) (h := fun d => d) s.scene id
      (fun o => by simp) fun o => by cases o.data <;> simp [restBones, ObjectData.animation?]).trans
      ?_
    simp

instance : Resourceless (settable : Session α → Settable α) where

theorem createAnimation_settable (name : String) :
    Keeps false settable (createAnimation player name : ExportM α Nat) := by
  refine .bind (liftLogged_keeps _) fun animation => .bind (forceInternal_keeps _) fun id => ?_
  exact .bind (changeFile_settable _) fun _ => .pure

/-! ### Layers that are muted -/

variable {heard : List (StripTrack α)} {index : Nat}

omit [Scalar α] in
/-- What is muted is muted again after it was heard. -/
theorem modify_muted {tracks : List (StripTrack α)} (h : ∀ t ∈ tracks[index]?, t.muted = true) :
    (tracks.modify index fun t => { t with muted := false }).modify index
    (fun t => { t with muted := true }) = tracks := by
  apply ext_getElem?
  intro j
  simp only [getElem?_modify]
  split
  · next hj =>
    subst hj
    cases ht : tracks[index]? with
    | none => rfl
    | some t => simp [← h t ht]
  · simp

theorem exportStashedTrack_settable {track : StripTrack α}
    (hmuted : ∀ d ∈ x.animation a, ∀ t ∈ d.tracks[index]?, t.muted = true) :
    Lasts settable (· = x) (exportStashedTrack cfg a node player heard track index) := by
  refine .bind ((createAnimation_settable _).leads (· = x)) fun id => ?_
  refine .bind ((needsBaking_keeps a).leads (· = x)) fun baking => ?_
  cases baking with
  | true =>
    refine .bind (changeAnimation_settable a _ x) fun _ =>
      .bind ((playStrips_keeps _ _ _).leads (· = _)) fun _ => ?_
    refine (changeAnimation_settable a _ _).post fun _ s hs => ?_
    rw [hs, Settable.change_change]
    refine Settable.change_eq_self fun d hd => ?_
    simp only [Function.comp_apply, modify_muted (hmuted d hd)]
  | false =>
    exact .bind ((playStrips_keeps _ _ _).leads (· = x)) fun _ => (playTracks_keeps _ _ _ _).leads
      (· = x)

theorem exportStashed_settable {muted : List (StripTrack α × Nat)}
    (hmuted : ∀ d ∈ x.animation a, ∀ m ∈ muted, ∀ t ∈ d.tracks[m.2]?, t.muted = true) :
    Brings settable (· = x) (exportStashed cfg a node player heard muted) fun _ =>
      (· = x.change a fun d => { d with action := none }) := by
  rintro s rfl u s' h
  obtain ⟨before, s, hpre, h⟩ := bind_ok h
  obtain ⟨rfl, rfl⟩ := animation?_ok hpre
  obtain ⟨_, s2, haside, h⟩ := bind_ok h
  have hs2 := changeAnimation_settable a _ _ s rfl _ s2 haside
  obtain ⟨_, s3, hloop, h⟩ := bind_ok h
  -- Each layer is muted again before the next one is heard.
  have hs3 : s3.settable = s.settable.change a fun d =>
    { d with action := none, usesStrips := true } := by
    refine (Leads.loop (fun rest _ t => t.settable = _ ∧ rest ⊆ muted) (fun m rest _ => ?_) muted _
      s2 ⟨hs2, List.Subset.refl _⟩ _ s3 hloop).1
    rintro t ⟨ht, hrest⟩ r t' hstep
    obtain ⟨_, t1, htrack, hstep⟩ := bind_ok hstep
    cases hstep
    refine ⟨_, rfl, exportStashedTrack_settable (fun d hd => ?_) t ht _ _ htrack,
      (cons_subset.1 hrest).2⟩
    obtain ⟨d0, hd0, rfl⟩ := Settable.mem_change.1 hd
    exact hmuted d0 hd0 m (hrest mem_cons_self)
  cases hd : s.scene.animation? a with
  | none =>
    rw [hd] at h
    cases h
    rw [hs3]
    simp [Settable.change, settable, hd]
  | some d =>
    rw [hd] at h
    rw [changeAnimation_settable a _ _ s3 hs3 u s' h, Settable.change_change]
    simp [Settable.change, settable, hd]

omit [Scalar α] in
/-- The action of something is given back, whether it was put aside or not. -/
theorem changeAction_settable {action : Option ActionId} (hacti : ∀ d ∈ x.animation a, d.action =
    action) :
    Brings settable (fun y => y = x ∨ y = x.change a fun d => { d with action := none })
      (changeAnimation a fun d => { d with action }) fun _ => (· = x) := by
  rintro s (hs | hs) u s' h
  · rw [changeAnimation_settable a _ _ s hs u s' h]
    exact Settable.change_eq_self fun d hd => by simp only [← hacti d hd]
  · rw [changeAnimation_settable a _ _ s hs u s' h, Settable.change_change]
    exact Settable.change_eq_self fun d hd => by simp only [Function.comp_apply, ← hacti d hd]

/-- **Settings are put back.**  However something is animated, and with whichever settings: if its
animations are exported, how everything is animated (the action, whether strips are used, and the
layers with their mute flags) and the frame of the scene are what they were. -/
theorem exportAnimation_restores {s s' : Session α} {u : Unit}
    (h : exportAnimation cfg a node s = .ok u s') :
    s'.scene.animation? = s.scene.animation? ∧ s'.scene.frame = s.scene.frame := by
  suffices hleads : Lasts settable (· = s.settable)
    (exportAnimation cfg a node : ExportM α Unit) by
    have hs := hleads s rfl u s' h
    exact ⟨congrArg Settable.animation hs, congrArg Settable.frame hs⟩
  generalize s.settable = x
  unfold exportAnimation
  split
  · exact .done
  have hdata : Gets settable (· = x) (animation? a : ExportM α _) fun data _ => data =
    x.animation a := by
    rintro t rfl data t' ht
    obtain ⟨rfl, rfl⟩ := animation?_ok ht
    exact ⟨rfl, rfl⟩
  refine hdata.bind fun data => .of_fact ?_
  rintro rfl
  refine .bind ((needsBaking_keeps a).leads (· = x)) fun baking => ?_
  split
  · exact .done
  extract_lets tracks action restored
  split
  next muted heard hpart =>
  extract_lets heard
  refine .bind ((playerFor_settable node).leads (· = x)) fun player => ?_
  extract_lets stashed
  have hr (r : Unit) : Brings settable (fun y => y = x ∨ y = x.change a fun d =>
    { d with action := none }) (restored r)
      fun _ => (· = x) :=
    changeAction_settable fun d hd => by simp [action, Option.mem_def.1 hd]
  have hmuted : ∀ d ∈ x.animation a, ∀ m ∈ muted, ∀ t ∈ d.tracks[m.2]?, t.muted = true := by
    intro d hd m hm t ht
    rw [partition_eq_filter_filter] at hpart
    obtain rfl : _ = muted := congrArg Prod.fst hpart
    have hm : m ∈ tracks ∧ m.1.muted = true := mem_filter.1 hm
    have htrac : d.tracks[m.2]? = some m.1 := by
      simpa [tracks, Option.mem_def.1 hd, mem_zipIdx_iff_getElem?] using (mem_filter.1 hm.1).1
    cases htrac.symm.trans ht
    exact hm.2
  have hs (r : Unit) : Lasts settable (· = x) (stashed r) := by
    unfold stashed
    split
    · exact .bind (exportStashed_settable hmuted) fun _ => (hr ()).pre fun _ => .inr
    · exact (hr ()).pre fun _ => .inl
  have hcrea (name : String) : Lasts settable (· = x)
      (createAnimation player name : ExportM α Nat) := (createAnimation_settable name).leads (· = x)
  split
  · exact .bind (exportActiveAction_leads (P := (· = x)) hcrea _ _ _ _) hs
  · split
    · exact .bind (exportHeardTracks_leads (P := (· = x)) hcrea _ _ _ _) hs
    · exact hs ()

end ExportM

/-- A lift that is held by a constraint, with an action, a layer that is muted and one that is
heard. -/
def liftPlayed : Session ℚ where
  scene.frame := 7
  scene.actions := #[{ name := "Rise", start := 1, stop := 2, curves := [] }]
  scene.objects := #[{ Object.bare "Lift" .empty none with
    constraints := 1
    animation := some { action := some 0, usesStrips := false,
                        tracks := [⟨"Up", false, [⟨"Go", some 0, 1, 2⟩]⟩,
                        ⟨"Down", true, [⟨"Sink", some 0, 3, 4⟩]⟩] } }]
  file.tree := (Tree.push {} [("type", .text "Spatial"), ("name", .text "Scene")] none .plain).push
    [("name", .text "Lift"), ("type", .text "Spatial"), ("parent", .text ".")] (some 0) .plain

namespace ExportM

/-- Two animations are made of the lift, one of them with the muted layer heard at another frame. -/
theorem exportAnimation_restores_lift :
    ∃ s', exportAnimation {} (.object 0) (some 1) liftPlayed = .ok () s' ∧
    s'.file.internal.items.size = 2 ∧ s'.scene.animation? = liftPlayed.scene.animation? ∧
    s'.scene.frame = 7 := by
  obtain ⟨_, s', h, hsize⟩ := exists_yield (exportAnimation {} (.object 0) (some 1)) liftPlayed
    (fun _ s => s.file.internal.items.size == 2)
  exact ⟨s', h, eq_of_beq hsize, exportAnimation_restores h⟩

end ExportM

end SceneExport
