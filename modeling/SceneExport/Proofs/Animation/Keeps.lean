import SceneExport.Proofs.Export.Outline

/-!
# What animations keep

Tracks are details of the animations that they are added to, and while an action is exported
settings of objects are changed.  Views that show none of this (`Tracked`) stay as they are
(`playAction_keeps`, `playTracks_keeps`), and so does the outline of the session.  Baking goes
through the frames of the scene and back to the first of them; it stays where it is if it fails, so
of what bakes this is said only if it succeeds.

All else that the export of an animation does is to make a player and animations
(`exportAnimation_plays`).
-/

namespace SceneExport

@[simp]
theorem Role.isSkeleton_playing (r : Role) (animation : Nat) : (r.playing animation).isSkeleton =
    r.isSkeleton := by
  cases r <;> rfl

/-- The view shows nothing of tracks, of which animation a player starts with and of the pose of
bones. -/
class Trackless {α γ : Type} [Scalar α] (view : Session α → γ) : Prop extends Aside view where
  detail : ∀ (s : Session α) id detail, view { s with file := { s.file with
    internal := s.file.internal.update id fun r => { r with detail } } } = view s
  playing : ∀ (s : Session α) player id, view { s with file := { s.file with
    tree := s.file.tree.update player fun n => { n with role := n.role.playing id } } } = view s
  pose : ∀ (s : Session α) id, view { s with scene := s.scene.updateObject id fun o =>
    { o with data := ExportM.restBones o.data } } = view s

/-- The view shows nothing of tracks and of which animation a player starts with, and nothing of
what is animated but what lasts. -/
class Tracked {α γ : Type} (view : Session α → γ) : Prop extends Quiet view where
  detail : ∀ (s : Session α) id detail, view { s with file := { s.file with
    internal := s.file.internal.update id fun r => { r with detail } } } = view s := by intros; rfl
  meshes : ∀ (s : Session α) meshes, view { s with scene := { s.scene with meshes } } = view s := by
    intros; rfl
  playing : ∀ (s : Session α) player id, view { s with file := { s.file with
    tree := s.file.tree.update player fun n => { n with role := n.role.playing id } } } = view s

instance {α : Type} : Tracked (Session.outline : Session α → Outline α) where
  playing s player id := by
    have hn (n : Node α) : { n with role := n.role.playing id }.outline = n.outline := by
      simp only [Node.outline, Role.isSkeleton_playing]
    simp only [Session.outline, Tree.update, map_modify Node.outline hn]

instance {α γ : Type} [Scalar α] {view : Session α → γ} [Tracked view] : Trackless view where
  detail := Tracked.detail
  playing := Tracked.playing
  pose s id := by
    refine Quiet.object s id _ fun o => ?_
    have ht : (ExportM.restBones o.data).type? = o.data.type? := by cases o.data <;> rfl
    have hm : (ExportM.restBones o.data).mesh? = o.data.mesh? := by cases o.data <;> rfl
    have hs : (ExportM.restBones o.data).splines = o.data.splines := by cases o.data <;> rfl
    simp [Object.lasting, Object.outline, ht, hm, hs]

/-- What follows from a view shows no more than the view. -/
theorem Tracked.map {α γ δ : Type} {view : Session α → γ} [Tracked view] (f : γ → δ) :
    Tracked fun s => f (view s) where
  aside s log requests files project marks :=
    congrArg f (Aside.aside s log requests files project marks)
  object s id g hg := congrArg f (Quiet.object s id g hg)
  detail s id detail := congrArg f (Tracked.detail s id detail)
  meshes s meshes := congrArg f (Tracked.meshes s meshes)
  playing s player id := congrArg f (Tracked.playing s player id)

/-- The session at its first frame. -/
def Session.atStart {α : Type} (s : Session α) : Session α :=
  { s with scene := { s.scene with frame := 0 } }

namespace ExportM

variable {α γ : Type} {always : Bool} {view : Session α → γ} {o : Object α} {node : NodeId}
  {numbers : Record Nat} {skeleton : NodeId} {bone : String} (a : Animated)

/-! ### Look-ups -/

theorem attachedBoneLength_keeps : Keeps always view (attachedBoneLength o) := by
  refine .bind .lift fun parent => .bind (object_keeps _) fun p => .bind .lift fun a => ?_
  exact .bind .lift fun _ => .pure

theorem isAttached_keeps {id : NodeId} : Keeps always view (isAttached id) := by
  refine .bind node_keeps fun n => .bind existing_keeps fun parent => ?_
  exact .bind (nodeType_keeps _) fun _ => .pure

theorem skeletonNumbers_keeps {skeleton : Option NodeId} : Keeps always view
    (skeletonNumbers skeleton) := by
  refine .bind existing_keeps fun id => .bind node_keeps fun n => ?_
  split
  · exact .pure
  · exact .throw

theorem boneName_keeps : Keeps always view (boneName skeleton numbers bone) := by
  refine .bind node_keeps fun n => ?_
  split
  · exact .pure
  · exact .pure

theorem targetPath_keeps {t : AnimationTarget} {property : String} : Keeps always view
    (targetPath t property) := by
  refine .bind node_keeps fun player => .bind existing_keeps fun base => ?_
  refine .bind nodePath_keeps fun above => .bind existing_keeps fun id => ?_
  exact .bind nodePath_keeps fun _ => .lift

theorem bakedArmature?_keeps : Keeps always view (bakedArmature? node o) := by
  refine .bind (nodeType_keeps _) fun type => ?_
  split
  · exact .bind skeletonNumbers_keeps fun _ => .pure
  · exact .pure

theorem animation?_keeps : Keeps always view (animation? a) := by
  cases a with
  | object id => exact .bind (object_keeps _) fun _ => .pure
  | data id =>
    refine .bind (object_keeps _) fun o => ?_
    split <;> exact .pure
  | shapeKeys id => exact .bind .get fun _ => .pure

theorem animatedName_keeps {a : Animated} : Keeps always view (animatedName a) := by
  cases a with
  | object id => exact .bind (object_keeps _) fun _ => .pure
  | data id => exact .bind (object_keeps _) fun _ => .pure
  | shapeKeys id => exact .pure

theorem needsBaking_keeps : Keeps always view (needsBaking a) := by
  cases a with
  | object id => exact .bind (object_keeps _) fun _ => .pure
  | data id => exact .pure
  | shapeKeys id => exact .pure

theorem childPlayer?_keeps (id : NodeId) : Keeps always view (childPlayer? id) := by
  refine .bind .get fun s => ?_
  refine .bind (.forIn (fun child _ => ?_) _ _) fun r => ?_
  · refine .bind .lift fun type => ?_
    split <;> exact .pure
  · extract_lets r
    split <;> exact .pure

theorem playerAbove?_keeps {fuel : Nat} {id : Option NodeId} : Keeps always view
    (playerAbove? fuel id) := by
  induction fuel generalizing id with
  | zero =>
    exact .pure
  | succ fuel ih =>
    cases id with
    | none => exact .pure
    | some id =>
      refine .bind (childPlayer?_keeps _) fun found => ?_
      split
      · exact .pure
      · exact .bind node_keeps fun _ => ih

variable [Scalar α] {frame : Int}

theorem boneRest_keeps : Keeps always view (boneRest skeleton numbers bone) := by
  refine .bind node_keeps fun n => ?_
  split
  · exact .pure
  · exact .pure

theorem transformValues_keeps {frames : List (TransformFrame α)} :
    Keeps always view (transformValues node o frames) := by
  refine .bind isAttached_keeps fun attached => ?_
  split
  · exact .mapM (fun _ => .bind attachedBoneLength_keeps fun _ => .pure) _
  · exact .pure

/-! ### Frames -/

theorem bakeBones_keeps {a : Armature α} : Keeps always view (bakeBones skeleton a numbers frame) :=
    by
  refine .mapM (fun b => ?_) _
  extract_lets parent rest
  have hr : ∀ r, Keeps always view (rest r) := fun _ =>
    .bind .lift fun _ => .pure
  clear_value parent
  split
  · exact .bind .pure hr
  · exact .bind boneRest_keeps hr

theorem bakeFrame_keeps {armature : Option (Armature α × Record Nat)} : Keeps always Session.atStart
    (bakeFrame node o armature frame) := by
  refine .bind (.modify fun _ => rfl) fun _ => .bind (localTransform_keeps _) fun placement => ?_
  extract_lets rest
  have hr : ∀ r, Keeps always Session.atStart (rest r) := fun _ => .pure
  split
  · exact .bind bakeBones_keeps hr
  · exact .bind .pure hr

/-- Only the frame changes, and it is set back. -/
theorem bakeFrames_keeps {frames : List Int} : Keeps false view (bakeFrames node o frames) := by
  refine .bind bakedArmature?_keeps fun armature => .of_ok fun s b s' h => ?_
  rw [get_bind] at h
  obtain ⟨baked, s1, h1, h⟩ := bind_ok h
  cases h
  have hm : Keeps true Session.atStart (frames.mapM (bakeFrame node o armature)) :=
    .mapM (fun _ => bakeFrame_keeps) _
  have hk : s1.atStart = s.atStart := hm.ok h1
  have hs : { s1 with scene := { s1.scene with frame := s.scene.frame } } = s :=
    congrArg (fun t : Session α => { t with scene := { t.scene with frame := s.scene.frame } }) hk
  exact congrArg view hs

/-! ### Curves -/

section Curves

variable [Aside view] (node : Option NodeId) (o : Object α) (p : Playback α) {thing : String}

theorem boneStart?_keeps : Keeps always view (boneStart? node o thing) := by
  refine .bind .lift fun bone => .bind existing_keeps fun id => ?_
  refine .bind (nodeType_keeps _) fun type => ?_
  split
  · exact .bind warn_keeps fun _ => .pure
  · refine .bind skeletonNumbers_keeps fun numbers => ?_
    split
    · refine .bind .lift fun a => .bind .lift fun b => ?_
      exact .bind .lift fun _ => .pure
    · exact .pure

theorem frameStart?_keeps : Keeps always view (frameStart? node o thing) := by
  unfold frameStart?
  split
  · exact boneStart?_keeps _ _
  · exact .bind .lift fun _ => .pure

theorem startFrames_keeps : Keeps always view (startFrames node o p thing) := by
  refine .bind (frameStart?_keeps _ _) fun start => ?_
  split
  · exact .bind newMark_keeps fun _ => .pure
  · exact .pure

theorem addTransformCurve_keeps {things : TransformFrames α} {c : Curve α} :
    Keeps always view (addTransformCurve node o p things c) := by
  unfold addTransformCurve
  split
  split
  · exact .pure
  · extract_lets rest
    have hr : ∀ frames, Keeps always view (rest frames) := by
      intro frames
      unfold rest
      split
      · exact .pure
      · exact .bind .lift fun _ => .pure
    split
    · exact .bind .pure hr
    · exact .bind (startFrames_keeps _ _ _) hr

end Curves

/-! ### Tracks -/

section Trackless

variable [Trackless view]

section Actions

variable (cfg : Settings) (t : AnimationTarget) (p : Playback α)
  {path : NodePath} {frames : List (TransformFrame α)} {camera : CameraData α} {animation : Nat}
  {id : ObjectId}

theorem addTrack_keeps {t : Track α} : Keeps always view (addTrack animation t) := by
  refine .bind .get fun s => ?_
  split
  · extract_lets keep
    have hk : ∀ a, Keeps always view (keep a) := fun a =>
      .modify fun s => Trackless.detail s animation (.animation a)
    split
    · exact hk _
    · exact .bind (hk _) fun _ => .throw
  · exact .throw

theorem addCurve_keeps {curve : Option (Curve α)} {convert : Option (Conversion α)}
    {bezier : Bool} :
    Keeps always view (addCurve animation p curve convert path bezier) := by
  unfold addCurve
  split
  · exact .pure
  · split
    · exact .pure
    · exact .bind .lift fun _ => addTrack_keeps

theorem addObjectTrack_keeps {o : Object α} {parentInverse : Placement α} :
    Keeps always view (addObjectTrack t p o frames parentInverse) := by
  refine .bind targetPath_keeps fun path => .bind existing_keeps fun id => ?_
  refine .bind transformValues_keeps fun values => .bind (nodeType_keeps _) fun type => ?_
  exact .bind .lift fun _ => addTrack_keeps

theorem addBoneTrack_keeps {bone : String} : Keeps always view (addBoneTrack t p bone frames) := by
  refine .bind skeletonNumbers_keeps fun numbers => .bind existing_keeps fun id => ?_
  refine .bind boneName_keeps fun name => .bind targetPath_keeps fun path => ?_
  exact .bind .lift fun _ => addTrack_keeps

/-! ### Actions of objects and bones -/

theorem exportTransformAction_keeps : Keeps always view (exportTransformAction t id p) := by
  refine .bind (object_keeps _) fun o => .bind .lift fun curves => ?_
  refine .bind (.foldlM (fun _ _ => addTransformCurve_keeps _ _ _) _ _) fun things => ?_
  refine .bind (.forIn (fun x _ => ?_) _ _) fun _ => .pure
  split
  split
  · exact .bind (addObjectTrack_keeps _ _) fun _ => .pure
  · split
    · exact .bind .lift fun _ => .bind (addBoneTrack_keeps _ _) fun _ => .pure
    · exact .pure

/-! ### Actions of cameras, lights and shape keys -/

theorem addFieldOfView_keeps {action : Action α} : Keeps always view
    (addFieldOfView t p path camera action) := by
  unfold addFieldOfView
  extract_lets lens sensor
  split
  · exact .pure
  · refine .bind .lift fun lengths => .bind .lift fun widths => ?_
    refine .bind (.mapM (fun x => ?_) _) fun fields => ?_
    · exact .lift
    · exact .bind .lift fun _ => addTrack_keeps

theorem exportCameraAction_keeps : Keeps always view (exportCameraAction cfg t camera p) := by
  refine .bind targetPath_keeps fun path => .bind .lift fun action => ?_
  refine .bind (.forIn (fun a _ => ?_) _ _) fun _ => ?_
  · exact .bind (addCurve_keeps _) fun _ => .pure
  · exact .bind (addCurve_keeps _) fun _ => addFieldOfView_keeps _ _

theorem addChannels_keeps {colors : List (Attribute (LightData α) α)} {c : Curve α} :
    Keeps always view (addChannels t p path colors c) := by
  refine .bind (.forIn (fun a _ => ?_) _ _) fun _ => .pure
  split
  · exact .bind .lift fun _ => .bind (addCurve_keeps _) fun _ => .pure
  · exact .pure

theorem addColors_keeps {attributes : List (Attribute (LightData α) α)} {curves : List (Curve α)} :
    Keeps always view (addColors t p path attributes curves) := by
  refine .bind .lift fun colors => .bind (.forIn (fun x _ => ?_) _ _) fun _ => .pure
  split
  exact .bind .lift fun _ => .bind addTrack_keeps fun _ => .pure

theorem exportLightAction_keeps : Keeps always view (exportLightAction cfg t p) := by
  refine .bind targetPath_keeps fun path => .bind .lift fun action => ?_
  refine .bind (addCurve_keeps _) fun _ => .bind existing_keeps fun id => ?_
  refine .bind (nodeType_keeps _) fun type => ?_
  extract_lets attributes
  split
  refine .bind (.forIn (fun a _ => ?_) _ _) fun _ => ?_
  · exact .bind (addCurve_keeps _) fun _ => .pure
  split
  · refine .bind (.forIn (fun c _ => ?_) _ _) fun _ => .pure
    exact .bind (addChannels_keeps _ _) fun _ => .pure
  · exact addColors_keeps _ _

theorem exportShapeKeyAction_keeps : Keeps always view (exportShapeKeyAction cfg t p) := by
  refine .bind targetPath_keeps fun path => .bind .lift fun curves => ?_
  refine .bind (.forIn (fun c _ => ?_) _ _) fun _ => .pure
  split
  split
  · exact .bind .lift fun _ => .bind (addCurve_keeps _) fun _ => .pure
  · exact .pure

/-! ### Baking -/

theorem addBakedBones_keeps {poses : List (String × Placement α)} : Keeps always view
    (addBakedBones t p poses) := by
  refine .bind (.forIn (fun name _ => ?_) _ _) fun _ => .pure
  refine .bind skeletonNumbers_keeps fun numbers => ?_
  split
  · refine .bind (.mapM (fun x => ?_) _) fun frames => ?_
    · exact .lift
    · exact .bind (addBoneTrack_keeps _ _) fun _ => .pure
  · exact .pure

theorem exportBakedAction_keeps : Keeps false view (exportBakedAction t id p) := by
  refine .bind (object_keeps _) fun o => .bind existing_keeps fun node => ?_
  refine .bind bakeFrames_keeps fun x => ?_
  split
  extract_lets rest
  have hr : ∀ r, Keeps false view (rest r) := fun _ => addBakedBones_keeps _ _
  split
  · refine .bind (.mapM (fun _ => ?_) _) fun frames => .bind (addObjectTrack_keeps _ _) hr
    exact .lift
  · exact hr ()

/-! ### Animation data -/

theorem exportAction_keeps : Keeps false view (exportAction cfg a t p) := by
  cases a with
  | object id =>
    refine .bind (needsBaking_keeps _) fun baking => ?_
    split
    · exact exportBakedAction_keeps _ _
    · exact exportTransformAction_keeps _ _
  | data id =>
    refine .bind (object_keeps _) fun o => ?_
    split
    · exact exportCameraAction_keeps _ _ _
    · exact exportLightAction_keeps _ _ _
  | shapeKeys id => exact exportShapeKeyAction_keeps _ _ _

theorem clearPose_keeps : Keeps always view (clearPose a) := by
  cases a with
  | object id => exact .modify fun s => Trackless.pose s id
  | data id => exact .pure
  | shapeKeys id => exact .pure

theorem playAction_keeps : Keeps false view (playAction cfg a t p) :=
  .bind (exportAction_keeps _ _ _ _) fun _ => clearPose_keeps _

theorem playStrips_keeps {strips : List (Strip α)} : Keeps false view
    (playStrips cfg a t strips) := by
  refine .bind (.forIn (fun s _ => ?_) _ _) fun _ => .pure
  split
  · refine .bind .get fun session => .bind .lift fun action => .bind .lift fun p => ?_
    exact .bind (playAction_keeps _ _ _ _) fun _ => .pure
  · exact .pure

theorem playTracks_keeps (tracks : List (StripTrack α)) : Keeps false view
    (playTracks cfg a t tracks) :=
  .forM_mem fun _ _ => playStrips_keeps _ _ _

end Actions

end Trackless

omit [Scalar α] in
theorem changeAnimation_keeps [Tracked view] {f : AnimationData α → AnimationData α} :
    Keeps always view (changeAnimation a f) := by
  cases a with
  | object id => exact changeLasting_keeps _ fun _ => rfl
  | data id =>
    refine changeLasting_keeps _ fun o => ?_
    have ht : (changeDataAnimation f o.data).type? = o.data.type? := by cases o.data <;> rfl
    have hm : (changeDataAnimation f o.data).mesh? = o.data.mesh? := by cases o.data <;> rfl
    have hs : (changeDataAnimation f o.data).splines = o.data.splines := by cases o.data <;> rfl
    simp [Object.lasting, Object.outline, ht, hm, hs]
  | shapeKeys id => exact .modify fun s => Tracked.meshes s _

/-! ### Animations of a player -/

section Player

/- The animations that are made for the player lead from `P` to `P`. -/
variable {P : γ → Prop} {player : NodeId}
  (hc : ∀ name, Lasts view P (createAnimation player name))
  (cfg : Settings) (a : Animated) (node : Option NodeId) (heard : List (StripTrack α))

include hc

section

variable [Trackless view]

theorem activeAnimation_leads {name : String} : Lasts view P (activeAnimation player name) := by
  have hp : Keeps false view (activeAnimation? player) := by
    refine .bind node_keeps fun n => ?_
    split
    · exact .pure
    · exact .throw
  refine .keeping hp fun active => ?_
  split
  · exact .done
  · refine .bind (hc _) fun id => ?_
    exact .keeping (.modify fun s => Trackless.playing s player id) fun _ => .done

theorem exportActiveAction_leads {action : Option ActionId} :
    Lasts view P (exportActiveAction cfg a node player action heard) := by
  refine .keeping (.option (fun id => .bind .get fun s => .lift)) fun action => ?_
  extract_lets named
  have hn : ∀ name, Lasts view P (named name) := by
    intro name
    refine .bind (activeAnimation_leads hc) fun id => Keeps.leads ?_ P
    extract_lets t played
    have hp : ∀ p, Keeps false view (played p) := by
      intro p
      refine .bind (playAction_keeps _ _ _ _) fun _ => .bind (needsBaking_keeps _) fun baking => ?_
      split
      · exact playTracks_keeps _ _ _ _
      · exact .pure
    split
    · exact .bind .lift hp
    · exact .bind .pure hp
  split
  · exact .keeping .pure hn
  · exact .keeping (.map _ animatedName_keeps) hn

theorem exportHeardTracks_leads : Lasts view P (exportHeardTracks cfg a node player heard) :=
    by
  refine .keeping animatedName_keeps fun name => .bind (activeAnimation_leads hc) fun id => ?_
  exact (playTracks_keeps _ _ _ _).leads P

end

variable [Tracked view]

theorem exportStashedTrack_leads {track : StripTrack α} {index : Nat} :
    Lasts view P (exportStashedTrack cfg a node player heard track index) := by
  refine .bind (hc _) fun id => Keeps.leads ?_ P
  refine .bind (needsBaking_keeps _) fun baking => ?_
  extract_lets rest
  have hr : ∀ r, Keeps false view (rest r) := by
    intro _
    refine .bind (playStrips_keeps _ _ _) fun _ => ?_
    split
    · exact changeAnimation_keeps _
    · exact playTracks_keeps _ _ _ _
  split
  · exact .bind (changeAnimation_keeps _) hr
  · exact hr ()

theorem exportStashed_leads {muted : List (StripTrack α × Nat)} :
    Lasts view P (exportStashed cfg a node player heard muted) := by
  refine .keeping (animation?_keeps _) fun before => .keeping (changeAnimation_keeps _) fun _ => ?_
  refine .bind (.forIn (fun _ s => P (view s)) (fun x _ => ?_) _ _) fun _ => Keeps.leads ?_ P
  · exact .bind (exportStashedTrack_leads hc _ _ _ _) fun _ => .done
  · split
    · exact changeAnimation_keeps _
    · exact .pure

end Player

variable [Tracked view]

section

variable {P : γ → Prop}

/-- All that the export of an animation does is to find or make a player, of which `R` holds then,
and to make animations for it. -/
theorem exportAnimation_plays {R : NodeId → γ → Prop} (cfg : Settings) (a : Animated)
    (node : Option NodeId) (hp : Brings view P (playerFor cfg node) R)
    (hc : ∀ player name, Lasts view (R player) (createAnimation player name))
    (hR : ∀ player v, R player v → P v) : Lasts view P (exportAnimation cfg a node) := by
  unfold exportAnimation
  split
  · exact .done
  refine .keeping (animation?_keeps a) fun data => .keeping (needsBaking_keeps a) fun baking => ?_
  split
  · exact .done
  extract_lets tracks action restored
  split
  refine hp.bind fun player => ?_
  extract_lets stashed
  have hr : ∀ r, Brings view (R player) (restored r) fun _ => P := fun _ =>
    ((changeAnimation_keeps _).leads (R player)).post fun _ _ h => hR player _ h
  have hs : ∀ r, Brings view (R player) (stashed r) fun _ => P := by
    intro _
    unfold stashed
    split
    · exact .bind (exportStashed_leads (hc player) _ _ _ _) hr
    · exact hr ()
  split
  · exact .bind (exportActiveAction_leads (hc player) _ _ _ _) hs
  · split
    · exact .bind (exportHeardTracks_leads (hc player) _ _ _ _) hs
    · exact hs ()

theorem exportAnimation_leads
    (hc : ∀ player name, Lasts view P (createAnimation player name))
    (cfg : Settings) (a : Animated) (node : Option NodeId)
    (hp : Lasts view P (playerFor cfg node)) :
    Lasts view P (exportAnimation cfg a node) :=
  exportAnimation_plays (R := fun _ => P) cfg a node hp hc fun _ _ h => h

end

omit [Scalar α] in
theorem createAnimation_keeps (player : NodeId) (name : String) :
    Keeps always Session.outline (createAnimation player name : ExportM α Nat) := by
  unfold createAnimation
  extract_lets name
  have hn : "anims/" ++ name ≠ "transform" := append_ne_transform (by decide)
  refine .bind (liftLogged_keeps _) fun animation => .bind (forceInternal_keeps _) fun id => ?_
  exact .bind (setNode_keeps _ hn _) fun _ => .pure

end ExportM

end SceneExport
