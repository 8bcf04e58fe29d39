import Mathlib.Logic.Function.Basic
import Mathlib.Tactic.IntervalCases
import SceneExport.Proofs.Export.Parents

/-!
# The order of curves

The curves of an action are put together one after the other: the first curve of a thing makes its
frames, the others change them.  If no two curves drive one component of one thing, the order of the
curves does not matter, to the frames or to whether there are any (`addCurves_perm`).  Each
component is then what its curve says, or what the thing has without curves
(`TransformFrame.IsDriven`).

Two curves whose paths or indices differ may drive one component all the same: a point before an
attribute, and an index counted from the end, name nothing else.  Then the last of them counts
(`addCurves_last`).
-/

namespace SceneExport

open List

variable {α β γ : Type} {curves : Curve α → Prop} {part : TransformPart} {p : Playback α}
  {thing : String} {c : Curve α}

/-! ### Steps that read the tree -/

/-- A step that keeps the nodes, and that succeeds with the same result wherever they are the
same. -/
def Reads (step : ExportM α β) : Prop :=
  ∀ s b s', step s = .ok b s' → s'.file.tree = s.file.tree ∧
    ∀ t, t.file.tree = s.file.tree → ∃ t', step t = .ok b t' ∧ t'.file.tree = s.file.tree

namespace Reads

theorem pure {b : β} : Reads (pure b : ExportM α β) := by
  rintro s _ _ ⟨⟩
  exact ⟨rfl, fun t ht => ⟨t, rfl, ht⟩⟩

theorem lift {x : Except Failure β} : Reads (liftM x : ExportM α β) := by
  intro s b s' h
  obtain ⟨hx, rfl⟩ := ExportM.lift_ok h
  exact ⟨rfl, fun t ht => ⟨t, ExportM.lift_apply hx t, ht⟩⟩

theorem bind {step : ExportM α β} {next : β → ExportM α γ} (h : Reads step)
    (hn : ∀ b, Reads (next b)) :
    Reads (step >>= next) := by
  intro s c s' hs
  obtain ⟨b, s1, hb, hc⟩ := bind_ok hs
  obtain ⟨hs1, hstep⟩ := h s b s1 hb
  obtain ⟨hs', hnext⟩ := hn b s1 c s' hc
  refine ⟨hs'.trans hs1, fun t ht => ?_⟩
  obtain ⟨t1, htb, ht1⟩ := hstep t ht
  obtain ⟨t', htc, ht'⟩ := hnext t1 (ht1.trans hs1.symm)
  exact ⟨t', (bind_of_ok htb next).trans htc, ht'.trans hs1⟩

theorem look (f : Tree α → Except Failure β) : Reads (do f (← get).file.tree) := by
  intro s b s' h
  obtain ⟨hx, rfl⟩ := ExportM.lift_ok (get_bind _ s ▸ h)
  refine ⟨rfl, fun t ht => ⟨t, ?_, ht⟩⟩
  rw [get_bind, ht]
  exact ExportM.lift_apply hx t

end Reads

namespace ExportM

theorem skeletonNumbers_reads (skeleton : Option NodeId) :
    Reads (skeletonNumbers skeleton : ExportM α (Record Nat)) := by
  refine .bind .lift fun id => .bind (.look (·.get id)) fun n => ?_
  split
  · exact .pure
  · rintro s b s' ⟨⟩

variable [Scalar α]

theorem frameStart?_reads (node : Option NodeId) (o : Object α) (thing : String) :
    Reads (frameStart? node o thing) := by
  unfold frameStart?
  split
  · refine .bind .lift fun bone => .bind .lift fun id => .bind (.look (·.type id)) fun type => ?_
    split
    · refine .bind ?_ fun _ => .pure
      rintro s _ _ ⟨⟩
      exact ⟨rfl, fun t ht => ⟨_, rfl, ht⟩⟩
    · refine .bind (skeletonNumbers_reads _) fun numbers => ?_
      split
      · exact .bind .lift fun a => .bind .lift fun b => .bind .lift fun _ => .pure
      · exact .pure
  · exact .bind .lift fun _ => .pure

end ExportM

/-! ### Components -/

theorem position_lt {size i : Nat} {index : Int} (h : position size index = .ok i) : i < size := by
  unfold position at h
  grind

def TransformPart.size : TransformPart → Nat
  | .quaternion => 4
  | _ => 3

/-- The component of a vector at a position. -/
def Vec3.component (v : Vec3 α) : Nat → α
  | 0 => v.x
  | 1 => v.y
  | _ => v.z

def TransformFrame.component (f : TransformFrame α) : TransformPart → Nat → α
  | .location, i => f.location.component i
  | .scale, i => f.scale.component i
  | .angles, i => f.angles.angles.component i
  | .quaternion, 0 => f.quaternion.w
  | .quaternion, i + 1 => Vec3.component ⟨f.quaternion.x, f.quaternion.y, f.quaternion.z⟩ i

namespace TransformFrame

variable {f g : TransformFrame α} {index : Int}

theorem ext_component (hmode : f.mode = g.mode) (hord : f.angles.order = g.angles.order)
    (h : ∀ part i, i < part.size → f.component part i = g.component part i) : f = g := by
  have hvec {v w : Vec3 α} (hv : ∀ i < 3, v.component i = w.component i) : v = w :=
    Vec3.mk.injEq .. ▸ ⟨hv 0 (by decide), hv 1 (by decide), hv 2 (by decide)⟩
  have hquat : f.quaternion = g.quaternion :=
    Quat.mk.injEq .. ▸ ⟨h .quaternion 0 (by decide), h .quaternion 1 (by decide), h .quaternion 2
      (by decide), h .quaternion 3 (by decide)⟩
  exact mk.injEq .. ▸ ⟨hvec (h .location), hvec (h .scale), hmode, congrArg₂ Euler.mk
    (hvec (h .angles)) hord, hquat⟩

theorem update_ok [Scalar α] (f : TransformFrame α) {i : Nat}
    (hi : position part.size index = .ok i) (v : α) : ∃ g, f.update part index v = .ok g ∧
    g.mode = f.mode ∧ g.angles.order = f.angles.order ∧ ∀ part' j, j < part'.size →
        g.component part' j = if part' = part ∧ j = i then v else f.component part' j := by
  have hsize := position_lt hi
  cases part <;> simp only [TransformPart.size] at hi hsize <;> interval_cases i <;>
    simp only [update, Vec3.setAt, Quat.setAt, hi] <;> refine ⟨_, rfl, rfl, rfl, fun part' j hj =>
      ?_⟩ <;>
    cases part' <;> simp only [TransformPart.size] at hj <;> interval_cases j <;> rfl

theorem position_of_update [Scalar α] {v : α}
    (h : f.update part index v = .ok g) : ∃ i, position part.size index = .ok i := by
  cases hi : position part.size index with
  | ok i => exact ⟨i, rfl⟩
  | error e =>
    cases part <;> simp only [TransformPart.size] at hi <;> simp only
      [update, Vec3.setAt, Quat.setAt, hi] at h <;>
      cases h

end TransformFrame

/-! ### What curves drive -/

/-- The thing and the part of its transform that a curve drives. -/
def Curve.target? (c : Curve α) : Option (String × TransformPart) :=
  (TransformPart.ofName? (DataPath.split c.path).2).map fun part =>
    ((DataPath.split c.path).1, part)

def Curve.Drives (c : Curve α) (thing : String) (part : TransformPart) (i : Nat) : Prop :=
  c.target? = some (thing, part) ∧ position part.size c.index = .ok i

/-- The curves drive no component both. -/
def Curve.Apart (c d : Curve α) : Prop :=
  ∀ thing part i, c.Drives thing part i → ¬ d.Drives thing part i

theorem Curve.Apart.symm {c d : Curve α} (h : c.Apart d) : d.Apart c :=
  fun thing part i hd hc => h thing part i hc hd

variable [Scalar α]

namespace TransformFrame

/-- Each component is what the curve that drives it says at a frame, and is as at the start if none
of the curves does. -/
structure IsDriven (f : TransformFrame α) (p : Playback α) (curves : Curve α → Prop)
    (thing : String) (start : TransformFrame α) (frame : Int) : Prop where
  mode : f.mode = start.mode
  order : f.angles.order = start.angles.order
  driven : ∀ c, curves c → ∀ part i, c.Drives thing part i →
    p.evaluate c frame = .ok (f.component part i)
  default : ∀ part i, i < part.size → (∀ c, curves c → ¬ c.Drives thing part i) →
    f.component part i = start.component part i

namespace IsDriven

variable {start f g : TransformFrame α} {frame : Int}

theorem of_start (h : ∀ c, curves c → ∀ part, c.target? ≠ some (thing, part)) : f.IsDriven p curves
    thing f frame :=
  ⟨rfl, rfl, fun c hc part _ hdriv => absurd hdriv.1 (h c hc part), fun _ _ _ _ => rfl⟩

theorem unique (hf : f.IsDriven p curves thing start frame)
    (hg : g.IsDriven p curves thing start frame) : f = g := by
  refine ext_component (hf.mode.trans hg.mode.symm) (hf.order.trans hg.order.symm) fun part i hi =>
    ?_
  by_cases h : ∃ c, curves c ∧ c.Drives thing part i
  · obtain ⟨c, hc, hdriv⟩ := h
    exact Except.ok.inj ((hf.driven c hc part i hdriv).symm.trans (hg.driven c hc part i hdriv))
  · have hnone : ∀ c, curves c → ¬ c.Drives thing part i := fun c hc hdriv => h ⟨c, hc, hdriv⟩
    rw [hf.default part i hi hnone, hg.default part i hi hnone]

theorem skip (h : f.IsDriven p curves thing start frame)
    (hc : ∀ part, c.target? ≠ some (thing, part)) :
    f.IsDriven p (fun d => d = c ∨ curves d) thing start frame where
  mode := h.mode
  order := h.order
  driven := forall_eq_or_imp.2 ⟨fun part _ hdriv => absurd hdriv.1 (hc part), h.driven⟩
  default part i hi hnone := h.default part i hi (forall_eq_or_imp.1 hnone).2

/-- A curve sets the component that it drives, if no curve before it did. -/
theorem update {part : TransformPart} {i : Nat} {v : α} (h : f.IsDriven p curves thing start frame)
    (hc : c.Drives thing part i) (hfresh : ∀ d, curves d → ¬ d.Drives thing part i)
    (hv : p.evaluate c frame = .ok v) (hg : f.update part c.index v = .ok g) :
    g.IsDriven p (fun d => d = c ∨ curves d) thing start frame := by
  obtain ⟨_, hg', hmode, hord, hcomp⟩ := update_ok f hc.2 v
  cases hg.symm.trans hg'
  refine ⟨hmode.trans h.mode, hord.trans h.order, forall_eq_or_imp.2 ⟨fun part' j hj => ?_, ?_⟩, ?_⟩
  · obtain rfl : part = part' := congrArg Prod.snd (Option.some.inj (hc.1.symm.trans hj.1))
    obtain rfl : i = j := Except.ok.inj (hc.2.symm.trans hj.2)
    rw [hcomp _ _ (position_lt hc.2), if_pos ⟨rfl, rfl⟩, hv]
  · intro d hd part' j hj
    rw [hcomp _ _ (position_lt hj.2), if_neg, h.driven d hd part' j hj]
    rintro ⟨rfl, rfl⟩
    exact hfresh d hd hj
  · intro part' j hj hnone
    obtain ⟨hnot, hnone⟩ := forall_eq_or_imp.1 hnone
    rw [hcomp _ _ hj, if_neg, h.default part' j hj hnone]
    rintro ⟨rfl, rfl⟩
    exact hnot hc

end IsDriven

end TransformFrame

namespace ExportM

variable {node : Option NodeId} {o : Object α} {F : Int → TransformFrame α}
  {frames : List (TransformFrame α)}

theorem driveFrames_eq (c : Curve α) (part : TransformPart) (F : Int → TransformFrame α) :
    driveFrames p c part (p.frames.map F) =
      p.frames.mapM fun frame => p.evaluate c frame >>= (F frame).update part c.index := by
  rw [driveFrames, ← map_prod_right_eq_zip, mapM_map]
  rfl

/-- The frames of a thing are driven by a curve that has a value at all of them and a position. -/
theorem driveFrames_ok {i : Nat} (hi : position part.size c.index = .ok i)
    (hv : ∀ frame ∈ p.frames, ∃ v, p.evaluate c frame = .ok v) :
    ∃ G, driveFrames p c part (p.frames.map F) = .ok (p.frames.map G) ∧
      ∀ frame ∈ p.frames, ∃ v, p.evaluate c frame = .ok v ∧
      (F frame).update part c.index v = .ok (G frame) := by
  have hg (frame : Int) : ∃ g, frame ∈ p.frames →
      ∃ v, p.evaluate c frame = .ok v ∧ (F frame).update part c.index v = .ok g := by
    by_cases hmem : frame ∈ p.frames
    · obtain ⟨v, hv⟩ := hv frame hmem
      obtain ⟨g, hg, -⟩ := TransformFrame.update_ok (F frame) hi v
      exact ⟨g, fun _ => ⟨v, hv, hg⟩⟩
    · exact ⟨F frame, fun h => absurd h hmem⟩
  choose G hG using hg
  refine ⟨G, ?_, hG⟩
  rw [driveFrames_eq]
  refine Outcome.mapM_eq_ok G fun frame hmem => ?_
  obtain ⟨v, hv, hg⟩ := hG frame hmem
  rw [hv]
  exact hg

theorem of_driveFrames (h : driveFrames p c part (p.frames.map F) = .ok frames)
    (hsome : p.frames ≠ []) :
    (∃ i, position part.size c.index = .ok i) ∧
    ∀ frame ∈ p.frames, ∃ v, p.evaluate c frame = .ok v := by
  rw [driveFrames_eq] at h
  have hfr (frame : Int) (hmem : frame ∈ p.frames) :
      ∃ v g, p.evaluate c frame = .ok v ∧ (F frame).update part c.index v = .ok g := by
    obtain ⟨g, -, hg⟩ := Outcome.mem_of_mapM_ok h hmem
    obtain ⟨v, hv, hg⟩ := Outcome.bind_ok hg
    exact ⟨v, g, hv, hg⟩
  obtain ⟨frame, hmem⟩ := exists_mem_of_ne_nil _ hsome
  obtain ⟨_, _, _, hg⟩ := hfr frame hmem
  refine ⟨TransformFrame.position_of_update hg, fun frame hmem => ?_⟩
  obtain ⟨v, _, hv, _⟩ := hfr frame hmem
  exact ⟨v, hv⟩

/-! ### Things -/

/-- What a thing has without curves, if it is exported. -/
def Starts (node : Option NodeId) (o : Object α) (s : Session α) (thing : String)
    (start : Option (TransformFrame α)) :
    Prop :=
  ∃ s', frameStart? node o thing s = .ok start s'

/-- The frames that some curves give to a thing: none if no curve drives it or it is not exported,
and otherwise what the curves say, over what the thing has without them. -/
def Built (node : Option NodeId) (o : Object α) (p : Playback α) (s : Session α)
    (curves : Curve α → Prop) (thing : String) : Option (List (TransformFrame α)) → Prop
  | none => ∀ c, curves c → ∀ part, c.target? = some (thing, part) → Starts node o s thing none ∨
    p.frames = []
  | some frames => p.frames ≠ [] ∧ (∃ c, curves c ∧ ∃ part, c.target? = some (thing, part)) ∧
    ∃ start owner F, Starts node o s thing (some start) ∧ frames = p.frames.map F ∧
      ∀ frame ∈ p.frames, (F frame).IsDriven p curves thing (start.marked owner) frame

/-- The curve can be put to its thing: it has a value at all frames, and its thing that component,
unless the thing is not exported. -/
def Plays (node : Option NodeId) (o : Object α) (p : Playback α) (s : Session α) (c : Curve α) :
    Prop :=
  ∀ thing part, c.target? = some (thing, part) → ∃ start, Starts node o s thing start ∧
    (start ≠ none → p.frames ≠ [] → (∃ i, position part.size c.index = .ok i) ∧ ∀ frame ∈ p.frames,
    ∃ v, p.evaluate c frame = .ok v)

variable {s t : Session α} {things : TransformFrames α} {start : Option (TransformFrame α)}
  {t' : Session α}

theorem Starts.unique {x y : Option (TransformFrame α)} (hx : Starts node o s thing x)
    (hy : Starts node o s thing y) :
    x = y := by
  obtain ⟨_, hx⟩ := hx
  obtain ⟨_, hy⟩ := hy
  cases hx.symm.trans hy
  rfl

/-- A curve of another thing changes nothing. -/
theorem Built.skip {x : Option (List (TransformFrame α))} (h : Built node o p s curves thing x)
    (hc : ∀ part, c.target? ≠ some (thing, part)) : Built node o p s (fun d => d = c ∨ curves d)
    thing x := by
  cases x with
  | none => exact forall_eq_or_imp.2 ⟨fun part htgt => absurd htgt (hc part), h⟩
  | some frames =>
    obtain ⟨hsome, ⟨d, hd, htgt⟩, start, owner, F, hst, hfrs, hF⟩ := h
    exact ⟨hsome, ⟨d, .inr hd, htgt⟩, start, owner, F, hst, hfrs, fun frame hfr =>
      (hF frame hfr).skip hc⟩

/-- The curves of a thing leave its frames no choice but the marks. -/
theorem Built.agree {x y : Option (List (TransformFrame α))} (hx : Built node o p s curves thing x)
    (hy : Built node o p s curves thing y) :
    y.isSome = x.isSome ∧ ((∀ owner k (a : α), Scalar.marked owner k a = a) → y = x) := by
  have hnot {frames : List (TransformFrame α)} (h : Built node o p s curves thing (some frames)) :
      ¬ Built node o p s curves thing none := by
    obtain ⟨hsome, ⟨c, hc, part, htgt⟩, start, -, -, hst, -⟩ := h
    intro hnone
    rcases hnone c hc part htgt with hnone | hnone
    · cases hst.unique hnone
    · exact hsome hnone
  cases x with
  | none =>
    cases y with
    | none => exact ⟨rfl, fun _ => rfl⟩
    | some _ => exact absurd hx (hnot hy)
  | some frames =>
    cases y with
    | none => exact absurd hy (hnot hx)
    | some frames' =>
      refine ⟨rfl, fun hmark => ?_⟩
      obtain ⟨-, -, f, owner, F, hf, rfl, hF⟩ := hx
      obtain ⟨-, -, g, owner', G, hg, rfl, hG⟩ := hy
      cases hf.unique hg
      have hst : f.marked owner = f.marked owner' := by simp [TransformFrame.marked, hmark]
      exact congrArg some (map_congr_left fun frame hfr =>
        ((hG frame hfr).unique (hst ▸ hF frame hfr)))

/-- The frames that a curve is put to: those that its thing has already, or new ones. -/
def framesFor (node : Option NodeId) (o : Object α) (p : Playback α) (things : TransformFrames α)
    (thing : String) :
    ExportM α (List (TransformFrame α)) :=
  match things.get? thing with
  | some frames => pure frames
  | none => startFrames node o p thing

theorem addTransformCurve_of_target (htgt : c.target? = some (thing, part)) :
    addTransformCurve node o p things c = (do
      let frames ← framesFor node o p things thing
      if frames.isEmpty then return things
      return things.set thing (← driveFrames p c part frames)) := by
  unfold Curve.target? at htgt
  unfold addTransformCurve framesFor
  generalize DataPath.split c.path = path at *
  obtain ⟨_, hpart, htgt⟩ := Option.map_eq_some_iff.1 htgt
  cases htgt
  simp only [hpart]
  cases things.get? path.1 <;> rfl

theorem addTransformCurve_of_none (htgt : c.target? = none) : addTransformCurve node o p things c =
    pure things := by
  unfold Curve.target? at htgt
  unfold addTransformCurve
  generalize DataPath.split c.path = path at *
  simp only [Option.map_eq_none_iff.1 htgt]

theorem startFrames_apply (h : frameStart? node o thing s = .ok start t) :
    ∃ t', startFrames node o p thing s =
    .ok (start.elim [] fun f => p.frames.map fun _ => f.marked t.marks) t' ∧
    t'.file.tree = t.file.tree := by
  unfold startFrames
  rw [bind_of_ok h]
  cases start with
  | none => exact ⟨t, rfl, rfl⟩
  | some f => exact ⟨_, rfl, rfl⟩

theorem framesFor_ok (hblt : Built node o p s curves thing (things.get? thing))
    (ht : t.file.tree = s.file.tree) (hst : Starts node o s thing start) :
    ∃ frames t', framesFor node o p things thing t = .ok frames t' ∧ t'.file.tree = s.file.tree ∧
      (frames = [] ∧ things.get? thing = none ∧ (start = none ∨ p.frames = []) ∨
        ∃ f owner F, start = some f ∧ p.frames ≠ [] ∧ frames = p.frames.map F ∧
          ∀ frame ∈ p.frames, (F frame).IsDriven p curves thing (f.marked owner) frame) := by
  unfold framesFor
  cases hget : things.get? thing with
  | some frames =>
    rw [hget] at hblt
    obtain ⟨hsome, -, f, owner, F, hf, hfrs, hF⟩ := hblt
    exact ⟨frames, t, rfl, ht, .inr ⟨f, owner, F, hst.unique hf, hsome, hfrs, hF⟩⟩
  | none =>
    rw [hget] at hblt
    obtain ⟨t1, ht1, htree⟩ := (frameStart?_reads node o thing s start _ hst.choose_spec).2 t ht
    obtain ⟨t2, ht2, htree'⟩ := startFrames_apply (p := p) ht1
    refine ⟨_, t2, ht2, htree'.trans htree, ?_⟩
    cases start with
    | none => exact .inl ⟨rfl, rfl, .inl rfl⟩
    | some f =>
      by_cases hsome : p.frames = []
      · exact .inl ⟨by simp [hsome], rfl, .inr hsome⟩
      · refine .inr ⟨f, t1.marks, _, rfl, hsome, rfl, fun frame _ => .of_start fun c hc part htgt =>
          ?_⟩
        rcases hblt c hc part htgt with hnone | hnone
        · cases hst.unique hnone
        · exact hsome hnone

theorem starts_of_framesFor
    (hblt : Built node o p s curves thing (things.get? thing)) (ht : t.file.tree = s.file.tree)
    (h : framesFor node o p things thing t = .ok frames t') : ∃ start, Starts node o s thing
    start := by
  unfold framesFor at h
  cases hget : things.get? thing with
  | some frames =>
    rw [hget] at hblt
    obtain ⟨-, -, f, -, -, hf, -⟩ := hblt
    exact ⟨_, hf⟩
  | none =>
    rw [hget] at h
    obtain ⟨start, t1, ht1, -⟩ := bind_ok h
    obtain ⟨s', hs', -⟩ := (frameStart?_reads node o thing t start t1 ht1).2 s ht.symm
    exact ⟨start, s', hs'⟩

/-! ### Curves one after the other -/

theorem addTransformCurve_built (hblt : ∀ thing, Built node o p s curves thing (things.get? thing))
    (ht : t.file.tree = s.file.tree) (hapart : ∀ d, curves d → c.Apart d)
    (hplays : Plays node o p s c) :
    ∃ things' t', addTransformCurve node o p things c t = .ok things' t' ∧
    t'.file.tree = s.file.tree ∧ ∀ thing, Built node o p s (fun d => d = c ∨ curves d) thing
    (things'.get? thing) := by
  cases htgt : c.target? with
  | none =>
    rw [addTransformCurve_of_none htgt]
    exact ⟨things, t, rfl, ht, fun thing => (hblt thing).skip (by simp [htgt])⟩
  | some target =>
    obtain ⟨thing, part⟩ := target
    have hskip {other : String} (h : other ≠ thing) : Built node o p s (fun d => d = c ∨ curves d)
      other (things.get? other) :=
      (hblt other).skip fun part' htgt' =>
        h (congrArg Prod.fst (Option.some.inj (htgt'.symm.trans htgt)))
    obtain ⟨start, hst, hvalu⟩ := hplays thing part htgt
    obtain ⟨frames, t', hfrs, ht', hcase⟩ := framesFor_ok (hblt thing) ht hst
    rw [addTransformCurve_of_target htgt, bind_of_ok hfrs]
    rcases hcase with ⟨rfl, hnone, hleft⟩ | ⟨f, owner, F, rfl, hsome, rfl, hF⟩
    · refine ⟨things, t', rfl, ht', fun other => ?_⟩
      by_cases hoth : other = thing
      · subst hoth
        have hthing := hblt other
        rw [hnone] at hthing ⊢
        exact forall_eq_or_imp.2 ⟨fun _ _ => hleft.imp_left fun hnone => by
          rwa [hnone] at hst, hthing⟩
      · exact hskip hoth
    · obtain ⟨⟨i, hi⟩, hv⟩ := hvalu (by simp) hsome
      obtain ⟨G, hG, hdriven⟩ := driveFrames_ok (F := F) hi hv
      refine ⟨things.set thing (p.frames.map G), t', ?_, ht', fun other => ?_⟩
      · rw [if_neg (by simpa using hsome), hG]
        rfl
      by_cases hoth : other = thing
      · subst hoth
        rw [Record.get?_set_self]
        refine ⟨hsome, ⟨c, .inl rfl, part, htgt⟩, f, owner, G, hst, rfl, fun frame hfr => ?_⟩
        obtain ⟨v, hv, hg⟩ := hdriven frame hfr
        exact (hF frame hfr).update ⟨htgt, hi⟩ (fun d hd => hapart d hd other part i ⟨htgt, hi⟩) hv
          hg
      · rw [Record.get?_set_ne hoth]
        exact hskip hoth

theorem plays_of_addTransformCurve {things' : TransformFrames α}
    (hblt : ∀ thing, Built node o p s curves thing (things.get? thing))
    (ht : t.file.tree = s.file.tree) (h : addTransformCurve node o p things c t = .ok things' t') :
    Plays node o p s c := by
  intro thing part htgt
  rw [addTransformCurve_of_target htgt] at h
  obtain ⟨frames, t1, hfrs, h⟩ := bind_ok h
  obtain ⟨start, hst⟩ := starts_of_framesFor (hblt thing) ht hfrs
  refine ⟨start, hst, fun hne hsome => ?_⟩
  obtain ⟨_, _, hfrs', -, hcase⟩ := framesFor_ok (hblt thing) ht hst
  cases hfrs.symm.trans hfrs'
  rcases hcase with ⟨-, -, hleft⟩ | ⟨f, owner, F, rfl, -, rfl, -⟩
  · exact absurd hleft (not_or.2 ⟨hne, hsome⟩)
  · rw [if_neg (by simpa using hsome)] at h
    obtain ⟨_, _, hdrive, -⟩ := bind_ok h
    exact of_driveFrames (lift_ok hdrive).1 hsome

/-- Curves can be put to their things one after the other if and only if each of them can. -/
theorem addCurves_built {list : List (Curve α)}
    (hblt : ∀ thing, Built node o p s curves thing (things.get? thing))
    (ht : t.file.tree = s.file.tree) (hapart : list.Pairwise Curve.Apart)
    (hcurv : ∀ c ∈ list, ∀ d, curves d → c.Apart d) :
    ((∃ things' t', list.foldlM (addTransformCurve node o p) things t = .ok things' t') →
      ∀ c ∈ list, Plays node o p s c) ∧
    ((∀ c ∈ list, Plays node o p s c) → ∃ things' t',
      list.foldlM (addTransformCurve node o p) things t = .ok things' t' ∧
        ∀ thing, Built node o p s (fun d => d ∈ list ∨ curves d) thing (things'.get? thing)) := by
  induction list generalizing curves things t with
  | nil => exact ⟨by simp, fun _ => ⟨things, t, rfl, by simpa using hblt⟩⟩
  | cons c list ih =>
    obtain ⟨hc, hlist⟩ := pairwise_cons.1 hapart
    obtain ⟨hold, hcurv⟩ := forall_mem_cons.1 hcurv
    have hrest : ∀ e ∈ list, ∀ d, d = c ∨ curves d → e.Apart d :=
      fun e he => forall_eq_or_imp.2 ⟨(hc e he).symm, hcurv e he⟩
    constructor
    · rintro ⟨things', t', h⟩
      obtain ⟨things1, t1, h1, h⟩ := bind_ok h
      have hplays := plays_of_addTransformCurve hblt ht h1
      obtain ⟨_, _, h1', ht1, hbuilt1⟩ := addTransformCurve_built hblt ht hold hplays
      cases h1.symm.trans h1'
      exact forall_mem_cons.2 ⟨hplays, (ih hbuilt1 ht1 hlist hrest).1 ⟨things', t', h⟩⟩
    · intro hplays
      obtain ⟨hplays, hothe⟩ := forall_mem_cons.1 hplays
      obtain ⟨things1, t1, h1, ht1, hbuilt1⟩ := addTransformCurve_built hblt ht hold hplays
      obtain ⟨things', t', h, hblt'⟩ := (ih hbuilt1 ht1 hlist hrest).2 hothe
      refine ⟨things', t', ?_, ?_⟩
      · rw [foldlM_cons, bind_of_ok h1, h]
      · simpa only [mem_cons, or_assoc, or_left_comm] using hblt'

/-- **The order of curves does not matter.**  Let no two curves of an action drive one component of
one thing.  If they can be put together in one order, they can be in every other, and in both the
same things have frames: in each frame the components are what the curves say that drive them, and
the others are as without curves.  So the frames are the same, but for the marks of undefined
numbers. -/
theorem addCurves_perm {curves curves' : List (Curve α)} {s' : Session α}
    (hapart : curves.Pairwise Curve.Apart) (hperm : curves.Perm curves')
    (h : curves.foldlM (addTransformCurve node o p) [] s = .ok things s') :
    ∃ things' s'', curves'.foldlM (addTransformCurve node o p) [] s = .ok things' s'' ∧
      ∀ thing, Built node o p s (· ∈ curves) thing (things.get? thing) ∧
        Built node o p s (· ∈ curves) thing (things'.get? thing) ∧
        (things'.get? thing).isSome = (things.get? thing).isSome ∧
        ((∀ owner k (a : α), Scalar.marked owner k a = a) → things'.get? thing = things.get? thing)
        := by
  have hnone : ∀ thing, Built node o p s (fun _ => False) thing
    (Record.get? ([] : TransformFrames α) thing) :=
    fun _ _ => False.elim
  have hrun {list : List (Curve α)} (hlist : list.Pairwise Curve.Apart) :=
    addCurves_built hnone rfl hlist fun _ _ _ => False.elim
  have hplays := (hrun hapart).1 ⟨things, s', h⟩
  obtain ⟨_, _, h', hblt⟩ := (hrun hapart).2 hplays
  cases h.symm.trans h'
  obtain ⟨things', s'', h'', hblt'⟩ := (hrun ((hperm.pairwise_iff Curve.Apart.symm).1 hapart)).2
    fun c hc => hplays c (hperm.mem_iff.2 hc)
  simp only [or_false, ← hperm.mem_iff] at hblt hblt'
  exact ⟨things', s'', h'', fun thing =>
    ⟨hblt thing, hblt' thing, (hblt thing).agree (hblt' thing)⟩⟩

/-- A curve of one value. -/
def level (path : String) (index : Int) (height : ℚ) : Curve ℚ :=
  { path, index, points := [⟨1, height, 1, height, 1, height⟩] }

/-- The curves of a lift, played for one frame. -/
def lifted (curves : List (Curve ℚ)) : ExportM ℚ (TransformFrames ℚ) :=
  curves.foldlM (addTransformCurve none (Object.bare "Lift" .empty none)
    { action := none, first := 1, stop := 2 }) []

/-- The height and the depth of a lift, whose curves count the components from both ends. -/
theorem addCurves_perm_lift : ∃ things things' s' s'',
    lifted [level "location" (-1) 5, level "location" 0 7] {} = .ok things s' ∧
    lifted [level "location" 0 7, level "location" (-1) 5] {} = .ok things' s'' ∧
    (things.get? "").isSome ∧ things'.get? "" = things.get? "" := by
  obtain ⟨things, s', h, hsome⟩ :=
    exists_yield (lifted [level "location" (-1) 5, level "location" 0 7]) {}
      (fun things _ => (things.get? "").isSome)
  have hapart : (level "location" (-1) 5).Apart (level "location" 0 7) := by
    rintro thing part i ⟨htgt, hi⟩ ⟨-, hi'⟩
    have hplc : (level "location" (-1) 5).target? = some ("", .location) := by decide
    cases hplc.symm.trans htgt
    exact absurd (hi.trans hi'.symm) (by decide)
  obtain ⟨things', s'', h', hthin⟩ := addCurves_perm (by simpa using hapart) (.swap ..) h
  exact ⟨things, things', s', s'', h, h', hsome, (hthin "").2.2.2 fun _ _ _ => rfl⟩

/-- Curves may drive one component though their paths differ.  Then the last of them counts. -/
theorem addCurves_last : (level "location" 0 5).path ≠ (level ".location" 0 7).path ∧
    ∃ things things' s' s'', lifted [level "location" 0 5, level ".location" 0 7] {} =
    .ok things s' ∧ lifted [level ".location" 0 7, level "location" 0 5] {} = .ok things' s'' ∧
      things'.get? "" ≠ things.get? "" := by
  have hruns (a b : Curve ℚ) (x : ℚ) (h : yields (lifted [a, b]) {}
      (fun things _ => decide ((things.get? "").map (·.map (·.location.x)) = some [x])) = true) :
      ∃ things s', lifted [a, b] {} = .ok things s' ∧ (things.get? "").map (·.map (·.location.x)) =
        some [x] := by
    obtain ⟨things, s', h, hx⟩ := of_yields h
    exact ⟨things, s', h, of_decide_eq_true hx⟩
  obtain ⟨things, s', h, hx⟩ := hruns (level "location" 0 5) (level ".location" 0 7) 7
    (by decide +kernel)
  obtain ⟨things', s'', h', hx'⟩ := hruns (level ".location" 0 7) (level "location" 0 5) 5
    (by decide +kernel)
  refine ⟨by decide, things, things', s', s'', h, h', fun he => ?_⟩
  rw [he, hx] at hx'
  exact absurd hx' (by decide)

end ExportM

end SceneExport
