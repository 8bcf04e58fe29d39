import SceneExport.Proofs.Space.Exact
import SceneExport.Proofs.Animation.Overlay

/-!
# The strips of an animation

The strips of an action are added to an animation one after the other, each with a key at every
frame from its first to its last.

A strip that lies in front of all keys is refused, and so is one that begins in a gap between the
keys; one that ends in a gap leaves them out of order.  `Track.Joins` collects what remains.  Main
statement: after a number of strips the frames held are the frames of all strips in order, exactly
if each strip joins the keys of those before it (`Animation.addTracks_union_iff`).
-/

namespace SceneExport

open List

variable {α : Type}

/-! ### Strips -/

/-- A key at every frame from the first to the last. -/
def Track.Gapless (t : Track α) : Prop :=
  ∃ (first : Int) (more : Nat), t.frames = (List.range (more + 1)).map fun (i : Nat) => first + i

section Gapless

variable {t : Track α} (h : t.Gapless)

include h

theorem Track.Gapless.sorted : t.frames.Pairwise (· < ·) := by
  obtain ⟨first, more, h⟩ := h
  rw [h, pairwise_map]
  refine pairwise_lt_range.imp fun hlt => ?_
  omega

theorem Track.Gapless.ends : ∃ more : Nat, t.last = t.first + more ∧
    t.frames = (List.range (more + 1)).map fun (i : Nat) => t.first + i := by
  obtain ⟨first, more, h⟩ := h
  have hfst : t.first = first := by simp [Track.first, h, range_succ_eq_map]
  exact ⟨more, by simp [hfst, Track.last, h, range_succ], hfst ▸ h⟩

theorem Track.Gapless.mem_frames {f : Int} : f ∈ t.frames ↔ t.first ≤ f ∧ f ≤ t.last := by
  obtain ⟨more, hlast, hfrs⟩ := h.ends
  rw [hlast, hfrs, mem_map]
  constructor
  · rintro ⟨i, hi, rfl⟩
    have := mem_range.1 hi
    omega
  · rintro ⟨h1, h2⟩
    exact ⟨(f - t.first).toNat, mem_range.2 (by omega), by omega⟩

theorem Track.Gapless.first_le_last : t.first ≤ t.last := by
  obtain ⟨more, hlast, -⟩ := h.ends
  omega

end Gapless

variable [Scalar α] {interpolation : Interpolation} {kind : TrackKind} {u t' : Track α}
  {path : String} {t : Track α}

namespace Track

/-- The path of the property that shows and hides a node. -/
def visibility : NodePath := ⟨".", "visible"⟩

/-- A strip of some frames that all show a node, or all hide it. -/
def still (first : Int) (more : Nat) (shown : Bool) : Track α where
  kind := .value
  path := visibility
  interpolation := .nearest
  frames := (List.range (more + 1)).map fun (i : Nat) => first + i
  values := List.replicate (more + 1) (.flag shown)
  parentInverse := .identity

/-- A strip that can be laid over a track of a kind: it has the interpolation and path of the track,
a key at every frame, and values that the track could have. -/
structure IsStrip (kind : TrackKind) (interpolation : Interpolation) (path : String)
    (t : Track α) : Prop extends t.Holds kind where
  word : t.kind.word = kind.word
  interpolation : t.interpolation = interpolation
  path : t.path.render = path
  gapless : t.Gapless

theorem still_isStrip (first : Int) (more : Nat) (shown : Bool) :
    (still first more shown : Track α).IsStrip .value .nearest visibility.render where
  values := by simp [still]
  taken v hv := by
    rw [eq_of_mem_replicate hv]
    rfl
  word := rfl
  interpolation := rfl
  path := rfl
  gapless := ⟨first, more, rfl⟩

/-- A track that strips were laid over: its frames are in order. -/
structure InOrder (kind : TrackKind) (interpolation : Interpolation) (t : Track α) : Prop
    extends t.Holds kind where
  kind : t.kind = kind
  interpolation : t.interpolation = interpolation
  nonempty : t.frames ≠ []
  sorted : t.frames.Pairwise (· < ·)

section InOrder

variable (h : t.InOrder kind interpolation) {f : Int}

include h

theorem InOrder.first_mem : t.first ∈ t.frames := by
  unfold Track.first
  rw [headD_eq_head?_getD, head?_eq_some_head h.nonempty]
  exact head_mem _

theorem InOrder.last_mem : t.last ∈ t.frames := by
  unfold Track.last
  rw [getLastD_eq_getLast?, getLast?_eq_some_getLast h.nonempty]
  exact getLast_mem _

theorem InOrder.first_le (hf : f ∈ t.frames) : t.first ≤ f := by
  have hs := h.sorted
  unfold Track.first
  cases hfrs : t.frames with
  | nil => exact absurd hfrs h.nonempty
  | cons a as =>
    rw [hfrs] at hs hf
    exact head_le hs f hf

theorem InOrder.le_last (hf : f ∈ t.frames) : f ≤ t.last := by
  have hs := h.sorted
  obtain ⟨front, last, hfrs⟩ := (eq_nil_or_concat' t.frames).resolve_left h.nonempty
  rw [hfrs, pairwise_append] at hs
  rw [hfrs, mem_append] at hf
  rw [Track.last, hfrs, getLastD_concat]
  rcases hf with hf | hf
  · exact Int.le_of_lt (hs.2.2 f hf _ (mem_singleton_self _))
  · rw [mem_singleton.1 hf]

end InOrder

/-- What a strip needs to be added to a track with keys at the frames `held`: it comes after all of
them; or it has a frame with them, each of its two ends is at one of them or beyond all, and values
of its kind can be blended. -/
def Joins (kind : TrackKind) (held : List Int) (t : Track α) : Prop :=
  (∀ f ∈ held, f < t.first) ∨ kind.blends = true ∧ (∃ f ∈ held, t.first ≤ f ∧ f ≤ t.last) ∧
    (t.first ∈ held ∨ ∀ f ∈ held, t.first ≤ f) ∧ (t.last ∈ held ∨ ∀ f ∈ held, f ≤ t.last)

section Blend

theorem blend_eq (hi : t.interpolation = u.interpolation) (hw : t.kind.word = u.kind.word) :
    blend u t = if u.last < t.first then .error .missingPart
    { t with frames := u.frames ++ t.frames } else if t.last < u.first then .ok ()
    { t with frames := t.frames ++ u.frames, values := t.values ++ u.values } else match t.overlap u
    with
      | .ok keys => .ok () { t with frames := keys.map Prod.fst, values := keys.map Prod.snd }
      | .error e => .error e t := by
  unfold blend
  rw [get_bind, if_neg (not_not.2 hi), if_neg (not_not.2 hw)]
  split
  · rfl
  · split
    · rfl
    · cases t.overlap u <;> rfl

theorem blend_ok (h : blend u t = .ok () t') :
    (t'.kind = t.kind ∧ t'.interpolation = t.interpolation) ∧
    (t'.frames = t.frames ++ u.frames ∨ ∃ start limit, t'.frames = overlaid start limit t.frames
    u.frames) := by
  have hi : t.interpolation = u.interpolation := by
    by_contra hi
    rw [blend, get_bind, if_pos hi] at h
    cases h
  have hw : t.kind.word = u.kind.word := by
    by_contra hw
    rw [blend, get_bind, if_neg (not_not.2 hi), if_pos hw] at h
    cases h
  rw [blend_eq hi hw] at h
  split at h
  · cases h
  · split at h
    · cases h
      exact ⟨⟨rfl, rfl⟩, .inl rfl⟩
    · cases hkeys : t.overlap u with
      | error e =>
        rw [hkeys] at h
        cases h
      | ok keys =>
        rw [hkeys] at h
        cases h
        exact ⟨⟨rfl, rfl⟩, .inr ⟨_, _, (overlap_frames hkeys).2.2⟩⟩

/-- Frames that are held stay in their order. -/
theorem blend_sublist (h : blend u t = .ok () t') : t.frames.Sublist t'.frames ∧ t'.kind = t.kind ∧
    t'.interpolation = t.interpolation := by
  obtain ⟨hsame, hfrs | ⟨_, _, hfrs⟩⟩ := blend_ok h
  · exact ⟨hfrs ▸ sublist_append_left _ _, hsame⟩
  · exact ⟨hfrs ▸ sublist_overlaid, hsame⟩

variable (ht : t.InOrder kind interpolation) (hu : u.IsStrip kind interpolation path)

include ht hu

/-- Where a strip is laid over a track, both have the later of their first frames. -/
theorem Joins.start_mem (hshar : ∃ f ∈ t.frames, u.first ≤ f ∧ f ≤ u.last)
    (hbeg : u.first ∈ t.frames ∨ ∀ f ∈ t.frames, u.first ≤ f) :
    max t.first u.first ∈ t.frames ∧ max t.first u.first ∈ u.frames := by
  obtain ⟨f, hf, hf1, hf2⟩ := hshar
  refine ⟨?_, hu.gapless.mem_frames.2 ?_⟩
  · rcases hbeg with hbeg | hbeg
    · rwa [max_eq_right (ht.first_le hbeg)]
    · rw [max_eq_left (hbeg _ ht.first_mem)]
      exact ht.first_mem
  · have := ht.first_le hf
    omega

theorem Joins.overlaid_sorted (hshar : ∃ f ∈ t.frames, u.first ≤ f ∧ f ≤ u.last)
    (hbeg : u.first ∈ t.frames ∨ ∀ f ∈ t.frames, u.first ≤ f)
    (hend : u.last ∈ t.frames ∨ ∀ f ∈ t.frames, f ≤ u.last) :
    (overlaid (max t.first u.first) (min t.last u.last) t.frames u.frames).Pairwise (· < ·) := by
  obtain ⟨hst, hsu⟩ := Joins.start_mem ht hu hshar hbeg
  refine SceneExport.overlaid_sorted ht.sorted hu.gapless.sorted hst hsu ?_ ?_
  · rcases hbeg with hbeg | hbeg
    · refine .inr fun b hb => ?_
      have := ht.first_le hbeg
      have := (hu.gapless.mem_frames.1 hb).1
      omega
    · refine .inl fun a ha => ?_
      have := hbeg _ ht.first_mem
      have := ht.first_le ha
      omega
  · intro b hb
    by_cases hlat : t.last ≤ u.last
    · refine .inl fun a ha => ?_
      have := ht.le_last ha
      omega
    · -- The strip ends first, so it ends at a key.
      have hmem : u.last ∈ t.frames := hend.resolve_right fun h => hlat (h _ ht.last_mem)
      exact .inr ⟨u.last, hmem, (hu.gapless.mem_frames.1 hb).2, by omega⟩

/-- A strip that joins a track is laid over it: the frames of both are held, in order. -/
theorem blend_of_joins (hj : u.Joins kind t.frames) :
    ∃ t', blend u t = .ok () t' ∧ t'.InOrder kind interpolation ∧
      ∀ f, f ∈ t'.frames ↔ f ∈ t.frames ∨ f ∈ u.frames := by
  have hends := hu.gapless.first_le_last
  rw [blend_eq (ht.interpolation.trans hu.interpolation.symm) (by rw [ht.kind, hu.word])]
  rcases hj with hpost | ⟨hk, hshar, hbeg, hend⟩
  · have hlt := hpost _ ht.last_mem
    have hle := ht.first_le ht.last_mem
    rw [if_neg (by omega), if_pos hlt]
    refine ⟨_, rfl, ⟨⟨?_, ?_⟩, ht.kind, ht.interpolation, ?_, ?_⟩, ?_⟩
    · simp [ht.values, hu.values]
    · intro v hv
      exact (mem_append.1 hv).elim (ht.taken v) (hu.taken v)
    · simp [ht.nonempty]
    · refine pairwise_append.2 ⟨ht.sorted, hu.gapless.sorted, fun f hf g hg => ?_⟩
      have := hpost f hf
      have := (hu.gapless.mem_frames.1 hg).1
      omega
    · exact fun f => mem_append
  · obtain ⟨hst, hsu⟩ := Joins.start_mem ht hu hshar hbeg
    have hheld : t.Holds t.kind := ht.kind ▸ ht.toHolds
    obtain ⟨keys, hkeys, htaken⟩ := overlap_ok (ht.kind ▸ hk) hheld (ht.kind ▸ hu.toHolds) hst hsu
    obtain ⟨-, -, hfrs⟩ := overlap_frames hkeys
    have hmem (g : Int) : g ∈ keys.map Prod.fst ↔ g ∈ t.frames ∨ g ∈ u.frames := by
      rw [hfrs]
      exact mem_overlaid
    have hle := (hu.gapless.mem_frames.1 hsu).2
    have hle' := ht.le_last hst
    rw [if_neg (by omega), if_neg (by omega), hkeys]
    refine ⟨_, rfl, ⟨⟨by simp, ?_⟩, ht.kind, ht.interpolation, ?_, ?_⟩, hmem⟩
    · intro v hv
      obtain ⟨k, hmem, rfl⟩ := mem_map.1 hv
      exact ht.kind ▸ htaken k hmem
    · exact ne_nil_of_mem ((hmem t.first).2 (.inl ht.first_mem))
    · rw [hfrs]
      exact Joins.overlaid_sorted ht hu hshar hbeg hend

/-- A strip that does not join a track is refused, or brings its frames out of order. -/
theorem joins_of_blend (h : blend u t = .ok () t') (hsort : t'.frames.Pairwise (· < ·)) :
    u.Joins kind t.frames := by
  have hends := hu.gapless.first_le_last
  have hlast := ht.last_mem
  rw [blend_eq (ht.interpolation.trans hu.interpolation.symm) (by rw [ht.kind, hu.word])] at h
  by_cases hfront : u.last < t.first
  · rw [if_pos hfront] at h
    cases h
  rw [if_neg hfront] at h
  by_cases hbehi : t.last < u.first
  · refine .inl fun f hf => ?_
    have := ht.le_last hf
    omega
  rw [if_neg hbehi] at h
  cases hkeys : t.overlap u with
  | error e =>
    rw [hkeys] at h
    cases h
  | ok keys =>
    rw [hkeys] at h
    cases h
    obtain ⟨hst, hsu, hfrs⟩ := overlap_frames hkeys
    have hboun := hu.gapless.mem_frames.1 hsu
    have hle := ht.le_last hst
    refine .inr ⟨?_, ⟨_, hst, hboun⟩, ?_, ?_⟩
    · rw [← ht.kind]
      exact blends_of_overlap (by omega) hkeys
    · by_cases hbeg : t.first ≤ u.first
      · rw [max_eq_right hbeg] at hst
        exact .inl hst
      · refine .inr fun f hf => ?_
        have := ht.first_le hf
        omega
    · by_contra hend
      rw [not_or] at hend
      obtain ⟨hnot, hlat⟩ := hend
      have hlt : u.last < t.last := by
        by_contra hge
        refine hlat fun f hf => ?_
        have := ht.le_last hf
        omega
      have hlimit : min t.last u.last = u.last := min_eq_right (by omega)
      have hsort : (keys.map Prod.fst).Pairwise (· < ·) := hsort
      rw [hfrs, hlimit] at hsort
      refine overlaid_not_sorted ht.sorted hu.gapless.sorted hst hsu hboun.2 (fun b hb => ?_) ?_
        hnot ⟨_, hlast, hlt⟩ hsort
      · exact (hu.gapless.mem_frames.1 hb).2
      · exact hu.gapless.mem_frames.2 ⟨hends, Int.le_refl _⟩

end Blend

instance (kind : TrackKind) (held : List Int) (t : Track α) : Decidable (t.Joins kind held) :=
  inferInstanceAs (Decidable (_ ∨ _))

/-- Each track joins the frames that are held when it comes. -/
def JoinInTurn (kind : TrackKind) (held : List Int) : List (Track α) → Prop
  | [] => True
  | t :: rest => t.Joins kind held ∧ JoinInTurn kind (held ++ t.frames) rest

def decidableJoinInTurn (kind : TrackKind) (held : List Int) :
    (tracks : List (Track α)) → Decidable (JoinInTurn kind held tracks)
  | [] => .isTrue trivial
  | t :: rest =>
    have := decidableJoinInTurn kind (held ++ t.frames) rest
    inferInstanceAs (Decidable (t.Joins kind held ∧ JoinInTurn kind (held ++ t.frames) rest))

instance (kind : TrackKind) (held : List Int) (tracks : List (Track α)) :
    Decidable (JoinInTurn kind held tracks) :=
  decidableJoinInTurn kind held tracks

omit [Scalar α] in
theorem joinInTurn_congr {kind : TrackKind} {held held' : List Int} (h : ∀ f, f ∈ held ↔ f ∈ held')
    (tracks : List (Track α)) : JoinInTurn kind held tracks ↔ JoinInTurn kind held' tracks := by
  induction tracks generalizing held held' with
  | nil => exact Iff.rfl
  | cons t rest ih =>
    have hjoins : t.Joins kind held ↔ t.Joins kind held' := by simp [Joins, h]
    have hrest : JoinInTurn kind (held ++ t.frames) rest ↔ JoinInTurn kind (held' ++ t.frames)
      rest :=
      ih fun f => by simp [h]
    rw [JoinInTurn, JoinInTurn, hjoins, hrest]

end Track

/-! ### Adding strips to an animation -/

namespace Animation

/-- Add tracks one after the other. -/
def addTracks (timing : Timing) (tracks : List (Track α)) : EStateM Failure (Animation α) Unit :=
  tracks.forM fun t => addTrack t timing

section Adding

variable {timing : Timing} {a a' : Animation α} {us : List (Track α)}

theorem extend_apply (a : Animation α) (time : α) :
    (modify fun a => { a with length := extended a.length time } : EStateM Failure (Animation α)
    Unit) a = .ok () { a with length := extended a.length time } :=
  rfl

theorem addTrack_fresh (ha : a.tracks = []) (htime : ∃ time : α, timing.seconds t.last = .ok time) :
    ∃ a', addTrack t timing a = .ok () a' ∧ a'.tracks = [(t.path.render, t)] := by
  obtain ⟨time, htime⟩ := htime
  unfold addTrack
  rw [htime]
  dsimp only
  rw [pure_bind, bind_of_ok (extend_apply a time), get_bind]
  rw [ha]
  exact ⟨_, rfl, by simp [replaceTrack, Record.set]⟩

theorem addTrack_held (ha : a.tracks = [(path, u)]) (hpath : t.path.render = path)
    (htime : ∃ time : α, timing.seconds t.last = .ok time) :
    (∀ t', Track.blend t u = .ok () t' → ∃ a', addTrack t timing a = .ok () a' ∧ a'.tracks =
    [(path, t')]) ∧ ∀ a', addTrack t timing a = .ok () a' → ∃ t', Track.blend t u = .ok () t' ∧
    a'.tracks = [(path, t')] := by
  subst hpath
  obtain ⟨time, htime⟩ := htime
  have hget : Record.get? a.tracks t.path.render = some u := by simp [ha, Record.get?]
  have hset (t' : Track α) : Record.set a.tracks t.path.render t' = [(t.path.render, t')] := by
    simp [ha, Record.set]
  unfold addTrack
  rw [htime]
  dsimp only
  rw [pure_bind, bind_of_ok (extend_apply a time), get_bind]
  rw [hget]
  dsimp only [EStateM.run]
  refine ⟨fun t' hb => ?_, fun a' h => ?_⟩
  · rw [hb]
    exact ⟨_, rfl, hset t'⟩
  · cases hb : Track.blend t u with
    | ok _ t' =>
      rw [hb] at h
      cases h
      exact ⟨t', rfl, hset t'⟩
    | error e t' =>
      rw [hb] at h
      cases h

theorem addTracks_cons (h : addTracks timing (u :: us) a = .ok () a') :
    ∃ a1, addTrack u timing a = .ok () a1 ∧ addTracks timing us a1 = .ok () a' := by
  obtain ⟨_, a1, hu, hus⟩ := bind_ok h
  exact ⟨a1, hu, hus⟩

section Held

variable (ha : a.tracks = [(path, t)]) (hus : ∀ u ∈ us, u.IsStrip kind interpolation path)
  (htime : ∀ u ∈ us, ∃ time : α, timing.seconds u.last = .ok time)

include ha hus htime

/-- Frames that are held stay in their order. -/
theorem addTracks_sublist (hk : t.kind = kind) (hi : t.interpolation = interpolation)
    (h : addTracks timing us a = .ok () a') : ∃ t', a'.tracks = [(path, t')] ∧ t.frames.Sublist
    t'.frames := by
  induction us generalizing a t with
  | nil =>
    cases h
    exact ⟨t, ha, .refl _⟩
  | cons u us ih =>
    obtain ⟨hu, hus⟩ := forall_mem_cons.1 hus
    obtain ⟨hut, htime⟩ := forall_mem_cons.1 htime
    obtain ⟨a1, hadd, h⟩ := addTracks_cons h
    obtain ⟨t1, hbl, ha1⟩ := (addTrack_held ha hu.path hut).2 a1 hadd
    obtain ⟨hsub, hk1, hi1⟩ := Track.blend_sublist hbl
    obtain ⟨t', ha', hsub'⟩ := ih ha1 hus htime (hk1.trans hk) (hi1.trans hi) h
    exact ⟨t', ha', hsub.trans hsub'⟩

theorem addTracks_held_iff (ht : t.InOrder kind interpolation) :
    (∃ a' t', addTracks timing us a = .ok () a' ∧ a'.tracks = [(path, t')] ∧
      t'.frames.Pairwise (· < ·) ∧ ∀ f, f ∈ t'.frames ↔ f ∈ t.frames ∨ ∃ u ∈ us, f ∈ u.frames) ↔
    Track.JoinInTurn kind t.frames us := by
  induction us generalizing a t with
  | nil =>
    refine ⟨fun _ => trivial, fun _ => ⟨a, t, rfl, ha, ht.sorted, fun f => by simp⟩⟩
  | cons u us ih =>
    obtain ⟨hu, hus⟩ := forall_mem_cons.1 hus
    obtain ⟨hut, htime⟩ := forall_mem_cons.1 htime
    constructor
    · rintro ⟨a', t', h, ha', hsort, hmem⟩
      obtain ⟨a1, hadd, h⟩ := addTracks_cons h
      obtain ⟨t1, hbl, ha1⟩ := (addTrack_held ha hu.path hut).2 a1 hadd
      obtain ⟨-, hk1, hi1⟩ := Track.blend_sublist hbl
      -- The order in the end is the order in between.
      obtain ⟨_, ha'', hsub⟩ := addTracks_sublist ha1 hus htime (hk1.trans ht.kind)
        (hi1.trans ht.interpolation) h
      cases ha'.symm.trans ha''
      have hj := Track.joins_of_blend ht hu hbl (hsort.sublist hsub)
      obtain ⟨t2, hblend2, ht1, hmem1⟩ := Track.blend_of_joins ht hu hj
      cases hbl.symm.trans hblend2
      refine ⟨hj, (Track.joinInTurn_congr (fun f => ?_) us).1 ((ih ha1 hus htime ht1).1
        ⟨a', t', h, ha', hsort, fun f => ?_⟩)⟩
      · rw [hmem1, mem_append]
      · rw [hmem, hmem1]
        simp [or_assoc]
    · rintro ⟨hj, hrest⟩
      obtain ⟨t1, hbl, ht1, hmem1⟩ := Track.blend_of_joins ht hu hj
      obtain ⟨a1, hadd, ha1⟩ := (addTrack_held ha hu.path hut).1 t1 hbl
      have hrest' : Track.JoinInTurn kind t1.frames us :=
        (Track.joinInTurn_congr (fun f => by rw [hmem1, mem_append]) us).2 hrest
      obtain ⟨a', t', h, ha', hsort, hmem⟩ := (ih ha1 hus htime ht1).2 hrest'
      refine ⟨a', t', ?_, ha', hsort, fun f => ?_⟩
      · show (addTrack u timing >>= fun _ => addTracks timing us) a = _
        rw [bind_of_ok hadd]
        exact h
      · rw [hmem, hmem1]
        simp [or_assoc]

end Held

/-- Strips of one path are added to an empty animation.  They come out as one track with the frames
of all of them, in order, just when each one joins the frames before it. -/
theorem addTracks_union_iff (ha : a.tracks = []) (hkind : t.kind = kind)
    (hus : ∀ u ∈ t :: us, u.IsStrip kind interpolation path)
    (htime : ∀ u ∈ t :: us, ∃ time : α, timing.seconds u.last = .ok time) :
    (∃ a' t', addTracks timing (t :: us) a = .ok () a' ∧ a'.tracks = [(path, t')] ∧
      t'.frames.Pairwise (· < ·) ∧ ∀ f, f ∈ t'.frames ↔ ∃ u ∈ t :: us, f ∈ u.frames) ↔
    Track.JoinInTurn kind [] (t :: us) := by
  have ht := (hus t mem_cons_self)
  obtain ⟨a₁, hadd, ha₁⟩ := addTrack_fresh ha (htime t mem_cons_self)
  rw [ht.path] at ha₁
  have hrun : addTracks timing (t :: us) a = addTracks timing us a₁ := by
    show (addTrack t timing >>= fun _ => addTracks timing us) a = _
    rw [bind_of_ok hadd]
  have hjoins : Track.JoinInTurn kind [] (t :: us) ↔ Track.JoinInTurn kind t.frames us := by
    simp [Track.JoinInTurn, Track.Joins]
  have hord : t.InOrder kind interpolation := { ht.toHolds with
      kind := hkind
      interpolation := ht.interpolation
      nonempty := ne_nil_of_mem (ht.gapless.mem_frames.2 ⟨le_refl _, ht.gapless.first_le_last⟩)
      sorted := ht.gapless.sorted }
  rw [hrun, hjoins, ← addTracks_held_iff ha₁
    (fun u hu => hus u (mem_cons_of_mem _ hu)) (fun u hu => htime u (mem_cons_of_mem _ hu)) hord]
  simp

/-- A strip that fills a gap between two others has a place with them; one in front of another has
none. -/
theorem addTracks_union_gap_filled :
    (∃ a' t', addTracks { } [.still 1 2 true, .still 6 2 false, .still 2 5 true]
        ({ } : Animation ℚ) = .ok () a' ∧ a'.tracks = [(Track.visibility.render, t')] ∧
      t'.frames.Pairwise (· < ·) ∧
      ∀ f, f ∈ t'.frames ↔
        ∃ u ∈ [Track.still 1 2 true, .still 6 2 false, .still 2 5 true], f ∈ (u : Track ℚ).frames) ∧
    ¬ ∃ a' t', addTracks { } [.still 5 2 true, .still 1 2 true] ({ } : Animation ℚ) = .ok () a' ∧
      a'.tracks = [(Track.visibility.render, t')] ∧ t'.frames.Pairwise (· < ·) ∧
      ∀ f, f ∈ t'.frames ↔ ∃ u ∈ [Track.still 5 2 true, .still 1 2 true],
      f ∈ (u : Track ℚ).frames := by
  have htime (f : Int) : ∃ time : ℚ, ({ } : Timing).seconds f = .ok time := ⟨_, rfl⟩
  have hfill : ∀ u ∈ [.still 1 2 true, .still 6 2 false, .still 2 5 true],
      Track.IsStrip .value .nearest Track.visibility.render (u : Track ℚ) := by
      simp [Track.still_isStrip]
  have hfront : ∀ u ∈ [.still 5 2 true, .still 1 2 true],
      Track.IsStrip .value .nearest Track.visibility.render (u : Track ℚ) := by
      simp [Track.still_isStrip]
  refine ⟨(addTracks_union_iff rfl rfl hfill fun u _ => htime u.last).2 (by decide), fun h => ?_⟩
  exact absurd ((addTracks_union_iff rfl rfl hfront fun u _ => htime u.last).1 h) (by decide)

end Adding

end Animation

end SceneExport
