import SceneExport.Proofs.Export.References

/-!
# Animations and their players

An animation is made for a player, under a name.  It is a sub-resource of its own, and the player
refers to it by a property that is named for it (`anims/…`).  The sub-resource is always new, but
the property need not be: a player that gets another animation under the same name refers to that
one from then on, and no other node refers to the first.

Main statement: in the file of a scene each property of a player refers to the last animation that
was made for the player under the name, and so every animation is referred to once if and only if no
two were made for one player under one name (`ExportM.saveScene_animations`).

Animations are the only sub-resources of their type, since all resources of other makers are of the
types of their keys.  So what is shown here of a file depends on its sub-resources without a key
(`Session.unkeyed`) and on the sound ledger of the others.
-/

namespace SceneExport

open List
open ResourceTable (get? extended)

variable {α β : Type} {owner : Nat → NodeId × String} {e : Entry α}

/-! ### Resources without a key -/

/-- The sub-resource with a number, if it is under no key. -/
def Ledger.unkeyed (l : Ledger α) (n : Nat) : Option (Entry α) :=
  if l.numbers.any (·.2 == n) || n == 0 then none else l.entries[n - 1]?

theorem Ledger.unkeyed_add_key (l : Ledger α) (key : InternalKey α) (e : Entry α) :
    (l.add (some key) e).unkeyed = l.unkeyed := by
  funext n
  have hnums : (l.add (some key) e).numbers = l.numbers ++ [(key, l.entries.length + 1)] := rfl
  have hentr : (l.add (some key) e).entries = l.entries ++ [e] := rfl
  unfold unkeyed
  rw [hnums, hentr, any_append]
  by_cases hn : n = l.entries.length + 1
  · subst hn
    simp
  · have hoth : ([(key, l.entries.length + 1)].any fun x => x.2 == n) = false := by
      simpa using Ne.symm hn
    cases n with
    | zero => simp
    | succ n =>
      grind

theorem InternalKey.types_ne_animation (key : InternalKey α) : "Animation" ∉ key.types := by
  cases key <;> simp [types, materialTypes]

/-- While only resources with keys are added, no animation is. -/
theorem Ledger.Grown.isA_animation {l l' : Ledger α} (h : l.Grown l') (hu : l'.unkeyed = l.unkeyed)
    (n : Nat) :
    l'.IsA n ["Animation"] ↔ l.IsA n ["Animation"] := by
  refine ⟨fun hn => ?_, h.extension.isA⟩
  obtain ⟨hpos, e, he, t, ht, htype⟩ := hn
  cases mem_singleton.1 ht
  -- An animation is under no key, as a key finds only resources of its own types.
  have hunke : l'.unkeyed n = some e := by
    have hkeys : l'.numbers.any (·.2 == n) = false := by
      rw [← Bool.not_eq_true, any_eq_true]
      rintro ⟨⟨key, m⟩, hmem, hm⟩
      obtain rfl : m = n := by simpa using hm
      obtain ⟨-, e', he', t', ht', htype'⟩ := h.sound.numbers key m hmem
      cases he.symm.trans he'
      cases htype.symm.trans htype'
      exact key.types_ne_animation ht'
    rw [unkeyed, hkeys, he]
    simp; omega
  rw [hu, unkeyed] at hunke
  split at hunke
  · cases hunke
  · exact ⟨hpos, e, hunke, _, ht, htype⟩

variable {n : Nat} {type name : String} {player p : NodeId}

theorem Ledger.isA_add_other {l : Ledger α} (he : e.type? ≠ some "Animation")
    (key : Option (InternalKey α)) (n : Nat) :
    (l.add key e).IsA n ["Animation"] ↔ l.IsA n ["Animation"] := by
  refine ⟨?_, (l.extends_add key e).isA⟩
  rintro ⟨hpos, e', he', t, ht, htype⟩
  rcases getElem?_add he' with ⟨-, he'⟩ | ⟨-, rfl⟩
  · exact ⟨hpos, e', he', t, ht, htype⟩
  · cases mem_singleton.1 ht
    exact absurd htype he

/-! ### The last animation under a name -/

namespace Ledger

/-- An animation is the last one that belongs to a player under a name. -/
def IsLast (l : Ledger α) (owner : Nat → NodeId × String) (n : Nat) (x : NodeId × String) : Prop :=
  l.IsA n ["Animation"] ∧ owner n = x ∧ ∀ m, n < m → l.IsA m ["Animation"] → owner m ≠ x

variable {l : Ledger α} {types : List String}

theorem le_of_isA (h : l.IsA n types) : n ≤ l.entries.length := by
  obtain ⟨hpos, e, he, -⟩ := h
  have hlt := (List.getElem?_eq_some_iff.1 he).1
  omega

theorem isA_add_animation (he : e.type? = some "Animation") (n : Nat) :
    (l.add none e).IsA n ["Animation"] ↔ n = l.entries.length + 1 ∨ l.IsA n ["Animation"] := by
  constructor
  · rintro ⟨hpos, e', he', t, ht, htype⟩
    rcases getElem?_add he' with ⟨-, he'⟩ | ⟨hn, -⟩
    · exact .inr ⟨hpos, e', he', t, ht, htype⟩
    · exact .inl (by omega)
  · rintro (rfl | hn)
    · exact l.isA_add none he (mem_singleton_self _)
    · exact (l.extends_add none e).isA hn

/-- An animation that was there belongs to whom it did. -/
theorem update_owner_of_isA (h : l.IsA n types) (owner : Nat → NodeId × String)
    (x : NodeId × String) : Function.update owner (l.entries.length + 1) x n = owner n := by
  have hle := le_of_isA h
  exact Function.update_of_ne (by omega) _ _

/-- A new animation takes its name, and leaves the other names as they are. -/
theorem isLast_add_animation (he : e.type? = some "Animation") {x y : NodeId × String} :
    (l.add none e).IsLast (Function.update owner (l.entries.length + 1) x) n y ↔
      if y = x then n = l.entries.length + 1 else l.IsLast owner n y := by
  have hnew : (l.add none e).IsA (l.entries.length + 1) ["Animation"] := (isA_add_animation he _).2
    (.inl rfl)
  have hlen : (l.add none e).entries.length = l.entries.length + 1 := by simp [add]
  split
  · next hyx =>
    subst hyx
    constructor
    · rintro ⟨hn, -, hlast⟩
      by_contra hne
      have hle := le_of_isA hn
      exact hlast _ (by omega) hnew (Function.update_self ..)
    · rintro rfl
      refine ⟨hnew, Function.update_self .., fun m hm hA => ?_⟩
      have hle := le_of_isA hA
      omega
  · next hyx =>
    constructor
    · rintro ⟨hn, howner, hlast⟩
      rcases (isA_add_animation he n).1 hn with rfl | hn
      · rw [Function.update_self] at howner
        exact absurd howner.symm hyx
      · rw [update_owner_of_isA hn] at howner
        refine ⟨hn, howner, fun m hm hA => ?_⟩
        have hnot := hlast m hm ((isA_add_animation he m).2 (.inr hA))
        rwa [update_owner_of_isA hA] at hnot
    · rintro ⟨hn, howner, hlast⟩
      refine ⟨(isA_add_animation he n).2 (.inr hn), (update_owner_of_isA hn owner x).trans howner,
        fun m hm hA => ?_⟩
      rcases (isA_add_animation he m).1 hA with rfl | hA
      · rw [Function.update_self]
        exact Ne.symm hyx
      · rw [update_owner_of_isA hA]
        exact hlast m hm hA

end Ledger

/-! ### Playbills -/

/-- What a node is for animations: its type, and what it has under each name. -/
structure CueSheet (α : Type) where
  type : Option (Value α)
  cue : String → Option (Value α)

/-- Have something under a name. -/
def CueSheet.set (c : CueSheet α) (name : String) (v : Value α) : CueSheet α :=
  { c with cue := Function.update c.cue name (some v) }

def Node.cueSheet (n : Node α) : CueSheet α where
  type := n.entry.heading.get? "type"
  cue name := n.entry.properties.get? ("anims/" ++ name)

/-- The resources of a file, and what its nodes are for animations. -/
structure Playbill (α : Type) where
  ledger : Ledger α
  nodes : List (CueSheet α)
  written : List NodeId

def Session.playbill (s : Session α) : Playbill α where
  ledger := s.ledger
  nodes := s.file.tree.nodes.toList.map Node.cueSheet
  written := s.file.written.toList

/-- What of a playbill does not depend on resources with keys. -/
def Session.unkeyed (s : Session α) : (Nat → Option (Entry α)) × List (CueSheet α) × List NodeId :=
  (s.ledger.unkeyed, s.playbill.nodes, s.playbill.written)

instance : Tracked (Session.playbill : Session α → Playbill α) where
  detail s id detail := by
    have hledg : Session.ledger { s with file := { s.file with
        internal := s.file.internal.update id fun r => { r with detail } } } = s.ledger :=
      Tracked.detail s id detail
    simp [Session.playbill, hledg]
  playing s player id := by
    have hn (n : Node α) : { n with role := n.role.playing id }.cueSheet = n.cueSheet := rfl
    simp only [Session.playbill, Tree.update, map_modify Node.cueSheet hn]
    rfl

instance : Quiet (Session.unkeyed : Session α → _) where

instance [Scalar α] : HidesKeyed (Session.unkeyed : Session α → _) := by
  have hkeyed (s : Session α) (key : InternalKey α) (item : Nat → Resource α) (n : Nat) internal
      (h : s.file.internal.add key item = .ok (n, internal)) :
      Session.unkeyed { s with file := { s.file with internal } } = s.unkeyed := by
    have hledg : Session.ledger { s with file := { s.file with internal } }
        = s.ledger.add (some key) (item (s.file.internal.items.size + 1)).entry := by
      unfold ResourceTable.add at h
      split at h
      · cases h
      · cases h
        simp [Session.ledger, SceneFile.ledger, Ledger.add]
    simp only [Session.unkeyed, hledg, Ledger.unkeyed_add_key]
    rfl
  exact { external := fun _ _ => rfl
          other := fun s key item n internal _ => hkeyed s key item n internal
          keyed := hkeyed }

/-! ### Casts -/

namespace Playbill

def IsPlayer (b : Playbill α) (p : NodeId) : Prop :=
  p ∈ b.written ∧ ∃ n, b.nodes[p]? = some n ∧ n.type = some (.text "AnimationPlayer")

/-- Every animation belongs to a player, under a name.  What a player has under a name is the last
animation that belongs to it under the name. -/
structure Cast (owner : Nat → NodeId × String) (b : Playbill α) : Prop where
  sound : b.ledger.Sound
  written : ∀ (p : NodeId) n, b.nodes[p]? = some n → n.type = some (.text "AnimationPlayer") →
    p ∈ b.written
  owned : ∀ n, b.ledger.IsA n ["Animation"] → b.IsPlayer (owner n).1
  named : ∀ (n : Nat) e, 1 ≤ n → b.ledger.entries[n - 1]? = some e → e.type? = some "Animation" →
    e.properties.get? "resource_name"
      = some (.quoted (Text.without (fun c => c == '.' || c == '/') (owner n).2))
  cues : ∀ (p : NodeId) c, b.nodes[p]? = some c → ∀ name v, c.cue name = some v ↔
    ∃ n, v = .reference (.internal (some n)) ∧ b.ledger.IsLast owner n (p, name)

/-- A cast can be found for a playbill. -/
def IsCast (b : Playbill α) : Prop :=
  ∃ owner, Cast owner b

variable {b b' : Playbill α}

theorem Cast.lt_length (h : Cast owner b) {x : NodeId × String} (hn : b.ledger.IsLast owner n x) :
    x.1 < b.nodes.length := by
  obtain ⟨-, c, hc, -⟩ := h.owned n hn.1
  rw [hn.2.1] at hc
  exact (List.getElem?_eq_some_iff.1 hc).1

/-- Resources are added, and no animation is among them. -/
theorem Cast.grown (h : Cast owner b) (hg : b.ledger.Grown b'.ledger)
    (ha : ∀ n, b'.ledger.IsA n ["Animation"] ↔ b.ledger.IsA n ["Animation"])
    (hn : b'.nodes = b.nodes) (hw : b'.written = b.written) : Cast owner b' where
  sound := hg.sound
  written p n := by
    rw [hn, hw]
    exact h.written p n
  owned n hA := by
    rw [IsPlayer, hn, hw]
    exact h.owned n ((ha n).1 hA)
  named n e hpos he htype := by
    obtain ⟨-, e', he', -⟩ := (ha n).1 ⟨hpos, e, he, _, mem_singleton_self _, htype⟩
    obtain rfl : e' = e := by
      rw [getElem?_of_initial hg.extension.entries he'] at he
      exact Option.some.inj he
    exact h.named n e' hpos he' htype
  cues p c hc name v := by
    rw [hn] at hc
    simp only [Ledger.IsLast, ha]
    exact h.cues p c hc name v

theorem Cast.push (h : Cast owner b) {more : List NodeId}
    (hmore : type = "AnimationPlayer" → b.nodes.length ∈ more) :
    Cast owner { b with
      nodes := b.nodes ++ [⟨some (.text type), fun _ => none⟩], written := b.written ++ more } where
  sound := h.sound
  written p n hn htype := by
    rcases getElem?_concat_cases hn with hn | ⟨rfl, rfl⟩
    · exact mem_append_left _ (h.written p n hn htype)
    · cases htype
      exact mem_append_right _ (hmore rfl)
  owned n hA := by
    obtain ⟨hw, c, hc, htype⟩ := h.owned n hA
    refine ⟨mem_append_left _ hw, c, ?_, htype⟩
    rw [List.getElem?_append_left (List.getElem?_eq_some_iff.1 hc).1, hc]
  named := h.named
  cues p c hc name v := by
    rcases getElem?_concat_cases hc with hc | ⟨rfl, rfl⟩
    · exact h.cues p c hc name v
    · -- The new node has nothing, and nothing belongs to it.
      refine ⟨nofun, ?_⟩
      rintro ⟨n, -, hn⟩
      exact absurd (h.lt_length hn) (Nat.lt_irrefl _)

theorem Cast.write (h : Cast owner b) (id : NodeId) :
    Cast owner { b with written := b.written ++ [id] } where
  sound := h.sound
  written p n hn htype := mem_append_left _ (h.written p n hn htype)
  owned n hA := (h.owned n hA).imp_left (mem_append_left _)
  named := h.named
  cues := h.cues

/-- The playbill with a new animation for a player. -/
def create (b : Playbill α) (player : NodeId) (name : String) (e : Entry α) : Playbill α where
  ledger := b.ledger.add none e
  nodes := b.nodes.modify player
    (·.set name (.reference (.internal (some (b.ledger.entries.length + 1)))))
  written := b.written

/-- A node stays what it is, but for what the player has under the name. -/
theorem getElem?_create {c : CueSheet α} (h : (b.create player name e).nodes[p]? = some c) :
    ∃ c', b.nodes[p]? = some c' ∧ c'.type = c.type ∧ ∀ key, c.cue key = if (p, key) =
    (player, name) then some (.reference (.internal (some (b.ledger.entries.length + 1)))) else
    c'.cue key := by
  rw [create, getElem?_modify] at h
  obtain ⟨c', hc', rfl⟩ := Option.map_eq_some_iff.1 h
  refine ⟨c', hc', ?_, fun key => ?_⟩
  · split <;> rfl
  · by_cases hp : player = p
    · subst hp
      simp [CueSheet.set, Function.update_apply]
    · simp [hp, Ne.symm hp]

theorem IsPlayer.create (h : b.IsPlayer p) : (b.create player name e).IsPlayer p := by
  obtain ⟨hw, c, hc, htype⟩ := h
  refine ⟨hw, ?_⟩
  rw [Playbill.create, getElem?_modify, hc]
  refine ⟨_, rfl, ?_⟩
  split
  · exact htype
  · exact htype

/-- An animation is made for a player.  It belongs to the player from then on, under its name, and
is the last one that does. -/
theorem Cast.create (h : Cast owner b) (hp : b.IsPlayer player)
    (htype : e.type? = some "Animation") (hname : e.properties.get? "resource_name"
      = some (.quoted (Text.without (fun c => c == '.' || c == '/') name)))
    (hsound : (b.ledger.add none e).Sound) :
    Cast (Function.update owner (b.ledger.entries.length + 1) (player, name))
    (b.create player name e) where
  sound := hsound
  written p n hn ht := by
    obtain ⟨c, hc, hsame, -⟩ := getElem?_create hn
    exact h.written p c hc (hsame ▸ ht)
  owned n hA := by
    rcases (Ledger.isA_add_animation htype n).1 hA with rfl | hA
    · rw [Function.update_self]
      exact hp.create
    · rw [Ledger.update_owner_of_isA hA]
      exact (h.owned n hA).create
  named n e' hpos he' ht := by
    rcases Ledger.getElem?_add he' with ⟨hlt, he'⟩ | ⟨hn, rfl⟩
    · rw [Ledger.update_owner_of_isA ⟨hpos, e', he', _, mem_singleton_self _, ht⟩]
      exact h.named n e' hpos he' ht
    · obtain rfl : n = b.ledger.entries.length + 1 := by omega
      rw [Function.update_self]
      exact hname
  cues p c hc key v := by
    obtain ⟨c', hc', -, hcue⟩ := getElem?_create hc
    have hledg : (b.create player name e).ledger = b.ledger.add none e := rfl
    simp only [hledg, Ledger.isLast_add_animation htype, hcue key]
    by_cases hnew : (p, key) = (player, name)
    · simp [hnew, eq_comm]
    · simpa [hnew] using h.cues p c' hc' key v

end Playbill

/-! ### Animations of a file -/

namespace SceneFile

/-- The sub-resource with a number is an animation. -/
def IsAnimation (f : SceneFile α) (n : Nat) : Prop :=
  ∃ r, f.internal.get? n = some r ∧ r.entry.type? = some "Animation"

def IsPlayer (f : SceneFile α) (p : NodeId) : Prop :=
  p ∈ f.written ∧ ∃ n, f.tree.nodes[p]? = some n ∧ n.entry.heading.get? "type" =
    some (.text "AnimationPlayer")

/-- A node refers to a sub-resource as the animation of some name. -/
def Plays (f : SceneFile α) (p : NodeId) (name : String) (n : Nat) : Prop :=
  ∃ node, f.tree.nodes[p]? = some node ∧
    node.entry.properties.get? ("anims/" ++ name) = some (.reference (.internal (some n)))

theorem isA_ledger {f : SceneFile α} : f.ledger.IsA n ["Animation"] ↔ f.IsAnimation n := by
  cases n with
  | zero => simp [IsAnimation, Ledger.IsA, get?]
  | succ n => simp [IsAnimation, Ledger.IsA, get?, ledger]

end SceneFile

namespace ExportM

open Session (playbill)

open Playbill

/-! ### Nodes -/

variable {s s' : Session α}

section

variable {always : Bool} {id : NodeId}

theorem updateNode_playbill (id : NodeId) {f : Node α → Node α}
    (hf : ∀ n, (f n).cueSheet = n.cueSheet) :
    Keeps always playbill (changeFile fun file => { file with tree := file.tree.update id f }) :=
  .modify fun s => by simp only [playbill, Tree.update, map_modify Node.cueSheet hf]; rfl

/-- What players have under their names does not depend on other properties. -/
theorem setNode_playbill (id : NodeId) (h : NoCue name) (v : Value α) : Keeps always playbill
    (setNode id name v) :=
  updateNode_playbill id fun n => by
    simp [Node.cueSheet, Entry.set, Record.get?_set_ne (h.ne _)]

theorem makeNode_playbill {parent : Option NodeId} {role : Role}
    (h : makeNode name type parent role s = .ok id s') :
    id = s.playbill.nodes.length ∧ s'.playbill = { s.playbill with
      nodes := s.playbill.nodes ++ [⟨some (.text type), fun _ => none⟩] } := by
  obtain ⟨rfl, heading, htype, rfl⟩ := makeNode_push h
  refine ⟨by simp [playbill], ?_⟩
  simp only [playbill, Tree.push, Array.toList_push, map_append, map_cons, map_nil]
  simp only [Node.cueSheet, htype]
  rfl

theorem writeNode_playbill (h : writeNode id s = .ok () s') :
    s'.playbill = { s.playbill with written := s.playbill.written ++ [id] } := by
  cases h
  simp [playbill, SceneFile.write, Session.ledger, SceneFile.ledger]

end

/-! ### Players -/

theorem type_ok {t : Tree α} {id : NodeId} (h : t.type id = .ok type) :
    ∃ n, t.nodes[id]? = some n ∧ n.entry.heading.get? "type" = some (.text type) := by
  obtain ⟨n, hn, h⟩ := Outcome.bind_ok h
  obtain ⟨v, hv, h⟩ := Outcome.bind_ok h
  refine ⟨n, need_ok hn, (need_ok hv).trans ?_⟩
  have htext := need_ok h
  cases v with
  | text s => exact congrArg _ (congrArg _ (Option.some.inj htext))
  | _ => cases htext

theorem isPlayer_of_type (hs : IsCast s.playbill) (h : s.file.tree.type p = .ok "AnimationPlayer") :
    s.playbill.IsPlayer p := by
  obtain ⟨owner, hcast⟩ := hs
  obtain ⟨n, hn, htype⟩ := type_ok h
  have hp : s.playbill.nodes[p]? = some n.cueSheet := by
    simp [playbill, hn]
  exact ⟨hcast.written p _ hp htype, _, hp, htype⟩

theorem childPlayer?_finds (id : NodeId) (s0 : Session α) :
    Leads (fun s => s = s0) (childPlayer? id) fun found s =>
      s = s0 ∧ ∀ p ∈ found, s0.file.tree.type p = .ok "AnimationPlayer" := by
  refine .bind (Q := fun s s' => s' = s0 ∧ s = s0) (fun s hs t s' h => by cases h; exact ⟨hs, hs⟩)
    fun s => ?_
  refine .of_fact fun hs => ?_
  subst hs
  extract_lets tree
  -- The loop ends with the first child that is a player.
  refine .bind ((Leads.forIn (fun (r : Option (Option NodeId) × Unit) s' => s' = s ∧
    ∀ found ∈ r.1, ∀ p ∈ found, tree.type p = .ok "AnimationPlayer") (fun child _ => ?_) _ _).mono
      (fun _ hs => ⟨hs, by simp⟩) fun _ _ h => h) fun r => ?_
  · refine .bind .lift fun type => .of_fact fun htype => ?_
    split
    · next hplaye =>
      refine .pure fun t ht => ⟨ht.1, fun found hfnd p hp => ?_⟩
      cases hfnd
      cases hp
      rw [htype, eq_of_beq hplaye]
    · exact .pure fun t ht => ⟨ht.1, by simp [ForInStep.value]⟩
  · extract_lets r
    split
    · next found hfnd => exact .pure fun t ht => ⟨ht.1, ht.2 _ hfnd⟩
    · exact .pure fun t ht => ⟨ht.1, by simp⟩

theorem playerAbove?_finds {fuel : Nat} {id : Option NodeId} (s0 : Session α) :
    Leads (fun s => s = s0) (playerAbove? fuel id) fun found s =>
      s = s0 ∧ ∀ p ∈ found, s0.file.tree.type p = .ok "AnimationPlayer" := by
  induction fuel generalizing id with
  | zero =>
    exact .pure fun _ hs => ⟨hs, by simp⟩
  | succ fuel ih =>
    cases id with
    | none => exact .pure fun _ hs => ⟨hs, by simp⟩
    | some id =>
      refine .bind (childPlayer?_finds id s0) fun found => .of_fact fun hfnd => ?_
      split
      · exact .pure fun _ hs => ⟨hs, hfnd⟩
      · exact .bind (Q := fun _ s => s = s0) (fun s hs n s' h => (node_ok h).1.trans hs) fun n => ih

theorem makePlayer_playbill {above : Option NodeId} (h : makePlayer above s = .ok player s') :
    player = s.playbill.nodes.length ∧ s'.playbill = { s.playbill with
      nodes := s.playbill.nodes ++ [⟨some (.text "AnimationPlayer"), fun _ => none⟩] } := by
  let hang (id : NodeId) : ExportM α Unit := do
    let path ← NodePath.between (← nodePath id) (← nodePath (← existing above)) ""
    setNode id "root_node" (.path path)
  have hkp (id : NodeId) : Keeps false playbill (hang id) := by
    refine .bind nodePath_keeps fun path => .bind existing_keeps fun base => ?_
    refine .bind nodePath_keeps fun path' => .bind .lift fun between => ?_
    exact setNode_playbill _ (by decide) _
  have heq : (makePlayer above : ExportM α NodeId)
      = makeNode "AnimationPlayer" "AnimationPlayer" above (.player none) >>= fun id =>
        hang id >>= fun _ => pure id := by
    simp only [makePlayer, hang, bind_assoc]
  rw [heq] at h
  obtain ⟨id, s1, hnode, h1⟩ := bind_ok h
  obtain ⟨rfl, hmade⟩ := makeNode_playbill hnode
  obtain ⟨_, s2, hhang, h2⟩ := bind_ok h1
  cases h2
  exact ⟨rfl, ((hkp _).ok hhang).trans hmade⟩

theorem makePlayer_leads_cast (above : Option NodeId) : Gets (playbill (α := α)) IsCast
      (do let player ← makePlayer above; writeNode player; return player) fun player y =>
      y.IsPlayer player := by
  rintro s ⟨owner, hcast⟩ player s' h
  obtain ⟨_, s1, hmade, h1⟩ := bind_ok h
  obtain ⟨_, s2, hwr, h2⟩ := bind_ok h1
  cases h2
  obtain ⟨rfl, hpush⟩ := makePlayer_playbill hmade
  have hplay := writeNode_playbill hwr
  rw [hpush] at hplay
  rw [hplay]
  refine ⟨⟨owner, hcast.push fun _ => mem_singleton_self _⟩, ?_⟩
  exact ⟨mem_append_right _ (mem_singleton_self _), _, getElem?_concat_length, rfl⟩

theorem playerFor_leads_cast (cfg : Settings) (target : Option NodeId) :
    Gets (playbill (α := α)) IsCast (playerFor cfg target) fun player y =>
    y.IsPlayer player := by
  have hfnd {search : ExportM α (Option NodeId)}
    (h : ∀ s0, Leads (fun s => s = s0) search fun found s =>
      s = s0 ∧ ∀ p ∈ found, s0.file.tree.type p = .ok "AnimationPlayer") :
      Gets playbill IsCast search fun found y => ∀ p ∈ found, y.IsPlayer p := by
    intro s hs found s' hr
    obtain ⟨rfl, hfnd⟩ := h s s rfl found s' hr
    exact ⟨hs, fun p hp => isPlayer_of_type hs (hfnd p hp)⟩
  unfold playerFor
  extract_lets rest
  have hr : ∀ x, Brings playbill (fun y => IsCast y ∧ ∀ p ∈ x.2, y.IsPlayer p) (rest x)
      fun player y => IsCast y ∧ y.IsPlayer player := by
    rintro ⟨above, found⟩
    cases found with
    | some player => exact .pure fun _ h => ⟨h.1, h.2 player rfl⟩
    | none => exact (makePlayer_leads_cast above).pre (fun _ h => h.1)
  split
  · exact .bind (.pure fun s hs => ⟨hs, by simp⟩) hr
  · refine .keeping .get fun s => .keeping need_keeps fun root => ?_
    exact .bind (hfnd (childPlayer?_finds root)) fun found => .bind (.pure fun s hs => hs) hr
  · refine .keeping .get fun s => ?_
    exact .bind (hfnd playerAbove?_finds) fun found => .bind (.pure fun s hs => hs) hr

/-! ### Animations -/

theorem cueSheet_set (n : Node α) (name : String) (v : Value α) :
    Node.cueSheet { n with entry := n.entry.set ("anims/" ++ name) v } = n.cueSheet.set name v := by
  have hcue (key : String) : (n.entry.properties.set ("anims/" ++ name) v).get? ("anims/" ++ key)
      = (n.cueSheet.set name v).cue key := by
    by_cases hkey : key = name
    · subst hkey
      simp [CueSheet.set]
    · have hne : "anims/" ++ key ≠ "anims/" ++ name := by
        intro h
        have hlist := congrArg String.toList h
        rw [String.toList_append, String.toList_append, append_cancel_left_eq] at hlist
        exact hkey (String.toList_inj.1 hlist)
      rw [Record.get?_set_ne hne]
      exact (Function.update_of_ne hkey (some v) n.cueSheet.cue).symm
  show CueSheet.mk _ (fun key => (n.entry.properties.set ("anims/" ++ name) v).get?
    ("anims/" ++ key)) = _
  rw [funext hcue]
  rfl

theorem setCue_playbill {v : Value α} (h : setNode player ("anims/" ++ name) v s = .ok () s') :
    s'.playbill = { s.playbill with nodes := s.playbill.nodes.modify player (·.set name v) } := by
  cases h
  have hnds : ((s.file.tree.nodes.modify player fun n =>
      { n with entry := n.entry.set ("anims/" ++ name) v }).toList.map Node.cueSheet)
      = (s.file.tree.nodes.toList.map Node.cueSheet).modify player (·.set name v) :=
    map_toList_modify (fun n => cueSheet_set n name v) _ player
  exact congrArg (fun nodes => { s.playbill with nodes }) hnds

variable [Scalar α]

theorem createAnimation_playbill {id : Nat} (h : createAnimation player name s = .ok id s') :
    ∃ e : Entry α, e.type? = some "Animation" ∧ e.properties.get? "resource_name"
        = some (.quoted (Text.without (fun c => c == '.' || c == '/')
        (Text.without isBracket name))) ∧
      s'.playbill = s.playbill.create player (Text.without isBracket name) e := by
  obtain ⟨animation, s1, hanim, h1⟩ := bind_ok h
  obtain ⟨n, s2, hforce, h2⟩ := bind_ok h1
  obtain ⟨_, s3, hset, h3⟩ := bind_ok h2
  cases h3
  have hkp : Keeps false playbill
      (liftM (Animation.ofName (Text.without isBracket name) : Logged (Animation α)) : ExportM α _)
      :=
    liftLogged_keeps _
  let r : Resource α := .ofType "Animation" (Text.without isBracket name) (.animation animation)
  obtain ⟨rfl, rfl⟩ : id = s1.ledger.entries.length + 1 ∧ s2 = { s1 with file := { s1.file with
      internal := s1.file.internal.extended ⟨none, r.numbered⟩ } } := by
    cases hforce
    simp [length_entries, extended, r]
  refine ⟨(r.numbered (s1.ledger.entries.length + 1)).entry, r.type?_numbered _, rfl, ?_⟩
  rw [← hkp.ok hanim, setCue_playbill hset]
  exact congrArg (fun ledger => { s1.playbill.create player (Text.without isBracket name)
    (r.numbered (s1.ledger.entries.length + 1)).entry with ledger }) (ledger_extended s1 none r)

theorem createAnimation_leads_cast (player : NodeId) (name : String) :
    Lasts (playbill (α := α)) (fun y => IsCast y ∧ y.IsPlayer player)
    (createAnimation player name) := by
  rintro s ⟨⟨owner, hcast⟩, hplaye⟩ id s' h
  have hsound : s'.ledger.Sound :=
    (createAnimation_safe player name s hcast.sound.grown id s' h).sound
  obtain ⟨e, htype, hname, hplay⟩ := createAnimation_playbill h
  change s'.playbill.ledger.Sound at hsound
  rw [hplay] at hsound ⊢
  exact ⟨⟨_, hcast.create hplaye htype hname hsound⟩, hplaye.create⟩

/-! ### A whole export -/

omit [Scalar α] in
/-- A step that adds only resources with keys adds no animation. -/
theorem lasts_of_unkeyed {step : ExportM α β} (hkp : Keeps false Session.unkeyed step)
    (hgrows : ∀ base : Ledger α, Safe base step) : Lasts playbill IsCast step := by
  rintro s ⟨owner, hcast⟩ x s' h
  have hgrown : s.ledger.Grown s'.ledger := hgrows s.ledger s hcast.sound.grown x s' h
  obtain ⟨hunke, hrest⟩ := Prod.mk.inj (hkp.ok h)
  obtain ⟨hnds, hwrtn⟩ := Prod.mk.inj hrest
  exact ⟨owner, hcast.grown hgrown (hgrown.isA_animation hunke) hnds hwrtn⟩

theorem forceInternal_lasts {r : Resource α} (hr : r.PlainOf ["PhysicsMaterial"]) :
    Lasts playbill IsCast (forceInternal r) := by
  rintro s ⟨owner, hcast⟩ n s' h
  have hgrown : s.ledger.Grown s'.ledger := (lasting_grown s.ledger).substance r hr s
    hcast.sound.grown n s' h
  obtain rfl : s' = { s with file := { s.file with
      internal := s.file.internal.extended ⟨none, r.numbered⟩ } } := by
    cases h
    simp [extended]
  have htype : (r.numbered (s.ledger.entries.length + 1)).entry.type? ≠ some "Animation" := by
    obtain ⟨-, t, ht, htype⟩ := hr
    rw [r.type?_numbered, htype, mem_singleton.1 ht]
    decide
  refine ⟨owner, hcast.grown hgrown (fun m => ?_) rfl rfl⟩
  show (Session.ledger _).IsA m _ ↔ _
  rw [ledger_extended]
  exact Ledger.isA_add_other htype none m

/-- Every animation belongs to a player throughout an export. -/
theorem lasting_cast : Lasting (playbill : Session α → _) IsCast where
  set id _ hname v := setNode_playbill id hname v
  role id _ := updateNode_playbill id fun _ => rfl
  make name type htype parent role := by
    rintro s ⟨owner, hcast⟩ id s' h
    obtain ⟨-, hplay⟩ := makeNode_playbill h
    rw [hplay]
    have hmore : type = "AnimationPlayer" → s.playbill.nodes.length ∈ ([] : List NodeId) :=
      fun h => absurd h htype
    exact ⟨owner, by simpa using hcast.push hmore⟩
  write id := by
    rintro s ⟨owner, hcast⟩ _ s' h
    rw [writeNode_playbill h]
    exact ⟨owner, hcast.write id⟩
  animate cfg a node := exportAnimation_plays (P := IsCast)
    (R := fun player b => IsCast b ∧ b.IsPlayer player) cfg a node
    (playerFor_leads_cast cfg node) createAnimation_leads_cast fun _ _ h => h.1
  substance r hr := forceInternal_lasts hr
  simpleShape id o b name := lasts_of_unkeyed (exportSimpleShape_keeps id o b name) fun base =>
    (lasting_grown base).simpleShape id o b name
  meshShape cfg id b convex := lasts_of_unkeyed (exportMeshShape_keeps cfg id b convex)
    fun base =>
    (lasting_grown base).meshShape cfg id b convex
  mesh cfg id bones := lasts_of_unkeyed (exportMesh_keeps cfg id bones) fun base =>
    (lasting_grown base).mesh cfg id bones
  material cfg object id := lasts_of_unkeyed (exportMaterial_keeps cfg object id)
    fun base =>
    (lasting_grown base).material cfg object id
  spline id curve := lasts_of_unkeyed (exportSpline_keeps id curve) fun base =>
    (lasting_grown base).spline id curve
  system cfg target bones id index s := lasts_of_unkeyed
    ((exportMesh_keeps cfg target bones).bind fun mesh => exportSystem_keeps id index s mesh)
    fun base =>
      (lasting_grown base).system cfg target bones id index s

theorem fixPaths_playbill {target : String} : Keeps false playbill
    (fixPaths target : ExportM α Unit) := by
  let view (s : Session α) := (s.playbill.nodes, s.playbill.written)
  have : Resourceless view := {}
  have hnds : Keeps false view (fixPaths target) := fixPaths_keeps target
  exact ((fixPaths_ledger target).pair hnds).mono (fun x => ⟨x.1, x.2.1, x.2.2⟩) fun _ => rfl

theorem saveScene_cast {cfg : Settings} (hfile : s.file = {})
    (h : saveScene cfg s = .ok () s') : IsCast s'.playbill := by
  have hemp : s.playbill = ⟨({} : SceneFile α).ledger, [], []⟩ := by
    simp [playbill, Session.ledger, hfile]
  have hst : IsCast s.playbill := by
    rw [hemp]
    refine ⟨fun _ => (0, ""), Ledger.sound_empty, ?_, ?_, ?_, ?_⟩
    · simp
    · rintro n ⟨-, e, he, -⟩
      simp [SceneFile.ledger] at he
    · intro n e hpos he
      simp [SceneFile.ledger] at he
    · simp
  have hlasts : Lasts playbill IsCast (saveScene cfg : ExportM α Unit) := by
    refine .keeping (withFeatures_keeps _) fun cfg => ?_
    refine .bind (lasting_cast.exportScene (fun _ _ => rfl) _) fun _ => ?_
    refine .keeping fixPaths_playbill fun _ => .keeping (writeFile_keeps _ _) fun _ => ?_
    exact .keeping fileText_keeps fun text => (writeFile_keeps _ _).leads IsCast
  exact hlasts s hst () s' h

omit [Scalar α] in
theorem isPlayer_playbill : s.playbill.IsPlayer p ↔ s.file.IsPlayer p := by
  simp [Playbill.IsPlayer, SceneFile.IsPlayer, playbill, Node.cueSheet]

omit [Scalar α] in
/-- A player plays the last animation that belongs to it under a name. -/
theorem plays_iff (h : Cast owner s.playbill) : s.file.Plays p name n ↔ s.ledger.IsLast owner n
    (p, name) := by
  have hnode {node : Node α} (hnode : s.file.tree.nodes[p]? = some node) :
      s.playbill.nodes[p]? = some node.cueSheet := by simp [playbill, hnode]
  constructor
  · rintro ⟨node, hp, hcue⟩
    obtain ⟨m, hm, hlast⟩ := (h.cues p _ (hnode hp) name _).1 hcue
    cases hm
    exact hlast
  · intro hlast
    obtain ⟨c, hc⟩ : ∃ c, s.playbill.nodes[p]? = some c :=
      ⟨_, getElem?_eq_getElem (h.lt_length hlast)⟩
    obtain ⟨node, hp, -⟩ : ∃ node, s.file.tree.nodes[p]? = some node ∧ node.cueSheet = c := by
      simpa [playbill] using hc
    exact ⟨node, hp, (h.cues p _ (hnode hp) name _).2 ⟨n, rfl, hlast⟩⟩

/-- **An animation is lost if another takes its name.**  In the file of a scene every animation
belongs to a player that is written, under the name that the animation has itself but for some
characters.  A node refers to a sub-resource as the animation of some name if and only if that is
the last animation which belongs to the node under the name.  So every animation is referred to by
exactly one property of exactly one player if and only if no two animations belong to one player
under one name. -/
theorem saveScene_animations {cfg : Settings} {s s' : Session α} (hfile : s.file = {})
    (h : saveScene cfg s = .ok () s') :
    ∃ owner : Nat → NodeId × String, (∀ n, s'.file.IsAnimation n → s'.file.IsPlayer (owner n).1) ∧
      (∀ n r, s'.file.internal.get? n = some r → r.entry.type? = some "Animation" →
        r.entry.properties.get? "resource_name"
          = some (.quoted (Text.without (fun c => c == '.' || c == '/') (owner n).2))) ∧
      (∀ p name n, s'.file.Plays p name n ↔ s'.file.IsAnimation n ∧ owner n = (p, name) ∧
        ∀ m, n < m → s'.file.IsAnimation m → owner m ≠ (p, name)) ∧
      ((∀ n, s'.file.IsAnimation n → ∃! x : NodeId × String, s'.file.IsPlayer x.1 ∧
      s'.file.Plays x.1 x.2 n) ↔ ∀ m n, s'.file.IsAnimation m → s'.file.IsAnimation n →
      owner m = owner n → m = n) := by
  obtain ⟨owner, hcast⟩ := saveScene_cast hfile h
  have howned (n : Nat) (hn : s'.file.IsAnimation n) : s'.file.IsPlayer (owner n).1 :=
    isPlayer_playbill.1 (hcast.owned n (SceneFile.isA_ledger.2 hn))
  have hplays (p : NodeId) (name : String) (n : Nat) : s'.file.Plays p name n ↔
      s'.file.IsAnimation n ∧ owner n = (p, name) ∧ ∀ m, n < m → s'.file.IsAnimation m →
      owner m ≠ (p, name) := by
    rw [plays_iff hcast]
    simp [Ledger.IsLast, Session.ledger, SceneFile.isA_ledger]
  refine ⟨owner, howned, fun n r hr htype => ?_, hplays, fun honce m n hm hn heq => ?_,
    fun hinj n hn => ?_⟩
  · rw [get?] at hr
    split at hr
    · cases hr
    · have hentry : s'.playbill.ledger.entries[n - 1]? = some r.entry := by
        simp [playbill, Session.ledger, SceneFile.ledger, hr]
      exact hcast.named n r.entry (by omega) hentry htype
  · have hlost {m n : Nat} (hm : s'.file.IsAnimation m) (hn : s'.file.IsAnimation n)
        (heq : owner m = owner n) : ¬ m < n := by
      intro hlt
      obtain ⟨x, ⟨-, hx⟩, -⟩ := honce m hm
      obtain ⟨-, hm, hlast⟩ := (hplays _ _ m).1 hx
      exact hlast n hlt hn (heq ▸ hm)
    exact Nat.le_antisymm (Nat.le_of_not_lt (hlost hn hm heq.symm))
      (Nat.le_of_not_lt (hlost hm hn heq))
  · refine ⟨owner n, ⟨howned n hn, (hplays _ _ n).2 ⟨hn, rfl, fun m hlt hm heq => ?_⟩⟩, fun y hy =>
      ?_⟩
    · have := hinj m n hm hn heq
      omega
    · exact ((hplays _ _ n).1 hy.2).2.1.symm

end ExportM

/-! ### A cart that walks twice -/

def Value.reference? : Value α → Option Reference
  | .reference r => some r
  | _ => none

/-- A cart has an action and, in a layer that is muted, a strip of the same name. -/
def walkers : Session ℚ where
  scene.actions := #[{ name := "Walk", start := 1, stop := 3, curves := [] }]
  scene.objects := #[{ Object.bare "Cart" .empty none with
    animation := some { action := some 0, tracks := [⟨"Track", true, [⟨"Walk", some 0, 1, 3⟩]⟩] } }]

namespace ExportM

/-- No property of a node refers to a sub-resource. -/
def refersNowhere (f : SceneFile ℚ) (n : Nat) : Bool :=
  f.tree.nodes.all fun node => node.entry.properties.all fun p => p.2.reference? != some
    (.internal (some n))

theorem not_plays_of_refersNowhere {f : SceneFile ℚ} (h : refersNowhere f n = true) (p : NodeId)
    (name : String) : ¬ f.Plays p name n := by
  rintro ⟨node, hnode, hcue⟩
  obtain ⟨key, -, hmem⟩ := lookup_mem hcue
  have hall := Array.all_eq_true_iff_forall_mem.1 h node (Array.mem_of_getElem? hnode)
  have hne := all_eq_true.1 hall _ hmem
  simp [Value.reference?] at hne

/-- Two animations are made for the player of the cart under one name.  Nothing refers to the first,
and the player refers to the second. -/
theorem saveScene_animations_walkers : ∃ s', saveScene { path := "/cart.escn" } walkers =
    .ok () s' ∧ s'.file.IsAnimation 1 ∧ s'.file.IsAnimation 2 ∧
    (∀ p name, ¬ s'.file.Plays p name 1) ∧ ∃ owner : Nat → NodeId × String, s'.file.IsPlayer
    (owner 1).1 ∧ owner 1 = owner 2 ∧ s'.file.Plays (owner 2).1 (owner 2).2 2 := by
  obtain ⟨_, s', h, htest⟩ := exists_yield (saveScene { path := "/cart.escn" }) walkers
    (fun _ s' => s'.file.internal.items.toList.map (·.entry.type?) ==
    [some "Animation", some "Animation"] && refersNowhere s'.file 1)
  rw [Bool.and_eq_true, beq_iff_eq] at htest
  obtain ⟨htypes, hnowh⟩ := htest
  have hanim (n : Nat) : s'.file.IsAnimation n ↔ n = 1 ∨ n = 2 := by
    have hitem (i : Nat) : s'.file.IsAnimation (i + 1) ↔
        [some "Animation", some "Animation"][i]? = some (some "Animation") := by
      rw [← htypes]
      simp [SceneFile.IsAnimation, get?]
    rcases n with _ | _ | _ | n
    · simp [SceneFile.IsAnimation, get?]
    · simp [hitem]
    · simp [hitem]
    · simp [hitem]
  have hlost := not_plays_of_refersNowhere hnowh
  obtain ⟨owner, howned, -, hplays, -⟩ := saveScene_animations rfl h
  have hsame : owner 1 = owner 2 := by
    by_contra hne
    refine hlost (owner 1).1 (owner 1).2
      ((hplays _ _ 1).2 ⟨(hanim 1).2 (.inl rfl), rfl, fun m hm hA => ?_⟩)
    obtain rfl : m = 2 := by
      rcases (hanim m).1 hA with rfl | rfl <;> omega
    exact Ne.symm hne
  refine ⟨s', h, (hanim 1).2 (.inl rfl), (hanim 2).2 (.inr rfl), hlost, owner,
    howned 1 ((hanim 1).2 (.inl rfl)), hsame, ?_⟩
  refine (hplays _ _ 2).2 ⟨(hanim 2).2 (.inr rfl), rfl, fun m hm hA => ?_⟩
  rcases (hanim m).1 hA with rfl | rfl <;> omega

end ExportM

end SceneExport
