import Mathlib.Data.List.Induction
import Mathlib.Data.List.Nodup
import SceneExport.Export.Session
import SceneExport.Proofs.Step

/-!
# Resource tables

A table numbers its resources from one in the order in which they are added.  An addition with a key
is refused if the key is taken, and then changes nothing; an addition without a key is never refused
(`Addition`, `ResourceTable.give?`).

`ResourceTable.Records` says what a table knows of the additions that were tried on it: which of
them got which number, and what its keys find.  It holds of every table that was filled from nothing
(`records_filled`), in whatever order additions came and whichever of them were refused.  The two
tables of a scene file are filled side by side (`TableCall.run`), and neither disturbs the other.
-/

namespace SceneExport

open List

/-- A resource to be added to a table, maybe under a key.  It is made for its number. -/
structure Addition (κ ρ : Type) where
  key : Option κ
  item : Nat → ρ

variable {n : Nat}

namespace ResourceTable

variable {κ ρ : Type} [BEq κ]

/-! ### One addition -/

/-- The number that an addition gets and the table with it, unless it is refused. -/
def give? (t : ResourceTable κ ρ) (a : Addition κ ρ) : Option (Nat × ResourceTable κ ρ) :=
  match a.key with
  | some key => (t.add key a.item).toOption
  | none => some (t.force a.item)

theorem add_eq (t : ResourceTable κ ρ) (key : κ) (item : Nat → ρ) :
    t.add key item = match t.give? ⟨some key, item⟩ with
      | some given => .ok given
      | none => .error .duplicateResource := by
  simp only [give?, add]
  cases t.find? key <;> rfl

variable {t t' : ResourceTable κ ρ} {key : κ} {a : Addition κ ρ}

theorem add_of_taken (h : t.find? key ≠ none) (item : Nat → ρ) : t.add key item =
    .error .duplicateResource := by
  cases hf : t.find? key with
  | none => exact absurd hf h
  | some n => rw [add, hf]

def after (t : ResourceTable κ ρ) (a : Addition κ ρ) : ResourceTable κ ρ :=
  ((t.give? a).map Prod.snd).getD t

/-- The key of an addition is taken. -/
def Refuses (t : ResourceTable κ ρ) (a : Addition κ ρ) : Prop :=
  ∃ key, a.key = some key ∧ t.find? key ≠ none

def extended (t : ResourceTable κ ρ) (a : Addition κ ρ) : ResourceTable κ ρ where
  items := t.items.push (a.item (t.items.size + 1))
  numbers := t.numbers ++ (a.key.map fun key => (key, t.items.size + 1)).toList

/-- What an addition can do: it is refused, or it gets the next number. -/
theorem give?_cases (t : ResourceTable κ ρ) (a : Addition κ ρ) : (t.Refuses a ∧ t.give? a = none) ∨
      (¬ t.Refuses a ∧ t.give? a = some (t.items.size + 1, t.extended a)) := by
  obtain ⟨key, item⟩ := a
  cases key with
  | none =>
    refine .inr ⟨by simp [Refuses], ?_⟩
    simp [give?, force, extended]
  | some key =>
    cases hf : t.find? key with
    | some n => exact .inl ⟨⟨key, rfl, by simp [hf]⟩, by simp [give?, add, hf, Except.toOption]⟩
    | none =>
      refine .inr ⟨by simp [Refuses, hf], ?_⟩
      simp [give?, add, hf, force, extended, Except.toOption]

theorem add_of_free (h : t.find? key = none) (item : Nat → ρ) :
    t.add key item = .ok (t.items.size + 1, t.extended ⟨some key, item⟩) := by
  simp [add, h, force, extended]

theorem give?_some (h : t.give? a = some (n, t')) : ¬ t.Refuses a ∧ n = t.items.size + 1 ∧
    t' = t.extended a := by
  rcases t.give?_cases a with ⟨-, he⟩ | ⟨hr, he⟩
  · cases h.symm.trans he
  · cases h.symm.trans he
    exact ⟨hr, rfl, rfl⟩

theorem after_of_give? (h : t.give? a = some (n, t')) : t.after a = t' := by
  rw [after, h]
  rfl

theorem after_of_refused (h : t.give? a = none) : t.after a = t := by
  rw [after, h]
  rfl

theorem find?_after (h : t.find? key = some n) (a : Addition κ ρ) : (t.after a).find? key =
    some n := by
  rcases t.give?_cases a with ⟨-, he⟩ | ⟨-, he⟩
  · rw [after_of_refused he, h]
  · rw [find?] at h
    rw [after_of_give? he, find?, extended, lookup_append, h, Option.some_or]

/-- A key that is equal to itself finds what was added under it. -/
theorem find?_given (h : t.give? a = some (n, t')) (hk : a.key = some key)
    (hkey : (key == key) = true) : t'.find? key = some n := by
  obtain ⟨hr, rfl, rfl⟩ := give?_some h
  have hfree : t.numbers.lookup key = none := by
    by_contra hf
    exact hr ⟨key, hk, hf⟩
  rw [find?, extended, lookup_append, hfree, hk]
  simp [lookup_cons, hkey]

theorem find?_extended (t : ResourceTable κ ρ) (key given : κ) (item : Nat → ρ) :
    (t.extended ⟨some given, item⟩).find? key =
      (t.find? key).or (if key == given then some (t.items.size + 1) else none) := by
  rw [find?, extended, lookup_append]
  cases h : key == given <;> simp [lookup_cons, h, find?]

omit [BEq κ] in
/-- A resource keeps its number. -/
theorem get?_extended {r : ρ} (h : t.get? n = some r) {a : Addition κ ρ} : (t.extended a).get? n =
    some r := by
  simp only [get?, extended] at h ⊢
  split at h
  · cases h
  · next hn =>
    have hlt : n - 1 < t.items.size := (Array.getElem?_eq_some_iff.1 h).1
    rw [if_neg hn, Array.getElem?_push_lt hlt, ← Array.getElem?_eq_getElem hlt, h]

/-! ### Many additions -/

/-- The table after some additions were tried on an empty one. -/
def filled (as : List (Addition κ ρ)) : ResourceTable κ ρ :=
  as.foldl after {}

/-- One of the additions is tried when others were, and gets a number. -/
def Gets (as : List (Addition κ ρ)) (a : Addition κ ρ) (n : Nat) : Prop :=
  ∃ before rest t, as = before ++ a :: rest ∧ (filled before).give? a = some (n, t)

theorem gets_concat {as : List (Addition κ ρ)} {last : Addition κ ρ} : Gets (as ++ [last]) a n ↔
      Gets as a n ∨ a = last ∧ ∃ t, (filled as).give? last = some (n, t) := by
  constructor
  · rintro ⟨before, rest, t, he, hg⟩
    -- Either the addition is the last one, or the last one ends what comes after it.
    rcases eq_nil_or_concat rest with rfl | ⟨rest, x, rfl⟩
    · obtain ⟨rfl, hlast⟩ := append_inj' he rfl
      cases hlast
      exact .inr ⟨rfl, t, hg⟩
    · rw [concat_eq_append, ← cons_append, ← append_assoc] at he
      obtain ⟨rfl, -⟩ := append_inj' he rfl
      exact .inl ⟨before, rest, t, rfl, hg⟩
  · rintro (⟨before, rest, t, rfl, hg⟩ | ⟨rfl, t, hg⟩)
    · exact ⟨before, rest ++ [last], t, by simp, hg⟩
    · exact ⟨as, [], t, rfl, hg⟩

/-- A key finds the first addition under an equal key that was accepted. -/
def FirstUnder (as : List (Addition κ ρ)) (key : κ) (n : Nat) : Prop :=
  ∃ before a rest given t, as = before ++ a :: rest ∧ a.key = some given ∧ (key == given) = true ∧
    (filled before).give? a = some (n, t) ∧ (filled before).find? key = none

/-- What a table knows of the additions that were tried on it.  A resource shows its number in its
`heading`. -/
structure Records {α : Type} (heading : ρ → Heading α) (as : List (Addition κ ρ))
    (t : ResourceTable κ ρ) : Prop where
  /-- The resources are those that were accepted, in their order. -/
  items : ∀ (i : Nat) x, t.items[i]? = some x ↔ ∃ a, Gets as a (i + 1) ∧ x = a.item (i + 1)
  headings : ∀ (i : Nat) x, t.items[i]? = some x → (heading x).get? "id" = some (.int (i + 1 : Nat))
  /-- The numbers under keys are those that the additions with these keys got. -/
  numbers : ∀ key n, (key, n) ∈ t.numbers ↔ ∃ a, Gets as a n ∧ a.key = some key
  distinct : (t.numbers.map Prod.snd).Nodup
  inRange : ∀ key n, (key, n) ∈ t.numbers → 1 ≤ n ∧ n ≤ t.items.size
  /-- A key finds the first resource under it, and nothing else. -/
  found : ∀ key n, t.find? key = some n → FirstUnder as key n
  /-- A key that is equal to itself finds the resource that was added under it. -/
  finds : ∀ a n key, Gets as a n → a.key = some key → (key == key) = true → t.find? key = some n

section Records

variable {α : Type} {heading : ρ → Heading α} {as : List (Addition κ ρ)}

theorem records_nil : Records heading ([] : List (Addition κ ρ)) {} where
  items i x := by simp [Gets]
  headings i x h := by simp at h
  numbers key n := by simp [Gets]
  distinct := by simp
  inRange key n h := by simp at h
  found key n h := by simp [find?] at h
  finds a n key h := by simp [Gets] at h

/-- A refused addition is remembered by nothing. -/
theorem Records.refused (h : Records heading as (filled as)) (hg : (filled as).give? a = none) :
    Records heading (as ++ [a]) (filled as) where
  items i x := by simp [h.items, gets_concat, hg]
  headings := h.headings
  numbers key n := by simp [h.numbers, gets_concat, hg]
  distinct := h.distinct
  inRange := h.inRange
  found key n hf := by
    obtain ⟨before, b, rest, given, t, rfl, hrest⟩ := h.found key n hf
    exact ⟨before, b, rest ++ [a], given, t, by simp, hrest⟩
  finds b n key hgets := by
    rw [gets_concat, hg] at hgets
    exact h.finds b n key (by simpa using hgets)

theorem Records.given (h : Records heading as (filled as)) (hg : (filled as).give? a = some (n, t'))
    (ha : (heading (a.item n)).get? "id" = some (.int n)) : Records heading (as ++ [a]) t' := by
  obtain ⟨-, rfl, rfl⟩ := give?_some hg
  have hgets {b : Addition κ ρ} {n : Nat} : Gets (as ++ [a]) b n ↔
      Gets as b n ∨ b = a ∧ n = (filled as).items.size + 1 := by
    rw [gets_concat, hg]
    simp [eq_comm]
  have hitem (i : Nat) (x : ρ) : ((filled as).extended a).items[i]? = some x ↔
    (filled as).items[i]? = some x ∨
        i = (filled as).items.size ∧ x = a.item ((filled as).items.size + 1) := by
    rw [extended, Array.getElem?_push]
    split
    · next hi => simp [hi, eq_comm]
    · next hi => simp [hi]
  have hnum (key : κ) (n : Nat) : (key, n) ∈ ((filled as).extended a).numbers ↔
      (key, n) ∈ (filled as).numbers ∨ a.key = some key ∧ n = (filled as).items.size + 1 := by
    cases hk : a.key <;> simp [extended, hk, eq_comm]
  refine ⟨fun i x => ?_, fun i x hx => ?_, fun key n => ?_, ?_, fun key n hn => ?_,
    fun key n hf => ?_, fun b n key hb hk hkey => ?_⟩
  · rw [hitem, h.items]
    simp only [hgets, or_and_right, exists_or, Nat.add_right_cancel_iff]
    constructor
    · rintro (hx | ⟨rfl, rfl⟩)
      · exact .inl hx
      · exact .inr ⟨a, ⟨rfl, rfl⟩, rfl⟩
    · rintro (hx | ⟨b, ⟨rfl, rfl⟩, rfl⟩)
      · exact .inl hx
      · exact .inr ⟨rfl, rfl⟩
  · rcases (hitem i x).1 hx with hx | ⟨rfl, rfl⟩
    · exact h.headings i x hx
    · exact ha
  · rw [hnum, h.numbers]
    simp only [hgets, or_and_right, exists_or]
    constructor
    · rintro (hn | ⟨hk, rfl⟩)
      · exact .inl hn
      · exact .inr ⟨a, ⟨rfl, rfl⟩, hk⟩
    · rintro (hn | ⟨b, ⟨rfl, rfl⟩, hk⟩)
      · exact .inl hn
      · exact .inr ⟨hk, rfl⟩
  · -- The numbers so far are at most the number of resources, and the new one is greater.
    have hnew : (filled as).items.size + 1 ∉ (filled as).numbers.map Prod.snd := by
      intro hmem
      obtain ⟨⟨key, n⟩, hn, rfl⟩ := mem_map.1 hmem
      exact absurd (h.inRange key _ hn).2 (Nat.not_succ_le_self _)
    cases hk : a.key with
    | none => simpa [extended, hk] using h.distinct
    | some key =>
      simp only [extended, hk, Option.map_some, Option.toList_some, map_append, map_singleton]
      rw [nodup_append]
      exact ⟨h.distinct, nodup_singleton _, by simpa using fun m hm => ne_of_mem_of_not_mem hm hnew⟩
  · have hsize : ((filled as).extended a).items.size = (filled as).items.size + 1 := by
      simp [extended]
    rcases (hnum key n).1 hn with hn | ⟨-, rfl⟩
    · have hrange := h.inRange key n hn
      omega
    · omega
  · rw [find?, extended, lookup_append, Option.or_eq_some_iff] at hf
    rcases hf with hf | ⟨hnone, hf⟩
    · obtain ⟨before, b, rest, given, t, rfl, hrest⟩ := h.found key n hf
      exact ⟨before, b, rest ++ [a], given, t, by simp, hrest⟩
    · cases hk : a.key with
      | none => simp [hk] at hf
      | some given =>
        rw [hk, Option.map_some, Option.toList_some, lookup_cons] at hf
        split at hf
        · next hkey =>
          cases hf
          exact ⟨as, a, [], given, _, rfl, hk, hkey, hg, hnone⟩
        · cases hf
  · rcases hgets.1 hb with hb | ⟨rfl, rfl⟩
    · rw [← after_of_give? hg]
      exact find?_after (h.finds b n key hb hk hkey) a
    · exact find?_given hg hk hkey

/-- **A table that was filled from nothing records what was tried on it.** -/
theorem records_filled (as : List (Addition κ ρ))
    (has : ∀ a ∈ as, ∀ n : Nat, (heading (a.item n)).get? "id" = some (.int n)) : Records heading as
    (filled as) := by
  induction as using List.reverseRecOn with
  | nil => exact records_nil
  | append_singleton as a ih =>
    have hreco := ih fun b hb => has b (mem_append_left _ hb)
    rw [filled, foldl_append, ← filled, foldl_cons, foldl_nil]
    cases hg : (filled as).give? a with
    | none =>
      rw [after_of_refused hg]
      exact hreco.refused hg
    | some given =>
      obtain ⟨n, t⟩ := given
      rw [after_of_give? hg]
      exact hreco.given hg (has a (by simp) n)

theorem find?_foldl_after (h : t.find? key = some n) {more : List (Addition κ ρ)} :
    (more.foldl after t).find? key = some n := by
  induction more generalizing t with
  | nil => exact h
  | cons a more ih => exact ih (find?_after h a)

end Records

end ResourceTable

open ResourceTable

/-! ### The tables of a scene file -/

variable {α : Type} [Scalar α]

/-- An entry for a file elsewhere, with its number. -/
def numberedExternal (path type : String) (id : Nat) : Entry α :=
  (externalEntry (.text path) (.text type)).setHeading "id" (.int id)

/-- A call that adds a resource to a scene file. -/
inductive TableCall (α : Type) where
  | external (key : ExternalKey α) (path type : String)
  | internal (key : InternalKey α) (r : Resource α)
  /-- Without a key. -/
  | forced (r : Resource α)

namespace TableCall

/-- Make a call, which gives the number of the resource. -/
def step : TableCall α → ExportM α Nat
  | .external key path type => ExportM.addExternal key path type
  | .internal key r => ExportM.addInternal key r
  | .forced r => ExportM.forceInternal r

def after (s : Session α) (c : TableCall α) : Session α :=
  match c.step s with
  | .ok _ s' => s'
  | .error _ s' => s'

def run (calls : List (TableCall α)) (s : Session α) : Session α :=
  calls.foldl after s

/-- What a call adds to the external resources. -/
def external? : TableCall α → Option (Addition (ExternalKey α) (Entry α))
  | .external key path type =>
    some ⟨some key, numberedExternal path type⟩
  | _ => none

/-- What a call adds to the sub-resources. -/
def internal? : TableCall α → Option (Addition (InternalKey α) (Resource α))
  | .external _ _ _ => none
  | .internal key r => some ⟨some key, r.numbered⟩
  | .forced r => some ⟨none, r.numbered⟩

end TableCall

namespace ExportM

theorem addExternal_apply (key : ExternalKey α) (path type : String) (s : Session α) :
    addExternal key path type s = match s.file.external.add key (numberedExternal path type) with
      | .ok (n, external) => .ok n { s with file := { s.file with external } }
      | .error e => .error e s := by
  unfold addExternal SceneFile.addExternal
  change ((liftM _ : ExportM α _) >>= _) s = _
  dsimp only
  change ((liftM ((s.file.external.add key (numberedExternal path type)) >>= _) : ExportM α _) >>=
    _) s = _
  cases s.file.external.add key (numberedExternal path type) with
  | ok x => rfl
  | error e => rfl

theorem addInternal_apply (key : InternalKey α) (r : Resource α) (s : Session α) :
    addInternal key r s = match s.file.internal.add key r.numbered with
      | .ok (n, internal) => .ok n { s with file := { s.file with internal } }
      | .error e => .error e s := by
  unfold addInternal SceneFile.addInternal
  change ((liftM _ : ExportM α _) >>= _) s = _
  cases s.file.internal.add key r.numbered with
  | ok x => rfl
  | error e => rfl

variable {s s' : Session α}

theorem addExternal_ok {key : ExternalKey α} {path type : String}
    (h : addExternal key path type s = .ok n s') :
    ∃ external, s.file.external.give? ⟨some key, numberedExternal path type⟩ = some (n, external) ∧
      s' = { s with file := { s.file with external } } := by
  rw [addExternal_apply, add_eq] at h
  cases hg : s.file.external.give? ⟨some key, numberedExternal path type⟩ with
  | none => simp [hg] at h
  | some given =>
    rw [hg] at h
    cases h
    exact ⟨given.2, rfl, rfl⟩

/-- A sub-resource that is added is given a number by the table, and nothing else changes. -/
theorem addInternal_ok {key : InternalKey α} {r : Resource α} (h : addInternal key r s = .ok n s') :
    ∃ internal, s.file.internal.give? ⟨some key, r.numbered⟩ = some (n, internal) ∧
      s' = { s with file := { s.file with internal } } := by
  rw [addInternal_apply, add_eq] at h
  cases hg : s.file.internal.give? ⟨some key, r.numbered⟩ with
  | none => simp [hg] at h
  | some given =>
    rw [hg] at h
    cases h
    exact ⟨given.2, rfl, rfl⟩

end ExportM

namespace TableCall

/-- What a call does to a session: one of the tables is given the addition, and a refused addition
fails. -/
theorem step_cases (c : TableCall α) (s : Session α) :
    (∃ a, c.external? = some a ∧ c.internal? = none ∧ c.step s = match s.file.external.give? a with
      | some (n, t) => .ok n { s with file := { s.file with external := t } }
      | none => .error .duplicateResource s) ∨
    (∃ a, c.external? = none ∧ c.internal? = some a ∧ c.step s = match s.file.internal.give? a with
      | some (n, t) => .ok n { s with file := { s.file with internal := t } }
      | none => .error .duplicateResource s) := by
  cases c with
  | external key path type =>
    refine .inl ⟨_, rfl, rfl, (ExportM.addExternal_apply key path type s).trans ?_⟩
    rw [add_eq]
    cases s.file.external.give? ⟨some key, numberedExternal path type⟩ <;> rfl
  | internal key r =>
    refine .inr ⟨_, rfl, rfl, (ExportM.addInternal_apply key r s).trans ?_⟩
    rw [add_eq]
    cases s.file.internal.give? ⟨some key, r.numbered⟩ <;> rfl
  | forced r => exact .inr ⟨_, rfl, rfl, rfl⟩

variable (calls : List (TableCall α)) (s : Session α)

theorem after_external (c : TableCall α) :
    (after s c).file.external = c.external?.toList.foldl ResourceTable.after s.file.external := by
  rcases c.step_cases s with ⟨a, he, -, hs⟩ | ⟨a, he, -, hs⟩
  · rw [after, hs, he]
    cases hg : s.file.external.give? a with
    | none => exact (after_of_refused hg).symm
    | some given => exact (after_of_give? hg).symm
  · rw [after, hs, he]
    cases s.file.internal.give? a <;> rfl

theorem after_internal (c : TableCall α) :
    (after s c).file.internal = c.internal?.toList.foldl ResourceTable.after s.file.internal := by
  rcases c.step_cases s with ⟨a, -, hi, hs⟩ | ⟨a, -, hi, hs⟩
  · rw [after, hs, hi]
    cases s.file.external.give? a <;> rfl
  · rw [after, hs, hi]
    cases hg : s.file.internal.give? a with
    | none => exact (after_of_refused hg).symm
    | some given => exact (after_of_give? hg).symm

theorem run_external : (run calls s).file.external
      = (calls.filterMap external?).foldl ResourceTable.after s.file.external := by
  induction calls generalizing s with
  | nil => rfl
  | cons c calls ih =>
    rw [run, foldl_cons, ← run, ih, after_external, filterMap_cons]
    cases c.external? <;> rfl

theorem run_internal : (run calls s).file.internal
      = (calls.filterMap internal?).foldl ResourceTable.after s.file.internal := by
  induction calls generalizing s with
  | nil => rfl
  | cons c calls ih =>
    rw [run, foldl_cons, ← run, ih, after_internal, filterMap_cons]
    cases c.internal? <;> rfl

theorem run_append (more : List (TableCall α)) (s : Session α) : run (calls ++ more) s =
    run more (run calls s) :=
  foldl_append

variable {c : TableCall α}

omit [Scalar α] in
theorem heading_external {a : Addition (ExternalKey α) (Entry α)} (h : c.external? = some a)
    (n : Nat) : (a.item n).heading.get? "id" = some (.int n) := by
  cases c with
  | external key path type =>
    cases h
    exact Record.get?_set_self _ _ _
  | _ => cases h

omit [Scalar α] in
theorem heading_internal {a : Addition (InternalKey α) (Resource α)} (h : c.internal? = some a)
    (n : Nat) : (a.item n).entry.heading.get? "id" = some (.int n) := by
  cases c with
  | external key path type => cases h
  | internal key r =>
    cases h
    exact Record.get?_set_self _ _ _
  | forced r =>
    cases h
    exact Record.get?_set_self _ _ _

/-- A session that begins a new file. -/
def begin (s : Session α) : Session α :=
  { s with file := {} }

/-- **The tables of a scene file never drift.**  Whatever calls were made on a new file, both tables
record them; what a key finds stays the same whatever calls follow; and a call with a key that is
taken fails and changes nothing. -/
theorem run_records (calls : List (TableCall α)) (s : Session α) :
    (run calls (begin s)).file.external.Records Entry.heading (calls.filterMap external?) ∧
    (run calls (begin s)).file.internal.Records (fun r => r.entry.heading)
    (calls.filterMap internal?) ∧ (∀ more key n, (run calls (begin s)).file.external.find? key =
    some n → (run (calls ++ more) (begin s)).file.external.find? key = some n) ∧
    (∀ more key n, (run calls (begin s)).file.internal.find? key = some n →
      (run (calls ++ more) (begin s)).file.internal.find? key = some n) ∧
    (∀ key path type, (run calls (begin s)).file.external.find? key ≠ none →
      (external key path type).step (run calls (begin s)) = .error .duplicateResource
      (run calls (begin s))) ∧
    (∀ key r, (run calls (begin s)).file.internal.find? key ≠ none →
      (internal key r).step (run calls (begin s)) = .error .duplicateResource (run calls (begin s)))
      := by
  refine ⟨?_, ?_, fun more key n h => ?_, fun more key n h => ?_, fun key path type h => ?_,
    fun key r h => ?_⟩
  · rw [run_external]
    refine records_filled _ fun a ha n => ?_
    obtain ⟨c, -, hc⟩ := mem_filterMap.1 ha
    exact heading_external hc n
  · rw [run_internal]
    refine records_filled _ fun a ha n => ?_
    obtain ⟨c, -, hc⟩ := mem_filterMap.1 ha
    exact heading_internal hc n
  · rw [run_append, run_external]
    exact find?_foldl_after h
  · rw [run_append, run_internal]
    exact find?_foldl_after h
  · rw [step, ExportM.addExternal_apply, add_of_taken h]
  · rw [step, ExportM.addInternal_apply, add_of_taken h]

end TableCall

end SceneExport
