import SceneExport.Material.Export
import SceneExport.Proofs.Step

/-!
# References between resources

A scene file is read from its start, so a sub-resource can only refer to sub-resources before
it.  What it refers to also has to be of the right type: a surface has a material, a shader material
has a shader, and a multiple mesh has a mesh (`referredTypes`).

Whether all references of a file are of this kind can be told from its *ledger*: the entries of the
sub-resources, the number of external resources, and what the keys of both find.  A ledger is
`Sound` if each entry refers to what is before it and each key finds a resource of the type that the
key is for.  Resources are added to a sound ledger one at a time, and it stays sound and keeps what
it has (`Ledger.Grown`) if each refers to what is there by then.

The tracks of animations and the code of shaders, which are not in the ledger, refer to nothing.  So
what a sound ledger says holds of the entries as they are written (`SceneFile.RefersBack`).
-/

namespace SceneExport

open List

variable {α β : Type}

/-! ### References in values -/

namespace Value

mutual

def references : Value α → List Reference
  | .reference r => [r]
  | .surface s => s.material.toList
  | .rgba components => allReferences components
  | .array _ items => allReferences items
  | .map entries => entryReferences entries
  | _ => []

def allReferences : List (Value α) → List Reference
  | [] => []
  | v :: vs => references v ++ allReferences vs

def entryReferences : List (String × Value α) → List Reference
  | [] => []
  | (_, v) :: entries => references v ++ entryReferences entries

end

/-- A value has no references. -/
def Plain (v : Value α) : Prop :=
  v.references = []

theorem allReferences_eq_nil {vs : List (Value α)} (h : ∀ v ∈ vs, v.Plain) : allReferences vs =
    [] := by
  induction vs with
  | nil => rfl
  | cons v vs ih =>
    rw [allReferences, h v mem_cons_self, ih fun w hw => h w (mem_cons_of_mem _ hw)]
    rfl

variable {entries : List (String × Value α)}

theorem entryReferences_eq_nil (h : ∀ e ∈ entries, e.2.Plain) : entryReferences entries = [] := by
  induction entries with
  | nil => rfl
  | cons e entries ih =>
    rw [entryReferences, h e mem_cons_self, ih fun x hx => h x (mem_cons_of_mem _ hx)]
    rfl

theorem plain_array (b : Brackets) {items : List (Value α)} (h : ∀ v ∈ items, v.Plain) :
    (array b items).Plain :=
  allReferences_eq_nil h

theorem plain_map (h : ∀ e ∈ entries, e.2.Plain) : (map entries).Plain := entryReferences_eq_nil h

theorem plain_ofChannel (c : Channel α) : (ofChannel c).Plain := by
  cases c <;> rfl

theorem plain_real (x : α) : (real x).Plain :=
  rfl

theorem plain_reals {xs : List α} : ∀ v ∈ xs.map Value.real, v.Plain := by
  intro v hv
  obtain ⟨x, -, rfl⟩ := mem_map.1 hv
  rfl

end Value

def Record.Plain (r : Record (Value α)) : Prop :=
  ∀ p ∈ r, p.2.Plain

/-! ### Types -/

/-- The types that a resource of a type may refer to by a property. -/
def referredTypes (type name : String) (v : Value α) : List String :=
  match type, v with
  | "ArrayMesh", .surface _ => materialTypes
  | "ShaderMaterial", _ => if name = "shader" then ["Shader"] else []
  | "MultiMesh", _ => if name = "mesh" then ["ArrayMesh"] else []
  | _, _ => []

def InternalKey.types : InternalKey α → List String
  | .mesh _ => ["ArrayMesh"]
  | .collision _ _ => ["ConvexPolygonShape", "ConcavePolygonShape"]
  | .body _ => ["BoxShape", "SphereShape", "CapsuleShape"]
  | .spline _ _ => ["Curve3D"]
  | .particles _ _ => ["MultiMesh"]
  | .material _ _ => materialTypes
  | .shader _ => ["Shader"]
  | .named _ => []

theorem InternalKey.types_of_same [Scalar α] {a b : InternalKey α} (h : (a == b) = true) : a.types =
    b.types := by
  cases a <;> cases b <;> first | rfl | cases h

def Entry.type? (e : Entry α) : Option String :=
  (e.heading.get? "type").bind Value.text?

/-! ### Ledgers -/

/-- The resources of a file and the keys that find them. -/
structure Ledger (α : Type) where
  /-- The entries of the sub-resources. -/
  entries : List (Entry α)
  numbers : List (InternalKey α × Nat)
  /-- How many external resources there are. -/
  files : Nat
  fileNumbers : List (ExternalKey α × Nat)

def SceneFile.ledger (f : SceneFile α) : Ledger α where
  entries := f.internal.items.toList.map Resource.entry
  numbers := f.internal.numbers
  files := f.external.items.size
  fileNumbers := f.external.numbers

def Session.ledger (s : Session α) : Ledger α :=
  s.file.ledger

variable {l : Ledger α} {types : List String} {t name : String} {key : Option (InternalKey α)}
  {p : String × β} {v : Value α} {more : Record (Value α)} {r : Record (Value α)}

namespace Ledger

/-- A number is that of a sub-resource of one of some types. -/
def IsA (l : Ledger α) (n : Nat) (types : List String) : Prop :=
  1 ≤ n ∧ ∃ e, l.entries[n - 1]? = some e ∧ ∃ t ∈ types, e.type? = some t

/-- What was found, if anything, is a sub-resource of one of some types. -/
def Finds (l : Ledger α) (found : Option Nat) (types : List String) : Prop :=
  ∀ n ∈ found, l.IsA n types

/-- A number is that of an external resource. -/
def IsFile (l : Ledger α) (n : Nat) : Prop :=
  1 ≤ n ∧ n ≤ l.files

/-- A reference to one of some types is to what is there.  Only a mesh may be missing. -/
def Allows (l : Ledger α) (types : List String) : Reference → Prop
  | .internal (some n) => l.IsA n types
  | .internal none => types = ["ArrayMesh"]
  | .external n => l.IsFile n
  | .named _ => False

/-- An entry refers only to what is there. -/
def Holds (l : Ledger α) (e : Entry α) : Prop :=
  ∃ t, e.type? = some t ∧
    ∀ p ∈ e.properties, ∀ r ∈ p.2.references, l.Allows (referredTypes t p.1 p.2) r

/-- The first sub-resources of a ledger. -/
def upTo (l : Ledger α) (i : Nat) : Ledger α :=
  { l with entries := l.entries.take i }

/-- Every entry refers to what is before it, and every key finds what it is for. -/
structure Sound (l : Ledger α) : Prop where
  entries : ∀ (i : Nat) e, l.entries[i]? = some e → (l.upTo i).Holds e
  ids : ∀ (i : Nat) e, l.entries[i]? = some e → e.heading.get? "id" = some (.int (i + 1 : Nat))
  numbers : ∀ key n, (key, n) ∈ l.numbers → l.IsA n key.types
  fileNumbers : ∀ key n, (key, n) ∈ l.fileNumbers → l.IsFile n

theorem sound_empty : ({} : SceneFile α).ledger.Sound where
  entries i e h := by simp [SceneFile.ledger] at h
  ids i e h := by simp [SceneFile.ledger] at h
  numbers key n h := by simp [SceneFile.ledger] at h
  fileNumbers key n h := by simp [SceneFile.ledger] at h

variable {n : Nat} {e : Entry α} {i : Nat}

theorem isA_of_upTo (h : (l.upTo i).IsA n types) : n ≤ i ∧ l.IsA n types := by
  obtain ⟨hpos, e, he, ht⟩ := h
  rw [show (l.upTo i).entries = l.entries.take i from rfl, getElem?_take] at he
  split at he
  · exact ⟨by omega, hpos, e, he, ht⟩
  · cases he

theorem finds_none {types : List String} : l.Finds none types := by
  simp [Finds]

theorem finds_some (h : l.IsA n types) : l.Finds (some n) types := by
  simpa [Finds] using h

/-! ### Growing ledgers -/

/-- The second ledger has the resources of the first. -/
structure Extends (l l' : Ledger α) : Prop where
  entries : l.entries <+: l'.entries
  files : l.files ≤ l'.files

namespace Extends

variable {l' l'' : Ledger α}

theorem refl (l : Ledger α) : l.Extends l := ⟨prefix_rfl, Nat.le_refl _⟩

theorem trans (h : l.Extends l') (h' : l'.Extends l'') : l.Extends l'' :=
  ⟨h.entries.trans h'.entries, Nat.le_trans h.files h'.files⟩

theorem isA (h : l.Extends l') (hn : l.IsA n types) : l'.IsA n types := by
  obtain ⟨hpos, e, he, ht⟩ := hn
  exact ⟨hpos, e, getElem?_of_initial h.entries he, ht⟩

theorem isFile (h : l.Extends l') (hn : l.IsFile n) : l'.IsFile n :=
    ⟨hn.1, Nat.le_trans hn.2 h.files⟩

theorem allows (h : l.Extends l') {r : Reference} (hr : l.Allows types r) : l'.Allows types r := by
  match r with
  | .internal (some n) => exact h.isA hr
  | .internal none => exact hr
  | .external n => exact h.isFile hr
  | .named text => exact hr

theorem holds (h : l.Extends l') (he : l.Holds e) : l'.Holds e := by
  obtain ⟨t, ht, hr⟩ := he
  exact ⟨t, ht, fun p hp r hm => h.allows (hr p hp r hm)⟩

end Extends

/-- A ledger is sound and has the resources of `base`. -/
structure Grown (base l : Ledger α) : Prop where
  sound : l.Sound
  extension : base.Extends l

theorem Grown.trans {l' l'' : Ledger α} (h : l.Grown l') (h' : l'.Grown l'') : l.Grown l'' :=
  ⟨h'.sound, h.extension.trans h'.extension⟩

theorem Sound.grown (h : l.Sound) : l.Grown l := ⟨h, .refl l⟩

/-! ### Adding resources -/

/-- The ledger with one more sub-resource, maybe under a key. -/
def add (l : Ledger α) (key : Option (InternalKey α)) (e : Entry α) : Ledger α :=
  { l with
    entries := l.entries ++ [e]
    numbers := l.numbers ++ (key.map fun key => (key, l.entries.length + 1)).toList }

def addFile (l : Ledger α) (key : ExternalKey α) : Ledger α :=
  { l with files := l.files + 1, fileNumbers := l.fileNumbers ++ [(key, l.files + 1)] }

theorem extends_add (l : Ledger α) (key : Option (InternalKey α)) (e : Entry α) :
    l.Extends (l.add key e) :=
  ⟨prefix_append _ _, Nat.le_refl _⟩

theorem isA_add (l : Ledger α) (key : Option (InternalKey α)) (ht : e.type? = some t)
    (hm : t ∈ types) : (l.add key e).IsA (l.entries.length + 1) types :=
  ⟨Nat.succ_pos _, e, getElem?_concat_length, t, hm, ht⟩

theorem getElem?_add {e' : Entry α} (h : (l.add key e).entries[i]? = some e') :
    (i < l.entries.length ∧ l.entries[i]? = some e') ∨ (i = l.entries.length ∧ e' = e) :=
  (getElem?_concat_cases h).imp_left fun h => ⟨(getElem?_eq_some_iff.1 h).1, h⟩

/-- A resource that refers to what is there can be added. -/
theorem Sound.add (h : l.Sound) (he : l.Holds e)
    (hid : e.heading.get? "id" = some (.int (l.entries.length + 1 : Nat)))
    (hkey : ∀ k ∈ key, ∃ t ∈ k.types, e.type? = some t) : (l.add key e).Sound where
  entries i e' hi := by
    -- What is before an entry is the same in both ledgers.
    rcases getElem?_add hi with ⟨hlt, hi⟩ | ⟨rfl, rfl⟩
    · have htake : l.entries.take i = ((l.add key e).upTo i).entries :=
        (take_append_of_le_length (Nat.le_of_lt hlt)).symm
      have hext : (l.upTo i).Extends ((l.add key e).upTo i) := ⟨htake ▸ prefix_rfl, Nat.le_refl _⟩
      exact hext.holds (h.entries i e' hi)
    · have htake : l.entries = ((l.add key e').upTo l.entries.length).entries := take_left.symm
      have hext : l.Extends ((l.add key e').upTo l.entries.length) :=
        ⟨htake ▸ prefix_rfl, Nat.le_refl _⟩
      exact hext.holds he
  ids i e' hi := by
    rcases getElem?_add hi with ⟨-, hi⟩ | ⟨rfl, rfl⟩
    · exact h.ids i e' hi
    · exact hid
  numbers k n hn := by
    rcases mem_append.1 hn with hn | hn
    · exact (l.extends_add key e).isA (h.numbers k n hn)
    · obtain ⟨k', hk', he'⟩ := Option.map_eq_some_iff.1 (Option.mem_toList.1 hn)
      cases he'
      obtain ⟨t, hm, ht⟩ := hkey k hk'
      exact l.isA_add key ht hm
  fileNumbers := h.fileNumbers

theorem extends_addFile (key : ExternalKey α) : l.Extends (l.addFile key) :=
    ⟨prefix_rfl, Nat.le_succ _⟩

theorem Sound.addFile (h : l.Sound) (key : ExternalKey α) : (l.addFile key).Sound where
  entries i e hi := by
    have hext : (l.upTo i).Extends ((l.addFile key).upTo i) := ⟨prefix_rfl, Nat.le_succ _⟩
    exact hext.holds (h.entries i e hi)
  ids := h.ids
  numbers := h.numbers
  fileNumbers k n hn := by
    rcases mem_append.1 hn with hn | hn
    · exact (l.extends_addFile key).isFile (h.fileNumbers k n hn)
    · cases mem_singleton.1 hn
      exact ⟨Nat.succ_pos _, Nat.le_refl _⟩

end Ledger

/-! ### Resources without references -/

theorem Record.mem_set {r : Record β} {value : β} (h : p ∈ r.set name value) : p ∈ r ∨
    p = (name, value) := by
  induction r with
  | nil => exact .inr (mem_singleton.1 h)
  | cons e rest ih =>
    obtain ⟨n, v⟩ := e
    unfold Record.set at h
    split at h
    · next hn =>
      rcases mem_cons.1 h with rfl | h
      · exact .inr (by rw [eq_of_beq hn])
      · exact .inl (mem_cons_of_mem _ h)
    · rcases mem_cons.1 h with rfl | h
      · exact .inl mem_cons_self
      · exact (ih h).imp_left (mem_cons_of_mem _)

theorem Record.mem_setAll {r more : Record β} (h : p ∈ r.setAll more) : p ∈ r ∨ p ∈ more := by
  induction more generalizing r with
  | nil => exact .inl h
  | cons q more ih =>
    rcases ih h with h | h
    · rcases Record.mem_set h with h | rfl
      · exact .inl h
      · exact .inr mem_cons_self
    · exact .inr (mem_cons_of_mem _ h)

theorem Record.Plain.set (h : r.Plain) (hv : v.Plain) : (r.set name v).Plain := by
  intro p hp
  rcases Record.mem_set hp with hp | rfl
  · exact h p hp
  · exact hv

theorem Record.Plain.setAll (h : r.Plain) (hm : more.Plain) : (r.setAll more).Plain :=
  fun p hp => (Record.mem_setAll hp).elim (h p) (hm p)

namespace Resource

def Plain (r : Resource α) : Prop :=
  Record.Plain r.entry.properties

/-- A resource has one of some types and no references. -/
def PlainOf (types : List String) (r : Resource α) : Prop :=
  r.Plain ∧ ∃ t ∈ types, r.entry.type? = some t

theorem plainOf_ofType {type name : String} {detail : Detail α} : (ofType type name detail).PlainOf
    [type] := by
  refine ⟨fun p hp => ?_, type, mem_singleton_self _, rfl⟩
  cases mem_singleton.1 hp
  rfl

theorem type?_numbered (r : Resource α) (n : Nat) : (r.numbered n).entry.type? = r.entry.type? := by
  have hne : "type" ≠ "id" := by decide
  show ((Record.set r.entry.heading "id" _).get? "type").bind _ = _
  rw [Record.get?_set_ne hne]
  rfl

namespace PlainOf

variable {types' : List String} {r : Resource α}

theorem weaken (h : r.PlainOf types) (hs : types ⊆ types') : r.PlainOf types' :=
  ⟨h.1, h.2.imp fun _ ht => ⟨hs ht.1, ht.2⟩⟩

theorem set (h : r.PlainOf types) (name : String) (hv : v.Plain) : (r.set name v).PlainOf types :=
  ⟨Record.Plain.set h.1 hv, h.2⟩

theorem foldl_set (h : r.PlainOf types) (hm : more.Plain) :
    (more.foldl (fun r p => r.set p.1 p.2) r).PlainOf types := by
  induction more generalizing r with
  | nil => exact h
  | cons p more ih =>
    exact ih (h.set p.1 (hm p mem_cons_self)) fun q hq => hm q (mem_cons_of_mem _ hq)

end PlainOf

end Resource

/-! ### Resources that can be added -/

namespace Ledger

/-- A resource has one of some types and refers only to what is there. -/
structure Fits (l : Ledger α) (types : List String) (r : Resource α) : Prop where
  holds : l.Holds r.entry
  type : ∃ t ∈ types, r.entry.type? = some t

variable {r : Resource α}

theorem fits_of_plain {l : Ledger α} (h : r.PlainOf types) : l.Fits types r := by
  obtain ⟨h, t, hm, ht⟩ := h
  refine ⟨⟨t, ht, fun p hp r hr => ?_⟩, t, hm, ht⟩
  rw [show p.2.references = [] from h p hp] at hr
  cases hr

theorem Fits.set (h : l.Fits [t] r) (hv : ∀ ref ∈ v.references, l.Allows (referredTypes t name v)
    ref) :
    l.Fits [t] (r.set name v) := by
  obtain ⟨t', hm, ht⟩ := h.type
  cases mem_singleton.1 hm
  obtain ⟨t'', ht', hholds⟩ := h.holds
  cases ht.symm.trans ht'
  refine ⟨⟨t, ht, fun p hp ref hr => ?_⟩, t, hm, ht⟩
  rcases Record.mem_set hp with hp | rfl
  · exact hholds p hp ref hr
  · exact hv ref hr

theorem Fits.foldl_set (h : l.Fits [t] r) (name : β → String) (value : β → Value α) {xs : List β}
    (hx : ∀ x ∈ xs, ∀ ref ∈ (value x).references, l.Allows (referredTypes t (name x) (value x)) ref)
    : l.Fits [t] (xs.foldl (fun r x => r.set (name x) (value x)) r) := by
  induction xs generalizing r with
  | nil => exact h
  | cons x xs ih =>
    exact ih (h.set (hx x mem_cons_self)) fun y hy => hx y (mem_cons_of_mem _ hy)

theorem Fits.weaken {types' : List String} (h : l.Fits types r) (hs : types ⊆ types') :
    l.Fits types' r :=
  ⟨h.holds, h.type.imp fun _ ht => ⟨hs ht.1, ht.2⟩⟩

theorem Fits.numbered (h : l.Fits types r) (n : Nat) : l.Fits types (r.numbered n) := by
  obtain ⟨⟨t, ht, hr⟩, hm⟩ := h
  exact ⟨⟨t, by rw [Resource.type?_numbered, ht], hr⟩, by simpa [Resource.type?_numbered] using hm⟩

/-- A ledger has grown from `base`, and something is true of it. -/
structure With (base : Ledger α) (fact : Ledger α → Prop) (l : Ledger α) : Prop where
  grown : base.Grown l
  fact : fact l

theorem With.add {base : Ledger α} (h : base.With (·.Fits types r) l)
    (hkey : ∀ k ∈ key, k.types = types) :
    base.With (·.IsA (l.entries.length + 1) types)
    (l.add key (r.numbered (l.entries.length + 1)).entry) := by
  have hfits := h.fact.numbered (l.entries.length + 1)
  obtain ⟨t, hm, ht⟩ := hfits.type
  have hid : (r.numbered (l.entries.length + 1)).entry.heading.get? "id"
      = some (.int (l.entries.length + 1 : Nat)) := Record.get?_set_self _ _ _
  refine ⟨⟨h.grown.sound.add hfits.holds hid fun k hk => ?_, ?_⟩, l.isA_add key ht hm⟩
  · exact ⟨t, hkey k hk ▸ hm, ht⟩
  · exact h.grown.extension.trans (l.extends_add key _)

end Ledger

variable {α : Type}

/-! ### Tracks -/

section Tracks

variable [Scalar α]

open Outcome

omit [Scalar α] in
theorem KeyValue.plain_toValue (v : KeyValue α) : v.toValue.Plain := by
  cases v with
  | number c => exact Value.plain_ofChannel c
  | _ => rfl

theorem Track.bezierKey_plain (timing : Timing) (frame : Int) (v : KeyValue α) :
    Gives (fun k => k.1.Plain ∧ ∀ w ∈ k.2, w.Plain) (Track.bezierKey timing frame v) := by
  unfold Track.bezierKey
  split
  · refine .skip fun time => .skip fun left => .skip fun right => .pure ⟨rfl, ?_⟩
    simp only [forall_mem_cons, not_mem_nil, false_implies, implies_true, and_true,
      Value.plain_ofChannel, Value.plain_real]
  · exact fun _ h => nomatch h

theorem Track.keys_plain (t : Track α) (timing : Timing) : Gives Value.Plain (t.keys timing) := by
  have hvalu : Gives Value.Plain (do
      let keys ← t.valueKeys timing
      return .map [("times", .array realBrackets (keys.map fun k => .real k.1)),
        ("transitions", .array realBrackets (keys.map fun _ => .int 1)),
        ("update", .int 0),
        ("values", .array listBrackets (keys.map fun k => k.2.toValue))]) := by
    refine .skip fun keys => .pure (Value.plain_map ?_)
    simp only [forall_mem_cons, not_mem_nil, false_implies, implies_true, and_true]
    refine ⟨?_, ?_, rfl, ?_⟩
    · exact Value.plain_array _ (forall_mem_map.2 fun k _ => Value.plain_real k.1)
    · exact Value.plain_array _ (forall_mem_map.2 fun k _ => rfl)
    · exact Value.plain_array _ (forall_mem_map.2 fun k _ => k.2.plain_toValue)
  unfold Track.keys
  split
  · exact .skip fun numbers => .pure (Value.plain_array _ Value.plain_reals)
  · exact hvalu
  · exact hvalu
  · refine .bind (.mapM (fun k : Int × KeyValue α => Track.bezierKey_plain timing k.1 k.2) _)
      fun keys hkeys => ?_
    refine .pure (Value.plain_map ?_)
    simp only [forall_mem_cons, not_mem_nil, false_implies, implies_true, and_true]
    constructor
    · refine Value.plain_array _ fun v hv => ?_
      obtain ⟨k, hk, hv⟩ := mem_flatMap.1 hv
      exact (hkeys k hk).2 v hv
    · exact Value.plain_array _ (forall_mem_map.2 fun k hk => (hkeys k hk).1)
  · exact fun _ h => nomatch h

theorem Animation.properties_plain (a : Animation α) (timing : Timing) : Gives Record.Plain
    (a.properties timing) := by
  unfold Animation.properties
  extract_lets length
  have hlen : length.Plain := by
    unfold length
    split <;> rfl
  have htrack (e : (String × Track α) × Nat) : Gives Record.Plain
    (trackProperties timing e.2 e.1.1 e.1.2) := by
    unfold trackProperties
    extract_lets base
    refine .bind (e.1.2.keys_plain timing) fun keys hkeys => .pure ?_
    simp only [Record.Plain, forall_mem_cons, not_mem_nil, false_implies, implies_true, and_true]
    exact ⟨rfl, rfl, rfl, hkeys⟩
  refine .bind (.mapM htrack _) fun tracks htrac => .pure fun p hp => ?_
  rcases mem_append.1 hp with hp | hp
  · simp only [mem_cons, not_mem_nil, or_false] at hp
    rcases hp with rfl | rfl | rfl
    · rfl
    · exact hlen
    · rfl
  · obtain ⟨track, ht, hp⟩ := mem_flatten.1 hp
    exact htrac track ht p hp

end Tracks

/-! ### Written entries -/

section Written

variable [Scalar α]

theorem Ledger.Holds.written {l : Ledger α} {r : Resource α} (h : l.Holds r.entry) {timing : Timing}
    {e : Entry α} (he : r.written timing = .ok e) : l.Holds e ∧ e.heading = r.entry.heading := by
  have hall {more : Record (Value α)} (hm : more.Plain) :
      l.Holds { r.entry with properties := r.entry.properties.setAll more } := by
    obtain ⟨t, ht, hr⟩ := h
    refine ⟨t, ht, fun p hp ref href => ?_⟩
    rcases Record.mem_setAll hp with hp | hp
    · exact hr p hp ref href
    · rw [show p.2.references = [] from hm p hp] at href
      cases href
  unfold Resource.written at he
  split at he
  · obtain ⟨more, hmore, he⟩ := Outcome.bind_ok he
    cases he
    exact ⟨hall (Animation.properties_plain _ timing more hmore), rfl⟩
  · obtain ⟨code, -, he⟩ := Outcome.bind_ok he
    cases he
    have hcode : Record.Plain [("code", (.quoted code : Value α))] := by
      intro p hp
      cases mem_singleton.1 hp
      rfl
    exact ⟨hall hcode, rfl⟩
  · cases he
    exact ⟨h, rfl⟩
  · cases he
    exact ⟨h, rfl⟩

/-- Where a reference of the sub-resource with number `k` leads.  The resource has a type, and
refers by a property with a name and a value. -/
def SceneFile.LeadsBack (f : SceneFile α) (k : Nat) (type name : String) (v : Value α) :
    Reference → Prop
  | .internal (some j) => 1 ≤ j ∧ j < k ∧ ∃ r, f.internal.get? j = some r ∧
      ∃ t ∈ referredTypes type name v, r.entry.type? = some t
  | .internal none => type = "MultiMesh" ∧ name = "mesh"
  | .external j => 1 ≤ j ∧ j ≤ f.external.items.size
  | .named _ => False

/-- The sub-resources of a file, as they are written, are numbered in their order and refer only to
what is before them or to external resources. -/
def SceneFile.RefersBack (f : SceneFile α) : Prop :=
  ∀ (i : Nat) r, f.internal.items[i]? = some r → ∀ timing e, r.written timing = .ok e →
    e.heading.get? "id" = some (.int (i + 1 : Nat)) ∧
      ∃ type, e.type? = some type ∧ ∀ p ∈ e.properties, ∀ ref ∈ p.2.references,
        f.LeadsBack (i + 1) type p.1 p.2 ref

omit [Scalar α] in
theorem referredTypes_mesh {type name : String} {v : Value α}
    (h : referredTypes type name v = ["ArrayMesh"]) : type = "MultiMesh" ∧ name = "mesh" := by
  unfold referredTypes at h
  split at h
  · exact absurd h (by decide)
  · split at h
    · exact absurd h (by decide)
    · cases h
  · split at h
    · next hname => exact ⟨rfl, hname⟩
    · cases h
  · cases h

theorem Ledger.Sound.refersBack {s : Session α} (h : s.ledger.Sound) : s.file.RefersBack := by
  intro i r hr timing e he
  have hentry : s.ledger.entries[i]? = some r.entry := by
    simp [Session.ledger, SceneFile.ledger, hr]
  obtain ⟨⟨type, htype, hrefs⟩, hhead⟩ := (h.entries i _ hentry).written he
  refine ⟨hhead ▸ h.ids i _ hentry, type, htype, fun p hp ref href => ?_⟩
  have hallo := hrefs p hp ref href
  cases ref with
  | internal number =>
    cases number with
    | none => exact referredTypes_mesh hallo
    | some j =>
      obtain ⟨hle, hpos, e', he', ht⟩ := Ledger.isA_of_upTo hallo
      simp only [Session.ledger, SceneFile.ledger, getElem?_map, Array.getElem?_toList,
        Option.map_eq_some_iff] at he'
      obtain ⟨r', hr', rfl⟩ := he'
      refine ⟨hpos, by omega, r', ?_, ht⟩
      rw [ResourceTable.get?, if_neg (by omega), hr']
  | external j => exact hallo
  | named text => exact hallo

end Written

end SceneExport
