import SceneExport.Proofs.Space.Exact
import SceneExport.Proofs.Animation.Table
import SceneExport.Proofs.Material.Nearest

/-!
# Paths of external resources

The path of an external resource is written as seen from the directory of the file.  Joined to that
directory again it leads to the same place (`SceneFile.fixPaths_resolves`).
-/

namespace SceneExport

open List
open List (replicate)

namespace Path

variable {p q dir : String} {kept cs ds us : List String} {rooted : Bool}

/-! ### Components -/

theorem components_append (a b : String) : components (a ++ "/" ++ b) = components a ++
    components b := by
  rw [components, Text.split, String.toList_append, String.toList_append, append_assoc]
  simp [components, Text.split, Text.splitOn_append]

/-- The components of a path can be parts of one, and hold nothing that the path does not. -/
theorem of_mem_components {c : String} (h : c ∈ components p) : IsPart c ∧ c.toList ⊆ p.toList := by
  obtain ⟨hc, hne⟩ := mem_filter.1 h
  obtain ⟨piece, hpiece, rfl⟩ := mem_map.1 hc
  have hmem (x : Char) (hx : x ∈ piece) : x ∈ p.toList ∧ (x != '/') = true := by
    have hflat := mem_flatten_of_mem hpiece hx
    rwa [Text.flatten_splitOn, mem_filter] at hflat
  rw [String.toList_ofList]
  exact ⟨⟨bne_iff_ne.1 hne, by simpa using fun hx => absurd (hmem _ hx).2 (by decide)⟩, fun x hx =>
    (hmem x hx).1⟩

theorem exists_mem_components {x : Char} (h : x ∈ p.toList) (hx : x ≠ '/') : ∃ c ∈ components p,
    x ∈ c.toList := by
  obtain ⟨piece, hpiece, hmem⟩ := Text.exists_mem_splitOn h hx
  refine ⟨String.ofList piece, mem_filter.2 ⟨mem_map_of_mem hpiece, ?_⟩, by simpa using hmem⟩
  exact bne_iff_ne.2 fun he => ne_nil_of_mem hmem (by simpa using he)

/-! ### Resolving -/

theorem resolve_append : resolve rooted kept (cs ++ ds) =
    resolve rooted (resolve rooted kept cs).reverse ds := by
  fun_induction resolve rooted kept cs with
  | case1 => simp
  | _ => simp_all [resolve]

theorem of_mem_resolve {c : String} (h : c ∈ resolve true kept cs) : c ∈ kept ∨ c ∈ cs ∧ c ≠ "." ∧
    c ≠ ".." := by
  fun_induction resolve true kept cs <;> grind

theorem resolve_up (h : ∀ u ∈ us, u ≠ "..") :
    resolve rooted (us ++ kept) (replicate us.length ".." ++ ds) = resolve rooted kept ds := by
  induction us with
  | nil => rfl
  | cons u us ih =>
    rw [← ih fun v hv => h v (.tail _ hv)]
    simp [replicate_succ, resolve, h u mem_cons_self]

theorem of_mem_absolute {c : String} (h : c ∈ absolute p) :
    IsPart c ∧ c.toList ⊆ p.toList ∧ c ≠ "." ∧ c ≠ ".." := by
  rcases of_mem_resolve h with h | ⟨h, hc⟩
  · cases h
  · exact ⟨(of_mem_components h).1, (of_mem_components h).2, hc⟩

/-- The way from one place to another leads there. -/
theorem resolve_climb_absolute (dir p : String) :
    resolve true (absolute dir).reverse (climb (absolute dir) (absolute p)) = absolute p := by
  obtain ⟨common, up, down, hdir, hp, hclimb⟩ := exists_climb (absolute dir) (absolute p)
  rw [hclimb, hdir, hp, reverse_append, ← @length_reverse _ up, resolve_up, resolve_names,
    reverse_reverse]
  · exact fun n hn => (of_mem_absolute (hp ▸ mem_append_right _ hn)).2.2
  · exact fun u hu => (of_mem_absolute (p := dir)
      (hdir ▸ mem_append_right _ (mem_reverse.1 hu))).2.2.2

/-! ### Rooted paths -/

/-- A path from the root, with one slash in front. -/
def IsRooted (p : String) : Prop :=
  ∃ cs, p.toList = '/' :: cs ∧ cs.head? ≠ some '/'

theorem IsRooted.isEmpty (h : IsRooted p) : p.isEmpty = false := by
  obtain ⟨cs, hcs, -⟩ := h
  cases he : p.isEmpty with
  | false => rfl
  | true => simp [String.isEmpty_iff.1 he] at hcs

theorem IsRooted.normalize_eq (h : IsRooted p) : normalize p = "/" ++ Text.joinWith "/"
    (absolute p) := by
  have hst : leadingSlashes p = "/" := by
    obtain ⟨cs, hp, hcs⟩ := h
    cases cs with
    | nil => simp [leadingSlashes, isAbsolute, Text.startsWith, hp, Text.strip?]
    | cons c cs =>
      have hc : c ≠ '/' := fun hc => hcs (congrArg some hc)
      simp [leadingSlashes, isAbsolute, Text.startsWith, hp, Text.strip?, hc.symm]
  rw [normalize, hst]
  simp [absolute]

theorem IsRooted.of_prefix (h : IsRooted p) (hq : q.toList <+: p.toList) (hne : q.toList ≠ []) :
    IsRooted q := by
  obtain ⟨cs, hp, hcs⟩ := h
  obtain ⟨c, ds, hd⟩ := exists_cons_of_ne_nil hne
  rw [hp, hd, cons_prefix_cons] at hq
  obtain ⟨rfl, rest, rfl⟩ := hq
  exact ⟨ds, hd, fun hh => hcs (by simp [hh])⟩

theorem IsRooted.directory (h : IsRooted p) : IsRooted (directory p) := by
  refine h.of_prefix (directory_initial p) fun hnil => ?_
  have hcut : (cutLast p).1 ≠ [] := by
    obtain ⟨cs, hp, -⟩ := h
    rw [cutLast, hp, Text.splitLast?]
    cases Text.splitLast? '/' cs <;> simp
  rw [Path.directory, String.toList_ofList, trimSlashes] at hnil
  split at hnil
  · exact hcut hnil
  · next hne => exact hne (by rw [hnil]; rfl)

theorem IsRooted.join (h : IsRooted dir) (hq : isAbsolute q = false) : IsRooted (join dir q) := by
  obtain ⟨cs, hd, hcs⟩ := h
  have hhead : q.toList.head? ≠ some '/' := fun hh => Bool.false_ne_true
    (hq.symm.trans ((strip?_slash _).2 hh))
  cases cs with
  | nil => exact ⟨q.toList, by simp [Path.join, hq, Text.endsWith, hd, Text.strip?], hhead⟩
  | cons c cs =>
    have hc : c ≠ '/' := fun hc => hcs (congrArg some hc)
    rw [Path.join, hq, if_neg Bool.false_ne_true]
    split <;> simp [IsRooted, hd, hc]

theorem components_join (hq : isAbsolute q = false) : components (Path.join dir q) =
    components dir ++ components q := by
  have hnone : components "" = [] := rfl
  rw [Path.join, hq, if_neg Bool.false_ne_true]
  split
  · next h =>
    rcases Bool.or_eq_true_iff.1 h with h | h
    · rw [String.isEmpty_iff.1 h, hnone, String.empty_append, nil_append]
    · -- A slash at the end of the directory divides it from the rest.
      obtain ⟨cs, hcs⟩ := getLast?_eq_some_iff.1 (head?_reverse ▸ (strip?_slash _).1 h)
      obtain rfl : dir = String.ofList cs ++ "/" := String.toList_injective (by simpa using hcs)
      have hdir := components_append (String.ofList cs) ""
      rw [hnone, append_nil, String.append_empty] at hdir
      rw [components_append, hdir]
  · exact components_append dir q

/-- A path as seen from a directory leads, from there, to the same place. -/
theorem normalize_join_relative (hdir : IsRooted dir) (hp : IsRooted p) : ∃ q, relative p dir =
    .ok q ∧ isAbsolute q = false ∧ normalize (Path.join dir q) = normalize p ∧ ∀ c ∈ components q,
    ∀ x ∈ c.toList, x ∈ p.toList ∨ x = '.' := by
  have hend := resolve_climb_absolute dir p
  -- What is left to see is that the text of the way, also where there is none, has its components.
  have hreso {q : String} (hq : isAbsolute q = false)
      (hc : resolve true (absolute dir).reverse (components q) = absolute p) :
      normalize (Path.join dir q) = normalize p := by
    rw [(hdir.join hq).normalize_eq, hp.normalize_eq, absolute, components_join hq, resolve_append]
    exact congrArg (fun cs => "/" ++ Text.joinWith "/" cs) hc
  have hparts : ∀ c ∈ climb (absolute dir) (absolute p), IsPart c ∧ ∀ x ∈ c.toList, x ∈ p.toList ∨
    x = '.' := by
    obtain ⟨common, up, down, -, hdown, hclimb⟩ := exists_climb (absolute dir) (absolute p)
    rw [hclimb]
    intro c hc
    rcases mem_append.1 hc with hc | hc
    · rw [(mem_replicate.1 hc).2]
      exact ⟨isPart_up, by simp⟩
    · obtain ⟨hpart, hsub, -⟩ := of_mem_absolute (p := p) (hdown ▸ mem_append_right common hc)
      exact ⟨hpart, fun x hx => .inl (hsub hx)⟩
  refine ⟨_, by rw [relative, hp.isEmpty]; rfl, ?_⟩
  cases hway : climb (absolute dir) (absolute p) with
  | nil =>
    rw [hway] at hend
    have hpoint : components "." = ["."] := rfl
    exact ⟨rfl, hreso rfl (by simpa [hpoint, resolve] using hend), by simp [hpoint]⟩
  | cons part parts =>
    rw [hway] at hend hparts
    have hcomp := components_joinWith fun c hc => (hparts c hc).1
    have hrela := isAbsolute_joinWith (hparts part mem_cons_self).1 parts
    refine ⟨hrela, hreso hrela ?_, ?_⟩
    · exact (congrArg _ hcomp).trans hend
    · intro c hc
      exact (hparts c (hcomp ▸ hc)).2

theorem slashed_of_not_mem (h : '\\' ∉ p.toList) : slashed p = p := by
  rw [slashed, map_congr_left (g := id), map_id, String.ofList_toList]
  exact fun c hc => if_neg (by simpa using ne_of_mem_of_not_mem hc h)

end Path

variable {α : Type} [Scalar α] {target : String}

/-- The entry of an external resource whose path begins at the root. -/
def Entry.IsLocated (e : Entry α) : Prop :=
  ∃ p, e.heading.get? "path" = some (.text p) ∧ Path.IsRooted p ∧ '\\' ∉ p.toList

/-- Another entry differs only in the path, which is relative and leads from a directory to the
place that it led to before. -/
def Entry.LeadsAlike (dir : String) (e e' : Entry α) : Prop :=
  ∃ p q, e.heading.get? "path" = some (.text p) ∧ e' = e.setHeading "path" (.text q) ∧
    Path.isAbsolute q = false ∧ Path.normalize (Path.join dir q) = Path.normalize p

theorem Entry.IsLocated.relativeTo {e : Entry α} (h : e.IsLocated) (ht : Path.IsRooted target) :
    ∃ e', e.relativeTo target = .ok e' ∧ e.LeadsAlike (Path.directory target) e' := by
  obtain ⟨p, hpath, hp, hslash⟩ := h
  obtain ⟨q, hq, hrela, hnorm, hchars⟩ := Path.normalize_join_relative ht.directory hp
  have hback : '\\' ∉ q.toList := fun hb => by
    obtain ⟨c, hc, hx⟩ := Path.exists_mem_components hb (by decide)
    exact (hchars c hc _ hx).elim hslash (by decide)
  have hvoid : (Value.text p : Value α).isVoid = false := hp.isEmpty
  refine ⟨_, ?_, p, q, hpath, rfl, hrela, hnorm⟩
  simp [Entry.relativeTo, Heading.value, hpath, need, bind, Except.bind, hvoid, Value.asText,
    Value.text?, hq, Path.slashed_of_not_mem hback]
  rfl

namespace SceneFile

theorem relativePaths_resolves {es : List (Entry α)} (h : ∀ e ∈ es, e.IsLocated)
    (ht : Path.IsRooted target) :
    ∃ es', relativePaths target es = (es', .ok ()) ∧
    Forall₂ (Entry.LeadsAlike (Path.directory target)) es es' := by
  induction es with
  | nil => exact ⟨[], rfl, .nil⟩
  | cons e es ih =>
    obtain ⟨e', he, halike⟩ := (h e mem_cons_self).relativeTo ht
    obtain ⟨es', hes, hall⟩ := ih fun e he => h e (.tail _ he)
    exact ⟨e' :: es', by rw [relativePaths, he, hes], .cons halike hall⟩

/-- **External paths resolve from the file.**  Where the target and all external resources have
paths from the root, the paths can all be fixed, each then leads from the directory of the target to
the place it led to before, and nothing else in the file changes. -/
theorem fixPaths_resolves (f : SceneFile α) (h : ∀ e ∈ f.external.items.toList, e.IsLocated)
    (ht : Path.IsRooted target) :
    ∃ items : Array (Entry α),
      f.fixPaths target = ({ f with external := { f.external with items } }, .ok ()) ∧
      Forall₂ (Entry.LeadsAlike (Path.directory target)) f.external.items.toList items.toList := by
  obtain ⟨es, hes, hall⟩ := relativePaths_resolves h ht
  exact ⟨es.toArray, by rw [fixPaths, hes], hall⟩

/-- A file with one texture, whose path goes down and up again. -/
def textured : SceneFile ℚ where
  external := { items := #[externalEntry (.text "/art/./drafts//../wood.png") (.text "Texture")] }

theorem fixPaths_resolves_textured : Path.IsRooted "/game/levels/cave.escn" ∧
    ∃ items : Array (Entry ℚ), textured.fixPaths "/game/levels/cave.escn"
      = ({ textured with external := { textured.external with items } }, .ok ()) ∧
    Forall₂ (Entry.LeadsAlike "/game/levels") textured.external.items.toList items.toList := by
  have ht : Path.IsRooted "/game/levels/cave.escn" := ⟨_, rfl, by decide⟩
  refine ⟨ht, fixPaths_resolves textured (fun e he => ?_) ht⟩
  cases mem_singleton.1 he
  exact ⟨_, rfl, ⟨_, rfl, by decide⟩, by decide⟩

end SceneFile

end SceneExport
