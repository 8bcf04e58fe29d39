import SceneExport.Proofs.Space.Exact
import SceneExport.Proofs.Shader.Outputs

/-!
# Variables are declared before they are used

The fragment function of a material is made of the drafts of its nodes, one after the other in the
order of evaluation, and of lines that hand its surface to the renderer.  `Added` says what a node
adds.  From it follow two facts on the whole order, each by going through the nodes:

* as long as no node loses its reflection, all that was written is in scope (`Compilation.Sound`);
* a name that a node loses is declared nowhere, for each node declares only names with its own
  number (`Compilation.Misses`).

Together: variables are declared before they are used if and only if no node for texture
coordinates has both its "Reflection" and its "Generated" linked (`compile_declaredFirst_iff`).
-/

namespace SceneExport

open List
open Line (uses declared reads)

variable {α : Type}

/-- The node at a position is for texture coordinates, and both its reflection and its coordinates
in the bounding box are linked. -/
def NodeTree.LosesReflection (t : NodeTree α) (position : Nat) : Prop :=
  ∃ n r g, t.nodes[position]? = some n ∧ n.id = "ShaderNodeTexCoord" ∧
    n.outputNamed "Reflection" = .ok r ∧ n.outputNamed "Generated" = .ok g ∧
    t.isOutputLinked position r = true ∧ t.isOutputLinked position g = true

instance (t : NodeTree α) (position : Nat) : Decidable (t.LosesReflection position) :=
  decidable_of_iff (∃ n ∈ t.nodes[position]?, n.id = "ShaderNodeTexCoord" ∧
      ∃ r ∈ (n.outputNamed "Reflection").toOption, ∃ g ∈ (n.outputNamed "Generated").toOption,
        t.isOutputLinked position r = true ∧ t.isOutputLinked position g = true) <| by
    have hmem {β : Type} (x : Except Failure β) (b : β) : b ∈ x.toOption ↔ x = .ok b := by
      cases x <;> simp [Except.toOption]
    simp [NodeTree.LosesReflection, hmem]

theorem NodeRule.ofId?_textureCoordinate {id : String} :
    NodeRule.ofId? id = some .textureCoordinate ↔ id = "ShaderNodeTexCoord" := by
  constructor
  · intro h
    unfold NodeRule.ofId? at h
    split at h
    case h_3 => rfl
    all_goals cases h
  · rintro rfl
    rfl

variable {n : ShaderNode α} {rule : NodeRule} {finished : List (Nat × Finished)}
  {k position output : Nat} {log log' : Log} {c : Compilation} {rest : List (Nat × Nat)}
  {lines : List Line}

/-- A rule for certain kinds of node is that of a node if and only if the node is of such a kind. -/
theorem NodeRule.ofNode_eq_iff [Scalar α] {special : NodeRule} (h : NodeRule.ofNode n = .ok rule)
    (hs : special ∉ [.surface, .general, .unsupported]) : rule = special ↔
    NodeRule.ofId? n.id = some special := by
  simp only [mem_cons, not_mem_nil, or_false, not_or] at hs
  unfold NodeRule.ofNode at h
  cases hid : NodeRule.ofId? n.id with
  | some rule' =>
    rw [hid] at h
    cases h
    simp
  | none =>
    rw [hid] at h
    dsimp only at h
    split at h
    · cases h
      simp [Ne.symm hs.1]
    · obtain ⟨known, -, h⟩ := Outcome.bind_ok h
      cases known <;> cases h
      · simp [Ne.symm hs.2.2]
      · simp [Ne.symm hs.2.1]

/-! ### The code of a node in a script -/

variable (flags : ShadingFlags) (s : ShaderScript)

namespace ShaderScript

theorem fragment_addFunctions (names : List String) : (s.addFunctions names).fragment =
    s.fragment := by
  unfold addFunctions
  induction names generalizing s with
  | nil => rfl
  | cons name names ih =>
    rw [foldl_cons, ih]
    unfold addFunction
    split <;> rfl

theorem fragment_bindTextures (ts : List Texture) (lines : List Line) :
    (s.bindTextures ts lines).1.fragment = s.fragment := by
  unfold bindTextures
  induction ts generalizing s lines with
  | nil => rfl
  | cons t ts ih =>
    rw [foldl_cons, bindTexture, ih]
    unfold textureName
    split <;> rfl

theorem fragment_addDraft (n : ShaderNode α) (d : Draft) :
    ∃ lines, (s.addDraft n d).fragment = s.fragment ++ lines ∧
      declaredIn lines = declaredIn d.lines ∧ lines.flatMap uses = d.lines.flatMap uses ∧
      ∀ known, Scoped known d.lines → Scoped known lines := by
  have hcode := (s.addFunctions d.functions).bindTextures_sameNames d.textures d.code
  let code := ((s.addFunctions d.functions).bindTextures d.textures d.code).2
  refine ⟨[.comment ("node: '" ++ n.name ++ "'"), .comment ("type: '" ++ n.id ++ "'")]
    ++ d.inputLines ++ d.outputLines ++ code ++ [.blank, .blank], ?_, ?_, ?_, fun known h => ?_⟩
  · unfold addDraft
    dsimp only [addFragment]
    rw [fragment_bindTextures, fragment_addFunctions]
  · simp [Draft.lines, code, hcode.declaredIn_eq, declared]
  · simp [Draft.lines, code, hcode.uses_eq, uses, reads]
  · simp only [Draft.lines, scoped_append] at h
    simpa [scoped_append, code, hcode.scoped_iff, Scoped, uses, reads, declared, and_assoc,
      or_assoc] using h

end ShaderScript

/-- What a node adds to the fragment function. -/
structure Added (known : String → Prop) (k : Nat) (loses : Prop) (lines : List Line)
    (c : Compilation) : Prop where
  names : ∀ x ∈ declaredIn lines, Names.IsOwn k x
  finished : FinishedWithin c.finished fun x => known x ∨ x ∈ declaredIn lines
  inScope : ¬ loses → Scoped known lines
  store : ¬ loses → ∀ (id : Nat) closure, c.closures[id]? = some closure →
    closure.Within fun x => known x ∨ x ∈ declaredIn lines
  lost : loses → ∃ x, Names.IsOwn k x ∧ x ∈ lines.flatMap uses ∧ x ∉ declaredIn lines

theorem FinishedWithin.cons {known : String → Prop} (h : FinishedWithin finished known) (n : Nat)
    {f : Finished} (hf : ∀ i x, f.outputs.lookup i = some (.variable x) → known x) :
    FinishedWithin ((n, f) :: finished) known := by
  intro m f' hm
  rw [lookup_cons] at hm
  split at hm
  · cases hm
    exact hf
  · exact h m f' hm

variable [Scalar α] {t : NodeTree α} {version : Version} {known : String → Prop} {c' : Compilation}
  {p m : Nat}

theorem runDraft_ok {c : NodeContext α} {closures : Array Closure} {w : Workspace}
    (h : runDraft c rule k closures log = .ok w log') :
    draftNode c rule { draft := { index := k }, closures } = .ok () w := by
  unfold runDraft at h
  cases hd : (draftNode c rule).run { draft := { index := k }, closures } with
  | ok u w' =>
    rw [hd] at h
    cases h
    exact hd
  | error e w' =>
    rw [hd] at h
    cases h

theorem NodeContext.clashes_iff {c : NodeContext α} (hn : c.tree.nodes[c.position]? = some c.node)
    (hrule : NodeRule.ofNode c.node = .ok rule) : c.Clashes rule ↔ c.tree.LosesReflection
    c.position := by
  rw [NodeContext.Clashes, NodeRule.ofNode_eq_iff hrule (by decide),
    NodeRule.ofId?_textureCoordinate]
  constructor
  · rintro ⟨hid, r, g, hr, hg, hlink⟩
    exact ⟨c.node, r, g, hn, hid, hr, hg, hlink⟩
  · rintro ⟨n, r, g, hn', hid, hr, hg, hlink⟩
    cases hn.symm.trans hn'
    exact ⟨hid, r, g, hr, hg, hlink⟩

theorem Compilation.addNode_added (hstore : ∀ (id : Nat) closure, c.closures[id]? = some closure →
    closure.Within known) (hfini : FinishedWithin c.finished known)
    (h : c.addNode t version position k log = .ok c' log') :
    ∃ lines, c'.script.fragment = c.script.fragment ++ lines ∧
      Added known k (t.LosesReflection position) lines c' := by
  obtain ⟨n, log1, h1, h2⟩ := bind_ok h
  obtain ⟨rule, log2, h3, h4⟩ := bind_ok h2
  obtain ⟨w, log3, h5, h6⟩ := bind_ok h4
  cases h6
  let context : NodeContext α :=
    ⟨t, position, n, version, (position, ⟨rule.isValid, []⟩) :: c.finished⟩
  have hbegun : FinishedWithin context.finished known := hfini.cons position fun i x hx => by
    cases hx
  have hd := draftNode_drafted hbegun k rule _ (entered_empty hstore k #[]) () w (runDraft_ok h5)
  have hloses := context.clashes_iff (need_ok (Logged.lift_ok h1).1) (Logged.lift_ok h3).1
  rw [← hloses]
  obtain ⟨lines, hlns, hdecl, huses, hscop⟩ := c.script.fragment_addDraft n w.draft
  refine ⟨lines, hlns, ?_, ?_, fun hc => hscop known (hd.lines hc), ?_, ?_⟩
  · rw [hdecl]
    exact hd.names
  · rw [hdecl]
    exact FinishedWithin.cons (fun n f hn i x hx => .inl (hfini n f hn i x hx)) position
      fun i x hx => .inr (hd.outputs i x hx)
  · rw [hdecl]
    exact hd.store
  · rw [hdecl, huses]
    intro hc
    obtain ⟨x, hx, hused, hnot⟩ := hd.lost hc
    exact ⟨x, hx, mem_flatMap.2 hused, hnot⟩

/-! ### All nodes -/

/-- What was written is in scope, and so is all that the nodes to come can refer to. -/
structure Compilation.Sound (c : Compilation) : Prop where
  fragment : Scoped (fun _ => False) c.script.fragment
  store : ∀ (id : Nat) closure, c.closures[id]? = some closure →
    closure.Within (· ∈ declaredIn c.script.fragment)
  finished : FinishedWithin c.finished (· ∈ declaredIn c.script.fragment)

theorem Compilation.sound_start : Compilation.Sound {} where
  fragment := trivial
  store id closure h := by simp at h
  finished n f h := by cases h

theorem Compilation.Sound.addNode (hc : c.Sound) (hposi : ¬ t.LosesReflection position)
    (h : c.addNode t version position k log = .ok c' log') : c'.Sound := by
  obtain ⟨lines, hlns, ha⟩ := addNode_added hc.store hc.finished h
  have hdecl : ∀ x, x ∈ declaredIn c'.script.fragment ↔
      x ∈ declaredIn c.script.fragment ∨ x ∈ declaredIn lines := by
    simp [hlns]
  refine ⟨?_, ?_, ?_⟩
  · rw [hlns, scoped_append]
    exact ⟨hc.fragment, (ha.inScope hposi).mono fun x => .inr⟩
  · simpa only [hdecl] using ha.store hposi
  · simpa only [hdecl] using ha.finished

/-- The name that the node at `position`, the `k`-th, loses is not declared: either the node is
still to come, or its code uses the name and the nodes to come have other numbers. -/
structure Compilation.Misses (position k : Nat) (rest : List (Nat × Nat)) (c : Compilation) :
    Prop where
  numbers : (rest.map Prod.snd).Nodup
  names : ∀ x ∈ declaredIn c.script.fragment, ∃ m, Names.IsOwn m x ∧ m ∉ rest.map Prod.snd
  missing : (position, k) ∈ rest ∨ k ∉ rest.map Prod.snd ∧ ∃ x, Names.IsOwn k x ∧
    x ∈ c.script.fragment.flatMap uses ∧ x ∉ declaredIn c.script.fragment

omit [Scalar α] in
theorem Compilation.misses_start (h : t.order[k]? = some position) :
    Compilation.Misses position k t.order.zipIdx {} where
  numbers := by
    rw [zipIdx_map_snd]
    exact nodup_range'
  names := by simp
  missing := .inl (mk_mem_zipIdx_iff_getElem?.2 h)

theorem Compilation.Misses.skip (hc : c.Misses position k ((p, m) :: rest))
    (hp : position ≠ p) : c.Misses position k rest where
  numbers := (nodup_cons.1 hc.numbers).2
  names x hx := by
    obtain ⟨j, hj, hfree⟩ := hc.names x hx
    exact ⟨j, hj, fun h => hfree (.tail _ h)⟩
  missing := by
    refine hc.missing.imp (fun hmem => ?_) fun ⟨hk, hx⟩ => ⟨fun h => hk (.tail _ h), hx⟩
    exact (mem_cons.1 hmem).resolve_left fun he => hp (congrArg Prod.fst he)

theorem Compilation.Misses.addNode
    (hc : c.Misses position k ((p, m) :: rest)) (hposi : t.LosesReflection position)
    (h : c.addNode t version p m log = .ok c' log') : c'.Misses position k rest := by
  -- Whether the code is in scope does not matter here, so everything counts as known.
  have hstore : ∀ (id : Nat) closure, c.closures[id]? = some closure →
      closure.Within fun _ => True := fun _ _ _ _ _ _ => trivial
  obtain ⟨lines, hlns, ha⟩ := addNode_added hstore (fun _ _ _ _ _ _ => trivial) h
  have hnums := hc.numbers
  simp only [map_cons, nodup_cons] at hnums
  have hrest : ∀ k, k ∉ ((p, m) :: rest).map Prod.snd ↔ k ≠ m ∧ k ∉ rest.map Prod.snd := by
    simp
  have hdecl : ∀ x, x ∈ declaredIn c'.script.fragment ↔
      x ∈ declaredIn c.script.fragment ∨ x ∈ declaredIn lines := by
    simp [hlns]
  have huses : ∀ x, x ∈ c'.script.fragment.flatMap uses ↔
      x ∈ c.script.fragment.flatMap uses ∨ x ∈ lines.flatMap uses := by
    simp [hlns]
  refine ⟨hnums.2, fun x hx => ?_, ?_⟩
  · rcases (hdecl x).1 hx with hx | hx
    · obtain ⟨j, hj, hfree⟩ := hc.names x hx
      exact ⟨j, hj, ((hrest j).1 hfree).2⟩
    · exact ⟨m, ha.names x hx, hnums.1⟩
  · rcases hc.missing with hmem | ⟨hk, x, hx, hused, hnot⟩
    · rcases mem_cons.1 hmem with he | hmem
      · cases he
        obtain ⟨x, hx, hused, hnot⟩ := ha.lost hposi
        refine .inr ⟨hnums.1, x, hx, (huses x).2 (.inr hused), fun hd => ?_⟩
        rcases (hdecl x).1 hd with hd | hd
        · obtain ⟨j, hj, hfree⟩ := hc.names x hd
          exact ((hrest j).1 hfree).1 (hj.unique hx)
        · exact hnot hd
      · exact .inl hmem
    · refine .inr ⟨((hrest k).1 hk).2, x, hx, (huses x).2 (.inl hused), fun hd => ?_⟩
      rcases (hdecl x).1 hd with hd | hd
      · exact hnot hd
      · exact ((hrest k).1 hk).1 (hx.unique (ha.names x hd))

/-- What holds at the start and is kept by each node holds in the end; the invariant knows which
nodes are still to come. -/
theorem compileNodes_run (I : List (Nat × Nat) → Compilation → Prop)
    (hst : I t.order.zipIdx {}) (hskip : ∀ k rest c, I ((output, k) :: rest) c → I rest c)
    (hadd : ∀ position k rest c c' log log', position ≠ output → I ((position, k) :: rest) c →
      c.addNode t version position k log = .ok c' log' → I rest c') :
    Leads (fun _ => True) (t.compileNodes version output) fun c _ => I [] c := by
  refine .bind (Leads.mono (Leads.loop (fun rest c _ => I rest c) (fun entry rest c => ?_) _ _)
    (fun _ _ => hst) fun _ _ hc => hc) fun c => .pure fun _ hc => hc
  obtain ⟨position, k⟩ := entry
  intro log hI r log' h
  by_cases hout : position = output
  · simp only [ne_eq, hout, not_true_eq_false, ↓reduceIte] at h
    cases h
    exact ⟨c, rfl, hskip k rest c (hout ▸ hI)⟩
  · simp only [ne_eq, hout, not_false_eq_true, ↓reduceIte] at h
    obtain ⟨c', log1, h1, h2⟩ := bind_ok h
    cases h2
    exact ⟨c', rfl, hadd position k rest c c' log _ hout hI h1⟩

theorem compileNodes_sound (output : Nat) (h : ∀ position ∈ t.order, ¬ t.LosesReflection position) :
    Leads (fun _ => True) (t.compileNodes version output) fun c _ => c.Sound := by
  refine (compileNodes_run (fun rest c => rest ⊆ t.order.zipIdx ∧ c.Sound)
    ⟨List.Subset.refl _, Compilation.sound_start⟩ (fun k rest c hc => ?_)
    fun position k rest c c' log log' _ hc hadd => ?_).post fun _ _ hc => hc.2
  · exact ⟨fun entry he => hc.1 (.tail _ he), hc.2⟩
  · have hmem : position ∈ t.order := fst_mem_of_mem_zipIdx (hc.1 mem_cons_self)
    exact ⟨fun entry he => hc.1 (.tail _ he), hc.2.addNode (h position hmem) hadd⟩

theorem compileNodes_misses (hmem : position ∈ t.order) (hne : position ≠ output)
    (h : t.LosesReflection position) :
    Leads (fun _ => True) (t.compileNodes version output) fun c _ =>
      ∃ k, c.Misses position k [] := by
  obtain ⟨k, hk⟩ := getElem?_of_mem hmem
  exact (compileNodes_run (fun rest c => c.Misses position k rest) (Compilation.misses_start hk)
    (fun _ _ _ hc => hc.skip hne) fun _ _ _ _ _ _ _ _ hc hadd => hc.addNode h hadd).mono
    (fun _ h => h) fun c _ hc => ⟨k, hc⟩

/-! ### The surface -/

/-- The lines declare nothing, and use no variables of nodes but those of the closure. -/
def HandsOver (c : Closure) (lines : List Line) : Prop :=
  ∀ line ∈ lines, line.declared = [] ∧
    ∀ x ∈ line.uses, isNodeVariable x = true → ∃ p, c.get? p = some x

namespace HandsOver

variable {c : Closure}

theorem nil : HandsOver c [] := by
  simp [HandsOver]

theorem append {a b : List Line} (ha : HandsOver c a) (hb : HandsOver c b) :
    HandsOver c (a ++ b) := by
  intro line hline
  rcases mem_append.1 hline with hline | hline
  · exact ha line hline
  · exact hb line hline

theorem of_uses {p q : SurfaceProperty} {x y : String} (hx : c.get? p = some x)
    (hy : c.get? q = some y) (hd : declaredIn lines = []) (hu : ∀ z ∈ lines.flatMap uses, z = x ∨
    z = y ∨ isNodeVariable z = false) :
    HandsOver c lines := by
  intro line hline
  refine ⟨flatMap_eq_nil_iff.1 hd line hline, fun z hz hn => ?_⟩
  rcases hu z (mem_flatMap.2 ⟨line, hline, hz⟩) with rfl | rfl | hz
  · exact ⟨p, hx⟩
  · exact ⟨q, hy⟩
  · simp [hz] at hn

theorem declaredIn_eq (h : HandsOver c lines) : declaredIn lines = [] :=
  flatMap_eq_nil_iff.2 fun line hline => (h line hline).1

/-- After code that declares the variables of the closure, the lines are in scope. -/
theorem inScope (h : HandsOver c lines) (hc : c.Within known) : Scoped known lines :=
  scoped_of_known fun line hline x hx hn =>
    let ⟨p, hp⟩ := (h line hline).2 x hx hn
    hc p x hp

theorem useful (h : HandsOver c lines) (on : Bool) (remark : String) :
    HandsOver c (ShaderScript.useful on remark lines) := by
  unfold ShaderScript.useful
  split
  · exact h
  · intro line hline
    rcases mem_cons.1 hline with rfl | hline
    · simp [declared, uses, reads]
    · obtain ⟨line', -, rfl⟩ := mem_map.1 hline
      simp [declared, uses, reads]

end HandsOver

namespace ShaderScript

variable {c : Closure}

theorem plainLines_handsOver : HandsOver c (plainLines c) := by
  intro line hline
  obtain ⟨p, hp, hl⟩ := mem_filterMap.1 hline
  obtain ⟨v, hv, rfl⟩ := Option.map_eq_some_iff.1 hl
  have hname : isNodeVariable (outputName p) = false := by
    cases p <;> decide +kernel
  refine ⟨rfl, fun x hx hn => ?_⟩
  rcases mem_cons.1 hx with rfl | hx
  · exact absurd hn (by simp [hname])
  · cases mem_singleton.1 hx
    exact ⟨p, hv⟩

theorem handsOver_of_get {p : SurfaceProperty} {on : Bool} {remark : String}
    {lines : String → List Line} (hd : ∀ v, declaredIn (lines v) = [])
    (hu : ∀ v, ∀ z ∈ (lines v).flatMap uses, z = v ∨ isNodeVariable z = false) :
    HandsOver c (match c.get? p with | none => [] | some v => useful on remark (lines v)) := by
  cases hv : c.get? p with
  | none => exact .nil
  | some v => exact (HandsOver.of_uses hv hv (hd v) fun z hz => .inr (hu v z hz)).useful on remark

theorem transmissionLines_handsOver : HandsOver c (transmissionLines flags c) :=
  handsOver_of_get (fun _ => rfl) (by simp [uses, isNodeVariable])

theorem orenNayarLines_handsOver : HandsOver c (orenNayarLines c) :=
  handsOver_of_get (fun _ => rfl) (by simp [uses, isNodeVariable])

theorem tangentLines_handsOver : HandsOver c (tangentLines flags c) :=
  handsOver_of_get (fun _ => rfl) (by simp [uses, isNodeVariable])

theorem anisotropyLines_handsOver : HandsOver c (anisotropyLines flags c) :=
  handsOver_of_get (fun _ => rfl) (by simp [uses, isNodeVariable])

/-- The second script has more lines than the first, which hand the closure over. -/
def HandsOn (c : Closure) (s s' : ShaderScript) : Prop :=
  ∃ lines, s'.fragment = s.fragment ++ lines ∧ HandsOver c lines

theorem HandsOn.of_eq {s s' : ShaderScript} (h : s'.fragment = s.fragment) : HandsOn c s s' :=
  ⟨[], by simp [h], .nil⟩

theorem HandsOn.addFragment {s s' : ShaderScript} (h : HandsOn c s s') (hl : HandsOver c lines) :
    HandsOn c s (s'.addFragment lines) := by
  obtain ⟨before, hb, hh⟩ := h
  exact ⟨before ++ lines, by simp [ShaderScript.addFragment, hb], hh.append hl⟩

theorem fragment_addBoundingBox : s.addBoundingBox.fragment = s.fragment := by
  unfold addBoundingBox
  split <;> rfl

theorem fragment_addFunction {name : String} : (s.addFunction name).fragment = s.fragment := by
  unfold addFunction
  split <;> rfl

theorem HandsOn.addTransparency {s s' : ShaderScript} (h : HandsOn c s s') :
    HandsOn c s (s'.addTransparency c) := by
  unfold ShaderScript.addTransparency
  split
  · next alpha _ halpha =>
    refine .addFragment ?_ (.of_uses halpha halpha rfl (by simp [uses, reads, isNodeVariable]))
    split
    · next ior _ hior =>
      refine .addFragment ?_ (.of_uses halpha hior rfl (by simp [uses, reads]))
      obtain ⟨lines, hlns, hh⟩ := h
      exact ⟨lines, (fragment_addFunction _).trans hlns, hh⟩
    · exact h.addFragment (.of_uses halpha halpha rfl (by simp [uses, reads]))
  · exact h

/-- The script ends with lines that hand the surface over, and begins with lines of its own. -/
theorem fragment_addOutput (c : Closure) :
    ∃ ending, (s.addOutput c).fragment = matrixLines s.flags ++ s.fragment ++ ending ∧
      HandsOver c ending := by
  have hlns (flags : ShadingFlags) : HandsOver c (plainLines c ++ transmissionLines flags c
      ++ orenNayarLines c ++ tangentLines flags c ++ anisotropyLines flags c) :=
    (((plainLines_handsOver.append (transmissionLines_handsOver flags)).append
      orenNayarLines_handsOver).append (tangentLines_handsOver flags)).append
      (anisotropyLines_handsOver flags)
  let start : ShaderScript := { s with fragment := matrixLines s.flags ++ s.fragment }
  exact ((HandsOn.of_eq (fragment_addBoundingBox start)).addFragment (hlns _)).addTransparency

/-- The lines that set the matrices use no variables. -/
theorem matrixLines_scoped {known : String → Prop} : Scoped known (matrixLines flags) := by
  unfold matrixLines
  split <;> split <;> simp [Scoped, uses, reads]

theorem isNodeVariable_of_matrixLines {flags : ShadingFlags} {x : String}
    (h : x ∈ declaredIn (matrixLines flags)) : isNodeVariable x = false := by
  have hx : x = invModelMat ∨ x = invViewMat := by
    unfold matrixLines at h
    split at h <;> split at h <;> simp [declared] at h <;> simp [h]
  rcases hx with rfl | rfl <;> decide

end ShaderScript

omit [Scalar α] in
theorem Compilation.surface?_ok {closure : Closure} (h : c.surface? t output = .ok (some closure)) :
    ∃ id : Nat, c.closures[id]? = some closure := by
  obtain ⟨n, -, h1⟩ := Outcome.bind_ok h
  obtain ⟨input, -, h2⟩ := Outcome.bind_ok h1
  split at h2
  · cases h2
  · obtain ⟨root, -, h3⟩ := Outcome.bind_ok h2
    split at h3
    · cases h3
    · obtain ⟨binding, -, h4⟩ := Outcome.bind_ok h3
      obtain ⟨id, -, h5⟩ := Outcome.bind_ok h4
      obtain ⟨closure', hclos, h6⟩ := Outcome.bind_ok h5
      cases h6
      exact ⟨id, need_ok hclos⟩

omit [Scalar α] in
theorem NodeTree.outputNode?_ok (h : t.outputNode? log = .ok (some output) log') :
    ∃ n, t.nodes[output]? = some n ∧ n.id = outputId := by
  obtain ⟨_, log1, -, h1⟩ := bind_ok h
  have hhead : t.outputNodes.head? = some output := (EStateM.Result.ok.inj h1).1
  have hid := (mem_filter.1 (mem_of_mem_head? hhead)).2
  simpa using hid

theorem NodeTree.compile_ok {script : ShaderScript}
    (h : t.compile version log = .ok (some script) log') :
    ∃ output c surface log1 log2, (∃ n, t.nodes[output]? = some n ∧ n.id = outputId) ∧
      t.compileNodes version output log1 = .ok c log2 ∧
      (∃ id : Nat, c.closures[id]? = some surface) ∧ script = c.script.addOutput surface := by
  obtain ⟨output?, log1, h1, h2⟩ := bind_ok h
  cases output? with
  | none => cases h2
  | some output =>
    obtain ⟨c, log2, h3, h4⟩ := bind_ok h2
    obtain ⟨surface?, log3, h5, h6⟩ := bind_ok h4
    cases surface? with
    | none => cases h6
    | some surface =>
      cases h6
      exact ⟨output, c, surface, log1, log2, outputNode?_ok h1, h3, Compilation.surface?_ok
        (Logged.lift_ok h5).1, rfl⟩

/-- **Variables are declared before they are used, as long as no reflection is lost.**  A variable
of a node that a line of the fragment function uses is declared in a line before it, if and only if
no node for texture coordinates has both its "Reflection" and its "Generated" linked. -/
theorem NodeTree.compile_declaredFirst_iff {script : ShaderScript} {log log' : Log}
    (h : t.compile version log = .ok (some script) log') :
    DeclaredFirst script.fragment ↔ ∀ position ∈ t.order, ¬ t.LosesReflection position := by
  obtain ⟨output, c, surface, log₁, log₂, ⟨n, hn, hid⟩, hc, ⟨id, hsurf⟩, rfl⟩ := compile_ok h
  obtain ⟨ending, hfrag, hendi⟩ := c.script.fragment_addOutput surface
  constructor
  · intro hfst position hposi hloses
    have hne : position ≠ output := by
      rintro rfl
      obtain ⟨n', _, _, hn', hid', -⟩ := hloses
      cases hn.symm.trans hn'
      simp [outputId, hid'] at hid
    obtain ⟨k, hmiss⟩ := compileNodes_misses hposi hne hloses log₁ trivial c log₂ hc
    obtain ⟨-, x, hx, hused, hnot⟩ := hmiss.missing.resolve_left not_mem_nil
    obtain ⟨line, hline, hxline⟩ := mem_flatMap.1 hused
    have hmem : line ∈ (c.script.addOutput surface).fragment := by
      simp [hfrag, hline]
    have hdecl := hfst.declared hmem hxline hx.isNodeVariable
    simp only [hfrag, declaredIn_append, hendi.declaredIn_eq, append_nil, mem_append] at hdecl
    rcases hdecl with hmatr | hdecl
    · exact absurd hx.isNodeVariable (by simp [ShaderScript.isNodeVariable_of_matrixLines hmatr])
    · exact hnot hdecl
  · intro hnone
    have hsound := compileNodes_sound output hnone log₁ trivial c log₂ hc
    rw [declaredFirst_iff_scoped, hfrag, scoped_append, scoped_append]
    refine ⟨⟨ShaderScript.matrixLines_scoped _, hsound.fragment.mono fun _ hx => .inl hx⟩, ?_⟩
    refine hendi.inScope ((hsound.store id surface hsurf).mono fun x hx => .inr ?_)
    simp [hx]

/-- A light that takes its colour from coordinates of its surface. -/
def litTree (links : List NodeLink) : NodeTree ℚ where
  name := "Lit"
  nodes :=
    #[{ id := "ShaderNodeTexCoord", name := "Coordinates", type := "", settings := [], image := none
        inputs := #[]
        outputs := #["Generated", "Normal", "UV", "Object", "Camera", "Window", "Reflection"].map
          fun name => ⟨name, .vector, .nothing, name⟩ },
      { id := "ShaderNodeEmission", name := "Light", type := "", settings := [], image := none
        inputs := #[⟨"Color", .rgba, .nothing, "Color"⟩, ⟨"Strength", .value, .real 1, "Strength"⟩]
        outputs := #[⟨"Emission", .shader, .nothing, "Emission"⟩] },
      { id := NodeTree.outputId, name := "Output", type := "", settings := [], image := none
        inputs := #[⟨"Surface", .shader, .nothing, "Surface"⟩]
        outputs := #[] }]
  links

/-- The colour is the reflection. -/
def mirrored : NodeTree ℚ :=
  litTree [⟨0, 6, 1, 0, true⟩, ⟨1, 0, 2, 0, true⟩]

/-- The colour is the reflection, and the strength comes from the bounding box. -/
def mirroredInBox : NodeTree ℚ :=
  litTree [⟨0, 6, 1, 0, true⟩, ⟨0, 0, 1, 1, true⟩, ⟨1, 0, 2, 0, true⟩]

/-- Whether a tree has a script. -/
def NodeTree.compiles (t : NodeTree α) : Bool :=
  match t.compile {} #[] with
  | .ok (some _) _ => true
  | _ => false

theorem NodeTree.compile_of_compiles (h : t.compiles = true) :
    ∃ script log, t.compile {} #[] = .ok (some script) log := by
  unfold compiles at h
  split at h
  · exact ⟨_, _, by assumption⟩
  · cases h

theorem compile_declaredFirst_iff_mirrored :
    (∃ script log, mirrored.compile {} #[] = .ok (some script) log ∧ DeclaredFirst script.fragment)
    ∧ ∃ script log, mirroredInBox.compile {} #[] = .ok (some script) log ∧
        ¬ DeclaredFirst script.fragment := by
  constructor
  · obtain ⟨script, log, h⟩ := mirrored.compile_of_compiles (by decide +kernel)
    exact ⟨script, log, h, (NodeTree.compile_declaredFirst_iff h).2 (by decide +kernel)⟩
  · obtain ⟨script, log, h⟩ := mirroredInBox.compile_of_compiles (by decide +kernel)
    have hloses : ¬ ∀ position ∈ mirroredInBox.order, ¬ mirroredInBox.LosesReflection position := by
      decide +kernel
    exact ⟨script, log, h, fun hd => hloses ((NodeTree.compile_declaredFirst_iff h).1 hd)⟩

end SceneExport
