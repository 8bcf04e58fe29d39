import SceneExport.Proofs.Shader.Coordinates
import SceneExport.Proofs.Shader.Surfaces

/-!
# The outputs of a node

After a rule has written the code of a node, the variables that its outputs are bound to are
declared, between the inputs and the code.  `declareOutputs_declared` says that these are exactly
the variables of the outputs that no input has.  With what is known of inputs and rules this gives
what holds of the whole draft of a node (`draftNode_drafted`).
-/

namespace SceneExport

open List

variable {α : Type} {e : Prepared α} {a : Account}

/-! ### Rules -/

/-- The rule loses the name of an output. -/
def NodeContext.Clashes (c : NodeContext α) (rule : NodeRule) : Prop :=
  rule = .textureCoordinate ∧ c.SharesReflection

variable {x : String} {known : String → Prop}

namespace Prepared

theorem write_written [Scalar α] (rule : NodeRule) :
    Leads (e.Written {}) (rule.write e.context) fun _ w => ∃ a, e.Written a w ∧
      (¬ e.context.Clashes rule → ∀ x ∈ a.made, a.Shown w x) ∧
      (e.context.Clashes rule → e.LosesReflection a w) := by
  by_cases hrule : rule = .textureCoordinate
  · subst hrule
    refine writeTextureCoordinate_written.post fun _ w => ?_
    rintro ⟨a, hw, hc, hl⟩
    refine ⟨a, hw, fun hn x hx => ?_, fun h => hl h.2⟩
    obtain ⟨i, hi⟩ := hc (fun hs => hn ⟨rfl, hs⟩) x hx
    exact ⟨i, _, hi, rfl⟩
  · have hsett : e.Settles {} (rule.write e.context) := by
      cases rule with
      | mapping => exact writeMapping_settled
      | imageTexture => exact writeImageTexture_settled
      | textureCoordinate => exact absurd rfl hrule
      | rgb => exact writeRgb_settled
      | mixRgb => exact writeMixRgb_settled
      | normalMap => exact writeNormalMap_settled
      | bump => exact writeBump_settled
      | reroute => exact writeReroute_settled
      | mixShader => exact writeMixShader_settled
      | addShader => exact writeAddShader_settled
      | tangent => exact writeTangent_settled
      | uvMap => exact writeUvMap_settled
      | value => exact writeValue_settled
      | geometry => exact writeGeometry_settled
      | hueSaturation => exact writeColorFunction_settled
      | invert => exact writeColorFunction_settled
      | surface => exact writeSurface_settled
      | general => exact writeGeneral_settled
      | unsupported => exact remarkUnsupported_settled
    refine hsett.post fun _ w ⟨a, hw, hc⟩ => ?_
    exact ⟨a, hw, fun _ => hc, fun h => absurd h.1 hrule⟩

/-! ### The variables of outputs -/

variable {found : List (String × Option String)} {w : Workspace} {w' : Workspace}

theorem outputVariables_ok {s : Socket α} {b : Binding} (h : outputVariables s b w = .ok found w') :
    w' = w ∧ (∀ type x, (type, some x) ∈ found → w.Shows x b) ∧
      ∀ x, w.Shows x b → (∃ type, (type, some x) ∈ found) ∨ ∃ type, (type, none) ∈ found := by
  rcases b with y | id <;> by_cases hs : s.type = .shader <;> simp only
    [outputVariables, hs, ↓reduceIte] at h
  · cases h
  · obtain ⟨type, -, h2⟩ := Drafting.lift_bind_ok h
    cases h2
    refine ⟨rfl, fun t x hx => ?_, fun x hx => .inl ⟨type, ?_⟩⟩
    · cases mem_singleton.1 hx
      rfl
    · cases (show y = x from hx)
      exact mem_singleton_self _
  · obtain ⟨c, w1, h1, h2⟩ := bind_ok h
    obtain ⟨w2, w3, h3, h4⟩ := bind_ok h1
    cases h3
    obtain ⟨hc, rfl⟩ := Drafting.lift_ok h4
    cases h2
    refine ⟨rfl, fun type x hx => ?_, fun x hx => .inl ?_⟩
    · obtain ⟨p, -, hp⟩ := mem_filterMap.1 hx
      obtain ⟨v, hv, he⟩ := Option.map_eq_some_iff.1 hp
      cases he
      exact ⟨c, p, need_ok hc, hv⟩
    · obtain ⟨c', p, hc', hp⟩ := hx
      cases (need_ok hc).symm.trans hc'
      exact ⟨p.type, mem_filterMap.2 ⟨p, mem_all p, by simp [hp]⟩⟩
  · obtain ⟨type, -, h2⟩ := Drafting.lift_bind_ok h
    cases h2
    refine ⟨rfl, fun t x hx => ?_, fun x _ => .inr ⟨type, mem_singleton_self _⟩⟩
    cases mem_singleton.1 hx

/-- The variables that were found are those that outputs are bound to, if all that was found are
variables. -/
def Found (a : Account) (found : List (String × Option String)) (w : Workspace) : Prop :=
  (∀ type x, (type, some x) ∈ found → a.Shown w x) ∧
    ∀ x, a.Shown w x → (∃ type, (type, some x) ∈ found) ∨ ∃ type, (type, none) ∈ found

theorem boundVariables_found (hw : e.Written a w) :
    Leads (· = w) (boundVariables e.context) fun found w' => w' = w ∧ Found a found w := by
  unfold boundVariables
  extract_lets nothing
  let I (rest : List (Socket α × Nat)) (found : List (String × Option String)) (w' : Workspace) :
    Prop :=
    w' = w ∧ (∀ type x, (type, some x) ∈ found → a.Shown w x) ∧
      ∀ i b x, a.bound i = some b → w.Shows x b → (∃ s, (s, i) ∈ rest) ∨
        (∃ type, (type, some x) ∈ found) ∨ ∃ type, (type, none) ∈ found
  refine .bind ((Leads.loop I (fun socket rest found => ?_) _ nothing).pre fun w' hw' => ?_)
    fun found => .pure fun w' hw' => ?_
  · obtain ⟨s, i⟩ := socket
    rintro w' ⟨rfl, hfnd, hbound⟩ r w'' h
    obtain ⟨w1, w2, h1, h2⟩ := bind_ok h
    cases h1
    rw [hw.outputs] at h2
    cases hi : a.bound i with
    | none =>
      rw [hi] at h2
      cases h2
      refine ⟨found, rfl, rfl, hfnd, fun j b x hj hx => (hbound j b x hj hx).imp_left ?_⟩
      rintro ⟨s', hs'⟩
      rcases mem_cons.1 hs' with he | hs'
      · cases he
        rw [hi] at hj
        cases hj
      · exact ⟨s', hs'⟩
    | some b =>
      rw [hi] at h2
      obtain ⟨given, w3, h3, h4⟩ := bind_ok h2
      obtain ⟨rfl, honly, hall⟩ := outputVariables_ok h3
      cases h4
      refine ⟨_, rfl, rfl, fun type x hx => ?_, fun j b' x hj hx => ?_⟩
      · rcases mem_append.1 hx with hx | hx
        · exact hfnd type x hx
        · exact ⟨i, b, hi, honly type x hx⟩
      · simp only [mem_append]
        rcases hbound j b' x hj hx with ⟨s', hs'⟩ | ⟨type, ht⟩ | ⟨type, ht⟩
        · rcases mem_cons.1 hs' with he | hs'
          · cases he
            cases hi.symm.trans hj
            rcases hall x hx with ⟨type, ht⟩ | ⟨type, ht⟩
            · exact .inr (.inl ⟨type, .inr ht⟩)
            · exact .inr (.inr ⟨type, .inr ht⟩)
          · exact .inl ⟨s', hs'⟩
        · exact .inr (.inl ⟨type, .inl ht⟩)
        · exact .inr (.inr ⟨type, .inl ht⟩)
  · refine ⟨hw', by simp [nothing], fun i b x hi _ => .inl ?_⟩
    have hlt := (hw.bound i b hi).1
    exact ⟨e.context.node.outputs[i], by simp [mk_mem_zipIdx_iff_getElem?]⟩
  · obtain ⟨rfl, hfnd, hbound⟩ := hw'
    refine ⟨rfl, hfnd, ?_⟩
    rintro x ⟨i, b, hi, hx⟩
    exact (hbound i b x hi hx).resolve_left (by simp)

/-! ### Declarations -/

theorem declareOutput_ok {type : String} {o : Option String} {u : Unit}
    (h : declareOutput type o w = .ok u w') : ∃ x, o = some x ∧ x ≠ "" ∧
      (x ∈ w.draft.defined ∧ w' = w ∨ w' = { w with draft := { w.draft with
        defined := x :: w.draft.defined
        outputLines := w.draft.outputLines ++ [.declare type x none] } }) := by
  unfold declareOutput at h
  cases o with
  | none => cases h
  | some x =>
    by_cases hid : Text.isIdentifier x = true
    · have hne : x ≠ "" := by
        rintro rfl
        exact absurd hid (by decide)
      simp only [hid, Bool.not_true, Bool.false_eq_true, ↓reduceIte] at h
      obtain ⟨w1, w2, h1, h2⟩ := bind_ok h
      cases h1
      cases hx : w.draft.defined.contains x with
      | true =>
        simp only [hx, Bool.not_true, Bool.false_eq_true, ↓reduceIte] at h2
        cases h2
        exact ⟨x, rfl, hne, .inl ⟨by simpa using hx, rfl⟩⟩
      | false =>
        simp only [hx, Bool.not_false, ↓reduceIte] at h2
        cases h2
        exact ⟨x, rfl, hne, .inr (by simp only [hx, Bool.false_eq_true, ↓reduceIte])⟩
    · simp only [hid, Bool.not_false, ↓reduceIte] at h
      cases h

/-- What is declared of the variables that were found, those in `rest` apart. -/
def Declaring (e : Prepared α) (found rest : List (String × Option String)) (w1 w : Workspace) :
    Prop :=
  ∃ defined lines, w = { w1 with draft := { w1.draft with defined, outputLines := lines } } ∧
    (∀ x ∈ defined, x ∈ e.start.inputNames ∨ x ∈ declaredIn lines) ∧
    (∀ line ∈ lines, line.uses = []) ∧
    (∀ x ∈ declaredIn lines, x ≠ "" ∧ ∃ type, (type, some x) ∈ found) ∧
    ∀ entry ∈ found, entry ∈ rest ∨
      ∃ x, entry.2 = some x ∧ (x ∈ e.start.inputNames ∨ x ∈ declaredIn lines)

theorem declareOutput_declaring {rest : List (String × Option String)} {w1 : Workspace}
    {entry : String × Option String} (hentry : entry ∈ found) :
    Leads (e.Declaring found (entry :: rest) w1) (declareOutput entry.1 entry.2)
      fun _ => e.Declaring found rest w1 := by
  rintro w ⟨defined, lines, rfl, hdef, hlns, hnms, hfnd⟩ u w' h
  obtain ⟨x, hx, hne, h | rfl⟩ := declareOutput_ok h
  · obtain ⟨hmem, rfl⟩ := h
    refine ⟨defined, lines, rfl, hdef, hlns, hnms, fun entry' he => ?_⟩
    rcases hfnd entry' he with hr | hr
    · rcases mem_cons.1 hr with rfl | hr
      · exact .inr ⟨x, hx, hdef x hmem⟩
      · exact .inl hr
    · exact .inr hr
  · have hmem : ∀ y, y ∈ declaredIn (lines ++ [.declare entry.1 x none]) ↔ y ∈ declaredIn lines ∨
      y = x := by
      simp [Line.declared]
    refine ⟨x :: defined, lines ++ [.declare entry.1 x none], rfl, ?_, ?_, ?_, ?_⟩
    · intro y hy
      rw [hmem]
      rcases mem_cons.1 hy with rfl | hy
      · exact .inr (.inr rfl)
      · exact (hdef y hy).imp_right .inl
    · intro line hline
      rcases mem_append.1 hline with hline | hline
      · exact hlns line hline
      · rw [mem_singleton.1 hline]
        rfl
    · intro y hy
      rcases (hmem y).1 hy with hy | rfl
      · exact hnms y hy
      · exact ⟨hne, entry.1, hx ▸ hentry⟩
    · intro entry' he
      rcases hfnd entry' he with hr | ⟨y, hy, hin⟩
      · rcases mem_cons.1 hr with rfl | hr
        · exact .inr ⟨x, hx, .inr ((hmem x).2 (.inr rfl))⟩
        · exact .inl hr
      · exact .inr ⟨y, hy, hin.imp_right fun h => (hmem y).2 (.inl h)⟩

/-- The draft of a node is complete: what was written is as in `w`, and exactly the variables that
outputs are bound to are declared, those of inputs apart. -/
structure Declared (e : Prepared α) (a : Account) (w w' : Workspace) : Prop where
  inputLines : w'.draft.inputLines = e.start.draft.inputLines
  code : w'.draft.code = w.draft.code
  closures : w'.closures = w.closures
  outBindings : w'.draft.outBindings = w.draft.outBindings
  outputLines : ∀ line ∈ w'.draft.outputLines, line.uses = []
  declared : ∀ x, a.Shown w x → x ∈ e.start.inputNames ∨ x ∈ declaredIn w'.draft.outputLines
  shown : ∀ x ∈ declaredIn w'.draft.outputLines, x ≠ "" ∧ a.Shown w x

theorem Declaring.start (hw : e.Written a w) (found : List (String × Option String)) :
    e.Declaring found found w w := by
  refine ⟨w.draft.defined, w.draft.outputLines, rfl, ?_, ?_, ?_, fun _ he => .inl he⟩
  · intro x hx
    rw [hw.defined] at hx
    exact .inl (e.entered.defined x hx)
  · simp [hw.outputLines, e.entered.outputLines, Line.uses, Line.reads]
  · simp [hw.outputLines, e.entered.outputLines, Line.declared]

theorem Written.own_of_shown (hw : e.Written a w) (hx : a.Shown w x) : e.Own a x := by
  obtain ⟨i, b, hi, hs⟩ := hx
  have hholds := (hw.bound i b hi).2
  rcases b with y | id
  · cases (show y = x from hs)
    exact hholds
  · obtain ⟨c, p, hc, hp⟩ := hs
    obtain ⟨c', hc', hwith⟩ := hholds
    cases hc.symm.trans hc'
    exact hwith p x hp

theorem Declaring.declared (hw : e.Written a w) (hf : Found a found w)
    (h : e.Declaring found [] w w') : e.Declared a w w' := by
  obtain ⟨defined, lines, rfl, -, huses, hnms, hall⟩ := h
  have hall' : ∀ entry ∈ found, ∃ x, entry.2 = some x ∧
      (x ∈ e.start.inputNames ∨ x ∈ declaredIn lines) := fun entry he =>
    (hall entry he).resolve_left (by simp)
  refine ⟨hw.inputLines, rfl, rfl, rfl, huses, fun x hx => ?_, fun x hx => ?_⟩
  · rcases hf.2 x hx with ⟨type, ht⟩ | ⟨type, ht⟩
    · obtain ⟨y, hy, hd⟩ := hall' _ ht
      cases hy
      exact hd
    · obtain ⟨y, hy, -⟩ := hall' _ ht
      cases hy
  · obtain ⟨hne, type, ht⟩ := hnms x hx
    exact ⟨hne, hf.1 type x ht⟩

theorem declareOutputs_declared (hw : e.Written a w) :
    Leads (· = w) (declareOutputs e.context) fun _ => e.Declared a w := by
  refine .bind (boundVariables_found hw) fun found => .of_fact fun hf => ?_
  let J (rest : List (String × Option String)) (w' : Workspace) : Prop :=
    rest ⊆ found ∧ e.Declaring found rest w w'
  refine Leads.mono (P := J found) (Q := fun _ => J []) ?_ (fun w' hw' => ?_) fun _ w' hw' =>
    hw'.2.declared hw hf
  · refine .bind (Leads.loop (fun rest _ => J rest) (fun entry rest _ => ?_) found _) fun _ =>
      .done
    rintro w1 ⟨hsub, hdecl⟩
    refine Leads.bind (declareOutput_declaring (hsub mem_cons_self))
      (fun _ => .pure fun w2 hw2 => ?_) w1 hdecl
    exact ⟨_, rfl, fun x hx => hsub (.tail _ hx), hw2⟩
  · rw [hw']
    exact ⟨List.Subset.refl _, Declaring.start hw found⟩

end Prepared

/-! ### The draft of a node -/

def Draft.lines (d : Draft) : List Line :=
  d.inputLines ++ d.outputLines ++ d.code

/-- What holds of the complete draft of the `k`-th node; `known` is what the nodes before it
declare. -/
structure Drafted (known : String → Prop) (k : Nat) (c : NodeContext α) (rule : NodeRule)
    (w : Workspace) : Prop where
  names : ∀ x ∈ declaredIn w.draft.lines, Names.IsOwn k x
  outputs : ∀ i x, w.draft.outBindings.lookup i = some (.variable x) → x ∈ declaredIn w.draft.lines
  lines : ¬ c.Clashes rule → Scoped known w.draft.lines
  store : ¬ c.Clashes rule → ∀ (id : Nat) c, w.closures[id]? = some c →
    c.Within fun x => known x ∨ x ∈ declaredIn w.draft.lines
  lost : c.Clashes rule → ∃ x, Names.IsOwn k x ∧ (∃ line ∈ w.draft.lines, x ∈ line.uses) ∧
    x ∉ declaredIn w.draft.lines

namespace Prepared

variable {w w' : Workspace}

theorem Written.isOwn_of_shown (hw : e.Written a w) (hne : x ≠ "") (hx : a.Shown w x) :
    Names.IsOwn e.number x := by
  rcases hw.own_of_shown hx with hin | hmade
  · exact (e.entered.names x hin).isOwn
  · exact (hw.made x hmade).resolve_right hne

namespace Declared

theorem mem_lines (hd : e.Declared a w w') : x ∈ declaredIn w'.draft.lines ↔
    x ∈ e.start.inputNames ∨ x ∈ declaredIn w'.draft.outputLines ∨ x ∈ declaredIn w.draft.code := by
  simp [Draft.lines, declaredIn_append, hd.inputLines, hd.code, Workspace.inputNames]

/-- What the code can use from outside is declared before it, if all names that were made belong to
outputs. -/
theorem of_given (hd : e.Declared a w w') (hmade : ∀ x ∈ a.made, a.Shown w x) (hx : e.Given a x) :
    e.known x ∨ x ∈ e.start.inputNames ∨ x ∈ declaredIn w'.draft.outputLines :=
  hx.imp_right fun hown => hown.elim .inl fun hm => hd.declared x (hmade x hm)

theorem scoped_lines (hd : e.Declared a w w') (hw : e.Written a w)
    (hmade : ∀ x ∈ a.made, a.Shown w x) : Scoped e.known w'.draft.lines := by
  rw [Draft.lines, scoped_append, scoped_append, hd.inputLines, hd.code]
  refine ⟨⟨e.entered.lines, scoped_of_known fun line hline x hx => ?_⟩, ?_⟩
  · rw [hd.outputLines line hline] at hx
    cases hx
  · refine hw.code.mono fun x hx => ?_
    simpa [Workspace.inputNames] using hd.of_given hmade hx

theorem drafted (hd : e.Declared a w w') (hw : e.Written a w) {rule : NodeRule}
    (hmade : ¬ e.context.Clashes rule → ∀ x ∈ a.made, a.Shown w x)
    (hlost : e.context.Clashes rule → e.LosesReflection a w) :
    Drafted e.known e.number e.context rule w' where
  names x hx := by
    rcases hd.mem_lines.1 hx with hx | hx | hx
    · exact (e.entered.names x hx).isOwn
    · exact hw.isOwn_of_shown (hd.shown x hx).1 (hd.shown x hx).2
    · exact (hw.names x hx).isOwn
  outputs i x hx := by
    rw [hd.outBindings, hw.outputs] at hx
    exact hd.mem_lines.2 ((hd.declared _ ⟨i, _, hx, rfl⟩).imp_right .inl)
  lines hc := hd.scoped_lines hw (hmade hc)
  store hc id c hid := by
    rw [hd.closures] at hid
    refine (hw.store id c hid).mono fun x hx => ?_
    exact (hd.of_given (hmade hc) hx).imp_right fun h => hd.mem_lines.2 (h.imp_right .inl)
  lost hc := by
    -- The name was made for an output, but no output is bound to it any more.
    obtain ⟨j, ⟨line, hline, hx⟩, hbound⟩ := hlost hc
    refine ⟨_, Names.isOwn_outputName _ j "Reflection", ⟨line, ?_, hx⟩, fun hin => ?_⟩
    · rw [Draft.lines, hd.code]
      exact mem_append_right _ hline
    · rcases hd.mem_lines.1 hin with hin | hin | hin
      · exact Names.not_isInputName_reflection _ j (e.entered.names _ hin)
      · obtain ⟨i, b, hi, hs⟩ := (hd.shown _ hin).2
        obtain ⟨y, rfl, hy⟩ := hbound i b hi
        exact hy hs
      · exact Names.not_isVariableName_outputName _ j (hw.names _ hin)

end Declared

end Prepared

theorem entered_empty {closures : Array Closure}
    (hc : ∀ (id : Nat) c, closures[id]? = some c → c.Within known) (k : Nat) (log : Log) :
    Entered known k [] { draft := { index := k }, closures, log } where
  index := rfl
  lines := scoped_of_known (by simp [Line.uses, Line.reads])
  names := by simp [Workspace.inputNames, Line.declared]
  store id c hid := (hc id c hid).mono fun x => .inl
  bound i b hb := by cases hb
  defined := by simp
  code := rfl
  outputLines := rfl
  outBindings := rfl

/-- **The draft of a node declares what it uses**, unless it is for texture coordinates and its
reflection is lost. -/
theorem draftNode_drafted [Scalar α] {c : NodeContext α} (hf : FinishedWithin c.finished known)
    (k : Nat) (rule : NodeRule) : Leads (Entered known k []) (draftNode c rule) fun _ w =>
    Drafted known k c rule w := by
  intro w hw u w' h
  obtain ⟨_, w1, h1, h2⟩ := bind_ok h
  obtain ⟨_, w2, h3, h4⟩ := bind_ok h2
  let e : Prepared α := ⟨known, k, c, w1, bindInputs_entered hf w hw _ w1 h1⟩
  obtain ⟨a, hwrtn, hmade, hlost⟩ := e.write_written rule w1 Prepared.written_start _ w2 h3
  have hd := Prepared.declareOutputs_declared hwrtn w2 rfl _ w' h4
  exact hd.drafted hwrtn hmade hlost

end SceneExport
