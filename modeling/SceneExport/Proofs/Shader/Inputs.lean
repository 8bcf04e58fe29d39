import SceneExport.Proofs.Step
import SceneExport.Proofs.Shader.Scope
import SceneExport.Shader.Compile

/-!
# The inputs of a node

The code of a node begins with a variable for each of its inputs, and for each property of a
surface that enters it.  `Entered` says what holds while they are declared: what a declaration
reads is known from the nodes before or was declared for an input before, and what the inputs are
bound to is declared.  `bindInputs_entered` is the result for all inputs of a node.

A surface that enters is renamed in place.  While that goes on, the closure holds old names and new
ones, and the inputs that it is bound to are `loose`.
-/

namespace SceneExport

open List

variable {α : Type} [Scalar α] {known : String → Prop} {k : Nat}

/-! ### Bindings and closures -/

theorem lookup_set {κ β : Type} [DecidableEq κ] (l : List (κ × β)) (i j : κ) (b : β) :
    ((i, b) :: l.filter (·.1 != i)).lookup j = if j = i then some b else l.lookup j := by
  by_cases h : j = i
  · simp [h]
  · have hj : (j == i) = false := beq_false_of_ne h
    simp only [lookup_cons, hj, if_neg h]
    induction l with
    | nil => rfl
    | cons e l ih =>
      obtain ⟨m, b'⟩ := e
      by_cases he : m = i
      · simpa [lookup_cons, he, hj] using ih
      · simp [lookup_cons, he, ih]

variable {c : Closure} {kind : String → Prop} {x : String} {w w' : Workspace} {b : Binding}
  {value : Expr} {id : Nat}

namespace Closure

/-- All variables of a closure are of one kind. -/
def Within (c : Closure) (kind : String → Prop) : Prop :=
  ∀ p x, c.get? p = some x → kind x

theorem get?_set (c : Closure) (p q : SurfaceProperty) (x : String) :
    (c.set p x).get? q = if q = p then some x else c.get? q :=
  lookup_set c p q x

theorem within_nil {kind : String → Prop} : Within [] kind :=
  fun _ _ h => by cases h

theorem Within.set (h : c.Within kind) (hx : kind x) (p : SurfaceProperty) : (c.set p x).Within
    kind := by
  intro q y hy
  rw [get?_set] at hy
  split at hy
  · cases hy
    exact hx
  · exact h q y hy

theorem Within.mono {kind' : String → Prop} (h : c.Within kind) (hk : ∀ x, kind x → kind' x) :
    c.Within kind' :=
  fun p x hx => hk x (h p x hx)

end Closure

/-- The variables that a binding stands for are of one kind. -/
def Workspace.Holds (w : Workspace) (kind : String → Prop) : Binding → Prop
  | .variable x => kind x
  | .closure id => ∃ c, w.closures[id]? = some c ∧ c.Within kind

theorem Workspace.Holds.mono {kind' : String → Prop} (h : w.Holds kind b)
    (hk : ∀ x, kind x → kind' x) : w.Holds kind' b := by
  rcases b with x | id
  · exact hk x h
  · obtain ⟨c, hc, h⟩ := h
    exact ⟨c, hc, h.mono hk⟩

theorem Workspace.Holds.of_closures (h : w.Holds kind b)
    (hc : ∀ id c, b = .closure id → w.closures[id]? = some c → w'.closures[id]? = some c) :
    w'.Holds kind b := by
  rcases b with x | id
  · exact h
  · obtain ⟨c, hid, h⟩ := h
    exact ⟨c, hc id c rfl hid, h⟩

theorem getElem?_push_of_some {closures : Array Closure} (h : closures[id]? = some c)
    (new : Closure) : (closures.push new)[id]? = some c := by
  obtain ⟨hid, -⟩ := Array.getElem?_eq_some_iff.1 h
  rw [Array.getElem?_push, if_neg (Nat.ne_of_lt hid), h]

/-! ### Inputs that were declared -/

/-- The variables that are declared for the inputs. -/
def Workspace.inputNames (w : Workspace) : List String :=
  declaredIn w.draft.inputLines

/-- The `k`-th node while its inputs are declared, and nothing else was done yet; `known` is what
the nodes before it declare. -/
structure Entered (known : String → Prop) (k : Nat) (loose : List Binding) (w : Workspace) :
    Prop where
  index : w.draft.index = k
  lines : Scoped known w.draft.inputLines
  names : ∀ x ∈ w.inputNames, Names.IsInputName k x
  store : ∀ (id : Nat) c, w.closures[id]? = some c → c.Within fun x => known x ∨ x ∈ w.inputNames
  bound : ∀ i b, w.draft.inBindings.lookup i = some b → b ∉ loose → w.Holds (· ∈ w.inputNames) b
  defined : ∀ x ∈ w.draft.defined, x ∈ w.inputNames
  code : w.draft.code = [.blank]
  outputLines : w.draft.outputLines = [.comment "output sockets definitions"]
  outBindings : w.draft.outBindings = []

namespace Entered

variable {loose : List Binding}

theorem loosen (h : Entered known k [] w) : Entered known k loose w :=
  { h with bound := fun i b hb _ => h.bound i b hb (by simp) }

theorem tighten (h : Entered known k [b] w) (hb : w.Holds (· ∈ w.inputNames) b) : Entered known k []
    w := by
  refine { h with bound := ?_ }
  intro i b' hi _
  by_cases he : b' = b
  · exact he ▸ hb
  · exact h.bound i b' hi (by simp [he])

/-- A property of a loose closure gets a variable that is declared. -/
theorem setProperty {id : Nat} (h : Entered known k [.closure id] w) (hx : x ∈ w.inputNames)
    (p : SurfaceProperty) :
    Entered known k [.closure id] { w with closures := w.closures.modify id (·.set p x) } := by
  refine { h with store := ?_, bound := ?_ }
  · intro m c hm
    rw [Array.getElem?_modify] at hm
    split at hm
    · obtain ⟨c', hc', rfl⟩ := Option.map_eq_some_iff.1 hm
      exact (h.store m c' hc').set (.inr hx) p
    · exact h.store m c hm
  · intro i b hb hl
    refine (h.bound i b hb hl).of_closures fun m c hbm hm => ?_
    have hne : id ≠ m := fun he => hl (by rw [hbm, he]; exact mem_singleton_self _)
    rw [Array.getElem?_modify, if_neg hne, hm]

variable (h : Entered known k loose w)

include h

theorem declare (hx : Names.IsInputName k x)
    (hv : ∀ y ∈ value.reads, known y ∨ y ∈ w.inputNames) (type : String) :
    Entered known k loose { w with draft := { w.draft with
      inputLines := w.draft.inputLines ++ [.declare type x (some value)] } } := by
  have hn : ∀ y, y ∈ declaredIn (w.draft.inputLines ++ [.declare type x (some value)]) ↔
    y ∈ w.inputNames ∨ y = x := by
    simp [Workspace.inputNames, Line.declared]
  refine { h with lines := ?_, names := ?_, store := ?_, bound := ?_, defined := ?_ }
  · exact scoped_append.2 ⟨h.lines, fun y hy _ => hv y hy, trivial⟩
  · intro y hy
    rcases (hn y).1 hy with hy | rfl
    · exact h.names y hy
    · exact hx
  · exact fun id c hc => (h.store id c hc).mono fun y hy => hy.imp_right fun hy =>
      (hn y).2 (.inl hy)
  · exact fun i b hb hl => (h.bound i b hb hl).mono fun y hy => (hn y).2 (.inl hy)
  · exact fun y hy => (hn y).2 (.inl (h.defined y hy))

/-- The numbers that were given out do not matter. -/
theorem count (n : Nat) : Entered known k loose { w with draft := { w.draft with inputs := n } } :=
  { h with }

theorem say (log : Log) : Entered known k loose { w with log } :=
  { h with }

theorem markDefined (hx : x ∈ w.inputNames) : Entered known k loose { w with draft := { w.draft with
      defined := if w.draft.defined.contains x then w.draft.defined else x :: w.draft.defined } } :=
      by
  refine { h with defined := ?_ }
  intro y hy
  split at hy
  · exact h.defined y hy
  · rcases mem_cons.1 hy with rfl | hy
    · exact hx
    · exact h.defined y hy

theorem bind (i : Nat) (hb : b ∉ loose → w.Holds (· ∈ w.inputNames) b) :
    Entered known k loose { w with draft := { w.draft with
      inBindings := (i, b) :: w.draft.inBindings.filter (·.1 != i) } } := by
  refine { h with bound := ?_ }
  intro j b' hj hl
  rw [lookup_set] at hj
  split at hj
  · cases hj
    exact hb hl
  · exact h.bound j b' hj hl

theorem newClosure (hc : c.Within (· ∈ w.inputNames)) :
    Entered known k loose { w with closures := w.closures.push c } := by
  refine { h with store := ?_, bound := ?_ }
  · intro id c' hid
    rw [Array.getElem?_push] at hid
    split at hid
    · cases hid
      exact hc.mono fun x hx => .inr hx
    · exact h.store id c' hid
  · exact fun i b hb hl => (h.bound i b hb hl).of_closures fun id c' _ hid =>
      getElem?_push_of_some hid c

/-- The name of an input is bound and marked before it is declared.  In the end the order makes no
difference. -/
theorem bindValue (hx : Names.IsInputName k x)
    (hv : ∀ y ∈ value.reads, known y) (i : Nat) (type : String) (log : Log) :
    Entered known k loose { w with
      draft := { w.draft with
        inputs := w.draft.inputs + 1
        inBindings := (i, .variable x) :: w.draft.inBindings.filter (·.1 != i)
        defined := if w.draft.defined.contains x then w.draft.defined else x :: w.draft.defined
        inputLines := w.draft.inputLines ++ [.declare type x (some value)] }
      log } := by
  have hdecl := (h.count (w.draft.inputs + 1)).declare hx (fun y hy => .inl (hv y hy)) type
  have hmem : x ∈ declaredIn (w.draft.inputLines ++ [.declare type x (some value)]) := by
    simp [Line.declared]
  exact ((hdecl.markDefined hmem).bind (b := .variable x) i fun _ => hmem).say log

end Entered

/-! ### Closures that are renamed -/

/-- The properties that are not in `rest` have new names. -/
def Renamed (id : Nat) (rest : List SurfaceProperty) (w : Workspace) : Prop :=
  ∃ c, w.closures[id]? = some c ∧ ∀ p, p ∉ rest → ∀ x, c.get? p = some x → x ∈ w.inputNames

/-- The property `p` of a closure is renamed from `source` to `x`. -/
def Workspace.rename (w : Workspace) (id : Nat) (p : SurfaceProperty) (x source : String) :
    Workspace :=
  { w with
    draft := { w.draft with
      inputs := w.draft.inputs + 1
      defined := if w.draft.defined.contains x then w.draft.defined else x :: w.draft.defined
      inputLines := w.draft.inputLines ++ [.declare p.type x (some (.var source))] }
    closures := w.closures.modify id (·.set p x) }

theorem Entered.rename {known : String → Prop} (h : Entered known k [.closure id] w) {a : Closure}
    (ha : w.closures[id]? = some a) {p : SurfaceProperty} {source : String}
    (hp : a.get? p = some source) {rest : List SurfaceProperty}
    (hr : ∀ q, q ∉ p :: rest → ∀ y, a.get? q = some y → y ∈ w.inputNames)
    (hx : Names.IsInputName k x) :
    Entered known k [.closure id] (w.rename id p x source) ∧
      Renamed id rest (w.rename id p x source) := by
  have hreads : ∀ y ∈ (Expr.var source).reads, known y ∨ y ∈ w.inputNames := by
    simpa using h.store id a ha p source hp
  have hdecl := (h.count (w.draft.inputs + 1)).declare hx hreads p.type
  have hnew : ∀ y, y ∈ (w.rename id p x source).inputNames ↔ y ∈ w.inputNames ∨ y = x := by
    simp [Workspace.inputNames, Workspace.rename, Line.declared]
  have hmem : x ∈ (w.rename id p x source).inputNames := (hnew x).2 (.inr rfl)
  refine ⟨(hdecl.markDefined hmem).setProperty hmem p, a.set p x, ?_, fun q hq y hy => ?_⟩
  · simp [Workspace.rename, Array.getElem?_modify, ha]
  · rw [Closure.get?_set] at hy
    split at hy
    · cases hy
      exact hmem
    · next hqp => exact (hnew y).2 (.inl (hr q (by simp [hqp, hq]) y hy))

/-! ### What the steps do -/

namespace Drafting

theorem lift_ok {β : Type} {x : Except Failure β} {b : β}
    (h : (liftM x : Drafting β) w = .ok b w') : x = .ok b ∧ w' = w := by
  cases x with
  | ok a => cases h; exact ⟨rfl, rfl⟩
  | error e => cases h

theorem lift_bind_ok {β γ : Type} {x : Except Failure β} {next : β → Drafting γ} {c : γ}
    (h : ((liftM x : Drafting β) >>= next) w = .ok c w') : ∃ b, x = .ok b ∧ next b w = .ok c w' :=
  look_ok (fun hb => (lift_ok hb).symm) h

def nextInput (d : Draft) (name : String) : String :=
  nodePart d ++ ("in" ++ toString d.inputs ++ "_") ++ Names.identifierPart name

/-- The name that a property of a surface input gets next. -/
def nextProperty (d : Draft) (name property : String) : String :=
  nodePart d ++ Names.identifierPart (name ++ "_" ++ ("in" ++ toString d.inputs ++ "_") ++ property)

variable {d : Draft} {target source : SocketType} {e : Expr}

theorem nodePart_eq (h : d.index = k) : nodePart d = Names.start k := by
  rw [nodePart, h]
  rfl

theorem shaderId_input (name property : String) (w : Workspace) : shaderId false name property w =
    .ok (nextProperty w.draft name property)
      { w with draft := { w.draft with inputs := w.draft.inputs + 1 } } :=
  rfl

theorem isInputName_nextInput (h : d.index = k) (name : String) : Names.IsInputName k
    (nextInput d name) := by
  refine .inl ⟨toString d.inputs ++ "_" ++ Names.identifierPart name, ?_⟩
  simp only [nextInput, nodePart_eq h, String.append_assoc]

theorem isInputName_nextProperty (h : d.index = k) (name : String) (p : SurfaceProperty) :
    Names.IsInputName k (nextProperty d name p.name) := by
  obtain ⟨z, hz⟩ := Names.identifierPart_property
    (name ++ "_" ++ ("in" ++ toString d.inputs ++ "_")) p
  refine .inr ⟨z, p, ?_⟩
  rw [nextProperty, nodePart_eq h, hz, String.append_assoc]

theorem reads_convertValue
    (h : convertValue target source value = some e) : ∀ x ∈ e.reads, x ∈ value.reads := by
  intro x hx
  unfold convertValue at h
  split at h
  · cases h
    exact hx
  · split at h
    all_goals first
      | (cases h; simpa using hx)
      | cases h

theorem reads_linkedValue {targetId sourceId : String}
    (h : linkedValue targetId target sourceId source = .ok e) : ∀ x ∈ e.reads, x = sourceId := by
  intro x hx
  unfold linkedValue at h
  split at h
  · next value hv =>
    cases h
    simpa using reads_convertValue hv x hx
  · cases h

end Drafting

/-! ### Values that enter -/

/-- The outputs of the nodes before are bound to variables that are known. -/
def FinishedWithin (finished : List (Nat × Finished)) (known : String → Prop) : Prop :=
  ∀ n f, finished.lookup n = some f → ∀ i x, f.outputs.lookup i = some (.variable x) → known x

section

variable {c : NodeContext α} {i : Nat} {s : Socket α}

omit [Scalar α] in
theorem NodeContext.source?_ok {link : NodeLink} {f : Finished} {source : Socket α}
    (h : c.source? i = .ok (some (link, f, source))) : c.finished.lookup link.fromNode =
    some f := by
  unfold NodeContext.source? at h
  split at h
  · cases h
  · obtain ⟨f', hf, h1⟩ := Outcome.bind_ok h
    obtain ⟨n, -, h2⟩ := Outcome.bind_ok h1
    obtain ⟨s, -, h3⟩ := Outcome.bind_ok h2
    cases h3
    exact need_ok hf

omit [Scalar α] in
theorem inputValue?_ok (hf : FinishedWithin c.finished known) {id : String} {v : Option Expr}
    (h : inputValue? c i s id w = .ok v w') :
    (∃ log, w' = { w with log }) ∧ ∀ e, v = some e → ∀ x ∈ e.reads, known x := by
  obtain ⟨source, hs, h2⟩ := Drafting.lift_bind_ok h
  rcases source with _ | ⟨link, f, source⟩
  · cases h2
    exact ⟨⟨_, rfl⟩, by simp⟩
  · dsimp only at h2
    split at h2
    · obtain ⟨b, hb, h4⟩ := Drafting.lift_bind_ok h2
      rcases b with x | m
      · obtain ⟨e, he, h6⟩ := Drafting.lift_bind_ok h4
        cases h6
        refine ⟨⟨_, rfl⟩, ?_⟩
        rintro _ ⟨⟩ y hy
        rw [Drafting.reads_linkedValue he y hy]
        exact hf _ _ (NodeContext.source?_ok hs) _ x (need_ok hb)
      · cases h4
    · obtain ⟨origin, -, h4⟩ := Drafting.lift_bind_ok h2
      obtain ⟨_, w3, h5, h6⟩ := bind_ok h4
      cases h5
      cases h6
      exact ⟨⟨_, rfl⟩, by simp⟩

theorem reads_defaultValue {e : Expr} (h : defaultValue s = .ok e) : e.reads = [] := by
  unfold defaultValue at h
  split at h
  · cases h; rfl
  · cases h; rfl
  · obtain ⟨code, -, h1⟩ := Outcome.bind_ok h
    cases h1
    rfl

theorem bindValueInput_entered (hf : FinishedWithin c.finished known) (i : Nat) (s : Socket α) :
    Leads (Entered known k []) (bindValueInput c i s) fun _ => Entered known k [] := by
  intro w hw _ w' h
  obtain ⟨type, -, h2⟩ := Drafting.lift_bind_ok h
  obtain ⟨x, w2, h3, h4⟩ := bind_ok h2
  cases h3
  obtain ⟨_, w3, h5, h6⟩ := bind_ok h4
  cases h5
  obtain ⟨_, w4, h7, h8⟩ := bind_ok h6
  cases h7
  obtain ⟨v, w5, h9, h10⟩ := bind_ok h8
  obtain ⟨⟨log, rfl⟩, hv⟩ := inputValue?_ok hf h9
  have hx := Drafting.isInputName_nextInput hw.index s.name
  cases v with
  | some value =>
    cases h10
    exact hw.bindValue hx (hv value rfl) i type log
  | none =>
    obtain ⟨value, hd, h12⟩ := Drafting.lift_bind_ok h10
    cases h12
    exact hw.bindValue hx (by simp [reads_defaultValue hd]) i type log

/-! ### Surfaces that enter -/

omit [Scalar α] in
theorem inputClosure?_ok {o : Option Nat} (h : inputClosure? c i w = .ok o w') : w' = w := by
  obtain ⟨source, -, h2⟩ := Drafting.lift_bind_ok h
  rcases source with _ | ⟨link, f, source⟩
  · cases h2
    rfl
  · dsimp only at h2
    split at h2
    · obtain ⟨b, -, h4⟩ := Drafting.lift_bind_ok h2
      rcases b with x | m
      · cases h4
      · cases h4
        rfl
    · cases h2
      rfl

theorem mem_all (p : SurfaceProperty) : p ∈ SurfaceProperty.all := by
  cases p <;> decide

/-- Before the first property it is not known whether there is the closure; the first step
finds out. -/
theorem renameProperty_entered (id : Nat) (name : String) (p : SurfaceProperty)
    (rest : List SurfaceProperty) :
    Leads (fun w => Entered known k [.closure id] w ∧
        (p :: rest = SurfaceProperty.all ∨ Renamed id (p :: rest) w))
      (renameProperty id name p)
      fun _ w => Entered known k [.closure id] w ∧ Renamed id rest w := by
  rintro w ⟨hw, hw'⟩ _ w' h
  obtain ⟨a, w1, h1, h2⟩ := bind_ok h
  obtain ⟨haa, rfl⟩ := Drafting.lift_ok h1
  have ha := need_ok haa
  have hr : ∀ q, q ∉ p :: rest → ∀ y, a.get? q = some y → y ∈ w1.inputNames := by
    intro q hq y hy
    rcases hw' with hall | ⟨b, hb, hr⟩
    · exact absurd (mem_all q) (hall ▸ hq)
    · cases ha.symm.trans hb
      exact hr q hq y hy
  cases hp : a.get? p with
  | none =>
    simp only [hp] at h2
    cases h2
    refine ⟨hw, a, ha, fun q hq x hx => ?_⟩
    by_cases hqp : q = p
    · rw [hqp, hp] at hx
      cases hx
    · exact hr q (by simp [hqp, hq]) x hx
  | some source =>
    simp only [hp] at h2
    have hw' : w' = w1.rename id p (Drafting.nextProperty w1.draft name p.name) source := by
      cases h2
      rfl
    subst hw'
    exact hw.rename ha hp hr (Drafting.isInputName_nextProperty hw.index name p)

omit [Scalar α] in
theorem bindSurfaceInput_entered (i : Nat) (s : Socket α) :
    Leads (Entered known k []) (bindSurfaceInput c i s) fun _ => Entered known k [] := by
  refine .bind (Q := fun _ => Entered known k []) ?_ fun o => ?_
  · intro w hw _ _ h
    rwa [inputClosure?_ok h]
  extract_lets rest
  have hrest : ∀ id, Leads (Entered known k []) (rest id) fun _ => Entered known k [] := by
    intro id
    refine .bind (.of_run (fun _ => rfl) (Q := fun _ => Entered known k [.closure id])
      fun w hw => hw.loosen.bind i (b := .closure id) ?_) fun _ => ?_
    · simp
    refine .bind ((Leads.loop (fun rest _ w => Entered known k [.closure id] w ∧
        (rest = SurfaceProperty.all ∨ Renamed id rest w)) (fun p rest _ => ?_) _ _).mono
        (fun w hw => ⟨hw, .inl rfl⟩) fun _ _ h => h) fun _ => .pure fun w hw => ?_
    · refine .bind (renameProperty_entered id s.name p rest) fun _ => .pure fun w hw => ?_
      exact ⟨_, rfl, hw.1, .inr hw.2⟩
    · obtain ⟨hw, h | ⟨a, ha, hr⟩⟩ := hw
      · cases h
      · exact hw.tighten ⟨a, ha, fun p x hx => hr p (by simp) x hx⟩
  cases o with
  | some id => exact hrest id
  | none =>
    refine .bind (.of_run (Drafting.shaderId_input _ _) (Q := fun x w =>
      Entered known k [] w ∧ Names.IsInputName k x) fun w hw => ?_) fun x => .of_fact fun hx => ?_
    · exact ⟨hw.count _, Drafting.isInputName_nextProperty hw.index s.name .albedo⟩
    refine .bind (.of_run (fun _ => rfl) (Q := fun _ w => Entered known k [] w ∧ x ∈ w.inputNames)
      fun w hw => ⟨hw.declare hx (by simp) "vec3", ?_⟩) fun _ => ?_
    · simp [Workspace.inputNames, Line.declared]
    exact .bind (.of_run (fun _ => rfl) (Q := fun _ => Entered known k []) fun w hw =>
      hw.1.newClosure (Closure.within_nil.set hw.2 .albedo)) hrest

/-! ### All inputs -/

theorem bindInputs_entered (hf : FinishedWithin c.finished known) :
    Leads (Entered known k []) (bindInputs c) fun _ => Entered known k [] := by
  refine .bind (.forIn (fun _ => Entered known k []) (fun e _ => ?_) _ _) fun _ => .done
  obtain ⟨s, i⟩ := e
  dsimp only
  split
  · exact .bind (bindSurfaceInput_entered i s) fun _ => .done
  · exact .bind (bindValueInput_entered hf i s) fun _ => .done

end

end SceneExport
