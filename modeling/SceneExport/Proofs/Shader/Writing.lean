import SceneExport.Proofs.Shader.Inputs

/-!
# Writing the code of a node

Once the inputs of a node are declared (`Prepared`), a rule writes its code.  The code uses names
that the rule makes for outputs, which are declared only at the end.  An `Account` keeps the books
on that: the names that were `made`, the variables that the code declares itself (`vars`), what the
outputs are `bound` to, and the closure of the node's own surface, if it has
one.  `Prepared.Written` says that the draft agrees with an account, and that its code uses nothing
else than what the account or the inputs allow.

The lemmas of this file say for each step of a rule how it changes the account.  What remains to be
shown of a rule is that in the end the names that it made are bound to its outputs
(`Prepared.Settled`).
-/

namespace SceneExport

open List
open Drafting (lift_ok nodePart_eq emit inputBinding outputBinding bindOutput closure)

variable {α : Type} {P : Workspace → Prop} {w : Workspace} {i : Nat}

theorem Leads.liftDrafting {β : Type} {x : Except Failure β} :
    Leads P (liftM x : Drafting β) fun b w => P w ∧ x = .ok b := by
  intro w hP b w' h
  obtain ⟨hx, rfl⟩ := lift_ok h
  exact ⟨hP, hx⟩

/-- A look-up whose result does not matter. -/
theorem Leads.skip {β γ : Type} {R : γ → Workspace → Prop} {x : Except Failure β}
    {next : β → Drafting γ} (h : ∀ b, Leads P (next b) R) : Leads P (liftM x >>= next) R :=
  .bind .liftDrafting fun b => .of_fact fun _ => h b

/-- A node whose inputs are declared. -/
structure Prepared (α : Type) where
  known : String → Prop
  number : Nat
  context : NodeContext α
  start : Workspace
  entered : Entered known number [] start

/-- The books on the code of a node. -/
structure Account where
  made : List String := []
  vars : List String := []
  bound : Nat → Option Binding := fun _ => none
  surface : Option (Nat × Closure) := none

variable (name text : String) (value : Expr) (s x : String) (a : Account)

namespace Account

/-- A name is made for an output. -/
def make (a : Account) (x : String) : Account :=
  { a with made := x :: a.made }

/-- A variable is declared in the code. -/
def declare (a : Account) (x : String) : Account :=
  { a with vars := x :: a.vars }

/-- An output is bound. -/
def bind (a : Account) (i : Nat) (b : Binding) : Account :=
  { a with bound := fun j => if j = i then some b else a.bound j }

/-- A closure becomes the surface of the node. -/
def hold (a : Account) (id : Nat) (c : Closure) : Account :=
  { a with surface := some (id, c) }

@[simp] theorem made_make : (a.make x).made = x :: a.made := rfl
@[simp] theorem vars_make : (a.make x).vars = a.vars := rfl
@[simp] theorem bound_make : (a.make x).bound = a.bound := rfl
@[simp] theorem made_declare : (a.declare x).made = a.made := rfl
@[simp] theorem vars_declare : (a.declare x).vars = x :: a.vars := rfl
@[simp] theorem bound_declare : (a.declare x).bound = a.bound := rfl
@[simp] theorem made_bind (i : Nat) (b : Binding) : (a.bind i b).made = a.made := rfl
@[simp] theorem vars_bind (i : Nat) (b : Binding) : (a.bind i b).vars = a.vars := rfl

theorem bound_bind (i j : Nat) (b : Binding) :
    (a.bind i b).bound j = if j = i then some b else a.bound j := rfl

end Account

/-- The parts of a draft that its account is about. -/
def Draft.page (d : Draft) : Int × List Line × List Line × List Line × List String ×
    List (Nat × Binding) × List (Nat × Binding) :=
  (d.index, d.inputLines, d.outputLines, d.code, d.defined, d.inBindings, d.outBindings)

namespace Prepared

variable (e : Prepared α)

/-- The names that can be bound to outputs. -/
def Own (x : String) : Prop :=
  x ∈ e.start.inputNames ∨ x ∈ a.made

/-- The names that are declared before the code, in the end. -/
def Given (x : String) : Prop :=
  e.known x ∨ e.Own a x

/-- The names that the code can use. -/
def Usable (x : String) : Prop :=
  e.Given a x ∨ x ∈ a.vars

/-- The expression uses only what the code can use. -/
def Reads (value : Expr) : Prop :=
  ∀ x ∈ value.reads, isNodeVariable x = true → e.Usable a x

/-- The draft agrees with the account. -/
structure Written (w : Workspace) : Prop where
  index : w.draft.index = e.number
  inputLines : w.draft.inputLines = e.start.draft.inputLines
  outputLines : w.draft.outputLines = e.start.draft.outputLines
  inBindings : w.draft.inBindings = e.start.draft.inBindings
  defined : w.draft.defined = e.start.draft.defined
  closures : ∀ (id : Nat) c, e.start.closures[id]? = some c → w.closures[id]? = some c
  code : Scoped (e.Given a) w.draft.code
  vars : ∀ x ∈ a.vars, x ∈ declaredIn w.draft.code
  names : ∀ x ∈ declaredIn w.draft.code, Names.IsVariableName e.number x
  made : ∀ x ∈ a.made, Names.IsOwn e.number x ∨ x = ""
  store : ∀ (id : Nat) c, w.closures[id]? = some c → c.Within (e.Given a)
  outputs : ∀ i, w.draft.outBindings.lookup i = a.bound i
  bound : ∀ i b, a.bound i = some b → i < e.context.node.outputs.size ∧ w.Holds (e.Own a) b
  surface : ∀ id c, a.surface = some (id, c) →
    w.closures[id]? = some c ∧ e.start.closures[id]? = none

/-- After the step, the draft still agrees with the account. -/
abbrev Writes {β : Type} (step : Drafting β) : Prop :=
  Leads (e.Written a) step fun _ => e.Written a

variable {e a}

theorem written_start : e.Written {} e.start where
  index := e.entered.index
  inputLines := rfl
  outputLines := rfl
  inBindings := rfl
  defined := rfl
  closures _ _ h := h
  code := by
    rw [e.entered.code]
    exact scoped_of_known (by simp [Line.uses, Line.reads])
  vars := by simp
  names := by simp [e.entered.code, Line.declared]
  made := by simp
  store id c hc := (e.entered.store id c hc).mono fun x hx => hx.imp_right .inl
  outputs i := by rw [e.entered.outBindings]; rfl
  bound i b hb := by cases hb
  surface id c hc := by cases hc

/-! ### Expressions -/

@[simp] theorem reads_nil : e.Reads a [] := by
  simp [Reads]

@[simp] theorem reads_text (value : Expr) : e.Reads a (.text s :: value) ↔ e.Reads a value := by
  simp [Reads]

@[simp] theorem reads_sampler : e.Reads a (.sampler :: value) ↔ e.Reads a value := by
  simp [Reads]

@[simp] theorem reads_var (value : Expr) : e.Reads a (.var x :: value) ↔
    (isNodeVariable x = true → e.Usable a x) ∧ e.Reads a value := by
  simp [Reads]

@[simp] theorem reads_append (v1 v2 : Expr) : e.Reads a (v1 ++ v2) ↔ e.Reads a v1 ∧
    e.Reads a v2 := by
  simp only [Reads, Expr.reads_append, mem_append]
  exact ⟨fun h => ⟨fun x hx => h x (.inl hx), fun x hx => h x (.inr hx)⟩, fun h x hx =>
    hx.elim (h.1 x) (h.2 x)⟩

@[simp] theorem reads_of_text : e.Reads a (.text s) := by
  simp [Reads]

@[simp] theorem reads_of_var : e.Reads a (.var x) ↔ (isNodeVariable x = true → e.Usable a x) := by
  simp [Reads]

variable {x : String} {target : String} {w' : Workspace} {value : Expr} {b : Binding} {c : Closure}

theorem usable_of_made (h : x ∈ a.made) : e.Usable a x := .inl (.inr (.inr h))

theorem usable_of_vars (h : x ∈ a.vars) : e.Usable a x := .inr h

/-- What an input is bound to can be used. -/
theorem usable_name (h : e.start.Holds (· ∈ e.start.inputNames) b)
    (hv : isNodeVariable b.name = true) : e.Usable a b.name := by
  rcases b with x | id
  · exact .inl (.inr (.inl h))
  · exact absurd (show isNodeVariable "" = true from hv) (by decide)

theorem reads_expr (h : e.start.Holds (· ∈ e.start.inputNames) b) : e.Reads a b.expr := by
  rcases b with x | id
  · exact (reads_of_var x).2 fun hv => usable_name h hv
  · exact reads_nil

/-! ### Steps that the account does not see -/

theorem Written.congr (h : e.Written a w) (hd : w'.draft.page = w.draft.page)
    (hc : w'.closures = w.closures) : e.Written a w' := by
  simp only [Draft.page, Prod.mk.injEq] at hd
  obtain ⟨hi, hil, hol, hco, hdf, hib, hob⟩ := hd
  exact {
    index := hi.trans h.index
    inputLines := hil.trans h.inputLines
    outputLines := hol.trans h.outputLines
    inBindings := hib.trans h.inBindings
    defined := hdf.trans h.defined
    closures := hc ▸ h.closures
    code := hco ▸ h.code
    vars := hco ▸ h.vars
    names := hco ▸ h.names
    made := h.made
    store := hc ▸ h.store
    outputs := hob ▸ h.outputs
    bound := fun i b hb =>
      ⟨(h.bound i b hb).1, (h.bound i b hb).2.of_closures fun _ _ _ hid => hc ▸ hid⟩
    surface := hc ▸ h.surface }

theorem change_written {f : Draft → Draft} (hf : ∀ d, (f d).page = d.page) :
    e.Writes a (Drafting.change f) :=
  .of_run (fun _ => rfl) fun w hw => hw.congr (hf w.draft) rfl

theorem warn_written : e.Writes a (Drafting.warn text) := .of_run (fun _ => rfl) fun _ hw =>
    hw.congr rfl rfl

/-! ### Names -/

theorem Written.make (h : e.Written a w) (hx : Names.IsOwn e.number x ∨ x = "") :
    e.Written (a.make x) w := by
  have hown : ∀ y, e.Own a y → e.Own (a.make x) y := fun y hy => hy.imp_right (.tail _)
  have hgvn : ∀ y, e.Given a y → e.Given (a.make x) y := fun y hy => hy.imp_right (hown y)
  exact { h with
    code := h.code.mono hgvn
    made := by simpa using ⟨hx, h.made⟩
    store := fun id c hc => (h.store id c hc).mono hgvn
    bound := fun i b hb => ⟨(h.bound i b hb).1, (h.bound i b hb).2.mono hown⟩ }

theorem nameOutput_ok {c : NodeContext α} (h : nameOutput c i w = .ok x w') :
    ∃ s, c.node.outputs[i]? = some s ∧
      x = Drafting.nodePart w.draft ++ ("out" ++ toString w.draft.outputs ++ "_")
        ++ Names.identifierPart s.name ∧
      w' = { w with draft := { w.draft with outputs := w.draft.outputs + 1 } } := by
  obtain ⟨s, hs, h2⟩ := Drafting.lift_bind_ok h
  cases h2
  exact ⟨s, need_ok hs, rfl, rfl⟩

theorem nameOutput_own (i : Nat) : Leads (e.Written a) (nameOutput e.context i) fun x w =>
    e.Written a w ∧ Names.IsOwn e.number x ∧ i < e.context.node.outputs.size := by
  intro w hw x w' h
  obtain ⟨s, hs, rfl, rfl⟩ := nameOutput_ok h
  obtain ⟨hi, -⟩ := Array.getElem?_eq_some_iff.1 hs
  refine ⟨hw.congr rfl rfl, ?_, hi⟩
  rw [nodePart_eq hw.index, String.append_assoc]
  exact ⟨_, rfl⟩

theorem nameOutput_written (i : Nat) : Leads (e.Written a) (nameOutput e.context i) fun x w =>
    e.Written (a.make x) w ∧ i < e.context.node.outputs.size :=
  (nameOutput_own i).post fun _ _ h => ⟨h.1.make (.inl h.2.1), h.2.2⟩

theorem shaderId_written {property : String} :
    Leads (e.Written a) (Drafting.shaderId true name property) fun x w =>
      e.Written a w ∧ Names.IsOwn e.number x := by
  refine .of_run (fun _ => rfl) fun w hw => ⟨hw.congr rfl rfl, ?_⟩
  exact ⟨_, by rw [← nodePart_eq hw.index]; rfl⟩

theorem variableId_written (hint : String) : Leads (e.Written a) (Drafting.variableId hint)
    fun x w =>
      e.Written a w ∧ Names.IsVariableName e.number x := by
  refine .of_run (fun _ => rfl) fun w hw => ⟨hw.congr rfl rfl, ?_⟩
  refine ⟨toString w.draft.variableCount ++ "_" ++ Names.identifierPart hint, ?_⟩
  rw [← nodePart_eq hw.index]
  simp only [String.append_assoc]

/-! ### Lines -/

theorem Written.emit (h : e.Written a w) (line : Line)
    (hu : ∀ x ∈ line.uses, isNodeVariable x = true → e.Usable a x)
    (hd : ∀ x ∈ line.declared, Names.IsVariableName e.number x) :
    e.Written { a with vars := line.declared ++ a.vars }
      { w with draft := { w.draft with code := w.draft.code ++ [line] } } := by
  exact { h with
    code := by
      refine scoped_append.2 ⟨h.code, fun x hx hv => ?_, trivial⟩
      exact (hu x hx hv).imp_right (h.vars x)
    vars := by
      simp only [declaredIn_append, declaredIn_cons, declaredIn_nil, append_nil, mem_append]
      exact fun x hx => hx.symm.imp_left (h.vars x)
    names := by
      simp only [declaredIn_append, declaredIn_cons, declaredIn_nil, append_nil, mem_append]
      exact fun x hx => hx.elim (h.names x) (hd x) }

theorem emit_written {line : Line} (hu : ∀ x ∈ line.uses, isNodeVariable x = true → e.Usable a x)
    (hd : line.declared = []) : e.Writes a (emit line) := by
  refine .of_run (fun _ => rfl) fun w hw => ?_
  have := hw.emit line hu (by simp [hd])
  rwa [hd] at this

theorem declare_written (type : String) (hx : Names.IsVariableName e.number x) {value : Option Expr}
    (hv : ∀ v, value = some v → e.Reads a v) :
    Leads (e.Written a) (emit (.declare type x value)) fun _ => e.Written (a.declare x) := by
  refine .of_run (fun _ => rfl) fun w hw =>
    hw.emit (.declare type x value) ?_ (by simpa [Line.declared] using hx)
  cases value with
  | none => simp [Line.uses, Line.reads]
  | some v => exact hv v rfl

theorem emitAssign_written (closed : Bool) (ht : isNodeVariable target = true → e.Usable a target)
    (hv : e.Reads a value) : e.Writes a (emit (.assign target value closed)) := by
  refine emit_written (fun x hx => ?_) rfl
  rcases mem_cons.1 hx with rfl | hx
  · exact ht
  · exact hv x hx

theorem assign_written (ht : isNodeVariable target = true → e.Usable a target)
    (hv : e.Reads a value) :
    e.Writes a (Drafting.assign target value) :=
  emitAssign_written false ht hv

theorem comment_written : e.Writes a (emit (.comment text)) := emit_written (fun _ h => by cases h)
    rfl

theorem call_written {function : String} {args : List Expr} (h : ∀ v ∈ args, e.Reads a v) :
    e.Writes a (Drafting.call function args) := by
  refine .bind (change_written fun _ => rfl) fun _ => emit_written (fun x hx => ?_) rfl
  obtain ⟨v, hv, hx⟩ := mem_flatMap.1 hx
  exact h v hv x hx

/-! ### Bindings -/

theorem inputBinding_written (i : Nat) : Leads (e.Written a) (inputBinding i) fun b w =>
    e.Written a w ∧ e.start.Holds (· ∈ e.start.inputNames) b := by
  intro w hw b w' h
  rw [inputBinding, get_bind] at h
  obtain ⟨hb, rfl⟩ := lift_ok h
  rw [hw.inBindings] at hb
  exact ⟨hw, e.entered.bound i b (need_ok hb) (by simp)⟩

theorem inputAt_written (i : Nat) : Leads (e.Written a) (inputAt e.context i) fun b w =>
    e.Written a w ∧ e.start.Holds (· ∈ e.start.inputNames) b :=
  .skip fun _ => inputBinding_written i

theorem inputNamed_written : Leads (e.Written a) (inputNamed e.context name) fun b w =>
      e.Written a w ∧ e.start.Holds (· ∈ e.start.inputNames) b :=
  .skip fun i => inputBinding_written i

theorem outputBinding_written (i : Nat) : Leads (e.Written a) (outputBinding i) fun b w =>
    e.Written a w ∧ a.bound i = some b := by
  intro w hw b w' h
  rw [outputBinding, get_bind] at h
  obtain ⟨hb, rfl⟩ := lift_ok h
  exact ⟨hw, hw.outputs i ▸ need_ok hb⟩

theorem bindOutput_written (hi : i < e.context.node.outputs.size) (b : Binding) :
    Leads (fun w => e.Written a w ∧ w.Holds (e.Own a) b) (bindOutput i b)
      fun _ => e.Written (a.bind i b) := by
  refine .of_run (fun _ => rfl) fun w ⟨hw, hb⟩ => ?_
  exact { hw with
    outputs := fun j => by rw [lookup_set, hw.outputs, Account.bound_bind]
    bound := fun j b' hj => by
      rw [Account.bound_bind] at hj
      split at hj
      · next hji =>
        cases hj
        exact ⟨hji ▸ hi, hb⟩
      · exact hw.bound j b' hj }

theorem bindVariable_written (hi : i < e.context.node.outputs.size) (hx : e.Own a x) :
    Leads (e.Written a) (bindOutput i (.variable x)) fun _ => e.Written (a.bind i (.variable x)) :=
  (bindOutput_written hi (.variable x)).pre (fun _ hw => ⟨hw, hx⟩)

/-! ### Closures -/

theorem newClosure_written (hc : c.Within (e.Given a)) :
    Leads (e.Written a) (Drafting.newClosure c) fun id => e.Written (a.hold id c) := by
  refine .of_run (fun _ => rfl) fun w hw => ?_
  have hnew : e.start.closures[w.closures.size]? = none := by
    cases hs : e.start.closures[w.closures.size]? with
    | none => rfl
    | some c' =>
      obtain ⟨h, -⟩ := Array.getElem?_eq_some_iff.1 (hw.closures _ c' hs)
      exact absurd h (Nat.lt_irrefl _)
  exact { hw with
    closures := fun id c' h => getElem?_push_of_some (hw.closures id c' h) c
    store := fun id c' h => by
      rw [Array.getElem?_push] at h
      split at h
      · cases h
        exact hc
      · exact hw.store id c' h
    bound := fun i b hb => ⟨(hw.bound i b hb).1, (hw.bound i b hb).2.of_closures
      fun id c' _ h => getElem?_push_of_some h c⟩
    surface := by
      rintro _ _ ⟨⟩
      exact ⟨Array.getElem?_push_size, hnew⟩ }

theorem closure_written (id : Nat) : Leads (e.Written a) (closure id) fun c w =>
    e.Written a w ∧ w.closures[id]? = some c := by
  intro w hw c w' h
  rw [Drafting.closure, get_bind] at h
  obtain ⟨hc, rfl⟩ := lift_ok h
  exact ⟨hw, need_ok hc⟩

theorem setProperty_written {id : Nat} (hx : e.Own a x) (p : SurfaceProperty) :
    Leads (e.Written (a.hold id c)) (Drafting.setProperty id p x)
      fun _ => e.Written (a.hold id (c.set p x)) := by
  refine .of_run (fun _ => rfl) fun w h => ?_
  obtain ⟨hc, hnew⟩ := h.surface id c rfl
  exact { h with
    closures := fun m c' hm => by
      have hne : id ≠ m := fun he => by simp [← he, hnew] at hm
      rw [Array.getElem?_modify, if_neg hne, h.closures m c' hm]
    store := fun m c' hm => by
      rw [Array.getElem?_modify] at hm
      split at hm
      · obtain ⟨d, hd, rfl⟩ := Option.map_eq_some_iff.1 hm
        exact (h.store m d hd).set (.inr hx) p
      · exact h.store m c' hm
    bound := fun i b hb => by
      obtain ⟨hi, hh⟩ := h.bound i b hb
      refine ⟨hi, ?_⟩
      rcases b with y | m
      · exact hh
      · obtain ⟨d, hm, hw⟩ := hh
        by_cases he : id = m
        · exact ⟨d.set p x, by simp [Array.getElem?_modify, he, hm], hw.set hx p⟩
        · exact ⟨d, by rw [Array.getElem?_modify, if_neg he, hm], hw⟩
    surface := by
      rintro _ _ ⟨⟩
      exact ⟨by simp [Array.getElem?_modify, hc], hnew⟩ }

end Prepared

/-! ### When a rule is done -/

/-- A binding stands for a variable. -/
def Workspace.Shows (w : Workspace) (x : String) : Binding → Prop
  | .variable y => y = x
  | .closure id => ∃ c p, w.closures[id]? = some c ∧ c.get? p = some x

/-- A variable is bound to an output. -/
def Account.Shown (a : Account) (w : Workspace) (x : String) : Prop :=
  ∃ i b, a.bound i = some b ∧ w.Shows x b

/-- All names that were made are bound to outputs, as they are. -/
def Account.Covered (a : Account) : Prop :=
  ∀ x ∈ a.made, ∃ i, a.bound i = some (.variable x)

theorem Account.Covered.empty : Account.Covered {} := by
  simp [Covered]

theorem Account.Covered.bindNew {a : Account} (h : a.Covered) (hi : a.bound i = none) (x : String) :
    ((a.make x).bind i (.variable x)).Covered := by
  intro y hy
  simp only [Account.made_bind, Account.made_make, mem_cons] at hy
  rcases hy with rfl | hy
  · exact ⟨i, by simp [Account.bound_bind]⟩
  · obtain ⟨j, hj⟩ := h y hy
    have hne : j ≠ i := fun he => by simp [he, hi] at hj
    exact ⟨j, by simp [Account.bound_bind, hne, hj]⟩

namespace Prepared

variable {e : Prepared α} {a : Account}

variable (e) in
/-- The code is written, and the names that were made for outputs are bound to them. -/
def Settled (w : Workspace) : Prop :=
  ∃ a, e.Written a w ∧ ∀ x ∈ a.made, a.Shown w x

variable (e) in
/-- The step settles the code. -/
abbrev Settles {β : Type} (a : Account) (step : Drafting β) : Prop :=
  Leads (e.Written a) step fun _ => e.Settled

theorem Written.settled (h : e.Written a w) (hc : a.Covered) : e.Settled w := by
  refine ⟨a, h, fun x hx => ?_⟩
  obtain ⟨i, hi⟩ := hc x hx
  exact ⟨i, _, hi, rfl⟩

theorem settled_of_written {β : Type} {step : Drafting β} (h : Leads P step fun _ => e.Written a)
    (hc : a.Covered) : Leads P step fun _ => e.Settled :=
  h.post fun _ _ h => h.settled hc

theorem bindNewOutput_written (i : Nat) : Leads (e.Written a) (bindNewOutput e.context i) fun x =>
      e.Written ((a.make x).bind i (.variable x)) := by
  refine .bind (nameOutput_written i) fun x => .of_fact fun hi => ?_
  exact .bind (bindVariable_written hi (.inr mem_cons_self)) fun _ => .pure fun _ h => h

end Prepared

end SceneExport
