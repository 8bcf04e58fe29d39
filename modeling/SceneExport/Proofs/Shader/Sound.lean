import SceneExport.Proofs.Shader.Complaint
import SceneExport.Proofs.Shader.Inputs

/-!
# Drafts that can go on

The code of a node is written step by step, and a step can fail if a socket is bound to what does
not suit it.  `Sound` says that this is not so: the inputs that were entered and the outputs that
are `given` are bound to identifiers or to closures of identifiers.  Most steps cannot fail and keep
all that `Sound` speaks of (`Harmless`).  What binds a socket or changes a closure has a rule of its
own.
-/

namespace SceneExport

open List

/-! ### Names of variables are identifiers -/

namespace Names

/-- A text that can follow in an identifier. -/
def IsTail (s : String) : Prop :=
  ∀ c ∈ s.toList, Text.continuesIdentifier c = true

instance (s : String) : Decidable (IsTail s) :=
  List.decidableBAll (fun c : Char => Text.continuesIdentifier c = true) s.toList

variable {s : String} {c : Char} {s' : String} {name : String}

theorem IsTail.append (h : IsTail s) (h' : IsTail s') : IsTail (s ++ s') := by
  intro c hc
  rw [String.toList_append] at hc
  exact (mem_append.1 hc).elim (h c) (h' c)

theorem IsPlain.append (h : IsPlain s) (h' : IsPlain s') : IsPlain (s ++ s') := by
  intro c hc
  rw [String.toList_append] at hc
  exact (mem_append.1 hc).elim (h c) (h' c)

theorem toNat_lt_of_isDigit (h : c.isDigit = true) : c.toNat < 128 := by
  simp only [Char.isDigit, Bool.and_eq_true, decide_eq_true_eq, UInt32.le_iff_toNat_le] at h
  exact Nat.lt_of_le_of_lt h.2 (by decide)

theorem isDigit_of_mem_toString {n : Nat} (h : c ∈ (toString n).toList) : c.isDigit = true :=
  Nat.isDigit_of_mem_toDigits (by decide) (by decide) (toList_toString n ▸ h)

theorem isPlain_toString (n : Nat) : IsPlain (toString n) :=
  fun _ hc => toNat_lt_of_isDigit (isDigit_of_mem_toString hc)

theorem isTail_toString (n : Nat) : IsTail (toString n) := by
  have hall : ∀ n < 128, (Char.ofNat n).isDigit = true →
      Text.continuesIdentifier (Char.ofNat n) = true := by decide +kernel
  intro c hc
  have hd := isDigit_of_mem_toString hc
  have hlow := hall c.toNat (toNat_lt_of_isDigit hd)
  rw [Char.ofNat_toNat] at hlow
  exact hlow hd

theorem lowerFrom_of_isPlain {cs : List Char} (h : ∀ c ∈ cs, c.toNat < 128) (before : List Char) :
    Text.lowerFrom before cs = cs.map Text.lowerChar := by
  induction cs generalizing before with
  | nil => rfl
  | cons c cs ih =>
    have hc := h c mem_cons_self
    have hdott : (c.toNat == 0x130) = false := beq_false_of_ne (by omega)
    have hsigma : (c.toNat == 0x3A3) = false := beq_false_of_ne (by omega)
    simp only [Text.lowerFrom, hdott, hsigma, Bool.false_eq_true, if_false, map_cons,
      singleton_append]
    rw [ih fun c hc => h c (mem_cons_of_mem _ hc)]

theorem has_lowerChar (h : c.toNat < 128) (hw : Text.isWord c = true) :
    Text.continuesIdentifier (Text.lowerChar c) = true := by
  have hall : ∀ n < 128, Text.isWord (Char.ofNat n) = true →
      Text.continuesIdentifier (Text.lowerChar (Char.ofNat n)) = true := by decide +kernel
  have hlow := hall c.toNat h
  rw [Char.ofNat_toNat] at hlow
  exact hlow hw

theorem isTail_identifierPart (h : IsPlain s) : IsTail (identifierPart s) := by
  intro c hc
  have hpln : ∀ c ∈ s.toList.filter fun c => !!Text.isWord c, c.toNat < 128 :=
    fun c hc => h c (mem_of_mem_filter hc)
  rw [identifierPart, Text.lower, Text.without, String.toList_ofList, String.toList_ofList,
    lowerFrom_of_isPlain hpln] at hc
  obtain ⟨c', hc', rfl⟩ := mem_map.1 hc
  exact has_lowerChar (hpln c' hc') (by simpa using (mem_filter.1 hc').2)

/-- What begins as the names of a node do is an identifier. -/
theorem isIdentifier_start {k : Nat} (h : IsTail s) : Text.isIdentifier (start k ++ s) = true := by
  have htail : IsTail ("ode" ++ toString k ++ "_" ++ s) :=
    (((show IsTail "ode" by decide +kernel).append (isTail_toString k)).append
      (show IsTail "_" by decide +kernel)).append h
  have hsplit : (start k ++ s).toList = 'n' :: ("ode" ++ toString k ++ "_" ++ s).toList := by
    simp [start]
  have hn : Text.beginsIdentifier 'n' = true := by decide +kernel
  rw [Text.isIdentifier, hsplit]
  exact Bool.and_eq_true_iff.2 ⟨hn, all_eq_true.2 htail⟩

end Names

namespace Drafting

variable {d : Draft} {k : Nat} {part : String}

theorem isIdentifier_socket (h : d.index = k) (hname : Names.IsPlain name)
    (hpart : Names.IsTail part) :
    Text.isIdentifier (nodePart d ++ part ++ Names.identifierPart name) = true := by
  rw [nodePart_eq h, String.append_assoc]
  exact Names.isIdentifier_start (hpart.append (Names.isTail_identifierPart hname))

theorem isIdentifier_property (h : d.index = k) (hname : Names.IsPlain name)
    (hpart : Names.IsPlain part) (p : SurfaceProperty) :
    Text.isIdentifier (nodePart d ++ Names.identifierPart (name ++ "_" ++ part ++ p.name)) =
    true := by
  have hp : Names.IsPlain p.name := by cases p <;> decide +kernel
  rw [nodePart_eq h]
  refine Names.isIdentifier_start (Names.isTail_identifierPart ?_)
  exact ((hname.append (by decide +kernel)).append hpart).append hp

end Drafting

variable {α β γ : Type}

/-- A binding that a socket of a type can have, when there are `stock` closures. -/
def Binding.Suits (stock : Nat) (type : SocketType) : Binding → Prop
  | .variable x => type ≠ .shader ∧ Text.isIdentifier x = true
  | .closure id => type = .shader ∧ id < stock

variable {b : Binding} {s : Socket α} {next : β → Drafting γ}

theorem Binding.Suits.mono {stock stock' : Nat} {type : SocketType} (h : b.Suits stock type)
    (hs : stock ≤ stock') : b.Suits stock' type := by
  rcases b with x | id
  · exact h
  · exact ⟨h.1, h.2.trans_le hs⟩

/-- All variables of a closure are identifiers. -/
abbrev Closure.IsNamed (c : Closure) : Prop :=
  c.Within fun x => Text.isIdentifier x = true

/-- The code of the node `n` can go on: `entered` inputs are bound and the outputs that are `given`.
There were `stock` closures before. -/
structure Sound (n : ShaderNode α) (stock entered : Nat) (given : List Nat) (w : Workspace) :
    Prop where
  index : ∃ k : Nat, w.draft.index = k
  stock : stock ≤ w.closures.size
  store : ∀ (id : Nat) c, w.closures[id]? = some c → c.IsNamed
  textures : ∀ x ∈ w.draft.textures, n.image = some x.image
  inputs : ∀ i s, i < entered → n.inputs[i]? = some s →
    ∃ b, w.draft.inBindings.lookup i = some b ∧ b.Suits w.closures.size s.type
  outputs : ∀ i b, w.draft.outBindings.lookup i = some b →
    ∃ s, n.outputs[i]? = some s ∧ b.Suits w.closures.size s.type
  given : ∀ i, (w.draft.outBindings.lookup i).isSome ↔ i ∈ given

/-- The parts of a workspace that `Sound` speaks of. -/
def Workspace.core (w : Workspace) :
    Int × List (Nat × Binding) × List (Nat × Binding) × List Texture × Array Closure :=
  (w.draft.index, w.draft.inBindings, w.draft.outBindings, w.draft.textures, w.closures)

/-- The step cannot fail and changes nothing that `Sound` speaks of. -/
def Harmless (step : Drafting β) : Prop :=
  ∀ w, ∃ b w', step w = .ok b w' ∧ w'.core = w.core

namespace Sound

variable {n : ShaderNode α} {stock entered : Nat} {given : List Nat} {w w' : Workspace}
  (h : Sound n stock entered given w)

include h

theorem of_core (hw : w'.core = w.core) : Sound n stock entered given w' := by
  simp only [Workspace.core, Prod.mk.injEq] at hw
  obtain ⟨hindex, hin, hout, htex, hclos⟩ := hw
  refine ⟨?_, ?_, ?_, ?_, ?_, ?_, ?_⟩
  · rw [hindex]; exact h.index
  · rw [hclos]; exact h.stock
  · rw [hclos]; exact h.store
  · rw [htex]; exact h.textures
  · rw [hin, hclos]; exact h.inputs
  · rw [hout, hclos]; exact h.outputs
  · rw [hout]; exact h.given

/-- Only the outputs that are given matter, not the order in which they are listed. -/
theorem congr {given' : List Nat} (hg : ∀ i, i ∈ given ↔ i ∈ given') : Sound n stock entered given'
    w :=
  { h with given := fun i => (h.given i).trans (hg i) }

theorem bindInput (hs : n.inputs[entered]? = some s) (hb : b.Suits w.closures.size s.type) :
    Sound n stock (entered + 1) given { w with draft := { w.draft with
      inBindings := (entered, b) :: w.draft.inBindings.filter (·.1 != entered) } } := by
  refine { h with inputs := fun i s' hi hs' => ?_ }
  rw [lookup_set]
  by_cases he : i = entered
  · subst he
    cases hs.symm.trans hs'
    exact ⟨b, by simp, hb⟩
  · rw [if_neg he]
    exact h.inputs i s' (by omega) hs'

theorem bindOutput {i : Nat} (hs : n.outputs[i]? = some s) (hb : b.Suits w.closures.size s.type) :
    Sound n stock entered (i :: given) { w with draft := { w.draft with
      outBindings := (i, b) :: w.draft.outBindings.filter (·.1 != i) } } := by
  refine { h with outputs := fun j b' hj => ?_, given := fun j => ?_ }
  · rw [lookup_set] at hj
    split at hj
    · next he =>
      cases hj
      exact ⟨s, he ▸ hs, hb⟩
    · exact h.outputs j b' hj
  · rw [lookup_set, mem_cons]
    by_cases he : j = i
    · simp [he]
    · simpa [he] using h.given j

theorem newClosure {c : Closure} (hc : c.IsNamed) :
    Sound n stock entered given { w with closures := w.closures.push c } := by
  have hsize : w.closures.size ≤ (w.closures.push c).size := by simp
  refine ⟨h.index, h.stock.trans hsize, fun id c' hid => ?_, h.textures, fun i s hi hs => ?_,
    fun i b hb => ?_, h.given⟩
  · rw [Array.getElem?_push] at hid
    split at hid
    · cases hid
      exact hc
    · exact h.store id c' hid
  · obtain ⟨b, hb, hsuits⟩ := h.inputs i s hi hs
    exact ⟨b, hb, hsuits.mono hsize⟩
  · obtain ⟨s, hs, hsuits⟩ := h.outputs i b hb
    exact ⟨s, hs, hsuits.mono hsize⟩

theorem setProperty {x : String} (hx : Text.isIdentifier x = true) (id : Nat)
    (p : SurfaceProperty) :
    Sound n stock entered given { w with closures := w.closures.modify id (·.set p x) } := by
  have hsize : (w.closures.modify id (·.set p x)).size = w.closures.size := Array.size_modify
  refine ⟨h.index, hsize ▸ h.stock, fun m c hm => ?_, h.textures, fun i s hi hs => ?_, fun i b hb =>
    ?_, h.given⟩
  · rw [Array.getElem?_modify] at hm
    split at hm
    · obtain ⟨c', hc', rfl⟩ := Option.map_eq_some_iff.1 hm
      exact (h.store m c' hc').set hx p
    · exact h.store m c hm
  · rw [hsize]
    exact h.inputs i s hi hs
  · rw [hsize]
    exact h.outputs i b hb

theorem addTexture {texture : Texture} (ht : n.image = some texture.image) :
    Sound n stock entered given { w with draft := { w.draft with
      textures := w.draft.textures ++ [texture] } } := by
  refine { h with textures := fun x hx => ?_ }
  rcases mem_append.1 hx with hx | hx
  · exact h.textures x hx
  · exact mem_singleton.1 hx ▸ ht

end Sound

/-! ### Steps that keep drafts sound -/

namespace Harmless

variable {step : Drafting β}

theorem decides (h : Harmless step) {n : ShaderNode α} {stock entered : Nat} {given : List Nat} :
    Decides none (Sound n stock entered given) step fun _ => Sound n stock entered given := by
  refine .of_ok fun w hw => ?_
  obtain ⟨b, w', hb, hcore⟩ := h w
  exact ⟨b, w', hb, hw.of_core hcore⟩

theorem pure {b : β} : Harmless (pure b) :=
  fun _ => ⟨_, _, rfl, rfl⟩

theorem bind (h : Harmless step) (hn : ∀ b, Harmless (next b)) : Harmless (step >>= next) := by
  intro w
  obtain ⟨b, w1, hb, hw1⟩ := h w
  obtain ⟨c, w2, hc, hw2⟩ := hn b w1
  exact ⟨c, w2, (bind_of_ok hb next).trans hc, hw2.trans hw1⟩

end Harmless

namespace Drafting

theorem change_harmless {f : Draft → Draft}
    (h : ∀ w : Workspace, Workspace.core { w with draft := f w.draft } = w.core) :
    Harmless (change f) :=
  fun w => ⟨_, _, rfl, h w⟩

theorem warn_harmless {text : String} : Harmless (warn text) :=
  fun _ => ⟨_, _, rfl, rfl⟩

theorem emit_harmless {line : Line} : Harmless (emit line) :=
  change_harmless fun _ => rfl

variable {function : String}

theorem call_harmless {args : List Expr} : Harmless (call function args) :=
  (change_harmless fun _ => rfl).bind fun _ => emit_harmless

variable (isOutput : Bool) (hint id : String) {isDirection : Bool}

theorem markDefined_harmless : Harmless (markDefined id) :=
  change_harmless fun _ => rfl

theorem declareInput_harmless (type id : String) (value : Expr) :
    Harmless (declareInput type id value) :=
  change_harmless fun _ => rfl

theorem zupToYup_harmless : Harmless (zupToYup id) :=
  call_harmless

theorem yupToZup_harmless : Harmless (yupToZup id) :=
  call_harmless

theorem worldToView_harmless : Harmless (worldToView id isDirection) :=
  call_harmless

theorem viewToModel_harmless : Harmless (viewToModel id isDirection) :=
  (change_harmless fun _ => rfl).bind fun _ => call_harmless

theorem viewToWorld_harmless : Harmless (viewToWorld id isDirection) :=
  (change_harmless fun _ => rfl).bind fun _ => call_harmless

theorem variableId_harmless : Harmless (variableId hint) :=
  fun _ => ⟨_, _, rfl, rfl⟩

theorem matrixOf_harmless {vector : Expr} : Harmless (matrixOf hint function vector) :=
  (variableId_harmless hint).bind fun _ => emit_harmless.bind fun _ =>
    call_harmless.bind fun _ => .pure

/-! ### Steps that need something of a draft -/

variable {n : ShaderNode α} {stock entered : Nat} {given : List Nat} {verdict : Option Failure}
  {P : Workspace → Prop} {R : γ → Workspace → Prop} {x : Except Failure β} {w : Workspace} {i : Nat}

/-- A look-up that finds something comes first. -/
theorem lift_decides {b : β} (hx : x = .ok b) (hn : Decides verdict P (next b) R) :
    Decides verdict P ((liftM x : Drafting β) >>= next) R := by
  subst hx
  exact hn

/-- A look-up that may fail is followed by a step that cannot. -/
theorem lift_decides_sure (hn : ∀ b, x = .ok b → Decides none P (next b) R) :
    Decides (Outcome.failure? x) P ((liftM x : Drafting β) >>= next) R := by
  cases x with
  | ok b => exact hn b rfl
  | error e => exact fun _ _ => .fails

theorem socketId_decides (hname : Names.IsPlain name) :
    Decides none (Sound n stock entered given) (socketId isOutput name)
      fun x w => Sound n stock entered given w ∧ Text.isIdentifier x = true := by
  refine .of_ok fun w hw => ?_
  obtain ⟨k, hk⟩ := hw.index
  have hnum : ∀ (part : String) (m : Nat), Names.IsTail part →
    Names.IsTail (part ++ toString m ++ "_") :=
    fun part m hpart => (hpart.append (Names.isTail_toString m)).append (by decide +kernel)
  cases isOutput with
  | true =>
    exact ⟨_, _, rfl, hw.of_core rfl, isIdentifier_socket hk hname
      (hnum "out" _ (by decide +kernel))⟩
  | false =>
    exact ⟨_, _, rfl, hw.of_core rfl, isIdentifier_socket hk hname
      (hnum "in" _ (by decide +kernel))⟩

theorem shaderId_decides (hname : Names.IsPlain name) (p : SurfaceProperty) :
    Decides none (Sound n stock entered given) (shaderId isOutput name p.name)
      fun x w => Sound n stock entered given w ∧ Text.isIdentifier x = true := by
  refine .of_ok fun w hw => ?_
  obtain ⟨k, hk⟩ := hw.index
  have hnum : ∀ (part : String) (m : Nat), Names.IsPlain part →
    Names.IsPlain (part ++ toString m ++ "_") :=
    fun part m hpart => (hpart.append (Names.isPlain_toString m)).append (by decide +kernel)
  cases isOutput with
  | true =>
    exact ⟨_, _, rfl, hw.of_core rfl, isIdentifier_property hk hname
      (hnum "out" _ (by decide +kernel)) p⟩
  | false =>
    exact ⟨_, _, rfl, hw.of_core rfl, isIdentifier_property hk hname
      (hnum "in" _ (by decide +kernel)) p⟩

theorem newClosure_decides {c : Closure} (hc : c.IsNamed) :
    Decides none (Sound n stock entered given) (newClosure c)
      fun id w => Sound n stock entered given w ∧ id < w.closures.size :=
  .of_ok fun w hw => ⟨_, _, rfl, hw.newClosure hc, by simp⟩

theorem setProperty_decides (id : Nat) (p : SurfaceProperty) {x : String}
    (hx : Text.isIdentifier x = true) :
    Decides none (Sound n stock entered given) (setProperty id p x)
      fun _ => Sound n stock entered given :=
  .of_ok fun _ hw => ⟨_, _, rfl, hw.setProperty hx id p⟩

theorem bindOutput_decides (hs : n.outputs[i]? = some s) :
    Decides none (fun w => Sound n stock entered given w ∧ b.Suits w.closures.size s.type)
      (bindOutput i b) fun _ => Sound n stock entered (i :: given) :=
  .of_ok fun _ hw => ⟨_, _, rfl, hw.1.bindOutput hs hw.2⟩

theorem inputBinding_ok (hw : Sound n stock entered given w) (hi : i < entered)
    (hs : n.inputs[i]? = some s) :
    ∃ b, inputBinding i w = .ok b w ∧ b.Suits w.closures.size s.type := by
  obtain ⟨b, hb, hsuits⟩ := hw.inputs i s hi hs
  refine ⟨b, ?_, hsuits⟩
  rw [inputBinding, get_bind, hb]
  rfl

/-- A closure of a sound draft is there and its variables are identifiers. -/
theorem closure_ok (hw : Sound n stock entered given w) {id : Nat}
    (hid : id < w.closures.size) : ∃ c, closure id w = .ok c w ∧ c.IsNamed := by
  have hc : w.closures[id]? = some w.closures[id] := Array.getElem?_eq_getElem hid
  refine ⟨w.closures[id], ?_, hw.store id _ hc⟩
  rw [closure, get_bind, hc]
  rfl

end Drafting

end SceneExport
