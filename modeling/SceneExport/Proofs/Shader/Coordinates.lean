import SceneExport.Proofs.Shader.Rules

/-!
# The rule for texture coordinates

A node for texture coordinates makes a name for each output that is linked.  The coordinates in the
bounding box, its output "Generated", also serve as the direction of the reflection: when
"Generated" is linked, the output "Reflection" is bound to the same name.  If "Reflection" is linked
as well (`NodeContext.SharesReflection`), then it had a name of its own.  The code gives that name a
value, and it is lost (`Prepared.LosesReflection`).  In all other cases the rule settles the code
(`writeTextureCoordinate_written`).
-/

namespace SceneExport

open List

variable {α : Type}

/-- Both the reflection and the coordinates in the bounding box are asked for. -/
def NodeContext.SharesReflection (c : NodeContext α) : Prop :=
  ∃ r g, c.node.outputNamed "Reflection" = .ok r ∧ c.node.outputNamed "Generated" = .ok g ∧
    c.tree.isOutputLinked c.position r = true ∧ c.tree.isOutputLinked c.position g = true

namespace Prepared

variable {e : Prepared α} {a : Account}

/-! ### Numbered outputs -/

variable (e) in
/-- Outputs are bound to names with different numbers, below `n`; those in `rest` are not bound
yet, and the others are if they are linked. -/
structure Numbered (rest : List Nat) (n : Nat) (a : Account) : Prop where
  nodup : rest.Nodup
  free : ∀ i ∈ rest, a.bound i = none
  covered : a.Covered
  linked : ∀ i b, a.bound i = some b → e.context.tree.isOutputLinked e.context.position i = true
  bound : ∀ i < e.context.node.outputs.size, i ∉ rest →
    e.context.tree.isOutputLinked e.context.position i = true → ∃ b, a.bound i = some b
  names : ∀ i b, a.bound i = some b → ∃ j < n, ∃ s, e.context.node.outputs[i]? = some s ∧
    Names.outputName e.number j s.name ∈ a.made ∧ b = .variable (Names.outputName e.number j s.name)
  distinct : ∀ i i' b, a.bound i = some b → a.bound i' = some b → i = i'

variable {x : String} {name : String}

namespace Numbered

variable {rest : List Nat} {i n : Nat}

theorem skip (h : e.Numbered (i :: rest) n a)
    (hi : ¬ e.context.tree.isOutputLinked e.context.position i = true) : e.Numbered rest n a where
  nodup := (nodup_cons.1 h.nodup).2
  free j hj := h.free j (.tail _ hj)
  covered := h.covered
  linked := h.linked
  bound j hj hr hl := h.bound j hj (by
    have hne : j ≠ i := fun he => hi (he ▸ hl)
    simp [hne, hr]) hl
  names := h.names
  distinct := h.distinct

theorem bindNew (h : e.Numbered (i :: rest) n a)
    (hi : e.context.tree.isOutputLinked e.context.position i = true) {s : Socket α}
    (hs : e.context.node.outputs[i]? = some s) (hx : x = Names.outputName e.number n s.name) :
    e.Numbered rest (n + 1) ((a.make x).bind i (.variable x)) := by
  obtain ⟨hir, hnd⟩ := nodup_cons.1 h.nodup
  have hnew : ∀ j, a.bound j ≠ some (.variable x) := by
    intro j hj
    obtain ⟨m, hm, s', -, -, he⟩ := h.names j _ hj
    rw [hx] at he
    have := Names.outputName_inj (Binding.variable.inj he)
    omega
  have hfree : a.bound i = none := h.free i mem_cons_self
  refine ⟨hnd, fun j hj => ?_, h.covered.bindNew hfree x, fun j b hj => ?_, fun j hj hr hl => ?_,
    fun j b hj => ?_, fun j j' b hj hj' => ?_⟩
  · have hne : j ≠ i := fun he => hir (he ▸ hj)
    rw [Account.bound_bind, if_neg hne]
    exact h.free j (.tail _ hj)
  · rw [Account.bound_bind] at hj
    split at hj
    · next hji => exact hji ▸ hi
    · exact h.linked j b hj
  · rw [Account.bound_bind]
    split
    · exact ⟨_, rfl⟩
    · next hji => exact h.bound j hj (by simp [hji, hr]) hl
  · rw [Account.bound_bind] at hj
    split at hj
    · next hji =>
      cases hj
      exact ⟨n, Nat.lt_succ_self n, s, hji ▸ hs, hx ▸ mem_cons_self, hx ▸ rfl⟩
    · obtain ⟨m, hm, s', hs', hmade, hb⟩ := h.names j b hj
      exact ⟨m, Nat.lt_succ_of_lt hm, s', hs', .tail _ hmade, hb⟩
  · rw [Account.bound_bind] at hj hj'
    split at hj <;> split at hj'
    · next hji hji' => exact hji.trans hji'.symm
    · cases hj
      exact absurd hj' (hnew j')
    · cases hj'
      exact absurd hj (hnew j)
    · exact h.distinct j j' b hj hj'

end Numbered

theorem bindNewOutput_numbered (i n : Nat) :
    Leads (fun w => e.Written a w ∧ w.draft.outputs = n) (bindNewOutput e.context i) fun x w =>
      (e.Written ((a.make x).bind i (.variable x)) w ∧ w.draft.outputs = n + 1) ∧
        ∃ s, e.context.node.outputs[i]? = some s ∧ x = Names.outputName e.number n s.name := by
  rintro w ⟨hw, rfl⟩ x w' h
  refine ⟨⟨bindNewOutput_written i w hw x w' h, ?_⟩, ?_⟩
  · obtain ⟨y, w1, h1, h2⟩ := bind_ok h
    obtain ⟨s, hs, rfl, rfl⟩ := nameOutput_ok h1
    cases h2
    rfl
  · obtain ⟨y, w1, h1, h2⟩ := bind_ok h
    obtain ⟨s, hs, rfl, rfl⟩ := nameOutput_ok h1
    cases h2
    refine ⟨s, hs, ?_⟩
    simp only [Names.outputName, Drafting.nodePart_eq hw.index, String.append_assoc]

/-! ### Lines that stay -/

/-- The step does not remove lines from the code. -/
def KeepsLines {β : Type} (step : Drafting β) : Prop :=
  ∀ line, Leads (fun w => line ∈ w.draft.code) step fun _ w => line ∈ w.draft.code

namespace KeepsLines

variable {β γ : Type}

theorem bind {step : Drafting β} {next : β → Drafting γ} (h : KeepsLines step)
    (hn : ∀ b, KeepsLines (next b)) : KeepsLines (step >>= next) :=
  fun line => .bind (h line) fun b => hn b line

theorem lift {x : Except Failure β} : KeepsLines (liftM x : Drafting β) :=
  fun _ => Leads.liftDrafting.post fun _ _ h => h.1

theorem change {f : Draft → Draft} (hf : ∀ d, d.code ⊆ (f d).code) :
    KeepsLines (Drafting.change f) :=
  fun _ => .of_run (fun _ => rfl) fun w hw => hf w.draft hw

theorem emit (line : Line) : KeepsLines (Drafting.emit line) := .change fun _ => subset_append_left
    ..

theorem call (function : String) (args : List Expr) : KeepsLines (Drafting.call function args) :=
  .bind (.change fun _ => List.Subset.refl _) fun _ => .emit _

theorem viewToModel (x : String) (isDirection : Bool) :
    KeepsLines (Drafting.viewToModel x isDirection) :=
  .bind (.change fun _ => List.Subset.refl _) fun _ => .call _ _

theorem outputBinding (i : Nat) : KeepsLines (Drafting.outputBinding i) :=
  .bind (fun _ => .of_run (fun _ => rfl) fun _ h => h) fun _ => .lift

end KeepsLines

/-! ### The rule -/

theorem writeLinked_written {write : String → Drafting Unit}
    (hw : ∀ x, (isNodeVariable x = true → e.Usable a x) → e.Writes a (write x)) :
    e.Writes a (writeLinked e.context name write) := by
  refine .skip fun i => ?_
  split
  · intro w hwr
    refine Leads.bind (outputBinding_written i) (fun b => .of_fact fun hb => hw b.name ?_) w hwr
    have hholds := (hwr.bound i b hb).2
    rcases b with x | id
    · exact fun _ => .inl (.inr hholds)
    · exact fun hv => absurd (show isNodeVariable "" = true from hv) (by decide)
  · exact .done

theorem writeLinked_uses {v : Expr} {rest : String → Drafting Unit}
    (hrest : ∀ x, KeepsLines (rest x)) :
    Leads (e.Written a) (writeLinked e.context name fun x => Drafting.assign x v >>= fun _ =>
    rest x) fun _ w => ∀ i x, e.context.node.outputNamed name = .ok i →
        e.context.tree.isOutputLinked e.context.position i = true → a.bound i = some (.variable x) →
        ∃ line ∈ w.draft.code, x ∈ line.uses := by
  refine .bind .liftDrafting fun i => .of_fact fun hi => ?_
  split
  · refine .bind (outputBinding_written i) fun b => .of_fact fun hb => ?_
    refine .bind (Q := fun _ w => .assign b.name v false ∈ w.draft.code)
      (.of_run (fun _ => rfl) fun w _ => by simp) fun _ => ?_
    refine (hrest b.name _).post fun _ w hline j x hj _ hx => ?_
    cases hi.symm.trans hj
    cases hb.symm.trans hx
    exact ⟨_, hline, by simp [Line.uses, Binding.name]⟩
  · next hl =>
    refine .pure fun w _ j x hj hlink _ => ?_
    cases hi.symm.trans hj
    exact absurd hlink hl

variable (e) in
/-- The code gives the name for the reflection a value, but no output is bound to it. -/
def LosesReflection (a : Account) (w : Workspace) : Prop :=
  ∃ j, (∃ line ∈ w.draft.code, Names.outputName e.number j "Reflection" ∈ line.uses) ∧
    ∀ i b, a.bound i = some b → ∃ y, b = .variable y ∧ y ≠ Names.outputName e.number j "Reflection"

variable (e) in
/-- If the reflection is asked for, then the code gives its name a value. -/
def ValuesReflection (a : Account) (w : Workspace) : Prop :=
  ∀ i x, e.context.node.outputNamed "Reflection" = .ok i →
    e.context.tree.isOutputLinked e.context.position i = true → a.bound i = some (.variable x) →
    ∃ line ∈ w.draft.code, x ∈ line.uses

theorem KeepsLines.valuesReflection {β : Type} {step : Drafting β} (h : KeepsLines step) :
    Leads (e.ValuesReflection a) step fun _ => e.ValuesReflection a := by
  intro w hw b w' hs i x hi hl hx
  obtain ⟨line, hline, hu⟩ := hw i x hi hl hx
  exact ⟨line, h line w hline b w' hs, hu⟩

section

variable {n r g : Nat} (hn : e.Numbered [] n a)
  (hr : e.context.node.outputNamed "Reflection" = .ok r)
  (hg : e.context.node.outputNamed "Generated" = .ok g)

include hn hr hg

/-- Without a name of its own, nothing of the reflection is lost. -/
theorem covered_rebound (hl : e.context.tree.isOutputLinked e.context.position g = true)
    (hs : ¬ e.context.SharesReflection) (x : String) : (a.bind r (.variable x)).Covered := by
  intro y hy
  obtain ⟨i, hi⟩ := hn.covered y hy
  have hne : i ≠ r := by
    rintro rfl
    exact hs ⟨i, g, hr, hg, hn.linked i _ hi, hl⟩
  exact ⟨i, by rw [Account.bound_bind, if_neg hne, hi]⟩

theorem losesReflection_rebound (hs : e.context.SharesReflection)
    (hx : a.bound g = some (.variable x)) {w : Workspace} (hv : e.ValuesReflection a w) :
    e.LosesReflection (a.bind r (.variable x)) w := by
  obtain ⟨r', g', hr', -, hlr, -⟩ := hs
  cases hr.symm.trans hr'
  obtain ⟨s, hrs, hname⟩ := outputNamed_ok hr
  obtain ⟨hlt, -⟩ := Array.getElem?_eq_some_iff.1 hrs
  obtain ⟨b, hb⟩ := hn.bound r hlt (by simp) hlr
  obtain ⟨j, -, s', hrs', -, rfl⟩ := hn.names r b hb
  cases hrs.symm.trans hrs'
  rw [hname] at hb
  refine ⟨j, hv r _ hr hlr hb, fun i b hi => ?_⟩
  rw [Account.bound_bind] at hi
  split at hi
  · -- The reflection itself is bound to the name of another output.
    cases hi
    refine ⟨x, rfl, fun he => ?_⟩
    rw [he] at hx
    exact outputNamed_ne hg hr (by decide) (hn.distinct g r _ hx hb)
  · next hne =>
    obtain ⟨m, -, s', -, -, rfl⟩ := hn.names i b hi
    refine ⟨_, rfl, fun he => ?_⟩
    rw [he] at hi
    exact hne (hn.distinct i r _ hi hb)

theorem rebindReflection_written (hl : e.context.tree.isOutputLinked e.context.position g = true)
    (hx : a.bound g = some (.variable x)) (hmade : x ∈ a.made) :
    Leads (fun w => e.Written a w ∧ e.ValuesReflection a w) (do
        Drafting.change fun d => { d with flags := { d.flags with boundingBox := true } }
        Drafting.assign x (.text boundingUvw)
        Drafting.bindOutput r (.variable x))
      fun _ w => ∃ a, e.Written a w ∧ (¬ e.context.SharesReflection → a.Covered) ∧
        (e.context.SharesReflection → e.LosesReflection a w) := by
  obtain ⟨s, hs, -⟩ := outputNamed_ok hr
  obtain ⟨hlt, -⟩ := Array.getElem?_eq_some_iff.1 hs
  refine (Leads.and ?_ ?_).post fun _ w h => ⟨a.bind r (.variable x), h.1,
    fun hs => covered_rebound hn hr hg hl hs x, fun hs => losesReflection_rebound hn hr hg hs hx
    h.2⟩
  · refine .bind (change_written fun _ => rfl) fun _ => ?_
    exact .bind (assign_written (fun _ => usable_of_made hmade) (by simp)) fun _ =>
      bindVariable_written hlt (.inr hmade)
  · refine KeepsLines.valuesReflection (.bind (.change fun _ => List.Subset.refl _) fun _ => ?_)
    exact .bind (.emit _) fun _ => .change fun _ => List.Subset.refl _

end

theorem writeTextureCoordinate_written : Leads (e.Written {}) (writeTextureCoordinate e.context)
    fun _ w =>
      ∃ a, e.Written a w ∧ (¬ e.context.SharesReflection → a.Covered) ∧
        (e.context.SharesReflection → e.LosesReflection a w) := by
  let I (rest : List Nat) (w : Workspace) : Prop :=
    ∃ a n, (e.Written a w ∧ w.draft.outputs = n) ∧ e.Numbered rest n a
  refine .bind ((Leads.loop (fun rest _ => I rest) (fun i rest _ => ?_) _ _).pre fun w hw => ?_)
    fun _ => .of_exists fun a => .of_exists fun n => .of_fact fun hn => ?_
  · refine .of_exists fun a => .of_exists fun n => .of_fact fun hn => ?_
    split
    · next hi =>
      refine .bind (bindNewOutput_numbered i n) fun x => .of_fact fun ⟨s, hs, hx⟩ => ?_
      exact .pure fun w hw => ⟨_, rfl, _, _, hw, hn.bindNew hi hs hx⟩
    · next hi => exact .pure fun w hw => ⟨_, rfl, a, n, hw, hn.skip hi⟩
  · refine ⟨{}, w.draft.outputs, ⟨hw, rfl⟩, nodup_range, by
      simp, .empty, by simp, ?_, by simp, by simp⟩
    intro i hi hr
    exact absurd (mem_range.2 hi) hr
  have hval : ∀ name s, e.Writes a (writeLinked e.context name fun x =>
      Drafting.assign x (.text s)) := fun name s =>
    writeLinked_written fun x hx => assign_written hx (by simp)
  have hplc : ∀ name s isDirection, e.Writes a (writeLinked e.context name fun x => do
      Drafting.assign x (.text s)
      Drafting.viewToModel x isDirection
      Drafting.yupToZup x) := fun name s isDirection =>
    writeLinked_written fun x hx => .bind (assign_written hx (by simp)) fun _ =>
      .bind (viewToModel_written hx isDirection) fun _ => yupToZup_written hx
  refine .mono (P := e.Written a) ?_ (fun _ h => h.1) fun _ _ h => h
  refine .bind (hval "UV" _) fun _ => .bind (hval "Window" _) fun _ => ?_
  refine .bind (hval "Camera" _) fun _ => .bind (hplc "Normal" _ _) fun _ => ?_
  refine .bind (hplc "Object" _ _) fun _ => ?_
  refine .bind (((hplc "Reflection" _ _).and (writeLinked_uses fun x =>
    .bind (.viewToModel x true) fun _ => .call _ _)).pre (fun _ h => ⟨h, h⟩)) fun _ => ?_
  refine .bind .liftDrafting fun r => .of_fact fun hr => ?_
  refine .bind .liftDrafting fun g => .of_fact fun hg => ?_
  split
  · next hl =>
    refine .bind (Q := fun b w => (e.Written a w ∧ e.ValuesReflection a w) ∧ a.bound g = some b)
      (((outputBinding_written g).and (KeepsLines.valuesReflection (.outputBinding g))).mono
        (fun _ h => h) fun b w h => ⟨⟨h.1.1, h.2⟩, h.1.2⟩) fun b => .of_fact fun hb => ?_
    obtain ⟨j, -, s, -, hmade, rfl⟩ := hn.names g b hb
    exact rebindReflection_written hn hr hg hl hb hmade
  · next hl =>
    refine .pure fun w hw => ⟨a, hw.1, fun _ => hn.covered, fun hs => ?_⟩
    obtain ⟨_, g', -, hg', -, hl'⟩ := hs
    cases hg.symm.trans hg'
    exact absurd hl' hl

end Prepared

end SceneExport
