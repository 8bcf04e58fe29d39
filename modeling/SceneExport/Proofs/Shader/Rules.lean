import SceneExport.Proofs.Shader.Writing

/-!
# The rules for the kinds of node

Each rule settles the code of its node (`Prepared.Settled`): the code uses nothing but the inputs,
the nodes before, what it declares itself, and names that end up bound to the outputs of the node,
where they are declared.
-/

namespace SceneExport.Prepared

open List
open Account (bound_bind make)

variable {α : Type} {e : Prepared α} {a : Account}

/-! ### Changes of space -/

section

variable {x : String} (hx : isNodeVariable x = true → e.Usable a x) (isDirection : Bool)

include hx

theorem yupToZup_written : e.Writes a (Drafting.yupToZup x) := call_written (by simpa using hx)

theorem zupToYup_written : e.Writes a (Drafting.zupToYup x) := call_written (by simpa using hx)

theorem viewToModel_written : e.Writes a (Drafting.viewToModel x isDirection) :=
  .bind (change_written fun _ => rfl) fun _ => call_written (by simpa using hx)

theorem viewToWorld_written : e.Writes a (Drafting.viewToWorld x isDirection) :=
  .bind (change_written fun _ => rfl) fun _ => call_written (by simpa using hx)

theorem worldToView_written : e.Writes a (Drafting.worldToView x isDirection) :=
  call_written (by simpa using hx)

end

/-! ### Arguments -/

theorem inputArguments_written : Leads (e.Written a) (inputArguments e.context) fun args w =>
    e.Written a w ∧ ∀ v ∈ args, ∀ a, e.Reads a v :=
  .mapM_all (fun i => .bind (inputBinding_written i) fun _ => .pure fun _ h =>
    ⟨h.1, fun _ => reads_expr h.2⟩)

theorem namedArguments_written (names : List String) :
    Leads (e.Written a) (names.mapM fun name => do return (← inputNamed e.context name).expr)
      fun args w => e.Written a w ∧ ∀ v ∈ args, ∀ a, e.Reads a v :=
  .mapM_all (fun name => .bind (inputNamed_written name) fun _ => .pure fun _ h =>
    ⟨h.1, fun _ => reads_expr h.2⟩)

theorem outputArguments_written : Leads (e.Written {}) (outputArguments e.context) fun args w =>
    ∃ a, e.Written a w ∧ a.Covered ∧ ∀ v ∈ args, e.Reads a v := by
  let I (rest : List Nat) (args : List Expr) (w : Workspace) : Prop :=
    ∃ a, e.Written a w ∧ rest.Nodup ∧ (∀ i ∈ rest, a.bound i = none) ∧ a.Covered ∧ ∀ v ∈ args,
      ∃ x ∈ a.made, v = .var x
  refine ((Leads.mapM_loop I (fun i rest args => ?_) _ []).mono (fun w hw => ?_) fun args w hw =>
    ?_)
  · refine .of_exists fun a w ⟨hw, hn, hf, hc, ha⟩ => ?_
    refine Leads.bind (bindNewOutput_written i) (fun x => .pure fun w' hw' => ?_) w hw
    obtain ⟨hi, hn⟩ := nodup_cons.1 hn
    refine ⟨_, hw', hn, fun j hj => ?_, hc.bindNew (hf i mem_cons_self) x, fun v hv => ?_⟩
    · have hne : j ≠ i := fun he => hi (he ▸ hj)
      simpa [bound_bind, hne] using hf j (.tail _ hj)
    · rcases mem_append.1 hv with hv | hv
      · obtain ⟨y, hy, rfl⟩ := ha v hv
        exact ⟨y, .tail _ hy, rfl⟩
      · exact ⟨x, mem_cons_self, mem_singleton.1 hv⟩
  · exact ⟨{}, hw, nodup_range, by simp, .empty, by simp⟩
  · obtain ⟨a, hw, -, -, hc, ha⟩ := hw
    refine ⟨a, hw, hc, fun v hv => ?_⟩
    obtain ⟨x, hx, rfl⟩ := ha v hv
    exact (reads_of_var x).2 fun _ => usable_of_made hx

/-! ### Values -/

theorem writeColorFunction_settled {function : String} {args : List String} :
    e.Settles {} (writeColorFunction e.context function args) := by
  refine .bind (namedArguments_written args) fun inputs => .of_fact fun hi => ?_
  refine .skip fun i => ?_
  refine .bind (nameOutput_written i) fun x => .of_fact fun hx =>
    .bind (call_written fun v hv => ?_) fun _ => settled_of_written
      (bindVariable_written hx (.inr (by simp))) (.bindNew .empty rfl x)
  rcases mem_append.1 hv with hv | hv
  · exact hi v hv _
  · rw [mem_singleton.1 hv]
    simpa using fun _ => usable_of_made (e := e) (a := make {} x) (by simp)

/-- The name of an output that is bound at once. -/
theorem usable_bindNew (i : Nat) (x : String) : e.Usable ((a.make x).bind i (.variable x)) x :=
  usable_of_made (by simp)

theorem writeTangent_settled : e.Settles {} (writeTangent e.context) := by
  refine .skip fun direction => ?_
  extract_lets rest
  have hrest : ∀ u, e.Settles {} (rest u) := by
    intro u
    refine .bind (change_written fun _ => rfl) fun _ => .bind (bindNewOutput_written 0) fun x => ?_
    exact settled_of_written (assign_written (fun _ => usable_bindNew 0 x) (by simp))
      (.bindNew .empty rfl x)
  split
  · exact .bind (warn_written _) hrest
  · exact hrest ()

theorem writeUvMap_settled : e.Settles {} (writeUvMap e.context) := by
  refine .bind (change_written fun _ => rfl) fun _ => ?_
  refine .skip fun i => .bind (bindNewOutput_written i) fun x => ?_
  refine .bind (assign_written (fun _ => usable_bindNew i x) (by simp)) fun _ => ?_
  exact settled_of_written (warn_written _) (.bindNew .empty rfl x)

theorem writeGeometryValue_written {name value : String} {isDirection : Bool} :
    Leads (e.Written a) (writeGeometryValue e.context name value isDirection) fun _ w =>
      ∃ i x, e.Written ((a.make x).bind i (.variable x)) w ∧
        e.context.node.outputNamed name = .ok i := by
  refine .bind .liftDrafting fun i => .of_fact fun hi => .bind (bindNewOutput_written i) fun x => ?_
  have hx : isNodeVariable x = true → e.Usable ((a.make x).bind i (.variable x)) x := fun _ =>
    usable_bindNew i x
  refine .bind (assign_written hx (by simp)) fun _ => .bind (viewToWorld_written hx _) fun _ => ?_
  exact (yupToZup_written hx).post fun _ _ h => ⟨i, x, h, hi⟩

variable {n : ShaderNode α}

theorem outputNamed_ok {name : String} {i : Nat} (h : n.outputNamed name = .ok i) :
    ∃ s, n.outputs[i]? = some s ∧ s.name = name := by
  obtain ⟨hi, hname, -⟩ := Array.findIdx?_eq_some_iff_getElem.1 (need_ok h)
  exact ⟨n.outputs[i], Array.getElem?_eq_getElem hi, by simpa using hname⟩

theorem outputNamed_ne {name name' : String} {i j : Nat} (h : n.outputNamed name = .ok i)
    (h' : n.outputNamed name' = .ok j) (hne : name ≠ name') : i ≠ j := by
  rintro rfl
  obtain ⟨s, hs, rfl⟩ := outputNamed_ok h
  obtain ⟨s', hs', rfl⟩ := outputNamed_ok h'
  cases hs.symm.trans hs'
  exact hne rfl

theorem writeGeometry_settled : e.Settles {} (writeGeometry e.context) := by
  refine .bind writeGeometryValue_written fun _ => .of_exists fun i => .of_exists fun x =>
    .of_fact fun hi => ?_
  refine .bind writeGeometryValue_written fun _ => .of_exists fun j => .of_exists fun y =>
    .of_fact fun hj => ?_
  refine writeGeometryValue_written.post fun _ w => ?_
  rintro ⟨m, z, hw, hm⟩
  have hij : j ≠ i := outputNamed_ne hj hi (by decide)
  have him : m ≠ i := outputNamed_ne hm hi (by decide)
  have hjm : m ≠ j := outputNamed_ne hm hj (by decide)
  have hx := Account.Covered.empty.bindNew (i := i) rfl x
  have hy := hx.bindNew (i := j) (by simp [bound_bind, hij]) y
  exact hw.settled (hy.bindNew (by simp [bound_bind, hjm, him]) z)

theorem writeReroute_settled : e.Settles {} (writeReroute e.context) := by
  refine .skip fun _ => ?_
  refine .bind .liftDrafting fun s => .of_fact fun hs => ?_
  obtain ⟨hi, -⟩ := Array.getElem?_eq_some_iff.1 (need_ok hs)
  refine .bind (inputBinding_written 0) fun b => .of_fact fun hb => ?_
  refine settled_of_written ((bindOutput_written hi b).pre (fun w hw => ⟨hw, ?_⟩)) ?_
  · exact (hb.mono fun x hx => .inl hx).of_closures fun id c _ hid => hw.closures id c hid
  · simp [Account.Covered]

theorem remarkUnsupported_settled : e.Settles {} remarkUnsupported :=
  settled_of_written (comment_written _) .empty

variable [Scalar α] {input : Expr} {out : String} (kind : NodeSetting α)

theorem writeGeneral_settled : e.Settles {} (writeGeneral e.context) := by
  refine .skip fun f => ?_
  refine .bind inputArguments_written fun inputs => .of_fact fun hi => ?_
  refine .bind outputArguments_written fun outputs => .of_exists fun a => .of_fact fun ⟨hc, ho⟩ =>
    ?_
  refine settled_of_written (call_written fun v hv => ?_) hc
  rcases mem_append.1 hv with hv | hv
  · exact hi v hv a
  · exact ho v hv

theorem writeImageTexture_settled : e.Settles {} (writeImageTexture e.context) := by
  refine .skip fun f => ?_
  refine .bind (inputAt_written 0) fun coordinate => .of_fact fun hb => ?_
  extract_lets rest
  have hrest : ∀ u, e.Settles {} (rest u) := by
    intro u
    refine .skip fun use => ?_
    refine .skip fun image => ?_
    refine .bind (change_written fun _ => rfl) fun _ => ?_
    refine .bind outputArguments_written fun outputs => .of_exists fun a =>
      .of_fact fun ⟨hc, ho⟩ => ?_
    refine settled_of_written (call_written fun v hv => ?_) hc
    simp only [cons_append, nil_append, mem_cons] at hv
    rcases hv with rfl | rfl | hv
    · exact reads_expr hb
    · simp
    · exact ho v hv
  split
  · exact .bind (assign_written (usable_name hb) (by simp)) hrest
  · exact hrest ()

theorem writeRgb_settled : e.Settles {} (writeRgb e.context) := by
  refine .skip fun s => ?_
  refine .bind (nameOutput_written 0) fun x => .of_fact fun hi => ?_
  refine .skip fun code => ?_
  refine .bind (assign_written (fun _ => usable_of_made (by simp)) (by simp)) fun _ => ?_
  exact settled_of_written (bindVariable_written hi (.inr (by simp))) (.bindNew .empty rfl x)

theorem writeMixRgb_settled : e.Settles {} (writeMixRgb e.context) := by
  refine .bind (inputNamed_written _) fun factor => .of_fact fun hf => ?_
  refine .bind (inputNamed_written _) fun color1 => .of_fact fun h1 => ?_
  refine .bind (inputNamed_written _) fun color2 => .of_fact fun h2 => ?_
  refine .skip fun blend => ?_
  refine .bind (assign_written (usable_name hf) (by simp [reads_expr hf])) fun _ => ?_
  extract_lets rest note
  have hrest : ∀ function, e.Settles {} (rest function) := by
    intro function
    refine .skip fun i => ?_
    refine .bind (nameOutput_written i) fun x => .of_fact fun hi => ?_
    have hx : e.Usable (make {} x) x := usable_of_made (by simp)
    refine .bind (call_written ?_) fun _ => .skip fun clamp => ?_
    · simp [reads_expr hf, reads_expr h1, reads_expr h2, hx]
    extract_lets last
    have hlast : ∀ u, e.Settles (make {} x) (last u) := fun u =>
      settled_of_written (bindVariable_written hi (.inr (by simp))) (.bindNew .empty rfl x)
    split
    · exact .bind (assign_written (fun _ => hx) (by simp [hx])) hlast
    · exact hlast ()
  split
  · exact hrest _
  · refine .bind (warn_written _) fun _ => .bind (comment_written _) fun _ => hrest _

theorem writeValue_settled : e.Settles {} (writeValue e.context) := by
  refine .skip fun i => ?_
  refine .skip fun s => ?_
  refine .bind (nameOutput_own i) fun x => .of_fact fun ⟨hx, hi⟩ => ?_
  refine .skip fun code => ?_
  have hy : Names.IsOwn e.number (x ++ " = " ++ code) := (hx.append _).append _
  refine settled_of_written ((bindVariable_written hi (.inr mem_cons_self)).pre fun w hw => ?_)
    (.bindNew .empty rfl _)
  exact hw.make (.inl hy)

theorem writeNormalMap_settled : e.Settles {} (writeNormalMap e.context) := by
  refine .skip fun f => ?_
  refine .bind inputArguments_written fun args => .of_fact fun hargs => ?_
  refine .bind (bindNewOutput_written 0) fun x => .skip fun space => ?_
  have hx : isNodeVariable x = true → e.Usable ((make {} x).bind 0 (.variable x)) x :=
    fun _ => usable_bindNew 0 x
  have hc : ((make {} x).bind 0 (.variable x)).Covered := .bindNew .empty rfl x
  have hcall : ∀ texts : List String, e.Writes ((make {} x).bind 0 (.variable x))
    (Drafting.call f.name (args ++ (texts.map .text ++ [.var x]))) := by
    refine fun texts => call_written fun v hv => ?_
    simp only [mem_append, mem_map, mem_singleton] at hv
    rcases hv with hv | ⟨s, -, rfl⟩ | rfl
    · exact hargs v hv _
    · simp
    · simpa using hx
  split
  · refine .bind (hcall ["NORMAL", "TANGENT", "BINORMAL"]) fun _ => ?_
    exact .bind (viewToWorld_written hx true) fun _ => settled_of_written (yupToZup_written hx) hc
  split
  · refine .bind (change_written fun _ => rfl) fun _ => .bind (hcall ["NORMAL", invViewMat])
      fun _ => ?_
    exact settled_of_written (yupToZup_written hx) hc
  split
  · refine .bind (change_written fun _ => rfl) fun _ =>
      .bind (hcall ["NORMAL", invViewMat, "WORLD_MATRIX"]) fun _ => ?_
    exact settled_of_written (yupToZup_written hx) hc
  · exact .pure fun w hw => hw.settled hc

theorem writeBump_settled : e.Settles {} (writeBump e.context) := by
  refine .skip fun f => ?_
  extract_lets none
  let I (args : List Expr) (w : Workspace) : Prop := e.Written {} w ∧ ∀ v ∈ args, ∀ a, e.Reads a v
  refine .bind ((Leads.forIn I (fun input args => ?_) _ none).pre fun w hw => ⟨hw, by simp [none]⟩)
    fun args => .of_fact fun hargs => ?_
  · obtain ⟨s, i⟩ := input
    refine .of_fact fun hargs => .bind (inputBinding_written i) fun b => .of_fact fun hb => ?_
    have hname : isNodeVariable b.name = true → e.Usable {} b.name := usable_name hb
    have hnext : Leads (e.Written {}) (pure (ForInStep.yield (args ++ [b.expr]))) fun r =>
      I r.value := by
      refine .pure fun w hw => ⟨hw, fun v hv => ?_⟩
      rcases mem_append.1 hv with hv | hv
      · exact hargs v hv
      · exact mem_singleton.1 hv ▸ fun _ => reads_expr hb
    split
    · split
      · exact .bind (zupToYup_written hname) fun _ => .bind (worldToView_written hname true)
          fun _ =>
          hnext
      · exact hnext
    · exact .pure fun w hw => ⟨hw, hargs⟩
  · refine .skip fun invert => .bind (bindNewOutput_written 0) fun x => ?_
    have hx : isNodeVariable x = true → e.Usable ((make {} x).bind 0 (.variable x)) x :=
      fun _ => usable_bindNew 0 x
    refine .bind (call_written fun v hv => ?_) fun _ => .bind (viewToWorld_written hx true) fun _ =>
      settled_of_written (yupToZup_written hx) (.bindNew .empty rfl x)
    rcases mem_append.1 hv with hv | hv
    · exact hargs v hv _
    · simp only [mem_cons, not_mem_nil, or_false] at hv
      rcases hv with rfl | rfl | rfl
      · simp
      · exact reads_of_text _
      · simpa using hx

/-! ### Mappings -/

omit [Scalar α] in
theorem matrixOf_written {hint function : String} {v : Expr} (hv : ∀ a, e.Reads a v) :
    Leads (e.Written a) (Drafting.matrixOf hint function v) fun x => e.Written (a.declare x) := by
  refine .bind (variableId_written hint) fun x => .of_fact fun hx => ?_
  refine .bind (declare_written "mat4" hx (by simp)) fun _ => .bind (call_written ?_) fun _ =>
    .pure fun _ h => h
  simpa [hv] using fun _ => usable_of_vars (e := e) (a := a.declare x) (by simp)

theorem writeFixedMapping_written (hi : e.Reads a input)
    (ho : isNodeVariable out = true → e.Usable a out) :
    e.Writes a (writeFixedMapping e.context kind input out) := by
  refine .skip fun loc => .skip fun rot => .skip fun sca => .skip fun f => .skip fun matrix => ?_
  refine .skip fun _ => .skip fun low => .skip fun _ => .skip fun high => ?_
  refine .skip fun useLow => .skip fun useHigh => call_written ?_
  simpa [switch, hi] using ho

omit [Scalar α] in
theorem writeLinkedMapping_written (hi : ∀ a, e.Reads a input) (ho : out ∈ a.made) :
    Leads (e.Written a) (writeLinkedMapping e.context kind input out) fun _ w =>
      ∃ a', e.Written a' w ∧ a'.made = a.made := by
  refine .bind (inputAt_written 1) fun locVec => .of_fact fun hloc => ?_
  refine .bind (inputAt_written 2) fun rotVec => .of_fact fun hrot => ?_
  refine .bind (inputAt_written 3) fun scaVec => .of_fact fun hsca => ?_
  refine .bind (matrixOf_written fun _ => reads_expr hloc) fun loc => ?_
  refine .bind (matrixOf_written fun _ => reads_expr hrot) fun rot => ?_
  refine .bind (matrixOf_written fun _ => reads_expr hsca) fun sca => ?_
  refine .bind (variableId_written _) fun matrix => .of_fact fun hm => ?_
  extract_lets value
  have hl : e.Usable (((a.declare loc).declare rot).declare sca) loc := usable_of_vars (by simp)
  have hr : e.Usable (((a.declare loc).declare rot).declare sca) rot := usable_of_vars (by simp)
  have hs : e.Usable (((a.declare loc).declare rot).declare sca) sca := usable_of_vars (by simp)
  refine .bind (declare_written "mat4" hm ?_) fun _ => (emitAssign_written true ?_ ?_).mono
    (fun _ h => h) fun _ _ h => ⟨_, h, rfl⟩
  · rintro _ ⟨⟩
    unfold value
    split
    · simp [hl, hr, hs]
    split
    · simp [hl, hr, hs]
    split <;> simp [hr, hs]
  · exact fun _ => usable_of_made ho
  · simpa [hi] using fun _ => usable_of_vars (e := e) (by simp)

theorem writeMapping_settled : e.Settles {} (writeMapping e.context) := by
  refine .bind (inputAt_written 0) fun input => .of_fact fun hb => ?_
  refine .bind (nameOutput_written 0) fun x => .of_fact fun hi => ?_
  refine .skip fun kind => .bind (comment_written _) fun _ => ?_
  extract_lets rest
  have hrest : ∀ a u, a.made = [x] → e.Settles a (rest u) := by
    intro a u hmade
    have hx : e.Usable (a.bind 0 (.variable x)) x := usable_of_made (by simp [hmade])
    have hc : (a.bind 0 (.variable x)).Covered := by
      intro y hy
      simp only [Account.made_bind, hmade, mem_singleton] at hy
      exact ⟨0, by simp [bound_bind, hy]⟩
    refine .bind (bindVariable_written hi (.inr (by simp [hmade]))) fun _ => ?_
    split
    · exact .bind (comment_written _) fun _ =>
        settled_of_written (assign_written (fun _ => hx) (by simp [hx])) hc
    · exact .pure fun w hw => hw.settled hc
  have hx : e.Usable (make {} x) x := usable_of_made (by simp)
  split
  · exact .bind (writeFixedMapping_written kind (reads_expr hb) fun _ => hx) fun u =>
      hrest _ u rfl
  · exact .bind (writeLinkedMapping_written kind (fun _ => reads_expr hb) (by simp)) fun u =>
      .of_exists fun a => .of_fact fun hmade => hrest a u hmade

end SceneExport.Prepared
