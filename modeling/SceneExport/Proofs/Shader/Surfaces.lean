import SceneExport.Proofs.Shader.Rules

/-!
# The rules for surfaces

A surface is bound to a closure, which holds a name for each property.  The rules for surfaces fill
a closure property by property (`Prepared.Fills`): no property gets two names, so no name that the
code uses is lost.
-/

namespace SceneExport.Prepared

open List

variable {α : Type} {e : Prepared α} {a : Account} {rest : List SurfaceProperty}
  {p : SurfaceProperty} {c : Closure}

/-! ### Closures that are filled -/

variable (e) in
/-- A closure is filled with names for properties; those in `rest` have none yet. -/
structure Fills (a : Account) (c : Closure) (rest : List SurfaceProperty) : Prop where
  nodup : rest.Nodup
  free : ∀ p ∈ rest, c.get? p = none
  within : c.Within (e.Own a)
  covered : ∀ x ∈ a.made, ∃ p, c.get? p = some x

variable {x : String} {f : ShaderFunction} {id : Nat} {factor : Expr} {β : Type}

namespace Fills

theorem skip (h : e.Fills a c (p :: rest)) : e.Fills a c rest :=
  ⟨(nodup_cons.1 h.nodup).2, fun q hq => h.free q (.tail _ hq), h.within, h.covered⟩

theorem set (h : e.Fills a c (p :: rest)) (hx : x ∈ e.start.inputNames) : e.Fills a (c.set p x)
    rest := by
  obtain ⟨hp, hn⟩ := nodup_cons.1 h.nodup
  refine ⟨hn, fun q hq => ?_, h.within.set (.inl hx) p, fun y hy => ?_⟩
  · have hne : q ≠ p := fun he => hp (he ▸ hq)
    rw [Closure.get?_set, if_neg hne, h.free q (.tail _ hq)]
  · obtain ⟨q, hq⟩ := h.covered y hy
    have hne : q ≠ p := fun he => by simp [he, h.free p mem_cons_self] at hq
    exact ⟨q, by rw [Closure.get?_set, if_neg hne, hq]⟩

theorem make (h : e.Fills a c (p :: rest)) (x : String) : e.Fills (a.make x) (c.set p x) rest := by
  obtain ⟨hp, hn⟩ := nodup_cons.1 h.nodup
  have hown : c.Within (e.Own (a.make x)) := h.within.mono fun y hy => hy.imp_right (.tail _)
  refine ⟨hn, fun q hq => ?_, hown.set (.inr mem_cons_self) p, fun y hy => ?_⟩
  · have hne : q ≠ p := fun he => hp (he ▸ hq)
    rw [Closure.get?_set, if_neg hne, h.free q (.tail _ hq)]
  · rcases mem_cons.1 hy with rfl | hy
    · exact ⟨p, by simp [Closure.get?_set]⟩
    · obtain ⟨q, hq⟩ := h.covered y hy
      have hne : q ≠ p := fun he => by simp [he, h.free p mem_cons_self] at hq
      exact ⟨q, by rw [Closure.get?_set, if_neg hne, hq]⟩

end Fills

theorem mixClosures_written {output : String} {d : Closure} (hc : c.Within (· ∈ e.start.inputNames))
    (hd : d.Within (· ∈ e.start.inputNames)) (hf : ∀ a, e.Reads a factor) :
    Leads (e.Written {}) (Drafting.mixClosures output c d factor) fun mixed w =>
      ∃ a, e.Written a w ∧ e.Fills a mixed [] := by
  unfold Drafting.mixClosures
  extract_lets none
  let I (rest : List SurfaceProperty) (mixed : Closure) (w : Workspace) : Prop :=
    ∃ a, e.Written a w ∧ e.Fills a mixed rest
  refine .bind ((Leads.loop I (fun p rest mixed => ?_) _ none).pre (fun w hw => ?_)) fun _ =>
    .pure fun _ h => h
  · refine .of_exists fun a => .of_fact fun hfill => ?_
    refine .bind (shaderId_written _) fun x => .of_fact fun hx => ?_
    let next (r : ForInStep Closure) (w : Workspace) : Prop := ∃ m, r = .yield m ∧ I rest m w
    have hassi : ∀ {v : Expr}, e.Reads (a.make x) v → Leads (e.Written a)
        (Drafting.assign x v >>= fun _ => pure (.yield (mixed.set p x))) next := fun hv =>
      .mono (.bind (assign_written (fun _ => usable_of_made mem_cons_self) hv) fun _ =>
        .pure fun w hw => ⟨_, rfl, a.make x, hw, hfill.make x⟩)
        (fun w hw => hw.make (.inl hx)) fun _ _ h => h
    have hkeep : ∀ {y}, y ∈ e.start.inputNames → Leads (e.Written a) (pure (.yield (mixed.set p y)))
      next := fun hy =>
      .pure fun w hw => ⟨_, rfl, a, hw, hfill.set hy⟩
    have hinput : ∀ {y}, y ∈ e.start.inputNames → e.Usable (a.make x) y := fun hy =>
      .inl (.inr (.inl hy))
    cases hcp : c.get? p with
    | none =>
      cases hdp : d.get? p with
      | none => exact .pure fun w hw => ⟨_, rfl, a, hw, hfill.skip⟩
      | some y =>
        have hy := hd p y hdp
        dsimp only
        split
        · exact hassi (by simp [hf, hinput hy])
        · exact hkeep hy
    | some y =>
      have hy := hc p y hcp
      cases hdp : d.get? p with
      | none =>
        dsimp only
        split
        · exact hassi (by simp [hf, hinput hy])
        · exact hkeep hy
      | some z => exact hassi (by simp [hf, hinput hy, hinput (hd p z hdp)])
  · refine ⟨{}, hw, ?_, by simp [none, Closure.get?], Closure.within_nil, by simp⟩
    decide

/-! ### Mixed surfaces -/

theorem inputClosure_written {b : Binding} (hb : e.start.Holds (· ∈ e.start.inputNames) b)
    (hid : b.closure? = .ok id) : Leads (e.Written a) (Drafting.closure id) fun c w =>
      e.Written a w ∧ c.Within (· ∈ e.start.inputNames) := by
  rcases b with x | m
  · cases hid
  · cases hid
    obtain ⟨c, hc, hwith⟩ := hb
    refine (closure_written id).post fun c' w hw => ⟨hw.1, ?_⟩
    cases (hw.1.closures id c hc).symm.trans hw.2
    exact hwith

theorem Written.settled_of_fills {w : Workspace} {i id : Nat} (h : e.Written (a.hold id c) w)
    (hi : a.bound i = some (.closure id)) (hc : e.Fills a c rest) : e.Settled w := by
  refine ⟨_, h, fun x hx => ⟨i, .closure id, hi, ?_⟩⟩
  obtain ⟨p, hp⟩ := hc.covered x hx
  exact ⟨c, p, (h.surface id c rfl).1, hp⟩

theorem bindSurface_written {i : Nat} (hi : i < e.context.node.outputs.size)
    (hc : c.Within (e.Own a)) :
    Leads (e.Written (a.hold id c)) (Drafting.bindOutput i (.closure id))
      fun _ => e.Written ((a.bind i (.closure id)).hold id c) :=
  (bindOutput_written hi (.closure id)).mono (fun _ hw => ⟨hw, c, (hw.surface id c rfl).1, hc⟩)
    fun _ _ h => h

theorem writeMix_settled {b d : Binding} (hb : e.start.Holds (· ∈ e.start.inputNames) b)
    (hd : e.start.Holds (· ∈ e.start.inputNames) d) (hf : ∀ a, e.Reads a factor) :
    e.Settles {} (writeMix e.context b d factor) := by
  refine .bind .liftDrafting fun id => .of_fact fun hid => ?_
  refine .bind (inputClosure_written hb hid) fun c => .of_fact fun hc => ?_
  refine .bind .liftDrafting fun id' => .of_fact fun hid' => ?_
  refine .bind (inputClosure_written hd hid') fun c' => .of_fact fun hc' => ?_
  refine .bind .liftDrafting fun output => .of_fact fun ho => ?_
  obtain ⟨hi, -⟩ := Array.getElem?_eq_some_iff.1 (need_ok ho)
  refine .bind (mixClosures_written hc hc' hf) fun mixed => .of_exists fun a => .of_fact fun hm =>
    ?_
  refine .bind (newClosure_written (hm.within.mono fun _ h => .inr h)) fun new => ?_
  refine (bindSurface_written hi hm.within).post fun _ _ h => ?_
  exact h.settled_of_fills (i := 0) (by simp [Account.bound_bind])
    ⟨hm.nodup, hm.free, hm.within, hm.covered⟩

theorem writeAddShader_settled : e.Settles {} (writeAddShader e.context) := by
  refine .bind (inputAt_written 0) fun b => .of_fact fun hb => ?_
  refine .bind (inputAt_written 1) fun d => .of_fact fun hd => ?_
  exact writeMix_settled hb hd fun _ => reads_of_text _

theorem writeMixShader_settled : e.Settles {} (writeMixShader e.context) := by
  refine .bind (inputNamed_written _) fun factor => .of_fact fun hf => ?_
  refine .bind (inputAt_written 1) fun b => .of_fact fun hb => ?_
  refine .bind (inputAt_written 2) fun d => .of_fact fun hd => ?_
  exact writeMix_settled hb hd fun _ => reads_expr hf

/-! ### Surfaces of their own -/

theorem properties_math : ∀ f ∈ Library.math, f.properties = none := by
  have hasse : ∀ (r : Library.MathRule) (name value : String), (r.assemble name value).properties =
    none := by
    intro r name value
    unfold Library.MathRule.assemble
    dsimp only
    split <;> rfl
  intro f hf
  rcases mem_append.1 hf with hf | hf
  · obtain ⟨r, -, rfl⟩ := mem_map.1 hf
    exact hasse ..
  · obtain ⟨r, -, rfl⟩ := mem_map.1 hf
    exact hasse ..

theorem properties_others :
    ∀ f ∈ Library.surface ++ Library.color ++ Library.blend ++ Library.texture ++ Library.vectors ++
    Library.spaces, (f.properties.getD [] ++ [SurfaceProperty.normal, .tangent]).Nodup := by
  decide +kernel

/-- The functions of the library decide no property twice, and neither the normal nor the
tangent. -/
theorem properties_nodup (hf : f ∈ Library.all) :
    (f.properties.getD [] ++ [SurfaceProperty.normal, .tangent]).Nodup := by
  by_cases hmath : f ∈ Library.math
  · rw [properties_math f hmath]
    decide
  · refine properties_others f ?_
    simpa only [Library.all, mem_append, hmath, or_false] using hf

/-- The first output is bound to the surface of the node, whose closure is filled so far. -/
def Filling (e : Prepared α) (id : Nat) (rest : List SurfaceProperty) (w : Workspace) : Prop :=
  ∃ a c, e.Written (a.hold id c) w ∧ a.bound 0 = some (.closure id) ∧ e.Fills a c rest

theorem setProperty_filling (hx : Names.IsOwn e.number x ∨ x = "") :
    Leads (e.Filling id (p :: rest)) (Drafting.setProperty id p x) fun _ => e.Filling id rest := by
  refine .of_exists fun a => .of_exists fun c => .of_fact fun ⟨hb, hc⟩ => ?_
  exact ((setProperty_written (a := a.make x) (.inr mem_cons_self) p).mono
    (fun w hw => hw.make hx) fun _ w hw => ⟨a.make x, _, hw, hb, hc.make x⟩)

theorem setInput_filling (hx : x ∈ e.start.inputNames) : Leads (e.Filling id (p :: rest))
      (Drafting.setProperty id p x) fun _ => e.Filling id rest := by
  refine .of_exists fun a => .of_exists fun c => .of_fact fun ⟨hb, hc⟩ => ?_
  exact (setProperty_written (.inl hx) p).post fun _ w hw => ⟨a, _, hw, hb, hc.set hx⟩

/-- A step that keeps every account keeps a surface as it is filled. -/
theorem filling_of_written {step : Drafting β} (h : ∀ a, e.Writes a step) :
    Leads (e.Filling id rest) step fun _ => e.Filling id rest :=
  .of_exists fun a => .of_exists fun c => .of_fact fun hf =>
    (h (a.hold id c)).post fun _ _ hw => ⟨a, c, hw, hf⟩

theorem filling_of_fact {step : Drafting β} {q : β → Prop}
    (h : ∀ a, Leads (e.Written a) step fun b w => e.Written a w ∧ q b) :
    Leads (e.Filling id rest) step fun b w => e.Filling id rest w ∧ q b :=
  .of_exists fun a => .of_exists fun c => .of_fact fun hf =>
    (h (a.hold id c)).post fun _ _ hw => ⟨⟨a, c, hw.1, hf⟩, hw.2⟩

theorem writeDirection_filling (id : Nat) (p : SurfaceProperty) (name : String)
    (rest : List SurfaceProperty) : Leads (e.Filling id (p :: rest))
      (writeDirection e.context id p name) fun _ => e.Filling id rest := by
  unfold writeDirection
  split
  · exact .pure fun w ⟨a, c, hw, hb, hc⟩ => ⟨a, c, hw, hb, hc.skip⟩
  next i _ =>
  refine .bind (filling_of_fact fun _ => inputBinding_written i) fun b => .of_fact fun hb => ?_
  extract_lets x last
  have hlast : ∀ u, Leads (e.Filling id (p :: rest)) (last u) fun _ => e.Filling id rest := by
    intro u
    rcases b with y | m
    · exact setInput_filling hb
    · exact setProperty_filling (.inr rfl)
  split
  · refine .bind (filling_of_written fun a => zupToYup_written (usable_name hb)) fun _ => ?_
    exact .bind (filling_of_written fun a => worldToView_written (usable_name hb) true) hlast
  · exact hlast ()

theorem mem_of_findFunction [Scalar α] {n : ShaderNode α} (h : Names.findFunction n = .ok f) :
    f ∈ Library.all := by
  obtain ⟨name, -, h1⟩ := Outcome.bind_ok h
  split at h1
  · next hf =>
    cases h1
    exact mem_of_find?_eq_some hf
  · cases h1

/-- New names for the properties that the function of a surface decides. -/
theorem propertyArguments_written (output : String) {properties : List SurfaceProperty}
    (hn : (properties ++ rest).Nodup) :
    Leads (e.Written ((Account.bind {} 0 (.closure id)).hold id [])) (properties.mapM fun p => do
        let x ← Drafting.shaderId true output p.name
        Drafting.setProperty id p x
        return Expr.var x)
      fun args w => ∃ a c, e.Written (a.hold id c) w ∧ a.bound 0 = some (.closure id) ∧
        e.Fills a c rest ∧ ∀ v ∈ args, e.Reads a v := by
  let I (todo : List SurfaceProperty) (args : List Expr) (w : Workspace) : Prop :=
    ∃ a c, e.Written (a.hold id c) w ∧ a.bound 0 = some (.closure id) ∧
      e.Fills a c (todo ++ rest) ∧ ∀ v ∈ args, ∃ x ∈ a.made, v = .var x
  refine (Leads.mapM_loop I (fun p todo args => ?_) properties []).mono (fun w hw => ?_)
    fun args w => ?_
  · refine .of_exists fun a => .of_exists fun c => .of_fact fun ⟨hb, hc, ha⟩ => ?_
    refine .bind (shaderId_written _) fun x => .of_fact fun hx => ?_
    refine .bind ((setProperty_written (a := a.make x) (.inr mem_cons_self) p).mono
      (fun w hw => hw.make (.inl hx)) fun _ _ h => h) fun _ => .pure fun w hw => ?_
    refine ⟨a.make x, c.set p x, hw, hb, hc.make x, fun v hv => ?_⟩
    rcases mem_append.1 hv with hv | hv
    · obtain ⟨y, hy, rfl⟩ := ha v hv
      exact ⟨y, .tail _ hy, rfl⟩
    · exact ⟨x, mem_cons_self, mem_singleton.1 hv⟩
  · refine ⟨_, [], hw, by simp [Account.bound_bind], ⟨hn, ?_, Closure.within_nil, ?_⟩, by simp⟩
    · simp [Closure.get?]
    · simp
  · rintro ⟨a, c, hw, hb, hc, ha⟩
    refine ⟨a, c, hw, hb, hc, fun v hv => ?_⟩
    obtain ⟨x, hx, rfl⟩ := ha v hv
    exact (reads_of_var x).2 fun _ => usable_of_made hx

theorem writeSurface_settled [Scalar α] : e.Settles {} (writeSurface e.context) := by
  refine .bind .liftDrafting fun output => .of_fact fun ho => ?_
  obtain ⟨hi, -⟩ := Array.getElem?_eq_some_iff.1 (need_ok ho)
  refine .bind (newClosure_written Closure.within_nil) fun id => ?_
  refine .bind (bindSurface_written hi Closure.within_nil) fun _ => ?_
  refine .bind (change_written fun _ => rfl) fun _ => ?_
  refine .bind .liftDrafting fun f => .of_fact fun hf => ?_
  refine .bind .liftDrafting fun properties => .of_fact fun hp => ?_
  have hnd := properties_nodup (mem_of_findFunction hf)
  rw [need_ok hp, Option.getD_some] at hnd
  refine .bind (namedArguments_written f.sockets) fun inputs => .of_fact fun hin => ?_
  refine .bind (propertyArguments_written output.name hnd) fun outputs =>
    .of_exists fun a => .of_exists fun c => .of_fact fun ⟨hb, hc, hout⟩ => ?_
  refine .bind (Q := fun _ => e.Filling id [.normal, .tangent])
    ((call_written fun v hv => ?_).post fun _ _ hw => ⟨a, c, hw, hb, hc⟩) fun _ => ?_
  · rcases mem_append.1 hv with hv | hv
    · exact hin v hv _
    · exact hout v hv
  refine .bind (writeDirection_filling id .normal "Normal" [.tangent]) fun _ => ?_
  refine (writeDirection_filling id .tangent "Tangent" []).post fun _ w => ?_
  rintro ⟨a, c, hw, hb, hc⟩
  exact hw.settled_of_fills hb hc

end SceneExport.Prepared
