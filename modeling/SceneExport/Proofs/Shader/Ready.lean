import SceneExport.Proofs.Shader.Rules
import SceneExport.Proofs.Shader.Supplied

/-!
# Whether the code of a node can be written

Once the inputs of a node are bound, its rule writes the code (`NodeRule.write`).  For a node that
has what the rule asks for, the rule gives the outputs that `NodeRule.given` lists, unless there is
a complaint about the node itself (`NodeRule.complaint?`).  There is a lemma for each rule, with the
steps of the rule in their order; `write_decides` puts them together.
-/

namespace SceneExport

open List
open NodeRule (outputsNamed reroute general rgb mixRgb needs tangent uvMap geometry normalMap bump
  mixShader addShader surface imageTexture textureCoordinate given mapping)

variable {α : Type}

/-- The code of the node `n` can be written: all inputs are bound, and the outputs that are
`given`. -/
abbrev Ready (n : ShaderNode α) (stock : Nat) (given : List Nat) : Workspace → Prop :=
  Sound n stock n.inputs.size given

/-- The node has an output for values at a position. -/
structure ShaderNode.Shows (n : ShaderNode α) (i : Nat) (s : Socket α) : Prop where
  output : n.outputs[i]? = some s
  usual : s.IsUsual
  value : s.type ≠ .shader

open Drafting

/-- The step can be taken where the outputs `given` are bound, and then the outputs `given'` are. -/
abbrev Prepares {β : Type} (n : ShaderNode α) (stock : Nat) (given given' : List Nat)
    (step : Drafting β) :
    Prop :=
  Decides none (Ready n stock given) step fun _ => Ready n stock given'

/-- The step gives the outputs that the rule lists, unless there is a complaint about the node. -/
abbrev NodeRule.Gives [Scalar α] (r : NodeRule) (c : NodeContext α) (stock : Nat)
    (step : Drafting Unit) : Prop :=
  Decides (r.complaint? c.version c.node) (Ready c.node stock []) step
    fun _ => Ready c.node stock (r.given c.tree c.position c.node)

variable {name : String} {v : Version} {n : ShaderNode α} {i : Nat} {kind : NodeSetting α}
  {input : Expr} {out : String} {c : NodeContext α} {stock : Nat} {given : List Nat} {s : Socket α}

/-! ### Sockets -/

theorem inputBinding_decides (hi : i < n.inputs.size) : Prepares n stock given given
    (inputBinding i) := by
  refine .of_ok fun w hw => ?_
  obtain ⟨b, hb, -⟩ := inputBinding_ok hw hi (Array.getElem?_eq_getElem hi)
  exact ⟨b, w, hb, hw⟩

theorem input_ok (hi : i < n.inputs.size) : n.input i = .ok n.inputs[i] := by
  rw [ShaderNode.input, Array.getElem?_eq_getElem hi]
  rfl

theorem output_ok (hs : n.outputs[i]? = some s) : n.output i = .ok s := by
  rw [ShaderNode.output, hs]
  rfl

theorem inputNamed_ok (h : (n.inputNamed? name).isSome) : ∃ i, n.inputNamed name = .ok i ∧
    i < n.inputs.size := by
  obtain ⟨i, hi⟩ := Option.isSome_iff_exists.1 h
  refine ⟨i, by rw [ShaderNode.inputNamed, hi]; rfl, ?_⟩
  exact (Array.findIdx?_eq_some_iff_getElem.1 hi).1

theorem setting_ok {x : NodeSetting α} (h : n.settings.get? name = some x) : n.setting name =
    .ok x := by
  rw [ShaderNode.setting, h]
  rfl

theorem inputAt_decides (hi : i < c.node.inputs.size) : Prepares c.node stock given given
    (inputAt c i) :=
  lift_decides (input_ok hi) (inputBinding_decides hi)

theorem inputNamed_decides (h : (c.node.inputNamed? name).isSome) :
    Prepares c.node stock given given (inputNamed c name) := by
  obtain ⟨i, hi, hlt⟩ := inputNamed_ok h
  exact lift_decides hi (inputBinding_decides hlt)

theorem inputArguments_decides : Prepares c.node stock given given (inputArguments c) := by
  refine .mapM (fun _ => Ready c.node stock given) fun pre i post h => ?_
  have hi : i ∈ List.range c.node.inputs.size := h ▸ by simp
  exact (inputBinding_decides (mem_range.1 hi)).bind fun _ => .pure fun _ hw => hw

theorem namedArguments_decides {names : List String}
    (h : ∀ x ∈ names, (c.node.inputNamed? x).isSome) :
    Prepares c.node stock given given (names.mapM fun name => do return (← inputNamed c name).expr)
    := by
  refine .mapM (fun _ => Ready c.node stock given) fun pre x post hx => ?_
  exact (inputNamed_decides (h x (hx ▸ by simp))).bind fun _ => .pure fun _ hw => hw

theorem nameOutput_decides (h : c.node.Shows i s) : Decides none (Ready c.node stock given)
    (nameOutput c i) fun x w => Ready c.node stock given w ∧ Text.isIdentifier x = true :=
  lift_decides (output_ok h.output) (socketId_decides true h.usual.name)

theorem bindVariable_decides (h : n.Shows i s) {x : String} (hx : Text.isIdentifier x = true) :
    Prepares n stock given (i :: given) (bindOutput i (.variable x)) :=
  (bindOutput_decides h.output).mono (fun _ hw => ⟨hw, h.value, hx⟩) fun _ _ hw => hw

theorem bindNewOutput_decides (h : c.node.Shows i s) :
    Prepares c.node stock given (i :: given) (bindNewOutput c i) := by
  refine (nameOutput_decides h).bind fun x => .of_fact fun hx => ?_
  exact (bindVariable_decides h hx).bind fun _ => .pure fun _ hw => hw

/-! ### Steps of rules -/

theorem writeGeometryValue_decides (hi : c.node.outputNamed name = .ok i) (hout : c.node.Shows i s)
    {value : String} {isDirection : Bool} : Prepares c.node stock given (i :: given)
    (writeGeometryValue c name value isDirection) := by
  refine lift_decides hi ((bindNewOutput_decides hout).bind fun _ => ?_)
  refine emit_harmless.decides.bind fun _ => ?_
  exact (viewToWorld_harmless _).decides.bind fun _ => (yupToZup_harmless _).decides

theorem bindClosure_decides (hs : n.outputs[0]? = some s) (ht : s.type = .shader) (id : Nat) :
    Decides none (fun w => Ready n stock given w ∧ id < w.closures.size)
      (bindOutput 0 (.closure id)) fun _ => Ready n stock (0 :: given) :=
  (bindOutput_decides hs).mono (fun _ hw => ⟨hw.1, ht, hw.2⟩) fun _ _ hw => hw

theorem mixClosures_decides (hname : Names.IsPlain name) {a b : Closure} (ha : a.IsNamed)
    (hb : b.IsNamed) (factor : Expr) :
    Decides none (Ready n stock given) (mixClosures name a b factor)
      fun mixed w => Ready n stock given w ∧ mixed.IsNamed := by
  refine .bind ((Decides.forIn_sure (fun _ mixed w => Ready n stock given w ∧ Closure.IsNamed mixed)
    (fun _ p _ _ mixed => .of_fact fun hm => ?_) []).mono (fun _ hw => ⟨hw, Closure.within_nil⟩)
    fun _ _ hw => hw) fun _ => .pure fun _ hw => hw
  refine (shaderId_decides true hname p).bind fun x => .of_fact fun hx => ?_
  -- Neither surface has the property, or both have it, or one of them.
  split
  · exact .pure fun _ hw => ⟨_, rfl, hw, hm⟩
  · exact emit_harmless.decides.bind fun _ => .pure fun _ hw => ⟨_, rfl, hw, hm.set hx p⟩
  · next y hy _ =>
    split
    · exact emit_harmless.decides.bind fun _ => .pure fun _ hw => ⟨_, rfl, hw, hm.set hx p⟩
    · exact .pure fun _ hw => ⟨_, rfl, hw, hm.set (ha p y hy) p⟩
  · next y _ hy =>
    split
    · exact emit_harmless.decides.bind fun _ => .pure fun _ hw => ⟨_, rfl, hw, hm.set hx p⟩
    · exact .pure fun _ hw => ⟨_, rfl, hw, hm.set (hb p y hy) p⟩

theorem inputAt_closure (hi : c.node.TakesSurface i) {w : Workspace}
    (hw : Ready c.node stock given w) :
    ∃ id, inputAt c i w = .ok (.closure id) w ∧ id < w.closures.size := by
  obtain ⟨s, hs, ht⟩ := Option.map_eq_some_iff.1 hi
  have hlt := (Array.getElem?_eq_some_iff.1 hs).1
  obtain ⟨b, hb, hsuits⟩ := inputBinding_ok hw hlt hs
  rcases b with x | id
  · exact absurd ht hsuits.1
  · refine ⟨id, ?_, hsuits.2⟩
    rw [inputAt, input_ok hlt]
    exact hb

theorem writeDirection_decides (hval : ∀ s ∈ c.node.inputs, s.name ∈ ["Normal", "Tangent"] →
    s.type ≠ .shader) (out : Nat) {p : SurfaceProperty} (hname : name ∈ ["Normal", "Tangent"]) :
    Prepares c.node stock given given (writeDirection c out p name) := by
  unfold writeDirection
  split
  · exact .pure fun _ hw => hw
  · next i hi =>
    obtain ⟨hlt, hnamed, -⟩ := Array.findIdx?_eq_some_iff_getElem.1 hi
    have ht := hval _ (Array.getElem_mem hlt) (beq_iff_eq.1 hnamed ▸ hname)
    intro w hw
    obtain ⟨b, hb, hsuits⟩ := inputBinding_ok hw hlt (Array.getElem?_eq_getElem hlt)
    rw [bind_of_ok hb]
    rcases b with x | id
    · dsimp only
      split
      · refine Decides.bind (zupToYup_harmless _).decides (fun _ => ?_) w hw
        exact (worldToView_harmless _).decides.bind fun _ => setProperty_decides out p hsuits.2
      · exact setProperty_decides out p hsuits.2 w hw
    · exact absurd hsuits.1 ht

theorem textureUse_ok (hi : c.node.outputNamed "Color" = .ok i) : ∃ use, textureUse c =
    .ok use := by
  rw [textureUse, hi]
  simp only [bind, Except.bind]
  split
  · exact ⟨_, rfl⟩
  · split <;> exact ⟨_, rfl⟩

theorem outputBinding_decides (hv : n.IsValue) (hi : i ∈ given) :
    Decides none (Ready n stock given) (outputBinding i)
      fun b w => Ready n stock given w ∧ Text.isIdentifier b.name = true := by
  refine .of_ok fun w hw => ?_
  obtain ⟨b, hb⟩ := Option.isSome_iff_exists.1 ((hw.given i).2 hi)
  obtain ⟨s, hs, hsuits⟩ := hw.outputs i b hb
  refine ⟨b, w, by rw [outputBinding, get_bind, hb]; rfl, hw, ?_⟩
  rcases b with x | id
  · exact hsuits.2
  · exact absurd hsuits.1 (hv s (Array.mem_of_getElem? hs))

theorem writeLinked_decides (hv : c.node.IsValue) (hi : c.node.outputNamed name = .ok i)
    (hin : c.tree.isOutputLinked c.position i → i ∈ given) {write : String → Drafting Unit}
    {given' : List Nat}
    (hwr : c.tree.isOutputLinked c.position i → ∀ x, Text.isIdentifier x = true →
      Prepares c.node stock given given' (write x))
    (hun : ¬c.tree.isOutputLinked c.position i → given = given') :
    Prepares c.node stock given given' (writeLinked c name write) := by
  refine lift_decides hi ?_
  split
  · next hl =>
    exact (outputBinding_decides hv (hin hl)).bind fun b => .of_fact fun hb => hwr hl _ hb
  · next hl => exact .pure fun _ hw => hun hl ▸ hw

theorem writeLinkedMapping_decides (hsize : 4 ≤ c.node.inputs.size) :
    Prepares c.node stock given given (writeLinkedMapping c kind input out) := by
  refine (inputAt_decides (i := 1) (by omega)).bind fun _ => ?_
  refine (inputAt_decides (i := 2) (by omega)).bind fun _ => ?_
  refine (inputAt_decides (i := 3) (by omega)).bind fun _ => ?_
  refine (matrixOf_harmless _).decides.bind fun _ => ?_
  refine (matrixOf_harmless _).decides.bind fun _ => ?_
  refine (matrixOf_harmless _).decides.bind fun _ => ?_
  refine (variableId_harmless _).decides.bind fun _ => ?_
  exact emit_harmless.decides.bind fun _ => emit_harmless.decides

variable [Scalar α]

theorem ShaderNode.WellFormed.shows (h : n.WellFormed v) (hv : n.IsValue)
    (hi : i < n.outputs.size) : n.Shows i n.outputs[i] :=
  ⟨Array.getElem?_eq_getElem hi, h.outputs _ (Array.getElem_mem hi), hv _ (Array.getElem_mem hi)⟩

theorem ShaderNode.WellFormed.shows_named (h : n.WellFormed v) (hv : n.IsValue)
    (hname : (n.outputs.findIdx? (·.name == name)).isSome) :
    ∃ i s, n.outputNamed name = .ok i ∧ n.Shows i s ∧ outputsNamed n [name] = [i] := by
  obtain ⟨i, hi⟩ := Option.isSome_iff_exists.1 hname
  have hlt := (Array.findIdx?_eq_some_iff_getElem.1 hi).1
  refine ⟨i, _, ?_, h.shows hv hlt, ?_⟩
  · rw [ShaderNode.outputNamed, hi]
    rfl
  · simp [outputsNamed, hi]

theorem ShaderNode.WellFormed.surface_output (h : n.WellFormed v) (hs : n.IsSurface) :
    ∃ s, n.outputs[0]? = some s ∧ s.type = .shader ∧ Names.IsPlain s.name := by
  obtain ⟨s, hout, htype⟩ := Option.map_eq_some_iff.1 hs
  exact ⟨s, hout, htype, (h.outputs s (Array.mem_of_getElem? hout)).name⟩

theorem writeReroute_decides (hfit : reroute.Fits c.version c.node) : reroute.Gives c stock
    (writeReroute c) := by
  have hin : 0 < c.node.inputs.size := hfit.has.inputs
  have hout : 0 < c.node.outputs.size := hfit.has.outputs
  have htype : c.node.outputs[0].type = c.node.inputs[0].type := by
    simpa [NodeRule.Suits, hin, hout] using hfit.suits
  refine lift_decides (input_ok hin) (lift_decides (output_ok (Array.getElem?_eq_getElem hout)) ?_)
  intro w hw
  obtain ⟨b, hb, hsuits⟩ := inputBinding_ok hw hin (Array.getElem?_eq_getElem hin)
  rw [bind_of_ok hb]
  exact bindOutput_decides (Array.getElem?_eq_getElem hout) w ⟨hw, htype ▸ hsuits⟩

theorem writeFixedMapping_decides (hmap : c.node.HasMapping)
    (hlow : (c.node.settings.get? "use_min").isSome)
    (hhigh : (c.node.settings.get? "use_max").isSome) :
    Decides (Outcome.failure? (Names.findFunction c.node)) (Ready c.node stock given)
      (writeFixedMapping c kind input out) fun _ => Ready c.node stock given := by
  obtain ⟨_, _, _, htran⟩ := hmap.translation
  obtain ⟨_, _, _, hrota, hfini⟩ := hmap.rotation
  obtain ⟨_, _, _, hscale⟩ := hmap.scale
  obtain ⟨_, hmin⟩ := hmap.min
  obtain ⟨_, hmax⟩ := hmap.max
  obtain ⟨_, hlow⟩ := Option.isSome_iff_exists.1 hlow
  obtain ⟨_, hhigh⟩ := Option.isSome_iff_exists.1 hhigh
  have hloc : ∃ m, locationSetting c "translation" = .ok m := by
    rw [locationSetting, setting_ok htran]
    exact ⟨_, rfl⟩
  have hrot : ∃ m, rotationSetting c "rotation" = .ok m := by
    rw [rotationSetting, setting_ok hrota]
    simp only [bind, Except.bind, Vec3.ofFirst, Euler.rotation, Vec3.toList, hfini]
    exact ⟨_, rfl⟩
  have hsca : ∃ m, scaleSetting c "scale" = .ok m := by
    rw [scaleSetting, setting_ok hscale]
    exact ⟨_, rfl⟩
  obtain ⟨loc, hloc⟩ := hloc
  obtain ⟨rot, hrot⟩ := hrot
  obtain ⟨sca, hsca⟩ := hsca
  refine lift_decides hloc (lift_decides hrot (lift_decides hsca (lift_decides_sure fun f _ => ?_)))
  refine lift_decides rfl (lift_decides (setting_ok hmin) (lift_decides rfl ?_))
  refine lift_decides (setting_ok hmax) (lift_decides rfl ?_)
  refine lift_decides (setting_ok hlow) (lift_decides (setting_ok hhigh) ?_)
  exact call_harmless.decides

variable (hwf : c.node.WellFormed c.version) {r : NodeRule}

include hwf

theorem outputArguments_decides (hv : c.node.IsValue) :
    Prepares c.node stock [] (List.range c.node.outputs.size) (outputArguments c) := by
  refine .mapM (Ready c.node stock) fun pre i post h => ?_
  have hi : i ∈ List.range c.node.outputs.size := h ▸ by simp
  refine (bindNewOutput_decides (hwf.shows hv (mem_range.1 hi))).bind fun _ => ?_
  exact .pure fun _ hw => hw.congr (by simp [or_comm])

/-! ### Values -/

theorem writeGeneral_decides (hfit : general.Fits c.version c.node) : general.Gives c stock
    (writeGeneral c) := by
  refine lift_decides_sure fun f _ => inputArguments_decides.bind fun _ => ?_
  exact (outputArguments_decides hwf hfit.suits).bind fun _ => call_harmless.decides

theorem writeRgb_decides (hfit : rgb.Fits c.version c.node) : rgb.Gives c stock (writeRgb c) := by
  have hout := hwf.shows hfit.suits hfit.has.outputs
  obtain ⟨code, hcode⟩ := SocketValue.code_ok hout.usual.value
  refine lift_decides (output_ok hout.output) ?_
  refine (nameOutput_decides hout).bind fun x => .of_fact fun hx => lift_decides hcode ?_
  exact emit_harmless.decides.bind fun _ => bindVariable_decides hout hx

theorem writeMixRgb_decides (hfit : mixRgb.Fits c.version c.node) : mixRgb.Gives c stock
    (writeMixRgb c) := by
  obtain ⟨hval, blend, hbl⟩ := hfit.suits
  obtain ⟨i, s, hi, hout, hgvn⟩ := hwf.shows_named hval
    (hfit.has.outputNames "Color" (by simp [needs]))
  obtain ⟨clamp, hclamp⟩ := Option.isSome_iff_exists.1
    (hfit.has.settings "use_clamp" (by simp [needs]))
  have hinput : ∀ x ∈ ["Fac", "Color1", "Color2"], (c.node.inputNamed? x).isSome :=
    hfit.has.inputNames
  have htext : c.node.textSetting "blend_type" = .ok blend := by
    rw [ShaderNode.textSetting, setting_ok hbl]
    rfl
  refine (inputNamed_decides (hinput "Fac" (by simp))).bind fun factor => ?_
  refine (inputNamed_decides (hinput "Color1" (by simp))).bind fun color1 => ?_
  refine (inputNamed_decides (hinput "Color2" (by simp))).bind fun color2 => ?_
  refine lift_decides htext (emit_harmless.decides.bind fun _ => ?_)
  -- A blend type that is not known is replaced, and the rest is the same.
  extract_lets rest
  have hrest : ∀ function, Prepares c.node stock [] (mixRgb.given c.tree c.position c.node)
    (rest function) := by
    intro function
    refine lift_decides hi ((nameOutput_decides hout).bind fun x => .of_fact fun hx => ?_)
    refine call_harmless.decides.bind fun _ => lift_decides (setting_ok hclamp) ?_
    have hbind : Prepares c.node stock [] [_] (bindOutput _ (.variable x)) := bindVariable_decides
      hout hx
    rw [← hgvn] at hbind
    split
    · exact emit_harmless.decides.bind fun _ => hbind
    · exact hbind
  split
  · exact hrest _
  · exact warn_harmless.decides.bind fun _ => emit_harmless.decides.bind fun _ => hrest _

theorem writeColorFunction_decides (hhas : c.node.Has (r.needs c.version)) (hval : c.node.IsValue)
    {function : String} {args : List String} (hargs : ∀ x ∈ args, (c.node.inputNamed? x).isSome)
    (hcolor : "Color" ∈ (r.needs c.version).outputNames) :
    Prepares c.node stock [] (outputsNamed c.node ["Color"]) (writeColorFunction c function args) :=
    by
  obtain ⟨i, s, hi, hout, hgvn⟩ := hwf.shows_named hval (hhas.outputNames "Color" hcolor)
  rw [hgvn]
  refine (namedArguments_decides hargs).bind fun inputs => lift_decides hi ?_
  refine (nameOutput_decides hout).bind fun x => .of_fact fun hx => ?_
  exact call_harmless.decides.bind fun _ => bindVariable_decides hout hx

theorem writeTangent_decides (hfit : tangent.Fits c.version c.node) : tangent.Gives c stock
    (writeTangent c) := by
  have hout := hwf.shows hfit.suits hfit.has.outputs
  obtain ⟨direction, hdire⟩ :=
    Option.isSome_iff_exists.1 (hfit.has.settings "direction_type" (by simp [needs]))
  refine lift_decides (setting_ok hdire) ?_
  extract_lets rest
  have hrest : ∀ u, Prepares c.node stock [] (tangent.given c.tree c.position c.node) (rest u) :=
    fun _ =>
    (change_harmless fun _ => rfl).decides.bind fun _ => (bindNewOutput_decides hout).bind fun _ =>
      emit_harmless.decides
  split
  · exact warn_harmless.decides.bind hrest
  · exact hrest ()

theorem writeUvMap_decides (hfit : uvMap.Fits c.version c.node) : uvMap.Gives c stock
    (writeUvMap c) := by
  obtain ⟨i, s, hi, hout, hgvn⟩ := hwf.shows_named hfit.suits
    (hfit.has.outputNames "UV" (by simp [needs]))
  rw [NodeRule.Gives, show uvMap.given c.tree c.position c.node = [i] from hgvn]
  refine (change_harmless fun _ => rfl).decides.bind fun _ => lift_decides hi ?_
  refine (bindNewOutput_decides hout).bind fun _ => emit_harmless.decides.bind fun _ => ?_
  exact warn_harmless.decides

theorem writeGeometry_decides (hfit : geometry.Fits c.version c.node) : geometry.Gives c stock
    (writeGeometry c) := by
  have hnamed : ∀ name ∈ ["Position", "Normal", "Tangent"], ∃ i s, c.node.outputNamed name = .ok i ∧
      c.node.Shows i s ∧ outputsNamed c.node [name] = [i] :=
    fun name hname => hwf.shows_named hfit.suits (hfit.has.outputNames name hname)
  obtain ⟨i, _, hi, hshw, hgvn⟩ := hnamed "Position" (by simp)
  obtain ⟨j, _, hj, hshw', hgvn'⟩ := hnamed "Normal" (by simp)
  obtain ⟨k, _, hk, hshw'', hgvn''⟩ := hnamed "Tangent" (by simp)
  refine (writeGeometryValue_decides hi hshw).bind fun _ => ?_
  refine (writeGeometryValue_decides hj hshw').bind fun _ => ?_
  refine (writeGeometryValue_decides hk hshw'').mono (fun _ hw => hw) fun _ _ hw => hw.congr ?_
  have hall : geometry.given c.tree c.position c.node = [i] ++ ([j] ++ [k]) := by
    rw [← hgvn, ← hgvn', ← hgvn'', outputsNamed, outputsNamed,
      outputsNamed, ← filterMap_append, ← filterMap_append]
    rfl
  -- They were bound one after another, so that the last one comes first.
  intro m
  simp [hall]
  tauto

/-! ### Normals -/

theorem writeNormalMap_decides (hfit : normalMap.Fits c.version c.node) :
    normalMap.Gives c stock (writeNormalMap c) := by
  obtain ⟨hval, space, hspace⟩ := hfit.suits
  have hout := hwf.shows hval hfit.has.outputs
  refine lift_decides_sure fun f _ => inputArguments_decides.bind fun args => ?_
  refine (bindNewOutput_decides hout).bind fun out => lift_decides (setting_ok hspace) ?_
  split
  · refine call_harmless.decides.bind fun _ => ?_
    exact (viewToWorld_harmless _).decides.bind fun _ => (yupToZup_harmless _).decides
  split
  · refine (change_harmless fun _ => rfl).decides.bind fun _ => ?_
    exact call_harmless.decides.bind fun _ => (yupToZup_harmless _).decides
  split
  · refine (change_harmless fun _ => rfl).decides.bind fun _ => ?_
    exact call_harmless.decides.bind fun _ => (yupToZup_harmless _).decides
  · exact .pure fun _ hw => hw

theorem writeBump_decides (hfit : bump.Fits c.version c.node) : bump.Gives c stock
    (writeBump c) := by
  have hout := hwf.shows hfit.suits hfit.has.outputs
  obtain ⟨invert, hinve⟩ := Option.isSome_iff_exists.1
    (hfit.has.settings "invert" (by simp [needs]))
  refine lift_decides_sure fun f _ => ?_
  refine .bind (.forIn_sure (fun _ _ => Ready c.node stock []) (fun pre e post h args => ?_) _)
    fun args => ?_
  · obtain ⟨s, i⟩ := e
    have hi : i < c.node.inputs.size := by
      simpa using (List.getElem?_eq_some_iff.1 (getElem?_of_zipIdx_split h).2).1
    refine (inputBinding_decides hi).bind fun b => ?_
    split
    · split
      · refine (zupToYup_harmless _).decides.bind fun _ => ?_
        exact (worldToView_harmless _).decides.bind fun _ => .pure fun _ hw => ⟨_, rfl, hw⟩
      · exact .pure fun _ hw => ⟨_, rfl, hw⟩
    · exact .pure fun _ hw => ⟨_, rfl, hw⟩
  · refine lift_decides (setting_ok hinve) ((bindNewOutput_decides hout).bind fun out => ?_)
    refine call_harmless.decides.bind fun _ => ?_
    exact (viewToWorld_harmless _).decides.bind fun _ => (yupToZup_harmless _).decides

/-! ### Surfaces -/

theorem writeMix_decides (hs : c.node.IsSurface) {a b : Nat} (factor : Expr) :
    Decides none (fun w => Ready c.node stock [] w ∧ a < w.closures.size ∧ b < w.closures.size)
      (writeMix c (.closure a) (.closure b) factor) fun _ => Ready c.node stock [0] := by
  obtain ⟨s, hout, ht, hname⟩ := hwf.surface_output hs
  intro w hw
  obtain ⟨hw, ha, hb⟩ := hw
  obtain ⟨ca, hca, hnamed⟩ := closure_ok hw ha
  obtain ⟨cb, hcb, hnamed'⟩ := closure_ok hw hb
  have hmix : Prepares c.node stock [] [0] (do
      let mixed ← mixClosures s.name ca cb factor
      bindOutput 0 (.closure (← newClosure mixed))) := by
    refine (mixClosures_decides hname hnamed hnamed' factor).bind fun mixed => .of_fact fun hm => ?_
    exact (newClosure_decides hm).bind fun id => bindClosure_decides hout ht id
  have hrun : writeMix c (.closure a) (.closure b) factor w = (do
      let mixed ← mixClosures s.name ca cb factor
      bindOutput 0 (.closure (← newClosure mixed))) w := by
    change (closure a >>= _) w = _
    rw [bind_of_ok hca]
    change (closure b >>= _) w = _
    rw [bind_of_ok hcb, output_ok hout]
    rfl
  rw [hrun]
  exact hmix w hw

theorem mixInputs_decides (hs : c.node.IsSurface) {j : Nat}
    (hi : c.node.TakesSurface i) (hj : c.node.TakesSurface j) (factor : Expr) :
    Prepares c.node stock [] [0] (do
      let a ← inputAt c i
      let b ← inputAt c j
      writeMix c a b factor) := by
  intro w hw
  obtain ⟨a, ha, hlt⟩ := inputAt_closure hi hw
  obtain ⟨b, hb, hlt'⟩ := inputAt_closure hj hw
  rw [bind_of_ok ha, bind_of_ok hb]
  exact writeMix_decides hwf hs factor w ⟨hw, hlt, hlt'⟩

theorem writeMixShader_decides (hfit : mixShader.Fits c.version c.node) :
    mixShader.Gives c stock (writeMixShader c) := by
  obtain ⟨hsurf, h1, h2⟩ := hfit.suits
  refine (inputNamed_decides (hfit.has.inputNames "Fac" (by simp [needs]))).bind fun factor => ?_
  exact mixInputs_decides hwf hsurf h1 h2 factor.expr

theorem writeAddShader_decides (hfit : addShader.Fits c.version c.node) :
    addShader.Gives c stock (writeAddShader c) := by
  obtain ⟨hsurf, h0, h1⟩ := hfit.suits
  exact mixInputs_decides hwf hsurf h0 h1 _

theorem writeSurface_decides (hfit : surface.Fits c.version c.node) : surface.Gives c stock
    (writeSurface c) := by
  obtain ⟨hsurf, hval, hfunc⟩ := hfit.suits
  obtain ⟨s, hout, ht, hname⟩ := hwf.surface_output hsurf
  refine lift_decides (output_ok hout) ((newClosure_decides Closure.within_nil).bind fun out => ?_)
  refine (bindClosure_decides hout ht out).bind fun _ => ?_
  refine (change_harmless fun _ => rfl).decides.bind fun _ => lift_decides_sure fun f hf => ?_
  obtain ⟨hprops, hsock⟩ := hfunc f hf
  obtain ⟨properties, hprops⟩ := Option.isSome_iff_exists.1 hprops
  refine lift_decides (b := properties) (by rw [hprops]; rfl) ?_
  refine (namedArguments_decides hsock).bind fun inputs => ?_
  refine .bind (.mapM (fun _ => Ready c.node stock [0]) fun pre p post _ => ?_) fun outputs => ?_
  · refine (shaderId_decides true hname p).bind fun x => .of_fact fun hx => ?_
    exact (setProperty_decides out p hx).bind fun _ => .pure fun _ hw => hw
  refine call_harmless.decides.bind fun _ => ?_
  exact (writeDirection_decides hval out (by simp)).bind fun _ =>
    writeDirection_decides hval out (by simp)

/-! ### Images and coordinates -/

theorem writeImageTexture_decides (hfit : imageTexture.Fits c.version c.node) :
    imageTexture.Gives c stock (writeImageTexture c) := by
  obtain ⟨hval, himage⟩ := hfit.suits
  obtain ⟨image, himage⟩ := Option.isSome_iff_exists.1 himage
  obtain ⟨i, s, hi, -, -⟩ := hwf.shows_named hval (hfit.has.outputNames "Color" (by simp [needs]))
  obtain ⟨use, huse⟩ := textureUse_ok hi
  refine lift_decides_sure fun f _ => (inputAt_decides hfit.has.inputs).bind fun coordinate => ?_
  extract_lets rest
  have hrest : ∀ u, Prepares c.node stock [] (imageTexture.given c.tree c.position c.node)
    (rest u) := by
    intro _
    refine lift_decides huse (lift_decides (b := image) (by rw [himage]; rfl) ?_)
    refine .bind (Q := fun _ => Ready c.node stock [])
      (.of_ok fun w hw => ⟨_, _, rfl, hw.addTexture himage⟩) fun _ => ?_
    exact (outputArguments_decides hwf hval).bind fun _ => call_harmless.decides
  split
  · exact emit_harmless.decides.bind hrest
  · exact hrest ()

theorem writeTextureCoordinate_decides (hfit : textureCoordinate.Fits c.version c.node) :
    textureCoordinate.Gives c stock (writeTextureCoordinate c) := by
  have hval : c.node.IsValue := hfit.suits
  let linked := (List.range c.node.outputs.size).filter (c.tree.isOutputLinked c.position)
  have hnamed : ∀ name ∈ (textureCoordinate.needs c.version).outputNames, ∃ i s,
      c.node.outputNamed name = .ok i ∧ c.node.Shows i s ∧ outputsNamed c.node [name] = [i] :=
    fun name hname => hwf.shows_named hval (hfit.has.outputNames name hname)
  -- Every output but the last is written as it is.
  have hpln : ∀ name ∈ (textureCoordinate.needs c.version).outputNames,
      ∀ write : String → Drafting Unit, (∀ x, Harmless (write x)) →
        Prepares c.node stock linked linked (writeLinked c name write) := by
    intro name hname write hwr
    obtain ⟨i, s, hi, hout, -⟩ := hnamed name hname
    have hlt := (Array.getElem?_eq_some_iff.1 hout.output).1
    exact writeLinked_decides hval hi (fun hl => by simp [linked, hlt, hl])
      (fun _ x _ => (hwr x).decides) fun _ => rfl
  have hturn : ∀ x value isDirection, Harmless (do
      assign x (.text value)
      viewToModel x isDirection
      yupToZup x) := fun x value isDirection =>
    emit_harmless.bind fun _ => (viewToModel_harmless _).bind fun _ => yupToZup_harmless _
  refine .bind (Q := fun _ => Ready c.node stock linked) ?_ fun _ => ?_
  · refine .forIn_sure (fun pre _ => Ready c.node stock
      (pre.filter (c.tree.isOutputLinked c.position))) (fun pre i post h _ => ?_) _
    have hi : i < c.node.outputs.size := mem_range.1 (h ▸ by simp)
    split
    · next hl =>
      refine (bindNewOutput_decides (hwf.shows hval hi)).bind fun _ => .pure fun _ hw => ?_
      exact ⟨_, rfl, hw.congr (by simp [hl, or_comm])⟩
    · next hl => exact .pure fun _ hw => ⟨_, rfl, hw.congr (by simp [hl])⟩
  refine (hpln "UV" (by simp [needs]) _ fun x => emit_harmless).bind fun _ => ?_
  refine (hpln "Window" (by simp [needs]) _ fun x => emit_harmless).bind fun _ => ?_
  refine (hpln "Camera" (by simp [needs]) _ fun x => emit_harmless).bind fun _ => ?_
  refine (hpln "Normal" (by simp [needs]) _ fun x => hturn x _ _).bind fun _ => ?_
  refine (hpln "Object" (by simp [needs]) _ fun x => hturn x _ _).bind fun _ => ?_
  refine (hpln "Reflection" (by simp [needs]) _ fun x => hturn x _ _).bind fun _ => ?_
  obtain ⟨r, _, hr, hrefl, hrgiv⟩ := hnamed "Reflection" (by simp [needs])
  obtain ⟨g, _, hg, hgene, hggiv⟩ := hnamed "Generated" (by simp [needs])
  have hlt := (Array.getElem?_eq_some_iff.1 hgene.output).1
  refine lift_decides hr (writeLinked_decides hval hg (fun hl => by simp [linked, hlt, hl]) ?_ ?_)
  · intro hl x hx
    refine (change_harmless fun _ => rfl).decides.bind fun _ => emit_harmless.decides.bind fun _ =>
      ?_
    refine (bindVariable_decides hrefl hx).mono (fun _ hw => hw) fun _ _ hw => hw.congr fun i => ?_
    simp [given, hrgiv, hggiv, hl, linked, or_comm]
  · intro hl
    simp [given, hggiv, hl, linked]

/-! ### Mappings -/

theorem writeMapping_decides (hfit : mapping.Fits c.version c.node) : mapping.Gives c stock
    (writeMapping c) := by
  obtain ⟨hval, hmap⟩ := hfit.suits
  have hhas := hfit.has
  have hneeds : 0 < c.node.inputs.size ∧ 0 < c.node.outputs.size ∧
    (c.node.settings.get? "vector_type").isSome := by
    cases hv : c.version.fixesMapping <;> rw [needs, hv] at hhas
    · exact ⟨Nat.lt_of_lt_of_le (by decide) hhas.inputs, hhas.outputs, hhas.settings _ (by simp)⟩
    · exact ⟨hhas.inputs, hhas.outputs, hhas.settings _ (by simp)⟩
  obtain ⟨hin, hout, hkind⟩ := hneeds
  obtain ⟨kind, hkind⟩ := Option.isSome_iff_exists.1 hkind
  have hshw := hwf.shows hval hout
  refine (inputAt_decides hin).bind fun input => (nameOutput_decides hshw).bind fun x =>
    .of_fact fun hx => lift_decides (setting_ok hkind) (emit_harmless.decides.bind fun _ => ?_)
  extract_lets rest
  have hrest : ∀ u, Prepares c.node stock [] (mapping.given c.tree c.position c.node) (rest u) := by
    intro _
    refine (bindVariable_decides hshw hx).bind fun _ => ?_
    split
    · exact emit_harmless.decides.bind fun _ => emit_harmless.decides
    · exact .pure fun _ hw => hw
  change Decides _ _ (if c.version.fixesMapping = true then _ else _) _
  unfold NodeRule.complaint?
  cases hv : c.version.fixesMapping with
  | true =>
    rw [needs, hv] at hhas
    exact (writeFixedMapping_decides (hmap hv) (hhas.settings "use_min" (by simp))
      (hhas.settings "use_max" (by simp))).bind_sure hrest
  | false =>
    rw [needs, hv] at hhas
    exact (writeLinkedMapping_decides hhas.inputs).bind hrest

/-! ### All rules -/

/-- **The rule of a node gives the outputs that it should, unless there is a complaint about the
node.**  The rule for numbers writes its code, but its output cannot be declared. -/
theorem write_decides (hfit : r.Fits c.version c.node) (hr : r ≠ .value) : r.Gives c stock
    (r.write c) := by
  cases r with
  | mapping => exact writeMapping_decides hwf hfit
  | imageTexture => exact writeImageTexture_decides hwf hfit
  | textureCoordinate => exact writeTextureCoordinate_decides hwf hfit
  | rgb => exact writeRgb_decides hwf hfit
  | mixRgb => exact writeMixRgb_decides hwf hfit
  | normalMap => exact writeNormalMap_decides hwf hfit
  | bump => exact writeBump_decides hwf hfit
  | reroute => exact writeReroute_decides hfit
  | mixShader => exact writeMixShader_decides hwf hfit
  | addShader => exact writeAddShader_decides hwf hfit
  | tangent => exact writeTangent_decides hwf hfit
  | uvMap => exact writeUvMap_decides hwf hfit
  | value => exact absurd rfl hr
  | geometry => exact writeGeometry_decides hwf hfit
  | hueSaturation =>
    exact writeColorFunction_decides hwf hfit.has hfit.suits hfit.has.inputNames (by simp [needs])
  | invert =>
    exact writeColorFunction_decides hwf hfit.has hfit.suits hfit.has.inputNames (by simp [needs])
  | surface => exact writeSurface_decides hwf hfit
  | general => exact writeGeneral_decides hwf hfit
  | unsupported => exact emit_harmless.decides

end SceneExport
