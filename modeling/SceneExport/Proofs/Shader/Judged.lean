import SceneExport.Proofs.Shader.Ready

/-!
# Whether a node tree can be compiled

The complaints about a tree are those that the compiler comes upon.  A node is compiled once the
nodes that are linked to its inputs are (`Compilation.Built`), so that the compiler fails on the
first node with a complaint (`NodeTree.compileNodes_decides`), and if there is none, on the surface
of the material (`NodeTree.compile_decides`).
-/

namespace SceneExport

open List

/-! ### Whether a node can be drafted -/

variable {α : Type} {s : ShaderScript}

open Drafting

/-! ### Outputs -/

/-- A binding to a variable or to a closure, as the type of the socket demands. -/
def Binding.IsFor (type : SocketType) : Binding → Prop
  | .variable _ => type ≠ .shader
  | .closure _ => type = .shader

/-- The outputs that are bound stand for variables of one kind. -/
def Workspace.Exposes (w : Workspace) (n : ShaderNode α) (kind : String → Prop) : Prop :=
  ∀ i b s, w.draft.outBindings.lookup i = some b → n.outputs[i]? = some s →
    b.IsFor s.type ∧ w.Holds kind b

variable {stock : Nat} {w : Workspace} {kind : String → Prop} {given : List Nat}

theorem Sound.exposes {n : ShaderNode α} {entered : Nat}
    (h : Sound n stock entered given w) : w.Exposes n fun x => Text.isIdentifier x = true := by
  intro i b s hb hs
  obtain ⟨s', hs', hsuits⟩ := h.outputs i b hb
  cases hs.symm.trans hs'
  rcases b with x | id
  · exact hsuits
  · obtain ⟨ht, hlt⟩ := hsuits
    have hc : w.closures[id]? = some w.closures[id] := Array.getElem?_eq_getElem hlt
    exact ⟨ht, _, hc, h.store id _ hc⟩

theorem exists_outputVariables {s : Socket α} (hs : s.type.isKnown = true) {b : Binding}
    (hb : b.IsFor s.type) (hk : w.Holds kind b) :
    ∃ found, outputVariables s b w = .ok found w ∧ (∀ e ∈ found, ∃ x, e.2 = some x ∧ kind x) ∧
      ∀ x, b = .variable x → found ≠ [] := by
  rcases b with x | id
  · obtain ⟨type, htype⟩ := SocketType.codeType_ok hs hb
    refine ⟨[(type, some x)], ?_, fun e he => ⟨x, ?_, hk⟩, by simp⟩
    · simp only [outputVariables, if_neg hb, htype]
      rfl
    · rw [mem_singleton.1 he]
  · obtain ⟨c, hc, hwith⟩ := hk
    have hclos : Drafting.closure id w = .ok c w := by
      rw [Drafting.closure, get_bind, hc]
      rfl
    refine ⟨SurfaceProperty.all.filterMap fun p => (c.get? p).map fun v => (p.type, some v), ?_,
      fun e he => ?_, by simp⟩
    · rw [outputVariables, if_pos (show s.type = .shader from hb), bind_of_ok hclos]
      rfl
    · obtain ⟨p, -, hp⟩ := mem_filterMap.1 he
      obtain ⟨v, hv, rfl⟩ := Option.map_eq_some_iff.1 hp
      exact ⟨v, rfl, hwith p v hv⟩

variable {c : NodeContext α} {x : String} (type : String)

theorem exists_boundVariables (hu : ∀ s ∈ c.node.outputs, s.type.isKnown = true)
    (h : w.Exposes c.node kind) :
    ∃ found, boundVariables c w = .ok found w ∧ (∀ e ∈ found, ∃ x, e.2 = some x ∧ kind x) ∧
      ∀ i x, i < c.node.outputs.size → w.draft.outBindings.lookup i = some (.variable x) →
      found ≠ [] := by
  have hloop : Decides none (fun w' => w' = w) (boundVariables c) fun found w' =>
      w' = w ∧ (∀ e ∈ found, ∃ x, e.2 = some x ∧ kind x) ∧
        ∀ i x, i < c.node.outputs.size → w.draft.outBindings.lookup i = some (.variable x) →
        found ≠ [] := by
    refine .bind ((Decides.forIn_sure (fun pre found w' => w' = w ∧
      (∀ e ∈ found, ∃ x, e.2 = some x ∧ kind x) ∧ ∀ i x, i < pre.length →
        w.draft.outBindings.lookup i = some (.variable x) → found ≠ [])
      (fun pre e post hsplit found => ?_) []).mono (fun w' hw => ⟨hw, by simp, by simp⟩)
      fun _ _ hw => hw) fun found => .pure fun w' hw => ?_
    · obtain ⟨s, i⟩ := e
      obtain ⟨hi, hs⟩ := getElem?_of_zipIdx_split hsplit
      rw [Array.getElem?_toList] at hs
      rintro w' ⟨rfl, hfnd, hsome⟩
      dsimp only
      rw [get_bind]
      cases hb : w'.draft.outBindings.lookup i with
      | none =>
        refine .returns ⟨found, rfl, rfl, hfnd, fun j x hj hx => ?_⟩
        rw [length_append, length_singleton] at hj
        by_cases hji : j = i
        · rw [hji, hb] at hx
          cases hx
        · exact hsome j x (by omega) hx
      | some b =>
        obtain ⟨hfor, hholds⟩ := h i b s hb hs
        obtain ⟨more, hmore, hkind, hne⟩ :=
          exists_outputVariables (hu s (Array.mem_of_getElem? hs)) hfor hholds
        simp only
        rw [bind_of_ok hmore]
        refine .returns ⟨found ++ more, rfl, rfl, fun e he => ?_, fun j x hj hx => ?_⟩
        · exact (mem_append.1 he).elim (hfnd e) (hkind e)
        · rw [length_append, length_singleton] at hj
          by_cases hji : j = i
          · rw [hji, hb] at hx
            exact append_ne_nil_of_right_ne_nil _ (hne x (Option.some.inj hx))
          · exact append_ne_nil_of_left_ne_nil (hsome j x (by omega) hx) _
    · simpa using hw
  obtain ⟨found, w', hfnd, rfl, h⟩ := (hloop w rfl).ok
  exact ⟨found, hfnd, h⟩

theorem declareOutput_harmless (hx : Text.isIdentifier x = true) :
    Harmless (declareOutput type (some x)) := by
  intro w
  unfold declareOutput
  simp only [hx, Bool.not_true, Bool.false_eq_true, ↓reduceIte]
  rw [get_bind]
  split
  · exact ⟨_, _, rfl, rfl⟩
  · exact ⟨_, _, rfl, rfl⟩

theorem declareOutput_fails (hx : Text.isIdentifier x ≠ true)
    (w : Workspace) : declareOutput type (some x) w = .error (.unmet "") w := by
  unfold declareOutput
  simp only [hx, Bool.not_false, ↓reduceIte]
  rfl

theorem declareOutputs_decides (hu : ∀ s ∈ c.node.outputs, s.type.isKnown = true) :
    Decides none (Ready c.node stock given) (declareOutputs c) fun _ => Ready c.node stock
    given := by
  intro w hw
  obtain ⟨found, hfnd, hkind, -⟩ := exists_boundVariables hu hw.exposes
  rw [declareOutputs, bind_of_ok hfnd]
  refine Decides.bind (.forIn_sure (fun _ _ => Ready c.node stock given)
    (fun pre e post hsplit _ => ?_) _) (R := fun _ => Ready c.node stock given)
    (fun _ => .pure fun _ hw => hw) w hw
  obtain ⟨type, id⟩ := e
  obtain ⟨x, hid, hx⟩ := hkind (type, id) (hsplit ▸ by simp)
  cases hid
  exact (declareOutput_harmless type hx).decides.bind fun _ => .pure fun _ hw => ⟨_, rfl, hw⟩

theorem declareOutputs_fails (hu : ∀ s ∈ c.node.outputs, s.type.isKnown = true)
    (Q : Unit → Workspace → Prop) :
    Decides (some (.unmet "")) (fun w => (w.Exposes c.node fun x => Text.isIdentifier x ≠ true) ∧
        ∃ i x, i < c.node.outputs.size ∧ w.draft.outBindings.lookup i = some (.variable x))
      (declareOutputs c) Q := by
  rintro w ⟨hw, i, x, hi, hx⟩
  obtain ⟨found, hfnd, hkind, hne⟩ := exists_boundVariables hu hw
  rw [declareOutputs, bind_of_ok hfnd]
  obtain ⟨⟨type, id⟩, rest, rfl⟩ := exists_cons_of_ne_nil (hne i x hi hx)
  obtain ⟨y, hid, hy⟩ := hkind (type, id) (by simp)
  cases hid
  rw [forIn_cons, bind_of_error (bind_of_error (bind_of_error (declareOutput_fails type hy w) _) _)]
  exact .fails

variable [Scalar α] {r : NodeRule}

/-! ### One node -/

theorem isIdentifier_append_space {x y : String} : Text.isIdentifier (x ++ " = " ++ y) ≠ true := by
  have hpart : Text.continuesIdentifier ' ' = false := by decide +kernel
  have hst : Text.beginsIdentifier ' ' = false := by decide +kernel
  have hspace : ' ' ∈ (x ++ " = " ++ y).toList := by simp
  intro h
  unfold Text.isIdentifier at h
  split at h
  · cases h
  · next d ds hd =>
    rw [hd] at hspace
    rw [Bool.and_eq_true, all_eq_true] at h
    rcases mem_cons.1 hspace with rfl | hmem
    · exact absurd h.1 (by simp [hst])
    · exact absurd (h.2 _ hmem) (by simp [hpart])

theorem writeValue_decides (hwf : c.node.WellFormed c.version)
    (hfit : NodeRule.value.Fits c.version c.node) :
    Decides none (Ready c.node stock []) (writeValue c)
      fun _ w => (w.Exposes c.node fun x => Text.isIdentifier x ≠ true) ∧
        ∃ i x, i < c.node.outputs.size ∧ w.draft.outBindings.lookup i = some (.variable x) := by
  obtain ⟨i, s, hi, hout, -⟩ :=
    hwf.shows_named hfit.suits (hfit.has.outputNames "Value" (by simp [NodeRule.needs]))
  obtain ⟨code, hcode⟩ := SocketValue.code_ok hout.usual.value
  refine lift_decides hi (lift_decides (output_ok hout.output) ?_)
  refine (nameOutput_decides hout).bind fun x => .of_fact fun _ => lift_decides hcode ?_
  refine .of_ok fun w hw => ⟨_, _, rfl, fun j b s' hb hs' => ?_, i, x ++ " = " ++ code,
    (Array.getElem?_eq_some_iff.1 hout.output).1, ?_⟩
  · rw [lookup_set] at hb
    split at hb
    · next hji =>
      cases hb
      cases hout.output.symm.trans (hji ▸ hs')
      exact ⟨hout.value, isIdentifier_append_space⟩
    · have := (hw.given j).1 (by rw [hb]; rfl)
      simp at this
  · rw [lookup_set, if_pos rfl]

/-- **The code of a node can be written unless there is a complaint about the links to its inputs or
about the node itself.** -/
theorem draftNode_decides (hc : c.Supplied stock) (hr : NodeRule.ofNode c.node = .ok r) :
    Decides (c.tree.nodeComplaint? c.version c.position) (Sound c.node stock 0 []) (draftNode c r)
      fun _ => Ready c.node stock (r.given c.tree c.position c.node) := by
  have hwf := hc.tree.nodes c.node (Array.mem_of_getElem? hc.node)
  have hfit := hwf.fits r hr
  have hu : ∀ s ∈ c.node.outputs, s.type.isKnown = true := fun s hs => (hwf.outputs s hs).type
  have hcomp : c.tree.nodeComplaint? c.version c.position =
      ((List.range c.node.inputs.size).findSome? (c.tree.inputComplaint? c.position)).or
        (r.complaint? c.version c.node) := by
    simp [NodeTree.nodeComplaint?, hc.node, hr, Except.toOption]
  rw [hcomp]
  refine (bindInputs_decides hc).bind_or fun _ => ?_
  by_cases hval : r = .value
  · subst hval
    exact (writeValue_decides hwf hfit).bind fun _ => declareOutputs_fails hu _
  · exact (write_decides hwf hfit hval).bind_sure fun _ => declareOutputs_decides hu

variable {α : Type}

/-! ### Textures -/

namespace ShaderScript

/-- All textures of a script show images of one kind. -/
def TexturesWithin (s : ShaderScript) (kind : Option ImageId → Prop) : Prop :=
  ∀ x ∈ s.textures, kind x.1.image

variable {kind : Option ImageId → Prop}

theorem TexturesWithin.addFunctions (h : s.TexturesWithin kind) (names : List String) :
    (s.addFunctions names).TexturesWithin kind := by
  induction names generalizing s with
  | nil => exact h
  | cons name names ih =>
    refine ih ?_
    unfold addFunction
    split <;> exact h

theorem TexturesWithin.bindTextures (h : s.TexturesWithin kind) {ts : List Texture}
    (ht : ∀ t ∈ ts, kind t.image) (lines : List Line) : (s.bindTextures ts lines).1.TexturesWithin
    kind := by
  induction ts generalizing s lines with
  | nil => exact h
  | cons t ts ih =>
    refine ih ?_ (fun t' ht' => ht t' (mem_cons_of_mem _ ht')) _
    change ShaderScript.TexturesWithin (s.textureName t).2 kind
    unfold textureName
    split
    · exact h
    · intro x hx
      rcases mem_append.1 hx with hx | hx
      · exact h x hx
      · exact mem_singleton.1 hx ▸ ht t mem_cons_self

theorem textures_addBoundingBox : s.addBoundingBox.textures = s.textures := by
  unfold addBoundingBox
  split <;> rfl

theorem textures_addFunction (s : ShaderScript) {name : String} : (s.addFunction name).textures =
    s.textures := by
  unfold addFunction
  split <;> rfl

theorem textures_addTransparency (c : Closure) : (s.addTransparency c).textures = s.textures := by
  unfold addTransparency
  split
  · split
    · exact textures_addFunction s
    · rfl
  · rfl

theorem TexturesWithin.addOutput (h : s.TexturesWithin kind) (c : Closure) :
    (s.addOutput c).TexturesWithin kind := by
  have htex : (s.addOutput c).textures = s.textures :=
    (textures_addTransparency c).trans textures_addBoundingBox
  unfold TexturesWithin
  rw [htex]
  exact h

end ShaderScript

/-! ### Nodes one after another -/

section Lift

variable {β γ : Type} {verdict : Option Failure} {P : Log → Prop} {R : γ → Log → Prop}
  {x : Except Failure β} {next : β → Logged γ}

theorem Logged.lift_decides {b : β} (hx : x = .ok b) (hn : Decides verdict P (next b) R) :
    Decides verdict P ((liftM x : Logged β) >>= next) R := by
  subst hx
  exact hn

theorem Logged.lift_decides_sure (hn : ∀ b, x = .ok b → Decides none P (next b) R) :
    Decides (Outcome.failure? x) P ((liftM x : Logged β) >>= next) R := by
  cases x with
  | ok b => exact hn b rfl
  | error e => exact fun _ _ => .fails

end Lift

variable [Scalar α] {t : NodeTree α} {v : Version}

/-- A script under way when some nodes were compiled. -/
structure Compilation.Built (c : Compilation) (t : NodeTree α) (done : List Nat) : Prop where
  store : ∀ (id : Nat) cl, c.closures[id]? = some cl → cl.IsNamed
  finished : ∀ i ∈ done, ∀ n r, t.nodes[i]? = some n → NodeRule.ofNode n = .ok r →
    ∃ f, c.finished.lookup i = some f ∧ f.Settles t i n r c.closures.size
  textures : c.script.TexturesWithin fun image => ∃ n ∈ t.nodes, n.image = some image

variable {closures : Array Closure} {c : Compilation} {output : Nat}

omit [Scalar α] in
theorem sound_start (n : ShaderNode α) (h : ∀ (id : Nat) c, closures[id]? = some c → c.IsNamed)
    (index : Nat) : Sound n closures.size 0 [] { draft := { index }, closures } :=
  ⟨⟨index, rfl⟩, Nat.le_refl _, h, nofun, nofun, nofun, by simp⟩

theorem runDraft_decides {c : NodeContext α} (hc : c.Supplied closures.size)
    (hr : NodeRule.ofNode c.node = .ok r) (h : ∀ (id : Nat) c, closures[id]? = some c → c.IsNamed)
    (index : Nat) (P : Log → Prop) :
    Decides (c.tree.nodeComplaint? c.version c.position) P (runDraft c r index closures)
      fun w _ => Ready c.node closures.size (r.given c.tree c.position c.node) w := by
  intro log _
  have hdraft := draftNode_decides hc hr _ (sound_start c.node h index)
  unfold runDraft EStateM.run
  generalize c.tree.nodeComplaint? c.version c.position = verdict at hdraft
  generalize draftNode c r { draft := { index }, closures } = result at hdraft
  cases hdraft with
  | returns hw => exact .returns hw
  | fails => exact .fails

theorem Compilation.addNode_decides {done : List Nat} (hc : c.Built t done) (ht : t.WellFormed v)
    {position : Nat} (hposi : position < t.nodes.size) (hpre : ∀ i, t.Feeds i position → i ∈ done)
    (index : Nat) (P : Log → Prop) :
    Decides (t.nodeComplaint? v position) P (c.addNode t v position index)
      fun c' _ => c'.Built t (done ++ [position]) := by
  have hn : t.nodes[position]? = some t.nodes[position] := Array.getElem?_eq_getElem hposi
  have hwf := ht.nodes _ (Array.mem_of_getElem? hn)
  obtain ⟨r, hr⟩ := hwf.exists_rule
  have hnode : t.node position = .ok t.nodes[position] := by rw [NodeTree.node, hn]; rfl
  have hsupp : NodeContext.Supplied ⟨t, position, t.nodes[position], v,
      (position, ⟨r.isValid, []⟩) :: c.finished⟩ c.closures.size := by
    refine ⟨ht, hn, fun l hl hto n r' hn' hr' => ?_⟩
    have hfeeds : t.Feeds l.fromNode position := ⟨l, hl, ht.valid l hl, rfl, hto⟩
    obtain ⟨f, hf, hsett⟩ := hc.finished _ (hpre _ hfeeds) n r' hn' hr'
    -- No node feeds itself, so that its own entry hides none of its sources.
    have hne : l.fromNode ≠ position := fun he => ht.acyclic position (.single (he ▸ hfeeds))
    exact ⟨f, by rw [lookup_cons, beq_false_of_ne hne]; exact hf, hsett⟩
  have hrun := runDraft_decides hsupp hr hc.store index P
  refine Logged.lift_decides hnode
    (Logged.lift_decides hr (hrun.bind_sure fun w => .pure fun _ hw => ?_))
  refine ⟨hw.store, fun i hi n r' hn' hr' => ?_, ?_⟩
  · rw [lookup_cons]
    by_cases he : i = position
    · subst he
      cases hn.symm.trans hn'
      cases hr.symm.trans hr'
      exact ⟨⟨r.isValid, w.draft.outBindings⟩, by simp, rfl, hw.given, hw.outputs⟩
    · obtain ⟨f, hf, hsett⟩ := hc.finished i (by simpa [he] using hi) n r' hn' hr'
      exact ⟨f, by rw [beq_false_of_ne he]; exact hf, hsett.mono hw.stock⟩
  · refine (hc.textures.addFunctions _).bindTextures (fun x hx => ?_) _
    exact ⟨_, Array.mem_of_getElem? hn, hw.textures x hx⟩

omit [Scalar α] in
theorem findSome?_filter {β γ : Type} (p : β → Bool) (f : β → Option γ) (l : List β) :
    (l.filter p).findSome? f = l.findSome? fun b => if p b then f b else none := by
  induction l with
  | nil => rfl
  | cons b l ih => cases hb : p b <;> simp [hb, ih, findSome?_cons]

/-- **The nodes of a tree can be compiled up to the first that there is a complaint about.** -/
theorem NodeTree.compileNodes_decides (ht : t.WellFormed v) (ho : ∃ n, t.nodes[output]? = some n ∧
    n.id = outputId) (P : Log → Prop) :
    Decides ((t.order.filter (· ≠ output)).findSome? (t.nodeComplaint? v)) P
      (t.compileNodes v output) fun c _ => c.Built t (t.order.filter (· ≠ output)) := by
  -- No link leads from the node that ends the material.
  have hends : ∀ i, ¬t.Feeds output i := by
    rintro i ⟨l, hl, -, hfrom, -⟩
    obtain ⟨n, hn, hid⟩ := ho
    obtain ⟨n', s, hn', hs⟩ := ht.joined.exists_source hl
    cases hn.symm.trans (hfrom ▸ hn')
    simp [((ht.nodes n (Array.mem_of_getElem? hn)).ending hid).2] at hs
  have hverd : (t.order.filter (· ≠ output)).findSome? (t.nodeComplaint? v) =
      t.order.zipIdx.findSome? fun e => if e.1 ≠ output then t.nodeComplaint? v e.1 else none := by
    rw [findSome?_filter]
    conv_lhs => rw [← zipIdx_map_fst 0 t.order, findSome?_map]
    simp [Function.comp_def]
  rw [hverd]
  refine .bind_sure ((Decides.forIn (fun (pre : List (Nat × Nat)) c _ =>
    Compilation.Built c t ((pre.map (·.1)).filter (· ≠ output))) _
    (fun pre e post hsplit c => ?_) {}).mono (fun _ _ => ⟨nofun, nofun, nofun⟩) fun _ _ hw => hw)
    fun c => .pure fun _ hc => ?_
  · -- The nodes before this one in the order were compiled, apart from the last node.
    obtain ⟨position, index⟩ := e
    have hord : t.order = pre.map (·.1) ++ position :: post.map (·.1) := by
      rw [← zipIdx_map_fst 0 t.order, hsplit]
      simp
    intro log hc
    dsimp only
    split
    · next hne =>
      have hpre : ∀ i, t.Feeds i position → i ∈ (pre.map (·.1)).filter (· ≠ output) := by
        intro i hi
        refine mem_filter.2 ⟨source_before_of_order ht.joined hord hi, ?_⟩
        simpa using fun he : i = output => hends position (he ▸ hi)
      refine ((Compilation.addNode_decides hc ht (isNext_of_order ht.joined hord).lt_size hpre index
        fun _ => True).bind_sure fun c' => .pure fun _ hc' => ⟨c', rfl, ?_⟩) log trivial
      simpa [hne] using hc'
    · next he =>
      refine .returns ⟨c, rfl, ?_⟩
      simpa [not_not.1 he] using hc
  · simpa using hc

/-! ### The surface of the material -/

/-- The surface of the material is found unless there is a complaint about it. -/
theorem Compilation.surface?_outcome (ht : t.WellFormed v)
    (ho : ∃ n, t.nodes[output]? = some n ∧ n.id = NodeTree.outputId)
    (hc : c.Built t (t.order.filter (· ≠ output))) :
    Outcome.failure? (c.surface? t output) = t.surfaceFault? output ∧
      ∀ surface, c.surface? t output = .ok surface → surface.isSome = t.hasSurface output := by
  obtain ⟨n, hn, hid⟩ := ho
  obtain ⟨hsurf, hnone⟩ := (ht.nodes n (Array.mem_of_getElem? hn)).ending hid
  obtain ⟨i, hi⟩ := Option.isSome_iff_exists.1 hsurf
  have hnode : t.node output = .ok n := by rw [NodeTree.node, hn]; rfl
  have hinput : n.inputNamed "Surface" = .ok i := by rw [ShaderNode.inputNamed, hi]; rfl
  have hlink : t.surfaceLink? output = (t.linksTo output i).head? := by
    simp [NodeTree.surfaceLink?, hn, hi]
  unfold Compilation.surface? NodeTree.surfaceFault? NodeTree.hasSurface
  rw [hnode, hlink]
  simp only [hinput, bind, Except.bind]
  cases hl : t.linksTo output i with
  | nil =>
    refine ⟨rfl, fun surface hs => ?_⟩
    cases hs
    rfl
  | cons l rest =>
    have hmem : l ∈ t.links := by
      have hin : l ∈ t.linksTo output i := hl ▸ mem_cons_self
      exact mem_of_mem_filter hin
    obtain ⟨m, s, r, hm, hs, hr, horig⟩ := ht.exists_origin hmem
    have hne : l.fromNode ≠ output := by
      rintro rfl
      cases hn.symm.trans hm
      simp [hnone] at hs
    have hdone : l.fromNode ∈ t.order.filter (· ≠ output) := mem_filter.2
      ⟨NodeTree.mem_order_of_not_followsCycle ht.joined (Array.getElem?_eq_some_iff.1 hm).1 fun h =>
        h.elim fun j hj => ht.acyclic j hj.1, by simpa using hne⟩
    obtain ⟨f, hf, hsett⟩ := hc.finished _ hdone m r hm hr
    have hvoid : t.isVoid l = (r.isValid && !(r.given t l.fromNode m).contains l.fromSocket) := by
      simp [NodeTree.isVoid, horig]
    simp only [head?_cons, Option.bind_some, horig, hvoid, hf, need, hsett.valid, Option.any_some]
    cases hvld : r.isValid with
    | false =>
      refine ⟨rfl, fun surface h => ?_⟩
      cases h
      rfl
    | true =>
      rcases hsett.cases hs with ⟨hb, hgvn⟩ | ⟨b, hb, hgvn, hsuits⟩ <;> simp only [hb]
      · refine ⟨by simp [hgvn, Outcome.failure?], fun surface h => ?_⟩
        cases h
      · rcases b with x | id
        · refine ⟨by simp [hgvn, hsuits.1, Outcome.failure?, Binding.closure?], fun surface h => ?_⟩
          cases h
        · obtain ⟨htype, hlt⟩ := hsuits
          have hclos : c.closures[id]? = some c.closures[id] := Array.getElem?_eq_getElem hlt
          refine ⟨?_, fun surface h => ?_⟩
          · simp [hgvn, htype, hclos, Outcome.failure?, Binding.closure?, pure, Except.pure]
          · simp only [Binding.closure?, hclos] at h
            cases h
            rfl

omit [Scalar α] in
theorem NodeTree.outputNode?_decides (t : NodeTree α) (P : Log → Prop) :
    Decides none P t.outputNode? fun o _ => o = t.outputNodes.head? := by
  refine .bind ((Decides.forIn_sure (fun _ _ _ => True) (fun _ _ _ _ _ => ?_) _).mono
    (fun _ _ => trivial) fun _ _ h => h) fun _ => .pure fun _ _ => rfl
  exact .of_ok fun _ _ => ⟨_, _, rfl, _, rfl, trivial⟩

/-- **Whether a well-formed tree can be compiled is told by the complaints about its nodes and its
surface.** -/
theorem NodeTree.compile_decides (ht : t.WellFormed v) (P : Log → Prop) :
    Decides (t.outputNodes.head?.bind fun output =>
        ((t.order.filter (· ≠ output)).findSome? (t.nodeComplaint? v)).or (t.surfaceFault? output))
          P
      (t.compile v) fun script _ =>
        script.isSome = t.outputNodes.head?.any (t.hasSurface ·) ∧
          ∀ s, script = some s → s.TexturesWithin fun image => ∃ n ∈ t.nodes, n.image =
          some image := by
  refine (t.outputNode?_decides P).bind fun o => ?_
  rintro log rfl
  cases ho : t.outputNodes.head? with
  | none => exact .returns ⟨rfl, nofun⟩
  | some output =>
    have hnode : ∃ n, t.nodes[output]? = some n ∧ n.id = outputId := by
      have hid := (mem_filter.1 (mem_of_mem_head? ho)).2
      simpa using hid
    refine Decides.bind_or (compileNodes_decides ht hnode fun _ => True) (fun c log hc => ?_) log
      trivial
    obtain ⟨hfault, hsome⟩ := c.surface?_outcome ht hnode hc
    rw [← hfault]
    refine Logged.lift_decides_sure (P := fun _ => True) (fun surface hs => ?_) log trivial
    have hsome := hsome surface hs
    cases surface with
    | none => exact .pure fun _ _ => ⟨hsome, nofun⟩
    | some surface =>
      refine .pure fun _ _ => ⟨hsome, fun s hscri => ?_⟩
      cases hscri
      exact hc.textures.addOutput surface

end SceneExport
