import SceneExport.Proofs.Shader.Sound

/-!
# Whether inputs can be bound

The inputs of a node take their values from nodes that were finished before (`Finished.Settles`).  A
link from an output that was given can be used, one from an output that was not given is
complained about (`bindInputs_decides`).

A complaint about a well-formed tree says that there is no support for the tree, or the tree has one
of few properties that the code of the rules does not reckon with (`NodeTree.Fault`).  The rule for
the geometry of a mesh gives three outputs of its node, and the rules that give a single output are
for nodes that have no other.  So in a tree whose nodes have their usual outputs, a link whose
output is not given comes from a node for geometry (`NodeTree.Fault.of_void`).
-/

namespace SceneExport

open List

variable {α : Type} {s : Socket α} {r : NodeRule} {l : NodeLink} {v : Version}

/-! ### Nodes that were finished -/

/-- The node `n` at a position of a tree was finished by its rule: the outputs that the rule gives
are bound to what suits them. -/
structure Finished.Settles (f : Finished) (t : NodeTree α) (position : Nat) (n : ShaderNode α)
    (r : NodeRule) (stock : Nat) : Prop where
  valid : f.valid = r.isValid
  given : ∀ k, (f.outputs.lookup k).isSome ↔ k ∈ r.given t position n
  outputs : ∀ k b, f.outputs.lookup k = some b →
    ∃ s, n.outputs[k]? = some s ∧ b.Suits stock s.type

variable {t : NodeTree α} {n : ShaderNode α} {position : Nat} {f : Finished}

theorem Finished.Settles.mono {stock stock' : Nat} (h : f.Settles t position n r stock)
    (hs : stock ≤ stock') :
    f.Settles t position n r stock' := by
  refine ⟨h.valid, h.given, fun k b hb => ?_⟩
  obtain ⟨s, hk, hsuits⟩ := h.outputs k b hb
  exact ⟨s, hk, hsuits.mono hs⟩

theorem Finished.Settles.cases {stock k : Nat} (h : f.Settles t position n r stock)
    (hs : n.outputs[k]? = some s) :
    (f.outputs.lookup k = none ∧ k ∉ r.given t position n) ∨
      ∃ b, f.outputs.lookup k = some b ∧ k ∈ r.given t position n ∧ b.Suits stock s.type := by
  cases hb : f.outputs.lookup k with
  | none => exact .inl ⟨rfl, fun hk => absurd ((h.given k).2 hk) (by simp [hb])⟩
  | some b =>
    obtain ⟨s', hs', hsuits⟩ := h.outputs k b hb
    cases hs.symm.trans hs'
    exact .inr ⟨b, rfl, (h.given k).1 (by rw [hb]; rfl), hsuits⟩

variable [Scalar α]

theorem ShaderNode.WellFormed.exists_rule (h : n.WellFormed v) : ∃ r, NodeRule.ofNode n =
    .ok r := by
  obtain ⟨name, hname⟩ := h.named
  unfold NodeRule.ofNode
  split
  · exact ⟨_, rfl⟩
  · split
    · exact ⟨_, rfl⟩
    · rw [Names.hasFunction, hname]
      cases hf : (Library.find? name).isSome
      · exact ⟨.unsupported, by simp [hf, bind, Except.bind, pure, Except.pure]⟩
      · exact ⟨.general, by simp [hf, bind, Except.bind, pure, Except.pure]⟩

theorem NodeTree.WellFormed.exists_origin (ht : t.WellFormed v) (hl : l ∈ t.links) :
    ∃ n s r, t.nodes[l.fromNode]? = some n ∧ n.outputs[l.fromSocket]? = some s ∧
      NodeRule.ofNode n = .ok r ∧ t.origin? l = some (n, s, r) := by
  obtain ⟨n, s, hn, hs⟩ := ht.joined.exists_source hl
  obtain ⟨r, hr⟩ := (ht.nodes n (Array.mem_of_getElem? hn)).exists_rule
  exact ⟨n, s, r, hn, hs, hr, by simp [NodeTree.origin?, hn, hs, hr, Except.toOption]⟩

/-- The nodes that are linked to the inputs of a node are finished. -/
structure NodeContext.Supplied (c : NodeContext α) (stock : Nat) : Prop where
  tree : c.tree.WellFormed c.version
  node : c.tree.nodes[c.position]? = some c.node
  sources : ∀ l ∈ c.tree.links, l.toNode = c.position → ∀ n r,
    c.tree.nodes[l.fromNode]? = some n → NodeRule.ofNode n = .ok r →
      ∃ f, c.finished.lookup l.fromNode = some f ∧ f.Settles c.tree l.fromNode n r stock

/-- All that is known of the link to an input. -/
structure NodeContext.Linked (c : NodeContext α) (stock i : Nat) (s : Socket α) (l : NodeLink)
    (n : ShaderNode α) (source : Socket α) (r : NodeRule) (f : Finished) : Prop where
  node : c.tree.node l.fromNode = .ok n
  output : n.outputs[l.fromSocket]? = some source
  usual : source.IsUsual
  typed : source.type = .shader → s.type = .shader
  settles : f.Settles c.tree l.fromNode n r stock
  source? : c.source? i = .ok (some (l, f, source))
  complaint : c.tree.inputComplaint? c.position i =
    if (s.type ≠ .shader ∨ source.type = .shader) ∧ r.isValid = true ∧
        l.fromSocket ∉ r.given c.tree l.fromNode n then some .missingKey else none

variable {c : NodeContext α} {stock : Nat}

theorem NodeContext.Supplied.linked (h : c.Supplied stock) {i : Nat}
    (hs : c.node.inputs[i]? = some s) {rest : List NodeLink} (hl : c.tree.linksTo c.position i =
    l :: rest) :
    ∃ n source r f, c.Linked stock i s l n source r f := by
  have hmem : l ∈ c.tree.links ∧ l.toNode = c.position ∧ l.toSocket = i := by
    have hin : l ∈ c.tree.linksTo c.position i := hl ▸ mem_cons_self
    simpa [NodeTree.linksTo] using hin
  obtain ⟨hmem, hto, hsock⟩ := hmem
  obtain ⟨n, source, r, hn, hsrc, hr, horig⟩ := h.tree.exists_origin hmem
  have hwf := h.tree.nodes n (Array.mem_of_getElem? hn)
  obtain ⟨f, hf, hsett⟩ := h.sources l hmem hto n r hn hr
  have hnode : c.tree.node l.fromNode = .ok n := by rw [NodeTree.node, hn]; rfl
  have htgt : c.tree.target? l = some s := by rw [NodeTree.target?, hto, hsock, h.node]; exact hs
  have hsource? : c.tree.source? l = some source := by rw [NodeTree.source?, hn]; exact hsrc
  refine ⟨n, source, r, f, ⟨hnode, hsrc, hwf.outputs _ (Array.mem_of_getElem? hsrc), ?_, hsett, ?_,
    ?_⟩⟩
  · simpa [htgt, hsource?] using h.tree.typed l hmem
  · have houtp : n.output l.fromSocket = .ok source := by rw [ShaderNode.output, hsrc]; rfl
    simp only [NodeContext.source?, hl, hf, hnode, need, bind, Except.bind, houtp]
    rfl
  · rw [NodeTree.inputComplaint?, hl, head?_cons, Option.bind_some, NodeTree.isVoid,
      NodeTree.isRead, htgt, hsource?, horig]
    simp

/-! ### Values that enter -/

/-- Values of known types can be turned into each other. -/
theorem linkedValue_ok {target source : SocketType} (ht : target.isKnown = true)
    (hs : source.isKnown = true) (ht' : target ≠ .shader) (hs' : source ≠ .shader)
    (targetId sourceId : String) :
    ∃ value, Drafting.linkedValue targetId target sourceId source = .ok value := by
  cases target <;> cases source <;>
    first
    | exact ⟨_, rfl⟩
    | exact absurd rfl ht'
    | exact absurd rfl hs'
    | simp [SocketType.isKnown] at ht hs

theorem SocketValue.code_ok {v : SocketValue α} (h : v.isSimple = true) : ∃ code, v.code =
    .ok code := by
  cases v <;> first | exact ⟨_, rfl⟩ | cases h

theorem defaultValue_ok (h : s.IsUsual) : ∃ value, defaultValue s = .ok value := by
  obtain ⟨code, hcode⟩ := SocketValue.code_ok h.value
  unfold defaultValue
  split
  · exact ⟨_, rfl⟩
  · exact ⟨_, rfl⟩
  · exact ⟨.text code, by rw [hcode]; rfl⟩

theorem SocketType.codeType_ok {type : SocketType} (h : type.isKnown = true) (h' : type ≠ .shader) :
    ∃ word, type.codeType = .ok word := by
  cases type <;> first | exact ⟨_, rfl⟩ | exact absurd rfl h' | cases h

open Drafting

variable {entered i : Nat} {given : List Nat}

theorem inputValue?_decides (hc : c.Supplied stock) (hs : c.node.inputs[i]? = some s)
    (hu : s.IsUsual) (ht : s.type ≠ .shader) (id : String) :
    Decides (c.tree.inputComplaint? c.position i) (Sound c.node stock entered given)
      (inputValue? c i s id) fun _ => Sound c.node stock entered given := by
  cases hl : c.tree.linksTo c.position i with
  | nil =>
    have hnone : c.source? i = .ok none := by rw [NodeContext.source?, hl]; rfl
    rw [NodeTree.inputComplaint?, hl]
    exact lift_decides hnone (.pure fun _ hw => hw)
  | cons l rest =>
    obtain ⟨n, source, r, f, h⟩ := hc.linked hs hl
    refine lift_decides h.source? ?_
    -- Surfaces are linked to inputs for surfaces only.
    have hsrc : source.type ≠ .shader := fun he => ht (h.typed he)
    dsimp only
    split
    · next hvld =>
      rw [h.settles.valid] at hvld
      rw [h.complaint]
      rcases h.settles.cases h.output with ⟨hb, hgvn⟩ | ⟨b, hb, hgvn, hsuits⟩
      · rw [if_pos ⟨.inl ht, hvld, hgvn⟩, hb]
        exact fun _ _ => .fails
      · rw [if_neg fun hn => hn.2.2 hgvn, hb]
        refine lift_decides (b := b) rfl ?_
        rcases b with x | m
        · obtain ⟨value, hval⟩ := linkedValue_ok hu.type h.usual.type ht hsrc id x
          exact lift_decides hval (.pure fun _ hw => hw)
        · exact absurd hsuits.1 hsrc
    · next hvld =>
      rw [h.complaint, if_neg fun hn => hvld (h.settles.valid.trans hn.2.1)]
      refine lift_decides h.node ?_
      exact warn_harmless.decides.bind fun _ => .pure fun _ hw => hw

theorem bindValueInput_decides (hc : c.Supplied stock) (hs : c.node.inputs[i]? = some s)
    (hu : s.IsUsual) (ht : s.type ≠ .shader) :
    Decides (c.tree.inputComplaint? c.position i) (Sound c.node stock i given)
      (bindValueInput c i s) fun _ => Sound c.node stock (i + 1) given := by
  obtain ⟨type, htype⟩ := SocketType.codeType_ok hu.type ht
  refine lift_decides htype ((socketId_decides false hu.name).bind fun id => .of_fact fun hid => ?_)
  refine .bind (Q := fun _ => Sound c.node stock (i + 1) given)
    (.of_ok fun w hw => ⟨_, _, rfl, hw.bindInput hs ⟨ht, hid⟩⟩) fun _ => ?_
  refine (markDefined_harmless id).decides.bind fun _ => ?_
  refine (inputValue?_decides hc hs hu ht id).bind_sure fun value => ?_
  cases value with
  | some value => exact (declareInput_harmless type id value).decides
  | none =>
    obtain ⟨value, hval⟩ := defaultValue_ok hu
    exact lift_decides hval (declareInput_harmless type id value).decides

/-! ### Surfaces that enter -/

theorem inputClosure?_decides (hc : c.Supplied stock) (hs : c.node.inputs[i]? = some s)
    (ht : s.type = .shader) :
    Decides (c.tree.inputComplaint? c.position i) (Sound c.node stock entered given)
      (inputClosure? c i) fun o w => Sound c.node stock entered given w ∧
        ∀ id, o = some id → id < w.closures.size := by
  cases hl : c.tree.linksTo c.position i with
  | nil =>
    have hnone : c.source? i = .ok none := by rw [NodeContext.source?, hl]; rfl
    rw [NodeTree.inputComplaint?, hl]
    exact lift_decides hnone (.pure fun _ hw => ⟨hw, nofun⟩)
  | cons l rest =>
    obtain ⟨n, source, r, f, h⟩ := hc.linked hs hl
    refine lift_decides h.source? ?_
    dsimp only
    split
    · next hread =>
      obtain ⟨hsrc, hvld⟩ := hread
      rw [h.settles.valid] at hvld
      rw [h.complaint]
      rcases h.settles.cases h.output with ⟨hb, hgvn⟩ | ⟨b, hb, hgvn, hsuits⟩
      · rw [if_pos ⟨.inr hsrc, hvld, hgvn⟩, hb]
        exact fun _ _ => .fails
      · rw [if_neg fun hn => hn.2.2 hgvn, hb]
        refine lift_decides (b := b) rfl ?_
        rcases b with x | m
        · exact absurd hsrc hsuits.1
        · refine .pure fun w hw => ⟨hw, fun id hid => ?_⟩
          cases hid
          exact hsuits.2.trans_le hw.stock
    · next hread =>
      rw [h.complaint, if_neg fun hn =>
        hread ⟨hn.1.resolve_left (not_not_intro ht), h.settles.valid.trans hn.2.1⟩]
      exact .pure fun _ hw => ⟨hw, nofun⟩

omit [Scalar α] in
theorem renameProperty_decides {id : Nat} {name : String} (hname : Names.IsPlain name)
    (p : SurfaceProperty) :
    Decides none (fun w => Sound n stock entered given w ∧ id < w.closures.size)
    (renameProperty id name p) fun _ w => Sound n stock entered given w ∧ id < w.closures.size := by
  refine .of_ok fun w hw => ?_
  obtain ⟨hw, hid⟩ := hw
  obtain ⟨a, ha, -⟩ := closure_ok hw hid
  rw [renameProperty, bind_of_ok ha]
  cases hp : a.get? p with
  | none => exact ⟨_, _, rfl, hw, hid⟩
  | some source =>
    obtain ⟨x, w1, hx, hw1, hident⟩ := (shaderId_decides false hname p w hw).ok
    cases (shaderId_input name p.name w).symm.trans hx
    refine ⟨(), w.rename id p (nextProperty w.draft name p.name) source, rfl, ?_, ?_⟩
    · exact ((hw1.of_core rfl).setProperty hident id p).of_core rfl
    · simpa [Workspace.rename] using hid

theorem bindSurfaceInput_decides (hc : c.Supplied stock) (hs : c.node.inputs[i]? = some s)
    (hu : s.IsUsual) (ht : s.type = .shader) :
    Decides (c.tree.inputComplaint? c.position i) (Sound c.node stock i given)
      (bindSurfaceInput c i s) fun _ => Sound c.node stock (i + 1) given := by
  refine (inputClosure?_decides hc hs ht).bind_sure fun o => ?_
  extract_lets rest
  have hrest : ∀ id, Decides none (fun w => Sound c.node stock i given w ∧ id < w.closures.size)
      (rest id) fun _ => Sound c.node stock (i + 1) given := by
    intro id
    refine .bind (Q := fun _ w => Sound c.node stock (i + 1) given w ∧ id < w.closures.size)
      (.of_ok fun w hw => ⟨_, _, rfl, hw.1.bindInput hs ⟨ht, hw.2⟩, hw.2⟩) fun _ => ?_
    refine .bind (.forIn_sure (fun _ _ w => Sound c.node stock (i + 1) given w ∧
      id < w.closures.size) (fun _ p _ _ _ => ?_) _) fun _ => .pure fun _ hw => hw.1
    exact (renameProperty_decides hu.name p).bind fun _ => .pure fun _ hw => ⟨_, rfl, hw⟩
  cases o with
  | some id => exact (hrest id).mono (fun w hw => ⟨hw.1, hw.2 id rfl⟩) fun _ _ hw => hw
  | none =>
    refine .mono (P := Sound c.node stock i given) ?_ (fun _ hw => hw.1) fun _ _ hw => hw
    refine (shaderId_decides false hu.name .albedo).bind fun x => .of_fact fun hx => ?_
    refine (declareInput_harmless _ _ _).decides.bind fun _ => ?_
    exact (newClosure_decides (Closure.within_nil.set hx .albedo)).bind hrest

/-! ### All inputs -/

/-- The elements of a list come one after another with their numbers. -/
theorem getElem?_of_zipIdx_split {β : Type} {l : List β} {pre post : List (β × Nat)} {b : β}
    (h : l.zipIdx = pre ++ (b, i) :: post) : i = pre.length ∧ l[i]? = some b := by
  have hi : l.zipIdx[pre.length]? = some (b, i) := by simp [h]
  rw [getElem?_zipIdx] at hi
  obtain ⟨b', hb, he⟩ := Option.map_eq_some_iff.1 hi
  obtain ⟨rfl, rfl⟩ := Prod.mk.inj he
  exact ⟨by simp, by simpa using hb⟩

/-- **The inputs can be bound unless there is a complaint about the link to one of them.** -/
theorem bindInputs_decides (hc : c.Supplied stock) :
    Decides ((List.range c.node.inputs.size).findSome? (c.tree.inputComplaint? c.position))
      (Sound c.node stock 0 []) (bindInputs c)
      fun _ => Sound c.node stock c.node.inputs.size [] := by
  have hwf := hc.tree.nodes c.node (Array.mem_of_getElem? hc.node)
  have hrange : (List.range c.node.inputs.size).findSome? (c.tree.inputComplaint? c.position) =
      c.node.inputs.toList.zipIdx.findSome? fun e => c.tree.inputComplaint? c.position e.2 := by
    rw [range_eq_range', ← Array.length_toList, ← zipIdx_map_snd, findSome?_map]
    rfl
  rw [hrange]
  refine .bind_sure ((Decides.forIn (fun pre _ => Sound c.node stock pre.length [])
    (fun e : Socket α × Nat => c.tree.inputComplaint? c.position e.2)
    (fun pre e post hsplit _ => ?_)
    _)) fun _ => .pure fun w hw => ?_
  · obtain ⟨s, i⟩ := e
    obtain ⟨hi, hs⟩ := getElem?_of_zipIdx_split hsplit
    rw [Array.getElem?_toList] at hs
    have hu := hwf.inputs s (Array.mem_of_getElem? hs)
    rw [← hi, length_append, ← hi]
    dsimp only
    split
    · next ht =>
      exact (bindSurfaceInput_decides hc hs hu ht).bind_sure fun _ => .pure fun _ hw => ⟨_, rfl, hw⟩
    · next ht =>
      exact (bindValueInput_decides hc hs hu ht).bind_sure fun _ => .pure fun _ hw => ⟨_, rfl, hw⟩
  · simpa using hw

/-! ### Complaints that are faults -/

variable {α : Type} [Scalar α]

/-- The rule gives one output, whatever else its node has. -/
def NodeRule.isSingle : NodeRule → Bool
  | .imageTexture | .textureCoordinate | .geometry | .general | .unsupported => false
  | _ => true

namespace NodeTree

/-- What the code of the rules does not reckon with, and how it fails then. -/
inductive Fault (t : NodeTree α) : Failure → Prop
  /-- There is a node for a number. -/
  | number {n : ShaderNode α} (hn : n ∈ t.nodes) (hr : NodeRule.ofNode n = .ok .value) :
      Fault t (.unmet "")
  /-- A link comes from an output of a node for geometry that is not one of three. -/
  | geometry {l : NodeLink} {n : ShaderNode α} (hl : l ∈ t.links)
    (hn : t.nodes[l.fromNode]? = some n) (hr : NodeRule.ofNode n = .ok .geometry)
      (hs : l.fromSocket ∉ NodeRule.outputsNamed n ["Position", "Normal", "Tangent"]) :
      Fault t .missingKey
  /-- A link comes from a node that has other outputs beside the one that its rule gives. -/
  | extra {l : NodeLink} {n : ShaderNode α} {r : NodeRule} (hl : l ∈ t.links)
      (hn : t.nodes[l.fromNode]? = some n) (hr : NodeRule.ofNode n = .ok r)
      (hsing : r.isSingle = true) (hs : n.outputs.size ≠ 1) : Fault t .missingKey
  /-- The surface of the material is linked to an output for values. -/
  | surface {output : Nat} {l : NodeLink} {s : Socket α} (ho : output ∈ t.outputNodes)
      (hl : t.surfaceLink? output = some l) (hs : t.source? l = some s) (htype : s.type ≠ .shader) :
      Fault t .missingPart

end NodeTree

variable {t : NodeTree α} {n : ShaderNode α} {e : Failure}

/-! ### Outputs that are not given -/

omit [Scalar α] in
theorem NodeRule.zero_mem_outputsNamed {x : String} (hs : n.outputs.size = 1)
    (hx : (n.outputs.findIdx? (·.name == x)).isSome) : 0 ∈ outputsNamed n [x] := by
  obtain ⟨i, hi⟩ := Option.isSome_iff_exists.1 hx
  have hlt : i < n.outputs.size := (Array.findIdx?_eq_some_iff_getElem.1 hi).1
  have hzero : i = 0 := by omega
  simp [outputsNamed, hi, hzero]

theorem NodeRule.zero_mem_given (h : r.isSingle = true) (hfits : r.Fits v n)
    (hs : n.outputs.size = 1) (position : Nat) : 0 ∈ r.given t position n := by
  have hnamed := hfits.has.outputNames
  cases r with
  | imageTexture | textureCoordinate | geometry | general | unsupported => cases h
  | mixRgb | hueSaturation | invert =>
    exact zero_mem_outputsNamed hs (hnamed "Color" (by simp [needs]))
  | uvMap => exact zero_mem_outputsNamed hs (hnamed "UV" (by simp [needs]))
  | value => exact zero_mem_outputsNamed hs (hnamed "Value" (by simp [needs]))
  | _ => exact mem_singleton.2 rfl

omit [Scalar α] in
theorem NodeTree.isOutputLinked_of_mem (hl : l ∈ t.links) : t.isOutputLinked l.fromNode
    l.fromSocket = true := by
  have hfrom : l ∈ t.linksFrom l.fromNode l.fromSocket := mem_filter.2 ⟨hl, by simp⟩
  simpa [NodeTree.isOutputLinked] using ne_nil_of_mem hfrom

/-- A link whose output is not given comes from a node for geometry, or from a node with more
outputs than usual. -/
theorem NodeTree.Fault.of_void (ht : t.WellFormed v) (hl : l ∈ t.links)
    (h : t.isVoid l = true) : t.Fault .missingKey := by
  obtain ⟨n, s, r, hn, hs, hr, horig⟩ := ht.exists_origin hl
  have hlt : l.fromSocket < n.outputs.size := (Array.getElem?_eq_some_iff.1 hs).1
  obtain ⟨hvld, hgvn⟩ : r.isValid = true ∧ l.fromSocket ∉ r.given t l.fromNode n := by
    simpa [NodeTree.isVoid, horig] using h
  by_cases hsing : r.isSingle = true
  · refine .extra hl hn hr hsing fun hone => hgvn ?_
    have hzero : l.fromSocket = 0 := by omega
    have hfits := (ht.nodes n (Array.mem_of_getElem? hn)).fits r hr
    exact hzero ▸ NodeRule.zero_mem_given hsing hfits hone l.fromNode
  · cases r with
    | geometry => exact .geometry hl hn hr hgvn
    | imageTexture | general => exact absurd (mem_range.2 hlt) hgvn
    | textureCoordinate =>
      refine absurd (mem_append_left _ (mem_filter.2 ⟨mem_range.2 hlt, ?_⟩)) hgvn
      exact isOutputLinked_of_mem hl
    | unsupported => cases hvld
    | _ => exact absurd rfl hsing

/-! ### Complaints -/

theorem Names.findFunction_failure (hn : ∃ name, Names.ofNode n = .ok name)
    (h : Outcome.failure? (Names.findFunction n) = some e) : ∃ reason, e = .unsupported reason := by
  obtain ⟨name, hname⟩ := hn
  rw [Names.findFunction, hname] at h
  simp only [bind, Except.bind] at h
  split at h
  · cases h
  · cases h
    exact ⟨_, rfl⟩

/-- A complaint that does not lie in the links is about support, or about a node for a number. -/
theorem NodeRule.complaint?_cases (hwf : n.WellFormed v) (h : r.complaint? v n = some e) :
    (∃ reason, e = .unsupported reason) ∨ (e = .unmet "" ∧ r = .value) := by
  cases r with
  | value => exact .inr ⟨(Option.some.inj h).symm, rfl⟩
  | imageTexture | normalMap | bump | surface | general =>
    exact .inl (Names.findFunction_failure hwf.named h)
  | mapping =>
    rw [NodeRule.complaint?] at h
    split at h
    · exact .inl (Names.findFunction_failure hwf.named h)
    · cases h
  | _ => cases h

namespace NodeTree

theorem inputComplaint?_cases (ht : t.WellFormed v) {position i : Nat}
    (h : t.inputComplaint? position i = some e) : t.Fault e := by
  obtain ⟨l, hl, he⟩ := Option.bind_eq_some_iff.1 h
  have hmem : l ∈ t.links := mem_of_mem_filter (mem_of_mem_head? hl)
  split at he
  · next hvoid =>
    cases he
    exact .of_void ht hmem (Bool.and_eq_true_iff.1 hvoid).2
  · cases he

theorem nodeComplaint?_cases (ht : t.WellFormed v) {position : Nat}
    (h : t.nodeComplaint? v position = some e) : (∃ reason, e = .unsupported reason) ∨
    t.Fault e := by
  obtain ⟨n, hn, h⟩ := Option.bind_eq_some_iff.1 h
  have hmem := Array.mem_of_getElem? hn
  obtain ⟨r, hr⟩ := (ht.nodes n hmem).exists_rule
  simp only [hr, Except.toOption, bind, Option.bind_some] at h
  rcases Option.or_eq_some_iff.1 h with hinput | ⟨-, hrule⟩
  · obtain ⟨i, -, hi⟩ := exists_of_findSome?_eq_some hinput
    exact .inr (inputComplaint?_cases ht hi)
  · rcases NodeRule.complaint?_cases (ht.nodes n hmem) hrule with hu | ⟨rfl, rfl⟩
    · exact .inl hu
    · exact .inr (.number hmem hr)

theorem surfaceFault?_cases (ht : t.WellFormed v) {output : Nat} (ho : output ∈ t.outputNodes)
    (h : t.surfaceFault? output = some e) : t.Fault e := by
  obtain ⟨l, hl, h⟩ := Option.bind_eq_some_iff.1 h
  have hmem : l ∈ t.links := by
    obtain ⟨n, -, hl⟩ := Option.bind_eq_some_iff.1 hl
    obtain ⟨i, -, hl⟩ := Option.bind_eq_some_iff.1 hl
    exact mem_of_mem_filter (mem_of_mem_head? hl)
  obtain ⟨n, s, r, hn, hs, -, horig⟩ := ht.exists_origin hmem
  have hsrc : t.source? l = some s := by rw [source?, hn]; exact hs
  simp only [horig, bind, Option.bind_some] at h
  split at h
  · cases h
  · split at h
    · next hvoid =>
      cases h
      exact .of_void ht hmem hvoid
    · split at h
      · next htype =>
        cases h
        exact .surface ho hl hsrc htype
      · cases h

/-- A complaint about a well-formed tree is that there is no support for it, or it is a fault. -/
theorem complaint?_cases (ht : t.WellFormed v) {name : String} (h : t.complaint? v name = some e) :
    (∃ reason, e = .unsupported reason) ∨ t.Fault e := by
  unfold complaint? at h
  cases ho : t.outputNodes.head? with
  | none =>
    rw [ho] at h
    exact .inl ⟨_, (Option.some.inj h).symm⟩
  | some output =>
    rw [ho] at h
    rcases Option.or_eq_some_iff.1 h with hnode | ⟨-, hrest⟩
    · obtain ⟨i, -, hi⟩ := exists_of_findSome?_eq_some hnode
      exact nodeComplaint?_cases ht hi
    · rcases Option.or_eq_some_iff.1 hrest with hfault | ⟨-, hsupp⟩
      · exact .inr (surfaceFault?_cases ht (mem_of_mem_head? ho) hfault)
      · split at hsupp
        · cases hsupp
        · exact .inl ⟨_, (Option.some.inj hsupp).symm⟩

end NodeTree

end SceneExport
