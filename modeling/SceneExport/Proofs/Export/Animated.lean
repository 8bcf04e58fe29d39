import SceneExport.Proofs.Export.Traversal

/-!
# Which objects are animated

The visit of an object has two parts.  First the object is placed: its node is made, below the node
of its parent or below an attachment (`ExportM.placeAs`).  Then its animation is exported, but only
if its node says something else than the node above it.  Nodes are compared by what they say and not
by what they are, so a node of its own is not enough: a child that lies where its parent lies, and
says nothing else either, is not animated (`ExportM.exportScene_animates`).
-/

namespace SceneExport

variable {α : Type} [Scalar α] {cfg : Settings} {id : ObjectId}

/-! ### Nodes that say the same -/

theorem Value.sameEntries_iff {as bs : List (String × Value α)} :
    sameEntries as bs = true ↔ List.Forall₂ (fun x y => x.1 = y.1 ∧ x.2.same y.2 = true) as bs := by
  induction as generalizing bs with
  | nil =>
    cases bs with
    | nil => simp [sameEntries]
    | cons b bs => simp [sameEntries]
  | cons a as ih =>
    cases bs with
    | nil => simp [sameEntries]
    | cons b bs => simp [sameEntries, ih, and_assoc]

/-- Two nodes say the same: they have properties of the same names, in the same order and with the
same values. -/
inductive Session.SaysSame (s : Session α) : Option NodeId → Option NodeId → Prop
  | intro {a b : NodeId} {m n : Node α} (ha : s.file.tree.nodes[a]? = some m)
      (hb : s.file.tree.nodes[b]? = some n)
      (h : List.Forall₂ (fun x y => x.1 = y.1 ∧ x.2.same y.2 = true) m.entry.properties
      n.entry.properties) :
      SaysSame s (some a) (some b)

namespace ExportM

section

variable {above made : Option NodeId} {u v : Session α}

/-- A comparison of nodes finds whether they are two and do not say the same. -/
theorem differs_ok {b : Bool} (h : differs made above u = .ok b v) :
    v = u ∧ (b = true ↔ made ≠ above ∧ ¬ u.SaysSame made above) := by
  cases made with
  | none =>
    cases above with
    | none =>
      cases h
      exact ⟨rfl, by simp⟩
    | some y =>
      cases h
      exact ⟨rfl, fun _ => ⟨by simp, nofun⟩, fun _ => rfl⟩
  | some x =>
    cases above with
    | none =>
      cases h
      exact ⟨rfl, fun _ => ⟨by simp, nofun⟩, fun _ => rfl⟩
    | some y =>
      by_cases hxy : x = y
      · subst hxy
        rw [differs, if_pos rfl] at h
        cases h
        exact ⟨rfl, by simp⟩
      · rw [differs, if_neg hxy] at h
        obtain ⟨m, hm, h1⟩ := look_ok node_ok h
        obtain ⟨n, hn, h2⟩ := look_ok node_ok h1
        cases h2
        refine ⟨rfl, ?_⟩
        have hsame : u.SaysSame (some x) (some y) ↔ Value.sameEntries m.entry.properties
          n.entry.properties = true := by
          rw [Value.sameEntries_iff]
          refine ⟨fun hs => ?_, .intro hm hn⟩
          obtain ⟨ha, hb, hs⟩ := hs
          cases hm.symm.trans ha
          cases hn.symm.trans hb
          exact hs
        simp [hsame, hxy]

/-- The animation of an object is exported if its node is not the one above it and does not say the
same. -/
theorem animateObject_ok (h : animateObject cfg id above made u = .ok () v) :
    (made = above ∨ u.SaysSame made above → v = u) ∧
    (made ≠ above → ¬ u.SaysSame made above →
    exportAnimation cfg (.object id) made u = .ok () v) := by
  obtain ⟨b, hb, h1⟩ := look_ok differs_ok h
  cases b with
  | true =>
    obtain ⟨hne, hsays⟩ := hb.1 rfl
    exact ⟨fun hor => (hor.elim hne hsays).elim, fun _ _ => h1⟩
  | false =>
    cases h1
    exact ⟨fun _ => rfl, fun hne hsays => Bool.noConfusion (hb.2 ⟨hne, hsays⟩)⟩

end

/-! ### A visit and what is around it -/

/-- Export an object as something, below a node, without its animation.  The results are what it was
put below and its node. -/
def placeAs (cfg : Settings) (kind : ObjectKind) (id : ObjectId) (o : Object α)
    (parent : Option NodeId) : ExportM α (Option NodeId × Option NodeId) := do
  let above ← nodeAbove cfg id o parent
  exportOwnParticles cfg id o above
  let made ← exportKind cfg kind id above
  correctTransform cfg o above made
  return (above, made)

/-- An export up to some object: the root is made and the objects before it are visited.  The
results are whether an object was edited, the root and the nodes of the objects. -/
def visitBefore (cfg : Settings) (before : List ObjectId) :
    ExportM α (Bool × NodeId × ExportedNodes) := do
  let editing ← leaveEditMode
  let scene := (← get).scene
  let root ← exportRoot scene.name
  let nodes ← before.foldlM (visit cfg scene (scene.selection cfg) root) []
  return (editing, root, nodes)

def visitAfter (cfg : Settings) (scene : Scene α) (start : Bool × NodeId × ExportedNodes)
    (after : List ObjectId) : ExportM α ExportedNodes := do
  let nodes ← after.foldlM (visit cfg scene (scene.selection cfg) start.2.1) start.2.2
  setActive scene.active
  finishScene cfg start.1 nodes
  return nodes

section

variable {nodes done : ExportedNodes} {s s' t v : Session α}

theorem exportAs_ok {kind : ObjectKind} {o : Object α} {parent made : Option NodeId}
    (h : exportAs cfg kind id o parent t = .ok made v) :
    ∃ above u, placeAs cfg kind id o parent t = .ok (above, made) u ∧
      animateObject cfg id above made u = .ok () v := by
  obtain ⟨above, t1, hup, h1⟩ := bind_ok h
  obtain ⟨_, t2, hpts, h2⟩ := bind_ok h1
  obtain ⟨made, t3, hkind, h3⟩ := bind_ok h2
  obtain ⟨_, u, hcorr, h4⟩ := bind_ok h3
  obtain ⟨_, v, hani, h5⟩ := bind_ok h4
  cases h5
  refine ⟨above, u, ?_, hani⟩
  unfold placeAs
  rw [bind_of_ok hup, bind_of_ok hpts, bind_of_ok hkind, bind_of_ok hcorr]
  rfl

theorem visit_ok {scene : Scene α} {selection : Selection} {root : NodeId}
    (hid : id ∈ selection.accepted) (h : visit cfg scene selection root done id t =
    .ok nodes v) :
    ∃ o above made u, t.scene.objects[id]? = some o ∧
      placeAs cfg o.kind id o (nodeOver scene root done id) (t.withActive (some id))
        = .ok (above, made) u ∧
      animateObject cfg id above made u = .ok () v ∧ nodes = done ++ [(id, made)] := by
  obtain ⟨_, t1, hact, h1⟩ := bind_ok h
  cases hact
  obtain ⟨o, ho, h2⟩ := look_ok object_ok h1
  obtain ⟨kind, t3, hkind, h3⟩ := bind_ok h2
  rw [visitedKind, if_pos (by simpa using hid)] at hkind
  cases hkind
  obtain ⟨made, t4, hmade, h4⟩ := bind_ok h3
  cases h4
  obtain ⟨above, u, hplcd, hanid⟩ := exportAs_ok hmade
  exact ⟨o, above, made, u, ho, hplcd, hanid, rfl⟩

theorem visitScene_of_exportScene (hs : s.scene.IsForest)
    (h : exportScene cfg s = .ok nodes s') :
    visitScene cfg (s.scene.order (s.scene.selection cfg)) s = .ok nodes s' := by
  rw [exportScene_eq] at h
  obtain ⟨editing, s1, hleave, h1⟩ := bind_ok h
  obtain ⟨nodes', s2, hobjs, h2⟩ := bind_ok h1
  rw [← leaveEditMode_scene hleave] at hs ⊢
  rw [visitScene, bind_of_ok hleave, bind_of_ok (exportObjects_visits hs hobjs).1]
  exact h2

theorem visitScene_cut {before after : List ObjectId}
    (h : visitScene cfg (before ++ id :: after) s = .ok nodes s') :
    ∃ editing root done done' t v, visitBefore cfg before s = .ok (editing, root, done) t ∧
      visit cfg s.scene (s.scene.selection cfg) root done id t = .ok done' v ∧
      visitAfter cfg s.scene (editing, root, done') after v = .ok nodes s' := by
  obtain ⟨editing, s1, hleave, h1⟩ := bind_ok h
  obtain ⟨nodes', s2, hvis, h2⟩ := bind_ok h1
  obtain ⟨_, s3, hfini, h3⟩ := bind_ok h2
  cases h3
  rw [visitObjects, get_bind, leaveEditMode_scene hleave] at hvis
  obtain ⟨root, s4, hroot, h4⟩ := bind_ok hvis
  obtain ⟨nodes'', s5, hfold, h5⟩ := bind_ok h4
  obtain ⟨_, s6, hact, h6⟩ := bind_ok h5
  cases h6
  rw [List.foldlM_append] at hfold
  obtain ⟨done, t, hpre, hfold⟩ := bind_ok hfold
  obtain ⟨done', v, hvst, hpost⟩ := bind_ok hfold
  refine ⟨editing, root, done, done', t, v, ?_, hvst, ?_⟩
  · rw [visitBefore, bind_of_ok hleave, get_bind, leaveEditMode_scene hleave, bind_of_ok hroot,
      bind_of_ok hpre]
    rfl
  · rw [visitAfter, bind_of_ok hpost, bind_of_ok hact, bind_of_ok hfini]
    rfl

/-- **Which objects are animated.**  An export that completes visits each accepted object of a
forest: after the objects `before` it, in a session `t`, it places the object, and goes on with
those `after` it in a session `v`.  In between, the animation of the object is exported if and only
if its node is not the one that it was put below and does not say the same as that node; otherwise
nothing happens in between. -/
theorem exportScene_animates (hs : s.scene.IsForest) (h : exportScene cfg s = .ok nodes s')
    (hid : id ∈ (s.scene.selection cfg).accepted) :
    ∃ before after editing root done o above made t u v,
      s.scene.order (s.scene.selection cfg) = before ++ id :: after ∧
      visitBefore cfg before s = .ok (editing, root, done) t ∧
      t.scene.objects[id]? = some o ∧
      placeAs cfg o.kind id o (nodeOver s.scene root done id) (t.withActive (some id))
        = .ok (above, made) u ∧
      visitAfter cfg s.scene (editing, root, done ++ [(id, made)]) after v = .ok nodes s' ∧
      (made = above ∨ u.SaysSame made above → v = u) ∧
      (made ≠ above → ¬ u.SaysSame made above →
      exportAnimation cfg (.object id) made u = .ok () v) := by
  have hvld : id ∈ (s.scene.selection cfg).valid := hs.mem_valid.2 ⟨id, hid, .inl rfl⟩
  obtain ⟨before, after, hord⟩ := List.append_of_mem (hs.mem_order.2 hvld)
  have hvis := visitScene_of_exportScene hs h
  rw [hord] at hvis
  obtain ⟨editing, root, done, done', t, v, hpre, hvst, hpost⟩ := visitScene_cut hvis
  obtain ⟨o, above, made, u, ho, hplcd, hanid, rfl⟩ := visit_ok hid hvst
  exact ⟨before, after, editing, root, done, o, above, made, t, u, v, hord, hpre, ho, hplcd, hpost,
    animateObject_ok hanid⟩

end

end ExportM

/-! ### A cart on a rig -/

/-- A cart has an action and lies where its rig lies. -/
def cart : Session ℚ where
  scene.actions := #[{ name := "Walk", start := 1, stop := 3, curves := [] }]
  scene.objects := #[.bare "Rig" .empty none,
    { Object.bare "Cart" .empty (some 0) with animation := some { action := some 0, tracks := [] }
    }]

namespace ExportM

/-- Export what comes before the cart, and place the cart. -/
def placeCart : ExportM ℚ (Option NodeId × Option NodeId) := do
  let start ← visitBefore {} [0]
  setActive (some 1)
  let o ← object 1
  placeAs {} o.kind 1 o (nodeOver cart.scene start.2.1 start.2.2 1)

/-- The cart has a node of its own and an action; still the export goes on as soon as it is placed,
and the file has no animation. -/
theorem exportScene_animates_cart : cart.scene.IsForest ∧ 1 ∈ (cart.scene.selection {}).accepted ∧
    ∃ nodes s', exportScene {} cart = .ok nodes s' ∧ s'.file.internal.items.size = 0 ∧
      ∃ editing root done above made u, placeCart cart = .ok (above, made) u ∧ made ≠ above ∧
        u.SaysSame made above ∧
        visitAfter {} cart.scene (editing, root, done ++ [(1, made)]) [] u = .ok nodes s' := by
  have hfor : cart.scene.IsForest := by decide +kernel
  have hacc : 1 ∈ (cart.scene.selection {}).accepted := by decide +kernel
  have hcartO : cart.scene.order (cart.scene.selection {}) = [0, 1] := by decide +kernel
  obtain ⟨nodes, s', h, hemp⟩ := exists_yield (exportScene {}) cart
    (fun _ s => s.file.internal.items.size == 0)
  obtain ⟨before, after, editing, root, done, o, above, made, t, u, v, hord, hpre, ho, hplcd, hpost,
    hsame, -⟩ := exportScene_animates hfor h hacc
  obtain ⟨rfl, rfl⟩ : before = [0] ∧ after = [] := by
    rcases before with _ | ⟨x, _ | ⟨y, before⟩⟩ <;> simp_all
  have hcart : placeCart cart = .ok (above, made) u := by
    have ho' : object 1 (t.withActive (some 1)) = .ok o (t.withActive (some 1)) := object_apply ho
    rw [placeCart, bind_of_ok hpre]
    show ((object 1 : ExportM ℚ _) >>= _) (t.withActive (some 1)) = _
    rw [bind_of_ok ho', hplcd]
  obtain ⟨x, u', hx, htest⟩ := exists_yield placeCart cart
    (fun x u => x.2 != x.1 && yields (differs x.2 x.1) u (fun b _ => !b))
  cases hcart.symm.trans hx
  rw [Bool.and_eq_true] at htest
  obtain ⟨b, _, hdiff, hb⟩ := of_yields htest.2
  have hne : made ≠ above := by simpa using htest.1
  have hsays : u.SaysSame made above := by
    by_contra hsays
    rw [(differs_ok hdiff).2.2 ⟨hne, hsays⟩] at hb
    cases hb
  obtain rfl := hsame (.inr hsays)
  exact ⟨hfor, hacc, nodes, s', h, eq_of_beq hemp, editing, root, done, above, made, v, hcart, hne,
    hsays, hpost⟩

end ExportM

end SceneExport
