import Mathlib.Data.List.Forall2
import SceneExport.Mesh.Split
import SceneExport.Proofs.Step
import Mathlib.Data.List.Induction
import Mathlib.Data.List.Nodup

/-!
# Surfaces of a mesh

The vertices that are built from the corners of one mesh all have the same parts: as many texture
coordinates as the mesh has layers, a colour if the mesh has colours, tangents if they are asked
for, and as many bones as weights (`Vertex.Fits`).  Hence nothing is lost when their numbers are put
in a row.  Two of them with the same numbers agree in each part (`Vertex.Fits.agrees`).

The triangles of a mesh are dealt out to surfaces one after the other.  `SurfaceDraft.Merges` and
`SurfaceDraft.Draws` say what holds of a surface under way: its vertices have different numbers,
each corner became a vertex with its own numbers, and its faces are the triangles that it was given,
in their order.  `MeshSplit.Deals` says so of all surfaces, each of which has the triangles of one
material position; it is kept by each triangle.
-/

namespace SceneExport

open List
open Outcome (bind_ok mapM_cons_ok length_of_mapM_ok)

variable {α : Type} [Scalar α]

/-! ### Numbers that count as equal -/

/-- One number, or two that count as equal. -/
def SameNumber (x y : α) : Prop :=
  x = y ∨ (x == y) = true

abbrev SameNumbers : List α → List α → Prop :=
  List.Forall₂ SameNumber

theorem SameNumbers.refl (xs : List α) : SameNumbers xs xs :=
  forall₂_same.2 fun _ _ => .inl rfl

variable {xs ys : List α} {m : Mesh α} {bones : GroupBones} {v : Vertex α} {tangents : Bool}

theorem sameNumbers_of_beq (h : (xs == ys) = true) : SameNumbers xs ys := by
  induction xs generalizing ys with
  | nil =>
    cases ys with
    | nil => exact .nil
    | cons y ys => cases h
  | cons x xs ih =>
    cases ys with
    | nil => cases h
    | cons y ys =>
      obtain ⟨hx, hxs⟩ := (Bool.and_eq_true ..).mp h
      exact .cons (.inr hx) (ih hxs)

theorem SameNumbers.split {a b c d : List α} (hl : a.length = c.length)
    (h : SameNumbers (a ++ b) (c ++ d)) : SameNumbers a c ∧ SameNumbers b d := by
  induction a generalizing c with
  | nil =>
    cases length_eq_zero_iff.1 hl.symm
    exact ⟨.nil, h⟩
  | cons x a ih =>
    cases c with
    | nil => cases hl
    | cons y c =>
      obtain ⟨hx, h⟩ := forall₂_cons.1 h
      obtain ⟨ha, hb⟩ := ih (Nat.succ.inj hl) h
      exact ⟨.cons hx ha, hb⟩

/-! ### The parts of a vertex -/

/-- A part that is there if `present`, and then has three components. -/
def IsTriple (present : Bool) (part : Option (List α)) : Prop :=
  part.isSome = present ∧ (part.getD []).length = if present then 3 else 0

namespace Vertex

/-- The vertex has the parts that all corners of the mesh have. -/
structure Fits (m : Mesh α) (bones : GroupBones) (tangents : Bool) (v : Vertex α) : Prop where
  position : v.position.length = 3
  normal : v.normal.length = 3
  tangent : IsTriple tangents v.tangent
  bitangent : IsTriple tangents v.bitangent
  color : IsTriple (!m.colors.isEmpty) v.color
  uvs : v.uvs.length = m.uvs.length
  weights : v.weights.length = v.bones.length
  bones : ∀ b ∈ v.bones, ∃ e ∈ bones, b = e.2

end Vertex

theorem length_turnedUp (h : turnedUp xs = .ok ys) : ys.length = 3 := by
  obtain ⟨v, -, h⟩ := Outcome.bind_ok h
  cases h
  rfl

theorem Mesh.isTriple_cornerColor? {loop : Int} {color : Option (List α)}
    (h : m.cornerColor? loop = .ok color) : IsTriple (!m.colors.isEmpty) color := by
  unfold cornerColor? at h
  cases hc : m.colors with
  | nil =>
    rw [hc] at h
    cases h
    exact ⟨rfl, rfl⟩
  | cons layer layers =>
    rw [hc] at h
    obtain ⟨entry, -, h⟩ := Outcome.bind_ok h
    obtain ⟨v, -, h⟩ := Outcome.bind_ok h
    cases h
    exact ⟨rfl, rfl⟩

theorem Leads.length_mapM {σ β γ : Type} {f : β → EStateM Failure σ γ} {xs : List β} :
    Leads (fun _ => True) (xs.mapM f) fun ys _ => ys.length = xs.length := by
  refine (Leads.mapM_loop (fun rest ys _ => ys.length + rest.length = xs.length)
    (fun x rest ys => ?_) xs []).mono (fun _ _ => by simp) fun ys _ h => by simpa using h
  intro s hs y s' _
  simpa [Nat.add_assoc, Nat.add_comm 1] using hs

theorem MeshVertex.bones_of_influences {v : MeshVertex α} {i : Nat × α}
    (h : i ∈ v.influences bones) : ∃ e ∈ bones, i.1 = e.2 := by
  obtain ⟨⟨group, weight⟩, -, h⟩ := mem_filterMap.1 h
  dsimp only at h
  split at h
  · cases h
  · obtain ⟨bone, hbone, rfl⟩ := Option.map_eq_some_iff.1 h
    obtain ⟨before, after, rfl, -⟩ := lookup_eq_some_iff.1 hbone
    exact ⟨(group, bone), by simp, rfl⟩

namespace Mesh

/-- The vertex of a corner: its parts are those of all corners, and its position and its bones are
those of the vertex that the corner is at. -/
structure IsCorner (m : Mesh α) (bones : GroupBones) (tangents : Bool) (index : Int)
    (v : Vertex α) : Prop where
  fits : v.Fits m bones tangents
  place : ∃ loop vertex, elementAt m.loops index = .ok loop ∧
    elementAt m.vertices loop.vertex = .ok vertex ∧ turnedUp vertex.position = .ok v.position ∧
    v.bones = (vertex.influences bones).map fun i => (i.1 : Int)

theorem tangents_lead {direction : List α} {next : Option (List α) → Logged (Vertex α)}
    {kind : Vertex α → Prop} (h : ∀ part, IsTriple tangents part → Leads (fun _ => True)
    (next part) fun v _ => kind v) :
    Leads (fun _ => True) (if tangents then some <$> liftM (turnedUp direction) >>= next
      else pure none >>= next) fun v _ => kind v := by
  split
  · next ht =>
    refine .bind (.map _ .liftLogged) fun part => .of_exists fun turned => ?_
    rintro log ⟨⟨-, hturn⟩, rfl⟩
    exact h _ ⟨ht ▸ rfl, by simp [ht, length_turnedUp hturn]⟩ log trivial
  · next ht =>
    have hf : tangents = false := by simpa using ht
    exact h none ⟨hf ▸ rfl, by simp [hf]⟩

theorem corner_isCorner (m : Mesh α) (bones : GroupBones) (tangents : Bool) (index : Int) :
    Leads (fun _ => True) (m.corner bones tangents index) fun v _ =>
      m.IsCorner bones tangents index v := by
  refine .bind .liftLogged fun loop => .of_fact fun hloop => ?_
  refine .bind .liftLogged fun vertex => .of_fact fun hvtx => ?_
  refine .bind .liftLogged fun position => .of_fact fun hposi => ?_
  refine .bind (.mono .length_mapM (fun _ h => h) fun uvs _ huvs => ⟨trivial, huvs⟩) fun uvs =>
    .of_fact fun huvs => ?_
  refine .bind .liftLogged fun color => .of_fact fun hcolor => ?_
  refine .bind .liftLogged fun normal => .of_fact fun hnorm => ?_
  extract_lets influences withTangent
  have hw : ∀ tangent, IsTriple tangents tangent → Leads (fun _ => True) (withTangent tangent)
      fun v _ => m.IsCorner bones tangents index v := by
    intro tangent htange
    unfold withTangent
    extract_lets withBitangent
    have hb : ∀ bitangent, IsTriple tangents bitangent → Leads (fun _ => True)
        (withBitangent bitangent) fun v _ => m.IsCorner bones tangents index v := by
      intro bitangent hbita
      unfold withBitangent
      extract_lets finish
      have hf : ∀ r, Leads (fun _ => True) (finish r) fun v _ =>
          m.IsCorner bones tangents index v := by
        refine fun _ => .pure fun _ _ => ⟨⟨length_turnedUp hposi, length_turnedUp hnorm,
          htange, hbita, isTriple_cornerColor? hcolor, huvs, by simp, fun b hb => ?_⟩,
          loop, vertex, hloop, hvtx, hposi, rfl⟩
        obtain ⟨i, hi, rfl⟩ := mem_map.1 hb
        obtain ⟨e, he, hbone⟩ := MeshVertex.bones_of_influences hi
        exact ⟨e, he, congrArg _ hbone⟩
      split
      · exact .bind (fun _ _ _ _ _ => trivial) hf
      · exact hf ()
    exact tangents_lead hb
  exact tangents_lead hw

theorem corner_steady (m : Mesh α) (bones : GroupBones) (tangents : Bool) (index : Int) :
    (m.corner bones tangents index).Steady := by
  have htang {direction : List α} {next : Option (List α) → Logged (Vertex α)}
      (h : ∀ part, (next part).Steady) : Logged.Steady (if tangents then
        some <$> liftM (turnedUp direction) >>= next else pure none >>= next) := by
    split
    · exact .bind (.map _ .lift) h
    · exact .bind .pure h
  refine .bind .lift fun loop => .bind .lift fun vertex => .bind .lift fun position => ?_
  refine .bind (.mapM (fun _ => .lift) _) fun uvs => .bind .lift fun color => ?_
  refine .bind .lift fun normal => htang fun tangent => htang fun bitangent => ?_
  dsimp only
  split
  · exact .bind (.warn _) fun _ => .pure
  · exact .pure

/-- The vertex at a corner, without what is said about it. -/
def vertexAt (m : Mesh α) (bones : GroupBones) (tangents : Bool) (index : Int) :
    Except Failure (Vertex α) :=
  (m.corner bones tangents index).outcome

theorem vertexAt_of_corner {index : Int} {log log' : Log}
    (h : m.corner bones tangents index log = .ok v log') :
    m.vertexAt bones tangents index = .ok v :=
  (corner_steady m bones tangents index).of_ok h

theorem isCorner_of_vertexAt {index : Int} (h : m.vertexAt bones tangents index = .ok v) :
    m.IsCorner bones tangents index v := by
  unfold vertexAt Logged.outcome Logged.outcomeAfter at h
  split at h
  · next hc =>
    cases h
    exact corner_isCorner m bones tangents index _ trivial _ _ hc
  · cases h

end Mesh

/-! ### Numbers in a row -/

/-- The numbers of bones are told apart when they are put among other numbers. -/
def GroupBones.ToldApart (α : Type) [Scalar α] (bones : GroupBones) : Prop :=
  ∀ e ∈ bones, ∀ e' ∈ bones, ∀ x y : α, Scalar.ofInt e.2 = .ok x → Scalar.ofInt e'.2 = .ok y →
    SameNumber x y → e.2 = e'.2

namespace Vertex

/-- Two vertices have the same position, normal, tangents, colour, texture coordinates and
influences.  Of texture coordinates two components count. -/
structure Agrees (bones : GroupBones) (v w : Vertex α) : Prop where
  position : SameNumbers v.position w.position
  normal : SameNumbers v.normal w.normal
  tangent : Option.Rel SameNumbers v.tangent w.tangent
  bitangent : Option.Rel SameNumbers v.bitangent w.bitangent
  color : Option.Rel SameNumbers v.color w.color
  uvs : List.Forall₂ (fun a b => SameNumbers (a.take 2) (b.take 2)) v.uvs w.uvs
  bones : bones.ToldApart α → v.bones = w.bones
  weights : SameNumbers v.weights w.weights

omit [Scalar α] in
theorem threeOf_eq (hl : xs.length = 3) (h : threeOf xs = .ok ys) : ys = xs := by
  obtain ⟨x, y, z, rfl⟩ := length_eq_three.1 hl
  cases h
  rfl

variable {present : Bool} {part : Option (List α)} {part' : Option (List α)}

omit [Scalar α] in
theorem threeOf?_eq (hl : IsTriple present part) (h : threeOf? part = .ok ys) : ys =
    part.getD [] := by
  obtain ⟨hp, hl⟩ := hl
  cases part with
  | none =>
    cases h
    rfl
  | some xs =>
    cases present with
    | false => cases hp
    | true => exact threeOf_eq hl h

omit [Scalar α] in
theorem twoOf_eq (h : twoOf xs = .ok ys) : ys = xs.take 2 ∧ ys.length = 2 := by
  match xs, h with
  | x :: y :: _, h =>
    cases h
    exact ⟨rfl, rfl⟩

/-- What the numbers of a vertex are made of. -/
theorem Fits.signature_eq (hv : v.Fits m bones tangents) {numbers : List α}
    (h : v.signature = .ok numbers) :
    ∃ uvs ids, v.uvs.mapM twoOf = .ok uvs ∧ v.bones.mapM Scalar.ofInt = .ok ids ∧
      numbers = v.position ++ (v.normal ++ (uvs.flatten ++ (v.color.getD [] ++ (v.tangent.getD [] ++
        (v.bitangent.getD [] ++ (ids ++ v.weights)))))) := by
  obtain ⟨position, h1, h⟩ := Outcome.bind_ok h
  obtain ⟨normal, h2, h⟩ := Outcome.bind_ok h
  obtain ⟨uvs, h3, h⟩ := Outcome.bind_ok h
  obtain ⟨color, h4, h⟩ := Outcome.bind_ok h
  obtain ⟨tangent, h5, h⟩ := Outcome.bind_ok h
  obtain ⟨bitangent, h6, h⟩ := Outcome.bind_ok h
  obtain ⟨ids, h7, h⟩ := Outcome.bind_ok h
  cases h
  refine ⟨uvs, ids, h3, h7, ?_⟩
  rw [threeOf_eq hv.position h1, threeOf_eq hv.normal h2, threeOf?_eq hv.color h4,
    threeOf?_eq hv.tangent h5, threeOf?_eq hv.bitangent h6]
  simp

omit [Scalar α] in
theorem length_pairs {uvs pairs : List (List α)} (h : uvs.mapM twoOf = .ok pairs) :
    pairs.flatten.length = 2 * uvs.length := by
  induction uvs generalizing pairs with
  | nil =>
    cases h
    rfl
  | cons uv uvs ih =>
    obtain ⟨pair, pairs, huv, huvs, rfl⟩ := mapM_cons_ok h
    simp only [flatten_cons, length_append, (twoOf_eq huv).2, ih huvs, length_cons]
    omega

theorem uvs_of_pairs {uvs uvs' pairs pairs' : List (List α)} (hl : uvs.length = uvs'.length)
    (h : uvs.mapM twoOf = .ok pairs) (h' : uvs'.mapM twoOf = .ok pairs')
    (hs : SameNumbers pairs.flatten pairs'.flatten) :
    List.Forall₂ (fun a b => SameNumbers (a.take 2) (b.take 2)) uvs uvs' := by
  induction uvs generalizing uvs' pairs pairs' with
  | nil =>
    cases length_eq_zero_iff.1 hl.symm
    exact .nil
  | cons uv uvs ih =>
    cases uvs' with
    | nil => cases hl
    | cons uv' uvs' =>
      obtain ⟨pair, pairs, huv, huvs, rfl⟩ := mapM_cons_ok h
      obtain ⟨pair', pairs', huv', huvs', rfl⟩ := mapM_cons_ok h'
      obtain ⟨hpair, hlen⟩ := twoOf_eq huv
      obtain ⟨hpair', hlen'⟩ := twoOf_eq huv'
      obtain ⟨hfst, hrest⟩ := SameNumbers.split (hlen.trans hlen'.symm) hs
      subst hpair hpair'
      exact .cons hfst (ih (Nat.succ.inj hl) huvs huvs' hrest)

theorem bones_of_ids (hb : bones.ToldApart α) {bs bs' : List Int} {ids ids' : List α}
    (hbs : ∀ b ∈ bs, ∃ e ∈ bones, b = e.2) (hbs' : ∀ b ∈ bs', ∃ e ∈ bones, b = e.2)
    (h : bs.mapM Scalar.ofInt = .ok ids) (h' : bs'.mapM Scalar.ofInt = .ok ids')
    (hs : SameNumbers ids ids') : bs = bs' := by
  induction bs generalizing bs' ids ids' with
  | nil =>
    cases h
    cases hs
    exact (length_eq_zero_iff.1 (length_of_mapM_ok h').symm).symm
  | cons b bs ih =>
    obtain ⟨id, ids, hid, hids, rfl⟩ := mapM_cons_ok h
    cases bs' with
    | nil =>
      cases h'
      cases hs
    | cons b' bs' =>
      obtain ⟨id', ids', hid', hids', rfl⟩ := mapM_cons_ok h'
      obtain ⟨hfst, hrest⟩ := forall₂_cons.1 hs
      obtain ⟨e, he, rfl⟩ := hbs b mem_cons_self
      obtain ⟨e', he', rfl⟩ := hbs' b' mem_cons_self
      rw [hb e he e' he' id id' hid hid' hfst,
        ih (fun b hb => hbs b (.tail _ hb)) (fun b hb => hbs' b (.tail _ hb)) hids hids' hrest]

omit [Scalar α] in
theorem length_triple (h : IsTriple present part)
    (h' : IsTriple present part') : (part.getD []).length = (part'.getD []).length :=
  h.2.trans h'.2.symm

theorem rel_of_triples (h : IsTriple present part) (h' : IsTriple present part')
    (hs : SameNumbers (part.getD []) (part'.getD [])) : Option.Rel SameNumbers part part' := by
  have hp : part.isSome = part'.isSome := h.1.trans h'.1.symm
  cases part with
  | none =>
    cases part' with
    | none => exact .none
    | some _ => cases hp
  | some _ =>
    cases part' with
    | none => cases hp
    | some _ => exact .some hs

/-- **Vertices of one mesh that have the same numbers agree in all their parts.** -/
theorem Fits.agrees {w : Vertex α} (hv : v.Fits m bones tangents)
    (hw : w.Fits m bones tangents) {a b : List α} (ha : v.signature = .ok a)
    (hb : w.signature = .ok b) (h : SameNumbers a b) : v.Agrees bones w := by
  obtain ⟨uvs, ids, huvs, hids, rfl⟩ := hv.signature_eq ha
  obtain ⟨uvs', ids', huvs', hids', rfl⟩ := hw.signature_eq hb
  have huv : v.uvs.length = w.uvs.length := hv.uvs.trans hw.uvs.symm
  obtain ⟨position, h⟩ := SameNumbers.split (hv.position.trans hw.position.symm) h
  obtain ⟨normal, h⟩ := SameNumbers.split (hv.normal.trans hw.normal.symm) h
  obtain ⟨pairs, h⟩ := SameNumbers.split (by rw [length_pairs huvs, length_pairs huvs', huv]) h
  obtain ⟨color, h⟩ := SameNumbers.split (length_triple hv.color hw.color) h
  obtain ⟨tangent, h⟩ := SameNumbers.split (length_triple hv.tangent hw.tangent) h
  obtain ⟨bitangent, h⟩ := SameNumbers.split (length_triple hv.bitangent hw.bitangent) h
  -- There are as many bones as weights, so half of what is left are the bones.
  have hl : ids.length = ids'.length := by
    have hsum := h.length_eq
    have hn := length_of_mapM_ok hids
    have hn' := length_of_mapM_ok hids'
    simp only [length_append, hv.weights, hw.weights] at hsum
    omega
  obtain ⟨bone, weights⟩ := SameNumbers.split hl h
  exact ⟨position, normal, rel_of_triples hv.tangent hw.tangent tangent,
    rel_of_triples hv.bitangent hw.bitangent bitangent, rel_of_triples hv.color hw.color color,
    uvs_of_pairs huv huvs huvs' pairs, fun ht => bones_of_ids ht hv.bones hw.bones hids hids' bone,
    weights⟩

end Vertex

/-! ### Positions in order of first use -/

section FirstUse

variable {β : Type} [DecidableEq β]

theorem eraseDups_concat (xs : List β) (x : β) :
    (xs ++ [x]).eraseDups = if x ∈ xs then xs.eraseDups else xs.eraseDups ++ [x] := by
  rw [eraseDups_append]
  split
  · next h => simp [List.removeAll, h]
  · next h => simp [List.removeAll, h, eraseDups_cons]

theorem nodup_eraseDups {xs : List β} : xs.eraseDups.Nodup := by
  induction xs using List.reverseRecOn with
  | nil => exact .nil
  | append_singleton xs x ih =>
    rw [eraseDups_concat]
    split
    · exact ih
    · next h => simpa [nodup_append, ih] using fun y hy => ne_of_mem_of_not_mem hy h

end FirstUse

/-- The material positions that triangles have, in the order in which they are first used. -/
def materialPositions (ts : List LoopTriangle) : List Int :=
  (ts.map (·.material)).eraseDups

variable {ts : List LoopTriangle} {p : Int} {i : Nat}

theorem mem_materialPositions : p ∈ materialPositions ts ↔ ∃ t ∈ ts, t.material = p := by
  simp [materialPositions]

theorem materialPositions_concat (ts : List LoopTriangle) (t : LoopTriangle) :
    materialPositions (ts ++ [t]) = if t.material ∈ materialPositions ts then materialPositions ts
      else materialPositions ts ++ [t.material] := by
  simp [materialPositions, eraseDups_concat]

variable {α : Type} [Scalar α]

/-! ### One surface -/

namespace SurfaceDraft

variable (m : Mesh α) (bones : GroupBones) (tangents : Bool)

/-- The vertex at a position has the numbers of the vertex at a corner. -/
def Shows (vertices : Array (Vertex α)) (loop : Int) (i : Nat) : Prop :=
  ∃ v w a b, vertices[i]? = some v ∧ m.vertexAt bones tangents loop = .ok w ∧
    v.signature = .ok a ∧ w.signature = .ok b ∧ SameNumbers a b

/-- Corners with the same numbers are one vertex. -/
structure Merges (d : SurfaceDraft α) : Prop where
  signatures : List.Forall₂ (fun v a => v.signature = .ok a ∧
    ∃ loop, m.vertexAt bones tangents loop = .ok v) d.vertices.toList d.signatures
  distinct : d.signatures.Pairwise fun a b => (a == b) = false
  corners : ∀ loop i, (loop, i) ∈ d.corners → Shows m bones tangents d.vertices loop i

/-- The face has the vertices that the loops became. -/
def Draws (corners : List (Int × Nat)) (face loops : List Int) : Prop :=
  List.Forall₂ (fun (index loop : Int) => ∃ i : Nat, index = i ∧ (loop, i) ∈ corners) face loops

variable {m bones tangents} {loop : Int}

theorem Shows.mono {vertices vertices' : Array (Vertex α)}
    (h : Shows m bones tangents vertices loop i) (hv : vertices.toList <+: vertices'.toList) :
    Shows m bones tangents vertices' loop i := by
  obtain ⟨v, w, a, b, hi, rest⟩ := h
  refine ⟨v, w, a, b, ?_, rest⟩
  obtain ⟨more, hmore⟩ := hv
  rw [← Array.getElem?_toList] at hi ⊢
  rw [← hmore, List.getElem?_append_left (List.getElem?_eq_some_iff.1 hi).1, hi]

variable {d : SurfaceDraft α}

theorem Merges.vertex (h : d.Merges m bones tangents) {v : Vertex α}
    (hi : d.vertices[i]? = some v) : ∃ a, d.signatures[i]? = some a ∧ v.signature = .ok a ∧
      ∃ loop, m.vertexAt bones tangents loop = .ok v := by
  rw [← Array.getElem?_toList] at hi
  obtain ⟨hlt, rfl⟩ := List.getElem?_eq_some_iff.1 hi
  have hlt' : i < d.signatures.length := h.signatures.length_eq ▸ hlt
  obtain ⟨hsign, hcorn⟩ := h.signatures.get hlt hlt'
  exact ⟨_, getElem?_eq_getElem hlt', hsign, hcorn⟩

theorem Merges.addVertex {d' : SurfaceDraft α} (h : d.Merges m bones tangents) {w : Vertex α}
    (hw : m.vertexAt bones tangents loop = .ok w) (hd : d.addVertex w = .ok (i, d')) :
    d'.Merges m bones tangents ∧ Shows m bones tangents d'.vertices loop i ∧
      d'.corners = d.corners ∧ d'.faces = d.faces ∧ d'.material = d.material := by
  obtain ⟨b, hb, hd⟩ := Outcome.bind_ok hd
  have hl : d.vertices.size = d.signatures.length := by
    simpa using h.signatures.length_eq
  cases hfnd : d.signatures.findIdx? (· == b) with
  | some j =>
    simp only [hfnd] at hd
    cases hd
    obtain ⟨hj, hsame, -⟩ := findIdx?_eq_some_iff_getElem.1 hfnd
    have hjv : i < d.vertices.toList.length := by
      simpa [hl] using hj
    obtain ⟨ha, -⟩ := h.signatures.get hjv hj
    refine ⟨h, ⟨_, w, _, b, ?_, hw, ha, hb, sameNumbers_of_beq hsame⟩, rfl, rfl, rfl⟩
    rw [← Array.getElem?_toList]
    exact getElem?_eq_getElem hjv
  | none =>
    simp only [hfnd] at hd
    cases hd
    have hfresh := findIdx?_eq_none_iff.1 hfnd
    have hpref : d.vertices.toList <+: (d.vertices.push w).toList := by
      simp
    refine ⟨⟨?_, ?_, fun loop i hc => (h.corners loop i hc).mono hpref⟩,
      ⟨w, w, b, b, by simp, hw, hb, hb, .refl b⟩, rfl, rfl, rfl⟩
    · rw [Array.toList_push]
      exact rel_append h.signatures (.cons ⟨hb, loop, hw⟩ .nil)
    · rw [pairwise_append]
      exact ⟨h.distinct, by simp, by simpa using hfresh⟩

theorem Merges.addCorner (h : d.Merges m bones tangents) (loop : Int) :
    Leads (fun _ => True) (d.addCorner m bones tangents loop) fun r _ =>
      r.2.Merges m bones tangents ∧ r.2.corners = (loop, r.1) :: d.corners ∧
        r.2.faces = d.faces ∧ r.2.material = d.material := by
  intro log _ r log' hr
  obtain ⟨w, log1, hw, hr⟩ := bind_ok hr
  obtain ⟨⟨i, d'⟩, log2, hd, hr⟩ := bind_ok hr
  cases hr
  obtain ⟨hmerg, hshw, hcrns, hfaces, hmate⟩ :=
    h.addVertex (Mesh.vertexAt_of_corner hw) (Logged.lift_ok hd).1
  refine ⟨⟨hmerg.signatures, hmerg.distinct, fun loop' i' hc => ?_⟩, by simp [hcrns], hfaces,
    hmate⟩
  rcases mem_cons.1 hc with he | hc
  · cases he
    exact hshw
  · exact hmerg.corners loop' i' hc

/-- The surface has the triangles, in their order, and no others. -/
structure Holds (m : Mesh α) (bones : GroupBones) (tangents : Bool) (ts : List LoopTriangle)
    (d : SurfaceDraft α) : Prop where
  merges : d.Merges m bones tangents
  faces : List.Forall₂ (fun face t => Draws d.corners face t.loops) d.faces ts

theorem holds_start (material : Option Reference) : Holds m bones tangents [] { material } where
  merges := ⟨.nil, .nil, by simp⟩
  faces := .nil

theorem Holds.addTriangle (h : d.Holds m bones tangents ts) (t : LoopTriangle) :
    Leads (fun _ => True) (d.addTriangle m bones tangents t) fun d' _ =>
      d'.Holds m bones tangents (ts ++ [t]) := by
  -- The corners of the triangle are added one after the other; `indices` are those of the first
  -- ones.
  let I (rest : List Int) (r : List Int × SurfaceDraft α) (_ : Log) : Prop :=
    ∃ before, before ++ rest = t.loops ∧ r.2.Merges m bones tangents ∧
      d.corners <:+ r.2.corners ∧ r.2.faces = d.faces ∧
      Draws r.2.corners r.1 before
  have hloop := Leads.foldlM I (f := fun r loop => do
      let x ← r.2.addCorner m bones tangents loop
      return (r.1 ++ [(x.1 : Int)], x.2)) (fun loop rest r => ?_) t.loops ([], d)
  · refine .bind (hloop.mono (fun _ _ => ?_) fun _ _ hr => hr) fun r => ?_
    · exact ⟨[], rfl, h.merges, suffix_rfl, rfl, .nil⟩
    · refine .pure fun _ ⟨before, hpre, hmerg, hcrns, hfaces, hdraws⟩ => ?_
      refine ⟨⟨hmerg.signatures, hmerg.distinct, hmerg.corners⟩, ?_⟩
      rw [hfaces]
      refine rel_append (h.faces.imp fun _ _ hf => hf.imp fun _ _ ⟨i, hi, hmem⟩ =>
        ⟨i, hi, hcrns.subset hmem⟩) (.cons ?_ .nil)
      rw [← hpre, append_nil]
      exact hdraws
  · rintro log ⟨before, hpre, hmerg, hcrns, hfaces, hdraws⟩ r' log' hr
    obtain ⟨⟨i, d'⟩, log1, hd, hr⟩ := bind_ok hr
    cases hr
    obtain ⟨hmerg', hcrns', hfaces', -⟩ := hmerg.addCorner loop log trivial _ _ hd
    dsimp only at hcrns'
    have hmore : r.2.corners <:+ d'.corners := by
      rw [hcrns']
      exact suffix_cons _ _
    refine ⟨before ++ [loop], by simpa using hpre, hmerg', hcrns.trans hmore,
      hfaces'.trans hfaces, ?_⟩
    have hmem : (loop, i) ∈ d'.corners := by
      simp [hcrns']
    exact rel_append (hdraws.imp fun _ _ ⟨j, hj, hmem⟩ => ⟨j, hj, hmore.subset hmem⟩)
      (.cons ⟨i, rfl, hmem⟩ .nil)

end SurfaceDraft

/-! ### All surfaces -/

namespace MeshSplit

variable (m : Mesh α) (bones : GroupBones) (tangents : Bool)

/-- Each surface has the triangles of one material position, and the surfaces are in the order in
which the positions are first used. -/
structure Deals (ts : List LoopTriangle) (s : MeshSplit α) : Prop where
  places : s.places = (materialPositions ts).zipIdx
  size : s.surfaces.size = (materialPositions ts).length
  surfaces : ∀ (i : Nat) p, (materialPositions ts)[i]? = some p →
    ∃ d : SurfaceDraft α, s.surfaces[i]? = some d ∧
      d.Holds m bones tangents (ts.filter (·.material == p))

variable {m bones tangents}

theorem deals_start : Deals m bones tangents [] ({} : MeshSplit α) where
  places := rfl
  size := rfl
  surfaces i p h := by simp [materialPositions] at h

variable {s : MeshSplit α} {t : LoopTriangle}

theorem Deals.surfaceOf?_some (h : s.Deals m bones tangents ts) (hp : s.surfaceOf? p = some i) :
    (materialPositions ts)[i]? = some p := by
  rw [surfaceOf?, h.places] at hp
  obtain ⟨before, after, he, -⟩ := lookup_eq_some_iff.1 hp
  exact mk_mem_zipIdx_iff_getElem?.1 (by simp [he])

theorem Deals.surfaceOf?_none (h : s.Deals m bones tangents ts) (hp : s.surfaceOf? p = none) :
    p ∉ materialPositions ts := by
  rw [surfaceOf?, h.places, lookup_eq_none_iff] at hp
  intro hmem
  obtain ⟨i, hi⟩ := getElem?_of_mem hmem
  simpa using hp (p, i) (mk_mem_zipIdx_iff_getElem?.2 hi)

theorem materialPositions_inj {j : Nat} (hi : (materialPositions ts)[i]? = some p)
    (hj : (materialPositions ts)[j]? = some p) : i = j := by
  obtain ⟨hil, hi⟩ := List.getElem?_eq_some_iff.1 hi
  obtain ⟨hjl, hj⟩ := List.getElem?_eq_some_iff.1 hj
  exact (List.Nodup.getElem_inj_iff nodup_eraseDups).1 (hi.trans hj.symm)

theorem filter_concat (ts : List LoopTriangle) (t : LoopTriangle) (p : Int) :
    (ts ++ [t]).filter (·.material == p) =
      if t.material = p then ts.filter (·.material == p) ++ [t] else ts.filter
      (·.material == p) := by
  split <;> simp_all

variable (m bones tangents) in
/-- The surface of a triangle has been begun, and the triangle is to be added. -/
structure Awaits (ts : List LoopTriangle) (t : LoopTriangle) (i : Nat) (s : MeshSplit α) :
    Prop where
  places : s.places = (materialPositions (ts ++ [t])).zipIdx
  size : s.surfaces.size = (materialPositions (ts ++ [t])).length
  place : (materialPositions (ts ++ [t]))[i]? = some t.material
  surfaces : ∀ (j : Nat) p, (materialPositions (ts ++ [t]))[j]? = some p →
    ∃ d : SurfaceDraft α, s.surfaces[j]? = some d ∧
      d.Holds m bones tangents (ts.filter (·.material == p))

theorem Deals.awaits_known (h : s.Deals m bones tangents ts)
    (hi : s.surfaceOf? t.material = some i) : s.Awaits m bones tangents ts t i := by
  have hplc := h.surfaceOf?_some hi
  have hsame : materialPositions (ts ++ [t]) = materialPositions ts := by
    rw [materialPositions_concat, if_pos (mem_of_getElem? hplc)]
  exact ⟨by rw [hsame, h.places], by rw [hsame, h.size], by rw [hsame, hplc], by
    rw [hsame]
    exact h.surfaces⟩

theorem Deals.awaits_new (h : s.Deals m bones tangents ts) (ht : s.surfaceOf? t.material = none)
    (material : Option Reference) :
    (s.addSurface t.material material).Awaits m bones tangents ts t s.surfaces.size := by
  have hnew := h.surfaceOf?_none ht
  have hmore : materialPositions (ts ++ [t]) = materialPositions ts ++ [t.material] := by
    rw [materialPositions_concat, if_neg hnew]
  refine ⟨?_, ?_, ?_, fun j p hj => ?_⟩
  · rw [hmore, addSurface, h.places, h.size, zipIdx_append]
    simp
  · rw [hmore, addSurface, Array.size_push, h.size, length_append, length_singleton]
  · rw [hmore, h.size, getElem?_concat_length]
  · rw [hmore] at hj
    rw [addSurface, Array.getElem?_push, h.size]
    split
    · next hlast =>
      rw [hlast, getElem?_concat_length] at hj
      cases hj
      have hnone : ts.filter (·.material == t.material) = [] := by
        simpa [mem_materialPositions] using hnew
      exact ⟨_, rfl, hnone ▸ SurfaceDraft.holds_start material⟩
    · next hlast =>
      have hlt : j < (materialPositions ts).length := by
        have := (List.getElem?_eq_some_iff.1 hj).1
        rw [length_append, length_singleton] at this
        omega
      rw [getElem?_append_left hlt] at hj
      exact h.surfaces j p hj

theorem Awaits.addTriangle (h : s.Awaits m bones tangents ts t i) :
    Leads (fun _ => True) (s.addTriangle m bones tangents i t) fun s' _ =>
      s'.Deals m bones tangents (ts ++ [t]) := by
  refine .bind .liftLogged fun d => .of_fact fun hd => ?_
  obtain ⟨d0, hd0, hholds⟩ := h.surfaces i t.material h.place
  cases (need_ok hd).symm.trans hd0
  refine .bind (hholds.addTriangle t) fun d' => .pure fun _ hd' => ⟨h.places, ?_, fun j p hj => ?_⟩
  · rw [Array.size_setIfInBounds, h.size]
  · rw [Array.getElem?_setIfInBounds, filter_concat]
    by_cases hji : i = j
    · subst hji
      cases h.place.symm.trans hj
      have hlt : i < s.surfaces.size := (Array.getElem?_eq_some_iff.1 hd0).1
      rw [if_pos rfl, if_pos hlt, if_pos rfl]
      exact ⟨d', rfl, hd'⟩
    · have hp : t.material ≠ p := by
        rintro rfl
        exact hji (materialPositions_inj h.place hj)
      rw [if_neg hji, if_neg hp]
      exact h.surfaces j p hj

end MeshSplit

end SceneExport
