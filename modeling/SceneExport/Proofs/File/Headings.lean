import SceneExport.Proofs.Space.Exact
import SceneExport.Proofs.File.Layout

/-!
# Reading headings

Texts in a heading stand in quotes and are not escaped.  A heading whose texts hold no quotes can be
read in one way only (`Heading.render_inj_of_unquoted`): any other heading with the same names and
the same text would have more quotes.  A quote in a name can imitate the end of the name and further
fields.
-/

namespace SceneExport

open List

namespace Heading

variable {α : Type} [Scalar α] {a b : Record String} {s t : String}

/-- A heading of texts, as the headings of nodes are. -/
def ofTexts (fields : Record String) : Heading α :=
  fields.map fun e => (e.1, .text e.2)

/-- The fields of a heading of texts and what follows them. -/
def fieldsText : Record String → List Char
  | [] => [']']
  | e :: fields => ' ' :: (e.1.toList ++ '=' :: '"' :: (e.2.toList ++ '"' :: fieldsText fields))

theorem toList_render (kind : String) (fields : Record String) :
    ((ofTexts fields : Heading α).render kind).toList = '[' :: (kind.toList ++ fieldsText fields) :=
    by
  have hfiel : ((ofTexts fields : Heading α).map fun e => " " ++ e.1 ++ "=" ++
    e.2.headingText).flatMap String.toList ++ [']'] = fieldsText fields := by
    induction fields with
    | nil => rfl
    | cons e fields ih =>
      rw [fieldsText, ← ih]
      simp [ofTexts, Value.headingText]
  rw [← hfiel]
  simp [render, String.toList_join, flatMap_map]

/-- A heading with the same names has as many quotes as one whose texts hold none, and if it has no
more then its texts hold none either. -/
theorem count_fieldsText (hnms : a.names = b.names) (ha : ∀ e ∈ a, '"' ∉ e.2.toList) :
    (fieldsText a).count '"' ≤ (fieldsText b).count '"' ∧
      ((fieldsText b).count '"' ≤ (fieldsText a).count '"' → ∀ e ∈ b, '"' ∉ e.2.toList) := by
  induction a generalizing b with
  | nil => simp_all [Record.names]
  | cons e a ih =>
    obtain ⟨f, b, rfl, hname, hnms⟩ := map_eq_cons_iff.1 hnms.symm
    obtain ⟨hle, hnone⟩ := ih hnms.symm fun e he => ha e (.tail _ he)
    have he : e.2.toList.count '"' = 0 := count_eq_zero.2 (ha e mem_cons_self)
    simp only [fieldsText, count_cons, count_append, hname, he, forall_mem_cons,
      ← count_eq_zero (a := '"')] at hle hnone ⊢
    exact ⟨by omega, fun h => ⟨by omega, hnone (by omega)⟩⟩

theorem fieldsText_inj (hnms : a.names = b.names) (ha : ∀ e ∈ a, '"' ∉ e.2.toList)
    (hb : ∀ e ∈ b, '"' ∉ e.2.toList) (h : fieldsText a = fieldsText b) : a = b := by
  induction a generalizing b with
  | nil => simp_all [Record.names]
  | cons e a ih =>
    obtain ⟨f, b, rfl, hname, hnms⟩ := map_eq_cons_iff.1 hnms.symm
    simp only [fieldsText, hname, cons.injEq, append_cancel_left_eq, true_and] at h
    obtain ⟨hval, hrest⟩ := append_cons_inj_left (ha e mem_cons_self) (hb f mem_cons_self) h
    have htail := ih hnms.symm (fun e he => ha e (.tail _ he)) (fun f hf => hb f (.tail _ hf)) hrest
    rw [htail, Prod.ext hname.symm (String.toList_injective hval)]

/-- **Headings without quotes are unambiguous.**  Of two headings of one kind, with texts under the
same names, that are written in the same way, one has no quotes in its texts only if it is the
other. -/
theorem render_inj_of_unquoted (kind : String) (hnames : a.names = b.names)
    (ha : ∀ e ∈ a, '"' ∉ e.2.toList) (h : (ofTexts a : Heading α).render kind =
    (ofTexts b : Heading α).render kind) : a = b := by
  have hl := congrArg String.toList h
  rw [toList_render, toList_render, cons.injEq] at hl
  have hfields := append_cancel_left hl.2
  exact fieldsText_inj hnames ha ((count_fieldsText hnames ha).2 (by rw [hfields])) hfields

def lamp : Record String :=
  [("name", "Lamp"), ("type", "OmniLight"), ("parent", "Desk/Arm")]

/-- The same heading, whose texts are put together from their characters. -/
def lampSpelled : Record String :=
  [("name", String.ofList ['L', 'a', 'm', 'p']), ("type", "Omni" ++ "Light"),
    ("parent", "Desk" ++ "/" ++ "Arm")]

theorem render_inj_of_unquoted_lamp : (∀ e ∈ lamp, '"' ∉ e.2.toList) ∧ lamp = lampSpelled := by
  have hlamp : ∀ e ∈ lamp, '"' ∉ e.2.toList := by simp [lamp]
  exact ⟨hlamp, render_inj_of_unquoted (α := ℚ) "node" rfl hlamp (by decide +kernel)⟩

def bulb : Record String :=
  [("name", "b"), ("type", "Spatial"), ("parent", "c\" type=\"Spatial\" parent=\"x")]

/-- A node below another parent, whose name goes on where that of the bulb ends. -/
def imitation : Record String :=
  [("name", "b\" type=\"Spatial\" parent=\"c"), ("type", "Spatial"), ("parent", "x")]

/-- Where texts hold quotes, two headings can be written in the same way. -/
theorem render_imitation : bulb.names = imitation.names ∧ bulb ≠ imitation ∧
    (ofTexts bulb : Heading ℚ).render "node" = (ofTexts imitation : Heading ℚ).render "node" := by
  decide +kernel

end Heading

end SceneExport
