import SceneExport.Proofs.Step
import SceneExport.Shader.Draft

/-!
# Variables in scope

The code of a material's fragment function is a list of lines that declare variables and use them.
The variables of shader nodes have names that begin with `node`, a number and an underscore
(`isNodeVariable`).  In good code each of them is declared before it is used
(`DeclaredFirst`).

Code is put together from pieces, and a piece may use what the pieces before it declare.  `Scoped`
says that a piece is good after others: it takes the variables that are known already, and
`scoped_append` puts two pieces together.

Every variable of a node is named after the number of the node (`IsOwn`), so two nodes have no name
in common (`IsOwn.unique`).
-/

namespace SceneExport

open List

/-! ### What lines use and declare -/

/-- The variables that a line reads or gives a value. -/
def Line.uses : Line → List String
  | .assign target value _ => target :: value.reads
  | line => line.reads

def Line.declared : Line → List String
  | .declare _ id _ => [id]
  | _ => []

def declaredIn (lines : List Line) : List String :=
  lines.flatMap Line.declared

/-- Whether a name begins with `node`, a number and an underscore. -/
def isNodeVariable (id : String) : Bool :=
  match id.toList with
  | 'n' :: 'o' :: 'd' :: 'e' :: rest =>
    !(rest.takeWhile Char.isDigit).isEmpty && (rest.dropWhile Char.isDigit).head? == some '_'
  | _ => false

/-- Each variable of a node that a line uses is declared, with a type, in a line before it. -/
def DeclaredFirst (lines : List Line) : Prop :=
  ∀ before line after, lines = before ++ line :: after →
    ∀ x ∈ line.uses, isNodeVariable x = true → ∃ type value, .declare type x value ∈ before

variable {lines a b : List Line} {known : String → Prop} {x : String}

theorem mem_declaredIn : x ∈ declaredIn lines ↔ ∃ type value, .declare type x value ∈ lines := by
  simp only [declaredIn, mem_flatMap]
  constructor
  · rintro ⟨line, hline, hx⟩
    cases line with
    | declare type id value =>
      cases mem_singleton.1 hx
      exact ⟨type, value, hline⟩
    | _ => cases hx
  · rintro ⟨type, value, h⟩
    exact ⟨_, h, mem_singleton_self x⟩

@[simp] theorem declaredIn_nil : declaredIn [] = [] := rfl

@[simp] theorem declaredIn_cons (line : Line) (lines : List Line) :
    declaredIn (line :: lines) = line.declared ++ declaredIn lines := rfl

@[simp] theorem declaredIn_append (a b : List Line) : declaredIn (a ++ b) = declaredIn a ++
    declaredIn b :=
  flatMap_append

/-! ### Code after other code -/

/-- Each variable of a node that a line uses is known, or declared in a line before it. -/
def Scoped (known : String → Prop) : List Line → Prop
  | [] => True
  | line :: rest =>
    (∀ x ∈ line.uses, isNodeVariable x = true → known x) ∧
      Scoped (fun x => known x ∨ x ∈ line.declared) rest

theorem Scoped.mono {known' : String → Prop} (h : Scoped known lines)
    (hk : ∀ x, known x → known' x) : Scoped known' lines := by
  induction lines generalizing known known' with
  | nil => trivial
  | cons line lines ih =>
    exact ⟨fun x hx hv => hk x (h.1 x hx hv), ih h.2 fun x hx => hx.imp_left (hk x)⟩

theorem scoped_append : Scoped known (a ++ b) ↔ Scoped known a ∧
    Scoped (fun x => known x ∨ x ∈ declaredIn a) b := by
  induction a generalizing known with
  | nil => simp [Scoped]
  | cons line a ih =>
    simp only [cons_append, Scoped, ih, declaredIn_cons, mem_append, or_assoc, and_assoc]

theorem scoped_iff : Scoped known lines ↔ ∀ before line after, lines = before ++ line :: after →
      ∀ x ∈ line.uses, isNodeVariable x = true → known x ∨ x ∈ declaredIn before := by
  induction lines generalizing known with
  | nil => simp [Scoped]
  | cons line lines ih =>
    simp only [Scoped, ih]
    constructor
    · rintro ⟨hline, hlns⟩ before l after h x hx hv
      cases before with
      | nil =>
        cases h
        exact .inl (hline x hx hv)
      | cons first before =>
        cases h
        simpa [or_assoc] using hlns before l after rfl x hx hv
    · intro h
      refine ⟨fun x hx hv => ?_, fun before l after he x hx hv => ?_⟩
      · simpa using h [] line lines rfl x hx hv
      · subst he
        simpa [or_assoc] using h (line :: before) l after rfl x hx hv

theorem declaredFirst_iff_scoped : DeclaredFirst lines ↔ Scoped (fun _ => False) lines := by
  simp only [scoped_iff, false_or, mem_declaredIn, DeclaredFirst]

theorem DeclaredFirst.declared (h : DeclaredFirst lines) {line : Line} (hline : line ∈ lines)
    (hx : x ∈ line.uses) (hv : isNodeVariable x = true) : x ∈ declaredIn lines := by
  obtain ⟨before, after, rfl⟩ := append_of_mem hline
  obtain ⟨type, value, hd⟩ := h before line after rfl x hx hv
  exact mem_declaredIn.2 ⟨type, value, mem_append_left _ hd⟩

theorem scoped_of_known (h : ∀ line ∈ lines, ∀ x ∈ line.uses, isNodeVariable x = true → known x) :
    Scoped known lines := by
  rw [scoped_iff]
  rintro before line after rfl x hx hv
  exact .inl (h line (by simp) x hx hv)

/-! ### Expressions -/

namespace Expr

@[simp] theorem reads_nil : reads [] = [] := rfl

@[simp] theorem reads_text (s : String) (e : Expr) : reads (.text s :: e) = reads e := rfl

@[simp] theorem reads_var (id : String) (e : Expr) : reads (.var id :: e) = id :: reads e := rfl

@[simp] theorem reads_sampler (e : Expr) : reads (.sampler :: e) = reads e := rfl

@[simp] theorem reads_append (a b : Expr) : reads (a ++ b) = reads a ++ reads b :=
  filterMap_append

@[simp] theorem reads_of_text (s : String) : reads (.text s) = [] := rfl

@[simp] theorem reads_of_var (id : String) : reads (.var id) = [id] := rfl

@[simp] theorem reads_bindSampler (name : String) (e : Expr) : (e.bindSampler name).reads =
    e.reads := by
  induction e with
  | nil => rfl
  | cons piece e ih =>
    cases piece with
    | text s => exact ih
    | var id => exact congrArg (id :: ·) ih
    | sampler => exact ih

end Expr

/-! ### Textures that get their names -/

namespace Line

variable (placeholder : Option String) (name : String) (line : Line)

theorem uses_bindSampler : (line.bindSampler placeholder name).uses = line.uses := by
  cases line with
  | declare type id value => cases value <;> simp [bindSampler, uses, reads]
  | call function args closed =>
    simp [bindSampler, uses, reads, flatMap_map]
  | raw text => cases placeholder <;> rfl
  | _ => simp [bindSampler, uses, reads]

theorem declared_bindSampler : (line.bindSampler placeholder name).declared = line.declared := by
  cases line with
  | raw text => cases placeholder <;> rfl
  | _ => rfl

end Line

/-- The lines use and declare the same, one by one. -/
def SameNames (a b : List Line) : Prop :=
  a.map (fun line => (line.uses, line.declared)) = b.map fun line => (line.uses, line.declared)

namespace SameNames

theorem declaredIn_eq (h : SameNames a b) : declaredIn a = declaredIn b := by
  have hd : a.map Line.declared = b.map Line.declared := by
    simpa [Function.comp_def] using congrArg (List.map Prod.snd) h
  rw [declaredIn, flatMap_def, hd, ← flatMap_def, declaredIn]

theorem uses_eq (h : SameNames a b) : a.flatMap Line.uses = b.flatMap Line.uses := by
  have hu : a.map Line.uses = b.map Line.uses := by
    simpa [Function.comp_def] using congrArg (List.map Prod.fst) h
  rw [flatMap_def, hu, ← flatMap_def]

theorem scoped_iff (h : SameNames a b) : Scoped known a ↔ Scoped known b := by
  induction a generalizing known b with
  | nil => cases map_eq_nil_iff.1 h.symm; rfl
  | cons x a ih =>
    obtain ⟨y, b, rfl, hxy, hab⟩ := map_eq_cons_iff.1 h.symm
    have hu : y.uses = x.uses := congrArg Prod.fst hxy
    have hd : y.declared = x.declared := congrArg Prod.snd hxy
    simp only [Scoped, hu, hd, ih hab.symm]

end SameNames

theorem ShaderScript.bindTextures_sameNames (s : ShaderScript) (ts : List Texture)
    (lines : List Line) : SameNames (s.bindTextures ts lines).2 lines := by
  induction ts generalizing s lines with
  | nil => rfl
  | cons t ts ih =>
    refine (ih _ _).trans ?_
    simp [Line.uses_bindSampler, Line.declared_bindSampler, Function.comp_def]

/-! ### Names of the variables of nodes -/

namespace Names

/-- What the names of the `k`-th node begin with. -/
def start (k : Nat) : String :=
  "node" ++ toString k ++ "_"

/-- A name of the `k`-th node. -/
def IsOwn (k : Nat) (x : String) : Prop :=
  ∃ rest, x = start k ++ rest

/-- A name for an input of the `k`-th node, or for a property of the surface that enters there. -/
def IsInputName (k : Nat) (x : String) : Prop :=
  (∃ rest, x = start k ++ "in" ++ rest) ∨ ∃ middle p, x = start k ++ middle ++ SurfaceProperty.name
    p

/-- A name for a variable of the `k`-th node that no socket is bound to. -/
def IsVariableName (k : Nat) (x : String) : Prop :=
  ∃ rest, x = start k ++ "var" ++ rest

/-- The name for an output of the `k`-th node, the `j`-th that gets one. -/
def outputName (k j : Nat) (name : String) : String :=
  start k ++ "out" ++ toString j ++ "_" ++ identifierPart name

variable {k : Nat}

theorem IsInputName.isOwn (h : IsInputName k x) : IsOwn k x := by
  rcases h with ⟨rest, rfl⟩ | ⟨middle, p, rfl⟩
  · exact ⟨"in" ++ rest, String.append_assoc ..⟩
  · exact ⟨middle ++ p.name, String.append_assoc ..⟩

theorem IsVariableName.isOwn (h : IsVariableName k x) : IsOwn k x := by
  obtain ⟨rest, rfl⟩ := h
  exact ⟨"var" ++ rest, String.append_assoc ..⟩

theorem IsOwn.append (h : IsOwn k x) (y : String) : IsOwn k (x ++ y) := by
  obtain ⟨rest, rfl⟩ := h
  exact ⟨rest ++ y, String.append_assoc ..⟩

theorem isOwn_outputName (k j : Nat) (name : String) : IsOwn k (outputName k j name) :=
  ⟨"out" ++ toString j ++ "_" ++ identifierPart name, by
    simp only [outputName, String.append_assoc]⟩

/-! ### Numbers in names -/

theorem toList_toString (n : Nat) : (toString n).toList = Nat.toDigits 10 n :=
  Nat.toList_repr

theorem number_inj {m n : Nat} {x y : List Char}
    (h : Nat.toDigits 10 m ++ '_' :: x = Nat.toDigits 10 n ++ '_' :: y) : m = n := by
  have hd := (append_cons_inj_left Nat.underscore_not_in_toDigits Nat.underscore_not_in_toDigits
    h).1
  rw [← Nat.ofDigitChars_ten_toDigits (n := m), hd, Nat.ofDigitChars_ten_toDigits]

theorem IsOwn.unique {m : Nat} (hk : IsOwn k x) (hm : IsOwn m x) : k = m := by
  obtain ⟨r, rfl⟩ := hk
  obtain ⟨t, h⟩ := hm
  have hl := congrArg String.toList h
  simp only [start, String.toList_append, toList_toString, append_assoc] at hl
  exact number_inj (append_cancel_left hl)

theorem outputName_inj {i j : Nat} {a b : String} (h : outputName k i a = outputName k j b) : i =
    j := by
  have hl := congrArg String.toList h
  simp only [outputName, String.toList_append, toList_toString, append_assoc] at hl
  exact number_inj (append_cancel_left (append_cancel_left hl))

theorem IsOwn.isNodeVariable (h : IsOwn k x) : isNodeVariable x = true := by
  obtain ⟨rest, rfl⟩ := h
  have hd : ∀ c ∈ Nat.toDigits 10 k, c.isDigit = true := fun c hc =>
    Nat.isDigit_of_mem_toDigits (by decide) (by decide) hc
  have hl : (start k ++ rest).toList = 'n' :: 'o' :: 'd' :: 'e' ::
    (Nat.toDigits 10 k ++ '_' :: rest.toList) := by
    simp [start]
  have ht : (Nat.toDigits 10 k ++ '_' :: rest.toList).takeWhile Char.isDigit = Nat.toDigits 10
    k := by
    rw [takeWhile_append_of_pos hd]
    simp
  have hw : (Nat.toDigits 10 k ++ '_' :: rest.toList).dropWhile Char.isDigit =
    '_' :: rest.toList := by
    rw [dropWhile_append_of_pos hd]
    rfl
  simp [SceneExport.isNodeVariable, hl, ht, hw, Nat.toDigits_ne_nil]

/-! ### Names of outputs are no names of inputs or other variables -/

theorem not_isVariableName_outputName (k j : Nat) {name : String} : ¬ IsVariableName k
    (outputName k j name) := by
  rintro ⟨rest, h⟩
  have hl := congrArg String.toList h
  simp only [outputName, String.toList_append, append_assoc] at hl
  have hh := congrArg List.head? (append_cancel_left hl)
  simp at hh

theorem lowerFrom_append (before x y : List Char) :
    ∃ z, Text.lowerFrom before (x ++ y) = z ++ Text.lowerFrom (x.reverse ++ before) y := by
  induction x generalizing before with
  | nil => exact ⟨[], rfl⟩
  | cons c x ih =>
    obtain ⟨z, hz⟩ := ih (c :: before)
    rw [cons_append, Text.lowerFrom, hz, reverse_cons, append_assoc, singleton_append,
      ← append_assoc]
    exact ⟨_, rfl⟩

theorem lowerFrom_of_lower {y : List Char} (h : ∀ c ∈ y, c.toNat < 128 ∧ c.toLower = c)
    (before : List Char) : Text.lowerFrom before y = y := by
  induction y generalizing before with
  | nil => rfl
  | cons c y ih =>
    obtain ⟨hc, hl⟩ := h c mem_cons_self
    have hi : (c.toNat == 0x130) = false := beq_false_of_ne (by omega)
    have hs : (c.toNat == 0x3A3) = false := beq_false_of_ne (by omega)
    simp [Text.lowerFrom, hi, hs, Text.lowerChar, hc, hl, ih fun d hd => h d (.tail _ hd)]

/-- The name of a property stays at the end of a name that is made with it. -/
theorem identifierPart_property (s : String) (p : SurfaceProperty) :
    ∃ z, identifierPart (s ++ p.name) = z ++ p.name := by
  have hw : p.name.toList.filter Text.isWord = p.name.toList := by
    cases p <;> decide +kernel
  have hall : p.name.toList.all (fun c => decide (c.toNat < 128 ∧ c.toLower = c)) = true := by
    cases p <;> decide +kernel
  have hl (c : Char) (hc : c ∈ p.name.toList) : c.toNat < 128 ∧ c.toLower = c :=
    of_decide_eq_true (all_eq_true.1 hall c hc)
  obtain ⟨z, hz⟩ := lowerFrom_append [] (s.toList.filter Text.isWord) p.name.toList
  refine ⟨String.ofList z, ?_⟩
  simp only [identifierPart, Text.lower, Text.without, Bool.not_not, String.toList_append,
    String.toList_ofList, filter_append, hw, hz, lowerFrom_of_lower hl]
  simp [String.ofList_append]

theorem identifierPart_reflection : identifierPart "Reflection" = "reflection" := by
  decide +kernel

theorem not_isInputName_reflection (k j : Nat) : ¬ IsInputName k (outputName k j "Reflection") := by
  rintro (⟨rest, h⟩ | ⟨middle, p, h⟩)
  · have hl := congrArg String.toList h
    simp only [outputName, String.toList_append, append_assoc] at hl
    have hh := congrArg List.head? (append_cancel_left hl)
    simp at hh
  · have hl := congrArg String.toList h
    simp only [outputName, String.toList_append, identifierPart_reflection] at hl
    have hp : p.name.toList <:+ _ := ⟨_, hl.symm⟩
    rcases suffix_or_suffix_of_suffix hp (suffix_append ..) with hs | hs
    · revert hs
      cases p <;> decide
    · revert hs
      cases p <;> decide

end Names

end SceneExport
