
/-!
# Records and references

What the entries of a scene file are made of.
-/

namespace SceneExport

/-! ### Records

Named values in the order in which the names first appeared.  Setting a name that is there
already keeps its place. -/

abbrev Record (β : Type) := List (String × β)

namespace Record

variable {β : Type}

def get? (r : Record β) (name : String) : Option β :=
  r.lookup name

def has (r : Record β) (name : String) : Bool :=
  (r.get? name).isSome

def set (r : Record β) (name : String) (value : β) : Record β :=
  match r with
  | [] => [(name, value)]
  | (n, v) :: rest => if n == name then (n, value) :: rest else (n, v) :: set rest name value

def names (r : Record β) : List String :=
  r.map Prod.fst

def setAll (r : Record β) (entries : List (String × β)) : Record β :=
  entries.foldl (fun r e => r.set e.1 e.2) r

@[simp]
theorem get?_set_self (r : Record β) (name : String) (value : β) :
    (r.set name value).get? name = some value := by
  induction r with
  | nil => simp [set, get?]
  | cons e rest ih =>
    obtain ⟨n, v⟩ := e
    by_cases h : n = name
    · simp [set, get?, h]
    · have h' : ¬name = n := fun e => h e.symm
      have hb : (name == n) = false := by simp [h']
      simp only [set, h, beq_iff_eq, if_false]
      simpa [get?, List.lookup_cons, hb] using ih

theorem get?_set_ne {r : Record β} {name other : String} (h : other ≠ name) (value : β) :
    (r.set name value).get? other = r.get? other := by
  have hb : (other == name) = false := by simpa using h
  induction r with
  | nil => simp [set, get?, List.lookup_cons, hb]
  | cons e rest ih =>
    obtain ⟨n, v⟩ := e
    by_cases hn : n = name
    · subst hn
      simp [set, get?, List.lookup_cons, hb]
    · simp only [set, hn, beq_iff_eq, if_false]
      simp only [get?, List.lookup_cons] at ih ⊢
      rw [ih]

end Record

/-! ### References

How an entry of a scene file refers to a resource. -/

inductive Reference where
  /-- A sub-resource of the same file; `none` if it was never made. -/
  | internal (id : Option Nat)
  | external (id : Nat)
  | named (text : String)
  deriving DecidableEq, Repr, Inhabited

def Reference.render : Reference → String
  | .internal (some id) => "SubResource(" ++ toString id ++ ")"
  | .internal none => "SubResource(None)"
  | .external id => "ExtResource(" ++ toString id ++ ")"
  | .named text => text

end SceneExport
