import SceneExport.Failure
import SceneExport.Text.Split

/-!
# Paths

Slash-separated paths, of files and of nodes in a scene tree.  The current directory is the
root.  A path is cut into components (`components`), its `.` and `..` are resolved
(`normalize`), and one path is expressed relative to another (`relative`): climb from the start
to the common part, then descend to the target (`climb`).
-/

namespace SceneExport.Path

/-! ### Components -/

/-- The names between the slashes of a path. -/
def components (p : String) : List String :=
  (Text.split '/' p).filter (· != "")

/-- Whether a path starts at the root. -/
def isAbsolute (p : String) : Bool :=
  Text.startsWith p "/"

/-- Resolve `.` and `..`; `kept` holds the components resolved so far, reversed.  At the root
there is nothing to climb to (`rooted`), elsewhere the climb is kept. -/
def resolve (rooted : Bool) (kept : List String) : List String → List String
  | [] => kept.reverse
  | "." :: cs => resolve rooted kept cs
  | ".." :: cs =>
    match kept with
    | [] => resolve rooted (if rooted then [] else [".."]) cs
    | ".." :: _ => resolve rooted (".." :: kept) cs
    | _ :: rest => resolve rooted rest cs
  | c :: cs => resolve rooted (c :: kept) cs

/-- The slashes that a normalised path begins with: none, one, or exactly two. -/
def leadingSlashes (p : String) : String :=
  if !isAbsolute p then ""
  else if Text.startsWith p "//" && !Text.startsWith p "///" then "//"
  else "/"

/-- A path without empty components, `.` and resolvable `..`. -/
def normalize (p : String) : String :=
  let start := leadingSlashes p
  let body := Text.joinWith "/" (resolve (start != "") [] (components p))
  if (start ++ body).isEmpty then "." else start ++ body

/-- The components of a path from the root down. -/
def absolute (p : String) : List String :=
  resolve true [] (components p)

/-! ### Relative paths -/

/-- How far two lists agree. -/
def commonLength : List String → List String → Nat
  | a :: as, b :: bs => if a == b then 1 + commonLength as bs else 0
  | _, _ => 0

/-- The way from one absolute place to another: up to the common part, then down. -/
def climb (start target : List String) : List String :=
  let k := commonLength start target
  List.replicate (start.length - k) ".." ++ target.drop k

/-- One path as seen from another.  There is no path to see when the target is empty. -/
def relative (target start : String) : Except Failure String :=
  if target.isEmpty then throw .unusableValue
  else
    let way := climb (absolute start) (absolute target)
    pure (if way.isEmpty then "." else Text.joinWith "/" way)

/-! ### Parts -/

/-- Everything up to and including the last slash, and what follows it. -/
def cutLast (p : String) : List Char × List Char :=
  match Text.splitLast? '/' p.toList with
  | some (before, after) => (before ++ ['/'], after)
  | none => ([], p.toList)

/-- Leave out slashes at the end, unless there is nothing else. -/
def trimSlashes (cs : List Char) : List Char :=
  let trimmed := (cs.reverse.dropWhile (· == '/')).reverse
  if trimmed.isEmpty then cs else trimmed

/-- What is before the last slash. -/
def directory (p : String) : String :=
  String.ofList (trimSlashes (cutLast p).1)

theorem cutLast_initial (p : String) : (cutLast p).1 <+: p.toList := by
  have hsplit (cs : List Char) : ∀ x ∈ Text.splitLast? '/' cs, cs = x.1 ++ '/' :: x.2 := by
    intro x hx
    fun_induction Text.splitLast? '/' cs generalizing x with
    | case1 => cases hx
    | case2 c cs before after hcut ih =>
      cases hx
      rw [ih _ hcut, List.cons_append]
    | case3 c cs _ hc ih =>
      cases hx
      rw [eq_of_beq hc, List.nil_append]
    | case4 => cases hx
  unfold cutLast
  split
  · next before after hcut => exact ⟨after, by simp [hsplit _ _ hcut]⟩
  · exact List.nil_prefix

theorem directory_initial (p : String) : (directory p).toList <+: p.toList := by
  rw [directory, String.toList_ofList]
  refine List.IsPrefix.trans ?_ (cutLast_initial p)
  unfold trimSlashes
  extract_lets trimmed
  split
  · exact List.prefix_rfl
  · rw [← List.reverse_suffix, List.reverse_reverse]
    exact List.dropWhile_suffix _

/-- The directory of a path is shorter than the path, or it is the path itself. -/
theorem directory_shorter (p : String) : (directory p).length < p.length ∨ directory p = p := by
  have hinitial := directory_initial p
  rcases Nat.lt_or_eq_of_le hinitial.length_le with hlt | heq
  · exact .inl hlt
  · exact .inr (String.toList_inj.1 (hinitial.eq_of_length heq))

/-- What is after the last slash. -/
def fileName (p : String) : String :=
  String.ofList (cutLast p).2

/-- A path below a directory; an absolute path stays as it is. -/
def join (dir p : String) : String :=
  if isAbsolute p then p
  else if dir.isEmpty || Text.endsWith dir "/" then dir ++ p
  else dir ++ "/" ++ p

def slashed (p : String) : String :=
  String.ofList (p.toList.map fun c => if c == '\\' then '/' else c)

end SceneExport.Path
