import Mathlib.Data.List.TakeDrop
import SceneExport.Animation.DataPath

/-!
# Reading the paths of bones

A curve of a bone names the bone in quotes, and the search for the name takes the first place that
looks like one.  The name may hold points, brackets and ends of lines, and look like a path
itself.  As long as it holds no quote, bone and attribute are read back as they were written
(`BonePath.split_reads_back`), so the curves that are gathered under one path are the curves of one
bone.
-/

namespace SceneExport

namespace Text

variable {sep : Char} {cs after : List Char}

theorem splitLast?_eq_none (h : sep ∉ cs) : splitLast? sep cs = none := by
  induction cs with
  | nil => rfl
  | cons c cs ih =>
    obtain ⟨hc, hcs⟩ := not_or.1 (mt List.mem_cons.2 h)
    rw [splitLast?, ih hcs]
    exact if_neg fun heq => hc (beq_iff_eq.1 heq).symm

theorem splitLast?_append (before : List Char) (h : sep ∉ after) :
    splitLast? sep (before ++ sep :: after) = some (before, after) := by
  induction before with
  | nil => rw [List.nil_append, splitLast?, splitLast?_eq_none h, beq_self_eq_true, if_pos rfl]
  | cons c before ih => rw [List.cons_append, splitLast?, ih]

theorem findFirst?_of_some {β : Type} {find : List Char → Option β} {b : β} (h : find cs = some b) :
    findFirst? find cs = some b := by
  cases cs with
  | nil => exact h
  | cons c cs => rw [findFirst?, h]

end Text

/-- An attribute of a bone, as a curve names it. -/
structure BonePath where
  bone : String
  driven : String
  bone_ne : bone ≠ ""
  bone_unquoted : '"' ∉ bone.toList
  driven_undivided : '.' ∉ driven.toList

namespace BonePath

open DataPath

variable (p q : BonePath)

/-- The path of the bone itself. -/
def thing : String :=
  "pose.bones[\"" ++ p.bone ++ "\"]"

def text : String :=
  p.thing ++ "." ++ p.driven

theorem split_text : split p.text = (p.thing, p.driven) := by
  have htext : p.text.toList = p.thing.toList ++ '.' :: p.driven.toList := by
    simp [text]
  rw [split, htext, Text.splitLast?_append _ p.driven_undivided]
  simp

/-- The name ends at the first quote, which is the one after it. -/
theorem quotedName?_bone : quotedName? (p.bone.toList ++ ['"', ']']) = some p.bone := by
  have hname : ∀ c ∈ p.bone.toList, (c != '"') = true := fun c hc =>
    bne_iff_ne.2 fun h => p.bone_unquoted (h ▸ hc)
  simp [quotedName?, List.takeWhile_append_of_pos hname, List.dropWhile_append_of_pos hname,
    p.bone_ne, Text.strip?]

theorem boneName_thing : boneName p.thing = .ok p.bone := by
  have hthing : p.thing.toList = "pose.bones[\"".toList ++ (p.bone.toList ++ ['"', ']']) := by
    simp [thing]
  -- the search succeeds where the path begins, before it comes to the name
  have hfirst : boneAt? p.thing.toList = some p.bone := by
    rw [hthing]
    exact p.quotedName?_bone
  rw [boneName, Text.findFirst?_of_some hfirst, need]

theorem thing_inj : p.thing = q.thing ↔ p.bone = q.bone := by
  constructor
  · intro h
    have hname := p.boneName_thing
    rw [h, boneName_thing] at hname
    exact (Except.ok.inj hname).symm
  · intro h
    rw [thing, thing, h]

/-- **The paths of bones are read as they are written.**  The path of an attribute of a bone is
split into that attribute and a path from which the name of the bone is found; and the paths that
are split off from two of them are equal exactly if the bones are. -/
theorem split_reads_back : (split p.text).2 = p.driven ∧ boneName (split p.text).1 = .ok p.bone ∧
    ((split p.text).1 = (split q.text).1 ↔ p.bone = q.bone) := by
  rw [split_text, split_text]
  exact ⟨rfl, p.boneName_thing, p.thing_inj q⟩

/-- A bone whose name looks like the end of its own path and the beginning of another. -/
def lookalike : BonePath :=
  ⟨"].scale\npose.bones[", "location", by decide, by decide, by decide⟩

theorem split_reads_back_lookalike : (split lookalike.text).2 = "location" ∧
    boneName (split lookalike.text).1 = .ok "].scale\npose.bones[" :=
  ⟨(split_reads_back lookalike lookalike).1, (split_reads_back lookalike lookalike).2.1⟩

end BonePath

end SceneExport
