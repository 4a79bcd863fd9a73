import Blip.Common.Files
import Blip.Studio.Project

/-!
# The file of the studio's project

The project is written to a temporary file, which then takes the place of the project's file. Loading
gives no project when the file is missing, broken or not valid.
-/

namespace Blip.Studio

/-- How a project is printed and parsed. A valid project is read back; one that is not valid is not read
as one that is, since a number that is not finite is printed as `null`. -/
structure ProjectText (Byte : Type) where
  isText : List Byte → Bool
  toStringPretty : Project → List Byte
  fromStr : List Byte → Option Project
  isText_toStringPretty : ∀ project, isText (toStringPretty project)
  fromStr_toStringPretty : ∀ project, project.isValid = true →
    fromStr (toStringPretty project) = some project
  fromStr_invalid : ∀ project project', project.isValid = false →
    fromStr (toStringPretty project) = some project' → project'.isValid = false

namespace Project

def fileName : String := "project.json"

def temporaryName : String := "project.tmp"

variable {Byte : Type} (text : ProjectText Byte)

def load (files : Files String Byte) : Option Project :=
  match files fileName with
  | none => none
  | some contents =>
    if text.isText contents then
      match text.fromStr contents with
      | none => none
      | some project => if project.isValid then some project else none
    else none

/-- The file operations of a save. -/
def save (project : Project) : List (FileOp String Byte) :=
  [.write temporaryName (text.toStringPretty project), .rename temporaryName fileName]

variable {text} {files : Files String Byte}

theorem load_congr {files' : Files String Byte} (h : files' fileName = files fileName) :
    load text files' = load text files := by
  rw [load, load, h]

/-- A saved project is loaded, unless it is not valid. -/
theorem load_save (project : Project) :
    load text (files.after (project.save text)) = if project.isValid then some project else none := by
  have hfile : files.after (project.save text) fileName = some (text.toStringPretty project) := by
    simp only [save, Files.after, List.foldl_cons, List.foldl_nil, FileOp.apply,
      Function.update_self]
  rw [load, hfile]
  dsimp only
  rw [if_pos (text.isText_toStringPretty project)]
  by_cases hvalid : project.isValid = true
  · rw [text.fromStr_toStringPretty project hvalid]
  · rw [if_neg hvalid]
    cases hread : text.fromStr (text.toStringPretty project) with
    | none => rfl
    | some project' =>
      have hinvalid :=
        text.fromStr_invalid project project' (Bool.eq_false_of_not_eq_true hvalid) hread
      dsimp only
      rw [hinvalid]
      rfl

/-- A save that stops leaves the project as it was. -/
theorem load_left {stop : Stop Byte} {project : Project} (hstop : stop.Of (project.save text)) :
    load text (stop.left (project.save text) files) = load text files := by
  have hspares : ∀ op ∈ [FileOp.write temporaryName (text.toStringPretty project)],
      op.Spares fileName := by
    intro op hmem
    rw [List.mem_singleton] at hmem
    subst hmem
    exact (by decide : temporaryName ≠ fileName)
  exact load_congr (Stop.left_of_rename hspares hstop)

end Project

end Blip.Studio
