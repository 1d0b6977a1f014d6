/-
# Plans in writing

A plan is written as text, with a numbered line for each pass and the phase
beside each pass over the whole set, or as a document with the two lists of
names.

Key definitions: `Plan.text`, `Plan.tree`.
-/
import TemplatePasses.Plan.Basic
import TemplatePasses.Log.Line

namespace TemplatePasses.Plan

open TemplatePasses.Log (setRight countText)
open TemplatePasses.Json (Tree)

/-- The text set left in so many columns. -/
def setLeft (width : Nat) (s : String) : String :=
  String.ofList (s.toList.rightpad width ' ')

/-- The line of a pass over one file; passes count from one. -/
def fileLine (number : Nat) (role : FileRole) : String :=
  setRight 3 (countText number) ++ "  " ++ role.name ++ "\n"

/-- The line of a pass over the whole set. -/
def fileSetLine (number : Nat) (role : FileSetRole) : String :=
  setRight 3 (countText number) ++ "  " ++ setLeft 32 role.name ++ " " ++ role.phase.name ++ "\n"

/-- A line for each of the roles, counted from `number`. -/
def numbered {α : Type} (line : Nat → α → String) (number : Nat) : List α → String
  | [] => ""
  | role :: rest => line number role ++ numbered line (number + 1) rest

def text (p : Plan) : String :=
  "single-file passes (" ++ countText p.singleFile.length ++ "):\n" ++
    numbered fileLine 1 p.singleFile ++
    "fileset passes (" ++ countText p.fileSet.length ++ "):\n" ++
    numbered fileSetLine 1 p.fileSet

def tree (p : Plan) : Tree :=
  .ofMembers [
    ("single_file_passes", .ofList (p.singleFileNames.map .ofString)),
    ("cross_template_checking_passes", .ofList (p.fileSetNames.map .ofString))]

end TemplatePasses.Plan
