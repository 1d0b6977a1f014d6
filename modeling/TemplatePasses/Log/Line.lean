/-
# Log lines

How an event is written. The compact form is one line with the level set right
in five columns; the form for tools is an object; the form for people puts the
fields behind the message and leaves a blank line after each event.

Key definitions: `Event.compact`, `Event.tree`, `Event.pretty`.
-/
import TemplatePasses.Log.Event
import TemplatePasses.Json.Layout

namespace TemplatePasses.Log

open TemplatePasses.Text
open TemplatePasses.Json (Tree)

/-- The text set right in so many columns. -/
def setRight (width : Nat) (s : String) : String :=
  String.ofList (s.toList.leftpad width ' ')

def countText (n : Nat) : String :=
  String.ofList (Json.decimalDigits n)

/-- A value as it is written in a line. -/
def FieldValue.shown : FieldValue → String
  | .text s => quoted s
  | .plain s => s
  | .count n => countText n

/-- A value as it is written for tools. -/
def FieldValue.tree : FieldValue → Tree
  | .text s | .plain s => .ofString s
  | .count n => .ofNat n

namespace Event

/-- The event on one line. -/
def compact (e : Event) : String :=
  setRight 5 e.level.name ++ " " ++ e.target ++ ": " ++
    " ".intercalate (e.message :: e.fields.map fun f => f.1 ++ "=" ++ f.2.shown)

/-- The event as an object. -/
def tree (e : Event) : Tree :=
  .ofMembers [
    ("level", .ofString e.level.name),
    ("fields", .ofMembers (("message", .ofString e.message) :: e.fields.map fun f => (f.1, f.2.tree))),
    ("target", .ofString e.target)]

/-- The event for people, with a blank line behind it. -/
def pretty (e : Event) : String :=
  "  " ++ setRight 5 e.level.name ++ " " ++ e.target ++ ": " ++
    commaSeparated (e.message :: shownFields (e.fields.map fun f => (f.1, f.2.shown))) ++ "\n"

end Event
end TemplatePasses.Log
