/-
# Values shown for inspection

The one-line form in which settings, options and pipelines are shown to
someone who debugs them: records as `Name { field: value }`, lists in square
brackets, maps from quoted keys in braces. A record that shows only some of its
fields ends in two dots.
-/
import TemplatePasses.Text.Quoted

namespace TemplatePasses.Text

/-- The texts with a comma and a blank between them. -/
def commaSeparated (items : List String) : String :=
  ", ".intercalate items

/-- A list, its items already shown. -/
def shownList (items : List String) : String :=
  "[" ++ commaSeparated items ++ "]"

/-- A map from texts, its values already shown. -/
def shownMap (entries : List (String × String)) : String :=
  "\x7b" ++ commaSeparated (entries.map fun e => quoted e.1 ++ ": " ++ e.2) ++ "\x7d"

/-- The fields of a record, each with its name. -/
def shownFields (fields : List (String × String)) : List String :=
  fields.map fun f => f.1 ++ ": " ++ f.2

/-- A record that shows all its fields. -/
def shownRecord (name : String) (fields : List (String × String)) : String :=
  name ++ " \x7b " ++ commaSeparated (shownFields fields) ++ " \x7d"

/-- A record that keeps some fields to itself. -/
def shownOpenRecord (name : String) (fields : List (String × String)) : String :=
  name ++ " \x7b " ++ commaSeparated (shownFields fields ++ [".."]) ++ " \x7d"

/-- A value under the name of its kind. -/
def shownCase (name : String) (value : String) : String :=
  name ++ "(" ++ value ++ ")"

def shownBool : Bool → String
  | true => "true"
  | false => "false"

/-- A value that may be missing, already shown. -/
def shownOption : Option String → String
  | some value => shownCase "Some" value
  | none => "None"

end TemplatePasses.Text
