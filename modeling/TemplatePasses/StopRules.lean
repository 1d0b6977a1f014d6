/-
# Rules that stop assembly

The rules in force, each under the name of its pass. Assembly takes the rule of
every pass it is offered out of the map; what is left at the end met no pass.

Key definitions: `StopRules`, `StopRules.take`, `StopRules.describe`.
-/
import TemplatePasses.Config.Basic

namespace TemplatePasses

/-- The rules in force, by the name of the pass. -/
abbrev StopRules := NameMap StopRule

namespace StopRules

/-- The rule of a pass, and the rules without it. -/
def take (rules : StopRules) (pass : String) : Option StopRule × StopRules :=
  (rules.find? pass, rules.erase pass)

/-- A rule with the name of its pass. -/
def entryText (entry : String × StopRule) : String :=
  entry.1 ++ "=" ++ entry.2.name

/-- The rules in braces, by ascending name. -/
def describe (rules : StopRules) : String :=
  "\x7b" ++ Text.commaSeparated (rules.entries.map entryText) ++ "\x7d"

end StopRules
end TemplatePasses
