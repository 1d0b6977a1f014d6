/-
# Configurations shown for inspection

The one-line form of options, rules and settings. Settings are shown without
their resources, which have no form that could be read.

Key definitions: `GeneralOptions.shown`, `StopRules.shown`, `Settings.shown`.
-/
import TemplatePasses.Plan.Settings
import TemplatePasses.Text.Shown

namespace TemplatePasses

open Text

def Toggle.shown : Toggle → String
  | .enabled => "Enabled"
  | .disabled => "Disabled"
  | .unset => "Unset"

def StopRule.shown : StopRule → String
  | .before => "StopBeforePass"
  | .after => "StopAfterPass"

/-- General options with all fields. -/
def GeneralOptions.shown (o : GeneralOptions) : String :=
  shownRecord "GeneralOptions" [
    ("experimental_features", shownList (o.experimentalFeatures.map quoted)),
    ("compile_time_globals", shownMap (o.globals.map Json.Value.shown).entries),
    ("strict_autoescaping_required", o.strictAutoescaping.shown),
    ("allow_external_calls", o.externalCalls.shown),
    ("optimizer_enabled", shownBool o.optimizer)]

/-- The rules in force. -/
def StopRules.shown (rules : StopRules) : String :=
  shownRecord "ContinuationRegistry" [("rules", shownMap (rules.map StopRule.shown).entries)]

/-- The settings without the resources. -/
def Settings.shown (s : Settings) : String :=
  shownOpenRecord "PipelineBuilder" [
    ("options", shownOption (s.options.map GeneralOptions.shown)),
    ("allow_unknown_globals", shownBool s.allowUnknownGlobals),
    ("allow_v1_expression", shownBool s.allowV1Expression),
    ("disable_all_type_checking", shownBool s.disableTypeChecking),
    ("desugar_html_nodes", shownBool s.desugarHtml),
    ("optimize", shownBool s.optimize),
    ("autoescaper_enabled", shownBool s.autoescaper),
    ("add_html_attributes_for_debugging", shownBool s.debugAttributes),
    ("continuation_rules", s.rules.shown)]

end TemplatePasses
