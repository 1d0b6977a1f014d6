/-
# Configurations as documents

How each part of a configuration is read from a document and written as one.
Every field may be left out except the name of a requirement and the name and
id of an element. Written documents hold every field, in the order given here,
and maps in the order of their keys.

Key definitions: `PassConfig.form`, `PassConfig.ofText`, `PassConfig.tree`.
-/
import TemplatePasses.Config.Basic
import TemplatePasses.Json.Record

namespace TemplatePasses

open Json (Tree Decoder RecordForm Field Fault)

/-- The tree of a list of texts. -/
def textsTree (texts : List String) : Tree :=
  .ofList (texts.map .ofString)

/-! ### Switches and rules -/

namespace Toggle

def name : Toggle → String
  | .enabled => "enabled"
  | .disabled => "disabled"
  | .unset => "unset"

def named : List (String × Toggle) :=
  [enabled, disabled, unset].map fun t => (t.name, t)

def decode : Decoder Toggle :=
  .variant named

def tree (t : Toggle) : Tree :=
  .ofString t.name

end Toggle

namespace StopRule

def named : List (String × StopRule) :=
  [before, after].map fun r => (r.name, r)

def ofName? (name : String) : Option StopRule :=
  named.lookup name

def decode : Decoder StopRule :=
  .variant named

def tree (r : StopRule) : Tree :=
  .ofString r.name

end StopRule

/-! ### General options -/

namespace GeneralOptions

/-- The fields of the general options. -/
def form : RecordForm GeneralOptions where
  name := "GeneralOptions"
  blank := {}
  fields := [
    .optional "experimental_features" (.list .text) fun v r => { r with experimentalFeatures := v },
    .optional "compile_time_globals" (.map Json.Value.decode) fun v r => { r with globals := v },
    .optional "strict_autoescaping_required" Toggle.decode
      fun v r => { r with strictAutoescaping := v },
    .optional "allow_external_calls" Toggle.decode fun v r => { r with externalCalls := v },
    .optional "optimizer_enabled" .bool fun v r => { r with optimizer := v }]

def decode : Decoder GeneralOptions :=
  form.decode

def tree (o : GeneralOptions) : Tree :=
  .ofMembers [
    ("experimental_features", textsTree o.experimentalFeatures),
    ("compile_time_globals", .ofMembers (o.globals.map Json.Value.tree).entries),
    ("strict_autoescaping_required", o.strictAutoescaping.tree),
    ("allow_external_calls", o.externalCalls.tree),
    ("optimizer_enabled", .ofBool o.optimizer)]

end GeneralOptions

/-! ### Conformance -/

namespace ConformanceRequirement

def form : RecordForm ConformanceRequirement where
  name := "ConformanceRequirement"
  blank := { name := "" }
  fields := [
    .mandatory "name" .text fun v r => { r with name := v },
    .optional "error_message" .text fun v r => { r with message := v },
    .optional "whitelist" (.list .text) fun v r => { r with exempt := v }]

def decode : Decoder ConformanceRequirement :=
  form.decode

def tree (r : ConformanceRequirement) : Tree :=
  .ofMembers [
    ("name", .ofString r.name),
    ("error_message", .ofString r.message),
    ("whitelist", textsTree r.exempt)]

end ConformanceRequirement

namespace ConformanceConfig

def form : RecordForm ConformanceConfig where
  name := "ConformanceConfig"
  blank := {}
  fields := [
    .optional "requirements" (.list ConformanceRequirement.decode)
      fun v r => { r with requirements := v }]

def decode : Decoder ConformanceConfig :=
  form.decode

def tree (c : ConformanceConfig) : Tree :=
  .ofMembers [("requirements", .ofList (c.requirements.map ConformanceRequirement.tree))]

end ConformanceConfig

/-! ### Logging -/

namespace LoggableElement

def form : RecordForm LoggableElement where
  name := "LoggableElement"
  blank := { name := "", id := 0 }
  fields := [
    .mandatory "name" .text fun v r => { r with name := v },
    .mandatory "id" .int64 fun v r => { r with id := v },
    .optional "proto_type" (.option .text) fun v r => { r with protoType := v }]

def decode : Decoder LoggableElement :=
  form.decode

def tree (e : LoggableElement) : Tree :=
  .ofMembers [
    ("name", .ofString e.name),
    ("id", .leaf (.numeral (.ofInt e.id.toInt))),
    ("proto_type",
      match e.protoType with
      | some t => .ofString t
      | none => .null)]

end LoggableElement

namespace LoggingConfig

def form : RecordForm LoggingConfig where
  name := "LoggingConfig"
  blank := {}
  fields := [
    .optional "elements" (.list LoggableElement.decode) fun v r => { r with elements := v }]

def decode : Decoder LoggingConfig :=
  form.decode

def tree (c : LoggingConfig) : Tree :=
  .ofMembers [("elements", .ofList (c.elements.map LoggableElement.tree))]

end LoggingConfig

/-! ### The whole configuration -/

namespace PassConfig

def form : RecordForm PassConfig where
  name := "PassConfig"
  blank := {}
  fields := [
    .optional "disable_all_type_checking" .bool fun v r => { r with disableTypeChecking := v },
    .optional "allow_unknown_globals" .bool fun v r => { r with allowUnknownGlobals := v },
    .optional "allow_v1_expression" .bool fun v r => { r with allowV1Expression := v },
    .optional "desugar_html_nodes" .bool fun v r => { r with desugarHtml := v },
    .optional "optimize" .bool fun v r => { r with optimize := v },
    .optional "autoescaper_enabled" .bool fun v r => { r with autoescaper := v },
    .optional "add_html_attributes_for_debugging" .bool fun v r => { r with debugAttributes := v },
    .optional "options" GeneralOptions.decode fun v r => { r with options := v },
    .optional "conformance" ConformanceConfig.decode fun v r => { r with conformance := v },
    .optional "logging" LoggingConfig.decode fun v r => { r with logging := v },
    .optional "continuation_rules" (.map StopRule.decode) fun v r => { r with rules := v }]

def decode : Decoder PassConfig :=
  form.decode

/-- Reads the text of a configuration. -/
def ofText (text : String) : Except Fault PassConfig :=
  decode.decodeText text

def tree (c : PassConfig) : Tree :=
  .ofMembers [
    ("disable_all_type_checking", .ofBool c.disableTypeChecking),
    ("allow_unknown_globals", .ofBool c.allowUnknownGlobals),
    ("allow_v1_expression", .ofBool c.allowV1Expression),
    ("desugar_html_nodes", .ofBool c.desugarHtml),
    ("optimize", .ofBool c.optimize),
    ("autoescaper_enabled", .ofBool c.autoescaper),
    ("add_html_attributes_for_debugging", .ofBool c.debugAttributes),
    ("options", c.options.tree),
    ("conformance", c.conformance.tree),
    ("logging", c.logging.tree),
    ("continuation_rules", .ofMembers (c.rules.map StopRule.tree).entries)]

end PassConfig
end TemplatePasses
