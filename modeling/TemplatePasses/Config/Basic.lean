/-
# The configuration of the passes

Which passes run over a set of templates is decided by a `PassConfig`: switches
for single passes, general options of the compiler, the conformance requirements
and loggable elements that passes look up, and rules that stop the assembly at a
named pass.

Key definitions: `PassConfig`, `GeneralOptions`, `Toggle`, `StopRule`.
-/
import TemplatePasses.Json.Value

namespace TemplatePasses

/-- A switch for which "not set" is different from "off". -/
inductive Toggle where
  | enabled
  | disabled
  | unset
deriving DecidableEq, Repr

/-- Where assembly stops, relative to a named pass. -/
inductive StopRule where
  /-- The pass and all behind it are left out. -/
  | before
  /-- The pass is kept, and all behind it are left out. -/
  | after
deriving DecidableEq, Repr

/-- The name of a rule in documents and messages. -/
def StopRule.name : StopRule → String
  | .before => "STOP_BEFORE_PASS"
  | .after => "STOP_AFTER_PASS"

/-- Options of the compiler that hold for every kind of output. -/
structure GeneralOptions where
  /-- The experimental features that templates may use. -/
  experimentalFeatures : List String := []
  /-- Globals whose values are known. -/
  globals : NameMap Json.Value := .empty
  /-- Whether every template must be autoescaped strictly. -/
  strictAutoescaping : Toggle := .unset
  /-- Whether templates may call templates outside their dependencies. -/
  externalCalls : Toggle := .unset
  /-- Whether the optimizer may run; the configuration has to agree. -/
  optimizer : Bool := true
deriving DecidableEq

/-- A rule that templates have to conform to. -/
structure ConformanceRequirement where
  name : String
  /-- What is reported where the rule is broken. -/
  message : String := ""
  /-- The beginnings of the paths that are exempt. -/
  exempt : List String := []
deriving DecidableEq

/-- The rules that templates have to conform to. -/
structure ConformanceConfig where
  requirements : List ConformanceRequirement := []
deriving DecidableEq

def ConformanceConfig.isEmpty (c : ConformanceConfig) : Bool :=
  c.requirements.isEmpty

/-- An element that templates may log. -/
structure LoggableElement where
  name : String
  id : Int64
  /-- The type of the element's data. -/
  protoType : Option String := none
deriving DecidableEq

/-- The elements that templates may log. -/
structure LoggingConfig where
  elements : List LoggableElement := []
deriving DecidableEq

namespace LoggingConfig

/-- The first element of a name. -/
def element? (c : LoggingConfig) (name : String) : Option LoggableElement :=
  c.elements.find? (·.name = name)

def isEmpty (c : LoggingConfig) : Bool :=
  c.elements.isEmpty

end LoggingConfig

/-- What decides which passes run. -/
structure PassConfig where
  disableTypeChecking : Bool := false
  allowUnknownGlobals : Bool := false
  allowV1Expression : Bool := false
  desugarHtml : Bool := true
  optimize : Bool := true
  autoescaper : Bool := true
  debugAttributes : Bool := true
  options : GeneralOptions := {}
  conformance : ConformanceConfig := {}
  logging : LoggingConfig := {}
  /-- The rules that stop assembly, by the name of the pass. -/
  rules : NameMap StopRule := .empty
deriving DecidableEq

end TemplatePasses
