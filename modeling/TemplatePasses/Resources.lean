/-
# What passes are given to work with

The types that templates may declare, the plugin functions that are defined,
the print directives, and the reporter to which passes report problems. The
plan does not look inside them; they are handed to whoever makes the passes.

Key definitions: `TypeNames`, `PluginResolver`, `PrintDirective`, `Reporter`.
-/
import TemplatePasses.NameMap

namespace TemplatePasses

/-- A set of names. -/
abbrev NameSet := NameMap Unit

/-- The names of the types that templates may declare. -/
structure TypeNames where
  names : NameSet := .empty
deriving DecidableEq

namespace TypeNames

def register (t : TypeNames) (name : String) : TypeNames :=
  ⟨t.names.insert name ()⟩

def contains (t : TypeNames) (name : String) : Bool :=
  t.names.contains name

/-- The types that are always there. -/
def builtin : TypeNames :=
  ["any", "?", "null", "bool", "int", "float", "string", "html", "uri", "css", "js",
    "attributes"].foldl register {}

end TypeNames

/-- What becomes of plugin functions without a definition. -/
inductive PluginMode where
  | requireDefinitions
  | allowUndefined
deriving DecidableEq, Repr

/-- Tells which plugin functions there are. -/
structure PluginResolver where
  mode : PluginMode := .requireDefinitions
  functions : NameSet := .empty
deriving DecidableEq

namespace PluginResolver

def register (p : PluginResolver) (name : String) : PluginResolver :=
  { p with functions := p.functions.insert name () }

def resolves (p : PluginResolver) (name : String) : Bool :=
  p.functions.contains name || p.mode = .allowUndefined

end PluginResolver

/-- A directive of print commands. -/
structure PrintDirective where
  name : String
  /-- The numbers of arguments that it takes. -/
  argCounts : List Nat := [0]
  /-- Whether it escapes, so that the autoescaper does not. -/
  cancelsAutoescape : Bool := false
deriving DecidableEq, Repr

/-- Print directives by their name. -/
abbrev PrintDirectives := NameMap PrintDirective

/-- A problem that a pass has found. -/
structure Diagnostic where
  pass : String
  file : String
  message : String
deriving DecidableEq, Repr

/-- Keeps the problems that passes report, the first one first. -/
structure Reporter where
  diagnostics : List Diagnostic := []
deriving DecidableEq, Repr

namespace Reporter

def report (r : Reporter) (d : Diagnostic) : Reporter :=
  ⟨r.diagnostics ++ [d]⟩

def count (r : Reporter) : Nat :=
  r.diagnostics.length

end Reporter
end TemplatePasses
