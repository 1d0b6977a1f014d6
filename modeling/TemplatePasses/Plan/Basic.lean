/-
# Plans

A plan says which passes run: the roles of the passes over single files and of
those over the whole set, each list in the order of the run. There may be no
plan, and `PlanError` says why.

Key definitions: `Plan`, `PlanError`.
-/
import TemplatePasses.Role
import TemplatePasses.StopRules

namespace TemplatePasses

/-- The passes to run, in order. -/
structure Plan where
  singleFile : List FileRole
  fileSet : List FileSetRole
deriving DecidableEq, Repr

namespace Plan

def singleFileNames (p : Plan) : List String :=
  p.singleFile.map (·.name)

def fileSetNames (p : Plan) : List String :=
  p.fileSet.map (·.name)

def isEmpty (p : Plan) : Bool :=
  p.singleFile.isEmpty && p.fileSet.isEmpty

end Plan

/-- What a pipeline cannot be built without. -/
inductive NeededPart where
  | typeNames
  | printDirectives
  | reporter
  | generalOptions
deriving DecidableEq, Repr

def NeededPart.name : NeededPart → String
  | .typeNames => "type registry"
  | .printDirectives => "print directives"
  | .reporter => "error reporter"
  | .generalOptions => "general options"

/-- Why there is no plan or no pipeline. -/
inductive PlanError where
  | missing (part : NeededPart)
  /-- These rules met no pass. -/
  | unmatchedRules (rules : StopRules)
  /-- The pass made for a role goes by another name. -/
  | wrongName (expected actual : String)
deriving DecidableEq

def PlanError.message : PlanError → String
  | .missing part => "missing required builder field: " ++ part.name
  | .unmatchedRules rules =>
    "the following continuation rules don't match any pass: " ++ rules.describe
  | .wrongName expected actual =>
    "pass factory returned '" ++ actual ++ "' for pass '" ++ expected ++ "'"

end TemplatePasses
