/-
# Building a pipeline

A pipeline is built by asking a factory for the pass of each role of the plan,
in order. The factory gets the same `PassSetup` every time. The name of each
pass must be the name of its role; the first that differs ends the building.

Key definitions: `PassSetup`, `Factory`, `Settings.build`.
-/
import TemplatePasses.Config.Shown
import TemplatePasses.Pass.Pipeline

namespace TemplatePasses

open Log (Event)

/-- What a factory may give to its passes. -/
structure PassSetup where
  typeNames : TypeNames
  plugins : Option PluginResolver
  directives : PrintDirectives
  reporter : Reporter
  options : GeneralOptions
  conformance : ConformanceConfig
  logging : LoggingConfig
  allowV1Expression : Bool
  checksTypes : Bool
deriving DecidableEq

/-- The setup as it is shown for inspection, without the resources. -/
def PassSetup.shown (s : PassSetup) : String :=
  Text.shownOpenRecord "PassSetup" [
    ("options", s.options.shown),
    ("allow_v1_expression", Text.shownBool s.allowV1Expression),
    ("type_checking_enabled", Text.shownBool s.checksTypes)]

/-- Makes the passes. -/
structure Factory where
  filePass : FileRole → PassSetup → FilePass
  fileSetPass : FileSetRole → PassSetup → FileSetPass

/-- What a factory is asked for. -/
inductive Request where
  | filePass (role : FileRole) (setup : PassSetup)
  | fileSetPass (role : FileSetRole) (setup : PassSetup)
deriving DecidableEq

namespace Request

/-- The name of the role that is asked for. -/
def roleName : Request → String
  | .filePass role _ => role.name
  | .fileSetPass role _ => role.name

def setup : Request → PassSetup
  | .filePass _ setup => setup
  | .fileSetPass _ setup => setup

end Request

/-- What building a pipeline leaves. -/
structure BuildRun where
  /-- What the factory was asked for, in order. -/
  requests : List Request
  result : Except PlanError Pipeline
  log : List Event

/-- Makes the passes of the roles in turn, up to the first with a wrong name. -/
def makeEach {ρ π : Type} (roleName : ρ → String) (make : ρ → π) (passName : π → String) :
    List ρ → List ρ × Except PlanError (List π)
  | [] => ([], .ok [])
  | role :: rest =>
    let pass := make role
    if passName pass = roleName role then
      let (asked, passes) := makeEach roleName make passName rest
      (role :: asked, (pass :: ·) <$> passes)
    else ([role], .error (.wrongName (roleName role) (passName pass)))

/-- The pipeline of a plan, and what the factory was asked for. -/
def Factory.makeAll (f : Factory) (setup : PassSetup) (p : Plan) :
    List Request × Except PlanError Pipeline :=
  let (files, filePasses) :=
    makeEach FileRole.name (f.filePass · setup) FilePass.name p.singleFile
  let askedFiles := files.map (Request.filePass · setup)
  match filePasses with
  | .error e => (askedFiles, .error e)
  | .ok filePasses =>
    let (sets, setPasses) :=
      makeEach FileSetRole.name (f.fileSetPass · setup) FileSetPass.name p.fileSet
    (askedFiles ++ sets.map (Request.fileSetPass · setup),
      (⟨filePasses, ·⟩) <$> setPasses)

namespace Settings

/-- What a factory gets, if nothing needed is missing. The parts are looked for
in this order. -/
def setup (s : Settings) : Except PlanError (GeneralOptions → PassSetup) :=
  match s.typeNames, s.directives, s.reporter with
  | none, _, _ => .error (.missing .typeNames)
  | some _, none, _ => .error (.missing .printDirectives)
  | some _, some _, none => .error (.missing .reporter)
  | some typeNames, some directives, some reporter => .ok fun options =>
    { typeNames, plugins := s.plugins, directives, reporter, options,
      conformance := s.conformance, logging := s.logging,
      allowV1Expression := s.allowV1Expression, checksTypes := s.checksTypes }

/-- Builds the pipeline with a factory. -/
def build (s : Settings) (f : Factory) : BuildRun :=
  match s.setup, s.options with
  | .error e, _ => { requests := [], result := .error e, log := [] }
  | .ok _, none => { requests := [], result := .error (.missing .generalOptions), log := [] }
  | .ok setup, some options =>
    match s.plan with
    | .error e => { requests := [], result := .error e, log := s.planLog }
    | .ok plan =>
      let (requests, result) := f.makeAll (setup options) plan
      { requests, result, log := s.planLog }

end Settings
end TemplatePasses
