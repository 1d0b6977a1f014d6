/-
# Settings and the plan they give

`Settings` are all that decides what is run and with what: the resources for
the passes, the options, the switches and the rules. They start at their
defaults and change by single steps (`Setting`), or start from a configuration.
The plan offers every candidate to assembly, the roles over one file first.

Key definitions: `Settings`, `Settings.apply`, `Settings.ofConfig`,
`Settings.fileCandidates`, `Settings.fileSetCandidates`, `Settings.assemble`.
-/
import TemplatePasses.Plan.Assembly
import TemplatePasses.Resources

namespace TemplatePasses

open Log (Event LogPhase)

/-- All that decides what is run and with what. -/
structure Settings where
  typeNames : Option TypeNames := none
  plugins : Option PluginResolver := none
  directives : Option PrintDirectives := none
  reporter : Option Reporter := none
  options : Option GeneralOptions := none
  allowUnknownGlobals : Bool := false
  allowV1Expression : Bool := false
  disableTypeChecking : Bool := false
  desugarHtml : Bool := true
  optimize : Bool := true
  conformance : ConformanceConfig := {}
  logging : LoggingConfig := {}
  autoescaper : Bool := true
  debugAttributes : Bool := true
  rules : StopRules := .empty
deriving DecidableEq

/-- A single step that changes the settings. -/
inductive Setting where
  | typeNames (t : TypeNames)
  | plugins (p : PluginResolver)
  | directives (d : PrintDirectives)
  | reporter (r : Reporter)
  | options (o : GeneralOptions)
  | disableTypeChecking
  | allowUnknownGlobals
  | allowV1Expression
  | desugarHtml (on : Bool)
  | optimize (on : Bool)
  | debugAttributes (on : Bool)
  | conformance (c : ConformanceConfig)
  | logging (l : LoggingConfig)
  | autoescaper (on : Bool)
  | rule (pass : String) (rule : StopRule)
deriving DecidableEq

namespace Settings

/-- The settings after a step. Three switches can only be turned one way, and a
rule replaces only an earlier rule for the same pass. -/
def apply (s : Settings) : Setting → Settings
  | .typeNames t => { s with typeNames := some t }
  | .plugins p => { s with plugins := some p }
  | .directives d => { s with directives := some d }
  | .reporter r => { s with reporter := some r }
  | .options o => { s with options := some o }
  | .disableTypeChecking => { s with disableTypeChecking := true }
  | .allowUnknownGlobals => { s with allowUnknownGlobals := true }
  | .allowV1Expression => { s with allowV1Expression := true }
  | .desugarHtml on => { s with desugarHtml := on }
  | .optimize on => { s with optimize := on }
  | .debugAttributes on => { s with debugAttributes := on }
  | .conformance c => { s with conformance := c }
  | .logging l => { s with logging := l }
  | .autoescaper on => { s with autoescaper := on }
  | .rule pass rule => { s with rules := s.rules.insert pass rule }

def applyAll (s : Settings) (steps : List Setting) : Settings :=
  steps.foldl apply s

/-- The settings that a configuration describes; resources are not a part of it. -/
def ofConfig (c : PassConfig) : Settings where
  options := some c.options
  allowUnknownGlobals := c.allowUnknownGlobals
  allowV1Expression := c.allowV1Expression
  disableTypeChecking := c.disableTypeChecking
  desugarHtml := c.desugarHtml
  optimize := c.optimize
  conformance := c.conformance
  logging := c.logging
  autoescaper := c.autoescaper
  debugAttributes := c.debugAttributes
  rules := c.rules

def checksTypes (s : Settings) : Bool :=
  !s.disableTypeChecking

/-! ### Candidates

The candidates come in one fixed order. Several passes need an earlier one:
names are resolved before types, placeholders are put in before anything looks
at them, and globals are replaced before unknown ones are reported. -/

/-- The roles, if they are wanted. -/
def onlyIf {ρ : Type} (wanted : Bool) (roles : List ρ) : List ρ :=
  if wanted then roles else []

theorem mem_onlyIf_iff {ρ : Type} {wanted : Bool} {r : ρ} {roles : List ρ} :
    r ∈ onlyIf wanted roles ↔ wanted = true ∧ r ∈ roles := by
  cases wanted <;> simp [onlyIf]

/-- The candidates over one file, in order. -/
def fileCandidates (s : Settings) (o : GeneralOptions) : List FileRole :=
  [.enforceExperimentalFeatures, .resolveHeaderParamTypes, .basicHtmlValidation, .resolvePlugins,
    .soyConformance, .contentSecurityPolicyNonceInjection, .insertMsgPlaceholderNodes,
    .rewriteRemainders, .rewriteGenderMsgs, .calculateMsgSubstitutionInfo, .checkNonEmptyMsgNodes,
    .veRewrite, .rewriteGlobals, .xid, .v1Expression, .resolveNames, .msgWithIdFunction,
    .checkEscapingSanityFile, .strictHtmlValidation] ++
  onlyIf s.debugAttributes [.addDebugAttributes] ++
  onlyIf s.checksTypes
    [.checkDeclaredTypes, .resolveExpressionTypes, .veLogRewrite, .veLogValidation] ++
  [.resolvePackageRelativeCssNames] ++
  onlyIf (!s.allowUnknownGlobals) [.checkGlobals] ++
  [.validateAliases] ++
  onlyIf (o.strictAutoescaping = .enabled) [.assertStrictAutoescaping] ++
  [.keyCommand, .soyElement]

/-- The candidates over the whole set, in order: the checks across templates,
autoescaping, and simplification. Raw texts are combined last, for the two
changes before can leave neighbouring ones. -/
def fileSetCandidates (s : Settings) (o : GeneralOptions) : List FileSetRole :=
  [.checkTemplateHeaderVars] ++
  onlyIf s.checksTypes [.checkTemplateCalls] ++
  [.checkTemplateVisibility, .checkDelegates] ++
  onlyIf (o.externalCalls = .disabled) [.strictDeps] ++
  onlyIf s.autoescaper (.autoescaper :: onlyIf s.checksTypes [.checkBadContextualUsage]) ++
  onlyIf s.desugarHtml [.desugarHtmlNodes] ++
  onlyIf (s.optimize && o.optimizer) [.optimization] ++
  [.combineConsecutiveRawTextNodes]

/-! ### The plan -/

/-- The event of a finished plan. -/
def assembledEvent (p : Plan) : Event :=
  { level := .debug, target := LogPhase.assembly.target, message := "pipeline assembled",
    fields := [("single_file", .count p.singleFile.length), ("fileset", .count p.fileSet.length)] }

/-- The plan or the reason why there is none, and the events on the way. -/
def assemble (s : Settings) : Except PlanError Plan × List Event :=
  match s.options with
  | none => (.error (.missing .generalOptions), [])
  | some o =>
    let (fileVerdicts, behindFiles) := Assembly.offerAll { rules := s.rules } (s.fileCandidates o)
    let (setVerdicts, behindAll) := behindFiles.offerAll (s.fileSetCandidates o)
    let plan : Plan := ⟨Assembly.admitted fileVerdicts, Assembly.admitted setVerdicts⟩
    let events := Assembly.events fileVerdicts ++ Assembly.events setVerdicts
    match behindAll.finish with
    | .ok () => (.ok plan, events ++ [assembledEvent plan])
    | .error e => (.error e, events)

/-- The plan or the reason why there is none. -/
def plan (s : Settings) : Except PlanError Plan :=
  s.assemble.1

def planLog (s : Settings) : List Event :=
  s.assemble.2

end Settings
end TemplatePasses
