/-
# Settings are what was set last

Settings have parts: the resources, the options, the switches, and for each name
the rule of the pass of that name. A step sets one part and leaves all others
alone, so after any number of steps each part is what the last step that sets it
says, or what it was if none does (`Settings.get_applyAll`); a switch that steps
only turn one way is no exception. Settings with equal parts are equal
(`Settings.ext_get`).

Key definitions: `Part`, `Settings.get`, `Setting.write`, `Settings.lastWritten`.
Key theorems: `Settings.get_applyAll`, `Settings.ext_get`.
-/
import TemplatePasses.Plan.Settings

namespace TemplatePasses

/-- The parts of the settings. -/
inductive Part where
  | typeNames
  | plugins
  | directives
  | reporter
  | options
  | allowUnknownGlobals
  | allowV1Expression
  | disableTypeChecking
  | desugarHtml
  | optimize
  | conformance
  | logging
  | autoescaper
  | debugAttributes
  /-- The rule of the pass of this name. -/
  | rule (pass : String)
deriving DecidableEq

/-- What a part can be. -/
@[reducible] def Part.Value : Part → Type
  | .typeNames => Option TypeNames
  | .plugins => Option PluginResolver
  | .directives => Option PrintDirectives
  | .reporter => Option Reporter
  | .options => Option GeneralOptions
  | .allowUnknownGlobals | .allowV1Expression | .disableTypeChecking | .desugarHtml | .optimize
  | .autoescaper | .debugAttributes => Bool
  | .conformance => ConformanceConfig
  | .logging => LoggingConfig
  | .rule _ => Option StopRule

def Settings.get (s : Settings) : (p : Part) → p.Value
  | .typeNames => s.typeNames
  | .plugins => s.plugins
  | .directives => s.directives
  | .reporter => s.reporter
  | .options => s.options
  | .allowUnknownGlobals => s.allowUnknownGlobals
  | .allowV1Expression => s.allowV1Expression
  | .disableTypeChecking => s.disableTypeChecking
  | .desugarHtml => s.desugarHtml
  | .optimize => s.optimize
  | .conformance => s.conformance
  | .logging => s.logging
  | .autoescaper => s.autoescaper
  | .debugAttributes => s.debugAttributes
  | .rule pass => s.rules.find? pass

/-- The part that a step sets, and to what. -/
def Setting.write : Setting → (p : Part) × p.Value
  | .typeNames t => ⟨.typeNames, some t⟩
  | .plugins p => ⟨.plugins, some p⟩
  | .directives d => ⟨.directives, some d⟩
  | .reporter r => ⟨.reporter, some r⟩
  | .options o => ⟨.options, some o⟩
  | .disableTypeChecking => ⟨.disableTypeChecking, true⟩
  | .allowUnknownGlobals => ⟨.allowUnknownGlobals, true⟩
  | .allowV1Expression => ⟨.allowV1Expression, true⟩
  | .desugarHtml on => ⟨.desugarHtml, on⟩
  | .optimize on => ⟨.optimize, on⟩
  | .debugAttributes on => ⟨.debugAttributes, on⟩
  | .conformance c => ⟨.conformance, c⟩
  | .logging l => ⟨.logging, l⟩
  | .autoescaper on => ⟨.autoescaper, on⟩
  | .rule pass how => ⟨.rule pass, some how⟩

/-- What a step sets a part to, if it sets this one. -/
def Setting.value? (step : Setting) (p : Part) : Option p.Value :=
  if h : step.write.1 = p then some (h ▸ step.write.2) else none

/-- What the last of the steps that set a part sets it to. -/
def lastSet (p : Part) (steps : List Setting) : Option p.Value :=
  steps.reverse.findSome? (·.value? p)

/-- The parts after some steps, by what was set last. -/
def Settings.lastWritten (s : Settings) (steps : List Setting) (p : Part) : p.Value :=
  (lastSet p steps).getD (s.get p)

theorem lastSet_cons (p : Part) (step : Setting) (rest : List Setting) :
    lastSet p (step :: rest) = (lastSet p rest).or (step.value? p) := by
  unfold lastSet
  rw [List.reverse_cons, List.findSome?_append, List.findSome?_singleton]

namespace Settings

theorem get_apply_write (s : Settings) (step : Setting) :
    (s.apply step).get step.write.1 = step.write.2 := by
  cases step with
  | rule pass rule =>
    show (s.rules.insert pass rule).find? pass = some rule
    rw [NameMap.find?_insert, if_pos rfl]
  | _ => rfl

theorem get_apply_other (s : Settings) {step : Setting} {p : Part} (h : step.write.1 ≠ p) :
    (s.apply step).get p = s.get p := by
  cases step with
  | rule pass rule =>
    cases p with
    | rule name =>
      have hne : name ≠ pass := fun he => h (he ▸ rfl)
      show (s.rules.insert pass rule).find? name = s.rules.find? name
      rw [NameMap.find?_insert, if_neg hne]
    | _ => rfl
  | _ =>
    -- a field is the part of one step only
    cases p <;> first | rfl | exact absurd rfl h

/-- A step sets its own part and no other. -/
theorem get_apply (s : Settings) (step : Setting) (p : Part) :
    (s.apply step).get p = (step.value? p).getD (s.get p) := by
  unfold Setting.value?
  by_cases h : step.write.1 = p
  · subst h
    rw [dif_pos rfl]
    exact get_apply_write s step
  · rw [dif_neg h]
    exact get_apply_other s h

/-- **The last write wins.** After some steps a part is what the last step that
sets it says, or what it was. -/
theorem get_applyAll (p : Part) : ∀ (steps : List Setting) (s : Settings),
    (s.applyAll steps).get p = s.lastWritten steps p
  | [], _ => rfl
  | step :: rest, s => by
    have ih := get_applyAll p rest (s.apply step)
    show ((s.apply step).applyAll rest).get p = _
    rw [ih, lastWritten, lastWritten, lastSet_cons, get_apply]
    cases lastSet p rest <;> rfl

/-- Settings are what their parts are. -/
theorem ext_get {s t : Settings} (h : ∀ p, s.get p = t.get p) : s = t := by
  have hrules : s.rules = t.rules := NameMap.ext_find? fun n => h (.rule n)
  obtain ⟨⟩ := s
  obtain ⟨⟩ := t
  simp only [mk.injEq]
  exact ⟨h .typeNames, h .plugins, h .directives, h .reporter, h .options,
    h .allowUnknownGlobals, h .allowV1Expression, h .disableTypeChecking, h .desugarHtml,
    h .optimize, h .conformance, h .logging, h .autoescaper, h .debugAttributes, hrules⟩

end Settings
end TemplatePasses
