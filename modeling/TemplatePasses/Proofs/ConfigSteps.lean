/-
# A configuration is the steps that it changes

A configuration describes settings directly, and it can be carried over to them
step by step. Both give the same settings, and most of the steps are not needed:
where a configuration is as the default one, the settings are so from the start.
So what is left are the options and the steps of the fields that differ, one for
each rule, and as no two of them write to the same part with different values
they may come in any order.

Key definitions: `PassConfig.steps`, `PassConfig.changes`.
Key theorems: `Settings.ofConfig_eq_applyAll_steps`,
`Settings.ofConfig_eq_applyAll_changes`, `Settings.config_is_its_changes`.
-/
import TemplatePasses.Proofs.WriteAlike

namespace TemplatePasses

open Settings (onlyIf mem_onlyIf_iff)

namespace PassConfig

/-- The rules of a configuration as steps. -/
def ruleSteps (c : PassConfig) : List Setting :=
  c.rules.entries.map fun e => .rule e.1 e.2

/-- The steps that carry every field over. A switch that can only be turned one way
is turned if the field says so. -/
def steps (c : PassConfig) : List Setting :=
  List.flatten [
    [.options c.options, .desugarHtml c.desugarHtml, .optimize c.optimize,
      .autoescaper c.autoescaper, .debugAttributes c.debugAttributes,
      .conformance c.conformance, .logging c.logging],
    onlyIf c.disableTypeChecking [.disableTypeChecking],
    onlyIf c.allowUnknownGlobals [.allowUnknownGlobals],
    onlyIf c.allowV1Expression [.allowV1Expression],
    c.ruleSteps]

/-- The steps of the fields, the options apart, that are not as in the default
configuration. -/
def changes (c : PassConfig) : List Setting :=
  let default : PassConfig := {}
  List.flatten [
    onlyIf (c.disableTypeChecking ≠ default.disableTypeChecking) [.disableTypeChecking],
    onlyIf (c.allowUnknownGlobals ≠ default.allowUnknownGlobals) [.allowUnknownGlobals],
    onlyIf (c.allowV1Expression ≠ default.allowV1Expression) [.allowV1Expression],
    onlyIf (c.desugarHtml ≠ default.desugarHtml) [.desugarHtml c.desugarHtml],
    onlyIf (c.optimize ≠ default.optimize) [.optimize c.optimize],
    onlyIf (c.autoescaper ≠ default.autoescaper) [.autoescaper c.autoescaper],
    onlyIf (c.debugAttributes ≠ default.debugAttributes) [.debugAttributes c.debugAttributes],
    onlyIf (c.conformance ≠ default.conformance) [.conformance c.conformance],
    onlyIf (c.logging ≠ default.logging) [.logging c.logging],
    c.ruleSteps]

theorem mem_ruleSteps_iff {c : PassConfig} {step : Setting} :
    step ∈ c.ruleSteps ↔ ∃ name rule, c.rules.find? name = some rule ∧ step = .rule name rule := by
  simp only [ruleSteps, List.mem_map, NameMap.find?_eq_some_iff, Prod.exists]
  simp only [eq_comm]

theorem mem_steps_of_mem_changes {c : PassConfig} {step : Setting} (h : step ∈ c.changes) :
    step ∈ c.steps := by
  cases step <;> simp_all [changes, steps, mem_onlyIf_iff, mem_ruleSteps_iff]

/-- A step that is no change writes what is there from the start. -/
theorem write_eq_of_not_mem_changes {c : PassConfig} {step : Setting} (h : step ∈ c.steps)
    (hnot : step ∉ .options c.options :: c.changes) :
    step.write.2 = ({} : Settings).get step.write.1 := by
  cases step <;>
    simp_all [changes, steps, mem_onlyIf_iff, mem_ruleSteps_iff, Setting.write, Settings.get]

theorem write_eq_of_mem_steps {c : PassConfig} {step : Setting} (h : step ∈ c.steps) :
    step.write.2 = (Settings.ofConfig c).get step.write.1 := by
  cases step <;>
    simp_all [steps, mem_onlyIf_iff, mem_ruleSteps_iff, Setting.write, Settings.get,
      Settings.ofConfig]

/-- What no step writes is described as it is from the start. -/
theorem get_eq_of_unwritten {c : PassConfig} {p : Part}
    (h : ∀ step ∈ c.steps, step.write.1 ≠ p) :
    ({} : Settings).get p = (Settings.ofConfig c).get p := by
  -- the parts with a value are written in any case
  have value : ∀ step ∈ c.steps.take 7, step.write.1 ≠ p :=
    fun step hstep => h step (List.mem_of_mem_take hstep)
  simp only [steps, List.flatten_cons, List.cons_append, List.take_succ_cons, List.mem_cons,
    forall_eq_or_imp, Setting.write] at value
  obtain ⟨hoptions, hdesugar, hoptimize, hescape, hdebug, hconformance, hlogging, -⟩ := value
  cases p with
  | typeNames | plugins | directives | reporter => rfl
  | options => exact absurd rfl hoptions
  | desugarHtml => exact absurd rfl hdesugar
  | optimize => exact absurd rfl hoptimize
  | autoescaper => exact absurd rfl hescape
  | debugAttributes => exact absurd rfl hdebug
  | conformance => exact absurd rfl hconformance
  | logging => exact absurd rfl hlogging
  | disableTypeChecking =>
    cases hon : c.disableTypeChecking with
    | false => exact hon.symm
    | true => exact absurd rfl (h .disableTypeChecking (by simp [steps, mem_onlyIf_iff, hon]))
  | allowUnknownGlobals =>
    cases hon : c.allowUnknownGlobals with
    | false => exact hon.symm
    | true => exact absurd rfl (h .allowUnknownGlobals (by simp [steps, mem_onlyIf_iff, hon]))
  | allowV1Expression =>
    cases hon : c.allowV1Expression with
    | false => exact hon.symm
    | true => exact absurd rfl (h .allowV1Expression (by simp [steps, mem_onlyIf_iff, hon]))
  | rule name =>
    cases hrule : c.rules.find? name with
    | none => exact hrule.symm
    | some rule =>
      have hmem : .rule name rule ∈ c.steps := by
        simp [steps, mem_onlyIf_iff, mem_ruleSteps_iff, hrule]
      exact absurd rfl (h _ hmem)

end PassConfig

namespace Settings

variable (c : PassConfig)

/-- The settings of a configuration are made by its steps. -/
theorem ofConfig_eq_applyAll_steps : ofConfig c = ({} : Settings).applyAll c.steps :=
  (applyAll_eq (fun _ => PassConfig.write_eq_of_mem_steps)
    (fun _ => PassConfig.get_eq_of_unwritten)).symm

/-- **The settings of a configuration are made by its options and its changes**, in
any order of the changes. -/
theorem ofConfig_eq_applyAll_changes {order : List Setting} (horder : order.Perm c.changes) :
    ofConfig c = ({} : Settings).applyAll (.options c.options :: order) := by
  have hmem : ∀ step, step ∈ .options c.options :: order ↔ step ∈ .options c.options :: c.changes :=
    fun step => (horder.cons _).mem_iff
  refine (applyAll_eq (fun step hstep => ?_) (fun p hp => ?_)).symm
  · apply PassConfig.write_eq_of_mem_steps
    rcases List.mem_cons.1 ((hmem step).1 hstep) with rfl | hchange
    · exact List.mem_append_left _ (List.mem_cons_self ..)
    · exact PassConfig.mem_steps_of_mem_changes hchange
  · by_cases hwritten : ∃ step ∈ c.steps, step.write.1 = p
    · -- the step writes what is described, and as it is no change that is there already
      obtain ⟨step, hstep, rfl⟩ := hwritten
      have hnot : step ∉ .options c.options :: c.changes :=
        fun hchange => hp step ((hmem step).2 hchange) rfl
      rw [← PassConfig.write_eq_of_not_mem_changes hstep hnot,
        PassConfig.write_eq_of_mem_steps hstep]
    · exact PassConfig.get_eq_of_unwritten fun step hstep hp => hwritten ⟨step, hstep, hp⟩

/-- **A configuration is what it changes.** Take the settings that a configuration
describes, which are those that all its steps make, and those that only its
options and its changes make, the changes in any order. Whatever further steps
follow, both lead to the same plan or the same error, and to the same pipeline or
error with the same requests, each with the same setup. -/
theorem config_is_its_changes {order : List Setting} (horder : order.Perm c.changes)
    (more : List Setting) :
    let described := (ofConfig c).applyAll more
    let changed := ({} : Settings).applyAll (.options c.options :: order ++ more)
    ofConfig c = ({} : Settings).applyAll c.steps ∧
    described.plan = changed.plan ∧ ∀ f : Factory, described.build f = changed.build f := by
  intro described changed
  have hsame : described = changed := by
    simp only [described, changed, ofConfig_eq_applyAll_changes c horder, applyAll,
      List.foldl_append]
  rw [hsame]
  exact ⟨ofConfig_eq_applyAll_steps c, rfl, fun _ => rfl⟩

end Settings

/-- A configuration with two rules and two switches that are not as usual. -/
def PassConfig.unusual : PassConfig where
  allowUnknownGlobals := true
  desugarHtml := false
  rules := (NameMap.empty.insert "Xid" .before).insert "Autoescaper" .after

/-- Its four changes in another order, and a step that takes one of them back. -/
theorem config_is_its_changes_unusual :
    let order : List Setting :=
      [.rule "Xid" .before, .desugarHtml false, .rule "Autoescaper" .after, .allowUnknownGlobals]
    let changed := ({} : Settings).applyAll (.options {} :: order ++ [.desugarHtml true])
    order.Perm PassConfig.unusual.changes ∧
    ((Settings.ofConfig .unusual).applyAll [.desugarHtml true]).plan = changed.plan ∧
    changed.plan = .ok ⟨FileRole.all.take 13, []⟩ := by
  intro order changed
  have horder : order.Perm PassConfig.unusual.changes := by decide
  obtain ⟨-, hplan, -⟩ := Settings.config_is_its_changes .unusual horder [.desugarHtml true]
  exact ⟨horder, hplan, by decide +kernel⟩

end TemplatePasses
