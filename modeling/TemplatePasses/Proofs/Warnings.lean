/-
# Warnings and plans

Before it plans, the command warns of every rule whose name belongs to no pass; planning
then refuses the rules whose name belongs to no candidate. The first looks names up in
the catalog and the second takes rules away from candidate to candidate, but they agree:
the candidates are roles of the catalog, so what was warned of is among the refused
rules, and whatever else is refused names a role that the settings do not enable
(`Settings.mem_unmet_iff`). All other events of planning are less than warnings
(`Settings.quiet_planLog`).

Key theorems: `mem_unknownNames_iff`, `Settings.mem_unmet_iff`, `planWith_eq`,
`refused_of_unknown`, `left_out_of_refused`, `warnings_agree_with_plan`.
-/
import TemplatePasses.Proofs.PlanLog
import TemplatePasses.Proofs.Stages

namespace TemplatePasses

open Log (Event)
open Json (Locator)

namespace Settings

/-- A rule that planning refuses names no role, or one that is not enabled. -/
theorem mem_unmet_iff (s : Settings) (o : GeneralOptions) (name : String) :
    name ∈ (s.rules.unmet (s.candidates o)).names ↔
      name ∈ s.rules.names ∧
        (isKnownPass name = false ∨ ∃ r : Role, r.name = name ∧ s.enables o r = false) := by
  rw [StopRules.names_unmet, List.mem_filter, decide_eq_true_eq]
  refine and_congr_right fun _ => ?_
  have hcandidate : name ∈ (s.candidates o).map Named.name ↔
      ∃ r : Role, r.name = name ∧ s.enables o r = true := by
    rw [List.mem_map]
    exact exists_congr fun r => by
      rw [candidates, List.mem_filter, and_iff_right r.mem_all]
      exact and_comm
  rw [hcandidate]
  constructor
  · intro hnone
    by_cases hknown : isKnownPass name = true
    · obtain ⟨r, hr⟩ := Role.isKnownPass_iff.1 hknown
      exact .inr ⟨r, hr, Bool.eq_false_iff.2 fun henabled => hnone ⟨r, hr, henabled⟩⟩
    · exact .inl (Bool.eq_false_iff.2 hknown)
  · rintro (hunknown | ⟨r, hr, hdisabled⟩) ⟨q, hq, henabled⟩
    · exact Bool.eq_false_iff.1 hunknown (Role.isKnownPass_iff.2 ⟨q, hq⟩)
    · -- a name belongs to one role
      obtain rfl := Role.name_injective (hr.trans hq.symm)
      rw [hdisabled] at henabled
      cases henabled

theorem quiet_planLog (s : Settings) : ∀ e ∈ s.planLog, e.level ≠ .warn := by
  intro e he
  cases ho : s.options with
  | none =>
    rw [planLog, assemble] at he
    simp [ho] at he
  | some o =>
    rw [planLog_of_options ho, List.mem_append] at he
    rcases he with he | he
    · obtain ⟨⟨c, verdict⟩, -, rfl⟩ := List.mem_map.1 he
      cases verdict <;> (intro h; cases h)
    · cases hplan : s.plan with
      | error _ => simp [hplan, summary] at he
      | ok p =>
        rw [hplan] at he
        obtain rfl := List.mem_singleton.1 he
        intro h
        cases h

end Settings

namespace Cli

/-! ### What is warned of -/

/-- The names warned of are those of the rules that name no role of the catalog. -/
theorem mem_unknownNames_iff (c : PassConfig) (name : String) :
    name ∈ unknownNames c ↔ name ∈ c.rules.names ∧
      (∀ r ∈ FileRole.all, r.name ≠ name) ∧ ∀ r ∈ FileSetRole.all, r.name ≠ name := by
  rw [unknownNames, List.mem_filter, Bool.not_eq_true', Bool.eq_false_iff, ne_eq,
    Role.isKnownPass_iff, not_exists]
  refine and_congr_right fun _ => ⟨fun h => ⟨fun r _ => h (.file r), fun r _ => h (.fileSet r)⟩, ?_⟩
  rintro ⟨hfile, hset⟩ (r | r)
  · exact hfile r r.mem_all
  · exact hset r r.mem_all

theorem unknownNames_ascending (c : PassConfig) : (unknownNames c).Pairwise (· < ·) :=
  c.rules.names_ascending.filter _

/-- The warning of a plan without passes, if there is one. -/
def emptyPlanWarning : Except PlanError Plan → List Event
  | .ok p => if p.isEmpty then [emptyPlanEvent] else []
  | .error _ => []

/-- The event that a plan is about to be shown, if there is one. -/
def readyNotice : Except PlanError Plan → List Event
  | .ok p => [readyEvent p]
  | .error _ => []

/-- What is logged while a configuration is planned, and how that ends. -/
theorem planWith_eq (fileConfig : PassConfig) (flags : List RuleFlag) :
    planWith fileConfig flags =
      let c := withFlags fileConfig flags
      let s := Settings.ofConfig c
      { events := flagsEvent flags :: (unknownNames c).map unknownNameEvent ++ s.planLog ++
          emptyPlanWarning s.plan ++ readyNotice s.plan
        result := s.plan.mapError .noPlan } := by
  unfold planWith Settings.planLog Settings.plan
  simp only
  cases (Settings.ofConfig (withFlags fileConfig flags)).assemble with
  | mk plan log =>
    cases plan with
    | error e =>
      simp only [emptyPlanWarning, readyNotice, List.append_nil]
      rfl
    | ok p =>
      simp only [emptyPlanWarning, readyNotice]
      rfl

/-- The warnings among the events are those of unknown names, in their order, and at
the end that of an empty plan. -/
theorem warnings_planWith (fileConfig : PassConfig) (flags : List RuleFlag) :
    (planWith fileConfig flags).events.filter (·.level = .warn) =
      (unknownNames (withFlags fileConfig flags)).map unknownNameEvent ++
        emptyPlanWarning (Settings.ofConfig (withFlags fileConfig flags)).plan := by
  have hunknown : ∀ names : List String,
      (names.map unknownNameEvent).filter (·.level = .warn) = names.map unknownNameEvent := by
    intro names
    refine List.filter_eq_self.2 fun e he => ?_
    obtain ⟨name, -, rfl⟩ := List.mem_map.1 he
    rfl
  have hquiet : ∀ s : Settings, s.planLog.filter (·.level = .warn) = [] := fun s =>
    List.filter_eq_nil_iff.2 fun e he => by simpa using s.quiet_planLog e he
  have hempty : ∀ plan,
      (emptyPlanWarning plan).filter (·.level = .warn) = emptyPlanWarning plan := by
    rintro (_ | p)
    · rfl
    · simp only [emptyPlanWarning]
      cases p.isEmpty <;> rfl
  have hready : ∀ plan, (readyNotice plan).filter (·.level = .warn) = [] := by
    rintro (_ | p) <;> rfl
  have hflags : (flagsEvent flags).level = .debug := rfl
  rw [planWith_eq]
  simp only [List.filter_append, List.filter_cons, hflags, hunknown, hquiet, hempty, hready,
    List.append_nil, reduceCtorEq, decide_false, Bool.false_eq_true, if_false]

/-- With the configuration in hand a run plans with the rules of the command line. -/
theorem attempt_of_reads {a : Arguments} {content : String → Content} {locate : Locator}
    {c : PassConfig} (h : a.Reads content c) :
    attempt a content locate = planWith c a.ruleFlags := by
  rw [attempt, Arguments.readConfig_of_reads h]

theorem exists_plan_of_code {a : Arguments} {content : String → Content} {locate : Locator}
    (h : (a.run content locate).code = 0) : ∃ p, (attempt a content locate).result = .ok p := by
  cases hresult : (attempt a content locate).result with
  | ok p => exact ⟨p, rfl⟩
  | error e =>
    exfalso
    unfold Arguments.run at h
    cases hlevels : logConfig a with
    | error e => simp [hlevels, failure] at h
    | ok levels => simp [hlevels, hresult, failure] at h

/-- A rule whose name was warned of is refused by planning. -/
theorem mem_unmet_of_unknown {c : PassConfig} {name : String} (h : name ∈ unknownNames c) :
    name ∈ ((Settings.ofConfig c).rules.unmet
      ((Settings.ofConfig c).candidates c.options)).names := by
  obtain ⟨hrule, hunknown⟩ := List.mem_filter.1 h
  exact ((Settings.ofConfig c).mem_unmet_iff c.options name).2
    ⟨hrule, .inl (by simpa using hunknown)⟩

/-- After a warning there is no plan. -/
theorem refused_of_unknown {c : PassConfig} (h : unknownNames c ≠ []) :
    ∃ refused, (Settings.ofConfig c).plan = .error (.unmatchedRules refused) ∧
      ∀ name ∈ unknownNames c, name ∈ refused.names := by
  have hplan := Settings.plan_of_options (s := Settings.ofConfig c) (o := c.options) rfl
  obtain ⟨name, hname⟩ := List.exists_mem_of_ne_nil _ h
  have hunmet : ¬((Settings.ofConfig c).rules.unmet
      ((Settings.ofConfig c).candidates c.options)).isEmpty = true := by
    rw [NameMap.isEmpty_iff]
    exact List.ne_nil_of_mem (mem_unmet_of_unknown hname)
  rw [if_neg hunmet] at hplan
  exact ⟨_, hplan, fun name hname => mem_unmet_of_unknown hname⟩

/-- What planning refuses without a warning is a role that is left out. -/
theorem left_out_of_refused {c : PassConfig} {refused : StopRules}
    (h : (Settings.ofConfig c).plan = .error (.unmatchedRules refused)) {name : String}
    (hname : name ∈ refused.names) (hquiet : name ∉ unknownNames c) :
    ∃ r ∈ Role.all, r.name = name ∧ (Settings.ofConfig c).enables c.options r = false := by
  have hunmet : refused =
      (Settings.ofConfig c).rules.unmet ((Settings.ofConfig c).candidates c.options) :=
    PlanError.unmatchedRules.inj (Settings.error_of_options rfl h)
  rw [hunmet] at hname
  obtain ⟨hrule, hunknown | ⟨r, hr, hdisabled⟩⟩ :=
    ((Settings.ofConfig c).mem_unmet_iff c.options name).1 hname
  · exact absurd (List.mem_filter.2 ⟨hrule, by simp [hunknown]⟩) hquiet
  · exact ⟨r, r.mem_all, hr, hdisabled⟩

theorem unknownNames_of_plan {c : PassConfig} {p : Plan}
    (h : (Settings.ofConfig c).plan = .ok p) : unknownNames c = [] := by
  refine Decidable.byContradiction fun hne => ?_
  obtain ⟨refused, herror, -⟩ := refused_of_unknown hne
  rw [h] at herror
  cases herror

/-- **The warnings agree with the plan.** Take any configuration and any rules of the
command line, and the configuration with these rules. There is one warning for each of
its rules whose name belongs to no role of the catalog, by ascending name and with this
name, and of warnings else only that of an empty plan. If a name was warned of, planning refuses the
rules, and the names it refuses hold all that were warned of; each other name it refuses
belongs to a role of the catalog that the configuration leaves out. So behind a plan no
name was warned of. A run that reads the configuration does just this, and ends with
status 0 only if it has warned of no name. -/
theorem warnings_agree_with_plan (fileConfig : PassConfig) (flags : List RuleFlag) :
    let c := withFlags fileConfig flags
    let s := Settings.ofConfig c
    let warned := unknownNames c
    (∀ name, name ∈ warned ↔ name ∈ c.rules.names ∧
      (∀ r ∈ FileRole.all, r.name ≠ name) ∧ ∀ r ∈ FileSetRole.all, r.name ≠ name) ∧
    warned.Pairwise (· < ·) ∧
    (planWith fileConfig flags).events.filter (·.level = .warn) =
      warned.map (fun name => Event.mk .warn "stencil::cli"
        "continuation rule names no known pass" [("pass", .plain name)]) ++
      (match s.plan with
      | .ok p =>
        if p.isEmpty then
          [Event.mk .warn "stencil::cli" "continuation rules leave no pass to run" []]
        else []
      | .error _ => []) ∧
    (warned ≠ [] → ∃ refused, s.plan = .error (.unmatchedRules refused) ∧
      ∀ name ∈ warned, name ∈ refused.names) ∧
    (∀ refused, s.plan = .error (.unmatchedRules refused) →
      ∀ name ∈ refused.names, name ∉ warned →
        ∃ r ∈ Role.all, r.name = name ∧ s.enables c.options r = false) ∧
    (∀ p, s.plan = .ok p → warned = []) ∧
    ∀ (a : Arguments) (content : String → Content) (locate : Locator),
      a.Reads content fileConfig → a.ruleFlags = flags →
      attempt a content locate = planWith fileConfig flags ∧
        ((a.run content locate).code = 0 → warned = []) := by
  intro c s warned
  refine ⟨mem_unknownNames_iff c, unknownNames_ascending c, warnings_planWith fileConfig flags,
    refused_of_unknown, fun _ herror _ hname hquiet => left_out_of_refused herror hname hquiet,
    fun p hp => unknownNames_of_plan hp, fun a content locate hreads hflags => ?_⟩
  have hattempt : attempt a content locate = planWith fileConfig flags :=
    hflags ▸ attempt_of_reads hreads
  refine ⟨hattempt, fun hcode => ?_⟩
  obtain ⟨p, hp⟩ := exists_plan_of_code hcode
  rw [hattempt, planWith_eq] at hp
  cases hs : s.plan with
  | ok p => exact unknownNames_of_plan hs
  | error e =>
    have hp : s.plan.mapError CommandError.noPlan = .ok p := hp
    rw [hs] at hp
    cases hp

end Cli
end TemplatePasses
