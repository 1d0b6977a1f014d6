/-
# The plan, from the catalog and the rules

The plan is put together by a sequence of guarded offers. It can be said without
the sequence: take all roles of the catalog in order, leave out those that the
settings do not enable (`Settings.enables`, a condition for each role), and cut
at the first role with a rule. There is no plan if the options are missing or a
rule names no role that is left, and the error then has exactly these rules.

Key definitions: `Settings.enables`, `Settings.candidates`, `Plan.roles`.
Key theorems: `Settings.candidates_eq`, `Settings.plan_of_options`,
`Settings.plan_spec`.
-/
import TemplatePasses.Plan.Settings
import TemplatePasses.Proofs.Catalog
import TemplatePasses.Proofs.Halting

namespace TemplatePasses

/-! ### Plans as lists of roles -/

namespace Plan

/-- The roles of a plan, those over one file first. -/
def roles (p : Plan) : List Role :=
  p.singleFile.map .file ++ p.fileSet.map .fileSet

def ofRoles (rs : List Role) : Plan :=
  ⟨rs.filterMap Role.asFile?, rs.filterMap Role.asFileSet?⟩

theorem filterMap_asFile? (fs : List FileRole) (ss : List FileSetRole) :
    (fs.map Role.file ++ ss.map Role.fileSet).filterMap Role.asFile? = fs := by
  simp [List.filterMap_append, List.filterMap_map, Function.comp_def, Role.asFile?]

theorem filterMap_asFileSet? (fs : List FileRole) (ss : List FileSetRole) :
    (fs.map Role.file ++ ss.map Role.fileSet).filterMap Role.asFileSet? = ss := by
  simp [List.filterMap_append, List.filterMap_map, Function.comp_def, Role.asFileSet?]

theorem ofRoles_roles (p : Plan) : ofRoles p.roles = p := by
  unfold ofRoles roles
  rw [filterMap_asFile?, filterMap_asFileSet?]

/-- In a beginning of a list with the roles over one file in front, they are in
front too. -/
theorem roles_ofRoles {fs : List FileRole} {ss : List FileSetRole} {rs : List Role}
    (h : rs <+: fs.map Role.file ++ ss.map Role.fileSet) : (ofRoles rs).roles = rs := by
  obtain ⟨fs', ss', rfl⟩ :
      ∃ (fs' : List FileRole) (ss' : List FileSetRole), rs = fs'.map Role.file ++ ss'.map Role.fileSet := by
    rw [List.prefix_iff_eq_take] at h
    rw [h, List.take_append, ← List.map_take, ← List.map_take]
    exact ⟨_, _, rfl⟩
  unfold ofRoles
  rw [filterMap_asFile?, filterMap_asFileSet?]
  rfl

end Plan

namespace Settings

/-! ### Candidates by condition -/

/-- Whether the settings and options enable a role. -/
def enables (s : Settings) (o : GeneralOptions) : Role → Bool
  | .file .addDebugAttributes => s.debugAttributes
  | .file .checkDeclaredTypes | .file .resolveExpressionTypes | .file .veLogRewrite
  | .file .veLogValidation | .fileSet .checkTemplateCalls => s.checksTypes
  | .file .checkGlobals => !s.allowUnknownGlobals
  | .file .assertStrictAutoescaping => o.strictAutoescaping = .enabled
  | .fileSet .strictDeps => o.externalCalls = .disabled
  | .fileSet .autoescaper => s.autoescaper
  | .fileSet .checkBadContextualUsage => s.autoescaper && s.checksTypes
  | .fileSet .desugarHtmlNodes => s.desugarHtml
  | .fileSet .optimization => s.optimize && o.optimizer
  | _ => true

/-- The roles of the catalog that are enabled, in the order of the catalog. -/
def candidates (s : Settings) (o : GeneralOptions) : List Role :=
  Role.all.filter (s.enables o)

theorem onlyIf_true {ρ : Type} (roles : List ρ) : onlyIf true roles = roles := rfl

theorem fileCandidates_eq (s : Settings) (o : GeneralOptions) :
    s.fileCandidates o = FileRole.all.filter fun r => s.enables o (.file r) := by
  simp only [fileCandidates, FileRole.all, List.filter_cons, List.filter_nil, enables, ↓reduceIte]
  generalize s.debugAttributes = debug, s.checksTypes = types, s.allowUnknownGlobals = globals,
    decide (o.strictAutoescaping = .enabled) = strict
  cases debug <;> cases types <;> cases globals <;> cases strict <;> rfl

theorem fileSetCandidates_eq (s : Settings) (o : GeneralOptions) :
    s.fileSetCandidates o = FileSetRole.all.filter fun r => s.enables o (.fileSet r) := by
  simp only [fileSetCandidates, FileSetRole.all, List.filter_cons, List.filter_nil, enables,
    ↓reduceIte]
  generalize s.checksTypes = types, decide (o.externalCalls = .disabled) = strict,
    s.autoescaper = escapes, s.desugarHtml = desugars, (s.optimize && o.optimizer) = optimizes
  cases types <;> cases strict <;> cases escapes <;> cases desugars <;> cases optimizes <;> rfl

/-- **The sequence of offers is the catalog**, less the roles that are not enabled. -/
theorem candidates_eq (s : Settings) (o : GeneralOptions) :
    s.candidates o = (s.fileCandidates o).map .file ++ (s.fileSetCandidates o).map .fileSet := by
  rw [fileCandidates_eq, fileSetCandidates_eq, candidates, Role.all, List.filter_append,
    List.filter_map, List.filter_map]
  rfl

/-! ### The plan -/

/-- Offering the candidates of each kind in turn is offering all of them. -/
theorem offerAll_candidates (s : Settings) (o : GeneralOptions) :
    Assembly.offerAll { rules := s.rules } (s.candidates o) =
      let files := Assembly.offerAll { rules := s.rules } (s.fileCandidates o)
      let sets := files.2.offerAll (s.fileSetCandidates o)
      (files.1.map (fun v => (.file v.1, v.2)) ++ sets.1.map (fun v => (.fileSet v.1, v.2)),
        sets.2) := by
  have files : ∀ r : FileRole, Named.name (Role.file r) = Named.name r := fun _ => rfl
  have sets : ∀ r : FileSetRole, Named.name (Role.fileSet r) = Named.name r := fun _ => rfl
  rw [candidates_eq, Assembly.offerAll_append, Assembly.offerAll_map files,
    Assembly.offerAll_map sets]

theorem plan_of_options {s : Settings} {o : GeneralOptions} (h : s.options = some o) :
    s.plan =
      if (s.rules.unmet (s.candidates o)).isEmpty then
        .ok (Plan.ofRoles (s.rules.kept (s.candidates o)))
      else .error (.unmatchedRules (s.rules.unmet (s.candidates o))) := by
  have hkept := Assembly.admitted_offerAll (s.candidates o) s.rules
  have hfinish := Assembly.finish_offerAll { rules := s.rules } (s.candidates o)
  rw [offerAll_candidates] at hkept hfinish
  simp only [Assembly.admitted_append, Assembly.admitted_map] at hkept hfinish
  unfold plan assemble
  simp only [h]
  rw [hfinish, ← hkept, Plan.ofRoles, Plan.filterMap_asFile?, Plan.filterMap_asFileSet?]
  by_cases hmet : (s.rules.unmet (s.candidates o)).isEmpty = true
  · simp only [hmet, if_true]
  · simp only [hmet, Bool.false_eq_true, if_false]

/-- With options, only rules that are left stand against a plan. -/
theorem error_of_options {s : Settings} {o : GeneralOptions} {e : PlanError}
    (h : s.options = some o) (he : s.plan = .error e) :
    e = .unmatchedRules (s.rules.unmet (s.candidates o)) := by
  rw [plan_of_options h] at he
  split at he
  · cases he
  · exact (Except.error.inj he).symm

def withRules (s : Settings) (rules : StopRules) : Settings :=
  { s with rules }

theorem withRules_self (s : Settings) : s.withRules s.rules = s := rfl

/-- The rules take no part in which roles are candidates. -/
theorem plan_withRules {s : Settings} {o : GeneralOptions} (h : s.options = some o)
    (rules : StopRules) :
    (s.withRules rules).plan =
      if (rules.unmet (s.candidates o)).isEmpty then
        .ok (Plan.ofRoles (rules.kept (s.candidates o)))
      else .error (.unmatchedRules (rules.unmet (s.candidates o))) :=
  plan_of_options (s := s.withRules rules) h

theorem plan_without_options {s : Settings} (h : s.options = none) :
    s.plan = .error (.missing .generalOptions) := by
  simp only [plan, assemble, h]

/-- The roles that are let in have those over one file in front. -/
theorem roles_kept (s : Settings) (o : GeneralOptions) :
    (Plan.ofRoles (s.rules.kept (s.candidates o))).roles = s.rules.kept (s.candidates o) := by
  have h := s.rules.kept_prefix (s.candidates o)
  rw [candidates_eq] at h ⊢
  exact Plan.roles_ofRoles h

/-- The roles of a plan are candidates, up to the first that has a rule. -/
theorem roles_of_plan {s : Settings} {p : Plan} (h : s.plan = .ok p) :
    ∃ o, s.options = some o ∧ p.roles = s.rules.kept (s.candidates o) := by
  cases ho : s.options with
  | none =>
    rw [plan_without_options ho] at h
    cases h
  | some o =>
    rw [plan_of_options ho] at h
    split at h
    · cases h
      exact ⟨o, rfl, roles_kept s o⟩
    · cases h

/-- No role comes twice in a plan. -/
theorem nodup_of_plan {s : Settings} {p : Plan} (h : s.plan = .ok p) : p.roles.Nodup := by
  obtain ⟨o, -, hroles⟩ := roles_of_plan h
  rw [hroles]
  have hcandidates : (s.candidates o).Nodup := Role.all_nodup.sublist List.filter_sublist
  exact hcandidates.sublist (s.rules.kept_prefix _).sublist

theorem nodup_fileSet_of_plan {s : Settings} {p : Plan} (h : s.plan = .ok p) : p.fileSet.Nodup := by
  have hsets : (p.fileSet.map Role.fileSet).Nodup := (List.nodup_append.1 (nodup_of_plan h)).2.1
  show p.fileSet.Pairwise (· ≠ ·)
  exact (List.pairwise_map.1 hsets).imp fun hne he => hne (congrArg Role.fileSet he)

/-- Combining raw texts is the last candidate, so a plan that has it has all
candidates. -/
theorem candidates_of_combine {s : Settings} {p : Plan} (h : s.plan = .ok p)
    (hcombine : .combineConsecutiveRawTextNodes ∈ p.fileSet) :
    ∃ o, s.options = some o ∧ p.fileSet = s.fileSetCandidates o := by
  obtain ⟨o, ho, hroles⟩ := roles_of_plan h
  obtain ⟨before, hbefore⟩ :
      ∃ before, s.candidates o = before ++ [.fileSet .combineConsecutiveRawTextNodes] := by
    rw [candidates_eq, fileSetCandidates, List.map_append, ← List.append_assoc]
    exact ⟨_, rfl⟩
  have hbegin := s.rules.kept_prefix (s.candidates o)
  rw [← hroles] at hbegin
  rw [hbefore, List.prefix_concat_iff] at hbegin
  refine ⟨o, ho, ?_⟩
  rcases hbegin with hall | hpart
  · rw [← hbefore, candidates_eq] at hall
    rw [← Plan.ofRoles_roles p, hall, Plan.ofRoles, Plan.filterMap_asFileSet?]
  · -- a shorter plan would have the role twice among the candidates
    have hnodup : (s.candidates o).Nodup := Role.all_nodup.sublist List.filter_sublist
    rw [hbefore, List.nodup_append] at hnodup
    have hmem : .fileSet .combineConsecutiveRawTextNodes ∈ p.roles :=
      List.mem_append_right _ (List.mem_map_of_mem hcombine)
    exact absurd rfl (hnodup.2.2 _ (hpart.subset hmem) _ (List.mem_singleton_self _))

/-- **The plan, completely.** Without options there is none. With options it is
the enabled roles of the catalog, up to the first that has a rule, if every rule
names an enabled role; otherwise the error has the rules that do not, under
ascending names. -/
theorem plan_spec (s : Settings) :
    match s.options with
    | none => s.plan = .error (.missing .generalOptions)
    | some o =>
      let cs := s.candidates o
      let unmet := s.rules.unmet cs
      (if unmet.isEmpty then ∃ p, s.plan = .ok p ∧ p.roles = s.rules.kept cs
        else s.plan = .error (.unmatchedRules unmet)) ∧
      (∀ name rule, unmet.find? name = some rule ↔
        s.rules.find? name = some rule ∧ ∀ c ∈ cs, c.name ≠ name) ∧
      unmet.names.Pairwise (· < ·) := by
  cases ho : s.options with
  | none => exact plan_without_options ho
  | some o =>
    refine ⟨?_, fun name rule => ?_, NameMap.names_ascending _⟩
    · rw [plan_of_options ho]
      split
      · exact ⟨_, rfl, roles_kept s o⟩
      · rfl
    · rw [StopRules.find?_unmet]
      by_cases hn : name ∈ (s.candidates o).map Named.name
      · obtain ⟨c, hc, hname⟩ := List.mem_map.1 hn
        simp only [hn, if_true, reduceCtorEq, false_iff, not_and]
        exact fun _ hall => hall c hc hname
      · simp only [hn, if_false]
        refine ⟨fun h => ⟨h, fun c hc hname => ?_⟩, And.left⟩
        exact hn (List.mem_map.2 ⟨c, hc, hname⟩)

end Settings
end TemplatePasses
