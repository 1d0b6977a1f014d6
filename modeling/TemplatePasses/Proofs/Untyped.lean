/-
# Plans without types

Turning type checking off takes the roles that need types out of the candidates
and does nothing else. So the untyped plan is the typed plan without these
roles, as long as no rule names one of them: the rule that cuts the candidates
is then a rule for a role that stays. A rule for a role that needs types meets
no candidate any more and is left over, next to those that met none before.

Key definitions: `Role.needsTypes`, `Plan.untyped`, `unmatchedNames`.
Key theorems: `StopRules.kept_filter`, `Settings.candidates_untyped`,
`Settings.untyped_plan`.
-/
import TemplatePasses.Proofs.Planning

namespace TemplatePasses

/-- Whether a pass of this role needs or enforces types. -/
def Role.needsTypes : Role → Bool
  | file r => r.isTypeDependent
  | fileSet r => r.isTypeDependent

/-- The names of the roles that need types. -/
def typedNames : List String :=
  (Role.all.filter Role.needsTypes).map Role.name

theorem mem_typedNames_iff {name : String} :
    name ∈ typedNames ↔ ∃ r : Role, r.needsTypes = true ∧ r.name = name := by
  unfold typedNames
  simp only [List.mem_map, List.mem_filter, Role.mem_all, true_and]

/-- The plan without the roles that need types. -/
def Plan.untyped (p : Plan) : Plan where
  singleFile := p.singleFile.filter fun r => !r.isTypeDependent
  fileSet := p.fileSet.filter fun r => !r.isTypeDependent

/-- The names of the rules that met no role, where this is why there is no plan. -/
def unmatchedNames : Except PlanError Plan → List String
  | .error (.unmatchedRules rules) => rules.names
  | _ => []

/-- The name of a role that needs types is no longer the name of a candidate; the
others are what they were. -/
theorem mem_names_filter_iff (rs : List Role) (name : String) :
    name ∈ (rs.filter fun r => !r.needsTypes).map Named.name ↔
      name ∈ rs.map Named.name ∧ name ∉ typedNames := by
  rw [mem_typedNames_iff]
  simp only [List.mem_map, List.mem_filter, Bool.not_eq_true', not_exists, not_and]
  constructor
  · rintro ⟨r, ⟨hr, huntyped⟩, rfl⟩
    refine ⟨⟨r, hr, rfl⟩, fun q hq hname => ?_⟩
    rw [Role.name_injective hname, huntyped] at hq
    cases hq
  · rintro ⟨⟨r, hr, rfl⟩, hnames⟩
    refine ⟨r, ⟨hr, ?_⟩, rfl⟩
    cases htyped : r.needsTypes with
    | true => exact absurd rfl (hnames r htyped)
    | false => rfl

namespace StopRules

/-- If every candidate with a rule stays, it makes no difference whether the
others are taken out before the cut or after it. -/
theorem kept_filter {α : Type} [Named α] {rules : StopRules} {stays : α → Bool} :
    ∀ {cs : List α}, (∀ c ∈ cs, ∀ rule, rules.find? (Named.name c) = some rule → stays c = true) →
      rules.kept (cs.filter stays) = (rules.kept cs).filter stays
  | [], _ => rfl
  | c :: cs, h => by
    obtain ⟨hc, hcs⟩ := List.forall_mem_cons.1 h
    cases hrule : rules.find? (Named.name c) with
    | none =>
      rw [kept_cons_of_none hrule, List.filter_cons, List.filter_cons, ← kept_filter hcs]
      cases stays c with
      | true => exact kept_cons_of_none hrule _
      | false => rfl
    | some rule =>
      -- the candidate that cuts the list is one that stays
      have hstays := hc rule hrule
      rw [kept_cons_of_some hrule, List.filter_cons, if_pos hstays, kept_cons_of_some hrule]
      cases rule with
      | before => rfl
      | after => simp [hstays]

section
variable {rules : StopRules} (h : ∀ n ∈ rules.names, n ∉ typedNames) (rs : List Role)
include h

/-- Without rules for roles that need types, the same rules are left without these. -/
theorem unmet_untyped : rules.unmet (rs.filter fun r => !r.needsTypes) = rules.unmet rs := by
  refine NameMap.ext_find? fun n => ?_
  rw [find?_unmet, find?_unmet]
  cases hn : rules.find? n with
  | none => rw [ite_self, ite_self]
  | some rule =>
    have huntyped : n ∉ typedNames := h n ((rules.mem_names_iff n).2 ⟨rule, hn⟩)
    have hiff := mem_names_filter_iff rs n
    simp only [hiff, huntyped, not_false_eq_true, and_true]

theorem kept_untyped :
    rules.kept (rs.filter fun r => !r.needsTypes) =
      (rules.kept rs).filter fun r => !r.needsTypes := by
  refine kept_filter fun r _ rule hrule => ?_
  have huntyped : r.name ∉ typedNames := h r.name ((rules.mem_names_iff _).2 ⟨rule, hrule⟩)
  rw [mem_typedNames_iff] at huntyped
  cases htyped : r.needsTypes with
  | true => exact absurd ⟨r, htyped, rfl⟩ huntyped
  | false => rfl

end

/-- The rules for roles that need types are left in any case. -/
theorem mem_unmet_untyped_iff (rules : StopRules) (rs : List Role) (n : String) :
    n ∈ (rules.unmet (rs.filter fun r => !r.needsTypes)).names ↔
      n ∈ (rules.unmet rs).names ∨ n ∈ rules.names.filter fun n => n ∈ typedNames := by
  rw [names_unmet, names_unmet, List.mem_filter, List.mem_filter, List.mem_filter,
    decide_eq_true_eq, decide_eq_true_eq, decide_eq_true_eq, mem_names_filter_iff,
    Classical.not_and_iff_not_or_not, Classical.not_not, and_or_left]

end StopRules

theorem Plan.ofRoles_filter (rs : List Role) :
    Plan.ofRoles (rs.filter fun r => !r.needsTypes) = (Plan.ofRoles rs).untyped := by
  unfold ofRoles untyped
  rw [List.filterMap_filter, List.filterMap_filter, List.filter_filterMap, List.filter_filterMap]
  congr 2
  · funext r
    cases r with
    | file r =>
      simp only [Role.needsTypes, Role.asFile?, Option.filter_some]
      rfl
    | fileSet r => simp only [Role.asFile?, Option.filter_none, ite_self]
  · funext r
    cases r with
    | file r => simp only [Role.asFileSet?, Option.filter_none, ite_self]
    | fileSet r =>
      simp only [Role.needsTypes, Role.asFileSet?, Option.filter_some]
      rfl

namespace Settings

/-- The settings with type checking on, and with these options. -/
def typed (s : Settings) (o : GeneralOptions) : Settings :=
  { s with options := some o, disableTypeChecking := false }

theorem enables_untyped (s : Settings) (o : GeneralOptions) (r : Role) :
    ((s.typed o).apply .disableTypeChecking).enables o r =
      ((s.typed o).enables o r && !r.needsTypes) := by
  cases r with
  | file r => cases r <;> simp [enables, typed, apply, checksTypes, Role.needsTypes,
      FileRole.isTypeDependent]
  | fileSet r => cases r <;> simp [enables, typed, apply, checksTypes, Role.needsTypes,
      FileSetRole.isTypeDependent]

/-- **Without type checking the candidates are the same, less those that need
types.** -/
theorem candidates_untyped (s : Settings) (o : GeneralOptions) :
    ((s.typed o).apply .disableTypeChecking).candidates o =
      ((s.typed o).candidates o).filter fun r => !r.needsTypes := by
  unfold candidates
  rw [List.filter_filter]
  refine List.filter_congr fun r _ => ?_
  rw [enables_untyped, Bool.and_comm]

theorem unmatchedNames_plan {s : Settings} {o : GeneralOptions} (h : s.options = some o) :
    unmatchedNames s.plan = (s.rules.unmet (s.candidates o)).names := by
  rw [plan_of_options h]
  by_cases hmet : (s.rules.unmet (s.candidates o)).isEmpty = true
  · rw [if_pos hmet, (NameMap.isEmpty_iff _).1 hmet]
    rfl
  · rw [if_neg hmet]
    rfl

/-- **Without type checking exactly the roles that need types are missing.** If no
rule names such a role, there is an untyped plan just when there is a typed one,
which it is without these roles, and else the error is the same. If some rules
do, there is no untyped plan, and the names that met no role are those that met
none in the typed plan and those of these rules, ascending. -/
theorem untyped_plan (s : Settings) (o : GeneralOptions) :
    let typed := s.typed o
    let untyped := typed.apply .disableTypeChecking
    let dependent := s.rules.names.filter fun name => name ∈ typedNames
    if dependent = [] then
      match typed.plan with
      | .ok p => untyped.plan = .ok p.untyped
      | .error e => untyped.plan = .error e
    else
      ∃ left, untyped.plan = .error (.unmatchedRules left) ∧
        (∀ name, name ∈ left.names ↔ name ∈ unmatchedNames typed.plan ∨ name ∈ dependent) ∧
        left.names.Pairwise (· < ·) := by
  intro typed untyped dependent
  have hplan : typed.plan = _ := plan_of_options (o := o) rfl
  have hplan' : untyped.plan = _ := plan_of_options (o := o) rfl
  have hrules : typed.rules = s.rules ∧ untyped.rules = s.rules := ⟨rfl, rfl⟩
  rw [hrules.1] at hplan
  rw [hrules.2, candidates_untyped] at hplan'
  by_cases hdependent : dependent = []
  · have hnone : ∀ n ∈ s.rules.names, n ∉ typedNames := by
      simpa [dependent, List.filter_eq_nil_iff] using hdependent
    rw [StopRules.unmet_untyped hnone, StopRules.kept_untyped hnone, Plan.ofRoles_filter] at hplan'
    rw [if_pos hdependent, hplan, hplan']
    by_cases hmet : (s.rules.unmet (typed.candidates o)).isEmpty = true
    · rw [if_pos hmet, if_pos hmet]
    · rw [if_neg hmet, if_neg hmet]
  · have hmem := StopRules.mem_unmet_untyped_iff s.rules (typed.candidates o)
    obtain ⟨name, hname⟩ := List.exists_mem_of_ne_nil _ hdependent
    have hleft : ¬(s.rules.unmet ((typed.candidates o).filter fun r => !r.needsTypes)).isEmpty := by
      intro hempty
      have hin := (hmem name).2 (Or.inr hname)
      rw [(NameMap.isEmpty_iff _).1 hempty] at hin
      cases hin
    have hunmatched : unmatchedNames typed.plan = (s.rules.unmet (typed.candidates o)).names :=
      unmatchedNames_plan rfl
    rw [if_neg hdependent, hplan', if_neg hleft, hunmatched]
    exact ⟨_, rfl, hmem, NameMap.names_ascending _⟩

end Settings
end TemplatePasses
