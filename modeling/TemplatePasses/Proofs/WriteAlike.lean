/-
# Only the last writes count

Settings are made by steps, in any order and with repetitions. Of all steps that
set a part only the last one counts, and a switch that can only be turned one way
counts if it is turned at all. So two sequences of steps that agree in this
(`WriteAlike`) lead to the same settings, and with them to the same plan, or the
same error, and to the same pipeline. The text of an error has the rules that are
left in ascending order, in whatever order the map hands them out.

Key definitions: `Part.isSwitch`, `WriteAlike`.
Key theorems: `lastSet_of_only`, `WriteAlike.lastSet_eq`, `Settings.applyAll_eq`,
`Settings.only_last_writes_count`.
-/
import TemplatePasses.Pass.Build
import TemplatePasses.Proofs.LastWrite
import TemplatePasses.Proofs.Listing

namespace TemplatePasses

/-- Whether a part is a switch that steps can turn only one way. -/
def Part.isSwitch : Part → Bool
  | .allowUnknownGlobals | .allowV1Expression | .disableTypeChecking => true
  | _ => false

/-- Two sequences of steps agree in what they leave behind. -/
structure WriteAlike (steps steps' : List Setting) : Prop where
  /-- The last value set is the same in both, or neither sets one. For rules this
  is said of each name. -/
  values : ∀ p : Part, p.isSwitch = false → lastSet p steps = lastSet p steps'
  /-- A switch is turned by both or by neither. -/
  switches : ∀ step : Setting, step.write.1.isSwitch = true → (step ∈ steps ↔ step ∈ steps')

/-! ### What is set last -/

/-- A part that only one step can set is set last by it, if at all. -/
theorem lastSet_of_only {p : Part} {step : Setting} {v : p.Value}
    (h : ∀ q : Setting, q.value? p = if q = step then some v else none) :
    ∀ steps : List Setting, lastSet p steps = if step ∈ steps then some v else none
  | [] => rfl
  | q :: rest => by
    rw [lastSet_cons, lastSet_of_only h rest, h q]
    by_cases hrest : step ∈ rest
    · simp [hrest]
    · by_cases hq : q = step
      · simp [hrest, hq]
      · simp [hrest, hq, Ne.symm hq]

/-- What a sequence sets last, one of its steps sets. -/
theorem exists_of_lastSet {p : Part} {steps : List Setting} {v : p.Value}
    (h : lastSet p steps = some v) : ∃ step ∈ steps, step.value? p = some v := by
  obtain ⟨step, hstep, hv⟩ := List.exists_of_findSome?_eq_some h
  exact ⟨step, List.mem_reverse.1 hstep, hv⟩

theorem lastSet_eq_none_iff {p : Part} {steps : List Setting} :
    lastSet p steps = none ↔ ∀ step ∈ steps, step.write.1 ≠ p := by
  simp [lastSet, Setting.value?]

/-- The step that sets a part sets it to what it writes. -/
theorem Setting.write_of_value? {step : Setting} {p : Part} {v : p.Value}
    (h : step.value? p = some v) : step.write = ⟨p, v⟩ := by
  unfold value? at h
  split at h
  · rename_i hp
    subst hp
    rw [← Option.some.inj h]
  · cases h

theorem WriteAlike.lastSet_eq {steps steps' : List Setting} (h : WriteAlike steps steps')
    (p : Part) : lastSet p steps = lastSet p steps' := by
  have switch : ∀ {p : Part} (step : Setting) (v : p.Value), step.write.1.isSwitch = true →
      (∀ q : Setting, q.value? p = if q = step then some v else none) →
      lastSet p steps = lastSet p steps' := by
    intro p step v hswitch honly
    simp only [lastSet_of_only honly, h.switches step hswitch]
  cases hp : p.isSwitch with
  | false => exact h.values p hp
  | true =>
    -- each of the switches has a step of its own
    cases p with
    | allowUnknownGlobals =>
      exact switch .allowUnknownGlobals true rfl fun q => by cases q <;> rfl
    | allowV1Expression =>
      exact switch .allowV1Expression true rfl fun q => by cases q <;> rfl
    | disableTypeChecking =>
      exact switch .disableTypeChecking true rfl fun q => by cases q <;> rfl
    | _ => cases hp

namespace Settings

/-- Settings that some steps make, if every step writes what they have and they
differ in no other part from those before. -/
theorem applyAll_eq {s t : Settings} {steps : List Setting}
    (hwritten : ∀ step ∈ steps, step.write.2 = t.get step.write.1)
    (hother : ∀ p : Part, (∀ step ∈ steps, step.write.1 ≠ p) → s.get p = t.get p) :
    s.applyAll steps = t := by
  refine ext_get fun p => ?_
  rw [get_applyAll, lastWritten]
  cases hlast : lastSet p steps with
  | none => exact hother p (lastSet_eq_none_iff.1 hlast)
  | some v =>
    obtain ⟨step, hstep, hv⟩ := exists_of_lastSet hlast
    have hwrite := hwritten step hstep
    rw [Setting.write_of_value? hv] at hwrite
    exact hwrite

theorem applyAll_of_writeAlike (base : Settings) {steps steps' : List Setting}
    (h : WriteAlike steps steps') : base.applyAll steps = base.applyAll steps' := by
  refine ext_get fun p => ?_
  rw [get_applyAll, get_applyAll, lastWritten, lastWritten, h.lastSet_eq p]

/-- **Only the last writes count.** Two sequences of steps that set the same values
last, turn the same switches and give each name the same rule last lead to the
same plan or the same error, and to the same pipeline or error with the same
requests, each with the same setup. The names and the text of the rules in an
error do not depend on the order in which these are listed. -/
theorem only_last_writes_count (base : Settings) {steps steps' : List Setting}
    (h : WriteAlike steps steps') :
    let s := base.applyAll steps
    let s' := base.applyAll steps'
    s.plan = s'.plan ∧ (∀ f : Factory, s.build f = s'.build f) ∧
    ∀ rules, s.plan = .error (.unmatchedRules rules) → ∀ one other : NameMap.Listing rules,
      one.names = other.names ∧ StopRules.describeFrom one = StopRules.describeFrom other := by
  intro s s'
  have hsame : s = s' := applyAll_of_writeAlike base h
  refine ⟨congrArg plan hsame, fun f => congrArg (build · f) hsame, fun rules _ one other => ?_⟩
  exact ⟨one.names_eq.trans other.names_eq.symm,
    (StopRules.describeFrom_eq one).trans (StopRules.describeFrom_eq other).symm⟩

end Settings

/-! ### An example -/

/-- Steps with a rule that is replaced, a switch turned twice and values set twice. -/
def wavering : List Setting :=
  [.rule "Xid" .before, .optimize true, .disableTypeChecking, .rule "NoPass" .after,
    .options { optimizer := false }, .rule "Xid" .after, .optimize false, .options {},
    .rule "AnyPass" .before, .disableTypeChecking]

/-- The steps of these that count, in another order. -/
def settled : List Setting :=
  [.disableTypeChecking, .options {}, .rule "AnyPass" .before, .optimize false,
    .rule "NoPass" .after, .rule "Xid" .after]

theorem wavering_settled : WriteAlike wavering settled where
  values p _ := by
    cases p with
    | rule name =>
      by_cases hxid : name = "Xid"
      · subst hxid
        rfl
      · by_cases hno : name = "NoPass"
        · subst hno
          rfl
        · by_cases hany : name = "AnyPass"
          · subst hany
            rfl
          · simp [lastSet, wavering, settled, Setting.value?, Setting.write, Ne.symm hxid,
              Ne.symm hno, Ne.symm hany]
    | _ => rfl
  switches step hstep := by
    cases step with
    | disableTypeChecking | allowUnknownGlobals | allowV1Expression => decide
    | _ => cases hstep

/-- Both leave the two rules without a pass, which are told alike from any listing. -/
theorem only_last_writes_count_settled :
    let left := (NameMap.empty.insert "NoPass" StopRule.after).insert "AnyPass" .before
    WriteAlike wavering settled ∧
    (({} : Settings).applyAll wavering).plan = .error (.unmatchedRules left) ∧
    (({} : Settings).applyAll settled).plan = .error (.unmatchedRules left) ∧
    ∀ one other : NameMap.Listing left,
      one.names = other.names ∧ StopRules.describeFrom one = StopRules.describeFrom other := by
  intro left
  obtain ⟨hplan, -, hlisting⟩ := Settings.only_last_writes_count {} wavering_settled
  have hleft : (({} : Settings).applyAll wavering).plan = .error (.unmatchedRules left) := rfl
  exact ⟨wavering_settled, hleft, hplan ▸ hleft, hlisting left hleft⟩

end TemplatePasses
