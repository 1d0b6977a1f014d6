/-
# Rules and their history

Rules come in and are taken out again, in any order and any number of times. What is
left of all this is one rule for each pass, the one that came in last since the pass was
last taken, or none (`StopRules.find?_after`). So what is seen of the rules, their
names, their number and their text, is a matter of these rules alone
(`StopRules.seen_by_last_insert`): neither how they came about nor the order in which a
map hands out its entries can be told from it.

Key definitions: `RuleStep`, `StopRules.after`, `StopRules.insertedSince`.
Key theorems: `StopRules.insertedSince_insert`, `StopRules.insertedSince_take`,
`StopRules.find?_after`, `StopRules.seen_by_last_insert`.
-/
import TemplatePasses.Proofs.Listing
import Mathlib.Data.List.Induction

namespace TemplatePasses

/-- A change of the rules. -/
inductive RuleStep where
  /-- A rule comes in for a pass, in place of any other. -/
  | insert (pass : String) (rule : StopRule)
  /-- The rule of a pass is taken out. -/
  | take (pass : String)
deriving DecidableEq

namespace RuleStep

/-- The rule that comes in for a pass, with a name and its rule. -/
def ofEntry (entry : String × StopRule) : RuleStep :=
  .insert entry.1 entry.2

/-- The rule that a step brings in for this pass. -/
def ruleFor? (pass : String) : RuleStep → Option StopRule
  | insert name rule => if name = pass then some rule else none
  | take _ => none

end RuleStep

namespace StopRules

/-- The rules after a step. -/
def step (rules : StopRules) : RuleStep → StopRules
  | .insert pass rule => rules.insert pass rule
  | .take pass => (rules.take pass).2

/-- The rules after some steps, one after the other. -/
def after (rules : StopRules) (steps : List RuleStep) : StopRules :=
  steps.foldl step rules

/-- The rule that has come in last for a pass, since the pass was last taken. -/
def insertedSince (pass : String) (history : List RuleStep) : Option StopRule :=
  (history.reverse.takeWhile (· ≠ .take pass)).findSome? (·.ruleFor? pass)

/-! ### One step more -/

theorem insertedSince_insert (history : List RuleStep) (pass name : String) (rule : StopRule) :
    insertedSince pass (history ++ [.insert name rule]) =
      if name = pass then some rule else insertedSince pass history := by
  unfold insertedSince
  rw [List.reverse_concat, List.takeWhile_cons_of_pos (by simp), List.findSome?_cons]
  by_cases h : name = pass <;> simp [RuleStep.ruleFor?, h]

theorem insertedSince_take (history : List RuleStep) (pass name : String) :
    insertedSince pass (history ++ [.take name]) =
      if name = pass then none else insertedSince pass history := by
  unfold insertedSince
  rw [List.reverse_concat]
  by_cases h : name = pass
  · simp [h]
  · rw [List.takeWhile_cons_of_pos (by simp [h]), List.findSome?_cons, if_neg h]
    rfl

/-- A step is seen at its own pass only, and there it does away with what was before. -/
theorem find?_step (rules : StopRules) (s : RuleStep) (history : List RuleStep)
    (h : ∀ pass, rules.find? pass = insertedSince pass history) (pass : String) :
    (rules.step s).find? pass = insertedSince pass (history ++ [s]) := by
  cases s with
  | insert name rule =>
    show (rules.insert name rule).find? pass = _
    rw [insertedSince_insert, NameMap.find?_insert, h]
    simp only [eq_comm]
  | take name =>
    show (rules.erase name).find? pass = _
    rw [insertedSince_take, NameMap.find?_erase, h]
    simp only [eq_comm]

/-- **A pass has the rule that came in last since it was last taken.** -/
theorem find?_after (history : List RuleStep) :
    ∀ pass, (after .empty history).find? pass = insertedSince pass history := by
  induction history using List.reverseRecOn with
  | nil => exact fun _ => rfl
  | append_singleton history s ih =>
    have hstep : after .empty (history ++ [s]) = (after .empty history).step s := by
      rw [after, List.foldl_append]
      rfl
    rw [hstep]
    exact find?_step _ s history ih

/-- Rules to start with come in one after the other too. -/
theorem after_ofList (entries : List (String × StopRule)) (steps : List RuleStep) :
    after (NameMap.ofList entries) steps = after .empty (entries.map .ofEntry ++ steps) := by
  rw [after, after, List.foldl_append, List.foldl_map]
  rfl

/-- Rules with the same entries cannot be told apart, in whatever order they come. -/
theorem seen_eq_of_entries {rules rules' : StopRules}
    (h : ∀ e, e ∈ rules.entries ↔ e ∈ rules'.entries) (l : NameMap.Listing rules) (l' : NameMap.Listing rules') :
    l.names = l'.names ∧ describeFrom l = describeFrom l' := by
  obtain rfl : rules = rules' := NameMap.ext_find? fun pass => Option.ext fun rule => by
    rw [NameMap.find?_eq_some_iff, NameMap.find?_eq_some_iff, h]
  rw [l.names_eq, l'.names_eq, describeFrom_eq, describeFrom_eq]
  exact ⟨rfl, rfl⟩

/-- **All that is seen of the rules is what came in last for each pass.** Take any
entries to start with, and any steps after them. Taking a pass gives the rule that came
in last for it since it was last taken, or none, and leaves the other rules alone. The
names, in strictly ascending order, are those of the passes that have such a rule; they
are counted, and there is none just when the rules are empty. The text has in braces
each of these names in this order, with its rule. A map that hands out its entries in
any other order gives the same names and the same text, and so does any other history
that leads to the same entries. -/
theorem seen_by_last_insert (entries : List (String × StopRule)) (steps : List RuleStep) :
    let history := entries.map RuleStep.ofEntry ++ steps
    let rules := after (NameMap.ofList entries) steps
    (∀ pass, (rules.take pass).1 = insertedSince pass history ∧
      ∀ other, (rules.take pass).2.find? other = if other = pass then none else rules.find? other) ∧
    rules.names.Pairwise (· < ·) ∧
    (∀ pass, pass ∈ rules.names ↔ ∃ rule, insertedSince pass history = some rule) ∧
    rules.size = rules.names.length ∧ (rules.isEmpty = true ↔ rules.names = []) ∧
    (∃ pairs : List (String × StopRule), pairs.map (·.1) = rules.names ∧
      (∀ e ∈ pairs, insertedSince e.1 history = some e.2) ∧
      rules.describe =
        "\x7b" ++ ", ".intercalate (pairs.map fun e => e.1 ++ "=" ++ e.2.name) ++ "\x7d") ∧
    (∀ l : NameMap.Listing rules, l.names = rules.names ∧ describeFrom l = rules.describe) ∧
    ∀ (entries' : List (String × StopRule)) (steps' : List RuleStep),
      let rules' := after (NameMap.ofList entries') steps'
      (∀ e, e ∈ rules.entries ↔ e ∈ rules'.entries) →
        ∀ (l : NameMap.Listing rules) (l' : NameMap.Listing rules'),
          l.names = l'.names ∧ describeFrom l = describeFrom l' := by
  intro history rules
  have hfind : ∀ pass, rules.find? pass = insertedSince pass history := fun pass => by
    rw [← find?_after, ← after_ofList]
  refine ⟨fun pass => ⟨hfind pass, fun other => rules.find?_erase pass other⟩,
    rules.names_ascending, fun pass => ?_, (List.length_map _).symm, rules.isEmpty_iff,
    ⟨rules.entries, rfl, fun e he => ?_, rfl⟩, fun l => ⟨l.names_eq, describeFrom_eq l⟩,
    fun _ _ => seen_eq_of_entries⟩
  · rw [NameMap.mem_names_iff]
    simp only [hfind]
  · rw [← hfind]
    exact (rules.find?_eq_some_iff e.1 e.2).2 he

/-- A rule that was taken does not come back, and one that came in again counts. -/
example :
    let rules := after (NameMap.ofList [("B", .before), ("A", .before)])
      [.take "B", .insert "A" .after, .take "C", .insert "B" .after, .take "A"]
    rules.describe = "\x7bB=STOP_AFTER_PASS\x7d" := by
  cbv

end StopRules
end TemplatePasses
