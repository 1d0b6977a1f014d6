/-
# Assembling a list of passes

Candidates are offered one after the other. A candidate is admitted until one
comes that has a rule: its rule says whether it is still admitted, and after it
nothing is. The rule of every candidate is taken, also behind the halt, so what
is left at the end are the rules that no candidate had.

Key definitions: `Assembly.offer`, `Assembly.offerAll`, `Assembly.finish`.
-/
import TemplatePasses.Plan.Basic
import TemplatePasses.Log.Event

namespace TemplatePasses

open Log (Event LogPhase)

/-- The state between two candidates. -/
structure Assembly where
  /-- The rules that have met no candidate yet. -/
  rules : StopRules
  /-- Whether no rule has halted assembly yet. -/
  building : Bool := true
deriving DecidableEq

/-- What becomes of a candidate. -/
inductive Verdict where
  | admitted
  /-- Admitted, and nothing behind it. -/
  | admittedLast
  /-- Left out, and all behind it. -/
  | haltedBefore
  /-- Left out because assembly has halted. -/
  | dropped
deriving DecidableEq, Repr

namespace Verdict

def admits : Verdict → Bool
  | .admitted | .admittedLast => true
  | .haltedBefore | .dropped => false

/-- Whether assembly goes on behind the candidate. -/
def goesOn : Verdict → Bool
  | .admitted => true
  | .admittedLast | .haltedBefore | .dropped => false

/-- The level at which a verdict is logged. -/
def level : Verdict → Log.Level
  | .admitted | .dropped => .trace
  | .admittedLast | .haltedBefore => .debug

/-- The message with which a verdict is logged. -/
def message : Verdict → String
  | .admitted => "admitted"
  | .admittedLast => "admitted, halting after it"
  | .haltedBefore => "halting before it"
  | .dropped => "dropped, assembly halted"

/-- The event of a verdict on the candidate of this name. -/
def event (v : Verdict) (name : String) : Event :=
  { level := v.level, target := LogPhase.assembly.target, message := v.message,
    fields := [("pass", .text name)] }

/-- The verdict on a candidate with this rule. -/
def of (building : Bool) (rule : Option StopRule) : Verdict :=
  match building, rule with
  | false, _ => .dropped
  | true, none => .admitted
  | true, some .after => .admittedLast
  | true, some .before => .haltedBefore

end Verdict

namespace Assembly

variable {α : Type} [Named α]

/-- The verdict on the candidate of this name, and the state behind it. -/
def offer (a : Assembly) (name : String) : Verdict × Assembly :=
  let (rule, rules) := a.rules.take name
  let verdict := Verdict.of a.building rule
  (verdict, { rules, building := verdict.goesOn })

/-- The verdicts on all candidates, and the state behind them. -/
def offerAll (a : Assembly) : List α → List (α × Verdict) × Assembly
  | [] => ([], a)
  | c :: rest =>
    let (verdict, next) := a.offer (Named.name c)
    let (verdicts, last) := next.offerAll rest
    ((c, verdict) :: verdicts, last)

def admitted (verdicts : List (α × Verdict)) : List α :=
  (verdicts.filter (·.2.admits)).map (·.1)

def events (verdicts : List (α × Verdict)) : List Event :=
  verdicts.map fun v => v.2.event (Named.name v.1)

/-- At the end no rule may be left. -/
def finish (a : Assembly) : Except PlanError Unit :=
  if a.rules.isEmpty then .ok () else .error (.unmatchedRules a.rules)

end Assembly
end TemplatePasses
