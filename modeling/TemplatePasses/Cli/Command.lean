/-
# The command

The command shows the plan of a configuration. It goes through its stages in
order and ends at the first that fails, with status 1 and the error as the last
line of its error output: the log options must be valid, the configuration file
must be readable and hold a configuration, and with the rules of the command
line in place of the file's there must be a plan. Log events go to the error
output too, as far as the log options let them through, so the plan stands alone
on the standard output.

Key definitions: `logConfig`, `readConfig`, `withFlags`, `planWith`, `attempt`,
`Arguments.run`, `command`.
-/
import TemplatePasses.Cli.Arguments
import TemplatePasses.Cli.Directory
import TemplatePasses.Config.Form
import TemplatePasses.Log.Filter
import TemplatePasses.Log.Line
import TemplatePasses.Plan.Report
import TemplatePasses.Plan.Settings

namespace TemplatePasses

open Log (Event LogConfig Override)
open Json (Fault FaultPosition Locator)

namespace Cli

/-! ### Errors -/

/-- Why the command fails. -/
inductive CommandError where
  | unknownLevel (text : String)
  | badPhaseLevel (text : String)
  | unreadable (path : String) (cause : ReadError)
  | badConfig (path : String) (fault : Fault) (position : Option FaultPosition)
  | noPlan (error : PlanError)
deriving DecidableEq

def CommandError.message : CommandError → String
  | .unknownLevel text => "unknown log level '" ++ text ++ "'"
  | .badPhaseLevel text => "invalid phase log level '" ++ text ++ "'"
  | .unreadable path cause => "cannot read '" ++ path ++ "': " ++ cause.message
  | .badConfig path fault position =>
    "failed to parse '" ++ path ++ "': " ++ fault.located position
  | .noPlan error => error.message

/-- What the command leaves. -/
structure Outcome where
  code : UInt32
  stdout : String
  stderr : String
deriving DecidableEq, Repr

/-! ### Log options -/

/-- The levels with those of the phase options, the last one of a phase counting. -/
def applyPhases (c : LogConfig) : List String → Except CommandError LogConfig
  | [] => .ok c
  | text :: rest =>
    match Override.ofText? text with
    | some o => applyPhases (c.apply o) rest
    | none => .error (.badPhaseLevel text)

/-- The levels that the options ask for. -/
def logConfig (a : Arguments) : Except CommandError LogConfig :=
  match Log.Level.ofText? a.logLevel with
  | some level => applyPhases { overall := level } a.logPhases
  | none => .error (.unknownLevel a.logLevel)

/-- An event as it is written in a format. -/
def LogFormat.line (format : LogFormat) (e : Event) : String :=
  match format with
  | .compact => e.compact
  | .json => e.tree.text
  | .pretty => e.pretty

/-! ### The configuration and its rules -/

/-- The configuration in the file, or the default one without a file. -/
def readConfig (config : Option String) (content : String → Content) (locate : Locator) :
    Except CommandError PassConfig :=
  match config with
  | none => .ok {}
  | some path =>
    match (content path).text with
    | .error cause => .error (.unreadable path cause)
    | .ok text =>
      match PassConfig.ofText text with
      | .error fault => .error (.badConfig path fault (locate text))
      | .ok c => .ok c

/-- The configuration with the rules of the command line. They replace rules of
the file, and of several for one pass the last one counts. -/
def withFlags (c : PassConfig) (flags : List RuleFlag) : PassConfig :=
  { c with rules := flags.foldl (fun rules f => rules.insert f.pass f.rule) c.rules }

/-- The names on the command line with one of the two rules. -/
def flagged (rule : StopRule) (flags : List RuleFlag) : List String :=
  (flags.filter (·.rule = rule)).map (·.pass)

/-- The names in rules that belong to no pass, ascending. -/
def unknownNames (c : PassConfig) : List String :=
  c.rules.names.filter (!isKnownPass ·)

/-! ### Events -/

def event (level : Log.Level) (message : String) (fields : List (String × Log.FieldValue)) : Event :=
  { level, target := Log.commandTarget, message, fields }

/-- The event that tells the rules of the command line. -/
def flagsEvent (flags : List RuleFlag) : Event :=
  event .debug "command line continuation rules" [
    ("stop_before", .plain (Text.shownList ((flagged .before flags).map Text.quoted))),
    ("stop_after", .plain (Text.shownList ((flagged .after flags).map Text.quoted)))]

/-- The warning of a name that belongs to no pass. -/
def unknownNameEvent (name : String) : Event :=
  event .warn "continuation rule names no known pass" [("pass", .plain name)]

/-- The warning of a plan without passes. -/
def emptyPlanEvent : Event :=
  event .warn "continuation rules leave no pass to run" []

/-- The event of a plan that is about to be shown. -/
def readyEvent (p : Plan) : Event :=
  event .info "plan ready" [
    ("single_file", .count p.singleFile.length), ("fileset", .count p.fileSet.length)]

/-! ### The run -/

/-- The result of a run before its output is put together: the events, logged or
not, and the plan or the failure. -/
structure Attempt where
  events : List Event
  result : Except CommandError Plan

/-- Plans by a configuration and the rules of the command line. -/
def planWith (fileConfig : PassConfig) (flags : List RuleFlag) : Attempt :=
  let c := withFlags fileConfig flags
  let before := flagsEvent flags :: (unknownNames c).map unknownNameEvent
  match (Settings.ofConfig c).assemble with
  | (.error e, events) => { events := before ++ events, result := .error (.noPlan e) }
  | (.ok p, events) =>
    { events := before ++ events ++ (if p.isEmpty then [emptyPlanEvent] else []) ++ [readyEvent p]
      result := .ok p }

/-- Reads the configuration and plans. -/
def attempt (a : Arguments) (content : String → Content) (locate : Locator) : Attempt :=
  match readConfig a.config content locate with
  | .error e => { events := [], result := .error e }
  | .ok fileConfig => planWith fileConfig a.ruleFlags

/-- The plan as it is written in a format. -/
def OutputFormat.render (format : OutputFormat) (p : Plan) : String :=
  match format with
  | .text => p.text
  | .json => p.tree.lines ++ "\n"

/-- Each of the lines with its end. -/
def asLines (lines : List String) : String :=
  String.join (lines.map (· ++ "\n"))

/-- The line of a failure. -/
def errorLine (e : CommandError) : String :=
  "Error: " ++ e.message

/-- A failure behind these log lines. -/
def failure (logged : List String) (e : CommandError) : Outcome :=
  { code := 1, stdout := "", stderr := asLines (logged ++ [errorLine e]) }

/-- Shows the plan that the arguments ask for. -/
def Arguments.run (a : Arguments) (content : String → Content) (locate : Locator) : Outcome :=
  match logConfig a with
  | .error e => failure [] e
  | .ok levels =>
    let tried := attempt a content locate
    let logged := (tried.events.filter fun e => levels.filter.enables e.target e.level).map
      a.logFormat.line
    match tried.result with
    | .error e => failure logged e
    | .ok p => { code := 0, stdout := a.output.render p, stderr := asLines logged }

/-! ### Whole command lines -/

def versionText : String :=
  Log.programName ++ " 0.1.0\n"

def helpText : String :=
  asLines [
    "Stencil template compiler - show the pass pipeline for a configuration",
    "",
    "Usage: stencil [OPTIONS] [CONFIG]",
    "",
    "Arguments:",
    "  [CONFIG]  Pass configuration file (JSON); defaults are used when omitted",
    "",
    "Options:",
    "      --stop-before <PASS>       Halt assembly before the named pass (repeatable)",
    "      --stop-after <PASS>        Halt assembly after the named pass (repeatable)",
    "      --output <OUTPUT>          Plan output format [default: text] [possible values: text, json]",
    "      --log-level <LOG_LEVEL>    Global log level: error, warn, info, debug, trace [default: warn]",
    "      --log-phase <PHASE=LEVEL>  Per-phase log level override, e.g. `assembly=trace` (repeatable)",
    "      --log-format <LOG_FORMAT>  Log output format [default: compact] [possible values: pretty, compact, json]",
    "  -h, --help                     Print help",
    "  -V, --version                  Print version"]

def refusal (e : UsageError) : Outcome :=
  { code := 2, stdout := ""
    stderr := asLines ["error: " ++ e.message, "", "Usage: stencil [OPTIONS] [CONFIG]", "",
      "For more information, try '--help'."] }

/-- What the program does with its arguments, given what stands under each path. -/
def command (args : List String) (content : String → Content)
    (locate : Locator := .silent) : Outcome :=
  match Invocation.ofArgs args with
  | .error e => refusal e
  | .ok .help => { code := 0, stdout := helpText, stderr := "" }
  | .ok .version => { code := 0, stdout := versionText, stderr := "" }
  | .ok (.plan a) => a.run content locate

/-- The path of the file that the arguments ask for. -/
def configPath? (args : List String) : Option String :=
  match Invocation.ofArgs args with
  | .ok (.plan a) => a.config
  | _ => none

end Cli
end TemplatePasses
