/-
# Command line arguments

The command line takes at most one configuration file and a number of options.
An option's value stands behind an equals sign or is the next argument, which
then must not look like an option itself. `--` ends the options. Rules and phase
levels may be given any number of times, other options once.

The rules of the two options are gathered apart, each with its place on the command
line, and put together by their places.

Key definitions: `Arguments`, `Occurrences`, `ruleFlags`, `Invocation.ofArgs`.
-/
import TemplatePasses.Config.Basic

namespace TemplatePasses.Cli

/-- How the plan is written. -/
inductive OutputFormat where
  | text
  | json
deriving DecidableEq, Repr

/-- How log events are written. -/
inductive LogFormat where
  | pretty
  | compact
  | json
deriving DecidableEq, Repr

def OutputFormat.named : List (String × OutputFormat) :=
  [("text", .text), ("json", .json)]

def LogFormat.named : List (String × LogFormat) :=
  [("pretty", .pretty), ("compact", .compact), ("json", .json)]

/-- A rule given on the command line. -/
structure RuleFlag where
  pass : String
  rule : StopRule
deriving DecidableEq, Repr

/-- What the command line asks for. -/
structure Arguments where
  /-- The path of the configuration file. -/
  config : Option String := none
  /-- The rules in the order of the command line. -/
  ruleFlags : List RuleFlag := []
  output : OutputFormat := .text
  logLevel : String := "warn"
  logPhases : List String := []
  logFormat : LogFormat := .compact
deriving DecidableEq, Repr

/-- The options that take a value. -/
inductive ValueOption where
  | stop (rule : StopRule)
  | output
  | logLevel
  | logPhase
  | logFormat
deriving DecidableEq, Repr

/-- The name of an option, without its dashes. -/
def ValueOption.name : ValueOption → String
  | .stop .before => "stop-before"
  | .stop .after => "stop-after"
  | .output => "output"
  | .logLevel => "log-level"
  | .logPhase => "log-phase"
  | .logFormat => "log-format"

def ValueOption.all : List ValueOption :=
  [.stop .before, .stop .after, .output, .logLevel, .logPhase, .logFormat]

def ValueOption.ofName? (name : String) : Option ValueOption :=
  all.find? (·.name = name)

/-- Why a command line is refused. -/
inductive UsageError where
  | unknownArgument (argument : String)
  | missingValue (option : ValueOption)
  | unwantedValue (name : String)
  | repeated (option : ValueOption)
  | badValue (option : ValueOption) (value : String)
  | emptyConfig
deriving DecidableEq, Repr

def UsageError.message : UsageError → String
  | .unknownArgument argument => "unexpected argument '" ++ argument ++ "' found"
  | .missingValue option => "a value is required for '--" ++ option.name ++ "' but none was supplied"
  | .unwantedValue name => "unexpected value for '--" ++ name ++ "' found; no more were expected"
  | .repeated option => "the argument '--" ++ option.name ++ "' cannot be used multiple times"
  | .badValue option value => "invalid value '" ++ value ++ "' for '--" ++ option.name ++ "'"
  | .emptyConfig => "a value is required for '[CONFIG]' but none was supplied"

/-- The values of an option that may be given again, and their places on the command
line beside them. -/
structure Occurrences where
  values : List String := []
  places : List Nat := []
deriving DecidableEq, Repr

namespace Occurrences

/-- The occurrences with one more at the end. -/
def add (o : Occurrences) (place : Nat) (value : String) : Occurrences where
  values := o.values ++ [value]
  places := o.places ++ [place]

/-- The rules that an option gives, with their places. -/
def rules (o : Occurrences) (rule : StopRule) : List (Nat × RuleFlag) :=
  (o.places.zip o.values).map fun (place, pass) => (place, ⟨pass, rule⟩)

end Occurrences

/-- The rules of both options in the order of the command line. -/
def ruleFlags (stopBefore stopAfter : Occurrences) : List RuleFlag :=
  let rules := stopBefore.rules .before ++ stopAfter.rules .after
  (rules.mergeSort fun a b => a.1 ≤ b.1).map (·.2)

/-- Arguments while they are read: what may be given once has no default yet. -/
structure Draft where
  config : Option String := none
  stopBefore : Occurrences := {}
  stopAfter : Occurrences := {}
  output : Option OutputFormat := none
  logLevel : Option String := none
  logPhases : List String := []
  logFormat : Option LogFormat := none
  /-- The number of places that have been read. An option takes one and its value
  the next, also behind an equals sign. -/
  place : Nat := 0
deriving DecidableEq, Repr

namespace Draft

/-- The arguments, with defaults for what was not given. -/
def finish (d : Draft) : Arguments where
  config := d.config
  ruleFlags := ruleFlags d.stopBefore d.stopAfter
  output := d.output.getD .text
  logLevel := d.logLevel.getD "warn"
  logPhases := d.logPhases
  logFormat := d.logFormat.getD .compact

/-- The value of an option that may be given once: it must not have one yet. -/
def once {α : Type} (option : ValueOption) (given : Option α) (value : Except UsageError α) :
    Except UsageError (Option α) :=
  match given with
  | some _ => .error (.repeated option)
  | none => some <$> value

def choose {α : Type} (option : ValueOption) (named : List (String × α)) (value : String) :
    Except UsageError α :=
  match named.lookup value with
  | some format => .ok format
  | none => .error (.badValue option value)

/-- The draft with the value of an option. -/
def set (d : Draft) (option : ValueOption) (value : String) : Except UsageError Draft :=
  let place := d.place + 2
  match option with
  | .stop .before => .ok { d with stopBefore := d.stopBefore.add place value, place }
  | .stop .after => .ok { d with stopAfter := d.stopAfter.add place value, place }
  | .logPhase => .ok { d with logPhases := d.logPhases ++ [value], place }
  | .logLevel => do
    let logLevel ← once option d.logLevel (.ok value)
    .ok { d with logLevel, place }
  | .output => do
    let output ← once option d.output (choose option OutputFormat.named value)
    .ok { d with output, place }
  | .logFormat => do
    let logFormat ← once option d.logFormat (choose option LogFormat.named value)
    .ok { d with logFormat, place }

/-- The draft with the configuration file, of which there is at most one. -/
def setConfig (d : Draft) (path : String) : Except UsageError Draft :=
  match d.config with
  | some _ => .error (.unknownArgument path)
  | none =>
    if path.isEmpty then .error .emptyConfig
    else .ok { d with config := some path, place := d.place + 1 }

end Draft

/-- What the program is to do. -/
inductive Invocation where
  | help
  | version
  | plan (arguments : Arguments)
deriving DecidableEq, Repr

/-- The kinds of arguments. -/
inductive Shape where
  /-- Two dashes, which end the options. -/
  | endOfOptions
  /-- An option by its name, with the value behind an equals sign. -/
  | long (name : String) (value : Option String)
  /-- A dash and letters; the first one counts. -/
  | short (letter : Char)
  /-- Anything else, a single dash included. -/
  | value

/-- A name and the value behind the first equals sign. -/
def splitValue (cs : List Char) : String × Option String :=
  match cs.dropWhile (· ≠ '=') with
  | [] => (String.ofList cs, none)
  | _ :: value => (String.ofList (cs.takeWhile (· ≠ '=')), some (String.ofList value))

/-- The kind of an argument. -/
def Shape.of (argument : String) : Shape :=
  match argument.toList with
  | ['-', '-'] => .endOfOptions
  | '-' :: '-' :: rest =>
    let (name, given) := splitValue rest
    .long name given
  | '-' :: letter :: _ => .short letter
  | _ => .value

/-- Whether an argument can be the value of the option before it. -/
def isSeparateValue (argument : String) : Bool :=
  match Shape.of argument with
  | .value => true
  | .endOfOptions | .long .. | .short _ => false

namespace Invocation

/-- Reads the arguments behind the end of the options. -/
def ofPaths (d : Draft) : List String → Except UsageError Invocation
  | [] => .ok (.plan d.finish)
  | path :: rest => do ofPaths (← d.setConfig path) rest

/-- Reads the arguments after those that have gone into the draft. -/
def ofRest (d : Draft) : List String → Except UsageError Invocation
  | [] => .ok (.plan d.finish)
  | argument :: rest =>
    match Shape.of argument with
    | .endOfOptions => ofPaths d rest
    | .value => do ofRest (← d.setConfig argument) rest
    | .short 'h' => .ok .help
    | .short 'V' => .ok .version
    | .short _ => .error (.unknownArgument argument)
    | .long name value =>
      match ValueOption.ofName? name, value with
      | some option, some value => do ofRest (← d.set option value) rest
      | some option, none =>
        match rest with
        | [] => .error (.missingValue option)
        | value :: rest =>
          if isSeparateValue value then do ofRest (← d.set option value) rest
          else .error (.missingValue option)
      | none, value =>
        if name = "help" then
          if value.isSome then .error (.unwantedValue name) else .ok .help
        else if name = "version" then
          if value.isSome then .error (.unwantedValue name) else .ok .version
        else .error (.unknownArgument argument)

def ofArgs (args : List String) : Except UsageError Invocation :=
  ofRest {} args

end Invocation
end TemplatePasses.Cli
