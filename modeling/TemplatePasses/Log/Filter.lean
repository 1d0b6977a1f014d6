/-
# Which events are logged

A `LogConfig` has one level for everything and may set a level of its own for
each phase. It is turned into a filter: a list of targets with a level each.
The longest of these that an event's target begins with decides, and for other
targets the level for everything.

Key definitions: `LogConfig`, `LogConfig.levelFor`, `Override.ofText?`,
`LogConfig.filter`, `Filter.enables`.
-/
import TemplatePasses.Log.Event

namespace TemplatePasses.Log

/-- The levels of the log. -/
structure LogConfig where
  /-- The level for everything without a level of its own. -/
  overall : Level := .warn
  assembly : Option Level := none
  singleFile : Option Level := none
  fileSet : Option Level := none
deriving DecidableEq, Repr

namespace LogConfig

/-- The level that a phase has of its own. -/
def own (c : LogConfig) : LogPhase → Option Level
  | .assembly => c.assembly
  | .singleFile => c.singleFile
  | .fileSet => c.fileSet

def levelFor (c : LogConfig) (p : LogPhase) : Level :=
  (c.own p).getD c.overall

/-- The levels with this one for a phase. -/
def set (c : LogConfig) (p : LogPhase) (level : Level) : LogConfig :=
  match p with
  | .assembly => { c with assembly := some level }
  | .singleFile => { c with singleFile := some level }
  | .fileSet => { c with fileSet := some level }

end LogConfig

/-- A phase and the level that it gets. -/
structure Override where
  phase : LogPhase
  level : Level
deriving DecidableEq, Repr

/-- The characters before the first equals sign and those behind it. -/
def splitAtEquals : List Char → Option (List Char × List Char)
  | [] => none
  | c :: cs =>
    if c = '=' then some ([], cs)
    else (splitAtEquals cs).map fun (before, behind) => (c :: before, behind)

/-- The override that an option spells: a phase, an equals sign and a level. -/
def Override.ofText? (text : String) : Option Override := do
  let (phase, level) ← splitAtEquals text.toList
  let p ← LogPhase.ofName? (String.ofList phase)
  let l ← Level.ofText? (String.ofList level)
  some ⟨p, l⟩

/-- The levels with an override applied. -/
def LogConfig.apply (c : LogConfig) (o : Override) : LogConfig :=
  c.set o.phase o.level

/-- A level for everything and levels for targets. -/
structure Filter where
  fallback : Level
  targets : List (String × Level)
deriving DecidableEq, Repr

namespace Filter

/-- Whether a target begins with the text of a directive. -/
def covers (directive target : String) : Bool :=
  directive.toList.isPrefixOf target.toList

/-- The longer of two directives; of equally long ones the first. -/
def longer (a b : String × Level) : String × Level :=
  if a.1.length < b.1.length then b else a

/-- The longest directive that covers a target. -/
def deciding? (f : Filter) (target : String) : Option (String × Level) :=
  (f.targets.filter fun d => covers d.1 target).foldl
    (fun best d => some (match best with
      | some b => longer b d
      | none => d)) none

/-- The level up to which events of a target are logged. -/
def levelOf (f : Filter) (target : String) : Level :=
  match f.deciding? target with
  | some d => d.2
  | none => f.fallback

/-- Whether an event of this target and level is logged. -/
def enables (f : Filter) (target : String) (level : Level) : Bool :=
  level.verbosity ≤ (f.levelOf target).verbosity

end Filter

/-- The filter of a log configuration. The command line has the level for
everything. -/
def LogConfig.filter (c : LogConfig) : Filter where
  fallback := c.overall
  targets := LogPhase.all.map (fun p => (p.target, c.levelFor p)) ++ [(commandTarget, c.overall)]

end TemplatePasses.Log
