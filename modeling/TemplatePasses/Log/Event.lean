/-
# Log events

An event has a level, a target (the part of the program it comes from), a
message and named fields. The parts of the program that plan and run passes are
the three phases of `LogPhase`; each has its own target.

Key definitions: `Event`, `LogPhase.target`.
-/
import TemplatePasses.Log.Level

namespace TemplatePasses.Log

/-- The parts of the program with a level of their own. -/
inductive LogPhase where
  /-- Putting a plan together. -/
  | assembly
  /-- Running passes over one file. -/
  | singleFile
  /-- Running passes over the whole set of files. -/
  | fileSet
deriving DecidableEq, Repr

/-- The name under which this program's events are logged. -/
def programName : String := "stencil"

/-- The target of a part of the program. -/
def targetOf (part : String) : String :=
  programName ++ "::" ++ part

def commandTarget : String :=
  targetOf "cli"

namespace LogPhase

def all : List LogPhase :=
  [.assembly, .singleFile, .fileSet]

def name : LogPhase → String
  | .assembly => "assembly"
  | .singleFile => "single_file"
  | .fileSet => "fileset"

def target (p : LogPhase) : String :=
  targetOf p.name

def ofName? (name : String) : Option LogPhase :=
  all.find? (·.name = name)

end LogPhase

/-- The value of a field. -/
inductive FieldValue where
  /-- A text, between quotes where lines are read by people. -/
  | text (s : String)
  /-- A text that is shown as it is. -/
  | plain (s : String)
  | count (n : Nat)
deriving DecidableEq, Repr

/-- A log event. -/
structure Event where
  level : Level
  target : String
  message : String
  fields : List (String × FieldValue)
deriving DecidableEq, Repr

end TemplatePasses.Log
