/-
# What a pass may do

A pass changes the trees that it is given; beyond that it can only ask for
fresh ids, report problems, ask how many problems have been reported, and write
notes. A `Work α` is a program of such requests that ends with an `α`, and
`Work.run` carries it out in a `Session`. So a pass cannot put ids back, take a
report back, or touch the log.

Key definitions: `Work`, `Session`, `Work.run`.
-/
import TemplatePasses.Resources
import TemplatePasses.Template.Index
import TemplatePasses.Log.Event

namespace TemplatePasses

/-- What a pass writes down about its own run. -/
inductive Note where
  /-- It has started on the file at this path. -/
  | startedOnFile (pass path : String)
  /-- It has started on so many files. -/
  | startedOnSet (pass : String) (files : Nat)
  /-- It has drawn an id. -/
  | drew (id : NodeId)
  /-- It has looked a template up. -/
  | lookedUp (name : String) (entry : Option TemplateEntry)
deriving DecidableEq, Repr

/-- A program of requests that ends with an `α`. -/
inductive Work (α : Type) where
  | done (result : α)
  /-- Asks for a fresh id. -/
  | freshId (next : NodeId → Work α)
  /-- Reports a problem. -/
  | report (problem : Diagnostic) (next : Work α)
  /-- Asks how many problems have been reported. -/
  | problemCount (next : Nat → Work α)
  | note (entry : Note) (next : Work α)

/-- The surroundings of a run. -/
structure Session where
  ids : IdSource := {}
  /-- The ids drawn so far. -/
  drawn : List NodeId := []
  reporter : Reporter := {}
  notes : List Note := []
  log : List Log.Event := []
deriving DecidableEq, Repr

namespace Session

def draw (s : Session) : NodeId × Session :=
  let (id, ids) := s.ids.draw
  (id, { s with ids, drawn := s.drawn ++ [id] })

def report (s : Session) (problem : Diagnostic) : Session :=
  { s with reporter := s.reporter.report problem }

def note (s : Session) (entry : Note) : Session :=
  { s with notes := s.notes ++ [entry] }

def emit (s : Session) (event : Log.Event) : Session :=
  { s with log := s.log ++ [event] }

end Session

namespace Work

variable {α β : Type}

/-- Goes on with another program. -/
def bind (next : α → Work β) : Work α → Work β
  | done result => next result
  | freshId k => freshId fun id => (k id).bind next
  | report problem k => report problem (k.bind next)
  | problemCount k => problemCount fun count => (k count).bind next
  | note entry k => note entry (k.bind next)

instance : Monad Work where
  pure := done
  bind w next := w.bind next

def draw : Work NodeId :=
  freshId done

def say (problem : Diagnostic) : Work Unit :=
  report problem (done ())

def write (entry : Note) : Work Unit :=
  note entry (done ())

/-- Carries the program out. -/
def run : Work α → Session → α × Session
  | done result, s => (result, s)
  | freshId next, s =>
    let (id, behind) := s.draw
    (next id).run behind
  | report problem next, s => next.run (s.report problem)
  | problemCount next, s => (next s.reporter.count).run s
  | note entry next, s => next.run (s.note entry)

end Work
end TemplatePasses
