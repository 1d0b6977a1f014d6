/-
# Scripted passes

A script describes passes by data: what each role's pass is called, whether it
stops the run, what it reports, and a list of actions on the trees. It stands
in for real passes where only the order and the effects of a run matter.

A pass notes that it has started, reports its problem, and then acts; a pass
over all files may go on with the pass of its role that comes with the pipeline.

Key definitions: `Action`, `Script`, `Script.factory`.
-/
import TemplatePasses.Pass.Build

namespace TemplatePasses

/-- A node to be added, before it has an id. -/
inductive NodeShape where
  | rawText (text : String)
  | htmlTag (name : String) (closing : Bool)
  | print (expr : String)
  | call (callee : String)
deriving DecidableEq, Repr

def NodeShape.node (id : NodeId) : NodeShape → Node
  | .rawText text => .rawText id text
  | .htmlTag name closing => .htmlTag id name closing
  | .print expr => .print id expr
  | .call callee => .call id callee

/-- An action of a scripted pass. Templates are counted over all files that the
pass sees; an action on a template that is not there does nothing, and neither
does an action that is not for passes of this kind. -/
inductive Action where
  /-- Draws an id and notes it. -/
  | draw
  /-- Adds a node at the end of a body. -/
  | append (template : Nat) (shape : NodeShape)
  /-- Keeps so many nodes of a body. -/
  | truncate (template : Nat) (length : Nat)
  /-- Turns a body around. -/
  | reverse (template : Nat)
  /-- Adds an empty template to the file. -/
  | addTemplate (name : String)
  /-- Looks a template up and notes the answer. -/
  | lookUp (name : String)
  /-- Adds a file with one empty template. -/
  | addFile (path name : String)
  /-- Removes all files. -/
  | clear
deriving DecidableEq, Repr

/-! ### Editing the template at a place -/

/-- The templates with the one at a place changed. -/
def editTemplate (f : Template → Template) : Nat → List Template → List Template
  | _, [] => []
  | 0, t :: rest => f t :: rest
  | place + 1, t :: rest => t :: editTemplate f place rest

/-- The files with the template at a place changed; the places go through all
files. -/
def editInFiles (f : Template → Template) : Nat → List SourceFile → List SourceFile
  | _, [] => []
  | place, file :: rest =>
    if place < file.templates.length then
      { file with templates := editTemplate f place file.templates } :: rest
    else file :: editInFiles f (place - file.templates.length) rest

def templateCount (files : List SourceFile) : Nat :=
  files.foldl (fun count file => count + file.templates.length) 0

namespace Action

/-- The actions that passes of both kinds have, on files of any number. -/
def edit (files : List SourceFile) : Action → Work (List SourceFile)
  | .draw => do
    let id ← Work.draw
    Work.write (.drew id)
    pure files
  | .append place shape =>
    if place < templateCount files then do
      let id ← Work.draw
      pure (editInFiles (·.mapBody (· ++ [shape.node id])) place files)
    else pure files
  | .truncate place length => pure (editInFiles (·.mapBody (·.take length)) place files)
  | .reverse place => pure (editInFiles (·.mapBody List.reverse) place files)
  | .addTemplate _ | .lookUp _ | .addFile _ _ | .clear => pure files

/-- What an action does to a single file. -/
def onFile (file : SourceFile) : Action → Work SourceFile
  | .addTemplate name => do
    let id ← Work.draw
    pure { file with templates := file.templates ++ [{ id, name }] }
  | action => do
    let files ← action.edit [file]
    pure (files.headD file)

/-- What an action does to all files. -/
def onFileSet (index : TemplateIndex) (files : List SourceFile) : Action → Work (List SourceFile)
  | .lookUp name => do
    Work.write (.lookedUp name (index.find? name))
    pure files
  | .addFile path name => do
    let id ← Work.draw
    pure (files ++ [{ path, templates := [{ id, name }] }])
  | .clear => pure []
  | action => action.edit files

end Action

/-- What scripted passes do. Everything is kept under the names of the roles. -/
structure Script where
  /-- What a pass is called, if not by its role. -/
  names : NameMap String := .empty
  /-- The passes over all files that stop the run. -/
  stops : NameSet := .empty
  /-- Whether the passes that come with the pipeline run too. -/
  builtins : Bool := false
  /-- What every pass reports. -/
  reportOfAll : Option String := none
  /-- What single passes report instead. -/
  reports : NameMap String := .empty
  actions : NameMap (List Action) := .empty
deriving DecidableEq

namespace Script

def passName (s : Script) (role : String) : String :=
  (s.names.find? role).getD role

def actionsOf (s : Script) (role : String) : List Action :=
  (s.actions.find? role).getD []

/-- Reports the problem that a role's pass has, if any. -/
def complain (s : Script) (role file : String) : Work Unit :=
  match (s.reports.find? role).or s.reportOfAll with
  | some message => Work.say { pass := s.passName role, file, message }
  | none => pure ()

/-- The file that passes over all files name in their reports. -/
def everyFile : String := "*"

/-- Goes on with the pass that comes with the pipeline, if the script says so. -/
def goOnWithBuiltin (s : Script) (role : FileSetRole) (index : TemplateIndex)
    (files : List SourceFile) : Work (List SourceFile) :=
  match s.builtins, builtinPass? role with
  | true, some builtin => do
    let (files, _) ← builtin.work index files
    pure files
  | _, _ => pure files

def filePass (s : Script) (role : FileRole) : FilePass where
  name := s.passName role.name
  work file := do
    Work.write (.startedOnFile (s.passName role.name) file.path)
    s.complain role.name file.path
    (s.actionsOf role.name).foldlM Action.onFile file

def fileSetPass (s : Script) (role : FileSetRole) : FileSetPass where
  name := s.passName role.name
  work index files := do
    Work.write (.startedOnSet (s.passName role.name) files.length)
    s.complain role.name everyFile
    let files ← (s.actionsOf role.name).foldlM (Action.onFileSet index) files
    let files ← s.goOnWithBuiltin role index files
    pure (files, if s.stops.contains role.name then .stop else .goOn)

def factory (s : Script) : Factory where
  filePass role _ := s.filePass role
  fileSetPass role _ := s.fileSetPass role

end Script
end TemplatePasses
