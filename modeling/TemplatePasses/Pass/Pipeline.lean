/-
# Passes and pipelines

A pass has a name, a description and what it does: to one file (`FilePass`), or
to all files, knowing the index of templates (`FileSetPass`). A pass over all
files ends with a signal, and the signal to stop ends the run. Passes over one
file always run all.

Key definitions: `FilePass`, `FileSetPass`, `Pipeline.runFile`,
`Pipeline.runFileSet`, `builtinPass?`.
-/
import TemplatePasses.Pass.Work
import TemplatePasses.Plan.Basic
import TemplatePasses.Template.Simplify
import TemplatePasses.Text.Shown

namespace TemplatePasses

open Log (Event LogPhase)

/-- Whether the next pass runs. -/
inductive Signal where
  | goOn
  | stop
deriving DecidableEq, Repr

def Signal.name : Signal → String
  | .goOn => "CONTINUE"
  | .stop => "STOP"

/-- What passes say of themselves that say nothing. -/
def undescribed : String := "(undocumented pass)"

/-- A pass over one file. -/
structure FilePass where
  name : String
  description : String := undescribed
  work : SourceFile → Work SourceFile

/-- A pass over all files. -/
structure FileSetPass where
  name : String
  description : String := undescribed
  work : TemplateIndex → List SourceFile → Work (List SourceFile × Signal)

/-! ### The passes that come with the pipeline -/

namespace FileSetPass

/-- A pass that maps the files, reports nothing and goes on. -/
def ofMap (role : FileSetRole) (description : String)
    (change : List SourceFile → List SourceFile) : FileSetPass where
  name := role.name
  description
  work _ files := pure (change files, .goOn)

/-- Turns tags into raw text. -/
def desugar : FileSetPass :=
  ofMap .desugarHtmlNodes "Replace html tag nodes with raw text" desugarFiles

/-- Makes neighbouring raw texts one. -/
def combine : FileSetPass :=
  ofMap .combineConsecutiveRawTextNodes "Merge adjacent raw text nodes" combineFiles

end FileSetPass

/-- The pass of a role that comes with the pipeline. -/
def builtinPass? : FileSetRole → Option FileSetPass
  | .desugarHtmlNodes => some .desugar
  | .combineConsecutiveRawTextNodes => some .combine
  | _ => none

/-! ### Running passes -/

/-- The event that a pass starts on a file. -/
def startOnFileEvent (pass path : String) : Event :=
  { level := .trace, target := LogPhase.singleFile.target, message := "running pass",
    fields := [("pass", .text pass), ("file", .plain path)] }

/-- The event that a pass starts on so many files. -/
def startOnSetEvent (pass : String) (files : Nat) : Event :=
  { level := .trace, target := LogPhase.fileSet.target, message := "running pass",
    fields := [("pass", .text pass), ("files", .count files)] }

/-- The event that a pass has ended the run. -/
def stopEvent (pass : String) : Event :=
  { level := .debug, target := LogPhase.fileSet.target, message := "pass requested stop",
    fields := [("pass", .text pass)] }

/-- Runs passes over a file, all of them in order. -/
def runFilePasses : List FilePass → SourceFile → Session → SourceFile × Session
  | [], file, s => (file, s)
  | pass :: rest, file, s =>
    let (file', s') := (pass.work file).run (s.emit (startOnFileEvent pass.name file.path))
    runFilePasses rest file' s'

/-- What a run over all files leaves. -/
structure SetRun where
  files : List SourceFile
  signal : Signal
  session : Session

/-- Runs passes over all files in order, up to the first that signals to stop. -/
def runFileSetPasses (index : TemplateIndex) :
    List FileSetPass → List SourceFile → Session → SetRun
  | [], files, s => ⟨files, .goOn, s⟩
  | pass :: rest, files, s =>
    let ((files', signal), s') :=
      (pass.work index files).run (s.emit (startOnSetEvent pass.name files.length))
    match signal with
    | .goOn => runFileSetPasses index rest files' s'
    | .stop => ⟨files', .stop, s'.emit (stopEvent pass.name)⟩

/-- The passes of both kinds, ready to run. -/
structure Pipeline where
  filePasses : List FilePass
  fileSetPasses : List FileSetPass

namespace Pipeline

def filePassNames (p : Pipeline) : List String :=
  p.filePasses.map (·.name)

def fileSetPassNames (p : Pipeline) : List String :=
  p.fileSetPasses.map (·.name)

def runFile (p : Pipeline) (file : SourceFile) (s : Session) : SourceFile × Session :=
  runFilePasses p.filePasses file s

/-- Runs the passes over one file on each of the files in turn. -/
def runEachFile (p : Pipeline) : List SourceFile → Session → List SourceFile × Session
  | [], s => ([], s)
  | file :: rest, s =>
    let (file', s') := p.runFile file s
    let (rest', s'') := p.runEachFile rest s'
    (file' :: rest', s'')

def runFileSet (p : Pipeline) (index : TemplateIndex) (files : List SourceFile) (s : Session) :
    SetRun :=
  runFileSetPasses index p.fileSetPasses files s

def shown (p : Pipeline) : String :=
  Text.shownRecord "Pipeline" [
    ("single_file_passes", Text.shownList (p.filePassNames.map Text.quoted)),
    ("cross_template_checking_passes", Text.shownList (p.fileSetPassNames.map Text.quoted))]

end Pipeline
end TemplatePasses
