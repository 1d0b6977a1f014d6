/-
# The history of a run

What a pipeline does to a set of files is a sequence of single runs of passes:
the passes over one file on the files at some places, one file after the other,
and then the passes over all files, up to the first that signals to stop. The
history (`Pipeline.history`) lists these runs, each with the pass, what it was
run on, and the problems that it has reported. The log and the reporter hold
this history and nothing else: the log gains one event for each run, and one
more for a stop; the reporter gains the reports of the runs in their order.

Key definitions: `Work.reports`, `PassRun`, `fileRuns`, `setRuns`,
`Pipeline.runPlaces`, `Pipeline.runAll`, `Pipeline.history`.
Key theorems: `Work.diagnostics_run`, `Pipeline.log_runAll`,
`Pipeline.diagnostics_runAll`, `Pipeline.runEachFile_eq_runPlaces`.
-/
import TemplatePasses.Proofs.Running

namespace TemplatePasses

open Log (Event)

namespace Work

variable {α : Type}

/-- The problems that a program reports, the first one first. -/
def reports : Work α → Session → List Diagnostic
  | done _, _ => []
  | freshId next, s => (next s.draw.1).reports s.draw.2
  | report problem next, s => problem :: next.reports (s.report problem)
  | problemCount next, s => (next s.reporter.count).reports s
  | note entry next, s => next.reports (s.note entry)

/-- A program has no access to the log. -/
theorem log_run : ∀ (w : Work α) (s : Session), (w.run s).2.log = s.log
  | done _, _ => rfl
  | freshId next, s => log_run (next s.draw.1) s.draw.2
  | report problem next, s => log_run next (s.report problem)
  | problemCount next, s => log_run (next s.reporter.count) s
  | note entry next, s => log_run next (s.note entry)

/-- **No report is lost, and none changes its place.** -/
theorem diagnostics_run : ∀ (w : Work α) (s : Session),
    (w.run s).2.reporter.diagnostics = s.reporter.diagnostics ++ w.reports s
  | done _, s => (List.append_nil s.reporter.diagnostics).symm
  | freshId next, s => diagnostics_run (next s.draw.1) s.draw.2
  | report problem next, s => by
    have ih := diagnostics_run next (s.report problem)
    show (next.run (s.report problem)).2.reporter.diagnostics = _
    rw [ih, reports, Session.report, Reporter.report, List.append_assoc, List.singleton_append]
  | problemCount next, s => diagnostics_run (next s.reporter.count) s
  | note entry next, s => diagnostics_run next (s.note entry)

end Work

/-! ### Single runs -/

/-- What a pass is run on. -/
inductive Subject where
  | file (file : SourceFile)
  | set (files : List SourceFile)

/-- A pass that has run. -/
structure PassRun where
  /-- The name of the pass. -/
  pass : String
  subject : Subject
  reported : List Diagnostic

namespace PassRun

/-- Which pass has run, and on what. -/
def start (r : PassRun) : String × Subject :=
  (r.pass, r.subject)

/-- The event with which a run begins. -/
def event (r : PassRun) : Event :=
  match r.subject with
  | .file file => startOnFileEvent r.pass file.path
  | .set files => startOnSetEvent r.pass files.length

end PassRun

/-- A pass over one file run on its own. -/
def FilePass.runOn (pass : FilePass) (file : SourceFile) (s : Session) : SourceFile × Session :=
  (pass.work file).run (s.emit (startOnFileEvent pass.name file.path))

/-- The entry of a pass over one file. -/
def FilePass.entry (pass : FilePass) (file : SourceFile) (s : Session) : PassRun :=
  ⟨pass.name, .file file,
    (pass.work file).reports (s.emit (startOnFileEvent pass.name file.path))⟩

/-- The entry of a pass over all files. -/
def FileSetPass.entry (pass : FileSetPass) (index : TemplateIndex) (files : List SourceFile)
    (s : Session) : PassRun :=
  ⟨pass.name, .set files,
    (pass.work index files).reports (s.emit (startOnSetEvent pass.name files.length))⟩

/-- The runs of passes over one file. -/
def fileRuns : List FilePass → SourceFile → Session → List PassRun
  | [], _, _ => []
  | pass :: rest, file, s =>
    let left := pass.runOn file s
    pass.entry file s :: fileRuns rest left.1 left.2

/-- The runs of passes over all files, up to the first that signals to stop. -/
def setRuns (index : TemplateIndex) :
    List FileSetPass → List SourceFile → Session → List PassRun
  | [], _, _ => []
  | pass :: rest, files, s =>
    let left := pass.runOn index files s
    pass.entry index files s ::
      match left.signal with
      | .goOn => setRuns index rest left.files left.session
      | .stop => []

/-- The event of the stop with which these runs may have ended. -/
def stopEvents (runs : List PassRun) : Signal → List Event
  | .goOn => []
  | .stop => (runs.getLast?.map fun r => stopEvent r.pass).toList

/-- The last run is the one that has stopped, whatever came before. -/
theorem stopEvents_append (before : List PassRun) {runs : List PassRun} {signal : Signal}
    (h : signal = .stop → runs ≠ []) :
    stopEvents (before ++ runs) signal = stopEvents runs signal := by
  cases signal with
  | goOn => rfl
  | stop => rw [stopEvents, stopEvents, List.getLast?_append, List.getLast?_eq_some_getLast (h rfl)]; rfl

theorem runFilePasses_cons (pass : FilePass) (rest : List FilePass) (file : SourceFile)
    (s : Session) :
    runFilePasses (pass :: rest) file s =
      runFilePasses rest (pass.runOn file s).1 (pass.runOn file s).2 := rfl

/-! ### One file -/

theorem log_runFilePasses : ∀ (ps : List FilePass) (file : SourceFile) (s : Session),
    (runFilePasses ps file s).2.log = s.log ++ (fileRuns ps file s).map PassRun.event
  | [], _, s => (List.append_nil s.log).symm
  | pass :: ps, file, s => by
    have hpass : (pass.runOn file s).2.log = s.log ++ [startOnFileEvent pass.name file.path] :=
      Work.log_run _ _
    rw [runFilePasses_cons, log_runFilePasses ps, hpass, List.append_assoc]
    rfl

theorem diagnostics_runFilePasses : ∀ (ps : List FilePass) (file : SourceFile) (s : Session),
    (runFilePasses ps file s).2.reporter.diagnostics =
      s.reporter.diagnostics ++ (fileRuns ps file s).flatMap PassRun.reported
  | [], _, s => (List.append_nil s.reporter.diagnostics).symm
  | pass :: ps, file, s => by
    have hpass : (pass.runOn file s).2.reporter.diagnostics =
        s.reporter.diagnostics ++ (pass.entry file s).reported :=
      Work.diagnostics_run (pass.work file) (s.emit (startOnFileEvent pass.name file.path))
    rw [runFilePasses_cons, diagnostics_runFilePasses ps, hpass, List.append_assoc]
    rfl

/-! ### All files -/

section
variable (index : TemplateIndex)

theorem setRuns_cons (pass : FileSetPass) (rest : List FileSetPass) (files : List SourceFile)
    (s : Session) :
    setRuns index (pass :: rest) files s =
      pass.entry index files s ::
        match (pass.runOn index files s).signal with
        | .goOn =>
          setRuns index rest (pass.runOn index files s).files (pass.runOn index files s).session
        | .stop => [] := rfl

theorem setRuns_ne_nil_of_stop {ps : List FileSetPass} {files : List SourceFile} {s : Session}
    (h : (runFileSetPasses index ps files s).signal = .stop) : setRuns index ps files s ≠ [] := by
  cases ps with
  | nil => cases h
  | cons pass ps => rw [setRuns_cons]; exact List.cons_ne_nil _ _

theorem log_runFileSetPasses : ∀ (ps : List FileSetPass) (files : List SourceFile) (s : Session),
    (runFileSetPasses index ps files s).session.log =
      s.log ++ (setRuns index ps files s).map PassRun.event ++
        stopEvents (setRuns index ps files s) (runFileSetPasses index ps files s).signal
  | [], _, s => by simp [runFileSetPasses, setRuns, stopEvents]
  | pass :: ps, files, s => by
    have hpass : (pass.runOn index files s).session.log =
        s.log ++ [startOnSetEvent pass.name files.length] := Work.log_run _ _
    rw [runFileSetPasses_cons, setRuns_cons]
    cases hsignal : (pass.runOn index files s).signal with
    | stop =>
      simp only [Session.emit, hpass]
      rfl
    | goOn =>
      simp only
      rw [log_runFileSetPasses ps, hpass]
      have hlast := stopEvents_append [pass.entry index files s] fun hstop =>
        @setRuns_ne_nil_of_stop index ps (pass.runOn index files s).files
          (pass.runOn index files s).session hstop
      rw [List.singleton_append] at hlast
      rw [hlast, List.map_cons]
      simp only [List.append_assoc]
      rfl

theorem diagnostics_runFileSetPasses :
    ∀ (ps : List FileSetPass) (files : List SourceFile) (s : Session),
      (runFileSetPasses index ps files s).session.reporter.diagnostics =
        s.reporter.diagnostics ++ (setRuns index ps files s).flatMap PassRun.reported
  | [], _, s => (List.append_nil s.reporter.diagnostics).symm
  | pass :: ps, files, s => by
    have hpass : (pass.runOn index files s).session.reporter.diagnostics =
        s.reporter.diagnostics ++ (pass.entry index files s).reported :=
      Work.diagnostics_run (pass.work index files)
        (s.emit (startOnSetEvent pass.name files.length))
    rw [runFileSetPasses_cons, setRuns_cons]
    cases (pass.runOn index files s).signal with
    | stop =>
      simp only [List.flatMap_cons, List.flatMap_nil, List.append_nil]
      exact hpass
    | goOn =>
      simp only
      rw [diagnostics_runFileSetPasses ps, hpass, List.append_assoc, List.flatMap_cons]

end

/-! ### Files at places, then all of them -/

namespace Pipeline

/-- Runs the passes over one file on the files at these places in turn. -/
def runPlaces (p : Pipeline) :
    List Nat → List SourceFile → Session → List SourceFile × Session
  | [], files, s => (files, s)
  | place :: rest, files, s =>
    match files[place]? with
    | none => p.runPlaces rest files s
    | some file =>
      let left := p.runFile file s
      p.runPlaces rest (files.set place left.1) left.2

/-- The runs of the passes over one file on the files at these places. -/
def placeRuns (p : Pipeline) : List Nat → List SourceFile → Session → List PassRun
  | [], _, _ => []
  | place :: rest, files, s =>
    match files[place]? with
    | none => p.placeRuns rest files s
    | some file =>
      let left := p.runFile file s
      fileRuns p.filePasses file s ++ p.placeRuns rest (files.set place left.1) left.2

/-- Runs the passes over one file on the files at these places, and then the
passes over all files, with the index of the files as they then are. -/
def runAll (p : Pipeline) (index : List SourceFile → TemplateIndex) (places : List Nat)
    (files : List SourceFile) (s : Session) : SetRun :=
  let left := p.runPlaces places files s
  p.runFileSet (index left.1) left.1 left.2

/-- All runs of passes, in order. -/
def history (p : Pipeline) (index : List SourceFile → TemplateIndex) (places : List Nat)
    (files : List SourceFile) (s : Session) : List PassRun :=
  let left := p.runPlaces places files s
  p.placeRuns places files s ++ setRuns (index left.1) p.fileSetPasses left.1 left.2

/-- Running on each file is running on the files at all places in order. -/
theorem runEachFile_eq_runPlaces_of_done (p : Pipeline) :
    ∀ (files done : List SourceFile) (s : Session),
      p.runPlaces (List.range' done.length files.length) (done ++ files) s =
        (done ++ (p.runEachFile files s).1, (p.runEachFile files s).2)
  | [], _, _ => rfl
  | file :: files, done, s => by
    have hfile : (done ++ file :: files)[done.length]? = some file := by simp
    have hset : (done ++ file :: files).set done.length (p.runFile file s).1 =
        (done ++ [(p.runFile file s).1]) ++ files := by simp
    have ih := runEachFile_eq_runPlaces_of_done p files (done ++ [(p.runFile file s).1])
      (p.runFile file s).2
    rw [List.length_append, List.length_singleton] at ih
    rw [List.length_cons, List.range'_succ, runPlaces]
    simp only [hfile]
    rw [hset, ih, List.append_assoc]
    rfl

theorem runEachFile_eq_runPlaces (p : Pipeline) (files : List SourceFile) (s : Session) :
    p.runEachFile files s = p.runPlaces (List.range files.length) files s := by
  rw [List.range_eq_range']
  exact (runEachFile_eq_runPlaces_of_done p files [] s).symm

theorem log_runPlaces (p : Pipeline) :
    ∀ (places : List Nat) (files : List SourceFile) (s : Session),
      (p.runPlaces places files s).2.log =
        s.log ++ (p.placeRuns places files s).map PassRun.event
  | [], _, s => (List.append_nil s.log).symm
  | place :: rest, files, s => by
    rw [runPlaces, placeRuns]
    cases files[place]? with
    | none => exact log_runPlaces p rest files s
    | some file =>
      simp only
      rw [log_runPlaces p rest, runFile, log_runFilePasses, List.map_append, List.append_assoc]

theorem diagnostics_runPlaces (p : Pipeline) :
    ∀ (places : List Nat) (files : List SourceFile) (s : Session),
      (p.runPlaces places files s).2.reporter.diagnostics =
        s.reporter.diagnostics ++ (p.placeRuns places files s).flatMap PassRun.reported
  | [], _, s => (List.append_nil s.reporter.diagnostics).symm
  | place :: rest, files, s => by
    rw [runPlaces, placeRuns]
    cases files[place]? with
    | none => exact diagnostics_runPlaces p rest files s
    | some file =>
      simp only
      rw [diagnostics_runPlaces p rest, runFile, diagnostics_runFilePasses, List.flatMap_append,
        List.append_assoc]

variable (p : Pipeline) (index : List SourceFile → TemplateIndex) (places : List Nat)
  (files : List SourceFile) (s : Session)

/-- **The log gains the events of the history**, and one more if the run has
stopped. -/
theorem log_runAll :
    (p.runAll index places files s).session.log =
      s.log ++ ((p.history index places files s).map PassRun.event ++
        stopEvents (p.history index places files s) (p.runAll index places files s).signal) := by
  unfold runAll history runFileSet
  simp only
  rw [log_runFileSetPasses, log_runPlaces, stopEvents_append _ (setRuns_ne_nil_of_stop _),
    List.map_append]
  simp only [List.append_assoc]

/-- **The reporter gains the reports of the history.** -/
theorem diagnostics_runAll :
    (p.runAll index places files s).session.reporter.diagnostics =
      s.reporter.diagnostics ++ (p.history index places files s).flatMap PassRun.reported := by
  unfold runAll history runFileSet
  simp only
  rw [diagnostics_runFileSetPasses, diagnostics_runPlaces, List.flatMap_append, List.append_assoc]

end Pipeline
end TemplatePasses
