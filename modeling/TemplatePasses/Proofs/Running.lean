/-
# Runs over all files, pass by pass

A run over all files is a chain of steps (`setSteps`): each pass starts from the
files and the session that the one before has left, and the chain ends behind
the first pass that signals to stop. A run of two lists of passes is the run of
the first and, if that goes on, the run of the second from where the first ended
(`runFileSetPasses_append`, `setSteps_append`); a run stops just when one of its
steps does (`signal_eq_stop_iff`).

Key definitions: `FileSetPass.runOn`, `SetStep`, `setSteps`.
Key theorems: `runFileSetPasses_append`, `runFileSetPasses_keeps`, `setSteps_append`,
`signal_eq_stop_iff`.
-/
import TemplatePasses.Pass.Pipeline

namespace TemplatePasses

namespace Work

variable {α β : Type}

/-- A program that goes on with another one carries on from where the first ended. -/
theorem run_bind (next : α → Work β) : ∀ (w : Work α) (s : Session),
    (w.bind next).run s = (next (w.run s).1).run (w.run s).2
  | done _, _ => rfl
  | freshId k, _ => run_bind next (k _) _
  | report _ k, _ => run_bind next k _
  | problemCount k, _ => run_bind next (k _) _
  | note _ k, _ => run_bind next k _

end Work

/-- A pass run on its own: its start is logged, and its signal is not heeded. -/
def FileSetPass.runOn (pass : FileSetPass) (index : TemplateIndex) (files : List SourceFile)
    (s : Session) : SetRun :=
  let ((files', signal), s') :=
    (pass.work index files).run (s.emit (startOnSetEvent pass.name files.length))
  ⟨files', signal, s'⟩

/-- A pass that has run, with what it started from and what it left. -/
structure SetStep where
  /-- The name of the pass. -/
  pass : String
  files : List SourceFile
  session : Session
  left : SetRun

namespace SetStep

/-- Which pass has run, and from where. -/
def start (t : SetStep) : String × List SourceFile × Session :=
  (t.pass, t.files, t.session)

/-- Whether the pass has signalled to stop. -/
def stops (t : SetStep) : Prop :=
  t.left.signal = .stop

end SetStep

/-- The steps of a run over all files. -/
def setSteps (index : TemplateIndex) :
    List FileSetPass → List SourceFile → Session → List SetStep
  | [], _, _ => []
  | pass :: rest, files, s =>
    let left := pass.runOn index files s
    ⟨pass.name, files, s, left⟩ ::
      match left.signal with
      | .goOn => setSteps index rest left.files left.session
      | .stop => []

section
variable (index : TemplateIndex)

theorem runFileSetPasses_cons (pass : FileSetPass) (rest : List FileSetPass)
    (files : List SourceFile) (s : Session) :
    runFileSetPasses index (pass :: rest) files s =
      match (pass.runOn index files s).signal with
      | .goOn =>
        runFileSetPasses index rest (pass.runOn index files s).files
          (pass.runOn index files s).session
      | .stop =>
        ⟨(pass.runOn index files s).files, .stop,
          (pass.runOn index files s).session.emit (stopEvent pass.name)⟩ := rfl

/-- **A run splits at any pass.** The rest runs only if the beginning goes on,
and starts where that has ended. -/
theorem runFileSetPasses_append (qs : List FileSetPass) :
    ∀ (ps : List FileSetPass) (files : List SourceFile) (s : Session),
      runFileSetPasses index (ps ++ qs) files s =
        match (runFileSetPasses index ps files s).signal with
        | .goOn =>
          runFileSetPasses index qs (runFileSetPasses index ps files s).files
            (runFileSetPasses index ps files s).session
        | .stop => runFileSetPasses index ps files s
  | [], _, _ => rfl
  | pass :: ps, files, s => by
    rw [List.cons_append, runFileSetPasses_cons, runFileSetPasses_cons]
    cases (pass.runOn index files s).signal with
    | goOn => exact runFileSetPasses_append qs ps _ _
    | stop => rfl

/-- A run that goes on has gone on at every pass, so its end is that of its last part. -/
theorem goOn_append {ps qs : List FileSetPass} {files : List SourceFile} {s : Session}
    (h : (runFileSetPasses index (ps ++ qs) files s).signal = .goOn) :
    (runFileSetPasses index ps files s).signal = .goOn ∧
      runFileSetPasses index (ps ++ qs) files s =
        runFileSetPasses index qs (runFileSetPasses index ps files s).files
          (runFileSetPasses index ps files s).session := by
  rw [runFileSetPasses_append] at h ⊢
  cases hsignal : (runFileSetPasses index ps files s).signal with
  | goOn => exact ⟨rfl, rfl⟩
  | stop =>
    simp only [hsignal] at h
    cases h

/-- What every pass keeps of the files, a run keeps. -/
theorem runFileSetPasses_keeps {P : List SourceFile → Prop} :
    ∀ {ps : List FileSetPass} {files : List SourceFile} {s : Session},
      (∀ pass ∈ ps, ∀ files s, P files → P (pass.runOn index files s).files) →
      P files → P (runFileSetPasses index ps files s).files
  | [], _, _, _, hP => hP
  | pass :: ps, files, s, hkeeps, hP => by
    have hpass := hkeeps pass (List.mem_cons_self ..) files s hP
    rw [runFileSetPasses_cons]
    cases (pass.runOn index files s).signal with
    | goOn =>
      exact runFileSetPasses_keeps (fun q hq => hkeeps q (List.mem_cons_of_mem _ hq)) hpass
    | stop => exact hpass

theorem setSteps_append (qs : List FileSetPass) :
    ∀ (ps : List FileSetPass) (files : List SourceFile) (s : Session),
      setSteps index (ps ++ qs) files s =
        setSteps index ps files s ++
          match (runFileSetPasses index ps files s).signal with
          | .goOn =>
            setSteps index qs (runFileSetPasses index ps files s).files
              (runFileSetPasses index ps files s).session
          | .stop => []
  | [], _, _ => rfl
  | pass :: ps, files, s => by
    rw [List.cons_append, setSteps, setSteps, runFileSetPasses_cons, List.cons_append]
    congr 1
    cases (pass.runOn index files s).signal with
    | goOn => exact setSteps_append qs ps _ _
    | stop => rfl

/-- A run stops just when one of its steps does. -/
theorem signal_eq_stop_iff : ∀ (ps : List FileSetPass) (files : List SourceFile) (s : Session),
    (runFileSetPasses index ps files s).signal = .stop ↔ ∃ t ∈ setSteps index ps files s, t.stops
  | [], _, _ => by simp [runFileSetPasses, setSteps]
  | pass :: ps, files, s => by
    rw [runFileSetPasses_cons, setSteps]
    simp only [List.mem_cons, exists_eq_or_imp, SetStep.stops]
    cases hsignal : (pass.runOn index files s).signal with
    | goOn =>
      simp only [reduceCtorEq, false_or]
      exact signal_eq_stop_iff ps _ _
    | stop => simp

theorem length_setSteps_le : ∀ (ps : List FileSetPass) (files : List SourceFile) (s : Session),
    (setSteps index ps files s).length ≤ ps.length
  | [], _, _ => Nat.le_refl 0
  | pass :: ps, files, s => by
    rw [setSteps]
    cases (pass.runOn index files s).signal with
    | goOn => exact Nat.succ_le_succ (length_setSteps_le ps _ _)
    | stop => exact Nat.succ_le_succ (Nat.zero_le _)

/-- A run that goes on has run all its passes. -/
theorem length_setSteps_of_goOn : ∀ {ps : List FileSetPass} {files : List SourceFile} {s : Session},
    (runFileSetPasses index ps files s).signal = .goOn →
      (setSteps index ps files s).length = ps.length
  | [], _, _, _ => rfl
  | pass :: ps, files, s, h => by
    rw [runFileSetPasses_cons] at h
    rw [setSteps]
    cases hsignal : (pass.runOn index files s).signal with
    | goOn =>
      simp only [hsignal] at h
      exact congrArg (· + 1) (length_setSteps_of_goOn h)
    | stop =>
      simp only [hsignal] at h
      cases h

theorem pass_mem_of_mem_setSteps {t : SetStep} :
    ∀ {ps : List FileSetPass} {files : List SourceFile} {s : Session},
      t ∈ setSteps index ps files s → t.pass ∈ ps.map (·.name)
  | pass :: ps, files, s, h => by
    rw [setSteps] at h
    rcases List.mem_cons.1 h with rfl | h
    · exact List.mem_cons_self ..
    · cases hsignal : (pass.runOn index files s).signal with
      | goOn =>
        simp only [hsignal] at h
        exact List.mem_cons_of_mem _ (pass_mem_of_mem_setSteps h)
      | stop =>
        simp only [hsignal] at h
        cases h

end

end TemplatePasses
