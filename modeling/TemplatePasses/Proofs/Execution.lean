/-
# What a run does, from its passes alone

A pass changes the state that the passes before it have left: the trees and the
session. So a list of passes has states (`stateAfter`), and on its state each
pass over all files has a signal, whether or not a run ever gets there. A run is
these passes in order, each of them once, and nothing else. Over one file it is
all of them; over all files it is those up to the first that signals to stop, and
the run stops just when there is one. The log is added from outside: it gains an
event for each pass, with the path or the number of files that the pass starts
from, and one for the stop.

Key definitions: `FilePass.change`, `FileSetPass.change`, `FileSetPass.signalOn`,
`stateAfter`, `onStates`.
Key theorems: `Work.run_withLog`, `runFilePasses_onStates`,
`runFileSetPasses_onStates`, `Pipeline.runs_up_to_first_stop`.
-/
import TemplatePasses.Proofs.History

namespace TemplatePasses

open Log (Event)

/-! ### States -/

/-- The session with another log. -/
def Session.withLog (s : Session) (log : List Event) : Session :=
  { s with log }

/-- A program does the same whatever has been logged, and leaves the log alone. -/
theorem Work.run_withLog {α : Type} (log : List Event) : ∀ (w : Work α) (s : Session),
    w.run (s.withLog log) = ((w.run s).1, (w.run s).2.withLog log)
  | done _, _ => rfl
  | freshId next, s => run_withLog log (next s.draw.1) s.draw.2
  | report problem next, s => run_withLog log next (s.report problem)
  | problemCount next, s => run_withLog log (next s.reporter.count) s
  | note entry next, s => run_withLog log next (s.note entry)

/-- The file and the session that a pass leaves. -/
def FilePass.change (pass : FilePass) (t : SourceFile × Session) : SourceFile × Session :=
  (pass.work t.1).run t.2

/-- The files and the session that a pass leaves, whatever its signal. -/
def FileSetPass.change (index : TemplateIndex) (pass : FileSetPass)
    (t : List SourceFile × Session) : List SourceFile × Session :=
  let left := (pass.work index t.1).run t.2
  (left.1.1, left.2)

def FileSetPass.signalOn (index : TemplateIndex) (pass : FileSetPass)
    (t : List SourceFile × Session) : Signal :=
  ((pass.work index t.1).run t.2).1.2

section
variable {π σ β : Type} (change : π → σ → σ)

/-- The state after the first `n` passes, each of which changes what the one
before has left. -/
def stateAfter (ps : List π) (start : σ) (n : Nat) : σ :=
  (ps.take n).foldl (fun t pass => change pass t) start

/-- What is to be told of each pass and the state that the passes before leave. -/
def onStates (tell : π → σ → β) (ps : List π) (start : σ) : List β :=
  ps.mapIdx fun i pass => tell pass (stateAfter change ps start i)

/-- Behind the first pass the states are those of the rest, from what it leaves. -/
theorem onStates_cons (tell : π → σ → β) (pass : π) (ps : List π) (t : σ) :
    onStates change tell (pass :: ps) t =
      tell pass t :: onStates change tell ps (change pass t) := by
  rw [onStates, List.mapIdx_cons]
  rfl

end

/-! ### Passes over one file -/

/-- The event with which a pass starts on the file of a state. -/
def FilePass.eventOn (pass : FilePass) (t : SourceFile × Session) : Event where
  level := .trace
  target := "stencil::single_file"
  message := "running pass"
  fields := [("pass", .text pass.name), ("file", .plain t.1.path)]

/-- The entry of a pass that starts on the file of a state. -/
def FilePass.startOn (pass : FilePass) (t : SourceFile × Session) : String × Subject :=
  (pass.name, .file t.1)

/-- One pass changes the state, and its event is put behind the log. -/
theorem FilePass.runOn_withLog (pass : FilePass) (t : SourceFile × Session) (log : List Event) :
    pass.runOn t.1 (t.2.withLog log) =
      ((pass.change t).1, (pass.change t).2.withLog (log ++ [pass.eventOn t])) :=
  Work.run_withLog (log ++ [pass.eventOn t]) (pass.work t.1) t.2

/-- **A run over one file is all its passes**, with an event for each. -/
theorem runFilePasses_onStates :
    ∀ (ps : List FilePass) (t : SourceFile × Session) (log : List Event),
      let left := stateAfter FilePass.change ps t ps.length
      (fileRuns ps t.1 (t.2.withLog log)).map PassRun.start =
        onStates FilePass.change FilePass.startOn ps t ∧
      runFilePasses ps t.1 (t.2.withLog log) =
        (left.1, left.2.withLog (log ++ onStates FilePass.change FilePass.eventOn ps t))
  | [], t, log => ⟨rfl, congrArg (fun events => (t.1, t.2.withLog events)) (List.append_nil log).symm⟩
  | pass :: ps, t, log => by
    obtain ⟨hstarts, hrun⟩ := runFilePasses_onStates ps (pass.change t) (log ++ [pass.eventOn t])
    rw [onStates_cons, onStates_cons, fileRuns, runFilePasses_cons, pass.runOn_withLog,
      List.map_cons, hstarts, hrun, List.append_assoc]
    exact ⟨rfl, rfl⟩

/-! ### Passes over all files -/

section
variable (index : TemplateIndex)

/-- The event with which a pass starts on the files of a state. -/
def FileSetPass.eventOn (pass : FileSetPass) (t : List SourceFile × Session) : Event where
  level := .trace
  target := "stencil::fileset"
  message := "running pass"
  fields := [("pass", .text pass.name), ("files", .count t.1.length)]

/-- The event of a pass that has stopped the run. -/
def FileSetPass.stopNotice (pass : FileSetPass) : Event where
  level := .debug
  target := "stencil::fileset"
  message := "pass requested stop"
  fields := [("pass", .text pass.name)]

/-- The entry of a pass that starts on the files of a state. -/
def FileSetPass.startOn (pass : FileSetPass) (t : List SourceFile × Session) : String × Subject :=
  (pass.name, .set t.1)

/-- One pass changes the state, and its event is put behind the log. -/
theorem FileSetPass.runOn_withLog (pass : FileSetPass) (t : List SourceFile × Session)
    (log : List Event) :
    pass.runOn index t.1 (t.2.withLog log) =
      ⟨(pass.change index t).1, pass.signalOn index t,
        (pass.change index t).2.withLog (log ++ [pass.eventOn t])⟩ := by
  have hwork := Work.run_withLog (log ++ [pass.eventOn t]) (pass.work index t.1) t.2
  have hemit : (t.2.withLog log).emit (startOnSetEvent pass.name t.1.length) =
      t.2.withLog (log ++ [pass.eventOn t]) := rfl
  unfold runOn
  rw [hemit, hwork]
  rfl

/-- **A run over all files is its passes up to the first that signals to stop**,
with an event for each and one for the stop. -/
theorem runFileSetPasses_onStates :
    ∀ (ps : List FileSetPass) (t : List SourceFile × Session) (log : List Event),
      let state := stateAfter (FileSetPass.change index) ps t
      let executed := (setRuns index ps t.1 (t.2.withLog log)).map PassRun.start
      let run := runFileSetPasses index ps t.1 (t.2.withLog log)
      let starts := onStates (FileSetPass.change index) FileSetPass.startOn ps t
      let events := onStates (FileSetPass.change index) FileSetPass.eventOn ps t
      match (onStates (FileSetPass.change index) (FileSetPass.signalOn index) ps t).findIdx?
        (· = .stop) with
      | some k => ∃ pass, ps[k]? = some pass ∧ executed = starts.take (k + 1) ∧
          run = ⟨(state (k + 1)).1, .stop,
            (state (k + 1)).2.withLog (log ++ (events.take (k + 1) ++ [pass.stopNotice]))⟩
      | none => executed = starts ∧
          run = ⟨(state ps.length).1, .goOn, (state ps.length).2.withLog (log ++ events)⟩
  | [], t, log =>
    ⟨rfl, congrArg (fun events => SetRun.mk t.1 .goOn (t.2.withLog events))
      (List.append_nil log).symm⟩
  | pass :: ps, t, log => by
    have ih := runFileSetPasses_onStates ps (pass.change index t) (log ++ [pass.eventOn t])
    simp only [onStates_cons, List.findIdx?_cons, setRuns_cons, runFileSetPasses_cons,
      pass.runOn_withLog] at ih ⊢
    cases hsignal : pass.signalOn index t with
    | stop =>
      exact ⟨pass, rfl, rfl, congrArg (fun events => SetRun.mk _ .stop (Session.withLog _ events))
        (List.append_assoc log _ _)⟩
    | goOn =>
      simp only [reduceCtorEq, decide_false, Bool.false_eq_true, if_false]
      cases hfirst : (onStates (FileSetPass.change index) (FileSetPass.signalOn index) ps
          (pass.change index t)).findIdx? (· = .stop) with
      | none =>
        rw [hfirst] at ih
        obtain ⟨hstarts, hrun⟩ := ih
        rw [List.map_cons, hstarts, hrun, List.append_assoc]
        exact ⟨rfl, rfl⟩
      | some k =>
        rw [hfirst] at ih
        obtain ⟨last, hlast, hstarts, hrun⟩ := ih
        refine ⟨last, hlast, ?_, ?_⟩
        · rw [List.map_cons, hstarts]
          rfl
        · rw [hrun, List.append_assoc]
          rfl

end

/-! ### Pipelines -/

/-- **A run is the passes up to the first that signals to stop.** Let each state be
what a pass leaves of the state before it. If `k` is the place of the first pass
over all files that signals to stop on its state, exactly the passes up to this
one run, each once and in order, and the run stops with the state behind it; if
there is none, all of them run and the run goes on. The log gains a `TRACE` event
for each pass that runs, with its name and the number of files in its state, and
then a `DEBUG` event with the name of the pass that has stopped. Passes over one
file all run, and the log gains a `TRACE` event for each, with its name and the path
in its state. So a run of two lists of passes is a run of
the first and, only if this goes on, a run of the second from where it ends. -/
theorem Pipeline.runs_up_to_first_stop (p : Pipeline) (more : List FileSetPass)
    (index : TemplateIndex) (files : List SourceFile) (file : SourceFile) (s : Session) :
    (let passes := p.fileSetPasses
      let state := stateAfter (FileSetPass.change index) passes (files, s)
      let signals := passes.mapIdx fun i pass => pass.signalOn index (state i)
      let starts := passes.mapIdx fun i pass => (pass.name, Subject.set (state i).1)
      let events := passes.mapIdx fun i pass => Event.mk .trace "stencil::fileset" "running pass"
        [("pass", .text pass.name), ("files", .count (state i).1.length)]
      let executed := (setRuns index passes files s).map PassRun.start
      match signals.findIdx? (· = .stop) with
      | some k => ∃ pass, passes[k]? = some pass ∧ executed = starts.take (k + 1) ∧
          p.runFileSet index files s = ⟨(state (k + 1)).1, .stop,
            (state (k + 1)).2.withLog (s.log ++ (events.take (k + 1) ++
              [Event.mk .debug "stencil::fileset" "pass requested stop"
                [("pass", .text pass.name)]]))⟩
      | none => executed = starts ∧
          p.runFileSet index files s = ⟨(state passes.length).1, .goOn,
            (state passes.length).2.withLog (s.log ++ events)⟩) ∧
    (let passes := p.filePasses
      let state := stateAfter FilePass.change passes (file, s)
      let starts := passes.mapIdx fun i pass => (pass.name, Subject.file (state i).1)
      let events := passes.mapIdx fun i pass => Event.mk .trace "stencil::single_file"
        "running pass" [("pass", .text pass.name), ("file", .plain (state i).1.path)]
      (fileRuns passes file s).map PassRun.start = starts ∧
      p.runFile file s =
        ((state passes.length).1, (state passes.length).2.withLog (s.log ++ events))) ∧
    (let whole : Pipeline := { p with fileSetPasses := p.fileSetPasses ++ more }
      let rest : Pipeline := { p with fileSetPasses := more }
      let first := p.runFileSet index files s
      whole.runFileSet index files s =
        match first.signal with
        | .goOn => rest.runFileSet index first.files first.session
        | .stop => first) :=
  ⟨runFileSetPasses_onStates index p.fileSetPasses (files, s) s.log,
    runFilePasses_onStates p.filePasses (file, s) s.log,
    runFileSetPasses_append index more p.fileSetPasses files s⟩

end TemplatePasses
