/-
# Diagnostics do not steer a run

Passes report problems, and may ask how many there are; what they do to the
files, to the ids and to the rest of the run is another matter. Two passes have
the same effect if they leave the same files, ids and signal wherever the ids are
the same, whatever has been reported before. If the passes of two pipelines have
pairwise the same effect, the two agree step by step in everything but the
reporter: they run the same passes on the same files, log the same events, and
end with the same files, the same ids and the same signal. Each reporter keeps
what it held before, and gains the reports of its own pipeline's runs.

Key definitions: `Work.SameEffect`, `FilePass.SameEffect`, `FileSetPass.SameEffect`,
`Factory.SameEffects`.
Key theorems: `runFilePasses_agree`, `runFileSetPasses_agree`, `Pipeline.runAll_agree`,
`diagnostics_do_not_steer`.
-/
import TemplatePasses.Proofs.Building
import TemplatePasses.Proofs.History
import Mathlib.Data.List.Forall2

namespace TemplatePasses

open Log (Event)

/-! ### The same effect -/

/-- Two programs end alike and leave the same ids, whatever has been reported
where they start. -/
def Work.SameEffect {α : Type} (w v : Work α) : Prop :=
  ∀ s t : Session, s.ids = t.ids → (w.run s).1 = (v.run t).1 ∧ (w.run s).2.ids = (v.run t).2.ids

/-- Two passes over one file go by the same name and have the same effect. -/
structure FilePass.SameEffect (p q : FilePass) : Prop where
  name : p.name = q.name
  work : ∀ file, (p.work file).SameEffect (q.work file)

/-- Two passes over all files go by the same name and have the same effect. -/
structure FileSetPass.SameEffect (p q : FileSetPass) : Prop where
  name : p.name = q.name
  work : ∀ index files, (p.work index files).SameEffect (q.work index files)

/-- Two factories make passes with the same effect, also from setups that differ
in the reporter. -/
structure Factory.SameEffects (f g : Factory) : Prop where
  filePass : ∀ role setup reporter file,
    ((f.filePass role setup).work file).SameEffect
      ((g.filePass role { setup with reporter }).work file)
  fileSetPass : ∀ role setup reporter index files,
    ((f.fileSetPass role setup).work index files).SameEffect
      ((g.fileSetPass role { setup with reporter }).work index files)

/-! ### Events of equal histories -/

namespace PassRun

/-- The event of a run does not show its reports. -/
theorem event_of_start : ∀ {r q : PassRun}, r.start = q.start → r.event = q.event
  | ⟨_, _, _⟩, ⟨_, _, _⟩, h => by
    obtain ⟨rfl, rfl⟩ := Prod.mk.inj h
    rfl

theorem map_event_of_start : ∀ {rs qs : List PassRun}, rs.map start = qs.map start →
    rs.map event = qs.map event
  | [], [], _ => rfl
  | [], _ :: _, h => by cases h
  | _ :: _, [], h => by cases h
  | _ :: _, _ :: _, h => by
    obtain ⟨hfirst, hrest⟩ := List.cons.inj h
    exact congrArg₂ List.cons (event_of_start hfirst) (map_event_of_start hrest)

end PassRun

theorem stopEvents_of_start {rs qs : List PassRun} (h : rs.map PassRun.start = qs.map PassRun.start)
    (signal : Signal) : stopEvents rs signal = stopEvents qs signal := by
  have hlast : rs.getLast?.map PassRun.start = qs.getLast?.map PassRun.start := by
    rw [← List.getLast?_map, h, List.getLast?_map]
  have hpass : rs.getLast?.map PassRun.pass = qs.getLast?.map PassRun.pass := by
    have := congrArg (Option.map Prod.fst) hlast
    rwa [Option.map_map, Option.map_map] at this
  cases signal with
  | goOn => rfl
  | stop =>
    have hevent : ∀ runs : List PassRun, stopEvents runs .stop =
        ((runs.getLast?.map PassRun.pass).map stopEvent).toList := fun runs => by
      rw [Option.map_map]
      rfl
    rw [hevent, hevent, hpass]

/-! ### Runs of passes with the same effect

The sessions of the two runs have the same ids at every step; that the logs go
along needs no invariant of its own, for the history tells them. -/

theorem FilePass.SameEffect.runOn {p q : FilePass} (h : p.SameEffect q) (file : SourceFile)
    {s t : Session} (hids : s.ids = t.ids) :
    (p.runOn file s).1 = (q.runOn file t).1 ∧ (p.runOn file s).2.ids = (q.runOn file t).2.ids :=
  h.work file _ _ hids

theorem FileSetPass.SameEffect.runOn {p q : FileSetPass} (h : p.SameEffect q)
    (index : TemplateIndex) (files : List SourceFile) {s t : Session} (hids : s.ids = t.ids) :
    (p.runOn index files s).files = (q.runOn index files t).files ∧
      (p.runOn index files s).signal = (q.runOn index files t).signal ∧
      (p.runOn index files s).session.ids = (q.runOn index files t).session.ids := by
  obtain ⟨hleft, hids'⟩ := h.work index files
    (s.emit (startOnSetEvent p.name files.length)) (t.emit (startOnSetEvent q.name files.length)) hids
  exact ⟨congrArg Prod.fst hleft, congrArg Prod.snd hleft, hids'⟩

/-- **Passes over one file agree.** -/
theorem runFilePasses_agree : ∀ {ps qs : List FilePass}, List.Forall₂ FilePass.SameEffect ps qs →
    ∀ (file : SourceFile) {s t : Session}, s.ids = t.ids →
      (runFilePasses ps file s).1 = (runFilePasses qs file t).1 ∧
      (runFilePasses ps file s).2.ids = (runFilePasses qs file t).2.ids ∧
      (fileRuns ps file s).map PassRun.start = (fileRuns qs file t).map PassRun.start
  | _, _, .nil, _, _, _, hids => ⟨rfl, hids, rfl⟩
  | p :: ps, q :: qs, .cons hpass hrest, file, s, t, hids => by
    obtain ⟨hfile, hids'⟩ := hpass.runOn file hids
    obtain ⟨hleft, hids'', hruns⟩ := runFilePasses_agree hrest (p.runOn file s).1 hids'
    have hentry : (p.entry file s).start = (q.entry file t).start :=
      congrArg (·, Subject.file file) hpass.name
    rw [runFilePasses_cons, runFilePasses_cons, fileRuns, fileRuns, ← hfile]
    exact ⟨hleft, hids'', congrArg₂ List.cons hentry hruns⟩

/-- **Passes over all files agree**, also in where they stop. -/
theorem runFileSetPasses_agree (index : TemplateIndex) :
    ∀ {ps qs : List FileSetPass}, List.Forall₂ FileSetPass.SameEffect ps qs →
    ∀ (files : List SourceFile) {s t : Session}, s.ids = t.ids →
      (runFileSetPasses index ps files s).files = (runFileSetPasses index qs files t).files ∧
      (runFileSetPasses index ps files s).signal = (runFileSetPasses index qs files t).signal ∧
      (runFileSetPasses index ps files s).session.ids =
        (runFileSetPasses index qs files t).session.ids ∧
      (setRuns index ps files s).map PassRun.start = (setRuns index qs files t).map PassRun.start
  | _, _, .nil, _, _, _, hids => ⟨rfl, rfl, hids, rfl⟩
  | p :: ps, q :: qs, .cons hpass hrest, files, s, t, hids => by
    obtain ⟨hfiles, hsignal, hids'⟩ := hpass.runOn index files hids
    have hentry : (p.entry index files s).start = (q.entry index files t).start :=
      congrArg (·, Subject.set files) hpass.name
    rw [runFileSetPasses_cons, runFileSetPasses_cons, setRuns_cons, setRuns_cons, ← hfiles,
      ← hsignal]
    cases (p.runOn index files s).signal with
    | stop => exact ⟨rfl, rfl, hids', congrArg (· :: []) hentry⟩
    | goOn =>
      obtain ⟨hleft, hstop, hids'', hruns⟩ :=
        runFileSetPasses_agree index hrest (p.runOn index files s).files hids'
      exact ⟨hleft, hstop, hids'', congrArg₂ List.cons hentry hruns⟩

namespace Pipeline

/-- Two pipelines have pairwise passes with the same effect. -/
structure SameEffects (p q : Pipeline) : Prop where
  filePasses : List.Forall₂ FilePass.SameEffect p.filePasses q.filePasses
  fileSetPasses : List.Forall₂ FileSetPass.SameEffect p.fileSetPasses q.fileSetPasses

variable {p q : Pipeline}

theorem runPlaces_agree (h : p.SameEffects q) :
    ∀ (places : List Nat) (files : List SourceFile) {s t : Session}, s.ids = t.ids →
      (p.runPlaces places files s).1 = (q.runPlaces places files t).1 ∧
      (p.runPlaces places files s).2.ids = (q.runPlaces places files t).2.ids ∧
      (p.placeRuns places files s).map PassRun.start = (q.placeRuns places files t).map PassRun.start
  | [], _, _, _, hids => ⟨rfl, hids, rfl⟩
  | place :: rest, files, s, t, hids => by
    rw [runPlaces, runPlaces, placeRuns, placeRuns]
    cases files[place]? with
    | none => exact runPlaces_agree h rest files hids
    | some file =>
      obtain ⟨hfile, hids', hruns⟩ := runFilePasses_agree h.filePasses file hids
      have hleft : (p.runFile file s).1 = (q.runFile file t).1 := hfile
      obtain ⟨hfiles, hids'', hrest⟩ :=
        runPlaces_agree h rest (files.set place (p.runFile file s).1) hids'
      simp only [← hleft, List.map_append, hruns]
      exact ⟨hfiles, hids'', congrArg _ hrest⟩

/-- **Pipelines agree** in their histories and in what they leave, the reporter apart. -/
theorem runAll_agree (h : p.SameEffects q) (index : List SourceFile → TemplateIndex)
    (places : List Nat) (files : List SourceFile) {s t : Session} (hids : s.ids = t.ids) :
    (p.runAll index places files s).files = (q.runAll index places files t).files ∧
      (p.runAll index places files s).signal = (q.runAll index places files t).signal ∧
      (p.runAll index places files s).session.ids = (q.runAll index places files t).session.ids ∧
      (p.history index places files s).map PassRun.start =
        (q.history index places files t).map PassRun.start := by
  obtain ⟨hfiles, hids', hplaces⟩ := runPlaces_agree h places files hids
  obtain ⟨hleft, hsignal, hids'', hruns⟩ := runFileSetPasses_agree
    (index (p.runPlaces places files s).1) h.fileSetPasses (p.runPlaces places files s).1 hids'
  unfold runAll history runFileSet
  simp only [← hfiles, List.map_append, hplaces, hruns]
  exact ⟨hleft, hsignal, hids'', trivial⟩

end Pipeline

/-! ### Pipelines built with different reporters -/

/-- What settings hold fixes the setup. Another reporter changes nothing else in it. -/
theorem PassSetup.Holds.reporter_changed {s : Settings} {r q : Reporter} {setup setup' : PassSetup}
    (h : setup.Holds (s.apply (.reporter r)).get) (h' : setup'.Holds (s.apply (.reporter q)).get) :
    setup' = { setup with reporter := q } := by
  have hreporter : q = setup'.reporter := Option.some.inj h'.reporter
  cases setup
  cases setup'
  simp only [PassSetup.mk.injEq]
  exact ⟨Option.some.inj (h'.typeNames.symm.trans h.typeNames), h'.plugins.symm.trans h.plugins,
    Option.some.inj (h'.directives.symm.trans h.directives), hreporter.symm,
    Option.some.inj (h'.options.symm.trans h.options), h'.conformance.symm.trans h.conformance,
    h'.logging.symm.trans h.logging, h'.allowV1Expression.symm.trans h.allowV1Expression,
    h'.checksTypes.symm.trans h.checksTypes⟩

section
variable {s : Settings} {f g : Factory} {r q : Reporter} {one two : Pipeline}

/-- Built pipelines have pairwise passes with the same effect: those of the same
roles, for the plan knows no reporter. -/
theorem Factory.SameEffects.pipelines (h : f.SameEffects g)
    (hone : ((s.apply (.reporter r)).build f).result = .ok one)
    (htwo : ((s.apply (.reporter q)).build g).result = .ok two) : one.SameEffects two := by
  obtain ⟨p, hplan⟩ := Settings.plan_of_build hone
  have hplan' : (s.apply (.reporter q)).plan = .ok p := hplan
  obtain ⟨setup, rfl, hnames, -, hholds⟩ := Settings.pipeline_of_build hplan hone
  obtain ⟨setup', rfl, hnames', -, hholds'⟩ := Settings.pipeline_of_build hplan' htwo
  obtain rfl := hholds.reporter_changed hholds'
  -- a pass goes by the name of its role in both
  have hname : ∀ role ∈ p.roles, f.nameFor (role.request setup) =
      g.nameFor (role.request { setup with reporter := q }) := fun role hrole => by
    rw [nameFor_of_none hnames hrole, nameFor_of_none hnames' hrole]
  constructor
  · unfold pipeline
    rw [List.forall₂_map_left_iff, List.forall₂_map_right_iff, List.forall₂_same]
    exact fun role hrole =>
      ⟨hname (.file role) (List.mem_append_left _ (List.mem_map_of_mem hrole)),
        h.filePass role setup q⟩
  · unfold pipeline
    rw [List.forall₂_map_left_iff, List.forall₂_map_right_iff, List.forall₂_same]
    exact fun role hrole =>
      ⟨hname (.fileSet role) (List.mem_append_right _ (List.mem_map_of_mem hrole)),
        h.fileSetPass role setup q⟩

/-- Building logs the plan, whoever reports. -/
theorem Settings.log_of_build {pipe : Pipeline} (h : (s.build f).result = .ok pipe) :
    (s.build f).log = s.planLog := by
  cases hmissing : s.firstMissing with
  | some part =>
    rw [build_of_missing hmissing f] at h
    cases h
  | none =>
    obtain ⟨setup, -, hgiven⟩ := build_of_given hmissing
    have hrun := hgiven s.rules f
    simp only [withRules_self] at hrun
    rw [hrun]
    cases s.plan <;> rfl

/-- **Diagnostics do not steer a run.** Take two pipelines built from the same
settings but for the reporter, by factories whose passes have the same effect and
report what they like. Run on the files at the same places and then on all files,
from sessions with the same ids and anything reported before, they run the same
passes on the same files, log the same events, and end with the same files, the
same ids and the same signal. And each reporter ends with what it held, followed
by the reports of the runs in their order, and counts all of these. -/
theorem diagnostics_do_not_steer (heffects : f.SameEffects g)
    (hone : ((s.apply (.reporter r)).build f).result = .ok one)
    (htwo : ((s.apply (.reporter q)).build g).result = .ok two)
    (index : List SourceFile → TemplateIndex) (places : List Nat) (files : List SourceFile)
    {u v : Session} (hids : u.ids = v.ids) :
    let run := one.runAll index places files u
    let run' := two.runAll index places files v
    let history := one.history index places files u
    let history' := two.history index places files v
    history.map PassRun.start = history'.map PassRun.start ∧
    ((s.apply (.reporter r)).build f).log = ((s.apply (.reporter q)).build g).log ∧
    (∃ events, run.session.log = u.log ++ events ∧ run'.session.log = v.log ++ events) ∧
    run.files = run'.files ∧ run.signal = run'.signal ∧ run.session.ids = run'.session.ids ∧
    run.session.reporter.diagnostics =
      u.reporter.diagnostics ++ history.flatMap PassRun.reported ∧
    run'.session.reporter.diagnostics =
      v.reporter.diagnostics ++ history'.flatMap PassRun.reported ∧
    run.session.reporter.count =
      (u.reporter.diagnostics ++ history.flatMap PassRun.reported).length ∧
    run'.session.reporter.count =
      (v.reporter.diagnostics ++ history'.flatMap PassRun.reported).length := by
  intro run run' history history'
  obtain ⟨hfiles, hsignal, hids', hstart⟩ :=
    Pipeline.runAll_agree (heffects.pipelines hone htwo) index places files hids
  have hlog : ((s.apply (.reporter r)).build f).log = ((s.apply (.reporter q)).build g).log := by
    rw [Settings.log_of_build hone, Settings.log_of_build htwo]
    rfl
  have hone' := Pipeline.diagnostics_runAll one index places files u
  have htwo' := Pipeline.diagnostics_runAll two index places files v
  refine ⟨hstart, hlog, ⟨_, one.log_runAll index places files u, ?_⟩, hfiles, hsignal, hids',
    hone', htwo', congrArg List.length hone', congrArg List.length htwo'⟩
  rw [two.log_runAll, PassRun.map_event_of_start hstart, hsignal, stopEvents_of_start hstart]

end

/-! ### An example -/

/-- Goes on as `next` does, after reporting a problem if there are fewer than
`limit` so far. -/
def Work.reportUpTo {α : Type} (limit : Nat) (problem : Diagnostic) (next : Work α) : Work α :=
  .problemCount fun count => if count < limit then .report problem next else next

/-- The pass of a role adds a template with a fresh id to a file; the autoescaper
stops the run. All of them report a problem as long as there are fewer than
`limit`. -/
def grumbling (limit : Nat) : Factory where
  filePass role _ :=
    { name := role.name
      work := fun file => .freshId fun id =>
        .reportUpTo limit ⟨role.name, file.path, "undocumented"⟩
          (.done { file with templates := file.templates ++ [{ id, name := role.name }] }) }
  fileSetPass role _ :=
    { name := role.name
      work := fun _ files =>
        .reportUpTo limit ⟨role.name, "*", "undocumented"⟩
          (.done (files, if role = .autoescaper then .stop else .goOn)) }

theorem Work.reportUpTo_sameEffect {α : Type} (m n : Nat) (problem : Diagnostic) (result : α) :
    (Work.reportUpTo m problem (.done result)).SameEffect (.reportUpTo n problem (.done result)) := by
  intro s t hids
  simp only [reportUpTo, run]
  split <;> split <;> exact ⟨rfl, hids⟩

theorem Work.SameEffect.freshId {α : Type} {next next' : NodeId → Work α}
    (h : ∀ id, (next id).SameEffect (next' id)) :
    (Work.freshId next).SameEffect (.freshId next') := by
  intro s t hids
  have hid : s.draw.1 = t.draw.1 := congrArg (fun ids => ids.draw.1) hids
  have hleft : s.draw.2.ids = t.draw.2.ids := congrArg (fun ids => ids.draw.2) hids
  have hnext := h s.draw.1 s.draw.2 t.draw.2 hleft
  show ((next s.draw.1).run s.draw.2).1 = ((next' t.draw.1).run t.draw.2).1 ∧
    ((next s.draw.1).run s.draw.2).2.ids = ((next' t.draw.1).run t.draw.2).2.ids
  rwa [← hid]

theorem grumbling_sameEffects (m n : Nat) : (grumbling m).SameEffects (grumbling n) where
  filePass _ _ _ _ := .freshId fun _ => Work.reportUpTo_sameEffect m n _ _
  fileSetPass _ _ _ _ _ := Work.reportUpTo_sameEffect m n _ _

/-- Passes that report nothing and passes that report up to three problems, the
latter with one reported before, add the same templates and stop alike. -/
theorem diagnostics_do_not_steer_grumbling :
    ∃ one two : Pipeline,
      ((Settings.ready.apply (.reporter {})).build (grumbling 0)).result = .ok one ∧
      ((Settings.ready.apply (.reporter ⟨[⟨"a", "b", "c"⟩]⟩)).build (grumbling 3)).result = .ok two ∧
      let run := one.runAll .ofFiles [1, 0] [⟨"a.soy", []⟩, ⟨"b.soy", []⟩] {}
      let run' := two.runAll .ofFiles [1, 0] [⟨"a.soy", []⟩, ⟨"b.soy", []⟩]
        { reporter := ⟨[⟨"a", "b", "c"⟩]⟩ }
      run.files = run'.files ∧ run.signal = run'.signal ∧ run.session.log = run'.session.log ∧
      run.signal = .stop ∧ run.session.reporter.count = 0 ∧ run'.session.reporter.count = 3 := by
  refine ⟨_, _, rfl, rfl, ?_⟩
  intro run run'
  obtain ⟨-, -, ⟨events, hlog, hlog'⟩, hfiles, hsignal, -⟩ :=
    diagnostics_do_not_steer (s := .ready) (r := {}) (q := ⟨[⟨"a", "b", "c"⟩]⟩)
      (grumbling_sameEffects 0 3) rfl rfl .ofFiles [1, 0] [⟨"a.soy", []⟩, ⟨"b.soy", []⟩]
      (u := {}) (v := { reporter := ⟨[⟨"a", "b", "c"⟩]⟩ }) rfl
  exact ⟨hfiles, hsignal, hlog.trans hlog'.symm, rfl, rfl, rfl⟩

end TemplatePasses
