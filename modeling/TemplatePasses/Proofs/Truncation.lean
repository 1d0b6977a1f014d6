/-
# A stop rule and a stop signal cut alike

There are two ways to end a run at a pass: a rule keeps assembly from planning
anything behind it, or the pass itself signals to stop. A rule is found by name
when the plan is made, and a signal is found in the middle of a run, where the
passes before have already changed the trees; still both cut at the same place.
Up to the pass the two pipelines run the same passes from the same states and
leave the same, and they differ only in what they answer: the one with the rule
stops only if one of its passes does of its own accord.

Key definitions: `FileSetPass.stopping`, `Factory.stopping`, `Session.unlogged`.
Key theorems: `Settings.plan_of_rule`, `start_stopping`, `pipelines_cut`,
`rule_cuts_as_stop`.
-/
import TemplatePasses.Pass.Script
import TemplatePasses.Proofs.Building
import TemplatePasses.Proofs.Running

namespace TemplatePasses

/-- The pass that does the same and then signals to stop. -/
def FileSetPass.stopping (pass : FileSetPass) : FileSetPass :=
  { pass with
    work := fun index files => do
      let (files, _) ← pass.work index files
      pure (files, .stop) }

def Session.unlogged (s : Session) : Session :=
  { s with log := [] }

/-- The factory whose pass of a role always signals to stop. -/
def Factory.stopping (f : Factory) (x : FileSetRole) : Factory :=
  { f with
    fileSetPass := fun role setup =>
      if role = x then (f.fileSetPass role setup).stopping else f.fileSetPass role setup }

/-! ### The plan with one rule -/

namespace Settings

theorem roles_of_plan_without_rules {s : Settings} {p : Plan} (hrules : s.rules = .empty)
    (h : s.plan = .ok p) : ∃ o, s.options = some o ∧ p.roles = s.candidates o := by
  obtain ⟨o, ho, hroles⟩ := roles_of_plan h
  have hnone : ∀ c ∈ s.candidates o, s.rules.find? (Named.name c) = none :=
    fun _ _ => by rw [hrules, NameMap.find?_empty]
  refine ⟨o, ho, ?_⟩
  calc p.roles = s.rules.kept (s.candidates o ++ []) := by rw [hroles, List.append_nil]
    _ = s.candidates o ++ s.rules.kept [] := StopRules.kept_append_of_none [] hnone
    _ = s.candidates o := List.append_nil _

/-- **A rule cuts the plan at its pass.** What comes before stays, the pass stays
if the rule is to stop after it, and the passes over single files are untouched. -/
theorem plan_of_rule {s : Settings} {p : Plan} (hrules : s.rules = .empty) (h : s.plan = .ok p)
    {before after : List FileSetRole} {x : FileSetRole} (hsets : p.fileSet = before ++ x :: after)
    (rule : StopRule) :
    (s.withRules (.single x.name rule)).plan =
      .ok ⟨p.singleFile, before ++ if rule = .after then [x] else []⟩ := by
  obtain ⟨o, ho, hroles⟩ := roles_of_plan_without_rules hrules h
  have hcandidates : s.candidates o =
      (p.singleFile.map Role.file ++ before.map Role.fileSet) ++
        .fileSet x :: after.map Role.fileSet := by
    rw [← hroles, Plan.roles, hsets, List.map_append, List.map_cons, List.append_assoc]
  have hother : ∀ c ∈ p.singleFile.map Role.file ++ before.map Role.fileSet,
      Named.name c ≠ Named.name (Role.fileSet x) := by
    intro c hc hname
    have hnodup := nodup_of_plan h
    rw [hroles, hcandidates, List.nodup_append] at hnodup
    exact hnodup.2.2 c hc _ (List.mem_cons_self ..) (Role.name_injective hname)
  have hmem : Role.fileSet x ∈ s.candidates o := by
    rw [hcandidates]
    exact List.mem_append_right _ (List.mem_cons_self ..)
  have hunmet : StopRules.unmet (.single x.name rule) (s.candidates o) = NameMap.empty :=
    StopRules.unmet_single hmem rule
  have hkept : StopRules.kept (.single x.name rule) (s.candidates o) =
      p.singleFile.map Role.file ++ (before ++ if rule = .after then [x] else []).map Role.fileSet :=
    calc StopRules.kept (.single x.name rule) (s.candidates o)
        = (p.singleFile.map Role.file ++ before.map Role.fileSet) ++
            if rule = .after then [.fileSet x] else [] := by
          rw [hcandidates]
          exact StopRules.kept_single hother rule _
      _ = p.singleFile.map Role.file ++
            (before ++ if rule = .after then [x] else []).map Role.fileSet := by
          rw [List.append_assoc, List.map_append]
          cases rule <;> rfl
  rw [plan_withRules ho, hunmet, hkept, Plan.ofRoles, Plan.filterMap_asFile?,
    Plan.filterMap_asFileSet?]
  rfl

theorem apply_rule_of_empty {s : Settings} (hrules : s.rules = .empty) (name : String)
    (rule : StopRule) : s.apply (.rule name rule) = s.withRules (.single name rule) := by
  rw [StopRules.single, ← hrules]
  rfl

end Settings

/-- A plan that ends earlier begins with the same roles. -/
theorem Plan.roles_prefix (p : Plan) {rs : List FileSetRole} (h : rs <+: p.fileSet) :
    (⟨p.singleFile, rs⟩ : Plan).roles <+: p.roles :=
  (List.prefix_append_right_inj _).2 (h.map _)

/-! ### Runs cut at a pass

All runs below begin with the passes `ps`. Either these stop, and then nothing
that follows them matters; or they go on, and the runs differ in what they do
from there. -/

section
variable (index : TemplateIndex)

/-- The pass that stops leaves what the pass leaves, but for the signal. -/
theorem runOn_stopping (pass : FileSetPass) (files : List SourceFile) (s : Session) :
    pass.stopping.runOn index files s = { pass.runOn index files s with signal := .stop } := by
  have hwork : pass.stopping.work index files =
      (pass.work index files).bind fun left => .done (left.1, .stop) := rfl
  unfold FileSetPass.runOn
  rw [hwork, Work.run_bind]
  rfl

theorem setSteps_singleton (pass : FileSetPass) (files : List SourceFile) (s : Session) :
    setSteps index [pass] files s = [⟨pass.name, files, s, pass.runOn index files s⟩] := by
  rw [setSteps]
  cases (pass.runOn index files s).signal <;> rfl

theorem setSteps_stopping (pass : FileSetPass) (rest : List FileSetPass) (files : List SourceFile)
    (s : Session) :
    setSteps index (pass.stopping :: rest) files s =
      [⟨pass.name, files, s, pass.stopping.runOn index files s⟩] := by
  rw [setSteps, runOn_stopping]
  rfl

/-- The pass that stops ends the run, and leaves what the run that ends with the
pass has left. -/
theorem run_stopping (ps : List FileSetPass) (x : FileSetPass) (rest : List FileSetPass)
    (files : List SourceFile) (s : Session) :
    let ruled := runFileSetPasses index (ps ++ [x]) files s
    let stopped := runFileSetPasses index (ps ++ x.stopping :: rest) files s
    stopped.signal = .stop ∧ ruled.files = stopped.files ∧
      ruled.session.unlogged = stopped.session.unlogged := by
  intro ruled stopped
  simp only [ruled, stopped]
  rw [runFileSetPasses_append, runFileSetPasses_append]
  cases hsignal : (runFileSetPasses index ps files s).signal with
  | stop => exact ⟨hsignal, rfl, rfl⟩
  | goOn =>
    dsimp only
    rw [runFileSetPasses_cons, runFileSetPasses_cons, runOn_stopping]
    cases (x.runOn index _ _).signal <;> exact ⟨rfl, rfl, rfl⟩

/-- Both run the same passes, each from the same state. -/
theorem start_stopping (ps : List FileSetPass) (x : FileSetPass) (rest : List FileSetPass)
    (files : List SourceFile) (s : Session) :
    (setSteps index (ps ++ [x]) files s).map SetStep.start =
      (setSteps index (ps ++ x.stopping :: rest) files s).map SetStep.start := by
  rw [setSteps_append, setSteps_append]
  cases (runFileSetPasses index ps files s).signal with
  | stop => rfl
  | goOn =>
    simp only [setSteps_singleton, setSteps_stopping, List.map_append]
    rfl

/-- The run that ends with a pass has the steps of the whole run up to the pass. -/
theorem take_setSteps (ps : List FileSetPass) (x : FileSetPass) (rest : List FileSetPass)
    (files : List SourceFile) (s : Session) :
    (setSteps index (ps ++ x :: rest) files s).take (ps.length + 1) =
      setSteps index (ps ++ [x]) files s := by
  rw [setSteps_append, setSteps_append]
  cases hsignal : (runFileSetPasses index ps files s).signal with
  | stop =>
    have hle := length_setSteps_le index ps files s
    simp only [List.append_nil]
    exact List.take_of_length_le (by omega)
  | goOn =>
    have hlen := length_setSteps_of_goOn index hsignal
    simp only [setSteps_singleton]
    rw [← hlen, List.take_append, List.take_of_length_le (by omega), setSteps]
    simp

/-- The run that ends before a pass leaves what the pass starts from, if it is
run at all. -/
theorem run_before {ps : List FileSetPass} {x : FileSetPass} (hx : x.name ∉ ps.map (·.name))
    (rest : List FileSetPass) (files : List SourceFile) (s : Session) :
    let cut := runFileSetPasses index ps files s
    match (setSteps index (ps ++ x.stopping :: rest) files s).find? (·.pass = x.name) with
    | some t => cut.files = t.files ∧ cut.session = t.session ∧ cut.signal = .goOn
    | none => cut = runFileSetPasses index (ps ++ x.stopping :: rest) files s := by
  intro cut
  have hfind : (setSteps index ps files s).find? (·.pass = x.name) = none := by
    refine List.find?_eq_none.2 fun t ht hname => hx ?_
    rw [← of_decide_eq_true hname]
    exact pass_mem_of_mem_setSteps index ht
  rw [setSteps_append, List.find?_append, hfind, Option.none_or, runFileSetPasses_append]
  cases hsignal : (runFileSetPasses index ps files s).signal with
  | stop => rfl
  | goOn =>
    dsimp only
    rw [setSteps_stopping, List.find?_cons_of_pos (by simp)]
    exact ⟨rfl, rfl, rfl⟩

end

/-! ### The pipelines cut at a pass -/

theorem Factory.stopping_misnames (f : Factory) (x : FileSetRole) :
    (f.stopping x).misnames = f.misnames := by
  have hname : (f.stopping x).nameFor = f.nameFor := by
    funext q
    cases q with
    | filePass r setup => rfl
    | fileSetPass r setup =>
      simp only [nameFor, stopping]
      split <;> rfl
  unfold misnames
  rw [hname]

theorem Factory.stopping_of_ne (f : Factory) {x r : FileSetRole} (h : r ≠ x) (setup : PassSetup) :
    (f.stopping x).fileSetPass r setup = f.fileSetPass r setup :=
  if_neg h

theorem Factory.stopping_self (f : Factory) (x : FileSetRole) (setup : PassSetup) :
    (f.stopping x).fileSetPass x setup = (f.fileSetPass x setup).stopping :=
  if_pos rfl

theorem Factory.pipeline_stopping (f : Factory) (setup : PassSetup) {p : Plan} {x : FileSetRole}
    {before after : List FileSetRole} (hsets : p.fileSet = before ++ x :: after)
    (hnodup : p.fileSet.Nodup) :
    (f.stopping x).pipeline setup p =
      ⟨p.singleFile.map (f.filePass · setup),
        before.map (f.fileSetPass · setup) ++
          (f.fileSetPass x setup).stopping :: after.map (f.fileSetPass · setup)⟩ := by
  rw [hsets, List.nodup_append, List.nodup_cons] at hnodup
  have hbefore : x ∉ before := fun h => hnodup.2.2 x h x (List.mem_cons_self ..) rfl
  have hsame : ∀ {rs : List FileSetRole}, x ∉ rs →
      rs.map ((f.stopping x).fileSetPass · setup) = rs.map (f.fileSetPass · setup) :=
    fun hrs => List.map_congr_left fun r hr =>
      f.stopping_of_ne (ne_of_mem_of_not_mem hr hrs) setup
  rw [pipeline, hsets, List.map_append, List.map_cons, hsame hbefore, hsame hnodup.2.1.1,
    f.stopping_self]
  rfl

/-- Passes that have the names of a plan have those of its beginning. -/
theorem Factory.misnames_of_prefix {f : Factory} {setup : PassSetup} {p q : Plan}
    (hbegin : q.roles <+: p.roles) (h : (p.requests setup).find? f.misnames = none) :
    (q.requests setup).find? f.misnames = none := by
  have hrequests : q.requests setup <+: p.requests setup := hbegin.map _
  exact List.find?_eq_none.2 fun r hr => List.find?_eq_none.1 h r (hrequests.subset hr)

section
variable {s : Settings} {f : Factory} {p : Plan} {whole : Pipeline} {x : FileSetRole}

/-- Where the whole pipeline has a pass, the other ones are cut: a rule leaves the
passes up to it or before it, and the factory that makes it stop puts the pass
that stops in its place. -/
theorem pipelines_cut (hrules : s.rules = .empty) (hplan : s.plan = .ok p)
    (hbuild : (s.build f).result = .ok whole) (hx : x ∈ p.fileSet) :
    ∃ (filePasses : List FilePass) (before after : List FileSetPass) (pass : FileSetPass),
      whole = ⟨filePasses, before ++ pass :: after⟩ ∧
      before.length = p.fileSet.idxOf x ∧ pass.name = x.name ∧ x.name ∉ before.map (·.name) ∧
      ((s.apply (.rule x.name .after)).build f).result = .ok ⟨filePasses, before ++ [pass]⟩ ∧
      ((s.apply (.rule x.name .before)).build f).result = .ok ⟨filePasses, before⟩ ∧
      (s.build (f.stopping x)).result = .ok ⟨filePasses, before ++ pass.stopping :: after⟩ := by
  obtain ⟨setup, rfl, hfind, hother, -⟩ := Settings.pipeline_of_build hplan hbuild
  obtain ⟨before, after, hsets, hbefore⟩ := List.eq_append_cons_of_mem hx
  have hname : ∀ r ∈ p.fileSet, (f.fileSetPass r setup).name = r.name := fun r hr =>
    Factory.nameFor_of_none hfind (List.mem_append_right _ (List.mem_map_of_mem hr))
  have hrule : ∀ rule, ((s.apply (.rule x.name rule)).build f).result =
      .ok (f.pipeline setup ⟨p.singleFile, before ++ if rule = .after then [x] else []⟩) := by
    intro rule
    have hbegin : (before ++ if rule = .after then [x] else []) <+: p.fileSet := by
      rw [hsets, List.prefix_append_right_inj]
      cases rule <;> simp
    rw [Settings.apply_rule_of_empty hrules]
    exact hother _ f _ (Settings.plan_of_rule hrules hplan hsets rule)
      (Factory.misnames_of_prefix (p.roles_prefix hbegin) hfind)
  refine ⟨p.singleFile.map (f.filePass · setup), before.map (f.fileSetPass · setup),
    after.map (f.fileSetPass · setup), f.fileSetPass x setup, ?_, ?_, hname x hx, ?_, ?_, ?_, ?_⟩
  · rw [Factory.pipeline, hsets, List.map_append, List.map_cons]
  · rw [hsets, List.idxOf_append, if_neg hbefore, List.idxOf_cons_self, List.length_map, Nat.zero_add]
  · -- the names before are those of other roles
    rw [List.map_map]
    intro hmem
    obtain ⟨r, hr, hrx⟩ := List.mem_map.1 hmem
    have hrname := hname r (hsets ▸ List.mem_append_left _ hr)
    have : r = x := FileSetRole.name_injective (hrname.symm.trans hrx)
    exact hbefore (this ▸ hr)
  · rw [hrule .after, Factory.pipeline, if_pos rfl, List.map_append, List.map_singleton]
  · rw [hrule .before, Factory.pipeline, if_neg (by decide), List.append_nil]
  · have hnodup : p.fileSet.Nodup := Settings.nodup_fileSet_of_plan hplan
    have hstop := hother s.rules (f.stopping x) p hplan (by rw [f.stopping_misnames, hfind])
    rw [Settings.withRules_self] at hstop
    rw [hstop, f.pipeline_stopping setup hsets hnodup]

/-- **A stop rule cuts as a stop signal does.** Take settings without rules that
give a pipeline (`whole`), and a pass over all files in its plan. The pipeline
with the rule to stop after the pass and the one whose pass always stops run the
same passes from the same states, and leave the same files and the same session,
the log apart. The second always stops, and the first just when one of the
passes up to the pass stops in the whole run. The pipeline with the rule to stop
before the pass leaves what the second has reached there, and ends as the second
does if that does not get there. -/
theorem rule_cuts_as_stop (hrules : s.rules = .empty) (hplan : s.plan = .ok p)
    (hbuild : (s.build f).result = .ok whole) (hx : x ∈ p.fileSet) :
    ∃ ruled stopped cut : Pipeline,
      ((s.apply (.rule x.name .after)).build f).result = .ok ruled ∧
      (s.build (f.stopping x)).result = .ok stopped ∧
      ((s.apply (.rule x.name .before)).build f).result = .ok cut ∧
      ruled.filePasses = stopped.filePasses ∧ cut.filePasses = stopped.filePasses ∧
      ∀ (index : TemplateIndex) (files : List SourceFile) (session : Session),
        let steps := fun q : Pipeline => setSteps index q.fileSetPasses files session
        let run := fun q : Pipeline => q.runFileSet index files session
        (steps ruled).map SetStep.start = (steps stopped).map SetStep.start ∧
        (run ruled).files = (run stopped).files ∧
        (run ruled).session.unlogged = (run stopped).session.unlogged ∧
        (run stopped).signal = .stop ∧
        ((run ruled).signal = .stop ↔
          ∃ t ∈ (steps whole).take (p.fileSet.idxOf x + 1), t.stops) ∧
        match (steps stopped).find? (·.pass = x.name) with
        | some t =>
          (run cut).files = t.files ∧ (run cut).session = t.session ∧ (run cut).signal = .goOn
        | none => run cut = run stopped := by
  obtain ⟨filePasses, before, after, pass, rfl, hlength, hname, hbefore, hruled, hcut, hstopped⟩ :=
    pipelines_cut hrules hplan hbuild hx
  refine ⟨_, _, _, hruled, hstopped, hcut, rfl, rfl, fun index files session => ?_⟩
  obtain ⟨hstop, hfiles, hsession⟩ := run_stopping index before pass after files session
  refine ⟨start_stopping index before pass after files session, hfiles, hsession, hstop, ?_, ?_⟩
  · rw [← hlength, take_setSteps]
    exact signal_eq_stop_iff index _ files session
  · rw [← hname] at hbefore ⊢
    exact run_before index hbefore after files session

end

/-- A script that fills a template up to the autoescaper, and whose optimizer
removes all files. -/
def filling : Script where
  actions := .ofList
    [(FileSetRole.checkTemplateCalls.name, [.append 0 (.call "b")]),
     (FileSetRole.autoescaper.name, [.append 0 (.rawText "safe"), .reverse 0]),
     (FileSetRole.optimization.name, [.clear])]

/-- Both ways to cut at the autoescaper leave its changes and keep the optimizer
from removing the file, and the cut before it leaves the file without them. -/
theorem rule_cuts_as_stop_filling :
    ∃ ruled stopped cut : Pipeline,
      let f := filling.factory
      let x := FileSetRole.autoescaper
      ((Settings.ready.apply (.rule x.name .after)).build f).result = .ok ruled ∧
      (Settings.ready.build (f.stopping x)).result = .ok stopped ∧
      ((Settings.ready.apply (.rule x.name .before)).build f).result = .ok cut ∧
      let run := fun q : Pipeline =>
        q.runFileSet {} [⟨"a.soy", [{ id := 6, name := "a" }]⟩] { ids := ⟨7⟩ }
      (run ruled).files = (run stopped).files ∧
      (run stopped).files =
        [⟨"a.soy", [{ id := 6, name := "a", body := [.rawText 8 "safe", .call 7 "b"] }]⟩] ∧
      (run cut).files = [⟨"a.soy", [{ id := 6, name := "a", body := [.call 7 "b"] }]⟩] ∧
      (run ruled).signal = .goOn ∧ (run stopped).signal = .stop ∧ (run cut).signal = .goOn ∧
      (run ruled).session.ids = (run stopped).session.ids ∧
      (run stopped).session.ids = ⟨9⟩ ∧ (run cut).session.ids = ⟨8⟩ := by
  obtain ⟨ruled, stopped, cut, hruled, hstopped, hcut, -, -, hrun⟩ :=
    rule_cuts_as_stop (f := filling.factory) (x := .autoescaper) rfl Settings.plan_ready rfl
      (by decide)
  obtain ⟨-, hfiles, hsession, hstop, -, -⟩ :=
    hrun {} [⟨"a.soy", [{ id := 6, name := "a" }]⟩] { ids := ⟨7⟩ }
  cases hruled
  cases hstopped
  cases hcut
  exact ⟨_, _, _, rfl, rfl, rfl, hfiles, rfl, rfl, rfl, hstop, rfl, (Session.mk.inj hsession).1,
    rfl, rfl⟩

end TemplatePasses
