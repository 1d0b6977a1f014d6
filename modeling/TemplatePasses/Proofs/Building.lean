/-
# Building carries out the plan

What a factory is asked for when a pipeline is built is fixed by the plan: one
request for each role, in the order of the plan, all with the same setup. It is
asked up to the first pass that has not the name of its role
(`Factory.misnames`); if there is none the pipeline has just these passes. Where
a needed part is missing, or there is no plan, it is not asked at all.

Key definitions: `Settings.firstMissing`, `Plan.requests`, `Factory.misnames`,
`Factory.pipeline`, `PassSetup.Holds`.
Key theorems: `Factory.makeAll_eq`, `Settings.build_of_given`,
`Settings.pipeline_of_build`, `Settings.build_refines_plan`.
-/
import TemplatePasses.Pass.Build
import TemplatePasses.Proofs.LastWrite
import TemplatePasses.Proofs.Planning

namespace TemplatePasses

/-! ### Requests -/

/-- The request for the pass of a role. -/
def Role.request (setup : PassSetup) : Role → Request
  | .file r => .filePass r setup
  | .fileSet r => .fileSetPass r setup

/-- The requests for the passes of a plan, in its order. -/
def Plan.requests (p : Plan) (setup : PassSetup) : List Request :=
  p.roles.map (Role.request setup)

/-- The name of the pass that the factory makes for a request. -/
def Factory.nameFor (f : Factory) : Request → String
  | .filePass r setup => (f.filePass r setup).name
  | .fileSetPass r setup => (f.fileSetPass r setup).name

/-- Whether the pass made for a request has not the name of its role. -/
def Factory.misnames (f : Factory) (q : Request) : Bool :=
  f.nameFor q ≠ q.roleName

/-- The passes that the factory makes for a plan. -/
def Factory.pipeline (f : Factory) (setup : PassSetup) (p : Plan) : Pipeline :=
  ⟨p.singleFile.map (f.filePass · setup), p.fileSet.map (f.fileSetPass · setup)⟩

theorem Role.request_roleName (setup : PassSetup) (r : Role) :
    (r.request setup).roleName = r.name := by
  cases r <;> rfl

theorem Role.request_injective (setup : PassSetup) {r q : Role}
    (h : r.request setup = q.request setup) : r = q := by
  apply Role.name_injective
  rw [← request_roleName setup, h, request_roleName]

theorem Plan.requests_eq (p : Plan) (setup : PassSetup) :
    p.requests setup =
      p.singleFile.map (Request.filePass · setup) ++ p.fileSet.map (Request.fileSetPass · setup) := by
  simp [requests, roles, Function.comp_def, Role.request]

/-! ### Asking the factory -/

/-- A list up to and with the first element that stops. -/
def upToFirst {α : Type} (stops : α → Bool) : List α → List α
  | [] => []
  | a :: rest => if stops a then [a] else a :: upToFirst stops rest

theorem upToFirst_map {α β : Type} (stops : β → Bool) (g : α → β) :
    ∀ l : List α, upToFirst stops (l.map g) = (upToFirst (stops ∘ g) l).map g
  | [] => rfl
  | a :: l => by
    rw [List.map_cons, upToFirst, upToFirst, upToFirst_map stops g l, apply_ite (List.map g)]
    rfl

theorem upToFirst_append_of_some {α : Type} {stops : α → Bool} {a : α} (m : List α) :
    ∀ {l : List α}, l.find? stops = some a → upToFirst stops (l ++ m) = upToFirst stops l
  | b :: l, h => by
    rw [List.cons_append, upToFirst, upToFirst]
    by_cases hb : stops b
    · simp [hb]
    · rw [List.find?_cons_of_neg hb] at h
      rw [upToFirst_append_of_some m h]

theorem upToFirst_append_of_none {α : Type} {stops : α → Bool} (m : List α) :
    ∀ {l : List α}, l.find? stops = none → upToFirst stops (l ++ m) = l ++ upToFirst stops m
  | [], _ => rfl
  | b :: l, h => by
    rw [List.find?_cons] at h
    cases hb : stops b with
    | true => simp [hb] at h
    | false =>
      simp only [hb] at h
      simp only [List.cons_append, upToFirst, hb, Bool.false_eq_true, if_false,
        upToFirst_append_of_none m h]

theorem upToFirst_of_none {α : Type} {stops : α → Bool} {l : List α} (h : l.find? stops = none) :
    upToFirst stops l = l := by
  have := upToFirst_append_of_none [] h
  simpa [upToFirst] using this

/-- Passes are made in turn up to the first with a wrong name. -/
theorem makeEach_eq {ρ π : Type} (roleName : ρ → String) (make : ρ → π) (passName : π → String) :
    ∀ roles : List ρ,
      makeEach roleName make passName roles =
        let wrong := fun r => decide (passName (make r) ≠ roleName r)
        (upToFirst wrong roles,
          match roles.find? wrong with
          | none => .ok (roles.map make)
          | some r => .error (.wrongName (roleName r) (passName (make r))))
  | [] => rfl
  | r :: rest => by
    have ih := makeEach_eq roleName make passName rest
    rw [makeEach]
    by_cases h : passName (make r) = roleName r
    · simp only [h, if_true, ih, ne_eq, not_true_eq_false, decide_false, List.find?_cons,
        upToFirst, Bool.false_eq_true, if_false]
      cases rest.find? fun r => decide (¬passName (make r) = roleName r) <;> rfl
    · simp [h, upToFirst]

/-- What a factory does for a plan, in one list of requests. -/
theorem Factory.makeAll_eq (f : Factory) (setup : PassSetup) (p : Plan) :
    f.makeAll setup p =
      (upToFirst f.misnames (p.requests setup),
        match (p.requests setup).find? f.misnames with
        | none => .ok (f.pipeline setup p)
        | some q => .error (.wrongName q.roleName (f.nameFor q))) := by
  -- a request is misnamed just as the role it is made from
  have files : f.misnames ∘ (Request.filePass · setup) =
      fun r => decide ((f.filePass r setup).name ≠ FileRole.name r) := rfl
  have sets : f.misnames ∘ (Request.fileSetPass · setup) =
      fun r => decide ((f.fileSetPass r setup).name ≠ FileSetRole.name r) := rfl
  have hfind : (p.singleFile.map (Request.filePass · setup)).find? f.misnames =
      (p.singleFile.find? fun r => decide ((f.filePass r setup).name ≠ FileRole.name r)).map
        (Request.filePass · setup) := by
    rw [List.find?_map, files]
  unfold makeAll
  rw [Plan.requests_eq, List.find?_append, hfind, List.find?_map, sets, makeEach_eq, makeEach_eq]
  cases hf : p.singleFile.find? fun r => decide ((f.filePass r setup).name ≠ FileRole.name r) with
  | some r =>
    -- a wrong name among the passes over one file keeps the others from being asked for
    rw [hf] at hfind
    rw [upToFirst_append_of_some _ hfind, upToFirst_map, files]
    simp only [hf]
    rfl
  | none =>
    rw [hf] at hfind
    rw [upToFirst_append_of_none _ hfind, upToFirst_map, sets]
    simp only [hf, upToFirst_of_none hf, Option.map_none, Option.none_or]
    cases p.fileSet.find? fun r => decide ((f.fileSetPass r setup).name ≠ FileSetRole.name r) <;>
      rfl

theorem Factory.nameFor_of_none {f : Factory} {setup : PassSetup} {p : Plan}
    (h : (p.requests setup).find? f.misnames = none) {r : Role} (hr : r ∈ p.roles) :
    f.nameFor (r.request setup) = r.name := by
  have hq := List.find?_eq_none.1 h _ (List.mem_map_of_mem hr)
  rw [← Role.request_roleName setup]
  simpa [misnames] using hq

/-- Passes without a wrong name have the names of the plan. -/
theorem Factory.pipeline_names {f : Factory} {setup : PassSetup} {p : Plan}
    (h : (p.requests setup).find? f.misnames = none) :
    (f.pipeline setup p).filePassNames = p.singleFileNames ∧
      (f.pipeline setup p).fileSetPassNames = p.fileSetNames := by
  constructor
  · unfold Pipeline.filePassNames pipeline Plan.singleFileNames
    rw [List.map_map]
    refine List.map_congr_left fun r hr => ?_
    exact nameFor_of_none h (List.mem_append_left _ (List.mem_map_of_mem hr))
  · unfold Pipeline.fileSetPassNames pipeline Plan.fileSetNames
    rw [List.map_map]
    refine List.map_congr_left fun r hr => ?_
    exact nameFor_of_none h (List.mem_append_right _ (List.mem_map_of_mem hr))

theorem Plan.names_eq (p : Plan) : p.singleFileNames ++ p.fileSetNames = p.roles.map Role.name := by
  simp [singleFileNames, fileSetNames, roles, Function.comp_def, Role.name]

/-- A plan without repeated roles asks for no pass twice. -/
theorem Plan.requests_nodup {p : Plan} (h : p.roles.Nodup) (setup : PassSetup) :
    (p.requests setup).Nodup :=
  List.pairwise_map.2 (h.imp fun hne hq => hne (Role.request_injective setup hq))

theorem Plan.names_nodup {p : Plan} (h : p.roles.Nodup) :
    (p.singleFileNames ++ p.fileSetNames).Nodup := by
  rw [names_eq]
  exact List.pairwise_map.2 (h.imp fun hne hname => hne (Role.name_injective hname))

/-! ### What is missing -/

/-- The needed parts, in the order in which they are looked for. -/
def NeededPart.all : List NeededPart :=
  [.typeNames, .printDirectives, .reporter, .generalOptions]

/-- The setup has what the parts of the settings are. -/
structure PassSetup.Holds (setup : PassSetup) (value : (p : Part) → p.Value) : Prop where
  typeNames : value .typeNames = some setup.typeNames
  plugins : value .plugins = setup.plugins
  directives : value .directives = some setup.directives
  reporter : value .reporter = some setup.reporter
  options : value .options = some setup.options
  conformance : value .conformance = setup.conformance
  logging : value .logging = setup.logging
  allowV1Expression : value .allowV1Expression = setup.allowV1Expression
  checksTypes : (!value .disableTypeChecking) = setup.checksTypes

namespace Settings

/-- Whether a needed part has not been set. -/
def lacks (s : Settings) : NeededPart → Bool
  | .typeNames => s.typeNames.isNone
  | .printDirectives => s.directives.isNone
  | .reporter => s.reporter.isNone
  | .generalOptions => s.options.isNone

/-- The first needed part that has not been set. -/
def firstMissing (s : Settings) : Option NeededPart :=
  NeededPart.all.find? s.lacks

theorem build_of_missing {s : Settings} {part : NeededPart} (h : s.firstMissing = some part)
    (f : Factory) : s.build f = ⟨[], .error (.missing part), []⟩ := by
  simp only [firstMissing, NeededPart.all, List.find?_cons, List.find?_nil, lacks] at h
  unfold build setup
  -- both sides look at the parts in the same order
  cases ht : s.typeNames with
  | none => simp_all
  | some t =>
    cases hd : s.directives with
    | none => simp_all
    | some d =>
      cases hr : s.reporter with
      | none => simp_all
      | some r =>
        cases ho : s.options with
        | none => simp_all
        | some o => simp_all

/-- With all needed parts set, the factory gets what was set. -/
theorem exists_setup {s : Settings} (h : s.firstMissing = none) :
    ∃ mk o, s.setup = .ok mk ∧ s.options = some o ∧ (mk o).Holds s.get := by
  have given : ∀ part, s.lacks part = false := by
    intro part
    have hpart := List.find?_eq_none.1 h part (by cases part <;> decide)
    simpa using hpart
  obtain ⟨t, ht⟩ := Option.isSome_iff_exists.1 (Option.isNone_eq_false_iff.1 (given .typeNames))
  obtain ⟨d, hd⟩ := Option.isSome_iff_exists.1 (Option.isNone_eq_false_iff.1 (given .printDirectives))
  obtain ⟨r, hr⟩ := Option.isSome_iff_exists.1 (Option.isNone_eq_false_iff.1 (given .reporter))
  obtain ⟨o, ho⟩ := Option.isSome_iff_exists.1 (Option.isNone_eq_false_iff.1 (given .generalOptions))
  simp only [setup, ht, hd, hr]
  exact ⟨_, o, rfl, ho, ht, rfl, hd, hr, ho, rfl, rfl, rfl, rfl⟩

/-- With all needed parts set, building carries out the plan, with a setup in
which the rules have no part. -/
theorem build_of_given {s : Settings} (h : s.firstMissing = none) :
    ∃ setup : PassSetup, setup.Holds s.get ∧ ∀ (rules : StopRules) (f : Factory),
      let s' := s.withRules rules
      s'.build f =
        match s'.plan with
        | .error e => ⟨[], .error e, s'.planLog⟩
        | .ok p =>
          ⟨upToFirst f.misnames (p.requests setup),
            match (p.requests setup).find? f.misnames with
            | none => .ok (f.pipeline setup p)
            | some q => .error (.wrongName q.roleName (f.nameFor q)),
            s'.planLog⟩ := by
  obtain ⟨mk, o, hmk, ho, hholds⟩ := exists_setup h
  refine ⟨mk o, hholds, fun rules f => ?_⟩
  intro s'
  have hmk' : s'.setup = .ok mk := hmk
  have ho' : s'.options = some o := ho
  unfold build
  simp only [hmk', ho']
  cases s'.plan with
  | error e => rfl
  | ok p => simp only [Factory.makeAll_eq]

/-- Only from a plan is a pipeline built. -/
theorem plan_of_build {s : Settings} {f : Factory} {pipe : Pipeline}
    (hbuild : (s.build f).result = .ok pipe) : ∃ p, s.plan = .ok p := by
  cases hplan : s.plan with
  | ok p => exact ⟨p, rfl⟩
  | error e =>
    cases hmissing : s.firstMissing with
    | some part =>
      rw [build_of_missing hmissing f] at hbuild
      cases hbuild
    | none =>
      obtain ⟨setup, -, hgiven⟩ := build_of_given hmissing
      have hrun := hgiven s.rules f
      simp only [withRules_self, hplan] at hrun
      rw [hrun] at hbuild
      cases hbuild

/-- A pipeline that has been built has the passes of the plan, made with what the
settings hold. With other rules or another factory the passes are made with the
same setup. -/
theorem pipeline_of_build {s : Settings} {f : Factory} {p : Plan} {pipe : Pipeline}
    (hplan : s.plan = .ok p) (hbuild : (s.build f).result = .ok pipe) :
    ∃ setup : PassSetup, pipe = f.pipeline setup p ∧
      (p.requests setup).find? f.misnames = none ∧
      (∀ (rules : StopRules) (f' : Factory) (p' : Plan), (s.withRules rules).plan = .ok p' →
        (p'.requests setup).find? f'.misnames = none →
        ((s.withRules rules).build f').result = .ok (f'.pipeline setup p')) ∧
      setup.Holds s.get := by
  cases hmissing : s.firstMissing with
  | some part =>
    rw [build_of_missing hmissing f] at hbuild
    cases hbuild
  | none =>
    obtain ⟨setup, hholds, hgiven⟩ := build_of_given hmissing
    have hrun := hgiven s.rules f
    simp only [withRules_self, hplan] at hrun
    rw [hrun] at hbuild
    cases hfind : (p.requests setup).find? f.misnames with
    | some q =>
      simp only [hfind] at hbuild
      cases hbuild
    | none =>
      simp only [hfind, Except.ok.injEq] at hbuild
      refine ⟨setup, hbuild.symm, hfind, fun rules f' p' hplan' hfind' => ?_, hholds⟩
      rw [hgiven rules f']
      simp only [hplan', hfind']

/-- **Building refines planning.** The first needed part that is missing is the
error, whatever the rules are; then an error of the plan is; in both cases the
factory is asked for nothing. Otherwise it is asked for the passes of the plan in
order, no role twice and each time with the setup that was set last, up to the
first pass with a wrong name, which is the error; if there is none, the pipeline
has the passes asked for, and their names are those of the plan, all different. -/
theorem build_refines_plan (base : Settings) (steps : List Setting) (f : Factory) :
    let s := base.applyAll steps
    let run := s.build f
    match s.firstMissing with
    | some part => run.requests = [] ∧ run.result = .error (.missing part)
    | none =>
      match s.plan with
      | .error e => run.requests = [] ∧ run.result = .error e
      | .ok p =>
        ∃ setup : PassSetup, setup.Holds (base.lastWritten steps) ∧
          (p.requests setup).Nodup ∧
          run.requests = upToFirst f.misnames (p.requests setup) ∧
          match (p.requests setup).find? f.misnames with
          | some q => run.result = .error (.wrongName q.roleName (f.nameFor q))
          | none =>
            run.result = .ok (f.pipeline setup p) ∧
            (f.pipeline setup p).filePassNames = p.singleFileNames ∧
            (f.pipeline setup p).fileSetPassNames = p.fileSetNames ∧
            (p.singleFileNames ++ p.fileSetNames).Nodup := by
  intro s run
  cases hmissing : s.firstMissing with
  | some part =>
    have hbuild := build_of_missing hmissing f
    exact ⟨congrArg BuildRun.requests hbuild, congrArg BuildRun.result hbuild⟩
  | none =>
    obtain ⟨setup, hholds, hbuild⟩ := build_of_given hmissing
    have hrun : run = _ := hbuild s.rules f
    rw [withRules_self] at hrun
    cases hplan : s.plan with
    | error e =>
      simp only [hplan] at hrun
      exact ⟨congrArg BuildRun.requests hrun, congrArg BuildRun.result hrun⟩
    | ok p =>
      simp only [hplan] at hrun
      have hwritten : s.get = base.lastWritten steps := funext fun part => get_applyAll part steps base
      have hnodup := nodup_of_plan hplan
      refine ⟨setup, hwritten ▸ hholds, Plan.requests_nodup hnodup setup,
        congrArg BuildRun.requests hrun, ?_⟩
      cases hfind : (p.requests setup).find? f.misnames with
      | some q =>
        simp only [hfind] at hrun
        exact congrArg BuildRun.result hrun
      | none =>
        simp only [hfind] at hrun
        obtain ⟨hfiles, hsets⟩ := Factory.pipeline_names hfind
        exact ⟨congrArg BuildRun.result hrun, hfiles, hsets, Plan.names_nodup hnodup⟩

/-- Settings with all needed parts, and the defaults otherwise. -/
def ready : Settings where
  typeNames := some {}
  directives := some .empty
  reporter := some {}
  options := some {}

theorem plan_ready : ready.plan = .ok ⟨ready.fileCandidates {}, ready.fileSetCandidates {}⟩ := rfl

end Settings
end TemplatePasses
