/-
# The log of a plan

Planning logs what becomes of each candidate, in the order of the candidates, and
a summary at the end if there is a plan. From outside the state of the assembly
is not seen, and it is not needed: what is logged of a candidate follows from its
place and the place of the first candidate that has a rule (`StopRules.verdict`).
Nor is the plan needed to read the log: each event of a candidate has its name and,
as its message, the verdict, and the names that are told to be admitted are those of
the plan.

Key definitions: `StopRules.verdict`, `Verdict.halts`, `Settings.summary`.
Key theorems: `Assembly.offerAll_eq_mapIdx`, `Assembly.halts_offerAll`,
`Assembly.halts_before_dropped`, `StopRules.event_verdict`,
`Settings.planLog_of_options`, `Settings.filter_planLog`, `Settings.log_tells_plan`.
-/
import TemplatePasses.Proofs.Building

namespace TemplatePasses

open Log (Event)

variable {α β : Type} [Named α] [Named β]

/-! ### Verdicts -/

/-- The verdict on the candidate at place `i`: all before the first that has a rule
are admitted, this one is treated as its rule says, and all behind it are dropped. -/
def StopRules.verdict (rules : StopRules) (cs : List α) (i : Nat) (c : α) : Verdict :=
  let first := cs.findIdx rules.covers
  if i < first then .admitted
  else if i = first then
    if rules.find? (Named.name c) = some .after then .admittedLast else .haltedBefore
  else .dropped

/-- Whether assembly halts at the candidate. -/
def Verdict.halts : Verdict → Bool
  | .admittedLast | .haltedBefore => true
  | .admitted | .dropped => false

namespace StopRules

theorem verdict_cons_of_none {rules : StopRules} {c : α} (h : rules.find? (Named.name c) = none)
    (cs : List α) : rules.verdict (c :: cs) 0 c = .admitted ∧
      ∀ i d, rules.verdict (c :: cs) (i + 1) d = rules.verdict cs i d := by
  have hfirst : (c :: cs).findIdx rules.covers = cs.findIdx rules.covers + 1 := by
    rw [List.findIdx_cons, covers_of_none h, cond_false]
  unfold verdict
  simp [hfirst]

theorem verdict_cons_of_some {rules : StopRules} {c : α} {rule : StopRule}
    (h : rules.find? (Named.name c) = some rule) (cs : List α) :
    rules.verdict (c :: cs) 0 c = Verdict.of true (some rule) ∧
      ∀ i d, rules.verdict (c :: cs) (i + 1) d = .dropped := by
  have hfirst : (c :: cs).findIdx rules.covers = 0 := by
    rw [List.findIdx_cons, covers_of_some h, cond_true]
  unfold verdict
  cases rule <;> simp [hfirst, h, Verdict.of]

end StopRules

/-- At a candidate with a rule assembly halts. -/
theorem Verdict.halts_of_rule (rule : StopRule) : (Verdict.of true (some rule)).halts = true := by
  cases rule <;> rfl

namespace Assembly

/-- Behind the halt every candidate is dropped. -/
theorem offerAll_halted : ∀ (cs : List α) (rules : StopRules),
    (offerAll ⟨rules, false⟩ cs).1 = cs.map (·, .dropped)
  | [], _ => rfl
  | c :: cs, rules => by
    rw [offerAll_cons, List.map_cons, ← offerAll_halted cs (rules.erase (Named.name c))]
    rfl

/-- A candidate without a rule is admitted, and the rest is judged as if it came first. -/
theorem offerAll_cons_of_none {rules : StopRules} {c : α}
    (h : rules.find? (Named.name c) = none) (cs : List α) :
    (offerAll ⟨rules, true⟩ (c :: cs)).1 = (c, .admitted) :: (offerAll ⟨rules, true⟩ cs).1 := by
  rw [offerAll_cons, offer_of_building, h, erase_eq_self h]
  rfl

/-- At the first candidate with a rule assembly halts, and the rest is dropped. -/
theorem offerAll_cons_of_some {rules : StopRules} {c : α} {rule : StopRule}
    (h : rules.find? (Named.name c) = some rule) (cs : List α) :
    (offerAll ⟨rules, true⟩ (c :: cs)).1 =
      (c, Verdict.of true (some rule)) :: cs.map (·, .dropped) := by
  have hhalted : (Verdict.of true (some rule)).goesOn = false := by cases rule <;> rfl
  rw [offerAll_cons, offer_of_building, h, hhalted, offerAll_halted]

/-- **The verdict on a candidate follows from its place** and that of the first
candidate with a rule. -/
theorem offerAll_eq_mapIdx (rules : StopRules) : ∀ cs : List α,
    (offerAll ⟨rules, true⟩ cs).1 = cs.mapIdx fun i c => (c, rules.verdict cs i c)
  | [] => rfl
  | c :: cs => by
    cases h : rules.find? (Named.name c) with
    | none =>
      obtain ⟨hfirst, hrest⟩ := StopRules.verdict_cons_of_none h cs
      simp only [offerAll_cons_of_none h, List.mapIdx_cons, hfirst, hrest,
        offerAll_eq_mapIdx rules cs]
    | some rule =>
      obtain ⟨hfirst, hrest⟩ := StopRules.verdict_cons_of_some h cs
      simp only [offerAll_cons_of_some h, List.mapIdx_cons, hfirst, hrest]
      exact congrArg _ (List.ext_getElem? fun i => by simp)

theorem events_offerAll (rules : StopRules) (cs : List α) :
    events (offerAll ⟨rules, true⟩ cs).1 =
      cs.mapIdx fun i c => (rules.verdict cs i c).event (Named.name c) := by
  rw [offerAll_eq_mapIdx, events, List.mapIdx_eq_zipIdx_map, List.map_map,
    List.mapIdx_eq_zipIdx_map]
  rfl

/-- Assembly halts at one candidate at most. -/
theorem halts_offerAll (rules : StopRules) : ∀ cs : List α,
    ((offerAll ⟨rules, true⟩ cs).1.filter (·.2.halts)).length ≤ 1
  | [] => Nat.zero_le 1
  | c :: cs => by
    cases h : rules.find? (Named.name c) with
    | none =>
      rw [offerAll_cons_of_none h]
      exact halts_offerAll rules cs
    | some rule =>
      have hrest : (cs.map (·, Verdict.dropped)).filter (·.2.halts) = [] := by
        simp [List.filter_map, Function.comp_def, Verdict.halts]
      rw [offerAll_cons_of_some h, List.filter_cons, hrest]
      simp only [Verdict.halts_of_rule, if_true, List.length_singleton, Nat.le_refl]

/-- Before a candidate that is dropped there is one at which assembly halts. -/
theorem halts_before_dropped (rules : StopRules) : ∀ (cs : List α)
    {before after : List (α × Verdict)} {c : α},
    (offerAll ⟨rules, true⟩ cs).1 = before ++ (c, .dropped) :: after →
      ∃ v ∈ before, v.2.halts = true
  | [], before, _, _, h => by cases before <;> cases h
  | d :: cs, before, after, c, h => by
    cases hrule : rules.find? (Named.name d) with
    | none =>
      rw [offerAll_cons_of_none hrule] at h
      cases before with
      | nil => cases (List.cons.inj h).1
      | cons v before =>
        obtain ⟨w, hw, hhalts⟩ := halts_before_dropped rules cs (List.cons.inj h).2
        exact ⟨w, List.mem_cons_of_mem _ hw, hhalts⟩
    | some rule =>
      rw [offerAll_cons_of_some hrule] at h
      have hhalts := Verdict.halts_of_rule rule
      cases before with
      | nil =>
        -- the candidate itself is not dropped
        have hdropped : Verdict.of true (some rule) = .dropped :=
          congrArg Prod.snd (List.cons.inj h).1
        rw [hdropped] at hhalts
        cases hhalts
      | cons v before =>
        obtain ⟨rfl, -⟩ := List.cons.inj h
        exact ⟨_, List.mem_cons_self .., hhalts⟩

theorem events_append (vs ws : List (α × Verdict)) : events (vs ++ ws) = events vs ++ events ws :=
  List.map_append

/-- The events know a candidate by its name only. -/
theorem events_map {f : α → β} (hf : ∀ c, Named.name (f c) = Named.name c)
    (vs : List (α × Verdict)) : events (vs.map fun v => (f v.1, v.2)) = events vs := by
  simp only [events, List.map_map, Function.comp_def, hf]

end Assembly

/-! ### Reading the log

From outside a verdict is known by its message. -/

theorem Verdict.message_admits (v : Verdict) :
    decide (v.message ∈ ["admitted", "admitted, halting after it"]) = v.admits := by
  cases v <;> rfl

theorem Verdict.message_halts (v : Verdict) :
    decide (v.message ∈ ["admitted, halting after it", "halting before it"]) = v.halts := by
  cases v <;> rfl

theorem Verdict.eq_dropped_of_message {v : Verdict} (h : v.message = "dropped, assembly halted") :
    v = .dropped := by
  cases v with
  | dropped => rfl
  | admitted | admittedLast | haltedBefore => exact absurd h (by decide)

/-- The event of a candidate, from its place. -/
theorem StopRules.event_verdict (rules : StopRules) (cs : List α) (i : Nat) (c : α) :
    (rules.verdict cs i c).event (Named.name c) =
      let first := cs.findIdx fun c => (rules.find? (Named.name c)).isSome
      let event := fun level message => Event.mk level "stencil::assembly" message
        [("pass", .text (Named.name c))]
      if i < first then event .trace "admitted"
      else if i = first then
        if rules.find? (Named.name c) = some .after then event .debug "admitted, halting after it"
        else event .debug "halting before it"
      else event .trace "dropped, assembly halted" := by
  have hfirst : cs.findIdx rules.covers =
      cs.findIdx fun c => (rules.find? (Named.name c)).isSome := rfl
  simp only [verdict, hfirst]
  split
  · rfl
  · split
    · split <;> rfl
    · rfl

/-- What is read from the events of candidates is read from their verdicts. -/
theorem Assembly.filter_events {messages : List String} {keep : Verdict → Bool}
    (h : ∀ v : Verdict, decide (v.message ∈ messages) = keep v) (vs : List (α × Verdict)) :
    (events vs).filter (·.message ∈ messages) = events (vs.filter (keep ·.2)) := by
  have hkeep : (fun e : Event => decide (e.message ∈ messages)) ∘
      (fun v : α × Verdict => v.2.event (Named.name v.1)) = fun v => keep v.2 :=
    funext fun v => h v.2
  rw [events, List.filter_map, hkeep]
  rfl

namespace Settings

/-- The events with which planning ends. -/
def summary : Except PlanError Plan → List Event
  | .ok p => [assembledEvent p]
  | .error _ => []

theorem message_of_mem_summary {plan : Except PlanError Plan} {e : Event} (h : e ∈ summary plan) :
    e.message = "pipeline assembled" := by
  cases plan with
  | error _ => cases h
  | ok p =>
    obtain rfl := List.mem_singleton.1 h
    rfl

/-- The log of a plan has the events of all candidates, of both kinds, and its summary. -/
theorem planLog_of_options {s : Settings} {o : GeneralOptions} (h : s.options = some o) :
    s.planLog =
      Assembly.events (Assembly.offerAll { rules := s.rules } (s.candidates o)).1 ++
        summary s.plan := by
  have files : ∀ r : FileRole, Named.name (Role.file r) = Named.name r := fun _ => rfl
  have sets : ∀ r : FileSetRole, Named.name (Role.fileSet r) = Named.name r := fun _ => rfl
  rw [offerAll_candidates]
  simp only [Assembly.events_append, Assembly.events_map files, Assembly.events_map sets]
  unfold planLog plan assemble
  simp only [h]
  cases (Assembly.offerAll _ (s.fileSetCandidates o)).2.finish with
  | ok _ => rfl
  | error _ => exact (List.append_nil _).symm

/-- What is read from the log is read from the verdicts; the summary is about none. -/
theorem filter_planLog {s : Settings} {o : GeneralOptions} (h : s.options = some o)
    {messages : List String} {keep : Verdict → Bool}
    (hkeep : ∀ v : Verdict, decide (v.message ∈ messages) = keep v)
    (hsummary : "pipeline assembled" ∉ messages) :
    s.planLog.filter (·.message ∈ messages) = Assembly.events
      ((Assembly.offerAll { rules := s.rules } (s.candidates o)).1.filter (keep ·.2)) := by
  have hnone : (summary s.plan).filter (·.message ∈ messages) = [] :=
    List.filter_eq_nil_iff.2 fun e he => by simpa [message_of_mem_summary he] using hsummary
  rw [planLog_of_options h, List.filter_append, Assembly.filter_events hkeep, hnone,
    List.append_nil]

/-- The names told to be admitted are those of the plan. -/
theorem admitted_of_plan {s : Settings} {p : Plan} (h : s.plan = .ok p) :
    (s.planLog.filter (·.message ∈ ["admitted", "admitted, halting after it"])).map (·.fields) =
      (p.singleFileNames ++ p.fileSetNames).map fun name => [("pass", .text name)] := by
  obtain ⟨o, ho, hroles⟩ := roles_of_plan h
  rw [filter_planLog ho Verdict.message_admits (by decide), Plan.names_eq, hroles,
    ← Assembly.admitted_offerAll, Assembly.admitted, Assembly.events, List.map_map, List.map_map,
    List.map_map]
  rfl

/-- Assembly is told to halt once at most. -/
theorem halts_planLog {s : Settings} {o : GeneralOptions} (h : s.options = some o) :
    (s.planLog.filter
      (·.message ∈ ["admitted, halting after it", "halting before it"])).length ≤ 1 := by
  rw [filter_planLog h Verdict.message_halts (by decide), Assembly.events, List.length_map]
  exact Assembly.halts_offerAll s.rules _

/-- Before a candidate that is told to be dropped, one is told at which assembly halts. -/
theorem halt_before_dropped {s : Settings} {o : GeneralOptions} (h : s.options = some o)
    {before after : List Event} {e : Event} (hsplit : s.planLog = before ++ e :: after)
    (he : e.message = "dropped, assembly halted") :
    ∃ d ∈ before, d.message ∈ ["admitted, halting after it", "halting before it"] := by
  have hsummary : e ∉ summary s.plan := fun hmem => by
    rw [message_of_mem_summary hmem] at he
    exact absurd he (by decide)
  rw [planLog_of_options h, List.append_eq_append_iff] at hsplit
  obtain ⟨behind, -, hbehind⟩ | ⟨rest, hevents, hrest⟩ := hsplit
  · exact absurd (hbehind ▸ List.mem_append_right _ (List.mem_cons_self ..)) hsummary
  · cases rest with
    | nil =>
      rw [List.nil_append] at hrest
      exact absurd (hrest ▸ List.mem_cons_self ..) hsummary
    | cons e' rest =>
      obtain ⟨rfl, -⟩ := List.cons.inj hrest
      obtain ⟨front, back, hvs, rfl, hback⟩ := List.map_eq_append_iff.1 hevents
      obtain ⟨⟨c, verdict⟩, behind, rfl, rfl, -⟩ := List.map_eq_cons_iff.1 hback
      obtain rfl := Verdict.eq_dropped_of_message he
      obtain ⟨w, hw, hhalts⟩ := Assembly.halts_before_dropped s.rules _ hvs
      exact ⟨_, List.mem_map_of_mem hw, of_decide_eq_true (w.2.message_halts.trans hhalts)⟩

/-- **The log tells what was planned.** Without options nothing is logged. With
options there is one event for each candidate, in the order of the candidates, and
its place and the first candidate with a rule decide what it says; then the summary
with the lengths of both lists, if there is a plan, and nothing if a rule is left. So
the names told to be admitted are those of the plan, assembly is told to halt once at
most, and a candidate is dropped only behind the one at which it halts. -/
theorem log_tells_plan (s : Settings) :
    match s.options with
    | none => s.planLog = []
    | some o =>
      let cs := s.candidates o
      let first := cs.findIdx fun c => (s.rules.find? c.name).isSome
      let event := fun level message (c : Role) => Event.mk level "stencil::assembly" message
        [("pass", .text c.name)]
      let events := cs.mapIdx fun i c =>
        if i < first then event .trace "admitted" c
        else if i = first then
          if s.rules.find? c.name = some .after then event .debug "admitted, halting after it" c
          else event .debug "halting before it" c
        else event .trace "dropped, assembly halted" c
      (match s.plan with
      | .ok p =>
        s.planLog = events ++ [Event.mk .debug "stencil::assembly" "pipeline assembled"
          [("single_file", .count p.singleFile.length), ("fileset", .count p.fileSet.length)]] ∧
        (s.planLog.filter (·.message ∈ ["admitted", "admitted, halting after it"])).map (·.fields) =
          (p.singleFileNames ++ p.fileSetNames).map fun name => [("pass", .text name)]
      | .error e => s.planLog = events ∧ ∃ rules, e = .unmatchedRules rules) ∧
      (s.planLog.filter
        (·.message ∈ ["admitted, halting after it", "halting before it"])).length ≤ 1 ∧
      ∀ before e after, s.planLog = before ++ e :: after →
        e.message = "dropped, assembly halted" →
        ∃ d ∈ before, d.message ∈ ["admitted, halting after it", "halting before it"] := by
  cases ho : s.options with
  | none => simp only [planLog, assemble, ho]
  | some o =>
    have hlog := planLog_of_options ho
    rw [Assembly.events_offerAll] at hlog
    simp only [StopRules.event_verdict] at hlog
    refine ⟨?_, halts_planLog ho, fun _ _ _ => halt_before_dropped ho⟩
    cases hplan : s.plan with
    | ok p =>
      rw [hplan] at hlog
      exact ⟨hlog, admitted_of_plan hplan⟩
    | error e =>
      rw [hplan, summary, List.append_nil] at hlog
      exact ⟨hlog, _, error_of_options ho hplan⟩

end Settings
end TemplatePasses
