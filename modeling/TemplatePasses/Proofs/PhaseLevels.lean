/-
# The level of one phase

A filter decides about a target by the longest of its directives that covers it
(`Filter.decides_of_deciding?`). The directives of a log configuration are apart: no
target is covered by two of them, as none of their texts begins with another
(`directives_apart`). So what a phase was given last decides for just the targets
that begin with the phase's own, also for longer words like `stencil::fileset_x`, and
the level for everything decides for all others, those of the command line among
them (`overrides_isolated`).

Key definitions: `LogConfig.applyAll`, `lastLevel`, `Covers`, `Filter.Decides`,
`directiveTexts`.
Key theorems: `Filter.decides_of_deciding?`, `own_applyAll`, `phase_eq_of_covers`,
`levelOf_of_covers`, `levelOf_of_uncovered`, `overrides_isolated`.
-/
import TemplatePasses.Log.Filter
import Mathlib.Data.List.Infix

namespace TemplatePasses.Log

/-! ### Overrides in turn -/

/-- The levels with some overrides applied, one after the other. -/
def LogConfig.applyAll (c : LogConfig) (overrides : List Override) : LogConfig :=
  overrides.foldl apply c

/-- The level that the last of the overrides for a phase gives it. -/
def lastLevel (overrides : List Override) (p : LogPhase) : Option Level :=
  (overrides.reverse.find? (·.phase = p)).map (·.level)

theorem lastLevel_cons (o : Override) (rest : List Override) (p : LogPhase) :
    lastLevel (o :: rest) p =
      (lastLevel rest p).or (if o.phase = p then some o.level else none) := by
  unfold lastLevel
  rw [List.reverse_cons, List.find?_append]
  cases rest.reverse.find? (·.phase = p) with
  | some last => rfl
  | none => by_cases h : o.phase = p <;> simp [h]

namespace LogConfig

theorem own_apply (c : LogConfig) (o : Override) (p : LogPhase) :
    (c.apply o).own p = if o.phase = p then some o.level else c.own p := by
  obtain ⟨q, level⟩ := o
  cases q <;> cases p <;> rfl

@[simp] theorem overall_apply (c : LogConfig) (o : Override) :
    (c.apply o).overall = c.overall := by
  obtain ⟨q, level⟩ := o
  cases q <;> rfl

/-- **A phase has the level that it was given last.** -/
theorem own_applyAll (p : LogPhase) : ∀ (overrides : List Override) (c : LogConfig),
    (c.applyAll overrides).own p = (lastLevel overrides p).or (c.own p)
  | [], _ => rfl
  | o :: rest, c => by
    have ih := own_applyAll p rest (c.apply o)
    show ((c.apply o).applyAll rest).own p = _
    rw [ih, own_apply, lastLevel_cons]
    by_cases h : o.phase = p
    · rw [if_pos h, if_pos h]
      cases lastLevel rest p <;> rfl
    · rw [if_neg h, if_neg h, Option.or_none]

@[simp] theorem overall_applyAll (c : LogConfig) (overrides : List Override) :
    (c.applyAll overrides).overall = c.overall := by
  induction overrides generalizing c with
  | nil => rfl
  | cons o rest ih => exact (ih (c.apply o)).trans (overall_apply c o)

end LogConfig

/-! ### The longest directive -/

/-- A target begins with the text of a directive. -/
def Covers (directive target : String) : Prop :=
  directive.toList <+: target.toList

namespace Filter

theorem covers_iff {directive target : String} :
    covers directive target = true ↔ Covers directive target :=
  List.isPrefixOf_iff_prefix

/-- A directive decides about a target: it covers the target, and no longer one does. -/
structure Decides (f : Filter) (d : String × Level) (target : String) : Prop where
  mem : d ∈ f.targets
  covers : Covers d.1 target
  longest : ∀ e ∈ f.targets, Covers e.1 target → e.1.length ≤ d.1.length

/-- The longest of some directives is one of them. -/
theorem foldl_longer_mem : ∀ (ds : List (String × Level)) (d : String × Level),
    ds.foldl longer d ∈ d :: ds
  | [], d => List.mem_singleton_self d
  | e :: ds, d => by
    rcases List.mem_cons.1 (foldl_longer_mem ds (longer d e)) with h | h
    · rw [List.foldl_cons, h]
      unfold longer
      split <;> simp
    · exact List.mem_cons_of_mem d (List.mem_cons_of_mem e h)

theorem length_le_foldl_longer : ∀ (ds : List (String × Level)) (d : String × Level),
    ∀ e ∈ d :: ds, e.1.length ≤ (ds.foldl longer d).1.length
  | [], d, e, he => by
    obtain rfl := List.mem_singleton.1 he
    exact Nat.le_refl _
  | e' :: ds, d, e, he => by
    have hlonger : d.1.length ≤ (longer d e').1.length ∧ e'.1.length ≤ (longer d e').1.length := by
      unfold longer
      split <;> omega
    have ih := length_le_foldl_longer ds (longer d e')
    have hfirst := ih _ (List.mem_cons_self ..)
    rw [List.foldl_cons]
    rcases List.mem_cons.1 he with rfl | he
    · omega
    · rcases List.mem_cons.1 he with rfl | he
      · omega
      · exact ih e (List.mem_cons_of_mem _ he)

theorem deciding?_of_nil {f : Filter} {target : String}
    (h : f.targets.filter (fun d => covers d.1 target) = []) : f.deciding? target = none := by
  rw [deciding?, h]
  rfl

/-- Of the directives that cover the target, the first of the longest ones is found. -/
theorem deciding?_of_cons {f : Filter} {target : String} {d : String × Level}
    {ds : List (String × Level)} (h : f.targets.filter (fun d => covers d.1 target) = d :: ds) :
    f.deciding? target = some (ds.foldl longer d) := by
  rw [deciding?, h, List.foldl_cons]
  exact List.foldl_hom some fun _ _ => rfl

/-- **The longest directive that covers a target decides about it.** -/
theorem decides_of_deciding? {f : Filter} {d : String × Level} {target : String}
    (h : f.deciding? target = some d) : f.Decides d target := by
  have hmem : ∀ e, e ∈ f.targets.filter (fun d => covers d.1 target) ↔
      e ∈ f.targets ∧ Covers e.1 target := fun e => by rw [List.mem_filter, covers_iff]
  cases hcovering : f.targets.filter fun d => covers d.1 target with
  | nil =>
    rw [deciding?_of_nil hcovering] at h
    cases h
  | cons first rest =>
    rw [deciding?_of_cons hcovering] at h
    obtain rfl := Option.some.inj h
    rw [hcovering] at hmem
    obtain ⟨hin, hcovers⟩ := (hmem _).1 (foldl_longer_mem rest first)
    exact ⟨hin, hcovers, fun e he hecovers =>
      length_le_foldl_longer rest first e ((hmem e).2 ⟨he, hecovers⟩)⟩

/-- No directive decides only if none covers the target. -/
theorem uncovered_of_deciding? {f : Filter} {target : String} (h : f.deciding? target = none) :
    ∀ d ∈ f.targets, ¬Covers d.1 target := by
  intro d hd hcovers
  have hmem : d ∈ f.targets.filter fun d => covers d.1 target :=
    List.mem_filter.2 ⟨hd, covers_iff.2 hcovers⟩
  cases hcovering : f.targets.filter fun d => covers d.1 target with
  | nil => simp [hcovering] at hmem
  | cons first rest =>
    rw [deciding?_of_cons hcovering] at h
    cases h

end Filter

/-! ### Directives that are apart -/

/-- The texts of the directives that a log configuration gives a level. -/
def directiveTexts : List String :=
  commandTarget :: LogPhase.all.map LogPhase.target

/-- None of the directives' texts begins with another. -/
theorem directives_apart : ∀ d ∈ directiveTexts, ∀ e ∈ directiveTexts, Covers d e → d = e := by
  unfold Covers
  decide

theorem LogPhase.mem_all (p : LogPhase) : p ∈ LogPhase.all := by
  cases p <;> decide

theorem target_mem (p : LogPhase) : p.target ∈ directiveTexts :=
  List.mem_cons_of_mem _ (List.mem_map_of_mem p.mem_all)

/-- A target is covered by one of the directives at most. -/
theorem eq_of_covers {d e t : String} (hd : d ∈ directiveTexts) (he : e ∈ directiveTexts)
    (hdt : Covers d t) (het : Covers e t) : d = e := by
  rcases List.prefix_or_prefix_of_prefix hdt het with h | h
  · exact directives_apart d hd e he h
  · exact (directives_apart e he d hd h).symm

theorem LogPhase.target_injective {p q : LogPhase} (h : p.target = q.target) : p = q := by
  revert h
  cases p <;> cases q <;> decide

theorem LogPhase.target_ne_commandTarget (p : LogPhase) : p.target ≠ commandTarget := by
  cases p <;> decide

/-- A target begins with the target of one phase at most. -/
theorem phase_eq_of_covers {p q : LogPhase} {t : String} (hp : Covers p.target t)
    (hq : Covers q.target t) : p = q :=
  LogPhase.target_injective (eq_of_covers (target_mem p) (target_mem q) hp hq)

/-- The targets of the command line belong to no phase. -/
theorem not_covers_of_command {t : String} (h : Covers commandTarget t) (p : LogPhase) :
    ¬Covers p.target t := fun hp =>
  p.target_ne_commandTarget (eq_of_covers (target_mem p) (List.mem_cons_self ..) hp h)

/-! ### The level of a target -/

namespace LogConfig

/-- A directive of the filter is that of a phase or that of the command line. -/
theorem mem_filter_targets {c : LogConfig} {d : String × Level} :
    d ∈ c.filter.targets ↔
      (∃ p : LogPhase, d = (p.target, c.levelFor p)) ∨ d = (commandTarget, c.overall) := by
  unfold filter
  rw [List.mem_append, List.mem_singleton, List.mem_map]
  refine or_congr_left ⟨fun ⟨p, _, hp⟩ => ⟨p, hp.symm⟩, fun ⟨p, hp⟩ => ⟨p, p.mem_all, hp.symm⟩⟩

/-- A phase has the level that it was given last, or else the level for everything. -/
theorem levelFor_applyAll (overall : Level) (overrides : List Override) (p : LogPhase) :
    (applyAll { overall } overrides).levelFor p = (lastLevel overrides p).getD overall := by
  have hplain : ({ overall } : LogConfig).own p = none := by cases p <;> rfl
  rw [levelFor, own_applyAll, hplain, overall_applyAll, Option.or_none]

theorem levelFor_apply_other {o : Override} {p : LogPhase} (h : o.phase ≠ p) (c : LogConfig) :
    (c.apply o).levelFor p = c.levelFor p := by
  rw [levelFor, levelFor, own_apply, if_neg h, overall_apply]

/-- **A phase's level decides about the targets that begin with the phase's.** -/
theorem levelOf_of_covers {c : LogConfig} {p : LogPhase} {t : String} (h : Covers p.target t) :
    c.filter.levelOf t = c.levelFor p := by
  unfold Filter.levelOf
  cases hdeciding : c.filter.deciding? t with
  | none =>
    have hmem : (p.target, c.levelFor p) ∈ c.filter.targets := mem_filter_targets.2 (.inl ⟨p, rfl⟩)
    exact absurd h (Filter.uncovered_of_deciding? hdeciding _ hmem)
  | some d =>
    obtain ⟨hmem, hcovers, -⟩ := Filter.decides_of_deciding? hdeciding
    rcases mem_filter_targets.1 hmem with ⟨q, rfl⟩ | rfl
    · rw [phase_eq_of_covers h hcovers]
    · exact absurd h (not_covers_of_command hcovers p)

/-- **The level for everything decides about all other targets.** -/
theorem levelOf_of_uncovered {c : LogConfig} {t : String}
    (h : ∀ p : LogPhase, ¬Covers p.target t) : c.filter.levelOf t = c.overall := by
  unfold Filter.levelOf
  cases hdeciding : c.filter.deciding? t with
  | none => rfl
  | some d =>
    obtain ⟨hmem, hcovers, -⟩ := Filter.decides_of_deciding? hdeciding
    rcases mem_filter_targets.1 hmem with ⟨q, rfl⟩ | rfl
    · exact absurd hcovers (h q)
    · rfl

/-- An override changes nothing but the targets of its phase. -/
theorem levelOf_apply_other {o : Override} {t : String} (h : ¬Covers o.phase.target t)
    (c : LogConfig) : (c.apply o).filter.levelOf t = c.filter.levelOf t := by
  by_cases hcovered : ∃ p : LogPhase, Covers p.target t
  · obtain ⟨p, hp⟩ := hcovered
    have hne : o.phase ≠ p := fun heq => h (heq ▸ hp)
    rw [levelOf_of_covers hp, levelOf_of_covers hp, levelFor_apply_other hne]
  · have huncovered := not_exists.1 hcovered
    rw [levelOf_of_uncovered huncovered, levelOf_of_uncovered huncovered, overall_apply]

end LogConfig

theorem Filter.enables_iff {f : Filter} {t : String} {l : Level} :
    f.enables t l = true ↔ l.verbosity ≤ (f.levelOf t).verbosity :=
  decide_eq_true_iff

theorem Filter.enables_congr {f g : Filter} {t : String} (h : f.levelOf t = g.levelOf t)
    (l : Level) : f.enables t l = g.enables t l := by
  unfold enables
  rw [h]

/-- **Overrides are seen in their own phase only.** Take any level for everything and
any overrides in turn. What is logged of a target that begins with a phase's own goes
up to the level that the phase was given last; of any other target, or if the phase
was given none, up to the level for everything. There is one such phase at most. So a
further override changes nothing but targets of its phase, and no override is seen in
the targets of the command line or in those outside the phases. -/
theorem overrides_isolated (overall : Level) (overrides : List Override) (t : String) :
    let c := LogConfig.applyAll { overall } overrides
    (∀ p level, Covers p.target t → lastLevel overrides p = some level →
      ∀ l, c.filter.enables t l = true ↔ l.verbosity ≤ level.verbosity) ∧
    ((∀ p : LogPhase, Covers p.target t → lastLevel overrides p = none) →
      ∀ l, c.filter.enables t l = true ↔ l.verbosity ≤ overall.verbosity) ∧
    (∀ p q : LogPhase, Covers p.target t → Covers q.target t → p = q) ∧
    (∀ (o : Override) l, (c.apply o).filter.enables t l ≠ c.filter.enables t l →
      Covers o.phase.target t) ∧
    (Covers commandTarget t ∨ (∀ p : LogPhase, ¬Covers p.target t) →
      ∀ l, c.filter.enables t l = ({ overall } : LogConfig).filter.enables t l) := by
  intro c
  have hoverall : c.overall = overall := LogConfig.overall_applyAll _ _
  refine ⟨fun p level hp hlast l => ?_, fun hnone l => ?_, fun p q => phase_eq_of_covers,
    fun o l hchanged => ?_, fun houtside l => ?_⟩
  · rw [Filter.enables_iff, LogConfig.levelOf_of_covers hp, LogConfig.levelFor_applyAll, hlast,
      Option.getD_some]
  · rw [Filter.enables_iff]
    by_cases hcovered : ∃ p : LogPhase, Covers p.target t
    · obtain ⟨p, hp⟩ := hcovered
      rw [LogConfig.levelOf_of_covers hp, LogConfig.levelFor_applyAll, hnone p hp, Option.getD_none]
    · rw [LogConfig.levelOf_of_uncovered (not_exists.1 hcovered), hoverall]
  · by_contra hother
    exact hchanged (Filter.enables_congr (LogConfig.levelOf_apply_other hother c) l)
  · have huncovered : ∀ p : LogPhase, ¬Covers p.target t := by
      rcases houtside with hcommand | hnone
      · exact not_covers_of_command hcommand
      · exact hnone
    refine Filter.enables_congr ?_ l
    rw [LogConfig.levelOf_of_uncovered huncovered, LogConfig.levelOf_of_uncovered huncovered,
      hoverall]

/-- A longer word than a phase's target belongs to the phase, the command line to none. -/
example :
    let c := LogConfig.applyAll {} [⟨.fileSet, .error⟩, ⟨.assembly, .info⟩, ⟨.fileSet, .trace⟩]
    c.filter.enables "stencil::fileset_x" .trace = true ∧
      c.filter.enables "stencil::cli" .info = false := by
  decide

end TemplatePasses.Log
