/-
# Which candidates assembly admits

Assembly goes from candidate to candidate with a map that loses entries and a
switch that goes off. Seen from outside neither is there: the candidates that
are admitted are a beginning of all of them (`StopRules.kept`), cut at the first
that has a rule, and the rules left at the end are those whose name no candidate
has, on either side of the cut.

Key definitions: `StopRules.kept`, `StopRules.unmet`.
Key theorems: `Assembly.admitted_offerAll`, `Assembly.building_offerAll`,
`Assembly.rules_offerAll`, `Assembly.finish_offerAll`.
-/
import TemplatePasses.Plan.Assembly

namespace TemplatePasses

variable {α β : Type} [Named α] [Named β]

namespace StopRules

/-- Whether a candidate has a rule. -/
def covers (rules : StopRules) (c : α) : Bool :=
  rules.contains (Named.name c)

theorem covers_of_none {rules : StopRules} {c : α} (h : rules.find? (Named.name c) = none) :
    rules.covers c = false := by
  simp [covers, NameMap.contains, h]

theorem covers_of_some {rules : StopRules} {c : α} {rule : StopRule}
    (h : rules.find? (Named.name c) = some rule) : rules.covers c = true := by
  simp [covers, NameMap.contains, h]

/-- The candidates that the rules let in: those before the first that has a
rule, and this one too if its rule is to stop after it. -/
def kept (rules : StopRules) (cs : List α) : List α :=
  let first := cs.findIdx rules.covers
  match cs[first]? with
  | none => cs
  | some c => cs.take (if rules.find? (Named.name c) = some .after then first + 1 else first)

/-- The rules whose name no candidate has. -/
def unmet (rules : StopRules) (cs : List α) : StopRules :=
  rules.filter fun name => name ∉ cs.map Named.name

/-- The first candidate with a rule says how many are let in. -/
theorem kept_of_findIdx? {rules : StopRules} {cs : List α} {i : Nat}
    (h : cs.findIdx? rules.covers = some i) :
    rules.kept cs =
      cs.take (if (cs[i]?.bind (rules.find? <| Named.name ·)) = some .after then i + 1 else i) := by
  obtain ⟨hi, hfirst⟩ := List.findIdx?_eq_some_iff_findIdx_eq.1 h
  unfold kept
  simp only [hfirst, List.getElem?_eq_getElem hi, Option.bind_some]

theorem kept_eq_self {rules : StopRules} {cs : List α} (h : cs.findIdx? rules.covers = none) :
    rules.kept cs = cs := by
  have hlength : cs.findIdx rules.covers = cs.length :=
    List.findIdx_eq_length.2 (List.findIdx?_eq_none_iff.1 h)
  unfold kept
  simp only [hlength, List.getElem?_eq_none (Nat.le_refl _)]

theorem kept_prefix (rules : StopRules) (cs : List α) : rules.kept cs <+: cs := by
  unfold kept
  simp only
  split
  · exact List.prefix_refl cs
  · exact List.take_prefix _ cs

/-- A candidate without a rule is let in, and nothing else changes. -/
theorem kept_cons_of_none {rules : StopRules} {c : α} (h : rules.find? (Named.name c) = none)
    (cs : List α) : rules.kept (c :: cs) = c :: rules.kept cs := by
  unfold kept
  simp only [List.findIdx_cons, covers_of_none h, cond_false, List.getElem?_cons_succ]
  cases cs[List.findIdx rules.covers cs]? with
  | none => rfl
  | some d =>
    simp only
    split <;> rw [List.take_succ_cons]

/-- The first candidate with a rule is the last that can be let in. -/
theorem kept_cons_of_some {rules : StopRules} {c : α} {rule : StopRule}
    (h : rules.find? (Named.name c) = some rule) (cs : List α) :
    rules.kept (c :: cs) = if rule = .after then [c] else [] := by
  unfold kept
  simp only [List.findIdx_cons, covers_of_some h, cond_true, List.getElem?_cons_zero, h,
    Option.some.injEq]
  split <;> rfl

/-- Candidates without rules are let in, and the next ones are judged as if they
came first. -/
theorem kept_append_of_none {rules : StopRules} (ds : List α) :
    ∀ {cs : List α}, (∀ c ∈ cs, rules.find? (Named.name c) = none) →
      rules.kept (cs ++ ds) = cs ++ rules.kept ds
  | [], _ => rfl
  | c :: cs, h => by
    obtain ⟨hc, hcs⟩ := List.forall_mem_cons.1 h
    rw [List.cons_append, kept_cons_of_none hc, kept_append_of_none ds hcs, List.cons_append]

theorem unmet_nil (rules : StopRules) : rules.unmet ([] : List α) = rules :=
  NameMap.filter_eq_self fun _ _ _ => by simp

/-- Taking the rule of a candidate leaves the others to the rest. -/
theorem unmet_cons (rules : StopRules) (c : α) (cs : List α) :
    rules.unmet (c :: cs) = unmet (rules.erase (Named.name c)) cs := by
  unfold unmet NameMap.erase
  rw [NameMap.filter_filter]
  congr 1
  funext n
  simp [bne, Bool.beq_eq_decide_eq]

theorem find?_unmet (rules : StopRules) (cs : List α) (n : String) :
    (rules.unmet cs).find? n = if n ∈ cs.map Named.name then none else rules.find? n := by
  rw [unmet, NameMap.find?_filter]
  simp only [decide_not, Bool.not_eq_true', decide_eq_false_iff_not]
  split <;> simp_all

theorem names_unmet (rules : StopRules) (cs : List α) :
    (rules.unmet cs).names = rules.names.filter fun n => n ∉ cs.map Named.name :=
  NameMap.names_filter rules _

/-- No rule is left if every name that has one is the name of a candidate. -/
theorem isEmpty_unmet_iff (rules : StopRules) (cs : List α) :
    (rules.unmet cs).isEmpty = true ↔ ∀ n ∈ rules.names, n ∈ cs.map Named.name := by
  rw [NameMap.isEmpty_iff, names_unmet, List.filter_eq_nil_iff]
  simp

/-! ### One rule -/

/-- The rules that are one rule for one name. -/
def single (name : String) (rule : StopRule) : StopRules :=
  NameMap.empty.insert name rule

theorem find?_single (name n : String) (rule : StopRule) :
    (single name rule).find? n = if n = name then some rule else none := by
  rw [single, NameMap.find?_insert, NameMap.find?_empty]

/-- One rule cuts the candidates where the first of its name stands. -/
theorem kept_single {cs : List α} {c : α} (hcs : ∀ d ∈ cs, Named.name d ≠ Named.name c)
    (rule : StopRule) (ds : List α) :
    (single (Named.name c) rule).kept (cs ++ c :: ds) =
      cs ++ if rule = .after then [c] else [] := by
  have hc : (single (Named.name c) rule).find? (Named.name c) = some rule := by
    rw [find?_single, if_pos rfl]
  rw [kept_append_of_none, kept_cons_of_some hc]
  intro d hd
  rw [find?_single, if_neg (hcs d hd)]

theorem unmet_single {cs : List α} {c : α} (hc : c ∈ cs) (rule : StopRule) :
    (single (Named.name c) rule).unmet cs = NameMap.empty := by
  refine NameMap.ext_find? fun n => ?_
  rw [find?_unmet, find?_single, NameMap.find?_empty]
  by_cases hn : n = Named.name c
  · rw [if_pos (hn ▸ List.mem_map_of_mem hc)]
  · rw [if_neg hn, ite_self]

end StopRules

namespace Assembly

theorem offerAll_cons (a : Assembly) (c : α) (cs : List α) :
    a.offerAll (c :: cs) =
      ((c, (a.offer (Named.name c)).1) :: ((a.offer (Named.name c)).2.offerAll cs).1,
        ((a.offer (Named.name c)).2.offerAll cs).2) := rfl

theorem offer_of_building (rules : StopRules) (name : String) :
    (⟨rules, true⟩ : Assembly).offer name =
      (Verdict.of true (rules.find? name),
        ⟨rules.erase name, (Verdict.of true (rules.find? name)).goesOn⟩) := rfl

theorem admitted_cons {γ : Type} (c : γ) (verdict : Verdict) (vs : List (γ × Verdict)) :
    admitted ((c, verdict) :: vs) = (if verdict.admits then [c] else []) ++ admitted vs := by
  cases h : verdict.admits <;> simp [admitted, h]

/-- Behind the halt nothing is admitted. -/
theorem admitted_halted : ∀ (cs : List α) (rules : StopRules),
    admitted (offerAll ⟨rules, false⟩ cs).1 = []
  | [], _ => rfl
  | c :: cs, rules => by
    rw [offerAll_cons]
    exact admitted_halted cs (rules.erase (Named.name c))

/-- Assembly that has halted does not go on again. -/
theorem building_halted : ∀ (cs : List α) (rules : StopRules),
    (offerAll ⟨rules, false⟩ cs).2.building = false
  | [], _ => rfl
  | c :: cs, rules => by
    rw [offerAll_cons]
    exact building_halted cs (rules.erase (Named.name c))

theorem erase_eq_self {rules : StopRules} {n : String} (h : rules.find? n = none) :
    rules.erase n = rules := by
  refine NameMap.filter_eq_self fun k v hk => ?_
  have : k ≠ n := by
    rintro rfl
    rw [h] at hk
    cases hk
  simpa using this

/-- **The admitted candidates are those that the rules let in.** -/
theorem admitted_offerAll : ∀ (cs : List α) (rules : StopRules),
    admitted (offerAll ⟨rules, true⟩ cs).1 = rules.kept cs
  | [], _ => rfl
  | c :: cs, rules => by
    rw [offerAll_cons, offer_of_building]
    cases h : rules.find? (Named.name c) with
    | none =>
      -- the map is as before, so the rest is judged by the same rules
      rw [StopRules.kept_cons_of_none h, ← admitted_offerAll cs rules, erase_eq_self h]
      rfl
    | some rule =>
      rw [StopRules.kept_cons_of_some h]
      have rest := admitted_halted cs (rules.erase (Named.name c))
      cases rule with
      | before => exact rest
      | after => exact congrArg (c :: ·) rest

/-- **Assembly goes on up to the first candidate that has a rule.** -/
theorem building_offerAll : ∀ (cs : List α) (rules : StopRules),
    (offerAll ⟨rules, true⟩ cs).2.building = true ↔ ∀ c ∈ cs, rules.covers c = false
  | [], _ => by simp [offerAll]
  | c :: cs, rules => by
    rw [offerAll_cons, offer_of_building, List.forall_mem_cons]
    cases h : rules.find? (Named.name c) with
    | none =>
      simp only [StopRules.covers_of_none h, true_and, erase_eq_self h]
      exact building_offerAll cs rules
    | some rule =>
      have rest := building_halted cs (rules.erase (Named.name c))
      cases rule <;> simp [StopRules.covers_of_some h, Verdict.of, Verdict.goesOn, rest]

/-- **The rules left are those that no candidate has**, whether the candidate
came before the halt or after it. -/
theorem rules_offerAll : ∀ (cs : List α) (a : Assembly),
    (a.offerAll cs).2.rules = a.rules.unmet cs
  | [], a => (StopRules.unmet_nil a.rules).symm
  | c :: cs, a => by
    rw [offerAll_cons, StopRules.unmet_cons]
    exact rules_offerAll cs (a.offer (Named.name c)).2

theorem finish_offerAll (a : Assembly) (cs : List α) :
    (a.offerAll cs).2.finish =
      if (a.rules.unmet cs).isEmpty then .ok () else .error (.unmatchedRules (a.rules.unmet cs)) := by
  rw [finish, rules_offerAll]

/-! ### Candidates of two kinds

Candidates of two kinds are offered one kind after the other. That is the same as
offering all of them as candidates of a kind that holds both. -/

theorem offerAll_append : ∀ (cs ds : List α) (a : Assembly),
    a.offerAll (cs ++ ds) =
      ((a.offerAll cs).1 ++ ((a.offerAll cs).2.offerAll ds).1, ((a.offerAll cs).2.offerAll ds).2)
  | [], _, _ => rfl
  | c :: cs, ds, a => by
    rw [List.cons_append, offerAll_cons, offerAll_append cs ds, offerAll_cons, List.cons_append]

/-- Only the names of candidates count. -/
theorem offerAll_map {f : α → β} (hf : ∀ c, Named.name (f c) = Named.name c) :
    ∀ (cs : List α) (a : Assembly),
      a.offerAll (cs.map f) = ((a.offerAll cs).1.map fun v => (f v.1, v.2), (a.offerAll cs).2)
  | [], _ => rfl
  | c :: cs, a => by
    rw [List.map_cons, offerAll_cons, hf c, offerAll_map hf cs, offerAll_cons, List.map_cons]

theorem admitted_append {γ : Type} (vs ws : List (γ × Verdict)) :
    admitted (vs ++ ws) = admitted vs ++ admitted ws := by
  simp [admitted]

theorem admitted_map {γ δ : Type} (f : γ → δ) (vs : List (γ × Verdict)) :
    admitted (vs.map fun v => (f v.1, v.2)) = (admitted vs).map f := by
  simp [admitted, List.filter_map, Function.comp_def]

end Assembly
end TemplatePasses
