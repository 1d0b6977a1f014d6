/-
# Candidates gathered in several lists

Assembly does not ask what its candidates are. They may be of any kinds, come in
any order and under repeated names, and each is offered to a list of its kind.
What the lists get is still decided once for all of them: everything offered
before the first candidate that has a rule, and this one too if its rule is to
stop after it. Behind it assembly never goes on again, but candidates still take
their rules, so that at the end the rules are left whose name was never offered.

Key definitions: `Offered`, `Offered.onList`, `Gathering`, `Gathering.offerEach`.
Key theorems: `Gathering.lists_offerEach`, `Gathering.building_offerEach`,
`Gathering.offers_up_to_first_rule`, `Settings.plan_gathers`.
-/
import TemplatePasses.Proofs.Listing
import TemplatePasses.Proofs.Planning
import Mathlib.Data.List.Basic
import Mathlib.Logic.Function.Basic

namespace TemplatePasses

/-! ### What is left of the rules -/

namespace StopRules

variable {α : Type} [Named α] (rules : StopRules) (cs : List α)

/-- The rules that are left are written with the rule that each name had at first. -/
theorem describe_unmet :
    (rules.unmet cs).describe =
      "\x7b" ++ Text.commaSeparated ((rules.unmet cs).names.filterMap fun n =>
        (rules.find? n).map fun rule => n ++ "=" ++ rule.name) ++ "\x7d" := by
  have hentries := (rules.unmet cs).map_entries entryText
  unfold describe
  rw [hentries]
  congr 3
  refine List.filterMap_congr fun n hn => ?_
  rw [names_unmet, List.mem_filter, decide_eq_true_eq] at hn
  rw [find?_unmet, if_neg hn.2]
  rfl

end StopRules

/-! ### Candidates of all kinds -/

variable {τ : Type} {α : τ → Type}

/-- A candidate with the list that it is offered to. -/
structure Offered (α : τ → Type) where
  list : τ
  candidate : α list

namespace Offered

instance [∀ t, Named (α t)] : Named (Offered α) := ⟨fun c => Named.name c.candidate⟩

variable [DecidableEq τ]

/-- The candidate, if it is offered to this list. -/
def on? (t : τ) (c : Offered α) : Option (α t) :=
  if h : c.list = t then some (h ▸ c.candidate) else none

/-- The candidates offered to a list, in their order. -/
def onList (t : τ) (cs : List (Offered α)) : List (α t) :=
  cs.filterMap (on? t)

theorem onList_append (t : τ) (cs ds : List (Offered α)) :
    onList t (cs ++ ds) = onList t cs ++ onList t ds :=
  List.filterMap_append

theorem onList_self (c : Offered α) : onList c.list [c] = [c.candidate] := by
  simp [onList, on?]

theorem onList_other {t : τ} {c : Offered α} (h : c.list ≠ t) : onList t [c] = [] := by
  simp [onList, on?, h]

end Offered

open Offered (onList)

/-! ### Gathering -/

/-- Assembly with the lists that it fills. -/
structure Gathering (α : τ → Type) where
  assembly : Assembly
  lists : (t : τ) → List (α t)

namespace Gathering

variable [∀ t, Named (α t)] [DecidableEq τ]

/-- Offers a candidate, which goes to the end of its list if it is admitted. -/
def offer (g : Gathering α) (c : Offered α) : Gathering α :=
  let (verdict, next) := g.assembly.offer (Named.name c)
  { assembly := next
    lists :=
      if verdict.admits then Function.update g.lists c.list (g.lists c.list ++ [c.candidate])
      else g.lists }

/-- Offers candidates one after the other. -/
def offerEach (g : Gathering α) (cs : List (Offered α)) : Gathering α :=
  cs.foldl offer g

theorem lists_offer (g : Gathering α) (c : Offered α) (t : τ) :
    (g.offer c).lists t =
      g.lists t ++ onList t (if (g.assembly.offer (Named.name c)).1.admits then [c] else []) := by
  unfold offer
  by_cases hadmits : (g.assembly.offer (Named.name c)).1.admits = true
  · simp only [hadmits, if_true]
    by_cases ht : c.list = t
    · subst ht
      rw [Function.update_self, Offered.onList_self]
    · rw [Function.update_of_ne (Ne.symm ht), Offered.onList_other ht, List.append_nil]
  · simp only [hadmits, Bool.false_eq_true, if_false]
    exact (List.append_nil _).symm

theorem assembly_offerEach : ∀ (cs : List (Offered α)) (g : Gathering α),
    (g.offerEach cs).assembly = (g.assembly.offerAll cs).2
  | [], _ => rfl
  | c :: cs, g => assembly_offerEach cs (g.offer c)

/-- A list gets what is offered to it and admitted. -/
theorem lists_offerEach (t : τ) : ∀ (cs : List (Offered α)) (g : Gathering α),
    (g.offerEach cs).lists t =
      g.lists t ++ onList t (Assembly.admitted (g.assembly.offerAll cs).1)
  | [], g => (List.append_nil _).symm
  | c :: cs, g => by
    have rest := lists_offerEach t cs (g.offer c)
    show ((g.offer c).offerEach cs).lists t = _
    rw [rest, lists_offer, Assembly.offerAll_cons, Assembly.admitted_cons, Offered.onList_append,
      List.append_assoc]
    rfl

/-! ### The first rule -/

section
variable (rules : StopRules) (lists : (t : τ) → List (α t)) (cs : List (Offered α))

/-- Assembly goes on up to the first candidate that has a rule, and not behind it. -/
theorem building_offerEach {i : Nat} (h : cs.findIdx? rules.covers = some i) (n : Nat) :
    (offerEach ⟨⟨rules, true⟩, lists⟩ (cs.take n)).assembly.building = true ↔ n ≤ i := by
  obtain ⟨hi, hrule, hbefore⟩ := List.findIdx?_eq_some_iff_getElem.1 h
  rw [assembly_offerEach, Assembly.building_offerAll]
  constructor
  · intro hnone
    by_contra hlt
    have hmem : cs[i] ∈ cs.take n := List.mem_take_iff_getElem.2 ⟨i, by omega, rfl⟩
    rw [hnone _ hmem] at hrule
    cases hrule
  · intro hle c hc
    obtain ⟨j, hj, rfl⟩ := List.mem_take_iff_getElem.1 hc
    simpa using hbefore j (by omega)

/-- **Everything up to the first rule is gathered.** Take any rules, any lists and
any candidates offered to them. If the candidate at place `i` is the first that
has a rule, each list gets what is offered to it before place `i`, and at place
`i` too if the rule there is to stop after it; and assembly goes on up to the
`i`-th offer and never behind it. If no candidate has a rule, all are gathered.
At the end all is well just when every name with a rule has been offered, at
whatever place; otherwise the error has the names that have not been offered,
ascending, and is written with their rules. -/
theorem offers_up_to_first_rule :
    let start : Gathering α := ⟨{ rules }, lists⟩
    let behind (n : Nat) := start.offerEach (cs.take n)
    let last := start.offerEach cs
    let offered := cs.map Named.name
    (match cs.findIdx? rules.covers with
      | some i =>
        (∀ t, last.lists t = lists t ++ onList t (cs.take
          (if (cs[i]?.bind (rules.find? <| Named.name ·)) = some .after then i + 1 else i))) ∧
        ∀ n, (behind n).assembly.building = true ↔ n ≤ i
      | none =>
        (∀ t, last.lists t = lists t ++ onList t cs) ∧
        ∀ n, (behind n).assembly.building = true) ∧
    (if ∀ name ∈ rules.names, name ∈ offered then last.assembly.finish = .ok ()
      else ∃ left, last.assembly.finish = .error (.unmatchedRules left) ∧
        left.names = rules.names.filter (fun name => name ∉ offered) ∧
        left.names.Pairwise (· < ·) ∧
        left.describe = "\x7b" ++ Text.commaSeparated (left.names.filterMap fun name =>
          (rules.find? name).map fun rule => name ++ "=" ++ rule.name) ++ "\x7d") := by
  intro start behind last offered
  have hlists (t : τ) : last.lists t = lists t ++ onList t (rules.kept cs) := by
    rw [lists_offerEach, Assembly.admitted_offerAll]
  have hfinish := Assembly.finish_offerAll { rules } cs
  rw [← assembly_offerEach cs start] at hfinish
  constructor
  · cases hfirst : cs.findIdx? rules.covers with
    | some i =>
      rw [StopRules.kept_of_findIdx? hfirst] at hlists
      exact ⟨hlists, building_offerEach rules lists cs hfirst⟩
    | none =>
      rw [StopRules.kept_eq_self hfirst] at hlists
      refine ⟨hlists, fun n => ?_⟩
      rw [assembly_offerEach, Assembly.building_offerAll]
      exact fun c hc => List.findIdx?_eq_none_iff.1 hfirst c (List.mem_of_mem_take hc)
  · by_cases hmet : ∀ name ∈ rules.names, name ∈ offered
    · rw [if_pos hmet, hfinish, if_pos ((StopRules.isEmpty_unmet_iff rules cs).2 hmet)]
    · rw [if_neg hmet, hfinish, if_neg (mt (StopRules.isEmpty_unmet_iff rules cs).1 hmet)]
      exact ⟨_, rfl, StopRules.names_unmet rules cs, NameMap.names_ascending _,
        StopRules.describe_unmet rules cs⟩

end

end Gathering

/-! ### The lists of a plan -/

/-- The lists of a plan. -/
inductive PlanList where
  | singleFile
  | fileSet
deriving DecidableEq

/-- The roles that a list of the plan holds. -/
def PlanList.Item : PlanList → Type
  | .singleFile => FileRole
  | .fileSet => FileSetRole

instance : ∀ t : PlanList, Named t.Item
  | .singleFile => inferInstanceAs (Named FileRole)
  | .fileSet => inferInstanceAs (Named FileSetRole)

/-- A role offered to its list. -/
def Role.offered : Role → Offered PlanList.Item
  | file r => ⟨.singleFile, r⟩
  | fileSet r => ⟨.fileSet, r⟩

/-- What is offered to a list of the plan is found among the roles by their kind. -/
theorem onList_offered {t : PlanList} {item? : Role → Option t.Item}
    (h : ∀ r : Role, r.offered.on? t = item? r) (rs : List Role) :
    onList t (rs.map Role.offered) = rs.filterMap item? := by
  unfold onList
  rw [List.filterMap_map]
  exact List.filterMap_congr fun r _ => h r

/-- A plan is what its two lists have when all its candidates have been offered. -/
theorem Settings.plan_gathers {s : Settings} {o : GeneralOptions} (h : s.options = some o) :
    let g := Gathering.offerEach ⟨{ rules := s.rules }, fun _ => []⟩
      ((s.candidates o).map Role.offered)
    s.plan = match g.assembly.finish with
      | .ok () => .ok ⟨g.lists .singleFile, g.lists .fileSet⟩
      | .error e => .error e := by
  intro g
  have hname : ∀ r : Role, Named.name r.offered = Named.name r := fun r => by cases r <;> rfl
  have hlists (t : PlanList) :
      g.lists t = onList t ((s.rules.kept (s.candidates o)).map Role.offered) := by
    rw [Gathering.lists_offerEach, Assembly.offerAll_map hname, Assembly.admitted_map,
      Assembly.admitted_offerAll, List.nil_append]
  have hfinish := Assembly.finish_offerAll { rules := s.rules } (s.candidates o)
  have hassembly : g.assembly = (Assembly.offerAll { rules := s.rules } (s.candidates o)).2 := by
    rw [Gathering.assembly_offerEach, Assembly.offerAll_map hname]
  have hfile (r : Role) : r.offered.on? .singleFile = r.asFile? := by cases r <;> rfl
  have hset (r : Role) : r.offered.on? .fileSet = r.asFileSet? := by cases r <;> rfl
  rw [plan_of_options h, hlists, hlists, hassembly, hfinish, onList_offered hfile,
    onList_offered hset]
  by_cases hmet : (s.rules.unmet (s.candidates o)).isEmpty = true
  · simp only [hmet, if_true]
    rfl
  · simp only [hmet, Bool.false_eq_true, if_false]

end TemplatePasses
