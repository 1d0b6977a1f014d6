/-
# The rules of the command line, in its order

Rules are given by two options, and what each of them gives is gathered apart, the
values beside their places. Put together by the places they are the rules in the order
of the command line, whichever of the two options gave which (`ruleFlags_of`): the
places grow along the command line, so there is one way only to bring them in order.

A command line is made of items, options with their values and paths
(`Spells`), and reading it takes the items in turn (`ofRest_of_spells`). What a draft
holds of the rules stays in step with the items taken so far (`Draft.Holds`).

Key definitions: `Occurrences.of`, `Item`, `Spells`, `Draft.Holds`.
Key theorems: `ruleFlags_of`, `ofRest_of_spells`, `Draft.Holds.take`,
`rules_in_order_given`.
-/
import TemplatePasses.Proofs.Stages
import Mathlib.Data.List.Nodup

namespace TemplatePasses.Cli

/-! ### Putting the two options together -/

/-- What the option of a rule gives, of some rules with their places. -/
def Occurrences.of (rule : StopRule) (placed : List (Nat × RuleFlag)) : Occurrences where
  values := (placed.filter (·.2.rule = rule)).map (·.2.pass)
  places := (placed.filter (·.2.rule = rule)).map (·.1)

/-- The rules come apart again, each beside its place. -/
theorem Occurrences.rules_of (rule : StopRule) (placed : List (Nat × RuleFlag)) :
    (Occurrences.of rule placed).rules rule = placed.filter (·.2.rule = rule) := by
  have hsame : ∀ f ∈ placed.filter (·.2.rule = rule), (f.1, RuleFlag.mk f.2.pass rule) = f := by
    rintro ⟨place, pass, r⟩ hf
    obtain rfl : r = rule := of_decide_eq_true (List.mem_filter.1 hf).2
    rfl
  rw [rules, of, List.zip_map', List.map_map]
  exact (List.map_congr_left hsame).trans (List.map_id _)

theorem Occurrences.of_append (rule : StopRule) (placed : List (Nat × RuleFlag)) (place : Nat)
    (f : RuleFlag) :
    Occurrences.of rule (placed ++ [(place, f)]) =
      if f.rule = rule then (Occurrences.of rule placed).add place f.pass
      else Occurrences.of rule placed := by
  by_cases h : f.rule = rule <;> simp [of, add, h]

/-- The rules of the two options are all rules. -/
theorem perm_of_options (placed : List (Nat × RuleFlag)) :
    (placed.filter (·.2.rule = .before) ++ placed.filter (·.2.rule = .after)).Perm placed := by
  have hother : placed.filter (·.2.rule = .after) =
      placed.filter fun f => !decide (f.2.rule = .before) := by
    refine List.filter_congr fun f _ => ?_
    cases f.2.rule <;> rfl
  rw [hother]
  exact List.filter_append_perm _ placed

theorem pairwise_mergeSort_places (rules : List (Nat × RuleFlag)) :
    (rules.mergeSort fun a b => a.1 ≤ b.1).Pairwise fun a b => decide (a.1 ≤ b.1) = true := by
  have htrans : ∀ a b c : Nat × RuleFlag, decide (a.1 ≤ b.1) = true → decide (b.1 ≤ c.1) = true →
      decide (a.1 ≤ c.1) = true := by
    intro a b c hab hbc
    rw [decide_eq_true_eq] at hab hbc ⊢
    exact Nat.le_trans hab hbc
  have htotal : ∀ a b : Nat × RuleFlag, (decide (a.1 ≤ b.1) || decide (b.1 ≤ a.1)) = true := by
    intro a b
    rw [Bool.or_eq_true, decide_eq_true_eq, decide_eq_true_eq]
    exact Nat.le_total a.1 b.1
  exact List.pairwise_mergeSort htrans htotal rules

/-- **Put together by their places, the rules are in the order of their places.** -/
theorem ruleFlags_of {placed : List (Nat × RuleFlag)}
    (h : placed.Pairwise fun a b => a.1 < b.1) :
    ruleFlags (.of .before placed) (.of .after placed) = placed.map (·.2) := by
  have hplaces : (placed.map (·.1)).Nodup := List.pairwise_map.2 (h.imp Nat.ne_of_lt)
  have hascending : placed.Pairwise fun a b => decide (a.1 ≤ b.1) = true :=
    h.imp fun hlt => decide_eq_true (Nat.le_of_lt hlt)
  have hall := (List.mergeSort_perm _ fun a b : Nat × RuleFlag => decide (a.1 ≤ b.1)).trans
    (perm_of_options placed)
  unfold ruleFlags
  rw [Occurrences.rules_of, Occurrences.rules_of]
  refine congrArg (List.map (·.2))
    (List.Perm.eq_of_pairwise ?_ (pairwise_mergeSort_places _) hascending hall)
  intro a b ha hb hab hba
  -- at one place there is one rule
  have hplace : a.1 = b.1 := Nat.le_antisymm (of_decide_eq_true hab) (of_decide_eq_true hba)
  exact List.inj_on_of_nodup_map hplaces (hall.mem_iff.1 ha) hb hplace

/-- Two rules of one option stand around one of the other. -/
example : ruleFlags ⟨["A", "C"], [2, 6]⟩ ⟨["B"], [4]⟩ =
    [⟨"A", .before⟩, ⟨"B", .after⟩, ⟨"C", .before⟩] := by
  cbv

/-! ### The items of a command line -/

/-- An option with its value, or the path of a configuration file. -/
inductive Item where
  | option (option : ValueOption) (value : String)
  | path (path : String)

/-- The rule that an item gives. -/
def Item.flag? : Item → Option RuleFlag
  | .option (.stop rule) pass => some ⟨pass, rule⟩
  | .option _ _ | .path _ => none

/-- The item that gives a rule. -/
def Item.ofFlag (f : RuleFlag) : Item :=
  .option (.stop f.rule) f.pass

/-- A command line spells items in turn. -/
inductive Spells : List Item → List String → Prop
  | nil : Spells [] []
  /-- An option with its value behind an equals sign. -/
  | joined {option : ValueOption} {value : String} {items : List Item} {args : List String} :
    Spells items args →
    Spells (.option option value :: items) (("--" ++ option.name ++ "=" ++ value) :: args)
  /-- An option with its value as the next argument. -/
  | separate {option : ValueOption} {value : String} {items : List Item} {args : List String} :
    isSeparateValue value = true → Spells items args →
    Spells (.option option value :: items) (("--" ++ option.name) :: value :: args)
  | path {path : String} {items : List Item} {args : List String} :
    isSeparateValue path = true → Spells items args → Spells (.path path :: items) (path :: args)
  /-- Two dashes, with paths behind them. -/
  | paths (paths : List String) : Spells (paths.map .path) ("--" :: paths)

theorem ValueOption.ofName?_name (o : ValueOption) : ofName? o.name = some o := by
  cases o with
  | stop rule => cases rule <;> rfl
  | _ => rfl

/-- A name and a value come apart at the first equals sign. -/
theorem splitValue_append {name : List Char} (h : '=' ∉ name) (value : List Char) :
    splitValue (name ++ '=' :: value) = (String.ofList name, some (String.ofList value)) := by
  have hname : ∀ c ∈ name, decide (c ≠ '=') = true := fun c hc =>
    decide_eq_true fun heq => h (heq ▸ hc)
  unfold splitValue
  rw [List.dropWhile_append_of_pos hname, List.takeWhile_append_of_pos hname]
  simp

theorem Shape.of_name (o : ValueOption) : Shape.of ("--" ++ o.name) = .long o.name none := by
  cases o with
  | stop rule => cases rule <;> rfl
  | _ => rfl

theorem Shape.of_joined (o : ValueOption) (value : String) :
    Shape.of ("--" ++ o.name ++ "=" ++ value) = .long o.name (some value) := by
  have hchars : ("--" ++ o.name ++ "=" ++ value).toList =
      '-' :: '-' :: (o.name.toList ++ '=' :: value.toList) := by
    simp [String.toList_append]
  have hequals : '=' ∉ o.name.toList := by
    cases o with
    | stop rule => cases rule <;> decide
    | _ => decide
  have hname : o.name.toList ≠ [] := by
    cases o with
    | stop rule => cases rule <;> decide
    | _ => decide
  obtain ⟨c, cs, hcs⟩ := List.exists_cons_of_ne_nil hname
  have hsplit := splitValue_append hequals value.toList
  unfold Shape.of
  rw [hchars]
  rw [hcs] at hsplit ⊢
  simp only [List.cons_append] at hsplit ⊢
  rw [hsplit, ← hcs, String.ofList_toList, String.ofList_toList]

theorem Shape.of_separate {value : String} (h : isSeparateValue value = true) :
    Shape.of value = .value := by
  unfold isSeparateValue at h
  cases hshape : Shape.of value with
  | value => rfl
  | _ => simp [hshape] at h

namespace Draft

/-- The draft with an item. -/
def take (d : Draft) : Item → Except UsageError Draft
  | .option option value => d.set option value
  | .path path => d.setConfig path

theorem ofPaths_eq : ∀ (paths : List String) (d : Draft),
    Invocation.ofPaths d paths =
      (paths.map Item.path).foldlM take d >>= fun d => .ok (.plan d.finish)
  | [], _ => rfl
  | path :: rest, d => by
    rw [Invocation.ofPaths, List.map_cons, List.foldlM_cons]
    show (d.setConfig path >>= fun d => Invocation.ofPaths d rest) = _
    simp only [ofPaths_eq rest, bind_assoc]
    rfl

/-- **Reading a command line takes its items in turn.** -/
theorem ofRest_of_spells {items : List Item} {args : List String} (h : Spells items args) :
    ∀ d : Draft,
      Invocation.ofRest d args = items.foldlM take d >>= fun d => .ok (.plan d.finish) := by
  induction h with
  | nil => exact fun d => rfl
  | @joined option value items args _ ih =>
    intro d
    rw [Invocation.ofRest, Shape.of_joined]
    simp only [ValueOption.ofName?_name, List.foldlM_cons, bind_assoc, ih]
    rfl
  | @separate option value items args hvalue _ ih =>
    intro d
    rw [Invocation.ofRest, Shape.of_name]
    simp only [ValueOption.ofName?_name, hvalue, if_true, List.foldlM_cons, bind_assoc, ih]
    rfl
  | @path path items args hpath _ ih =>
    intro d
    rw [Invocation.ofRest, Shape.of_separate hpath]
    simp only [List.foldlM_cons, bind_assoc, ih]
    rfl
  | paths paths =>
    intro d
    have hshape : Shape.of "--" = .endOfOptions := rfl
    rw [Invocation.ofRest, hshape]
    exact ofPaths_eq paths d

/-! ### What a draft holds of the rules -/

/-- A draft holds the rules given so far, their places growing up to its own. -/
structure Holds (d : Draft) (placed : List (Nat × RuleFlag)) : Prop where
  before : d.stopBefore = .of .before placed
  after : d.stopAfter = .of .after placed
  ascending : placed.Pairwise fun a b => a.1 < b.1
  passed : ∀ f ∈ placed, f.1 ≤ d.place

theorem Holds.empty : Holds {} [] :=
  ⟨rfl, rfl, .nil, nofun⟩

theorem Holds.finish {d : Draft} {placed : List (Nat × RuleFlag)} (h : d.Holds placed) :
    d.finish.ruleFlags = placed.map (·.2) := by
  show ruleFlags d.stopBefore d.stopAfter = _
  rw [h.before, h.after, ruleFlags_of h.ascending]

/-- A rule is held behind the others, at the next place. -/
theorem Holds.rule {d d' : Draft} {placed : List (Nat × RuleFlag)} (h : d.Holds placed)
    {f : RuleFlag} (hd' : d.take (.ofFlag f) = .ok d') :
    d'.Holds (placed ++ [(d.place + 2, f)]) := by
  have hascending : (placed ++ [(d.place + 2, f)]).Pairwise fun a b => a.1 < b.1 := by
    refine List.pairwise_append.2 ⟨h.ascending, List.pairwise_singleton _ _, fun a ha b hb => ?_⟩
    obtain rfl := List.mem_singleton.1 hb
    have := h.passed a ha
    show a.1 < d.place + 2
    omega
  have hpassed : ∀ a ∈ placed ++ [(d.place + 2, f)], a.1 ≤ d.place + 2 := by
    intro a ha
    rcases List.mem_append.1 ha with ha | ha
    · exact Nat.le_trans (h.passed a ha) (Nat.le_add_right _ _)
    · obtain rfl := List.mem_singleton.1 ha
      exact Nat.le_refl _
  obtain ⟨pass, rule⟩ := f
  cases rule <;> obtain rfl := Except.ok.inj hd'
  · exact ⟨by simp [Occurrences.of_append, h.before], by simp [Occurrences.of_append, h.after],
      hascending, hpassed⟩
  · exact ⟨by simp [Occurrences.of_append, h.before], by simp [Occurrences.of_append, h.after],
      hascending, hpassed⟩

theorem exists_of_bind_ok {α : Type} {x : Except UsageError α} {f : α → Draft} {d : Draft}
    (h : (x >>= fun a => .ok (f a)) = .ok d) : ∃ a, d = f a := by
  cases x with
  | error e => cases h
  | ok a => exact ⟨a, (Except.ok.inj h).symm⟩

/-- An item that gives no rule leaves the rules alone. -/
theorem unchanged_of_take {d d' : Draft} {item : Item} (hitem : item.flag? = none)
    (h : d.take item = .ok d') :
    d'.stopBefore = d.stopBefore ∧ d'.stopAfter = d.stopAfter ∧ d.place ≤ d'.place := by
  cases item with
  | path path =>
    simp only [take, setConfig] at h
    split at h
    · cases h
    · split at h
      · cases h
      · obtain rfl := Except.ok.inj h
        exact ⟨rfl, rfl, Nat.le_add_right _ _⟩
  | option option value =>
    cases option with
    | stop rule => cases hitem
    | logPhase =>
      obtain rfl := Except.ok.inj h
      exact ⟨rfl, rfl, Nat.le_add_right _ _⟩
    | logLevel | output | logFormat =>
      obtain ⟨given, rfl⟩ := exists_of_bind_ok h
      exact ⟨rfl, rfl, Nat.le_add_right _ _⟩

/-- **An item adds the rule that it gives, behind the others.** -/
theorem Holds.take {d d' : Draft} {placed : List (Nat × RuleFlag)} (h : d.Holds placed)
    {item : Item} (hd' : d.take item = .ok d') :
    ∃ placed', d'.Holds placed' ∧
      placed'.map (·.2) = placed.map (·.2) ++ item.flag?.toList := by
  cases hflag : item.flag? with
  | none =>
    obtain ⟨hbefore, hafter, hplace⟩ := unchanged_of_take hflag hd'
    refine ⟨placed, ⟨hbefore.trans h.before, hafter.trans h.after, h.ascending,
      fun f hf => Nat.le_trans (h.passed f hf) hplace⟩, ?_⟩
    rw [Option.toList_none, List.append_nil]
  | some f =>
    obtain rfl : item = .ofFlag f := by
      unfold Item.flag? at hflag
      split at hflag
      · obtain rfl := Option.some.inj hflag
        rfl
      · cases hflag
      · cases hflag
    exact ⟨_, h.rule hd', by simp⟩

theorem Holds.takeAll : ∀ {items : List Item} {d d' : Draft} {placed : List (Nat × RuleFlag)},
    d.Holds placed → items.foldlM Draft.take d = .ok d' →
      ∃ placed', d'.Holds placed' ∧
        placed'.map (·.2) = placed.map (·.2) ++ items.filterMap Item.flag?
  | [], d, d', placed, h, hd' => by
    obtain rfl := Except.ok.inj hd'
    exact ⟨placed, h, (List.append_nil _).symm⟩
  | item :: items, d, d', placed, h, hd' => by
    rw [List.foldlM_cons] at hd'
    cases hnext : d.take item with
    | error e => rw [hnext] at hd'; cases hd'
    | ok next =>
      rw [hnext] at hd'
      obtain ⟨placed₁, hholds₁, hflags₁⟩ := h.take hnext
      obtain ⟨placed₂, hholds₂, hflags₂⟩ := hholds₁.takeAll hd'
      refine ⟨placed₂, hholds₂, ?_⟩
      rw [hflags₂, hflags₁, List.append_assoc]
      cases hflag : item.flag? with
      | none => rw [List.filterMap_cons_none hflag]; rfl
      | some f => rw [List.filterMap_cons_some hflag]; rfl

theorem exists_takeAll_ofFlag : ∀ (flags : List RuleFlag) (d : Draft),
    ∃ d', (flags.map Item.ofFlag).foldlM take d = .ok d'
  | [], d => ⟨d, rfl⟩
  | ⟨_, .before⟩ :: flags, _ => exists_takeAll_ofFlag flags _
  | ⟨_, .after⟩ :: flags, _ => exists_takeAll_ofFlag flags _

end Draft

/-- The rules of a command line are those of its items. -/
theorem ruleFlags_of_spells {items : List Item} {args : List String} (h : Spells items args)
    {a : Arguments} (ha : Invocation.ofArgs args = .ok (.plan a)) :
    a.ruleFlags = items.filterMap Item.flag? := by
  rw [Invocation.ofArgs, Draft.ofRest_of_spells h] at ha
  cases htaken : items.foldlM Draft.take ({} : Draft) with
  | error e => rw [htaken] at ha; cases ha
  | ok d =>
    rw [htaken] at ha
    obtain rfl : d.finish = a := Invocation.plan.inj (Except.ok.inj ha)
    obtain ⟨placed, hholds, hflags⟩ := Draft.Holds.empty.takeAll htaken
    rw [hholds.finish, hflags]
    rfl

/-- **The rules of the command line come in its order, and the last for a pass wins.**
Take any rules, given by the two options in any mixture. From the values of each option
and their places, which grow along the command line, just these rules are put together
again, in their order. A command line that gives nothing but these rules is accepted,
and any that gives them among other things, if it is accepted, asks for just these
rules. Applied to a configuration, the last rule for a pass is the one in force,
whichever option gave it; the rules of all other passes and the rest of the
configuration stay as they are. -/
theorem rules_in_order_given (flags : List RuleFlag) :
    (∀ placed : List (Nat × RuleFlag), placed.Pairwise (fun a b => a.1 < b.1) →
      placed.map (·.2) = flags →
        ruleFlags (.of .before placed) (.of .after placed) = flags) ∧
    (∀ args, Spells (flags.map .ofFlag) args → ∃ a, Invocation.ofArgs args = .ok (.plan a)) ∧
    (∀ items args a, Spells items args → items.filterMap Item.flag? = flags →
      Invocation.ofArgs args = .ok (.plan a) → a.ruleFlags = flags) ∧
    ∀ c : PassConfig,
      (∀ pass, (withFlags c flags).rules.find? pass =
        (lastRule flags pass).or (c.rules.find? pass)) ∧
      withFlags c flags = { c with rules := (withFlags c flags).rules } := by
  refine ⟨fun placed hascending hflags => ?_, fun args hargs => ?_,
    fun items args a hargs hflags ha => ?_, fun c => ?_⟩
  · rw [ruleFlags_of hascending, hflags]
  · obtain ⟨d, hd⟩ := Draft.exists_takeAll_ofFlag flags {}
    refine ⟨d.finish, ?_⟩
    rw [Invocation.ofArgs, Draft.ofRest_of_spells hargs, hd]
    rfl
  · rw [ruleFlags_of_spells hargs ha, hflags]
  · obtain ⟨hrules, hothers⟩ := withFlags_overrides c flags
    exact ⟨hrules, hothers⟩

end TemplatePasses.Cli
