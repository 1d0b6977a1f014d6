/-
# What log options say

A phase option is the name of a phase, an equals sign and a level, and nothing else:
the phase is taken to the letter, the level up to the case of ASCII letters
(`Override.ofText?_eq_some_iff`). As no phase has an equals sign in its name, the first
one in the text is the one that counts. The level for everything is read first and then
the phase options in turn, so the log options fail at the first of these that says
nothing; if all say something, each phase has the level of its last option
(`log_options_read`).

Levels are read with capital ASCII letters made small. Making the letters of other
scripts small as well comes to the same, as long as this leaves something that is in no
name of a level (`Level.ofText?_of_lowered`).

Key definitions: `SameUpToCase`, `Lowered`, `Override.SpelledBy`.
Key theorems: `toLower_eq_iff`, `Level.ofText?_eq_some_iff`, `Level.ofText?_of_lowered`,
`splitAtEquals_eq_some_iff`, `Override.ofText?_eq_some_iff`, `log_options_read`.
-/
import TemplatePasses.Proofs.PhaseLevels
import TemplatePasses.Proofs.Stages
import Mathlib.Data.List.Forall2
import Mathlib.Logic.Function.Basic

namespace TemplatePasses

namespace Log

/-! ### Upper and lower case -/

/-- Two characters are one, or one ASCII letter in its two cases. -/
def SameLetter (c d : Char) : Prop :=
  c = d ∨ ('A' ≤ c ∧ c ≤ 'Z' ∧ d.toNat = c.toNat + 32) ∨
    ('A' ≤ d ∧ d ≤ 'Z' ∧ c.toNat = d.toNat + 32)

/-- Two texts are the same up to the case of ASCII letters. -/
def SameUpToCase (a b : String) : Prop :=
  List.Forall₂ SameLetter a.toList b.toList

theorem isCapital_iff {c : Char} : 'A' ≤ c ∧ c ≤ 'Z' ↔ 65 ≤ c.toNat ∧ c.toNat ≤ 90 := Iff.rfl

/-- Capitals become the letters 32 places behind them, and nothing else changes. -/
theorem toNat_toLower (c : Char) :
    c.toLower.toNat = if 'A' ≤ c ∧ c ≤ 'Z' then c.toNat + 32 else c.toNat := by
  by_cases h : 'A' ≤ c ∧ c ≤ 'Z'
  · have hsmall : c.toLower.toNat = (c.val + 32).toNat := by
      unfold Char.toLower
      exact congrArg Char.toNat (dif_pos h)
    have hle : c.val.toNat ≤ 90 := h.2
    rw [if_pos h, hsmall, UInt32.toNat_add]
    show (c.val.toNat + 32) % 2 ^ 32 = c.val.toNat + 32
    omega
  · rw [if_neg h]
    unfold Char.toLower
    exact congrArg Char.toNat (dif_neg h)

theorem toList_toLower (text : String) : text.toLower.toList = text.toList.map Char.toLower :=
  String.toList_map

/-- What is made a letter that is no capital is this letter in either case. -/
theorem toLower_eq_iff {c d : Char} (hd : ¬('A' ≤ d ∧ d ≤ 'Z')) :
    c.toLower = d ↔ SameLetter c d := by
  unfold SameLetter
  rw [isCapital_iff] at hd
  rw [← Char.toNat_inj, ← Char.toNat_inj (c := c), toNat_toLower]
  simp only [← and_assoc, isCapital_iff]
  split <;> omega

theorem map_toLower_eq_iff : ∀ {cs name : List Char}, (∀ d ∈ name, ¬('A' ≤ d ∧ d ≤ 'Z')) →
    (cs.map Char.toLower = name ↔ List.Forall₂ SameLetter cs name)
  | [], name, _ => by rw [List.forall₂_nil_left_iff, List.map_nil, eq_comm]
  | c :: cs, [], _ => by simp
  | c :: cs, d :: name, h => by
    have ih := @map_toLower_eq_iff cs name fun e he => h e (List.mem_cons_of_mem d he)
    have hfirst := toLower_eq_iff (c := c) (h d (List.mem_cons_self ..))
    rw [List.map_cons, List.cons.injEq, List.forall₂_cons, hfirst, ih]

/-! ### Levels -/

/-- What is found by a key that tells all apart is what has the key. -/
theorem find?_key_eq_some_iff {α β : Type} [DecidableEq β] {key : α → β} {all : List α}
    (hall : ∀ a, a ∈ all) (hkey : Function.Injective key) {a : α} {b : β} :
    all.find? (fun a => key a = b) = some a ↔ key a = b := by
  constructor
  · intro h
    simpa using List.find?_some h
  · rintro rfl
    cases hfound : all.find? fun a' => key a' = key a with
    | none => simpa using List.find?_eq_none.1 hfound a (hall a)
    | some a' =>
      have hsame : key a' = key a := by simpa using List.find?_some hfound
      rw [hkey hsame]

namespace Level

theorem mem_all (l : Level) : l ∈ all := by
  cases l <;> decide

theorem optionName_injective : Function.Injective optionName := by
  intro l m
  cases l <;> cases m <;> decide

/-- A character is in the name of a level. -/
def InName (c : Char) : Prop :=
  ∃ l : Level, c ∈ l.optionName.toList

theorem toNat_of_inName {c : Char} (h : InName c) : 97 ≤ c.toNat ∧ c.toNat ≤ 122 := by
  obtain ⟨l, hl⟩ := h
  have hsmall : ∀ d ∈ l.optionName.toList, 97 ≤ d.toNat ∧ d.toNat ≤ 122 := by
    cases l <;> simp [optionName]
  exact hsmall c hl

/-- **An option names a level up to the case of ASCII letters.** -/
theorem ofText?_eq_some_iff {text : String} {l : Level} :
    ofText? text = some l ↔ SameUpToCase text l.optionName := by
  have hsmall : ∀ d ∈ l.optionName.toList, ¬('A' ≤ d ∧ d ≤ 'Z') := by
    intro d hd
    have := toNat_of_inName ⟨l, hd⟩
    rw [isCapital_iff]
    omega
  unfold ofText? SameUpToCase
  rw [find?_key_eq_some_iff mem_all optionName_injective, ← map_toLower_eq_iff hsmall,
    ← String.toList_inj, toList_toLower, eq_comm]

end Level

/-! ### Other letters made small

Which letters there are besides those of ASCII, and what each of them becomes, is left
open here. A capital with a dot becomes two characters, for instance, and one sign for a
unit becomes an ASCII letter. -/

/-- A text with its letters made small: those of ASCII become what they do everywhere,
and any other character leaves something that is in no name of a level. -/
inductive Lowered : List Char → List Char → Prop
  | nil : Lowered [] []
  | ascii {c : Char} {cs ds : List Char} : c.toNat < 128 → Lowered cs ds →
    Lowered (c :: cs) (c.toLower :: ds)
  | other {c : Char} {image cs ds : List Char} : 128 ≤ c.toNat → (∃ d ∈ image, ¬Level.InName d) →
    Lowered cs ds → Lowered (c :: cs) (image ++ ds)

/-- The names of levels are met in the same texts, whatever other letters become. -/
theorem Lowered.eq_iff {cs ds : List Char} (h : Lowered cs ds) :
    ∀ {name : List Char}, (∀ c ∈ name, Level.InName c) →
      (ds = name ↔ cs.map Char.toLower = name) := by
  induction h with
  | nil => exact fun _ => Iff.rfl
  | @ascii c cs ds _ _ ih =>
    intro name hname
    cases name with
    | nil => simp
    | cons n name =>
      rw [List.map_cons, List.cons.injEq, List.cons.injEq,
        ih fun c hc => hname c (List.mem_cons_of_mem n hc)]
  | @other c image cs ds hc himage _ _ =>
    intro name hname
    constructor
    · rintro rfl
      obtain ⟨d, hd, hout⟩ := himage
      exact absurd (hname d (List.mem_append_left _ hd)) hout
    · intro hsame
      -- the character is no capital of ASCII, so it would have to be in the name itself
      have hin : Level.InName c.toLower := hname _ (hsame ▸ List.mem_cons_self ..)
      have hsmall := Level.toNat_of_inName hin
      have hcapital : ¬('A' ≤ c ∧ c ≤ 'Z') := by
        rw [isCapital_iff]
        omega
      rw [toNat_toLower, if_neg hcapital] at hsmall
      omega

/-- Levels may be read with all letters made small. -/
theorem Level.ofText?_of_lowered {text : String} {lowered : List Char}
    (h : Lowered text.toList lowered) (l : Level) :
    ofText? text = some l ↔ lowered = l.optionName.toList := by
  unfold ofText?
  rw [find?_key_eq_some_iff mem_all optionName_injective, h.eq_iff fun c hc => ⟨l, hc⟩,
    ← String.toList_inj, toList_toLower, eq_comm]

/-! ### Phase options -/

theorem splitAtEquals_append : ∀ {before : List Char}, '=' ∉ before → ∀ behind : List Char,
    splitAtEquals (before ++ '=' :: behind) = some (before, behind)
  | [], _, _ => rfl
  | c :: before, h, behind => by
    obtain ⟨hc, hbefore⟩ := List.ne_and_not_mem_of_not_mem_cons h
    rw [List.cons_append, splitAtEquals, if_neg hc.symm, splitAtEquals_append hbefore]
    rfl

/-- **A text is split at its first equals sign.** -/
theorem splitAtEquals_eq_some_iff {cs before behind : List Char} :
    splitAtEquals cs = some (before, behind) ↔ '=' ∉ before ∧ cs = before ++ '=' :: behind := by
  constructor
  · intro h
    induction cs generalizing before with
    | nil => cases h
    | cons c cs ih =>
      rw [splitAtEquals] at h
      split at h
      · rename_i hc
        cases h
        exact ⟨List.not_mem_nil, by rw [hc, List.nil_append]⟩
      · rename_i hc
        obtain ⟨⟨start, rest⟩, hsplit, hsome⟩ := Option.map_eq_some_iff.1 h
        cases hsome
        obtain ⟨hstart, rfl⟩ := ih hsplit
        refine ⟨fun hmem => ?_, rfl⟩
        rcases List.mem_cons.1 hmem with heq | hmem
        · exact hc heq.symm
        · exact hstart hmem
  · rintro ⟨hbefore, rfl⟩
    exact splitAtEquals_append hbefore behind

namespace LogPhase

theorem name_injective : Function.Injective name := by
  intro p q
  cases p <;> cases q <;> decide

theorem ofName?_eq_some_iff {text : String} {p : LogPhase} :
    ofName? text = some p ↔ p.name = text :=
  find?_key_eq_some_iff mem_all name_injective

theorem equals_notMem_name (p : LogPhase) : '=' ∉ p.name.toList := by
  cases p <;> decide

end LogPhase

namespace Override

/-- A text is the phase of an override, an equals sign, and the name of its level up to
the case of ASCII letters. -/
def SpelledBy (o : Override) (text : String) : Prop :=
  ∃ level : String, text = o.phase.name ++ "=" ++ level ∧ SameUpToCase level o.level.optionName

/-- **Phase options are read by their grammar, and nothing else is.** -/
theorem ofText?_eq_some_iff {text : String} {o : Override} :
    ofText? text = some o ↔ o.SpelledBy text := by
  constructor
  · intro h
    obtain ⟨⟨phase, level⟩, hsplit, h⟩ := Option.bind_eq_some_iff.1 h
    obtain ⟨p, hp, h⟩ := Option.bind_eq_some_iff.1 h
    obtain ⟨l, hl, h⟩ := Option.bind_eq_some_iff.1 h
    obtain rfl := Option.some.inj h
    obtain ⟨-, htext⟩ := splitAtEquals_eq_some_iff.1 hsplit
    refine ⟨String.ofList level, ?_, Level.ofText?_eq_some_iff.1 hl⟩
    rw [← String.toList_inj, htext, LogPhase.ofName?_eq_some_iff.1 hp]
    simp
  · rintro ⟨level, rfl, hlevel⟩
    have hsplit : splitAtEquals (o.phase.name ++ "=" ++ level).toList =
        some (o.phase.name.toList, level.toList) :=
      splitAtEquals_eq_some_iff.2 ⟨o.phase.equals_notMem_name, by simp⟩
    have hphase : LogPhase.ofName? (String.ofList o.phase.name.toList) = some o.phase :=
      LogPhase.ofName?_eq_some_iff.2 String.ofList_toList.symm
    have hname : Level.ofText? (String.ofList level.toList) = some o.level := by
      rw [String.ofList_toList]
      exact Level.ofText?_eq_some_iff.2 hlevel
    simp only [ofText?, hsplit, Option.bind_eq_bind, Option.bind_some, hphase, hname]

theorem ofText?_eq_none_iff {text : String} :
    ofText? text = none ↔ ∀ o : Override, ¬o.SpelledBy text := by
  rw [Option.eq_none_iff_forall_ne_some]
  exact forall_congr' fun o => not_congr ofText?_eq_some_iff

theorem isSome_ofText?_iff {text : String} :
    (ofText? text).isSome ↔ ∃ o : Override, o.SpelledBy text := by
  rw [Option.isSome_iff_exists]
  exact exists_congr fun o => ofText?_eq_some_iff

/-- The level may be in any case; a phase may not, and there is one equals sign. -/
example : ofText? "single_file=DeBuG" = some ⟨.singleFile, .debug⟩ ∧
    ofText? "Assembly=trace" = none ∧ ofText? "assembly==trace" = none ∧
    ofText? "fileset= warn" = none := by
  cbv

end Override
end Log

/-! ### All options together -/

namespace Cli

open Log

/-- Options that are spelled say what they spell. -/
theorem filterMap_of_spelled {overrides : List Override} {texts : List String}
    (h : List.Forall₂ Override.SpelledBy overrides texts) :
    texts.filterMap Override.ofText? = overrides := by
  induction h with
  | nil => rfl
  | cons hfirst _ ih => rw [List.filterMap_cons_some (Override.ofText?_eq_some_iff.2 hfirst), ih]

theorem firstInvalid_of_spelled {overrides : List Override} {texts : List String}
    (h : List.Forall₂ Override.SpelledBy overrides texts) : firstInvalid texts = none := by
  induction h with
  | nil => rfl
  | cons hfirst _ ih =>
    rw [firstInvalid, List.find?_cons, Override.ofText?_eq_some_iff.2 hfirst]
    exact ih

/-- The phase options are read behind a level. -/
theorem logConfig_of_level {a : Arguments} {l : Level} (h : SameUpToCase a.logLevel l.optionName) :
    logConfig a = applyPhases { overall := l } a.logPhases := by
  rw [logConfig, Level.ofText?_eq_some_iff.2 h]

theorem logConfig_of_no_level {a : Arguments}
    (h : ∀ l : Level, ¬SameUpToCase a.logLevel l.optionName) :
    logConfig a = .error (.unknownLevel a.logLevel) := by
  have hnone : Level.ofText? a.logLevel = none :=
    Option.eq_none_iff_forall_ne_some.2 fun l hl => h l (Level.ofText?_eq_some_iff.1 hl)
  rw [logConfig, hnone]

/-- The options are valid if all of them say something. -/
theorem logValid_iff {a : Arguments} :
    a.LogValid ↔ (∃ l : Level, SameUpToCase a.logLevel l.optionName) ∧
      ∀ text ∈ a.logPhases, ∃ o : Override, o.SpelledBy text := by
  have hlevel : (Level.ofText? a.logLevel).isSome ↔
      ∃ l : Level, SameUpToCase a.logLevel l.optionName := by
    rw [Option.isSome_iff_exists]
    exact exists_congr fun l => Level.ofText?_eq_some_iff
  rw [← hlevel]
  constructor
  · rintro ⟨hsome, hphases⟩
    exact ⟨hsome, fun text ht => Override.isSome_ofText?_iff.1 (hphases text ht)⟩
  · rintro ⟨hsome, hphases⟩
    exact ⟨hsome, fun text ht => Override.isSome_ofText?_iff.2 (hphases text ht)⟩

/-- The first phase option that says nothing is reported. -/
theorem logConfig_of_bad_phase {a : Arguments} {l : Level}
    (hl : SameUpToCase a.logLevel l.optionName) {before after : List String} {text : String}
    (hphases : a.logPhases = before ++ text :: after)
    (hbefore : ∀ t ∈ before, ∃ o : Override, o.SpelledBy t)
    (htext : ∀ o : Override, ¬o.SpelledBy text) :
    logConfig a = .error (.badPhaseLevel text) := by
  have hfirst : firstInvalid a.logPhases = some text :=
    firstInvalid_eq_some_iff.2 ⟨Override.ofText?_eq_none_iff.2 htext, before, after, hphases,
      fun t ht => Override.isSome_ofText?_iff.2 (hbefore t ht)⟩
  rw [logConfig_of_level hl, applyPhases_eq, hfirst]

/-- **Log options are read in turn, and the first that says nothing is reported.** A
phase option is read if it is a phase, an equals sign and a level up to the case of
ASCII letters, and no other text is; a level is read alike if all its letters are made
small. Take any level for everything and any phase options. If the level is none, this
is the error, whatever the phase options are. If it is one, the error is the first phase
option that is not read. If all are read, each phase has the level of its last option,
or else the level for everything. So the options fail just when one of them says
nothing. -/
theorem log_options_read (a : Arguments) :
    (∀ text o, Override.ofText? text = some o ↔ o.SpelledBy text) ∧
    (∀ text, Override.ofText? text = none ↔ ∀ o : Override, ¬o.SpelledBy text) ∧
    (∀ (text : String) lowered, Lowered text.toList lowered →
      ∀ l, Level.ofText? text = some l ↔ lowered = l.optionName.toList) ∧
    ((∃ e, logConfig a = .error e) ↔
      (∀ l : Level, ¬SameUpToCase a.logLevel l.optionName) ∨
        ∃ text ∈ a.logPhases, ∀ o : Override, ¬o.SpelledBy text) ∧
    ((∀ l : Level, ¬SameUpToCase a.logLevel l.optionName) →
      logConfig a = .error (.unknownLevel a.logLevel)) ∧
    ∀ l : Level, SameUpToCase a.logLevel l.optionName →
      (∀ before text after, a.logPhases = before ++ text :: after →
        (∀ t ∈ before, ∃ o : Override, o.SpelledBy t) → (∀ o : Override, ¬o.SpelledBy text) →
          logConfig a = .error (.badPhaseLevel text)) ∧
      ∀ overrides, List.Forall₂ Override.SpelledBy overrides a.logPhases →
        ∃ c, logConfig a = .ok c ∧ c.overall = l ∧
          ∀ p, c.levelFor p = (lastLevel overrides p).getD l := by
  refine ⟨fun _ _ => Override.ofText?_eq_some_iff, fun _ => Override.ofText?_eq_none_iff,
    fun _ _ => Level.ofText?_of_lowered, ?_, logConfig_of_no_level, fun l hl => ⟨?_, ?_⟩⟩
  · have hfails : (∃ e, logConfig a = .error e) ↔ ¬a.LogValid := by
      constructor
      · rintro ⟨e, he⟩ hvalid
        obtain ⟨c, hc⟩ := logConfig_of_valid hvalid
        rw [he] at hc
        cases hc
      · exact logConfig_of_not_valid
    rw [hfails, logValid_iff, not_and_or, not_exists]
    simp only [not_forall, not_exists, exists_prop]
  · exact fun before text after => logConfig_of_bad_phase hl
  · intro overrides hspelled
    refine ⟨LogConfig.applyAll { overall := l } overrides, ?_, LogConfig.overall_applyAll _ _,
      fun p => LogConfig.levelFor_applyAll l overrides p⟩
    rw [logConfig_of_level hl, applyPhases_eq, firstInvalid_of_spelled hspelled,
      filterMap_of_spelled hspelled]
    rfl

end Cli
end TemplatePasses
