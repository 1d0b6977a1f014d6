/-
# What an object says of a record

A record is read member by member, and the fields found so far are carried along.
But what an object says does not depend on the way it is read: each member gives
the effect of a field or, if its key names no field, nothing
(`RecordForm.give`), and the object says a record if every member can be read, no
field is given twice and no required field is left out (`RecordForm.Says`). The
record is then the blank one with these effects (`decode_object_iff`). Neither
`Says` nor the effects know an order of the members.

So objects whose members are rearranged are read alike (`Agree`): in another order,
without members that give nothing, with other values that give the same, and, as
long as the effects of different fields commute (`RecordForm.Regular`), without
members that say the default.

Key definitions: `Agree`, `RecordForm.give`, `RecordForm.given`, `RecordForm.Says`,
`RecordForm.Regular`.
Key theorems: `decodeMembers_closed_iff`, `decode_object_iff`, `agree_of_perm`,
`agree_of_give_none`, `agree_of_give_eq`, `agree_of_default`.
-/
import TemplatePasses.Json.Record
import TemplatePasses.Proofs.Listing
import Mathlib.Data.List.Nodup
import Mathlib.Data.List.Pairwise

namespace TemplatePasses.Json

/-! ### Results -/

theorem ok_bind {α β : Type} (a : α) (f : α → Except Fault β) :
    (Except.ok a >>= f) = f a := rfl

theorem bind_eq_ok_iff {α β : Type} {x : Except Fault α} {f : α → Except Fault β} {b : β} :
    (x >>= f) = .ok b ↔ ∃ a, x = .ok a ∧ f a = .ok b := by
  cases x <;> simp [bind, Except.bind]

theorem map_eq_ok_iff {α β : Type} {x : Except Fault α} {f : α → β} {b : β} :
    f <$> x = .ok b ↔ ∃ a, x = .ok a ∧ f a = b := by
  cases x <;> simp [Functor.map, Except.map]

/-- Two ways of reading succeed alike, with the same result. -/
def Agree {α : Type} (x y : Except Fault α) : Prop :=
  ∀ a, x = .ok a ↔ y = .ok a

section

variable {α β : Type}

theorem Agree.refl (x : Except Fault α) : Agree x x :=
  fun _ => Iff.rfl

theorem Agree.symm {x y : Except Fault α} (h : Agree x y) : Agree y x :=
  fun a => (h a).symm

theorem Agree.trans {x y z : Except Fault α} (h : Agree x y) (h' : Agree y z) : Agree x z :=
  fun a => (h a).trans (h' a)

theorem Agree.bind {x y : Except Fault α} {f g : α → Except Fault β} (h : Agree x y)
    (hrest : ∀ a, Agree (f a) (g a)) : Agree (x >>= f) (y >>= g) := by
  intro b
  rw [bind_eq_ok_iff, bind_eq_ok_iff]
  exact exists_congr fun a => and_congr (h a) (hrest a b)

theorem Agree.map {x y : Except Fault α} (h : Agree x y) (f : α → β) :
    Agree (f <$> x) (f <$> y) := by
  intro b
  rw [map_eq_ok_iff, map_eq_ok_iff]
  exact exists_congr fun a => and_congr_left' (h a)

theorem Agree.toOption_eq {x y : Except Fault α} (h : Agree x y) : x.toOption = y.toOption := by
  cases x with
  | ok a => rw [(h a).1 rfl]
  | error fault =>
    cases y with
    | ok b => cases (h b).2 rfl
    | error fault' => rfl

/-- An item of a list may be replaced by one that is read alike. -/
theorem agree_items {d : Decoder α} {levels : Nat} {t t' : Tree}
    (h : Agree (d levels t) (d levels t')) (before after : List Tree) :
    Agree (Decoder.items d levels (before ++ t :: after))
      (Decoder.items d levels (before ++ t' :: after)) := by
  induction before with
  | nil => exact h.bind fun _ => .refl _
  | cons u before ih => exact (Agree.refl _).bind fun _ => ih.bind fun _ => .refl _

end

/-! ### Fields in any order -/

/-- The effects of two fields may apply in either order. -/
def Field.Commutes {ρ : Type} (f g : Field ρ) : Prop :=
  ∀ (levels : Nat) (t u : Tree) (e e' : ρ → ρ), f.decode levels t = .ok e →
    g.decode levels u = .ok e' → ∀ r, e (e' r) = e' (e r)

/-- The effects of two fields that put values into different parts of a record
may apply in either order. -/
theorem Field.commutes_of_set {ρ α β : Type} {key key' : String} {required required' : Bool}
    {d : Decoder α} {d' : Decoder β} {set : α → ρ → ρ} {set' : β → ρ → ρ}
    (h : ∀ a b r, set a (set' b r) = set' b (set a r)) :
    Field.Commutes ⟨key, required, fun levels tree => set <$> d levels tree⟩
      ⟨key', required', fun levels tree => set' <$> d' levels tree⟩ := by
  intro levels t u e e' he he' r
  obtain ⟨a, -, rfl⟩ := map_eq_ok_iff.1 he
  obtain ⟨b, -, rfl⟩ := map_eq_ok_iff.1 he'
  exact h a b r

instance {ρ : Type} : Std.Symm (Field.Commutes (ρ := ρ)) :=
  ⟨fun _ _ h levels t u e e' hf hg r => (h levels u t e' e hg hf r).symm⟩

namespace RecordForm

variable {ρ : Type} {form : RecordForm ρ} {levels : Nat}

/-- The fields have names of their own and nothing to do with one another. -/
structure Regular (form : RecordForm ρ) : Prop where
  keys : (form.fields.map (·.key)).Nodup
  commuting : form.fields.Pairwise Field.Commutes

/-! ### What members give -/

/-- The field that a name belongs to. -/
def field? (form : RecordForm ρ) (name : String) : Option (Field ρ) :=
  form.fields.find? (·.key = name)

theorem key_of_field? {name : String} {f : Field ρ} (h : form.field? name = some f) :
    f.key = name := by
  have hfound := List.find?_some h
  exact of_decide_eq_true hfound

theorem mem_of_field? {name : String} {f : Field ρ} (h : form.field? name = some f) :
    f ∈ form.fields :=
  List.mem_of_find?_eq_some h

/-- If the fields have keys of their own, a key names its field. -/
theorem field?_of_mem (hkeys : (form.fields.map (·.key)).Nodup) {f : Field ρ}
    (hf : f ∈ form.fields) : form.field? f.key = some f := by
  cases hfind : form.field? f.key with
  | none => simpa using List.find?_eq_none.1 hfind f hf
  | some g => rw [List.inj_on_of_nodup_map hkeys (mem_of_field? hfind) hf (key_of_field? hfind)]

/-- What a member gives if it can be read: the effect of the field that its
key names, or nothing if its key names no field. -/
def give (form : RecordForm ρ) (levels : Nat) (m : QuotedText × Tree) :
    Option (Option (String × (ρ → ρ))) := do
  let name ← m.1.value.toOption
  match form.field? name with
  | none =>
    m.2.skip.toOption
    some none
  | some f =>
    let effect ← (f.decode levels m.2).toOption
    some (some (name, effect))

/-- What the members give, in their order. -/
def given (form : RecordForm ρ) (levels : Nat) (ms : List (QuotedText × Tree)) : FoundFields ρ :=
  ms.filterMap fun m => (form.give levels m).join

/-- An object with these members says a whole record. -/
structure Says (form : RecordForm ρ) (levels : Nat) (ms : List (QuotedText × Tree)) : Prop where
  readable : ∀ m ∈ ms, (form.give levels m).isSome = true
  once : ((form.given levels ms).map (·.1)).Nodup
  complete : ∀ f ∈ form.fields, f.required = true → (form.given levels ms).lookup f.key ≠ none

theorem give_eq_some_none_iff {m : QuotedText × Tree} :
    form.give levels m = some none ↔
      ∃ name, m.1.value = .ok name ∧ form.field? name = none ∧ m.2.skip = .ok () := by
  unfold give
  cases hname : m.1.value with
  | error fault => simp [Except.toOption]
  | ok name =>
    cases hfield : form.field? name with
    | none => cases hskip : m.2.skip <;> simp [Except.toOption, hfield]
    | some f => cases heffect : f.decode levels m.2 <;> simp [Except.toOption, hfield, heffect]

theorem give_eq_some_some_iff {m : QuotedText × Tree} {e : String × (ρ → ρ)} :
    form.give levels m = some (some e) ↔
      ∃ f, m.1.value = .ok e.1 ∧ form.field? e.1 = some f ∧ f.decode levels m.2 = .ok e.2 := by
  obtain ⟨key, effect⟩ := e
  unfold give
  cases hname : m.1.value with
  | error fault => simp [Except.toOption]
  | ok name =>
    cases hfield : form.field? name with
    | none =>
      have hnone : name = key → form.field? key = none := fun h => h ▸ hfield
      cases hskip : m.2.skip <;> simp +contextual [Except.toOption, hfield, hnone]
    | some f =>
      have hsome : name = key → form.field? key = some f := fun h => h ▸ hfield
      cases heffect : f.decode levels m.2 <;>
        simp +contextual [Except.toOption, hfield, heffect, hsome]

theorem given_cons_of_give_none {m : QuotedText × Tree} {ms : List (QuotedText × Tree)}
    (h : form.give levels m = some none) : form.given levels (m :: ms) = form.given levels ms := by
  simp [given, h]

theorem given_cons_of_give_some {m : QuotedText × Tree} {ms : List (QuotedText × Tree)}
    {e : String × (ρ → ρ)} (h : form.give levels m = some (some e)) :
    form.given levels (m :: ms) = e :: form.given levels ms := by
  simp [given, h]

/-! ### Reading the members -/

/-- Fields that may be found after others: none twice and none of the others. -/
structure Fresh (found new : FoundFields ρ) : Prop where
  nodup : (new.map (·.1)).Nodup
  unknown : ∀ e ∈ new, found.lookup e.1 = none

theorem fresh_cons {found new : FoundFields ρ} {e : String × (ρ → ρ)} :
    Fresh found (e :: new) ↔ found.lookup e.1 = none ∧ Fresh (e :: found) new := by
  constructor
  · rintro ⟨hnodup, hunknown⟩
    rw [List.map_cons, List.nodup_cons] at hnodup
    refine ⟨hunknown e (List.mem_cons_self ..), hnodup.2, fun e' he' => ?_⟩
    have hne : e'.1 ≠ e.1 := fun heq => hnodup.1 (heq ▸ List.mem_map_of_mem he')
    rw [List.lookup_cons, beq_false_of_ne hne]
    exact hunknown e' (List.mem_cons_of_mem e he')
  · rintro ⟨he, hnodup, hunknown⟩
    have hne : ∀ e' ∈ new, e'.1 ≠ e.1 ∧ found.lookup e'.1 = none := by
      intro e' he'
      have hlookup := hunknown e' he'
      rw [List.lookup_cons] at hlookup
      by_cases heq : e'.1 = e.1
      · simp [heq] at hlookup
      · exact ⟨heq, by simpa [beq_false_of_ne heq] using hlookup⟩
    refine ⟨?_, ?_⟩
    · rw [List.map_cons, List.nodup_cons]
      refine ⟨fun hmem => ?_, hnodup⟩
      obtain ⟨e', he', heq⟩ := List.mem_map.1 hmem
      exact (hne e' he').1 heq
    · intro e' he'
      rcases List.mem_cons.1 he' with rfl | he'
      · exact he
      · exact (hne e' he').2

theorem decodeMembers_cons_skipped {m : QuotedText × Tree} {ending : ObjectEnd}
    (h : form.give levels m = some none) (found : FoundFields ρ) (ms : List (QuotedText × Tree)) :
    form.decodeMembers levels ending found (m :: ms) =
      form.decodeMembers levels ending found ms := by
  obtain ⟨name, hname, hfield, hskip⟩ := give_eq_some_none_iff.1 h
  unfold field? at hfield
  rw [decodeMembers, fieldOf?, hname]
  simp only [ok_bind, hfield, hskip]

theorem decodeMembers_cons_found {m : QuotedText × Tree} {ending : ObjectEnd}
    {e : String × (ρ → ρ)} (h : form.give levels m = some (some e)) {found : FoundFields ρ}
    (hnew : found.lookup e.1 = none) (ms : List (QuotedText × Tree)) :
    form.decodeMembers levels ending found (m :: ms) =
      form.decodeMembers levels ending (e :: found) ms := by
  obtain ⟨f, hname, hfield, heffect⟩ := give_eq_some_some_iff.1 h
  have hkey := key_of_field? hfield
  unfold field? at hfield
  rw [decodeMembers, fieldOf?, hname]
  simp only [ok_bind, hfield, hnew, Option.isSome_none, Bool.false_eq_true, if_false, heffect, hkey]

/-- A member behind which reading goes on can be read, and its field is new. -/
theorem give_of_decodeMembers {m : QuotedText × Tree} {ms : List (QuotedText × Tree)}
    {ending : ObjectEnd} {found all : FoundFields ρ}
    (h : form.decodeMembers levels ending found (m :: ms) = .ok all) :
    form.give levels m = some none ∨
      ∃ e, form.give levels m = some (some e) ∧ found.lookup e.1 = none := by
  rw [decodeMembers, bind_eq_ok_iff] at h
  obtain ⟨f?, hfieldOf, hrest⟩ := h
  rw [fieldOf?, bind_eq_ok_iff] at hfieldOf
  obtain ⟨name, hname, hfieldOf⟩ := hfieldOf
  cases hfield : form.fields.find? (·.key = name) with
  | none =>
    rw [hfield] at hfieldOf
    obtain rfl := Except.ok.inj hfieldOf
    obtain ⟨⟨⟩, hskip, -⟩ := bind_eq_ok_iff.1 hrest
    exact .inl (give_eq_some_none_iff.2 ⟨name, hname, hfield, hskip⟩)
  | some f =>
    simp only [hfield] at hfieldOf
    split at hfieldOf
    · cases hfieldOf
    · rename_i hnew
      obtain rfl := Except.ok.inj hfieldOf
      obtain ⟨effect, heffect, -⟩ := bind_eq_ok_iff.1 hrest
      refine .inr ⟨(name, effect), give_eq_some_some_iff.2 ⟨f, hname, hfield, heffect⟩, ?_⟩
      exact Option.not_isSome_iff_eq_none.1 hnew

/-- **Members are read if each can be read and no field comes twice.** What has
been found afterwards is what they give. -/
theorem decodeMembers_closed_iff {ms : List (QuotedText × Tree)} {found all : FoundFields ρ} :
    form.decodeMembers levels .closed found ms = .ok all ↔
      (∀ m ∈ ms, (form.give levels m).isSome = true) ∧ Fresh found (form.given levels ms) ∧
        all = (form.given levels ms).reverse ++ found := by
  induction ms generalizing found with
  | nil =>
    have hfresh : Fresh found (form.given levels []) := ⟨List.nodup_nil, nofun⟩
    simp only [List.not_mem_nil, hfresh, false_imp_iff, implies_true, true_and]
    exact ⟨fun h => (Except.ok.inj h).symm, fun h => congrArg Except.ok h.symm⟩
  | cons m ms ih =>
    rw [List.forall_mem_cons]
    constructor
    · intro h
      rcases give_of_decodeMembers h with hgive | ⟨e, hgive, hnew⟩
      · rw [decodeMembers_cons_skipped hgive] at h
        rw [hgive, given_cons_of_give_none hgive]
        exact and_assoc.2 ⟨rfl, ih.1 h⟩
      · rw [decodeMembers_cons_found hgive hnew] at h
        obtain ⟨hall, hfresh, hfound⟩ := ih.1 h
        rw [hgive, given_cons_of_give_some hgive]
        exact ⟨⟨rfl, hall⟩, fresh_cons.2 ⟨hnew, hfresh⟩, by simpa using hfound⟩
    · rintro ⟨⟨hm, hall⟩, hfresh, hfound⟩
      obtain ⟨g, hgive⟩ := Option.isSome_iff_exists.1 hm
      cases g with
      | none =>
        rw [given_cons_of_give_none hgive] at hfresh hfound
        rw [decodeMembers_cons_skipped hgive]
        exact ih.2 ⟨hall, hfresh, hfound⟩
      | some e =>
        rw [given_cons_of_give_some hgive] at hfresh hfound
        obtain ⟨hnew, hfresh⟩ := fresh_cons.1 hfresh
        rw [decodeMembers_cons_found hgive hnew]
        exact ih.2 ⟨hall, hfresh, by simpa using hfound⟩

theorem checkRequired_eq_ok_iff {found : FoundFields ρ} {fields : List (Field ρ)} :
    checkRequired found fields = .ok () ↔
      ∀ f ∈ fields, f.required = true → found.lookup f.key ≠ none := by
  induction fields with
  | nil => simp [checkRequired]
  | cons f rest ih =>
    rw [checkRequired, List.forall_mem_cons, ← ih]
    by_cases h : f.required = true ∧ found.lookup f.key = none
    · simp [h]
    · rw [if_neg h]
      exact ⟨fun hrest => ⟨fun hf hnone => h ⟨hf, hnone⟩, hrest⟩, And.right⟩

/-! ### The record that an object says -/

/-- A record with the effect of a field, if that field has been found. -/
def applyFound (found : FoundFields ρ) (r : ρ) (f : Field ρ) : ρ :=
  match found.lookup f.key with
  | some effect => effect r
  | none => r

theorem assemble_eq_foldl (form : RecordForm ρ) (found : FoundFields ρ) :
    form.assemble found = form.fields.foldl (applyFound found) form.blank := rfl

theorem applyFound_of_some {found : FoundFields ρ} {f : Field ρ} {effect : ρ → ρ}
    (h : found.lookup f.key = some effect) (r : ρ) : applyFound found r f = effect r := by
  rw [applyFound, h]

theorem applyFound_of_none {found : FoundFields ρ} {f : Field ρ} (h : found.lookup f.key = none)
    (r : ρ) : applyFound found r f = r := by
  rw [applyFound, h]

/-- The record knows the effects found by their keys only. -/
theorem assemble_congr {found found' : FoundFields ρ}
    (h : ∀ name, found.lookup name = found'.lookup name) :
    form.assemble found = form.assemble found' := by
  have happly : applyFound (ρ := ρ) found = applyFound found' := by
    funext r f
    rw [applyFound, applyFound, h]
  rw [assemble_eq_foldl, assemble_eq_foldl, happly]

/-- **An object is read as the record that it says.** -/
theorem decode_object_iff {ms : List (QuotedText × Tree)} {r : ρ} :
    form.decode (levels + 1) (.object ms .closed) = .ok r ↔
      form.Says levels ms ∧ r = form.assemble (form.given levels ms) := by
  show (do
    let found ← form.decodeMembers levels .closed [] ms
    checkRequired found form.fields
    Except.ok (form.assemble found)) = .ok r ↔ _
  have hlookup : ((form.given levels ms).map (·.1)).Nodup → ∀ name,
      (form.given levels ms).reverse.lookup name = (form.given levels ms).lookup name :=
    fun honce name => (lookup_of_perm (List.reverse_perm _).symm honce name).symm
  simp only [bind_eq_ok_iff, decodeMembers_closed_iff, List.append_nil]
  constructor
  · rintro ⟨_, ⟨hreadable, ⟨honce, -⟩, rfl⟩, ⟨⟩, hrequired, hr⟩
    refine ⟨⟨hreadable, honce, fun f hf hreq => ?_⟩, ?_⟩
    · rw [← hlookup honce]
      exact checkRequired_eq_ok_iff.1 hrequired f hf hreq
    · rw [← assemble_congr (hlookup honce)]
      exact (Except.ok.inj hr).symm
  · rintro ⟨⟨hreadable, honce, hcomplete⟩, rfl⟩
    refine ⟨_, ⟨hreadable, ⟨honce, fun _ _ => rfl⟩, rfl⟩, (), ?_, ?_⟩
    · refine checkRequired_eq_ok_iff.2 fun f hf hreq => ?_
      rw [hlookup honce]
      exact hcomplete f hf hreq
    · rw [assemble_congr (hlookup honce)]

/-! ### Objects that say the same -/

/-- What an object says does not depend on the order of its members. -/
theorem agree_of_perm {ms ms' : List (QuotedText × Tree)} (h : ms.Perm ms') :
    Agree (form.decode levels (.object ms .closed)) (form.decode levels (.object ms' .closed)) := by
  have himp : ∀ {ms ms' : List (QuotedText × Tree)} {levels : Nat} {r : ρ}, ms.Perm ms' →
      form.decode (levels + 1) (.object ms .closed) = .ok r →
        form.decode (levels + 1) (.object ms' .closed) = .ok r := by
    intro ms ms' levels r h hr
    obtain ⟨⟨hreadable, honce, hcomplete⟩, rfl⟩ := decode_object_iff.1 hr
    have hgiven : (form.given levels ms).Perm (form.given levels ms') := h.filterMap _
    have hlookup := lookup_of_perm hgiven honce
    refine decode_object_iff.2 ⟨⟨?_, (hgiven.map _).nodup_iff.1 honce, ?_⟩, assemble_congr hlookup⟩
    · exact fun m hm => hreadable m (h.mem_iff.2 hm)
    · intro f hf hreq
      rw [← hlookup]
      exact hcomplete f hf hreq
  intro r
  cases levels with
  | zero => exact ⟨nofun, nofun⟩
  | succ levels => exact ⟨himp h, himp h.symm⟩

/-- A member that gives nothing may be left out. -/
theorem agree_of_give_none {m : QuotedText × Tree} (hm : form.give levels m = some none)
    (ms : List (QuotedText × Tree)) :
    Agree (form.decode (levels + 1) (.object (m :: ms) .closed))
      (form.decode (levels + 1) (.object ms .closed)) := by
  intro r
  simp only [decode, Decoder.enter, decodeMembers_cons_skipped hm]

theorem given_congr {m m' : QuotedText × Tree} (h : form.give levels m = form.give levels m')
    (ms : List (QuotedText × Tree)) :
    form.given levels (m :: ms) = form.given levels (m' :: ms) := by
  simp only [given, List.filterMap_cons, h]

theorem Says.congr {m m' : QuotedText × Tree} {ms : List (QuotedText × Tree)}
    (h : form.give levels m = form.give levels m') (hwhole : form.Says levels (m :: ms)) :
    form.Says levels (m' :: ms) := by
  obtain ⟨hm, hreadable⟩ := List.forall_mem_cons.1 hwhole.readable
  have hgiven := given_congr h ms
  exact ⟨List.forall_mem_cons.2 ⟨h ▸ hm, hreadable⟩, hgiven ▸ hwhole.once, hgiven ▸ hwhole.complete⟩

/-- A member may be replaced by one that gives the same. -/
theorem agree_of_give_eq {m m' : QuotedText × Tree} (h : form.give levels m = form.give levels m')
    (ms : List (QuotedText × Tree)) :
    Agree (form.decode (levels + 1) (.object (m :: ms) .closed))
      (form.decode (levels + 1) (.object (m' :: ms) .closed)) := by
  intro r
  rw [decode_object_iff, decode_object_iff, given_congr h]
  exact and_congr_left' ⟨Says.congr h, Says.congr h.symm⟩

/-- The value of a field may be replaced by one that is read alike, in a record
given as an object. -/
theorem give_congr {key : QuotedText} {t t' : Tree} {name : String} {f : Field ρ}
    (hname : key.value = .ok name) (hfield : form.field? name = some f)
    (h : Agree (f.decode levels t) (f.decode levels t')) :
    form.give levels (key, t) = form.give levels (key, t') := by
  simp only [give, hname, Except.toOption, Option.bind_eq_bind, Option.bind_some, hfield]
  have := h.toOption_eq
  unfold Except.toOption at this
  rw [this]

/-- The same in a record given as a list. -/
theorem agree_decodeItems {f : Field ρ} {t t' : Tree} {ending : ListEnd}
    (h : Agree (f.decode levels t) (f.decode levels t')) (after : List Tree) :
    ∀ (before : List Tree) (place : Nat) (fields : List (Field ρ)),
      fields[before.length]? = some f →
        Agree (form.decodeItems levels ending place fields (before ++ t :: after))
          (form.decodeItems levels ending place fields (before ++ t' :: after))
  | [], place, g :: fields, hf => by
    obtain rfl : g = f := Option.some.inj hf
    exact h.bind fun _ => .refl _
  | u :: before, place, g :: fields, hf =>
    (Agree.refl _).bind fun _ =>
      (agree_decodeItems h after before (place + 1) fields hf).bind fun _ => .refl _

/-! ### Members that say the default -/

theorem mem_given {e : String × (ρ → ρ)} {ms : List (QuotedText × Tree)} :
    e ∈ form.given levels ms ↔ ∃ m ∈ ms, form.give levels m = some (some e) := by
  simp [given, Option.join_eq_some_iff]

/-- An effect that leaves the blank record alone cannot be seen if it may be
moved before the others. -/
theorem assemble_cons_of_default {e : String × (ρ → ρ)} {found : FoundFields ρ}
    (hblank : e.2 form.blank = form.blank) (hnew : found.lookup e.1 = none)
    (hcomm : ∀ e' ∈ found, ∀ r, e.2 (e'.2 r) = e'.2 (e.2 r)) :
    form.assemble (e :: found) = form.assemble found := by
  -- what the effect leaves alone, the effects of the other fields keep that way
  have hfold : ∀ (fields : List (Field ρ)) (r : ρ), e.2 r = r →
      fields.foldl (applyFound (e :: found)) r = fields.foldl (applyFound found) r := by
    intro fields
    induction fields with
    | nil => intro r _; rfl
    | cons f fields ih =>
      intro r hr
      rw [List.foldl_cons, List.foldl_cons]
      by_cases hkey : f.key = e.1
      · have hself : (e :: found).lookup f.key = some e.2 := by
          rw [hkey]
          exact List.lookup_cons_self
        rw [applyFound_of_some hself, hr, applyFound_of_none (hkey ▸ hnew)]
        exact ih r hr
      · have hother : (e :: found).lookup f.key = found.lookup f.key := by
          rw [List.lookup_cons, beq_false_of_ne hkey]
        cases hlookup : found.lookup f.key with
        | none =>
          rw [applyFound_of_none (hother.trans hlookup), applyFound_of_none hlookup]
          exact ih r hr
        | some effect =>
          rw [applyFound_of_some (hother.trans hlookup), applyFound_of_some hlookup]
          refine ih (effect r) ?_
          rw [hcomm _ (NameMap.mem_of_lookup hlookup), hr]
  exact hfold form.fields form.blank hblank

/-- Members whose keys are other names give nothing under this one. -/
theorem ne_of_mem_given {name : String} {ms : List (QuotedText × Tree)}
    (honly : ∀ m ∈ ms, m.1.value ≠ .ok name) : ∀ e ∈ form.given levels ms, e.1 ≠ name := by
  intro e he h
  obtain ⟨m, hm, hgive⟩ := mem_given.1 he
  obtain ⟨g, hvalue, -⟩ := give_eq_some_some_iff.1 hgive
  exact honly m hm (h ▸ hvalue)

/-- Whether an object says a record does not depend on a field that may be left out
and comes once only. -/
theorem Says.cons_iff (hkeys : (form.fields.map (·.key)).Nodup) {m : QuotedText × Tree}
    {ms : List (QuotedText × Tree)} {e : String × (ρ → ρ)} {f : Field ρ}
    (hgive : form.give levels m = some (some e)) (hfield : form.field? e.1 = some f)
    (hoptional : f.required = false) (hothers : ∀ e' ∈ form.given levels ms, e'.1 ≠ e.1) :
    form.Says levels (m :: ms) ↔ form.Says levels ms := by
  have hrequired : ∀ g ∈ form.fields, g.required = true →
      (e :: form.given levels ms).lookup g.key = (form.given levels ms).lookup g.key := by
    intro g hg hreq
    have hne : g.key ≠ e.1 := by
      intro h
      have hfieldg := field?_of_mem hkeys hg
      rw [h, hfield] at hfieldg
      obtain rfl := Option.some.inj hfieldg
      rw [hoptional] at hreq
      cases hreq
    rw [List.lookup_cons, beq_false_of_ne hne]
  constructor
  · rintro ⟨hreadable, honce, hcomplete⟩
    rw [given_cons_of_give_some hgive] at honce hcomplete
    exact ⟨(List.forall_mem_cons.1 hreadable).2, (List.nodup_cons.1 honce).2,
      fun g hg hreq => hrequired g hg hreq ▸ hcomplete g hg hreq⟩
  · rintro ⟨hreadable, honce, hcomplete⟩
    refine ⟨List.forall_mem_cons.2 ⟨by rw [hgive]; rfl, hreadable⟩, ?_, fun g hg hreq => ?_⟩
    · rw [given_cons_of_give_some hgive, List.map_cons, List.nodup_cons]
      refine ⟨fun hmem => ?_, honce⟩
      obtain ⟨e', he', h⟩ := List.mem_map.1 hmem
      exact hothers e' he' h
    · rw [given_cons_of_give_some hgive, hrequired g hg hreq]
      exact hcomplete g hg hreq

/-- A field that may be left out and comes once only may be left out where its
value is the default. -/
theorem agree_of_default (hregular : form.Regular) {key : QuotedText} {t : Tree} {name : String}
    {f : Field ρ} {effect : ρ → ρ} (hname : key.value = .ok name)
    (hfield : form.field? name = some f) (hoptional : f.required = false)
    (heffect : f.decode levels t = .ok effect) (hblank : effect form.blank = form.blank)
    {ms : List (QuotedText × Tree)} (honly : ∀ m ∈ ms, m.1.value ≠ .ok name) :
    Agree (form.decode (levels + 1) (.object ((key, t) :: ms) .closed))
      (form.decode (levels + 1) (.object ms .closed)) := by
  have hgive : form.give levels (key, t) = some (some (name, effect)) :=
    give_eq_some_some_iff.2 ⟨f, hname, hfield, heffect⟩
  have hothers : ∀ e ∈ form.given levels ms, e.1 ≠ name := ne_of_mem_given honly
  have hnew : (form.given levels ms).lookup name = none := by
    rw [List.lookup_eq_none_iff]
    exact fun e he => bne_iff_ne.2 (hothers e he).symm
  have hcomm : ∀ e ∈ form.given levels ms, ∀ r, effect (e.2 r) = e.2 (effect r) := by
    intro e he
    obtain ⟨m, -, hgivem⟩ := mem_given.1 he
    obtain ⟨g, -, hfieldg, heffectg⟩ := give_eq_some_some_iff.1 hgivem
    have hne : f ≠ g := by
      rintro rfl
      exact hothers e he ((key_of_field? hfieldg).symm.trans (key_of_field? hfield))
    exact hregular.commuting.forall (mem_of_field? hfield) (mem_of_field? hfieldg) hne _ _ _ _ _
      heffect heffectg
  intro r
  rw [decode_object_iff, decode_object_iff,
    Says.cons_iff hregular.keys hgive hfield hoptional hothers, given_cons_of_give_some hgive,
    assemble_cons_of_default hblank hnew hcomm]

end RecordForm
end TemplatePasses.Json
