/-
# The layout of a configuration

A configuration may be written in many ways. Inside every object that is read as
a record the members may come in any order, members with unknown keys may be put
in or taken out, and a member that says the default may be left out
(`Rearranged`); between the tokens there may be blanks. None of this can be seen
in the configuration that is read (`PassConfig.ofText_rearranged`).

Which values are read as records is told by `Kind.inside`. The objects of globals
and rules are maps, so they are not among them: every key of a map counts.

Key definitions: `Kind`, `Reading`, `Rearranged`.
Key theorems: `Kind.form_regular`, `Rearranged.agree`, `Rearranged.complete_iff`,
`PassConfig.ofText_rearranged`.
-/
import TemplatePasses.Config.Form
import TemplatePasses.Proofs.Records
import TemplatePasses.Proofs.Writing
import Mathlib.Logic.Relation

namespace TemplatePasses

open Json

/-! ### The records of a configuration -/

/-- The records that a configuration consists of. -/
inductive Kind where
  | passConfig
  | generalOptions
  | conformance
  | logging
  | requirement
  | element
deriving DecidableEq

/-- A record of this kind. -/
@[reducible] def Kind.Record : Kind → Type
  | .passConfig => PassConfig
  | .generalOptions => GeneralOptions
  | .conformance => ConformanceConfig
  | .logging => LoggingConfig
  | .requirement => ConformanceRequirement
  | .element => LoggableElement

def Kind.form : (kind : Kind) → RecordForm kind.Record
  | .passConfig => PassConfig.form
  | .generalOptions => GeneralOptions.form
  | .conformance => ConformanceConfig.form
  | .logging => LoggingConfig.form
  | .requirement => ConformanceRequirement.form
  | .element => LoggableElement.form

/-- What a value that holds records is read as. -/
inductive Reading where
  | record (kind : Kind)
  /-- A list of records. -/
  | records (kind : Kind)

/-- What such a value gives. -/
@[reducible] def Reading.Result : Reading → Type
  | .record kind => kind.Record
  | .records kind => List kind.Record

def Reading.decode : (reading : Reading) → Decoder reading.Result
  | .record kind => kind.form.decode
  | .records kind => .list kind.form.decode

/-- What the value of a field is read as, if it holds records. -/
def Kind.inside : Kind → String → Option Reading
  | .passConfig, "options" => some (.record .generalOptions)
  | .passConfig, "conformance" => some (.record .conformance)
  | .passConfig, "logging" => some (.record .logging)
  | .conformance, "requirements" => some (.records .requirement)
  | .logging, "elements" => some (.records .element)
  | _, _ => none

/-- A field that holds records is read by way of them. -/
theorem Kind.field_of_inside {kind : Kind} {name : String} {reading : Reading}
    (h : kind.inside name = some reading) :
    ∃ f : Json.Field kind.Record, kind.form.field? name = some f ∧
      ∀ {levels : Nat} {t t' : Tree}, Agree (reading.decode levels t) (reading.decode levels t') →
        Agree (f.decode levels t) (f.decode levels t') := by
  unfold Kind.inside at h
  split at h
  case h_6 => cases h
  all_goals
    obtain rfl := Option.some.inj h
    exact ⟨_, rfl, fun h => h.map _⟩

/-- **The records of a configuration are regular.** -/
theorem Kind.form_regular (kind : Kind) : kind.form.Regular := by
  constructor
  · cases kind <;> decide
  · cases kind <;>
      simp only [Kind.form, PassConfig.form, GeneralOptions.form, ConformanceConfig.form,
        LoggingConfig.form, ConformanceRequirement.form, LoggableElement.form,
        List.pairwise_cons, List.forall_mem_cons, List.not_mem_nil, false_imp_iff, implies_true,
        and_true, List.Pairwise.nil]
    all_goals
      and_intros
      all_goals exact Json.Field.commutes_of_set fun _ _ _ => rfl

/-! ### Rearranging -/

/-- A text that stands for something has its closing quote. -/
theorem Json.QuotedText.closed_of_value {t : QuotedText} {s : String} (h : t.value = .ok s) :
    t.ending = .closed := by
  obtain ⟨pieces, ending⟩ := t
  obtain ⟨cs, hcs, -⟩ := map_eq_ok_iff.1 h
  change QuotedText.decode ending pieces = .ok cs at hcs
  show ending = .closed
  clear h
  fun_induction QuotedText.decode ending pieces generalizing cs
  case case1 hfault => cases ending <;> first | rfl | cases hfault
  case case2 => cases hcs
  all_goals first
    | cases hcs
    | (rename_i ih
       obtain ⟨ds, hds, -⟩ := map_eq_ok_iff.1 hcs
       exact ih ds hds)

/-- The second tree says the same as the first one, read in the same way so many
levels above the limit. -/
inductive Rearranged : Nat → Reading → Tree → Tree → Prop
  /-- The members of a record come in another order. -/
  | permute {levels : Nat} {kind : Kind} {ms ms' : List (QuotedText × Tree)} : ms.Perm ms' →
    Rearranged levels (.record kind) (.object ms .closed) (.object ms' .closed)
  /-- A member whose key names no field is put in. -/
  | insert {levels : Nat} {kind : Kind} {before after : List (QuotedText × Tree)}
      {key : QuotedText} {name : String} {t : Tree} :
    key.value = .ok name → kind.form.field? name = none → t.Complete →
    Rearranged levels (.record kind) (.object (before ++ after) .closed)
      (.object (before ++ (key, t) :: after) .closed)
  /-- A member is left out whose value is the default of its field, if the field
  has one and comes only once. -/
  | leaveOut {levels : Nat} {kind : Kind} {before after : List (QuotedText × Tree)}
      {key : QuotedText} {name : String} {t : Tree} {f : Json.Field kind.Record}
      {effect : kind.Record → kind.Record} :
    key.value = .ok name → kind.form.field? name = some f → f.required = false →
    f.decode levels t = .ok effect → effect kind.form.blank = kind.form.blank →
    (∀ m ∈ before ++ after, m.1.value ≠ .ok name) → t.Complete →
    Rearranged (levels + 1) (.record kind) (.object (before ++ (key, t) :: after) .closed)
      (.object (before ++ after) .closed)
  /-- The value of a member is rearranged. -/
  | member {levels : Nat} {kind : Kind} {before after : List (QuotedText × Tree)}
      {key : QuotedText} {name : String} {reading : Reading} {t t' : Tree} :
    key.value = .ok name → kind.inside name = some reading → Rearranged levels reading t t' →
    Rearranged (levels + 1) (.record kind) (.object (before ++ (key, t) :: after) .closed)
      (.object (before ++ (key, t') :: after) .closed)
  /-- The value of a field is rearranged in a record that is given as a list. -/
  | place {levels : Nat} {kind : Kind} {before after : List Tree} {f : Json.Field kind.Record}
      {reading : Reading} {t t' : Tree} :
    kind.form.fields[before.length]? = some f → kind.inside f.key = some reading →
    Rearranged levels reading t t' →
    Rearranged (levels + 1) (.record kind) (.list (before ++ t :: after) .closed)
      (.list (before ++ t' :: after) .closed)
  /-- A record of a list is rearranged. -/
  | item {levels : Nat} {kind : Kind} {before after : List Tree} {t t' : Tree} :
    Rearranged levels (.record kind) t t' →
    Rearranged (levels + 1) (.records kind) (.list (before ++ t :: after) .closed)
      (.list (before ++ t' :: after) .closed)

namespace Rearranged

variable {levels : Nat} {reading : Reading} {t t' : Tree}

/-- **What is rearranged is read alike.** -/
theorem agree (h : Rearranged levels reading t t') :
    Agree (reading.decode levels t) (reading.decode levels t') := by
  induction h with
  | permute hperm => exact RecordForm.agree_of_perm hperm
  | @insert levels kind before after key name t hname hfield ht =>
    refine Agree.symm ((RecordForm.agree_of_perm List.perm_middle).trans ?_)
    have hgive : ∀ levels, kind.form.give levels (key, t) = some none := fun levels =>
      RecordForm.give_eq_some_none_iff.2 ⟨name, hname, hfield, ht.skip⟩
    cases levels with
    | zero => exact .refl _
    | succ levels => exact RecordForm.agree_of_give_none (hgive levels) _
  | @leaveOut levels kind before after key name t f effect hname hfield hoptional heffect hblank
      honly _ =>
    exact (RecordForm.agree_of_perm List.perm_middle).trans
      (RecordForm.agree_of_default kind.form_regular hname hfield hoptional heffect hblank honly)
  | @member levels kind before after key name reading t t' hname hinside _ ih =>
    obtain ⟨f, hfield, hf⟩ := Kind.field_of_inside hinside
    have hgive := RecordForm.give_congr hname hfield (hf ih)
    exact ((RecordForm.agree_of_perm List.perm_middle).trans
      (RecordForm.agree_of_give_eq hgive _)).trans (RecordForm.agree_of_perm List.perm_middle.symm)
  | @place levels kind before after f reading t t' hplace hinside _ ih =>
    obtain ⟨g, hfield, hg⟩ := Kind.field_of_inside hinside
    have hf := RecordForm.field?_of_mem kind.form_regular.keys (List.mem_of_getElem? hplace)
    rw [hfield] at hf
    obtain rfl := Option.some.inj hf
    exact (RecordForm.agree_decodeItems (hg ih) after before 0 _ hplace).bind fun _ => .refl _
  | item _ ih => exact (agree_items ih _ _).bind fun _ => .refl _

/-- What is rearranged has no fault, and had none before. -/
theorem complete_iff (h : Rearranged levels reading t t') : t.Complete ↔ t'.Complete := by
  induction h with
  | permute hperm =>
    rw [Tree.complete_object_iff, Tree.complete_object_iff]
    exact forall_congr' fun m => imp_congr_left hperm.mem_iff
  | insert hname _ ht =>
    have hkey := QuotedText.closed_of_value hname
    simp only [Tree.complete_object_iff, List.forall_mem_append, List.forall_mem_cons, hkey, ht,
      and_self, true_and]
  | leaveOut hname _ _ _ _ _ ht =>
    have hkey := QuotedText.closed_of_value hname
    simp only [Tree.complete_object_iff, List.forall_mem_append, List.forall_mem_cons, hkey, ht,
      and_self, true_and]
  | member _ _ _ ih =>
    simp only [Tree.complete_object_iff, List.forall_mem_append, List.forall_mem_cons, ih]
  | place _ _ _ ih =>
    simp only [Tree.complete_list_iff, List.forall_mem_append, List.forall_mem_cons, ih]
  | item _ ih =>
    simp only [Tree.complete_list_iff, List.forall_mem_append, List.forall_mem_cons, ih]

end Rearranged

/-- However often a tree is rearranged and set back, it is read alike. -/
theorem agree_of_eqvGen {levels : Nat} {reading : Reading} {t t' : Tree}
    (h : Relation.EqvGen (Rearranged levels reading) t t') :
    (t.Complete ↔ t'.Complete) ∧ Agree (reading.decode levels t) (reading.decode levels t') := by
  induction h with
  | rel _ _ h => exact ⟨h.complete_iff, h.agree⟩
  | refl => exact ⟨Iff.rfl, .refl _⟩
  | symm _ _ _ ih => exact ⟨ih.1.symm, ih.2.symm⟩
  | trans _ _ _ _ _ ih ih' => exact ⟨ih.1.trans ih'.1, ih.2.trans ih'.2⟩

namespace PassConfig

theorem ofText_of_laidOut {t : Tree} {text : List Char} (ht : t.Complete)
    (htext : LaidOut t.tokens text) :
    ofText (String.ofList text) = decode levelLimit t :=
  decodeText_laidOut decode ht htext

/-- **The layout of a configuration does not change what it says.** Take a text of
a configuration and another one in which, inside any objects that are read as
records, the members have been reordered, members with unknown keys have been put
in or taken out, and members have been left out that say the default of a field
given once, any number of times, and the blanks between the tokens are any others.
If one of the texts is read, so is the other, as the same configuration. -/
theorem ofText_rearranged {t t' : Tree} {old new : List Char} (ht : t.Complete)
    (h : Relation.EqvGen (Rearranged levelLimit (.record .passConfig)) t t')
    (hold : LaidOut t.tokens old) (hnew : LaidOut t'.tokens new) (c : PassConfig) :
    ofText (String.ofList old) = .ok c ↔ ofText (String.ofList new) = .ok c := by
  obtain ⟨hcomplete, hagree⟩ := agree_of_eqvGen h
  rw [ofText_of_laidOut ht hold, ofText_of_laidOut (hcomplete.1 ht) hnew]
  exact hagree c

/-- A member with an unknown key, a default and the order make no difference, nor do
the lines. -/
theorem ofText_rearranged_lines :
    ofText (Tree.ofMembers [("x", .ofList [.null]), ("optimize", .ofBool false),
      ("allow_v1_expression", .ofBool false), ("allow_unknown_globals", .ofBool true)]).lines =
        .ok { allowUnknownGlobals := true, optimize := false } := by
  have hword : ∀ b, (Tree.ofBool b).Written := fun b => .word _
  have hx : (Tree.ofList [.null]).Written := .list (List.forall_mem_singleton.2 (.word .null))
  have hold : (Tree.ofMembers [("x", .ofList [.null]), ("optimize", .ofBool false),
      ("allow_v1_expression", .ofBool false), ("allow_unknown_globals", .ofBool true)]).Written :=
    .object (by simp [hword, hx])
  have hnew : (Tree.ofMembers [("allow_unknown_globals", .ofBool true),
      ("optimize", .ofBool false)]).Written := .object (by simp [hword])
  have hunknown : Rearranged levelLimit (.record .passConfig)
      (Tree.ofMembers [("optimize", .ofBool false), ("allow_v1_expression", .ofBool false),
        ("allow_unknown_globals", .ofBool true)])
      (Tree.ofMembers [("x", .ofList [.null]), ("optimize", .ofBool false),
        ("allow_v1_expression", .ofBool false), ("allow_unknown_globals", .ofBool true)]) :=
    @Rearranged.insert _ _ [] _ _ _ _ (QuotedText.value_ofString "x") rfl hx.complete
  have hdefault : Rearranged levelLimit (.record .passConfig)
      (Tree.ofMembers [("optimize", .ofBool false), ("allow_v1_expression", .ofBool false),
        ("allow_unknown_globals", .ofBool true)])
      (Tree.ofMembers [("optimize", .ofBool false), ("allow_unknown_globals", .ofBool true)]) :=
    @Rearranged.leaveOut 126 .passConfig [(.ofString "optimize", .ofBool false)] _ _ _ _ _ _
      (QuotedText.value_ofString "allow_v1_expression") rfl rfl rfl rfl
      (by simp [QuotedText.value_ofString]) (hword false).complete
  have horder : Rearranged levelLimit (.record .passConfig)
      (Tree.ofMembers [("optimize", .ofBool false), ("allow_unknown_globals", .ofBool true)])
      (Tree.ofMembers [("allow_unknown_globals", .ofBool true), ("optimize", .ofBool false)]) :=
    .permute (.swap ..)
  have hall := (Relation.EqvGen.symm _ _ (.rel _ _ hunknown)).trans _ _ _
    ((Relation.EqvGen.rel _ _ hdefault).trans _ _ _ (.rel _ _ horder))
  exact (ofText_rearranged hold.complete hall (hold.laidOut_indented 0) hnew.laidOut _).2 rfl

end PassConfig
end TemplatePasses
