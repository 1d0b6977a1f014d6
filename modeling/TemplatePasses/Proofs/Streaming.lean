/-
# Reading what is left of a tree

A decoder that reads a tree finds nothing wrong in what is left of the tree but its
end (`Decoder.Streams`). What stands before the cut it reads as in the whole tree; of
a text, a word or an object that is cut it knows that it is cut before it asks what
it means; and an integer with fewer digits is an integer too. This holds of the
decoders of single values, of lists, maps and records if it holds of the decoders
inside them, and of values of any form without doubles.

A record is streamed only if each of its members gives a field. What is skipped is
checked for its form alone, and then a sign without digits is not well-formed,
although the text ends there.

Key definitions: `FailsAtEnd`, `Decoder.Streams`, `RecordForm.StreamInTurn`.
Key theorems: `QuotedText.value_cut`, `streams_list`, `streams_map`,
`RecordForm.streams_ofMembers`, `RecordForm.decode_cut_ne_ok`, `Value.streams_tree`.
-/
import TemplatePasses.Proofs.Cutting
import TemplatePasses.Proofs.Decoding

namespace TemplatePasses.Json

/-! ### Faults at the end -/

/-- If reading fails, it is because the text ends. -/
def FailsAtEnd {α : Type} (x : Except Fault α) : Prop :=
  ∀ fault, x = .error fault → fault.category = .eof

namespace FailsAtEnd

variable {α β : Type}

theorem ok (a : α) : FailsAtEnd (.ok a : Except Fault α) := by
  intro fault h
  cases h

theorem error {fault : Fault} (h : fault.category = .eof) :
    FailsAtEnd (.error fault : Except Fault α) := by
  intro fault' heq
  rwa [← Except.error.inj heq]

theorem bind {x : Except Fault α} {f : α → Except Fault β} (hx : FailsAtEnd x)
    (hf : ∀ a, x = .ok a → FailsAtEnd (f a)) : FailsAtEnd (x >>= f) := by
  cases x with
  | ok a => exact hf a rfl
  | error fault => exact error (hx fault rfl)

theorem map {x : Except Fault α} (h : FailsAtEnd x) (f : α → β) : FailsAtEnd (f <$> x) := by
  cases x with
  | ok a => exact ok _
  | error fault => exact error (h fault rfl)

end FailsAtEnd

/-- A decoder that reads the tree finds nothing wrong in what is left of the tree if
the text ends inside of it, but that it ends. -/
def Decoder.Streams {α : Type} (d : Decoder α) (t : Tree) : Prop :=
  ∀ (levels : Nat) (a : α) (t' : Tree), d levels t = .ok a → t.Cut t' → FailsAtEnd (d levels t')

theorem Decoder.Streams.map {α β : Type} {d : Decoder α} {t : Tree} (h : d.Streams t) (f : α → β) :
    Decoder.Streams (fun levels tree => f <$> d levels tree) t := by
  intro levels b t' hb hcut
  obtain ⟨a, ha, -⟩ := map_eq_ok_iff.1 hb
  exact (h levels a t' ha hcut).map f

/-! ### Single values -/

namespace QuotedText

theorem decode_low {n : Nat} (h : isLowSurrogate n = true) (ending : QuoteEnd)
    (rest : List Piece) : decode ending (.unit n :: rest) = .error .loneSurrogate := by
  cases rest with
  | nil => simp [decode, h]
  | cons p rest => cases p <;> simp [decode, h]

/-- The first half of a pair is read only with the second. -/
theorem exists_of_decode_high {high : Nat} (hlow : isLowSurrogate high = false)
    (hhigh : isHighSurrogate high = true) {ps : List Piece} {cs : List Char}
    (h : decode .closed (.unit high :: ps) = .ok cs) :
    ∃ low rest cs', ps = .unit low :: rest ∧ isLowSurrogate low = true ∧
      decode .closed rest = .ok cs' := by
  rcases ps with _ | ⟨_ | _ | low, rest⟩
  · simp [decode, hlow, hhigh] at h
  · simp [decode, hlow, hhigh] at h
  · simp [decode, hlow, hhigh] at h
  · simp only [decode, hlow, hhigh, if_true, Bool.false_eq_true, if_false] at h
    split_ifs at h with hpair
    obtain ⟨cs', hcs', -⟩ := map_eq_ok_iff.1 h
    exact ⟨low, rest, cs', rfl, hpair, hcs'⟩

/-- A text that is cut is read as far as it goes, be it inside a pair. -/
theorem decode_cut : ∀ {ps qs : List Piece} {cs : List Char}, decode .closed ps = .ok cs →
    qs <+: ps → decode .cut qs = .error .endInText
  | _, [], _, _, _ => rfl
  | [], _ :: _, _, _, h => by cases List.prefix_nil.1 h
  | p :: ps, q :: qs, cs, h, hprefix => by
    obtain ⟨rfl, hqs⟩ := List.cons_prefix_cons.1 hprefix
    cases q with
    | plain c =>
      rw [decode] at h ⊢
      obtain ⟨cs, hcs, -⟩ := map_eq_ok_iff.1 h
      rw [decode_cut hcs hqs]
      rfl
    | short letter =>
      rw [decode] at h ⊢
      obtain ⟨cs, hcs, -⟩ := map_eq_ok_iff.1 h
      rw [decode_cut hcs hqs]
      rfl
    | unit high =>
      cases hlow : isLowSurrogate high with
      | true => rw [decode_low hlow] at h; cases h
      | false =>
        cases hhigh : isHighSurrogate high with
        | false =>
          rw [decode_single hlow hhigh] at h ⊢
          obtain ⟨cs, hcs, -⟩ := map_eq_ok_iff.1 h
          rw [decode_cut hcs hqs]
          rfl
        | true =>
          obtain ⟨low, rest, cs, rfl, hpair, hrest⟩ := exists_of_decode_high hlow hhigh h
          cases qs with
          | nil => simp [decode, hlow, hhigh, QuoteEnd.faultInPair]
          | cons q qs =>
            obtain ⟨rfl, hmore⟩ := List.cons_prefix_cons.1 hqs
            simp only [decode, hlow, hhigh, hpair, if_true, Bool.false_eq_true, if_false]
            rw [decode_cut hrest hmore]
            rfl

theorem value_cut {t : QuotedText} {s : String} (h : t.value = .ok s) (hclosed : t.ending = .closed)
    {pieces : List Piece} (hpieces : pieces <+: t.pieces) :
    QuotedText.value ⟨pieces, .cut⟩ = .error .endInText := by
  rw [value, hclosed] at h
  obtain ⟨cs, hcs, -⟩ := map_eq_ok_iff.1 h
  rw [value, decode_cut hcs hpieces]
  rfl

end QuotedText

section

variable {α : Type} {d : Decoder α}

/-- A word is streamed by a decoder that refuses the cut word at its end. -/
theorem streams_word {w : Word} (hmissing : ∀ levels, FailsAtEnd (d levels .missing))
    (hword : ∀ levels, FailsAtEnd (d levels (.leaf (.word w .cut)))) :
    d.Streams (.leaf (.word w .whole)) := by
  intro levels a t' _ hcut
  cases hcut with
  | missing => exact hmissing levels
  | leaf hcut =>
    cases hcut
    exact hword levels

/-- A text is streamed by a decoder that refuses texts without an end at their end. -/
theorem streams_ofString {s : String} (hmissing : ∀ levels, FailsAtEnd (d levels .missing))
    (htext : ∀ levels (q : QuotedText), q.value = .error .endInText →
      FailsAtEnd (d levels (.leaf (.text q)))) :
    d.Streams (.ofString s) := by
  intro levels a t' _ hcut
  cases hcut with
  | missing => exact hmissing levels
  | leaf hcut =>
    cases hcut with
    | text hclosed hpieces =>
      exact htext levels _ (QuotedText.value_cut (QuotedText.value_ofString s) hclosed hpieces)

/-- An integer is streamed by a decoder that refuses a sign alone at its end, and does
not refuse the integers between this one and zero. -/
theorem streams_ofInt {n : Int} (hmissing : ∀ levels, FailsAtEnd (d levels .missing))
    (hsign : ∀ levels, FailsAtEnd (d levels (.leaf (.numeral .bareSign))))
    (hdigits : ∀ levels m, (0 < m ∧ m < n ∨ n < m ∧ m < 0) →
      FailsAtEnd (d levels (.leaf (.numeral (.ofInt m))))) :
    d.Streams (.leaf (.numeral (.ofInt n))) := by
  intro levels a t' _ hcut
  cases hcut with
  | missing => exact hmissing levels
  | leaf hcut =>
    obtain rfl | ⟨m, rfl, hm⟩ := cut_ofInt hcut
    · exact hsign levels
    · exact hdigits levels m hm

end

theorem streams_text (s : String) : Decoder.text.Streams (.ofString s) := by
  refine streams_ofString (fun _ => .error rfl) fun _ q hq => ?_
  show FailsAtEnd q.value
  rw [hq]
  exact .error rfl

theorem streams_bool (b : Bool) : Decoder.bool.Streams (.ofBool b) := by
  cases b with
  | true => exact streams_word (fun _ => .error rfl) fun _ => .error rfl
  | false => exact streams_word (fun _ => .error rfl) fun _ => .error rfl

theorem streams_int64 (i : Int64) :
    Decoder.int64.Streams (.leaf (.numeral (.ofInt i.toInt))) := by
  have hlower := Int64.le_toInt i
  have hupper := Int64.toInt_lt i
  refine streams_ofInt (fun _ => .error rfl) (fun _ => .error rfl) fun levels m hm => ?_
  have hfits : (Int64.ofInt m).toInt = m := Int64.toInt_ofInt_of_le (by omega) (by omega)
  rw [← hfits, int64_ofInt]
  exact .ok _

theorem streams_option_text (s : Option String) :
    (Decoder.option Decoder.text).Streams
      (match s with
        | some s => .ofString s
        | none => .null) := by
  cases s with
  | none => exact streams_word (fun _ => .error rfl) fun _ => .error rfl
  | some s =>
    refine streams_ofString (fun _ => .error rfl) fun _ q hq => ?_
    show FailsAtEnd (some <$> q.value)
    rw [hq]
    exact .error rfl

theorem streams_variant {α : Type} (variants : List (String × α)) (name : String) :
    (Decoder.variant variants).Streams (.ofString name) := by
  refine streams_ofString (fun _ => .error rfl) fun _ q hq => ?_
  show FailsAtEnd (Decoder.variantName variants q)
  rw [Decoder.variantName, hq]
  exact .error rfl

/-! ### Lists -/

section

variable {α : Type} {d : Decoder α} {levels : Nat}

/-- What stands before the cut is read, so only the rest counts. -/
theorem failsAtEnd_items {rest rest' : List Tree}
    (hrest : ∀ as, Decoder.items d levels rest = .ok as →
      FailsAtEnd (Decoder.items d levels rest')) :
    ∀ {before : List Tree} {as : List α}, Decoder.items d levels (before ++ rest) = .ok as →
      FailsAtEnd (Decoder.items d levels (before ++ rest'))
  | [], as, h => hrest as h
  | u :: before, as, h => by
    rw [List.cons_append, Decoder.items, bind_eq_ok_iff] at h
    obtain ⟨a, ha, h⟩ := h
    obtain ⟨as, has, -⟩ := bind_eq_ok_iff.1 h
    rw [List.cons_append, Decoder.items, ha, ok_bind]
    exact (failsAtEnd_items hrest has).bind fun _ _ => .ok _

theorem streams_list {items : List Tree} (h : ∀ t ∈ items, d.Streams t) :
    d.list.Streams (.list items .closed) := by
  intro levels as t' has hcut
  cases levels with
  | zero => cases has
  | succ levels =>
    obtain ⟨as, hitems, -⟩ := bind_eq_ok_iff.1 has
    cases hcut with
    | missing => exact .error rfl
    | @items before after =>
      have hnone : ∀ as, Decoder.items d levels after = .ok as →
          FailsAtEnd (Decoder.items d levels []) := fun _ _ => .ok []
      have hbefore := failsAtEnd_items hnone hitems
      rw [List.append_nil] at hbefore
      exact hbefore.bind fun _ _ => .error rfl
    | @item before after t t' hcut =>
      have hitem : ∀ as, Decoder.items d levels (t :: after) = .ok as →
          FailsAtEnd (Decoder.items d levels [t']) := by
        intro as has
        rw [Decoder.items] at has
        obtain ⟨a, ha, -⟩ := bind_eq_ok_iff.1 has
        exact (h t (by simp) levels a t' ha hcut).bind fun _ _ => .ok _
      exact (failsAtEnd_items hitem hitems).bind fun _ _ => .error rfl

end

/-! ### Maps -/

/-- The end of an object that is cut is the end of the text, if nothing else is wrong
with the key before it. -/
theorem failsAtEnd_check {rest : List (QuotedText × Tree)} {ending : ObjectEnd}
    (h : EndsBefore rest ending) {check : QuotedText → Except Fault Unit}
    (hkey : ∀ m ∈ rest.head?, FailsAtEnd (check m.1) ∧
      ∀ key, (Token.text m.1).Cut (.text key) → FailsAtEnd (check key)) :
    FailsAtEnd (ending.check check) := by
  cases h with
  | cut => exact .error rfl
  | comma => exact .error rfl
  | key hcut => exact ((hkey _ rfl).2 _ hcut).bind fun _ _ => .error rfl
  | colon => exact (hkey _ rfl).1.bind fun _ _ => .error rfl

theorem value_of_cut {key key' : QuotedText} {name : String} (hname : key.value = .ok name)
    (h : (Token.text key).Cut (.text key')) : key'.value = .error .endInText := by
  cases h with
  | text hclosed hpieces => exact QuotedText.value_cut hname hclosed hpieces

section

variable {α : Type} {d : Decoder α} {levels : Nat}

/-- What stands before the cut is read, so only the rest counts. -/
theorem failsAtEnd_entries {rest rest' : List (QuotedText × Tree)}
    (hrest : ∀ as, Decoder.entries d levels rest = .ok as →
      FailsAtEnd (Decoder.entries d levels rest')) :
    ∀ {before : List (QuotedText × Tree)} {as : List (String × α)},
      Decoder.entries d levels (before ++ rest) = .ok as →
        FailsAtEnd (Decoder.entries d levels (before ++ rest'))
  | [], as, h => hrest as h
  | (key, u) :: before, as, h => by
    rw [List.cons_append, Decoder.entries, bind_eq_ok_iff] at h
    obtain ⟨name, hname, h⟩ := h
    obtain ⟨a, ha, h⟩ := bind_eq_ok_iff.1 h
    obtain ⟨as, has, -⟩ := bind_eq_ok_iff.1 h
    rw [List.cons_append, Decoder.entries, hname, ok_bind, ha, ok_bind]
    exact (failsAtEnd_entries hrest has).bind fun _ _ => .ok _

theorem exists_name_of_entries {m : QuotedText × Tree} :
    ∀ {ms : List (QuotedText × Tree)} {as : List (String × α)}, m ∈ ms →
      Decoder.entries d levels ms = .ok as →
        ∃ name a, m.1.value = .ok name ∧ d levels m.2 = .ok a
  | (key, t) :: ms, as, hm, h => by
    rw [Decoder.entries, bind_eq_ok_iff] at h
    obtain ⟨name, hname, h⟩ := h
    obtain ⟨a, ha, h⟩ := bind_eq_ok_iff.1 h
    obtain ⟨as, has, -⟩ := bind_eq_ok_iff.1 h
    rcases List.mem_cons.1 hm with rfl | hm
    · exact ⟨name, a, hname, ha⟩
    · exact exists_name_of_entries hm has

theorem streams_map {members : List (QuotedText × Tree)} (h : ∀ m ∈ members, d.Streams m.2) :
    d.map.Streams (.object members .closed) := by
  intro levels as t' has hcut
  cases levels with
  | zero => cases has
  | succ levels =>
    obtain ⟨as, hentries, -⟩ := bind_eq_ok_iff.1 has
    cases hcut with
    | missing => exact .error rfl
    | @members before after ending hending =>
      have hnone : ∀ as, Decoder.entries d levels after = .ok as →
          FailsAtEnd (Decoder.entries d levels []) := fun _ _ => .ok []
      have hbefore := failsAtEnd_entries hnone hentries
      rw [List.append_nil] at hbefore
      refine hbefore.bind fun _ _ => (failsAtEnd_check hending fun m hm => ?_).bind fun _ _ => .ok _
      have hmem : m ∈ before ++ after := List.mem_append_right _ (List.mem_of_mem_head? hm)
      obtain ⟨name, -, hname, -⟩ := exists_name_of_entries hmem hentries
      refine ⟨by rw [hname]; exact .ok _, fun key hkey => ?_⟩
      rw [value_of_cut hname hkey]
      exact .error rfl
    | @member before after key t t' hcut =>
      have hmember : ∀ as, Decoder.entries d levels ((key, t) :: after) = .ok as →
          FailsAtEnd (Decoder.entries d levels [(key, t')]) := by
        intro as has
        obtain ⟨name, a, hname, ha⟩ := exists_name_of_entries (List.mem_cons_self ..) has
        rw [Decoder.entries, hname, ok_bind]
        exact (h (key, t) (by simp) levels a t' ha hcut).bind fun _ _ => .ok _
      exact (failsAtEnd_entries hmember hentries).bind fun _ _ => .error rfl

end

/-! ### Records -/

theorem ObjectEnd.eq_closed_of_check {ending : ObjectEnd} {check : QuotedText → Except Fault Unit}
    (h : ending.check check = .ok ()) : ending = .closed := by
  cases ending with
  | closed => rfl
  | noColon key atEnd =>
    obtain ⟨_, -, h⟩ := bind_eq_ok_iff.1 h
    cases h
  | _ => cases h

namespace RecordForm

variable {ρ : Type} {form : RecordForm ρ} {levels : Nat}

/-- Only the members of an object with its closing brace are read. -/
theorem closed_of_decodeMembers {ending : ObjectEnd} {ms : List (QuotedText × Tree)}
    {found all : FoundFields ρ} (h : form.decodeMembers levels ending found ms = .ok all) :
    ending = .closed := by
  induction ms generalizing found with
  | nil =>
    rw [decodeMembers, bind_eq_ok_iff] at h
    obtain ⟨_, hcheck, -⟩ := h
    exact ending.eq_closed_of_check hcheck
  | cons m ms ih =>
    rw [decodeMembers, bind_eq_ok_iff] at h
    obtain ⟨f?, -, h⟩ := h
    cases f? with
    | none =>
      obtain ⟨_, -, h⟩ := bind_eq_ok_iff.1 h
      exact ih h
    | some f =>
      obtain ⟨effect, -, h⟩ := bind_eq_ok_iff.1 h
      exact ih h

/-- What stands before the cut is read, so only the rest counts. -/
theorem failsAtEnd_decodeMembers {rest rest' : List (QuotedText × Tree)} {ending : ObjectEnd}
    (hrest : ∀ found all, form.decodeMembers levels .closed found rest = .ok all →
      FailsAtEnd (form.decodeMembers levels ending found rest')) :
    ∀ {before : List (QuotedText × Tree)} {found all : FoundFields ρ},
      form.decodeMembers levels .closed found (before ++ rest) = .ok all →
        FailsAtEnd (form.decodeMembers levels ending found (before ++ rest'))
  | [], found, all, h => hrest found all h
  | m :: before, found, all, h => by
    rw [List.cons_append] at h ⊢
    rcases give_of_decodeMembers h with hgive | ⟨e, hgive, hnew⟩
    · rw [decodeMembers_cons_skipped hgive] at h ⊢
      exact failsAtEnd_decodeMembers hrest h
    · rw [decodeMembers_cons_found hgive hnew] at h ⊢
      exact failsAtEnd_decodeMembers hrest h

theorem eq_field?_of_fieldOf? {found : FoundFields ρ} {key : QuotedText} {f? : Option (Field ρ)}
    (h : form.fieldOf? found key = .ok f?) {name : String} (hname : key.value = .ok name) :
    f? = form.field? name := by
  rw [fieldOf?, hname, ok_bind] at h
  unfold field?
  cases hfield : form.fields.find? (·.key = name) with
  | none =>
    rw [hfield] at h
    exact (Except.ok.inj h).symm
  | some f =>
    simp only [hfield] at h
    split_ifs at h
    exact (Except.ok.inj h).symm

/-- The end behind the members that are left is the end of the text, if the next key
would have been read. -/
theorem failsAtEnd_ending {rest : List (QuotedText × Tree)} {ending : ObjectEnd}
    (hending : EndsBefore rest ending) (hnamed : ∀ m ∈ rest, ∃ name, m.1.value = .ok name)
    {found all : FoundFields ρ} (h : form.decodeMembers levels .closed found rest = .ok all) :
    FailsAtEnd (form.decodeMembers levels ending found []) := by
  rw [decodeMembers]
  refine (failsAtEnd_check hending fun m hm => ?_).bind fun _ _ => .ok _
  cases rest with
  | nil => cases hm
  | cons u rest =>
    obtain rfl : u = m := Option.some.inj hm
    obtain ⟨name, hname⟩ := hnamed u (List.mem_cons_self ..)
    rw [decodeMembers, bind_eq_ok_iff] at h
    obtain ⟨f?, hfound, -⟩ := h
    refine ⟨by rw [hfound]; exact .ok _, fun key hkey => ?_⟩
    rw [fieldOf?, value_of_cut hname hkey]
    exact .error rfl

/-- A member whose value is cut fails at the end, if its key names a field that is
streamed. -/
theorem failsAtEnd_member {key : QuotedText} {name : String} {f : Field ρ} {t t' : Tree}
    (hname : key.value = .ok name) (hfield : form.field? name = some f)
    (hstreams : f.decode.Streams t) (hcut : t.Cut t') {rest : List (QuotedText × Tree)}
    {found all : FoundFields ρ}
    (h : form.decodeMembers levels .closed found ((key, t) :: rest) = .ok all) :
    FailsAtEnd (form.decodeMembers levels .cut found [(key, t')]) := by
  rw [decodeMembers, bind_eq_ok_iff] at h
  obtain ⟨f?, hfound, h⟩ := h
  obtain rfl := (eq_field?_of_fieldOf? hfound hname).trans hfield
  obtain ⟨effect, heffect, -⟩ := bind_eq_ok_iff.1 h
  rw [decodeMembers, hfound, ok_bind]
  exact (hstreams levels effect t' heffect hcut).bind fun _ _ => .error rfl

/-- A record is streamed if every member gives a field and is streamed. -/
theorem streams_object {members : List (QuotedText × Tree)}
    (h : ∀ m ∈ members, ∃ f name, m.1.value = .ok name ∧ form.field? name = some f ∧
      f.decode.Streams m.2) :
    Decoder.Streams form.decode (.object members .closed) := by
  intro levels r t' hr hcut
  cases levels with
  | zero => cases hr
  | succ levels =>
    obtain ⟨all, hmembers, -⟩ := bind_eq_ok_iff.1 hr
    cases hcut with
    | missing => exact .error rfl
    | @members before after ending hending =>
      have hnamed : ∀ m ∈ after, ∃ name, m.1.value = .ok name := by
        intro m hm
        obtain ⟨_, name, hname, -⟩ := h m (List.mem_append_right _ hm)
        exact ⟨name, hname⟩
      have hbefore := failsAtEnd_decodeMembers
        (fun _ _ hall => failsAtEnd_ending hending hnamed hall) hmembers
      rw [List.append_nil] at hbefore
      refine hbefore.bind fun _ hall => ?_
      obtain rfl := closed_of_decodeMembers hall
      cases hending
    | @member before after key t t' hcut =>
      obtain ⟨f, name, hname, hfield, hstreams⟩ := h (key, t) (by simp)
      have hmember := failsAtEnd_decodeMembers
        (fun _ _ hall => failsAtEnd_member hname hfield hstreams hcut hall) hmembers
      refine hmember.bind fun _ hall => ?_
      cases closed_of_decodeMembers hall

/-- What is left of an object is no record. -/
theorem decode_cut_ne_ok {members : List (QuotedText × Tree)} {t' : Tree}
    (hcut : (Tree.object members .closed).Cut t') (r : ρ) : form.decode levels t' ≠ .ok r := by
  intro h
  cases levels with
  | zero => cases hcut <;> cases h
  | succ levels =>
    cases hcut with
    | missing => cases h
    | members hending =>
      obtain ⟨all, hall, -⟩ := bind_eq_ok_iff.1 h
      obtain rfl := closed_of_decodeMembers hall
      cases hending
    | member =>
      obtain ⟨all, hall, -⟩ := bind_eq_ok_iff.1 h
      cases closed_of_decodeMembers hall

/-- Members that give these fields one after the other and are streamed. -/
inductive StreamInTurn : List (Field ρ) → List (String × Tree) → Prop
  | nil : StreamInTurn [] []
  | field {α : Type} {key : String} {required : Bool} {d : Decoder α} {set : α → ρ → ρ} {t : Tree}
      {fields : List (Field ρ)} {members : List (String × Tree)} : d.Streams t →
    StreamInTurn fields members →
    StreamInTurn (⟨key, required, fun levels tree => set <$> d levels tree⟩ :: fields)
      ((key, t) :: members)

theorem StreamInTurn.exists_field {fields : List (Field ρ)} {members : List (String × Tree)}
    (h : StreamInTurn fields members) :
    ∀ m ∈ members, ∃ f ∈ fields, f.key = m.1 ∧ f.decode.Streams m.2 := by
  induction h with
  | nil => exact nofun
  | field ht _ ih =>
    refine List.forall_mem_cons.2 ⟨⟨_, List.mem_cons_self .., rfl, ht.map _⟩, fun m hm => ?_⟩
    obtain ⟨f, hf, hfield⟩ := ih m hm
    exact ⟨f, List.mem_cons_of_mem _ hf, hfield⟩

/-- **A record is streamed** from an object that gives its fields in turn. -/
theorem streams_ofMembers {members : List (String × Tree)}
    (hkeys : (form.fields.map (·.key)).Nodup) (h : StreamInTurn form.fields members) :
    Decoder.Streams form.decode (.ofMembers members) := by
  refine streams_object fun m hm => ?_
  obtain ⟨e, he, rfl⟩ := List.mem_map.1 hm
  obtain ⟨f, hf, hkey, hstreams⟩ := h.exists_field e he
  exact ⟨f, e.1, QuotedText.value_ofString e.1, hkey ▸ field?_of_mem hkeys hf, hstreams⟩

end RecordForm

/-! ### Values of any form -/

namespace Value

theorem decode_list_eq (levels : Nat) (trees : List Tree) (ending : ListEnd) :
    decode levels (.list trees ending) =
      list <$> Decoder.list decode levels (.list trees ending) := by
  cases levels with
  | zero => rfl
  | succ levels =>
    show (decodeItems levels trees >>= fun vs => ending.check >>= fun _ => .ok (list vs)) =
      list <$> (Decoder.items decode levels trees >>= fun vs => ending.check >>= fun _ => .ok vs)
    rw [decodeItems_eq]
    simp only [map_bind]
    rfl

theorem decode_object_eq (levels : Nat) (members : List (QuotedText × Tree)) (ending : ObjectEnd) :
    decode levels (.object members ending) =
      object <$> Decoder.map decode levels (.object members ending) := by
  cases levels with
  | zero => rfl
  | succ levels =>
    show (decodeMembers levels members >>= fun vs =>
        (ending.check fun key => do let _ ← key.value; .ok ()) >>= fun _ =>
          .ok (object (NameMap.ofList vs))) =
      object <$> (Decoder.entries decode levels members >>= fun vs =>
        (ending.check fun key => do let _ ← key.value; .ok ()) >>= fun _ =>
          .ok (NameMap.ofList vs))
    rw [decodeMembers_eq]
    simp only [map_bind]
    rfl

theorem streams_list {trees : List Tree} (h : ∀ t ∈ trees, Decoder.Streams decode t) :
    Decoder.Streams decode (.list trees .closed) := by
  intro levels v t' hv hcut
  rw [decode_list_eq] at hv
  obtain ⟨vs, hvs, -⟩ := map_eq_ok_iff.1 hv
  have hmap := (Json.streams_list h levels vs t' hvs hcut).map list
  cases hcut with
  | missing => exact .error rfl
  | items => rwa [decode_list_eq]
  | item => rwa [decode_list_eq]

theorem streams_object {members : List (QuotedText × Tree)}
    (h : ∀ m ∈ members, Decoder.Streams decode m.2) :
    Decoder.Streams decode (.object members .closed) := by
  intro levels v t' hv hcut
  rw [decode_object_eq] at hv
  obtain ⟨vs, hvs, -⟩ := map_eq_ok_iff.1 hv
  have hmap := (streams_map h levels vs t' hvs hcut).map object
  cases hcut with
  | missing => exact .error rfl
  | members => rwa [decode_object_eq]
  | member => rwa [decode_object_eq]

/-- **A value without doubles is streamed.** -/
theorem streams_tree {d : Datum} (h : d.DoubleFree) : Decoder.Streams decode d.tree := by
  induction h with
  | null => exact streams_word (fun _ => .error rfl) fun _ => .error rfl
  | bool b =>
    cases b with
    | true => exact streams_word (fun _ => .error rfl) fun _ => .error rfl
    | false => exact streams_word (fun _ => .error rfl) fun _ => .error rfl
  | integer n =>
    have hlower := n.lower
    have hupper := n.upper
    refine streams_ofInt (fun _ => .error rfl) (fun _ => .error rfl) fun levels m hm => ?_
    show FailsAtEnd (number <$> (Numeral.ofInt m).value)
    rw [Numeral.value_ofInt ⟨m, by omega, by omega⟩]
    exact .ok _
  | text s =>
    refine streams_ofString (fun _ => .error rfl) fun _ q hq => ?_
    show FailsAtEnd (text <$> q.value)
    rw [hq]
    exact .error rfl
  | list _ ih =>
    rw [Datum.tree, Datum.treeItems_eq_map]
    exact streams_list (List.forall_mem_map.2 ih)
  | object _ ih =>
    rw [Datum.tree, Datum.treeMembers_eq_map]
    exact streams_object (List.forall_mem_map.2 ih)

end Value
end TemplatePasses.Json
