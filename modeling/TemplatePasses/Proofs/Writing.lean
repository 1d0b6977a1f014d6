/-
# What is written can be read

Texts and integers are written so that they can be read: a text comes back
character by character, whichever of them are escaped (`QuotedText.value_ofString`),
and an integer of 64 bits comes back from its digits (`Numeral.value_ofInt`). A tree
made of words, integers and texts (`Tree.Written`) has no fault, and both its
compact text and its text on lines lay it out, so the tree comes back from them.

Key definitions: `Token.Written`, `Tree.Written`.
Key theorems: `QuotedText.value_ofString`, `Numeral.value_ofInt`, `compact_eq`,
`Tree.Written.laidOut`, `Tree.Written.laidOut_indented`.
-/
import TemplatePasses.Json.Layout
import TemplatePasses.Proofs.Reading

namespace TemplatePasses.Json

/-! ### Texts -/

namespace QuotedText

/-- An escape that is no half of a pair stands for a character. -/
theorem decode_single {n : Nat} (hlow : isLowSurrogate n = false)
    (hhigh : isHighSurrogate n = false) (ending : QuoteEnd) (rest : List Piece) :
    decode ending (.unit n :: rest) = (Char.ofNat n :: ·) <$> decode ending rest := by
  cases rest with
  | nil => simp [decode, hlow, hhigh]
  | cons p rest => cases p <;> simp [decode, hlow, hhigh]

/-- An escape below the halves of pairs stands for a character. -/
theorem decode_unit {n : Nat} (h : n < 0xD800) (ending : QuoteEnd) (rest : List Piece) :
    decode ending (.unit n :: rest) = (Char.ofNat n :: ·) <$> decode ending rest := by
  refine decode_single ?_ ?_ ending rest
  · simp only [isLowSurrogate, Bool.and_eq_false_iff, decide_eq_false_iff_not]
    omega
  · simp only [isHighSurrogate, Bool.and_eq_false_iff, decide_eq_false_iff_not]
    omega

/-- A character is escaped by a letter or by digits, or stands for itself. -/
theorem pieceOf_cases (c : Char) :
    (∃ letter, pieceOf c = .short letter ∧ isShortEscape letter = true ∧
      shortMeaning letter = some c) ∨
    (pieceOf c = .unit c.toNat ∧ c.toNat < 0x20) ∨
    (pieceOf c = .plain c ∧ c ≠ '"' ∧ c ≠ '\\' ∧ ¬c.toNat < 0x20) := by
  unfold pieceOf
  split_ifs with hquote hslash hback hfeed hnewline hreturn htab hcontrol
  · exact .inl ⟨_, rfl, rfl, congrArg some hquote.symm⟩
  · exact .inl ⟨_, rfl, rfl, congrArg some hslash.symm⟩
  · exact .inl ⟨_, rfl, rfl, congrArg some hback.symm⟩
  · exact .inl ⟨_, rfl, rfl, congrArg some hfeed.symm⟩
  · exact .inl ⟨_, rfl, rfl, congrArg some hnewline.symm⟩
  · exact .inl ⟨_, rfl, rfl, congrArg some hreturn.symm⟩
  · exact .inl ⟨_, rfl, rfl, congrArg some htab.symm⟩
  · exact .inr (.inl ⟨rfl, hcontrol⟩)
  · exact .inr (.inr ⟨rfl, hquote, hslash, hcontrol⟩)

/-- A character is written as a part that stands for it. -/
theorem decode_pieceOf (c : Char) (rest : List Piece) :
    decode .closed (pieceOf c :: rest) = (c :: ·) <$> decode .closed rest := by
  rcases pieceOf_cases c with ⟨letter, hpiece, -, hmeaning⟩ | ⟨hpiece, hcontrol⟩ | ⟨hpiece, -⟩
  · rw [hpiece, decode, hmeaning, Option.getD_some]
  · rw [hpiece, decode_unit (Nat.lt_trans hcontrol (by decide)), Char.ofNat_toNat]
  · rw [hpiece, decode]

theorem decode_map_pieceOf (cs : List Char) : decode .closed (cs.map pieceOf) = .ok cs := by
  induction cs with
  | nil => rfl
  | cons c cs ih =>
    rw [List.map_cons, decode_pieceOf, ih]
    rfl

/-- **A text comes back as it was written.** -/
theorem value_ofString (s : String) : (ofString s).value = .ok s := by
  rw [value, ofString, decode_map_pieceOf]
  exact congrArg Except.ok String.ofList_toList

end QuotedText

theorem hexValue?_digitChar {d : Nat} (h : d < 16) : hexValue? (Nat.digitChar d) = some d := by
  have hall : ∀ e ∈ List.range 16, hexValue? (Nat.digitChar e) = some e := by decide
  exact hall d (List.mem_range.2 h)

/-- An escape by digits is spelled by the digits of its value. -/
theorem spelled_unit {value : Nat} (h : value < 65536) :
    (Piece.unit value).Spelled (Piece.unit value).chars := by
  have hvalue : value = 16 * (16 * (16 * (value / 4096 % 16) + value / 256 % 16) +
      value / 16 % 16) + value % 16 := by omega
  have hdigit : ∀ n : Nat, hexValue? (Nat.digitChar (n % 16)) = some (n % 16) := fun n =>
    hexValue?_digitChar (Nat.mod_lt n (by decide))
  have hunit := Piece.Spelled.unit (hdigit (value / 4096)) (hdigit (value / 256))
    (hdigit (value / 16)) (hdigit value)
  rw [← hvalue] at hunit
  exact hunit

theorem spelled_pieceOf (c : Char) :
    (QuotedText.pieceOf c).Spelled (QuotedText.pieceOf c).chars := by
  rcases QuotedText.pieceOf_cases c with
    ⟨letter, hpiece, hletter, -⟩ | ⟨hpiece, hcontrol⟩ | ⟨hpiece, hquote, hslash, hcontrol⟩
  · rw [hpiece]
    exact .short hletter
  · rw [hpiece]
    exact spelled_unit (Nat.lt_trans hcontrol (by decide))
  · rw [hpiece]
    exact .plain hquote hslash hcontrol

theorem spelled_flatMap_chars {ps : List Piece} (h : ∀ p ∈ ps, p.Spelled p.chars) :
    PiecesSpelled ps (ps.flatMap Piece.chars) := by
  induction ps with
  | nil => exact .nil
  | cons p ps ih =>
    obtain ⟨hp, hps⟩ := List.forall_mem_cons.1 h
    rw [List.flatMap_cons]
    exact .cons hp (ih hps)

theorem spelled_ofString (s : String) :
    (QuotedText.ofString s).Spelled (QuotedText.ofString s).chars := by
  refine .intro (spelled_flatMap_chars fun p hp => ?_)
  obtain ⟨c, -, rfl⟩ := List.mem_map.1 hp
  exact spelled_pieceOf c

/-! ### Integers -/

/-- Digits are gathered as long as the number that they stand for fits. -/
theorem gather_eq {digits : List Char} {gathered : Nat}
    (h : Nat.ofDigitChars 10 digits gathered < 0x1_0000_0000_0000_0000) :
    gather gathered digits = (Nat.ofDigitChars 10 digits gathered, []) := by
  have hle : ∀ (ds : List Char) (n : Nat), n ≤ Nat.ofDigitChars 10 ds n := by
    intro ds
    induction ds with
    | nil => intro n; exact Nat.le_of_eq Nat.ofDigitChars_nil.symm
    | cons d ds ih =>
      intro n
      rw [Nat.ofDigitChars_cons]
      exact Nat.le_trans (by omega) (ih _)
  induction digits generalizing gathered with
  | nil => rw [gather, Nat.ofDigitChars_nil]
  | cons d ds ih =>
    rw [Nat.ofDigitChars_cons] at h ⊢
    rw [gather]
    simp only [Nat.lt_of_le_of_lt (hle ds _) h, if_true]
    exact ih h

theorem gather_decimalDigits {n : Nat} (h : n < 0x1_0000_0000_0000_0000) :
    gather 0 (decimalDigits n) = (n, []) := by
  have hvalue : Nat.ofDigitChars 10 (decimalDigits n) 0 = n := Nat.ofDigitChars_ten_toDigits
  rw [gather_eq (hvalue.symm ▸ h), hvalue]

/-- **An integer comes back from its digits.** -/
theorem Numeral.value_ofInt (n : WideInt) : (Numeral.ofInt n.val).value = .ok (.integer n) := by
  obtain ⟨n, hlower, hupper⟩ := n
  have hgather : gather 0 (decimalDigits n.natAbs) = (n.natAbs, []) :=
    gather_decimalDigits (by omega)
  have hvalue : (Numeral.ofInt n).value = .ok (integer (n < 0) n.natAbs) := by
    simp only [value, wholeValue, ofInt, hgather]
    rfl
  rw [hvalue]
  by_cases hneg : n < 0
  · have habs : 0 < n.natAbs ∧ n.natAbs ≤ 0x8000_0000_0000_0000 := by omega
    have hn : -(n.natAbs : Int) = n := by omega
    simp only [integer, hneg, decide_true, if_true, habs, and_self, dite_true, hn]
  · have habs : n.natAbs < 0x1_0000_0000_0000_0000 := by omega
    have hn : (n.natAbs : Int) = n := by omega
    simp only [integer, hneg, decide_false, Bool.false_eq_true, if_false, habs, dite_true, hn]

/-- A number begins with a zero only if it is zero. -/
theorem isWhole_decimalDigits (n : Nat) : IsWhole (decimalDigits n) := by
  have hfirst : ∀ n, 0 < n → ∃ d ds, decimalDigits n = d :: ds ∧ d ≠ '0' := by
    intro n
    induction n using Nat.strong_induction_on with
    | _ n ih =>
      intro hpos
      unfold decimalDigits at ih ⊢
      rw [Nat.toDigits_eq_if (by decide)]
      split_ifs with hlt
      · exact ⟨_, _, rfl, fun h => absurd (Nat.digitChar_eq_zero.1 h) (by omega)⟩
      · obtain ⟨d, ds, hds, hd⟩ := ih (n / 10) (by omega) (by omega)
        rw [hds]
        exact ⟨d, _, rfl, hd⟩
  by_cases hn : n = 0
  · subst hn
    exact .zero
  · obtain ⟨d, ds, hds, hd⟩ := hfirst n (by omega)
    have hdigits : ∀ c ∈ d :: ds, c.isDigit = true := by
      intro c hc
      rw [← hds] at hc
      exact Nat.isDigit_of_mem_toDigits (by decide) (by decide) hc
    obtain ⟨hdd, hdds⟩ := List.forall_mem_cons.1 hdigits
    rw [hds]
    exact .digits hdd hd hdds

theorem spelled_ofInt (n : Int) : (Numeral.ofInt n).Spelled (Numeral.ofInt n).chars := by
  have hspelled : (Numeral.ofInt n).Spelled
      ((if decide (n < 0) then ['-'] else []) ++ (decimalDigits n.natAbs ++ ([] ++ []))) :=
    .intro (isWhole_decimalDigits n.natAbs) .absent .absent
  have hchars : (Numeral.ofInt n).chars =
      (if decide (n < 0) then ['-'] else []) ++ (decimalDigits n.natAbs ++ ([] ++ [])) := by
    simp [Numeral.chars, Numeral.ofInt]
  rw [hchars]
  exact hspelled

/-! ### Tokens -/

/-- A token as it is written: a mark, a word, an integer or a text. -/
inductive Token.Written : Token → Prop
  | mark {t : Token} : t.isMark = true → t.Written
  | word (w : Word) : (Token.word w .whole).Written
  | integer (n : Int) : (Token.numeral (.ofInt n)).Written
  | text (s : String) : (Token.text (.ofString s)).Written

theorem Token.Written.spelled {t : Token} (h : t.Written) : t.Spelled t.chars := by
  cases h with
  | mark hmark => exact .mark hmark
  | word w => exact .word w
  | integer n => exact .numeral (spelled_ofInt n)
  | text s => exact .text (spelled_ofString s)

/-! ### Trees -/

/-- A tree of words, integers and texts. -/
inductive Tree.Written : Tree → Prop
  | word (w : Word) : (Tree.leaf (.word w .whole)).Written
  | integer (n : Int) : (Tree.leaf (.numeral (.ofInt n))).Written
  | text (s : String) : (Tree.ofString s).Written
  | list {items : List Tree} : (∀ t ∈ items, t.Written) → (Tree.ofList items).Written
  | object {members : List (String × Tree)} : (∀ m ∈ members, m.2.Written) →
    (Tree.ofMembers members).Written

theorem Tree.Written.complete {t : Tree} (h : t.Written) : t.Complete := by
  induction h with
  | word w => exact .leaf (.word w)
  | integer n => exact .leaf (.numeral rfl)
  | text s => exact .leaf (.text rfl)
  | list _ ih => exact .list ih
  | @object members _ ih =>
    refine Tree.complete_object_iff.2 fun m hm => ?_
    obtain ⟨e, he, rfl⟩ := List.mem_map.1 hm
    exact ⟨rfl, ih e he⟩

mutual

theorem compact_eq : ∀ t : Tree, t.compact = t.tokens.flatMap Token.chars
  | .missing => by rw [Tree.compact, Tree.tokens, List.flatMap_nil]
  | .leaf token => by rw [Tree.compact, Tree.tokens, List.flatMap_singleton]
  | .list items _ => by
    rw [Tree.compact, Tree.tokens, compactItems_eq items]
    simp [Token.chars]
  | .object members _ => by
    rw [Tree.compact, Tree.tokens, compactMembers_eq members]
    simp [Token.chars]

theorem compactItems_eq : ∀ items : List Tree,
    Tree.compactItems items = (itemTokens items).flatMap Token.chars
  | [] => rfl
  | [t] => by rw [Tree.compactItems, itemTokens, compact_eq t]
  | t :: u :: rest => by
    rw [Tree.compactItems, itemTokens, compact_eq t, compactItems_eq (u :: rest)]
    all_goals simp [Token.chars]

theorem compactMembers_eq : ∀ members : List (QuotedText × Tree),
    Tree.compactMembers members = (memberTokens members).flatMap Token.chars
  | [] => rfl
  | [(key, t)] => by
    rw [Tree.compactMembers, memberTokens, compact_eq t]
    simp [Token.chars]
  | (key, t) :: m :: rest => by
    rw [Tree.compactMembers, memberTokens, compact_eq t, compactMembers_eq (m :: rest)]
    all_goals simp [Token.chars]

end

/-- The tokens of a list are commas and those of its items. -/
theorem mem_itemTokens {token : Token} : ∀ {items : List Tree}, token ∈ itemTokens items →
    token = .comma ∨ ∃ t ∈ items, token ∈ t.tokens
  | [t], h => .inr ⟨t, List.mem_singleton_self t, by rwa [itemTokens] at h⟩
  | t :: u :: rest, h => by
    rw [itemTokens, List.mem_append, List.mem_cons] at h
    · rcases h with h | h | h
      · exact .inr ⟨t, List.mem_cons_self .., h⟩
      · exact .inl h
      · obtain h | ⟨v, hv, h⟩ := mem_itemTokens h
        · exact .inl h
        · exact .inr ⟨v, List.mem_cons_of_mem t hv, h⟩
    · simp

/-- The tokens of an object are marks, its keys and those of its values. -/
theorem mem_memberTokens {token : Token} : ∀ {members : List (QuotedText × Tree)},
    token ∈ memberTokens members →
      token.isMark = true ∨ ∃ m ∈ members, token = .text m.1 ∨ token ∈ m.2.tokens
  | [(key, t)], h => by
    rw [memberTokens, List.mem_cons, List.mem_cons] at h
    rcases h with h | rfl | h
    · exact .inr ⟨(key, t), List.mem_singleton_self _, .inl h⟩
    · exact .inl rfl
    · exact .inr ⟨(key, t), List.mem_singleton_self _, .inr h⟩
  | (key, t) :: m :: rest, h => by
    rw [memberTokens, List.mem_cons, List.mem_cons, List.mem_append, List.mem_cons] at h
    · rcases h with h | rfl | h | rfl | h
      · exact .inr ⟨(key, t), List.mem_cons_self .., .inl h⟩
      · exact .inl rfl
      · exact .inr ⟨(key, t), List.mem_cons_self .., .inr h⟩
      · exact .inl rfl
      · obtain h | ⟨v, hv, h⟩ := mem_memberTokens h
        · exact .inl h
        · exact .inr ⟨v, List.mem_cons_of_mem _ hv, h⟩
    · simp

/-- The tokens of a tree that is written are tokens as they are written. -/
theorem Tree.Written.tokens_written {t : Tree} (h : t.Written) :
    ∀ token ∈ t.tokens, token.Written := by
  induction h with
  | word w => exact List.forall_mem_singleton.2 (.word w)
  | integer n => exact List.forall_mem_singleton.2 (.integer n)
  | text s => exact List.forall_mem_singleton.2 (.text s)
  | list _ ih =>
    intro token htoken
    rw [Tree.ofList, Tree.tokens, List.mem_cons, List.mem_append, List.mem_singleton] at htoken
    rcases htoken with rfl | htoken | rfl
    · exact .mark rfl
    · obtain rfl | ⟨t, ht, htoken⟩ := mem_itemTokens htoken
      · exact .mark rfl
      · exact ih t ht token htoken
    · exact .mark rfl
  | @object members _ ih =>
    intro token htoken
    rw [Tree.ofMembers, Tree.tokens, List.mem_cons, List.mem_append, List.mem_singleton] at htoken
    rcases htoken with rfl | htoken | rfl
    · exact .mark rfl
    · obtain hmark | ⟨m, hm, htoken⟩ := mem_memberTokens htoken
      · exact .mark hmark
      · obtain ⟨e, he, rfl⟩ := List.mem_map.1 hm
        rcases htoken with rfl | htoken
        · exact .text e.1
        · exact ih e he token htoken
    · exact .mark rfl

/-- Tokens that are spelled as they are written are laid out one behind the other. -/
theorem laidOut_flatMap_chars {ts : List Token} (h : ∀ t ∈ ts, t.Spelled t.chars) :
    LaidOut ts (ts.flatMap Token.chars) := by
  induction ts with
  | nil => exact .nil nofun
  | cons t ts ih =>
    obtain ⟨ht, hts⟩ := List.forall_mem_cons.1 h
    exact .token ht (ih hts)

/-- **The compact text of a tree lays it out.** -/
theorem Tree.Written.laidOut {t : Tree} (h : t.Written) : LaidOut t.tokens t.compact := by
  rw [compact_eq]
  exact laidOut_flatMap_chars fun token htoken => (h.tokens_written token htoken).spelled

/-! ### On lines of their own -/

theorem isBlank_of_mem_newLine (depth : Nat) : ∀ c ∈ Tree.newLine depth, isBlank c = true := by
  intro c hc
  rcases List.mem_cons.1 hc with rfl | hc
  · rfl
  · obtain rfl := List.eq_of_mem_replicate hc
    rfl

theorem laidOut_indentedItems {items : List Tree}
    (h : ∀ t ∈ items, ∀ depth, LaidOut t.tokens (t.indented depth)) (depth : Nat) :
    LaidOut (itemTokens items) (Tree.indentedItems depth items) := by
  induction items with
  | nil => exact .nil nofun
  | cons t rest ih =>
    obtain ⟨ht, hrest⟩ := List.forall_mem_cons.1 h
    cases rest with
    | nil =>
      rw [itemTokens, Tree.indentedItems]
      exact (ht depth).blank (isBlank_of_mem_newLine depth)
    | cons u rest =>
      rw [itemTokens, Tree.indentedItems, List.append_assoc]
      · exact ((ht depth).append (.token (.mark rfl) (ih hrest))).blank
          (isBlank_of_mem_newLine depth)
      all_goals simp

theorem laidOut_member {t : Tree} {cs : List Char} (h : LaidOut t.tokens cs) (key : String) :
    LaidOut (.text (.ofString key) :: .colon :: t.tokens)
      ((QuotedText.ofString key).chars ++ ':' :: ' ' :: cs) := by
  have hblank : ∀ c ∈ [' '], isBlank c = true := List.forall_mem_singleton.2 rfl
  have hcolon : Token.Spelled .colon [':'] := .mark rfl
  exact .token (.text (spelled_ofString key)) (.token hcolon (h.blank hblank))

theorem laidOut_indentedMembers {members : List (String × Tree)}
    (h : ∀ m ∈ members, ∀ depth, LaidOut m.2.tokens (m.2.indented depth)) (depth : Nat) :
    LaidOut (memberTokens (members.map fun m => (.ofString m.1, m.2)))
      (Tree.indentedMembers depth (members.map fun m => (.ofString m.1, m.2))) := by
  induction members with
  | nil => exact .nil nofun
  | cons m rest ih =>
    obtain ⟨hm, hrest⟩ := List.forall_mem_cons.1 h
    have hmember := laidOut_member (hm depth) m.1
    cases rest with
    | nil =>
      rw [List.map_cons, List.map_nil, memberTokens, Tree.indentedMembers, List.append_assoc]
      exact hmember.blank (isBlank_of_mem_newLine depth)
    | cons u rest =>
      have hcomma : Token.Spelled .comma [','] := .mark rfl
      have hall := hmember.append (.token hcomma (ih hrest))
      rw [List.map_cons, List.map_cons, memberTokens, Tree.indentedMembers, List.append_assoc,
        List.append_assoc]
      · rw [← List.append_assoc (QuotedText.ofString m.1).chars]
        exact hall.blank (isBlank_of_mem_newLine depth)
      all_goals simp

/-- **The text on lines lays the tree out too**, at any depth. -/
theorem Tree.Written.laidOut_indented {t : Tree} (h : t.Written) :
    ∀ depth : Nat, LaidOut t.tokens (t.indented depth) := by
  induction h with
  | word w => exact fun _ => .single (.word w)
  | integer n => exact fun _ => .single (.numeral (spelled_ofInt n))
  | text s => exact fun _ => .single (.text (spelled_ofString s))
  | @list items _ ih =>
    intro depth
    have hopen : Token.Spelled .leftBracket ['['] := .mark rfl
    have hclose : Token.Spelled .rightBracket [']'] := .mark rfl
    cases items with
    | nil => exact .token hopen (.single hclose)
    | cons t rest =>
      have hall := (laidOut_indentedItems ih (depth + 1)).append
        ((LaidOut.single hclose).blank (isBlank_of_mem_newLine depth))
      rw [Tree.ofList, Tree.tokens, Tree.indented, List.append_assoc, List.cons_append]
      · exact LaidOut.token hopen hall
      · simp
  | @object members _ ih =>
    intro depth
    have hopen : Token.Spelled .leftBrace ['\x7b'] := .mark rfl
    have hclose : Token.Spelled .rightBrace ['\x7d'] := .mark rfl
    cases members with
    | nil => exact .token hopen (.single hclose)
    | cons m rest =>
      have hall := (laidOut_indentedMembers ih (depth + 1)).append
        ((LaidOut.single hclose).blank (isBlank_of_mem_newLine depth))
      rw [Tree.ofMembers, Tree.tokens, Tree.indented, List.append_assoc, List.cons_append]
      · exact LaidOut.token hopen hall
      · simp

end TemplatePasses.Json
