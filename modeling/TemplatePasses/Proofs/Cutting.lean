/-
# Texts that end too early

A text may end anywhere: between two tokens, inside a word, behind the sign or
among the digits of an integer, inside a text or one of its escapes. What is left
is read as far as it goes. Its tokens are the first tokens of the whole text,
perhaps with a cut one at the end (`CutOff`, `scan_cut`): a word or a text that
knows it is cut, but also an integer with fewer digits, which nothing tells from
another integer. Its tree is the whole tree cut off at one place (`Tree.Cut`,
`read_cut`): the lists and objects around that place hold what came before it, and
each of them knows that it is cut.

Key definitions: `Token.Cut`, `CutOff`, `EndsBefore`, `Tree.Cut`, `Spot.BuildsCut`.
Key theorems: `scan_token_cut`, `scan_cut`, `Spot.run_tokens_cut`, `read_cut`.
-/
import TemplatePasses.Proofs.Writing

namespace TemplatePasses.Json

/-! ### Tokens that are cut -/

/-- A minus sign, behind which the text ends. -/
def Numeral.bareSign : Numeral :=
  { Numeral.blank with negative := true, extent := .cut }

/-- A token that the text ends inside of, and what is left of it. Of an integer there
is left its sign, or an integer between it and zero. -/
inductive Token.Cut : Token → Token → Prop
  | word (w : Word) : Token.Cut (.word w .whole) (.word w .cut)
  | sign {n : Int} : n < 0 → Token.Cut (.numeral (.ofInt n)) (.numeral .bareSign)
  | digits {n m : Int} : 0 < m ∧ m < n ∨ n < m ∧ m < 0 →
    Token.Cut (.numeral (.ofInt n)) (.numeral (.ofInt m))
  | text {t : QuotedText} {pieces : List Piece} : t.ending = .closed → pieces <+: t.pieces →
    Token.Cut (.text t) (.text ⟨pieces, .cut⟩)

/-- What may be left of tokens if the text ends before they do. -/
inductive CutOff : List Token → List Token → Prop
  | stop {t : Token} {ts : List Token} : CutOff (t :: ts) []
  | inside {t t' : Token} {ts : List Token} : t.Cut t' → CutOff (t :: ts) [t']
  | after {t : Token} {ts ts' : List Token} : CutOff ts ts' → CutOff (t :: ts) (t :: ts')

/-- Two lists that are put together are cut in the first or in the second. -/
theorem cut_append {α : Type} {xs ys left more : List α} {d : α}
    (h : xs ++ ys = left ++ d :: more) :
    (∃ more', xs = left ++ d :: more') ∨ ∃ left', left = xs ++ left' ∧ ys = left' ++ d :: more := by
  rcases List.append_eq_append_iff.1 h with ⟨left', hleft, hys⟩ | ⟨rest, hxs, hrest⟩
  · exact .inr ⟨left', hleft, hys⟩
  · cases rest with
    | nil => exact .inr ⟨[], by rw [hxs, List.append_nil, List.append_nil], hrest.symm⟩
    | cons c rest =>
      obtain ⟨rfl, -⟩ := List.cons.inj hrest
      exact .inl ⟨rest, hxs⟩

/-- Only an empty list is left before the end of a single item. -/
theorem left_eq_nil {α : Type} {left more : List α} {c d : α} (h : [c] = left ++ d :: more) :
    left = [] := by
  cases left with
  | nil => rfl
  | cons a left => simp at h

/-! ### Words -/

open Scanner

theorem run_word_cut (w : Word) (d : Char) (more : List Char) : ∀ cs : List Char,
    (Scanner.word w (cs ++ d :: more)).run cs = [.word w .cut]
  | [] => rfl
  | c :: cs => by
    have hstep : (Scanner.word w (c :: (cs ++ d :: more))).step c =
        ([], .word w (cs ++ d :: more)) := by
      simp [step]
    rw [List.cons_append, run_cons, hstep, List.nil_append, run_word_cut w d more cs]

theorem scan_word_cut {w : Word} {cs more : List Char} {d : Char}
    (h : w.letters = cs ++ d :: more) (hne : cs ≠ []) : Token.scan cs = [.word w .cut] := by
  obtain ⟨first, rest, hletters, hstart⟩ :
      ∃ first rest, w.letters = first :: rest ∧ idle.step first = ([], .word w rest) := by
    cases w <;> exact ⟨_, _, rfl, rfl⟩
  obtain ⟨c, cs, rfl⟩ := List.exists_cons_of_ne_nil hne
  obtain ⟨rfl, hrest⟩ := List.cons.inj (hletters.symm.trans h)
  rw [Token.scan, run_cons, hstart, hrest, List.nil_append]
  exact run_word_cut w d more cs

/-! ### Texts -/

theorem run_piece_cut {p : Piece} {cs more : List Char} {d : Char}
    (h : p.Spelled (cs ++ d :: more)) (before : List Piece) :
    (Scanner.text before).run cs = [.ofPieces before .cut] := by
  generalize hspelled : cs ++ d :: more = spelled at h
  cases h with
  | plain => rw [left_eq_nil hspelled.symm]; rfl
  | short =>
    obtain _ | ⟨c, cs⟩ := cs
    · rfl
    · obtain ⟨rfl, htail⟩ := List.cons.inj hspelled
      rw [left_eq_nil htail.symm]
      rfl
  | @unit a b c e p q r s ha hb hc he =>
    have hprefix : cs <+: ['\\', 'u', a, b, c] := by
      have hinit : (cs ++ d :: more).dropLast = ['\\', 'u', a, b, c] := by rw [hspelled]; rfl
      rw [List.dropLast_append_cons] at hinit
      exact ⟨_, hinit⟩
    simp only [List.prefix_cons_iff, List.prefix_nil] at hprefix
    rcases hprefix with
      rfl | ⟨_, rfl, rfl | ⟨_, rfl, rfl | ⟨_, rfl, rfl | ⟨_, rfl, rfl | ⟨_, rfl, rfl⟩⟩⟩⟩⟩ <;>
      simp [run, step, finish, ha, hb, hc]

theorem run_pieces_cut {ps : List Piece} {spelled : List Char} (h : PiecesSpelled ps spelled) :
    ∀ {cs more : List Char} {d : Char}, spelled ++ ['"'] = cs ++ d :: more →
      ∀ before : List Piece, ∃ qs, qs <+: ps ∧
        (Scanner.text before).run cs = [.ofPieces (qs.reverse ++ before) .cut] := by
  induction h with
  | nil =>
    intro cs more d hcut before
    rw [left_eq_nil hcut]
    exact ⟨[], List.nil_prefix, rfl⟩
  | @cons p ps cs ds hp _ ih =>
    intro left more d hcut before
    rw [List.append_assoc] at hcut
    rcases cut_append hcut with ⟨more', rfl⟩ | ⟨left', rfl, hrest⟩
    · exact ⟨[], List.nil_prefix, run_piece_cut hp before⟩
    · obtain ⟨qs, hqs, hrun⟩ := ih hrest (p :: before)
      refine ⟨p :: qs, List.cons_prefix_cons.2 ⟨rfl, hqs⟩, ?_⟩
      rw [run_append, feed_piece hp, List.nil_append, hrun, List.reverse_cons, List.append_assoc,
        List.singleton_append]

theorem scan_text_cut {t : QuotedText} {spelled cs more : List Char} {d : Char}
    (h : t.Spelled spelled) (hcut : spelled = cs ++ d :: more) (hne : cs ≠ []) :
    ∃ t', (Token.text t).Cut t' ∧ Token.scan cs = [t'] := by
  obtain @⟨pieces, spelled, hpieces⟩ := h
  obtain ⟨c, cs, rfl⟩ := List.exists_cons_of_ne_nil hne
  obtain ⟨rfl, hrest⟩ := List.cons.inj hcut
  obtain ⟨qs, hqs, hrun⟩ := run_pieces_cut hpieces hrest []
  refine ⟨_, .text rfl hqs, ?_⟩
  have hstart : idle.step '"' = ([], .text []) := rfl
  rw [Token.scan, run_cons, hstart, List.nil_append, hrun, Token.ofPieces, List.append_nil,
    List.reverse_reverse]

/-! ### Integers -/

theorem Numeral.ofInt_injective {n m : Int} (h : Numeral.ofInt n = Numeral.ofInt m) : n = m := by
  obtain ⟨hsign, hdigits, -⟩ := Numeral.mk.inj h
  have habs : n.natAbs = m.natAbs := by
    have hvalue := congrArg (Nat.ofDigitChars 10 · 0) hdigits
    simpa only [decimalDigits, Nat.ofDigitChars_ten_toDigits] using hvalue
  have hneg : n < 0 ↔ m < 0 := decide_eq_decide.1 hsign
  omega

/-- What is left of an integer is its sign or an integer between it and zero. -/
theorem cut_ofInt {n : Int} {token : Token} (h : (Token.numeral (.ofInt n)).Cut token) :
    token = .numeral .bareSign ∨
      ∃ m, token = .numeral (.ofInt m) ∧ (0 < m ∧ m < n ∨ n < m ∧ m < 0) := by
  generalize hwhole : Token.numeral (.ofInt n) = whole at h
  cases h with
  | word => cases hwhole
  | text => cases hwhole
  | sign => exact .inl rfl
  | digits hsmaller =>
    obtain rfl := Numeral.ofInt_injective (Token.numeral.inj hwhole)
    exact .inr ⟨_, rfl, hsmaller⟩

/-- The first digits of a number are the digits of a smaller one. -/
theorem exists_decimalDigits_of_cut {n : Nat} : ∀ {ds more : List Char} {d : Char},
    decimalDigits n = ds ++ d :: more → ds ≠ [] → ∃ m, ds = decimalDigits m ∧ 0 < m ∧ m < n := by
  induction n using Nat.strong_induction_on with
  | _ n ih =>
    intro ds more d hcut hne
    have hdigits : decimalDigits n =
        if n < 10 then [Nat.digitChar n] else decimalDigits (n / 10) ++ [Nat.digitChar (n % 10)] :=
      Nat.toDigits_eq_if (by decide)
    rw [hdigits] at hcut
    split_ifs at hcut with hlt
    · exact absurd (left_eq_nil hcut) hne
    · rcases cut_append hcut with ⟨more', htens⟩ | ⟨rest, rfl, hlast⟩
      · obtain ⟨m, hm, hpos, hsmall⟩ := ih (n / 10) (by omega) htens hne
        exact ⟨m, hm, hpos, by omega⟩
      · rw [left_eq_nil hlast, List.append_nil]
        exact ⟨n / 10, rfl, by omega, by omega⟩

theorem scan_integer (n : Int) : Token.scan (Numeral.ofInt n).chars = [.numeral (.ofInt n)] :=
  scan_laidOut (.single (.numeral (spelled_ofInt n))) (List.isChain_singleton _)

theorem chars_ofInt (n : Int) : (Numeral.ofInt n).chars =
    (if n < 0 then ['-'] else []) ++ decimalDigits n.natAbs := by
  simp [Numeral.chars, Numeral.ofInt]

theorem scan_integer_cut {n : Int} {cs more : List Char} {d : Char}
    (h : (Numeral.ofInt n).chars = cs ++ d :: more) (hne : cs ≠ []) :
    ∃ t', (Token.numeral (.ofInt n)).Cut t' ∧ Token.scan cs = [t'] := by
  rw [chars_ofInt] at h
  by_cases hneg : n < 0
  · rw [if_pos hneg] at h
    obtain ⟨c, cs, rfl⟩ := List.exists_cons_of_ne_nil hne
    obtain ⟨rfl, hrest⟩ := List.cons.inj h
    by_cases hdigits : cs = []
    · subst hdigits
      exact ⟨_, .sign hneg, rfl⟩
    · obtain ⟨m, rfl, hpos, hlt⟩ := exists_decimalDigits_of_cut hrest hdigits
      have hchars : (Numeral.ofInt (-(m : Int))).chars = '-' :: decimalDigits m := by
        rw [chars_ofInt, if_pos (by omega), Int.natAbs_neg, Int.natAbs_natCast]
        rfl
      exact ⟨_, .digits (m := -m) (.inr (by omega)), hchars ▸ scan_integer _⟩
  · rw [if_neg hneg, List.nil_append] at h
    obtain ⟨m, rfl, hpos, hlt⟩ := exists_decimalDigits_of_cut h hne
    have hchars : (Numeral.ofInt m).chars = decimalDigits m := by
      rw [chars_ofInt, if_neg (by omega), Int.natAbs_natCast, List.nil_append]
    exact ⟨_, .digits (m := m) (.inl (by omega)), hchars ▸ scan_integer _⟩

/-! ### Texts of tokens -/

/-- Inside a token, the scanner is left with the cut token. -/
theorem scan_token_cut {t : Token} (h : t.Written) {cs more : List Char} {d : Char}
    (hcut : t.chars = cs ++ d :: more) (hne : cs ≠ []) :
    ∃ t', t.Cut t' ∧ Token.scan cs = [t'] := by
  cases h with
  | mark hmark =>
    obtain ⟨c, hc, -⟩ := breaks_of_isMark hmark
    exact absurd (left_eq_nil (hc.symm.trans hcut)) hne
  | word w => exact ⟨_, .word w, scan_word_cut hcut hne⟩
  | integer n => exact scan_integer_cut hcut hne
  | text s => exact scan_text_cut (spelled_ofString s) hcut hne

theorem breaking_of_append {cs rest : List Char} (h : Breaking (cs ++ rest)) : Breaking cs := by
  cases cs with
  | nil => exact nofun
  | cons c cs => exact h

/-- **A text that is cut off has the first tokens**, the last of them perhaps cut. -/
theorem scan_cut {ts : List Token} (hwritten : ∀ t ∈ ts, t.Written) (hseparated : Separated ts) :
    ∀ {cs more : List Char} {d : Char}, ts.flatMap Token.chars = cs ++ d :: more →
      CutOff ts (Token.scan cs) := by
  induction ts with
  | nil =>
    intro cs more d hcut
    simp at hcut
  | cons t ts ih =>
    intro cs more d hcut
    obtain ⟨ht, hts⟩ := List.forall_mem_cons.1 hwritten
    obtain ⟨hnext, hchain⟩ := List.isChain_cons.1 hseparated
    by_cases hne : cs = []
    · subst hne
      exact .stop
    rw [List.flatMap_cons] at hcut
    rcases cut_append hcut with ⟨more', hinside⟩ | ⟨cs, rfl, hrest⟩
    · obtain ⟨t', htcut, hscan⟩ := scan_token_cut ht hinside hne
      rw [hscan]
      exact .inside htcut
    · have hends : t.isNumeral = true → Breaking cs := by
        intro hnumeral
        have hlaid := laidOut_flatMap_chars fun u hu => (hts u hu).spelled
        have hbreaking := breaking_of_laidOut hlaid fun next hmem => hnext next hmem hnumeral
        rw [hrest] at hbreaking
        exact breaking_of_append hbreaking
      have hscan : Token.scan (t.chars ++ cs) = t :: Token.scan cs := run_token ht.spelled hends
      rw [hscan]
      exact .after (ih hts hchain hrest)

/-! ### Trees that are cut -/

/-- How an object may end if the text ends before the values of these members. -/
inductive EndsBefore : List (QuotedText × Tree) → ObjectEnd → Prop
  /-- Behind the member before them, or behind the brace. -/
  | cut {rest : List (QuotedText × Tree)} : EndsBefore rest .cut
  /-- Behind the comma before them. -/
  | comma {m : QuotedText × Tree} {rest : List (QuotedText × Tree)} :
    EndsBefore (m :: rest) .commaCut
  /-- Inside the first key. -/
  | key {m : QuotedText × Tree} {rest : List (QuotedText × Tree)} {key : QuotedText} :
    (Token.text m.1).Cut (.text key) → EndsBefore (m :: rest) (.noColon key true)
  /-- Behind the first key. -/
  | colon {m : QuotedText × Tree} {rest : List (QuotedText × Tree)} :
    EndsBefore (m :: rest) (.noColon m.1 true)

/-- A tree that the text ends inside of, and what is left of it. -/
inductive Tree.Cut : Tree → Tree → Prop
  /-- Before it begins. -/
  | missing {t : Tree} : Tree.Cut t .missing
  /-- Inside a word, a numeral or a text. -/
  | leaf {token token' : Token} : token.Cut token' → Tree.Cut (.leaf token) (.leaf token')
  /-- Behind some of the items. -/
  | items {before after : List Tree} :
    Tree.Cut (.list (before ++ after) .closed) (.list before .cut)
  /-- Inside an item. -/
  | item {before after : List Tree} {t t' : Tree} : t.Cut t' →
    Tree.Cut (.list (before ++ t :: after) .closed) (.list (before ++ [t']) .cut)
  /-- Behind some of the members. -/
  | members {before after : List (QuotedText × Tree)} {ending : ObjectEnd} :
    EndsBefore after ending → Tree.Cut (.object (before ++ after) .closed) (.object before ending)
  /-- Inside the value of a member. -/
  | member {before after : List (QuotedText × Tree)} {key : QuotedText} {t t' : Tree} :
    t.Cut t' → Tree.Cut (.object (before ++ (key, t) :: after) .closed)
      (.object (before ++ [(key, t')]) .cut)

/-! ### What is left of a list of tokens -/

/-- Of a mark nothing is left but the mark itself. -/
theorem cutOff_mark {t : Token} {ts ts' : List Token} (hmark : t.isMark = true)
    (h : CutOff (t :: ts) ts') : ts' = [] ∨ ∃ rest, ts' = t :: rest ∧ CutOff ts rest := by
  cases h with
  | stop => exact .inl rfl
  | inside hcut => cases hcut <;> cases hmark
  | after hrest => exact .inr ⟨_, rfl, hrest⟩

theorem cutOff_append {us : List Token} : ∀ {ts ts' : List Token}, CutOff (ts ++ us) ts' →
    CutOff ts ts' ∨ ∃ us', ts' = ts ++ us' ∧ CutOff us us'
  | [], _, h => .inr ⟨_, rfl, h⟩
  | _ :: _, _, .stop => .inl .stop
  | _ :: _, _, .inside hcut => .inl (.inside hcut)
  | t :: ts, _, .after h => by
    rcases cutOff_append h with hts | ⟨us', rfl, hus⟩
    · exact .inl (.after hts)
    · exact .inr ⟨us', rfl, hus⟩

namespace Spot

variable {context : Context}

/-- What is left of a value begins like the value, if anything is left. -/
theorem startsValue_of_cutOff {first : Token} {ts ts' : List Token}
    (hfirst : startsValue first = true) (h : CutOff (first :: ts) ts') :
    ts' = [] ∨ ∃ first' rest, ts' = first' :: rest ∧ startsValue first' = true := by
  cases h with
  | stop => exact .inl rfl
  | inside hcut => cases hcut <;> exact .inr ⟨_, _, rfl, rfl⟩
  | after => exact .inr ⟨_, _, rfl, hfirst⟩

/-- What is left of a tree is built as the tree cut off, wherever it stands. -/
def BuildsCut (t : Tree) : Prop :=
  ∀ (context : Context) (ts : List Token), CutOff t.tokens ts →
    ∃ t', t.Cut t' ∧ (Spot.value context).run ts = context.seal t'

/-- Before the mark that follows it, a value is cut or whole, or what is left of the text
goes on behind the mark. -/
theorem run_value_cut {t : Tree} (ht : t.Complete) (hbuilds : BuildsCut t) {mark : Token}
    (hmark : mark.isMark = true) {more ts : List Token}
    (hcut : CutOff (t.tokens ++ mark :: more) ts) (context : Context) :
    (∃ t', (t.Cut t' ∨ t' = t) ∧ (Spot.value context).run ts = context.seal t') ∨
      ∃ ts', CutOff more ts' ∧ (Spot.value context).run ts = (close t context mark).run ts' := by
  rcases cutOff_append hcut with hinside | ⟨us, rfl, hus⟩
  · obtain ⟨t', htcut, hrun⟩ := hbuilds context ts hinside
    exact .inl ⟨t', .inl htcut, hrun⟩
  · rw [run, List.foldl_append, foldl_step_tokens ht context]
    obtain rfl | ⟨ts', rfl, hts'⟩ := cutOff_mark hmark hus
    · exact .inl ⟨t, .inr rfl, by cases context <;> rfl⟩
    · exact .inr ⟨ts', hts', rfl⟩

/-! ### Lists -/

theorem cut_item {t t' : Tree} (h : t.Cut t' ∨ t' = t) (before after : List Tree) :
    (Tree.list (before.reverse ++ t :: after) .closed).Cut
      (.list (t' :: before).reverse .cut) := by
  rw [List.reverse_cons]
  rcases h with h | rfl
  · exact .item h
  · rw [List.append_cons]
    exact .items

/-- Behind a comma in a list comes what is left of an item. -/
theorem run_listNext {t : Tree} (h : t.Complete) {more ts : List Token}
    (hcut : CutOff (t.tokens ++ more) ts) (before : List Tree) :
    (Spot.listNext before context).run ts = (Spot.value (.item before context)).run ts := by
  obtain ⟨first, rest, htokens, hfirst⟩ := tokens_start h
  rw [htokens, List.cons_append] at hcut
  obtain rfl | ⟨first', rest', rfl, hfirst'⟩ := startsValue_of_cutOff hfirst hcut
  · rfl
  · rw [run, List.foldl_cons, step_listNext hfirst']
    rfl

/-- Behind the bracket of a list, too, if anything comes. -/
theorem run_listStart {t : Tree} {rest : List Tree} (h : t.Complete) {ts : List Token}
    (hcut : CutOff (itemTokens (t :: rest) ++ [.rightBracket]) ts) :
    ts = [] ∨ (Spot.listStart context).run ts = (Spot.value (.item [] context)).run ts := by
  obtain ⟨first, more, htokens, hfirst⟩ := tokens_start h
  obtain ⟨tail, htail⟩ := itemTokens_cons t rest
  rw [htail, htokens, List.append_assoc, List.cons_append] at hcut
  obtain rfl | ⟨first', rest', rfl, hfirst'⟩ := startsValue_of_cutOff hfirst hcut
  · exact .inl rfl
  · rw [run, List.foldl_cons, step_listStart hfirst']
    exact .inr rfl

/-- The items of a list from one of them on are built as far as they go. -/
theorem run_items_cut {t : Tree} {rest : List Tree} (hcomplete : ∀ u ∈ t :: rest, u.Complete)
    (hbuilds : ∀ u ∈ t :: rest, BuildsCut u) (before : List Tree) {ts : List Token}
    (hcut : CutOff (itemTokens (t :: rest) ++ [.rightBracket]) ts) :
    ∃ t', (Tree.list (before.reverse ++ t :: rest) .closed).Cut t' ∧
      (Spot.value (.item before context)).run ts = context.seal t' := by
  induction rest generalizing t before ts with
  | nil =>
    rw [itemTokens] at hcut
    have ht := hcomplete t (List.mem_cons_self ..)
    have hbuildsT := hbuilds t (List.mem_cons_self ..)
    rcases run_value_cut ht hbuildsT rfl hcut (.item before context)
      with ⟨t', ht', hrun⟩ | ⟨_, hnone, -⟩
    · exact ⟨_, cut_item ht' before [], hrun⟩
    · cases hnone
  | cons u more ih =>
    obtain ⟨hcompleteT, hcompleteRest⟩ := List.forall_mem_cons.1 hcomplete
    obtain ⟨hbuildsT, hbuildsRest⟩ := List.forall_mem_cons.1 hbuilds
    rw [itemTokens, List.append_assoc, List.cons_append] at hcut
    · rcases run_value_cut hcompleteT hbuildsT rfl hcut (.item before context)
        with ⟨t', ht', hrun⟩ | ⟨ts', hts', hrun⟩
      · exact ⟨_, cut_item ht' before (u :: more), hrun⟩
      · obtain ⟨tail, htail⟩ := itemTokens_cons u more
        have hnext : (Spot.listNext (t :: before) context).run ts' =
            (Spot.value (.item (t :: before) context)).run ts' := by
          rw [htail, List.append_assoc] at hts'
          exact run_listNext (hcompleteRest u (by simp)) hts' (t :: before)
        obtain ⟨t', ht', hsealed⟩ := ih hcompleteRest hbuildsRest (t :: before) hts'
        rw [List.reverse_cons, ← List.append_cons] at ht'
        exact ⟨t', ht', hrun.trans (hnext.trans hsealed)⟩
    · simp

theorem buildsCut_list {items : List Tree} (hcomplete : ∀ t ∈ items, t.Complete)
    (hbuilds : ∀ t ∈ items, BuildsCut t) : BuildsCut (.list items .closed) := by
  intro context ts hcut
  rw [Tree.tokens] at hcut
  obtain rfl | ⟨ts, rfl, hitems⟩ := cutOff_mark rfl hcut
  · exact ⟨.missing, .missing, rfl⟩
  have hempty : ∃ t', (Tree.list items .closed).Cut t' ∧
      (Spot.listStart context).finish = context.seal t' := by
    have hnone : (Tree.list ([] ++ items) .closed).Cut (.list [] .cut) := .items
    exact ⟨_, hnone, rfl⟩
  cases items with
  | nil =>
    obtain rfl | ⟨_, -, hnone⟩ := cutOff_mark rfl hitems
    · exact hempty
    · cases hnone
  | cons t rest =>
    obtain rfl | hstart := run_listStart (hcomplete t (List.mem_cons_self ..)) hitems
    · exact hempty
    · obtain ⟨t', ht', hrun⟩ := run_items_cut hcomplete hbuilds [] hitems
      exact ⟨t', ht', hstart.trans hrun⟩

/-! ### Objects -/

theorem cut_member {t t' : Tree} (h : t.Cut t' ∨ t' = t) (key : QuotedText)
    (before after : List (QuotedText × Tree)) :
    (Tree.object (before.reverse ++ (key, t) :: after) .closed).Cut
      (.object ((key, t') :: before).reverse .cut) := by
  rw [List.reverse_cons]
  rcases h with h | rfl
  · exact .member h
  · rw [List.append_cons]
    exact .members .cut

/-- A member is cut, or what is left of the text goes on behind the mark that
follows it. -/
theorem run_member_cut {m : QuotedText × Tree} {before after : List (QuotedText × Tree)}
    (hm : m.2.Complete) (hbuilds : BuildsCut m.2) {spot : Spot}
    (hspot : ∀ key, step spot (.text key) = .colon before key context)
    (hfinish : ∃ t', (Tree.object (before.reverse ++ m :: after) .closed).Cut t' ∧
      spot.finish = context.seal t')
    {mark : Token} (hmark : mark.isMark = true) {more ts : List Token}
    (hcut : CutOff (.text m.1 :: .colon :: (m.2.tokens ++ mark :: more)) ts) :
    (∃ t', (Tree.object (before.reverse ++ m :: after) .closed).Cut t' ∧
        spot.run ts = context.seal t') ∨
      ∃ ts', CutOff more ts' ∧
        spot.run ts = (close m.2 (.member before m.1 context) mark).run ts' := by
  obtain ⟨key, t⟩ := m
  cases hcut with
  | stop => exact .inl hfinish
  | inside hkey =>
    cases hkey with
    | text hending hpieces =>
      refine .inl ⟨_, .members (.key (.text hending hpieces)), ?_⟩
      rw [run, List.foldl_cons, hspot]
      rfl
  | after hcolon =>
    obtain rfl | ⟨ts', rfl, hvalue⟩ := cutOff_mark rfl hcolon
    · refine .inl ⟨_, .members .colon, ?_⟩
      rw [run, List.foldl_cons, hspot]
      rfl
    · have hrun : spot.run (.text key :: .colon :: ts') =
          (Spot.value (.member before key context)).run ts' := by
        rw [run, List.foldl_cons, hspot]
        rfl
      rw [hrun]
      refine (run_value_cut hm hbuilds hmark hvalue _).imp_left ?_
      rintro ⟨t', ht', hsealed⟩
      exact ⟨_, cut_member ht' key before after, hsealed⟩

/-- The members of an object from one of them on are built as far as they go. -/
theorem run_members_cut {m : QuotedText × Tree} {rest : List (QuotedText × Tree)}
    (hcomplete : ∀ u ∈ m :: rest, u.2.Complete) (hbuilds : ∀ u ∈ m :: rest, BuildsCut u.2)
    (before : List (QuotedText × Tree)) {spot : Spot}
    (hspot : ∀ key, step spot (.text key) = .colon before key context)
    (hfinish : ∃ t', (Tree.object (before.reverse ++ m :: rest) .closed).Cut t' ∧
      spot.finish = context.seal t')
    {ts : List Token} (hcut : CutOff (memberTokens (m :: rest) ++ [.rightBrace]) ts) :
    ∃ t', (Tree.object (before.reverse ++ m :: rest) .closed).Cut t' ∧
      spot.run ts = context.seal t' := by
  have hm := hcomplete m (List.mem_cons_self ..)
  have hbuildsM := hbuilds m (List.mem_cons_self ..)
  induction rest generalizing m before spot ts with
  | nil =>
    rw [memberTokens, List.cons_append, List.cons_append] at hcut
    refine (run_member_cut hm hbuildsM hspot hfinish rfl hcut).elim id ?_
    rintro ⟨_, hnone, -⟩
    cases hnone
  | cons u more ih =>
    rw [memberTokens, List.cons_append, List.cons_append, List.append_assoc, List.cons_append]
      at hcut
    · refine (run_member_cut hm hbuildsM hspot hfinish rfl hcut).elim id ?_
      rintro ⟨ts', hts', hrun⟩
      have hcompleteRest := (List.forall_mem_cons.1 hcomplete).2
      have hbuildsRest := (List.forall_mem_cons.1 hbuilds).2
      have hcomma : ∃ t', (Tree.object ((m :: before).reverse ++ u :: more) .closed).Cut t' ∧
          (Spot.objectNext (m :: before) context).finish = context.seal t' :=
        ⟨_, .members .comma, rfl⟩
      obtain ⟨t', ht', hsealed⟩ := ih hcompleteRest hbuildsRest (m :: before) (fun _ => rfl) hcomma
        hts' (hcompleteRest u (by simp)) (hbuildsRest u (by simp))
      rw [List.reverse_cons, ← List.append_cons] at ht'
      exact ⟨t', ht', hrun.trans hsealed⟩
    · simp

theorem buildsCut_object {members : List (QuotedText × Tree)}
    (hcomplete : ∀ m ∈ members, m.2.Complete) (hbuilds : ∀ m ∈ members, BuildsCut m.2) :
    BuildsCut (.object members .closed) := by
  intro context ts hcut
  rw [Tree.tokens] at hcut
  obtain rfl | ⟨ts, rfl, hmembers⟩ := cutOff_mark rfl hcut
  · exact ⟨.missing, .missing, rfl⟩
  have hempty : ∃ t', (Tree.object members .closed).Cut t' ∧
      (Spot.objectStart context).finish = context.seal t' := by
    have hnone : (Tree.object ([] ++ members) .closed).Cut (.object [] .cut) := .members .cut
    exact ⟨_, hnone, rfl⟩
  cases members with
  | nil =>
    obtain rfl | ⟨_, -, hnone⟩ := cutOff_mark rfl hmembers
    · exact hempty
    · cases hnone
  | cons m rest => exact run_members_cut hcomplete hbuilds [] (fun _ => rfl) hempty hmembers

/-- **What is left of a tree's tokens is built as the tree cut off.** -/
theorem run_tokens_cut {t : Tree} (h : t.Complete) : BuildsCut t := by
  induction h with
  | @leaf token htoken =>
    intro context ts hcut
    rw [Tree.tokens] at hcut
    cases hcut with
    | stop => exact ⟨.missing, .missing, rfl⟩
    | inside hinside =>
      refine ⟨_, .leaf hinside, ?_⟩
      cases hinside <;> cases context <;> rfl
    | after hnone => cases hnone
  | list hcomplete ih => exact buildsCut_list hcomplete ih
  | object _ hcomplete ih => exact buildsCut_object hcomplete ih

end Spot

/-- **A text that is cut off is read as its tree cut off.** -/
theorem read_cut {t : Tree} (h : t.Written) {cs more : List Char} {d : Char}
    (hcut : t.compact = cs ++ d :: more) : ∃ t', t.Cut t' ∧ Document.read cs = ⟨t', false⟩ := by
  have hseparated := separated_tokens h.complete [] List.IsChain.nil nofun
  rw [List.append_nil] at hseparated
  rw [compact_eq] at hcut
  exact Spot.run_tokens_cut h.complete .document _ (scan_cut h.tokens_written hseparated hcut)

end TemplatePasses.Json
