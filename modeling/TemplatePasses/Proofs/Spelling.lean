/-
# How tokens are spelled

The grammar of tokens, apart from the scanner: a token may be spelled in several
ways (`Token.Spelled`), as numerals have two letters for the exponent and texts
several escapes for one character, and a text lays out tokens if it spells them in
turn, with any blanks before, between and behind them (`LaidOut`). The scanner
reads the grammar: from a text that lays out tokens it gets just these tokens, so
neither the blanks nor the spelling can be seen behind it.

One condition is needed. Nothing but the next character shows where a numeral
ends, so a numeral must be followed by a mark (`Separated`).

Key definitions: `Numeral.Spelled`, `QuotedText.Spelled`, `Token.Spelled`,
`LaidOut`, `Separated`, `Scanner.feed`.
Key theorems: `Scanner.run_append`, `feed_numeral`, `feed_text`, `scan_laidOut`.
-/
import TemplatePasses.Json.Scanner
import Mathlib.Data.List.Chain

namespace TemplatePasses.Json

/-! ### The grammar -/

/-- The digits of a numeral before its point: a zero alone, or any digits that do
not begin with zero. -/
inductive IsWhole : List Char → Prop
  | zero : IsWhole ['0']
  | digits {d : Char} {ds : List Char} : d.isDigit = true → d ≠ '0' →
    (∀ c ∈ ds, c.isDigit = true) → IsWhole (d :: ds)

/-- Spellings of the digits behind the point. -/
inductive FractionSpelled : List Char → List Char → Prop
  | absent : FractionSpelled [] []
  | present {d : Char} {ds : List Char} : d.isDigit = true → (∀ c ∈ ds, c.isDigit = true) →
    FractionSpelled (d :: ds) ('.' :: d :: ds)

/-- Spellings of the sign of an exponent, which may be left out for plus. -/
inductive SignSpelled : Bool → List Char → Prop
  | absent : SignSpelled false []
  | plus : SignSpelled false ['+']
  | minus : SignSpelled true ['-']

/-- Spellings of an exponent, with a small or a large letter. -/
inductive ExponentSpelled : Option Exponent → List Char → Prop
  | absent : ExponentSpelled none []
  | present {mark d : Char} {ds sign : List Char} {negative : Bool} : mark = 'e' ∨ mark = 'E' →
    SignSpelled negative sign → d.isDigit = true → (∀ c ∈ ds, c.isDigit = true) →
    ExponentSpelled (some ⟨negative, d :: ds⟩) (mark :: (sign ++ d :: ds))

/-- Spellings of a numeral. -/
inductive Numeral.Spelled : Numeral → List Char → Prop
  | intro {negative : Bool} {whole fraction point mark : List Char} {exponent : Option Exponent} :
    IsWhole whole → FractionSpelled fraction point → ExponentSpelled exponent mark →
    Numeral.Spelled ⟨negative, whole, fraction, exponent, .whole⟩
      ((if negative then ['-'] else []) ++ (whole ++ (point ++ mark)))

/-- Spellings of a part of a quoted text. -/
inductive Piece.Spelled : Piece → List Char → Prop
  | plain {c : Char} : c ≠ '"' → c ≠ '\\' → ¬c.toNat < 0x20 → Piece.Spelled (.plain c) [c]
  | short {letter : Char} : isShortEscape letter = true →
    Piece.Spelled (.short letter) ['\\', letter]
  | unit {a b c d : Char} {p q r s : Nat} : hexValue? a = some p → hexValue? b = some q →
    hexValue? c = some r → hexValue? d = some s →
    Piece.Spelled (.unit (16 * (16 * (16 * p + q) + r) + s)) ['\\', 'u', a, b, c, d]

/-- Spellings of the parts of a quoted text. -/
inductive PiecesSpelled : List Piece → List Char → Prop
  | nil : PiecesSpelled [] []
  | cons {p : Piece} {ps : List Piece} {cs ds : List Char} : p.Spelled cs → PiecesSpelled ps ds →
    PiecesSpelled (p :: ps) (cs ++ ds)

/-- Spellings of a quoted text. -/
inductive QuotedText.Spelled : QuotedText → List Char → Prop
  | intro {pieces : List Piece} {cs : List Char} : PiecesSpelled pieces cs →
    QuotedText.Spelled ⟨pieces, .closed⟩ ('"' :: (cs ++ ['"']))

def Token.isMark : Token → Bool
  | .leftBrace | .rightBrace | .leftBracket | .rightBracket | .comma | .colon => true
  | .word .. | .numeral _ | .text _ | .stray => false

def Token.isNumeral : Token → Bool
  | .numeral _ => true
  | _ => false

/-- Spellings of a token. -/
inductive Token.Spelled : Token → List Char → Prop
  | mark {t : Token} : t.isMark = true → Token.Spelled t t.chars
  | word (w : Word) : Token.Spelled (.word w .whole) w.letters
  | numeral {n : Numeral} {cs : List Char} : n.Spelled cs → Token.Spelled (.numeral n) cs
  | text {t : QuotedText} {cs : List Char} : t.Spelled cs → Token.Spelled (.text t) cs

/-- A text spells tokens one after the other, with blanks where it likes. -/
inductive LaidOut : List Token → List Char → Prop
  | nil {blanks : List Char} : (∀ c ∈ blanks, isBlank c = true) → LaidOut [] blanks
  | cons {blanks cs rest : List Char} {t : Token} {ts : List Token} :
    (∀ c ∈ blanks, isBlank c = true) → t.Spelled cs → LaidOut ts rest →
    LaidOut (t :: ts) (blanks ++ (cs ++ rest))

namespace LaidOut

theorem single {t : Token} {cs : List Char} (h : t.Spelled cs) : LaidOut [t] cs := by
  have hnone : ∀ c ∈ ([] : List Char), isBlank c = true := nofun
  have hcons := cons hnone h (nil hnone)
  rwa [List.nil_append, List.append_nil] at hcons

theorem blank {blanks cs : List Char} {ts : List Token} (hblanks : ∀ c ∈ blanks, isBlank c = true)
    (h : LaidOut ts cs) : LaidOut ts (blanks ++ cs) := by
  cases h with
  | nil hcs => exact nil (List.forall_mem_append.2 ⟨hblanks, hcs⟩)
  | cons hbefore ht hts =>
    rw [← List.append_assoc]
    exact cons (List.forall_mem_append.2 ⟨hblanks, hbefore⟩) ht hts

theorem append {cs ds : List Char} {ts us : List Token} (h : LaidOut ts cs) (h' : LaidOut us ds) :
    LaidOut (ts ++ us) (cs ++ ds) := by
  induction h with
  | nil hblanks => exact blank hblanks h'
  | cons hblanks ht _ ih =>
    rw [List.append_assoc, List.append_assoc]
    exact cons hblanks ht ih

theorem token {t : Token} {ts : List Token} {cs ds : List Char} (ht : t.Spelled cs)
    (h : LaidOut ts ds) : LaidOut (t :: ts) (cs ++ ds) :=
  (single ht).append h

end LaidOut

/-- Behind every numeral but the last token comes a mark. -/
def Separated (ts : List Token) : Prop :=
  ts.IsChain fun t next => t.isNumeral = true → next.isMark = true

/-! ### Feeding the scanner -/

namespace Scanner

/-- The tokens of some characters and the scanner behind them, if more may come. -/
def feed : Scanner → List Char → List Token × Scanner
  | s, [] => ([], s)
  | s, c :: cs => ((s.step c).1 ++ ((s.step c).2.feed cs).1, ((s.step c).2.feed cs).2)

theorem run_cons (s : Scanner) (c : Char) (cs : List Char) :
    s.run (c :: cs) = (s.step c).1 ++ (s.step c).2.run cs := rfl

/-- The scanner reads on from where it stands. -/
theorem run_append (rest : List Char) : ∀ (cs : List Char) (s : Scanner),
    s.run (cs ++ rest) = (s.feed cs).1 ++ (s.feed cs).2.run rest
  | [], _ => rfl
  | c :: cs, s => by
    rw [List.cons_append, run_cons, run_append rest cs, feed, List.append_assoc]

theorem feed_append (ds : List Char) : ∀ (cs : List Char) (s : Scanner),
    s.feed (cs ++ ds) =
      ((s.feed cs).1 ++ ((s.feed cs).2.feed ds).1, ((s.feed cs).2.feed ds).2)
  | [], _ => rfl
  | c :: cs, s => by rw [List.cons_append, feed, feed_append ds cs, feed, List.append_assoc]

/-- A character that ends no token is followed by the others. -/
theorem feed_cons_of_quiet {s next : Scanner} {c : Char} (h : s.step c = ([], next))
    (cs : List Char) : s.feed (c :: cs) = next.feed cs := by
  rw [feed, h, List.nil_append]

/-- Characters that end no token are followed by the others. -/
theorem feed_append_of_quiet {s next : Scanner} {cs : List Char} (h : s.feed cs = ([], next))
    (ds : List Char) : s.feed (cs ++ ds) = next.feed ds := by
  rw [feed_append, h, List.nil_append]

theorem feed_blanks : ∀ {blanks : List Char}, (∀ c ∈ blanks, isBlank c = true) →
    idle.feed blanks = ([], idle)
  | [], _ => rfl
  | c :: blanks, h => by
    obtain ⟨hc, hrest⟩ := List.forall_mem_cons.1 h
    have hstep : idle.step c = ([], idle) := if_pos hc
    rw [feed_cons_of_quiet hstep, feed_blanks hrest]

/-! ### Marks and words -/

theorem feed_mark {t : Token} (h : t.isMark = true) : idle.feed t.chars = ([t], idle) := by
  cases t <;> first | rfl | cases h

theorem feed_word (w : Word) : idle.feed w.letters = ([.word w .whole], idle) := by
  cases w <;> rfl

/-! ### Quoted texts -/

/-- Behind a piece the scanner stands in the text, with the piece in hand. -/
theorem feed_piece {p : Piece} {cs : List Char} (h : p.Spelled cs) (before : List Piece) :
    (text before).feed cs = ([], text (p :: before)) := by
  cases h with
  | plain hquote hslash hcontrol => simp [feed, step, hquote, hslash, hcontrol]
  | @short letter hletter =>
    have hu : letter ≠ 'u' := by
      rintro rfl
      cases hletter
    simp [feed, step, hletter, hu]
  | unit ha hb hc hd => simp [feed, step, ha, hb, hc, hd]

theorem feed_pieces : ∀ {ps : List Piece} {cs : List Char}, PiecesSpelled ps cs →
    ∀ before : List Piece, (text before).feed cs = ([], text (ps.reverse ++ before))
  | _, _, .nil, _ => rfl
  | p :: ps, _, .cons hp hps, before => by
    rw [feed_append_of_quiet (feed_piece hp before), feed_pieces hps, List.reverse_cons,
      List.append_assoc, List.singleton_append]

/-- **A spelled text is read**, up to its closing quote. -/
theorem feed_text {t : QuotedText} {cs : List Char} (h : t.Spelled cs) :
    idle.feed cs = ([.text t], idle) := by
  obtain @⟨pieces, cs, hpieces⟩ := h
  have hstart : idle.step '"' = ([], text []) := rfl
  rw [feed_cons_of_quiet hstart, feed_append_of_quiet (feed_pieces hpieces [])]
  simp [feed, step, Token.ofPieces]

/-! ### Numerals -/

theorem ne_of_isDigit {c d : Char} (hc : c.isDigit = true) (hd : d.isDigit = false) : c ≠ d := by
  rintro rfl
  rw [hc] at hd
  cases hd

theorem start_of_isDigit {c : Char} (h : c.isDigit = true) :
    idle.step c = (numeral Numeral.blank .minus).step c := by
  have hne : ∀ d : Char, d.isDigit = false → ¬c = d := fun d hd => ne_of_isDigit h hd
  have hblank : isBlank c = false := by
    simp [isBlank, hne ' ' rfl, hne '\n' rfl, hne '\t' rfl, hne '\r' rfl]
  simp only [step, start, hblank, hne '\x7b' rfl, hne '\x7d' rfl, hne '[' rfl, hne ']' rfl,
    hne ',' rfl, hne ':' rfl, hne '"' rfl, hne 'n' rfl, hne 't' rfl, hne 'f' rfl, hne '-' rfl,
    if_false, Bool.false_eq_true]
  cases hext : Numeral.blank.extend .minus c with
  | some next => rfl
  | none => by_cases hzero : c = '0' <;> simp [Numeral.extend, h, hzero] at hext

variable {n : Numeral}

theorem step_of_extend {place place' : NumeralPlace} {n' : Numeral} {c : Char}
    (h : n.extend place c = some (n', place')) :
    (numeral n place).step c = ([], numeral n' place') := by
  simp only [step, h]

theorem feed_wholeDigits : ∀ {ds : List Char}, (∀ c ∈ ds, c.isDigit = true) → ∀ n : Numeral,
    (numeral n .whole).feed ds = ([], numeral { n with whole := n.whole ++ ds } .whole)
  | [], _, n => by simp [feed]
  | d :: ds, h, n => by
    obtain ⟨hd, hds⟩ := List.forall_mem_cons.1 h
    have hstep : n.extend .whole d = some ({ n with whole := n.whole ++ [d] }, .whole) := if_pos hd
    rw [feed_cons_of_quiet (step_of_extend hstep), feed_wholeDigits hds]
    simp

theorem feed_fractionDigits : ∀ {ds : List Char}, (∀ c ∈ ds, c.isDigit = true) → ∀ n : Numeral,
    (numeral n .fraction).feed ds = ([], numeral { n with fraction := n.fraction ++ ds } .fraction)
  | [], _, n => by simp [feed]
  | d :: ds, h, n => by
    obtain ⟨hd, hds⟩ := List.forall_mem_cons.1 h
    have hstep : n.extend .fraction d =
        some ({ n with fraction := n.fraction ++ [d] }, .fraction) := if_pos hd
    rw [feed_cons_of_quiet (step_of_extend hstep), feed_fractionDigits hds]
    simp

theorem feed_exponentDigits : ∀ {ds : List Char}, (∀ c ∈ ds, c.isDigit = true) →
    ∀ (n : Numeral) (e : Exponent),
      (numeral { n with exponent := some e } .exponent).feed ds =
        ([], numeral { n with exponent := some { e with digits := e.digits ++ ds } } .exponent)
  | [], _, n, e => by simp [feed]
  | d :: ds, h, n, e => by
    obtain ⟨hd, hds⟩ := List.forall_mem_cons.1 h
    have hstep : Numeral.extend { n with exponent := some e } .exponent d =
        some ({ n with exponent := some { e with digits := e.digits ++ [d] } }, .exponent) :=
      if_pos hd
    rw [feed_cons_of_quiet (step_of_extend hstep), feed_exponentDigits hds]
    simp

theorem feed_whole {whole : List Char} (h : IsWhole whole) (n : Numeral) :
    ∃ place : NumeralPlace, (place = .zero ∨ place = .whole) ∧
      (numeral n .minus).feed whole = ([], numeral { n with whole := whole } place) := by
  cases h with
  | zero => exact ⟨.zero, .inl rfl, rfl⟩
  | @digits d ds hd hzero hds =>
    have hstep : n.extend .minus d = some ({ n with whole := [d] }, .whole) := by
      simp [Numeral.extend, hzero, hd]
    exact ⟨.whole, .inr rfl, by
      rw [feed_cons_of_quiet (step_of_extend hstep), feed_wholeDigits hds]
      rfl⟩

theorem feed_fraction {fraction cs : List Char} (h : FractionSpelled fraction cs) (n : Numeral)
    {place : NumeralPlace} (hplace : place = .zero ∨ place = .whole) (hn : n.fraction = []) :
    ∃ place' : NumeralPlace, (place' = .zero ∨ place' = .whole ∨ place' = .fraction) ∧
      (numeral n place).feed cs = ([], numeral { n with fraction := fraction } place') := by
  cases h with
  | absent =>
    refine ⟨place, hplace.imp_right .inl, ?_⟩
    obtain ⟨negative, whole, fraction, exponent, extent⟩ := n
    cases hn
    rfl
  | @present d ds hd hds =>
    have hpoint : n.extend place '.' = some (n, .point) := by
      rcases hplace with rfl | rfl <;> rfl
    have hfirst : n.extend .point d = some ({ n with fraction := [d] }, .fraction) := if_pos hd
    refine ⟨.fraction, .inr (.inr rfl), ?_⟩
    rw [feed_cons_of_quiet (step_of_extend hpoint), feed_cons_of_quiet (step_of_extend hfirst),
      feed_fractionDigits hds]
    rfl

theorem feed_sign {negative : Bool} {sign : List Char} (h : SignSpelled negative sign) {d : Char}
    (hd : d.isDigit = true) (n : Numeral) :
    (numeral (n.withExponent false) .mark).feed (sign ++ [d]) =
      ([], numeral { n with exponent := some ⟨negative, [d]⟩ } .exponent) := by
  have hplus : ¬d = '+' := ne_of_isDigit hd rfl
  have hminus : ¬d = '-' := ne_of_isDigit hd rfl
  cases h with
  | absent =>
    have hstep : (n.withExponent false).extend .mark d =
        some ({ n with exponent := some ⟨false, [d]⟩ }, .exponent) := by
      simp [Numeral.extend, hplus, hminus, hd, Numeral.withExponent, Numeral.addExponentDigit]
    rw [List.nil_append, feed_cons_of_quiet (step_of_extend hstep)]
    rfl
  | plus =>
    have hstep : (n.withExponent false).extend .sign d =
        some ({ n with exponent := some ⟨false, [d]⟩ }, .exponent) := if_pos hd
    rw [List.singleton_append, feed_cons_of_quiet (step_of_extend rfl),
      feed_cons_of_quiet (step_of_extend hstep)]
    rfl
  | minus =>
    have hstep : (n.withExponent true).extend .sign d =
        some ({ n with exponent := some ⟨true, [d]⟩ }, .exponent) := if_pos hd
    rw [List.singleton_append, feed_cons_of_quiet (step_of_extend rfl)]
    exact feed_cons_of_quiet (step_of_extend hstep) []

theorem feed_exponent {exponent : Option Exponent} {cs : List Char}
    (h : ExponentSpelled exponent cs) (n : Numeral) {place : NumeralPlace}
    (hplace : place = .zero ∨ place = .whole ∨ place = .fraction) (hn : n.exponent = none) :
    ∃ place' : NumeralPlace, place'.isEnd = true ∧
      (numeral n place).feed cs = ([], numeral { n with exponent := exponent } place') := by
  cases h with
  | absent =>
    refine ⟨place, by rcases hplace with rfl | rfl | rfl <;> rfl, ?_⟩
    obtain ⟨negative, whole, fraction, exponent, extent⟩ := n
    cases hn
    rfl
  | @present mark d ds sign negative hmark hsign hd hds =>
    have hstart : n.extend place mark = some (n.withExponent false, .mark) := by
      rcases hplace with rfl | rfl | rfl <;> rcases hmark with rfl | rfl <;> rfl
    refine ⟨.exponent, rfl, ?_⟩
    rw [feed_cons_of_quiet (step_of_extend hstart), List.append_cons,
      feed_append_of_quiet (feed_sign hsign hd n), feed_exponentDigits hds]
    rfl

/-- **A spelled numeral is read**, and the scanner waits for what ends it. -/
theorem feed_numeral {cs : List Char} (h : n.Spelled cs) :
    ∃ place : NumeralPlace, place.isEnd = true ∧ idle.feed cs = ([], numeral n place) := by
  obtain @⟨negative, whole, fraction, point, mark, exponent, hwhole, hfraction, hexponent⟩ := h
  obtain ⟨place, hplace, hfeed⟩ := feed_whole hwhole { Numeral.blank with negative }
  obtain ⟨place', hplace', hfeed'⟩ :=
    feed_fraction hfraction { Numeral.blank with negative, whole } hplace rfl
  obtain ⟨place'', hend, hfeed''⟩ :=
    feed_exponent hexponent { Numeral.blank with negative, whole, fraction } hplace' rfl
  refine ⟨place'', hend, ?_⟩
  have hrest : (numeral { Numeral.blank with negative } .minus).feed (whole ++ (point ++ mark)) =
      ([], numeral ⟨negative, whole, fraction, exponent, .whole⟩ place'') := by
    rw [feed_append_of_quiet hfeed, feed_append_of_quiet hfeed', hfeed'']
    rfl
  cases negative with
  | true => exact (feed_cons_of_quiet rfl _).trans hrest
  | false =>
    -- the first digit is read as if a sign had come before it
    rw [← hrest, if_neg Bool.false_ne_true, List.nil_append]
    cases hwhole with
    | zero => rfl
    | digits hd _ _ =>
      rw [List.cons_append, feed, feed, start_of_isDigit hd]
      rfl

/-! ### Where a numeral ends -/

/-- Whether a character cannot go on with any numeral. -/
def breaks (c : Char) : Bool :=
  !(c.isDigit || c = '.' || c = 'e' || c = 'E')

theorem step_of_breaks {c : Char} (hc : breaks c = true) {place : NumeralPlace}
    (hend : place.isEnd = true) :
    (numeral n place).step c = (.numeral n :: (idle.step c).1, (idle.step c).2) := by
  simp only [breaks, Bool.not_eq_true', Bool.or_eq_false_iff, decide_eq_false_iff_not] at hc
  obtain ⟨⟨⟨hdigit, hpoint⟩, he⟩, hE⟩ := hc
  have hext : n.extend place c = none := by
    cases place <;> simp_all [Numeral.extend, NumeralPlace.isEnd]
  have hbefore : place.endsBefore c = true := by simp [NumeralPlace.endsBefore, hend, hdigit]
  simp only [step, hext, hbefore, if_true]

/-- What begins with a character that breaks numerals, or is nothing. -/
def Breaking (rest : List Char) : Prop :=
  ∀ c ∈ rest.head?, breaks c = true

/-- A numeral ends where the text does, or before a character that breaks it. -/
theorem run_numeral {place : NumeralPlace} (hend : place.isEnd = true) :
    ∀ {rest : List Char}, Breaking rest → (numeral n place).run rest = .numeral n :: idle.run rest
  | [], _ => by
    show [Token.numeral (if place.isEnd then n else { n with extent := .cut })] = [.numeral n]
    rw [if_pos hend]
  | c :: rest, h => by
    rw [run_cons, run_cons, step_of_breaks (h c rfl) hend]
    rfl

end Scanner

open Scanner

/-! ### Laid out tokens -/

theorem breaks_of_isBlank {c : Char} (h : isBlank c = true) : breaks c = true := by
  simp only [isBlank, Bool.or_eq_true, decide_eq_true_eq] at h
  obtain ((rfl | rfl) | rfl) | rfl := h <;> rfl

theorem breaks_of_isMark {t : Token} (h : t.isMark = true) :
    ∃ d : Char, t.chars = [d] ∧ breaks d = true := by
  cases t <;> first | exact ⟨_, rfl, rfl⟩ | cases h

/-- Blanks or a mark end a numeral. -/
theorem breaking_of_laidOut {ts : List Token} {cs : List Char} (h : LaidOut ts cs)
    (hmark : ∀ t ∈ ts.head?, t.isMark = true) : Breaking cs := by
  intro c hc
  cases h with
  | nil hblanks => exact breaks_of_isBlank (hblanks c (List.mem_of_mem_head? hc))
  | @cons blanks cs rest t ts hblanks hspelled _ =>
    cases blanks with
    | cons b blanks =>
      obtain rfl : b = c := Option.some.inj hc
      exact breaks_of_isBlank (hblanks b (List.mem_cons_self ..))
    | nil =>
      have ht : t.isMark = true := hmark t rfl
      cases hspelled with
      | mark =>
        obtain ⟨d, hd, hbreaks⟩ := breaks_of_isMark ht
        rw [hd] at hc
        exact Option.some.inj hc ▸ hbreaks
      | _ => cases ht

/-- A token of any kind is read if what follows is fit to end it. -/
theorem run_token {t : Token} {cs rest : List Char} (h : t.Spelled cs)
    (hrest : t.isNumeral = true → Breaking rest) : idle.run (cs ++ rest) = t :: idle.run rest := by
  rw [run_append]
  cases h with
  | mark hmark => rw [feed_mark hmark]; rfl
  | word w => rw [feed_word w]; rfl
  | text ht => rw [feed_text ht]; rfl
  | numeral hn =>
    obtain ⟨place, hend, hfeed⟩ := feed_numeral hn
    rw [hfeed, List.nil_append]
    exact run_numeral hend (hrest rfl)

/-- **The scanner gets the tokens that a text lays out.** -/
theorem scan_laidOut : ∀ {ts : List Token} {cs : List Char}, LaidOut ts cs → Separated ts →
    Token.scan cs = ts
  | _, blanks, .nil hblanks, _ => by
    have hrun := run_append [] blanks idle
    rw [List.append_nil, feed_blanks hblanks] at hrun
    exact hrun
  | t :: ts, _, .cons hblanks ht hts, hseparated => by
    obtain ⟨hnext, hrest⟩ := List.isChain_cons.1 hseparated
    have htail : Token.scan _ = ts := scan_laidOut hts hrest
    unfold Token.scan at htail ⊢
    rw [run_append, feed_blanks hblanks, List.nil_append, run_token ht, htail]
    exact fun hnumeral => breaking_of_laidOut hts fun next hmem => hnext next hmem hnumeral

end TemplatePasses.Json
