/-
# From characters to tokens

The scanner is an automaton: it holds the token it is inside of, and each
character either extends that token, ends it, or shows that the text is not
well-formed, after which nothing more is read. A numeral ends only at the first
character behind it, which the scanner then takes afresh. Between tokens it
skips blanks, tabs and line ends.

Key definitions: `Scanner`, `Scanner.step`, `Scanner.finish`, `Token.scan`.
-/
import TemplatePasses.Json.Token

namespace TemplatePasses.Json

/-- Where a numeral stands: behind which of its parts. -/
inductive NumeralPlace where
  | minus
  | zero
  | whole
  | point
  | fraction
  | mark
  | sign
  | exponent
deriving DecidableEq, Repr

/-- Whether a numeral may end there. -/
def NumeralPlace.isEnd : NumeralPlace → Bool
  | .zero | .whole | .fraction | .exponent => true
  | .minus | .point | .mark | .sign => false

/-- What the scanner is inside of. -/
inductive Scanner where
  /-- Between tokens. -/
  | idle
  /-- In a literal word, with the letters that must follow. -/
  | word (word : Word) (left : List Char)
  /-- In a numeral. -/
  | numeral (n : Numeral) (place : NumeralPlace)
  /-- In a quoted text, with the pieces before, the last one first. -/
  | text (pieces : List Piece)
  /-- Behind a backslash. -/
  | escape (pieces : List Piece)
  /-- In an escape by digits: their value and number so far. -/
  | unit (pieces : List Piece) (value count : Nat)
  /-- In an escape by digits that has gone wrong: the bytes seen so far. All
  four bytes have to be there before the digits are looked at. -/
  | badUnit (pieces : List Piece) (bytes : Nat)
  /-- Behind a fault: nothing more is read. -/
  | dead
deriving DecidableEq, Repr

/-- The characters that separate tokens. -/
def isBlank (c : Char) : Bool :=
  c = ' ' || c = '\n' || c = '\t' || c = '\r'

def hexValue? (c : Char) : Option Nat :=
  if '0' ≤ c ∧ c ≤ '9' then some (c.toNat - '0'.toNat)
  else if 'a' ≤ c ∧ c ≤ 'f' then some (c.toNat - 'a'.toNat + 10)
  else if 'A' ≤ c ∧ c ≤ 'F' then some (c.toNat - 'A'.toNat + 10)
  else none

/-- The numeral before its first character. -/
def Numeral.blank : Numeral :=
  { negative := false, whole := [], fraction := [], exponent := none, extent := .whole }

/-- The numeral with its exponent's sign. -/
def Numeral.withExponent (n : Numeral) (negative : Bool) : Numeral :=
  { n with exponent := some ⟨negative, []⟩ }

/-- The numeral with one more digit in its exponent. -/
def Numeral.addExponentDigit (n : Numeral) (d : Char) : Numeral :=
  match n.exponent with
  | some e => { n with exponent := some { e with digits := e.digits ++ [d] } }
  | none => { n with exponent := some ⟨false, [d]⟩ }

/-- The numeral and the place behind one more character, if the character
belongs to the numeral. -/
def Numeral.extend (n : Numeral) (place : NumeralPlace) (c : Char) :
    Option (Numeral × NumeralPlace) :=
  match place with
  | .minus =>
    if c = '0' then some ({ n with whole := [c] }, .zero)
    else if c.isDigit then some ({ n with whole := [c] }, .whole)
    else none
  | .zero =>
    if c = '.' then some (n, .point)
    else if c = 'e' ∨ c = 'E' then some (n.withExponent false, .mark)
    else none
  | .whole =>
    if c.isDigit then some ({ n with whole := n.whole ++ [c] }, .whole)
    else if c = '.' then some (n, .point)
    else if c = 'e' ∨ c = 'E' then some (n.withExponent false, .mark)
    else none
  | .point =>
    if c.isDigit then some ({ n with fraction := [c] }, .fraction) else none
  | .fraction =>
    if c.isDigit then some ({ n with fraction := n.fraction ++ [c] }, .fraction)
    else if c = 'e' ∨ c = 'E' then some (n.withExponent false, .mark)
    else none
  | .mark =>
    if c = '+' then some (n, .sign)
    else if c = '-' then some (n.withExponent true, .sign)
    else if c.isDigit then some (n.addExponentDigit c, .exponent)
    else none
  | .sign | .exponent =>
    if c.isDigit then some (n.addExponentDigit c, .exponent) else none

/-- Whether a numeral that cannot go on with this character may end before it.
A leading zero is followed by no digit. -/
def NumeralPlace.endsBefore (place : NumeralPlace) (c : Char) : Bool :=
  place.isEnd && !(place = .zero && c.isDigit)

/-- The quoted text with these pieces, the last one first. -/
def Token.ofPieces (pieces : List Piece) (ending : QuoteEnd) : Token :=
  .text ⟨pieces.reverse, ending⟩

/-- A literal word behind its first letter. -/
def Scanner.startWord (w : Word) : Scanner :=
  .word w (w.letters.drop 1)

/-- The first character of a token, or a blank. -/
def Scanner.start (c : Char) : List Token × Scanner :=
  if isBlank c then ([], .idle)
  else if c = '\x7b' then ([.leftBrace], .idle)
  else if c = '\x7d' then ([.rightBrace], .idle)
  else if c = '[' then ([.leftBracket], .idle)
  else if c = ']' then ([.rightBracket], .idle)
  else if c = ',' then ([.comma], .idle)
  else if c = ':' then ([.colon], .idle)
  else if c = '"' then ([], .text [])
  else if c = 'n' then ([], .startWord .null)
  else if c = 't' then ([], .startWord .yes)
  else if c = 'f' then ([], .startWord .no)
  else if c = '-' then ([], .numeral { Numeral.blank with negative := true } .minus)
  else
    match Numeral.blank.extend .minus c with
    | some (n, place) => ([], .numeral n place)
    | none => ([.stray], .dead)

/-- The letters that may follow a backslash, the one for digits apart. -/
def isShortEscape (c : Char) : Bool :=
  c = '"' || c = '\\' || c = '/' || c = 'b' || c = 'f' || c = 'n' || c = 'r' || c = 't'

/-- What one more character does. -/
def Scanner.step : Scanner → Char → List Token × Scanner
  | .idle, c => start c
  | .word _ [], c => start c
  | .word w (l :: left), c =>
    if c = l then
      if left.isEmpty then ([.word w .whole], .idle) else ([], .word w left)
    else ([.word w .wrong], .dead)
  | .numeral n place, c =>
    match n.extend place c with
    | some (n', place') => ([], .numeral n' place')
    | none =>
      if place.endsBefore c then
        let (tokens, next) := start c
        (.numeral n :: tokens, next)
      else ([.numeral { n with extent := .wrong }], .dead)
  | .text pieces, c =>
    if c = '"' then ([.ofPieces pieces .closed], .idle)
    else if c = '\\' then ([], .escape pieces)
    else if c.toNat < 0x20 then ([.ofPieces pieces .control], .dead)
    else ([], .text (.plain c :: pieces))
  | .escape pieces, c =>
    if c = 'u' then ([], .unit pieces 0 0)
    else if isShortEscape c then ([], .text (.short c :: pieces))
    else ([.ofPieces pieces .badLetter], .dead)
  | .unit pieces value count, c =>
    match hexValue? c with
    | some d =>
      if count = 3 then ([], .text (.unit (16 * value + d) :: pieces))
      else ([], .unit pieces (16 * value + d) (count + 1))
    | none =>
      if 4 ≤ count + c.utf8Size then ([.ofPieces pieces .badDigits], .dead)
      else ([], .badUnit pieces (count + c.utf8Size))
  | .badUnit pieces bytes, c =>
    if 4 ≤ bytes + c.utf8Size then ([.ofPieces pieces .badDigits], .dead)
    else ([], .badUnit pieces (bytes + c.utf8Size))
  | .dead, _ => ([], .dead)

/-- The token that the end of the text leaves. -/
def Scanner.finish : Scanner → List Token
  | .idle | .dead => []
  | .word w _ => [.word w .cut]
  | .numeral n place => [.numeral (if place.isEnd then n else { n with extent := .cut })]
  | .text pieces | .escape pieces | .unit pieces _ _ | .badUnit pieces _ =>
    [.ofPieces pieces .cut]

/-- The tokens of the characters that follow. -/
def Scanner.run : Scanner → List Char → List Token
  | s, [] => s.finish
  | s, c :: cs =>
    let (tokens, next) := s.step c
    tokens ++ next.run cs

/-- The tokens of a text. -/
def Token.scan (text : List Char) : List Token :=
  Scanner.idle.run text

end TemplatePasses.Json
