/-
# The tokens of a document

A document is a JSON text. Its tokens are the six marks, the three literal
words, numerals and quoted texts. Numerals and texts are kept as they are
written, digit by digit and escape by escape; what they stand for is told by
`Json.Literal`. A token also records when the text ends or goes wrong in the
middle of it; such a token is the last one of its document.

Key definitions: `Token`, `Numeral`, `QuotedText`, `Token.chars`.
-/

namespace TemplatePasses.Json

/-- The literal words. -/
inductive Word where
  | null
  | yes
  | no
deriving DecidableEq, Repr

def Word.letters : Word → List Char
  | .null => ['n', 'u', 'l', 'l']
  | .yes => ['t', 'r', 'u', 'e']
  | .no => ['f', 'a', 'l', 's', 'e']

/-- How far a word or a numeral goes. -/
inductive Extent where
  /-- It is complete. -/
  | whole
  /-- The text ends inside it. -/
  | cut
  /-- A character follows that cannot belong there. -/
  | wrong
deriving DecidableEq, Repr

/-- The exponent of a numeral. -/
structure Exponent where
  negative : Bool
  digits : List Char
deriving DecidableEq, Repr

/-- A numeral, digit by digit. -/
structure Numeral where
  negative : Bool
  /-- The digits before the point. -/
  whole : List Char
  /-- The digits after the point; none without a point. -/
  fraction : List Char
  exponent : Option Exponent
  extent : Extent
deriving DecidableEq, Repr

/-- A part of a quoted text. -/
inductive Piece where
  /-- A character that stands for itself. -/
  | plain (c : Char)
  /-- A backslash and this letter. -/
  | short (letter : Char)
  /-- An escape of four hexadecimal digits, with their value. -/
  | unit (value : Nat)
deriving DecidableEq, Repr

/-- How a quoted text ends. -/
inductive QuoteEnd where
  /-- By its closing quote. -/
  | closed
  /-- The document ends inside it. -/
  | cut
  /-- At a control character. -/
  | control
  /-- At a backslash before a letter that names no character. -/
  | badLetter
  /-- At an escape without four hexadecimal digits. -/
  | badDigits
deriving DecidableEq, Repr

/-- A quoted text, piece by piece. -/
structure QuotedText where
  pieces : List Piece
  ending : QuoteEnd
deriving DecidableEq, Repr

/-- The tokens. -/
inductive Token where
  | leftBrace
  | rightBrace
  | leftBracket
  | rightBracket
  | comma
  | colon
  | word (word : Word) (extent : Extent)
  | numeral (numeral : Numeral)
  | text (text : QuotedText)
  /-- A character that starts no token. -/
  | stray
deriving DecidableEq, Repr

/-! ### The written form -/

/-- The exponent as it is written, its sign always shown. -/
def Exponent.chars (e : Exponent) : List Char :=
  'e' :: (if e.negative then '-' else '+') :: e.digits

def Numeral.chars (n : Numeral) : List Char :=
  (if n.negative then ['-'] else []) ++ n.whole ++
    (if n.fraction.isEmpty then [] else '.' :: n.fraction) ++
    (match n.exponent with
      | some e => e.chars
      | none => [])

/-- The four hexadecimal digits of a number below 65536. -/
def hexDigits (value : Nat) : List Char :=
  [value / 4096, value / 256, value / 16, value].map fun d => Nat.digitChar (d % 16)

def Piece.chars : Piece → List Char
  | .plain c => [c]
  | .short letter => ['\\', letter]
  | .unit value => '\\' :: 'u' :: hexDigits value

def QuotedText.chars (t : QuotedText) : List Char :=
  '"' :: t.pieces.flatMap Piece.chars ++ ['"']

/-- A complete token as it is written. -/
def Token.chars : Token → List Char
  | .leftBrace => ['\x7b']
  | .rightBrace => ['\x7d']
  | .leftBracket => ['[']
  | .rightBracket => [']']
  | .comma => [',']
  | .colon => [':']
  | .word w _ => w.letters
  | .numeral n => n.chars
  | .text t => t.chars
  | .stray => []

end TemplatePasses.Json
