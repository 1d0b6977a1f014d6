/-
# What numerals and quoted texts stand for

Reading a numeral: its digits are gathered into a 64-bit number for as long as
they fit, and the digits left over and the exponent become a power of ten. A
numeral of digits only is an integer if it fits, and every other numeral is a
double: the gathered number rounded to a double, times or divided by the double
nearest to the power of ten.

Reading a quoted text: escapes give their character, and an escape for a high
surrogate is joined with the escape for a low surrogate that must follow it.

Key definitions: `Numeral.value`, `QuotedText.value`, `QuotedText.ofString`.
-/
import TemplatePasses.Json.Fault

namespace TemplatePasses.Json

/-! ### Numerals -/

/-- Adds decimal digits to `gathered` for as long as the result fits 64 bits.
The digits left over come back too. -/
def gather : Nat → List Char → Nat × List Char
  | gathered, [] => (gathered, [])
  | gathered, d :: ds =>
    let next := 10 * gathered + (d.toNat - '0'.toNat)
    if next < 0x1_0000_0000_0000_0000 then gather next ds else (gathered, d :: ds)

/-- The double nearest to a power of ten. -/
def powerOfTen (exponent : Nat) : Float :=
  Float.ofScientific 1 false exponent

/-- `x · 10 ^ exponent`, if it is finite. Beyond `10 ^ 308` there is nothing but
zero to scale, and below `10 ^ (-308)` the division goes in two steps. -/
def scale (x : Float) (exponent : Int) : Option Float :=
  let steps := exponent.natAbs
  if 0 ≤ exponent then
    if steps ≤ 308 then
      let y := x * powerOfTen steps
      if y.isInf then none else some y
    else if x == 0 then some x else none
  else if steps ≤ 308 then some (x / powerOfTen steps)
  else if steps ≤ 616 then some (x / powerOfTen 308 / powerOfTen (steps - 308))
  else some 0

/-- The double with this sign. -/
def signed (negative : Bool) (x : Float) : Double :=
  ⟨(if negative then -x else x).toBits⟩

/-- The double of a gathered number and a power of ten. -/
def Double.ofParts (negative : Bool) (gathered : Nat) (exponent : Int) : Except Fault Double :=
  match scale (UInt64.ofNat gathered).toFloat exponent with
  | some x => .ok (signed negative x)
  | none => .error .numberOutOfRange

/-- Exponents are below this number: a larger one is out of range or, if it is
negative or the digits are zero, gives zero. -/
def exponentLimit : Nat := 0x8000_0000

namespace Numeral

/-- The number that a run of digits gives if it is all there is: an integer if
it fits, and negative zero and what is below the integers a double. -/
def integer (negative : Bool) (gathered : Nat) : Number :=
  if negative then
    if h : 0 < gathered ∧ gathered ≤ 0x8000_0000_0000_0000 then
      .integer ⟨-gathered, by omega, by omega⟩
    else .double (signed true (UInt64.ofNat gathered).toFloat)
  else
    if h : gathered < 0x1_0000_0000_0000_0000 then .integer ⟨gathered, by omega, by omega⟩
    else .double (signed false (UInt64.ofNat gathered).toFloat)

/-- What a complete numeral stands for. -/
def wholeValue (n : Numeral) : Except Fault Number :=
  let (beforePoint, left) := gather 0 n.whole
  if left.isEmpty && n.fraction.isEmpty && n.exponent.isNone then
    .ok (integer n.negative beforePoint)
  else
    let (gathered, dropped) := gather beforePoint n.fraction
    let shift : Int := left.length - (n.fraction.length - dropped.length : Nat)
    match n.exponent with
    | none => .double <$> Double.ofParts n.negative gathered shift
    | some e =>
      let size := Nat.ofDigitChars 10 e.digits 0
      if size < exponentLimit then
        .double <$> Double.ofParts n.negative gathered (if e.negative then shift - size else shift + size)
      else if gathered ≠ 0 ∧ e.negative = false then .error .numberOutOfRange
      else .ok (.double (signed n.negative 0))

/-- What a numeral stands for. -/
def value (n : Numeral) : Except Fault Number :=
  match n.extent with
  | .whole => n.wholeValue
  | .cut => .error .endInValue
  | .wrong => .error .badNumeral

end Numeral

/-! ### Quoted texts -/

/-- The character that a backslash and this letter stand for. -/
def shortMeaning : Char → Option Char
  | '"' => some '"'
  | '\\' => some '\\'
  | '/' => some '/'
  | 'b' => some '\x08'
  | 'f' => some '\x0c'
  | 'n' => some '\n'
  | 'r' => some '\r'
  | 't' => some '\t'
  | _ => none

/-- Whether a 16-bit unit is the first half of a pair. -/
def isHighSurrogate (unit : Nat) : Bool :=
  0xD800 ≤ unit && unit ≤ 0xDBFF

/-- Whether a 16-bit unit is the second half of a pair. -/
def isLowSurrogate (unit : Nat) : Bool :=
  0xDC00 ≤ unit && unit ≤ 0xDFFF

/-- The character of a pair. -/
def joinSurrogates (high low : Nat) : Char :=
  Char.ofNat (0x10000 + (high - 0xD800) * 0x400 + (low - 0xDC00))

/-- What is wrong with a text that ends like this. -/
def QuoteEnd.fault? : QuoteEnd → Option Fault
  | .closed => none
  | .cut => some .endInText
  | .control => some .controlCharacter
  | .badLetter => some .badEscape
  | .badDigits => some .badEscape

/-- What is wrong with a text that ends like this behind half a pair. -/
def QuoteEnd.faultInPair : QuoteEnd → Fault
  | .cut => .endInText
  | .badDigits => .badEscape
  | .closed | .control | .badLetter => .unpairedSurrogate

namespace QuotedText

/-- The characters that the pieces stand for. -/
def decode (ending : QuoteEnd) : List Piece → Except Fault (List Char)
  | [] =>
    match ending.fault? with
    | none => .ok []
    | some fault => .error fault
  | .plain c :: rest => (c :: ·) <$> decode ending rest
  | .short letter :: rest => ((shortMeaning letter).getD letter :: ·) <$> decode ending rest
  | .unit high :: .unit low :: rest =>
    if isLowSurrogate high then .error .loneSurrogate
    else if isHighSurrogate high then
      if isLowSurrogate low then (joinSurrogates high low :: ·) <$> decode ending rest
      else .error .loneSurrogate
    else (Char.ofNat high :: ·) <$> decode ending (.unit low :: rest)
  | .unit unit :: rest =>
    if isLowSurrogate unit then .error .loneSurrogate
    else if isHighSurrogate unit then
      .error (if rest.isEmpty then ending.faultInPair else .unpairedSurrogate)
    else (Char.ofNat unit :: ·) <$> decode ending rest

/-- What a quoted text stands for. -/
def value (t : QuotedText) : Except Fault String :=
  String.ofList <$> decode t.ending t.pieces

/-- A character as a part of a quoted text: the quote, the backslash and control
characters are escaped, by a letter where there is one. -/
def pieceOf (c : Char) : Piece :=
  if c = '"' then .short '"'
  else if c = '\\' then .short '\\'
  else if c = '\x08' then .short 'b'
  else if c = '\x0c' then .short 'f'
  else if c = '\n' then .short 'n'
  else if c = '\r' then .short 'r'
  else if c = '\t' then .short 't'
  else if c.toNat < 0x20 then .unit c.toNat
  else .plain c

/-- The quoted text that stands for `s`. -/
def ofString (s : String) : QuotedText :=
  ⟨s.toList.map pieceOf, .closed⟩

end QuotedText
end TemplatePasses.Json
