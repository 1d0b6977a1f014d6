/-
# The numbers of a document

A number is an integer of the signed or unsigned 64-bit range or a double.
Doubles are always finite and are held by their bit pattern, so that equality
of numbers is decidable. Each number has one written form: an integer its
digits, a double its shortest decimal, written with a point from `10 ^ (-5)`
to below `10 ^ 16` and with an exponent outside that range.

Key definitions: `WideInt`, `Double`, `Number`, `Number.numeral`.
-/
import TemplatePasses.Json.Token
import TemplatePasses.Json.Decimal

namespace TemplatePasses.Json

/-- An integer that fits 64 bits, signed or unsigned. -/
structure WideInt where
  val : Int
  lower : -0x8000_0000_0000_0000 ≤ val
  upper : val < 0x1_0000_0000_0000_0000
deriving DecidableEq

/-- A double, by its bit pattern. -/
structure Double where
  bits : UInt64
deriving DecidableEq

/-- A number of a document. -/
inductive Number where
  | integer (n : WideInt)
  | double (x : Double)
deriving DecidableEq

/-- The decimal digits of a number. -/
def decimalDigits (n : Nat) : List Char :=
  Nat.toDigits 10 n

/-- The numeral of an integer: its sign if negative, and its digits. -/
def Numeral.ofInt (n : Int) : Numeral :=
  { negative := n < 0, whole := decimalDigits n.natAbs, fraction := [], exponent := none,
    extent := .whole }

/-- From which to which exponent of ten, both included, a decimal is written
with a point alone. -/
structure PointRange where
  lowest : Int
  highest : Int

/-- Doubles are written with a point alone from `10 ^ (-5)` to below `10 ^ 16`. -/
def Double.pointRange : PointRange := ⟨-5, 15⟩

/-- The numeral of a decimal. Written with a point it keeps a digit on either
side of it; written with an exponent it has one digit before the point. -/
def Decimal.numeral (range : PointRange) (negative : Bool) (d : Decimal) : Numeral :=
  let digits := decimalDigits d.count
  let exponent := d.unit + digits.length - 1
  if range.lowest ≤ exponent ∧ exponent ≤ range.highest then
    if exponent < 0 then
      { negative, whole := ['0'], fraction := List.replicate (-exponent - 1).toNat '0' ++ digits,
        exponent := none, extent := .whole }
    else
      let places := exponent.toNat + 1
      { negative, whole := (digits.take places).rightpad places '0',
        fraction := if places < digits.length then digits.drop places else ['0'],
        exponent := none, extent := .whole }
  else
    { negative, whole := digits.take 1, fraction := digits.drop 1,
      exponent := some ⟨exponent < 0, decimalDigits exponent.natAbs⟩, extent := .whole }

namespace Double

/-- Whether the sign bit is set. -/
def isNegative (x : Double) : Bool :=
  0x8000_0000_0000_0000 ≤ x.bits.toNat

def numeral (x : Double) : Numeral :=
  let magnitude := x.bits.toNat % 0x8000_0000_0000_0000
  if magnitude = 0 then
    { negative := x.isNegative, whole := ['0'], fraction := ['0'], exponent := none,
      extent := .whole }
  else (Interval.ofBits magnitude).shortest.numeral pointRange x.isNegative

end Double

def Number.numeral : Number → Numeral
  | .integer n => .ofInt n.val
  | .double x => x.numeral

def Number.text (n : Number) : String :=
  String.ofList n.numeral.chars

end TemplatePasses.Json
