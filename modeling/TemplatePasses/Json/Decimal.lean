/-
# The shortest decimal of a binary fraction

A double is `mantissa · 2 ^ exponent`, and every real number of an interval
around it is read back as that double: the interval reaches half way to the
neighbouring doubles and holds its ends if the mantissa is even. The shortest
decimal is the multiple of the largest power of ten that lies in the interval;
if two multiples do, the nearer one, and of two equally near ones the even one.

Key definitions: `Interval`, `Interval.ofBits`, `Decimal`, `Interval.shortest`.
-/

namespace TemplatePasses.Json

/-- The reals that are read back as one positive double, as multiples of
`2 ^ unit`: `middle` is the double itself. -/
structure Interval where
  low : Nat
  middle : Nat
  high : Nat
  /-- The power of two that the other numbers count. -/
  unit : Int
  /-- Whether the two ends are read back as the double too. -/
  endsIncluded : Bool
deriving DecidableEq, Repr

/-- The interval of the positive double with this bit pattern (sign bit off). -/
def Interval.ofBits (bits : Nat) : Interval :=
  let biased : Nat := bits / 0x10_0000_0000_0000
  let tail : Nat := bits % 0x10_0000_0000_0000
  let mantissa : Nat := if biased = 0 then tail else 0x10_0000_0000_0000 + tail
  let exponent : Int := if biased = 0 then -1074 else (biased : Int) - 1075
  { low := if tail = 0 ∧ 1 < biased then 4 * mantissa - 1 else 4 * mantissa - 2
    middle := 4 * mantissa
    high := 4 * mantissa + 2
    unit := exponent - 2
    endsIncluded := mantissa % 2 = 0 }

/-- A positive decimal: a number of units, each a power of ten. -/
structure Decimal where
  count : Nat
  /-- The power of ten that is counted. -/
  unit : Int
deriving DecidableEq, Repr

namespace Interval

/-- The factor that `count` has when multiples of `10 ^ unit` are compared with
the interval, fractions cleared. -/
def decimalFactor (i : Interval) (unit : Int) : Nat :=
  Nat.pow 10 unit.toNat * Nat.pow 2 (-i.unit).toNat

/-- The factor that the interval's numbers have in the same comparison. -/
def binaryFactor (i : Interval) (unit : Int) : Nat :=
  Nat.pow 10 (-unit).toNat * Nat.pow 2 i.unit.toNat

/-- Whether the decimal lies in the interval. -/
def holds (i : Interval) (d : Decimal) : Bool :=
  let x := d.count * i.decimalFactor d.unit
  let low := i.low * i.binaryFactor d.unit
  let high := i.high * i.binaryFactor d.unit
  0 < d.count && (if i.endsIncluded then low ≤ x && x ≤ high else low < x && x < high)

/-- The multiple of `10 ^ unit` next below the middle, or the middle itself. -/
def below (i : Interval) (unit : Int) : Nat :=
  i.middle * i.binaryFactor unit / i.decimalFactor unit

/-- The better of the two multiples of `10 ^ unit` around the middle, if one of
them lies in the interval. -/
def onGrid (i : Interval) (unit : Int) : Option Decimal :=
  let lower : Decimal := ⟨i.below unit, unit⟩
  let upper : Decimal := ⟨i.below unit + 1, unit⟩
  match i.holds lower, i.holds upper with
  | false, false => none
  | true, false => some lower
  | false, true => some upper
  | true, true =>
    let down := i.middle * i.binaryFactor unit - lower.count * i.decimalFactor unit
    let up := upper.count * i.decimalFactor unit - i.middle * i.binaryFactor unit
    if down < up then some lower
    else if up < down then some upper
    else if lower.count % 2 = 0 then some lower else some upper

/-- Tries the powers of ten from `10 ^ (steps - 325)` down. -/
def search (i : Interval) : Nat → Option Decimal
  | 0 => none
  | steps + 1 =>
    match i.onGrid ((steps : Int) - 324) with
    | some d => some d
    | none => i.search steps

/-- The shortest decimal in the interval. The powers tried, from `10 ^ 309` to
`10 ^ (-324)`, are all that doubles need. -/
def shortest (i : Interval) : Decimal :=
  (i.search 634).getD ⟨0, 0⟩

end Interval
end TemplatePasses.Json
