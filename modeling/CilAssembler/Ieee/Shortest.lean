import CilAssembler.Ieee.Format

/-! # Shortest decimals

The decimal with the fewest digits that lies in the interval of numbers that round to a given
binary number, and among those the nearest to it. An exact tie goes to the larger decimal. -/

namespace CilAssembler.Ieee

/-- The number `digits * 10 ^ exponent`. -/
structure Decimal where
  digits : Nat
  exponent : Int
  deriving DecidableEq

/-- The positive number `value / unit` and the interval around it, all over the same unit. The
ends belong to the interval if `closed` holds. -/
structure Interval where
  low : Nat
  value : Nat
  high : Nat
  unit : Nat
  closed : Bool

namespace Interval

/-- The numbers that round to `significand * 2 ^ exponent`. They reach half way to the neighbours
on both sides; ends round to the even significand. -/
def around (significand : Nat) (exponent : Int) (boundary : Bool) : Interval :=
  let scale := Nat.pow 2 (exponent - 2).toNat
  { low := (4 * significand - if boundary then 1 else 2) * scale
    value := 4 * significand * scale
    high := (4 * significand + 2) * scale
    unit := Nat.pow 2 (2 - exponent).toNat
    closed := significand % 2 == 0 }

/-- The power of ten just above the value: `10 ^ (k - 1) ≤ value / unit < 10 ^ k`. -/
def magnitude (i : Interval) : Int :=
  if i.unit ≤ i.value then
    (Nat.toDigits 10 (i.value / i.unit)).length
  else
    let places := (Nat.toDigits 10 (i.unit / i.value)).length - 1
    if i.unit ≤ i.value * Nat.pow 10 places then 1 - places else -places

/-- The decimal of a multiple of a power of ten, without zeros at the end. -/
def stripZeros : Nat → Nat → Int → Decimal
  | 0, digits, exponent => ⟨digits, exponent⟩
  | fuel + 1, digits, exponent =>
      if digits ≠ 0 ∧ digits % 10 = 0 then stripZeros fuel (digits / 10) (exponent + 1)
      else ⟨digits, exponent⟩

/-- The nearest multiple of `10 ^ exponent` in the interval. Only the two multiples next to the
value have to be looked at. -/
def nearest? (i : Interval) (exponent : Int) : Option Nat :=
  let up := Nat.pow 10 (-exponent).toNat
  let step := Nat.pow 10 exponent.toNat * i.unit
  let below := i.value * up / step
  let contains (multiple : Nat) : Bool :=
    if i.closed then i.low * up ≤ multiple * step && multiple * step ≤ i.high * up
    else i.low * up < multiple * step && multiple * step < i.high * up
  let upIsNearer := (2 * below + 1) * step ≤ 2 * (i.value * up)
  if contains below && !(contains (below + 1) && upIsNearer) then some below
  else if contains (below + 1) then some (below + 1)
  else none

/-- Tries one digit more each time. -/
def search (i : Interval) (magnitude : Int) : Nat → Nat → Decimal
  | 0, _ => ⟨i.value / i.unit, 0⟩
  | fuel + 1, digits =>
      let exponent := magnitude - digits
      match i.nearest? exponent with
      | some multiple => stripZeros (digits + 1) multiple exponent
      | none => search i magnitude fuel (digits + 1)

/-- The shortest decimal in the interval. Seventeen digits are enough for every word. -/
def shortest (i : Interval) : Decimal :=
  i.search i.magnitude 17 1

end Interval

end CilAssembler.Ieee
