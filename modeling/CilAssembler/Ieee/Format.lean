/-! # Binary floating-point data

The numbers that the bits of a binary floating-point word stand for, and when two words are equal
as numbers. -/

namespace CilAssembler.Ieee

/-- The widths of the exponent and fraction fields of a word. -/
structure Format where
  exponentBits : Nat
  fractionBits : Nat

/-- Words of 32 bits. -/
def binary32 : Format := ⟨8, 23⟩

/-- Words of 64 bits. -/
def binary64 : Format := ⟨11, 52⟩

/-- What a word stands for. A finite datum is `significand * 2 ^ exponent`; `boundary` marks the
significands whose lower neighbour is half as far away as the upper one. -/
inductive Datum where
  | nan
  | infinite (negative : Bool)
  | finite (negative : Bool) (significand : Nat) (exponent : Int) (boundary : Bool)
  deriving DecidableEq

namespace Format

/-- The field of all ones that marks infinities and words that are no number. -/
def topExponent (f : Format) : Nat :=
  Nat.pow 2 f.exponentBits - 1

/-- The exponent of the last bit of the smallest numbers. -/
def leastExponent (f : Format) : Int :=
  2 - Int.pow 2 (f.exponentBits - 1) - f.fractionBits

/-- Takes a word apart. -/
def decode (f : Format) (bits : Nat) : Datum :=
  let fraction := bits % Nat.pow 2 f.fractionBits
  let field := bits / Nat.pow 2 f.fractionBits % Nat.pow 2 f.exponentBits
  let negative := bits / Nat.pow 2 (f.fractionBits + f.exponentBits) % 2 == 1
  if field == f.topExponent then
    if fraction == 0 then .infinite negative else .nan
  else if field == 0 then
    .finite negative fraction f.leastExponent false
  else
    .finite negative (fraction + Nat.pow 2 f.fractionBits) (f.leastExponent + (field - 1 : Nat))
      (fraction == 0 && field != 1)

end Format

/-- Equality as numbers: no number equals the one that is none, and the two zeros are equal. -/
def Datum.sameNumber : Datum → Datum → Bool
  | .infinite a, .infinite b => a == b
  | .finite a m p _, .finite b n q _ => m == n && (m == 0 || a == b && p == q)
  | _, _ => false

/-- Whether two words of the format are equal as numbers. -/
def Format.sameNumber (f : Format) (a b : Nat) : Bool :=
  (f.decode a).sameNumber (f.decode b)

end CilAssembler.Ieee
