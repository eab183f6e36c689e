import CilAssembler.Ieee.Shortest

/-! # Floating-point numbers as text

Numbers are written positionally if their first digit stands between the fourth place after the
point and the sixteenth before it, and with an exponent otherwise. A positional number always has
a point. -/

namespace CilAssembler.Ieee

/-- Some zeros. -/
def zeros (count : Nat) : String :=
  "".pushn '0' count

/-- The digits with a point among or beside them, as `exponent` says. -/
def Decimal.positional (d : Decimal) : String :=
  let digits := toString d.digits
  if 0 ≤ d.exponent then
    digits ++ zeros d.exponent.toNat ++ ".0"
  else
    let places := (-d.exponent).toNat
    if places < digits.length then
      let whole := digits.length - places
      String.ofList (digits.toList.take whole) ++ "." ++ String.ofList (digits.toList.drop whole)
    else
      "0." ++ zeros (places - digits.length) ++ digits

/-- The power of ten of the first digit. -/
def Decimal.leading (d : Decimal) : Int :=
  d.exponent + (toString d.digits).length - 1

/-- The first digit, the others after a point, and the power of ten. -/
def Decimal.scientific (d : Decimal) : String :=
  let digits := (toString d.digits).toList
  let fraction := digits.drop 1
  String.ofList (digits.take 1) ++
    (if fraction.isEmpty then "" else "." ++ String.ofList fraction) ++ "e" ++ toString d.leading

/-- A decimal in the notation for its magnitude. -/
def Decimal.render (d : Decimal) : String :=
  if -4 ≤ d.leading && d.leading ≤ 15 then d.positional else d.scientific

/-- A datum as text. What is no number has no sign. -/
def Datum.render : Datum → String
  | .nan => "NaN"
  | .infinite negative => if negative then "-inf" else "inf"
  | .finite negative significand exponent boundary =>
      (if negative then "-" else "") ++
        if significand = 0 then "0.0"
        else (Interval.around significand exponent boundary).shortest.render

/-- A word of the format as text. -/
def Format.render (f : Format) (bits : Nat) : String :=
  (f.decode bits).render

end CilAssembler.Ieee
