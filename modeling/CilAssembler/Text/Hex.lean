/-! # Hexadecimal text

Numbers in base sixteen, padded with zeros to a least number of digits. -/

namespace CilAssembler.Text

/-- Pads `digits` with leading zeros to at least `width` characters. -/
def padZeros (width : Nat) (digits : List Char) : List Char :=
  List.replicate (width - digits.length) '0' ++ digits

/-- Lower-case hexadecimal digits of `n`, at least `width` of them. -/
def hex (width n : Nat) : String :=
  String.ofList (padZeros width (Nat.toDigits 16 n))

/-- Upper-case hexadecimal digits of `n`, at least `width` of them. -/
def hexUpper (width n : Nat) : String :=
  String.ofList ((padZeros width (Nat.toDigits 16 n)).map Char.toUpper)

/-- An offset into a method body as listings write it. -/
def codeOffset (offset : Nat) : String :=
  "IL_" ++ hex 4 offset

end CilAssembler.Text
