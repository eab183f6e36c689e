import CilAssembler.Bytes

/-! # Compressed lengths

A length is written in one, two or four bytes, most significant byte first. The highest bits of
the first byte tell how many bytes there are. -/

namespace CilAssembler

/-- The shortest form of a length. Lengths of 29 bits and more have none. -/
def compressedLength? (length : Nat) : Option (List UInt8) :=
  if length < 0x80 then some (bigEndian 1 length)
  else if length < 0x4000 then some (bigEndian 2 (0x8000 + length))
  else if length < 0x20000000 then some (bigEndian 4 (0xC0000000 + length))
  else none

/-- Reads a length from the front of some bytes, with the number of bytes it took. -/
def readCompressedLength? : List UInt8 → Option (Nat × Nat)
  | [] => none
  | first :: rest =>
      if first < 0x80 then some (first.toNat, 1)
      else if first < 0xC0 then
        match rest with
        | second :: _ => some (ofBigEndian [first, second] % 0x4000, 2)
        | [] => none
      else
        match rest with
        | second :: third :: fourth :: _ =>
            some (ofBigEndian [first, second, third, fourth] % 0x20000000, 4)
        | _ => none

end CilAssembler
