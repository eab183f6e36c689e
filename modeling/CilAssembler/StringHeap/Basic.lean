import CilAssembler.Error
import CilAssembler.StringHeap.CompressedLength
import CilAssembler.Text.Utf16
import Std.Data.HashMap

/-! # User strings

The heap of string literals. The heap starts with a zero byte; each entry is a compressed length,
the UTF-16 units of the text and a flag byte. A text is entered once, and its token holds the
offset of its entry. -/

namespace CilAssembler

/-- The bytes of the entries, and the offset of each text. -/
structure StringHeap where
  bytes : Array UInt8
  offsets : Std.HashMap String UInt32

namespace StringHeap

/-- The heap without texts. -/
def empty : StringHeap := ⟨#[0], ∅⟩

/-- The number of texts. -/
def size (h : StringHeap) : Nat :=
  h.offsets.size

/-- Whether there are no texts. -/
def isEmpty (h : StringHeap) : Bool :=
  h.offsets.isEmpty

/-- Whether a unit needs more than plain comparison of bytes. -/
def isSpecialUnit (u : UInt16) : Bool :=
  0xFF < u || (0x01 ≤ u && u ≤ 0x08) || (0x0E ≤ u && u ≤ 0x1F) || u == 0x27 || u == 0x2D ||
    u == 0x7F

/-- The flag byte of a text: one if some unit is special. -/
def flag (text : String) : UInt8 :=
  if text.foldl (fun special c => special || (Text.units c).any isSpecialUnit) false then 1 else 0

/-- Appends the units of a text, least significant byte first. -/
def appendUnits (bytes : Array UInt8) (text : String) : Array UInt8 :=
  text.foldl (fun bytes c =>
    (Text.units c).foldl (fun bytes u => bytes ++ littleEndian 2 u.toNat) bytes) bytes

/-- The token of the entry at an offset. -/
def token (offset : UInt32) : Token :=
  Token.ofParts Token.userStringTable offset

/-- The number of bytes of an entry after its length. -/
def entryLength (text : String) : Nat :=
  Text.unitCount text * 2 + 1

/-- The token of a text. A text that is not there yet is entered at the end of the heap, provided
that its offset fits a token and its length can be written. -/
def intern (h : StringHeap) (text : String) : Except Error Token × StringHeap :=
  match h.offsets[text]? with
  | some offset => (.ok (token offset), h)
  | none =>
      if h.bytes.size > heapCapacity then
        (.error (.malformed .heapFull), h)
      else
        match compressedLength? (entryLength text) with
        | none => (.error (.malformed (.stringTooLong (entryLength text))), h)
        | some header =>
            let offset := h.bytes.size.toUInt32
            (.ok (token offset),
              { bytes := (appendUnits (h.bytes ++ header) text).push (flag text)
                offsets := h.offsets.insert text offset })

/-- The units in the `count` pairs of bytes from `start`, followed by `tail`. -/
def unitsFrom (bytes : Array UInt8) (start : Nat) : Nat → List UInt16 → List UInt16
  | 0, tail => tail
  | count + 1, tail =>
      let first := start + 2 * count
      let unit := ofLittleEndian (bytes.extract first (first + 2)).toList
      unitsFrom bytes start count (unit.toUInt16 :: tail)

/-- The text whose entry is at the offset that a token names. -/
def get? (h : StringHeap) (t : Token) : Option String :=
  if t.isUserString then
    let offset := t.row.toNat
    match readCompressedLength? (h.bytes.extract offset (offset + 4)).toList with
    | some (length + 1, header) =>
        let start := offset + header
        if start + length ≤ h.bytes.size then
          Text.ofUnits? (unitsFrom h.bytes start (length / 2) [])
        else none
    | _ => none
  else none

end StringHeap

end CilAssembler
