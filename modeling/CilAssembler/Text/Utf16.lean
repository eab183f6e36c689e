/-! # UTF-16

Text as sequences of 16-bit units. A character beyond the basic plane takes two units, a high and
a low surrogate. Decoding is strict: a surrogate without its partner is refused. -/

namespace CilAssembler.Text

/-- The units of one character. -/
def units (c : Char) : List UInt16 :=
  if c.toNat < 0x10000 then [c.toNat.toUInt16]
  else
    [(0xD800 + (c.toNat - 0x10000) / 0x400).toUInt16,
      (0xDC00 + (c.toNat - 0x10000) % 0x400).toUInt16]

/-- The number of units of a text. -/
def unitCount (text : String) : Nat :=
  text.foldl (fun count c => count + (units c).length) 0

/-- Whether a unit opens a pair. -/
def isHighSurrogate (u : UInt16) : Bool :=
  0xD800 ≤ u && u < 0xDC00

/-- Whether a unit closes a pair. -/
def isLowSurrogate (u : UInt16) : Bool :=
  0xDC00 ≤ u && u < 0xE000

/-- The character that a pair of surrogates stands for. -/
def ofSurrogates (high low : UInt16) : Char :=
  Char.ofNat (0x10000 + (high.toNat - 0xD800) * 0x400 + (low.toNat - 0xDC00))

/-- Appends the text of a sequence of units, if every surrogate has its partner. -/
def decodeUnits (text : String) : List UInt16 → Option String
  | [] => some text
  | u :: rest =>
      if isHighSurrogate u then
        match rest with
        | v :: rest =>
            if isLowSurrogate v then decodeUnits (text.push (ofSurrogates u v)) rest else none
        | [] => none
      else if isLowSurrogate u then none
      else decodeUnits (text.push (Char.ofNat u.toNat)) rest

/-- The text of a sequence of units. -/
def ofUnits? (us : List UInt16) : Option String :=
  decodeUnits "" us

end CilAssembler.Text
