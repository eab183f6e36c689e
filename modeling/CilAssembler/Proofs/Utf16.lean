import CilAssembler.Text.Utf16
import Mathlib.Algebra.Ring.Nat

/-! # Decoding undoes encoding

Every character takes one unit outside the surrogates or a pair of them, so the units of a text
decode to the text. -/

namespace CilAssembler.Text

/-- The units of a text. -/
def unitsOf (text : String) : List UInt16 :=
  text.toList.flatMap units

theorem unitCount_eq_length (text : String) : unitCount text = (unitsOf text).length := by
  have hfold : ∀ (cs : List Char) (count : Nat),
      cs.foldl (fun count c => count + (units c).length) count =
        count + (cs.flatMap units).length := by
    intro cs
    induction cs with
    | nil => simp
    | cons c cs ih =>
        intro count
        simp only [List.foldl_cons, ih, List.flatMap_cons, List.length_append, Nat.add_assoc]
  rw [unitCount, String.foldl_eq_foldl_toList, hfold, Nat.zero_add]
  rfl

/-! ## One character -/

theorem toNat_toUInt16_of_lt {n : Nat} (h : n < 2 ^ 16) : n.toUInt16.toNat = n := by
  simp only [Nat.toUInt16_eq, UInt16.toNat_ofNat']
  exact Nat.mod_eq_of_lt h

theorem isHighSurrogate_iff {u : UInt16} :
    isHighSurrogate u = true ↔ 0xD800 ≤ u.toNat ∧ u.toNat < 0xDC00 := by
  simp [isHighSurrogate, UInt16.le_iff_toNat_le, UInt16.lt_iff_toNat_lt]

theorem isLowSurrogate_iff {u : UInt16} :
    isLowSurrogate u = true ↔ 0xDC00 ≤ u.toNat ∧ u.toNat < 0xE000 := by
  simp [isLowSurrogate, UInt16.le_iff_toNat_le, UInt16.lt_iff_toNat_lt]

/-- A character is no surrogate, and there are none beyond the last plane. -/
theorem char_range (c : Char) : c.toNat < 0xD800 ∨ 0xDFFF < c.toNat ∧ c.toNat < 0x110000 :=
  c.valid

theorem decodeUnits_single (text : String) {c : Char} (h : c.toNat < 0x10000)
    (rest : List UInt16) :
    decodeUnits text (c.toNat.toUInt16 :: rest) = decodeUnits (text.push c) rest := by
  have hunit : c.toNat.toUInt16.toNat = c.toNat := toNat_toUInt16_of_lt h
  have hrange := char_range c
  have hhigh : isHighSurrogate c.toNat.toUInt16 = false := by
    rw [Bool.eq_false_iff, ne_eq, isHighSurrogate_iff, hunit]
    omega
  have hlow : isLowSurrogate c.toNat.toUInt16 = false := by
    rw [Bool.eq_false_iff, ne_eq, isLowSurrogate_iff, hunit]
    omega
  rw [decodeUnits.eq_def]
  simp only [hhigh, hlow, hunit, Char.ofNat_toNat, Bool.false_eq_true, if_false]

theorem decodeUnits_pair (text : String) {c : Char} (h : ¬c.toNat < 0x10000)
    (rest : List UInt16) :
    decodeUnits text ((0xD800 + (c.toNat - 0x10000) / 0x400).toUInt16 ::
        (0xDC00 + (c.toNat - 0x10000) % 0x400).toUInt16 :: rest) =
      decodeUnits (text.push c) rest := by
  have hrange := char_range c
  have hhigh : (0xD800 + (c.toNat - 0x10000) / 0x400).toUInt16.toNat =
      0xD800 + (c.toNat - 0x10000) / 0x400 := toNat_toUInt16_of_lt (by omega)
  have hlow : (0xDC00 + (c.toNat - 0x10000) % 0x400).toUInt16.toNat =
      0xDC00 + (c.toNat - 0x10000) % 0x400 := toNat_toUInt16_of_lt (by omega)
  have hopens : isHighSurrogate (0xD800 + (c.toNat - 0x10000) / 0x400).toUInt16 = true := by
    rw [isHighSurrogate_iff, hhigh]
    omega
  have hcloses : isLowSurrogate (0xDC00 + (c.toNat - 0x10000) % 0x400).toUInt16 = true := by
    rw [isLowSurrogate_iff, hlow]
    omega
  have hchar : ofSurrogates (0xD800 + (c.toNat - 0x10000) / 0x400).toUInt16
      (0xDC00 + (c.toNat - 0x10000) % 0x400).toUInt16 = c := by
    have hnumber : 0x10000 + (0xD800 + (c.toNat - 0x10000) / 0x400 - 0xD800) * 0x400 +
        (0xDC00 + (c.toNat - 0x10000) % 0x400 - 0xDC00) = c.toNat := by omega
    rw [ofSurrogates, hhigh, hlow, hnumber, Char.ofNat_toNat]
  rw [decodeUnits, hopens, if_pos rfl]
  simp only [hcloses, if_true, hchar]

theorem decodeUnits_units_append (text : String) (c : Char) (rest : List UInt16) :
    decodeUnits text (units c ++ rest) = decodeUnits (text.push c) rest := by
  unfold units
  by_cases h : c.toNat < 0x10000
  · rw [if_pos h]
    exact decodeUnits_single text h rest
  · rw [if_neg h]
    exact decodeUnits_pair text h rest

/-! ## Texts -/

theorem decodeUnits_flatMap (text : String) (cs : List Char) :
    decodeUnits text (cs.flatMap units) = some (.ofList (text.toList ++ cs)) := by
  induction cs generalizing text with
  | nil => simp [decodeUnits]
  | cons c cs ih =>
      rw [List.flatMap_cons, decodeUnits_units_append, ih, String.toList_push, List.append_assoc]
      rfl

/-- The units of a text decode to the text. -/
theorem ofUnits?_unitsOf (text : String) : ofUnits? (unitsOf text) = some text := by
  rw [ofUnits?, unitsOf, decodeUnits_flatMap]
  simp

end CilAssembler.Text
