import CilAssembler.Proofs.Utf16
import CilAssembler.StringHeap.Basic
import Mathlib.Data.List.Induction

/-! # Interned texts can be read back

The bytes of a heap are the entries of the texts that were entered, one after the other. A token
holds the offset of an entry, and reading the entry gives back its text. -/

namespace CilAssembler

/-! ## Compressed lengths -/

theorem ofBigEndian_bigEndian (width n : Nat) :
    ofBigEndian (bigEndian width n) = n % 256 ^ width := by
  simp [ofBigEndian, bigEndian, ofLittleEndian_littleEndian]

theorem bigEndian_one (n : Nat) : bigEndian 1 n = [UInt8.ofNat n] := rfl

theorem bigEndian_two (n : Nat) : bigEndian 2 n = [UInt8.ofNat (n / 256), UInt8.ofNat n] := rfl

theorem bigEndian_four (n : Nat) :
    bigEndian 4 n = [UInt8.ofNat (n / 256 / 256 / 256), UInt8.ofNat (n / 256 / 256),
      UInt8.ofNat (n / 256), UInt8.ofNat n] := rfl

/-- A compressed length is read back whatever follows it. -/
theorem readCompressedLength?_append {length : Nat} {header : List UInt8}
    (h : compressedLength? length = some header) (rest : List UInt8) :
    readCompressedLength? (header ++ rest) = some (length, header.length) := by
  unfold compressedLength? at h
  split at h
  · rename_i hlt
    cases h
    have hfirst : UInt8.ofNat length < 0x80 := by
      rw [UInt8.lt_iff_toNat_lt, UInt8.toNat_ofNat']
      simp only [UInt8.reduceToNat]
      omega
    have hvalue : (UInt8.ofNat length).toNat = length := by
      rw [UInt8.toNat_ofNat']
      omega
    simp [bigEndian_one, readCompressedLength?, hfirst, hvalue]
  · split at h
    · rename_i hlt
      cases h
      have hvalue := ofBigEndian_bigEndian 2 (0x8000 + length)
      have hfirst : ¬UInt8.ofNat ((0x8000 + length) / 256) < 0x80 := by
        rw [UInt8.lt_iff_toNat_lt, UInt8.toNat_ofNat']
        simp only [UInt8.reduceToNat]
        omega
      have hsecond : UInt8.ofNat ((0x8000 + length) / 256) < 0xC0 := by
        rw [UInt8.lt_iff_toNat_lt, UInt8.toNat_ofNat']
        simp only [UInt8.reduceToNat]
        omega
      have hlength : (0x8000 + length) % 256 ^ 2 % 0x4000 = length := by omega
      rw [bigEndian_two] at hvalue ⊢
      simp only [List.cons_append, List.nil_append, readCompressedLength?, hfirst, hsecond, if_false,
        if_true, hvalue, hlength]
      rfl
    · split at h
      · rename_i hlt
        cases h
        have hvalue := ofBigEndian_bigEndian 4 (0xC0000000 + length)
        have hfirst : ¬UInt8.ofNat ((0xC0000000 + length) / 256 / 256 / 256) < 0x80 := by
          rw [UInt8.lt_iff_toNat_lt, UInt8.toNat_ofNat']
          simp only [UInt8.reduceToNat]
          omega
        have hsecond : ¬UInt8.ofNat ((0xC0000000 + length) / 256 / 256 / 256) < 0xC0 := by
          rw [UInt8.lt_iff_toNat_lt, UInt8.toNat_ofNat']
          simp only [UInt8.reduceToNat]
          omega
        have hlength : (0xC0000000 + length) % 256 ^ 4 % 0x20000000 = length := by omega
        rw [bigEndian_four] at hvalue ⊢
        simp only [List.cons_append, List.nil_append, readCompressedLength?, hfirst, hsecond, if_false,
          hvalue, hlength]
        rfl
      · cases h

theorem length_compressedLength?_le {length : Nat} {header : List UInt8}
    (h : compressedLength? length = some header) : header.length ≤ 4 := by
  unfold compressedLength? at h
  split at h
  · cases h
    simp
  · split at h
    · cases h
      simp
    · split at h
      · cases h
        simp
      · cases h

namespace StringHeap

/-! ## Tokens -/

theorem toNat_token (offset : UInt32) :
    (token offset).value.toNat = 0x70000000 + offset.toNat % 2 ^ 24 := by
  have hrow : offset.toNat % 2 ^ 24 < 2 ^ 24 := Nat.mod_lt _ (by decide)
  have hmask : (0x00FFFFFF : UInt32).toNat = 2 ^ 24 - 1 := rfl
  have htable : (Token.userStringTable.toUInt32 <<< 24).toNat = 2 ^ 24 * 0x70 := rfl
  simp only [token, Token.ofParts, UInt32.toNat_or, UInt32.toNat_and, hmask, htable,
    Nat.and_two_pow_sub_one_eq_mod]
  rw [← Nat.two_pow_add_eq_or_of_lt hrow]

theorem isUserString_token (offset : UInt32) : (token offset).isUserString = true := by
  have hrow : offset.toNat % 2 ^ 24 < 2 ^ 24 := Nat.mod_lt _ (by decide)
  have htable : (token offset).table = Token.userStringTable := by
    have hnumber : Token.userStringTable.toNat = 0x70 := rfl
    apply UInt8.toNat_inj.mp
    simp only [Token.table, UInt32.toNat_toUInt8, UInt32.toNat_shiftRight, toNat_token,
      UInt32.reduceToNat, Nat.reduceMod, Nat.shiftRight_eq_div_pow, hnumber]
    omega
  rw [Token.isUserString, htable]
  rfl

theorem row_token {offset : UInt32} (h : offset.toNat ≤ heapCapacity) : (token offset).row = offset := by
  have hrow : offset.toNat < 2 ^ 24 := Nat.lt_of_le_of_lt h (by decide)
  have hmask : (0x00FFFFFF : UInt32).toNat = 2 ^ 24 - 1 := rfl
  apply UInt32.toNat_inj.mp
  simp only [Token.row, UInt32.toNat_and, hmask, Nat.and_two_pow_sub_one_eq_mod, toNat_token]
  omega

theorem toNat_toUInt32_of_le {n : Nat} (h : n ≤ heapCapacity) : n.toUInt32.toNat = n := by
  simp only [Nat.toUInt32_eq, UInt32.toNat_ofNat']
  exact Nat.mod_eq_of_lt (Nat.lt_of_le_of_lt h (by decide))

/-! ## Entries -/

/-- The units of a text as bytes, least significant byte first. -/
def unitBytes (us : List UInt16) : List UInt8 :=
  us.flatMap fun u => littleEndian 2 u.toNat

@[simp] theorem length_unitBytes (us : List UInt16) : (unitBytes us).length = 2 * us.length := by
  induction us with
  | nil => rfl
  | cons u us ih =>
      have hcons : unitBytes (u :: us) = littleEndian 2 u.toNat ++ unitBytes us := rfl
      rw [hcons, List.length_append, ih, length_littleEndian, List.length_cons]
      omega

theorem unitBytes_append (us vs : List UInt16) : unitBytes (us ++ vs) = unitBytes us ++ unitBytes vs :=
  List.flatMap_append

/-- The entry of a text: the compressed length, the units and the flag. -/
def entry (text : String) : List UInt8 :=
  (compressedLength? (entryLength text)).getD [] ++ (unitBytes (Text.unitsOf text) ++ [flag text])

theorem entryLength_eq (text : String) : entryLength text = 2 * (Text.unitsOf text).length + 1 := by
  rw [entryLength, Text.unitCount_eq_length, Nat.mul_comm]

theorem entry_eq {text : String} {header : List UInt8}
    (h : compressedLength? (entryLength text) = some header) :
    entry text = header ++ (unitBytes (Text.unitsOf text) ++ [flag text]) := by
  simp [entry, h]

theorem toList_appendUnits (bytes : Array UInt8) (text : String) :
    (appendUnits bytes text).toList = bytes.toList ++ unitBytes (Text.unitsOf text) := by
  have hunits : ∀ (us : List UInt16) (bytes : Array UInt8),
      (us.foldl (fun (bytes : Array UInt8) u => bytes ++ littleEndian 2 u.toNat) bytes).toList =
        bytes.toList ++ unitBytes us := by
    intro us bytes
    induction us generalizing bytes with
    | nil => simp [unitBytes]
    | cons u us ih =>
        rw [List.foldl_cons, ih]
        simp [unitBytes]
  have hchars : ∀ (cs : List Char) (bytes : Array UInt8),
      (cs.foldl (fun (bytes : Array UInt8) c =>
        (Text.units c).foldl (fun bytes u => bytes ++ littleEndian 2 u.toNat) bytes) bytes).toList =
        bytes.toList ++ unitBytes (cs.flatMap Text.units) := by
    intro cs bytes
    induction cs generalizing bytes with
    | nil => simp [unitBytes]
    | cons c cs ih =>
        rw [List.foldl_cons, ih, hunits, List.flatMap_cons, unitBytes_append, List.append_assoc]
  rw [appendUnits, String.foldl_eq_foldl_toList, hchars]
  rfl

theorem toList_extract_of_drop {bytes : Array UInt8} {start : Nat} {xs rest : List UInt8}
    (h : bytes.toList.drop start = xs ++ rest) (first count : Nat) (hle : first + count ≤ xs.length) :
    (bytes.extract (start + first) (start + first + count)).toList = (xs.drop first).take count := by
  rw [Array.toList_extract, List.extract_eq_take_drop, ← List.drop_drop, h,
    List.drop_append_of_le_length (by omega), Nat.add_sub_cancel_left,
    List.take_append_of_le_length (by rw [List.length_drop]; omega)]

/-- Reading pairs of bytes from the back gives the units that were written. -/
theorem unitsFrom_eq {bytes : Array UInt8} {start : Nat} {us : List UInt16} {rest : List UInt8}
    (h : bytes.toList.drop start = unitBytes us ++ rest) (tail : List UInt16) :
    unitsFrom bytes start us.length tail = us ++ tail := by
  induction us using List.reverseRecOn generalizing rest tail with
  | nil => rfl
  | append_singleton us u ih =>
      have hbytes : (bytes.extract (start + 2 * us.length) (start + 2 * us.length + 2)).toList =
          littleEndian 2 u.toNat := by
        rw [toList_extract_of_drop h _ _ (by simp; omega), unitBytes_append,
          List.drop_append_of_le_length (by simp), List.drop_of_length_le (by simp)]
        simp [unitBytes, List.take_of_length_le]
      have hunit : (u.toNat % Nat.pow 256 2).toUInt16 = u := by
        have hlt : u.toNat < Nat.pow 256 2 := u.toNat_lt
        rw [Nat.mod_eq_of_lt hlt]
        simp
      rw [List.length_append, List.length_singleton, unitsFrom]
      simp only [hbytes, ofLittleEndian_littleEndian, hunit]
      rw [unitBytes_append, List.append_assoc] at h
      rw [ih h, List.append_assoc]
      rfl

/-! ## Heaps -/

/-- The heap has the entries of these texts, in order, and knows the offset of each text that it
knows an offset of. -/
structure Holds (h : StringHeap) (texts : List String) : Prop where
  bytes : h.bytes.toList = 0 :: texts.flatMap entry
  writable : ∀ text ∈ texts, ∃ header, compressedLength? (entryLength text) = some header
  located : ∀ (text : String) (offset : UInt32), h.offsets[text]? = some offset →
    offset.toNat ≤ heapCapacity ∧ ∃ before after, texts = before ++ text :: after ∧
      offset.toNat = 1 + (before.flatMap entry).length

theorem holds_empty : empty.Holds [] := by
  refine ⟨rfl, nofun, ?_⟩
  intro text offset h
  simp [empty] at h

theorem Holds.size_bytes {h : StringHeap} {texts : List String} (hh : h.Holds texts) :
    h.bytes.size = 1 + (texts.flatMap entry).length := by
  rw [← Array.length_toList, hh.bytes, List.length_cons, Nat.add_comm]

/-- Why the heap refuses a text that it does not know: there is no offset left for it, or its length
cannot be written. -/
inductive Overfull (h : StringHeap) (text : String) : Malformation → Prop where
  | heapFull (hnew : h.offsets[text]? = none) (hfull : heapCapacity < h.bytes.size) :
      Overfull h text .heapFull
  | stringTooLong (hnew : h.offsets[text]? = none) (hroom : h.bytes.size ≤ heapCapacity)
      (hlong : 2 ^ 29 ≤ entryLength text) : Overfull h text (.stringTooLong (entryLength text))

theorem compressedLength?_eq_none {length : Nat} :
    compressedLength? length = none ↔ 2 ^ 29 ≤ length := by
  unfold compressedLength?
  constructor
  · intro h
    split at h
    · cases h
    · split at h
      · cases h
      · split at h
        · cases h
        · omega
  · intro h
    rw [if_neg (by omega), if_neg (by omega), if_neg (by omega)]

/-- The ways in which interning can go: it is refused, the text is known, or it is new. -/
theorem intern_cases (h : StringHeap) (text : String) :
    (∃ cause, h.Overfull text cause ∧ h.intern text = (.error (.malformed cause), h)) ∨
    (∃ offset, h.offsets[text]? = some offset ∧ h.intern text = (.ok (token offset), h)) ∨
    (∃ header, h.offsets[text]? = none ∧ h.bytes.size ≤ heapCapacity ∧
      compressedLength? (entryLength text) = some header ∧
      h.intern text = (.ok (token h.bytes.size.toUInt32),
        ⟨(appendUnits (h.bytes ++ header) text).push (flag text),
          h.offsets.insert text h.bytes.size.toUInt32⟩)) := by
  unfold intern
  cases hoffset : h.offsets[text]? with
  | some offset => exact .inr (.inl ⟨offset, rfl, rfl⟩)
  | none =>
      by_cases hroom : h.bytes.size > heapCapacity
      · exact .inl ⟨.heapFull, .heapFull hoffset hroom, by simp [hroom]⟩
      · cases hheader : compressedLength? (entryLength text) with
        | none =>
            refine .inl ⟨.stringTooLong (entryLength text), ?_, by simp [hroom]⟩
            exact .stringTooLong hoffset (Nat.le_of_not_lt hroom)
              (compressedLength?_eq_none.mp hheader)
        | some header =>
            exact .inr (.inr ⟨header, rfl, Nat.le_of_not_lt hroom, rfl, by simp [hroom]⟩)

/-- A text that the heap has no room for is refused. -/
theorem Overfull.refused {h : StringHeap} {text : String} {cause : Malformation}
    (hover : h.Overfull text cause) : h.intern text = (.error (.malformed cause), h) := by
  cases hover with
  | heapFull hnew hfull => simp [intern, hnew, hfull]
  | stringTooLong hnew hroom hlong =>
      simp [intern, hnew, Nat.not_lt.mpr hroom, compressedLength?_eq_none.mpr hlong]

/-- Entering a new text adds its entry at the end. -/
theorem Holds.enter {h : StringHeap} {texts : List String} {text : String} {header : List UInt8}
    (hh : h.Holds texts) (hroom : h.bytes.size ≤ heapCapacity)
    (hheader : compressedLength? (entryLength text) = some header) :
    Holds ⟨(appendUnits (h.bytes ++ header) text).push (flag text),
      h.offsets.insert text h.bytes.size.toUInt32⟩ (texts ++ [text]) := by
  have hoffset := toNat_toUInt32_of_le hroom
  refine ⟨?_, ?_, ?_⟩
  · rw [Array.toList_push, toList_appendUnits, Array.toList_appendList, hh.bytes,
      List.flatMap_append, List.flatMap_singleton, entry_eq hheader]
    simp
  · intro other hother
    rcases List.mem_append.mp hother with hold | hnew
    · exact hh.writable other hold
    · rw [List.mem_singleton.mp hnew]
      exact ⟨header, hheader⟩
  · intro other offset hother
    rw [Std.HashMap.getElem?_insert] at hother
    split at hother
    · rename_i heq
      cases hother
      rw [beq_iff_eq.mp heq, hoffset]
      exact ⟨hroom, texts, [], rfl, hh.size_bytes⟩
    · obtain ⟨hle, before, after, rfl, hat⟩ := hh.located other offset hother
      exact ⟨hle, before, after ++ [text], by simp, hat⟩

/-- An accepted text is known afterwards by the offset in its token, and what was known stays. -/
theorem Holds.intern {h : StringHeap} {texts : List String} (hh : h.Holds texts) (text : String) :
    (∃ cause, h.Overfull text cause ∧ h.intern text = (.error (.malformed cause), h)) ∨
    ∃ offset h' texts', h.intern text = (.ok (token offset), h') ∧ h'.Holds texts' ∧
      h'.offsets[text]? = some offset ∧
      ∀ (other : String) (known : UInt32), h.offsets[other]? = some known →
        h'.offsets[other]? = some known := by
  rcases intern_cases h text with hrefused | ⟨offset, hknown, heq⟩ | ⟨header, hnone, hroom, hheader, heq⟩
  · exact .inl hrefused
  · exact .inr ⟨offset, h, texts, heq, hh, hknown, fun _ _ hother => hother⟩
  · refine .inr ⟨_, _, _, heq, hh.enter hroom hheader, Std.HashMap.getElem?_insert_self, ?_⟩
    intro other known hother
    rw [Std.HashMap.getElem?_insert, if_neg, hother]
    intro hsame
    rw [beq_iff_eq.mp hsame, hother] at hnone
    cases hnone

/-- The token of a known text reads back as the text. -/
theorem Holds.get?_token {h : StringHeap} {texts : List String} (hh : h.Holds texts) {text : String}
    {offset : UInt32} (hknown : h.offsets[text]? = some offset) :
    h.get? (token offset) = some text := by
  obtain ⟨hle, before, after, rfl, hat⟩ := hh.located text offset hknown
  obtain ⟨header, hheader⟩ := hh.writable text (by simp)
  have hdrop : h.bytes.toList.drop offset.toNat =
      header ++ (unitBytes (Text.unitsOf text) ++ ([flag text] ++ after.flatMap entry)) := by
    rw [hh.bytes, hat, Nat.add_comm 1, List.drop_succ_cons, List.flatMap_append, List.flatMap_cons,
      List.drop_left, entry_eq hheader, List.append_assoc, List.append_assoc]
  have hread : readCompressedLength? (h.bytes.extract offset.toNat (offset.toNat + 4)).toList =
      some (2 * (Text.unitsOf text).length + 1, header.length) := by
    rw [Array.toList_extract, List.extract_eq_take_drop, hdrop, Nat.add_sub_cancel_left,
      List.take_append, List.take_of_length_le (length_compressedLength?_le hheader),
      readCompressedLength?_append hheader, entryLength_eq]
  have hrest : h.bytes.toList.drop (offset.toNat + header.length) =
      unitBytes (Text.unitsOf text) ++ ([flag text] ++ after.flatMap entry) := by
    rw [← List.drop_drop, hdrop, List.drop_left]
  have hroom : offset.toNat + header.length + 2 * (Text.unitsOf text).length ≤ h.bytes.size := by
    have hlen := congrArg List.length hrest
    rw [List.length_drop, Array.length_toList] at hlen
    simp at hlen
    omega
  unfold get?
  rw [if_pos (isUserString_token offset), row_token hle]
  simp only [hread, hroom, if_true, Nat.mul_div_right _ (Nat.zero_lt_two)]
  rw [unitsFrom_eq hrest, List.append_nil, Text.ofUnits?_unitsOf]

end StringHeap

end CilAssembler
