import CilAssembler.Proofs.StringHeap

/-! # The forms of a length

A compressed length has three forms, told apart by the highest bits of the first byte. The shortest
form that has room for a length is written, and a reader finds the length and the number of its bytes
whatever comes after them. -/

namespace CilAssembler

/-- A form of a length: so many bytes, of which the lowest bits hold the length and the bits above them
the tag of the form. -/
structure LengthForm where
  width : Nat
  bits : Nat
  tag : Nat

namespace LengthForm

/-- Seven bits in one byte. -/
def single : LengthForm := ⟨1, 7, 0b0⟩

/-- Fourteen bits in two bytes. -/
def double : LengthForm := ⟨2, 14, 0b10⟩

/-- Twenty-nine bits in four bytes. -/
def quadruple : LengthForm := ⟨4, 29, 0b110⟩

/-- The forms there are. -/
def all : List LengthForm :=
  [single, double, quadruple]

/-- The form has room for the length. -/
def Holds (form : LengthForm) (length : Nat) : Prop :=
  length < 2 ^ form.bits

/-- The bytes are the length in this form, most significant byte first. -/
structure Spells (form : LengthForm) (length : Nat) (bytes : List UInt8) : Prop where
  width : bytes.length = form.width
  holds : form.Holds length
  value : ofBigEndian bytes = form.tag * 2 ^ form.bits + length

/-- No form with room for the length takes fewer bytes. -/
def Shortest (form : LengthForm) (length : Nat) : Prop :=
  ∀ other ∈ all, other.Holds length → form.width ≤ other.width

variable {form : LengthForm} {length : Nat}

/-- A tag and a length that fit the bytes together are the length in this form. -/
theorem Holds.spells (h : form.Holds length)
    (hcapacity : (form.tag + 1) * 2 ^ form.bits ≤ 256 ^ form.width) :
    form.Spells length (bigEndian form.width (form.tag * 2 ^ form.bits + length)) := by
  refine ⟨length_bigEndian _ _, h, ?_⟩
  rw [Holds] at h
  rw [Nat.add_mul, Nat.one_mul] at hcapacity
  rw [ofBigEndian_bigEndian, Nat.mod_eq_of_lt (by omega)]

/-- A form is the shortest if the narrower ones have no room. -/
theorem shortest_of_narrower
    (h : ∀ other ∈ all, other.width < form.width → 2 ^ other.bits ≤ length) :
    form.Shortest length := by
  intro other hother hholds
  by_contra hnarrow
  exact Nat.not_lt.mpr (h other hother (Nat.lt_of_not_le hnarrow)) hholds

end LengthForm

/-! ## Writing -/

/-- What is written is the shortest form of the length. -/
theorem exists_shortest_form {length : Nat} {header : List UInt8}
    (h : compressedLength? length = some header) :
    ∃ form ∈ LengthForm.all, form.Spells length header ∧ form.Shortest length := by
  unfold compressedLength? at h
  split at h
  · rename_i hsingle
    cases h
    have hholds : LengthForm.single.Holds length := hsingle
    refine ⟨.single, by simp [LengthForm.all], ?_, LengthForm.shortest_of_narrower ?_⟩
    · have hspells := hholds.spells (by decide)
      rwa [LengthForm.single, Nat.zero_mul, Nat.zero_add] at hspells
    · simp [LengthForm.all, LengthForm.single, LengthForm.double, LengthForm.quadruple]
  · rename_i hsingle
    split at h
    · rename_i hdouble
      cases h
      have hholds : LengthForm.double.Holds length := hdouble
      refine ⟨.double, by simp [LengthForm.all], hholds.spells (by decide),
        LengthForm.shortest_of_narrower ?_⟩
      simpa [LengthForm.all, LengthForm.single, LengthForm.double, LengthForm.quadruple] using hsingle
    · rename_i hdouble
      split at h
      · rename_i hquadruple
        cases h
        have hholds : LengthForm.quadruple.Holds length := hquadruple
        have hlarge : 128 ≤ length ∧ 16384 ≤ length := by omega
        refine ⟨.quadruple, by simp [LengthForm.all], hholds.spells (by decide),
          LengthForm.shortest_of_narrower ?_⟩
        simpa [LengthForm.all, LengthForm.single, LengthForm.double, LengthForm.quadruple] using hlarge
      · cases h

namespace StringHeap

/-- A heap that takes a new text writes the length of its entry after the bytes it has. -/
theorem bytes_intern_of_new {h : StringHeap} {text : String} {header : List UInt8}
    (hnew : h.offsets[text]? = none) (hroom : h.bytes.size ≤ heapCapacity)
    (hheader : compressedLength? (entryLength text) = some header) :
    (h.intern text).2.bytes.toList =
      h.bytes.toList ++ header ++ (unitBytes (Text.unitsOf text) ++ [flag text]) := by
  simp [intern, hnew, Nat.not_lt.mpr hroom, hheader, toList_appendUnits]

/-- A heap does not change over a text whose length cannot be written. -/
theorem intern_of_too_long {h : StringHeap} {text : String}
    (hlong : compressedLength? (entryLength text) = none) : (h.intern text).2 = h := by
  rcases h.intern_cases text with ⟨_, _, hresult⟩ | ⟨_, _, hresult⟩ | ⟨_, _, _, hheader, _⟩
  · rw [hresult]
  · rw [hresult]
  · rw [hlong] at hheader
    cases hheader

end StringHeap

/-- A length can be written exactly if it is below `0x20000000`. It is written in the fewest bytes that
have room for it, and whatever follows them, exactly this length and the number of its bytes are read.
A heap has them after its own bytes once it takes a text of that length. If a length cannot be
written, nothing is. -/
theorem length_written_shortest_and_read_back (length : Nat) :
    ((∃ header, compressedLength? length = some header) ↔ length < 0x20000000) ∧
    (∀ header, compressedLength? length = some header →
      (∃ form ∈ LengthForm.all, form.Spells length header ∧ form.Shortest length) ∧
      (∀ rest, readCompressedLength? (header ++ rest) = some (length, header.length)) ∧
      ∀ (heap : StringHeap) (text : String), StringHeap.entryLength text = length →
        heap.offsets[text]? = none → heap.bytes.size ≤ heapCapacity →
        ∃ rest, (heap.intern text).2.bytes.toList = heap.bytes.toList ++ header ++ rest) ∧
    (compressedLength? length = none →
      ∀ (heap : StringHeap) (text : String), StringHeap.entryLength text = length →
        (heap.intern text).2 = heap) := by
  refine ⟨?_, fun header hheader => ⟨exists_shortest_form hheader, ?_, ?_⟩, ?_⟩
  · rw [← Option.isSome_iff_exists, Option.isSome_iff_ne_none, ne_eq,
      StringHeap.compressedLength?_eq_none, Nat.not_le]
    exact Iff.rfl
  · exact readCompressedLength?_append hheader
  · rintro heap text rfl hnew hroom
    exact ⟨_, StringHeap.bytes_intern_of_new hnew hroom hheader⟩
  · rintro hnone heap text rfl
    exact StringHeap.intern_of_too_long hnone

/-- The last length in two bytes and the first in four. -/
example : compressedLength? 0x3FFF = some [0xBF, 0xFF] ∧
    compressedLength? 0x4000 = some [0xC0, 0x00, 0x40, 0x00] := by
  decide

end CilAssembler
