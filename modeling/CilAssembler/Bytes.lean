/-! # Byte order

Numbers as sequences of bytes of a fixed width. Reading undoes writing for every number that
fits the width. -/

namespace CilAssembler

/-- The `width` low bytes of `n`, least significant first. -/
def littleEndian : Nat → Nat → List UInt8
  | 0, _ => []
  | width + 1, n => UInt8.ofNat n :: littleEndian width (n / 256)

/-- The number whose bytes are given least significant first. -/
def ofLittleEndian : List UInt8 → Nat
  | [] => 0
  | b :: rest => b.toNat + 256 * ofLittleEndian rest

/-- The `width` low bytes of `n`, most significant first. -/
def bigEndian (width n : Nat) : List UInt8 :=
  (littleEndian width n).reverse

/-- The number whose bytes are given most significant first. -/
def ofBigEndian (bytes : List UInt8) : Nat :=
  ofLittleEndian bytes.reverse

/-- The `width` low bytes of the two's complement of `i`, least significant first. -/
def littleEndianInt (width : Nat) (i : Int) : List UInt8 :=
  littleEndian width (i % (Nat.pow 256 width : Nat)).toNat

@[simp]
theorem length_littleEndian (width n : Nat) : (littleEndian width n).length = width := by
  induction width generalizing n with
  | zero => rfl
  | succ width ih => simp [littleEndian, ih]

@[simp]
theorem length_bigEndian (width n : Nat) : (bigEndian width n).length = width := by
  simp [bigEndian]

@[simp]
theorem length_littleEndianInt (width : Nat) (i : Int) :
    (littleEndianInt width i).length = width := by
  simp [littleEndianInt]

/-- Reading the written bytes gives back the number modulo the capacity of the width. -/
theorem ofLittleEndian_littleEndian (width n : Nat) :
    ofLittleEndian (littleEndian width n) = n % Nat.pow 256 width := by
  induction width generalizing n with
  | zero => simp [littleEndian, ofLittleEndian, Nat.mod_one]
  | succ width ih =>
      simp only [littleEndian, ofLittleEndian, ih, UInt8.toNat_ofNat', Nat.pow_eq]
      rw [Nat.pow_succ' (n := width), Nat.mod_mul]

end CilAssembler
