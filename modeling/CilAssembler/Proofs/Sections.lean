import CilAssembler.ExceptionClause
import Mathlib.Algebra.Ring.Nat
import Mathlib.Data.List.Forall2

/-! # Exception sections

Both layouts write the same six values of a clause after a header of four bytes, and differ only in
the number of bytes that each value gets. The small layout is taken only if all values have room, so
a section tells everything about its clauses that either layout can hold. The size in its header is
right as long as three bytes can hold it. -/

namespace CilAssembler

/-! ## Values of fixed widths -/

theorem littleEndian_inj {width m n : Nat} (hm : m < 256 ^ width) (hn : n < 256 ^ width)
    (h : littleEndian width m = littleEndian width n) : m = n := by
  have hread := congrArg ofLittleEndian h
  rw [ofLittleEndian_littleEndian, ofLittleEndian_littleEndian, Nat.pow_eq, Nat.mod_eq_of_lt hm,
    Nat.mod_eq_of_lt hn] at hread
  exact hread

/-- Values one after the other, each in as many bytes as its width says. -/
def packed (widths values : List Nat) : List UInt8 :=
  (List.zipWith littleEndian widths values).flatten

/-- Every value has room in its width. -/
abbrev HasRoom (widths values : List Nat) : Prop :=
  List.Forall₂ (fun width value => value < 256 ^ width) widths values

theorem packed_append_inj {widths values values' : List Nat} {xs ys : List UInt8}
    (hroom : HasRoom widths values) (hroom' : HasRoom widths values')
    (h : packed widths values ++ xs = packed widths values' ++ ys) : values = values' ∧ xs = ys := by
  induction hroom generalizing values' with
  | nil =>
      cases hroom'
      exact ⟨rfl, h⟩
  | @cons width value widths values hvalue _ ih =>
      cases hroom' with
      | @cons _ value' _ values' hvalue' hrest =>
          simp only [packed, List.zipWith_cons_cons, List.flatten_cons, List.append_assoc] at h
          obtain ⟨hbytes, htail⟩ := List.append_inj h (by simp)
          obtain ⟨rfl, hxs⟩ := ih hrest htail
          exact ⟨by rw [littleEndian_inj hvalue hvalue' hbytes], hxs⟩

/-! ## Clauses -/

namespace ExceptionClause

/-- What is written of a clause, in this order. -/
def values (c : ExceptionClause) : List Nat :=
  [c.flags.toNat, c.tryOffset.toNat, c.tryLength.toNat, c.handlerOffset.toNat,
    c.handlerLength.toNat, c.classOrFilter.toNat]

/-- The clauses have the same flags and the same blocks, and catch the same class or have the same
filter. -/
structure SameEntry (c d : ExceptionClause) : Prop where
  flags : c.flags = d.flags
  tryOffset : c.tryOffset = d.tryOffset
  tryLength : c.tryLength = d.tryLength
  handlerOffset : c.handlerOffset = d.handlerOffset
  handlerLength : c.handlerLength = d.handlerLength
  classOrFilter : c.classOrFilter = d.classOrFilter

theorem values_eq_iff {c d : ExceptionClause} : c.values = d.values ↔ c.SameEntry d := by
  constructor
  · intro h
    simp only [values, List.cons.injEq, UInt16.toNat_inj, UInt32.toNat_inj, and_true] at h
    obtain ⟨hflags, htryOffset, htryLength, hhandlerOffset, hhandlerLength, hlast⟩ := h
    exact ⟨hflags, htryOffset, htryLength, hhandlerOffset, hhandlerLength, hlast⟩
  · rintro ⟨hflags, htryOffset, htryLength, hhandlerOffset, hhandlerLength, hlast⟩
    simp only [values, hflags, htryOffset, htryLength, hhandlerOffset, hhandlerLength, hlast]

theorem SameEntry.isSmall_eq {c d : ExceptionClause} (h : c.SameEntry d) : c.isSmall = d.isSmall := by
  rw [isSmall, isSmall, h.tryOffset, h.tryLength, h.handlerOffset, h.handlerLength]

end ExceptionClause

/-! ## Layouts -/

/-- How the clauses of a section are laid out. -/
inductive SectionLayout where
  | small
  | fat
  deriving DecidableEq

namespace SectionLayout

/-- The byte that a section begins with. -/
def lead : SectionLayout → UInt8
  | .small => 0x01
  | .fat => 0x41

/-- The number of bytes of the size in the header. -/
def sizeWidth : SectionLayout → Nat
  | .small => 1
  | .fat => 3

/-- What fills up the header. -/
def padding : SectionLayout → List UInt8
  | .small => [0, 0]
  | .fat => []

/-- The number of bytes of each value of a clause. -/
def widths : SectionLayout → List Nat
  | .small => [2, 2, 1, 2, 1, 4]
  | .fat => [4, 4, 4, 4, 4, 4]

/-- The number of bytes of a clause. -/
def entrySize : SectionLayout → Nat
  | .small => 12
  | .fat => 24

/-- The size of a section of `count` clauses. -/
def size (layout : SectionLayout) (count : Nat) : Nat :=
  count * layout.entrySize + 4

/-- The clause in this layout. -/
def entry (layout : SectionLayout) (c : ExceptionClause) : List UInt8 :=
  packed layout.widths c.values

/-- The section of some clauses in this layout. -/
def bytes (layout : SectionLayout) (clauses : List ExceptionClause) : List UInt8 :=
  layout.lead :: littleEndian layout.sizeWidth (layout.size clauses.length) ++ layout.padding ++
    clauses.flatMap layout.entry

/-- The layout that is taken for some clauses. -/
def choose (clauses : List ExceptionClause) : SectionLayout :=
  if smallSectionSize clauses.length ≤ 0xFF && clauses.all (·.isSmall) then .small else .fat

theorem lead_injective : Function.Injective lead := by
  intro a b
  cases a <;> cases b <;> simp [lead]

theorem entry_small (c : ExceptionClause) : entry .small c = c.smallBytes := by
  simp [entry, packed, widths, ExceptionClause.values, ExceptionClause.smallBytes]

theorem entry_fat (c : ExceptionClause) : entry .fat c = c.fatBytes := by
  simp [entry, packed, widths, ExceptionClause.values, ExceptionClause.fatBytes]

/-- A section is made of its clauses in the layout that is taken for them. -/
theorem exceptionSection_eq {clauses : List ExceptionClause} (h : clauses ≠ []) :
    exceptionSection clauses = (choose clauses).bytes clauses := by
  have hempty : clauses.isEmpty = false := by simpa using h
  unfold exceptionSection choose
  rw [if_neg (by simp [hempty])]
  split
  · simp only [bytes, lead, sizeWidth, padding, funext entry_small]
    rfl
  · simp only [bytes, lead, sizeWidth, padding, funext entry_fat, List.append_nil]
    rfl

/-! ### Sizes -/

theorem length_entry (layout : SectionLayout) (c : ExceptionClause) :
    (layout.entry c).length = layout.entrySize := by
  cases layout with
  | small => simp [entry_small, ExceptionClause.smallBytes, entrySize]
  | fat => simp [entry_fat, ExceptionClause.fatBytes, entrySize]

theorem length_flatMap_entry (layout : SectionLayout) (clauses : List ExceptionClause) :
    (clauses.flatMap layout.entry).length = clauses.length * layout.entrySize := by
  induction clauses with
  | nil => simp
  | cons c clauses ih =>
      rw [List.flatMap_cons, List.length_append, ih, length_entry, List.length_cons, Nat.succ_mul,
        Nat.add_comm]

@[simp] theorem length_bytes (layout : SectionLayout) (clauses : List ExceptionClause) :
    (layout.bytes clauses).length = layout.size clauses.length := by
  have hheader : 1 + layout.sizeWidth + layout.padding.length = 4 := by cases layout <;> rfl
  simp only [bytes, List.length_append, List.length_cons, length_littleEndian,
    length_flatMap_entry, size]
  omega

/-- The small layout is taken only for sections whose size one byte can hold. -/
theorem size_choose_of_small {clauses : List ExceptionClause} (h : choose clauses = .small) :
    size .small clauses.length ≤ 0xFF := by
  unfold choose at h
  split at h
  · rename_i hsmall
    simp only [Bool.and_eq_true, decide_eq_true_eq] at hsmall
    exact hsmall.1
  · cases h

theorem choose_eq_fat {clauses : List ExceptionClause} (h : 20 < clauses.length) :
    choose clauses = .fat := by
  cases hlayout : choose clauses with
  | fat => rfl
  | small =>
      have hsize := size_choose_of_small hlayout
      simp only [size, entrySize] at hsize
      omega

/-! ### Clauses can be told from their sections -/

/-- Every value of a clause has room in the layout that is taken. -/
theorem hasRoom {clauses : List ExceptionClause} {c : ExceptionClause} (hc : c ∈ clauses) :
    HasRoom (choose clauses).widths c.values := by
  have hflags := c.flags.toNat_lt
  have hlast := c.classOrFilter.toNat_lt
  cases hlayout : choose clauses with
  | small =>
      have hsmall : c.isSmall = true := by
        unfold choose at hlayout
        split at hlayout
        · rename_i hall
          simp only [Bool.and_eq_true, List.all_eq_true] at hall
          exact hall.2 c hc
        · cases hlayout
      simp only [ExceptionClause.isSmall, Bool.and_eq_true, decide_eq_true_eq,
        UInt32.le_iff_toNat_le, UInt32.reduceToNat] at hsmall
      simp only [HasRoom, widths, ExceptionClause.values, List.forall₂_cons, List.Forall₂.nil,
        and_true]
      omega
  | fat =>
      have htryOffset := c.tryOffset.toNat_lt
      have htryLength := c.tryLength.toNat_lt
      have hhandlerOffset := c.handlerOffset.toNat_lt
      have hhandlerLength := c.handlerLength.toNat_lt
      simp only [HasRoom, widths, ExceptionClause.values, List.forall₂_cons, List.Forall₂.nil,
        and_true]
      omega

/-- As many clauses with the same bytes are the same entries, if all their values have room. -/
theorem sameEntry_of_flatMap_entry {layout : SectionLayout} {cs ds : List ExceptionClause}
    (hcs : ∀ c ∈ cs, HasRoom layout.widths c.values) (hds : ∀ d ∈ ds, HasRoom layout.widths d.values)
    (hlength : cs.length = ds.length) (h : cs.flatMap layout.entry = ds.flatMap layout.entry) :
    List.Forall₂ ExceptionClause.SameEntry cs ds := by
  induction cs generalizing ds with
  | nil =>
      obtain rfl : ds = [] := List.length_eq_zero_iff.mp hlength.symm
      exact .nil
  | cons c cs ih =>
      cases ds with
      | nil => cases hlength
      | cons d ds =>
          rw [List.flatMap_cons, List.flatMap_cons] at h
          obtain ⟨hvalues, hrest⟩ := packed_append_inj (hcs c List.mem_cons_self)
            (hds d List.mem_cons_self) h
          refine .cons (ExceptionClause.values_eq_iff.mp hvalues) (ih ?_ ?_ ?_ hrest)
          · exact fun c hc => hcs c (List.mem_cons_of_mem _ hc)
          · exact fun d hd => hds d (List.mem_cons_of_mem _ hd)
          · exact Nat.succ_injective hlength

theorem choose_eq_of_sameEntry {cs ds : List ExceptionClause}
    (h : List.Forall₂ ExceptionClause.SameEntry cs ds) : choose cs = choose ds := by
  have hall : cs.all (·.isSmall) = ds.all (·.isSmall) := by
    induction h with
    | nil => rfl
    | cons hcd _ ih => rw [List.all_cons, List.all_cons, hcd.isSmall_eq, ih]
  rw [choose, choose, h.length_eq, hall]

theorem bytes_eq_of_sameEntry (layout : SectionLayout) {cs ds : List ExceptionClause}
    (h : List.Forall₂ ExceptionClause.SameEntry cs ds) : layout.bytes cs = layout.bytes ds := by
  have hentries : cs.flatMap layout.entry = ds.flatMap layout.entry := by
    induction h with
    | nil => rfl
    | cons hcd _ ih =>
        rw [List.flatMap_cons, List.flatMap_cons, ih, entry, entry,
          ExceptionClause.values_eq_iff.mpr hcd]
  rw [bytes, bytes, h.length_eq, hentries]

theorem sameEntry_of_bytes {cs ds : List ExceptionClause}
    (h : (choose cs).bytes cs = (choose ds).bytes ds) :
    List.Forall₂ ExceptionClause.SameEntry cs ds := by
  -- The first byte tells the layout, and then the length tells the number of clauses.
  have hlayout : choose cs = choose ds := by
    have hlead := congrArg List.head? h
    simp only [bytes, List.cons_append, List.head?_cons, Option.some.injEq] at hlead
    exact lead_injective hlead
  have hroom : ∀ d ∈ ds, HasRoom (choose ds).widths d.values := fun _ => hasRoom
  rw [← hlayout] at h hroom
  have hlength : cs.length = ds.length := by
    have hsize := congrArg List.length h
    simp only [length_bytes, size] at hsize
    cases hcs : choose cs <;> rw [hcs] at hsize <;> simp only [entrySize] at hsize <;> omega
  rw [bytes, bytes, hlength] at h
  exact sameEntry_of_flatMap_entry (fun _ => hasRoom) hroom hlength (List.append_cancel_left h)

end SectionLayout

theorem exceptionSection_eq_nil_iff {clauses : List ExceptionClause} :
    exceptionSection clauses = [] ↔ clauses = [] := by
  constructor
  · intro h
    by_contra hne
    rw [SectionLayout.exceptionSection_eq hne, SectionLayout.bytes] at h
    cases h
  · rintro rfl
    rfl

/-- Two sections are the same exactly if they hold the same entries. -/
theorem exceptionSection_eq_iff_sameEntry (cs ds : List ExceptionClause) :
    exceptionSection cs = exceptionSection ds ↔ List.Forall₂ ExceptionClause.SameEntry cs ds := by
  by_cases hcs : cs = []
  · rw [exceptionSection_eq_nil_iff.mpr hcs, hcs, eq_comm, exceptionSection_eq_nil_iff,
      List.forall₂_nil_left_iff]
  · by_cases hds : ds = []
    · rw [exceptionSection_eq_nil_iff.mpr hds, hds, exceptionSection_eq_nil_iff,
        List.forall₂_nil_right_iff]
    · rw [SectionLayout.exceptionSection_eq hcs, SectionLayout.exceptionSection_eq hds]
      refine ⟨SectionLayout.sameEntry_of_bytes, fun h => ?_⟩
      rw [SectionLayout.choose_eq_of_sameEntry h]
      exact SectionLayout.bytes_eq_of_sameEntry _ h

/-! ## The size in the header -/

/-- The size that a section gives for itself: one byte in the small layout, three in the fat one. -/
def statedSize? : List UInt8 → Option Nat
  | 0x01 :: rest => some (ofLittleEndian (rest.take 1))
  | 0x41 :: rest => some (ofLittleEndian (rest.take 3))
  | _ => none

/-- The bytes are a section of `count` clauses in one of the layouts, and give their own size. -/
structure DescribesItself (bytes : List UInt8) (count : Nat) : Prop where
  length : bytes.head? = some 0x01 ∧ bytes.length = 4 + 12 * count ∨
    bytes.head? = some 0x41 ∧ bytes.length = 4 + 24 * count
  size : statedSize? bytes = some bytes.length

/-- The number of clauses for which there is room after a fat header, if the section is not to be
larger than the size in that header can say. -/
def maxDescribedClauses : Nat :=
  (256 ^ SectionLayout.fat.sizeWidth - 1 - SectionLayout.fat.size 0) / SectionLayout.fat.entrySize

theorem maxDescribedClauses_eq : maxDescribedClauses = 699050 := rfl

theorem SectionLayout.statedSize?_bytes (layout : SectionLayout) (clauses : List ExceptionClause) :
    statedSize? (layout.bytes clauses) =
      some (layout.size clauses.length % 256 ^ layout.sizeWidth) := by
  have htake : ∀ rest, (littleEndian layout.sizeWidth (layout.size clauses.length) ++ rest).take
      layout.sizeWidth = littleEndian layout.sizeWidth (layout.size clauses.length) :=
    fun rest => List.take_left' (length_littleEndian _ _)
  have hread := ofLittleEndian_littleEndian layout.sizeWidth (layout.size clauses.length)
  simp only [bytes, List.cons_append, List.append_assoc]
  cases layout with
  | small => exact congrArg some ((congrArg ofLittleEndian (htake _)).trans hread)
  | fat => exact congrArg some ((congrArg ofLittleEndian (htake _)).trans hread)

section

variable {clauses : List ExceptionClause}

/-- The first byte and the length are right for any number of clauses. -/
theorem length_exceptionSection (h : clauses ≠ []) :
    (exceptionSection clauses).head? = some 0x01 ∧
        (exceptionSection clauses).length = 4 + 12 * clauses.length ∨
      (exceptionSection clauses).head? = some 0x41 ∧
        (exceptionSection clauses).length = 4 + 24 * clauses.length := by
  rw [SectionLayout.exceptionSection_eq h, SectionLayout.length_bytes]
  cases SectionLayout.choose clauses with
  | small => exact .inl ⟨rfl, by rw [SectionLayout.size, SectionLayout.entrySize]; omega⟩
  | fat => exact .inr ⟨rfl, by rw [SectionLayout.size, SectionLayout.entrySize]; omega⟩

/-- The size in the header has lost what three bytes cannot hold. -/
theorem statedSize?_exceptionSection (h : clauses ≠ []) :
    statedSize? (exceptionSection clauses) =
      some ((exceptionSection clauses).length % 2 ^ 24) := by
  rw [SectionLayout.exceptionSection_eq h, SectionLayout.length_bytes,
    SectionLayout.statedSize?_bytes]
  cases hlayout : SectionLayout.choose clauses with
  | small =>
      have hsize := SectionLayout.size_choose_of_small hlayout
      simp only [SectionLayout.sizeWidth]
      rw [Nat.mod_eq_of_lt (by omega), Nat.mod_eq_of_lt (by omega)]
  | fat => rfl

theorem length_exceptionSection_of_large (h : 20 < clauses.length) :
    (exceptionSection clauses).length = 24 * clauses.length + 4 := by
  have hne : clauses ≠ [] := List.ne_nil_of_length_pos (Nat.lt_of_le_of_lt (Nat.zero_le _) h)
  rw [SectionLayout.exceptionSection_eq hne, SectionLayout.length_bytes,
    SectionLayout.choose_eq_fat h, SectionLayout.size, SectionLayout.entrySize, Nat.mul_comm]

theorem not_describesItself (h : maxDescribedClauses < clauses.length) :
    ¬DescribesItself (exceptionSection clauses) clauses.length := by
  rw [maxDescribedClauses_eq] at h
  intro hdescribes
  have hne : clauses ≠ [] := List.ne_nil_of_length_pos (by omega)
  have hsize := hdescribes.size
  rw [statedSize?_exceptionSection hne, Option.some.injEq,
    length_exceptionSection_of_large (by omega)] at hsize
  omega

end

/-- A section is in one of the layouts and has the right length for it, however many clauses there
are. It gives that length in its header exactly if three bytes can hold it. -/
theorem exceptionSection_describes_itself_iff (clauses : List ExceptionClause) (h : clauses ≠ []) :
    ((exceptionSection clauses).head? = some 0x01 ∧
        (exceptionSection clauses).length = 4 + 12 * clauses.length ∨
      (exceptionSection clauses).head? = some 0x41 ∧
        (exceptionSection clauses).length = 4 + 24 * clauses.length) ∧
    statedSize? (exceptionSection clauses) = some ((exceptionSection clauses).length % 2 ^ 24) ∧
    (DescribesItself (exceptionSection clauses) clauses.length ↔
      clauses.length ≤ maxDescribedClauses) := by
  have hlength := length_exceptionSection h
  have hsize := statedSize?_exceptionSection h
  refine ⟨hlength, hsize, ?_, ?_⟩
  · intro hdescribes
    by_contra hlarge
    exact not_describesItself (Nat.lt_of_not_le hlarge) hdescribes
  · intro hcount
    rw [maxDescribedClauses_eq] at hcount
    refine ⟨hlength, ?_⟩
    rw [hsize, Nat.mod_eq_of_lt]
    rcases hlength with ⟨_, hlength⟩ | ⟨_, hlength⟩ <;> omega

/-- The largest table whose section gives its own size. -/
theorem exceptionSection_describes_itself_largest :
    ∃ clauses : List ExceptionClause,
      clauses = List.replicate 699050 ⟨ExceptionClause.finallyFlag, 0, 0, 0, 0, none, none⟩ ∧
        clauses ≠ [] ∧ DescribesItself (exceptionSection clauses) 699050 := by
  refine ⟨_, rfl, ?_⟩
  generalize hclauses : List.replicate 699050 (_ : ExceptionClause) = clauses
  have hlength : clauses.length = 699050 := by rw [← hclauses, List.length_replicate]
  have hne : clauses ≠ [] := List.ne_nil_of_length_pos (by omega)
  have hdescribes := (exceptionSection_describes_itself_iff clauses hne).2.2.mpr
    (by rw [hlength, maxDescribedClauses_eq])
  rw [hlength] at hdescribes
  exact ⟨hne, hdescribes⟩

/-- With one clause more the section takes 16777228 bytes and says that it takes 12. -/
theorem exceptionSection_misstates_size :
    ∃ clauses : List ExceptionClause,
      clauses = List.replicate 699051 ⟨ExceptionClause.finallyFlag, 0, 0, 0, 0, none, none⟩ ∧
        clauses ≠ [] ∧ (exceptionSection clauses).length = 16777228 ∧
        statedSize? (exceptionSection clauses) = some 12 ∧
        ¬DescribesItself (exceptionSection clauses) clauses.length := by
  refine ⟨_, rfl, ?_⟩
  generalize hclauses : List.replicate 699051 (_ : ExceptionClause) = clauses
  have hcount : clauses.length = 699051 := by rw [← hclauses, List.length_replicate]
  have hne : clauses ≠ [] := List.ne_nil_of_length_pos (by omega)
  have hlength : (exceptionSection clauses).length = 16777228 := by
    rw [length_exceptionSection_of_large (by omega), hcount]
  refine ⟨hne, hlength, ?_, not_describesItself (by rw [hcount, maxDescribedClauses_eq]; omega)⟩
  rw [statedSize?_exceptionSection hne, hlength]
  rfl

end CilAssembler
