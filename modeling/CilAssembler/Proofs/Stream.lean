import CilAssembler.Stream
import Mathlib.Algebra.Ring.Nat
import Mathlib.Data.List.Induction

/-! # Streams as lists of instructions

A stream is determined by its instructions: every line stands at the total size of the lines
before it, and truncating the stream truncates the list. -/

namespace CilAssembler

/-- The operation that does nothing. -/
def Op.nop : Op := ⟨.nop, .none, 1, rfl, rfl⟩

/-- The number of bytes of code that some instructions stand for together. -/
def totalSize (is : List Instruction) : Nat :=
  (is.map Instruction.size).sum

@[simp] theorem totalSize_nil : totalSize [] = 0 := rfl

@[simp] theorem totalSize_cons (i : Instruction) (is : List Instruction) :
    totalSize (i :: is) = i.size + totalSize is := by
  simp [totalSize]

@[simp] theorem totalSize_append (is js : List Instruction) :
    totalSize (is ++ js) = totalSize is + totalSize js := by
  simp [totalSize]

/-- The lines of some instructions of which the first stands at `base`. -/
def linesFrom : Nat → List Instruction → List Line
  | _, [] => []
  | base, i :: rest => ⟨base, i⟩ :: linesFrom (base + i.size) rest

theorem linesFrom_append (base : Nat) (is js : List Instruction) :
    linesFrom base (is ++ js) = linesFrom base is ++ linesFrom (base + totalSize is) js := by
  induction is generalizing base with
  | nil => rfl
  | cons i is ih => simp [linesFrom, ih, Nat.add_assoc]

@[simp] theorem length_linesFrom (base : Nat) (is : List Instruction) :
    (linesFrom base is).length = is.length := by
  induction is generalizing base with
  | nil => rfl
  | cons i is ih => simp [linesFrom, ih]

theorem getElem?_linesFrom (base : Nat) (is : List Instruction) (k : Nat) :
    (linesFrom base is)[k]? = is[k]?.map fun i => ⟨base + totalSize (is.take k), i⟩ := by
  induction is generalizing base k with
  | nil => simp [linesFrom]
  | cons i is ih =>
      cases k with
      | zero => simp [linesFrom]
      | succ k => simp [linesFrom, ih, Nat.add_assoc]

@[simp] theorem map_instruction_linesFrom (base : Nat) (is : List Instruction) :
    (linesFrom base is).map (·.instruction) = is := by
  induction is generalizing base with
  | nil => rfl
  | cons i is ih => simp [linesFrom, ih]

theorem take_linesFrom (base : Nat) (is : List Instruction) (count : Nat) :
    (linesFrom base is).take count = linesFrom base (is.take count) := by
  induction is generalizing base count with
  | nil => simp [linesFrom]
  | cons i is ih =>
      cases count with
      | zero => rfl
      | succ count => simp [linesFrom, ih]

theorem filterMap_singleton {α β : Type} (f : α → Option β) (x : α) :
    [x].filterMap f = (f x).toList := by
  cases h : f x <;> simp [h]

theorem lt_or_eq_of_lt_length {α : Type} {xs : List α} {x : α} {n : Nat}
    (h : n < (xs ++ [x]).length) : n < xs.length ∨ n = xs.length := by
  rw [List.length_append, List.length_singleton] at h
  exact Nat.lt_succ_iff_lt_or_eq.mp h

/-! ## Lines and the lines before them -/

/-- Every line has the property with respect to the lines before it. -/
def EachLine (P : List Instruction → Instruction → Prop) (is : List Instruction) : Prop :=
  ∀ k i, is[k]? = some i → P (is.take k) i

namespace EachLine

variable {P : List Instruction → Instruction → Prop} {is : List Instruction}

theorem nil : EachLine P [] := by
  intro k i h
  simp at h

theorem append_singleton_iff {i : Instruction} : EachLine P (is ++ [i]) ↔ EachLine P is ∧ P is i := by
  constructor
  · intro h
    constructor
    · intro k j hj
      have hk : k < is.length := (List.getElem?_eq_some_iff.mp hj).1
      have hline := h k j (by rw [List.getElem?_append_left hk, hj])
      rwa [List.take_append_of_le_length (Nat.le_of_lt hk)] at hline
    · have hline := h is.length i (by simp)
      rwa [List.take_append_of_le_length (Nat.le_refl _), List.take_length] at hline
  · rintro ⟨h, hi⟩ k j hj
    rcases lt_or_eq_of_lt_length (List.getElem?_eq_some_iff.mp hj).1 with hk | rfl
    · rw [List.getElem?_append_left hk] at hj
      rw [List.take_append_of_le_length (Nat.le_of_lt hk)]
      exact h k j hj
    · obtain rfl : i = j := by simpa using hj
      simpa using hi

theorem take (h : EachLine P is) (count : Nat) : EachLine P (is.take count) := by
  intro k i hi
  have hk : k < count := by
    have hlt := (List.getElem?_eq_some_iff.mp hi).1
    simp only [List.length_take] at hlt
    omega
  rw [List.getElem?_take_of_lt hk] at hi
  rw [List.take_take, Nat.min_eq_left (Nat.le_of_lt hk)]
  exact h k i hi

end EachLine

namespace Stream

/-- The instructions of the lines, in order. -/
def instructions (s : Stream) : List Instruction :=
  s.lines.toList.map (·.instruction)

/-- The stream that records some instructions and nothing else. -/
def ofInstructions (is : List Instruction) : Stream :=
  is.foldl append empty

@[simp] theorem ofInstructions_nil : ofInstructions [] = empty := rfl

theorem ofInstructions_append_singleton (is : List Instruction) (i : Instruction) :
    ofInstructions (is ++ [i]) = (ofInstructions is).append i := by
  simp [ofInstructions]

@[simp] theorem endOffset_ofInstructions (is : List Instruction) :
    (ofInstructions is).endOffset = totalSize is := by
  induction is using List.reverseRecOn with
  | nil => rfl
  | append_singleton is i ih => simp [ofInstructions_append_singleton, append, ih]

theorem lines_ofInstructions (is : List Instruction) :
    (ofInstructions is).lines = (linesFrom 0 is).toArray := by
  induction is using List.reverseRecOn with
  | nil => rfl
  | append_singleton is i ih =>
      rw [ofInstructions_append_singleton, linesFrom_append, append, ih,
        endOffset_ofInstructions, Nat.zero_add]
      simp [linesFrom]

@[simp] theorem instructions_ofInstructions (is : List Instruction) :
    (ofInstructions is).instructions = is := by
  simp [instructions, lines_ofInstructions]

@[simp] theorem instructions_append (s : Stream) (i : Instruction) :
    (s.append i).instructions = s.instructions ++ [i] := by
  simp [instructions, append]

@[simp] theorem length_instructions (s : Stream) : s.instructions.length = s.length := by
  simp [instructions, length]

@[simp] theorem length_ofInstructions (is : List Instruction) :
    (ofInstructions is).length = is.length := by
  rw [← length_instructions, instructions_ofInstructions]

theorem ext {s t : Stream} (hlines : s.lines = t.lines) (hend : s.endOffset = t.endOffset) :
    s = t := by
  cases s
  cases t
  simp_all

theorem ops_append (s : Stream) (i : Instruction) :
    (s.append i).ops = s.ops ++ (i.op?.map (s.endOffset, ·)).toList := by
  simp only [ops, append, Array.toList_push, List.filterMap_append, filterMap_singleton]

theorem exists_mem_ops_iff {s : Stream} {o : Op} :
    (∃ offset, (offset, o) ∈ s.ops) ↔ .op o ∈ s.instructions := by
  simp only [ops, instructions, List.mem_filterMap, List.mem_map]
  constructor
  · rintro ⟨offset, line, hline, hop⟩
    refine ⟨line, hline, ?_⟩
    cases hi : line.instruction with
    | op p =>
        rw [hi] at hop
        cases hop
        rfl
    | _ =>
        rw [hi] at hop
        cases hop
  · rintro ⟨line, hline, hi⟩
    exact ⟨line.offset, line, hline, by rw [hi]; rfl⟩

theorem labelOffsets_append (s : Stream) (i : Instruction) :
    (s.append i).labelOffsets =
      match i.placed? with
      | some label => s.labelOffsets.insert label.index s.endOffset
      | none => s.labelOffsets := by
  cases hplaced : i.placed? <;> simp [labelOffsets, append, hplaced]

theorem labelOffsets_of_placed {i : Instruction} {label : Label} (h : i.placed? = some label)
    (is : List Instruction) :
    (ofInstructions (is ++ [i])).labelOffsets =
      (ofInstructions is).labelOffsets.insert label.index (totalSize is) := by
  rw [ofInstructions_append_singleton, labelOffsets_append, h]
  simp only [endOffset_ofInstructions]

theorem labelOffsets_of_not_placed {i : Instruction} (h : i.placed? = none)
    (is : List Instruction) :
    (ofInstructions (is ++ [i])).labelOffsets = (ofInstructions is).labelOffsets := by
  rw [ofInstructions_append_singleton, labelOffsets_append, h]

/-- Truncating a stream truncates its list of instructions. -/
@[simp] theorem instructions_truncate (s : Stream) (count : Nat) :
    (s.truncate count).instructions = s.instructions.take count := by
  unfold truncate
  cases hline : s.lines[count]? with
  | none =>
      have hcount : s.lines.size ≤ count := Array.getElem?_eq_none_iff.mp hline
      exact (List.take_of_length_le (by simpa [instructions] using hcount)).symm
  | some line => simp [instructions, List.map_take]

/-- No part of the lines that are cut off stays behind. -/
theorem truncate_ofInstructions (is : List Instruction) (count : Nat) :
    (ofInstructions is).truncate count = ofInstructions (is.take count) := by
  have hget : (ofInstructions is).lines[count]? =
      is[count]?.map fun i => ⟨totalSize (is.take count), i⟩ := by
    simp [lines_ofInstructions, getElem?_linesFrom]
  unfold truncate
  rw [hget]
  by_cases hcount : count < is.length
  · rw [List.getElem?_eq_getElem hcount]
    apply ext
    · simp [lines_ofInstructions, take_linesFrom]
    · simp
  · rw [List.getElem?_eq_none (Nat.le_of_not_lt hcount), List.take_of_length_le (by omega)]
    rfl

/-- The offset of line `n`, or of the end if the stream has no such line. -/
def offsetAt (s : Stream) (n : Nat) : Nat :=
  (s.lines[n]?.map (·.offset)).getD s.endOffset

theorem offsetAt_ofInstructions (is : List Instruction) (n : Nat) :
    (ofInstructions is).offsetAt n = totalSize (is.take n) := by
  rw [offsetAt, lines_ofInstructions, List.getElem?_toArray, getElem?_linesFrom, Option.map_map]
  by_cases hn : n < is.length
  · simp [hn]
  · rw [List.getElem?_eq_none (Nat.le_of_not_lt hn), List.take_of_length_le (Nat.le_of_not_lt hn)]
    exact endOffset_ofInstructions is

theorem offsetAt_append {is : List Instruction} {n : Nat} (hn : n ≤ is.length)
    (js : List Instruction) :
    (ofInstructions (is ++ js)).offsetAt n = (ofInstructions is).offsetAt n := by
  rw [offsetAt_ofInstructions, offsetAt_ofInstructions, List.take_append_of_le_length hn]

@[simp] theorem offsetAt_length (is : List Instruction) :
    (ofInstructions is).offsetAt is.length = totalSize is := by
  rw [offsetAt_ofInstructions, List.take_length]

/-- Offsets grow with the lines. -/
theorem offsetAt_mono (is : List Instruction) {m n : Nat} (h : m ≤ n) :
    (ofInstructions is).offsetAt m ≤ (ofInstructions is).offsetAt n := by
  rw [offsetAt_ofInstructions, offsetAt_ofInstructions, ← Nat.add_sub_cancel' h, List.take_add,
    totalSize_append]
  exact Nat.le_add_right _ _

theorem offsetAt_le (is : List Instruction) (n : Nat) :
    (ofInstructions is).offsetAt n ≤ totalSize is := by
  rw [offsetAt_ofInstructions]
  conv_rhs => rw [← List.take_append_drop n is, totalSize_append]
  exact Nat.le_add_right _ _

end Stream

end CilAssembler
