import CilAssembler.Proofs.OpDraft
import CilAssembler.Proofs.StreamEdits

/-! # Looking up offsets

A search for an offset gives up at the first line beyond it, and a search for an operation looks no
further than the lines at its offset. Nothing is missed, because every line starts where the line
before it ends or later, and because no operation is empty. -/

namespace CilAssembler

theorem Opcode.length_pos (op : Opcode) : 0 < op.length := by
  unfold length
  split <;> decide

theorem Op.size_pos (o : Op) : 0 < o.size := by
  rw [o.size_eq_width]
  exact Nat.add_pos_left o.code.length_pos _

theorem Instruction.op?_eq_some_iff {i : Instruction} {o : Op} : i.op? = some o ↔ i = .op o := by
  cases i <;> simp [op?]

namespace Stream

/-- Every line starts after the end of the lines before it. -/
def Spaced (s : Stream) : Prop :=
  s.lines.toList.Pairwise fun line later => line.offset + line.size ≤ later.offset

/-- What the look-ups for an offset find. -/
structure LooksUp (s : Stream) (offset : Nat) : Prop where
  /-- The first line at the offset is found, with its index. -/
  line_iff : ∀ (k : Nat) (line : Line), s.findByOffset? offset = some (k, line) ↔
    s.lines[k]? = some line ∧ line.offset = offset ∧
      ∀ (j : Nat) (earlier : Line), j < k → s.lines[j]? = some earlier → earlier.offset ≠ offset
  none_iff : s.findByOffset? offset = none ↔ ∀ line ∈ s.lines, line.offset ≠ offset
  op_iff : ∀ op, s.instructionAt? offset = some op ↔ (offset, op) ∈ s.ops
  /-- No two operations stand at one offset. -/
  op_once : s.ops.countP (·.1 = offset) ≤ 1

/-! ## Spacing -/

theorem le_offset_of_mem_linesFrom {base : Nat} {is : List Instruction} {line : Line}
    (h : line ∈ linesFrom base is) : base ≤ line.offset := by
  induction is generalizing base with
  | nil => cases h
  | cons i is ih =>
      rcases List.mem_cons.mp h with rfl | hlater
      · exact Nat.le_refl _
      · exact Nat.le_trans (Nat.le_add_right _ _) (ih hlater)

theorem pairwise_linesFrom (base : Nat) (is : List Instruction) :
    (linesFrom base is).Pairwise fun line later => line.offset + line.size ≤ later.offset := by
  induction is generalizing base with
  | nil => exact .nil
  | cons i is ih => exact List.pairwise_cons.mpr ⟨fun _ => le_offset_of_mem_linesFrom, ih _⟩

theorem Records.spaced {s : Stream} {is : List Instruction} (h : s.Records is) : s.Spaced := by
  rw [h.1, Spaced, lines_ofInstructions]
  exact pairwise_linesFrom 0 is

section Lookup

variable {s : Stream}

theorem Spaced.end_le (h : s.Spaced) {j k : Nat} {line later : Line} (hj : s.lines[j]? = some line)
    (hk : s.lines[k]? = some later) (hlt : j < k) : line.offset + line.size ≤ later.offset := by
  obtain ⟨hjs, rfl⟩ := Array.getElem?_eq_some_iff.mp hj
  obtain ⟨hks, rfl⟩ := Array.getElem?_eq_some_iff.mp hk
  exact List.pairwise_iff_getElem.mp h j k hjs hks hlt

theorem Spaced.offset_le (h : s.Spaced) {j k : Nat} {line later : Line} (hj : s.lines[j]? = some line)
    (hk : s.lines[k]? = some later) (hle : j ≤ k) : line.offset ≤ later.offset := by
  rcases Nat.lt_or_eq_of_le hle with hlt | rfl
  · exact Nat.le_trans (Nat.le_add_right _ _) (h.end_le hj hk hlt)
  · cases hj.symm.trans hk
    exact Nat.le_refl _

/-! ## The first line at an offset -/

/-- The search ends at the first line that is not before the offset. -/
theorem findByOffset?_eq_some {offset k : Nat} {line : Line} :
    s.findByOffset? offset = some (k, line) ↔ s.lines[k]? = some line ∧ line.offset = offset ∧
      ∀ j earlier, j < k → s.lines[j]? = some earlier → earlier.offset < offset := by
  constructor
  · intro h
    unfold findByOffset? at h
    split at h
    · cases h
    · rename_i index hindex
      obtain ⟨hlt, _, hbefore⟩ := Array.findIdx?_eq_some_iff_getElem.mp hindex
      rw [Array.getElem?_eq_getElem hlt] at h
      simp only at h
      split at h
      · rename_i hoffset
        cases h
        refine ⟨Array.getElem?_eq_getElem hlt, hoffset, ?_⟩
        intro j earlier hj hearlier
        obtain ⟨_, rfl⟩ := Array.getElem?_eq_some_iff.mp hearlier
        simpa using hbefore j hj
      · cases h
  · rintro ⟨hline, rfl, hbefore⟩
    obtain ⟨hlt, hget⟩ := Array.getElem?_eq_some_iff.mp hline
    have hindex : (s.lines.findIdx? fun other => line.offset ≤ other.offset) = some k := by
      apply Array.findIdx?_eq_some_iff_getElem.mpr
      refine ⟨hlt, by simp [hget], ?_⟩
      intro j hj
      have hearlier := hbefore j _ hj (Array.getElem?_eq_getElem (Nat.lt_trans hj hlt))
      simpa using hearlier
    simp [findByOffset?, hindex, hline]

/-- The first line at an offset is found, since no line before it is beyond the offset. -/
theorem Spaced.findByOffset?_eq_some_iff (h : s.Spaced) {offset k : Nat} {line : Line} :
    s.findByOffset? offset = some (k, line) ↔ s.lines[k]? = some line ∧ line.offset = offset ∧
      ∀ j earlier, j < k → s.lines[j]? = some earlier → earlier.offset ≠ offset := by
  rw [findByOffset?_eq_some]
  refine and_congr_right fun hline => and_congr_right fun hoffset => ?_
  refine forall₄_congr fun j earlier hj hearlier => ?_
  have hle := h.offset_le hearlier hline (Nat.le_of_lt hj)
  rw [hoffset] at hle
  exact ⟨Nat.ne_of_lt, Nat.lt_of_le_of_ne hle⟩

/-- Nothing is found only if there is nothing: the line at which the search ends is beyond the offset,
and so are all lines after it. -/
theorem Spaced.findByOffset?_eq_none_iff (h : s.Spaced) {offset : Nat} :
    s.findByOffset? offset = none ↔ ∀ line ∈ s.lines, line.offset ≠ offset := by
  constructor
  · intro hnone line hline hoffset
    obtain ⟨k, hk⟩ := Array.mem_iff_getElem?.mp hline
    obtain ⟨hlt, rfl⟩ := Array.getElem?_eq_some_iff.mp hk
    unfold findByOffset? at hnone
    split at hnone
    · rename_i hindex
      have hbefore := Array.findIdx?_eq_none_iff.mp hindex _ hline
      simp [hoffset] at hbefore
    · rename_i index hindex
      obtain ⟨hin, hnot, hbefore⟩ := Array.findIdx?_eq_some_iff_getElem.mp hindex
      have hstop := Array.getElem?_eq_getElem hin
      have hle : index ≤ k := by
        apply Nat.le_of_not_lt
        intro hearly
        simpa [hoffset] using hbefore k hearly
      have hsame : s.lines[index].offset = offset := by
        have hbound := h.offset_le hstop hk hle
        simp only [decide_eq_true_eq] at hnot
        omega
      rw [hstop] at hnone
      simp [hsame] at hnone
  · intro hnone
    cases hfound : s.findByOffset? offset with
    | none => rfl
    | some found =>
        obtain ⟨hline, hoffset, _⟩ := findByOffset?_eq_some.mp hfound
        exact absurd hoffset (hnone _ (Array.mem_of_getElem? hline))

/-! ## The operation at an offset -/

theorem mem_ops_iff_getElem? {offset : Nat} {o : Op} :
    (offset, o) ∈ s.ops ↔ ∃ k : Nat, s.lines[k]? = some ⟨offset, .op o⟩ := by
  rw [ops, List.mem_filterMap]
  constructor
  · rintro ⟨⟨_, i⟩, hline, hop⟩
    obtain ⟨_, hi, ⟨⟩⟩ := Option.map_eq_some_iff.mp hop
    obtain rfl := Instruction.op?_eq_some_iff.mp hi
    exact Array.mem_iff_getElem?.mp (Array.mem_toList_iff.mp hline)
  · rintro ⟨k, hk⟩
    exact ⟨_, Array.mem_toList_iff.mpr (Array.mem_of_getElem? hk), rfl⟩

/-- No line after an operation is at its offset. -/
theorem Spaced.offset_lt_of_op (h : s.Spaced) {j k offset : Nat} {o : Op} {later : Line}
    (hj : s.lines[j]? = some ⟨offset, .op o⟩) (hk : s.lines[k]? = some later) (hlt : j < k) :
    offset < later.offset := by
  have hend := h.end_le hj hk hlt
  have hsize : Line.size ⟨offset, .op o⟩ = o.size := rfl
  have hpos := o.size_pos
  simp only [hsize] at hend
  omega

/-- From a line that is not before the offset, the operation at the offset is found if there is one. -/
theorem Spaced.opFrom?_eq_some_iff (h : s.Spaced) {offset index : Nat} {o : Op}
    (hstart : ∀ line, s.lines[index]? = some line → offset ≤ line.offset) :
    opFrom? s.lines offset index = some o ↔
      ∃ k : Nat, index ≤ k ∧ s.lines[k]? = some ⟨offset, .op o⟩ := by
  fun_induction opFrom? s.lines offset index with
  | case1 index hlt hoffset op hop =>
      have hline : s.lines[index]? = some ⟨offset, .op op⟩ := by
        rw [Array.getElem?_eq_getElem hlt, ← hoffset, ← Instruction.op?_eq_some_iff.mp hop]
      constructor
      · rintro ⟨⟩
        exact ⟨index, Nat.le_refl _, hline⟩
      · rintro ⟨k, hk, hop⟩
        -- a later operation would be beyond the offset
        rcases Nat.lt_or_eq_of_le hk with hlater | rfl
        · exact absurd (h.offset_lt_of_op hline hop hlater) (Nat.lt_irrefl _)
        · cases hline.symm.trans hop
          rfl
  | case2 index hlt hoffset hmarker ih =>
      have hget := Array.getElem?_eq_getElem hlt
      rw [ih fun later hlater => hoffset ▸ h.offset_le hget hlater (Nat.le_succ index)]
      constructor
      · rintro ⟨k, hk, hop⟩
        exact ⟨k, Nat.le_of_succ_le hk, hop⟩
      · rintro ⟨k, hk, hop⟩
        refine ⟨k, Nat.lt_of_le_of_ne hk ?_, hop⟩
        rintro rfl
        rw [Option.some.inj (hget.symm.trans hop)] at hmarker
        cases hmarker
  | case3 index hlt hoffset =>
      constructor
      · rintro ⟨⟩
      · rintro ⟨k, hk, hop⟩
        have hget := Array.getElem?_eq_getElem hlt
        have hbound := h.offset_le hget hop hk
        exact absurd (Nat.le_antisymm hbound (hstart _ hget)) hoffset
  | case4 index hlt =>
      constructor
      · rintro ⟨⟩
      · rintro ⟨k, hk, hop⟩
        exact absurd (Nat.lt_of_le_of_lt hk (Array.getElem?_eq_some_iff.mp hop).1) hlt

theorem Spaced.instructionAt?_eq_some_iff (h : s.Spaced) {offset : Nat} {o : Op} :
    s.instructionAt? offset = some o ↔ (offset, o) ∈ s.ops := by
  rw [mem_ops_iff_getElem?, instructionAt?]
  cases hfound : s.findByOffset? offset with
  | none =>
      have hnone := h.findByOffset?_eq_none_iff.mp hfound
      constructor
      · rintro ⟨⟩
      · rintro ⟨k, hk⟩
        exact absurd rfl (hnone _ (Array.mem_of_getElem? hk))
  | some found =>
      obtain ⟨start, first⟩ := found
      obtain ⟨hfirst, hoffset, hbefore⟩ := findByOffset?_eq_some.mp hfound
      have hstart : ∀ line, s.lines[start]? = some line → offset ≤ line.offset := by
        intro line hline
        cases hfirst.symm.trans hline
        exact Nat.le_of_eq hoffset.symm
      simp only [h.opFrom?_eq_some_iff hstart]
      constructor
      · rintro ⟨k, _, hk⟩
        exact ⟨k, hk⟩
      · rintro ⟨k, hk⟩
        refine ⟨k, Nat.le_of_not_lt fun hlt => ?_, hk⟩
        exact absurd (hbefore k _ hlt hk) (Nat.lt_irrefl _)

/-- Operations stand at ever larger offsets. -/
theorem Spaced.pairwise_ops (h : s.Spaced) : s.ops.Pairwise (·.1 < ·.1) := by
  refine List.Pairwise.filterMap _ ?_ h
  intro line later hspaced entry hentry entry' hentry'
  obtain ⟨o, ho, rfl⟩ := Option.map_eq_some_iff.mp hentry
  obtain ⟨o', _, rfl⟩ := Option.map_eq_some_iff.mp hentry'
  have hsize : line.size = o.size := by rw [Line.size, Instruction.op?_eq_some_iff.mp ho, Instruction.size]
  have hpos := o.size_pos
  simp only
  omega

theorem Spaced.countP_ops_le_one (h : s.Spaced) (offset : Nat) : s.ops.countP (·.1 = offset) ≤ 1 := by
  have hnodup : (s.ops.map (·.1)).Nodup := List.pairwise_map.mpr (h.pairwise_ops.imp Nat.ne_of_lt)
  have hcount := List.nodup_iff_count.mp hnodup offset
  rw [List.count, List.countP_map] at hcount
  exact hcount

end Lookup

theorem Spaced.looksUp {s : Stream} (h : s.Spaced) (offset : Nat) : s.LooksUp offset where
  line_iff _ _ := h.findByOffset?_eq_some_iff
  none_iff := h.findByOffset?_eq_none_iff
  op_iff _ := h.instructionAt?_eq_some_iff
  op_once := h.countP_ops_le_one offset

/-- Whatever pushes and cuts made a stream, a look-up for an offset finds the first of the lines there
and the one operation there, and it finds nothing only if there is nothing. -/
theorem lookups_find_lines (edits : List Edit) (offset : Nat) : (empty.edited edits).LooksUp offset := by
  obtain ⟨is, hrecords⟩ := exists_records_edited edits
  exact hrecords.spaced.looksUp offset

end Stream

end CilAssembler
