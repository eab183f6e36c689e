import CilAssembler.Proofs.OpDraft

/-! # Where the open displacements are

The open displacements of an operation lie in its operand, no two of them overlap, and the
operations of a stream do not overlap either. So filling in all displacements of a stream leaves
every other byte as it was. -/

namespace CilAssembler

/-! ## Slices -/

theorem take_drop_add {α : Type} (xs : List α) (start m n : Nat) :
    (xs.drop start).take (m + n) = (xs.drop start).take m ++ (xs.drop (start + m)).take n := by
  rw [List.take_add, List.drop_drop]

theorem take_drop_eq_of_getElem? {α : Type} {xs ys : List α} {start n : Nat} (hlength : ys.length = n)
    (h : ∀ k, k < n → xs[start + k]? = ys[k]?) : (xs.drop start).take n = ys := by
  apply List.ext_getElem?
  intro k
  by_cases hk : k < n
  · rw [List.getElem?_take_of_lt hk, List.getElem?_drop, h k hk]
  · rw [List.getElem?_eq_none (by rw [List.length_take]; omega), List.getElem?_eq_none (by omega)]

/-! ## Operations of a stream -/

namespace Stream

/-- The operations of a stream stand at the total size of what comes before them. -/
theorem mem_ops_iff {is : List Instruction} {offset : Nat} {o : Op} :
    (offset, o) ∈ (ofInstructions is).ops ↔
      ∃ k, is[k]? = some (.op o) ∧ offset = totalSize (is.take k) := by
  simp only [ops, lines_ofInstructions, List.mem_filterMap]
  constructor
  · rintro ⟨line, hline, hop⟩
    obtain ⟨k, hk⟩ := List.mem_iff_getElem?.mp hline
    rw [getElem?_linesFrom] at hk
    obtain ⟨i, hi, rfl⟩ := Option.map_eq_some_iff.mp hk
    cases i with
    | op p =>
        cases hop
        exact ⟨k, hi, Nat.zero_add _⟩
    | _ => cases hop
  · rintro ⟨k, hk, rfl⟩
    refine ⟨⟨totalSize (is.take k), .op o⟩, ?_, rfl⟩
    apply List.mem_iff_getElem?.mpr
    refine ⟨k, ?_⟩
    rw [getElem?_linesFrom, hk, Option.map_some, Nat.zero_add]

theorem totalSize_take_add_le {is : List Instruction} {k l : Nat} {i : Instruction} (h : k < l)
    (hi : is[k]? = some i) : totalSize (is.take k) + i.size ≤ totalSize (is.take l) := by
  have hlt : k < is.length := (List.getElem?_eq_some_iff.mp hi).1
  obtain ⟨m, rfl⟩ : ∃ m, l = k + 1 + m := ⟨l - (k + 1), by omega⟩
  rw [List.take_add, totalSize_append, List.take_add_one, totalSize_append, hi, Option.toList_some,
    totalSize_cons, totalSize_nil]
  omega

/-- Two operations of a stream are one, or one of them ends before the other starts. -/
theorem ops_apart {is : List Instruction} {d e : Nat × Op} (hd : d ∈ (ofInstructions is).ops)
    (he : e ∈ (ofInstructions is).ops) :
    d = e ∨ d.1 + d.2.size ≤ e.1 ∨ e.1 + e.2.size ≤ d.1 := by
  obtain ⟨p, o⟩ := d
  obtain ⟨q, r⟩ := e
  obtain ⟨k, hk, rfl⟩ := mem_ops_iff.mp hd
  obtain ⟨l, hl, rfl⟩ := mem_ops_iff.mp he
  rcases Nat.lt_trichotomy k l with hlt | rfl | hlt
  · exact .inr (.inl (totalSize_take_add_le hlt hk))
  · rw [hk] at hl
    cases hl
    exact .inl rfl
  · exact .inr (.inr (totalSize_take_add_le hlt hl))

/-- The slices of the operations make up everything up to the end of the stream. -/
theorem flatMap_ops_slices {α : Type} (xs : List α) (is : List Instruction) :
    ((ofInstructions is).ops.flatMap fun entry => (xs.drop entry.1).take entry.2.size) =
      xs.take (totalSize is) := by
  induction is using List.reverseRecOn with
  | nil => simp [ops, empty]
  | append_singleton is i ih =>
      rw [ofInstructions_append_singleton, ops_append, List.flatMap_append, ih,
        endOffset_ofInstructions, totalSize_append, List.take_add]
      cases i <;> simp [Instruction.op?, Instruction.size]

end Stream

/-! ## Displacements of an operation -/

/-- The slots of a jump table follow each other in steps of four bytes. -/
theorem BodyBuilder.mem_tableDisplacements_iff {op : Opcode} {instruction next field : Nat}
    {targets : List BodyLabel} {d : Displacement} :
    d ∈ tableDisplacements op instruction next field targets ↔
      ∃ k target, targets[k]? = some target ∧
        d = ⟨target, op, instruction, field + 4 * k, 4, next⟩ := by
  induction targets generalizing field with
  | nil => simp [tableDisplacements]
  | cons first rest ih =>
      rw [tableDisplacements, List.mem_cons, ih]
      constructor
      · rintro (rfl | ⟨k, target, htarget, rfl⟩)
        · exact ⟨0, first, rfl, rfl⟩
        · refine ⟨k + 1, target, htarget, ?_⟩
          rw [Nat.mul_add, Nat.mul_one, Nat.add_assoc, Nat.add_comm 4]
      · rintro ⟨k, target, htarget, rfl⟩
        cases k with
        | zero =>
            cases htarget
            exact .inl rfl
        | succ k =>
            refine .inr ⟨k, target, htarget, ?_⟩
            rw [Nat.mul_add, Nat.mul_one, Nat.add_assoc, Nat.add_comm 4]

namespace Op

variable {o : Op} {offset : Nat} {d e : Displacement}

/-- The open displacements of an operation at an offset. -/
def holes (offset : Nat) (o : Op) : List Displacement :=
  o.branchHoles offset ++ o.tableHoles offset

theorem holes_of_label {target : Label} (hx : o.operand = .label target) (offset : Nat) :
    o.holes offset = [⟨target.inBody, o.code, offset, offset + o.code.length,
      o.code.kind.branchWidth, offset + o.size⟩] := by
  simp [holes, branchHoles, tableHoles, hx]

theorem holes_of_labels {targets : List Label} (hx : o.operand = .labels targets) (offset : Nat) :
    o.holes offset = BodyBuilder.tableDisplacements o.code offset (offset + o.size)
      (offset + o.code.length + 4) (targets.map Label.inBody) := by
  simp [holes, branchHoles, tableHoles, hx]

theorem holes_eq_nil (hlabel : ∀ target, o.operand ≠ .label target)
    (hlabels : ∀ targets, o.operand ≠ .labels targets) (offset : Nat) : o.holes offset = [] := by
  unfold holes branchHoles tableHoles
  cases hx : o.operand with
  | label target => exact absurd hx (hlabel target)
  | labels targets => exact absurd hx (hlabels targets)
  | _ => rfl

/-- Every displacement lies behind the opcode and within the operation. A slot of a jump table
also lies behind the number of slots. -/
theorem field_of_mem_holes (hd : d ∈ o.holes offset) :
    offset + o.code.length ≤ d.field ∧ d.field + d.width ≤ offset + o.size ∧
      ((∃ targets, o.operand = .labels targets) → offset + o.code.length + 4 ≤ d.field) := by
  have hsize := o.size_eq_width
  cases hx : o.operand with
  | label target =>
      rw [holes_of_label hx] at hd
      rw [List.mem_singleton.mp hd]
      rw [hx] at hsize
      simp only [Operand.width] at hsize
      refine ⟨Nat.le_refl _, by simp only; omega, ?_⟩
      rintro ⟨targets, ⟨⟩⟩
  | labels targets =>
      rw [holes_of_labels hx] at hd
      obtain ⟨k, target, htarget, rfl⟩ := BodyBuilder.mem_tableDisplacements_iff.mp hd
      have hk := (List.getElem?_eq_some_iff.mp htarget).1
      rw [List.length_map] at hk
      rw [hx] at hsize
      simp only [Operand.width] at hsize
      refine ⟨?_, ?_, ?_⟩
      · simp only
        omega
      · simp only
        omega
      · intro _
        simp only
        omega
  | _ =>
      rw [holes_eq_nil (by simp [hx]) (by simp [hx])] at hd
      cases hd

theorem holes_apart (hd : d ∈ o.holes offset) (he : e ∈ o.holes offset) : d = e ∨ d.Apart e := by
  cases hx : o.operand with
  | label target =>
      rw [holes_of_label hx] at hd he
      exact .inl ((List.mem_singleton.mp hd).trans (List.mem_singleton.mp he).symm)
  | labels targets =>
      rw [holes_of_labels hx] at hd he
      obtain ⟨k, target, htarget, rfl⟩ := BodyBuilder.mem_tableDisplacements_iff.mp hd
      obtain ⟨l, other, hother, rfl⟩ := BodyBuilder.mem_tableDisplacements_iff.mp he
      rcases Nat.lt_trichotomy k l with hlt | rfl | hlt
      · right
        left
        simp only
        omega
      · rw [htarget] at hother
        cases hother
        exact .inl rfl
      · right
        right
        simp only
        omega
  | _ =>
      rw [holes_eq_nil (by simp [hx]) (by simp [hx])] at hd
      cases hd

end Op

/-! ## Displacements of a stream -/

namespace Stream

variable {is : List Instruction} {d e : Displacement}

/-- The open displacements of all operations. -/
def holes (is : List Instruction) : List Displacement :=
  ((ofInstructions is).ops.flatMap fun entry => entry.2.branchHoles entry.1) ++
    (ofInstructions is).ops.flatMap fun entry => entry.2.tableHoles entry.1

theorem mem_holes_iff :
    d ∈ holes is ↔ ∃ entry ∈ (ofInstructions is).ops, d ∈ entry.2.holes entry.1 := by
  simp only [holes, Op.holes, List.mem_append, List.mem_flatMap]
  constructor
  · rintro (⟨entry, hentry, hd⟩ | ⟨entry, hentry, hd⟩)
    · exact ⟨entry, hentry, .inl hd⟩
    · exact ⟨entry, hentry, .inr hd⟩
  · rintro ⟨entry, hentry, hd | hd⟩
    · exact .inl ⟨entry, hentry, hd⟩
    · exact .inr ⟨entry, hentry, hd⟩

theorem holes_apart (hd : d ∈ holes is) (he : e ∈ holes is) : d = e ∨ d.Apart e := by
  obtain ⟨p, hp, hdp⟩ := mem_holes_iff.mp hd
  obtain ⟨q, hq, heq⟩ := mem_holes_iff.mp he
  have hdfield := Op.field_of_mem_holes hdp
  have hefield := Op.field_of_mem_holes heq
  rcases ops_apart hp hq with rfl | hbefore | hbehind
  · exact Op.holes_apart hdp heq
  · exact .inr (.inl (by omega))
  · exact .inr (.inr (by omega))

theorem end_le_of_mem_ops {entry : Nat × Op} (h : entry ∈ (ofInstructions is).ops) :
    entry.1 + entry.2.size ≤ totalSize is := by
  obtain ⟨offset, o⟩ := entry
  obtain ⟨k, hk, rfl⟩ := mem_ops_iff.mp h
  have hlt := (List.getElem?_eq_some_iff.mp hk).1
  have hle := totalSize_take_add_le hlt hk
  rwa [List.take_length] at hle

theorem field_le_of_mem_holes (hd : d ∈ holes is) : d.field + d.width ≤ totalSize is := by
  obtain ⟨entry, hentry, hd⟩ := mem_holes_iff.mp hd
  exact Nat.le_trans (Op.field_of_mem_holes hd).2.1 (end_le_of_mem_ops hentry)

/-- Within an operation only its own displacements are open. -/
theorem not_covers_of_not_covers {entry : Nat × Op} {p : Nat}
    (hentry : entry ∈ (ofInstructions is).ops) (hstart : entry.1 ≤ p)
    (hend : p < entry.1 + entry.2.size) (hown : ∀ d ∈ entry.2.holes entry.1, ¬d.Covers p) :
    ∀ d ∈ holes is, ¬d.Covers p := by
  intro d hd hcovers
  obtain ⟨other, hother, hdother⟩ := mem_holes_iff.mp hd
  have hfield := Op.field_of_mem_holes hdother
  obtain ⟨hle, hlt⟩ := id hcovers
  rcases ops_apart hentry hother with rfl | hbefore | hbehind
  · exact hown d hdother hcovers
  · omega
  · omega

end Stream

end CilAssembler
