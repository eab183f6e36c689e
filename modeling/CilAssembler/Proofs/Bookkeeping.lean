import CilAssembler.Proofs.Rosters

/-! # Balanced books

The rosters, the marks and the open regions can be read off the lines of the stream. `Balanced`
says how, and every history of admitted instructions leaves balanced books. -/

namespace CilAssembler

/-! ## Regions -/

namespace RegionStack

/-- Lets one line act on the open regions, every move being checked. Lines that are not about
regions change nothing. -/
def followLine (s : RegionStack) : Instruction → Except Error RegionStack
  | .beginExceptionBlock exit => .ok (s.pushTry exit)
  | .beginScope => .ok s.pushScope
  | i =>
      match i.regionCall? with
      | some call => (s.apply call).map (·.2)
      | none => .ok s

/-- Lets lines act on the open regions in order, stopping at the first move that is refused. -/
def follow (s : RegionStack) : List Instruction → Except Error RegionStack
  | [] => .ok s
  | i :: rest =>
      match s.followLine i with
      | .error e => .error e
      | .ok s => s.follow rest

theorem follow_append_singleton {s t : RegionStack} {is : List Instruction} (i : Instruction)
    (h : s.follow is = .ok t) : s.follow (is ++ [i]) = t.followLine i := by
  induction is generalizing s with
  | nil =>
      cases h
      simp only [List.nil_append, follow]
      cases t.followLine i <;> rfl
  | cons j is ih =>
      rw [List.cons_append, follow]
      rw [follow] at h
      cases hj : s.followLine j with
      | error e =>
          rw [hj] at h
          cases h
      | ok u =>
          rw [hj] at h
          exact ih h

theorem followLine_of_move {s : RegionStack} {i : Instruction} {call : RegionCall}
    (hcall : i.regionCall? = some call) (hcheck : s.check call = .ok ()) :
    s.followLine i = .ok (s.advance call) := by
  cases i <;> cases hcall <;>
    simp [followLine, Instruction.regionCall?, apply, hcheck, Except.map]

end RegionStack

theorem Recorder.regionsAfter_of_move {s : RegionStack} {i : Instruction} {call : RegionCall}
    (hcall : i.regionCall? = some call) : regionsAfter s i = s.advance call := by
  cases i <;> cases hcall <;> rfl

/-- The open regions are what the lines leave when they act on none. -/
theorem Recorded.follow_regions {id : AssemblerId} {is : List Instruction} (h : Recorded id is) :
    RegionStack.empty.follow is = .ok (Books.ofInstructions is).regions := by
  induction is using List.reverseRecOn with
  | nil => rfl
  | append_singleton is i ih =>
      obtain ⟨hprev, hadmits⟩ := append_singleton_iff.mp h
      rw [RegionStack.follow_append_singleton i (ih hprev), Books.regions_append_singleton]
      cases hadmits with
      | move _ call hcall hcheck _ =>
          rw [RegionStack.followLine_of_move hcall hcheck, Recorder.regionsAfter_of_move hcall]
      | _ => rfl

/-! ## Balance -/

/-- The books agree with the lines of their stream. -/
structure Books.Balanced (b : Books) : Prop where
  /-- Nothing in the books depends on anything but the lines. -/
  determined : b = .ofInstructions b.stream.instructions
  /-- Slot `n` holds the label of the `n`-th line that allocates one, and there are no others. -/
  labels : b.stream.instructions.filterMap Instruction.definedLabel? = b.labels.toList.map (·.label)
  label_index : ∀ (n : Nat) (slot : LabelSlot), b.labels[n]? = some slot → slot.label.index.toNat = n
  /-- Local `n` is that of the `n`-th line that declares one, and there are no others. -/
  locals : b.stream.instructions.filterMap Instruction.declaredLocal? = b.locals.toList
  local_index : ∀ (n : Nat) (v : Local), b.locals[n]? = some v → v.index.toNat = n
  /-- A slot is marked by the line that places its label. -/
  mark_iff : ∀ (n : Nat) (slot : LabelSlot) (line : Nat), b.labels[n]? = some slot →
    (slot.mark = some line ↔
      ∃ label, placedAt? b.stream.instructions line = some label ∧ (slot.label == label) = true)
  placed_once : ∀ (k l : Nat) (label other : Label),
    placedAt? b.stream.instructions k = some label →
    placedAt? b.stream.instructions l = some other → (label == other) = true → k = l
  /-- A label in a line is the one in its slot, and an earlier line allocated it. -/
  label_used : ∀ (k : Nat) (i : Instruction) (label : Label), b.stream.instructions[k]? = some i →
    label ∈ i.labelsUsed → ∃ slot, b.labels[label.index.toNat]? = some slot ∧
      (slot.label == label) = true ∧ ∃ j line, j < k ∧
        b.stream.instructions[j]? = some line ∧ line.definedLabel? = some slot.label
  /-- A local in a line is the one in its slot, and an earlier line declared it. -/
  local_used : ∀ (k : Nat) (i : Instruction) (v : Local), b.stream.instructions[k]? = some i →
    i.UsesLocal v → ∃ slot, b.locals[v.index.toNat]? = some slot ∧ (slot == v) = true ∧
      ∃ j line, j < k ∧ b.stream.instructions[j]? = some line ∧ line.declaredLocal? = some slot
  /-- The open regions are what the markers leave, each of them an allowed move. -/
  regions : RegionStack.empty.follow b.stream.instructions = .ok b.regions

/-- Admitted instructions leave balanced books as long as the indices of the handles are exact. -/
theorem Recorded.balanced {id : AssemblerId} {is : List Instruction} (h : Recorded id is)
    (hlabels : (Books.ofInstructions is).labels.size ≤ 2 ^ 32)
    (hlocals : (Books.ofInstructions is).locals.size ≤ 2 ^ 32) :
    (Books.ofInstructions is).Balanced := by
  have hstream : (Books.ofInstructions is).stream.instructions = is := by simp
  constructor
  case label_index =>
    intro n slot hslot
    have hn : n < (Books.ofInstructions is).labels.size :=
      (Array.getElem?_eq_some_iff.mp hslot).1
    rw [(h.label_slot hslot).2]
    exact toNat_toUInt32_of_lt (by omega)
  case local_index =>
    intro n v hv
    have hn : n < (Books.ofInstructions is).locals.size := (Array.getElem?_eq_some_iff.mp hv).1
    rw [(h.local_slot hv).2]
    exact toNat_toUInt32_of_lt (by omega)
  all_goals rw [hstream]
  case labels => exact (Books.labels_ofInstructions is).symm
  case locals => exact (Books.locals_ofInstructions is).symm
  case mark_iff => exact fun n slot line hslot => h.mark_iff hlabels hslot line
  case placed_once => exact fun k l label other hk hl => h.placed_once hlabels hk hl
  case label_used => exact fun k i label hi hused => h.label_used hi hused
  case local_used => exact fun k i v hi hused => h.local_used hi hused
  case regions => exact h.follow_regions

end CilAssembler
