import CilAssembler.Proofs.Books

/-! # Rosters and lines

The rosters hold, in order, what the lines of the stream allocate. A slot is marked by the one line
that places its label, and every reference in a line is to something an earlier line allocated. -/

namespace CilAssembler

namespace Instruction

/-- The label the instruction allocates, if it allocates one. -/
def definedLabel? : Instruction → Option Label
  | .defineLabel label | .beginExceptionBlock label => some label
  | _ => none

/-- The local the instruction allocates, if it allocates one. -/
def declaredLocal? : Instruction → Option Local
  | .declareLocal v => some v
  | _ => none

/-- The labels the instruction refers to. -/
def labelsUsed : Instruction → List Label
  | .op o => o.operand.targets
  | .markLabel label | .endExceptionBlock label => [label]
  | _ => []

/-- Whether the instruction refers to the local. -/
def UsesLocal (i : Instruction) (v : Local) : Prop :=
  ∃ o, i = .op o ∧ o.operand = .localVar v

end Instruction

/-- What an instruction does to the label roster: it appends a slot, marks one, or does nothing. -/
theorem Recorder.labelsAfter_cases (labels : Array LabelSlot) (line : Nat) (i : Instruction) :
    (∃ label, i.definedLabel? = some label ∧ i.placed? = none ∧
      labelsAfter labels line i = labels.push ⟨label, none⟩) ∨
    (∃ label, i.definedLabel? = none ∧ i.placed? = some label ∧
      labelsAfter labels line i =
        labels.modify label.index.toNat fun slot => { slot with mark := some line }) ∨
    (i.definedLabel? = none ∧ i.placed? = none ∧ labelsAfter labels line i = labels) := by
  cases i with
  | defineLabel label => exact .inl ⟨label, rfl, rfl, rfl⟩
  | beginExceptionBlock label => exact .inl ⟨label, rfl, rfl, rfl⟩
  | markLabel label => exact .inr (.inl ⟨label, rfl, rfl, rfl⟩)
  | endExceptionBlock label => exact .inr (.inl ⟨label, rfl, rfl, rfl⟩)
  | _ => exact .inr (.inr ⟨rfl, rfl, rfl⟩)

/-- What an instruction does to the local roster: it appends a local or does nothing. -/
theorem Recorder.localsAfter_cases (locals : Array Local) (i : Instruction) :
    (∃ v, i.declaredLocal? = some v ∧ localsAfter locals i = locals.push v) ∨
    (i.declaredLocal? = none ∧ localsAfter locals i = locals) := by
  cases i with
  | declareLocal v => exact .inl ⟨v, rfl, rfl⟩
  | _ => exact .inr ⟨rfl, rfl⟩

/-! ## Admitted instructions -/

namespace Books.Admits

variable {id : AssemblerId} {b : Books} {i : Instruction}

theorem definedLabel (h : b.Admits id i) {label : Label} (hdef : i.definedLabel? = some label) :
    label.owner = id ∧ label.index = b.labels.size.toUInt32 := by
  cases h with
  | defineLabel _ howner hindex =>
      cases hdef
      exact ⟨howner, hindex⟩
  | beginExceptionBlock _ howner hindex =>
      cases hdef
      exact ⟨howner, hindex⟩
  | move _ call hcall => cases i <;> cases hdef <;> cases hcall
  | _ => cases hdef

theorem declaredLocal (h : b.Admits id i) {v : Local} (hdef : i.declaredLocal? = some v) :
    v.owner = id ∧ v.index = b.locals.size.toUInt32 := by
  cases h with
  | declareLocal _ howner hindex =>
      cases hdef
      exact ⟨howner, hindex⟩
  | move _ call hcall =>
      cases i <;> cases hdef
      cases hcall
  | _ => cases hdef

theorem placed (h : b.Admits id i) {label : Label} (hplaced : i.placed? = some label) :
    b.Unmarked label := by
  cases h with
  | markLabel _ hunmarked =>
      cases hplaced
      exact hunmarked
  | move _ call hcall _ hexit =>
      cases i with
      | endExceptionBlock exit =>
          cases hplaced
          exact (hexit _ rfl).2
      | markLabel _ => cases hcall
      | _ => cases hplaced
  | _ => cases hplaced

theorem hasLabel (h : b.Admits id i) {label : Label} (hused : label ∈ i.labelsUsed) :
    b.HasLabel label := by
  cases h with
  | op o hlabels => exact hlabels label hused
  | markLabel _ hunmarked =>
      obtain rfl := List.mem_singleton.mp hused
      exact hunmarked.hasLabel
  | move _ call hcall _ hexit =>
      cases i with
      | endExceptionBlock exit =>
          obtain rfl := List.mem_singleton.mp hused
          exact (hexit _ rfl).2.hasLabel
      | op _ => cases hcall
      | markLabel _ => cases hcall
      | _ => cases hused
  | _ => cases hused

theorem hasLocal (h : b.Admits id i) {v : Local} (hused : i.UsesLocal v) : b.HasLocal v := by
  obtain ⟨o, rfl, hv⟩ := hused
  cases h with
  | op _ _ hlocal => exact hlocal v hv
  | move _ call hcall => cases hcall

end Books.Admits

namespace Books

/-! ## What the rosters hold -/

theorem map_label_modify (labels : Array LabelSlot) (n line : Nat) :
    (labels.modify n fun slot => { slot with mark := some line }).toList.map (·.label) =
      labels.toList.map (·.label) := by
  apply List.ext_getElem?
  intro k
  simp only [List.getElem?_map, Array.getElem?_toList, Array.getElem?_modify]
  split
  · simp [Option.map_map, Function.comp_def]
  · rfl

/-- The label roster holds the labels that the instructions allocate, in order. -/
theorem labels_ofInstructions (is : List Instruction) :
    (ofInstructions is).labels.toList.map (·.label) = is.filterMap Instruction.definedLabel? := by
  induction is using List.reverseRecOn with
  | nil => rfl
  | append_singleton is i ih =>
      rw [labels_append_singleton, List.filterMap_append, ← ih]
      rcases Recorder.labelsAfter_cases (ofInstructions is).labels is.length i
        with ⟨label, hdef, _, hafter⟩ | ⟨label, hdef, _, hafter⟩ | ⟨hdef, _, hafter⟩
      · simp [hafter, hdef]
      · rw [hafter, map_label_modify]
        simp [hdef]
      · simp [hafter, hdef]

/-- The local roster holds the locals that the instructions allocate, in order. -/
theorem locals_ofInstructions (is : List Instruction) :
    (ofInstructions is).locals.toList = is.filterMap Instruction.declaredLocal? := by
  induction is using List.reverseRecOn with
  | nil => rfl
  | append_singleton is i ih =>
      rw [locals_append_singleton, List.filterMap_append, ← ih]
      cases i <;> simp [Recorder.localsAfter, Instruction.declaredLocal?]

theorem size_labels (is : List Instruction) :
    (ofInstructions is).labels.size = (is.filterMap Instruction.definedLabel?).length := by
  rw [← labels_ofInstructions]
  simp

theorem size_labels_append_singleton (is : List Instruction) (i : Instruction) :
    (ofInstructions (is ++ [i])).labels.size =
      (ofInstructions is).labels.size + i.definedLabel?.toList.length := by
  rw [size_labels, size_labels, List.filterMap_append, filterMap_singleton, List.length_append]

theorem size_locals (is : List Instruction) :
    (ofInstructions is).locals.size = (is.filterMap Instruction.declaredLocal?).length := by
  rw [← locals_ofInstructions]
  simp

theorem hasLabel_iff {is : List Instruction} {label : Label} :
    (ofInstructions is).HasLabel label ↔
      ∃ found, (is.filterMap Instruction.definedLabel?)[label.index.toNat]? = some found ∧
        (found == label) = true := by
  rw [← labels_ofInstructions]
  simp [HasLabel, Option.map_eq_some_iff]

/-- Two labels on the roster are the same if they have one index. -/
theorem HasLabel.beq_of_index_eq {b : Books} {label other : Label} (h : b.HasLabel label)
    (hother : b.HasLabel other) (hindex : label.index = other.index) : (label == other) = true := by
  obtain ⟨slot, hslot, heq⟩ := h
  obtain ⟨found, hfound, heq'⟩ := hother
  rw [hindex, hfound] at hslot
  cases hslot
  rw [Label.beq_iff] at heq heq' ⊢
  exact ⟨heq.1.symm.trans heq'.1, heq.2.1.symm.trans heq'.2.1, hindex⟩

theorem hasLocal_iff {is : List Instruction} {v : Local} :
    (ofInstructions is).HasLocal v ↔
      ∃ found, (is.filterMap Instruction.declaredLocal?)[v.index.toNat]? = some found ∧
        (found == v) = true := by
  rw [← locals_ofInstructions]
  simp [HasLocal]

end Books

/-- An element that the first `k` entries of a list yield was yielded by one of them. -/
theorem exists_lt_of_filterMap_take {α β : Type} {f : α → Option β} {xs : List α} {k n : Nat} {y : β}
    (h : ((xs.take k).filterMap f)[n]? = some y) :
    ∃ j x, j < k ∧ xs[j]? = some x ∧ f x = some y := by
  obtain ⟨x, hx, hfx⟩ := List.mem_filterMap.mp (List.mem_of_getElem? h)
  obtain ⟨j, hj⟩ := List.mem_iff_getElem?.mp hx
  have hlt : j < k := by
    have hlen := (List.getElem?_eq_some_iff.mp hj).1
    simp only [List.length_take] at hlen
    omega
  rw [List.getElem?_take_of_lt hlt] at hj
  exact ⟨j, x, hlt, hj, hfx⟩

/-- What the first `k` entries of a list yield comes first among what the whole list yields. -/
theorem getElem?_filterMap_of_take {α β : Type} {f : α → Option β} {xs : List α} {k n : Nat} {y : β}
    (h : ((xs.take k).filterMap f)[n]? = some y) : (xs.filterMap f)[n]? = some y := by
  rw [← List.take_append_drop k xs, List.filterMap_append]
  rw [List.getElem?_append_left (List.getElem?_eq_some_iff.mp h).1]
  exact h

/-- The label that a line places, if it places one. -/
def placedAt? (is : List Instruction) (line : Nat) : Option Label :=
  is[line]?.bind Instruction.placed?

theorem placedAt?_append_singleton (is : List Instruction) (i : Instruction) (line : Nat) :
    placedAt? (is ++ [i]) line = if line = is.length then i.placed? else placedAt? is line := by
  unfold placedAt?
  by_cases hline : line = is.length
  · simp [hline]
  · rw [if_neg hline]
    by_cases hlt : line < is.length
    · rw [List.getElem?_append_left hlt]
    · rw [List.getElem?_eq_none (by simp; omega), List.getElem?_eq_none (by omega)]

theorem placedAt?_length (is : List Instruction) : placedAt? is is.length = none := by
  simp [placedAt?]

theorem placedAt?_append_of_none {i : Instruction} (hplaced : i.placed? = none)
    (is : List Instruction) (line : Nat) : placedAt? (is ++ [i]) line = placedAt? is line := by
  rw [placedAt?_append_singleton, hplaced]
  split
  · rename_i hline
    rw [hline, placedAt?_length]
  · rfl

theorem Instruction.mem_labelsUsed_of_placed {i : Instruction} {label : Label}
    (h : i.placed? = some label) : label ∈ i.labelsUsed := by
  cases i <;> cases h <;> exact List.mem_singleton.mpr rfl

theorem Label.index_eq_of_beq {a b : Label} (h : (a == b) = true) : a.index = b.index :=
  (Label.beq_iff.mp h).2.2

theorem Local.beq_iff {a b : Local} :
    (a == b) = true ↔ a.owner = b.owner ∧ a.revision = b.revision ∧ a.index = b.index ∧
      (a.type == b.type) = true ∧ a.pinned = b.pinned := by
  change (a.sameSlot b && a.type == b.type && a.pinned == b.pinned) = true ↔ _
  simp only [Local.sameSlot, Bool.and_eq_true, beq_iff_eq, and_assoc]

theorem Local.index_eq_of_beq {a b : Local} (h : (a == b) = true) : a.index = b.index :=
  (Local.beq_iff.mp h).2.2.1

theorem Local.owner_eq_of_beq {a b : Local} (h : (a == b) = true) : a.owner = b.owner :=
  (Local.beq_iff.mp h).1

theorem toNat_toUInt32_of_lt {n : Nat} (h : n < 2 ^ 32) : n.toUInt32.toNat = n := by
  simp only [Nat.toUInt32_eq, UInt32.toNat_ofNat']
  exact Nat.mod_eq_of_lt h

theorem toUInt32_succ (n : Nat) : (n + 1).toUInt32 = n.toUInt32 + 1 :=
  UInt32.ofNat_add n 1

/-- An index below that of a word is not the number of that word. -/
theorem toUInt32_ne_of_lt {m : Nat} {index : UInt32} (h : m < index.toNat) : m.toUInt32 ≠ index := by
  have hm : m < 2 ^ 32 := Nat.lt_trans h index.toNat_lt
  intro heq
  rw [← heq, toNat_toUInt32_of_lt hm] at h
  exact Nat.lt_irrefl m h

namespace Recorded

variable {id : AssemblerId} {is : List Instruction}

/-! ## Indices -/

theorem label_slot (h : Recorded id is) {n : Nat} {slot : LabelSlot}
    (hslot : (Books.ofInstructions is).labels[n]? = some slot) :
    slot.label.owner = id ∧ slot.label.index = n.toUInt32 := by
  induction is using List.reverseRecOn generalizing n slot with
  | nil => simp [Books.empty] at hslot
  | append_singleton is i ih =>
      obtain ⟨hprev, hadmits⟩ := append_singleton_iff.mp h
      rw [Books.labels_append_singleton] at hslot
      rcases Recorder.labelsAfter_cases (Books.ofInstructions is).labels is.length i
        with ⟨label, hdef, _, hafter⟩ | ⟨label, _, _, hafter⟩ | ⟨_, _, hafter⟩
      · rw [hafter, Array.getElem?_push] at hslot
        split at hslot
        · rename_i hn
          cases hslot
          subst hn
          exact hadmits.definedLabel hdef
        · exact ih hprev hslot
      · rw [hafter, Array.getElem?_modify] at hslot
        split at hslot
        · obtain ⟨old, hold, rfl⟩ := Option.map_eq_some_iff.mp hslot
          have hindex := ih hprev hold
          exact hindex
        · exact ih hprev hslot
      · rw [hafter] at hslot
        exact ih hprev hslot

theorem local_slot (h : Recorded id is) {n : Nat} {v : Local}
    (hslot : (Books.ofInstructions is).locals[n]? = some v) :
    v.owner = id ∧ v.index = n.toUInt32 := by
  induction is using List.reverseRecOn generalizing n v with
  | nil => simp [Books.empty] at hslot
  | append_singleton is i ih =>
      obtain ⟨hprev, hadmits⟩ := append_singleton_iff.mp h
      rw [Books.locals_append_singleton] at hslot
      rcases Recorder.localsAfter_cases (Books.ofInstructions is).locals i
        with ⟨w, hdef, hafter⟩ | ⟨_, hafter⟩
      · rw [hafter, Array.getElem?_push] at hslot
        split at hslot
        · rename_i hn
          cases hslot
          subst hn
          exact hadmits.declaredLocal hdef
        · exact ih hprev hslot
      · rw [hafter] at hslot
        exact ih hprev hslot

/-! ## References -/

/-- Labels are numbered in the order in which they are allocated. -/
theorem index_of_definedLabel (h : Recorded id is) {n : Nat} {label : Label}
    (hlabel : (is.filterMap Instruction.definedLabel?)[n]? = some label) :
    label.index = n.toUInt32 := by
  rw [← Books.labels_ofInstructions, List.getElem?_map] at hlabel
  obtain ⟨slot, hslot, rfl⟩ := Option.map_eq_some_iff.mp hlabel
  exact (h.label_slot (by simpa using hslot)).2

/-- Locals are numbered in the order in which they are declared. -/
theorem index_of_declaredLocal (h : Recorded id is) {n : Nat} {v : Local}
    (hv : (is.filterMap Instruction.declaredLocal?)[n]? = some v) : v.index = n.toUInt32 := by
  rw [← Books.locals_ofInstructions] at hv
  exact (h.local_slot (by simpa using hv)).2

theorem owner_of_hasLabel (h : Recorded id is) {label : Label}
    (hlabel : (Books.ofInstructions is).HasLabel label) : label.owner = id := by
  obtain ⟨slot, hslot, heq⟩ := hlabel
  rw [← (Label.beq_iff.mp heq).1]
  exact (h.label_slot hslot).1

theorem owner_of_hasLocal (h : Recorded id is) {v : Local}
    (hlocal : (Books.ofInstructions is).HasLocal v) : v.owner = id := by
  obtain ⟨slot, hslot, heq⟩ := hlocal
  rw [← Local.owner_eq_of_beq heq]
  exact (h.local_slot hslot).1

/-- Every label in a line is on the roster, and an earlier line put it there. -/
theorem label_used (h : Recorded id is) {k : Nat} {i : Instruction} {label : Label}
    (hi : is[k]? = some i) (hused : label ∈ i.labelsUsed) :
    ∃ slot, (Books.ofInstructions is).labels[label.index.toNat]? = some slot ∧
      (slot.label == label) = true ∧
      ∃ j line, j < k ∧ is[j]? = some line ∧ line.definedLabel? = some slot.label := by
  obtain ⟨found, hfound, heq⟩ := Books.hasLabel_iff.mp ((h k i hi).hasLabel hused)
  have hwhole := getElem?_filterMap_of_take hfound
  rw [← Books.labels_ofInstructions, List.getElem?_map] at hwhole
  obtain ⟨slot, hslot, rfl⟩ := Option.map_eq_some_iff.mp hwhole
  exact ⟨slot, by simpa using hslot, heq, exists_lt_of_filterMap_take hfound⟩

/-- Every local in a line is on the roster, and an earlier line put it there. -/
theorem local_used (h : Recorded id is) {k : Nat} {i : Instruction} {v : Local}
    (hi : is[k]? = some i) (hused : i.UsesLocal v) :
    ∃ slot, (Books.ofInstructions is).locals[v.index.toNat]? = some slot ∧
      (slot == v) = true ∧
      ∃ j line, j < k ∧ is[j]? = some line ∧ line.declaredLocal? = some slot := by
  obtain ⟨found, hfound, heq⟩ := Books.hasLocal_iff.mp ((h k i hi).hasLocal hused)
  have hwhole := getElem?_filterMap_of_take hfound
  rw [← Books.locals_ofInstructions] at hwhole
  exact ⟨found, by simpa using hwhole, heq, exists_lt_of_filterMap_take hfound⟩

theorem hasLabel_of_placedAt (h : Recorded id is) {line : Nat} {label : Label}
    (hplaced : placedAt? is line = some label) : (Books.ofInstructions is).HasLabel label := by
  obtain ⟨i, hi, hplaced⟩ := Option.bind_eq_some_iff.mp hplaced
  obtain ⟨slot, hslot, heq, _⟩ := h.label_used hi (i.mem_labelsUsed_of_placed hplaced)
  exact ⟨slot, hslot, heq⟩

/-! ## Marks -/

/-- A label offset is that of a line which places a label with that index. -/
theorem exists_placedAt_of_labelOffsets {index : UInt32} {offset : Nat}
    (h : (Stream.ofInstructions is).labelOffsets[index]? = some offset) :
    ∃ line label, placedAt? is line = some label ∧ label.index = index := by
  induction is using List.reverseRecOn with
  | nil => simp [Stream.labelOffsets, Stream.empty] at h
  | append_singleton is i ih =>
      cases hplaced : i.placed? with
      | none =>
          rw [Stream.labelOffsets_of_not_placed hplaced] at h
          obtain ⟨line, label, hline, hindex⟩ := ih h
          exact ⟨line, label, by rw [placedAt?_append_of_none hplaced, hline], hindex⟩
      | some label =>
          rw [Stream.labelOffsets_of_placed hplaced, Std.HashMap.getElem?_insert] at h
          split at h
          · rename_i heq
            refine ⟨is.length, label, ?_, beq_iff_eq.mp heq⟩
            rw [placedAt?_append_singleton, if_pos rfl, hplaced]
          · obtain ⟨line, other, hline, hindex⟩ := ih h
            refine ⟨line, other, ?_, hindex⟩
            have hne : line ≠ is.length := by
              rintro rfl
              rw [placedAt?_length] at hline
              cases hline
            rw [placedAt?_append_singleton, if_neg hne, hline]

/-- The index of a label that a line places has an offset. -/
theorem exists_labelOffsets_of_placedAt {line : Nat} {label : Label}
    (h : placedAt? is line = some label) :
    ∃ offset, (Stream.ofInstructions is).labelOffsets[label.index]? = some offset := by
  induction is using List.reverseRecOn with
  | nil => cases h
  | append_singleton is i ih =>
      rw [placedAt?_append_singleton] at h
      cases hplaced : i.placed? with
      | none =>
          rw [Stream.labelOffsets_of_not_placed hplaced]
          split at h
          · rw [hplaced] at h
            cases h
          · exact ih h
      | some other =>
          rw [Stream.labelOffsets_of_placed hplaced, Std.HashMap.getElem?_insert]
          split at h
          · rw [hplaced] at h
            cases h
            exact ⟨totalSize is, by simp⟩
          · split
            · exact ⟨totalSize is, rfl⟩
            · exact ih h

theorem index_lt_of_hasLabel {b : Books} {label : Label} (h : b.HasLabel label) :
    label.index.toNat < b.labels.size := by
  obtain ⟨slot, hslot, _⟩ := h
  exact (Array.getElem?_eq_some_iff.mp hslot).1

/-- The slot at an index is marked by exactly the line that places a label with that index. -/
theorem slot_mark_iff (h : Recorded id is) (index : UInt32) (line : Nat) :
    ((Books.ofInstructions is).labels[index.toNat]?.bind fun slot => slot.mark) = some line ↔
      ∃ label, placedAt? is line = some label ∧ label.index = index := by
  induction is using List.reverseRecOn with
  | nil => simp [Books.empty, placedAt?]
  | append_singleton is i ih =>
      obtain ⟨hprev, hadmits⟩ := append_singleton_iff.mp h
      have hbefore := ih hprev
      rw [Books.labels_append_singleton]
      rcases Recorder.labelsAfter_cases (Books.ofInstructions is).labels is.length i
        with ⟨label, _, hplaced, hafter⟩ | ⟨label, _, hplaced, hafter⟩ | ⟨_, hplaced, hafter⟩
      · rw [hafter, placedAt?_append_of_none hplaced, ← hbefore, Array.getElem?_push]
        split
        · rename_i hnew
          simp [hnew]
        · rfl
      · obtain ⟨old, hold, _, hnone⟩ := hadmits.placed hplaced
        rw [hafter, placedAt?_append_singleton, hplaced, Array.getElem?_modify]
        by_cases hsame : label.index = index
        · -- the slot was not marked, so no line before places a label with this index
          subst hsame
          rw [hold, Option.bind_some, hnone] at hbefore
          by_cases hline : line = is.length
          · simp [hold, hline]
          · rw [if_pos rfl, if_neg hline, ← hbefore, hold]
            simpa using fun heq : is.length = line => hline heq.symm
        · have hslot : label.index.toNat ≠ index.toNat := fun heq => hsame (UInt32.toNat_inj.mp heq)
          rw [if_neg hslot, hbefore]
          by_cases hline : line = is.length
          · simp [hline, placedAt?_length, hsame]
          · rw [if_neg hline]
      · rw [hafter, placedAt?_append_of_none hplaced]
        exact hbefore

/-- A slot is marked by exactly the line that places its label. -/
theorem mark_iff (h : Recorded id is) (hsize : (Books.ofInstructions is).labels.size ≤ 2 ^ 32)
    {n : Nat} {slot : LabelSlot} (hslot : (Books.ofInstructions is).labels[n]? = some slot)
    (line : Nat) :
    slot.mark = some line ↔
      ∃ label, placedAt? is line = some label ∧ (slot.label == label) = true := by
  have hlt : n < (Books.ofInstructions is).labels.size := (Array.getElem?_eq_some_iff.mp hslot).1
  have hindex : slot.label.index.toNat = n := by
    rw [(h.label_slot hslot).2]
    exact toNat_toUInt32_of_lt (by omega)
  have hmark := h.slot_mark_iff slot.label.index line
  rw [hindex, hslot, Option.bind_some] at hmark
  rw [hmark]
  constructor
  · rintro ⟨label, hplaced, hsame⟩
    obtain ⟨found, hfound, heq⟩ := h.hasLabel_of_placedAt hplaced
    rw [hsame, hindex, hslot] at hfound
    cases hfound
    exact ⟨label, hplaced, heq⟩
  · rintro ⟨label, hplaced, heq⟩
    exact ⟨label, hplaced, (Label.index_eq_of_beq heq).symm⟩

/-- The index of a label that a line places has the offset of that line. -/
theorem labelOffsets_of_placedAt (h : Recorded id is) {line : Nat} {label : Label}
    (hplaced : placedAt? is line = some label) :
    (Stream.ofInstructions is).labelOffsets[label.index]? = some (totalSize (is.take line)) := by
  induction is using List.reverseRecOn with
  | nil => cases hplaced
  | append_singleton is i ih =>
      obtain ⟨hprev, hadmits⟩ := append_singleton_iff.mp h
      rw [placedAt?_append_singleton] at hplaced
      split at hplaced
      · rename_i hline
        rw [Stream.labelOffsets_of_placed hplaced, hline, Std.HashMap.getElem?_insert_self,
          List.take_left]
      · obtain ⟨j, hj, _⟩ := Option.bind_eq_some_iff.mp hplaced
        have hlt : line < is.length := (List.getElem?_eq_some_iff.mp hj).1
        rw [List.take_append_of_le_length (Nat.le_of_lt hlt), ← ih hprev hplaced]
        cases hlast : i.placed? with
        | none => rw [Stream.labelOffsets_of_not_placed hlast]
        | some other =>
            -- the last line could place no label whose index has an offset already
            obtain ⟨slot, hslot, _, hnone⟩ := hadmits.placed hlast
            rw [Stream.labelOffsets_of_placed hlast, Std.HashMap.getElem?_insert, if_neg]
            intro hsame
            have hmark := (hprev.slot_mark_iff other.index line).mpr
              ⟨label, hplaced, (beq_iff_eq.mp hsame).symm⟩
            rw [hslot, Option.bind_some, hnone] at hmark
            cases hmark

/-- The index of a label that is not placed has no offset. -/
theorem labelOffsets_of_unmarked (h : Recorded id is)
    (hsize : (Books.ofInstructions is).labels.size ≤ 2 ^ 32) {label : Label}
    (hlabel : (Books.ofInstructions is).Unmarked label) :
    (Stream.ofInstructions is).labelOffsets[label.index]? = none := by
  cases hoffset : (Stream.ofInstructions is).labelOffsets[label.index]? with
  | none => rfl
  | some offset =>
      obtain ⟨line, other, hline, hindex⟩ := exists_placedAt_of_labelOffsets hoffset
      obtain ⟨slot, hslot, heq, hnone⟩ := hlabel
      obtain ⟨slot', hslot', heq'⟩ := h.hasLabel_of_placedAt hline
      rw [hindex, hslot] at hslot'
      cases hslot'
      rw [(h.mark_iff hsize hslot line).mpr ⟨other, hline, heq'⟩] at hnone
      cases hnone

/-- The label of a marked slot has an offset. -/
theorem labelOffsets_of_marked (h : Recorded id is)
    (hsize : (Books.ofInstructions is).labels.size ≤ 2 ^ 32) {n : Nat} {slot : LabelSlot}
    (hslot : (Books.ofInstructions is).labels[n]? = some slot) (hmark : slot.mark.isSome = true) :
    ∃ offset, (Stream.ofInstructions is).labelOffsets[n.toUInt32]? = some offset := by
  obtain ⟨line, hline⟩ := Option.isSome_iff_exists.mp hmark
  obtain ⟨label, hplaced, hsame⟩ := (h.mark_iff hsize hslot line).mp hline
  rw [← (h.label_slot hslot).2, Label.index_eq_of_beq hsame]
  exact exists_labelOffsets_of_placedAt hplaced

/-- An index that no label has yet has no offset. -/
theorem labelOffsets_of_fresh (h : Recorded id is) {n : Nat}
    (hsize : n = (Books.ofInstructions is).labels.size) (hn : n < 2 ^ 32) :
    (Stream.ofInstructions is).labelOffsets[n.toUInt32]? = none := by
  cases hoffset : (Stream.ofInstructions is).labelOffsets[n.toUInt32]? with
  | none => rfl
  | some offset =>
      obtain ⟨line, label, hline, hindex⟩ := exists_placedAt_of_labelOffsets hoffset
      have hlt := index_lt_of_hasLabel (h.hasLabel_of_placedAt hline)
      rw [hindex, toNat_toUInt32_of_lt hn, ← hsize] at hlt
      exact absurd hlt (Nat.lt_irrefl n)

/-- No label is placed by two lines. -/
theorem placed_once (h : Recorded id is) (hsize : (Books.ofInstructions is).labels.size ≤ 2 ^ 32)
    {k l : Nat} {a b : Label} (ha : placedAt? is k = some a) (hb : placedAt? is l = some b)
    (hab : (a == b) = true) : k = l := by
  obtain ⟨slot, hslot, heq⟩ := h.hasLabel_of_placedAt ha
  have heq' : (slot.label == b) = true := by
    rw [Label.beq_iff] at heq hab ⊢
    exact ⟨heq.1.trans hab.1, heq.2.1.trans hab.2.1, heq.2.2.trans hab.2.2⟩
  have hk := (h.mark_iff hsize hslot k).mpr ⟨a, ha, heq⟩
  have hl := (h.mark_iff hsize hslot l).mpr ⟨b, hb, heq'⟩
  exact Option.some.inj (hk.symm.trans hl)

end Recorded

end CilAssembler
