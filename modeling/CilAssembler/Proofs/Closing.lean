import CilAssembler.Proofs.Calls
import CilAssembler.Proofs.Draft
import CilAssembler.Proofs.Overrun

/-! # Which sessions can still be finished

A session can be brought to an end unless the end label of an open exception region has been placed
by hand: such a region cannot be closed any more, whatever is called. Otherwise it is enough to
close the regions from the innermost outwards and then to place the labels that are left. -/

namespace CilAssembler

namespace Books

variable {id : AssemblerId} {b : Books} {i : Instruction} {label : Label}

/-! ## Slots and later instructions -/

/-- The label has its slot, and a line has placed it. -/
def Marked (b : Books) (label : Label) : Prop :=
  ∃ slot, b.labels[label.index.toNat]? = some slot ∧ (slot.label == label) = true ∧
    slot.mark.isSome = true

theorem Marked.not_unmarked (h : b.Marked label) : ¬b.Unmarked label := by
  rintro ⟨slot, hslot, _, hnone⟩
  obtain ⟨slot', hslot', _, hsome⟩ := h
  rw [hslot] at hslot'
  cases hslot'
  rw [hnone] at hsome
  cases hsome

/-- A slot keeps its label, and its mark once it has one. -/
theorem slot_enter {n : Nat} {slot : LabelSlot} (h : b.labels[n]? = some slot) (i : Instruction) :
    ∃ slot', (b.enter i).labels[n]? = some slot' ∧ slot'.label = slot.label ∧
      (slot.mark.isSome = true → slot'.mark.isSome = true) := by
  have hlt := (Array.getElem?_eq_some_iff.mp h).1
  simp only [enter]
  rcases Recorder.labelsAfter_cases b.labels b.stream.length i
    with ⟨label, _, _, hafter⟩ | ⟨label, _, _, hafter⟩ | ⟨_, _, hafter⟩
  · refine ⟨slot, ?_, rfl, id⟩
    rw [hafter, Array.getElem?_push_lt hlt, ← h, Array.getElem?_eq_getElem hlt]
  · rw [hafter, Array.getElem?_modify, h]
    split
    · exact ⟨_, rfl, rfl, fun _ => rfl⟩
    · exact ⟨slot, rfl, rfl, id⟩
  · exact ⟨slot, by rw [hafter, h], rfl, id⟩

/-- A slot stays as it is unless the instruction places its label. -/
theorem slot_enter_of_not_placed {n : Nat} {slot : LabelSlot} (h : b.labels[n]? = some slot)
    (hplaced : ∀ label, i.placed? = some label → label.index.toNat ≠ n) :
    (b.enter i).labels[n]? = some slot := by
  have hlt := (Array.getElem?_eq_some_iff.mp h).1
  simp only [enter]
  rcases Recorder.labelsAfter_cases b.labels b.stream.length i
    with ⟨label, _, _, hafter⟩ | ⟨label, _, hlabel, hafter⟩ | ⟨_, _, hafter⟩
  · rw [hafter, Array.getElem?_push_lt hlt, ← h, Array.getElem?_eq_getElem hlt]
  · rw [hafter, Array.getElem?_modify, if_neg (hplaced label hlabel), h]
  · rw [hafter, h]

theorem HasLabel.enter (h : b.HasLabel label) (i : Instruction) : (b.enter i).HasLabel label := by
  obtain ⟨slot, hslot, heq⟩ := h
  obtain ⟨slot', hslot', hlabel, _⟩ := slot_enter hslot i
  exact ⟨slot', hslot', hlabel ▸ heq⟩

theorem Marked.enter (h : b.Marked label) (i : Instruction) : (b.enter i).Marked label := by
  obtain ⟨slot, hslot, heq, hmark⟩ := h
  obtain ⟨slot', hslot', hlabel, hkept⟩ := slot_enter hslot i
  exact ⟨slot', hslot', hlabel ▸ heq, hkept hmark⟩

theorem Unmarked.enter (h : b.Unmarked label)
    (hplaced : ∀ other, i.placed? = some other → other.index ≠ label.index) :
    (b.enter i).Unmarked label := by
  obtain ⟨slot, hslot, heq, hnone⟩ := h
  refine ⟨slot, slot_enter_of_not_placed hslot ?_, heq, hnone⟩
  intro other hother hsame
  exact hplaced other hother (UInt32.toNat_inj.mp hsame)

/-- An instruction that defines a label gives it the slot after the last one. -/
theorem hasLabel_enter_of_defined (hdef : i.definedLabel? = some label)
    (hindex : label.index.toNat = b.labels.size) : (b.enter i).HasLabel label := by
  rcases Recorder.labelsAfter_cases b.labels b.stream.length i
    with ⟨other, hother, _, hafter⟩ | ⟨_, hnone, _⟩ | ⟨hnone, _⟩
  · rw [hdef] at hother
    cases hother
    refine ⟨⟨label, none⟩, ?_, Label.beq_iff.mpr ⟨rfl, rfl, rfl⟩⟩
    simp only [Books.enter]
    rw [hafter, hindex, Array.getElem?_push_size]
  · rw [hdef] at hnone
    cases hnone
  · rw [hdef] at hnone
    cases hnone

/-- An instruction that places a label marks it. -/
theorem Unmarked.marked_enter (h : b.Unmarked label) (hplaced : i.placed? = some label) :
    (b.enter i).Marked label := by
  obtain ⟨slot, hslot, heq, _⟩ := h
  simp only [Books.enter, Marked]
  rcases Recorder.labelsAfter_cases b.labels b.stream.length i
    with ⟨_, _, hnone, _⟩ | ⟨other, _, hother, hafter⟩ | ⟨_, hnone, _⟩
  · rw [hplaced] at hnone
    cases hnone
  · rw [hplaced] at hother
    cases hother
    rw [hafter, Array.getElem?_modify, if_pos rfl, hslot]
    exact ⟨_, rfl, heq, rfl⟩
  · rw [hplaced] at hnone
    cases hnone

/-! ## Exits and later instructions -/

/-- What an instruction does to the end labels of the open regions. -/
theorem Admits.exits_cases (h : b.Admits id i) :
    (∃ exit, i.definedLabel? = some exit ∧ (b.enter i).regions.exits = exit :: b.regions.exits) ∨
    (∃ exit, i.placed? = some exit ∧ b.regions.exits = exit :: (b.enter i).regions.exits) ∨
    (b.enter i).regions.exits = b.regions.exits := by
  cases h with
  | beginExceptionBlock exit => exact .inl ⟨exit, rfl, rfl⟩
  | move _ call hcall hcheck hexit =>
      cases i with
      | endExceptionBlock exit =>
          exact .inr (.inl ⟨exit, rfl, RegionStack.exits_eq_cons (hexit exit rfl).1⟩)
      | beginCatchBlock | beginExceptFilterBlock | beginFinallyBlock | beginFaultBlock | endScope =>
          cases hcall
          exact .inr (.inr (RegionStack.exits_advance hcheck (by rintro ⟨⟩)))
      | op | defineLabel | markLabel | declareLocal | beginExceptionBlock | beginScope =>
          cases hcall
  | _ => exact .inr (.inr rfl)

/-- An open region has an end label that is placed already. -/
def Blocked (b : Books) : Prop :=
  ∃ exit ∈ b.regions.exits, b.Marked exit

/-- No instruction unblocks: a region is closed by placing its end label, and that is done once. -/
theorem Blocked.enter (h : b.Blocked) (hadmits : b.Admits id i) : (b.enter i).Blocked := by
  obtain ⟨exit, hexit, hmarked⟩ := h
  refine ⟨exit, ?_, hmarked.enter i⟩
  rcases hadmits.exits_cases with ⟨new, _, hexits⟩ | ⟨closed, hplaced, hexits⟩ | hexits
  · rw [hexits]
    exact List.mem_cons_of_mem _ hexit
  · rw [hexits] at hexit
    rcases List.mem_cons.mp hexit with rfl | hrest
    · exact absurd (hadmits.placed hplaced) hmarked.not_unmarked
    · exact hrest
  · rw [hexits]
    exact hexit

end Books

/-- The end labels of open regions are on the roster, each with an index of its own. -/
theorem Recorded.exits {id : AssemblerId} {is : List Instruction} (h : Recorded id is)
    (hsize : (Books.ofInstructions is).labels.size ≤ 2 ^ 32) :
    (∀ exit ∈ (Books.ofInstructions is).regions.exits, (Books.ofInstructions is).HasLabel exit) ∧
      (Books.ofInstructions is).regions.exits.Pairwise (·.index ≠ ·.index) := by
  induction is using List.reverseRecOn with
  | nil => exact ⟨by rintro _ ⟨⟩, .nil⟩
  | append_singleton is i ih =>
      obtain ⟨hprev, hadmits⟩ := append_singleton_iff.mp h
      rw [Books.size_labels_append_singleton] at hsize
      obtain ⟨hhas, hdistinct⟩ := ih hprev (by omega)
      have hlater : ∀ exit ∈ (Books.ofInstructions is).regions.exits,
          ((Books.ofInstructions is).enter i).HasLabel exit :=
        fun exit hexit => (hhas exit hexit).enter i
      rw [Books.ofInstructions_append_singleton]
      rcases hadmits.exits_cases with ⟨new, hdef, hexits⟩ | ⟨closed, _, hexits⟩ | hexits
      · -- The new label takes the next index, which is too large for the other ones.
        have hindex : new.index.toNat = (Books.ofInstructions is).labels.size := by
          rw [(hadmits.definedLabel hdef).2]
          apply toNat_toUInt32_of_lt
          rw [hdef, Option.toList_some, List.length_singleton] at hsize
          exact hsize
        rw [hexits]
        constructor
        · exact List.forall_mem_cons.mpr ⟨Books.hasLabel_enter_of_defined hdef hindex, hlater⟩
        · refine List.pairwise_cons.mpr ⟨?_, hdistinct⟩
          intro exit hexit hsame
          have hlt := index_lt_of_hasLabel (hhas exit hexit)
          rw [← hsame, hindex] at hlt
          exact Nat.lt_irrefl _ hlt
      · rw [hexits] at hlater hdistinct
        exact ⟨fun exit hexit => hlater exit (List.mem_cons_of_mem _ hexit),
          (List.pairwise_cons.mp hdistinct).2⟩
      · rw [hexits]
        exact ⟨hlater, hdistinct⟩

namespace Recorder

variable {r s : Recorder} {label : Label}

theorem isMarked_iff : r.isMarked label = true ↔ label.owner = r.id ∧ r.books.Marked label := by
  unfold isMarked Books.Marked
  cases hslot : r.labelSlot label with
  | error e =>
      constructor
      · rintro ⟨⟩
      · rintro ⟨howner, slot, hfound, heq, _⟩
        rw [labelSlot_eq_ok.mpr ⟨howner, hfound, heq⟩] at hslot
        cases hslot
  | ok slot =>
      obtain ⟨howner, hfound, heq⟩ := labelSlot_eq_ok.mp hslot
      constructor
      · exact fun hmark => ⟨howner, slot, hfound, heq, hmark⟩
      · rintro ⟨_, slot', hfound', _, hmark⟩
        have hsame : slot' = slot := Option.some.inj (hfound'.symm.trans hfound)
        rwa [hsame] at hmark

theorem Kept.unmarked_of_isMarked (h : r.Kept) (hlabel : r.books.HasLabel label)
    (hmarked : r.isMarked label = false) : r.books.Unmarked label := by
  have howner : label.owner = r.id := h.recorded.owner_of_hasLabel (h.books ▸ hlabel)
  obtain ⟨slot, hslot, heq⟩ := hlabel
  refine ⟨slot, hslot, heq, ?_⟩
  cases hmark : slot.mark with
  | none => rfl
  | some line =>
      have hyes := isMarked_iff.mpr ⟨howner, slot, hslot, heq, by rw [hmark]; rfl⟩
      rw [hmarked] at hyes
      cases hyes

/-! ## Calls that are all accepted -/

/-- Performs calls one after the other, up to the first one that is refused. -/
def issue (r : Recorder) : List Call → Except Error Recorder
  | [] => .ok r
  | call :: rest =>
      match r.perform call with
      | (.ok _, next) => next.issue rest
      | (.error e, _) => .error e

theorem issue_append {first : List Call} (h : r.issue first = .ok s) (rest : List Call) :
    r.issue (first ++ rest) = s.issue rest := by
  induction first generalizing r with
  | nil =>
      cases h
      rfl
  | cons call first ih =>
      rw [List.cons_append, issue]
      rw [issue] at h
      split at h
      · exact ih h
      · cases h

/-- Every issued call became a line of the stream. -/
theorem calls_of_issue {calls : List Call} (h : r.issue calls = .ok s) :
    s.stream.instructions.map Instruction.call =
      r.stream.instructions.map Instruction.call ++ calls := by
  induction calls generalizing r with
  | nil =>
      cases h
      rw [List.append_nil]
  | cons call rest ih =>
      rw [issue] at h
      rcases perform_cases call r with ⟨e, _, hrefused⟩ | ⟨reply, i, hprepare, haccepted, _⟩
      · rw [hrefused] at h
        cases h
      · rw [haccepted] at h
        rw [ih h, instructions_record, List.map_append, List.append_assoc]
        rw [← (call_of_prepare hprepare).1]
        rfl

/-- The call of an instruction that is admitted and allocates nothing is accepted. -/
theorem Kept.issue_cons {i : Instruction} (h : r.Kept) (hadmits : r.books.Admits r.id i)
    (hlabel : i.definedLabel? = none) (hlocal : i.declaredLocal? = none) (rest : List Call) :
    r.issue (i.call :: rest) = (r.record i).issue rest := by
  have hprepare := prepare_call h hadmits (.of_none hlabel hlocal _)
  rw [issue, perform, hprepare]

end Recorder

/-! ## Closing regions -/

/-- The calls that close a region. A try block needs a handler first. -/
def Frame.closingCalls : Frame → List Call
  | .scope => [.endScope]
  | .exceptionBlock _ .inTry _ => [.beginFinallyBlock, .endExceptionBlock]
  | .exceptionBlock _ _ _ => [.endExceptionBlock]

/-- The calls that close all regions, from the innermost outwards. -/
def RegionStack.closingCalls (s : RegionStack) : List Call :=
  s.frames.flatMap Frame.closingCalls

namespace Recorder

variable {r : Recorder}

/-- The end labels of the open regions can still be placed, one after the other. -/
structure Closable (r : Recorder) : Prop where
  kept : r.Kept
  unmarked : ∀ exit ∈ r.regions.exits, r.books.Unmarked exit
  distinct : r.regions.exits.Pairwise (·.index ≠ ·.index)

theorem Closable.record {i : Instruction} (h : r.Closable) (hadmits : r.books.Admits r.id i)
    (hplaced : i.placed? = none) (hexits : (r.record i).regions.exits = r.regions.exits) :
    (r.record i).Closable := by
  refine ⟨h.kept.record hadmits, ?_, ?_⟩
  · rw [hexits]
    intro exit hexit
    apply (h.unmarked exit hexit).enter
    rw [hplaced]
    rintro _ ⟨⟩
  · rw [hexits]
    exact h.distinct

/-- A scope can be closed. -/
theorem Closable.endScope {rest : List Frame} (h : r.Closable)
    (hframes : r.regions.frames = .scope :: rest) :
    ∃ s, r.issue [.endScope] = .ok s ∧ s.Closable ∧ s.regions.frames = rest ∧
      s.labels.size = r.labels.size := by
  have hadmits : r.books.Admits r.id .endScope := by
    refine .move _ .endScope rfl ?_ (by rintro _ ⟨⟩)
    simp [books, RegionStack.check, RegionStack.fault?, hframes]
  have hrest : (r.record .endScope).regions.frames = rest := by
    simp [Recorder.record, regionsAfter, RegionStack.advance, hframes]
  have hexits : (r.record .endScope).regions.exits = r.regions.exits := by
    simp only [RegionStack.exits, hrest, hframes]
    rfl
  exact ⟨r.record .endScope, h.kept.issue_cons hadmits rfl rfl [], h.record hadmits rfl hexits,
    hrest, rfl⟩

/-- An exception region that has a handler can be closed. -/
theorem Closable.endBlock {exit : Label} {state : BlockState} {handlers : UInt32}
    {rest : List Frame} (h : r.Closable)
    (hframes : r.regions.frames = .exceptionBlock exit state handlers :: rest)
    (hstate : state ≠ .inTry) :
    ∃ s, r.issue [.endExceptionBlock] = .ok s ∧ s.Closable ∧ s.regions.frames = rest ∧
      s.labels.size = r.labels.size := by
  have hinnermost : r.regions.innermostExit? = some exit := by
    simp [RegionStack.innermostExit?, hframes]
  have hrest : (r.record (.endExceptionBlock exit)).regions.frames = rest := by
    simp [Recorder.record, regionsAfter, RegionStack.advance, hframes]
  have hexits : r.regions.exits = exit :: (r.record (.endExceptionBlock exit)).regions.exits :=
    RegionStack.exits_eq_cons hinnermost
  have hmem : exit ∈ r.regions.exits := by
    rw [hexits]
    exact List.mem_cons_self
  have hadmits : r.books.Admits r.id (.endExceptionBlock exit) := by
    refine .move _ .endBlock rfl ?_ ?_
    · simp [books, RegionStack.check, RegionStack.fault?, hframes, BlockState.allows, hstate]
    · rintro _ ⟨⟩
      exact ⟨hinnermost, h.unmarked exit hmem⟩
  have hdistinct := h.distinct
  rw [hexits] at hdistinct
  obtain ⟨hnew, hothers⟩ := List.pairwise_cons.mp hdistinct
  refine ⟨r.record (.endExceptionBlock exit), h.kept.issue_cons hadmits rfl rfl [],
    ⟨h.kept.record hadmits, ?_, hothers⟩, hrest, Array.size_modify⟩
  intro other hother
  apply (h.unmarked other (by rw [hexits]; exact List.mem_cons_of_mem _ hother)).enter
  rintro _ ⟨⟩
  exact hnew other hother

/-- A try block can be given a handler. -/
theorem Closable.beginFinally {exit : Label} {handlers : UInt32} {rest : List Frame}
    (h : r.Closable) (hframes : r.regions.frames = .exceptionBlock exit .inTry handlers :: rest) :
    ∃ s, r.issue [.beginFinallyBlock] = .ok s ∧ s.Closable ∧
      s.regions.frames = .exceptionBlock exit .inFinally (handlers + 1) :: rest ∧
      s.labels.size = r.labels.size := by
  have hadmits : r.books.Admits r.id .beginFinallyBlock := by
    refine .move _ .beginFinally rfl ?_ (by rintro _ ⟨⟩)
    simp [books, RegionStack.check, RegionStack.fault?, hframes, BlockState.allows]
  have hafter : (r.record .beginFinallyBlock).regions.frames =
      .exceptionBlock exit .inFinally (handlers + 1) :: rest := by
    simp [Recorder.record, regionsAfter, RegionStack.advance, hframes, RegionCall.opens]
  have hexits : (r.record .beginFinallyBlock).regions.exits = r.regions.exits := by
    simp only [RegionStack.exits, hafter, hframes]
    rfl
  exact ⟨r.record .beginFinallyBlock, h.kept.issue_cons hadmits rfl rfl [],
    h.record hadmits rfl hexits, hafter, rfl⟩

/-- The innermost region can be closed, whatever its state. -/
theorem Closable.closes_frame {frame : Frame} {rest : List Frame} (h : r.Closable)
    (hframes : r.regions.frames = frame :: rest) :
    ∃ s, r.issue frame.closingCalls = .ok s ∧ s.Closable ∧ s.regions.frames = rest ∧
      s.labels.size = r.labels.size := by
  cases frame with
  | scope => exact h.endScope hframes
  | exceptionBlock exit state handlers =>
      cases state with
      | inTry =>
          obtain ⟨s, hissue, hclosable, hafter, hsize⟩ := h.beginFinally hframes
          obtain ⟨t, hend, hclosed, hrest, hsame⟩ := hclosable.endBlock hafter (by rintro ⟨⟩)
          refine ⟨t, ?_, hclosed, hrest, hsame.trans hsize⟩
          exact (issue_append hissue [.endExceptionBlock]).trans hend
      | inCatch | inFilter | inFinally | inFault => exact h.endBlock hframes (by rintro ⟨⟩)

/-- All regions can be closed. -/
theorem Closable.closes (h : r.Closable) :
    ∃ s, r.issue r.regions.closingCalls = .ok s ∧ s.Kept ∧ s.regions.frames = [] ∧
      s.labels.size = r.labels.size := by
  unfold RegionStack.closingCalls
  generalize hframes : r.regions.frames = frames
  induction frames generalizing r with
  | nil => exact ⟨r, rfl, h.kept, hframes, rfl⟩
  | cons frame rest ih =>
      obtain ⟨s, hissue, hclosable, hrest, hsize⟩ := h.closes_frame hframes
      obtain ⟨t, hothers, hkept, hempty, hsame⟩ := ih hclosable hrest
      refine ⟨t, ?_, hkept, hempty, hsame.trans hsize⟩
      rw [List.flatMap_cons, issue_append hissue, hothers]

/-! ## Placing labels -/

/-- The labels on the roster that no line has placed. -/
def unmarkedLabels (r : Recorder) : List Label :=
  (r.labels.toList.filter (·.mark.isNone)).map (·.label)

/-- Labels that are not placed yet can be placed in any order. -/
theorem Kept.marks {labels : List Label} (h : r.Kept)
    (hunmarked : ∀ label ∈ labels, r.books.Unmarked label)
    (hdistinct : labels.Pairwise (·.index ≠ ·.index)) :
    ∃ s, r.issue (labels.map .markLabel) = .ok s ∧ s.Kept ∧ s.regions = r.regions ∧
      s.labels.size = r.labels.size ∧
      ∀ label, r.books.Marked label ∨ label ∈ labels → s.books.Marked label := by
  induction labels generalizing r with
  | nil => exact ⟨r, rfl, h, rfl, rfl, by simp⟩
  | cons first rest ih =>
      obtain ⟨hfirst, hrest⟩ := List.forall_mem_cons.mp hunmarked
      obtain ⟨hnew, hothers⟩ := List.pairwise_cons.mp hdistinct
      have hadmits : r.books.Admits r.id (.markLabel first) := .markLabel first hfirst
      have hlater : ∀ label ∈ rest, (r.record (.markLabel first)).books.Unmarked label := by
        intro label hlabel
        apply (hrest label hlabel).enter
        rintro _ ⟨⟩
        exact hnew label hlabel
      obtain ⟨s, hissue, hkept, hregions, hsize, hmarked⟩ := ih (h.record hadmits) hlater hothers
      refine ⟨s, ?_, hkept, hregions, hsize.trans Array.size_modify, ?_⟩
      · rw [List.map_cons, ← hissue]
        exact h.issue_cons hadmits rfl rfl _
      · rintro label (hlabel | hlabel)
        · exact hmarked label (.inl (hlabel.enter _))
        · rcases List.mem_cons.mp hlabel with rfl | hlabel
          · exact hmarked _ (.inl (hfirst.marked_enter rfl))
          · exact hmarked label (.inr hlabel)

theorem Kept.slot_label (h : r.Kept) (hsize : r.labels.size ≤ 2 ^ 32) {n : Nat} {slot : LabelSlot}
    (hslot : r.labels[n]? = some slot) : slot.label.index.toNat = n := by
  have hlt := (Array.getElem?_eq_some_iff.mp hslot).1
  have hbooks : (Books.ofInstructions r.stream.instructions).labels[n]? = some slot := by
    rw [← h.books]
    exact hslot
  rw [(h.recorded.label_slot hbooks).2]
  exact toNat_toUInt32_of_lt (by omega)

theorem Kept.unmarked_of_mem (h : r.Kept) (hsize : r.labels.size ≤ 2 ^ 32) {label : Label}
    (hlabel : label ∈ r.unmarkedLabels) : r.books.Unmarked label := by
  obtain ⟨slot, hslot, rfl⟩ := List.mem_map.mp hlabel
  obtain ⟨hmem, hnone⟩ := List.mem_filter.mp hslot
  obtain ⟨n, hn⟩ := List.mem_iff_getElem?.mp hmem
  rw [Array.getElem?_toList] at hn
  refine ⟨slot, ?_, Label.beq_iff.mpr ⟨rfl, rfl, rfl⟩, Option.isNone_iff_eq_none.mp hnone⟩
  rw [h.slot_label hsize hn]
  exact hn

theorem Kept.pairwise_unmarkedLabels (h : r.Kept) (hsize : r.labels.size ≤ 2 ^ 32) :
    r.unmarkedLabels.Pairwise (·.index ≠ ·.index) := by
  have hall : r.labels.toList.Pairwise (·.label.index ≠ ·.label.index) := by
    rw [List.pairwise_iff_getElem]
    intro m n hm hn hlt hsame
    have hfirst := h.slot_label hsize (@Array.getElem?_eq_getElem _ r.labels m hm)
    have hsecond := h.slot_label hsize (@Array.getElem?_eq_getElem _ r.labels n hn)
    simp only [Array.getElem_toList] at hsame
    rw [hsame, hsecond] at hfirst
    omega
  exact List.pairwise_map.mpr (hall.filter _)

/-- A session whose regions are closed and whose labels are placed can be finished. -/
theorem Kept.finish_eq (h : r.Kept) (hframes : r.regions.frames = [])
    (hmarked : ∀ (n : Nat) (slot : LabelSlot), r.labels[n]? = some slot → slot.mark.isSome = true) :
    r.finish = .ok r.stream := by
  refine finish_eq_ok.mpr ⟨List.isEmpty_iff.mpr hframes, ?_, rfl⟩
  apply unmarkedTarget?_eq_none_iff.mpr
  rintro ⟨offset, o⟩ hentry target htarget
  have hline := Stream.exists_mem_ops_iff.mp ⟨offset, hentry⟩
  obtain ⟨k, hk⟩ := List.mem_iff_getElem?.mp hline
  obtain ⟨slot, hslot, _⟩ := h.recorded.label_used hk htarget
  rw [← h.books] at hslot
  exact ⟨slot, hslot, hmarked _ slot hslot⟩

/-- Closing all regions and then placing all labels brings the session to an end. -/
theorem Closable.finishes (h : r.Closable) (hsize : r.labels.size ≤ 2 ^ 32) :
    ∃ closed done, r.issue r.regions.closingCalls = .ok closed ∧
      closed.issue (closed.unmarkedLabels.map .markLabel) = .ok done ∧
      done.finish = .ok done.stream := by
  obtain ⟨closed, hclosing, hkept, hframes, hsame⟩ := h.closes
  rw [← hsame] at hsize
  obtain ⟨done, hmarking, hdone, hregions, hcount, hmarked⟩ :=
    hkept.marks (fun _ => hkept.unmarked_of_mem hsize) (hkept.pairwise_unmarkedLabels hsize)
  refine ⟨closed, done, hclosing, hmarking, hdone.finish_eq (by rw [hregions, hframes]) ?_⟩
  intro n slot hslot
  have hlt := (Array.getElem?_eq_some_iff.mp hslot).1
  rw [hcount] at hlt
  obtain ⟨before, hbefore⟩ : ∃ before, closed.labels[n]? = some before :=
    ⟨_, Array.getElem?_eq_getElem hlt⟩
  have hindex := hkept.slot_label hsize hbefore
  have hlabel : done.books.Marked before.label := by
    apply hmarked
    cases hmark : before.mark with
    | some line =>
        refine .inl ⟨before, ?_, Label.beq_iff.mpr ⟨rfl, rfl, rfl⟩, by rw [hmark]; rfl⟩
        rw [hindex]
        exact hbefore
    | none =>
        refine .inr (List.mem_map.mpr ⟨before, List.mem_filter.mpr ⟨?_, by rw [hmark]; rfl⟩, rfl⟩)
        rw [← Array.getElem?_toList] at hbefore
        exact List.mem_of_getElem? hbefore
  obtain ⟨found, hfound, _, hsome⟩ := hlabel
  rw [hindex] at hfound
  have heq : found = slot := Option.some.inj (hfound.symm.trans hslot)
  rwa [heq] at hsome

end Recorder

/-! ## Sessions -/

namespace Recorder

variable {r : Recorder}

/-- A call does not unblock a session. -/
theorem blocked_perform (h : r.books.Blocked) (call : Call) : (r.perform call).2.books.Blocked := by
  rcases perform_cases call r with ⟨e, _, hrefused⟩ | ⟨reply, i, _, haccepted, hadmits⟩
  · rw [hrefused]
    exact h
  · rw [haccepted]
    exact h.enter hadmits

theorem isOk_finish_of_blocked (h : r.books.Blocked) : r.finish.isOk = false := by
  obtain ⟨exit, hexit, _⟩ := h
  cases hfinish : r.finish with
  | error e => rfl
  | ok stream =>
      have hempty := (finish_eq_ok.mp hfinish).1
      have hframes : r.regions.frames = [] := List.isEmpty_iff.mp hempty
      simp [books, RegionStack.exits, hframes] at hexit

end Recorder

namespace Workshop

theorem blocked_after {w : Workshop} (hidentified : w.Identified) {id : AssemblerId}
    (h : (w.recorder id).books.Blocked) {later : List Request}
    (hrewind : ∀ number, .rewind id number ∉ later) :
    ((w.after later).recorder id).books.Blocked := by
  induction later generalizing w with
  | nil => exact h
  | cons request rest ih =>
      refine ih (hidentified.step request) ?_ fun number hmem =>
        hrewind number (List.mem_cons_of_mem _ hmem)
      rcases step_cases hidentified id request with ⟨call, _, hrecorder, _⟩ | ⟨_, hrecorder, _⟩ |
        ⟨number, c, rfl, _⟩ | ⟨_, _, hrecorder, _⟩
      · rw [hrecorder]
        exact Recorder.blocked_perform h call
      · rw [hrecorder]
        exact h
      · exact absurd List.mem_cons_self (hrewind number)
      · rw [hrecorder]
        exact h

/-- Calls that are all accepted are requests like others. -/
theorem recorder_after_issue {w : Workshop} {id : AssemblerId} {calls : List Call} {s : Recorder}
    (h : (w.recorder id).issue calls = .ok s) :
    (w.after (calls.map (.perform id))).recorder id = s := by
  induction calls generalizing w with
  | nil =>
      cases h
      rfl
  | cons call rest ih =>
      rw [Recorder.issue] at h
      split at h
      · rename_i reply next hperform
        apply ih
        simpa [step, hperform] using h
      · cases h

/-- Whatever was requested, a session can be finished without a rewind exactly if no open exception
region has an end label that is placed already. In that case it is enough to close the regions from
the innermost outwards and then to place every label that is left: none of these calls is refused,
each becomes a line, and the session ends with its stream. -/
theorem finishable_iff_exits_unmarked (requests : List Request) (id : AssemblerId)
    (hcheckpoints : requests.countP (·.takesCheckpoint id) < 2 ^ 32)
    (hlabels : ((run requests).recorder id).labels.size ≤ 2 ^ 32) :
    let r := (run requests).recorder id
    ((∃ later, (∀ number, .rewind id number ∉ later) ∧
        ((run (requests ++ later)).recorder id).finish.isOk = true) ↔
      ∀ exit ∈ r.regions.exits, r.isMarked exit = false) ∧
    ((∀ exit ∈ r.regions.exits, r.isMarked exit = false) →
      ∃ closed done, r.issue r.regions.closingCalls = .ok closed ∧
        closed.issue (closed.unmarkedLabels.map .markLabel) = .ok done ∧
        done.finish = .ok done.stream ∧
        done.stream.instructions.map Instruction.call =
          r.stream.instructions.map Instruction.call ++ r.regions.closingCalls ++
            closed.unmarkedLabels.map .markLabel) := by
  intro r
  have hkept : r.Kept := (keeps_run requests id hcheckpoints).sound.toKept
  have hexits := hkept.recorded.exits (by rw [← hkept.books]; exact hlabels)
  rw [← hkept.books] at hexits
  obtain ⟨hhas, hdistinct⟩ := hexits
  have hcloses : (∀ exit ∈ r.regions.exits, r.isMarked exit = false) →
      ∃ closed done, r.issue r.regions.closingCalls = .ok closed ∧
        closed.issue (closed.unmarkedLabels.map .markLabel) = .ok done ∧
        done.finish = .ok done.stream := by
    intro hopen
    refine Recorder.Closable.finishes ⟨hkept, ?_, hdistinct⟩ hlabels
    exact fun exit hexit => hkept.unmarked_of_isMarked (hhas exit hexit) (hopen exit hexit)
  refine ⟨⟨?_, ?_⟩, ?_⟩
  · rintro ⟨later, hrewind, hfinish⟩ exit hexit
    by_contra hmarked
    have hblocked : r.books.Blocked :=
      ⟨exit, hexit, (Recorder.isMarked_iff.mp (Bool.not_eq_false _ ▸ hmarked)).2⟩
    have hlater := blocked_after (identified_run requests) hblocked hrewind
    rw [← run_append] at hlater
    rw [Recorder.isOk_finish_of_blocked hlater] at hfinish
    cases hfinish
  · intro hopen
    obtain ⟨closed, done, hclosing, hmarking, hfinish⟩ := hcloses hopen
    refine ⟨(r.regions.closingCalls ++ closed.unmarkedLabels.map Call.markLabel).map (.perform id),
      by simp, ?_⟩
    rw [run_append, recorder_after_issue ((Recorder.issue_append hclosing _).trans hmarking), hfinish]
    rfl
  · intro hopen
    obtain ⟨closed, done, hclosing, hmarking, hfinish⟩ := hcloses hopen
    refine ⟨closed, done, hclosing, hmarking, hfinish, ?_⟩
    rw [Recorder.calls_of_issue hmarking, Recorder.calls_of_issue hclosing]

/-- A scope in a try block in the catch block of another region. Once the end label of the outer
region is placed by hand there is no way to finish; after the rewind there is. -/
theorem finishable_iff_exits_unmarked_rewound :
    let requests : List Request :=
      [.perform ⟨1⟩ .beginExceptionBlock, .perform ⟨1⟩ (.beginCatchBlock none),
        .perform ⟨1⟩ .beginExceptionBlock, .perform ⟨1⟩ .beginScope,
        .perform ⟨1⟩ (.defineLabel none), .perform ⟨1⟩ (.emit .br (.label ⟨⟨1⟩, 0, 2, none⟩)),
        .checkpoint ⟨1⟩, .perform ⟨1⟩ (.markLabel ⟨⟨1⟩, 0, 0, none⟩)]
    (¬∃ later, (∀ number, .rewind ⟨1⟩ number ∉ later) ∧
      ((run (requests ++ later)).recorder ⟨1⟩).finish.isOk = true) ∧
    ∃ later, (∀ number, .rewind ⟨1⟩ number ∉ later) ∧
      ((run (requests ++ [.rewind ⟨1⟩ 0] ++ later)).recorder ⟨1⟩).finish.isOk = true := by
  intro requests
  have hmarked : ¬∀ exit ∈ ((run requests).recorder ⟨1⟩).regions.exits,
      ((run requests).recorder ⟨1⟩).isMarked exit = false := by decide +kernel
  have hopen : ∀ exit ∈ ((run (requests ++ [.rewind ⟨1⟩ 0])).recorder ⟨1⟩).regions.exits,
      ((run (requests ++ [.rewind ⟨1⟩ 0])).recorder ⟨1⟩).isMarked exit = false := by decide +kernel
  have hbefore := finishable_iff_exits_unmarked requests ⟨1⟩ (by decide) (by decide +kernel)
  have hafter := finishable_iff_exits_unmarked (requests ++ [.rewind ⟨1⟩ 0]) ⟨1⟩ (by decide)
    (by decide +kernel)
  exact ⟨fun hfinish => hmarked (hbefore.1.mp hfinish), hafter.1.mpr hopen⟩

/-- Once the serial numbers are used up there can be an open region whose end label is gone. Nobody
has placed it, and still the region cannot be closed. -/
theorem closing_refused_without_exit :
    let requests := relapse ⟨1⟩ [.beginExceptionBlock] [] []
    let r := (run requests).recorder ⟨1⟩
    requests.countP (·.takesCheckpoint ⟨1⟩) = 2 ^ 32 ∧
      r.regions.exits ≠ [] ∧ (∀ exit ∈ r.regions.exits, r.isMarked exit = false) ∧
      (r.issue r.regions.closingCalls).isOk = false := by
  have hrefused : let r := Recorder.relapsed ⟨1⟩ [.beginExceptionBlock] [] []
      r.regions.exits ≠ [] ∧ (∀ exit ∈ r.regions.exits, r.isMarked exit = false) ∧
        (r.issue r.regions.closingCalls).isOk = false := by decide +kernel
  dsimp only
  rw [countP_relapse, recorder_run_relapse]
  exact ⟨rfl, hrefused⟩

end Workshop

end CilAssembler
