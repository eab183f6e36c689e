import CilAssembler.Proofs.Stream
import CilAssembler.Recorder.Basic

/-! # The books of a recorder

The stream, the rosters and the open regions of a recorder are a function of the instructions
recorded so far. This module names that function, and says what the recorder requires of an
instruction before it enters it. -/

namespace CilAssembler

/-- What a recorder keeps about the instructions it recorded. -/
structure Books where
  stream : Stream
  labels : Array LabelSlot
  locals : Array Local
  regions : RegionStack

/-- The books of a recorder. The identity, the revision and what is kept about checkpoints are not
part of them. -/
def Recorder.books (r : Recorder) : Books :=
  ⟨r.stream, r.labels, r.locals, r.regions⟩

namespace Books

/-- The books before the first instruction. -/
def empty : Books :=
  ⟨.empty, #[], #[], .empty⟩

/-- Enters one instruction. -/
def enter (b : Books) (i : Instruction) : Books where
  stream := b.stream.append i
  labels := Recorder.labelsAfter b.labels b.stream.length i
  locals := Recorder.localsAfter b.locals i
  regions := Recorder.regionsAfter b.regions i

/-- The books of some instructions. -/
def ofInstructions (is : List Instruction) : Books :=
  is.foldl enter empty

@[simp] theorem ofInstructions_nil : ofInstructions [] = empty := rfl

theorem ofInstructions_append_singleton (is : List Instruction) (i : Instruction) :
    ofInstructions (is ++ [i]) = (ofInstructions is).enter i := by
  simp [ofInstructions]

@[simp] theorem stream_ofInstructions (is : List Instruction) :
    (ofInstructions is).stream = .ofInstructions is := by
  induction is using List.reverseRecOn with
  | nil => rfl
  | append_singleton is i ih =>
      rw [ofInstructions_append_singleton, Stream.ofInstructions_append_singleton, ← ih]
      rfl

theorem labels_append_singleton (is : List Instruction) (i : Instruction) :
    (ofInstructions (is ++ [i])).labels =
      Recorder.labelsAfter (ofInstructions is).labels is.length i := by
  simp [ofInstructions_append_singleton, enter]

theorem locals_append_singleton (is : List Instruction) (i : Instruction) :
    (ofInstructions (is ++ [i])).locals = Recorder.localsAfter (ofInstructions is).locals i := by
  simp [ofInstructions_append_singleton, enter]

theorem regions_append_singleton (is : List Instruction) (i : Instruction) :
    (ofInstructions (is ++ [i])).regions =
      Recorder.regionsAfter (ofInstructions is).regions i := by
  simp [ofInstructions_append_singleton, enter]

/-! ## References -/

/-- The slot that the index of the label names holds this very label. -/
def HasLabel (b : Books) (label : Label) : Prop :=
  ∃ slot, b.labels[label.index.toNat]? = some slot ∧ (slot.label == label) = true

/-- The label has its slot, and no line has placed it. -/
def Unmarked (b : Books) (label : Label) : Prop :=
  ∃ slot, b.labels[label.index.toNat]? = some slot ∧ (slot.label == label) = true ∧
    slot.mark = none

/-- The slot that the index of the local names holds this very local. -/
def HasLocal (b : Books) (v : Local) : Prop :=
  ∃ slot, b.locals[v.index.toNat]? = some slot ∧ (slot == v) = true

theorem Unmarked.hasLabel {b : Books} {label : Label} (h : b.Unmarked label) :
    b.HasLabel label := by
  obtain ⟨slot, hslot, heq, _⟩ := h
  exact ⟨slot, hslot, heq⟩

end Books

/-- The move within the innermost region that a marker stands for. -/
def Instruction.regionCall? : Instruction → Option RegionCall
  | .beginCatchBlock type => some (.beginCatch type.isSome)
  | .beginExceptFilterBlock => some .beginFilter
  | .beginFinallyBlock => some .beginFinally
  | .beginFaultBlock => some .beginFault
  | .endExceptionBlock _ => some .endBlock
  | .endScope => some .endScope
  | _ => none

/-- What the recorder with identity `id` requires of the next instruction. Operands refer to what
is on the rosters, a label is placed once, new handles take the next index, and a move between
blocks is one that the open regions allow. -/
inductive Books.Admits (id : AssemblerId) (b : Books) : Instruction → Prop where
  | op (o : Op) (hlabels : ∀ label ∈ o.operand.targets, b.HasLabel label)
      (hlocal : ∀ v, o.operand = .localVar v → b.HasLocal v)
      (hroom : b.stream.endOffset + o.size ≤ offsetLimit) : Admits id b (.op o)
  | defineLabel (label : Label) (howner : label.owner = id)
      (hindex : label.index = b.labels.size.toUInt32) : Admits id b (.defineLabel label)
  | markLabel (label : Label) (hunmarked : b.Unmarked label) : Admits id b (.markLabel label)
  | declareLocal (v : Local) (howner : v.owner = id)
      (hindex : v.index = b.locals.size.toUInt32) : Admits id b (.declareLocal v)
  | beginExceptionBlock (exit : Label) (howner : exit.owner = id)
      (hindex : exit.index = b.labels.size.toUInt32) : Admits id b (.beginExceptionBlock exit)
  | beginScope : Admits id b .beginScope
  | move (i : Instruction) (call : RegionCall) (hcall : i.regionCall? = some call)
      (hcheck : b.regions.check call = .ok ())
      (hexit : ∀ exit, i = .endExceptionBlock exit →
        b.regions.innermostExit? = some exit ∧ b.Unmarked exit) : Admits id b i

/-! ## Checks -/

theorem Except.map_eq_ok {ε α β : Type} {f : α → β} {x : Except ε α} {y : β} :
    x.map f = .ok y ↔ ∃ a, x = .ok a ∧ f a = y := by
  cases x <;> simp [Except.map]

namespace Recorder

@[simp] theorem books_record (r : Recorder) (i : Instruction) :
    (r.record i).books = r.books.enter i := rfl

@[simp] theorem id_record (r : Recorder) (i : Instruction) : (r.record i).id = r.id := rfl

theorem labelSlot_eq_ok {r : Recorder} {label : Label} {slot : LabelSlot} :
    r.labelSlot label = .ok slot ↔
      label.owner = r.id ∧ r.labels[label.index.toNat]? = some slot ∧
        (slot.label == label) = true := by
  unfold labelSlot
  by_cases howner : label.owner = r.id
  · cases hslot : r.labels[label.index.toNat]? with
    | none => simp [howner]
    | some found =>
        by_cases heq : (found.label == label) = true
        · simp only [howner, heq, if_true, Except.ok.injEq, true_and, Option.some.injEq]
          constructor
          · rintro rfl
            exact ⟨rfl, heq⟩
          · exact fun h => h.1
        · simp only [howner, heq, if_true, true_and, Option.some.injEq]
          constructor
          · intro h
            cases h
          · rintro ⟨rfl, h⟩
            exact absurd h heq
  · simp [howner]

theorem checkLabel_eq_ok {r : Recorder} {label : Label} :
    r.checkLabel label = .ok () ↔ label.owner = r.id ∧ r.books.HasLabel label := by
  simp only [checkLabel, Except.map_eq_ok, labelSlot_eq_ok, Books.HasLabel, books, and_true]
  exact exists_and_left

theorem checkMark_eq_ok {r : Recorder} {label : Label} :
    r.checkMark label = .ok () ↔ label.owner = r.id ∧ r.books.Unmarked label := by
  unfold checkMark Books.Unmarked
  cases hslot : r.labelSlot label with
  | error e =>
      constructor
      · intro h
        cases h
      · rintro ⟨howner, slot, hfound, heq, _⟩
        rw [labelSlot_eq_ok.mpr ⟨howner, hfound, heq⟩] at hslot
        cases hslot
  | ok slot =>
      obtain ⟨howner, hfound, heq⟩ := labelSlot_eq_ok.mp hslot
      cases hmark : slot.mark with
      | none => simp [howner, books, hfound, heq, hmark]
      | some line => simp [books, hfound, hmark]

theorem checkLocal_eq_ok {r : Recorder} {v : Local} :
    r.checkLocal v = .ok () ↔ v.owner = r.id ∧ r.books.HasLocal v := by
  unfold checkLocal Books.HasLocal
  by_cases howner : v.owner = r.id
  · cases hslot : r.locals[v.index.toNat]? with
    | none => simp [howner, books, hslot]
    | some slot =>
        by_cases heq : (slot == v) = true
        · simp [howner, books, hslot, heq]
        · simp [howner, books, hslot, heq]
  · simp [howner]

theorem forM_eq_ok {α : Type} {f : α → Except Error Unit} {xs : List α} :
    forM xs f = .ok () ↔ ∀ x ∈ xs, f x = .ok () := by
  induction xs with
  | nil => simp [pure, Except.pure]
  | cons x xs ih =>
      cases hx : f x with
      | error e => simp [bind, Except.bind, hx]
      | ok u => simpa [bind, Except.bind, hx] using ih

theorem checkReferences_eq_ok {r : Recorder} {x : Operand Label Local} :
    r.checkReferences x = .ok () ↔
      (∀ label ∈ x.targets, label.owner = r.id ∧ r.books.HasLabel label) ∧
        ∀ v, x = .localVar v → v.owner = r.id ∧ r.books.HasLocal v := by
  cases x with
  | label target => simp [checkReferences, checkLabel_eq_ok, Operand.targets]
  | labels targets => simp [checkReferences, forM_eq_ok, checkLabel_eq_ok, Operand.targets]
  | localVar v => simp [checkReferences, checkLocal_eq_ok, Operand.targets]
  | _ => simp [checkReferences, Operand.targets]

theorem operand_of_make {code : Opcode} {x : Operand Label Local} {o : Op}
    (h : Op.make code x = .ok o) : o.code = code ∧ o.operand = x := by
  unfold Op.make at h
  split at h
  · split at h
    · cases h
      exact ⟨rfl, rfl⟩
    · cases h
  · cases h

theorem checkOp_eq_ok {r : Recorder} {code : Opcode} {x : Operand Label Local} {o : Op} :
    r.checkOp code x = .ok o ↔
      Op.make code x = .ok o ∧ r.checkReferences x = .ok () ∧
        r.stream.endOffset + o.size ≤ offsetLimit := by
  unfold checkOp
  cases hmake : Op.make code x with
  | error e => simp
  | ok made =>
      cases hrefs : r.checkReferences x with
      | error e => simp
      | ok u =>
          by_cases hroom : r.stream.endOffset + made.size ≤ offsetLimit
          · simp only [hroom, if_true, Except.ok.injEq, true_and]
            constructor
            · rintro rfl
              exact ⟨rfl, hroom⟩
            · exact fun h => h.1
          · simp only [hroom, if_false, Except.ok.injEq, true_and]
            constructor
            · intro h
              cases h
            · rintro ⟨rfl, h⟩
              exact absurd h hroom

theorem checkEnd_eq_ok {r : Recorder} {exit : Label} :
    r.checkEnd = .ok exit ↔
      r.regions.check .endBlock = .ok () ∧ r.regions.innermostExit? = some exit ∧
        r.checkMark exit = .ok () := by
  unfold checkEnd
  cases hcheck : r.regions.check .endBlock with
  | error e => simp
  | ok u =>
      cases hexit : r.regions.innermostExit? with
      | none => simp
      | some found =>
          simp only [Except.map_eq_ok, true_and, Option.some.injEq]
          constructor
          · rintro ⟨u, hmark, rfl⟩
            exact ⟨rfl, hmark⟩
          · rintro ⟨rfl, hmark⟩
            exact ⟨(), hmark, rfl⟩

/-- An instruction that was prepared is admitted. -/
theorem admits_of_prepare {r : Recorder} {call : Call} {reply : call.Reply} {i : Instruction}
    (h : r.prepare call = .ok (reply, i)) : r.books.Admits r.id i := by
  cases call with
  | defineLabel name =>
      cases h
      exact .defineLabel _ rfl rfl
  | declareLocal type pinned name =>
      cases h
      exact .declareLocal _ rfl rfl
  | beginExceptionBlock =>
      cases h
      exact .beginExceptionBlock _ rfl rfl
  | beginScope =>
      cases h
      exact .beginScope
  | markLabel label =>
      obtain ⟨u, hmark, heq⟩ := Except.map_eq_ok.mp h
      cases heq
      exact .markLabel label (checkMark_eq_ok.mp hmark).2
  | emit code x =>
      obtain ⟨o, hop, heq⟩ := Except.map_eq_ok.mp h
      cases heq
      obtain ⟨hmake, hrefs, hroom⟩ := checkOp_eq_ok.mp hop
      obtain ⟨_, rfl⟩ := operand_of_make hmake
      obtain ⟨hlabels, hlocal⟩ := checkReferences_eq_ok.mp hrefs
      exact .op o (fun label hl => (hlabels label hl).2) (fun v hv => (hlocal v hv).2) hroom
  | endExceptionBlock =>
      obtain ⟨exit, hend, heq⟩ := Except.map_eq_ok.mp h
      cases heq
      obtain ⟨hcheck, hexit, hmark⟩ := checkEnd_eq_ok.mp hend
      refine .move _ .endBlock rfl hcheck ?_
      rintro _ ⟨⟩
      exact ⟨hexit, (checkMark_eq_ok.mp hmark).2⟩
  | beginCatchBlock type =>
      obtain ⟨u, hcheck, heq⟩ := Except.map_eq_ok.mp h
      cases heq
      exact .move _ _ rfl hcheck (by rintro _ ⟨⟩)
  | beginExceptFilterBlock =>
      obtain ⟨u, hcheck, heq⟩ := Except.map_eq_ok.mp h
      cases heq
      exact .move _ _ rfl hcheck (by rintro _ ⟨⟩)
  | beginFinallyBlock =>
      obtain ⟨u, hcheck, heq⟩ := Except.map_eq_ok.mp h
      cases heq
      exact .move _ _ rfl hcheck (by rintro _ ⟨⟩)
  | beginFaultBlock =>
      obtain ⟨u, hcheck, heq⟩ := Except.map_eq_ok.mp h
      cases heq
      exact .move _ _ rfl hcheck (by rintro _ ⟨⟩)
  | endScope =>
      obtain ⟨u, hcheck, heq⟩ := Except.map_eq_ok.mp h
      cases heq
      exact .move _ _ rfl hcheck (by rintro _ ⟨⟩)

/-- A call is refused and changes nothing, or it records an admitted instruction. -/
theorem perform_cases (call : Call) (r : Recorder) :
    (∃ e, r.prepare call = .error e ∧ r.perform call = (.error e, r)) ∨
      ∃ reply i, r.prepare call = .ok (reply, i) ∧ r.perform call = (.ok reply, r.record i) ∧
        r.books.Admits r.id i := by
  unfold perform
  cases hprepare : r.prepare call with
  | error e => exact .inl ⟨e, rfl, rfl⟩
  | ok prepared => exact .inr ⟨prepared.1, prepared.2, rfl, rfl, admits_of_prepare hprepare⟩

/-- No target is left open exactly if every one has a slot that is marked. -/
theorem unmarkedTarget?_eq_none_iff {r : Recorder} :
    r.unmarkedTarget? = none ↔ ∀ entry ∈ r.stream.ops, ∀ target ∈ entry.2.operand.targets,
      ∃ slot, r.labels[target.index.toNat]? = some slot ∧ slot.mark.isSome = true := by
  constructor
  · intro h entry hentry target htarget
    have hfound := List.find?_eq_none.mp h target (List.mem_flatMap.mpr ⟨entry, hentry, htarget⟩)
    cases hslot : r.labels[target.index.toNat]? with
    | none => simp [hslot] at hfound
    | some slot => exact ⟨slot, rfl, by simpa [hslot, Option.isSome_iff_ne_none] using hfound⟩
  · intro h
    apply List.find?_eq_none.mpr
    intro target hmem
    obtain ⟨entry, hentry, htarget⟩ := List.mem_flatMap.mp hmem
    obtain ⟨slot, hslot, hmark⟩ := h entry hentry target htarget
    obtain ⟨line, hline⟩ := Option.isSome_iff_exists.mp hmark
    simp [hslot, hline]

/-- A session ends with its own stream, once every region is closed and every target placed. -/
theorem finish_eq_ok {r : Recorder} {s : Stream} :
    r.finish = .ok s ↔ r.regions.isEmpty = true ∧ r.unmarkedTarget? = none ∧ s = r.stream := by
  unfold finish
  by_cases hregions : r.regions.isEmpty = true
  · cases htarget : r.unmarkedTarget? with
    | none => simp [hregions, eq_comm]
    | some label => simp [hregions]
  · simp [hregions]

end Recorder

/-! ## Histories -/

/-- Every instruction was admitted by the books of those before it. -/
def Recorded (id : AssemblerId) (is : List Instruction) : Prop :=
  ∀ k i, is[k]? = some i → (Books.ofInstructions (is.take k)).Admits id i

namespace Recorded

variable {id : AssemblerId} {is : List Instruction}

theorem iff_eachLine :
    Recorded id is ↔ EachLine (fun before i => (Books.ofInstructions before).Admits id i) is :=
  Iff.rfl

theorem nil : Recorded id [] :=
  iff_eachLine.mpr .nil

theorem append_singleton_iff {i : Instruction} :
    Recorded id (is ++ [i]) ↔ Recorded id is ∧ (Books.ofInstructions is).Admits id i := by
  rw [iff_eachLine, iff_eachLine, EachLine.append_singleton_iff]

theorem take (h : Recorded id is) (count : Nat) : Recorded id (is.take count) :=
  iff_eachLine.mpr ((iff_eachLine.mp h).take count)

/-- Recorded instructions never outgrow the largest offset. -/
theorem totalSize_le (h : Recorded id is) : totalSize is ≤ offsetLimit := by
  induction is using List.reverseRecOn with
  | nil => exact Nat.zero_le _
  | append_singleton is i ih =>
      obtain ⟨hprev, hadmits⟩ := append_singleton_iff.mp h
      rw [totalSize_append, totalSize_cons, totalSize_nil, Nat.add_zero]
      cases i with
      | op o =>
          cases hadmits with
          | op _ _ _ hroom => simpa [Instruction.size] using hroom
          | move _ call hcall => cases hcall
      | _ => exact ih hprev

end Recorded

namespace Recorder

/-- The books of the recorder are those of its stream, and every line of it was admitted. -/
structure Kept (r : Recorder) : Prop where
  books : r.books = .ofInstructions r.stream.instructions
  recorded : Recorded r.id r.stream.instructions

theorem kept_new (id : AssemblerId) : (new id).Kept :=
  ⟨rfl, .nil⟩

theorem Kept.stream_eq {r : Recorder} (h : r.Kept) :
    r.stream = .ofInstructions r.stream.instructions := by
  rw [← Books.stream_ofInstructions, ← h.books]
  rfl

@[simp] theorem instructions_record (r : Recorder) (i : Instruction) :
    (r.record i).stream.instructions = r.stream.instructions ++ [i] :=
  Stream.instructions_append r.stream i

/-- The instruction that an accepted call recorded was admitted. -/
theorem admits_of_perform {r : Recorder} {call : Call} {reply : call.Reply} {i : Instruction}
    (h : r.perform call = (.ok reply, r.record i)) : r.books.Admits r.id i := by
  rcases perform_cases call r with ⟨e, _, hrefused⟩ | ⟨_, j, _, haccepted, hadmits⟩
  · rw [hrefused] at h
    cases h
  · rw [haccepted] at h
    have hlines := congrArg (·.2.stream.instructions) h
    simp only [instructions_record, List.append_cancel_left_eq, List.cons.injEq, and_true] at hlines
    rwa [← hlines]

theorem Kept.record {r : Recorder} {i : Instruction} (h : r.Kept)
    (hadmits : r.books.Admits r.id i) : (r.record i).Kept := by
  constructor
  · rw [instructions_record, books_record, h.books, Books.ofInstructions_append_singleton]
  · rw [instructions_record]
    exact Recorded.append_singleton_iff.mpr ⟨h.recorded, h.books ▸ hadmits⟩

end Recorder

end CilAssembler
