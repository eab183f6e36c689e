import CilAssembler.Proofs.Assembling
import CilAssembler.Proofs.Holes
import Mathlib.Data.List.Forall2

/-! # The code of a method body

When an assembler over a builder and then the builder itself are finished, the code of the body is
what the stream says: the operations one after the other, each as its opcode and its operand. -/

namespace CilAssembler

/-! ## What the bytes of an operand are -/

/-- The bytes of an operand of an opcode of the given kind, in the code of a stream. `strings` is
the heap of the texts, and `next` the position after the operation. -/
inductive Operand.Encodes (stream : Stream) (strings : StringHeap) (kind : OperandKind) (next : Nat) :
    Operand Label Local → List UInt8 → Prop where
  | none : Encodes stream strings kind next .none []
  | int8 (value : Int8) : Encodes stream strings kind next (.int8 value) (littleEndianInt 1 value.toInt)
  | uint8 (value : UInt8) : Encodes stream strings kind next (.uint8 value) (littleEndian 1 value.toNat)
  | uint16 (value : UInt16) :
      Encodes stream strings kind next (.uint16 value) (littleEndian 2 value.toNat)
  | int32 (value : Int32) :
      Encodes stream strings kind next (.int32 value) (littleEndianInt 4 value.toInt)
  | int64 (value : Int64) :
      Encodes stream strings kind next (.int64 value) (littleEndianInt 8 value.toInt)
  | float32 (bits : UInt32) :
      Encodes stream strings kind next (.float32 bits) (littleEndian 4 bits.toNat)
  | float64 (bits : UInt64) :
      Encodes stream strings kind next (.float64 bits) (littleEndian 8 bits.toNat)
  | string {text : String} {token : Token} (hread : strings.get? token = some text) :
      Encodes stream strings kind next (.string text) (littleEndian 4 token.value.toNat)
  | label {target : Label} {place : Nat} (hplace : stream.labelOffsets[target.index]? = some place)
      (hfits : fitsSigned kind.branchWidth (place - next) = true) :
      Encodes stream strings kind next (.label target)
        (littleEndianInt kind.branchWidth (place - next))
  | labels {targets : List Label} {places : List Nat} (hcount : targets.length < 256 ^ 4)
      (hplaces : List.Forall₂ (fun target (place : Nat) =>
        stream.labelOffsets[target.index]? = some place ∧ fitsSigned 4 (place - next) = true)
        targets places) :
      Encodes stream strings kind next (.labels targets)
        (littleEndian 4 targets.length ++
          places.flatMap fun (place : Nat) => littleEndianInt 4 (place - next))
  | localVar {v slot : Local} {n : Nat}
      (hslot : (stream.instructions.filterMap Instruction.declaredLocal?)[n]? = some slot)
      (hsame : (slot == v) = true) (hfits : n < 256 ^ kind.localWidth) :
      Encodes stream strings kind next (.localVar v) (littleEndian kind.localWidth n)
  | field (member : Member) :
      Encodes stream strings kind next (.field member) (littleEndian 4 member.token.value.toNat)
  | constructor (member : Member) :
      Encodes stream strings kind next (.constructor member) (littleEndian 4 member.token.value.toNat)
  | method (member : Member) :
      Encodes stream strings kind next (.method member) (littleEndian 4 member.token.value.toNat)
  | type (member : Member) :
      Encodes stream strings kind next (.type member) (littleEndian 4 member.token.value.toNat)

/-- The body is the encoding of the stream. Its code has the length that the stream says and is
made of the bytes of the operations, each from its offset on; the bytes of an operation are those of
its opcode and of its operand. -/
structure MethodBody.Encodes (body : MethodBody) (stream : Stream) : Prop where
  size : body.code.size = stream.endOffset
  code : body.code.toList = stream.ops.flatMap fun entry =>
    (body.code.extract entry.1 (entry.1 + entry.2.size)).toList
  op : ∀ entry ∈ stream.ops, ∃ operand,
    (body.code.extract entry.1 (entry.1 + entry.2.size)).toList = entry.2.code.bytes ++ operand ∧
    entry.2.code.length + operand.length = entry.2.size ∧
    entry.2.operand.Encodes stream body.strings entry.2.code.kind (entry.1 + entry.2.size) operand

theorem toList_extract_add (code : Array UInt8) (start n : Nat) :
    (code.extract start (start + n)).toList = (code.toList.drop start).take n := by
  rw [Array.toList_extract, List.extract_eq_take_drop, Nat.add_sub_cancel_left]

namespace BodyBuilder

/-! ## Drafts and displacements in place -/

section Slices

variable {is : List Instruction} {b : BodyBuilder} {code : Array UInt8} {labels : Array (Option Nat)}
  {offset : Nat} {o : Op}

/-- An operation has its draft at its offset. -/
theorem DraftsCode.getElem?_code (h : b.DraftsCode is)
    (hentry : (offset, o) ∈ (Stream.ofInstructions is).ops) {k : Nat} (hk : k < o.size) :
    b.code[offset + k]? = (o.draft b.strings)[k]? := by
  obtain ⟨line, hline, rfl⟩ := Stream.mem_ops_iff.mp hentry
  obtain ⟨hlt, heq⟩ := List.getElem?_eq_some_iff.mp hline
  have hsplit : is = is.take line ++ .op o :: is.drop (line + 1) := by
    rw [← heq, ← List.drop_eq_getElem_cons hlt, List.take_append_drop]
  have hlength := length_flatMap_draft b.strings (is.take line)
  rw [← Array.getElem?_toList, h.code, hsplit, List.flatMap_append, List.flatMap_cons, ← hsplit,
    List.getElem?_append_right (by omega), hlength, Nat.add_sub_cancel_left,
    List.getElem?_append_left (by rw [Instruction.length_draft]; exact hk)]
  rfl

/-- The part of an operation before its first displacement stays as it was drafted. -/
theorem FilledIn.take_draft (hfilled : FilledIn labels (Stream.holes is) b.code code)
    (h : b.DraftsCode is) (hentry : (offset, o) ∈ (Stream.ofInstructions is).ops) {n : Nat}
    (hn : n ≤ o.size) (hown : ∀ d ∈ o.holes offset, offset + n ≤ d.field) :
    (code.toList.drop offset).take n = (o.draft b.strings).take n := by
  apply take_drop_eq_of_getElem?
  · rw [List.length_take, Op.length_draft, Nat.min_eq_left hn]
  · intro k hk
    rw [Array.getElem?_toList, List.getElem?_take_of_lt hk, ← h.getElem?_code hentry (by omega)]
    apply hfilled.kept
    apply Stream.not_covers_of_not_covers hentry (Nat.le_add_right _ _)
    · simp only
      omega
    · intro d hd hcovers
      have hfield := hown d hd
      have hcovered := hcovers.1
      omega

end Slices

theorem take_of_filled {labels : Array (Option Nat)} {code : Array UInt8} {d : Displacement}
    (h : d.Filled labels code) :
    ∃ place : Nat, labelPosition labels d.target = .ok place ∧
      fitsSigned d.width (place - d.next) = true ∧
      (code.toList.drop d.field).take d.width = littleEndianInt d.width (place - d.next) := by
  obtain ⟨place, hplace, hfits, hbytes⟩ := h
  refine ⟨place, hplace, hfits, ?_⟩
  apply take_drop_eq_of_getElem? (length_littleEndianInt _ _)
  intro k hk
  rw [Array.getElem?_toList, hbytes k hk]

/-- A jump table whose slots are filled in holds one distance for each target. -/
theorem take_of_filled_table {labels : Array (Option Nat)} {code : Array UInt8} {op : Opcode}
    {instruction next field : Nat} {targets : List BodyLabel}
    (h : ∀ d ∈ tableDisplacements op instruction next field targets, d.Filled labels code) :
    ∃ places : List Nat,
      List.Forall₂ (fun target (place : Nat) => labelPosition labels target = .ok place ∧
        fitsSigned 4 (place - next) = true) targets places ∧
      (code.toList.drop field).take (4 * targets.length) =
        places.flatMap fun (place : Nat) => littleEndianInt 4 (place - next) := by
  induction targets generalizing field with
  | nil => exact ⟨[], .nil, rfl⟩
  | cons target rest ih =>
      obtain ⟨place, hplace, hfits, hbytes⟩ := take_of_filled (h _ List.mem_cons_self)
      obtain ⟨places, hplaces, hslots⟩ := ih fun d hd => h d (List.mem_cons_of_mem _ hd)
      refine ⟨place :: places, .cons ⟨hplace, hfits⟩ hplaces, ?_⟩
      have hlength : 4 * (target :: rest).length = 4 + 4 * rest.length := by
        rw [List.length_cons]
        omega
      rw [hlength, take_drop_add, hslots, List.flatMap_cons]
      exact congrArg (· ++ _) hbytes

/-- The place of a label in the builder is the one that the stream gives it. -/
theorem DraftsLabels.labelOffsets_eq {is : List Instruction} {b : BodyBuilder} (h : b.DraftsLabels is)
    {label : Label} {place : Nat} (hplace : labelPosition b.labels label.inBody = .ok place) :
    (Stream.ofInstructions is).labelOffsets[label.index]? = some place := by
  unfold labelPosition at hplace
  split at hplace
  · rename_i position hposition
    cases hplace
    have hlt := (Array.getElem?_eq_some_iff.mp hposition).1
    have hplaced := h.placed _ hlt
    have hindex : label.inBody.index.toNat.toUInt32 = label.index := by simp [Label.inBody]
    rw [hposition, hindex] at hplaced
    exact (Option.some.inj hplaced).symm
  · cases hplace

/-! ## One operation -/

section Operation

variable {id : AssemblerId} {is : List Instruction} {b : BodyBuilder} {code : Array UInt8}
  {offset : Nat} {o : Op}

theorem take_draft_bytes (strings : StringHeap) (o : Op) :
    (o.draft strings).take o.code.length = o.code.bytes := by
  rw [Op.draft, ← o.code.length_bytes, List.take_left]

/-- The displacement of a branch is the distance to the place of its target. -/
theorem Drafts.encodes_label {target : Label} (h : b.Drafts is)
    (hfilled : FilledIn b.labels (Stream.holes is) b.code code)
    (hentry : (offset, o) ∈ (Stream.ofInstructions is).ops) (hx : o.operand = .label target) :
    ∃ operand, (code.toList.drop offset).take o.size = o.code.bytes ++ operand ∧
      o.operand.Encodes (.ofInstructions is) b.strings o.code.kind (offset + o.size) operand := by
  have hsize := o.size_eq_width
  rw [hx] at hsize
  simp only [Operand.width] at hsize
  have hhole := Op.holes_of_label hx offset
  have hslice := take_drop_add code.toList offset o.code.length o.code.kind.branchWidth
  rw [← hsize] at hslice
  have hopcode := hfilled.take_draft h.code hentry (n := o.code.length) (by omega)
    (fun d hd => (Op.field_of_mem_holes hd).1)
  obtain ⟨place, hplace, hfits, hbytes⟩ := take_of_filled (hfilled.filled
    ⟨target.inBody, o.code, offset, offset + o.code.length, o.code.kind.branchWidth, offset + o.size⟩
    (Stream.mem_holes_iff.mpr ⟨_, hentry, by rw [hhole]; exact List.mem_cons_self⟩))
  refine ⟨littleEndianInt o.code.kind.branchWidth (place - ↑(offset + o.size)), ?_, ?_⟩
  · rw [hslice, hopcode, take_draft_bytes]
    exact congrArg _ hbytes
  · rw [hx]
    exact .label (h.labels.labelOffsets_eq hplace) hfits

/-- The slots of a jump table are the distances to the places of its targets. -/
theorem Drafts.encodes_labels {targets : List Label} (h : b.Drafts is)
    (hroom : offset + o.size ≤ offsetLimit)
    (hfilled : FilledIn b.labels (Stream.holes is) b.code code)
    (hentry : (offset, o) ∈ (Stream.ofInstructions is).ops) (hx : o.operand = .labels targets) :
    ∃ operand, (code.toList.drop offset).take o.size = o.code.bytes ++ operand ∧
      o.operand.Encodes (.ofInstructions is) b.strings o.code.kind (offset + o.size) operand := by
  have hsize := o.size_eq_width
  rw [hx] at hsize
  simp only [Operand.width] at hsize
  have hholes := Op.holes_of_labels hx offset
  have hcount : targets.length < 256 ^ 4 := by
    simp only [offsetLimit] at hroom
    omega
  have hhead := hfilled.take_draft h.code hentry (n := o.code.length + 4) (by omega)
    (fun d hd => (Op.field_of_mem_holes hd).2.2 ⟨targets, hx⟩)
  have hdraft : (o.draft b.strings).take (o.code.length + 4) =
      o.code.bytes ++ littleEndian 4 targets.length := by
    rw [Op.draft, Op.operandDraft, hx]
    simp only [← List.append_assoc]
    exact List.take_left' (by simp)
  have hfills : ∀ d ∈ tableDisplacements o.code offset (offset + o.size)
      (offset + o.code.length + 4) (targets.map Label.inBody), d.Filled b.labels code := by
    intro d hd
    apply hfilled.filled
    exact Stream.mem_holes_iff.mpr ⟨_, hentry, by rw [hholes]; exact hd⟩
  obtain ⟨places, hplaces, hslots⟩ := take_of_filled_table hfills
  rw [List.length_map] at hslots
  rw [List.forall₂_map_left_iff] at hplaces
  have hslice := take_drop_add code.toList offset (o.code.length + 4) (4 * targets.length)
  rw [Nat.add_assoc, ← hsize, ← Nat.add_assoc] at hslice
  refine ⟨littleEndian 4 targets.length ++ places.flatMap fun (place : Nat) =>
    littleEndianInt 4 (place - ↑(offset + o.size)), ?_, ?_⟩
  · rw [hslice, hhead, hdraft, hslots, List.append_assoc]
  · rw [hx]
    refine .labels hcount (hplaces.imp ?_)
    rintro target place ⟨hplace, hfits⟩
    exact ⟨h.labels.labelOffsets_eq hplace, hfits⟩

/-- An operand without labels stands in the code as it was drafted. -/
theorem Drafts.encodes_plain (h : b.Drafts is) (hrecorded : Recorded id is)
    (hfilled : FilledIn b.labels (Stream.holes is) b.code code)
    (hentry : (offset, o) ∈ (Stream.ofInstructions is).ops)
    (hlabel : ∀ target, o.operand ≠ .label target)
    (hlabels : ∀ targets, o.operand ≠ .labels targets) :
    ∃ operand, (code.toList.drop offset).take o.size = o.code.bytes ++ operand ∧
      o.operand.Encodes (.ofInstructions is) b.strings o.code.kind (offset + o.size) operand := by
  have hslice := hfilled.take_draft h.code hentry (Nat.le_refl o.size)
    (by rw [Op.holes_eq_nil hlabel hlabels]; exact nofun)
  rw [List.take_of_length_le (Nat.le_of_eq (Op.length_draft b.strings o))] at hslice
  refine ⟨o.operandDraft b.strings, hslice, ?_⟩
  obtain ⟨line, hline, _⟩ := Stream.mem_ops_iff.mp hentry
  unfold Op.operandDraft
  cases hx : o.operand with
  | label target => exact absurd hx (hlabel target)
  | labels targets => exact absurd hx (hlabels targets)
  | string text =>
      obtain ⟨texts, hstrings⟩ := h.code.strings
      obtain ⟨known, hknown⟩ := h.code.known o text (List.mem_of_getElem? hline) hx
      simp only [hknown, Option.getD_some]
      exact .string (hstrings.get?_token hknown)
  | localVar v =>
      obtain ⟨slot, hslot, hsame, _⟩ := hrecorded.local_used hline ⟨o, rfl, hx⟩
      have hdeclared : ((Stream.ofInstructions is).instructions.filterMap
          Instruction.declaredLocal?)[v.index.toNat]? = some slot := by
        rw [Stream.instructions_ofInstructions, ← Books.locals_ofInstructions,
          Array.getElem?_toList, hslot]
      exact .localVar hdeclared hsame (Op.index_lt_of_localVar hx)
  | _ => constructor

/-- Every operation stands in the finished code as its opcode and its operand. -/
theorem Drafts.encodes_op (h : b.Drafts is) (hrecorded : Recorded id is)
    (hfilled : FilledIn b.labels (Stream.holes is) b.code code)
    (hentry : (offset, o) ∈ (Stream.ofInstructions is).ops) :
    ∃ operand, (code.toList.drop offset).take o.size = o.code.bytes ++ operand ∧
      o.operand.Encodes (.ofInstructions is) b.strings o.code.kind (offset + o.size) operand := by
  have hroom : offset + o.size ≤ offsetLimit :=
    Nat.le_trans (Stream.end_le_of_mem_ops hentry) hrecorded.totalSize_le
  cases hx : o.operand with
  | label target => exact hx ▸ h.encodes_label hfilled hentry hx
  | labels targets => exact hx ▸ h.encodes_labels hroom hfilled hentry hx
  | _ =>
      rw [← hx]
      exact h.encodes_plain hrecorded hfilled hentry (by simp [hx]) (by simp [hx])

end Operation

/-! ## The whole body -/

theorem finish_eq_ok {b : BodyBuilder} {body : MethodBody} (h : b.finish = .ok body) :
    fillAll b.labels (b.branches.toList ++ b.tables.toList) b.code = .ok body.code ∧
      body.strings = b.strings := by
  unfold finish at h
  split at h
  · cases hfill : fillAll b.labels (b.branches.toList ++ b.tables.toList) b.code with
    | error e =>
        rw [hfill] at h
        cases h
    | ok code =>
        rw [hfill] at h
        cases h
        exact ⟨rfl, rfl⟩
  · cases h

/-- Finishing a builder fills in exactly the open displacements of the stream. -/
theorem Drafts.filledIn {is : List Instruction} {b : BodyBuilder} {body : MethodBody}
    (h : b.Drafts is) (hbody : b.finish = .ok body) :
    FilledIn b.labels (Stream.holes is) b.code body.code := by
  have hfill := (finish_eq_ok hbody).1
  rw [h.code.branches, h.code.tables] at hfill
  apply filledIn_of_fillAll hfill
  · intro d hd e he
    exact Stream.holes_apart hd he
  · intro d hd
    rw [h.code.size_code]
    exact Stream.field_le_of_mem_holes hd

theorem Drafts.encodes {id : AssemblerId} {is : List Instruction} {b : BodyBuilder}
    {body : MethodBody} (h : b.Drafts is) (hrecorded : Recorded id is)
    (hbody : b.finish = .ok body) : body.Encodes (.ofInstructions is) := by
  have hfilled := h.filledIn hbody
  have hsize : body.code.size = totalSize is := hfilled.size.trans h.code.size_code
  refine ⟨?_, ?_, ?_⟩
  · rw [hsize, Stream.endOffset_ofInstructions]
  · simp only [toList_extract_add]
    rw [Stream.flatMap_ops_slices, ← hsize, ← Array.length_toList, List.take_length]
  · rintro ⟨offset, o⟩ hentry
    obtain ⟨operand, hbytes, hencodes⟩ := h.encodes_op hrecorded hfilled hentry
    have hend := Stream.end_le_of_mem_ops hentry
    have hlength := congrArg List.length hbytes
    rw [List.length_take, List.length_drop, Array.length_toList, hsize, List.length_append,
      Opcode.length_bytes] at hlength
    refine ⟨operand, ?_, ?_, ?_⟩
    · rw [toList_extract_add, hbytes]
    · simp only at hend ⊢
      omega
    · rw [(finish_eq_ok hbody).2]
      exact hencodes

end BodyBuilder

theorem Except.exists_of_isOk {ε α : Type} {x : Except ε α} (h : x.isOk = true) :
    ∃ a, x = .ok a := by
  cases x with
  | error e => cases h
  | ok a => exact ⟨a, rfl⟩

namespace Assembler

theorem recorder_of_finish {σ Λ V : Type} {a : Assembler σ Λ V} {stream : Stream} {sink : σ}
    (h : a.finish = .ok (stream, sink)) : a.recorder.finish = .ok stream ∧ sink = a.sink := by
  obtain ⟨recorded, hfinish, heq⟩ := Except.map_eq_ok.mp h
  cases heq
  exact ⟨hfinish, rfl⟩

theorem finish_eq_ok {σ Λ V : Type} {a : Assembler σ Λ V} {stream : Stream} {sink : σ}
    (h : a.finish = .ok (stream, sink)) : stream = a.recorder.stream ∧ sink = a.sink := by
  obtain ⟨hfinish, hsink⟩ := recorder_of_finish h
  exact ⟨(Recorder.finish_eq_ok.mp hfinish).2.2, hsink⟩

/-- A builder has no region open once the recorder has none. -/
theorem Builds.regions_eq_nil {a : Assembler BodyBuilder BodyLabel BodyLocal} (h : a.Builds)
    (hempty : a.recorder.regions.isEmpty = true) : a.sink.regions = [] := by
  have hdrafts := h.drafts.regions
  rw [BodyBuilder.DraftsRegions, ← h.kept.books] at hdrafts
  have hframes : a.recorder.regions.frames = [] := List.isEmpty_iff.mp hempty
  have hexits : a.recorder.books.regions.exits = [] := by
    rw [RegionStack.exits]
    exact congrArg (List.filterMap Frame.exit?) hframes
  rwa [hexits, List.map_nil, List.map_eq_nil_iff] at hdrafts

/-- Whatever was called: if the assembler and its builder can both be finished, the body is the
encoding of the stream. -/
theorem body_encodes_stream (id : AssemblerId) (calls : List Call) {stream : Stream}
    {sink : BodyBuilder} {body : MethodBody}
    (hfinish : ((new id BodyBuilder.empty).after calls).finish = .ok (stream, sink))
    (hbody : sink.finish = .ok body) : body.Encodes stream := by
  obtain ⟨rfl, rfl⟩ := finish_eq_ok hfinish
  have hbuilds := (builds_new id).after calls
  have hstream : ((new id BodyBuilder.empty).after calls).recorder.stream =
      .ofInstructions ((new id BodyBuilder.empty).after calls).recorder.stream.instructions := by
    rw [← Books.stream_ofInstructions, ← hbuilds.kept.books]
    rfl
  rw [hstream]
  exact hbuilds.drafts.encodes hbuilds.kept.recorded hbody

/-- A jump table, a branch back, a branch ahead out of a protected block, and a local; the second
mark of a label is refused. -/
theorem body_encodes_stream_loop :
    let id : AssemblerId := ⟨1⟩
    let type : Member := ⟨⟨0x01000001⟩, "Int32"⟩
    let top : Label := ⟨id, 0, 0, none⟩
    let done : Label := ⟨id, 0, 1, none⟩
    let calls : List Call :=
      [.defineLabel none, .defineLabel none, .declareLocal type false none, .markLabel top,
        .beginExceptionBlock, .emit .ldlocS (.localVar ⟨id, 0, 0, type, false, none⟩),
        .emit .switch (.labels [top, done, top]), .emit .brS (.label done), .markLabel top,
        .emit .ldcI4 (.int32 (-2)), .beginFinallyBlock, .emit .endfinally .none,
        .endExceptionBlock, .emit .br (.label top), .markLabel done, .emit .ret .none]
    ∃ stream sink body,
      ((new id BodyBuilder.empty).after calls).finish = .ok (stream, sink) ∧
      sink.finish = .ok body ∧ stream.endOffset = 33 ∧ body.Encodes stream := by
  intro id type top done calls
  have hfinished : ((new id BodyBuilder.empty).after calls).finish.isOk = true := by decide +kernel
  have hbuilt : ((new id BodyBuilder.empty).after calls).sink.finish.isOk = true := by
    decide +kernel
  have hend : ((new id BodyBuilder.empty).after calls).recorder.stream.endOffset = 33 := by
    decide +kernel
  obtain ⟨⟨stream, sink⟩, hfinish⟩ := Except.exists_of_isOk hfinished
  obtain ⟨hstream, hsink⟩ := finish_eq_ok hfinish
  rw [← hsink] at hbuilt
  rw [← hstream] at hend
  obtain ⟨body, hbody⟩ := Except.exists_of_isOk hbuilt
  exact ⟨stream, sink, body, hfinish, hbody, hend, body_encodes_stream id calls hfinish hbody⟩

end Assembler

end CilAssembler
