import CilAssembler.Proofs.Bookkeeping
import CilAssembler.Proofs.ExceptionTable
import CilAssembler.Proofs.RegionGrammar

/-! # The builder mirrors the recorder

An assembler over a builder keeps the same session twice: the recorder as rosters, marks and frames,
the builder as places, variables and regions under construction. After any calls, refused ones
included, each can be read off the other. -/

namespace CilAssembler

/-! ## Blocks and handlers -/

/-- The handler that is open in a region while one of its blocks is. -/
inductive BlockState.Handles : BlockState → Option OpenHandler → Prop where
  | inTry : Handles .inTry none
  | inFilter (opened : Nat) (covers : Bool) :
      Handles .inFilter (some ⟨.filtering, opened, none, covers⟩)
  | inCatch (type : Option Token) (opened start : Nat) (covers : Bool) :
      Handles .inCatch (some ⟨.catching type, opened, some start, covers⟩)
  | afterFilter (opened start : Nat) (covers : Bool) :
      Handles .inCatch (some ⟨.filtering, opened, some start, covers⟩)
  | inFinally (opened start : Nat) (covers : Bool) :
      Handles .inFinally (some ⟨.finalizing, opened, some start, covers⟩)
  | inFault (opened start : Nat) (covers : Bool) :
      Handles .inFault (some ⟨.faulting, opened, some start, covers⟩)

/-- The block that is open and the open handler determine each other's kind. -/
structure BlockState.Mirrors (state : BlockState) (handler : Option OpenHandler) : Prop where
  inTry : state = .inTry ↔ handler = none
  inFilter : state = .inFilter ↔ ∃ h, handler = some h ∧ h.started = none
  inCatch : state = .inCatch ↔ ∃ h, handler = some h ∧
    ((∃ type, h.kind = .catching type) ∨ h.kind = .filtering ∧ h.started.isSome = true)
  inFinally : state = .inFinally ↔ ∃ h, handler = some h ∧ h.kind = .finalizing
  inFault : state = .inFault ↔ ∃ h, handler = some h ∧ h.kind = .faulting

theorem BlockState.Handles.mirrors {state : BlockState} {handler : Option OpenHandler}
    (h : state.Handles handler) : state.Mirrors handler := by
  cases h <;> constructor <;> simp

/-- A marker opens its block with a handler of the kind it begins. -/
theorem RegionCall.handles_opens {i : Instruction} {call : RegionCall} {kind : HandlerKind}
    (hcall : i.regionCall? = some call) (hkind : i.handlerKind? = some kind) (region : OpenRegion)
    (position : Nat) : call.opens.Handles (region.reopen position kind).handler := by
  cases i with
  | beginCatchBlock type =>
      cases hcall
      cases hkind
      exact .inCatch _ _ _ _
  | beginExceptFilterBlock =>
      cases hcall
      cases hkind
      exact .inFilter _ _
  | beginFinallyBlock =>
      cases hcall
      cases hkind
      exact .inFinally _ _ _
  | beginFaultBlock =>
      cases hcall
      cases hkind
      exact .inFault _ _ _
  | _ => cases hkind

/-- While a filter is open, the only marker is that of its handler. -/
theorem BlockState.Handles.beginCatchBlock_of_filter {handler : Option OpenHandler}
    (h : BlockState.inFilter.Handles handler) {i : Instruction} {call : RegionCall} {kind : HandlerKind}
    (hallows : BlockState.inFilter.allows call = true) (hcall : i.regionCall? = some call)
    (hkind : i.handlerKind? = some kind) :
    i = .beginCatchBlock none ∧ ∃ found, handler = some found ∧ found.started = none := by
  refine ⟨?_, h.mirrors.inFilter.mp rfl⟩
  cases i with
  | beginCatchBlock type =>
      cases hcall
      cases type with
      | none => rfl
      | some type => cases hallows
  | _ => first | (cases hkind; done) | (cases hcall; cases hallows)

/-- The number of handlers that were opened in a region, as far as it can be counted. -/
def OpenRegion.handlerCount (region : OpenRegion) : UInt32 :=
  region.closedHandlers + if region.handler.isSome then 1 else 0

/-- Opening a handler closes the one before it, so that one more was opened. -/
theorem OpenRegion.handlerCount_reopen (region : OpenRegion) (position : Nat) (kind : HandlerKind) :
    (region.reopen position kind).handlerCount = region.handlerCount + 1 := by
  unfold handlerCount reopen close
  cases region.handler <;> simp

/-! ## Frames and regions -/

/-- Whether the frame is that of an exception region. -/
def Frame.isBlock : Frame → Bool
  | .exceptionBlock _ _ _ => true
  | .scope => false

/-- The open exception regions without the scopes, innermost first. -/
def RegionStack.blocks (s : RegionStack) : List Frame :=
  s.frames.filter Frame.isBlock

/-- The region under construction that belongs to the frame of an exception region. -/
inductive Frame.Pairs (stream : Stream) : Frame → OpenRegion → Prop where
  | exceptionBlock {exit : Label} {state : BlockState} {handlers : UInt32} {region : OpenRegion}
      (line : Nat) (hexit : region.exit = exit.inBody)
      (hline : stream.lines[line]? = some ⟨region.tryStart, .beginExceptionBlock exit⟩)
      (hstate : state.Handles region.handler) (hcount : region.handlerCount = handlers) :
      Pairs stream (.exceptionBlock exit state handlers) region

theorem Stream.getElem?_lines_append {s : Stream} {k : Nat} {line : Line}
    (h : s.lines[k]? = some line) (i : Instruction) : (s.append i).lines[k]? = some line := by
  have hlt := (Array.getElem?_eq_some_iff.mp h).1
  rw [append, Array.getElem?_push, if_neg (Nat.ne_of_lt hlt), h]

theorem Frame.Pairs.append {stream : Stream} {frame : Frame} {region : OpenRegion}
    (h : frame.Pairs stream region) (i : Instruction) : frame.Pairs (stream.append i) region := by
  cases h with
  | exceptionBlock line hexit hline hstate hcount =>
      exact .exceptionBlock line hexit (Stream.getElem?_lines_append hline i) hstate hcount

namespace RegionStack

/-- The regions under construction are those of the open exception regions, innermost first. -/
def Pairs (stream : Stream) (s : RegionStack) (regions : List OpenRegion) : Prop :=
  List.Forall₂ (Frame.Pairs stream) s.blocks regions

theorem Pairs.append {stream : Stream} {s : RegionStack} {regions : List OpenRegion}
    (h : s.Pairs stream regions) (i : Instruction) : s.Pairs (stream.append i) regions :=
  h.imp fun _ _ hframe => hframe.append i

/-- An accepted move ends a scope, ends an exception region, or goes on to another block. -/
theorem blocks_advance {s : RegionStack} {call : RegionCall} (h : s.check call = .ok ()) :
    (call = .endScope ∧ (s.advance call).blocks = s.blocks) ∨
    (call = .endBlock ∧ ∃ frame, s.blocks = frame :: (s.advance call).blocks) ∨
    (call ≠ .endScope ∧ call ≠ .endBlock ∧ ∃ exit state handlers outer,
      state.allows call = true ∧ s.blocks = .exceptionBlock exit state handlers :: outer ∧
      (s.advance call).blocks = .exceptionBlock exit call.opens
        (if state = .inFilter then handlers else handlers + 1) :: outer) := by
  rcases move_cases (perform_move_eq_ok.mpr ⟨h, rfl⟩) with ⟨hcall, hframes⟩ |
    ⟨hcall, exit, state, handlers, _, hframes⟩ |
    ⟨hscope, hend, exit, state, handlers, outer, hallows, hframes, hafter⟩
  · refine .inl ⟨hcall, ?_⟩
    rw [blocks, blocks, hframes]
    rfl
  · refine .inr (.inl ⟨hcall, .exceptionBlock exit state handlers, ?_⟩)
    rw [blocks, blocks, hframes]
    rfl
  · refine .inr (.inr ⟨hscope, hend, exit, state, handlers, outer.filter Frame.isBlock, hallows, ?_, ?_⟩)
    · rw [blocks, hframes]
      rfl
    · rw [blocks, hafter]
      rfl

end RegionStack

/-! ## What one call keeps -/

namespace Books

variable {id : AssemblerId} {b : Books} {regions regions' : List OpenRegion}
  {clauses clauses' : List ExceptionClause} {i : Instruction}

/-- The builder's regions are those of the books. -/
def PairsRegions (b : Books) (regions : List OpenRegion) : Prop :=
  b.regions.Pairs b.stream regions

/-- A handler marker goes on to another block of the innermost exception region. -/
theorem Admits.blocks_of_handlerKind? {kind : HandlerKind} (h : b.Admits id i)
    (hkind : i.handlerKind? = some kind) :
    ∃ call exit state handlers outer, i.regionCall? = some call ∧ state.allows call = true ∧
      b.regions.blocks = .exceptionBlock exit state handlers :: outer ∧
      (b.enter i).regions.blocks = .exceptionBlock exit call.opens
        (if state = .inFilter then handlers else handlers + 1) :: outer := by
  cases h with
  | move _ call hcall hcheck _ =>
      rw [enter, Recorder.regionsAfter_of_move hcall]
      rcases RegionStack.blocks_advance hcheck with ⟨rfl, _⟩ | ⟨rfl, _⟩ |
        ⟨_, _, exit, state, handlers, outer, hallows, hblocks, hafter⟩
      · cases i <;> cases hcall
        cases hkind
      · cases i <;> cases hcall
        cases hkind
      · exact ⟨call, exit, state, handlers, outer, hcall, hallows, hblocks, hafter⟩
  | _ => cases hkind

namespace PairsRegions

theorem step_plain (h : b.PairsRegions regions) (hadmits : b.Admits id i)
    (hmarker : i.handlerKind? = none) (hbegins : ∀ exit, i ≠ .beginExceptionBlock exit)
    (hends : ∀ exit, i ≠ .endExceptionBlock exit) : (b.enter i).PairsRegions regions := by
  have hsame : (b.enter i).regions.blocks = b.regions.blocks := by
    cases hadmits with
    | beginExceptionBlock exit => exact absurd rfl (hbegins exit)
    | move _ call hcall hcheck _ =>
        cases i with
        | endExceptionBlock exit => exact absurd rfl (hends exit)
        | endScope =>
            cases hcall
            rcases RegionStack.blocks_advance hcheck with
              ⟨_, hblocks⟩ | ⟨hcall, _⟩ | ⟨hcall, _⟩
            · exact hblocks
            · cases hcall
            · exact absurd rfl hcall
        | _ => cases hcall <;> cases hmarker
    | _ => rfl
  rw [PairsRegions, RegionStack.Pairs, hsame]
  exact RegionStack.Pairs.append h i

theorem step_begins {label : Label} {exit : BodyLabel} (h : b.PairsRegions regions)
    (hexit : exit = label.inBody) :
    (b.enter (.beginExceptionBlock label)).PairsRegions
      (⟨exit, b.stream.endOffset, none, 0, none⟩ :: regions) := by
  refine .cons (.exceptionBlock b.stream.lines.size hexit ?_ .inTry rfl)
    (RegionStack.Pairs.append h (.beginExceptionBlock label))
  rw [enter, Stream.append, Array.getElem?_push_size]

/-- The handler of a filter is part of its clause. -/
theorem step_handles {exit : BodyLabel} {tryStart opened position : Nat} {tryEnd : Option Nat}
    {closed : UInt32} {kind : HandlerKind} {covers : Bool}
    (h : b.PairsRegions (⟨exit, tryStart, tryEnd, closed, some ⟨kind, opened, none, covers⟩⟩ :: regions))
    (hadmits : b.Admits id (.beginCatchBlock none)) :
    (b.enter (.beginCatchBlock none)).PairsRegions
      (⟨exit, tryStart, tryEnd, closed, some ⟨kind, opened, some position, covers⟩⟩ :: regions) := by
  obtain ⟨call, _, state, handlers, outer, hcall, _, hblocks, hafter⟩ :=
    hadmits.blocks_of_handlerKind? rfl
  cases hcall
  replace h := RegionStack.Pairs.append h (.beginCatchBlock none)
  rw [RegionStack.Pairs, hblocks] at h
  obtain ⟨hframe, houter⟩ := List.forall₂_cons.mp h
  rw [PairsRegions, RegionStack.Pairs, hafter]
  refine .cons ?_ houter
  cases hframe with
  | exceptionBlock line hexit hline hstate hcount =>
      cases hstate
      exact .exceptionBlock line hexit hline (.afterFilter opened position covers) hcount

/-- A handler other than that of a filter begins another clause. -/
theorem step_opens {region : OpenRegion} {kind : HandlerKind} (h : b.PairsRegions (region :: regions))
    (hadmits : b.Admits id i) (hkind : i.handlerKind? = some kind)
    (hready : ¬(i = .beginCatchBlock none ∧
      ∃ handler, region.handler = some handler ∧ handler.started = none)) (position : Nat) :
    (b.enter i).PairsRegions (region.reopen position kind :: regions) := by
  obtain ⟨call, _, state, handlers, outer, hcall, hallows, hblocks, hafter⟩ :=
    hadmits.blocks_of_handlerKind? hkind
  replace h := RegionStack.Pairs.append h i
  rw [RegionStack.Pairs, hblocks] at h
  obtain ⟨hframe, houter⟩ := List.forall₂_cons.mp h
  rw [PairsRegions, RegionStack.Pairs, hafter]
  refine .cons ?_ houter
  cases hframe with
  | exceptionBlock line hexit hline hstate hcount =>
      -- After a filter only its handler is allowed, and the builder does not open that one anew.
      have hfilter : state ≠ .inFilter := by
        rintro rfl
        exact hready (hstate.beginCatchBlock_of_filter hallows hcall hkind)
      rw [if_neg hfilter, ← hcount, ← region.handlerCount_reopen position kind]
      rw [← OpenRegion.tryStart_close region position] at hline
      rw [← BodyBuilder.exit_close region position] at hexit
      exact .exceptionBlock line hexit hline (RegionCall.handles_opens hcall hkind region position) rfl

theorem step_ends {region : OpenRegion} {label : Label} (h : b.PairsRegions (region :: regions))
    (hadmits : b.Admits id (.endExceptionBlock label)) :
    (b.enter (.endExceptionBlock label)).PairsRegions regions := by
  replace h := RegionStack.Pairs.append h (.endExceptionBlock label)
  cases hadmits with
  | move _ call hcall hcheck _ =>
      cases hcall
      rcases RegionStack.blocks_advance hcheck with ⟨hcall, _⟩ | ⟨_, frame, hblocks⟩ |
        ⟨_, hcall, _⟩
      · cases hcall
      · rw [RegionStack.Pairs, hblocks] at h
        exact (List.forall₂_cons.mp h).2
      · exact absurd rfl hcall

theorem step (h : b.PairsRegions regions) (hadmits : b.Admits id i)
    (hmoves : BodyBuilder.Moves b.stream.endOffset i regions clauses regions' clauses')
    (hexits : regions'.map (·.exit) = (b.enter i).regions.exits.map Label.inBody) :
    (b.enter i).PairsRegions regions' := by
  cases hmoves with
  | plain hmarker hbegins hends => exact h.step_plain hadmits hmarker hbegins hends
  | begins label exit => exact h.step_begins (List.cons.inj hexits).1
  | handles => exact h.step_handles hadmits
  | opens hkind hready => exact h.step_opens hadmits hkind hready _
  | ends label => exact h.step_ends hadmits

end PairsRegions

end Books

/-! ## Lines that define a label -/

/-- A line that defines a label makes the roster longer. -/
theorem Books.size_labels_take_lt {is : List Instruction} {i : Instruction} {label : Label} {j k : Nat}
    (hi : is[j]? = some i) (hdef : i.definedLabel? = some label) (hlt : j < k) :
    (ofInstructions (is.take j)).labels.size < (ofInstructions (is.take k)).labels.size := by
  have hgrown : (ofInstructions (is.take (j + 1))).labels.size =
      (ofInstructions (is.take j)).labels.size + 1 := by
    rw [List.take_add_one, hi, Option.toList_some, size_labels_append_singleton, hdef]
    rfl
  have hmono : (ofInstructions (is.take (j + 1))).labels.size ≤ (ofInstructions (is.take k)).labels.size := by
    rw [size_labels, size_labels]
    exact ((List.take_prefix_take_left hlt).sublist.filterMap _).length_le
  omega

/-- No two lines define labels of one index. -/
theorem Recorded.line_eq_of_index_eq {id : AssemblerId} {is : List Instruction} (h : Recorded id is)
    (hsize : (Books.ofInstructions is).labels.size ≤ 2 ^ 32) {j k : Nat} {i i' : Instruction}
    {label label' : Label} (hj : is[j]? = some i) (hk : is[k]? = some i')
    (hdef : i.definedLabel? = some label) (hdef' : i'.definedLabel? = some label')
    (hindex : label.index = label'.index) : j = k := by
  have hbound : ∀ {n line other}, is[n]? = some line → line.definedLabel? = some other →
      other.index.toNat = (Books.ofInstructions (is.take n)).labels.size := by
    intro n line other hline hother
    have hlt := Books.size_labels_take_lt hline hother (List.getElem?_eq_some_iff.mp hline).1
    rw [List.take_length] at hlt
    rw [((h n line hline).definedLabel hother).2, toNat_toUInt32_of_lt (by omega)]
  have hsame := hbound hj hdef
  rw [hindex, hbound hk hdef'] at hsame
  rcases Nat.lt_trichotomy j k with hlt | heq | hgt
  · exact absurd hsame (Nat.ne_of_gt (Books.size_labels_take_lt hj hdef hlt))
  · exact heq
  · exact absurd hsame (Nat.ne_of_lt (Books.size_labels_take_lt hk hdef' hgt))

/-! ## Sessions -/

theorem Stream.getElem?_lines_ofInstructions (is : List Instruction) (k : Nat) :
    (ofInstructions is).lines[k]? = is[k]?.map fun i => ⟨totalSize (is.take k), i⟩ := by
  rw [lines_ofInstructions, List.getElem?_toArray, getElem?_linesFrom]
  simp only [Nat.zero_add]

theorem Stream.getElem?_of_lines {is : List Instruction} {k : Nat} {line : Line}
    (h : (ofInstructions is).lines[k]? = some line) : is[k]? = some line.instruction := by
  rw [getElem?_lines_ofInstructions] at h
  obtain ⟨i, hi, rfl⟩ := Option.map_eq_some_iff.mp h
  exact hi

/-- The region under construction is that of the frame. Its try block starts at the one line that
begins the block. -/
inductive Frame.Mirrors (stream : Stream) : Frame → OpenRegion → Prop where
  | exceptionBlock {exit : Label} {state : BlockState} {handlers : UInt32} {region : OpenRegion}
      (line : Nat) (hexit : region.exit.index = exit.index)
      (hline : stream.lines[line]? = some ⟨region.tryStart, .beginExceptionBlock exit⟩)
      (honly : ∀ other offset,
        stream.lines[other]? = some ⟨offset, .beginExceptionBlock exit⟩ → other = line)
      (hstate : state.Mirrors region.handler) (hcount : region.handlerCount = handlers) :
      Mirrors stream (.exceptionBlock exit state handlers) region

theorem Frame.Pairs.mirrors {id : AssemblerId} {is : List Instruction} {frame : Frame}
    {region : OpenRegion} (h : frame.Pairs (.ofInstructions is) region) (hrecorded : Recorded id is)
    (hsize : (Books.ofInstructions is).labels.size ≤ 2 ^ 32) :
    frame.Mirrors (.ofInstructions is) region := by
  cases h with
  | exceptionBlock line hexit hline hstate hcount =>
      refine .exceptionBlock line (by rw [hexit]; rfl) hline ?_ hstate.mirrors hcount
      intro other offset hother
      exact hrecorded.line_eq_of_index_eq hsize (Stream.getElem?_of_lines hother)
        (Stream.getElem?_of_lines hline) rfl rfl rfl

namespace BodyBuilder.DraftsLabels

variable {id : AssemblerId} {is : List Instruction} {b : BodyBuilder} {n : Nat} {slot : LabelSlot}

/-- A label that a line marks is placed at the offset of that line. -/
theorem placed_of_mark (h : b.DraftsLabels is) (hrecorded : Recorded id is)
    (hslot : (Books.ofInstructions is).labels[n]? = some slot) {line : Nat}
    (hmark : slot.mark = some line) : ∃ (l : Line) (label : Label),
      (Stream.ofInstructions is).lines[line]? = some l ∧ l.instruction.placed? = some label ∧
      (slot.label == label) = true ∧ b.labels[n]? = some (some l.offset) := by
  have hlt := (Array.getElem?_eq_some_iff.mp hslot).1
  obtain ⟨label, hplaced, hsame⟩ :=
    (hrecorded.mark_iff (h.size ▸ h.room) hslot line).mp hmark
  obtain ⟨i, hi, hplaces⟩ := Option.bind_eq_some_iff.mp hplaced
  refine ⟨⟨totalSize (is.take line), i⟩, label, ?_, hplaces, hsame, ?_⟩
  · rw [Stream.getElem?_lines_ofInstructions, hi, Option.map_some]
  · rw [h.placed n (h.size ▸ hlt), ← (hrecorded.label_slot hslot).2, Label.index_eq_of_beq hsame,
      hrecorded.labelOffsets_of_placedAt hplaced]

/-- A label is placed exactly if a line marks it. -/
theorem unplaced_iff (h : b.DraftsLabels is) (hrecorded : Recorded id is)
    (hslot : (Books.ofInstructions is).labels[n]? = some slot) :
    b.labels[n]? = some none ↔ slot.mark = none := by
  cases hmark : slot.mark with
  | none =>
      have hlt := (Array.getElem?_eq_some_iff.mp hslot).1
      have hroom := h.room
      rw [h.size] at hroom
      have hindex : slot.label.index.toNat = n := by
        rw [(hrecorded.label_slot hslot).2, toNat_toUInt32_of_lt (by omega)]
      have hnone := h.getElem?_of_unmarked hrecorded
        ⟨slot, by rwa [hindex], Label.beq_iff.mpr ⟨rfl, rfl, rfl⟩, hmark⟩
      rw [hindex] at hnone
      exact iff_of_true hnone rfl
  | some line =>
      obtain ⟨_, _, _, _, _, hsome⟩ := h.placed_of_mark hrecorded hslot hmark
      rw [hsome]
      simp

end BodyBuilder.DraftsLabels

namespace Assembler

variable {a : Assembler BodyBuilder BodyLabel BodyLocal}

/-- The label on both sides of the session. The builder's label has the same number, and it is placed
where the line that marks the label stands, if there is one. -/
structure MirrorsLabel (a : Assembler BodyBuilder BodyLabel BodyLocal) (n : Nat) (slot : LabelSlot) :
    Prop where
  index : ∃ made : BodyLabel, a.labels[n]? = some made ∧ made.index.toNat = n
  unplaced : a.sink.labels[n]? = some none ↔ slot.mark = none
  placed : ∀ line, slot.mark = some line → ∃ (l : Line) (label : Label),
    a.recorder.stream.lines[line]? = some l ∧ l.instruction.placed? = some label ∧
    (slot.label == label) = true ∧ a.sink.labels[n]? = some (some l.offset)

/-- The local on both sides of the session. The builder's local has the same number, and it is
declared alike. -/
structure MirrorsLocal (a : Assembler BodyBuilder BodyLabel BodyLocal) (n : Nat) (v : Local) :
    Prop where
  index : ∃ made : BodyLocal, a.locals[n]? = some made ∧ made.index.toNat = n
  declared : a.sink.locals[n]? = some ⟨v.type, v.pinned⟩

/-- Both sides of the session are in the same state. -/
structure Mirrors (a : Assembler BodyBuilder BodyLabel BodyLocal) : Prop where
  size_labels : a.labels.size = a.recorder.labels.size ∧ a.sink.labels.size = a.recorder.labels.size
  labels : ∀ n slot, a.recorder.labels[n]? = some slot → a.MirrorsLabel n slot
  size_locals : a.locals.size = a.recorder.locals.size ∧ a.sink.locals.size = a.recorder.locals.size
  locals : ∀ n v, a.recorder.locals[n]? = some v → a.MirrorsLocal n v
  regions : List.Forall₂ (Frame.Mirrors a.recorder.stream) a.recorder.regions.blocks a.sink.regions

namespace Builds

theorem mirrorsLabel (h : a.Builds) {n : Nat} {slot : LabelSlot}
    (hslot : a.recorder.labels[n]? = some slot) : a.MirrorsLabel n slot := by
  have hlt := (Array.getElem?_eq_some_iff.mp hslot).1
  have hroom := h.drafts.labels.room
  rw [h.size_labels] at hroom
  have hrecorded := h.kept.recorded
  have hbooks : a.recorder.labels = (Books.ofInstructions a.recorder.stream.instructions).labels :=
    congrArg Books.labels h.kept.books
  rw [hbooks] at hslot
  refine ⟨⟨⟨n.toUInt32⟩, ?_, toNat_toUInt32_of_lt (by omega)⟩, ?_, ?_⟩
  · rw [← Array.getElem?_toList, h.labels, List.getElem?_map, List.getElem?_range hlt, Option.map_some]
  · exact h.drafts.labels.unplaced_iff hrecorded hslot
  · intro line hmark
    rw [h.kept.stream_eq]
    exact h.drafts.labels.placed_of_mark hrecorded hslot hmark

theorem mirrorsLocal (h : a.Builds) {n : Nat} {v : Local} (hv : a.recorder.locals[n]? = some v) :
    a.MirrorsLocal n v := by
  have hlt := (Array.getElem?_eq_some_iff.mp hv).1
  have hroom := h.drafts.locals.room
  rw [h.size_locals] at hroom
  refine ⟨⟨⟨n.toUInt16⟩, ?_, Text.toNat_toUInt16_of_lt (by omega)⟩, ?_⟩
  · rw [← Array.getElem?_toList, h.locals, List.getElem?_map, List.getElem?_range hlt, Option.map_some]
  · rw [← Array.getElem?_toList, h.drafts.locals.locals, ← h.kept.books, List.getElem?_map,
      Array.getElem?_toList]
    exact congrArg (Option.map _) hv

end Builds

/-- The builder is in step with the recorder, and its regions are those of the open frames. -/
structure Couples (a : Assembler BodyBuilder BodyLabel BodyLocal) : Prop where
  builds : a.Builds
  regions : a.recorder.books.PairsRegions a.sink.regions

theorem couples_new (id : AssemblerId) :
    (new id BodyBuilder.empty : Assembler BodyBuilder BodyLabel BodyLocal).Couples :=
  ⟨builds_new id, .nil⟩

theorem Couples.perform (h : a.Couples) (call : Call) : (a.perform call).2.Couples := by
  have hbuilds := h.builds.perform call
  refine ⟨hbuilds, ?_⟩
  rcases h.builds.perform_cases call with ⟨e, hresult⟩ | ⟨reply, i, made, b, hadmits, hsink, hresult⟩
  · rw [hresult]
    exact h.regions
  · have hmoves := BodyBuilder.moves_of_perform (h.builds.drafts.position h.builds.kept.recorded) hsink
    rw [← h.builds.kept.books] at hadmits
    -- That a new region has the label of its frame is known only from the state after the call.
    have hexits := hbuilds.drafts.regions
    rw [BodyBuilder.DraftsRegions, ← hbuilds.kept.books, hresult] at hexits
    rw [hresult]
    rw [← Stream.endOffset_ofInstructions, ← h.builds.kept.stream_eq] at hmoves
    exact h.regions.step hadmits hmoves hexits

theorem Couples.after (h : a.Couples) (calls : List Call) : (a.after calls).Couples := by
  induction calls using List.reverseRecOn with
  | nil => exact h
  | append_singleton calls call ih =>
      rw [after_append_singleton]
      exact ih.perform call

theorem Couples.mirrors (h : a.Couples) : a.Mirrors := by
  obtain ⟨hbuilds, hregions⟩ := h
  constructor
  case size_labels =>
    refine ⟨?_, hbuilds.size_labels⟩
    rw [← Array.length_toList, hbuilds.labels, List.length_map, List.length_range]
  case labels => exact fun n slot hslot => hbuilds.mirrorsLabel hslot
  case size_locals =>
    refine ⟨?_, hbuilds.size_locals⟩
    rw [← Array.length_toList, hbuilds.locals, List.length_map, List.length_range]
  case locals => exact fun n v hv => hbuilds.mirrorsLocal hv
  case regions =>
    have hsize := hbuilds.drafts.labels.room
    rw [hbuilds.drafts.labels.size] at hsize
    have hpairs : List.Forall₂ (Frame.Pairs a.recorder.stream) a.recorder.regions.blocks
      a.sink.regions := hregions
    rw [hbuilds.kept.stream_eq] at hpairs ⊢
    exact hpairs.imp fun frame region hframe => hframe.mirrors hbuilds.kept.recorded hsize

/-- After any calls, the builder and the recorder of an assembler mirror each other. -/
theorem builder_mirrors_recorder (id : AssemblerId) (calls : List Call) :
    ((new id BodyBuilder.empty).after calls).Mirrors :=
  ((couples_new id).after calls).mirrors

end Assembler

end CilAssembler
