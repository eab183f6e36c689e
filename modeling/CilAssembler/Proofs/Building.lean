import CilAssembler.Proofs.Draft
import CilAssembler.Proofs.Forwarding

/-! # Building in step

A builder that is in step with some instructions either refuses the call of the next admitted
instruction and stays as it is, or takes it and is in step again. -/

namespace CilAssembler

/-- The call of an instruction in terms of a method body. -/
def Instruction.inBody : Instruction → SinkCall BodyLabel BodyLocal
  | .op o => .emit o.code o.operand.inBody
  | .defineLabel _ => .defineLabel
  | .markLabel label => .markLabel label.inBody
  | .declareLocal v => .declareLocal v.type v.pinned
  | .beginExceptionBlock _ => .beginExceptionBlock
  | .beginCatchBlock type => .beginCatchBlock type
  | .beginExceptFilterBlock => .beginExceptFilterBlock
  | .beginFinallyBlock => .beginFinallyBlock
  | .beginFaultBlock => .beginFaultBlock
  | .endExceptionBlock _ => .endExceptionBlock
  | .beginScope => .beginScope
  | .endScope => .endScope

/-- The region after what is open in it was closed and a handler was opened at `position`. -/
def OpenRegion.reopen (region : OpenRegion) (position : Nat) (kind : HandlerKind) : OpenRegion :=
  let closed := (region.close position).1
  let started := if kind = .filtering then none else some position
  { closed with handler := some ⟨kind, position, started, kind.isCleanup && 0 < closed.closedHandlers⟩ }

namespace BodyBuilder

/-! ## Regions -/

section Regions

variable {b : BodyBuilder} {position : Nat}

theorem exit_close (region : OpenRegion) (position : Nat) : (region.close position).1.exit = region.exit := by
  unfold OpenRegion.close
  cases region.handler <;> rfl

/-- Opening a handler closes what is open in the innermost region. -/
theorem openHandler_eq (hposition : b.position = .ok position) {region : OpenRegion}
    {rest : List OpenRegion} (hregions : b.regions = region :: rest) (operation : RegionOperation)
    (kind : HandlerKind) :
    b.openHandler operation kind = (.ok (), { b with
      regions := region.reopen position kind :: rest
      clauses := b.clauses ++ (region.close position).2.toList }) := by
  unfold openHandler
  rw [hposition, hregions]
  rfl

/-- Opening a handler changes neither the code nor which regions are open. -/
theorem openHandler_keeps (hposition : b.position = .ok position) (hregions : b.regions ≠ [])
    (operation : RegionOperation) (kind : HandlerKind) :
    ∃ regions clauses,
      b.openHandler operation kind = (.ok (), { b with regions := regions, clauses := clauses }) ∧
      regions.map (·.exit) = b.regions.map (·.exit) := by
  obtain ⟨region, rest, hrest⟩ := List.exists_cons_of_ne_nil hregions
  refine ⟨_, _, openHandler_eq hposition hrest operation kind, ?_⟩
  rw [hrest, List.map_cons, List.map_cons, ← exit_close region position]
  rfl

/-- Opening a catch handler changes neither the code nor which regions are open. -/
theorem beginCatchBlock_keeps (hposition : b.position = .ok position) (hregions : b.regions ≠ [])
    (type : Option Member) :
    ∃ regions clauses,
      b.beginCatchBlock type = (.ok (), { b with regions := regions, clauses := clauses }) ∧
      regions.map (·.exit) = b.regions.map (·.exit) := by
  unfold beginCatchBlock
  split
  · rename_i hregion
    exact ⟨_, b.clauses, rfl, by simp [hregion]⟩
  · exact openHandler_keeps hposition hregions _ _

end Regions

/-! ## Steps -/

/-- The builder is in step with the instructions. -/
structure Drafts (is : List Instruction) (b : BodyBuilder) : Prop where
  code : b.DraftsCode is
  labels : b.DraftsLabels is
  locals : b.DraftsLocals is
  regions : b.DraftsRegions is

theorem drafts_empty : empty.Drafts [] := by
  refine ⟨⟨rfl, rfl, rfl, ⟨[], StringHeap.holds_empty⟩, ?_⟩, ⟨rfl, Nat.zero_le _, ?_⟩,
    ⟨rfl, Nat.zero_le _⟩, rfl⟩
  · intro o text ho
    cases ho
  · intro n hn
    cases hn

/-- What the builder has no room for: the handles of another label or local, or another text. -/
inductive Lacks (b : BodyBuilder) : Instruction → Malformation → Prop where
  | label {i : Instruction} (hdef : i.definedLabel?.isSome = true) (hfull : 0xFFFFFFFF < b.labels.size) :
      Lacks b i .tooManyLabels
  | localVar (v : Local) (hfull : 0xFFFF ≤ b.locals.size) :
      Lacks b (.declareLocal v) (.tooManyLocals b.locals.size)
  | text {o : Op} {text : String} {cause : Malformation} (hx : o.operand = .string text)
      (hover : b.strings.Overfull text cause) : Lacks b (.op o) cause

/-- The builder lacks room for the instruction, refuses its call and stays as it is, or it takes the
call, is in step again, and gives back the next label or local. -/
def Advances (is : List Instruction) (b : BodyBuilder) (i : Instruction) : Prop :=
  (∃ cause, b.Lacks i cause ∧ b.perform i.inBody = (.error (.malformed cause), b)) ∨
  ∃ made b', b.perform i.inBody = (.ok made, b') ∧ b'.Drafts (is ++ [i]) ∧
    Response.label? ⟨i.inBody, made⟩ = i.definedLabel?.map (fun _ => ⟨b.labels.size.toUInt32⟩) ∧
    Response.local? ⟨i.inBody, made⟩ = i.declaredLocal?.map fun _ => ⟨b.locals.size.toUInt16⟩

/-- A call for which the builder lacks room is refused. -/
theorem Lacks.refused {b : BodyBuilder} {i : Instruction} {cause : Malformation} (h : b.Lacks i cause) :
    b.perform i.inBody = (.error (.malformed cause), b) := by
  cases h with
  | label hdef hfull =>
      cases i with
      | defineLabel label => simp [perform, Instruction.inBody, defineLabel, Nat.not_le.mpr hfull]
      | beginExceptionBlock exit =>
          simp [perform, Instruction.inBody, beginExceptionBlock, defineLabel, Nat.not_le.mpr hfull]
      | _ => cases hdef
  | localVar v hfull => simp [perform, Instruction.inBody, declareLocal, Nat.not_lt.mpr hfull]
  | @text o text _ hx hover =>
      have htakes : takes o.code.kind (.string text) = true := by
        have hbody := takes_inBody (o := o) (by simp [hx])
        rwa [hx] at hbody
      simp [perform, Instruction.inBody, emit, hx, Operand.inBody, htakes, emitString, hover.refused]

namespace Drafts

variable {id : AssemblerId} {is : List Instruction} {i : Instruction} {b : BodyBuilder}

theorem position (h : b.Drafts is) (hrecorded : Recorded id is) :
    b.position = .ok (totalSize is) := by
  have hroom := hrecorded.totalSize_le
  rw [← h.code.size_code] at hroom ⊢
  exact position_eq_ok hroom

theorem advances_op (h : b.Drafts is) {o : Op}
    (hadmits : (Books.ofInstructions is).Admits id (.op o)) : b.Advances is (.op o) := by
  cases hadmits with
  | move _ call hcall => cases hcall
  | op _ hlabels hlocal hroom =>
      obtain ⟨texts, hstrings⟩ := h.code.strings
      have htargets : ∀ label ∈ o.operand.targets, label.index.toNat < b.labels.size := by
        intro label hlabel
        rw [h.labels.size]
        exact Recorded.index_lt_of_hasLabel (hlabels label hlabel)
      have hindex : ∀ v, o.operand = .localVar v → v.index.toNat < 0xFFFF := by
        intro v hv
        obtain ⟨slot, hslot, _⟩ := hlocal v hv
        have hlt := (Array.getElem?_eq_some_iff.mp hslot).1
        have hmax := h.locals.room
        rw [h.locals.size] at hmax
        omega
      rw [Books.stream_ofInstructions, Stream.endOffset_ofInstructions, ← h.code.size_code] at hroom
      rcases emit_cases hstrings hroom htargets hindex with
        ⟨text, cause, hx, hover, hrefused⟩ | ⟨b', hemit, hwrites⟩
      · exact .inl ⟨cause, .text hx hover, hrefused⟩
      · refine .inr ⟨(), b', hemit, ⟨h.code.op hwrites, ?_, ?_, ?_⟩, rfl, rfl⟩
        · exact h.labels.unrelated rfl rfl hwrites.labels
        · exact h.locals.unrelated rfl hwrites.locals
        · exact h.regions.unrelated rfl (by rw [hwrites.regions])

theorem advances_defineLabel (h : b.Drafts is) (hrecorded : Recorded id is) (label : Label) :
    b.Advances is (.defineLabel label) := by
  by_cases hroom : b.labels.size ≤ 0xFFFFFFFF
  · right
    refine ⟨⟨b.labels.size.toUInt32⟩, { b with labels := b.labels.push none },
      by simp [perform, Instruction.inBody, defineLabel, hroom], ?_, rfl, rfl⟩
    refine ⟨h.code.marker rfl rfl rfl rfl rfl, ?_, h.locals.unrelated rfl rfl,
      h.regions.unrelated rfl rfl⟩
    exact h.labels.define hrecorded rfl rfl (by omega) rfl
  · left
    exact ⟨.tooManyLabels, .label rfl (Nat.lt_of_not_le hroom),
      by simp [perform, Instruction.inBody, defineLabel, hroom]⟩

theorem advances_beginExceptionBlock (h : b.Drafts is) (hrecorded : Recorded id is) {exit : Label}
    (hadmits : (Books.ofInstructions is).Admits id (.beginExceptionBlock exit)) :
    b.Advances is (.beginExceptionBlock exit) := by
  by_cases hroom : b.labels.size ≤ 0xFFFFFFFF
  · right
    have hposition : BodyBuilder.position { b with labels := b.labels.push none } =
        .ok (totalSize is) := h.position hrecorded
    have hindex := (hadmits.definedLabel rfl).2
    rw [← h.labels.size] at hindex
    refine ⟨⟨b.labels.size.toUInt32⟩, { b with
      labels := b.labels.push none
      regions := ⟨⟨b.labels.size.toUInt32⟩, totalSize is, none, 0, none⟩ :: b.regions },
      by simp [perform, Instruction.inBody, beginExceptionBlock, defineLabel, hroom, hposition],
      ?_, rfl, rfl⟩
    refine ⟨h.code.marker rfl rfl rfl rfl rfl, ?_, h.locals.unrelated rfl rfl, ?_⟩
    · exact h.labels.define hrecorded rfl rfl (by omega) rfl
    · have hexits := h.regions
      rw [DraftsRegions] at hexits ⊢
      rw [Books.regions_append_singleton, List.map_cons, hexits, ← hindex]
      rfl
  · left
    exact ⟨.tooManyLabels, .label rfl (Nat.lt_of_not_le hroom),
      by simp [perform, Instruction.inBody, beginExceptionBlock, defineLabel, hroom]⟩

theorem advances_declareLocal (h : b.Drafts is) (v : Local) :
    b.Advances is (.declareLocal v) := by
  by_cases hroom : b.locals.size < 0xFFFF
  · right
    refine ⟨⟨b.locals.size.toUInt16⟩, { b with locals := b.locals.push ⟨v.type, v.pinned⟩ },
      by simp [perform, Instruction.inBody, declareLocal, hroom], ?_, rfl, rfl⟩
    exact ⟨h.code.marker rfl rfl rfl rfl rfl, h.labels.unrelated rfl rfl rfl,
      h.locals.declare hroom rfl, h.regions.unrelated rfl rfl⟩
  · left
    exact ⟨.tooManyLocals b.locals.size, .localVar v (Nat.le_of_not_lt hroom),
      by simp [perform, Instruction.inBody, declareLocal, hroom]⟩

/-- A label that the stream may place can be placed in the builder. -/
theorem markLabel_eq {label : Label} {b' : BodyBuilder} (h : b.Drafts is)
    (hrecorded : Recorded id is) (hunmarked : (Books.ofInstructions is).Unmarked label)
    (hcode : b'.code = b.code) (hlabels : b'.labels = b.labels) :
    b'.markLabel label.inBody = (.ok (), { b' with
      labels := b.labels.setIfInBounds label.index.toNat (some (totalSize is)) }) := by
  have hposition : b'.position = .ok (totalSize is) := by
    rw [BodyBuilder.position, hcode]
    exact h.position hrecorded
  have hslot := h.labels.getElem?_of_unmarked hrecorded hunmarked
  simp [markLabel, checkMark, hposition, hlabels, Label.inBody, hslot]

theorem advances_markLabel (h : b.Drafts is) (hrecorded : Recorded id is) {label : Label}
    (hadmits : (Books.ofInstructions is).Admits id (.markLabel label)) :
    b.Advances is (.markLabel label) := by
  right
  refine ⟨(), _, h.markLabel_eq hrecorded (hadmits.placed rfl) rfl rfl, ?_, rfl, rfl⟩
  exact ⟨h.code.marker rfl rfl rfl rfl rfl, h.labels.place rfl rfl rfl,
    h.locals.unrelated rfl rfl, h.regions.unrelated rfl rfl⟩

theorem advances_endExceptionBlock (h : b.Drafts is) (hrecorded : Recorded id is) {exit : Label}
    (hadmits : (Books.ofInstructions is).Admits id (.endExceptionBlock exit)) :
    b.Advances is (.endExceptionBlock exit) := by
  cases hadmits with
  | move _ call hcall hcheck hexit =>
      obtain ⟨hinnermost, hunmarked⟩ := hexit exit rfl
      have hregions := h.regions
      rw [DraftsRegions, RegionStack.exits_eq_cons hinnermost, List.map_cons] at hregions
      obtain ⟨region, rest, hrest, hlabel, htail⟩ := List.map_eq_cons_iff.mp hregions
      cases hclose : region.close (totalSize is) with
      | mk closed clause =>
          have hmark : ({ b with regions := rest, clauses := b.clauses ++ clause.toList } :
              BodyBuilder).markLabel exit.inBody = _ :=
            h.markLabel_eq hrecorded hunmarked rfl rfl
          have hperform : b.endExceptionBlock = (.ok (), { b with
              regions := rest
              clauses := b.clauses ++ clause.toList
              labels := b.labels.setIfInBounds exit.index.toNat (some (totalSize is)) }) := by
            unfold endExceptionBlock
            rw [h.position hrecorded, hrest]
            simp only [hclose, hlabel]
            exact hmark
          right
          refine ⟨(), _, hperform, ?_, rfl, rfl⟩
          refine ⟨h.code.marker rfl rfl rfl rfl rfl, h.labels.place rfl rfl rfl,
            h.locals.unrelated rfl rfl, ?_⟩
          rw [DraftsRegions, Books.regions_append_singleton]
          exact htail

/-- A move to another handler of the innermost region. -/
theorem advances_handler (h : b.Drafts is) {call : RegionCall} (hcall : i.regionCall? = some call)
    (hcheck : (Books.ofInstructions is).regions.check call = .ok ()) (hscope : call ≠ .endScope)
    (hend : call ≠ .endBlock) {made : i.inBody.Reply}
    (hperform : b.regions ≠ [] → ∃ regions clauses,
      b.perform i.inBody = (.ok made, { b with regions := regions, clauses := clauses }) ∧
      regions.map (·.exit) = b.regions.map (·.exit)) : b.Advances is i := by
  have hopen : b.regions ≠ [] := by
    intro hnil
    have hregions := h.regions
    rw [DraftsRegions, hnil, List.map_nil, eq_comm, List.map_eq_nil_iff] at hregions
    exact RegionStack.exits_ne_nil hcheck hscope hregions
  obtain ⟨regions, clauses, hresult, hexits⟩ := hperform hopen
  have hafter : (Recorder.regionsAfter (Books.ofInstructions is).regions i).exits =
      (Books.ofInstructions is).regions.exits := by
    rw [← RegionStack.exits_advance hcheck hend]
    cases i <;> cases hcall <;> rfl
  right
  have hop : i.op? = none := by cases i <;> cases hcall <;> rfl
  have hdefined : i.definedLabel? = none := by cases i <;> cases hcall <;> rfl
  have hdeclared : i.declaredLocal? = none := by cases i <;> cases hcall <;> rfl
  have hplaced : i.placed? = none := by
    cases i <;> cases hcall <;> first | rfl | exact absurd rfl hend
  refine ⟨made, _, hresult, ?_, ?_, ?_⟩
  · exact ⟨h.code.marker hop rfl rfl rfl rfl, h.labels.unrelated hdefined hplaced rfl,
      h.locals.unrelated hdeclared rfl, h.regions.unrelated hafter hexits⟩
  · cases i <;> cases hcall <;> rfl
  · cases i <;> cases hcall <;> rfl

theorem advances_scope (h : b.Drafts is) (hi : i = .beginScope ∨ i = .endScope)
    (hadmits : (Books.ofInstructions is).Admits id i) : b.Advances is i := by
  have hafter : (Recorder.regionsAfter (Books.ofInstructions is).regions i).exits =
      (Books.ofInstructions is).regions.exits := by
    rcases hi with rfl | rfl
    · rfl
    · cases hadmits with
      | move _ call hcall hcheck =>
          cases hcall
          exact RegionStack.exits_advance hcheck nofun
  right
  rcases hi with rfl | rfl
  all_goals
    exact ⟨(), b, rfl, ⟨h.code.marker rfl rfl rfl rfl rfl, h.labels.unrelated rfl rfl rfl,
      h.locals.unrelated rfl rfl, h.regions.unrelated hafter rfl⟩, rfl, rfl⟩

/-- The builder stays in step with what is recorded. -/
theorem advances (h : b.Drafts is) (hrecorded : Recorded id is)
    (hadmits : (Books.ofInstructions is).Admits id i) : b.Advances is i := by
  have hposition := h.position hrecorded
  have hcheck : ∀ call, i.regionCall? = some call →
      (Books.ofInstructions is).regions.check call = .ok () := by
    intro call hcall
    cases hadmits with
    | move _ other hother hcheck =>
        rw [hcall] at hother
        cases hother
        exact hcheck
    | _ => cases hcall
  cases i with
  | op o => exact h.advances_op hadmits
  | defineLabel label => exact h.advances_defineLabel hrecorded label
  | markLabel label => exact h.advances_markLabel hrecorded hadmits
  | declareLocal v => exact h.advances_declareLocal v
  | beginExceptionBlock exit => exact h.advances_beginExceptionBlock hrecorded hadmits
  | endExceptionBlock exit => exact h.advances_endExceptionBlock hrecorded hadmits
  | beginScope => exact h.advances_scope (.inl rfl) hadmits
  | endScope => exact h.advances_scope (.inr rfl) hadmits
  | beginCatchBlock type =>
      exact h.advances_handler rfl (hcheck _ rfl) nofun nofun
        fun hopen => beginCatchBlock_keeps hposition hopen type
  | beginExceptFilterBlock =>
      exact h.advances_handler rfl (hcheck _ rfl) nofun nofun
        fun hopen => openHandler_keeps hposition hopen _ _
  | beginFinallyBlock =>
      exact h.advances_handler rfl (hcheck _ rfl) nofun nofun
        fun hopen => openHandler_keeps hposition hopen _ _
  | beginFaultBlock =>
      exact h.advances_handler rfl (hcheck _ rfl) nofun nofun
        fun hopen => openHandler_keeps hposition hopen _ _

end Drafts

end BodyBuilder

end CilAssembler
