import CilAssembler.Proofs.Building
import CilAssembler.Proofs.Interning

/-! # Builders on their own

A builder can be used without an assembler. Calls then come in any order and with any labels. `Step`
says all that one call can do to a builder. A refused call changes nothing, with one exception: a
region whose end label was placed by hand is closed although its end is refused. -/

namespace CilAssembler

/-- The kind of handler that a call opens. -/
def SinkCall.handlerKind? {Λ V : Type} : SinkCall Λ V → Option HandlerKind
  | .beginCatchBlock type => some (.catching (type.map (·.token)))
  | .beginExceptFilterBlock => some .filtering
  | .beginFinallyBlock => some .finalizing
  | .beginFaultBlock => some .faulting
  | _ => none

namespace BodyBuilder

/-- Performs calls in order, whether or not they are refused. -/
def after (b : BodyBuilder) (calls : List (SinkCall BodyLabel BodyLocal)) : BodyBuilder :=
  calls.foldl (fun b call => (b.perform call).2) b

theorem after_append_singleton (b : BodyBuilder) (calls : List (SinkCall BodyLabel BodyLocal))
    (call : SinkCall BodyLabel BodyLocal) :
    b.after (calls ++ [call]) = ((b.after calls).perform call).2 := by
  simp [after]

/-! ## One call -/

/-- The builder after the innermost region was closed. -/
def closeRegion (b : BodyBuilder) (region : OpenRegion) (rest : List OpenRegion) : BodyBuilder :=
  { b with regions := rest, clauses := b.clauses ++ (region.close b.code.size).2.toList }

/-- The builder after a label was placed at the end of the code. -/
def place (b : BodyBuilder) (label : BodyLabel) : BodyBuilder :=
  { b with labels := b.labels.setIfInBounds label.index.toNat (some b.code.size) }

/-- All that a call can do to a builder, and whether it is accepted. -/
inductive Step (b : BodyBuilder) : SinkCall BodyLabel BodyLocal → Bool → BodyBuilder → Prop where
  | refused (call : SinkCall BodyLabel BodyLocal) : Step b call false b
  | scope {call : SinkCall BodyLabel BodyLocal} (hcall : call = .beginScope ∨ call = .endScope) :
      Step b call true b
  | defined (hroom : b.labels.size ≤ 0xFFFFFFFF) :
      Step b .defineLabel true { b with labels := b.labels.push none }
  | declared (type : Member) (pinned : Bool) (hroom : b.locals.size < 0xFFFF) :
      Step b (.declareLocal type pinned) true { b with locals := b.locals.push ⟨type, pinned⟩ }
  | marked {label : BodyLabel} (hroom : b.code.size ≤ offsetLimit)
      (hopen : b.labels[label.index.toNat]? = some none) :
      Step b (.markLabel label) true (b.place label)
  | written {op : Opcode} {x : Operand BodyLabel BodyLocal} (htargets : x.targets = [])
      (bytes : List UInt8) : Step b (.emit op x) true (b.write op bytes)
  | spelled (op : Opcode) {text : String} {token : Token} {strings : StringHeap}
      (hintern : b.strings.intern text = (.ok token, strings)) :
      Step b (.emit op (.string text)) true
        ({ b with strings := strings }.write op (littleEndian 4 token.value.toNat))
  | branched (op : Opcode) {target : BodyLabel} (hdefined : target.index.toNat < b.labels.size)
      (hroom : b.code.size + op.length ≤ offsetLimit) :
      Step b (.emit op (.label target)) true
        { b.write op (List.replicate op.kind.branchWidth 0) with
          branches := b.branches.push ⟨target, op, b.code.size, b.code.size + op.length,
            op.kind.branchWidth, b.code.size + op.length + op.kind.branchWidth⟩ }
  | switched (op : Opcode) {targets : List BodyLabel} {next : Nat}
      (hnext : next = b.code.size + op.length + 4 + 4 * targets.length) (hroom : next ≤ offsetLimit) :
      Step b (.emit op (.labels targets)) true
        { b.write op (littleEndian 4 targets.length ++ List.replicate (4 * targets.length) 0) with
          tables := b.tables ++
            tableDisplacements op b.code.size next (b.code.size + op.length + 4) targets }
  | brokenOff {op : Opcode} {x : Operand BodyLabel BodyLocal} (bytes : List UInt8)
      (hover : offsetLimit < (b.write op bytes).code.size) : Step b (.emit op x) false (b.write op bytes)
  | begun (hlabels : b.labels.size ≤ 0xFFFFFFFF) (hroom : b.code.size ≤ offsetLimit) :
      Step b .beginExceptionBlock true
        { b with
          labels := b.labels.push none
          regions := ⟨⟨b.labels.size.toUInt32⟩, b.code.size, none, 0, none⟩ :: b.regions }
  | halfBegun (hover : offsetLimit < b.code.size) :
      Step b .beginExceptionBlock false { b with labels := b.labels.push none }
  | filtered {exit : BodyLabel} {tryStart : Nat} {tryEnd : Option Nat} {closed : UInt32}
      {kind : HandlerKind} {opened : Nat} {covers : Bool} {rest : List OpenRegion}
      (hroom : b.code.size ≤ offsetLimit)
      (hregions : b.regions =
        ⟨exit, tryStart, tryEnd, closed, some ⟨kind, opened, none, covers⟩⟩ :: rest) :
      Step b (.beginCatchBlock none) true
        { b with regions :=
            ⟨exit, tryStart, tryEnd, closed, some ⟨kind, opened, some b.code.size, covers⟩⟩ :: rest }
  | handled {call : SinkCall BodyLabel BodyLocal} {kind : HandlerKind} {region : OpenRegion}
      {rest : List OpenRegion} (hcall : call.handlerKind? = some kind)
      (hroom : b.code.size ≤ offsetLimit) (hregions : b.regions = region :: rest) :
      Step b call true (b.closeRegion region (region.reopen b.code.size kind :: rest))
  | ended {region : OpenRegion} {rest : List OpenRegion} (hroom : b.code.size ≤ offsetLimit)
      (hregions : b.regions = region :: rest)
      (hopen : b.labels[region.exit.index.toNat]? = some none) :
      Step b .endExceptionBlock true ((b.closeRegion region rest).place region.exit)
  | dropped {region : OpenRegion} {rest : List OpenRegion} (hregions : b.regions = region :: rest)
      (hplaced : b.labels[region.exit.index.toNat]? ≠ some none) (hroom : b.code.size ≤ offsetLimit) :
      Step b .endExceptionBlock false (b.closeRegion region rest)

section Steps

variable (b : BodyBuilder)

theorem position_cases :
    b.code.size ≤ offsetLimit ∧ b.position = .ok b.code.size ∨
      offsetLimit < b.code.size ∧ b.position = .error (.malformed .codeOverflow) := by
  by_cases h : b.code.size ≤ offsetLimit
  · exact .inl ⟨h, position_eq_ok h⟩
  · exact .inr ⟨Nat.lt_of_not_le h, if_neg h⟩

theorem size_write (op : Opcode) (bytes : List UInt8) :
    (b.write op bytes).code.size = b.code.size + op.length + bytes.length := by
  simp [write, Nat.add_assoc]

theorem code_write_append (op : Opcode) (xs ys : List UInt8) :
    (b.write op xs).code ++ ys = (b.write op (xs ++ ys)).code := by
  apply Array.ext'
  simp [write]

/-- A label is placed exactly if it is there and has no place yet. -/
theorem markLabel_cases (label : BodyLabel) :
    (b.code.size ≤ offsetLimit ∧ b.labels[label.index.toNat]? = some none ∧
      b.markLabel label = (.ok (), b.place label)) ∨
    ((b.code.size ≤ offsetLimit → b.labels[label.index.toNat]? ≠ some none) ∧
      ∃ e, b.markLabel label = (.error e, b)) := by
  rcases b.position_cases with ⟨hroom, hposition⟩ | ⟨hover, hposition⟩
  · cases hslot : b.labels[label.index.toNat]? with
    | none =>
        exact .inr ⟨by simp, .undefinedLabel label.index, by simp [markLabel, checkMark, hposition, hslot]⟩
    | some slot =>
        cases slot with
        | none =>
            exact .inl ⟨hroom, rfl, by simp [markLabel, checkMark, hposition, hslot, place]⟩
        | some previous =>
            exact .inr ⟨by simp, .bodyLabelPlaced label.index previous, by
              simp [markLabel, checkMark, hposition, hslot]⟩
  · exact .inr ⟨fun hroom => absurd hover (Nat.not_lt.mpr hroom), .malformed .codeOverflow, by
      simp [markLabel, checkMark, hposition]⟩

theorem step_emitString (op : Opcode) (text : String) :
    Step b (.emit op (.string text)) (b.emitString op text).1.isOk (b.emitString op text).2 := by
  have hrefused := @StringHeap.eq_of_intern_eq_error b.strings text
  obtain ⟨code, labels, branches, tables, locals, regions, clauses, strings⟩ := b
  cases hintern : strings.intern text with
  | mk outcome strings' =>
      cases outcome with
      | error e =>
          obtain rfl : strings' = strings := by simpa [hintern] using hrefused (e := e)
          simp only [emitString, hintern]
          exact .refused _
      | ok token =>
          simp only [emitString, hintern]
          exact .spelled op hintern

theorem step_emitBranch (op : Opcode) (target : BodyLabel) :
    Step b (.emit op (.label target)) (b.emitBranch op target).1.isOk (b.emitBranch op target).2 := by
  unfold emitBranch
  split
  · exact .refused _
  · rename_i hdefined
    rcases b.position_cases with ⟨_, hposition⟩ | ⟨_, hposition⟩
    · rcases (b.write op []).position_cases with ⟨hroom, hfield⟩ | ⟨hover, hfield⟩
      · simp only [hposition, hfield, code_write_append, List.nil_append]
        rw [size_write] at hroom ⊢
        exact .branched op (Nat.lt_of_not_le hdefined) hroom
      · simp only [hposition, hfield]
        exact .brokenOff [] hover
    · simp only [hposition]
      exact .refused _

theorem step_emitSwitch (op : Opcode) (targets : List BodyLabel) :
    Step b (.emit op (.labels targets)) (b.emitSwitch op targets).1.isOk
      (b.emitSwitch op targets).2 := by
  unfold emitSwitch
  split
  · exact .refused _
  · rcases b.position_cases with ⟨_, hposition⟩ | ⟨_, hposition⟩
    · rcases (b.write op (littleEndian 4 targets.length)).position_cases with
        ⟨_, hfield⟩ | ⟨hover, hfield⟩
      · simp only [hposition, hfield, code_write_append]
        generalize hbytes : littleEndian 4 targets.length ++
          List.replicate (4 * targets.length) (0 : UInt8) = bytes
        have hlength : bytes.length = 4 + 4 * targets.length := by
          rw [← hbytes, List.length_append, length_littleEndian, List.length_replicate]
        have hsame : BodyBuilder.position { b.write op (littleEndian 4 targets.length) with
            code := (b.write op bytes).code } = (b.write op bytes).position := rfl
        rcases (b.write op bytes).position_cases with ⟨hroom, hnext⟩ | ⟨hover, hnext⟩
        · rw [hsame, hnext]
          rw [size_write] at hroom
          simp only [size_write, length_littleEndian]
          subst hbytes
          exact .switched op (by omega) hroom
        · rw [hsame, hnext]
          exact .brokenOff bytes hover
      · simp only [hposition, hfield]
        exact .brokenOff _ hover
    · simp only [hposition]
      exact .refused _

/-- Every way of writing an instruction. -/
theorem step_emit (op : Opcode) (x : Operand BodyLabel BodyLocal) :
    Step b (.emit op x) (b.emit op x).1.isOk (b.emit op x).2 := by
  unfold emit
  split
  · cases x with
    | string text => exact b.step_emitString op text
    | label target => exact b.step_emitBranch op target
    | labels targets => exact b.step_emitSwitch op targets
    | _ => exact .written rfl _
  · exact .refused _

theorem step_beginExceptionBlock :
    Step b .beginExceptionBlock b.beginExceptionBlock.1.isOk b.beginExceptionBlock.2 := by
  unfold beginExceptionBlock defineLabel
  split
  · rename_i hdefine
    split at hdefine
    · cases hdefine
    · cases hdefine
      exact .refused _
  · rename_i hdefine
    split at hdefine
    · rename_i hlabels
      cases hdefine
      rcases b.position_cases with ⟨hroom, hposition⟩ | ⟨hover, hposition⟩
      · have hsame : BodyBuilder.position { b with labels := b.labels.push none } = _ := hposition
        simp only [hsame]
        exact .begun hlabels hroom
      · have hsame : BodyBuilder.position { b with labels := b.labels.push none } = _ := hposition
        simp only [hsame]
        exact .halfBegun hover
    · cases hdefine

theorem step_openHandler {call : SinkCall BodyLabel BodyLocal} {kind : HandlerKind}
    (hcall : call.handlerKind? = some kind) (operation : RegionOperation) :
    Step b call (b.openHandler operation kind).1.isOk (b.openHandler operation kind).2 := by
  rcases b.position_cases with ⟨hroom, hposition⟩ | ⟨_, hposition⟩
  · cases hregions : b.regions with
    | nil =>
        simp only [openHandler, hposition, hregions]
        exact .refused _
    | cons region rest =>
        rw [openHandler_eq hposition hregions]
        exact .handled hcall hroom hregions
  · simp only [openHandler, hposition]
    exact .refused _

theorem step_beginCatchBlock (type : Option Member) :
    Step b (.beginCatchBlock type) (b.beginCatchBlock type).1.isOk (b.beginCatchBlock type).2 := by
  unfold beginCatchBlock
  split
  · rename_i hposition hregions
    rcases b.position_cases with ⟨hroom, hhere⟩ | ⟨_, hhere⟩
    · cases hposition.symm.trans hhere
      exact .filtered hroom hregions
    · cases hposition.symm.trans hhere
  · exact b.step_openHandler rfl _

theorem step_endExceptionBlock :
    Step b .endExceptionBlock b.endExceptionBlock.1.isOk b.endExceptionBlock.2 := by
  rcases b.position_cases with ⟨hroom, hposition⟩ | ⟨_, hposition⟩
  · cases hregions : b.regions with
    | nil =>
        simp only [endExceptionBlock, hposition, hregions]
        exact .refused _
    | cons region rest =>
        simp only [endExceptionBlock, hposition, hregions]
        rcases (b.closeRegion region rest).markLabel_cases region.exit with
          ⟨_, hopen, hmark⟩ | ⟨hplaced, e, hmark⟩
        · rw [← closeRegion, hmark]
          exact .ended hroom hregions hopen
        · rw [← closeRegion, hmark]
          exact .dropped hregions (hplaced hroom) hroom
  · simp only [endExceptionBlock, hposition]
    exact .refused _

/-- A call does one of these things. -/
theorem step_perform (call : SinkCall BodyLabel BodyLocal) :
    Step b call (b.perform call).1.isOk (b.perform call).2 := by
  cases call with
  | defineLabel =>
      simp only [perform, defineLabel]
      split
      · rename_i hroom
        exact .defined hroom
      · exact .refused _
  | declareLocal type pinned =>
      simp only [perform, declareLocal]
      split
      · rename_i hroom
        exact .declared type pinned hroom
      · exact .refused _
  | markLabel label =>
      simp only [perform]
      rcases b.markLabel_cases label with ⟨hroom, hopen, hmark⟩ | ⟨_, e, hmark⟩
      · rw [hmark]
        exact .marked hroom hopen
      · rw [hmark]
        exact .refused _
  | emit op x => exact b.step_emit op x
  | beginExceptionBlock => exact b.step_beginExceptionBlock
  | beginCatchBlock type => exact b.step_beginCatchBlock type
  | beginExceptFilterBlock => exact b.step_openHandler rfl _
  | beginFinallyBlock => exact b.step_openHandler rfl _
  | beginFaultBlock => exact b.step_openHandler rfl _
  | endExceptionBlock => exact b.step_endExceptionBlock
  | beginScope => exact .scope (.inl rfl)
  | endScope => exact .scope (.inr rfl)

end Steps

/-- Code is only ever added. -/
theorem Step.size_code_le {b b' : BodyBuilder} {call : SinkCall BodyLabel BodyLocal} {accepted : Bool}
    (h : Step b call accepted b') : b.code.size ≤ b'.code.size := by
  cases h with
  | written | spelled | branched | switched | brokenOff =>
      simp only [size_write]
      omega
  | _ => exact Nat.le_refl _

/-! ## End labels -/

/-- The end labels of the open regions are labels of this builder. -/
def OwnsExits (b : BodyBuilder) : Prop :=
  ∀ region ∈ b.regions, region.exit.index.toNat < b.labels.size

/-- The end label of the innermost region already has a place. -/
def ExitPlaced (b : BodyBuilder) : Prop :=
  ∃ region rest place, b.regions = region :: rest ∧
    b.labels[region.exit.index.toNat]? = some (some place)

theorem OwnsExits.step {b b' : BodyBuilder} {call : SinkCall BodyLabel BodyLocal} {accepted : Bool}
    (h : b.OwnsExits) (hstep : Step b call accepted b') : b'.OwnsExits := by
  have hpush : ∀ region ∈ b.regions, region.exit.index.toNat < (b.labels.push none).size := by
    intro region hregion
    rw [Array.size_push]
    exact Nat.lt_succ_of_lt (h region hregion)
  cases hstep with
  | refused | scope | declared | written | spelled | branched | switched | brokenOff => exact h
  | defined | halfBegun => exact hpush
  | marked =>
      intro region hregion
      rw [place, Array.size_setIfInBounds]
      exact h region hregion
  | begun hlabels =>
      intro region hregion
      rcases List.mem_cons.mp hregion with rfl | hold
      · have hindex := toNat_toUInt32_of_lt (Nat.lt_succ_of_le hlabels)
        simp only [Array.size_push]
        omega
      · exact hpush region hold
  | filtered _ hregions =>
      simp only [OwnsExits, hregions, List.forall_mem_cons] at h ⊢
      exact h
  | @handled _ kind region _ _ _ hregions =>
      have hexit : (region.reopen b.code.size kind).exit = region.exit := exit_close region b.code.size
      simp only [OwnsExits, closeRegion, hregions, List.forall_mem_cons, hexit] at h ⊢
      exact h
  | ended _ hregions =>
      simp only [OwnsExits, place, closeRegion, hregions, List.forall_mem_cons,
        Array.size_setIfInBounds] at h ⊢
      exact h.2
  | dropped hregions =>
      simp only [OwnsExits, closeRegion, hregions, List.forall_mem_cons] at h ⊢
      exact h.2

theorem ownsExits_after (calls : List (SinkCall BodyLabel BodyLocal)) :
    (empty.after calls).OwnsExits := by
  induction calls using List.reverseRecOn with
  | nil =>
      intro region hregion
      cases hregion
  | append_singleton calls call ih =>
      rw [after_append_singleton]
      exact ih.step (step_perform _ call)

/-! ## Refused calls -/

/-- The end of a region is refused if its label has a place, but the region is closed. -/
theorem ExitPlaced.endExceptionBlock_eq {b : BodyBuilder} (h : b.ExitPlaced)
    (hroom : b.code.size ≤ offsetLimit) :
    ∃ e region rest, b.regions = region :: rest ∧
      b.endExceptionBlock = (.error e, b.closeRegion region rest) := by
  obtain ⟨region, rest, place, hregions, hplaced⟩ := h
  have hend : b.endExceptionBlock = (b.closeRegion region rest).markLabel region.exit := by
    simp only [endExceptionBlock, position_eq_ok hroom, hregions]
    rfl
  rcases (b.closeRegion region rest).markLabel_cases region.exit with ⟨_, hopen, _⟩ | ⟨_, e, hmark⟩
  · cases hopen.symm.trans hplaced
  · exact ⟨e, region, rest, hregions, hend.trans hmark⟩

/-- A refused call that has changed the builder was the end of a region. -/
theorem Step.eq_or_exitPlaced {b b' : BodyBuilder} {call : SinkCall BodyLabel BodyLocal}
    (h : Step b call false b') (hexits : b.OwnsExits) (hcode : b'.code.size ≤ offsetLimit) :
    b' = b ∨ call = .endExceptionBlock ∧ b.ExitPlaced := by
  cases h with
  | refused => exact .inl rfl
  | brokenOff _ hover => exact absurd hover (Nat.not_lt.mpr hcode)
  | halfBegun hover => exact absurd hover (Nat.not_lt.mpr hcode)
  | @dropped region rest hregions hplaced =>
      have hdefined := hexits region (hregions ▸ List.mem_cons_self)
      cases hslot : b.labels[region.exit.index.toNat] with
      | none => exact absurd (Array.getElem?_eq_some_iff.mpr ⟨hdefined, hslot⟩) hplaced
      | some place =>
          exact .inr ⟨rfl, region, rest, place, hregions,
            Array.getElem?_eq_some_iff.mpr ⟨hdefined, hslot⟩⟩

/-- Whatever was called before, a call that is refused leaves the builder as it was, except for the
end of a region whose end label has a place. -/
theorem refused_keeps_builder_iff (calls : List (SinkCall BodyLabel BodyLocal))
    (call : SinkCall BodyLabel BodyLocal)
    (hcode : ((empty.after calls).perform call).2.code.size ≤ offsetLimit) :
    (∀ e, ((empty.after calls).perform call).1 = .error e →
      ((empty.after calls).perform call).2 = empty.after calls) ↔
    ¬(call = .endExceptionBlock ∧ (empty.after calls).ExitPlaced) := by
  have hexits := ownsExits_after calls
  generalize empty.after calls = b at hexits hcode
  have hstep := b.step_perform call
  constructor
  · rintro hkeeps ⟨rfl, hplaced⟩
    obtain ⟨e, region, rest, hregions, hend⟩ :=
      hplaced.endExceptionBlock_eq (Nat.le_trans hstep.size_code_le hcode)
    have hsame : b.closeRegion region rest = b := by
      have hafter := hkeeps e (congrArg Prod.fst hend)
      exact (congrArg Prod.snd hend).symm.trans hafter
    have hrest : rest = region :: rest := (congrArg BodyBuilder.regions hsame).trans hregions
    exact List.cons_ne_self region rest hrest.symm
  · intro hcall e he
    rw [he] at hstep
    exact (hstep.eq_or_exitPlaced hexits hcode).resolve_right hcall

/-- A second mark of an end label is refused and changes nothing. -/
theorem refused_keeps_builder_second_mark :
    ∃ b : BodyBuilder, b = empty.after [.beginExceptionBlock, .markLabel ⟨0⟩, .beginFinallyBlock] ∧
      (b.perform (.markLabel ⟨0⟩)).2.code.size ≤ offsetLimit ∧
      (b.perform (.markLabel ⟨0⟩)).1 = .error (.bodyLabelPlaced 0 0) ∧
      (b.perform (.markLabel ⟨0⟩)).2 = b := by
  refine ⟨_, rfl, ?_⟩
  have hcode : ((empty.after [.beginExceptionBlock, .markLabel ⟨0⟩, .beginFinallyBlock]).perform
      (.markLabel ⟨0⟩)).2.code.size ≤ offsetLimit := by
    decide +kernel
  have hrefused : ((empty.after [.beginExceptionBlock, .markLabel ⟨0⟩, .beginFinallyBlock]).perform
      (.markLabel ⟨0⟩)).1 = .error (.bodyLabelPlaced 0 0) := by
    with_unfolding_all rfl
  refine ⟨hcode, hrefused, (refused_keeps_builder_iff _ _ hcode).mpr ?_ _ hrefused⟩
  rintro ⟨⟨⟩, _⟩

/-- The end of a region whose end label was placed by hand is refused. Still the region is closed and
its clause is listed, and the body, which could not be finished before, can be finished now. -/
theorem refused_end_changes_builder :
    ∃ b : BodyBuilder, b = empty.after [.beginExceptionBlock, .markLabel ⟨0⟩, .beginFinallyBlock] ∧
      (b.perform .endExceptionBlock).2.code.size ≤ offsetLimit ∧
      (b.perform .endExceptionBlock).1 = .error (.bodyLabelPlaced 0 0) ∧
      (b.perform .endExceptionBlock).2 ≠ b ∧
      b.finish.isOk = false ∧ (b.perform .endExceptionBlock).2.finish.isOk = true := by
  refine ⟨_, rfl, by decide +kernel, by with_unfolding_all rfl, fun hsame => ?_, by decide +kernel,
    by decide +kernel⟩
  have hregions := congrArg (fun b : BodyBuilder => b.regions.length) hsame
  revert hregions
  decide +kernel

end BodyBuilder

end CilAssembler
