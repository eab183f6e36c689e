import CilAssembler.Proofs.Assembling
import CilAssembler.Proofs.Replaying
import Mathlib.Data.List.Forall2

/-! # Copying lines

A line is copied to another recorder by a call in which every handle is replaced by one of that
recorder. The copy differs from the line in the owner and the revision of handles, and in the names
of those it refers to. That makes no difference to what is admitted, and a builder is given the very
same call. -/

namespace CilAssembler

/-! ## Handles -/

instance : EquivBEq Label where
  rfl := Label.beq_iff.mpr ⟨rfl, rfl, rfl⟩
  symm h := by
    obtain ⟨howner, hrevision, hindex⟩ := Label.beq_iff.mp h
    exact Label.beq_iff.mpr ⟨howner.symm, hrevision.symm, hindex.symm⟩
  trans h h' := by
    obtain ⟨howner, hrevision, hindex⟩ := Label.beq_iff.mp h
    obtain ⟨howner', hrevision', hindex'⟩ := Label.beq_iff.mp h'
    exact Label.beq_iff.mpr ⟨howner.trans howner', hrevision.trans hrevision', hindex.trans hindex'⟩

instance : EquivBEq Local where
  rfl := Local.beq_iff.mpr ⟨rfl, rfl, rfl, BEq.rfl, rfl⟩
  symm h := by
    obtain ⟨howner, hrevision, hindex, htype, hpinned⟩ := Local.beq_iff.mp h
    exact Local.beq_iff.mpr
      ⟨howner.symm, hrevision.symm, hindex.symm, BEq.symm htype, hpinned.symm⟩
  trans h h' := by
    obtain ⟨howner, hrevision, hindex, htype, hpinned⟩ := Local.beq_iff.mp h
    obtain ⟨howner', hrevision', hindex', htype', hpinned'⟩ := Local.beq_iff.mp h'
    exact Local.beq_iff.mpr ⟨howner.trans howner', hrevision.trans hrevision',
      hindex.trans hindex', BEq.trans htype htype', hpinned.trans hpinned'⟩

/-- The label stands for another one on the recorder `id`, whatever its name. -/
def Label.Copied (id : AssemblerId) (label copy : Label) : Prop :=
  (label.adopt id == copy) = true

/-- The local stands for another one on the recorder `id`, whatever its name. -/
def Local.Copied (id : AssemblerId) (v copy : Local) : Prop :=
  (v.adopt id == copy) = true

section Handles

variable {id : AssemblerId}

theorem Label.copied_of_beq {label found : Label} (h : (found == label) = true) :
    label.Copied id (found.adopt id) :=
  Label.beq_iff.mpr ⟨rfl, rfl, (Label.index_eq_of_beq h).symm⟩

theorem Local.copied_of_beq {v found : Local} (h : (found == v) = true) :
    v.Copied id (found.adopt id) := by
  obtain ⟨_, _, hindex, htype, hpinned⟩ := Local.beq_iff.mp h
  exact Local.beq_iff.mpr ⟨rfl, rfl, hindex.symm, BEq.symm htype, hpinned.symm⟩

theorem Label.Copied.index_eq {label copy : Label} (h : label.Copied id copy) :
    copy.index = label.index :=
  (Label.index_eq_of_beq h).symm

theorem Local.Copied.index_eq {v copy : Local} (h : v.Copied id copy) : copy.index = v.index :=
  (Local.index_eq_of_beq h).symm

end Handles

namespace Books

variable {b : Books} {id : AssemblerId}

theorem HasLabel.copied {label copy : Label} (h : b.HasLabel label) (hcopy : label.Copied id copy) :
    (b.adopt id).HasLabel copy := by
  obtain ⟨slot, hslot, heq⟩ := h.adopt id
  exact ⟨slot, by rw [hcopy.index_eq]; exact hslot, BEq.trans heq hcopy⟩

theorem Unmarked.copied {label copy : Label} (h : b.Unmarked label) (hcopy : label.Copied id copy) :
    (b.adopt id).Unmarked copy := by
  obtain ⟨slot, hslot, heq, hnone⟩ := h.adopt id
  exact ⟨slot, by rw [hcopy.index_eq]; exact hslot, BEq.trans heq hcopy, hnone⟩

theorem HasLocal.copied {v copy : Local} (h : b.HasLocal v) (hcopy : v.Copied id copy) :
    (b.adopt id).HasLocal copy := by
  obtain ⟨slot, hslot, heq⟩ := h.adopt id
  exact ⟨slot, by rw [hcopy.index_eq]; exact hslot, BEq.trans heq hcopy⟩

end Books

/-! ## Operands -/

namespace Operand

variable {id : AssemblerId} {x copy : Operand Label Local}

/-- The operand with handles of the recorder `id`, whatever their names. -/
abbrev Copied (id : AssemblerId) : Operand Label Local → Operand Label Local → Prop :=
  Renders (Label.Copied id) (Local.Copied id)

theorem Copied.fits_eq (h : x.Copied id copy) (kind : OperandKind) :
    copy.fits kind = x.fits kind := by
  cases h with
  | label | labels => cases kind <;> rfl
  | localVar hv => cases kind <;> simp [fits, suits, indexFits, hv.index_eq]
  | _ => rfl

theorem Copied.instructionSize_eq (h : x.Copied id copy) (code : Opcode) :
    instructionSize code copy = instructionSize code x := by
  unfold instructionSize operandSize
  generalize code.kind = kind
  cases h with
  | label | localVar => cases kind <;> rfl
  | labels htargets => cases kind <;> simp [htargets.length_eq]
  | _ => rfl

theorem Copied.inBody_eq (h : x.Copied id copy) : copy.inBody = x.inBody := by
  cases h with
  | label hlabel => rw [inBody, inBody, Label.inBody, hlabel.index_eq, Label.inBody]
  | labels htargets =>
      rw [inBody, inBody]
      congr 1
      induction htargets with
      | nil => rfl
      | cons hlabel _ ih =>
          rw [List.map_cons, List.map_cons, ih, Label.inBody, hlabel.index_eq, Label.inBody]
  | localVar hv => rw [inBody, inBody, Local.inBody, hv.index_eq, Local.inBody]
  | _ => rfl

theorem Copied.exists_target (h : x.Copied id copy) {target : Label} (htarget : target ∈ copy.targets) :
    ∃ label ∈ x.targets, label.Copied id target := by
  cases h with
  | label hlabel =>
      rw [List.mem_singleton.mp htarget]
      exact ⟨_, List.mem_singleton.mpr rfl, hlabel⟩
  | labels htargets =>
      simp only [targets] at htarget ⊢
      induction htargets with
      | nil => cases htarget
      | cons hlabel _ ih =>
          rcases List.mem_cons.mp htarget with rfl | hrest
          · exact ⟨_, List.mem_cons_self, hlabel⟩
          · obtain ⟨label, hmem, hcopied⟩ := ih hrest
            exact ⟨label, List.mem_cons_of_mem _ hmem, hcopied⟩
  | _ => cases htarget

end Operand

/-! ## Lines -/

/-- The line with handles of the recorder `id`. What it allocates keeps its name. -/
inductive Instruction.Copied (id : AssemblerId) : Instruction → Instruction → Prop where
  | op {o copy : Op} (hcode : copy.code = o.code) (hoperand : o.operand.Copied id copy.operand) :
      Copied id (.op o) (.op copy)
  | markLabel {label copy : Label} (h : label.Copied id copy) :
      Copied id (.markLabel label) (.markLabel copy)
  | adopt (i : Instruction) : Copied id i (i.adopt id)

/-- The call with every handle replaced. -/
def Call.rename (f : Label → Except Error Label) (g : Local → Except Error Local) :
    Call → Except Error Call
  | .markLabel label => (f label).map .markLabel
  | .emit code x => (x.rename f g).map (.emit code)
  | call => .ok call

theorem Renaming.call_eq_rename (m : Renaming) (i : Instruction) :
    m.call i = i.call.rename m.label m.localVar := by
  cases i <;> rfl

/-- A line can be copied if the handles that it refers to can. -/
theorem Instruction.exists_copy {id : AssemblerId} {i : Instruction}
    {f : Label → Except Error Label} {g : Local → Except Error Local}
    (hlabels : ∀ label ∈ i.labelsUsed, ∃ copy, f label = .ok copy ∧ label.Copied id copy)
    (hlocals : ∀ v, i.UsesLocal v → ∃ copy, g v = .ok copy ∧ v.Copied id copy) :
    ∃ copy, i.Copied id copy ∧ i.call.rename f g = .ok copy.call := by
  cases i with
  | op o =>
      obtain ⟨x, hrename, hrenders⟩ :=
        Operand.exists_rename_eq_ok hlabels fun v hv => hlocals v ⟨o, rfl, hv⟩
      have hcopied : o.operand.Copied id x := hrenders
      let copy : Op := ⟨o.code, x, o.size, (hcopied.fits_eq _).trans o.fits,
        (hcopied.instructionSize_eq _).trans o.size_eq⟩
      exact ⟨.op copy, .op rfl hcopied, Except.map_eq_ok.mpr ⟨x, hrename, rfl⟩⟩
  | markLabel label =>
      obtain ⟨copy, hcopy, hcopied⟩ := hlabels label List.mem_cons_self
      exact ⟨.markLabel copy, .markLabel hcopied, Except.map_eq_ok.mpr ⟨copy, hcopy, rfl⟩⟩
  | beginCatchBlock type => exact ⟨_, .adopt _, by rw [adopt_beginCatchBlock]; rfl⟩
  | _ => exact ⟨_, .adopt _, rfl⟩

namespace Instruction.Copied

variable {id : AssemblerId} {i copy : Instruction}

theorem size_eq (h : i.Copied id copy) : copy.size = i.size := by
  cases h with
  | @op o copy hcode hoperand =>
      have hsize := copy.size_eq
      rw [hcode, hoperand.instructionSize_eq, o.size_eq] at hsize
      exact (Except.ok.inj hsize).symm
  | markLabel => rfl
  | adopt => exact i.size_relabel _

theorem inBody_eq (h : i.Copied id copy) : copy.inBody = i.inBody := by
  cases h with
  | op hcode hoperand => rw [inBody, hcode, hoperand.inBody_eq, inBody]
  | markLabel hlabel => rw [inBody, inBody, Label.inBody, hlabel.index_eq, Label.inBody]
  | adopt =>
      cases i with
      | op o =>
          obtain ⟨code, operand, size, fits, size_eq⟩ := o
          cases operand with
          | labels targets => simp [inBody, relabel, Op.relabel, Operand.relabel, Operand.map,
              Operand.inBody, Label.inBody, Function.comp_def]
          | _ => rfl
      | beginCatchBlock type => rw [adopt_beginCatchBlock]
      | _ => rfl

theorem allocates (h : i.Copied id copy)
    (hexit : ∀ exit, i = .beginExceptionBlock exit → exit.name = none) : copy.Allocates 0 := by
  cases h with
  | op | markLabel => exact .of_none rfl rfl 0
  | adopt => exact allocates_adopt id hexit

/-- What a recorder admits, another one admits as a copy. -/
theorem admits {b : Books} {other : AssemblerId} (h : i.Copied id copy) (hadmits : b.Admits other i) :
    (b.adopt id).Admits id copy := by
  cases h with
  | @op o copy hcode hoperand =>
      have hsize := (Copied.op hcode hoperand).size_eq
      cases hadmits with
      | move _ call hcall => cases hcall
      | op _ hlabels hlocal hroom =>
          refine .op copy ?_ ?_ ?_
          · intro target htarget
            obtain ⟨label, hlabel, hcopied⟩ := hoperand.exists_target htarget
            exact (hlabels label hlabel).copied hcopied
          · intro v hv
            rw [hv] at hoperand
            generalize hx : o.operand = x at hoperand
            cases hoperand with
            | localVar hcopied => exact (hlocal _ hx).copied hcopied
          · simp only [Instruction.size] at hsize
            rw [hsize]
            exact hroom
  | @markLabel label copy hcopied =>
      cases hadmits with
      | move _ call hcall => cases hcall
      | markLabel _ hunmarked => exact .markLabel copy (hunmarked.copied hcopied)
  | adopt => exact hadmits.adopt id

/-- What a copy allocates is noted as what the adopted line allocates. -/
theorem learn_eq (h : i.Copied id copy) (m : Renaming) :
    m.learn i copy.call copy.reply = m.learn i (i.adopt id).call (i.adopt id).reply := by
  cases h <;> rfl

end Instruction.Copied

/-! ## Books -/

/-- The books say the same of everything but the lines themselves. -/
structure Books.Agrees (b b' : Books) : Prop where
  length : b.stream.length = b'.stream.length
  endOffset : b.stream.endOffset = b'.stream.endOffset
  labels : b.labels = b'.labels
  locals : b.locals = b'.locals
  regions : b.regions = b'.regions

namespace Books.Agrees

variable {b b' : Books} {id : AssemblerId} {i copy : Instruction}

theorem admits (h : b.Agrees b') (hadmits : b'.Admits id i) : b.Admits id i := by
  obtain ⟨stream, labels, locals, regions⟩ := b
  obtain ⟨stream', labels', locals', regions'⟩ := b'
  obtain ⟨_, hend, rfl, rfl, rfl⟩ := h
  cases hadmits with
  | op o hlabels hlocal hroom =>
      refine .op o hlabels hlocal ?_
      simp only at hend hroom ⊢
      rw [hend]
      exact hroom
  | defineLabel label howner hindex => exact .defineLabel label howner hindex
  | markLabel label hunmarked => exact .markLabel label hunmarked
  | declareLocal v howner hindex => exact .declareLocal v howner hindex
  | beginExceptionBlock exit howner hindex => exact .beginExceptionBlock exit howner hindex
  | beginScope => exact .beginScope
  | move _ call hcall hcheck hexit => exact .move _ call hcall hcheck hexit

/-- Entering a copy or the adopted line makes no difference but for the line itself. -/
theorem enter (h : b.Agrees b') (hcopied : i.Copied id copy) :
    (b.enter copy).Agrees (b'.enter (i.adopt id)) := by
  have hsize : copy.size = (i.adopt id).size := by
    rw [hcopied.size_eq, Instruction.size_relabel]
  refine ⟨?_, ?_, ?_, ?_, ?_⟩
  · simp only [Books.enter, Stream.append, Stream.length, Array.size_push]
    exact congrArg (· + 1) h.length
  · simp only [Books.enter, Stream.append, hsize, h.endOffset]
  · simp only [Books.enter, h.labels, h.length]
    cases hcopied with
    | markLabel hlabel =>
        simp only [Recorder.labelsAfter, Instruction.relabel, Relabeling.index_label,
          hlabel.index_eq]
    | op | adopt => rfl
  · simp only [Books.enter, h.locals]
    cases hcopied <;> rfl
  · simp only [Books.enter, h.regions]
    cases hcopied <;> rfl

end Books.Agrees

/-! ## Recorders that copy -/

/-- The recorder `id` has copied some lines and nothing else, and has not been rewound. -/
structure Recorder.Copies (id : AssemblerId) (done : List Instruction) (r : Recorder) : Prop where
  kept : r.Kept
  identity : r.id = id
  revision : r.revision = 0
  books : r.books.Agrees ((Books.ofInstructions done).adopt id)
  lines : r.stream.instructions.map Instruction.inBody = done.map Instruction.inBody

namespace Recorder

variable {r : Recorder} {id other : AssemblerId} {done : List Instruction} {i copy : Instruction}

theorem copies_new (id : AssemblerId) : (new id).Copies id [] where
  kept := kept_new id
  identity := rfl
  revision := rfl
  books := by
    rw [Books.adopt, Books.relabel_ofInstructions]
    exact ⟨rfl, rfl, rfl, rfl, rfl⟩
  lines := rfl

theorem Copies.admits (h : r.Copies id done) (hadmits : (Books.ofInstructions done).Admits other i)
    (hcopied : i.Copied id copy) : r.books.Admits r.id copy := by
  rw [h.identity]
  exact h.books.admits (hcopied.admits hadmits)

/-- The call of a copy is accepted. -/
theorem Copies.prepare_eq (h : r.Copies id done)
    (hadmits : (Books.ofInstructions done).Admits other i) (hcopied : i.Copied id copy)
    (hexit : ∀ exit, i = .beginExceptionBlock exit → exit.name = none) :
    r.prepare copy.call = .ok (copy.reply, copy) := by
  apply prepare_call h.kept (h.admits hadmits hcopied)
  rw [h.revision]
  exact hcopied.allocates hexit

theorem Copies.record (h : r.Copies id done) (hadmits : (Books.ofInstructions done).Admits other i)
    (hcopied : i.Copied id copy) : (r.record copy).Copies id (done ++ [i]) where
  kept := h.kept.record (h.admits hadmits hcopied)
  identity := h.identity
  revision := h.revision
  books := by
    rw [books_record, Books.ofInstructions_append_singleton, Books.adopt, Books.relabel_enter]
    exact h.books.enter hcopied
  lines := by
    rw [instructions_record, List.map_append, h.lines, List.map_append, List.map_singleton,
      hcopied.inBody_eq, List.map_singleton]

theorem Copies.length_eq (h : r.Copies id done) : r.stream.length = done.length := by
  have hlines := congrArg List.length h.lines
  rwa [List.length_map, Stream.length_instructions, List.length_map] at hlines

theorem Copies.size_labels (h : r.Copies id done) :
    r.labels.size = (done.filterMap Instruction.definedLabel?).length := by
  have hlabels := congrArg Array.size h.books.labels
  simp only [Books.relabel, Array.size_map, Books.size_labels] at hlabels
  exact hlabels

theorem Copies.size_locals (h : r.Copies id done) :
    r.locals.size = (done.filterMap Instruction.declaredLocal?).length := by
  have hlocals := congrArg Array.size h.books.locals
  simp only [Books.relabel, Array.size_map, Books.size_locals] at hlocals
  exact hlocals

end Recorder

/-! ## Assemblers that copy -/

namespace Assembler.Builds

variable {a : Assembler BodyBuilder BodyLabel BodyLocal} {id other : AssemblerId}
  {done : List Instruction} {i copy : Instruction}

/-- A copy is refused only by the builder, and then nothing has changed. -/
theorem perform_copy (h : a.Builds) (hcopies : a.recorder.Copies id done)
    (hadmits : (Books.ofInstructions done).Admits other i) (hcopied : i.Copied id copy)
    (hexit : ∀ exit, i = .beginExceptionBlock exit → exit.name = none) :
    (∃ e, a.sink.perform i.inBody = (.error e, a.sink) ∧ a.perform copy.call = (.error e, a)) ∨
    ∃ made a', a.sink.perform i.inBody = (.ok made, a'.sink) ∧
      a.perform copy.call = (.ok copy.reply, a') ∧ a'.Builds ∧
      a'.recorder.Copies id (done ++ [i]) := by
  have hprepare := hcopies.prepare_eq hadmits hcopied hexit
  have hline := hcopies.admits hadmits hcopied
  have hcall := h.sinkCall_eq hline
  have hbooks := hline
  rw [h.kept.books] at hbooks
  rcases h.drafts.advances h.kept.recorded hbooks with
    ⟨cause, _, hrefused⟩ | ⟨made, b, htaken, hdrafts, hlabel, hlocal⟩
  · left
    refine ⟨.malformed cause, ?_, ?_⟩
    · rw [hcopied.inBody_eq] at hrefused
      exact hrefused
    · have hsink : Sink.perform copy.inBody a.sink = _ := hrefused
      simp [Assembler.perform, hprepare, hcall, forward, hsink]
  · right
    have hbuilds := h.record hline hdrafts hlabel hlocal
    have hanswer : ∃ made, a.sink.perform i.inBody = (.ok made, b) :=
      hcopied.inBody_eq ▸ ⟨made, htaken⟩
    obtain ⟨answer, hanswer⟩ := hanswer
    refine ⟨answer, _, hanswer, ?_, hbuilds, hcopies.record hadmits hcopied⟩
    have hsink : Sink.perform copy.inBody a.sink = _ := htaken
    simp [Assembler.perform, hprepare, hcall, forward, hsink]

end Assembler.Builds

end CilAssembler
