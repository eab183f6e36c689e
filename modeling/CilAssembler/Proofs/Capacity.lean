import CilAssembler.Proofs.Assembling
import CilAssembler.Proofs.Calls

/-! # Room in a method body

An assembler over a builder follows its recorder. The builder checks operands, labels and regions
once more, but what the recorder lets pass it refuses only for lack of room: for a local beyond the
largest index, and for a text that the heap cannot take. -/

namespace CilAssembler

/-- Labels are only ever added. -/
theorem Recorder.size_labels_le_record (r : Recorder) (i : Instruction) :
    r.labels.size ≤ (r.record i).labels.size := by
  rcases labelsAfter_cases r.labels r.stream.length i with
    ⟨label, _, _, hafter⟩ | ⟨label, _, _, hafter⟩ | ⟨_, _, hafter⟩
  all_goals
    have hlabels : (r.record i).labels = _ := hafter
    simp [hlabels]

/-! ## Failing sink calls -/

/-- Whether the error says that there are too many locals, that the heap of texts is full, or that a
text is too long for it. -/
def Error.isOverflow : Error → Bool
  | .malformed (.tooManyLocals _) | .malformed .heapFull | .malformed (.stringTooLong _) => true
  | _ => false

namespace Logged

variable {σ Λ V : Type}

/-- No sink call has failed but for lack of room. -/
def OnlyOverflows (s : Logged σ Λ V) : Prop :=
  ∀ x ∈ s.log, ∀ e, x.outcome = .error e → e.isOverflow = true

theorem OnlyOverflows.fresh (sink : σ) : (Logged.fresh sink : Logged σ Λ V).OnlyOverflows := by
  intro x hx
  cases hx

theorem OnlyOverflows.perform [Sink σ Λ V] {s s' : Logged σ Λ V} {call : SinkCall Λ V}
    {outcome : Except Error call.Reply} (h : s.OnlyOverflows)
    (hperform : Sink.perform call s = (outcome, s'))
    (hfails : ∀ e, outcome = .error e → e.isOverflow = true) : s'.OnlyOverflows := by
  cases hsink : Sink.perform call s.sink with
  | mk inner sink =>
      rw [perform_of_sink hsink] at hperform
      cases hperform
      intro x hx e he
      rcases List.mem_append.mp hx with hold | hnew
      · exact h x hold e he
      · cases List.mem_singleton.mp hnew
        exact hfails e he

end Logged

namespace Assembler

/-! ## One call -/

/-- The calls that a body has no room for, and the reason given. `strings` of the builder is the heap
of the texts that were interned. -/
inductive Exceeds (a : Assembler BodyBuilder BodyLabel BodyLocal) : Call → Malformation → Prop where
  | locals (type : Member) (pinned : Bool) (name : Option String)
      (hfull : a.recorder.locals.size = 65535) :
      Exceeds a (.declareLocal type pinned name) (.tooManyLocals 65535)
  | heap {code : Opcode} {text : String} (hnew : a.sink.strings.offsets[text]? = none)
      (hfull : 0xFFFFFF < a.sink.strings.bytes.size) : Exceeds a (.emit code (.string text)) .heapFull
  | text {code : Opcode} {text : String} (hnew : a.sink.strings.offsets[text]? = none)
      (hroom : a.sink.strings.bytes.size ≤ 0xFFFFFF) (hlong : 2 ^ 29 ≤ 2 * Text.unitCount text + 1) :
      Exceeds a (.emit code (.string text)) (.stringTooLong (2 * Text.unitCount text + 1))

/-- What a call comes to, compared with the same call on the recorder alone. It is refused for the
recorder's reason; or the recorder would accept it and the body has no room; or it is accepted and
the recorder is left as by itself. -/
inductive Follows (call : Call) (a : Assembler BodyBuilder BodyLabel BodyLocal) :
    Except Error call.Reply × Assembler BodyBuilder BodyLabel BodyLocal → Prop where
  | refused {e : Error} (hrecorder : a.recorder.perform call = (.error e, a.recorder)) :
      Follows call a (.error e, a)
  | exceeded {reply : call.Reply} {r : Recorder} {cause : Malformation}
      (hrecorder : a.recorder.perform call = (.ok reply, r)) (hexceeds : a.Exceeds call cause) :
      Follows call a (.error (.malformed cause), a)
  | accepted {reply : call.Reply} {after : Assembler BodyBuilder BodyLabel BodyLocal}
      (hrecorder : a.recorder.perform call = (.ok reply, after.recorder))
      (hroom : ∀ cause, ¬a.Exceeds call cause) : Follows call a (.ok reply, after)

namespace Builds

variable {a : Assembler BodyBuilder BodyLabel BodyLocal}

theorem size_code (h : a.Builds) : a.sink.code.size = a.recorder.stream.endOffset := by
  rw [h.drafts.code.size_code, ← Stream.endOffset_ofInstructions, ← Books.stream_ofInstructions,
    ← h.kept.books]
  rfl

/-- The builder lacks room for an instruction exactly if the body has no room for the call. -/
theorem exceeds_iff_lacks (h : a.Builds) (hlabels : a.recorder.labels.size < 2 ^ 32) {call : Call}
    {reply : call.Reply} {i : Instruction} (hprepare : a.recorder.prepare call = .ok (reply, i))
    {cause : Malformation} : a.Exceeds call cause ↔ a.sink.Lacks i cause := by
  constructor
  · intro hexceeds
    cases hexceeds with
    | locals type pinned name hfull =>
        cases hprepare
        rw [← hfull, ← h.size_locals]
        exact .localVar _ (Nat.le_of_eq (h.size_locals.trans hfull).symm)
    | heap hnew hfull =>
        obtain ⟨o, hop, heq⟩ := Except.map_eq_ok.mp hprepare
        cases heq
        exact .text (Recorder.operand_of_make (Recorder.checkOp_eq_ok.mp hop).1).2
          (.heapFull hnew hfull)
    | @text code text hnew hroom hlong =>
        obtain ⟨o, hop, heq⟩ := Except.map_eq_ok.mp hprepare
        cases heq
        rw [Nat.mul_comm] at hlong ⊢
        exact .text (Recorder.operand_of_make (Recorder.checkOp_eq_ok.mp hop).1).2
          (.stringTooLong hnew hroom hlong)
  · intro hlacks
    cases hlacks with
    | label hdef hfull =>
        rw [h.size_labels] at hfull
        omega
    | localVar v hfull =>
        obtain rfl := (Recorder.call_of_prepare hprepare).1
        have hsize : a.sink.locals.size = 65535 := Nat.le_antisymm h.drafts.locals.room hfull
        rw [hsize]
        exact .locals v.type v.pinned v.name (h.size_locals.symm.trans hsize)
    | text hx hover =>
        obtain rfl := (Recorder.call_of_prepare hprepare).1
        rw [Instruction.call, hx]
        cases hover with
        | heapFull hnew hfull => exact .heap hnew hfull
        | stringTooLong hnew hroom hlong =>
            rw [StringHeap.entryLength, Nat.mul_comm] at hlong ⊢
            exact .text hnew hroom hlong

theorem follows (h : a.Builds) (hlabels : a.recorder.labels.size < 2 ^ 32) (call : Call) :
    Follows call a (a.perform call) := by
  rcases Recorder.perform_cases call a.recorder with
    ⟨e, hprepare, hrefused⟩ | ⟨reply, i, hprepare, haccepted, hadmits⟩
  · have hperform : a.perform call = (.error e, a) := by simp [Assembler.perform, hprepare]
    rw [hperform]
    exact .refused hrefused
  · have hcall := h.sinkCall_eq hadmits
    have hexceeds : ∀ cause, a.Exceeds call cause ↔ a.sink.Lacks i cause :=
      fun _ => h.exceeds_iff_lacks hlabels hprepare
    rw [h.kept.books] at hadmits
    rcases h.drafts.advances h.kept.recorded hadmits with
      ⟨cause, hlacks, hsink⟩ | ⟨made, b, hsink, _⟩
    · have hperform : a.perform call = (.error (.malformed cause), a) := by
        simp [Assembler.perform, hprepare, hcall, forward, Sink.perform, hsink]
      rw [hperform]
      exact .exceeded haccepted ((hexceeds cause).mpr hlacks)
    · have hperform : a.perform call = (.ok reply, ⟨a.recorder.record i, b,
          i.inBody.enrollLabel made a.labels, i.inBody.enrollLocal made a.locals⟩) := by
        simp [Assembler.perform, hprepare, hcall, forward, Sink.perform, hsink]
      rw [hperform]
      refine .accepted haccepted fun cause hcause => ?_
      have hrefused := ((hexceeds cause).mp hcause).refused
      rw [hsink] at hrefused
      cases hrefused

end Builds

/-! ## Whole sessions -/

theorem size_labels_le_perform {σ Λ V : Type} [Sink σ Λ V] (a : Assembler σ Λ V) (call : Call) :
    a.recorder.labels.size ≤ (a.perform call).2.recorder.labels.size := by
  rcases perform_cases call a with ⟨e, _, hresult⟩ | ⟨reply, i, e, _, _, hresult⟩ |
    ⟨reply, i, k, e, s, _, _, _, hresult⟩ | ⟨reply, i, k, made, s, _, _, _, hresult⟩
  all_goals rw [hresult]
  exact a.recorder.size_labels_le_record i

theorem Exceeds.isOverflow {a : Assembler BodyBuilder BodyLabel BodyLocal} {call : Call}
    {cause : Malformation} (h : a.Exceeds call cause) :
    (Error.malformed cause).isOverflow = true := by
  cases h <;> rfl

/-- A sink call that fails has met the limit of the locals or of the heap. -/
theorem onlyOverflows_perform {a : Assembler (Logged BodyBuilder BodyLabel BodyLocal) BodyLabel BodyLocal}
    (h : a.unlogged.Builds) (hlabels : a.recorder.labels.size < 2 ^ 32) (hlog : a.sink.OnlyOverflows)
    (call : Call) : (a.perform call).2.sink.OnlyOverflows := by
  rcases perform_cases call a with ⟨e, _, hresult⟩ | ⟨reply, i, e, _, _, hresult⟩ |
    ⟨reply, i, k, e, s, hprepare, _, hsink, hresult⟩ |
    ⟨reply, i, k, made, s, _, _, hsink, hresult⟩
  · rw [hresult]
    exact hlog
  · rw [hresult]
    exact hlog
  · have hfollows := h.follows hlabels call
    have haccepted : a.recorder.perform call = (.ok reply, a.recorder.record i) := by
      simp [Recorder.perform, hprepare]
    rw [perform_unlogged, hresult] at hfollows
    have hoverflow : e.isOverflow = true := by
      generalize hafter : ({ a with sink := s } : Assembler _ _ _).unlogged = after at hfollows
      cases hfollows with
      | refused hrecorder => cases hrecorder.symm.trans haccepted
      | exceeded _ hexceeds => exact hexceeds.isOverflow
    rw [hresult]
    exact hlog.perform hsink fun other hother => by
      cases hother
      exact hoverflow
  · rw [hresult]
    exact hlog.perform hsink fun e he => by cases he

theorem onlyOverflows_after (id : AssemblerId) (calls : List Call)
    (hlabels : ((new id BodyBuilder.empty).after calls).recorder.labels.size < 2 ^ 32) :
    ((new id (.fresh .empty) : Assembler (Logged BodyBuilder BodyLabel BodyLocal) BodyLabel
      BodyLocal).after calls).sink.OnlyOverflows := by
  induction calls using List.reverseRecOn with
  | nil => exact .fresh _
  | append_singleton calls call ih =>
      have hunlogged : ((new id (.fresh .empty) : Assembler (Logged BodyBuilder BodyLabel BodyLocal)
          BodyLabel BodyLocal).after calls).unlogged = (new id BodyBuilder.empty).after calls :=
        after_unlogged calls _
      rw [after_append_singleton] at hlabels ⊢
      have hbefore := Nat.lt_of_le_of_lt (size_labels_le_perform _ call) hlabels
      apply onlyOverflows_perform
      · rw [hunlogged]
        exact (builds_new id).after calls
      · rw [← hunlogged] at hbefore
        exact hbefore
      · exact ih hbefore

/-- Whatever was called, the code is as long as the stream says, and every call is accepted if the
recorder alone would accept it, unless the indices of locals or the heap of texts are exhausted. The
builder never fails for any other reason. -/
theorem builder_follows_recorder (id : AssemblerId) (calls : List Call)
    (hlabels : ((new id BodyBuilder.empty).after calls).recorder.labels.size < 2 ^ 32) :
    let a := (new id BodyBuilder.empty).after calls
    let logged : Assembler (Logged BodyBuilder BodyLabel BodyLocal) BodyLabel BodyLocal :=
      (new id (.fresh .empty)).after calls
    a.sink.code.size = a.recorder.stream.endOffset ∧
    (∀ call, Follows call a (a.perform call)) ∧
    logged.unlogged = a ∧ logged.sink.OnlyOverflows := by
  intro a logged
  have hbuilds : a.Builds := (builds_new id).after calls
  exact ⟨hbuilds.size_code, hbuilds.follows hlabels, after_unlogged calls _,
    onlyOverflows_after id calls hlabels⟩

/-- A protected block with a branch out of it; a branch to a foreign label, a short form with a wrong
operand and a second mark are refused. -/
theorem builder_follows_recorder_refusing :
    let id : AssemblerId := ⟨1⟩
    let type : Member := ⟨⟨0x01000001⟩, "Int32"⟩
    let done : Label := ⟨id, 0, 0, none⟩
    let calls : List Call :=
      [.defineLabel none, .declareLocal type false none, .beginExceptionBlock,
        .emit .leaveS (.label done), .emit .br (.label ⟨⟨2⟩, 0, 0, none⟩), .emit .ldlocS (.int8 0),
        .beginFinallyBlock, .emit .endfinally .none, .endExceptionBlock, .markLabel done,
        .markLabel done, .emit .ret .none]
    ((new id BodyBuilder.empty).after calls).recorder.labels.size = 2 ∧
      ((new id BodyBuilder.empty).after calls).recorder.stream.length = 9 ∧
      ((new id BodyBuilder.empty).after calls).sink.code.size =
        ((new id BodyBuilder.empty).after calls).recorder.stream.endOffset ∧
      ∀ text, Follows (.emit .ldstr (.string text)) ((new id BodyBuilder.empty).after calls)
        (((new id BodyBuilder.empty).after calls).perform (.emit .ldstr (.string text))) := by
  intro id type done calls
  have hlabels : ((new id BodyBuilder.empty).after calls).recorder.labels.size = 2 := by
    decide +kernel
  have hlength : ((new id BodyBuilder.empty).after calls).recorder.stream.length = 9 := by
    decide +kernel
  obtain ⟨hsize, hfollows, _⟩ := builder_follows_recorder id calls (hlabels ▸ by decide)
  exact ⟨hlabels, hlength, hsize, fun text => hfollows _⟩

end Assembler

end CilAssembler
