import CilAssembler.Proofs.BareBuilder
import CilAssembler.Proofs.Lifetimes
import CilAssembler.Proofs.Masking
import Mathlib.Data.List.Forall2

/-! # Names and code

Two sessions that are given the same calls up to names go alike: each call is accepted in one
exactly if it is accepted in the other, the streams agree in everything but names, and the finished
bodies hold the same code, clauses and strings. This follows from masking: masking a session commutes
with every call, and sessions with the same masked calls have one masked session between them. -/

namespace CilAssembler

open Relabeling (masking)

/-! ## Builders without names -/

/-- The local without the name of its type. -/
def LocalVariable.unnamed (v : LocalVariable) : LocalVariable :=
  { v with type := v.type.unnamed }

namespace SinkCall

variable {Λ V : Type}

/-- The call without the names of members. -/
def unnamed : SinkCall Λ V → SinkCall Λ V
  | .declareLocal type pinned => .declareLocal type.unnamed pinned
  | .emit code x => .emit code (x.map (fun label => label) (fun v => v) Member.unnamed)
  | .beginCatchBlock type => .beginCatchBlock (type.map Member.unnamed)
  | k => k

/-- What was made for the call, as made for the call without names. -/
def carry : (k : SinkCall Λ V) → k.Reply → k.unnamed.Reply
  | .defineLabel, made | .beginExceptionBlock, made => made
  | .declareLocal _ _, made => made
  | .markLabel _, made | .emit _ _, made | .beginCatchBlock _, made
  | .beginExceptFilterBlock, made | .beginFinallyBlock, made | .beginFaultBlock, made
  | .endExceptionBlock, made | .beginScope, made | .endScope, made => made

theorem enrollLabel_carry (k : SinkCall Λ V) (made : k.Reply) (labels : Array Λ) :
    k.unnamed.enrollLabel (k.carry made) labels = k.enrollLabel made labels := by
  cases k <;> rfl

theorem enrollLocal_carry (k : SinkCall Λ V) (made : k.Reply) (locals : Array V) :
    k.unnamed.enrollLocal (k.carry made) locals = k.enrollLocal made locals := by
  cases k <;> rfl

end SinkCall

namespace BodyBuilder

/-- The builder without the names of types. -/
def unnamed (b : BodyBuilder) : BodyBuilder :=
  { b with locals := b.locals.map (·.unnamed) }

/-- The second outcome is the first one without names: the results correspond, or there is one error,
which reports no handle. -/
inductive SameWithoutNames {α β : Type} (f : α → β) :
    Except Error α × BodyBuilder → Except Error β × BodyBuilder → Prop where
  | taken (made : α) (b : BodyBuilder) : SameWithoutNames f (.ok made, b) (.ok (f made), b.unnamed)
  | refused {e : Error} (b : BodyBuilder) (h : ∀ id, e.masked id = e) :
      SameWithoutNames f (.error e, b) (.error e, b.unnamed)

section Calls

variable (b : BodyBuilder)

@[simp] theorem labels_unnamed : b.unnamed.labels = b.labels := rfl

@[simp] theorem regions_unnamed : b.unnamed.regions = b.regions := rfl

@[simp] theorem position_unnamed : b.unnamed.position = b.position := rfl

@[simp] theorem write_unnamed (op : Opcode) (bytes : List UInt8) :
    b.unnamed.write op bytes = (b.write op bytes).unnamed := rfl

variable {b} in
theorem masked_of_position {e : Error} (h : b.position = .error e) (id : AssemblerId) :
    e.masked id = e := by
  unfold position at h
  split at h <;> cases h
  rfl

theorem defineLabel_unnamed :
    SameWithoutNames (fun made => made) b.defineLabel b.unnamed.defineLabel := by
  have hlabels : b.unnamed.labels.size ≤ 0xFFFFFFFF ↔ b.labels.size ≤ 0xFFFFFFFF := Iff.rfl
  unfold defineLabel
  by_cases hroom : b.labels.size ≤ 0xFFFFFFFF
  · rw [if_pos hroom, if_pos (hlabels.mpr hroom)]
    exact .taken _ _
  · rw [if_neg hroom, if_neg (mt hlabels.mp hroom)]
    exact .refused b fun _ => rfl

theorem declareLocal_unnamed (type : Member) (pinned : Bool) :
    SameWithoutNames (fun made => made) (b.declareLocal type pinned)
      (b.unnamed.declareLocal type.unnamed pinned) := by
  have hsize : b.unnamed.locals.size = b.locals.size := by simp [unnamed]
  have hlocals : b.unnamed.locals.push ⟨type.unnamed, pinned⟩ =
      (b.locals.push ⟨type, pinned⟩).map (·.unnamed) := by
    simp [unnamed, LocalVariable.unnamed]
  simp only [declareLocal, hsize, hlocals]
  by_cases hroom : b.locals.size < 0xFFFF
  · rw [if_pos hroom, if_pos hroom]
    exact .taken _ _
  · rw [if_neg hroom, if_neg hroom]
    exact .refused b fun _ => rfl

theorem markLabel_unnamed (label : BodyLabel) :
    SameWithoutNames (fun made => made) (b.markLabel label) (b.unnamed.markLabel label) := by
  simp only [markLabel, checkMark, position_unnamed, labels_unnamed]
  cases hposition : b.position with
  | error e => exact .refused b (masked_of_position hposition)
  | ok position =>
      cases b.labels[label.index.toNat]? with
      | none => exact .refused b fun _ => rfl
      | some place =>
          cases place with
          | some previous => exact .refused b fun _ => rfl
          | none => exact .taken _ _

theorem emitString_unnamed (op : Opcode) (text : String) :
    SameWithoutNames (fun made => made) (b.emitString op text) (b.unnamed.emitString op text) := by
  rcases StringHeap.intern_cases b.strings text with
    ⟨cause, _, hintern⟩ | ⟨offset, _, hintern⟩ | ⟨header, _, _, _, hintern⟩
  · simp only [emitString, unnamed, hintern]
    exact .refused _ fun _ => rfl
  · simp only [emitString, unnamed, hintern]
    exact .taken _ _
  · simp only [emitString, unnamed, hintern]
    exact .taken _ _

theorem emitBranch_unnamed (op : Opcode) (target : BodyLabel) :
    SameWithoutNames (fun made => made) (b.emitBranch op target) (b.unnamed.emitBranch op target) := by
  have hlabels : b.unnamed.labels.size ≤ target.index.toNat ↔ b.labels.size ≤ target.index.toNat :=
    Iff.rfl
  unfold emitBranch
  by_cases hundefined : b.labels.size ≤ target.index.toNat
  · rw [if_pos hundefined, if_pos (hlabels.mpr hundefined)]
    exact .refused b fun _ => rfl
  · rw [if_neg hundefined, if_neg (mt hlabels.mp hundefined)]
    simp only [position_unnamed, write_unnamed]
    cases hposition : b.position with
    | error e => exact .refused b (masked_of_position hposition)
    | ok instruction =>
        cases hfield : (b.write op []).position with
        | error e => exact .refused _ (masked_of_position hfield)
        | ok field => exact .taken _ _

theorem emitSwitch_unnamed (op : Opcode) (targets : List BodyLabel) :
    SameWithoutNames (fun made => made) (b.emitSwitch op targets) (b.unnamed.emitSwitch op targets) := by
  simp only [emitSwitch, position_unnamed, write_unnamed]
  by_cases hmany : 0xFFFFFFFF < targets.length
  · rw [if_pos hmany, if_pos hmany]
    exact .refused b fun _ => rfl
  · rw [if_neg hmany, if_neg hmany]
    cases hposition : b.position with
    | error e => exact .refused b (masked_of_position hposition)
    | ok instruction =>
        cases hfield : (b.write op (littleEndian 4 targets.length)).position with
        | error e => exact .refused _ (masked_of_position hfield)
        | ok field =>
            generalize b.write op (littleEndian 4 targets.length) = opened
            generalize List.replicate (4 * targets.length) (0 : UInt8) = slots
            have hopened : ({ opened.unnamed with code := opened.unnamed.code ++ slots } : BodyBuilder) =
              ({ opened with code := opened.code ++ slots } : BodyBuilder).unnamed := rfl
            simp only [hopened, position_unnamed]
            cases hnext : ({ opened with code := opened.code ++ slots } : BodyBuilder).position with
            | error e => exact .refused _ (masked_of_position hnext)
            | ok next => exact .taken _ _

theorem emit_unnamed (op : Opcode) (x : Operand BodyLabel BodyLocal) :
    SameWithoutNames (fun made => made) (b.emit op x)
      (b.unnamed.emit op (x.map (fun label => label) (fun v => v) Member.unnamed)) := by
  have htakes : takes op.kind (x.map (fun label => label) (fun v => v) Member.unnamed) =
      takes op.kind x := by
    unfold takes
    rw [Operand.suits_map]
    generalize op.kind = kind
    cases x <;> cases kind <;> rfl
  have hfound : found (x.map (fun label => label) (fun v => v) Member.unnamed) = found x := by
    cases x <;> rfl
  unfold emit
  rw [htakes, hfound]
  by_cases htaken : takes op.kind x = true
  · rw [if_pos htaken, if_pos htaken]
    cases x with
    | string text => exact b.emitString_unnamed op text
    | label target => exact b.emitBranch_unnamed op target
    | labels targets =>
        simp only [Operand.map, List.map_id']
        exact b.emitSwitch_unnamed op targets
    | _ => exact .taken _ _
  · rw [if_neg htaken, if_neg htaken]
    exact .refused b fun _ => rfl

theorem beginExceptionBlock_unnamed :
    SameWithoutNames (fun made => made) b.beginExceptionBlock b.unnamed.beginExceptionBlock := by
  have hdefine := b.defineLabel_unnamed
  unfold beginExceptionBlock
  generalize b.defineLabel = x at hdefine
  generalize b.unnamed.defineLabel = y at hdefine
  cases hdefine with
  | refused b h => exact .refused b h
  | taken exit b =>
      simp only [position_unnamed]
      cases hposition : b.position with
      | error e => exact .refused b (masked_of_position hposition)
      | ok start => exact .taken _ _

theorem openHandler_unnamed (operation : RegionOperation) (kind : HandlerKind) :
    SameWithoutNames (fun made => made) (b.openHandler operation kind)
      (b.unnamed.openHandler operation kind) := by
  simp only [openHandler, position_unnamed, regions_unnamed]
  cases hposition : b.position with
  | error e => exact .refused b (masked_of_position hposition)
  | ok position =>
      cases b.regions with
      | nil => exact .refused b fun _ => rfl
      | cons region rest => exact .taken _ _

theorem beginCatchBlock_unnamed (type : Option Member) :
    SameWithoutNames (fun made => made) (b.beginCatchBlock type)
      (b.unnamed.beginCatchBlock (type.map Member.unnamed)) := by
  have hopens : SameWithoutNames (fun made => made)
      (b.openHandler .beginCatchBlock (.catching (type.map (·.token))))
      (b.unnamed.openHandler .beginCatchBlock (.catching ((type.map Member.unnamed).map (·.token)))) := by
    rw [Option.map_map]
    exact b.openHandler_unnamed _ _
  simp only [beginCatchBlock, position_unnamed, regions_unnamed]
  cases b.position with
  | error e => exact hopens
  | ok position =>
      cases type with
      | some type => exact hopens
      | none =>
          rcases b.regions with _ | ⟨⟨exit, start, stop, closed, _ | ⟨kind, opened, _ | started, covers⟩⟩, rest⟩
          · exact hopens
          · exact hopens
          · exact .taken _ _
          · exact hopens

theorem endExceptionBlock_unnamed :
    SameWithoutNames (fun made => made) b.endExceptionBlock b.unnamed.endExceptionBlock := by
  simp only [endExceptionBlock, position_unnamed, regions_unnamed]
  cases hposition : b.position with
  | error e => exact .refused b (masked_of_position hposition)
  | ok position =>
      cases b.regions with
      | nil => exact .refused b fun _ => rfl
      | cons region rest => exact markLabel_unnamed _ region.exit

/-- A builder treats a call without names as it treats the call. -/
theorem perform_unnamed (k : SinkCall BodyLabel BodyLocal) :
    SameWithoutNames k.carry (perform k b) (perform k.unnamed b.unnamed) := by
  cases k with
  | defineLabel => exact b.defineLabel_unnamed
  | declareLocal type pinned => exact b.declareLocal_unnamed type pinned
  | markLabel label => exact b.markLabel_unnamed label
  | emit code x => exact b.emit_unnamed code x
  | beginExceptionBlock => exact b.beginExceptionBlock_unnamed
  | beginCatchBlock type => exact b.beginCatchBlock_unnamed type
  | beginExceptFilterBlock | beginFinallyBlock | beginFaultBlock => exact b.openHandler_unnamed _ _
  | endExceptionBlock => exact b.endExceptionBlock_unnamed
  | beginScope | endScope => exact .taken _ _

end Calls

/-! ## Finished bodies -/

theorem masked_of_fill {labels : Array (Option Nat)} {code : Array UInt8} {d : Displacement} {e : Error}
    (h : fill labels code d = .error e) (id : AssemblerId) : e.masked id = e := by
  unfold fill labelPosition at h
  split at h
  · rename_i hplace
    split at hplace <;> cases hplace
    cases h
    rfl
  · dsimp only at h
    split at h <;> cases h
    rfl

theorem masked_of_fillAll {labels : Array (Option Nat)} {ds : List Displacement}
    {code : Array UInt8} {e : Error} (h : fillAll labels ds code = .error e) (id : AssemblerId) :
    e.masked id = e := by
  induction ds generalizing code with
  | nil => cases h
  | cons d rest ih =>
      unfold fillAll at h
      split at h
      · rename_i hfill
        cases h
        exact masked_of_fill hfill id
      · exact ih h

end BodyBuilder

/-- The body without the names of types. -/
def MethodBody.unnamed (body : MethodBody) : MethodBody :=
  { body with locals := body.locals.map (·.unnamed) }

/-- Finishing looks at no name, and what it reports is no handle. -/
theorem BodyBuilder.finish_unnamed (id : AssemblerId) (b : BodyBuilder) :
    b.unnamed.finish = maskOutcome id MethodBody.unnamed b.finish := by
  have hregions : b.unnamed.regions.isEmpty = b.regions.isEmpty := rfl
  have hfill : fillAll b.unnamed.labels (b.unnamed.branches.toList ++ b.unnamed.tables.toList)
      b.unnamed.code = fillAll b.labels (b.branches.toList ++ b.tables.toList) b.code := rfl
  unfold finish
  rw [hregions, hfill]
  cases b.regions.isEmpty with
  | false => rfl
  | true =>
      cases hfilled : fillAll b.labels (b.branches.toList ++ b.tables.toList) b.code with
      | error e => exact congrArg Except.error (masked_of_fillAll hfilled id).symm
      | ok code => rfl

/-! ## Sessions -/

theorem mapM_masked {α β γ : Type} {id : AssemblerId} {f : α → β} {p : α → Except Error γ}
    {q : β → Except Error γ} (h : ∀ x, q (f x) = maskOutcome id (fun made => made) (p x))
    (xs : List α) : (xs.map f).mapM q = maskOutcome id (fun made => made) (xs.mapM p) := by
  induction xs with
  | nil => rfl
  | cons x xs ih =>
      rw [List.map_cons, List.mapM_cons, List.mapM_cons, h x, ih]
      cases p x with
      | error e => rfl
      | ok made => cases xs.mapM p <;> rfl

/-- Replacing the references of a masked operand is replacing those of the operand. -/
theorem Operand.rename_masked {Λ V Λ' V' Λ'' V'' : Type} {id : AssemblerId} {f : Λ → Λ'} {g : V → V'}
    {m : Member → Member} {p : Λ → Except Error Λ''} {q : Λ' → Except Error Λ''}
    {p' : V → Except Error V''} {q' : V' → Except Error V''}
    (hlabel : ∀ label, q (f label) = maskOutcome id (fun made => made) (p label))
    (hlocal : ∀ v, q' (g v) = maskOutcome id (fun made => made) (p' v)) (x : Operand Λ V) :
    (x.map f g m).rename q q' =
      maskOutcome id (Operand.map (fun made => made) (fun made => made) m) (x.rename p p') := by
  cases x with
  | label target =>
      simp only [map, rename, hlabel]
      cases p target <;> rfl
  | labels targets =>
      simp only [map, rename, mapM_masked hlabel]
      cases targets.mapM p with
      | error e => rfl
      | ok made => simp [maskOutcome, Except.map, map]
  | localVar v =>
      simp only [map, rename, hlocal]
      cases p' v <;> rfl
  | _ => rfl

namespace Assembler

/-- The session without names, under the identity zero. -/
def masked (a : Assembler BodyBuilder BodyLabel BodyLocal) :
    Assembler BodyBuilder BodyLabel BodyLocal :=
  ⟨a.recorder.masked, a.sink.unnamed, a.labels, a.locals⟩

variable (a : Assembler BodyBuilder BodyLabel BodyLocal)

theorem sinkLabel_masked (label : Label) :
    a.masked.sinkLabel (label.masked a.recorder.id) =
      maskOutcome a.recorder.id (fun made => made) (a.sinkLabel label) := by
  have hrecorder : a.masked.recorder = a.recorder.masked := rfl
  have hlabels : a.masked.labels[(label.masked a.recorder.id).index.toNat]? =
    a.labels[label.index.toNat]? := rfl
  rw [sinkLabel, hrecorder, Recorder.checkLabel_masked, hlabels, sinkLabel]
  cases a.recorder.checkLabel label with
  | error e => rfl
  | ok u => cases a.labels[label.index.toNat]? <;> rfl

theorem sinkLocal_masked (v : Local) :
    a.masked.sinkLocal (v.masked a.recorder.id) =
      maskOutcome a.recorder.id (fun made => made) (a.sinkLocal v) := by
  have hrecorder : a.masked.recorder = a.recorder.masked := rfl
  have hlocals : a.masked.locals[(v.masked a.recorder.id).index.toNat]? =
    a.locals[v.index.toNat]? := rfl
  rw [sinkLocal, hrecorder, Recorder.checkLocal_masked, hlocals, sinkLocal]
  cases a.recorder.checkLocal v with
  | error e => rfl
  | ok u => cases a.locals[v.index.toNat]? <;> rfl

/-- The sink call of a masked instruction is the sink call without names. -/
theorem sinkCall_masked (i : Instruction) :
    a.masked.sinkCall (i.relabel (masking a.recorder.id)) =
      maskOutcome a.recorder.id SinkCall.unnamed (a.sinkCall i) := by
  cases i with
  | op o =>
      have hoperand : (o.relabel (masking a.recorder.id)).operand.rename a.masked.sinkLabel
          a.masked.sinkLocal = maskOutcome a.recorder.id _ (o.operand.rename a.sinkLabel a.sinkLocal) :=
        Operand.rename_masked a.sinkLabel_masked a.sinkLocal_masked o.operand
      simp only [Instruction.relabel, sinkCall, hoperand]
      cases o.operand.rename a.sinkLabel a.sinkLocal <;> rfl
  | markLabel label =>
      have hlabel := a.sinkLabel_masked label
      simp only [Instruction.relabel, sinkCall, masking, hlabel]
      cases a.sinkLabel label <;> rfl
  | _ => rfl

/-- Forwarding without names and recording the masked instruction gives the masked session. -/
theorem forward_masked (i : Instruction) (k : SinkCall BodyLabel BodyLocal) :
    a.masked.forward (i.relabel (masking a.recorder.id)) k.unnamed =
      (maskOutcome a.recorder.id (fun u => u) (a.forward i k).1, (a.forward i k).2.masked) := by
  obtain ⟨recorder, sink, labels, locals⟩ := a
  have hsink := sink.perform_unnamed k
  simp only [masked, forward, Sink.perform]
  generalize sink.perform k = outcome at hsink
  generalize sink.unnamed.perform k.unnamed = outcome' at hsink
  cases hsink with
  | refused b h => simp only [maskOutcome, h]
  | taken made b =>
      simp only [maskOutcome, SinkCall.enrollLabel_carry, SinkCall.enrollLocal_carry,
        Recorder.record_masked]

/-- What a call is answered with: the handle that it gives back, if it gives one, or an error. -/
def answer (call : Call) : Except Error (Option Handle) :=
  (a.perform call).1.map call.handle?

/-- The answers to calls that are made in order. -/
def answers (a : Assembler BodyBuilder BodyLabel BodyLocal) : List Call →
    List (Except Error (Option Handle))
  | [] => []
  | call :: rest => a.answer call :: (a.perform call).2.answers rest

/-- A masked session answers a masked call with the masked answer, and stays the masked session. -/
theorem perform_masked (call : Call) :
    a.masked.answer (call.masked a.recorder.id) =
      maskOutcome a.recorder.id (Option.map (·.masked a.recorder.id)) (a.answer call) ∧
    (a.masked.perform (call.masked a.recorder.id)).2 = (a.perform call).2.masked := by
  have hrecorder : a.masked.recorder = a.recorder.masked := rfl
  have hprepared := a.recorder.prepare_masked call
  unfold answer perform
  rw [hrecorder]
  cases hprepare : a.recorder.prepare call with
  | error e =>
      rw [hprepare] at hprepared
      rw [Except.map_eq_error.mp hprepared]
      exact ⟨rfl, rfl⟩
  | ok prepared =>
      obtain ⟨reply, i⟩ := prepared
      rw [hprepare] at hprepared
      obtain ⟨⟨reply', _⟩, hprepare', rfl⟩ := Except.map_eq_ok.mp hprepared
      have hhandle : (call.masked a.recorder.id).handle? reply' =
          (call.handle? reply).map (·.masked a.recorder.id) := by
        rw [Recorder.handle?_of_prepare hprepare', Recorder.handle?_of_prepare hprepare]
        cases i <;> rfl
      simp only [hprepare', sinkCall_masked]
      cases a.sinkCall i with
      | error e => exact ⟨rfl, rfl⟩
      | ok k =>
          simp only [maskOutcome, forward_masked]
          rcases a.forward i k with ⟨_ | u, next⟩
          · exact ⟨rfl, rfl⟩
          · exact ⟨congrArg Except.ok hhandle, rfl⟩

theorem id_perform (call : Call) : (a.perform call).2.recorder.id = a.recorder.id := by
  rcases a.recorder_perform_cases call with hkept | ⟨_, _, _, hrecorded⟩
  · rw [hkept]
  · rw [hrecorded, Recorder.id_record]

theorem id_after (calls : List Call) : (a.after calls).recorder.id = a.recorder.id := by
  induction calls generalizing a with
  | nil => rfl
  | cons call calls ih => rw [after_cons, ih, id_perform]

theorem masked_new (id : AssemblerId) :
    masked (new id .empty) = new ⟨0⟩ .empty := by
  simp [masked, new, Recorder.masked, Recorder.new, Recorder.relabel, Stream.relabel, Stream.empty,
    RegionStack.relabel, RegionStack.empty, BodyBuilder.unnamed, BodyBuilder.empty]

theorem after_masked (calls : List Call) :
    a.masked.answers (calls.map (·.masked a.recorder.id)) = (a.answers calls).map
      (maskOutcome a.recorder.id (Option.map (·.masked a.recorder.id))) ∧
    a.masked.after (calls.map (·.masked a.recorder.id)) = (a.after calls).masked := by
  induction calls generalizing a with
  | nil => exact ⟨rfl, rfl⟩
  | cons call calls ih =>
      obtain ⟨hanswer, hnext⟩ := a.perform_masked call
      obtain ⟨hanswers, hafter⟩ := ih (a.perform call).2
      rw [id_perform] at hanswers hafter
      rw [List.map_cons, answers, after_cons, hanswer, hnext, hanswers, hafter, answers, after_cons]
      exact ⟨rfl, rfl⟩

theorem outline_masked : a.masked.recorder.stream.outline = a.recorder.stream.outline :=
  Stream.outline_relabel (masking a.recorder.id) a.recorder.stream

/-- The finished body, once the session and its builder can be finished. -/
def body (a : Assembler BodyBuilder BodyLabel BodyLocal) : Except Error MethodBody :=
  match a.finish with
  | .error e => .error e
  | .ok (_, sink) => sink.finish

theorem body_masked : a.masked.body = maskOutcome a.recorder.id MethodBody.unnamed a.body := by
  have hrecorder : a.masked.recorder = a.recorder.masked := rfl
  unfold body finish
  rw [hrecorder, Recorder.finish_masked]
  cases a.recorder.finish with
  | error e => rfl
  | ok stream => exact a.sink.finish_unnamed a.recorder.id

end Assembler

/-! ## Two runs -/

/-- Outcomes of sessions `id` and `id'` that agree: both succeed with related results, or both fail
with one error up to the name and the owner's identity of the handle that it reports. -/
inductive OutcomesAlike {α : Type} (id id' : AssemblerId) (R : α → α → Prop) :
    Except Error α → Except Error α → Prop where
  | succeeded {a a' : α} (h : R a a') : OutcomesAlike id id' R (.ok a) (.ok a')
  | refused {e e' : Error} (h : e.masked id = e'.masked id') :
      OutcomesAlike id id' R (.error e) (.error e')

theorem OutcomesAlike.imp {α : Type} {id id' : AssemblerId} {R S : α → α → Prop}
    {x x' : Except Error α} (h : OutcomesAlike id id' R x x') (hRS : ∀ a a', R a a' → S a a') :
    OutcomesAlike id id' S x x' := by
  cases h with
  | succeeded h => exact .succeeded (hRS _ _ h)
  | refused h => exact .refused h

theorem OutcomesAlike.of_masked {α β : Type} {id id' : AssemblerId} {f f' : α → β}
    {x x' : Except Error α} (h : maskOutcome id f x = maskOutcome id' f' x') :
    OutcomesAlike id id' (fun a a' => f a = f' a') x x' := by
  cases x with
  | error e =>
      cases x' with
      | error e' => exact .refused (Except.error.inj h)
      | ok a' => cases h
  | ok a =>
      cases x' with
      | error e' => cases h
      | ok a' => exact .succeeded (Except.ok.inj h)

/-- Bodies that agree in code, clauses and strings, and in the type token and pinning of each local. -/
structure MethodBody.SameCode (body body' : MethodBody) : Prop where
  code : body.code = body'.code
  clauses : body.clauses = body'.clauses
  strings : body.strings = body'.strings
  locals : body.locals.map (fun v => (v.type.token, v.pinned)) =
    body'.locals.map (fun v => (v.type.token, v.pinned))

theorem MethodBody.SameCode.of_unnamed {body body' : MethodBody} (h : body.unnamed = body'.unnamed) :
    body.SameCode body' := by
  obtain ⟨hcode, hlocals, hclauses, hstrings⟩ := MethodBody.mk.inj h
  refine ⟨hcode, hclauses, hstrings, ?_⟩
  have htokens := congrArg (Array.map fun v : LocalVariable => (v.type.token, v.pinned)) hlocals
  rw [Array.map_map, Array.map_map] at htokens
  exact htokens

namespace Assembler

/-- Fresh sessions have one masked session between them. -/
theorem after_new_masked (id : AssemblerId) (calls : List Call) :
    answers (new ⟨0⟩ .empty) (calls.map (·.masked id)) =
      (answers (new id .empty) calls).map (maskOutcome id (Option.map (·.masked id))) ∧
    (new ⟨0⟩ .empty).after (calls.map (·.masked id)) = masked ((new id .empty).after calls) := by
  have hmasked := after_masked (new id .empty) calls
  rw [masked_new] at hmasked
  exact hmasked

/-- Names never influence code. Let two sessions take calls that differ only in the names of labels,
locals and members, each with its own handles where the other has its own. Then every call is answered
alike, the streams have the same outline, and the bodies finish with the same code or fail with the
same error. -/
theorem names_never_influence_code (id id' : AssemblerId) (calls calls' : List Call)
    (h : calls.map (·.masked id) = calls'.map (·.masked id')) :
    List.Forall₂ (OutcomesAlike id id' fun made made' =>
        made.map (·.masked id) = made'.map (·.masked id'))
      (answers (new id .empty) calls) (answers (new id' .empty) calls') ∧
    ((new id BodyBuilder.empty).after calls).recorder.stream.outline =
      ((new id' BodyBuilder.empty).after calls').recorder.stream.outline ∧
    OutcomesAlike id id' MethodBody.SameCode (body ((new id .empty).after calls))
      (body ((new id' .empty).after calls')) := by
  obtain ⟨hanswers, hafter⟩ := after_new_masked id calls
  obtain ⟨hanswers', hafter'⟩ := after_new_masked id' calls'
  rw [h] at hanswers hafter
  have hsession := hafter.symm.trans hafter'
  refine ⟨?_, ?_, ?_⟩
  · have hmaps := hanswers.symm.trans hanswers'
    rw [← List.forall₂_eq_eq_eq, List.forall₂_map_left_iff, List.forall₂_map_right_iff] at hmaps
    exact hmaps.imp fun _ _ => OutcomesAlike.of_masked
  · have hstream := congrArg (fun a => a.recorder.stream.outline) hsession
    simpa only [outline_masked] using hstream
  · have hbody := congrArg body hsession
    rw [body_masked, body_masked, id_after, id_after] at hbody
    exact (OutcomesAlike.of_masked hbody).imp fun _ _ => MethodBody.SameCode.of_unnamed

/-- A loop with a handler under two sets of names. In both sessions a label of the other one is refused,
and so is the second mark of a label. -/
theorem names_never_influence_code_renamed :
    let id : AssemblerId := ⟨1⟩
    let id' : AssemblerId := ⟨7⟩
    let type (name : String) : Member := ⟨⟨0x01000001⟩, name⟩
    let calls (own other : AssemblerId) (label v : Option String) (int print : String) : List Call :=
      [.defineLabel label, .declareLocal (type int) true v, .markLabel ⟨own, 0, 0, label⟩,
        .beginExceptionBlock, .emit .ldlocS (.localVar ⟨own, 0, 0, type int, true, v⟩),
        .emit .call (.method ⟨⟨0x06000001⟩, print⟩), .emit .br (.label ⟨other, 0, 0, label⟩),
        .beginCatchBlock (some (type int)), .emit .pop .none, .endExceptionBlock,
        .markLabel ⟨own, 0, 0, label⟩, .emit .br (.label ⟨own, 0, 0, label⟩)]
    let first := calls id id' (some "top") (some "i") "Int32" "Print"
    let second := calls id' id none none "System.Int32" "Console.Write"
    first.map (·.masked id) = second.map (·.masked id') ∧
      ((new id BodyBuilder.empty).after first).recorder.stream.length = 10 ∧
      ((new id BodyBuilder.empty).after first).recorder.stream.outline =
        ((new id' BodyBuilder.empty).after second).recorder.stream.outline ∧
      (body ((new id .empty).after first)).isOk = true ∧
      OutcomesAlike id id' MethodBody.SameCode (body ((new id .empty).after first))
        (body ((new id' .empty).after second)) := by
  intro id id' type calls first second
  have hcalls : first.map (·.masked id) = second.map (·.masked id') := rfl
  obtain ⟨_, houtline, hbody⟩ := names_never_influence_code id id' first second hcalls
  exact ⟨hcalls, by decide +kernel, houtline, by decide +kernel, hbody⟩

end Assembler

end CilAssembler
