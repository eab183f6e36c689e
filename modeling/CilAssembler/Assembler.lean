import CilAssembler.Recorder.Basic
import CilAssembler.Sink

/-! # Assemblers

An assembler records calls and forwards them to a sink. Each call is prepared by the recorder,
forwarded in terms of the sink's own labels and locals, and recorded if the sink took it. What was
forwarded cannot be taken back, so there is no rewind here. -/

namespace CilAssembler

/-- A recorder and a sink. The rosters hold the sink's counterpart of every label and local. -/
structure Assembler (σ Λ V : Type) where
  recorder : Recorder
  sink : σ
  labels : Array Λ
  locals : Array V

namespace Assembler

variable {σ Λ V : Type}

/-- A session without calls over a sink. -/
def new (id : AssemblerId) (sink : σ) : Assembler σ Λ V :=
  ⟨.new id, sink, #[], #[]⟩

/-- The sink's counterpart of a label. -/
def sinkLabel (a : Assembler σ Λ V) (label : Label) : Except Error Λ :=
  match a.recorder.checkLabel label with
  | .error e => .error e
  | .ok () =>
      match a.labels[label.index.toNat]? with
      | some counterpart => .ok counterpart
      | none => .error (.malformed (.labelRosterGap label.index))

/-- The sink's counterpart of a local. -/
def sinkLocal (a : Assembler σ Λ V) (v : Local) : Except Error V :=
  match a.recorder.checkLocal v with
  | .error e => .error e
  | .ok () =>
      match a.locals[v.index.toNat]? with
      | some counterpart => .ok counterpart
      | none => .error (.malformed (.localRosterGap v.index))

/-- The sink call that generates an instruction. -/
def sinkCall (a : Assembler σ Λ V) : Instruction → Except Error (SinkCall Λ V)
  | .op o => (o.operand.rename a.sinkLabel a.sinkLocal).map (.emit o.code)
  | .defineLabel _ => .ok .defineLabel
  | .markLabel label => (a.sinkLabel label).map .markLabel
  | .declareLocal v => .ok (.declareLocal v.type v.pinned)
  | .beginExceptionBlock _ => .ok .beginExceptionBlock
  | .beginCatchBlock type => .ok (.beginCatchBlock type)
  | .beginExceptFilterBlock => .ok .beginExceptFilterBlock
  | .beginFinallyBlock => .ok .beginFinallyBlock
  | .beginFaultBlock => .ok .beginFaultBlock
  | .endExceptionBlock _ => .ok .endExceptionBlock
  | .beginScope => .ok .beginScope
  | .endScope => .ok .endScope

/-- Forwards a sink call, and records the instruction if the sink took the call. -/
def forward [Sink σ Λ V] (i : Instruction) (call : SinkCall Λ V) :
    Assembler σ Λ V → Except Error Unit × Assembler σ Λ V
  | ⟨recorder, sink, labels, locals⟩ =>
      match Sink.perform call sink with
      | (.error e, sink) => (.error e, ⟨recorder, sink, labels, locals⟩)
      | (.ok made, sink) =>
          (.ok (), ⟨recorder.record i, sink, call.enrollLabel made labels,
            call.enrollLocal made locals⟩)

/-- Performs a call: prepares, forwards and records it. -/
def perform [Sink σ Λ V] (call : Call) (a : Assembler σ Λ V) :
    Except Error call.Reply × Assembler σ Λ V :=
  match a.recorder.prepare call with
  | .error e => (.error e, a)
  | .ok (reply, i) =>
      match a.sinkCall i with
      | .error e => (.error e, a)
      | .ok forwarded =>
          match a.forward i forwarded with
          | (.error e, a) => (.error e, a)
          | (.ok (), a) => (.ok reply, a)

instance [Sink σ Λ V] : Emitter (Assembler σ Λ V) where
  stream a := a.recorder.stream
  perform := Assembler.perform

/-- Ends the session with the recorded stream and the sink. -/
def finish (a : Assembler σ Λ V) : Except Error (Stream × σ) :=
  a.recorder.finish.map (·, a.sink)

end Assembler

end CilAssembler
