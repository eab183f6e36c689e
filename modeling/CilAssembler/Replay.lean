import CilAssembler.Call

/-! # Replay

A recorded stream can be performed again on any emitter. Labels and locals of the stream are
replaced by the ones that the emitter hands out, matched by their index. -/

namespace CilAssembler

/-- What the labels and locals of a stream have become, by index. -/
structure Renaming where
  labels : Std.HashMap UInt32 Label
  locals : Std.HashMap UInt32 Local

namespace Renaming

/-- Nothing has been allocated yet. -/
def empty : Renaming := ⟨∅, ∅⟩

/-- What a label has become. -/
def label (m : Renaming) (label : Label) : Except Error Label :=
  match m.labels[label.index]? with
  | some fresh => .ok fresh
  | none => .error (.malformed (.labelUsedBeforeDefinition label))

/-- What a local has become. -/
def localVar (m : Renaming) (v : Local) : Except Error Local :=
  match m.locals[v.index]? with
  | some fresh => .ok fresh
  | none => .error (.malformed (.localUsedBeforeDeclaration v))

/-- The call that repeats an instruction. -/
def call (m : Renaming) : Instruction → Except Error Call
  | .op o => (o.operand.rename m.label m.localVar).map (.emit o.code)
  | .defineLabel label => .ok (.defineLabel label.name)
  | .markLabel label => (m.label label).map .markLabel
  | .declareLocal v => .ok (.declareLocal v.type v.pinned v.name)
  | .beginExceptionBlock _ => .ok .beginExceptionBlock
  | .beginCatchBlock type => .ok (.beginCatchBlock type)
  | .beginExceptFilterBlock => .ok .beginExceptFilterBlock
  | .beginFinallyBlock => .ok .beginFinallyBlock
  | .beginFaultBlock => .ok .beginFaultBlock
  | .endExceptionBlock _ => .ok .endExceptionBlock
  | .beginScope => .ok .beginScope
  | .endScope => .ok .endScope

/-- Notes what the repeated instruction allocated. -/
def learn (m : Renaming) : Instruction → (call : Call) → call.Reply → Renaming
  | .defineLabel label, .defineLabel _, fresh =>
      { m with labels := m.labels.insert label.index fresh }
  | .beginExceptionBlock exit, .beginExceptionBlock, fresh =>
      { m with labels := m.labels.insert exit.index fresh }
  | .declareLocal v, .declareLocal _ _ _, fresh =>
      { m with locals := m.locals.insert v.index fresh }
  | _, _, _ => m

end Renaming

/-- Repeats instructions in order, stopping at the first that is refused. -/
def replay {α : Type} [Emitter α] (m : Renaming) : List Instruction → α → Except Error Unit × α
  | [], a => (.ok (), a)
  | i :: rest, a =>
      match m.call i with
      | .error e => (.error e, a)
      | .ok call =>
          match Emitter.perform call a with
          | (.error e, a) => (.error e, a)
          | (.ok reply, a) => replay (m.learn i call reply) rest a

/-- Performs a stream again. What was repeated before a refusal stays done. -/
def Stream.replayInto {α : Type} [Emitter α] (s : Stream) (a : α) : Except Error Unit × α :=
  replay .empty (s.lines.toList.map (·.instruction)) a

end CilAssembler
