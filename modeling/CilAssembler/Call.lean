import CilAssembler.Stream

/-! # Calls

The calls that build a method body, and the interface of everything that takes them. Whether or
not code is generated along the way, an emitter keeps a stream of the calls it accepted. -/

namespace CilAssembler

/-- A call on an emitter. -/
inductive Call where
  | defineLabel (name : Option String)
  | declareLocal (type : Member) (pinned : Bool) (name : Option String)
  | markLabel (label : Label)
  | emit (code : Opcode) (operand : Operand Label Local)
  | beginExceptionBlock
  | beginCatchBlock (type : Option Member)
  | beginExceptFilterBlock
  | beginFinallyBlock
  | beginFaultBlock
  | endExceptionBlock
  | beginScope
  | endScope

/-- What an accepted call gives back: the label or local it allocated, or nothing. -/
abbrev Call.Reply : Call → Type
  | .defineLabel _ => Label
  | .declareLocal _ _ _ => Local
  | .beginExceptionBlock => Label
  | _ => Unit

/-- Something that takes calls and records those it accepts. A refused call still yields a state,
since a code sink may have noticed the attempt. -/
class Emitter (α : Type) where
  stream : α → Stream
  perform : (call : Call) → α → Except Error call.Reply × α

end CilAssembler
