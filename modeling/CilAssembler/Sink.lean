import CilAssembler.Error
import CilAssembler.Operand

/-! # Code sinks

A sink generates code from calls that speak of its own labels and locals. Nothing is assumed of a
sink: any call may fail, and a failing call may still change it. -/

namespace CilAssembler

/-- A call on a sink with labels `Λ` and locals `V`. -/
inductive SinkCall (Λ V : Type) where
  | defineLabel
  | declareLocal (type : Member) (pinned : Bool)
  | markLabel (label : Λ)
  | emit (code : Opcode) (operand : Operand Λ V)
  | beginExceptionBlock
  | beginCatchBlock (type : Option Member)
  | beginExceptFilterBlock
  | beginFinallyBlock
  | beginFaultBlock
  | endExceptionBlock
  | beginScope
  | endScope

namespace SinkCall

variable {Λ V : Type}

/-- What a successful call gives back: the label or local it made, or nothing. -/
abbrev Reply : SinkCall Λ V → Type
  | .defineLabel => Λ
  | .declareLocal _ _ => V
  | .beginExceptionBlock => Λ
  | _ => Unit

/-- Adds the label that a call made to the end of a roster. -/
def enrollLabel : (call : SinkCall Λ V) → call.Reply → Array Λ → Array Λ
  | .defineLabel, label, labels => labels.push label
  | .beginExceptionBlock, label, labels => labels.push label
  | _, _, labels => labels

/-- Adds the local that a call made to the end of a roster. -/
def enrollLocal : (call : SinkCall Λ V) → call.Reply → Array V → Array V
  | .declareLocal _ _, v, locals => locals.push v
  | _, _, locals => locals

end SinkCall

/-- A generator of code with state `σ`. -/
class Sink (σ : Type) (Λ V : outParam Type) where
  perform : (call : SinkCall Λ V) → σ → Except Error call.Reply × σ

end CilAssembler
