import CilAssembler.Sink
import CilAssembler.Text.Hex

/-! # Transcripts

A sink that generates no code: it writes down every call it takes, and refuses the calls it was
told to refuse. It shows what an assembler forwards. -/

namespace CilAssembler

/-- The calls taken so far. Calls are numbered from one; labels from 101 and locals from 501. -/
structure Transcript where
  refused : List Nat
  calls : Nat
  log : Array String
  labels : Nat
  locals : Nat

namespace Transcript

/-- A transcript without calls that will refuse the calls with the given numbers. -/
def new (refused : List Nat) : Transcript :=
  ⟨refused, 0, #[], 0, 0⟩

/-- A label as the transcript shows it. -/
def showLabel (label : Nat) : String :=
  "L" ++ toString label

/-- The operand as the transcript shows it, after the word for its category. -/
def showOperand (op : Opcode) : Operand Nat Nat → String
  | .none => "emit " ++ op.mnemonic
  | .int8 value => "emit_i8 " ++ op.mnemonic ++ " " ++ toString value.toInt
  | .uint8 value => "emit_u8 " ++ op.mnemonic ++ " " ++ toString value.toNat
  | .uint16 value => "emit_u16 " ++ op.mnemonic ++ " " ++ toString value.toNat
  | .int32 value => "emit_i32 " ++ op.mnemonic ++ " " ++ toString value.toInt
  | .int64 value => "emit_i64 " ++ op.mnemonic ++ " " ++ toString value.toInt
  | .float32 bits => "emit_f32 " ++ op.mnemonic ++ " " ++ Text.hex 8 bits.toNat
  | .float64 bits => "emit_f64 " ++ op.mnemonic ++ " " ++ Text.hex 16 bits.toNat
  | .string text => "emit_string " ++ op.mnemonic ++ " " ++ text
  | .label target => "emit_label " ++ op.mnemonic ++ " " ++ showLabel target
  | .labels targets =>
      "emit_switch " ++ op.mnemonic ++ " [" ++ ",".intercalate (targets.map showLabel) ++ "]"
  | .localVar v => "emit_local " ++ op.mnemonic ++ " V" ++ toString v
  | .field member => "emit_field " ++ op.mnemonic ++ " " ++ member.name
  | .constructor member => "emit_constructor " ++ op.mnemonic ++ " " ++ member.name
  | .method member => "emit_method " ++ op.mnemonic ++ " " ++ member.name
  | .type member => "emit_type " ++ op.mnemonic ++ " " ++ member.name

/-- The line for a call. -/
def line : SinkCall Nat Nat → String
  | .defineLabel => "define_label"
  | .declareLocal type pinned =>
      "declare_local " ++ type.name ++ (if pinned then " true" else " false")
  | .markLabel label => "mark_label " ++ showLabel label
  | .emit op x => showOperand op x
  | .beginExceptionBlock => "begin_exception_block"
  | .beginCatchBlock none => "begin_catch_block"
  | .beginCatchBlock (some type) => "begin_catch_block " ++ type.name
  | .beginExceptFilterBlock => "begin_except_filter_block"
  | .beginFinallyBlock => "begin_finally_block"
  | .beginFaultBlock => "begin_fault_block"
  | .endExceptionBlock => "end_exception_block"
  | .beginScope => "begin_scope"
  | .endScope => "end_scope"

/-- The label after those handed out so far. -/
def freshLabel (t : Transcript) : Nat × Transcript :=
  (101 + t.labels, { t with labels := t.labels + 1 })

/-- The local after those handed out so far. -/
def freshLocal (t : Transcript) : Nat × Transcript :=
  (501 + t.locals, { t with locals := t.locals + 1 })

/-- What a call that was written down gives back. -/
def reply : (call : SinkCall Nat Nat) → Transcript → call.Reply × Transcript
  | .defineLabel, t => t.freshLabel
  | .beginExceptionBlock, t => t.freshLabel
  | .declareLocal _ _, t => t.freshLocal
  | .markLabel _, t | .emit _ _, t | .beginCatchBlock _, t | .beginExceptFilterBlock, t
  | .beginFinallyBlock, t | .beginFaultBlock, t | .endExceptionBlock, t | .beginScope, t
  | .endScope, t => ((), t)

/-- Takes a call. A refused call only counts. -/
def perform (call : SinkCall Nat Nat) (t : Transcript) : Except Error call.Reply × Transcript :=
  let number := t.calls + 1
  let text := line call
  let t := { t with calls := number }
  if t.refused.contains number then
    (.error (.failure ("refused call " ++ toString number ++ ": " ++ text)), t)
  else
    let (made, t) := reply call { t with log := t.log.push text }
    (.ok made, t)

instance : Sink Transcript Nat Nat where
  perform := Transcript.perform

end Transcript

end CilAssembler
