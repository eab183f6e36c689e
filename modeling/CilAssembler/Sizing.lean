import CilAssembler.Error
import CilAssembler.Operand

/-! # Sizes

The number of bytes that an instruction takes. Every offset of a method body fits 32 bits. -/

namespace CilAssembler

/-- The largest offset into a method body. -/
def offsetLimit : Nat := 0xFFFFFFFF

/-- The size of a jump table: the number of targets and one slot for each. -/
def switchTableSize (targets : Nat) : Except Error Nat :=
  if (targets + 1) * 4 ≤ offsetLimit then
    .ok ((targets + 1) * 4)
  else
    .error (.malformed (.tooManySwitchTargets targets))

/-- The size of the operand of an instruction. -/
def operandSize {Λ V : Type} (op : Opcode) (x : Operand Λ V) : Except Error Nat :=
  match op.kind, x with
  | .switch, .labels targets => switchTableSize targets.length
  | kind, _ =>
      match kind.fixedSize with
      | some size => .ok size
      | none => .error (.sizeTableGap op)

/-- The size of an instruction, opcode and operand together. -/
def instructionSize {Λ V : Type} (op : Opcode) (x : Operand Λ V) : Except Error Nat :=
  (operandSize op x).map (op.length + ·)

end CilAssembler
