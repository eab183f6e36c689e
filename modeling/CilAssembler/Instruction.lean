import CilAssembler.Sizing

/-! # Instructions

What a recorded line holds: an operation with its operand, or a marker. Markers record the
allocation of labels and locals, the places of labels, and the borders of regions; they take no
room in the code. -/

namespace CilAssembler

/-- An opcode with an operand that fits it, and the size of both together. -/
structure Op where
  code : Opcode
  operand : Operand Label Local
  size : Nat
  fits : operand.fits code.kind = true
  size_eq : instructionSize code operand = .ok size

namespace Op

/-- Joins an opcode and an operand if the operand fits. -/
def make (code : Opcode) (operand : Operand Label Local) : Except Error Op :=
  if fits : operand.fits code.kind = true then
    match size_eq : instructionSize code operand with
    | .ok size => .ok ⟨code, operand, size, fits, size_eq⟩
    | .error e => .error e
  else
    .error (.operandMismatch code code.kind operand.describe)

instance : BEq Op where
  beq a b := a.code == b.code && a.operand == b.operand && a.size == b.size

end Op

/-- A line of a recorded stream. -/
inductive Instruction where
  | op (o : Op)
  | defineLabel (label : Label)
  | markLabel (label : Label)
  | declareLocal (v : Local)
  | beginExceptionBlock (exit : Label)
  | beginCatchBlock (type : Option Member)
  | beginExceptFilterBlock
  | beginFinallyBlock
  | beginFaultBlock
  | endExceptionBlock (exit : Label)
  | beginScope
  | endScope

namespace Instruction

/-- The number of bytes of code the instruction stands for. -/
def size : Instruction → Nat
  | .op o => o.size
  | _ => 0

/-- The operation, if the instruction is one. -/
def op? : Instruction → Option Op
  | .op o => some o
  | _ => none

/-- Whether the instruction is a marker. -/
def isMarker (i : Instruction) : Bool :=
  i.op?.isNone

/-- The label the instruction places, if it places one. -/
def placed? : Instruction → Option Label
  | .markLabel label | .endExceptionBlock label => some label
  | _ => none

/-- The mnemonic of an operation, or the name of a marker. -/
def name : Instruction → String
  | .op o => o.code.mnemonic
  | .defineLabel _ => "DefineLabel"
  | .markLabel _ => "MarkLabel"
  | .declareLocal _ => "DeclareLocal"
  | .beginExceptionBlock _ => "BeginExceptionBlock"
  | .beginCatchBlock _ => "BeginCatchBlock"
  | .beginExceptFilterBlock => "BeginExceptFilterBlock"
  | .beginFinallyBlock => "BeginFinallyBlock"
  | .beginFaultBlock => "BeginFaultBlock"
  | .endExceptionBlock _ => "EndExceptionBlock"
  | .beginScope => "BeginScope"
  | .endScope => "EndScope"

instance : BEq Instruction where
  beq
    | .op a, .op b => a == b
    | .defineLabel a, .defineLabel b => a == b
    | .markLabel a, .markLabel b => a == b
    | .declareLocal a, .declareLocal b => a == b
    | .beginExceptionBlock a, .beginExceptionBlock b => a == b
    | .beginCatchBlock a, .beginCatchBlock b => a == b
    | .beginExceptFilterBlock, .beginExceptFilterBlock => true
    | .beginFinallyBlock, .beginFinallyBlock => true
    | .beginFaultBlock, .beginFaultBlock => true
    | .endExceptionBlock a, .endExceptionBlock b => a == b
    | .beginScope, .beginScope => true
    | .endScope, .endScope => true
    | _, _ => false

end Instruction

end CilAssembler
