/-! # Operand kinds

What an opcode expects after its own bytes, and how many bytes that takes. -/

namespace CilAssembler

/-- The category of operand that an opcode takes. -/
inductive OperandKind where
  | none
  | int8
  | uint8
  | uint16
  | int32
  | int64
  | float32
  | float64
  | string
  | shortBranch
  | branch
  | switch
  | shortLocal
  | wideLocal
  | field
  | method
  | constructor
  | type
  | token
  deriving DecidableEq

namespace OperandKind

/-- Every kind, in the order of declaration. -/
def all : List OperandKind :=
  [.none, .int8, .uint8, .uint16, .int32, .int64, .float32, .float64, .string, .shortBranch,
    .branch, .switch, .shortLocal, .wideLocal, .field, .method, .constructor, .type, .token]

theorem mem_all (kind : OperandKind) : kind ∈ all := by
  cases kind <;> decide

/-- The kind in words. -/
protected def toString : OperandKind → String
  | .none => "no operand"
  | .int8 => "int8"
  | .uint8 => "uint8"
  | .uint16 => "uint16"
  | .int32 => "int32"
  | .int64 => "int64"
  | .float32 => "float32"
  | .float64 => "float64"
  | .string => "string"
  | .shortBranch => "short branch target"
  | .branch => "branch target"
  | .switch => "switch targets"
  | .shortLocal => "local (index <= 255)"
  | .wideLocal => "local"
  | .field => "field"
  | .method => "method"
  | .constructor => "constructor"
  | .type => "type"
  | .token => "member token"

instance : ToString OperandKind := ⟨OperandKind.toString⟩

/-- The number of bytes an operand of this kind takes. A jump table has no fixed size. -/
def fixedSize : OperandKind → Option Nat
  | .none => some 0
  | .int8 | .uint8 | .shortBranch | .shortLocal => some 1
  | .uint16 | .wideLocal => some 2
  | .int32 | .float32 | .string | .branch | .field | .method | .constructor | .type | .token =>
      some 4
  | .int64 | .float64 => some 8
  | .switch => Option.none

end OperandKind

end CilAssembler
