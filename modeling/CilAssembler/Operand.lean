import CilAssembler.Ieee.Format
import CilAssembler.OperandKind
import CilAssembler.Symbol

/-! # Operands

What stands after an opcode. Operands are generic in how they refer to labels and locals, since
an assembler and a code sink name the same things by different handles. -/

namespace CilAssembler

/-- An operand over labels `Λ` and locals `V`. Floating-point numbers are kept as their bits. -/
inductive Operand (Λ V : Type) where
  | none
  | int8 (value : Int8)
  | uint8 (value : UInt8)
  | uint16 (value : UInt16)
  | int32 (value : Int32)
  | int64 (value : Int64)
  | float32 (bits : UInt32)
  | float64 (bits : UInt64)
  | string (text : String)
  | label (target : Λ)
  | labels (targets : List Λ)
  | localVar (v : V)
  | field (member : Member)
  | constructor (member : Member)
  | method (member : Member)
  | type (member : Member)

namespace Operand

/-- The category of the operand in words. -/
def category {Λ V : Type} : Operand Λ V → String
  | .none => "no operand"
  | .int8 _ => "int8"
  | .uint8 _ => "uint8"
  | .uint16 _ => "uint16"
  | .int32 _ => "int32"
  | .int64 _ => "int64"
  | .float32 _ => "float32"
  | .float64 _ => "float64"
  | .string _ => "string"
  | .label _ => "label"
  | .labels _ => "labels"
  | .localVar _ => "local"
  | .field _ => "field"
  | .constructor _ => "constructor"
  | .method _ => "method"
  | .type _ => "type"

/-- The category, with the number of targets or the index of the local. -/
def describe : Operand Label Local → String
  | .labels targets => toString targets.length ++ " labels"
  | .localVar v => "local " ++ toString v.index.toNat
  | x => x.category

/-- Whether the category of the operand is one the kind admits. A constructor is also a method,
and a member token may name any member. -/
def suits {Λ V : Type} : Operand Λ V → OperandKind → Bool
  | .none, .none => true
  | .int8 _, .int8 => true
  | .uint8 _, .uint8 => true
  | .uint16 _, .uint16 => true
  | .int32 _, .int32 => true
  | .int64 _, .int64 => true
  | .float32 _, .float32 => true
  | .float64 _, .float64 => true
  | .string _, .string => true
  | .label _, .shortBranch | .label _, .branch => true
  | .labels _, .switch => true
  | .localVar _, .shortLocal | .localVar _, .wideLocal => true
  | .field _, .field | .field _, .token => true
  | .constructor _, .constructor | .constructor _, .method | .constructor _, .token => true
  | .method _, .method | .method _, .token => true
  | .type _, .type | .type _, .token => true
  | _, _ => false

/-- Whether the index of a local can be written in the bytes the kind has for it. The largest
index of two bytes is reserved. -/
def indexFits : Operand Label Local → OperandKind → Bool
  | .localVar v, .shortLocal => v.index ≤ 0xFF
  | .localVar v, .wideLocal => v.index < 0xFFFF
  | _, _ => true

/-- Whether an opcode of the given kind takes the operand. -/
def fits (x : Operand Label Local) (kind : OperandKind) : Bool :=
  x.suits kind && x.indexFits kind

/-- The labels the operand refers to, in order. -/
def targets {Λ V : Type} : Operand Λ V → List Λ
  | .label target => [target]
  | .labels targets => targets
  | _ => []

/-- Replaces every label and local, first failure first. -/
def rename {Λ V Λ' V' ε : Type} (onLabel : Λ → Except ε Λ') (onLocal : V → Except ε V') :
    Operand Λ V → Except ε (Operand Λ' V')
  | .none => .ok .none
  | .int8 value => .ok (.int8 value)
  | .uint8 value => .ok (.uint8 value)
  | .uint16 value => .ok (.uint16 value)
  | .int32 value => .ok (.int32 value)
  | .int64 value => .ok (.int64 value)
  | .float32 bits => .ok (.float32 bits)
  | .float64 bits => .ok (.float64 bits)
  | .string text => .ok (.string text)
  | .label target => (onLabel target).map .label
  | .labels targets => (targets.mapM onLabel).map .labels
  | .localVar v => (onLocal v).map .localVar
  | .field member => .ok (.field member)
  | .constructor member => .ok (.constructor member)
  | .method member => .ok (.method member)
  | .type member => .ok (.type member)

/-- Operands are equal if they are of one category with equal contents, floating-point numbers
being compared as numbers. -/
instance {Λ V : Type} [BEq Λ] [BEq V] : BEq (Operand Λ V) where
  beq
    | .none, .none => true
    | .int8 a, .int8 b => a == b
    | .uint8 a, .uint8 b => a == b
    | .uint16 a, .uint16 b => a == b
    | .int32 a, .int32 b => a == b
    | .int64 a, .int64 b => a == b
    | .float32 a, .float32 b => Ieee.binary32.sameNumber a.toNat b.toNat
    | .float64 a, .float64 b => Ieee.binary64.sameNumber a.toNat b.toNat
    | .string a, .string b => a == b
    | .label a, .label b => a == b
    | .labels a, .labels b => a == b
    | .localVar a, .localVar b => a == b
    | .field a, .field b => a == b
    | .constructor a, .constructor b => a == b
    | .method a, .method b => a == b
    | .type a, .type b => a == b
    | _, _ => false

end Operand

end CilAssembler
