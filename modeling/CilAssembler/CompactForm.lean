import CilAssembler.Call

/-! # Compact forms

Families of opcodes have short members for common operands. Each function here picks the shortest
member that stands for its argument. -/

namespace CilAssembler.Call

/-- Loads a constant. -/
def loadInt32 (value : Int32) : Call :=
  match value.toInt with
  | -1 => .emit .ldcI4M1 .none
  | 0 => .emit .ldcI40 .none
  | 1 => .emit .ldcI41 .none
  | 2 => .emit .ldcI42 .none
  | 3 => .emit .ldcI43 .none
  | 4 => .emit .ldcI44 .none
  | 5 => .emit .ldcI45 .none
  | 6 => .emit .ldcI46 .none
  | 7 => .emit .ldcI47 .none
  | 8 => .emit .ldcI48 .none
  | n =>
      if -128 ≤ n ∧ n ≤ 127 then .emit .ldcI4S (.int8 value.toInt8)
      else .emit .ldcI4 (.int32 value)

/-- Loads an argument. -/
def loadArgument (index : UInt16) : Call :=
  match index.toNat with
  | 0 => .emit .ldarg0 .none
  | 1 => .emit .ldarg1 .none
  | 2 => .emit .ldarg2 .none
  | 3 => .emit .ldarg3 .none
  | n =>
      if n ≤ 0xFF then .emit .ldargS (.uint8 index.toUInt8)
      else .emit .ldarg (.uint16 index)

/-- Stores to an argument. -/
def storeArgument (index : UInt16) : Call :=
  if index.toNat ≤ 0xFF then .emit .stargS (.uint8 index.toUInt8)
  else .emit .starg (.uint16 index)

/-- Loads a local. -/
def loadLocal (v : Local) : Call :=
  .emit (if v.index ≤ 0xFF then .ldlocS else .ldloc) (.localVar v)

/-- Stores to a local. -/
def storeLocal (v : Local) : Call :=
  .emit (if v.index ≤ 0xFF then .stlocS else .stloc) (.localVar v)

/-- Loads the address of a local. -/
def loadLocalAddress (v : Local) : Call :=
  .emit (if v.index ≤ 0xFF then .ldlocaS else .ldloca) (.localVar v)

/-- Returns from the method. -/
def ret : Call :=
  .emit .ret .none

end CilAssembler.Call
