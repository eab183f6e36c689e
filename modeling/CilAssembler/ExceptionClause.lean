import CilAssembler.Bytes
import CilAssembler.Token

/-! # Exception clauses

The clauses of a method body's exception table, and the section that holds them. A section has a
small layout for short tables of short blocks, and a fat one for all others. -/

namespace CilAssembler

/-- The kinds of handlers as they are written in a clause. Other bits are kept as they are. -/
def ExceptionClause.filterFlag : UInt16 := 0x0001
@[inherit_doc ExceptionClause.filterFlag]
def ExceptionClause.finallyFlag : UInt16 := 0x0002
@[inherit_doc ExceptionClause.filterFlag]
def ExceptionClause.faultFlag : UInt16 := 0x0004

/-- A protected block and its handler. -/
structure ExceptionClause where
  flags : UInt16
  tryOffset : UInt32
  tryLength : UInt32
  handlerOffset : UInt32
  handlerLength : UInt32
  classToken : Option Token
  filterOffset : Option UInt32
  deriving DecidableEq

namespace ExceptionClause

/-- Whether the handler has a filter. -/
def isFilter (c : ExceptionClause) : Bool :=
  c.flags &&& filterFlag != 0

/-- Whether the small layout has room for the clause. -/
def isSmall (c : ExceptionClause) : Bool :=
  c.tryOffset ≤ 0xFFFF && c.tryLength ≤ 0xFF && c.handlerOffset ≤ 0xFFFF && c.handlerLength ≤ 0xFF

/-- The last field of a clause: where the filter is, or which class is caught. -/
def classOrFilter (c : ExceptionClause) : UInt32 :=
  if c.isFilter then c.filterOffset.getD 0
  else match c.classToken with
    | some token => token.value
    | none => 0

/-- The offset after the handler, or the largest offset if that is beyond it. -/
def handlerEnd (c : ExceptionClause) : Nat :=
  min (c.handlerOffset.toNat + c.handlerLength.toNat) 0xFFFFFFFF

/-- The clause in the small layout. -/
def smallBytes (c : ExceptionClause) : List UInt8 :=
  littleEndian 2 c.flags.toNat ++ littleEndian 2 c.tryOffset.toNat ++
    littleEndian 1 c.tryLength.toNat ++ littleEndian 2 c.handlerOffset.toNat ++
    littleEndian 1 c.handlerLength.toNat ++ littleEndian 4 c.classOrFilter.toNat

/-- The clause in the fat layout. -/
def fatBytes (c : ExceptionClause) : List UInt8 :=
  littleEndian 4 c.flags.toNat ++ littleEndian 4 c.tryOffset.toNat ++
    littleEndian 4 c.tryLength.toNat ++ littleEndian 4 c.handlerOffset.toNat ++
    littleEndian 4 c.handlerLength.toNat ++ littleEndian 4 c.classOrFilter.toNat

end ExceptionClause

/-- The size of a section of `count` clauses in the small layout. -/
def smallSectionSize (count : Nat) : Nat :=
  count * 12 + 4

/-- The size of a section of `count` clauses in the fat layout. -/
def fatSectionSize (count : Nat) : Nat :=
  count * 24 + 4

/-- The section that holds some clauses. There is none without clauses. -/
def exceptionSection (clauses : List ExceptionClause) : List UInt8 :=
  if clauses.isEmpty then []
  else if smallSectionSize clauses.length ≤ 0xFF && clauses.all (·.isSmall) then
    0x01 :: littleEndian 1 (smallSectionSize clauses.length) ++ [0, 0] ++
      clauses.flatMap (·.smallBytes)
  else
    0x41 :: littleEndian 3 (fatSectionSize clauses.length) ++ clauses.flatMap (·.fatBytes)

end CilAssembler
