import CilAssembler.OperandKind

/-! # Opcodes

The instructions of the common intermediate language. Indirect calls are left out: their operand is
a stand-alone signature, which is no member. -/

namespace CilAssembler

/-- An operation of a method body. -/
inductive Opcode where
  -- Placeholders
  | nop
  | breakpoint
  -- Arguments and locals of small index
  | ldarg0
  | ldarg1
  | ldarg2
  | ldarg3
  | ldloc0
  | ldloc1
  | ldloc2
  | ldloc3
  | stloc0
  | stloc1
  | stloc2
  | stloc3
  -- Arguments and locals, short form
  | ldargS
  | ldargaS
  | stargS
  | ldlocS
  | ldlocaS
  | stlocS
  -- Constants
  | ldnull
  | ldcI4M1
  | ldcI40
  | ldcI41
  | ldcI42
  | ldcI43
  | ldcI44
  | ldcI45
  | ldcI46
  | ldcI47
  | ldcI48
  | ldcI4S
  | ldcI4
  | ldcI8
  | ldcR4
  | ldcR8
  -- The evaluation stack
  | dup
  | pop
  -- Calls and returns
  | jmp
  | call
  | ret
  -- Branches, short form
  | brS
  | brfalseS
  | brtrueS
  | beqS
  | bgeS
  | bgtS
  | bleS
  | bltS
  | bneUnS
  | bgeUnS
  | bgtUnS
  | bleUnS
  | bltUnS
  -- Branches, long form
  | br
  | brfalse
  | brtrue
  | beq
  | bge
  | bgt
  | ble
  | blt
  | bneUn
  | bgeUn
  | bgtUn
  | bleUn
  | bltUn
  | switch
  -- Loads through a pointer
  | ldindI1
  | ldindU1
  | ldindI2
  | ldindU2
  | ldindI4
  | ldindU4
  | ldindI8
  | ldindI
  | ldindR4
  | ldindR8
  | ldindRef
  -- Stores through a pointer
  | stindRef
  | stindI1
  | stindI2
  | stindI4
  | stindI8
  | stindR4
  | stindR8
  -- Arithmetic
  | add
  | sub
  | mul
  | div
  | divUn
  | rem
  | remUn
  -- Bitwise operations
  | and
  | or
  | xor
  | shl
  | shr
  | shrUn
  | neg
  | not
  -- Conversions
  | convI1
  | convI2
  | convI4
  | convI8
  | convR4
  | convR8
  | convU4
  | convU8
  -- Objects
  | callvirt
  | cpobj
  | ldobj
  | ldstr
  | newobj
  | castclass
  | isinst
  | convRUn
  | unbox
  | throw
  -- Fields
  | ldfld
  | ldflda
  | stfld
  | ldsfld
  | ldsflda
  | stsfld
  | stobj
  -- Checked conversions from unsigned values
  | convOvfI1Un
  | convOvfI2Un
  | convOvfI4Un
  | convOvfI8Un
  | convOvfU1Un
  | convOvfU2Un
  | convOvfU4Un
  | convOvfU8Un
  | convOvfIUn
  | convOvfUUn
  -- Boxes and arrays
  | box
  | newarr
  | ldlen
  | ldelema
  | ldelemI1
  | ldelemU1
  | ldelemI2
  | ldelemU2
  | ldelemI4
  | ldelemU4
  | ldelemI8
  | ldelemI
  | ldelemR4
  | ldelemR8
  | ldelemRef
  | stelemI
  | stelemI1
  | stelemI2
  | stelemI4
  | stelemI8
  | stelemR4
  | stelemR8
  | stelemRef
  | ldelem
  | stelem
  | unboxAny
  -- Checked conversions from signed values
  | convOvfI1
  | convOvfU1
  | convOvfI2
  | convOvfU2
  | convOvfI4
  | convOvfU4
  | convOvfI8
  | convOvfU8
  -- Typed references
  | refanyval
  | ckfinite
  | mkrefany
  -- Tokens and further conversions
  | ldtoken
  | convU2
  | convU1
  | convI
  | convOvfI
  | convOvfU
  -- Checked arithmetic
  | addOvf
  | addOvfUn
  | mulOvf
  | mulOvfUn
  | subOvf
  | subOvfUn
  -- Leaving protected blocks
  | endfinally
  | leave
  | leaveS
  | stindI
  | convU
  -- Opcodes of two bytes
  | arglist
  | ceq
  | cgt
  | cgtUn
  | clt
  | cltUn
  | ldftn
  | ldvirtftn
  | ldarg
  | ldarga
  | starg
  | ldloc
  | ldloca
  | stloc
  | localloc
  | endfilter
  | unaligned
  | volatile
  | tail
  | initobj
  | constrained
  | cpblk
  | initblk
  | rethrow
  | sizeof
  | refanytype
  | readonly
  deriving DecidableEq

namespace Opcode

/-- The order of declaration. -/
instance : Ord Opcode where
  compare a b := compare a.ctorIdx b.ctorIdx

/-- Every opcode, in the order of declaration. -/
def all : List Opcode :=
  [.nop, .breakpoint, .ldarg0, .ldarg1, .ldarg2, .ldarg3, .ldloc0, .ldloc1, .ldloc2, .ldloc3,
    .stloc0, .stloc1, .stloc2, .stloc3, .ldargS, .ldargaS, .stargS, .ldlocS, .ldlocaS, .stlocS,
    .ldnull, .ldcI4M1, .ldcI40, .ldcI41, .ldcI42, .ldcI43, .ldcI44, .ldcI45, .ldcI46, .ldcI47,
    .ldcI48, .ldcI4S, .ldcI4, .ldcI8, .ldcR4, .ldcR8, .dup, .pop, .jmp, .call, .ret, .brS,
    .brfalseS, .brtrueS, .beqS, .bgeS, .bgtS, .bleS, .bltS, .bneUnS, .bgeUnS, .bgtUnS, .bleUnS,
    .bltUnS, .br, .brfalse, .brtrue, .beq, .bge, .bgt, .ble, .blt, .bneUn, .bgeUn, .bgtUn, .bleUn,
    .bltUn, .switch, .ldindI1, .ldindU1, .ldindI2, .ldindU2, .ldindI4, .ldindU4, .ldindI8,
    .ldindI, .ldindR4, .ldindR8, .ldindRef, .stindRef, .stindI1, .stindI2, .stindI4, .stindI8,
    .stindR4, .stindR8, .add, .sub, .mul, .div, .divUn, .rem, .remUn, .and, .or, .xor, .shl, .shr,
    .shrUn, .neg, .not, .convI1, .convI2, .convI4, .convI8, .convR4, .convR8, .convU4, .convU8,
    .callvirt, .cpobj, .ldobj, .ldstr, .newobj, .castclass, .isinst, .convRUn, .unbox, .throw,
    .ldfld, .ldflda, .stfld, .ldsfld, .ldsflda, .stsfld, .stobj, .convOvfI1Un, .convOvfI2Un,
    .convOvfI4Un, .convOvfI8Un, .convOvfU1Un, .convOvfU2Un, .convOvfU4Un, .convOvfU8Un,
    .convOvfIUn, .convOvfUUn, .box, .newarr, .ldlen, .ldelema, .ldelemI1, .ldelemU1, .ldelemI2,
    .ldelemU2, .ldelemI4, .ldelemU4, .ldelemI8, .ldelemI, .ldelemR4, .ldelemR8, .ldelemRef,
    .stelemI, .stelemI1, .stelemI2, .stelemI4, .stelemI8, .stelemR4, .stelemR8, .stelemRef,
    .ldelem, .stelem, .unboxAny, .convOvfI1, .convOvfU1, .convOvfI2, .convOvfU2, .convOvfI4,
    .convOvfU4, .convOvfI8, .convOvfU8, .refanyval, .ckfinite, .mkrefany, .ldtoken, .convU2,
    .convU1, .convI, .convOvfI, .convOvfU, .addOvf, .addOvfUn, .mulOvf, .mulOvfUn, .subOvf,
    .subOvfUn, .endfinally, .leave, .leaveS, .stindI, .convU, .arglist, .ceq, .cgt, .cgtUn, .clt,
    .cltUn, .ldftn, .ldvirtftn, .ldarg, .ldarga, .starg, .ldloc, .ldloca, .stloc, .localloc,
    .endfilter, .unaligned, .volatile, .tail, .initobj, .constrained, .cpblk, .initblk, .rethrow,
    .sizeof, .refanytype, .readonly]

end Opcode

end CilAssembler
