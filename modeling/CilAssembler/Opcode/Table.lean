import CilAssembler.Opcode.Basic

/-! # Opcode encodings

The mnemonic, the encoding and the operand kind of every opcode. An opcode is one byte, or the
lead byte `0xFE` and one more. -/

namespace CilAssembler

/-- How one opcode is spelled and encoded. A lead byte of zero is not written. -/
structure Encoding where
  mnemonic : String
  lead : UInt8
  code : UInt8
  kind : OperandKind

namespace Opcode

/-- The encoding of each opcode. -/
def encoding : Opcode → Encoding
  | .nop => ⟨"nop", 0x00, 0x00, .none⟩
  | .breakpoint => ⟨"break", 0x00, 0x01, .none⟩
  | .ldarg0 => ⟨"ldarg.0", 0x00, 0x02, .none⟩
  | .ldarg1 => ⟨"ldarg.1", 0x00, 0x03, .none⟩
  | .ldarg2 => ⟨"ldarg.2", 0x00, 0x04, .none⟩
  | .ldarg3 => ⟨"ldarg.3", 0x00, 0x05, .none⟩
  | .ldloc0 => ⟨"ldloc.0", 0x00, 0x06, .none⟩
  | .ldloc1 => ⟨"ldloc.1", 0x00, 0x07, .none⟩
  | .ldloc2 => ⟨"ldloc.2", 0x00, 0x08, .none⟩
  | .ldloc3 => ⟨"ldloc.3", 0x00, 0x09, .none⟩
  | .stloc0 => ⟨"stloc.0", 0x00, 0x0A, .none⟩
  | .stloc1 => ⟨"stloc.1", 0x00, 0x0B, .none⟩
  | .stloc2 => ⟨"stloc.2", 0x00, 0x0C, .none⟩
  | .stloc3 => ⟨"stloc.3", 0x00, 0x0D, .none⟩
  | .ldargS => ⟨"ldarg.s", 0x00, 0x0E, .uint8⟩
  | .ldargaS => ⟨"ldarga.s", 0x00, 0x0F, .uint8⟩
  | .stargS => ⟨"starg.s", 0x00, 0x10, .uint8⟩
  | .ldlocS => ⟨"ldloc.s", 0x00, 0x11, .shortLocal⟩
  | .ldlocaS => ⟨"ldloca.s", 0x00, 0x12, .shortLocal⟩
  | .stlocS => ⟨"stloc.s", 0x00, 0x13, .shortLocal⟩
  | .ldnull => ⟨"ldnull", 0x00, 0x14, .none⟩
  | .ldcI4M1 => ⟨"ldc.i4.m1", 0x00, 0x15, .none⟩
  | .ldcI40 => ⟨"ldc.i4.0", 0x00, 0x16, .none⟩
  | .ldcI41 => ⟨"ldc.i4.1", 0x00, 0x17, .none⟩
  | .ldcI42 => ⟨"ldc.i4.2", 0x00, 0x18, .none⟩
  | .ldcI43 => ⟨"ldc.i4.3", 0x00, 0x19, .none⟩
  | .ldcI44 => ⟨"ldc.i4.4", 0x00, 0x1A, .none⟩
  | .ldcI45 => ⟨"ldc.i4.5", 0x00, 0x1B, .none⟩
  | .ldcI46 => ⟨"ldc.i4.6", 0x00, 0x1C, .none⟩
  | .ldcI47 => ⟨"ldc.i4.7", 0x00, 0x1D, .none⟩
  | .ldcI48 => ⟨"ldc.i4.8", 0x00, 0x1E, .none⟩
  | .ldcI4S => ⟨"ldc.i4.s", 0x00, 0x1F, .int8⟩
  | .ldcI4 => ⟨"ldc.i4", 0x00, 0x20, .int32⟩
  | .ldcI8 => ⟨"ldc.i8", 0x00, 0x21, .int64⟩
  | .ldcR4 => ⟨"ldc.r4", 0x00, 0x22, .float32⟩
  | .ldcR8 => ⟨"ldc.r8", 0x00, 0x23, .float64⟩
  | .dup => ⟨"dup", 0x00, 0x25, .none⟩
  | .pop => ⟨"pop", 0x00, 0x26, .none⟩
  | .jmp => ⟨"jmp", 0x00, 0x27, .method⟩
  | .call => ⟨"call", 0x00, 0x28, .method⟩
  | .ret => ⟨"ret", 0x00, 0x2A, .none⟩
  | .brS => ⟨"br.s", 0x00, 0x2B, .shortBranch⟩
  | .brfalseS => ⟨"brfalse.s", 0x00, 0x2C, .shortBranch⟩
  | .brtrueS => ⟨"brtrue.s", 0x00, 0x2D, .shortBranch⟩
  | .beqS => ⟨"beq.s", 0x00, 0x2E, .shortBranch⟩
  | .bgeS => ⟨"bge.s", 0x00, 0x2F, .shortBranch⟩
  | .bgtS => ⟨"bgt.s", 0x00, 0x30, .shortBranch⟩
  | .bleS => ⟨"ble.s", 0x00, 0x31, .shortBranch⟩
  | .bltS => ⟨"blt.s", 0x00, 0x32, .shortBranch⟩
  | .bneUnS => ⟨"bne.un.s", 0x00, 0x33, .shortBranch⟩
  | .bgeUnS => ⟨"bge.un.s", 0x00, 0x34, .shortBranch⟩
  | .bgtUnS => ⟨"bgt.un.s", 0x00, 0x35, .shortBranch⟩
  | .bleUnS => ⟨"ble.un.s", 0x00, 0x36, .shortBranch⟩
  | .bltUnS => ⟨"blt.un.s", 0x00, 0x37, .shortBranch⟩
  | .br => ⟨"br", 0x00, 0x38, .branch⟩
  | .brfalse => ⟨"brfalse", 0x00, 0x39, .branch⟩
  | .brtrue => ⟨"brtrue", 0x00, 0x3A, .branch⟩
  | .beq => ⟨"beq", 0x00, 0x3B, .branch⟩
  | .bge => ⟨"bge", 0x00, 0x3C, .branch⟩
  | .bgt => ⟨"bgt", 0x00, 0x3D, .branch⟩
  | .ble => ⟨"ble", 0x00, 0x3E, .branch⟩
  | .blt => ⟨"blt", 0x00, 0x3F, .branch⟩
  | .bneUn => ⟨"bne.un", 0x00, 0x40, .branch⟩
  | .bgeUn => ⟨"bge.un", 0x00, 0x41, .branch⟩
  | .bgtUn => ⟨"bgt.un", 0x00, 0x42, .branch⟩
  | .bleUn => ⟨"ble.un", 0x00, 0x43, .branch⟩
  | .bltUn => ⟨"blt.un", 0x00, 0x44, .branch⟩
  | .switch => ⟨"switch", 0x00, 0x45, .switch⟩
  | .ldindI1 => ⟨"ldind.i1", 0x00, 0x46, .none⟩
  | .ldindU1 => ⟨"ldind.u1", 0x00, 0x47, .none⟩
  | .ldindI2 => ⟨"ldind.i2", 0x00, 0x48, .none⟩
  | .ldindU2 => ⟨"ldind.u2", 0x00, 0x49, .none⟩
  | .ldindI4 => ⟨"ldind.i4", 0x00, 0x4A, .none⟩
  | .ldindU4 => ⟨"ldind.u4", 0x00, 0x4B, .none⟩
  | .ldindI8 => ⟨"ldind.i8", 0x00, 0x4C, .none⟩
  | .ldindI => ⟨"ldind.i", 0x00, 0x4D, .none⟩
  | .ldindR4 => ⟨"ldind.r4", 0x00, 0x4E, .none⟩
  | .ldindR8 => ⟨"ldind.r8", 0x00, 0x4F, .none⟩
  | .ldindRef => ⟨"ldind.ref", 0x00, 0x50, .none⟩
  | .stindRef => ⟨"stind.ref", 0x00, 0x51, .none⟩
  | .stindI1 => ⟨"stind.i1", 0x00, 0x52, .none⟩
  | .stindI2 => ⟨"stind.i2", 0x00, 0x53, .none⟩
  | .stindI4 => ⟨"stind.i4", 0x00, 0x54, .none⟩
  | .stindI8 => ⟨"stind.i8", 0x00, 0x55, .none⟩
  | .stindR4 => ⟨"stind.r4", 0x00, 0x56, .none⟩
  | .stindR8 => ⟨"stind.r8", 0x00, 0x57, .none⟩
  | .add => ⟨"add", 0x00, 0x58, .none⟩
  | .sub => ⟨"sub", 0x00, 0x59, .none⟩
  | .mul => ⟨"mul", 0x00, 0x5A, .none⟩
  | .div => ⟨"div", 0x00, 0x5B, .none⟩
  | .divUn => ⟨"div.un", 0x00, 0x5C, .none⟩
  | .rem => ⟨"rem", 0x00, 0x5D, .none⟩
  | .remUn => ⟨"rem.un", 0x00, 0x5E, .none⟩
  | .and => ⟨"and", 0x00, 0x5F, .none⟩
  | .or => ⟨"or", 0x00, 0x60, .none⟩
  | .xor => ⟨"xor", 0x00, 0x61, .none⟩
  | .shl => ⟨"shl", 0x00, 0x62, .none⟩
  | .shr => ⟨"shr", 0x00, 0x63, .none⟩
  | .shrUn => ⟨"shr.un", 0x00, 0x64, .none⟩
  | .neg => ⟨"neg", 0x00, 0x65, .none⟩
  | .not => ⟨"not", 0x00, 0x66, .none⟩
  | .convI1 => ⟨"conv.i1", 0x00, 0x67, .none⟩
  | .convI2 => ⟨"conv.i2", 0x00, 0x68, .none⟩
  | .convI4 => ⟨"conv.i4", 0x00, 0x69, .none⟩
  | .convI8 => ⟨"conv.i8", 0x00, 0x6A, .none⟩
  | .convR4 => ⟨"conv.r4", 0x00, 0x6B, .none⟩
  | .convR8 => ⟨"conv.r8", 0x00, 0x6C, .none⟩
  | .convU4 => ⟨"conv.u4", 0x00, 0x6D, .none⟩
  | .convU8 => ⟨"conv.u8", 0x00, 0x6E, .none⟩
  | .callvirt => ⟨"callvirt", 0x00, 0x6F, .method⟩
  | .cpobj => ⟨"cpobj", 0x00, 0x70, .type⟩
  | .ldobj => ⟨"ldobj", 0x00, 0x71, .type⟩
  | .ldstr => ⟨"ldstr", 0x00, 0x72, .string⟩
  | .newobj => ⟨"newobj", 0x00, 0x73, .constructor⟩
  | .castclass => ⟨"castclass", 0x00, 0x74, .type⟩
  | .isinst => ⟨"isinst", 0x00, 0x75, .type⟩
  | .convRUn => ⟨"conv.r.un", 0x00, 0x76, .none⟩
  | .unbox => ⟨"unbox", 0x00, 0x79, .type⟩
  | .throw => ⟨"throw", 0x00, 0x7A, .none⟩
  | .ldfld => ⟨"ldfld", 0x00, 0x7B, .field⟩
  | .ldflda => ⟨"ldflda", 0x00, 0x7C, .field⟩
  | .stfld => ⟨"stfld", 0x00, 0x7D, .field⟩
  | .ldsfld => ⟨"ldsfld", 0x00, 0x7E, .field⟩
  | .ldsflda => ⟨"ldsflda", 0x00, 0x7F, .field⟩
  | .stsfld => ⟨"stsfld", 0x00, 0x80, .field⟩
  | .stobj => ⟨"stobj", 0x00, 0x81, .type⟩
  | .convOvfI1Un => ⟨"conv.ovf.i1.un", 0x00, 0x82, .none⟩
  | .convOvfI2Un => ⟨"conv.ovf.i2.un", 0x00, 0x83, .none⟩
  | .convOvfI4Un => ⟨"conv.ovf.i4.un", 0x00, 0x84, .none⟩
  | .convOvfI8Un => ⟨"conv.ovf.i8.un", 0x00, 0x85, .none⟩
  | .convOvfU1Un => ⟨"conv.ovf.u1.un", 0x00, 0x86, .none⟩
  | .convOvfU2Un => ⟨"conv.ovf.u2.un", 0x00, 0x87, .none⟩
  | .convOvfU4Un => ⟨"conv.ovf.u4.un", 0x00, 0x88, .none⟩
  | .convOvfU8Un => ⟨"conv.ovf.u8.un", 0x00, 0x89, .none⟩
  | .convOvfIUn => ⟨"conv.ovf.i.un", 0x00, 0x8A, .none⟩
  | .convOvfUUn => ⟨"conv.ovf.u.un", 0x00, 0x8B, .none⟩
  | .box => ⟨"box", 0x00, 0x8C, .type⟩
  | .newarr => ⟨"newarr", 0x00, 0x8D, .type⟩
  | .ldlen => ⟨"ldlen", 0x00, 0x8E, .none⟩
  | .ldelema => ⟨"ldelema", 0x00, 0x8F, .type⟩
  | .ldelemI1 => ⟨"ldelem.i1", 0x00, 0x90, .none⟩
  | .ldelemU1 => ⟨"ldelem.u1", 0x00, 0x91, .none⟩
  | .ldelemI2 => ⟨"ldelem.i2", 0x00, 0x92, .none⟩
  | .ldelemU2 => ⟨"ldelem.u2", 0x00, 0x93, .none⟩
  | .ldelemI4 => ⟨"ldelem.i4", 0x00, 0x94, .none⟩
  | .ldelemU4 => ⟨"ldelem.u4", 0x00, 0x95, .none⟩
  | .ldelemI8 => ⟨"ldelem.i8", 0x00, 0x96, .none⟩
  | .ldelemI => ⟨"ldelem.i", 0x00, 0x97, .none⟩
  | .ldelemR4 => ⟨"ldelem.r4", 0x00, 0x98, .none⟩
  | .ldelemR8 => ⟨"ldelem.r8", 0x00, 0x99, .none⟩
  | .ldelemRef => ⟨"ldelem.ref", 0x00, 0x9A, .none⟩
  | .stelemI => ⟨"stelem.i", 0x00, 0x9B, .none⟩
  | .stelemI1 => ⟨"stelem.i1", 0x00, 0x9C, .none⟩
  | .stelemI2 => ⟨"stelem.i2", 0x00, 0x9D, .none⟩
  | .stelemI4 => ⟨"stelem.i4", 0x00, 0x9E, .none⟩
  | .stelemI8 => ⟨"stelem.i8", 0x00, 0x9F, .none⟩
  | .stelemR4 => ⟨"stelem.r4", 0x00, 0xA0, .none⟩
  | .stelemR8 => ⟨"stelem.r8", 0x00, 0xA1, .none⟩
  | .stelemRef => ⟨"stelem.ref", 0x00, 0xA2, .none⟩
  | .ldelem => ⟨"ldelem", 0x00, 0xA3, .type⟩
  | .stelem => ⟨"stelem", 0x00, 0xA4, .type⟩
  | .unboxAny => ⟨"unbox.any", 0x00, 0xA5, .type⟩
  | .convOvfI1 => ⟨"conv.ovf.i1", 0x00, 0xB3, .none⟩
  | .convOvfU1 => ⟨"conv.ovf.u1", 0x00, 0xB4, .none⟩
  | .convOvfI2 => ⟨"conv.ovf.i2", 0x00, 0xB5, .none⟩
  | .convOvfU2 => ⟨"conv.ovf.u2", 0x00, 0xB6, .none⟩
  | .convOvfI4 => ⟨"conv.ovf.i4", 0x00, 0xB7, .none⟩
  | .convOvfU4 => ⟨"conv.ovf.u4", 0x00, 0xB8, .none⟩
  | .convOvfI8 => ⟨"conv.ovf.i8", 0x00, 0xB9, .none⟩
  | .convOvfU8 => ⟨"conv.ovf.u8", 0x00, 0xBA, .none⟩
  | .refanyval => ⟨"refanyval", 0x00, 0xC2, .type⟩
  | .ckfinite => ⟨"ckfinite", 0x00, 0xC3, .none⟩
  | .mkrefany => ⟨"mkrefany", 0x00, 0xC6, .type⟩
  | .ldtoken => ⟨"ldtoken", 0x00, 0xD0, .token⟩
  | .convU2 => ⟨"conv.u2", 0x00, 0xD1, .none⟩
  | .convU1 => ⟨"conv.u1", 0x00, 0xD2, .none⟩
  | .convI => ⟨"conv.i", 0x00, 0xD3, .none⟩
  | .convOvfI => ⟨"conv.ovf.i", 0x00, 0xD4, .none⟩
  | .convOvfU => ⟨"conv.ovf.u", 0x00, 0xD5, .none⟩
  | .addOvf => ⟨"add.ovf", 0x00, 0xD6, .none⟩
  | .addOvfUn => ⟨"add.ovf.un", 0x00, 0xD7, .none⟩
  | .mulOvf => ⟨"mul.ovf", 0x00, 0xD8, .none⟩
  | .mulOvfUn => ⟨"mul.ovf.un", 0x00, 0xD9, .none⟩
  | .subOvf => ⟨"sub.ovf", 0x00, 0xDA, .none⟩
  | .subOvfUn => ⟨"sub.ovf.un", 0x00, 0xDB, .none⟩
  | .endfinally => ⟨"endfinally", 0x00, 0xDC, .none⟩
  | .leave => ⟨"leave", 0x00, 0xDD, .branch⟩
  | .leaveS => ⟨"leave.s", 0x00, 0xDE, .shortBranch⟩
  | .stindI => ⟨"stind.i", 0x00, 0xDF, .none⟩
  | .convU => ⟨"conv.u", 0x00, 0xE0, .none⟩
  | .arglist => ⟨"arglist", 0xFE, 0x00, .none⟩
  | .ceq => ⟨"ceq", 0xFE, 0x01, .none⟩
  | .cgt => ⟨"cgt", 0xFE, 0x02, .none⟩
  | .cgtUn => ⟨"cgt.un", 0xFE, 0x03, .none⟩
  | .clt => ⟨"clt", 0xFE, 0x04, .none⟩
  | .cltUn => ⟨"clt.un", 0xFE, 0x05, .none⟩
  | .ldftn => ⟨"ldftn", 0xFE, 0x06, .method⟩
  | .ldvirtftn => ⟨"ldvirtftn", 0xFE, 0x07, .method⟩
  | .ldarg => ⟨"ldarg", 0xFE, 0x09, .uint16⟩
  | .ldarga => ⟨"ldarga", 0xFE, 0x0A, .uint16⟩
  | .starg => ⟨"starg", 0xFE, 0x0B, .uint16⟩
  | .ldloc => ⟨"ldloc", 0xFE, 0x0C, .wideLocal⟩
  | .ldloca => ⟨"ldloca", 0xFE, 0x0D, .wideLocal⟩
  | .stloc => ⟨"stloc", 0xFE, 0x0E, .wideLocal⟩
  | .localloc => ⟨"localloc", 0xFE, 0x0F, .none⟩
  | .endfilter => ⟨"endfilter", 0xFE, 0x11, .none⟩
  | .unaligned => ⟨"unaligned.", 0xFE, 0x12, .uint8⟩
  | .volatile => ⟨"volatile.", 0xFE, 0x13, .none⟩
  | .tail => ⟨"tail.", 0xFE, 0x14, .none⟩
  | .initobj => ⟨"initobj", 0xFE, 0x15, .type⟩
  | .constrained => ⟨"constrained.", 0xFE, 0x16, .type⟩
  | .cpblk => ⟨"cpblk", 0xFE, 0x17, .none⟩
  | .initblk => ⟨"initblk", 0xFE, 0x18, .none⟩
  | .rethrow => ⟨"rethrow", 0xFE, 0x1A, .none⟩
  | .sizeof => ⟨"sizeof", 0xFE, 0x1C, .type⟩
  | .refanytype => ⟨"refanytype", 0xFE, 0x1D, .none⟩
  | .readonly => ⟨"readonly.", 0xFE, 0x1E, .none⟩

/-- The mnemonic, such as `ldc.i4.s`. -/
def mnemonic (op : Opcode) : String :=
  op.encoding.mnemonic

/-- The lead byte, zero for opcodes of one byte. -/
def lead (op : Opcode) : UInt8 :=
  op.encoding.lead

/-- The byte after the lead byte, if there is one. -/
def code (op : Opcode) : UInt8 :=
  op.encoding.code

/-- The kind of operand that follows. -/
def kind (op : Opcode) : OperandKind :=
  op.encoding.kind

/-- The bytes of the opcode itself. -/
def bytes (op : Opcode) : List UInt8 :=
  if op.lead = 0 then [op.code] else [op.lead, op.code]

/-- The number of bytes of the opcode itself. -/
def length (op : Opcode) : Nat :=
  if op.lead = 0 then 1 else 2

@[simp]
theorem length_bytes (op : Opcode) : op.bytes.length = op.length := by
  unfold bytes length
  split <;> rfl

/-- Whether the opcode takes a single branch target. -/
def isBranch (op : Opcode) : Bool :=
  op.kind == .shortBranch || op.kind == .branch

/-- Whether control never passes to the next instruction, branches aside. -/
def terminates : Opcode → Bool
  | .ret | .throw | .rethrow | .endfinally | .endfilter | .jmp => true
  | _ => false

instance : ToString Opcode := ⟨mnemonic⟩

/-- The opcode with the given mnemonic. -/
def ofMnemonic? (text : String) : Option Opcode :=
  all.find? (fun op => op.mnemonic == text)

end Opcode

end CilAssembler
