import CilAssembler.CompactForm
import CilAssembler.Proofs.Capacity
import CilAssembler.Proofs.OffsetLookup

/-! # Compact forms are exact and shortest

Members of a family of opcodes do the same with a number and differ in how they spell it. A compact
call adds the shortest member that stands for its argument, whatever was recorded before. -/

namespace CilAssembler

/-! ## Families of opcodes -/

/-- The number that an operand spells. Numbers of a signed type are sign-extended. -/
def Operand.number? {Λ V : Type} : Operand Λ V → Option Int
  | .int8 value => some value.toInt
  | .uint8 value => some value.toNat
  | .uint16 value => some value.toNat
  | .int32 value => some value.toInt
  | _ => Option.none

/-- Opcodes that do the same with a number. Some stand for a number by themselves, and two are followed
by it. -/
structure OpcodeFamily where
  fixed : List (Opcode × Int)
  short : Opcode
  wide : Opcode

namespace OpcodeFamily

/-- Loads of a constant. -/
def constants : OpcodeFamily where
  fixed := [(.ldcI4M1, -1), (.ldcI40, 0), (.ldcI41, 1), (.ldcI42, 2), (.ldcI43, 3), (.ldcI44, 4),
    (.ldcI45, 5), (.ldcI46, 6), (.ldcI47, 7), (.ldcI48, 8)]
  short := .ldcI4S
  wide := .ldcI4

/-- Loads of an argument, by its index. -/
def argumentLoads : OpcodeFamily where
  fixed := [(.ldarg0, 0), (.ldarg1, 1), (.ldarg2, 2), (.ldarg3, 3)]
  short := .ldargS
  wide := .ldarg

/-- Stores to an argument, by its index. -/
def argumentStores : OpcodeFamily where
  fixed := []
  short := .stargS
  wide := .starg

/-- The operation is a member of the family and stands for the number. -/
inductive Denotes (family : OpcodeFamily) (number : Int) (o : Op) : Prop where
  | fixed (h : (o.code, number) ∈ family.fixed)
  | short (hcode : o.code = family.short) (hnumber : o.operand.number? = some number)
  | wide (hcode : o.code = family.wide) (hnumber : o.operand.number? = some number)

/-- The operation stands for the number, and no other member that does so is shorter. -/
structure Shortest (family : OpcodeFamily) (number : Int) (o : Op) : Prop where
  denotes : family.Denotes number o
  size_le : ∀ other, family.Denotes number other → o.size ≤ other.size

/-- No member stands for the number by itself. -/
def Unfixed (family : OpcodeFamily) (number : Int) : Prop :=
  ∀ entry ∈ family.fixed, number ≠ entry.2

/-- The sizes of the operands, with which the short member is not longer than the wide one. -/
structure Sized (family : OpcodeFamily) (short wide : Nat) : Prop where
  short_eq : family.short.kind.fixedSize = some short
  wide_eq : family.wide.kind.fixedSize = some wide
  le : family.short.length + short ≤ family.wide.length + wide

theorem sized_constants : constants.Sized 1 4 := ⟨rfl, rfl, by decide⟩

theorem sized_argumentLoads : argumentLoads.Sized 1 2 := ⟨rfl, rfl, by decide⟩

theorem sized_argumentStores : argumentStores.Sized 1 2 := ⟨rfl, rfl, by decide⟩

end OpcodeFamily

/-! ## Sizes -/

/-- The size of an instruction that is no jump table is settled by its opcode. -/
theorem instructionSize_of_fixedSize {code : Opcode} {size : Nat} (h : code.kind.fixedSize = some size)
    (x : Operand Label Local) : instructionSize code x = .ok (code.length + size) := by
  unfold instructionSize operandSize
  split
  · rename_i hswitch
    rw [hswitch] at h
    cases h
  · rw [h]
    rfl

theorem Op.size_of_fixedSize {o : Op} {size : Nat} (h : o.code.kind.fixedSize = some size) :
    o.size = o.code.length + size :=
  Except.ok.inj (o.size_eq.symm.trans (instructionSize_of_fixedSize h o.operand))

/-- An operand of fixed size makes an operation with every opcode that it fits. -/
theorem Op.exists_of_fits {code : Opcode} {x : Operand Label Local} {size : Nat}
    (hsize : code.kind.fixedSize = some size) (hfits : x.fits code.kind = true) :
    ∃ o : Op, o.code = code ∧ o.operand = x :=
  ⟨⟨code, x, _, hfits, instructionSize_of_fixedSize hsize x⟩, rfl, rfl⟩

namespace OpcodeFamily

variable {family : OpcodeFamily} {number : Int} {o : Op} {short wide : Nat}

theorem shortest_fixed (hcode : (o.code, number) ∈ family.fixed) (hsize : o.size = 1) :
    family.Shortest number o := by
  refine ⟨.fixed hcode, fun other _ => ?_⟩
  rw [hsize]
  exact other.size_pos

theorem Sized.shortest_short (h : family.Sized short wide) (hcode : o.code = family.short)
    (hnumber : o.operand.number? = some number) (hfixed : family.Unfixed number) :
    family.Shortest number o := by
  refine ⟨.short hcode hnumber, fun other hother => ?_⟩
  rw [Op.size_of_fixedSize (hcode ▸ h.short_eq), hcode]
  cases hother with
  | fixed hmember => exact absurd rfl (hfixed _ hmember)
  | short hother => rw [Op.size_of_fixedSize (hother ▸ h.short_eq), hother]
  | wide hother =>
      rw [Op.size_of_fixedSize (hother ▸ h.wide_eq), hother]
      exact h.le

/-- The wide member is the shortest if the number does not fit the short one. -/
theorem Sized.shortest_wide (h : family.Sized short wide) (hcode : o.code = family.wide)
    (hnumber : o.operand.number? = some number) (hfixed : family.Unfixed number)
    (hlarge : ∀ other : Op, other.code = family.short → other.operand.number? ≠ some number) :
    family.Shortest number o := by
  refine ⟨.wide hcode hnumber, fun other hother => ?_⟩
  cases hother with
  | fixed hmember => exact absurd rfl (hfixed _ hmember)
  | short hother hsame => exact absurd hsame (hlarge other hother)
  | wide hother =>
      rw [Op.size_of_fixedSize (hcode ▸ h.wide_eq), Op.size_of_fixedSize (hother ▸ h.wide_eq), hcode, hother]

end OpcodeFamily

/-! ## Operations of the compact calls -/

/-- The operand is a number or nothing at all, so it refers to nothing. -/
inductive Operand.Literal {Λ V : Type} : Operand Λ V → Prop where
  | none : Literal .none
  | number {x : Operand Λ V} {number : Int} (h : x.number? = some number) : Literal x

/-- A number after an opcode for bytes is in the range of its type. -/
theorem Op.number_of_int8 {o : Op} {number : Int} (hkind : o.code.kind = .int8)
    (h : o.operand.number? = some number) : -128 ≤ number ∧ number ≤ 127 := by
  have hsuits := o.suits
  rw [hkind] at hsuits
  cases hx : o.operand with
  | int8 value =>
      rw [hx] at h
      cases h
      exact ⟨value.le_toInt, Int.le_of_lt_add_one value.toInt_lt⟩
  | _ =>
      rw [hx] at hsuits
      cases hsuits

theorem Op.number_of_uint8 {o : Op} {number : Int} (hkind : o.code.kind = .uint8)
    (h : o.operand.number? = some number) : number ≤ 255 := by
  have hsuits := o.suits
  rw [hkind] at hsuits
  cases hx : o.operand with
  | uint8 value =>
      rw [hx] at h
      cases h
      have hlt := value.toNat_lt
      omega
  | _ =>
      rw [hx] at hsuits
      cases hsuits

namespace Call

/-- The call is that of the shortest member of the family that stands for the number. -/
structure Picks (family : OpcodeFamily) (number : Int) (call : Call) (o : Op) : Prop where
  call_eq : call = .emit o.code o.operand
  literal : o.operand.Literal
  shortest : family.Shortest number o

section Picks

variable {family : OpcodeFamily} {number : Int} {short wide : Nat} {x : Operand Label Local}

theorem exists_picks_fixed {code : Opcode} (hcode : (code, number) ∈ family.fixed)
    (hkind : code.kind = .none) (hlength : code.length = 1) :
    ∃ o, Picks family number (.emit code .none) o := by
  have hsize : code.kind.fixedSize = some 0 := by
    rw [hkind]
    rfl
  have hfits : Operand.fits (.none : Operand Label Local) code.kind = true := by
    rw [hkind]
    rfl
  obtain ⟨o, rfl, hoperand⟩ := Op.exists_of_fits hsize hfits
  refine ⟨o, by rw [hoperand], hoperand ▸ .none, OpcodeFamily.shortest_fixed hcode ?_⟩
  rw [Op.size_of_fixedSize hsize, hlength]

theorem exists_picks_short (h : family.Sized short wide) (hnumber : x.number? = some number)
    (hfits : x.fits family.short.kind = true) (hfixed : family.Unfixed number) :
    ∃ o, Picks family number (.emit family.short x) o := by
  obtain ⟨o, hcode, rfl⟩ := Op.exists_of_fits h.short_eq hfits
  exact ⟨o, by rw [hcode], .number hnumber, h.shortest_short hcode hnumber hfixed⟩

theorem exists_picks_wide (h : family.Sized short wide) (hnumber : x.number? = some number)
    (hfits : x.fits family.wide.kind = true) (hfixed : family.Unfixed number)
    (hlarge : ∀ other : Op, other.code = family.short → other.operand.number? ≠ some number) :
    ∃ o, Picks family number (.emit family.wide x) o := by
  obtain ⟨o, hcode, rfl⟩ := Op.exists_of_fits h.wide_eq hfits
  exact ⟨o, by rw [hcode], .number hnumber, h.shortest_wide hcode hnumber hfixed hlarge⟩

end Picks

theorem exists_picks_loadInt32 (value : Int32) :
    ∃ o, Picks .constants value.toInt (loadInt32 value) o := by
  unfold loadInt32
  split
  case h_11 =>
    have hfixed : OpcodeFamily.constants.Unfixed value.toInt := by
      simp only [OpcodeFamily.Unfixed, OpcodeFamily.constants, List.forall_mem_cons,
        List.not_mem_nil, false_implies, implies_true, and_true]
      and_intros <;> assumption
    split
    · rename_i hrange
      refine exists_picks_short OpcodeFamily.sized_constants ?_ rfl hfixed
      rw [Operand.number?, Int32.toInt_toInt8, Int.bmod_eq_of_le (by omega) (by omega)]
    · rename_i hrange
      refine exists_picks_wide OpcodeFamily.sized_constants rfl rfl hfixed ?_
      exact fun other hcode hnumber => hrange (Op.number_of_int8 (by rw [hcode]; rfl) hnumber)
  all_goals
    rename_i hvalue
    rw [hvalue]
    exact exists_picks_fixed (by decide) rfl rfl

/-- An index in one byte if it fits, and else in two. -/
theorem exists_picks_index {family : OpcodeFamily} (h : family.Sized 1 2)
    (hshort : family.short.kind = .uint8) (hwide : family.wide.kind = .uint16) {index : UInt16}
    (hfixed : family.Unfixed index.toNat) :
    ∃ o, Picks family index.toNat (if index.toNat ≤ 0xFF then
      .emit family.short (.uint8 index.toUInt8) else .emit family.wide (.uint16 index)) o := by
  split
  · rename_i hrange
    refine exists_picks_short h ?_ (by rw [hshort]; rfl) hfixed
    rw [Operand.number?, UInt16.toNat_toUInt8, Nat.mod_eq_of_lt (by omega)]
  · rename_i hrange
    refine exists_picks_wide h rfl (by rw [hwide]; rfl) hfixed fun other hcode hnumber => ?_
    have hsmall := Op.number_of_uint8 (by rw [hcode, hshort]) hnumber
    omega

theorem exists_picks_loadArgument (index : UInt16) :
    ∃ o, Picks .argumentLoads index.toNat (loadArgument index) o := by
  unfold loadArgument
  split
  case h_5 =>
    refine exists_picks_index OpcodeFamily.sized_argumentLoads rfl rfl ?_
    simp only [OpcodeFamily.Unfixed, OpcodeFamily.argumentLoads, List.forall_mem_cons,
      List.not_mem_nil, false_implies, implies_true, and_true]
    and_intros <;> norm_cast
  all_goals
    rename_i hindex
    rw [hindex]
    exact exists_picks_fixed (by decide) rfl rfl

theorem exists_picks_storeArgument (index : UInt16) :
    ∃ o, Picks .argumentStores index.toNat (storeArgument index) o := by
  refine exists_picks_index OpcodeFamily.sized_argumentStores rfl rfl ?_
  simp [OpcodeFamily.Unfixed, OpcodeFamily.argumentStores]

end Call

/-! ## Operations on locals -/

/-- An operation on a local, in the short form if the index fits one byte. -/
theorem Op.exists_localForm {short wide : Opcode} (hshort : short.kind = .shortLocal)
    (hwide : wide.kind = .wideLocal) {v : Local} (hindex : v.index.toNat < 0xFFFF) :
    ∃ o : Op, o.code = (if v.index ≤ 0xFF then short else wide) ∧ o.operand = .localVar v := by
  split
  · rename_i hsmall
    have hfits : Operand.fits (.localVar v) short.kind = true := by
      simp [hshort, Operand.fits, Operand.suits, Operand.indexFits, hsmall]
    exact exists_of_fits (by rw [hshort]; rfl) hfits
  · have hfits : Operand.fits (.localVar v) wide.kind = true := by
      have hlt : v.index < 0xFFFF := UInt32.lt_iff_toNat_lt.mpr hindex
      simp [hwide, Operand.fits, Operand.suits, Operand.indexFits, hlt]
    exact exists_of_fits (by rw [hwide]; rfl) hfits

/-- No form has room for the index. -/
theorem Op.make_localForm_of_large (short : Opcode) {wide : Opcode} (hwide : wide.kind = .wideLocal)
    {v : Local} (hindex : 0xFFFF ≤ v.index.toNat) :
    ∃ e, Op.make (if v.index ≤ 0xFF then short else wide) (.localVar v) = .error e := by
  have hlarge : ¬v.index ≤ 0xFF := by
    rw [UInt32.le_iff_toNat_le]
    exact Nat.not_le.mpr (Nat.lt_of_lt_of_le (by decide) hindex)
  have hfits : Operand.fits (.localVar v) wide.kind = false := by
    have hlt : ¬v.index < 0xFFFF := by
      rw [UInt32.lt_iff_toNat_lt]
      exact Nat.not_lt.mpr hindex
    simp [hwide, Operand.fits, Operand.indexFits, hlt]
  rw [if_neg hlarge, Op.make, dif_neg (by simp [hfits])]
  exact ⟨_, rfl⟩

/-! ## Emitters -/

section Emitters

variable {α : Type} [Emitter α]

/-- The call is accepted and adds the instruction and nothing else. -/
def Emitter.Appends (x : α) (call : Call) (i : Instruction) : Prop :=
  (perform call x).1.isOk = true ∧ stream (perform call x).2 = (stream x).append i

/-- The call is refused and adds nothing. -/
def Emitter.Refuses (x : α) (call : Call) : Prop :=
  (perform call x).1.isOk = false ∧ stream (perform call x).2 = stream x

/-- The call adds the operation if there is room for it, and is refused if not. -/
structure Adds (x : α) (call : Call) (o : Op) : Prop where
  accepted : (Emitter.stream x).endOffset + o.size ≤ offsetLimit → Emitter.Appends x call (.op o)
  refused : offsetLimit < (Emitter.stream x).endOffset + o.size → Emitter.Refuses x call

/-- The call adds the short form of an operation on a local if the index is at most 255, and the wide
form if it is larger. From 65535 on it is refused. -/
structure AddsLocalForm (x : α) (call : Call) (short wide : Opcode) (v : Local) : Prop where
  accepted : v.index.toNat < 65535 → ∃ o : Op,
    o.code = (if v.index.toNat ≤ 255 then short else wide) ∧ o.operand = .localVar v ∧ Adds x call o
  refused : 65535 ≤ v.index.toNat → Emitter.Refuses x call

/-- Every compact call adds the shortest operation that stands for its argument, where `live` tells
which locals are live. -/
structure EmitsCompactly (live : Local → Prop) (x : α) : Prop where
  loadInt32 : ∀ value : Int32, ∃ o,
    OpcodeFamily.constants.Shortest value.toInt o ∧ Adds x (.loadInt32 value) o
  loadArgument : ∀ index : UInt16, ∃ o,
    OpcodeFamily.argumentLoads.Shortest index.toNat o ∧ Adds x (.loadArgument index) o
  storeArgument : ∀ index : UInt16, ∃ o,
    OpcodeFamily.argumentStores.Shortest index.toNat o ∧ Adds x (.storeArgument index) o
  loadLocal : ∀ v, live v → AddsLocalForm x (.loadLocal v) .ldlocS .ldloc v
  storeLocal : ∀ v, live v → AddsLocalForm x (.storeLocal v) .stlocS .stloc v
  loadLocalAddress : ∀ v, live v → AddsLocalForm x (.loadLocalAddress v) .ldlocaS .ldloca v

theorem AddsLocalForm.of_emit {x : α} {short wide : Opcode} {v : Local}
    (hshort : short.kind = .shortLocal) (hwide : wide.kind = .wideLocal)
    (hlocal : ∀ o : Op, o.operand = .localVar v → Adds x (.emit o.code o.operand) o)
    (hrefused : ∀ code e, Op.make code (.localVar v) = .error e →
      Emitter.Refuses x (.emit code (.localVar v))) :
    AddsLocalForm x (.emit (if v.index ≤ 0xFF then short else wide) (.localVar v)) short wide v := by
  constructor
  · intro hindex
    obtain ⟨o, hcode, hoperand⟩ := Op.exists_localForm hshort hwide hindex
    refine ⟨o, ?_, hoperand, ?_⟩
    · rw [hcode]
      rfl
    · rw [← hcode, ← hoperand]
      exact hlocal o hoperand
  · intro hindex
    obtain ⟨e, he⟩ := Op.make_localForm_of_large short hwide hindex
    exact hrefused _ e he

/-- An emitter adds compact operations if it adds every operation whose references are live, and
refuses what is no operation. -/
theorem EmitsCompactly.of_emit {live : Local → Prop} {x : α}
    (hliteral : ∀ o : Op, o.operand.Literal → Adds x (.emit o.code o.operand) o)
    (hlocal : ∀ (o : Op) (v : Local), live v → o.operand = .localVar v →
      Adds x (.emit o.code o.operand) o)
    (hrefused : ∀ code operand e, Op.make code operand = .error e →
      Emitter.Refuses x (.emit code operand)) : EmitsCompactly live x := by
  have hpicks : ∀ {family : OpcodeFamily} {number : Int} {call : Call},
      (∃ o, call.Picks family number o) → ∃ o, family.Shortest number o ∧ Adds x call o := by
    rintro family number call ⟨o, rfl, hoperand, hshortest⟩
    exact ⟨o, hshortest, hliteral o hoperand⟩
  have hforms : ∀ {short wide : Opcode}, short.kind = .shortLocal → wide.kind = .wideLocal →
      ∀ v, live v → AddsLocalForm x (.emit (if v.index ≤ 0xFF then short else wide) (.localVar v))
        short wide v :=
    fun hshort hwide v hv => .of_emit hshort hwide (fun o => hlocal o v hv) (fun _ => hrefused _ _)
  constructor
  case loadInt32 => exact fun value => hpicks (Call.exists_picks_loadInt32 value)
  case loadArgument => exact fun index => hpicks (Call.exists_picks_loadArgument index)
  case storeArgument => exact fun index => hpicks (Call.exists_picks_storeArgument index)
  case loadLocal => exact hforms rfl rfl
  case storeLocal => exact hforms rfl rfl
  case loadLocalAddress => exact hforms rfl rfl

end Emitters

/-! ## Recorders -/

namespace Recorder

variable {r : Recorder}

/-- The local was declared here and has not been rewound. -/
def LiveLocal (r : Recorder) (v : Local) : Prop :=
  v.owner = r.id ∧ r.books.HasLocal v

theorem refuses_of_prepare {call : Call} {e : Error} (h : r.prepare call = .error e) :
    Emitter.Refuses r call := by
  have hperform : r.perform call = (.error e, r) := by simp [perform, h]
  exact ⟨congrArg (Except.isOk ·.1) hperform, congrArg (stream ·.2) hperform⟩

theorem prepare_emit_of_checkOp {code : Opcode} {x : Operand Label Local} {e : Error}
    (h : r.checkOp code x = .error e) : r.prepare (.emit code x) = .error e := by
  rw [prepare, h]
  rfl

theorem prepare_emit_of_make {code : Opcode} {x : Operand Label Local} {e : Error}
    (h : Op.make code x = .error e) : r.prepare (.emit code x) = .error e :=
  prepare_emit_of_checkOp (by rw [checkOp, h])

theorem adds_of_checkReferences {o : Op} (hrefs : r.checkReferences o.operand = .ok ()) :
    Adds r (.emit o.code o.operand) o := by
  constructor
  · intro hroom
    have hop : r.checkOp o.code o.operand = .ok o := checkOp_eq_ok.mpr ⟨o.make_eq_ok, hrefs, hroom⟩
    have hperform : r.perform (.emit o.code o.operand) = (.ok (), r.record (.op o)) := by
      simp [perform, prepare, hop, Except.map]
    exact ⟨congrArg (Except.isOk ·.1) hperform, congrArg (stream ·.2) hperform⟩
  · intro hfull
    have hroom : ¬r.stream.endOffset + o.size ≤ offsetLimit := Nat.not_le.mpr hfull
    have hop : r.checkOp o.code o.operand =
        .error (.malformed (.bodyOverflow o.code r.stream.endOffset)) := by
      simp [checkOp, o.make_eq_ok, hrefs, hroom]
    exact refuses_of_prepare (prepare_emit_of_checkOp hop)

theorem checkReferences_of_literal {x : Operand Label Local} (h : x.Literal) :
    r.checkReferences x = .ok () := by
  cases h with
  | none => rfl
  | number h => cases x <;> first | rfl | cases h

theorem emitsCompactly (r : Recorder) : EmitsCompactly r.LiveLocal r := by
  refine .of_emit ?_ ?_ ?_
  · exact fun o ho => adds_of_checkReferences (checkReferences_of_literal ho)
  · intro o v hv hoperand
    refine adds_of_checkReferences ?_
    rw [hoperand]
    exact checkLocal_eq_ok.mpr hv
  · exact fun code x e hmake => refuses_of_prepare (prepare_emit_of_make hmake)

end Recorder

/-! ## Assemblers over a builder -/

namespace Assembler

variable {a : Assembler BodyBuilder BodyLabel BodyLocal}

/-- The builder has room for an operation without a text, so its call comes to what it comes to on the
recorder alone. -/
theorem Builds.perform_emit (h : a.Builds) (code : Opcode) {x : Operand Label Local}
    (htext : ∀ text, x ≠ .string text) :
    (a.perform (.emit code x)).1 = (a.recorder.perform (.emit code x)).1 ∧
    (a.perform (.emit code x)).2.recorder = (a.recorder.perform (.emit code x)).2 := by
  rcases Recorder.perform_cases (.emit code x) a.recorder with
    ⟨e, hprepare, hrefused⟩ | ⟨reply, i, hprepare, haccepted, hadmits⟩
  · have hperform : a.perform (.emit code x) = (.error e, a) := by simp [Assembler.perform, hprepare]
    rw [hperform, hrefused]
    exact ⟨rfl, rfl⟩
  · have hcall := h.sinkCall_eq hadmits
    rw [h.kept.books] at hadmits
    rcases h.drafts.advances h.kept.recorded hadmits with ⟨cause, hlacks, _⟩ | ⟨made, b, hsink, _⟩
    · obtain ⟨o, hop, heq⟩ := Except.map_eq_ok.mp hprepare
      cases heq
      cases hlacks with
      | label hdef => cases hdef
      | text hx =>
          have hoperand := (Recorder.operand_of_make (Recorder.checkOp_eq_ok.mp hop).1).2
          exact absurd (hoperand.symm.trans hx) (htext _)
    · have hperform : a.perform (.emit code x) = (.ok reply, ⟨a.recorder.record i, b,
          i.inBody.enrollLabel made a.labels, i.inBody.enrollLocal made a.locals⟩) := by
        simp [Assembler.perform, hprepare, hcall, forward, Sink.perform, hsink]
      rw [hperform, haccepted]
      exact ⟨rfl, rfl⟩

theorem Builds.adds (h : a.Builds) {o : Op} (htext : ∀ text, o.operand ≠ .string text)
    (hadds : Adds a.recorder (.emit o.code o.operand) o) : Adds a (.emit o.code o.operand) o := by
  obtain ⟨hreply, hrecorder⟩ := h.perform_emit o.code htext
  constructor
  · intro hroom
    obtain ⟨hok, hstream⟩ := hadds.accepted hroom
    exact ⟨(congrArg Except.isOk hreply).trans hok, (congrArg Recorder.stream hrecorder).trans hstream⟩
  · intro hfull
    obtain ⟨hok, hstream⟩ := hadds.refused hfull
    exact ⟨(congrArg Except.isOk hreply).trans hok, (congrArg Recorder.stream hrecorder).trans hstream⟩

theorem Builds.emitsCompactly (h : a.Builds) : EmitsCompactly a.recorder.LiveLocal a := by
  refine .of_emit ?_ ?_ ?_
  · intro o ho
    refine h.adds ?_ (Recorder.adds_of_checkReferences (Recorder.checkReferences_of_literal ho))
    rintro text hx
    rw [hx] at ho
    cases ho with
    | number hnumber => cases hnumber
  · intro o v hv hoperand
    refine h.adds (by simp [hoperand]) (Recorder.adds_of_checkReferences ?_)
    rw [hoperand]
    exact Recorder.checkLocal_eq_ok.mpr hv
  · intro code x e hmake
    have hperform : a.perform (.emit code x) = (.error e, a) := by
      simp [Assembler.perform, Recorder.prepare_emit_of_make hmake]
    exact ⟨congrArg (Except.isOk ·.1) hperform, congrArg (Recorder.stream ·.2.recorder) hperform⟩

end Assembler

/-- A compact call adds one operation: the shortest of its family that stands for its argument. For a
live local it adds the short form up to index 255 and the wide form up to index 65534. It is refused
for a larger index, and if the operation does not fit. -/
theorem compact_calls_add_shortest_operations :
    (∀ r : Recorder, EmitsCompactly r.LiveLocal r) ∧
    ∀ (id : AssemblerId) (calls : List Call) (a : Assembler BodyBuilder BodyLabel BodyLocal),
      a = (Assembler.new id BodyBuilder.empty).after calls → EmitsCompactly a.recorder.LiveLocal a := by
  refine ⟨Recorder.emitsCompactly, ?_⟩
  rintro id calls _ rfl
  exact ((Assembler.builds_new id).after calls).emitsCompactly

/-- The bounds of the forms that take one byte. -/
example :
    Call.loadInt32 (-128) = .emit .ldcI4S (.int8 (-128)) ∧
    Call.loadInt32 128 = .emit .ldcI4 (.int32 128) ∧
    Call.loadArgument 255 = .emit .ldargS (.uint8 255) ∧
    Call.loadArgument 256 = .emit .ldarg (.uint16 256) :=
  ⟨rfl, rfl, rfl, rfl⟩

end CilAssembler
