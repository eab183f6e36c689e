import CilAssembler.Instruction
import CilAssembler.Proofs.Books
import CilAssembler.Proofs.Displacements
import CilAssembler.Proofs.StringHeap

/-! # What a builder writes for one operation

The bytes of an operation with its displacements still open, and the displacements themselves.
Together they take exactly the size of the operation. -/

namespace CilAssembler

/-! ## Handles -/

/-- The handle of a label in a method body: labels keep their index. -/
def Label.inBody (label : Label) : BodyLabel :=
  ⟨label.index⟩

/-- The handle of a local in a method body: locals keep their index. -/
def Local.inBody (v : Local) : BodyLocal :=
  ⟨v.index.toNat.toUInt16⟩

/-- An operand in terms of a method body. -/
def Operand.inBody : Operand Label Local → Operand BodyLabel BodyLocal
  | .none => .none
  | .int8 value => .int8 value
  | .uint8 value => .uint8 value
  | .uint16 value => .uint16 value
  | .int32 value => .int32 value
  | .int64 value => .int64 value
  | .float32 bits => .float32 bits
  | .float64 bits => .float64 bits
  | .string text => .string text
  | .label target => .label target.inBody
  | .labels targets => .labels (targets.map Label.inBody)
  | .localVar v => .localVar v.inBody
  | .field member => .field member
  | .constructor member => .constructor member
  | .method member => .method member
  | .type member => .type member

theorem Operand.suits_inBody (x : Operand Label Local) (kind : OperandKind) :
    x.inBody.suits kind = x.suits kind := by
  cases x <;> cases kind <;> rfl

theorem toNat_index_inBody {v : Local} (h : v.index.toNat < 0xFFFF) :
    v.inBody.index.toNat = v.index.toNat :=
  Text.toNat_toUInt16_of_lt (Nat.lt_trans h (by decide))

/-! ## Widths -/

/-- The number of bytes of a branch displacement. -/
def OperandKind.branchWidth (kind : OperandKind) : Nat :=
  if kind = .shortBranch then 1 else 4

/-- The number of bytes of the index of a local. -/
def OperandKind.localWidth (kind : OperandKind) : Nat :=
  if kind = .shortLocal then 1 else 2

/-- The number of bytes of an operand that suits the kind. -/
def Operand.width (kind : OperandKind) : Operand Label Local → Nat
  | .string _ => 4
  | .label _ => kind.branchWidth
  | .labels targets => 4 + 4 * targets.length
  | .localVar _ => kind.localWidth
  | x => (BodyBuilder.immediate x).length

theorem Operand.fixedSize_of_suits {x : Operand Label Local} {kind : OperandKind}
    (h : x.suits kind = true) (hkind : kind ≠ .switch) : kind.fixedSize = some (x.width kind) := by
  cases x <;> cases kind <;> first | rfl | exact absurd rfl hkind | cases h

theorem Operand.labels_of_suits_switch {x : Operand Label Local} (h : x.suits .switch = true) :
    ∃ targets, x = .labels targets := by
  cases x with
  | labels targets => exact ⟨targets, rfl⟩
  | _ => cases h

theorem operandSize_eq_ok {op : Opcode} {x : Operand Label Local} {size : Nat}
    (hsuits : x.suits op.kind = true) (h : operandSize op x = .ok size) : size = x.width op.kind := by
  by_cases hkind : op.kind = .switch
  · rw [hkind] at hsuits
    obtain ⟨targets, rfl⟩ := Operand.labels_of_suits_switch hsuits
    simp only [operandSize, hkind, switchTableSize] at h
    split at h
    · cases h
      simp only [Operand.width]
      omega
    · cases h
  · have hfixed := Operand.fixedSize_of_suits hsuits hkind
    unfold operandSize at h
    split at h
    · rename_i hswitch
      exact absurd hswitch hkind
    · rw [hfixed] at h
      cases h
      rfl

namespace Op

theorem suits (o : Op) : o.operand.suits o.code.kind = true := by
  have hfits := o.fits
  rw [Operand.fits, Bool.and_eq_true] at hfits
  exact hfits.1

theorem size_eq_width (o : Op) : o.size = o.code.length + o.operand.width o.code.kind := by
  obtain ⟨size, hsize, heq⟩ := Except.map_eq_ok.mp o.size_eq
  rw [← heq, operandSize_eq_ok o.suits hsize]

/-- The index of a local fits the bytes that its kind has for it. -/
theorem index_lt_of_localVar {o : Op} {v : Local} (hx : o.operand = .localVar v) :
    v.index.toNat < 256 ^ o.code.kind.localWidth := by
  have hfits := o.fits
  rw [Operand.fits, hx, Bool.and_eq_true] at hfits
  obtain ⟨hsuits, hindex⟩ := hfits
  unfold OperandKind.localWidth
  cases hkind : o.code.kind with
  | shortLocal =>
      rw [hkind] at hindex
      simp only [Operand.indexFits, decide_eq_true_eq, UInt32.le_iff_toNat_le] at hindex
      exact Nat.lt_of_le_of_lt hindex (by decide)
  | wideLocal =>
      rw [hkind] at hindex
      simp only [Operand.indexFits, decide_eq_true_eq, UInt32.lt_iff_toNat_lt] at hindex
      exact Nat.lt_trans hindex (by decide)
  | _ =>
      rw [hkind] at hsuits
      cases hsuits

/-! ## Drafts -/

/-- The bytes of an operand as long as displacements are open. A text stands for the token that
the heap knows it by. -/
def operandDraft (strings : StringHeap) (o : Op) : List UInt8 :=
  match o.operand with
  | .string text => littleEndian 4 (StringHeap.token (strings.offsets[text]?.getD 0)).value.toNat
  | .label _ => List.replicate o.code.kind.branchWidth 0
  | .labels targets => littleEndian 4 targets.length ++ List.replicate (4 * targets.length) 0
  | .localVar v => littleEndian o.code.kind.localWidth v.index.toNat
  | x => BodyBuilder.immediate x

/-- The bytes of an operation as long as displacements are open. -/
def draft (strings : StringHeap) (o : Op) : List UInt8 :=
  o.code.bytes ++ o.operandDraft strings

/-- The open displacement of a branch at an offset. -/
def branchHoles (offset : Nat) (o : Op) : List Displacement :=
  match o.operand with
  | .label target =>
      [⟨target.inBody, o.code, offset, offset + o.code.length, o.code.kind.branchWidth,
        offset + o.size⟩]
  | _ => []

/-- The open displacements of a jump table at an offset. -/
def tableHoles (offset : Nat) (o : Op) : List Displacement :=
  match o.operand with
  | .labels targets =>
      BodyBuilder.tableDisplacements o.code offset (offset + o.size) (offset + o.code.length + 4)
        (targets.map Label.inBody)
  | _ => []

theorem length_operandDraft (strings : StringHeap) (o : Op) :
    (o.operandDraft strings).length = o.operand.width o.code.kind := by
  unfold operandDraft
  cases o.operand <;> simp [Operand.width]

@[simp] theorem length_draft (strings : StringHeap) (o : Op) : (o.draft strings).length = o.size := by
  rw [draft, List.length_append, Opcode.length_bytes, length_operandDraft, size_eq_width]

/-- The draft of an operation only depends on where the heap has its text. -/
theorem draft_congr {strings strings' : StringHeap} {o : Op}
    (h : ∀ text, o.operand = .string text → strings'.offsets[text]? = strings.offsets[text]?) :
    o.draft strings' = o.draft strings := by
  unfold draft operandDraft
  cases hx : o.operand with
  | string text => simp only [h text hx]
  | _ => rfl

end Op

namespace BodyBuilder

/-! ## Writing -/

@[simp] theorem size_appendList {α : Type} (xs : Array α) (ys : List α) :
    (xs ++ ys).size = xs.size + ys.length := by
  rw [← Array.length_toList, Array.toList_appendList, List.length_append, Array.length_toList]

theorem position_eq_ok {b : BodyBuilder} (h : b.code.size ≤ offsetLimit) :
    b.position = .ok b.code.size := by
  simp [position, h]

theorem takes_inBody {o : Op} (hlocal : ∀ v, o.operand = .localVar v → v.index.toNat < 0xFFFF) :
    takes o.code.kind o.operand.inBody = true := by
  have hsuits := o.suits
  have hfits := o.fits
  rw [Operand.fits, Bool.and_eq_true] at hfits
  unfold takes
  rw [Bool.and_eq_true, Operand.suits_inBody]
  refine ⟨hsuits, ?_⟩
  cases hx : o.operand with
  | localVar v =>
      cases hkind : o.code.kind with
      | shortLocal =>
          have hindex := hfits.2
          rw [hx, hkind] at hindex
          simp only [Operand.indexFits, decide_eq_true_eq, UInt32.le_iff_toNat_le] at hindex
          simp only [Operand.inBody, decide_eq_true_eq, UInt16.le_iff_toNat_le,
            toNat_index_inBody (hlocal v hx)]
          exact hindex
      | _ => rfl
  | _ => cases o.code.kind <;> rfl

/-- What writing an operation does to a builder. -/
structure Writes (o : Op) (b b' : BodyBuilder) : Prop where
  code : b'.code.toList = b.code.toList ++ o.draft b'.strings
  branches : b'.branches.toList = b.branches.toList ++ o.branchHoles b.code.size
  tables : b'.tables.toList = b.tables.toList ++ o.tableHoles b.code.size
  labels : b'.labels = b.labels
  locals : b'.locals = b.locals
  regions : b'.regions = b.regions
  strings : ∃ texts, b'.strings.Holds texts
  known : ∀ (text : String) (offset : UInt32), b.strings.offsets[text]? = some offset →
    b'.strings.offsets[text]? = some offset
  text : ∀ text, o.operand = .string text → ∃ offset, b'.strings.offsets[text]? = some offset

section Writing

variable {b : BodyBuilder} {o : Op} {texts : List String}

/-- An operand without labels and texts is written as it stands. -/
theorem writes_write (hstrings : b.strings.Holds texts) (hbranch : o.branchHoles b.code.size = [])
    (htable : o.tableHoles b.code.size = []) (htext : ∀ text, o.operand ≠ .string text) :
    Writes o b (b.write o.code (o.operandDraft b.strings)) := by
  refine ⟨?_, ?_, ?_, rfl, rfl, rfl, ⟨texts, hstrings⟩, fun _ _ h => h, ?_⟩
  · simp [write, Op.draft]
  · rw [hbranch, List.append_nil]
    rfl
  · rw [htable, List.append_nil]
    rfl
  · intro text h
    exact absurd h (htext text)

theorem emitString_cases (hstrings : b.strings.Holds texts) {text : String}
    (hx : o.operand = .string text) :
    (∃ cause, b.strings.Overfull text cause ∧
      b.emitString o.code text = (.error (.malformed cause), b)) ∨
      ∃ b', b.emitString o.code text = (.ok (), b') ∧ Writes o b b' := by
  rcases hstrings.intern text with
    ⟨cause, hover, hrefused⟩ | ⟨offset, strings, texts', hintern, hholds, htext, hknown⟩
  · left
    exact ⟨cause, hover, by simp [emitString, hrefused]⟩
  · right
    refine ⟨{ b with strings := strings }.write o.code
      (littleEndian 4 (StringHeap.token offset).value.toNat), by simp [emitString, hintern], ?_⟩
    refine ⟨?_, ?_, ?_, rfl, rfl, rfl, ⟨texts', hholds⟩, hknown, ?_⟩
    · simp [write, Op.draft, Op.operandDraft, hx, htext]
    · simp [write, Op.branchHoles, hx]
    · simp [write, Op.tableHoles, hx]
    · intro other hother
      rw [hx] at hother
      cases hother
      exact ⟨offset, htext⟩

theorem emitBranch_eq (hstrings : b.strings.Holds texts) {target : Label}
    (hx : o.operand = .label target) (htarget : target.index.toNat < b.labels.size)
    (hroom : b.code.size + o.size ≤ offsetLimit) :
    ∃ b', b.emitBranch o.code target.inBody = (.ok (), b') ∧ Writes o b b' := by
  have hsize := o.size_eq_width
  have hstart := position_eq_ok (show b.code.size ≤ offsetLimit by omega)
  have hsize_write : (b.write o.code []).code.size = b.code.size + o.code.length := by
    simp [write]
  have hfield := position_eq_ok (b := b.write o.code []) (by omega)
  have hdefined : ¬b.labels.size ≤ target.inBody.index.toNat := Nat.not_le.mpr htarget
  unfold emitBranch
  rw [if_neg hdefined, hstart]
  simp only [hfield, hsize_write]
  refine ⟨_, rfl, ?_⟩
  rw [hx] at hsize
  refine ⟨?_, ?_, ?_, rfl, rfl, rfl, ⟨texts, hstrings⟩, fun _ _ h => h, ?_⟩
  · simp [write, Op.draft, Op.operandDraft, hx, OperandKind.branchWidth]
  · simp [write, Op.branchHoles, hx, hsize, Operand.width, OperandKind.branchWidth, Nat.add_assoc]
  · simp [write, Op.tableHoles, hx]
  · intro text htext
    rw [hx] at htext
    cases htext

theorem emitSwitch_eq (hstrings : b.strings.Holds texts) {targets : List Label}
    (hx : o.operand = .labels targets) (hroom : b.code.size + o.size ≤ offsetLimit) :
    ∃ b', b.emitSwitch o.code (targets.map Label.inBody) = (.ok (), b') ∧ Writes o b b' := by
  have hsize := o.size_eq_width
  rw [hx] at hsize
  simp only [Operand.width] at hsize
  have hcount : ¬0xFFFFFFFF < (targets.map Label.inBody).length := by
    rw [List.length_map]
    simp only [offsetLimit] at hroom
    omega
  have hstart := position_eq_ok (show b.code.size ≤ offsetLimit by omega)
  have hsize_write : (b.write o.code (littleEndian 4 targets.length)).code.size =
      b.code.size + o.code.length + 4 := by
    simp [write, Nat.add_assoc]
  have hfield := position_eq_ok (b := b.write o.code (littleEndian 4 targets.length)) (by omega)
  have hsize_slots : ((b.write o.code (littleEndian 4 targets.length)).code ++
      List.replicate (4 * targets.length) (0 : UInt8)).size = b.code.size + o.size := by
    rw [size_appendList, hsize_write, List.length_replicate]
    omega
  have hnext := position_eq_ok (b := { b.write o.code (littleEndian 4 targets.length) with
    code := (b.write o.code (littleEndian 4 targets.length)).code ++
      List.replicate (4 * targets.length) (0 : UInt8) }) (by rw [hsize_slots]; exact hroom)
  unfold emitSwitch
  rw [if_neg hcount, hstart]
  simp only [List.length_map, hfield, hnext, hsize_write, hsize_slots]
  refine ⟨_, rfl, ?_⟩
  refine ⟨?_, ?_, ?_, rfl, rfl, rfl, ⟨texts, hstrings⟩, fun _ _ h => h, ?_⟩
  · simp [write, Op.draft, Op.operandDraft, hx]
  · simp [write, Op.branchHoles, hx]
  · simp [write, Op.tableHoles, hx]
  · intro text htext
    rw [hx] at htext
    cases htext

/-- An operation that fits the body is written, unless it has a text that the heap refuses. -/
theorem emit_cases (hstrings : b.strings.Holds texts) (hroom : b.code.size + o.size ≤ offsetLimit)
    (htargets : ∀ label ∈ o.operand.targets, label.index.toNat < b.labels.size)
    (hlocal : ∀ v, o.operand = .localVar v → v.index.toNat < 0xFFFF) :
    (∃ text cause, o.operand = .string text ∧ b.strings.Overfull text cause ∧
      b.emit o.code o.operand.inBody = (.error (.malformed cause), b)) ∨
      ∃ b', b.emit o.code o.operand.inBody = (.ok (), b') ∧ Writes o b b' := by
  have htakes := takes_inBody hlocal
  unfold emit
  rw [if_pos htakes]
  cases hx : o.operand with
  | string text =>
      rcases emitString_cases hstrings hx with ⟨cause, hover, hrefused⟩ | hwritten
      · exact .inl ⟨text, cause, rfl, hover, hrefused⟩
      · exact .inr hwritten
  | label target =>
      exact .inr (emitBranch_eq hstrings hx (htargets target (by simp [hx, Operand.targets])) hroom)
  | labels targets => exact .inr (emitSwitch_eq hstrings hx hroom)
  | localVar v =>
      have hwrites := writes_write (o := o) hstrings (by simp [Op.branchHoles, hx])
        (by simp [Op.tableHoles, hx]) (by simp [hx])
      simp only [Op.operandDraft, hx] at hwrites
      simp only [Operand.inBody, toNat_index_inBody (hlocal v hx)]
      exact .inr ⟨_, rfl, hwrites⟩
  | _ =>
      have hwrites := writes_write (o := o) hstrings (by simp [Op.branchHoles, hx])
        (by simp [Op.tableHoles, hx]) (by simp [hx])
      simp only [Op.operandDraft, hx] at hwrites
      exact .inr ⟨_, rfl, hwrites⟩

end Writing

end BodyBuilder

end CilAssembler
