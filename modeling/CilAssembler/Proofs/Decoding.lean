import CilAssembler.Proofs.Encoding
import Mathlib.Data.List.Nodup

/-! # Reading code back

No opcode begins another one, and the bytes of an operand say how many they are: the kind of the
opcode fixes their number, and a jump table starts with the number of its slots. So the code of a
method body can be cut into operations in one way only. -/

namespace CilAssembler

namespace Opcode

/-! ## Opcodes -/

theorem getElem?_all (op : Opcode) : all[op.ctorIdx]? = some op := by
  cases op <;> rfl

theorem mem_all (op : Opcode) : op ∈ all :=
  List.mem_of_getElem? op.getElem?_all

/-- The lead byte and the byte after it as one number. -/
def word (op : Opcode) : Nat :=
  op.lead.toNat * 256 + op.code.toNat

/-- The opcodes are listed by increasing words, so no two of them share one. -/
theorem word_injective : Function.Injective word := by
  have hsorted : (all.map word).IsChain (· < ·) := by decide +kernel
  have hnodup : (all.map word).Nodup :=
    (List.isChain_iff_pairwise.mp hsorted).imp fun h => Nat.ne_of_lt h
  intro a b h
  exact List.inj_on_of_nodup_map hnodup a.mem_all b.mem_all h

/-- No opcode of one byte is the lead byte of the others. -/
theorem lead_cases (op : Opcode) : op.lead = 0 ∧ op.code ≠ 0xFE ∨ op.lead = 0xFE := by
  have hall : ∀ op ∈ all, op.lead = 0 ∧ op.code ≠ 0xFE ∨ op.lead = 0xFE := by decide +kernel
  exact hall op op.mem_all

theorem bytes_eq (op : Opcode) :
    op.lead = 0 ∧ op.code ≠ 0xFE ∧ op.bytes = [op.code] ∨
      op.lead = 0xFE ∧ op.bytes = [0xFE, op.code] := by
  rcases op.lead_cases with ⟨hlead, hcode⟩ | hlead
  · exact .inl ⟨hlead, hcode, by rw [bytes, if_pos hlead]⟩
  · exact .inr ⟨hlead, by rw [bytes, hlead, if_neg (by decide)]⟩

/-- The opcode at the start of some bytes is known from them. -/
theorem bytes_append_inj {a b : Opcode} {xs ys : List UInt8}
    (h : a.bytes ++ xs = b.bytes ++ ys) : a = b ∧ xs = ys := by
  rcases a.bytes_eq with ⟨halead, hacode, ha⟩ | ⟨halead, ha⟩ <;>
    rcases b.bytes_eq with ⟨hblead, hbcode, hb⟩ | ⟨hblead, hb⟩ <;>
    rw [ha, hb] at h
  · obtain ⟨hcode, htail⟩ := List.cons.inj h
    exact ⟨word_injective (by rw [word, word, halead, hblead, hcode]), htail⟩
  · exact absurd (List.cons.inj h).1 hacode
  · exact absurd (List.cons.inj h).1.symm hbcode
  · obtain ⟨hcode, htail⟩ := List.cons.inj (List.cons.inj h).2
    exact ⟨word_injective (by rw [word, word, halead, hblead, hcode]), htail⟩

end Opcode

/-! ## Operands -/

/-- Whether some bytes are as many as an operand of the kind has. A jump table starts with the
number of its slots, in four bytes. -/
def OperandKind.Measures (kind : OperandKind) (bytes : List UInt8) : Prop :=
  match kind.fixedSize with
  | some size => bytes.length = size
  | .none => 4 ≤ bytes.length ∧ bytes.length = 4 + 4 * ofLittleEndian (bytes.take 4)

theorem OperandKind.Measures.append_inj {kind : OperandKind} {xs ys xs' ys' : List UInt8}
    (hxs : kind.Measures xs) (hys : kind.Measures ys) (h : xs ++ xs' = ys ++ ys') :
    xs = ys ∧ xs' = ys' := by
  apply List.append_inj h
  cases hfixed : kind.fixedSize with
  | some size =>
      simp only [Measures, hfixed] at hxs hys
      exact hxs.trans hys.symm
  | none =>
      simp only [Measures, hfixed] at hxs hys
      -- Both tables start with the same four bytes, which are their number of slots.
      have hcount : xs.take 4 = ys.take 4 := by
        have htake := congrArg (List.take 4) h
        rwa [List.take_append_of_le_length hxs.1, List.take_append_of_le_length hys.1] at htake
      rw [hxs.2, hys.2, hcount]

/-- The bytes of the operand of an operation are as many as its opcode asks for. -/
theorem Op.measures_of_encodes {o : Op} {stream : Stream} {strings : StringHeap} {next : Nat}
    {bytes : List UInt8} (hlength : o.code.length + bytes.length = o.size)
    (h : o.operand.Encodes stream strings o.code.kind next bytes) : o.code.kind.Measures bytes := by
  have hwidth : bytes.length = o.operand.width o.code.kind := by
    have hsize := o.size_eq_width
    omega
  by_cases hkind : o.code.kind = .switch
  · have hsuits := o.suits
    rw [hkind] at hsuits
    obtain ⟨targets, htargets⟩ := Operand.labels_of_suits_switch hsuits
    rw [htargets] at h hwidth
    rw [hkind]
    change 4 ≤ bytes.length ∧ bytes.length = 4 + 4 * ofLittleEndian (bytes.take 4)
    cases h with
    | labels hcount hplaces =>
        rw [List.take_left' (length_littleEndian 4 _), ofLittleEndian_littleEndian,
          Nat.pow_eq, Nat.mod_eq_of_lt hcount]
        rw [Operand.width] at hwidth
        exact ⟨by omega, hwidth⟩
  · unfold OperandKind.Measures
    rw [Operand.fixedSize_of_suits o.suits hkind]
    exact hwidth

/-! ## Operations -/

/-- An operation as bytes: an opcode and as many bytes as its operand has. -/
structure EncodedOp where
  code : Opcode
  operand : List UInt8
  measured : code.kind.Measures operand

namespace EncodedOp

/-- The bytes of the opcode and the operand. -/
def bytes (e : EncodedOp) : List UInt8 :=
  e.code.bytes ++ e.operand

theorem bytes_ne_nil (e : EncodedOp) : e.bytes ≠ [] := by
  rcases e.code.bytes_eq with ⟨_, _, h⟩ | ⟨_, h⟩ <;> simp [bytes, h]

/-- The operation at the start of some bytes is known from them, and so is the rest. -/
theorem bytes_append_inj {d e : EncodedOp} {xs ys : List UInt8}
    (h : d.bytes ++ xs = e.bytes ++ ys) : d = e ∧ xs = ys := by
  obtain ⟨dcode, doperand, hd⟩ := d
  obtain ⟨ecode, eoperand, he⟩ := e
  simp only [bytes, List.append_assoc] at h
  obtain ⟨rfl, hrest⟩ := Opcode.bytes_append_inj h
  obtain ⟨rfl, htail⟩ := hd.append_inj he hrest
  exact ⟨rfl, htail⟩

/-- Operations that follow each other can be told from their bytes. -/
theorem flatMap_bytes_injective : Function.Injective (List.flatMap bytes) := by
  intro ds
  induction ds with
  | nil =>
      intro es h
      cases es with
      | nil => rfl
      | cons e es =>
          rw [List.flatMap_nil, List.flatMap_cons] at h
          exact absurd (List.append_eq_nil_iff.mp h.symm).1 e.bytes_ne_nil
  | cons d ds ih =>
      intro es h
      cases es with
      | nil =>
          rw [List.flatMap_nil, List.flatMap_cons] at h
          exact absurd (List.append_eq_nil_iff.mp h).1 d.bytes_ne_nil
      | cons e es =>
          rw [List.flatMap_cons, List.flatMap_cons] at h
          obtain ⟨rfl, hrest⟩ := bytes_append_inj h
          rw [ih hrest]

/-- The offset, the opcode and the size of operations that follow each other from an offset on. -/
def placed : Nat → List EncodedOp → List (Nat × Opcode × Nat)
  | _, [] => []
  | base, e :: es => (base, e.code, e.bytes.length) :: placed (base + e.bytes.length) es

/-- The bytes are those of an operation of a stream, in the code of a body. -/
structure Spells (body : MethodBody) (stream : Stream) (entry : Nat × Op) (e : EncodedOp) : Prop where
  code : e.code = entry.2.code
  size : e.bytes.length = entry.2.size
  bytes : (body.code.extract entry.1 (entry.1 + entry.2.size)).toList = e.bytes
  operand : entry.2.operand.Encodes stream body.strings entry.2.code.kind
    (entry.1 + entry.2.size) e.operand

end EncodedOp

/-! ## Bodies -/

/-- The operations of a stream stand one after the other, so their offsets follow from their
sizes. -/
theorem Stream.map_ops_eq_placed {is : List Instruction} {es : List EncodedOp}
    (h : List.Forall₂ (fun (entry : Nat × Op) e => e.code = entry.2.code ∧
      e.bytes.length = entry.2.size) (ofInstructions is).ops es) :
    (ofInstructions is).ops.map (fun entry => (entry.1, entry.2.code, entry.2.size)) =
      EncodedOp.placed 0 es := by
  simp only [ops, lines_ofInstructions] at h ⊢
  generalize 0 = base at h ⊢
  induction is generalizing base es with
  | nil =>
      cases h
      rfl
  | cons i is ih =>
      cases i with
      | op o =>
          simp only [linesFrom, List.filterMap_cons, Instruction.op?, Option.map_some] at h ⊢
          obtain ⟨e, rest, ⟨hcode, hsize⟩, hrest, rfl⟩ := List.forall₂_cons_left_iff.mp h
          rw [List.map_cons, EncodedOp.placed, hcode, hsize]
          exact congrArg _ (ih _ hrest)
      | _ => exact ih _ h

/-- The code of a body is made of the operations of the stream. -/
theorem MethodBody.Encodes.exists_spelled {body : MethodBody} {stream : Stream}
    (h : body.Encodes stream) :
    ∃ es, List.Forall₂ (EncodedOp.Spells body stream) stream.ops es ∧
      body.code.toList = es.flatMap EncodedOp.bytes := by
  have hspelled : ∀ entry ∈ stream.ops, ∃ e, EncodedOp.Spells body stream entry e := by
    intro entry hentry
    obtain ⟨operand, hbytes, hlength, hencodes⟩ := h.op entry hentry
    refine ⟨⟨entry.2.code, operand, Op.measures_of_encodes hlength hencodes⟩, rfl, ?_, hbytes,
      hencodes⟩
    rw [EncodedOp.bytes, List.length_append, Opcode.length_bytes]
    exact hlength
  rw [h.code]
  generalize stream.ops = entries at hspelled
  induction entries with
  | nil => exact ⟨[], .nil, rfl⟩
  | cons entry rest ih =>
      obtain ⟨e, he⟩ := hspelled entry List.mem_cons_self
      obtain ⟨es, hes, hcode⟩ := ih fun entry hentry => hspelled entry (List.mem_cons_of_mem _ hentry)
      exact ⟨e :: es, .cons he hes, by rw [List.flatMap_cons, List.flatMap_cons, he.bytes, hcode]⟩

namespace Assembler

/-- A finished body cut into its operations. They are those of the stream, in order. -/
theorem exists_spelled {id : AssemblerId} {calls : List Call} {stream : Stream} {sink : BodyBuilder}
    {body : MethodBody} (hfinish : ((new id BodyBuilder.empty).after calls).finish = .ok (stream, sink))
    (hbody : sink.finish = .ok body) :
    ∃ es, List.Forall₂ (EncodedOp.Spells body stream) stream.ops es ∧
      stream.ops.map (fun entry => (entry.1, entry.2.code, entry.2.size)) = EncodedOp.placed 0 es ∧
      body.code.toList = es.flatMap EncodedOp.bytes := by
  obtain ⟨rfl, rfl⟩ := finish_eq_ok hfinish
  have hbuilds := (builds_new id).after calls
  rw [hbuilds.kept.stream_eq]
  have hencodes := hbuilds.drafts.encodes hbuilds.kept.recorded hbody
  obtain ⟨es, hes, hcode⟩ := hencodes.exists_spelled
  refine ⟨es, hes, ?_, hcode⟩
  exact Stream.map_ops_eq_placed (hes.imp fun _ _ h => ⟨h.code, h.size⟩)

/-- Code can be read back. Opcodes and operand bytes that follow each other are known from the
bytes they make; and if two assemblers are finished, whatever was called, and the bodies have the
same code, then both streams have the same operations at the same offsets, with the same bytes. -/
theorem code_uniquely_decodable :
    Function.Injective (List.flatMap EncodedOp.bytes) ∧
    ∀ (id id' : AssemblerId) (calls calls' : List Call) (stream stream' : Stream)
      (sink sink' : BodyBuilder) (body body' : MethodBody),
      ((new id BodyBuilder.empty).after calls).finish = .ok (stream, sink) →
      sink.finish = .ok body →
      ((new id' BodyBuilder.empty).after calls').finish = .ok (stream', sink') →
      sink'.finish = .ok body' →
      body.code = body'.code →
      stream.ops.map (fun entry => (entry.1, entry.2.code, entry.2.size)) =
        stream'.ops.map (fun entry => (entry.1, entry.2.code, entry.2.size)) ∧
      ∃ es, body.code.toList = es.flatMap EncodedOp.bytes ∧
        List.Forall₂ (EncodedOp.Spells body stream) stream.ops es ∧
        List.Forall₂ (EncodedOp.Spells body' stream') stream'.ops es := by
  refine ⟨EncodedOp.flatMap_bytes_injective, ?_⟩
  intro id id' calls calls' stream stream' sink sink' body body' hfinish hbody hfinish' hbody' hsame
  obtain ⟨es, hes, hplaced, hcode⟩ := exists_spelled hfinish hbody
  obtain ⟨es', hes', hplaced', hcode'⟩ := exists_spelled hfinish' hbody'
  obtain rfl : es = es' := by
    apply EncodedOp.flatMap_bytes_injective
    rw [← hcode, ← hcode', hsame]
  exact ⟨hplaced.trans hplaced'.symm, es, hcode, hes, hes'⟩

/-- Two ways to the same code: a jump table and a branch that go to one label, and the same with
two labels at that place, in a scope and with a call that is refused. -/
theorem code_uniquely_decodable_aliased :
    let calls : List Call :=
      [.defineLabel none, .markLabel ⟨⟨1⟩, 0, 0, none⟩, .emit .ldcI4S (.int8 (-1)),
        .emit .switch (.labels [⟨⟨1⟩, 0, 0, none⟩, ⟨⟨1⟩, 0, 0, none⟩]),
        .emit .brS (.label ⟨⟨1⟩, 0, 0, none⟩), .emit .ceq .none]
    let calls' : List Call :=
      [.beginScope, .defineLabel none, .defineLabel none, .markLabel ⟨⟨2⟩, 0, 1, none⟩,
        .markLabel ⟨⟨2⟩, 0, 0, none⟩, .markLabel ⟨⟨2⟩, 0, 0, none⟩, .emit .ldcI4S (.int8 (-1)),
        .emit .switch (.labels [⟨⟨2⟩, 0, 0, none⟩, ⟨⟨2⟩, 0, 1, none⟩]), .endScope,
        .emit .brS (.label ⟨⟨2⟩, 0, 1, none⟩), .emit .ceq .none]
    ∃ stream stream' sink sink' body body',
      ((new ⟨1⟩ BodyBuilder.empty).after calls).finish = .ok (stream, sink) ∧
      sink.finish = .ok body ∧
      ((new ⟨2⟩ BodyBuilder.empty).after calls').finish = .ok (stream', sink') ∧
      sink'.finish = .ok body' ∧ body.code = body'.code ∧ stream.length = 6 ∧ stream'.length = 10 ∧
      stream.ops.map (fun entry => (entry.1, entry.2.code, entry.2.size)) =
        stream'.ops.map (fun entry => (entry.1, entry.2.code, entry.2.size)) := by
  intro calls calls'
  have hfinished : ((new ⟨1⟩ BodyBuilder.empty).after calls).finish.isOk = true := by decide +kernel
  have hfinished' : ((new ⟨2⟩ BodyBuilder.empty).after calls').finish.isOk = true := by
    decide +kernel
  have hbuilt : ((new ⟨1⟩ BodyBuilder.empty).after calls).sink.finish.isOk = true := by
    decide +kernel
  have hbuilt' : ((new ⟨2⟩ BodyBuilder.empty).after calls').sink.finish.isOk = true := by
    decide +kernel
  have hcode : (((new ⟨1⟩ BodyBuilder.empty).after calls).sink.finish.toOption.map (·.code)) =
      ((new ⟨2⟩ BodyBuilder.empty).after calls').sink.finish.toOption.map (·.code) := by
    decide +kernel
  have hlength : ((new ⟨1⟩ BodyBuilder.empty).after calls).recorder.stream.length = 6 := by
    decide +kernel
  have hlength' : ((new ⟨2⟩ BodyBuilder.empty).after calls').recorder.stream.length = 10 := by
    decide +kernel
  obtain ⟨⟨stream, sink⟩, hfinish⟩ := Except.exists_of_isOk hfinished
  obtain ⟨⟨stream', sink'⟩, hfinish'⟩ := Except.exists_of_isOk hfinished'
  obtain ⟨hstream, hsink⟩ := finish_eq_ok hfinish
  obtain ⟨hstream', hsink'⟩ := finish_eq_ok hfinish'
  rw [← hsink] at hbuilt hcode
  rw [← hsink'] at hbuilt' hcode
  rw [← hstream] at hlength
  rw [← hstream'] at hlength'
  obtain ⟨body, hbody⟩ := Except.exists_of_isOk hbuilt
  obtain ⟨body', hbody'⟩ := Except.exists_of_isOk hbuilt'
  rw [hbody, hbody'] at hcode
  have hsame : body.code = body'.code := Option.some.inj hcode
  exact ⟨stream, stream', sink, sink', body, body', hfinish, hbody, hfinish', hbody', hsame, hlength,
    hlength', (code_uniquely_decodable.2 _ _ _ _ _ _ _ _ _ _ hfinish hbody hfinish' hbody' hsame).1⟩

end Assembler

end CilAssembler
