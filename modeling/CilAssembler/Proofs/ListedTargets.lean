import CilAssembler.Listing
import CilAssembler.Proofs.JumpFields
import CilAssembler.Proofs.Overrun

/-! # The targets that a listing shows

A session can only be finished once every target is placed, and an index is placed by one line. So a
listing of the finished stream shows each target by the offset of that line. Markers take no room,
hence an operation starts at that offset or the code ends there, and the distances in the finished
code lead to the same offsets. -/

namespace CilAssembler

/-! ## Hexadecimal digits -/

namespace Text

/-- The digits of base sixteen, each at the place of its value. -/
def hexDigits : List Char :=
  ['0', '1', '2', '3', '4', '5', '6', '7', '8', '9', 'a', 'b', 'c', 'd', 'e', 'f']

/-- The number that some digits stand for, most significant digit first. -/
def hexValue (digits : List Char) : Nat :=
  digits.foldl (fun value c => 16 * value + hexDigits.idxOf c) 0

/-- The digits are those of the number, with leading zeros only where it takes them to reach the
width. -/
structure IsHex (width n : Nat) (digits : List Char) : Prop where
  digit : ∀ c ∈ digits, c ∈ hexDigits
  value : hexValue digits = n
  width_le : width ≤ digits.length
  head_ne : width < digits.length → digits.head? ≠ some '0'

theorem idxOf_digitChar {d : Nat} (h : d < 16) : hexDigits.idxOf d.digitChar = d := by
  have hall : ∀ d : Fin 16, hexDigits.idxOf d.val.digitChar = d := by decide
  exact hall ⟨d, h⟩

theorem digitChar_mem_hexDigits {d : Nat} (h : d < 16) : d.digitChar ∈ hexDigits := by
  rw [← List.idxOf_lt_length_iff, idxOf_digitChar h]
  exact h

theorem digitChar_ne_zero {d : Nat} (h : d < 16) (hpos : 0 < d) : d.digitChar ≠ '0' := by
  intro hzero
  have hvalue := idxOf_digitChar h
  rw [hzero] at hvalue
  exact Nat.ne_of_lt hpos hvalue

theorem hexValue_append_singleton (digits : List Char) (c : Char) :
    hexValue (digits ++ [c]) = 16 * hexValue digits + hexDigits.idxOf c := by
  simp [hexValue]

theorem hexValue_replicate_append (count : Nat) (digits : List Char) :
    hexValue (List.replicate count '0' ++ digits) = hexValue digits := by
  induction count with
  | zero => rfl
  | succ count ih =>
      rw [List.replicate_succ, List.cons_append, ← ih]
      rfl

/-- A number that is not below sixteen is written as its quotient by sixteen and one more digit. -/
theorem toDigits_eq (n : Nat) :
    n < 16 ∧ Nat.toDigits 16 n = [n.digitChar] ∨
      16 ≤ n ∧ Nat.toDigits 16 n = Nat.toDigits 16 (n / 16) ++ [(n % 16).digitChar] := by
  rw [Nat.toDigits_eq_if (by decide : 1 < 16)]
  by_cases h : n < 16
  · exact .inl ⟨h, if_pos h⟩
  · exact .inr ⟨Nat.le_of_not_lt h, if_neg h⟩

theorem mem_hexDigits_of_mem_toDigits (n : Nat) : ∀ c ∈ Nat.toDigits 16 n, c ∈ hexDigits := by
  induction n using Nat.strongRecOn with
  | ind n ih =>
      intro c hc
      rcases toDigits_eq n with ⟨hlt, heq⟩ | ⟨hle, heq⟩
      · rw [heq, List.mem_singleton] at hc
        rw [hc]
        exact digitChar_mem_hexDigits hlt
      · rw [heq, List.mem_append, List.mem_singleton] at hc
        rcases hc with hc | rfl
        · exact ih (n / 16) (by omega) c hc
        · exact digitChar_mem_hexDigits (Nat.mod_lt n (by decide))

theorem hexValue_toDigits (n : Nat) : hexValue (Nat.toDigits 16 n) = n := by
  induction n using Nat.strongRecOn with
  | ind n ih =>
      rcases toDigits_eq n with ⟨hlt, heq⟩ | ⟨hle, heq⟩
      · rw [heq, ← List.nil_append [_], hexValue_append_singleton, idxOf_digitChar hlt]
        exact Nat.zero_add n
      · rw [heq, hexValue_append_singleton, ih (n / 16) (by omega),
          idxOf_digitChar (Nat.mod_lt n (by decide)), Nat.div_add_mod]

theorem head?_toDigits_ne_zero {n : Nat} (hpos : 0 < n) : (Nat.toDigits 16 n).head? ≠ some '0' := by
  induction n using Nat.strongRecOn with
  | ind n ih =>
      rcases toDigits_eq n with ⟨hlt, heq⟩ | ⟨hle, heq⟩
      · rw [heq, List.head?_singleton]
        exact fun hzero => digitChar_ne_zero hlt hpos (Option.some.inj hzero)
      · rw [heq, List.head?_append_of_ne_nil _ Nat.toDigits_ne_nil]
        exact ih (n / 16) (by omega) (by omega)

theorem isHex_padZeros {width : Nat} (hwidth : 0 < width) (n : Nat) :
    IsHex width n (padZeros width (Nat.toDigits 16 n)) := by
  have hlength : (padZeros width (Nat.toDigits 16 n)).length =
      width - (Nat.toDigits 16 n).length + (Nat.toDigits 16 n).length := by
    rw [padZeros, List.length_append, List.length_replicate]
  constructor
  case digit =>
    intro c hc
    rcases List.mem_append.mp hc with hzero | hdigit
    · rw [List.eq_of_mem_replicate hzero]
      exact List.mem_cons_self
    · exact mem_hexDigits_of_mem_toDigits n c hdigit
  case value => rw [padZeros, hexValue_replicate_append, hexValue_toDigits]
  case width_le => omega
  case head_ne =>
    intro hlong
    have hpos : 0 < n := by
      rcases Nat.eq_zero_or_pos n with rfl | hpos
      · rw [hlength, Nat.toDigits_zero, List.length_singleton] at hlong
        omega
      · exact hpos
    have hzeros : width - (Nat.toDigits 16 n).length = 0 := by omega
    rw [padZeros, hzeros]
    exact head?_toDigits_ne_zero hpos

end Text

/-! ## Where targets are -/

/-- The line places the label. -/
def Line.Places (l : Line) (label : Label) : Prop :=
  ∃ placed, l.instruction.placed? = some placed ∧ (placed == label) = true

/-- The offset is that of the one line that places the label, and an operation starts there or the
code ends there. -/
structure Stream.TargetAt (s : Stream) (label : Label) (offset : Nat) : Prop where
  line : ∃ (n : Nat) (l : Line), s.lines[n]? = some l ∧ l.offset = offset ∧
    ∀ (m : Nat) (other : Line), s.lines[m]? = some other → (other.Places label ↔ m = n)
  boundary : (∃ o, (offset, o) ∈ s.ops) ∨ offset = s.endOffset

/-- After a line there are only markers up to the next operation or the end. -/
theorem Stream.boundary_take (is : List Instruction) (n : Nat) :
    (∃ o, (totalSize (is.take n), o) ∈ (ofInstructions is).ops) ∨
      totalSize (is.take n) = (ofInstructions is).endOffset := by
  rw [endOffset_ofInstructions]
  induction hleft : is.length - n generalizing n with
  | zero => exact .inr (by rw [List.take_of_length_le (by omega)])
  | succ left ih =>
      have hlt : n < is.length := by omega
      have hnext := List.take_append_getElem hlt
      cases hi : is[n] with
      | op o =>
          refine .inl ⟨o, mem_ops_iff.mpr ⟨n, ?_, rfl⟩⟩
          rw [List.getElem?_eq_getElem hlt, hi]
      | _ =>
          have hsame : totalSize (is.take (n + 1)) = totalSize (is.take n) := by
            rw [← hnext, hi, totalSize_append]
            rfl
          rw [← hsame]
          exact ih (n + 1) (by omega)

theorem Recorded.targetAt {id : AssemblerId} {is : List Instruction} (h : Recorded id is)
    {target placed : Label} {line : Nat} (hplaced : placedAt? is line = some placed)
    (hsame : (placed == target) = true) :
    (Stream.ofInstructions is).TargetAt target (totalSize (is.take line)) := by
  obtain ⟨i, hi, hline⟩ := Option.bind_eq_some_iff.mp hplaced
  refine ⟨⟨line, ⟨totalSize (is.take line), i⟩, ?_, rfl, ?_⟩, Stream.boundary_take is line⟩
  · simp [Stream.lines_ofInstructions, getElem?_linesFrom, hi]
  · intro m other hother
    rw [Stream.lines_ofInstructions, List.getElem?_toArray, getElem?_linesFrom] at hother
    obtain ⟨j, hj, rfl⟩ := Option.map_eq_some_iff.mp hother
    constructor
    · -- both lines mark the slot with the index of the target
      rintro ⟨again, hagain, hbeq⟩
      have hm : placedAt? is m = some again := Option.bind_eq_some_iff.mpr ⟨j, hj, hagain⟩
      have hindex : again.index = placed.index :=
        (Label.index_eq_of_beq hbeq).trans (Label.index_eq_of_beq hsame).symm
      have hfirst := (h.slot_mark_iff placed.index line).mpr ⟨placed, hplaced, rfl⟩
      rw [(h.slot_mark_iff placed.index m).mpr ⟨again, hm, hindex⟩] at hfirst
      exact Option.some.inj hfirst
    · rintro rfl
      rw [hi] at hj
      cases hj
      exact ⟨placed, hline, hsame⟩

/-- The targets of a finished stream have offsets. -/
theorem Recorder.Kept.exists_targetAt {r : Recorder} {s : Stream} (h : r.Kept)
    (hfinish : r.finish = .ok s) {entry : Nat × Op} (hentry : entry ∈ s.ops) {target : Label}
    (htarget : target ∈ entry.2.operand.targets) :
    ∃ offset, s.labelOffsets[target.index]? = some offset ∧ s.TargetAt target offset := by
  obtain ⟨_, hmarked, rfl⟩ := finish_eq_ok.mp hfinish
  obtain ⟨slot, hslot, hmark⟩ := unmarkedTarget?_eq_none_iff.mp hmarked entry hentry target htarget
  obtain ⟨line, hline⟩ := Option.isSome_iff_exists.mp hmark
  have hbooks : (Books.ofInstructions r.stream.instructions).labels[target.index.toNat]? =
      some slot := by
    rw [← h.books]
    exact hslot
  obtain ⟨placed, hplaced, hindex⟩ := (h.recorded.slot_mark_iff target.index line).mp
    (by rw [hbooks, Option.bind_some, hline])
  rw [h.stream_eq] at hentry ⊢
  have hsame : (placed == target) = true := by
    obtain ⟨k, hk, _⟩ := Stream.mem_ops_iff.mp hentry
    obtain ⟨used, hused, hbeq, _⟩ := h.recorded.label_used hk htarget
    exact (h.recorded.hasLabel_of_placedAt hplaced).beq_of_index_eq ⟨used, hused, hbeq⟩ hindex
  refine ⟨_, ?_, h.recorded.targetAt hplaced hsame⟩
  rw [← hindex]
  exact h.recorded.labelOffsets_of_placedAt hplaced

/-! ## What a listing shows -/

/-- The text shows the label by its offset, in four digits or more. -/
def Stream.Shows (s : Stream) (target : Label) (text : String) : Prop :=
  ∃ offset digits, s.TargetAt target offset ∧ Text.IsHex 4 offset digits ∧
    text = "IL_" ++ String.ofList digits

/-- What a listing has in front of an operation. -/
def ListingOptions.heading (options : ListingOptions) (l : Line) : String :=
  if options.offsets then Text.codeOffset l.offset ++ ": " else ""

/-- A listing consists of the texts of the lines, and the text of a branch or of a jump table shows
the targets by their offsets, in order. -/
structure Stream.ShowsTargets (s : Stream) (options : ListingOptions) : Prop where
  lines : s.listing options = String.join (s.lines.toList.map (options.line s.labelOffsets))
  branch : ∀ l ∈ s.lines, ∀ o target, l.instruction = .op o → o.operand = .label target →
    ∃ text, s.Shows target text ∧ options.line s.labelOffsets l =
      options.heading l ++ (o.code.mnemonic ++ " " ++ text) ++ "\n"
  table : ∀ l ∈ s.lines, ∀ o targets, l.instruction = .op o → o.operand = .labels targets →
    ∃ texts, List.Forall₂ s.Shows targets texts ∧ options.line s.labelOffsets l =
      options.heading l ++ (o.code.mnemonic ++ " " ++ ("(" ++ ", ".intercalate texts ++ ")")) ++ "\n"

theorem Stream.listing_eq_join (s : Stream) (options : ListingOptions) :
    s.listing options = String.join (s.lines.toList.map (options.line s.labelOffsets)) := by
  rw [listing, ← Array.foldl_toList, String.join_eq_foldl, List.foldl_map]

/-- An operand that is not left out follows its opcode. -/
theorem ListingOptions.line_op (options : ListingOptions) (offsets : Std.HashMap UInt32 Nat)
    {l : Line} {o : Op} (hop : l.instruction = .op o)
    (htext : (options.operand offsets o.operand).isEmpty = false) :
    options.line offsets l = options.heading l ++
      (o.code.mnemonic ++ " " ++ options.operand offsets o.operand) ++ "\n" := by
  simp [line, instruction?, op, hop, htext, heading]

theorem isEmpty_append_of_left {front back : String} (h : front.isEmpty = false) :
    (front ++ back).isEmpty = false := by
  simp_all

namespace Recorder.Kept

variable {r : Recorder} {s : Stream}

theorem shows (h : r.Kept) (hfinish : r.finish = .ok s) {entry : Nat × Op} (hentry : entry ∈ s.ops)
    {target : Label} (htarget : target ∈ entry.2.operand.targets) :
    s.Shows target (ListingOptions.target s.labelOffsets target) := by
  obtain ⟨offset, hoffset, hat⟩ := h.exists_targetAt hfinish hentry htarget
  refine ⟨offset, _, hat, Text.isHex_padZeros (by decide) offset, ?_⟩
  rw [ListingOptions.target, hoffset]
  rfl

theorem showsTargets (h : r.Kept) (hfinish : r.finish = .ok s) (options : ListingOptions) :
    s.ShowsTargets options := by
  have hentry : ∀ l ∈ s.lines, ∀ o, l.instruction = .op o → (l.offset, o) ∈ s.ops := by
    intro l hl o hop
    exact List.mem_filterMap.mpr ⟨l, Array.mem_toList_iff.mpr hl, by rw [hop]; rfl⟩
  refine ⟨s.listing_eq_join options, ?_, ?_⟩
  · intro l hl o target hop hoperand
    have htarget : target ∈ o.operand.targets := by
      rw [hoperand]
      exact List.mem_cons_self
    have hshows := h.shows hfinish (hentry l hl o hop) htarget
    have htext : options.operand s.labelOffsets o.operand =
        ListingOptions.target s.labelOffsets target := by rw [hoperand, ListingOptions.operand]
    refine ⟨_, hshows, ?_⟩
    rw [← htext]
    apply options.line_op s.labelOffsets hop
    obtain ⟨_, _, _, _, heq⟩ := hshows
    rw [htext, heq]
    exact isEmpty_append_of_left rfl
  · intro l hl o targets hop hoperand
    refine ⟨targets.map (ListingOptions.target s.labelOffsets), ?_, ?_⟩
    · rw [List.forall₂_map_right_iff, List.forall₂_same]
      intro target htarget
      exact h.shows hfinish (hentry l hl o hop) (by rw [hoperand]; exact htarget)
    · have htext : options.operand s.labelOffsets o.operand =
          "(" ++ ", ".intercalate (targets.map (ListingOptions.target s.labelOffsets)) ++ ")" := by
        rw [hoperand, ListingOptions.operand]
      rw [← htext]
      apply options.line_op s.labelOffsets hop
      rw [htext, String.append_assoc]
      exact isEmpty_append_of_left rfl

end Recorder.Kept

/-! ## Where the code leads -/

/-- The body is the encoding of the stream, and its jumps lead to the same offsets: for each target
of an operation, in order, the distance in its field leads there from the end of the operation. -/
structure MethodBody.JumpsToTargets (body : MethodBody) (s : Stream) : Prop where
  encodes : body.Encodes s
  jumps : ∀ entry ∈ s.ops, List.Forall₂
    (fun target (d : Displacement) => ∃ offset : Nat, s.TargetAt target offset ∧
      signedOfLittleEndian (body.code.extract d.field (d.field + d.width)).toList + d.next = offset)
    entry.2.operand.targets (entry.2.holes entry.1)

theorem BodyBuilder.forall₂_tableDisplacements (op : Opcode) (instruction next field : Nat)
    (targets : List Label) :
    List.Forall₂ (fun target (d : Displacement) => d.target = target.inBody) targets
      (tableDisplacements op instruction next field (targets.map Label.inBody)) := by
  induction targets generalizing field with
  | nil => exact .nil
  | cons target rest ih => exact .cons rfl (ih (field + 4))

/-- The open displacements of an operation are those of its targets, in order. -/
theorem Op.forall₂_holes (o : Op) (offset : Nat) :
    List.Forall₂ (fun target (d : Displacement) => d.target = target.inBody) o.operand.targets
      (o.holes offset) := by
  cases hx : o.operand with
  | label target =>
      rw [holes_of_label hx]
      exact .cons rfl .nil
  | labels targets =>
      rw [holes_of_labels hx]
      exact BodyBuilder.forall₂_tableDisplacements ..
  | _ =>
      rw [holes_eq_nil (by simp [hx]) (by simp [hx])]
      exact .nil

theorem Assembler.Builds.jumpsToTargets {a : Assembler BodyBuilder BodyLabel BodyLocal}
    {s : Stream} {body : MethodBody} (h : a.Builds) (hfinish : a.recorder.finish = .ok s)
    (hbody : a.sink.finish = .ok body) : body.JumpsToTargets s := by
  have hstream : s = .ofInstructions a.recorder.stream.instructions := by
    rw [(Recorder.finish_eq_ok.mp hfinish).2.2]
    exact h.kept.stream_eq
  refine ⟨?_, ?_⟩
  · rw [hstream]
    exact h.drafts.encodes h.kept.recorded hbody
  · intro entry hentry
    obtain ⟨hcount, hpaired⟩ := List.forall₂_iff_zip.mp (entry.2.forall₂_holes entry.1)
    refine List.forall₂_iff_zip.mpr ⟨hcount, ?_⟩
    intro target d hzip
    have htarget := (List.of_mem_zip hzip).1
    have hhole : d ∈ Stream.holes a.recorder.stream.instructions :=
      Stream.mem_holes_iff.mpr ⟨entry, by rwa [← hstream], (List.of_mem_zip hzip).2⟩
    obtain ⟨place, hplace, hfits, hbytes⟩ :=
      BodyBuilder.take_of_filled ((h.drafts.filledIn hbody).filled d hhole)
    rw [hpaired hzip] at hplace
    obtain ⟨offset, hoffset, hat⟩ := h.kept.exists_targetAt hfinish hentry htarget
    have hsame := h.drafts.labels.labelOffsets_eq hplace
    rw [← hstream, hoffset] at hsame
    cases hsame
    refine ⟨place, hat, ?_⟩
    rw [toList_extract_add, hbytes, signedOfLittleEndian_littleEndianInt hfits]
    omega

/-! ## Finished sessions -/

/-- Let a session be finished, of a recorder that did not run out of numbers for its checkpoints or of
an assembler over any sink. Then every listing of the stream shows each target of a branch or of a
jump table by the offset of the one line that places it, where an operation starts or the code ends.
If the sink is a builder that can be finished too, the jumps of the body lead to the same offsets. -/
theorem targets_listed_at_boundaries (id : AssemblerId) (options : ListingOptions) :
    (∀ (requests : List Request) (s : Stream),
      requests.countP (·.takesCheckpoint id) < 2 ^ 32 →
      ((Workshop.run requests).recorder id).finish = .ok s → s.ShowsTargets options) ∧
    (∀ (σ Λ V : Type) [Sink σ Λ V] (sink : σ) (calls : List Call) (s : Stream) (done : σ),
      ((Assembler.new id sink : Assembler σ Λ V).after calls).finish = .ok (s, done) →
      s.ShowsTargets options) ∧
    (∀ (calls : List Call) (s : Stream) (done : BodyBuilder) (body : MethodBody),
      ((Assembler.new id BodyBuilder.empty).after calls).finish = .ok (s, done) →
      done.finish = .ok body → body.JumpsToTargets s) := by
  refine ⟨?_, ?_, ?_⟩
  · intro requests s hcheckpoints hfinish
    exact (Workshop.keeps_run requests id hcheckpoints).sound.toKept.showsTargets hfinish options
  · intro σ Λ V _ sink calls s done hfinish
    exact (Assembler.kept_after id sink calls).showsTargets
      (Assembler.recorder_of_finish hfinish).1 options
  · intro calls s done body hfinish hbody
    obtain ⟨hrecorded, rfl⟩ := Assembler.recorder_of_finish hfinish
    exact ((Assembler.builds_new id).after calls).jumpsToTargets hrecorded hbody

/-- After a rewind, a jump table back to a label whose name looks like an offset and ahead to the end
of an exception region, which is the end of the code. -/
theorem targets_listed_at_boundaries_rewound :
    let loop : Label := ⟨⟨1⟩, 0, 0, some "IL_0007"⟩
    let exit : Label := ⟨⟨1⟩, 1, 1, none⟩
    let calls (exit : Label) : List Call :=
      [.beginExceptionBlock, .emit .nop .none, .markLabel loop,
        .emit .switch (.labels [loop, exit, loop]), .emit .leaveS (.label exit),
        .beginFinallyBlock, .emit .endfinally .none, .endExceptionBlock]
    let requests : List Request :=
      [.perform ⟨1⟩ (.defineLabel loop.name), .checkpoint ⟨1⟩, .perform ⟨1⟩ (.markLabel loop),
        .rewind ⟨1⟩ 0] ++ (calls exit).map (.perform ⟨1⟩)
    let direct : List Call := .defineLabel loop.name :: calls { exit with revision := 0 }
    requests.countP (·.takesCheckpoint ⟨1⟩) < 2 ^ 32 ∧
    (∃ s, ((Workshop.run requests).recorder ⟨1⟩).finish = .ok s ∧ s.ShowsTargets .verbose) ∧
    ∃ s done body, ((Assembler.new ⟨1⟩ BodyBuilder.empty).after direct).finish = .ok (s, done) ∧
      done.finish = .ok body ∧ s.ShowsTargets .standard ∧ body.JumpsToTargets s := by
  intro loop exit calls requests direct
  have hcheckpoints : requests.countP (·.takesCheckpoint ⟨1⟩) < 2 ^ 32 := by decide
  have hrecorded : ((Workshop.run requests).recorder ⟨1⟩).finish.isOk = true := by decide +kernel
  have hfinished : ((Assembler.new ⟨1⟩ BodyBuilder.empty).after direct).finish.isOk = true := by
    decide +kernel
  have hbuilt : ((Assembler.new ⟨1⟩ BodyBuilder.empty).after direct).sink.finish.isOk = true := by
    decide +kernel
  obtain ⟨hrecorder, _⟩ := targets_listed_at_boundaries ⟨1⟩ .verbose
  obtain ⟨_, hassembler, hbuilder⟩ := targets_listed_at_boundaries ⟨1⟩ .standard
  refine ⟨hcheckpoints, ?_, ?_⟩
  · obtain ⟨s, hfinish⟩ := Except.exists_of_isOk hrecorded
    exact ⟨s, hfinish, hrecorder requests s hcheckpoints hfinish⟩
  · obtain ⟨⟨s, done⟩, hfinish⟩ := Except.exists_of_isOk hfinished
    rw [← (Assembler.finish_eq_ok hfinish).2] at hbuilt
    obtain ⟨body, hbody⟩ := Except.exists_of_isOk hbuilt
    exact ⟨s, done, body, hfinish, hbody,
      hassembler BodyBuilder BodyLabel BodyLocal .empty direct s done hfinish,
      hbuilder direct s done body hfinish hbody⟩

/-- A label that a rewind has taken away, and the label that has its index since then. -/
def lostLabel : Label := ⟨⟨1⟩, 1, 0, none⟩

@[inherit_doc lostLabel]
def reusingLabel : Label := ⟨⟨1⟩, 2, 0, none⟩

/-- Lines with a branch to the first label, of which only the second one is placed. -/
def strayLines : List Instruction :=
  [.defineLabel lostLabel, .op ⟨.br, .label lostLabel, 5, rfl, rfl⟩, .defineLabel reusingLabel,
    .markLabel reusingLabel]

theorem not_places_lostLabel : ∀ l ∈ (Stream.ofInstructions strayLines).lines,
    ¬l.Places lostLabel := by
  have hother : (reusingLabel == lostLabel) = false := by decide
  simp [Stream.lines_ofInstructions, strayLines, linesFrom, Line.Places, Instruction.placed?,
    hother]

/-- Once the serial numbers are used up a session can be finished with such lines: its listing shows
the branch with the offset of the label that took the index over. -/
theorem target_listed_at_other_mark :
    let requests := Workshop.relapse ⟨1⟩ [.emit .nop .none, .emit .nop .none]
      [.defineLabel none, .emit .br (.label lostLabel)] [.defineLabel none, .markLabel reusingLabel]
    let s := Stream.ofInstructions strayLines
    requests.countP (·.takesCheckpoint ⟨1⟩) = 2 ^ 32 ∧
      ((Workshop.run requests).recorder ⟨1⟩).finish = .ok s ∧
      ListingOptions.target s.labelOffsets lostLabel = "IL_0005" ∧
      ∀ options, ¬s.ShowsTargets options := by
  have hfinish : (Recorder.relapsed ⟨1⟩ [.emit .nop .none, .emit .nop .none]
      [.defineLabel none, .emit .br (.label lostLabel)]
      [.defineLabel none, .markLabel reusingLabel]).finish = .ok (.ofInstructions strayLines) := by
    with_unfolding_all rfl
  dsimp only
  rw [Workshop.countP_relapse, Workshop.recorder_run_relapse, hfinish]
  refine ⟨rfl, rfl, by decide +kernel, fun options hshows => ?_⟩
  have hbranch : ⟨0, .op ⟨.br, .label lostLabel, 5, rfl, rfl⟩⟩ ∈
      (Stream.ofInstructions strayLines).lines := by
    simp [Stream.lines_ofInstructions, strayLines, linesFrom, Instruction.size]
  obtain ⟨_, ⟨_, _, ⟨⟨n, l, hl, _, hplaces⟩, _⟩, _⟩, _⟩ := hshows.branch _ hbranch _ _ rfl rfl
  exact not_places_lostLabel l (Array.mem_of_getElem? hl) ((hplaces n l hl).mpr rfl)

end CilAssembler
