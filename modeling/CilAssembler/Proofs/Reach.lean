import CilAssembler.Proofs.Encoding

/-! # Branches within reach

A recording that can be finished leaves nothing open in its builder: every target is placed and
every region is closed. So the builder fails to finish only at a branch that is too far from its
target. -/

namespace CilAssembler

/-! ## Distances -/

/-- The distances that a displacement of an opcode of this kind can hold. -/
def OperandKind.Reaches (kind : OperandKind) (distance : Int) : Prop :=
  if kind = .shortBranch then -128 ≤ distance ∧ distance ≤ 127
  else -2147483648 ≤ distance ∧ distance ≤ 2147483647

theorem OperandKind.fitsSigned_branchWidth (kind : OperandKind) (distance : Int) :
    fitsSigned kind.branchWidth distance = true ↔ kind.Reaches distance := by
  have hbyte : Nat.pow 256 1 = 256 := rfl
  have hword : Nat.pow 256 4 = 4294967296 := rfl
  unfold branchWidth Reaches fitsSigned
  by_cases hshort : kind = .shortBranch
  · simp only [hshort, if_true, hbyte, Bool.and_eq_true, decide_eq_true_eq]
    omega
  · simp only [hshort, if_false, hword, Bool.and_eq_true, decide_eq_true_eq]
    omega

/-- Every target of every operation has a place within reach of the operation. -/
def Stream.InReach (s : Stream) : Prop :=
  ∀ entry ∈ s.ops, ∀ target ∈ entry.2.operand.targets, ∃ place : Nat,
    s.labelOffsets[target.index]? = some place ∧
    entry.2.code.kind.Reaches (place - (entry.1 + entry.2.size : Nat))

/-! ## The displacement of a reference -/

/-- The displacement is that of a reference to the target, in an operation at the offset. -/
structure Displacement.Serves (d : Displacement) (offset : Nat) (o : Op) (target : Label) :
    Prop where
  target : d.target = target.inBody
  op : d.op = o.code
  instruction : d.instruction = offset
  width : d.width = o.code.kind.branchWidth
  next : d.next = offset + o.size

namespace Op

variable {o : Op}

/-- A jump table has slots as wide as the displacement of a long branch. -/
theorem branchWidth_of_labels {targets : List Label} (hx : o.operand = .labels targets) :
    o.code.kind.branchWidth = 4 := by
  have hsuits := o.suits
  rw [hx] at hsuits
  cases hkind : o.code.kind with
  | switch => rfl
  | _ =>
      rw [hkind] at hsuits
      cases hsuits

theorem exists_hole {target : Label} (h : target ∈ o.operand.targets) (offset : Nat) :
    ∃ d ∈ o.holes offset, d.Serves offset o target := by
  cases hx : o.operand with
  | label other =>
      rw [hx, Operand.targets, List.mem_singleton] at h
      subst h
      rw [holes_of_label hx]
      exact ⟨_, List.mem_cons_self, rfl, rfl, rfl, rfl, rfl⟩
  | labels targets =>
      rw [hx, Operand.targets] at h
      obtain ⟨k, hk⟩ := List.mem_iff_getElem?.mp h
      rw [holes_of_labels hx]
      refine ⟨_, BodyBuilder.mem_tableDisplacements_iff.mpr ⟨k, target.inBody, ?_, rfl⟩,
        rfl, rfl, rfl, (branchWidth_of_labels hx).symm, rfl⟩
      rw [List.getElem?_map, hk, Option.map_some]
  | _ =>
      rw [hx] at h
      cases h

theorem exists_target {offset : Nat} {d : Displacement} (h : d ∈ o.holes offset) :
    ∃ target ∈ o.operand.targets, d.Serves offset o target := by
  cases hx : o.operand with
  | label target =>
      rw [holes_of_label hx, List.mem_singleton] at h
      subst h
      exact ⟨target, List.mem_cons_self, rfl, rfl, rfl, rfl, rfl⟩
  | labels targets =>
      rw [holes_of_labels hx] at h
      obtain ⟨k, made, hmade, rfl⟩ := BodyBuilder.mem_tableDisplacements_iff.mp h
      rw [List.getElem?_map] at hmade
      obtain ⟨target, htarget, rfl⟩ := Option.map_eq_some_iff.mp hmade
      exact ⟨target, List.mem_of_getElem? htarget, rfl, rfl, rfl,
        (branchWidth_of_labels hx).symm, rfl⟩
  | _ =>
      rw [holes_eq_nil (by simp [hx]) (by simp [hx])] at h
      cases h

end Op

namespace BodyBuilder

/-! ## Filling in -/

section Filling

variable {labels : Array (Option Nat)}

theorem fill_cases {d : Displacement} {place : Nat}
    (hplace : labelPosition labels d.target = .ok place) (code : Array UInt8) :
    (fitsSigned d.width (place - d.next) = true ∧ ∃ filled, fill labels code d = .ok filled) ∨
    (fitsSigned d.width (place - d.next) = false ∧ fill labels code d =
      .error (.branchOutOfRange d.op d.instruction place (place - d.next))) := by
  unfold fill
  cases hfits : fitsSigned d.width (place - d.next) with
  | true => exact .inl ⟨rfl, by simp [hplace, hfits]⟩
  | false => exact .inr ⟨rfl, by simp [hplace, hfits]⟩

/-- Displacements to places are all filled in, or one of them is out of range. -/
theorem fillAll_cases {ds : List Displacement}
    (hplaced : ∀ d ∈ ds, ∃ place, labelPosition labels d.target = .ok place) (code : Array UInt8) :
    ((∃ filled, fillAll labels ds code = .ok filled) ∧ ∀ d ∈ ds, ∃ place : Nat,
      labelPosition labels d.target = .ok place ∧ fitsSigned d.width (place - d.next) = true) ∨
    ∃ d ∈ ds, ∃ place : Nat, labelPosition labels d.target = .ok place ∧
      fitsSigned d.width (place - d.next) = false ∧ fillAll labels ds code =
        .error (.branchOutOfRange d.op d.instruction place (place - d.next)) := by
  induction ds generalizing code with
  | nil => exact .inl ⟨⟨code, rfl⟩, by simp⟩
  | cons d rest ih =>
      obtain ⟨place, hplace⟩ := hplaced d List.mem_cons_self
      rcases fill_cases hplace code with ⟨hfits, filled, hfill⟩ | ⟨hfits, hfill⟩
      · have hstep : fillAll labels (d :: rest) code = fillAll labels rest filled := by
          simp [fillAll, hfill]
        rw [hstep]
        rcases ih (fun e he => hplaced e (List.mem_cons_of_mem d he)) filled with
          ⟨hall, hrest⟩ | ⟨e, he, hmisses⟩
        · refine .inl ⟨hall, ?_⟩
          intro e he
          rcases List.mem_cons.mp he with rfl | he
          · exact ⟨place, hplace, hfits⟩
          · exact hrest e he
        · exact .inr ⟨e, List.mem_cons_of_mem d he, hmisses⟩
      · refine .inr ⟨d, List.mem_cons_self, place, hplace, hfits, ?_⟩
        simp [fillAll, hfill]

end Filling

/-- A builder without open regions finishes exactly if it can fill in all displacements. -/
theorem finish_of_regions {b : BodyBuilder} (hregions : b.regions = []) :
    b.finish = (fillAll b.labels (b.branches.toList ++ b.tables.toList) b.code).map
      fun code => ⟨code, b.locals, b.clauses, b.strings⟩ := by
  unfold finish
  rw [hregions]
  cases fillAll b.labels (b.branches.toList ++ b.tables.toList) b.code <;> rfl

end BodyBuilder

/-! ## Finished recordings -/

namespace Assembler

section Finished

variable {a : Assembler BodyBuilder BodyLabel BodyLocal}

/-- Once the recorder finds no unplaced target, every target has a place, in the stream and in the
builder. -/
theorem Builds.exists_place (h : a.Builds) (hmarked : a.recorder.unmarkedTarget? = none)
    {entry : Nat × Op} {target : Label} (hentry : entry ∈ a.recorder.stream.ops)
    (htarget : target ∈ entry.2.operand.targets) :
    ∃ place, a.recorder.stream.labelOffsets[target.index]? = some place ∧
      BodyBuilder.labelPosition a.sink.labels target.inBody = .ok place := by
  obtain ⟨slot, hslot, hmark⟩ :=
    Recorder.unmarkedTarget?_eq_none_iff.mp hmarked entry hentry target htarget
  have hlt : target.index.toNat < a.sink.labels.size := by
    rw [h.size_labels]
    exact (Array.getElem?_eq_some_iff.mp hslot).1
  have hsize := h.drafts.labels.room
  rw [h.drafts.labels.size] at hsize
  have hbooks : a.recorder.books.labels[target.index.toNat]? = some slot := hslot
  rw [h.kept.books] at hbooks
  obtain ⟨place, hplace⟩ := h.kept.recorded.labelOffsets_of_marked hsize hbooks hmark
  have hposition := h.drafts.labels.placed _ hlt
  rw [hplace] at hposition
  have hindex : target.index.toNat.toUInt32 = target.index := by simp
  rw [hindex, ← h.kept.stream_eq] at hplace
  refine ⟨place, hplace, ?_⟩
  simp only [BodyBuilder.labelPosition, Label.inBody, hposition]

/-- The displacements of the builder are those of the references in the stream. -/
theorem Builds.exists_reference (h : a.Builds) {d : Displacement}
    (hd : d ∈ a.sink.branches.toList ++ a.sink.tables.toList) :
    ∃ entry ∈ a.recorder.stream.ops, ∃ target ∈ entry.2.operand.targets,
      d.Serves entry.1 entry.2 target := by
  rw [h.drafts.code.branches, h.drafts.code.tables] at hd
  obtain ⟨entry, hentry, hhole⟩ := Stream.mem_holes_iff.mp hd
  rw [← h.kept.stream_eq] at hentry
  obtain ⟨target, htarget, hserves⟩ := Op.exists_target hhole
  exact ⟨entry, hentry, target, htarget, hserves⟩

theorem Builds.exists_displacement (h : a.Builds) {entry : Nat × Op} {target : Label}
    (hentry : entry ∈ a.recorder.stream.ops) (htarget : target ∈ entry.2.operand.targets) :
    ∃ d ∈ a.sink.branches.toList ++ a.sink.tables.toList, d.Serves entry.1 entry.2 target := by
  obtain ⟨d, hhole, hserves⟩ := Op.exists_hole htarget entry.1
  refine ⟨d, ?_, hserves⟩
  rw [h.kept.stream_eq] at hentry
  rw [h.drafts.code.branches, h.drafts.code.tables]
  exact Stream.mem_holes_iff.mpr ⟨entry, hentry, hhole⟩

/-- A builder behind a finished recorder finishes and all targets are within reach, or it reports a
branch to a target out of reach. -/
theorem Builds.finish_cases (h : a.Builds) {stream : Stream}
    (hfinish : a.recorder.finish = .ok stream) :
    ((∃ body, a.sink.finish = .ok body) ∧ a.recorder.stream.InReach) ∨
    ∃ entry ∈ a.recorder.stream.ops, ∃ target ∈ entry.2.operand.targets, ∃ place : Nat,
      a.recorder.stream.labelOffsets[target.index]? = some place ∧
      ¬entry.2.code.kind.Reaches (place - (entry.1 + entry.2.size : Nat)) ∧
      a.sink.finish = .error (.branchOutOfRange entry.2.code entry.1 place
        (place - (entry.1 + entry.2.size : Nat))) := by
  obtain ⟨hempty, hmarked, _⟩ := Recorder.finish_eq_ok.mp hfinish
  rw [BodyBuilder.finish_of_regions (h.regions_eq_nil hempty)]
  have hplaced : ∀ d ∈ a.sink.branches.toList ++ a.sink.tables.toList,
      ∃ place, BodyBuilder.labelPosition a.sink.labels d.target = .ok place := by
    intro d hd
    obtain ⟨entry, hentry, target, htarget, hserves⟩ := h.exists_reference hd
    obtain ⟨place, _, hplace⟩ := h.exists_place hmarked hentry htarget
    exact ⟨place, hserves.target ▸ hplace⟩
  rcases BodyBuilder.fillAll_cases hplaced a.sink.code with
    ⟨⟨filled, hfill⟩, hfits⟩ | ⟨d, hd, place, hplace, hmisses, hfill⟩
  · refine .inl ⟨by rw [hfill]; exact ⟨_, rfl⟩, ?_⟩
    intro entry hentry target htarget
    obtain ⟨place, hoffset, hposition⟩ := h.exists_place hmarked hentry htarget
    obtain ⟨d, hd, hserves⟩ := h.exists_displacement hentry htarget
    obtain ⟨other, hother, hwidth⟩ := hfits d hd
    rw [hserves.target, hposition] at hother
    cases hother
    rw [hserves.width, hserves.next, OperandKind.fitsSigned_branchWidth] at hwidth
    exact ⟨place, hoffset, hwidth⟩
  · obtain ⟨entry, hentry, target, htarget, hserves⟩ := h.exists_reference hd
    obtain ⟨other, hoffset, hposition⟩ := h.exists_place hmarked hentry htarget
    rw [hserves.target, hposition] at hplace
    cases hplace
    refine .inr ⟨entry, hentry, target, htarget, place, hoffset, ?_, ?_⟩
    · rw [← OperandKind.fitsSigned_branchWidth, ← hserves.width, ← hserves.next, hmisses]
      exact Bool.false_ne_true
    · rw [hfill, hserves.op, hserves.instruction, hserves.next]
      rfl

end Finished

/-- If a session can be finished, all its targets are placed, and its builder finishes exactly if
every target is within reach. Otherwise it reports a branch of the stream whose target is not; it
never finds a label without a place or an open region. -/
theorem builder_finishes_iff_in_reach (id : AssemblerId) (calls : List Call) {stream : Stream}
    {sink : BodyBuilder}
    (hfinish : ((new id BodyBuilder.empty).after calls).finish = .ok (stream, sink)) :
    (∀ entry ∈ stream.ops, ∀ target ∈ entry.2.operand.targets,
      ∃ place, stream.labelOffsets[target.index]? = some place) ∧
    ((∃ body, sink.finish = .ok body) ↔ stream.InReach) ∧
    ∀ e, sink.finish = .error e → ∃ entry ∈ stream.ops, ∃ target ∈ entry.2.operand.targets,
      ∃ place : Nat, stream.labelOffsets[target.index]? = some place ∧
      ¬entry.2.code.kind.Reaches (place - (entry.1 + entry.2.size : Nat)) ∧
      e = .branchOutOfRange entry.2.code entry.1 place (place - (entry.1 + entry.2.size : Nat)) := by
  have hbuilds := (builds_new id).after calls
  obtain ⟨hrecorder, rfl⟩ := recorder_of_finish hfinish
  obtain ⟨_, hmarked, rfl⟩ := Recorder.finish_eq_ok.mp hrecorder
  refine ⟨?_, ?_, ?_⟩
  · intro entry hentry target htarget
    obtain ⟨place, hplace, _⟩ := hbuilds.exists_place hmarked hentry htarget
    exact ⟨place, hplace⟩
  · rcases hbuilds.finish_cases hrecorder with
      ⟨hbody, hreach⟩ | ⟨entry, hentry, target, htarget, place, hplace, hmisses, herror⟩
    · exact iff_of_true hbody hreach
    · refine iff_of_false (by rw [herror]; simp) ?_
      intro hreach
      obtain ⟨other, hother, hreaches⟩ := hreach entry hentry target htarget
      rw [hplace] at hother
      cases hother
      exact hmisses hreaches
  · intro e he
    rcases hbuilds.finish_cases hrecorder with
      ⟨⟨body, hbody⟩, _⟩ | ⟨entry, hentry, target, htarget, place, hplace, hmisses, herror⟩
    · cases hbody.symm.trans he
    · cases herror.symm.trans he
      exact ⟨entry, hentry, target, htarget, place, hplace, hmisses, rfl⟩

/-- A short branch over 127 bytes is within reach, and one over 128 bytes is not. -/
theorem builder_finishes_iff_in_reach_short :
    let id : AssemblerId := ⟨1⟩
    let top : Label := ⟨id, 0, 0, none⟩
    let done : Label := ⟨id, 0, 1, none⟩
    let session : Nat → Assembler BodyBuilder BodyLabel BodyLocal := fun count =>
      (new id .empty).after ([.defineLabel none, .defineLabel none, .markLabel top,
        .emit .brS (.label done)] ++ List.replicate count (.emit .nop .none) ++
        [.markLabel done, .emit .switch (.labels [top, done]), .emit .ret .none])
    (∃ stream sink body, (session 127).finish = .ok (stream, sink) ∧ sink.finish = .ok body ∧
      stream.InReach) ∧
    ∃ stream sink op position target displacement, (session 128).finish = .ok (stream, sink) ∧
      sink.finish = .error (.branchOutOfRange op position target displacement) ∧
      ¬stream.InReach := by
  intro id top done session
  have hnear : (session 127).finish.isOk = true ∧ (session 127).sink.finish.isOk = true := by
    decide +kernel
  have hfar : (session 128).finish.isOk = true ∧ (session 128).sink.finish.isOk = false := by
    decide +kernel
  constructor
  · obtain ⟨⟨stream, sink⟩, hfinish⟩ := Except.exists_of_isOk hnear.1
    obtain ⟨body, hbody⟩ := Except.exists_of_isOk hnear.2
    rw [← (finish_eq_ok hfinish).2] at hbody
    exact ⟨stream, sink, body, hfinish, hbody,
      (builder_finishes_iff_in_reach id _ hfinish).2.1.mp ⟨body, hbody⟩⟩
  · obtain ⟨⟨stream, sink⟩, hfinish⟩ := Except.exists_of_isOk hfar.1
    obtain ⟨_, hreach, hreports⟩ := builder_finishes_iff_in_reach id _ hfinish
    have hfails := hfar.2
    rw [← (finish_eq_ok hfinish).2] at hfails
    cases hbody : sink.finish with
    | ok body =>
        rw [hbody] at hfails
        cases hfails
    | error e =>
        obtain ⟨entry, _, _, _, place, _, _, rfl⟩ := hreports e hbody
        refine ⟨stream, sink, _, _, _, _, hfinish, hbody, ?_⟩
        rw [← hreach, hbody]
        simp

end Assembler

end CilAssembler
