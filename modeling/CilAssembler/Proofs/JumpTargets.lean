import CilAssembler.Proofs.BareBuilder
import CilAssembler.Proofs.Holes

/-! # Where jumps of a builder lead

A builder that is used on its own takes labels from anywhere, and a label is only an index. What the
accepted calls say about labels is compared with what the builder keeps: a label has a place exactly
if a call placed it, and the target of a branch is defined when the branch is written. A jump table
is written without that check. -/

namespace CilAssembler

namespace BodyBuilder

/-! ## Accepted calls -/

/-- A call that a builder accepted. -/
structure AcceptedCall where
  before : BodyBuilder
  call : SinkCall BodyLabel BodyLocal

/-- The calls that are accepted, in order. -/
def acceptedCalls (b : BodyBuilder) : List (SinkCall BodyLabel BodyLocal) → List AcceptedCall
  | [] => []
  | call :: rest =>
      (if (b.perform call).1.isOk then [⟨b, call⟩] else []) ++ (b.perform call).2.acceptedCalls rest

theorem acceptedCalls_append (b : BodyBuilder) (calls later : List (SinkCall BodyLabel BodyLocal)) :
    b.acceptedCalls (calls ++ later) =
      b.acceptedCalls calls ++ (b.after calls).acceptedCalls later := by
  induction calls generalizing b with
  | nil => rfl
  | cons call rest ih =>
      rw [List.cons_append, acceptedCalls, acceptedCalls, ih, List.append_assoc]
      rfl

theorem mem_acceptedCalls_append_singleton {b : BodyBuilder}
    {calls : List (SinkCall BodyLabel BodyLocal)} {call : SinkCall BodyLabel BodyLocal}
    {s : AcceptedCall} :
    s ∈ b.acceptedCalls (calls ++ [call]) ↔ s ∈ b.acceptedCalls calls ∨
      ((b.after calls).perform call).1.isOk = true ∧ s = ⟨b.after calls, call⟩ := by
  rw [acceptedCalls_append, List.mem_append, acceptedCalls, acceptedCalls, List.append_nil]
  split
  · rename_i haccepted
    simp [haccepted]
  · rename_i hrefused
    simp [hrefused]

/-- The label that an accepted call places. The end of a region places the end label of the innermost
one. -/
def placedBy? (b : BodyBuilder) : SinkCall BodyLabel BodyLocal → Option BodyLabel
  | .markLabel label => some label
  | .endExceptionBlock => b.regions.head?.map (·.exit)
  | _ => none

/-- One of the calls placed the label, and the code ended at `place` then. -/
def PlacedIn (calls : List (SinkCall BodyLabel BodyLocal)) (label : BodyLabel) (place : Nat) : Prop :=
  ∃ s ∈ empty.acceptedCalls calls, s.before.placedBy? s.call = some label ∧ place = s.before.code.size

/-- The call is a jump table to a label that the builder does not have. -/
def AcceptedCall.Strays (s : AcceptedCall) (label : BodyLabel) : Prop :=
  ∃ op targets, s.call = .emit op (.labels targets) ∧ label ∈ targets ∧
    s.before.labels.size ≤ label.index.toNat

/-- Every open displacement leads to a label of this builder. -/
def OwnsTargets (b : BodyBuilder) : Prop :=
  ∀ d ∈ b.branches.toList ++ b.tables.toList, d.target.index.toNat < b.labels.size

/-! ## Places of labels -/

/-- All that a call can do to the labels. -/
theorem Step.labels_cases {b b' : BodyBuilder} {call : SinkCall BodyLabel BodyLocal} {accepted : Bool}
    (h : Step b call accepted b') :
    (b'.labels = b.labels ∧ (accepted = true → b.placedBy? call = none)) ∨
    (b'.labels = b.labels.push none ∧ b.placedBy? call = none) ∨
    ∃ label, accepted = true ∧ b.placedBy? call = some label ∧
      b.labels[label.index.toNat]? = some none ∧
      b'.labels = b.labels.setIfInBounds label.index.toNat (some b.code.size) := by
  cases h with
  | refused | brokenOff | dropped => exact .inl ⟨rfl, by rintro ⟨⟩⟩
  | scope hcall => exact .inl ⟨rfl, by rcases hcall with rfl | rfl <;> exact fun _ => rfl⟩
  | declared | written | spelled | branched | switched | filtered => exact .inl ⟨rfl, fun _ => rfl⟩
  | @handled call kind region rest hcall =>
      refine .inl ⟨rfl, fun _ => ?_⟩
      cases call with
      | markLabel | endExceptionBlock => cases hcall
      | _ => rfl
  | defined | begun | halfBegun => exact .inr (.inl ⟨rfl, rfl⟩)
  | marked _ hopen => exact .inr (.inr ⟨_, rfl, rfl, hopen, rfl⟩)
  | ended _ hregions hopen =>
      refine .inr (.inr ⟨_, rfl, ?_, hopen, rfl⟩)
      simp [placedBy?, hregions]

theorem Step.size_labels_le {b b' : BodyBuilder} {call : SinkCall BodyLabel BodyLocal} {accepted : Bool}
    (h : Step b call accepted b') : b.labels.size ≤ b'.labels.size := by
  rcases h.labels_cases with ⟨hlabels, _⟩ | ⟨hlabels, _⟩ | ⟨_, _, _, _, hlabels⟩
  · rw [hlabels]
  · rw [hlabels, Array.size_push]
    exact Nat.le_succ _
  · rw [hlabels, Array.size_setIfInBounds]

/-- A label has a place after a call if it had it before, or if the call placed it at the end of the
code. -/
theorem Step.place_iff {b b' : BodyBuilder} {call : SinkCall BodyLabel BodyLocal} {accepted : Bool}
    (h : Step b call accepted b') (label : BodyLabel) (place : Nat) :
    b'.labels[label.index.toNat]? = some (some place) ↔
      b.labels[label.index.toNat]? = some (some place) ∨
        accepted = true ∧ b.placedBy? call = some label ∧ place = b.code.size := by
  rcases h.labels_cases with ⟨hlabels, hnone⟩ | ⟨hlabels, hnone⟩ | ⟨marked, haccepted, hplaced, hopen, hlabels⟩
  · rw [hlabels]
    constructor
    · exact .inl
    · rintro (hold | ⟨haccepted, hplaced, _⟩)
      · exact hold
      · cases (hnone haccepted).symm.trans hplaced
  · rw [hlabels, hnone, Array.getElem?_push]
    split
    · rename_i hindex
      simp [hindex]
    · simp
  · by_cases hsame : marked = label
    · subst hsame
      have hlt := (Array.getElem?_eq_some_iff.mp hopen).1
      rw [hlabels, Array.getElem?_setIfInBounds_self_of_lt hlt, hopen]
      simp [haccepted, hplaced, eq_comm]
    · have hindex : marked.index.toNat ≠ label.index.toNat := by
        intro heq
        exact hsame (congrArg BodyLabel.mk (UInt32.toNat_inj.mp heq))
      rw [hlabels, Array.getElem?_setIfInBounds_ne hindex, hplaced]
      simp [hsame]

/-- A label has the place that a call gave it, and no other. -/
theorem place_iff_placedIn (calls : List (SinkCall BodyLabel BodyLocal)) (label : BodyLabel)
    (place : Nat) :
    (empty.after calls).labels[label.index.toNat]? = some (some place) ↔ PlacedIn calls label place := by
  induction calls using List.reverseRecOn with
  | nil => simp [PlacedIn, acceptedCalls, after, empty]
  | append_singleton calls call ih =>
      rw [after_append_singleton, (step_perform _ call).place_iff, ih]
      simp only [PlacedIn, mem_acceptedCalls_append_singleton, or_and_right, exists_or]
      refine or_congr_right ?_
      constructor
      · rintro ⟨haccepted, hplaced⟩
        exact ⟨_, ⟨haccepted, rfl⟩, hplaced⟩
      · rintro ⟨_, ⟨haccepted, rfl⟩, hplaced⟩
        exact ⟨haccepted, hplaced⟩

/-! ## Targets -/

/-- A call opens displacements to labels that the builder has, unless it is a jump table. -/
theorem Step.target_cases {b b' : BodyBuilder} {call : SinkCall BodyLabel BodyLocal} {accepted : Bool}
    (h : Step b call accepted b') :
    (∀ d ∈ b'.branches.toList, d ∈ b.branches.toList ∨ d.target.index.toNat < b.labels.size) ∧
      ∀ d ∈ b'.tables.toList, d ∈ b.tables.toList ∨
        accepted = true ∧ ∃ op targets, call = .emit op (.labels targets) ∧ d.target ∈ targets := by
  cases h with
  | branched op hdefined =>
      refine ⟨?_, fun d hd => .inl hd⟩
      intro d hd
      rw [Array.toList_push] at hd
      rcases List.mem_append.mp hd with hold | hnew
      · exact .inl hold
      · rw [List.mem_singleton.mp hnew]
        exact .inr hdefined
  | switched op =>
      refine ⟨fun d hd => .inl hd, ?_⟩
      intro d hd
      rw [Array.toList_appendList] at hd
      rcases List.mem_append.mp hd with hold | hnew
      · exact .inl hold
      · obtain ⟨_, target, htarget, rfl⟩ := mem_tableDisplacements_iff.mp hnew
        exact .inr ⟨rfl, op, _, rfl, List.mem_of_getElem? htarget⟩
  | _ => exact ⟨fun d hd => .inl hd, fun d hd => .inl hd⟩

/-- A branch leads to a label of the builder. -/
theorem branch_target_lt (calls : List (SinkCall BodyLabel BodyLocal)) :
    ∀ d ∈ (empty.after calls).branches.toList,
      d.target.index.toNat < (empty.after calls).labels.size := by
  induction calls using List.reverseRecOn with
  | nil => simp [after, empty]
  | append_singleton calls call ih =>
      rw [after_append_singleton]
      have hstep := step_perform (empty.after calls) call
      intro d hd
      apply Nat.lt_of_lt_of_le _ hstep.size_labels_le
      exact (hstep.target_cases.1 d hd).elim (ih d) id

/-- A slot of a jump table leads to a label of the builder, or the jump table strayed. -/
theorem table_target_lt_or_strays (calls : List (SinkCall BodyLabel BodyLocal)) :
    ∀ d ∈ (empty.after calls).tables.toList,
      d.target.index.toNat < (empty.after calls).labels.size ∨
        ∃ s ∈ empty.acceptedCalls calls, s.Strays d.target := by
  induction calls using List.reverseRecOn with
  | nil => simp [after, empty]
  | append_singleton calls call ih =>
      rw [after_append_singleton]
      have hstep := step_perform (empty.after calls) call
      intro d hd
      rcases hstep.target_cases.2 d hd with hold | ⟨haccepted, op, targets, hcall, htarget⟩
      · rcases ih d hold with hlt | ⟨s, hs, hstrays⟩
        · exact .inl (Nat.lt_of_lt_of_le hlt hstep.size_labels_le)
        · exact .inr ⟨s, mem_acceptedCalls_append_singleton.mpr (.inl hs), hstrays⟩
      · by_cases hlt : d.target.index.toNat < (empty.after calls).labels.size
        · exact .inl (Nat.lt_of_lt_of_le hlt hstep.size_labels_le)
        · exact .inr ⟨_, mem_acceptedCalls_append_singleton.mpr (.inr ⟨haccepted, rfl⟩), op, targets,
            hcall, htarget, Nat.le_of_not_lt hlt⟩

/-- A jump table that strays is not noticed, and leaves a target that the builder does not have. -/
theorem AcceptedCall.Strays.not_ownsTargets {b b' : BodyBuilder}
    {call : SinkCall BodyLabel BodyLocal} {label : BodyLabel} (h : Strays ⟨b, call⟩ label)
    (hstep : Step b call true b') : ¬b'.OwnsTargets := by
  obtain ⟨op, targets, rfl, htarget, hsize⟩ := h
  intro howns
  cases hstep with
  | scope hcall => simp at hcall
  | handled hcall => cases hcall
  | written htargets =>
      rw [Operand.targets] at htargets
      rw [htargets] at htarget
      cases htarget
  | @switched _ _ next =>
      obtain ⟨k, hk⟩ := List.mem_iff_getElem?.mp htarget
      have hslot : ⟨label, op, b.code.size, b.code.size + op.length + 4 + 4 * k, 4, next⟩ ∈ (b.tables ++
          tableDisplacements op b.code.size next (b.code.size + op.length + 4) targets).toList := by
        rw [Array.toList_appendList]
        exact List.mem_append_right _ (mem_tableDisplacements_iff.mpr ⟨k, label, hk, rfl⟩)
      exact Nat.not_lt.mpr hsize (howns _ (List.mem_append_right _ hslot))

/-- All targets are defined all along exactly if no jump table strays. -/
theorem ownsTargets_iff (calls : List (SinkCall BodyLabel BodyLocal)) :
    (∀ before, before <+: calls → (empty.after before).OwnsTargets) ↔
      ∀ s ∈ empty.acceptedCalls calls, ∀ label, ¬s.Strays label := by
  constructor
  · intro howns
    induction calls using List.reverseRecOn with
    | nil => simp [acceptedCalls]
    | append_singleton calls call ih =>
        intro s hs
        rcases mem_acceptedCalls_append_singleton.mp hs with hold | ⟨haccepted, rfl⟩
        · exact ih (fun before hpre => howns before (hpre.trans (List.prefix_append _ _))) s hold
        · intro label hstrays
          have hstep := step_perform (empty.after calls) call
          rw [haccepted] at hstep
          apply hstrays.not_ownsTargets hstep
          rw [← after_append_singleton]
          exact howns _ List.prefix_rfl
  · rintro hnone before ⟨later, rfl⟩ d hd
    rcases List.mem_append.mp hd with hbranch | htable
    · exact branch_target_lt before d hbranch
    · rcases table_target_lt_or_strays before d htable with hlt | ⟨s, hs, hstrays⟩
      · exact hlt
      · refine absurd hstrays (hnone s ?_ d.target)
        rw [acceptedCalls_append]
        exact List.mem_append_left _ hs

/-- Whether a jump table is accepted depends on the number of its targets only. -/
theorem isOk_emit_labels_congr (b : BodyBuilder) (op : Opcode) {targets others : List BodyLabel}
    (h : targets.length = others.length) :
    (b.perform (.emit op (.labels targets))).1.isOk = (b.perform (.emit op (.labels others))).1.isOk := by
  have htakes : takes op.kind (.labels targets) = takes op.kind (.labels others) := by
    cases op.kind <;> rfl
  simp only [perform, emit, htakes]
  split
  · simp only [emitSwitch, h]
    split
    · rfl
    · -- all three positions are the same for both
      split
      · rfl
      · split
        · rfl
        · split <;> rfl
  · rfl

/-! ## Undefined labels -/

theorem labelPosition_cases (labels : Array (Option Nat)) (label : BodyLabel) :
    (∃ place, labels[label.index.toNat]? = some (some place) ∧ labelPosition labels label = .ok place) ∨
      (∀ place, labels[label.index.toNat]? ≠ some (some place)) ∧
        labelPosition labels label = .error (.undefinedLabel label.index) := by
  unfold labelPosition
  split
  · rename_i place hplace
    exact .inl ⟨place, hplace, rfl⟩
  · rename_i hnone
    exact .inr ⟨hnone, rfl⟩

/-- Filling in names a label without a place only if a displacement leads to it. -/
theorem exists_of_fillAll_eq_undefinedLabel {labels : Array (Option Nat)} {ds : List Displacement}
    {code : Array UInt8} {index : UInt32} (h : fillAll labels ds code = .error (.undefinedLabel index)) :
    (∃ d ∈ ds, d.target = ⟨index⟩) ∧ ∀ place, labels[index.toNat]? ≠ some (some place) := by
  induction ds generalizing code with
  | nil => cases h
  | cons d rest ih =>
      rw [fillAll] at h
      cases hfill : fill labels code d with
      | ok filled =>
          rw [hfill] at h
          obtain ⟨⟨e, he, htarget⟩, hplace⟩ := ih h
          exact ⟨⟨e, List.mem_cons_of_mem d he, htarget⟩, hplace⟩
      | error e =>
          rw [hfill] at h
          cases h
          unfold fill at hfill
          rcases labelPosition_cases labels d.target with ⟨place, _, hposition⟩ | ⟨hnone, hposition⟩
          · rw [hposition] at hfill
            simp only at hfill
            split at hfill <;> cases hfill
          · rw [hposition] at hfill
            cases hfill
            exact ⟨⟨d, List.mem_cons_self, rfl⟩, hnone⟩

theorem fillAll_of_finish_eq_undefinedLabel {b : BodyBuilder} {index : UInt32}
    (h : b.finish = .error (.undefinedLabel index)) :
    fillAll b.labels (b.branches.toList ++ b.tables.toList) b.code = .error (.undefinedLabel index) := by
  unfold finish at h
  split at h
  · split at h
    · rename_i hfill
      cases h
      exact hfill
    · cases h
  · cases h

/-- Whatever was called, the targets of branches are defined, and a branch to any other label is
refused. A jump table is taken whatever labels it names, so all targets are defined all along exactly
if no jump table strays. A label that is reported at the end has no place, and was defined unless a
jump table strayed to it. -/
theorem targets_defined_unless_table_strays (calls : List (SinkCall BodyLabel BodyLocal)) :
    ((∀ before, before <+: calls → (empty.after before).OwnsTargets) ↔
      ∀ s ∈ empty.acceptedCalls calls, ∀ label, ¬s.Strays label) ∧
    (∀ d ∈ (empty.after calls).branches.toList,
      d.target.index.toNat < (empty.after calls).labels.size) ∧
    (∀ op target, takes op.kind (.label target) = true →
      (empty.after calls).labels.size ≤ target.index.toNat →
      (empty.after calls).perform (.emit op (.label target)) =
        (.error (.undefinedLabel target.index), empty.after calls)) ∧
    (∀ op (targets others : List BodyLabel), targets.length = others.length →
      ((empty.after calls).perform (.emit op (.labels targets))).1.isOk =
        ((empty.after calls).perform (.emit op (.labels others))).1.isOk) ∧
    ∀ index, (empty.after calls).finish = .error (.undefinedLabel index) →
      (∀ place, ¬PlacedIn calls ⟨index⟩ place) ∧
        (index.toNat < (empty.after calls).labels.size ∨
          ∃ s ∈ empty.acceptedCalls calls, s.Strays ⟨index⟩) := by
  refine ⟨ownsTargets_iff calls, branch_target_lt calls, ?_,
    fun op targets others => isOk_emit_labels_congr _ op, ?_⟩
  · intro op target htakes hsize
    simp [perform, emit, htakes, emitBranch, hsize]
  · intro index hfinish
    obtain ⟨⟨d, hd, htarget⟩, hplace⟩ :=
      exists_of_fillAll_eq_undefinedLabel (fillAll_of_finish_eq_undefinedLabel hfinish)
    refine ⟨fun place hplaced => hplace place ((place_iff_placedIn calls ⟨index⟩ place).mpr hplaced), ?_⟩
    rcases List.mem_append.mp hd with hbranch | htable
    · have hlt := branch_target_lt calls d hbranch
      rw [htarget] at hlt
      exact .inl hlt
    · have hlt := table_target_lt_or_strays calls d htable
      rwa [htarget] at hlt

/-- A jump table to a label that was never defined is accepted and written, and only the end of the
body notices. -/
theorem stray_table_accepted :
    ∃ b : BodyBuilder, b = empty.after [.emit .switch (.labels [⟨0⟩])] ∧
      (empty.perform (.emit .switch (.labels [⟨0⟩]))).1 = .ok () ∧ b.code.size = 9 ∧
      b.labels.size = 0 ∧ ¬b.OwnsTargets ∧ b.finish = .error (.undefinedLabel 0) := by
  refine ⟨_, rfl, by with_unfolding_all rfl, by decide +kernel, by decide +kernel, ?_, ?_⟩
  · have hstrays : AcceptedCall.Strays ⟨empty, .emit .switch (.labels [⟨0⟩])⟩ ⟨0⟩ :=
      ⟨.switch, [⟨0⟩], rfl, List.mem_cons_self, Nat.le_refl 0⟩
    exact hstrays.not_ownsTargets (step_perform empty (.emit .switch (.labels [⟨0⟩])))
  · with_unfolding_all rfl

end BodyBuilder

end CilAssembler
