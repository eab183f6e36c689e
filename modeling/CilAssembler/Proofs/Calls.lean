import CilAssembler.Proofs.Rosters

/-! # Instructions and their calls

An instruction tells which call it records, and which handles that call was given and gave back. A
recorder accepts that call exactly if the instruction is one that it admits. -/

namespace CilAssembler

/-! ## The call of an instruction -/

namespace Call

/-- The labels that the caller passes. -/
def labels : Call → List Label
  | .markLabel label => [label]
  | .emit _ x => x.targets
  | _ => []

/-- The local that the caller passes, if it passes one. -/
def localVar? : Call → Option Local
  | .emit _ (.localVar v) => some v
  | _ => none

end Call

namespace Instruction

/-- The call that the instruction records. -/
def call : Instruction → Call
  | .op o => .emit o.code o.operand
  | .defineLabel label => .defineLabel label.name
  | .markLabel label => .markLabel label
  | .declareLocal v => .declareLocal v.type v.pinned v.name
  | .beginExceptionBlock _ => .beginExceptionBlock
  | .beginCatchBlock type => .beginCatchBlock type
  | .beginExceptFilterBlock => .beginExceptFilterBlock
  | .beginFinallyBlock => .beginFinallyBlock
  | .beginFaultBlock => .beginFaultBlock
  | .endExceptionBlock _ => .endExceptionBlock
  | .beginScope => .beginScope
  | .endScope => .endScope

/-- What that call gave back. -/
def reply : (i : Instruction) → i.call.Reply
  | .defineLabel label | .beginExceptionBlock label => label
  | .declareLocal v => v
  | .op _ | .markLabel _ | .beginCatchBlock _ | .beginExceptFilterBlock | .beginFinallyBlock
  | .beginFaultBlock | .endExceptionBlock _ | .beginScope | .endScope => ()

/-- What the instruction allocates is of the given revision, and an end label has no name. -/
structure Allocates (revision : UInt32) (i : Instruction) : Prop where
  label : ∀ label, i.definedLabel? = some label → label.revision = revision
  localVar : ∀ v, i.declaredLocal? = some v → v.revision = revision
  exit : ∀ exit, i = .beginExceptionBlock exit → exit.name = none

theorem Allocates.of_none {i : Instruction} (hlabel : i.definedLabel? = none)
    (hlocal : i.declaredLocal? = none) (revision : UInt32) : i.Allocates revision := by
  refine ⟨?_, ?_, ?_⟩
  · intro label h
    rw [hlabel] at h
    cases h
  · intro v h
    rw [hlocal] at h
    cases h
  · rintro exit rfl
    cases hlabel

theorem Allocates.defineLabel {label : Label} {revision : UInt32} (h : label.revision = revision) :
    (Instruction.defineLabel label).Allocates revision :=
  ⟨by rintro _ ⟨⟩; exact h, by rintro _ ⟨⟩, by rintro _ ⟨⟩⟩

theorem Allocates.declareLocal {v : Local} {revision : UInt32} (h : v.revision = revision) :
    (Instruction.declareLocal v).Allocates revision :=
  ⟨by rintro _ ⟨⟩, by rintro _ ⟨⟩; exact h, by rintro _ ⟨⟩⟩

theorem Allocates.beginExceptionBlock {exit : Label} {revision : UInt32}
    (h : exit.revision = revision) (hname : exit.name = none) :
    (Instruction.beginExceptionBlock exit).Allocates revision :=
  ⟨by rintro _ ⟨⟩; exact h, by rintro _ ⟨⟩, by rintro _ ⟨⟩; exact hname⟩

theorem labels_call_subset (i : Instruction) : i.call.labels ⊆ i.labelsUsed := by
  cases i with
  | op | markLabel => exact List.Subset.refl _
  | _ => exact List.nil_subset _

theorem usesLocal_of_call {i : Instruction} {v : Local} (h : i.call.localVar? = some v) :
    i.UsesLocal v := by
  cases i with
  | op o =>
      refine ⟨o, rfl, ?_⟩
      obtain ⟨code, operand, size, fits, size_eq⟩ := o
      cases operand <;> cases h
      rfl
  | _ => cases h

end Instruction

/-! ## Accepted calls -/

/-- A call that is accepted is the one that its instruction records. -/
theorem Recorder.call_of_prepare {r : Recorder} {call : Call} {reply : call.Reply}
    {i : Instruction} (h : r.prepare call = .ok (reply, i)) :
    i.call = call ∧ i.Allocates r.revision := by
  cases call with
  | defineLabel name =>
      cases h
      exact ⟨rfl, .defineLabel rfl⟩
  | declareLocal type pinned name =>
      cases h
      exact ⟨rfl, .declareLocal rfl⟩
  | beginExceptionBlock =>
      cases h
      exact ⟨rfl, .beginExceptionBlock rfl rfl⟩
  | beginScope =>
      cases h
      exact ⟨rfl, .of_none rfl rfl _⟩
  | emit code x =>
      obtain ⟨o, hop, heq⟩ := Except.map_eq_ok.mp h
      cases heq
      obtain ⟨rfl, rfl⟩ := operand_of_make (checkOp_eq_ok.mp hop).1
      exact ⟨rfl, .of_none rfl rfl _⟩
  | _ =>
      obtain ⟨_, _, heq⟩ := Except.map_eq_ok.mp h
      cases heq
      exact ⟨rfl, .of_none rfl rfl _⟩

/-! ## Instructions whose calls are accepted -/

theorem Op.make_eq_ok (o : Op) : Op.make o.code o.operand = .ok o := by
  obtain ⟨code, operand, size, fits, size_eq⟩ := o
  unfold make
  rw [dif_pos fits]
  split
  · rename_i other hother
    have hsize : other = size := Except.ok.inj (hother.symm.trans size_eq)
    subst hsize
    rfl
  · rename_i e he
    cases he.symm.trans size_eq

namespace Recorder

theorem nextLabel_eq {r : Recorder} {label : Label} (howner : label.owner = r.id)
    (hrevision : label.revision = r.revision) (hindex : label.index = r.labels.size.toUInt32) :
    r.nextLabel label.name = label := by
  rw [nextLabel, ← howner, ← hrevision, ← hindex]

theorem nextLocal_eq {r : Recorder} {v : Local} (howner : v.owner = r.id)
    (hrevision : v.revision = r.revision) (hindex : v.index = r.locals.size.toUInt32) :
    r.nextLocal v.type v.pinned v.name = v := by
  rw [nextLocal, ← howner, ← hrevision, ← hindex]

/-- An admitted instruction is what its call becomes. -/
theorem prepare_call {r : Recorder} {i : Instruction} (hkept : r.Kept)
    (hadmits : r.books.Admits r.id i) (hallocates : i.Allocates r.revision) :
    r.prepare i.call = .ok (i.reply, i) := by
  have howner : ∀ label, r.books.HasLabel label → label.owner = r.id := by
    rw [hkept.books]
    exact fun label => hkept.recorded.owner_of_hasLabel
  have howner' : ∀ v, r.books.HasLocal v → v.owner = r.id := by
    rw [hkept.books]
    exact fun v => hkept.recorded.owner_of_hasLocal
  cases hadmits with
  | op o hlabels hlocal hroom =>
      have hop : r.checkOp o.code o.operand = .ok o := by
        refine checkOp_eq_ok.mpr ⟨o.make_eq_ok, checkReferences_eq_ok.mpr ⟨?_, ?_⟩, hroom⟩
        · exact fun label hlabel => ⟨howner label (hlabels label hlabel), hlabels label hlabel⟩
        · exact fun v hv => ⟨howner' v (hlocal v hv), hlocal v hv⟩
      exact Except.map_eq_ok.mpr ⟨o, hop, rfl⟩
  | defineLabel label hid hindex =>
      have hlabel := nextLabel_eq hid (hallocates.label label rfl) hindex
      simp only [Instruction.call, prepare, hlabel, Instruction.reply]
  | markLabel label hunmarked =>
      have hmark := checkMark_eq_ok.mpr ⟨howner label hunmarked.hasLabel, hunmarked⟩
      exact Except.map_eq_ok.mpr ⟨(), hmark, rfl⟩
  | declareLocal v hid hindex =>
      have hv := nextLocal_eq hid (hallocates.localVar v rfl) hindex
      simp only [Instruction.call, prepare, hv, Instruction.reply]
  | beginExceptionBlock exit hid hindex =>
      have hexit := nextLabel_eq hid (hallocates.label exit rfl) hindex
      rw [hallocates.exit exit rfl] at hexit
      simp only [Instruction.call, prepare, hexit, Instruction.reply]
  | beginScope => rfl
  | move _ call hcall hcheck hexit =>
      cases i with
      | endExceptionBlock exit =>
          cases hcall
          obtain ⟨hinnermost, hunmarked⟩ := hexit exit rfl
          have hmark := checkMark_eq_ok.mpr ⟨howner exit hunmarked.hasLabel, hunmarked⟩
          exact Except.map_eq_ok.mpr ⟨exit, checkEnd_eq_ok.mpr ⟨hcheck, hinnermost, hmark⟩, rfl⟩
      | op | defineLabel | markLabel | declareLocal | beginExceptionBlock | beginScope =>
          cases hcall
      | _ =>
          cases hcall
          exact Except.map_eq_ok.mpr ⟨(), hcheck, rfl⟩

end Recorder

end CilAssembler
