import CilAssembler.Proofs.Calls
import CilAssembler.Proofs.References
import CilAssembler.Proofs.Relabeling

/-! # Masked sessions

A session is masked by leaving out every name and replacing its identity by a fixed one, so that of
the owner of a handle only stays whether it is the session itself. A recorder treats a masked call
in a masked session as it treats the call in the session: it is accepted or refused alike, and what
is reported or recorded is the same up to the mask. -/

namespace CilAssembler

/-! ## Masks -/

/-- The member without its name. -/
def Member.unnamed (m : Member) : Member :=
  { m with name := "" }

/-- An owner as assembler `id` sees it: number zero is the assembler itself, number one is any
other. -/
def AssemblerId.masked (id owner : AssemblerId) : AssemblerId :=
  if owner = id then ⟨0⟩ else ⟨1⟩

/-- The label as assembler `id` sees it, without its name. -/
def Label.masked (id : AssemblerId) (label : Label) : Label :=
  { label with owner := id.masked label.owner, name := none }

/-- The local as assembler `id` sees it, without its name and that of its type. -/
def Local.masked (id : AssemblerId) (v : Local) : Local :=
  { v with owner := id.masked v.owner, type := v.type.unnamed, name := none }

/-- The handle as assembler `id` sees it. -/
def Handle.masked (id : AssemblerId) : Handle → Handle
  | .label target => .label (target.masked id)
  | .localVar v => .localVar (v.masked id)

/-- Replaces handles and members by masked ones. -/
def Relabeling.masking (id : AssemblerId) : Relabeling where
  label := Label.masked id
  localVar := Local.masked id
  member := Member.unnamed
  index_label _ := rfl
  index_localVar _ := rfl

open Relabeling (masking)

/-- The call without names. -/
def Call.masked (id : AssemblerId) : Call → Call
  | .defineLabel _ => .defineLabel none
  | .declareLocal type pinned _ => .declareLocal type.unnamed pinned none
  | .markLabel label => .markLabel (label.masked id)
  | .emit code x => .emit code (x.relabel (masking id))
  | .beginCatchBlock type => .beginCatchBlock (type.map Member.unnamed)
  | call => call

/-- The error without the name of the handle that it reports. -/
def Error.masked (id : AssemblerId) : Error → Error
  | .invalidLabel label fault => .invalidLabel (label.masked id) fault
  | .invalidLocal v fault => .invalidLocal (v.masked id) fault
  | .unmarkedLabel label => .unmarkedLabel (label.masked id)
  | e => e

/-- The outcome with a masked error or a replaced result. -/
def maskOutcome {α β : Type} (id : AssemblerId) (f : α → β) : Except Error α → Except Error β
  | .ok a => .ok (f a)
  | .error e => .error (e.masked id)

/-- The session without names, under the identity zero. -/
def Recorder.masked (r : Recorder) : Recorder :=
  r.relabel (masking r.id) ⟨0⟩

/-! ## What a mask keeps -/

section Outcomes

variable {α β γ : Type} {id : AssemblerId}

theorem maskOutcome_map (f : β → γ) (g : α → β) (x : Except Error α) :
    maskOutcome id f (x.map g) = maskOutcome id (fun a => f (g a)) x := by
  cases x <;> rfl

theorem map_maskOutcome (f : α → β) (g : β → γ) (x : Except Error α) :
    (maskOutcome id f x).map g = maskOutcome id (fun a => g (f a)) x := by
  cases x <;> rfl

theorem forM_masked {f : α → β} {p : α → Except Error Unit} {q : β → Except Error Unit}
    (h : ∀ x, q (f x) = maskOutcome id (fun u => u) (p x)) (xs : List α) :
    forM (xs.map f) q = maskOutcome id (fun u => u) (forM xs p) := by
  induction xs with
  | nil => rfl
  | cons x xs ih =>
      rw [List.map_cons, List.forM_cons, List.forM_cons, h x]
      cases p x with
      | error e => rfl
      | ok u => exact ih

end Outcomes

section Handles

variable {id : AssemblerId}

@[simp] theorem AssemblerId.masked_self : id.masked id = ⟨0⟩ :=
  if_pos rfl

theorem AssemblerId.masked_eq_zero_iff {owner : AssemblerId} : id.masked owner = ⟨0⟩ ↔ owner = id := by
  unfold masked
  split <;> simp_all

theorem Label.beq_masked {a b : Label} (h : b.owner = id) :
    (a.masked id == b.masked id) = (a == b) := by
  rw [Bool.eq_iff_iff, beq_iff, beq_iff]
  simp only [masked, h, AssemblerId.masked_self, AssemblerId.masked_eq_zero_iff]

theorem Local.sameSlot_masked {a b : Local} (h : b.owner = id) :
    (a.masked id).sameSlot (b.masked id) = a.sameSlot b := by
  have howner : (id.masked a.owner == id.masked b.owner) = (a.owner == b.owner) := by
    rw [Bool.eq_iff_iff, beq_iff_eq, beq_iff_eq, h, AssemblerId.masked_self,
      AssemblerId.masked_eq_zero_iff]
  simp only [sameSlot, masked, howner]

theorem Local.beq_masked {a b : Local} (h : b.owner = id) :
    (a.masked id == b.masked id) = (a == b) := by
  change ((a.masked id).sameSlot (b.masked id) && _ && _) = (a.sameSlot b && _ && _)
  rw [sameSlot_masked h]
  rfl

theorem Operand.handles_masked (x : Operand Label Local) :
    (x.relabel (masking id)).handles = x.handles.map (·.masked id) := by
  cases x with
  | labels targets =>
      simp only [relabel, map, handles, List.map_map]
      rfl
  | _ => rfl

end Handles

/-! ## Operations -/

namespace Op

variable {code : Opcode} {x : Operand Label Local} {e : Error}

theorem make_eq_error_iff :
    make code x = .error e ↔ if x.fits code.kind = true then instructionSize code x = .error e
      else e = .operandMismatch code code.kind x.describe := by
  unfold make
  split
  · split
    · rename_i size hsize
      simp [hsize]
    · rename_i e' hsize
      simp [hsize]
  · simp [eq_comm]

/-- An operation is refused for its category or its size, never for a handle. -/
theorem masked_of_make (h : make code x = .error e) (id : AssemblerId) : e.masked id = e := by
  rw [make_eq_error_iff] at h
  split at h
  · have hoperand := Except.map_eq_error.mp h
    unfold operandSize switchTableSize at hoperand
    split at hoperand <;> split at hoperand <;> cases hoperand <;> rfl
  · subst h
    rfl

/-- The operation of a masked operand is the masked operation. -/
theorem make_masked (id : AssemblerId) (code : Opcode) (x : Operand Label Local) :
    make code (x.relabel (masking id)) = maskOutcome id (·.relabel (masking id)) (make code x) := by
  cases hmake : make code x with
  | ok o =>
      obtain ⟨rfl, rfl⟩ := Recorder.operand_of_make hmake
      exact (o.relabel (masking id)).make_eq_ok
  | error e =>
      rw [maskOutcome, masked_of_make hmake]
      rw [make_eq_error_iff] at hmake ⊢
      rwa [Operand.fits_relabel, Operand.describe_relabel, Operand.relabel,
        Operand.instructionSize_map]

end Op

/-! ## Checks -/

namespace Recorder

variable (r : Recorder)

theorem getElem?_labels_masked (index : Nat) :
    r.masked.labels[index]? = r.labels[index]?.map (·.relabel (masking r.id)) := by
  simp [masked, relabel]

theorem getElem?_locals_masked (index : Nat) :
    r.masked.locals[index]? = r.locals[index]?.map (·.masked r.id) := by
  simp [masked, relabel, masking]

theorem labelSlot_masked (label : Label) :
    r.masked.labelSlot (label.masked r.id) =
      maskOutcome r.id (·.relabel (masking r.id)) (r.labelSlot label) := by
  have howner : (label.masked r.id).owner = r.masked.id ↔ label.owner = r.id :=
    AssemblerId.masked_eq_zero_iff
  have hindex : (label.masked r.id).index = label.index := rfl
  unfold labelSlot
  by_cases hown : label.owner = r.id
  · rw [if_pos (howner.mpr hown), if_pos hown, hindex, getElem?_labels_masked]
    cases r.labels[label.index.toNat]? with
    | none => rfl
    | some slot =>
        have hbeq : ((slot.relabel (masking r.id)).label == label.masked r.id) =
          (slot.label == label) := Label.beq_masked hown
        simp only [Option.map_some, hbeq]
        split <;> rfl
  · rw [if_neg (mt howner.mp hown), if_neg hown]
    rfl

theorem checkLabel_masked (label : Label) :
    r.masked.checkLabel (label.masked r.id) = maskOutcome r.id (fun u => u) (r.checkLabel label) := by
  rw [checkLabel, labelSlot_masked, map_maskOutcome, checkLabel, maskOutcome_map]

theorem checkLocal_masked (v : Local) :
    r.masked.checkLocal (v.masked r.id) = maskOutcome r.id (fun u => u) (r.checkLocal v) := by
  have howner : (v.masked r.id).owner = r.masked.id ↔ v.owner = r.id :=
    AssemblerId.masked_eq_zero_iff
  have hindex : (v.masked r.id).index = v.index := rfl
  unfold checkLocal
  by_cases hown : v.owner = r.id
  · rw [if_pos (howner.mpr hown), if_pos hown, hindex, getElem?_locals_masked]
    cases r.locals[v.index.toNat]? with
    | none => rfl
    | some slot =>
        simp only [Option.map_some, Local.beq_masked hown, Local.sameSlot_masked hown]
        split <;> rfl
  · rw [if_neg (mt howner.mp hown), if_neg hown]
    rfl

theorem checkHandle_masked (handle : Handle) :
    r.masked.checkHandle (handle.masked r.id) =
      maskOutcome r.id (fun u => u) (r.checkHandle handle) := by
  cases handle with
  | label label => exact checkLabel_masked r label
  | localVar v => exact checkLocal_masked r v

theorem checkMark_masked (label : Label) :
    r.masked.checkMark (label.masked r.id) = maskOutcome r.id (fun u => u) (r.checkMark label) := by
  rw [checkMark, labelSlot_masked, checkMark]
  cases r.labelSlot label with
  | error e => rfl
  | ok slot =>
      have hmark : (slot.relabel (masking r.id)).mark = slot.mark := rfl
      simp only [maskOutcome, hmark]
      split <;> rfl

theorem checkOp_masked (code : Opcode) (x : Operand Label Local) :
    r.masked.checkOp code (x.relabel (masking r.id)) =
      maskOutcome r.id (·.relabel (masking r.id)) (r.checkOp code x) := by
  have hreferences : r.masked.checkReferences (x.relabel (masking r.id)) =
      maskOutcome r.id (fun u => u) (r.checkReferences x) := by
    rw [checkReferences_eq, Operand.handles_masked, forM_masked r.checkHandle_masked,
      checkReferences_eq]
  rw [checkOp, Op.make_masked, hreferences, checkOp]
  cases Op.make code x with
  | error e => rfl
  | ok o =>
      cases r.checkReferences x with
      | error e => rfl
      | ok u =>
          have hroom : r.masked.stream.endOffset + (o.relabel (masking r.id)).size =
            r.stream.endOffset + o.size := rfl
          simp only [maskOutcome, hroom]
          split <;> rfl

/-- Regions are checked without looking at handles, and their faults name none. -/
theorem checkRegion_masked (call : RegionCall) :
    r.masked.regions.check call = maskOutcome r.id (fun u => u) (r.regions.check call) := by
  have hregions : r.masked.regions = r.regions.relabel (masking r.id) := rfl
  rw [hregions, RegionStack.check_relabel]
  unfold RegionStack.check
  split <;> rfl

theorem checkEnd_masked :
    r.masked.checkEnd = maskOutcome r.id (Label.masked r.id) r.checkEnd := by
  have hexit : r.masked.regions.innermostExit? = r.regions.innermostExit?.map (Label.masked r.id) :=
    RegionStack.innermostExit?_relabel (masking r.id) r.regions
  rw [checkEnd, checkRegion_masked, hexit, checkEnd]
  cases r.regions.check .endBlock with
  | error e => rfl
  | ok u =>
      cases r.regions.innermostExit? with
      | none => rfl
      | some exit =>
          simp only [maskOutcome, Option.map_some, checkMark_masked]
          cases r.checkMark exit <;> rfl

/-! ## Calls -/

theorem nextLabel_masked (name : Option String) :
    r.masked.nextLabel none = (r.nextLabel name).masked r.id := by
  simp [nextLabel, Label.masked, masked, relabel]

theorem nextLocal_masked (type : Member) (pinned : Bool) (name : Option String) :
    r.masked.nextLocal type.unnamed pinned none = (r.nextLocal type pinned name).masked r.id := by
  simp [nextLocal, Local.masked, masked, relabel]

/-- What the recorder makes of a masked call is the masked instruction. -/
theorem prepare_masked (call : Call) :
    (r.masked.prepare (call.masked r.id)).map Prod.snd =
      maskOutcome r.id (·.relabel (masking r.id)) ((r.prepare call).map Prod.snd) := by
  cases call with
  | defineLabel name =>
      simp only [Call.masked, prepare, nextLabel_masked r name]
      rfl
  | beginExceptionBlock =>
      simp only [Call.masked, prepare, nextLabel_masked r none]
      rfl
  | declareLocal type pinned name =>
      simp only [Call.masked, prepare, nextLocal_masked r type pinned name]
      rfl
  | markLabel label =>
      simp only [Call.masked, prepare, checkMark_masked]
      cases r.checkMark label <;> rfl
  | emit code x =>
      simp only [Call.masked, prepare, checkOp_masked]
      cases r.checkOp code x <;> rfl
  | beginCatchBlock type =>
      simp only [Call.masked, prepare, Option.isSome_map, checkRegion_masked]
      cases r.regions.check (.beginCatch type.isSome) <;> rfl
  | beginExceptFilterBlock =>
      simp only [Call.masked, prepare, checkRegion_masked]
      cases r.regions.check .beginFilter <;> rfl
  | beginFinallyBlock =>
      simp only [Call.masked, prepare, checkRegion_masked]
      cases r.regions.check .beginFinally <;> rfl
  | beginFaultBlock =>
      simp only [Call.masked, prepare, checkRegion_masked]
      cases r.regions.check .beginFault <;> rfl
  | endExceptionBlock =>
      simp only [Call.masked, prepare, checkEnd_masked]
      cases r.checkEnd <;> rfl
  | beginScope => rfl
  | endScope =>
      simp only [Call.masked, prepare, checkRegion_masked]
      cases r.regions.check .endScope <;> rfl

theorem record_masked (i : Instruction) :
    (r.record i).masked = r.masked.record (i.relabel (masking r.id)) :=
  relabel_record (masking r.id) ⟨0⟩ r i

theorem finish_masked :
    r.masked.finish = maskOutcome r.id (·.relabel (masking r.id)) r.finish := by
  have htarget : r.masked.unmarkedTarget? = r.unmarkedTarget?.map (Label.masked r.id) :=
    unmarkedTarget?_relabel (masking r.id) ⟨0⟩ r
  have hempty : r.masked.regions.isEmpty = r.regions.isEmpty := by
    simp [masked, relabel, RegionStack.relabel, RegionStack.isEmpty]
  have hdepth : r.masked.regions.depth = r.regions.depth := by
    simp [masked, relabel, RegionStack.relabel, RegionStack.depth]
  rw [finish, htarget, hempty, hdepth, finish]
  split
  · cases r.unmarkedTarget? <;> rfl
  · rfl

end Recorder

end CilAssembler
