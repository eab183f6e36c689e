import CilAssembler.Proofs.Encoding
import CilAssembler.Proofs.JumpTargets
import Mathlib.Data.List.Pairwise

/-! # The displacements of a builder in its body

The accepted calls say where the displacements of branches and jump tables lie, which label each one
leads to, and where that label was placed. Finishing a builder writes into these fields and nowhere
else, whatever calls were made and in whatever order. -/

namespace CilAssembler

/-! ## Signed numbers -/

/-- The number whose bytes are given least significant first, in two's complement. -/
def signedOfLittleEndian (bytes : List UInt8) : Int :=
  if 2 * ofLittleEndian bytes < 256 ^ bytes.length then ofLittleEndian bytes
  else (ofLittleEndian bytes : Int) - (256 ^ bytes.length : Nat)

/-- Reading the written bytes gives back a number that fits the width. -/
theorem signedOfLittleEndian_littleEndianInt {width : Nat} {i : Int}
    (hfits : fitsSigned width i = true) : signedOfLittleEndian (littleEndianInt width i) = i := by
  have hread : ofLittleEndian (littleEndianInt width i) = (i % (256 ^ width : Nat)).toNat := by
    rw [littleEndianInt, ofLittleEndian_littleEndian, Nat.pow_eq]
    have hpos : 0 < 256 ^ width := Nat.pow_pos (by decide)
    have hlt := Int.emod_lt_of_pos i (Int.natCast_pos.mpr hpos)
    exact Nat.mod_eq_of_lt (by omega)
  simp only [fitsSigned, Nat.pow_eq, Bool.and_eq_true, decide_eq_true_eq] at hfits
  rw [signedOfLittleEndian, hread, length_littleEndianInt]
  generalize 256 ^ width = capacity at hfits
  by_cases hsign : 0 ≤ i
  · have hmod : i % capacity = i := Int.emod_eq_of_lt hsign (by omega)
    rw [hmod, if_pos (by omega)]
    omega
  · have hmod : i % capacity = i + capacity := by
      rw [Int.emod_eq_add_self_emod]
      exact Int.emod_eq_of_lt (by omega) (by omega)
    rw [hmod, if_neg (by omega)]
    omega

/-! ## Displacements of calls -/

/-- The displacements of an instruction that stands from `position` to `next`. A branch has one behind
its opcode; a jump table has one in each slot, and the slots follow the number of targets. -/
def SinkCall.jumps (position next : Nat) : SinkCall BodyLabel BodyLocal → List Displacement
  | .emit op (.label target) =>
      [⟨target, op, position, position + op.length, op.kind.branchWidth, next⟩]
  | .emit op (.labels targets) => targets.mapIdx fun slot target =>
      ⟨target, op, position, position + op.length + 4 + 4 * slot, 4, next⟩
  | _ => []

theorem SinkCall.jumps_apart (call : SinkCall BodyLabel BodyLocal) (position next : Nat) :
    (call.jumps position next).Pairwise Displacement.Apart := by
  unfold jumps
  split
  · exact List.pairwise_singleton _ _
  · apply List.pairwise_iff_getElem.mpr
    intro i j hi hj hlt
    simp only [List.getElem_mapIdx, Displacement.Apart]
    omega
  · exact .nil

namespace BodyBuilder

/-- The displacements of all accepted calls. -/
def jumps (calls : List (SinkCall BodyLabel BodyLocal)) : List Displacement :=
  (empty.acceptedCalls calls).flatMap fun s =>
    s.call.jumps s.before.code.size (s.before.perform s.call).2.code.size

/-- Every displacement lies within the code when it is filled in, after those before it. -/
def FillsWithin (b : BodyBuilder) : Prop :=
  ∀ done d rest code, b.branches.toList ++ b.tables.toList = done ++ d :: rest →
    fillAll b.labels done b.code = .ok code → d.field + d.width ≤ code.size

/-- The body has the code that the calls wrote, with every displacement filled in. -/
structure FillsJumps (calls : List (SinkCall BodyLabel BodyLocal)) (body : MethodBody) : Prop where
  size : body.code.size = (empty.after calls).code.size
  /-- Nothing but the displacements differs from what was written. -/
  kept : ∀ p, (∀ d ∈ jumps calls, ¬d.Covers p) → body.code[p]? = (empty.after calls).code[p]?
  apart : (jumps calls).Pairwise Displacement.Apart
  within : ∀ d ∈ jumps calls, d.field + d.width ≤ body.code.size
  /-- A displacement leads from the end of its instruction to the one place of its target. -/
  leads : ∀ d ∈ jumps calls, ∃ place : Nat, (∀ p, PlacedIn calls d.target p ↔ p = place) ∧
    signedOfLittleEndian (body.code.extract d.field (d.field + d.width)).toList + d.next = place

/-! ## One call -/

theorem tableDisplacements_eq_mapIdx (op : Opcode) (instruction next field : Nat)
    (targets : List BodyLabel) :
    tableDisplacements op instruction next field targets = targets.mapIdx fun slot target =>
      ⟨target, op, instruction, field + 4 * slot, 4, next⟩ := by
  induction targets generalizing field with
  | nil => rfl
  | cons target rest ih =>
      rw [tableDisplacements, List.mapIdx_cons, ih]
      simp only [Nat.mul_add, Nat.mul_one, Nat.add_assoc, Nat.add_comm 4]
      rfl

/-- A call opens the displacements of its instruction, if it has any and is accepted. -/
theorem Step.jump_cases {b b' : BodyBuilder} {call : SinkCall BodyLabel BodyLocal} {accepted : Bool}
    (h : Step b call accepted b') :
    (b'.branches = b.branches ∧ b'.tables = b.tables ∧
      (accepted = true → ∀ position next, call.jumps position next = [])) ∨
    (∃ op target, accepted = true ∧ call = .emit op (.label target) ∧
      b'.code.size = b.code.size + op.length + op.kind.branchWidth ∧
      b'.branches.toList = b.branches.toList ++ call.jumps b.code.size b'.code.size ∧
      b'.tables = b.tables) ∨
    (∃ op targets, accepted = true ∧ call = .emit op (.labels targets) ∧
      b'.code.size = b.code.size + op.length + 4 + 4 * targets.length ∧
      b'.branches = b.branches ∧
      b'.tables.toList = b.tables.toList ++ call.jumps b.code.size b'.code.size) := by
  cases h with
  | refused | brokenOff | halfBegun | dropped => exact .inl ⟨rfl, rfl, by rintro ⟨⟩⟩
  | scope hcall => exact .inl ⟨rfl, rfl, by rcases hcall with rfl | rfl <;> exact fun _ _ _ => rfl⟩
  | defined | declared | marked | spelled | begun | filtered | ended =>
      exact .inl ⟨rfl, rfl, fun _ _ _ => rfl⟩
  | @written op x htargets =>
      refine .inl ⟨rfl, rfl, fun _ position next => ?_⟩
      cases x with
      | label target => cases htargets
      | labels targets =>
          rw [Operand.targets] at htargets
          rw [htargets]
          rfl
      | _ => rfl
  | @handled call kind region rest hcall =>
      refine .inl ⟨rfl, rfl, fun _ _ _ => ?_⟩
      cases call with
      | emit => cases hcall
      | _ => rfl
  | @branched op target =>
      have hsize := b.size_write op (List.replicate op.kind.branchWidth 0)
      rw [List.length_replicate] at hsize
      refine .inr (.inl ⟨op, target, rfl, rfl, hsize, ?_, rfl⟩)
      simp only [SinkCall.jumps, Array.toList_push, hsize]
  | @switched op targets next hnext =>
      have hsize := b.size_write op (littleEndian 4 targets.length ++
        List.replicate (4 * targets.length) (0 : UInt8))
      rw [List.length_append, length_littleEndian, List.length_replicate, ← Nat.add_assoc, ← hnext]
        at hsize
      refine .inr (.inr ⟨op, targets, rfl, rfl, hsize.trans hnext, rfl, ?_⟩)
      simp only [SinkCall.jumps, Array.toList_appendList, tableDisplacements_eq_mapIdx, hsize]

/-- The displacements of a call lie in the code that it wrote. -/
theorem Step.jump_within {b b' : BodyBuilder} {call : SinkCall BodyLabel BodyLocal}
    (h : Step b call true b') {d : Displacement} (hd : d ∈ call.jumps b.code.size b'.code.size) :
    b.code.size ≤ d.field ∧ d.field + d.width ≤ b'.code.size := by
  rcases h.jump_cases with ⟨_, _, hnone⟩ | ⟨op, target, _, rfl, hsize, _, _⟩ |
    ⟨op, targets, _, rfl, hsize, _, _⟩
  · rw [hnone rfl] at hd
    cases hd
  · rw [List.mem_singleton.mp hd]
    simp only
    omega
  · obtain ⟨slot, hslot, rfl⟩ := List.mem_mapIdx.mp hd
    simp only
    omega

/-! ## Any number of calls -/

/-- The displacements that the builder keeps are these. They lie in the code and do not overlap. -/
structure Opens (b : BodyBuilder) (ds : List Displacement) : Prop where
  perm : (b.branches.toList ++ b.tables.toList).Perm ds
  apart : ds.Pairwise Displacement.Apart
  within : ∀ d ∈ ds, d.field + d.width ≤ b.code.size

theorem Opens.refused {b b' : BodyBuilder} {call : SinkCall BodyLabel BodyLocal} {ds : List Displacement}
    (h : b.Opens ds) (hstep : Step b call false b') : b'.Opens ds := by
  rcases hstep.jump_cases with ⟨hbranches, htables, _⟩ | ⟨_, _, ⟨⟩, _⟩ | ⟨_, _, ⟨⟩, _⟩
  refine ⟨?_, h.apart, fun d hd => Nat.le_trans (h.within d hd) hstep.size_code_le⟩
  rw [hbranches, htables]
  exact h.perm

theorem Opens.accepted {b b' : BodyBuilder} {call : SinkCall BodyLabel BodyLocal}
    {ds : List Displacement} (h : b.Opens ds) (hstep : Step b call true b') :
    b'.Opens (ds ++ call.jumps b.code.size b'.code.size) := by
  refine ⟨?_, ?_, ?_⟩
  · rcases hstep.jump_cases with ⟨hbranches, htables, hnone⟩ | ⟨_, _, _, _, _, hbranches, htables⟩ |
      ⟨_, _, _, _, _, hbranches, htables⟩
    · rw [hbranches, htables, hnone rfl, List.append_nil]
      exact h.perm
    · -- the branches come before the tables, so the new displacement is in the middle
      rw [hbranches, htables, List.append_assoc]
      refine .trans (.append_left _ List.perm_append_comm) ?_
      rw [← List.append_assoc]
      exact h.perm.append_right _
    · rw [hbranches, htables, ← List.append_assoc]
      exact h.perm.append_right _
  · refine List.pairwise_append.mpr ⟨h.apart, call.jumps_apart _ _, ?_⟩
    intro d hd e he
    exact .inl (Nat.le_trans (h.within d hd) (hstep.jump_within he).1)
  · intro d hd
    rcases List.mem_append.mp hd with hold | hnew
    · exact Nat.le_trans (h.within d hold) hstep.size_code_le
    · exact (hstep.jump_within hnew).2

theorem jumps_append_singleton (calls : List (SinkCall BodyLabel BodyLocal))
    (call : SinkCall BodyLabel BodyLocal) :
    jumps (calls ++ [call]) = jumps calls ++
      if ((empty.after calls).perform call).1.isOk then
        call.jumps (empty.after calls).code.size ((empty.after calls).perform call).2.code.size
      else [] := by
  rw [jumps, acceptedCalls_append, List.flatMap_append, acceptedCalls, acceptedCalls, List.append_nil]
  split
  · rw [List.flatMap_singleton]
    rfl
  · rfl

/-- The displacements that the builder keeps are those of the accepted calls. -/
theorem opens_after (calls : List (SinkCall BodyLabel BodyLocal)) :
    (empty.after calls).Opens (jumps calls) := by
  induction calls using List.reverseRecOn with
  | nil => exact ⟨.nil, .nil, by simp [jumps, acceptedCalls]⟩
  | append_singleton calls call ih =>
      have hstep := step_perform (empty.after calls) call
      rw [after_append_singleton, jumps_append_singleton]
      cases haccepted : ((empty.after calls).perform call).1.isOk with
      | false =>
          rw [haccepted] at hstep
          simpa using ih.refused hstep
      | true =>
          rw [haccepted] at hstep
          simpa using ih.accepted hstep

/-! ## The finished body -/

theorem Opens.apart_of_mem {b : BodyBuilder} {ds : List Displacement} (h : b.Opens ds) :
    ∀ d ∈ b.branches.toList ++ b.tables.toList, ∀ e ∈ b.branches.toList ++ b.tables.toList,
      d = e ∨ d.Apart e := by
  have : Std.Symm Displacement.Apart := ⟨fun _ _ => Or.symm⟩
  intro d hd e he
  by_cases heq : d = e
  · exact .inl heq
  · exact .inr (h.apart.forall (h.perm.mem_iff.mp hd) (h.perm.mem_iff.mp he) heq)

theorem Opens.fillsWithin {b : BodyBuilder} {ds : List Displacement} (h : b.Opens ds) :
    b.FillsWithin := by
  intro done d rest code hsplit hfill
  have hmem : ∀ e ∈ done ++ d :: rest, e ∈ b.branches.toList ++ b.tables.toList :=
    fun e he => hsplit ▸ he
  have hroom : ∀ e ∈ done ++ d :: rest, e.field + e.width ≤ b.code.size :=
    fun e he => h.within e (h.perm.mem_iff.mp (hmem e he))
  have hfilled : FilledIn b.labels done b.code code := by
    apply filledIn_of_fillAll hfill
    · intro e he f hf
      exact h.apart_of_mem e (hmem e (List.mem_append_left _ he)) f (hmem f (List.mem_append_left _ hf))
    · exact fun e he => hroom e (List.mem_append_left _ he)
  rw [hfilled.size]
  exact hroom d (List.mem_append_right _ List.mem_cons_self)

/-- Whatever was called, finishing never writes outside the code. A body that comes of it is the code
that was written, with the distance to the place of its target in each displacement. -/
theorem finish_writes_only_jumps (calls : List (SinkCall BodyLabel BodyLocal)) :
    (empty.after calls).FillsWithin ∧
      ∀ body, (empty.after calls).finish = .ok body → FillsJumps calls body := by
  have hopens := opens_after calls
  refine ⟨hopens.fillsWithin, ?_⟩
  intro body hfinish
  have hfilled := filledIn_of_fillAll (finish_eq_ok hfinish).1 hopens.apart_of_mem fun d hd =>
    hopens.within d (hopens.perm.mem_iff.mp hd)
  refine ⟨hfilled.size, ?_, hopens.apart, ?_, ?_⟩
  · intro p hp
    exact hfilled.kept p fun d hd => hp d (hopens.perm.mem_iff.mp hd)
  · intro d hd
    rw [hfilled.size]
    exact hopens.within d hd
  · intro d hd
    obtain ⟨place, hplace, hfits, hbytes⟩ :=
      take_of_filled (hfilled.filled d (hopens.perm.mem_iff.mpr hd))
    refine ⟨place, ?_, ?_⟩
    · intro p
      rcases labelPosition_cases (empty.after calls).labels d.target with
        ⟨_, hslot, hposition⟩ | ⟨_, hposition⟩
      · cases hposition.symm.trans hplace
        rw [← place_iff_placedIn, hslot]
        simp [eq_comm]
      · cases hposition.symm.trans hplace
    · rw [toList_extract_add, hbytes, signedOfLittleEndian_littleEndianInt hfits]
      omega

/-- A jump table with a repeated target, one without targets, and branches both ways. -/
theorem finish_writes_only_jumps_both_ways :
    ∃ calls : List (SinkCall BodyLabel BodyLocal),
      calls = [.defineLabel, .defineLabel, .markLabel ⟨0⟩, .emit .brS (.label ⟨1⟩),
        .emit .switch (.labels [⟨1⟩, ⟨0⟩, ⟨1⟩]), .emit .switch (.labels []), .endExceptionBlock,
        .markLabel ⟨1⟩, .emit .br (.label ⟨0⟩)] ∧
      (jumps calls).length = 5 ∧ ∃ body, (empty.after calls).finish = .ok body ∧ FillsJumps calls body := by
  have hbody : ∀ calls, (empty.after calls).finish.isOk = true →
      ∃ body, (empty.after calls).finish = .ok body ∧ FillsJumps calls body := by
    intro calls hok
    obtain ⟨body, hfinish⟩ := Except.exists_of_isOk hok
    exact ⟨body, hfinish, (finish_writes_only_jumps calls).2 body hfinish⟩
  exact ⟨_, rfl, by decide +kernel, hbody _ (by decide +kernel)⟩

end BodyBuilder

end CilAssembler
