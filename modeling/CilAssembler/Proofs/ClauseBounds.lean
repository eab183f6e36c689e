import CilAssembler.Proofs.BareBuilder
import CilAssembler.Proofs.OpenClauses

/-! # Clauses of a builder on its own

The lengths in a clause are differences of places that a region remembers: where it was opened, where
its first handler ended the try block, and where the handler and its filter began. Calls that come in
any order keep these places in the order in which they were passed. So every difference is one of a
place and an earlier one, and the blocks of a clause follow each other within the code. -/

namespace CilAssembler

/-- What closing the region at `position` subtracts is never larger than what it is subtracted from:
the protected block ends no earlier than it starts, and so does the handler. -/
structure OpenRegion.ClosesAt (region : OpenRegion) (position : Nat) : Prop where
  tryLength : ∀ handler, region.handler = some handler →
    region.tryStart ≤ if handler.coversPrevious then handler.opened else region.tryEnd.getD position
  handlerLength : ∀ handler, region.handler = some handler →
    handler.started.getD position ≤ position

/-- The blocks of the clause follow each other in code of the given size: first what is protected, then
the filter if there is one, then the handler. -/
structure ExceptionClause.LiesWithin (c : ExceptionClause) (size : Nat) : Prop where
  isSome_filterOffset : c.filterOffset.isSome = true ↔ c.isFilter = true
  tryBlock : c.tryOffset.toNat + c.tryLength.toNat ≤ (c.filterOffset.getD c.handlerOffset).toNat
  filter : (c.filterOffset.getD c.handlerOffset).toNat ≤ c.handlerOffset.toNat
  handler : c.handlerOffset.toNat + c.handlerLength.toNat ≤ size

theorem ExceptionClause.LiesWithin.mono {c : ExceptionClause} {size size' : Nat} (h : c.LiesWithin size)
    (hle : size ≤ size') : c.LiesWithin size' :=
  ⟨h.isSome_filterOffset, h.tryBlock, h.filter, Nat.le_trans h.handler hle⟩

/-! ## The places of a region -/

/-- The handler was opened after the end of the try block, and started where it was opened unless a
filter came first. -/
structure OpenHandler.InOrder (handler : OpenHandler) (tryEnd : Option Nat) (position : Nat) : Prop where
  opened : ∃ place, tryEnd = some place ∧ place ≤ handler.opened
  opened_le : handler.opened ≤ position
  started : ∀ place, handler.started = some place → handler.opened ≤ place ∧ place ≤ position
  unfiltered : handler.kind ≠ .filtering → handler.started = some handler.opened

/-- The places that the region remembers are in order and not beyond `position`. -/
structure OpenRegion.InOrder (region : OpenRegion) (position : Nat) : Prop where
  tryStart : region.tryStart ≤ position
  tryEnd : ∀ place, region.tryEnd = some place → region.tryStart ≤ place ∧ place ≤ position
  handler : ∀ handler, region.handler = some handler → handler.InOrder region.tryEnd position

theorem OpenHandler.isSome_filterOffset_clause (handler : OpenHandler) (tryStart tryEnd position : Nat) :
    (handler.clause tryStart tryEnd position).filterOffset.isSome = true ↔
      (handler.clause tryStart tryEnd position).isFilter = true := by
  cases hkind : handler.kind <;>
    simp [clause, ExceptionClause.isFilter, HandlerKind.flags, hkind] <;> decide

/-- What comes first after the protected block, a filter or the handler itself, is where the handler
was opened. -/
theorem OpenHandler.InOrder.first_clause {handler : OpenHandler} {fixed : Option Nat} {position : Nat}
    (h : handler.InOrder fixed position) (tryStart tryEnd : Nat) :
    (handler.clause tryStart tryEnd position).filterOffset.getD
      (handler.clause tryStart tryEnd position).handlerOffset = handler.opened.toUInt32 := by
  by_cases hkind : handler.kind = .filtering
  · simp [clause, hkind]
  · simp [clause, hkind, h.unfiltered hkind]

namespace OpenRegion

variable {region : OpenRegion} {position : Nat}

theorem InOrder.mono {later : Nat} (h : region.InOrder position) (hle : position ≤ later) :
    region.InOrder later where
  tryStart := Nat.le_trans h.tryStart hle
  tryEnd place hplace := ⟨(h.tryEnd place hplace).1, Nat.le_trans (h.tryEnd place hplace).2 hle⟩
  handler handler hhandler := by
    obtain ⟨hopened, hopenedle, hstarted, hunfiltered⟩ := h.handler handler hhandler
    refine ⟨hopened, Nat.le_trans hopenedle hle, ?_, hunfiltered⟩
    intro place hplace
    exact ⟨(hstarted place hplace).1, Nat.le_trans (hstarted place hplace).2 hle⟩

theorem InOrder.tryStart_le_getD (h : region.InOrder position) :
    region.tryStart ≤ region.tryEnd.getD position ∧ region.tryEnd.getD position ≤ position := by
  cases htryEnd : region.tryEnd with
  | none => exact ⟨h.tryStart, Nat.le_refl _⟩
  | some place => exact h.tryEnd place htryEnd

/-- What a handler protects ends before the handler was opened, and it was opened before it started. -/
theorem InOrder.places_le (h : region.InOrder position) {handler : OpenHandler}
    (hhandler : region.handler = some handler) :
    (if handler.coversPrevious then handler.opened else region.tryEnd.getD position) ≤ handler.opened ∧
      handler.opened ≤ handler.started.getD position ∧ handler.started.getD position ≤ position := by
  obtain ⟨⟨tryEnd, htryEnd, hle⟩, hopened, hstarted, _⟩ := h.handler handler hhandler
  refine ⟨?_, ?_⟩
  · rw [htryEnd]
    split
    · exact Nat.le_refl _
    · exact hle
  · cases hstart : handler.started with
    | none => exact ⟨hopened, Nat.le_refl _⟩
    | some place => exact hstarted place hstart

theorem InOrder.closesAt (h : region.InOrder position) : region.ClosesAt position where
  tryLength handler hhandler := by
    obtain ⟨place, htryEnd, hle⟩ := (h.handler handler hhandler).opened
    split
    · exact Nat.le_trans (h.tryEnd place htryEnd).1 hle
    · exact h.tryStart_le_getD.1
  handlerLength _ hhandler := (h.places_le hhandler).2.2

/-- A handler that is opened at the end of the code comes after everything in its region. -/
theorem InOrder.reopen (h : region.InOrder position) (kind : HandlerKind) :
    (region.reopen position kind).InOrder position := by
  have hstart : (region.reopen position kind).tryStart = region.tryStart := tryStart_close _ _
  have hend : (region.reopen position kind).tryEnd = some (region.tryEnd.getD position) :=
    tryEnd_close _ _
  constructor
  case tryStart =>
    rw [hstart]
    exact h.tryStart
  case tryEnd =>
    intro place hplace
    rw [hend] at hplace
    cases hplace
    rw [hstart]
    exact h.tryStart_le_getD
  case handler =>
    rintro _ ⟨⟩
    refine ⟨⟨_, hend, h.tryStart_le_getD.2⟩, Nat.le_refl _, ?_, ?_⟩
    · intro place hplace
      simp only at hplace
      split at hplace
      · cases hplace
      · cases hplace
        exact ⟨Nat.le_refl _, Nat.le_refl _⟩
    · exact fun hkind => if_neg hkind

/-- The handler of a filter starts at the end of the code. -/
theorem InOrder.start {exit : BodyLabel} {tryStart opened : Nat} {tryEnd : Option Nat}
    {closed : UInt32} {kind : HandlerKind} {covers : Bool}
    (h : InOrder ⟨exit, tryStart, tryEnd, closed, some ⟨kind, opened, none, covers⟩⟩ position) :
    InOrder ⟨exit, tryStart, tryEnd, closed, some ⟨kind, opened, some position, covers⟩⟩ position := by
  obtain ⟨hopened, hopenedle, _, hunfiltered⟩ := h.handler _ rfl
  refine ⟨h.tryStart, h.tryEnd, ?_⟩
  rintro _ ⟨⟩
  refine ⟨hopened, hopenedle, ?_, fun hkind => ?_⟩
  · rintro _ ⟨⟩
    exact ⟨hopenedle, Nat.le_refl _⟩
  · -- only a filter waits for its handler
    cases hunfiltered hkind

/-- The clause of a handler that is closed at the end of the code lies within the code. -/
theorem InOrder.liesWithin (h : region.InOrder position) (hroom : position ≤ offsetLimit)
    {handler : OpenHandler} (hhandler : region.handler = some handler) :
    (handler.clause region.tryStart (region.tryEnd.getD position) position).LiesWithin position := by
  have hexact : ∀ n, n ≤ position → n.toUInt32.toNat = n := fun n hn =>
    toNat_toUInt32_of_lt (Nat.lt_succ_of_le (Nat.le_trans hn hroom))
  have hstart := h.closesAt.tryLength handler hhandler
  obtain ⟨hends, hopened, hstarted⟩ := h.places_le hhandler
  have hfirst := (h.handler handler hhandler).first_clause region.tryStart (region.tryEnd.getD position)
  constructor
  case isSome_filterOffset => exact handler.isSome_filterOffset_clause _ _ _
  case tryBlock =>
    rw [hfirst, hexact _ (Nat.le_trans hopened hstarted)]
    simp only [OpenHandler.clause]
    rw [hexact _ h.tryStart, hexact _ (by omega), Nat.add_sub_of_le hstart]
    exact hends
  case filter =>
    rw [hfirst, hexact _ (Nat.le_trans hopened hstarted)]
    simp only [OpenHandler.clause]
    rw [hexact _ hstarted]
    exact hopened
  case handler =>
    simp only [OpenHandler.clause]
    rw [hexact _ hstarted, hexact _ (Nat.sub_le _ _), Nat.add_sub_of_le hstarted]

theorem InOrder.liesWithin_of_mem_close (h : region.InOrder position) (hroom : position ≤ offsetLimit)
    {clause : ExceptionClause} (hclause : clause ∈ (region.close position).2) :
    clause.LiesWithin position := by
  cases hhandler : region.handler with
  | none =>
      simp only [close, hhandler] at hclause
      cases hclause
  | some handler =>
      simp only [close, hhandler] at hclause
      cases hclause
      exact h.liesWithin hroom hhandler

end OpenRegion

namespace BodyBuilder

/-! ## Calls in any order -/

/-- The places in the open regions and in the clauses are in order. -/
structure InOrder (b : BodyBuilder) : Prop where
  regions : ∀ region ∈ b.regions, region.InOrder b.code.size
  clauses : ∀ clause ∈ b.clauses, clause.LiesWithin b.code.size

/-- A clause is only ever listed by closing the innermost region at the end of the code. -/
theorem Step.clauses_cases {b b' : BodyBuilder} {call : SinkCall BodyLabel BodyLocal} {accepted : Bool}
    (h : Step b call accepted b') :
    b'.clauses = b.clauses ∨ b.code.size ≤ offsetLimit ∧ ∃ region rest, b.regions = region :: rest ∧
      b'.clauses = b.clauses ++ (region.close b.code.size).2.toList := by
  cases h with
  | handled _ hroom hregions => exact .inr ⟨hroom, _, _, hregions, rfl⟩
  | ended hroom hregions => exact .inr ⟨hroom, _, _, hregions, rfl⟩
  | dropped hregions _ hroom => exact .inr ⟨hroom, _, _, hregions, rfl⟩
  | _ => exact .inl rfl

theorem InOrder.regions_step {b b' : BodyBuilder} {call : SinkCall BodyLabel BodyLocal}
    {accepted : Bool} (h : b.InOrder) (hstep : Step b call accepted b') :
    ∀ region ∈ b'.regions, region.InOrder b.code.size := by
  have hregions := h.regions
  cases hstep with
  | begun =>
      refine List.forall_mem_cons.mpr ⟨⟨Nat.le_refl _, ?_, ?_⟩, hregions⟩
      · rintro _ ⟨⟩
      · rintro _ ⟨⟩
  | filtered _ heq =>
      rw [heq, List.forall_mem_cons] at hregions
      exact List.forall_mem_cons.mpr ⟨hregions.1.start, hregions.2⟩
  | @handled _ kind _ _ _ _ heq =>
      rw [heq, List.forall_mem_cons] at hregions
      exact List.forall_mem_cons.mpr ⟨hregions.1.reopen kind, hregions.2⟩
  | ended _ heq =>
      rw [heq, List.forall_mem_cons] at hregions
      exact hregions.2
  | dropped heq =>
      rw [heq, List.forall_mem_cons] at hregions
      exact hregions.2
  | _ => exact hregions

theorem InOrder.step {b b' : BodyBuilder} {call : SinkCall BodyLabel BodyLocal} {accepted : Bool}
    (h : b.InOrder) (hstep : Step b call accepted b') : b'.InOrder where
  regions region hregion := (h.regions_step hstep region hregion).mono hstep.size_code_le
  clauses clause hclause := by
    refine ExceptionClause.LiesWithin.mono ?_ hstep.size_code_le
    rcases hstep.clauses_cases with hsame | ⟨hroom, region, rest, hregions, hadded⟩
    · exact h.clauses clause (hsame ▸ hclause)
    · rw [hadded, ← Array.mem_toList_iff, Array.toList_appendList, List.mem_append,
        Array.mem_toList_iff] at hclause
      rcases hclause with hold | hnew
      · exact h.clauses clause hold
      · have hregion := h.regions region (hregions ▸ List.mem_cons_self)
        exact hregion.liesWithin_of_mem_close hroom (Option.mem_toList.mp hnew)

theorem inOrder_after (calls : List (SinkCall BodyLabel BodyLocal)) : (empty.after calls).InOrder := by
  induction calls using List.reverseRecOn with
  | nil => exact ⟨by simp [after, empty], by simp [after, empty]⟩
  | append_singleton calls call ih =>
      rw [after_append_singleton]
      exact ih.step (step_perform _ call)

/-- Whatever was called and in whatever order, every difference that closing an open region takes is
one of a place and an earlier one. Clauses come of nothing else, and the blocks of each follow each
other within the code. -/
theorem clauses_lie_within_code (calls : List (SinkCall BodyLabel BodyLocal)) :
    (∀ region ∈ (empty.after calls).regions, region.ClosesAt (empty.after calls).code.size) ∧
    (∀ call, ((empty.after calls).perform call).2.clauses = (empty.after calls).clauses ∨
      ∃ region rest, (empty.after calls).regions = region :: rest ∧
        ((empty.after calls).perform call).2.clauses =
          (empty.after calls).clauses ++ (region.close (empty.after calls).code.size).2.toList) ∧
    ∀ clause ∈ (empty.after calls).clauses, clause.LiesWithin (empty.after calls).code.size := by
  have hinOrder := inOrder_after calls
  refine ⟨fun region hregion => (hinOrder.regions region hregion).closesAt, fun call => ?_,
    hinOrder.clauses⟩
  exact (step_perform (empty.after calls) call).clauses_cases.imp id And.right

-- a filter that never gets its handler, and a catch handler after a finally handler
example :
    (empty.after [.beginExceptionBlock, .emit .nop .none, .beginExceptFilterBlock, .emit .nop .none,
      .beginFinallyBlock, .emit .nop .none, .beginCatchBlock none, .emit .nop .none,
      .endExceptionBlock]).clauses =
      #[⟨ExceptionClause.filterFlag, 0, 1, 2, 0, none, some 1⟩,
        ⟨ExceptionClause.finallyFlag, 0, 2, 2, 1, none, none⟩, ⟨0, 0, 1, 3, 1, none, none⟩] := by
  decide +kernel

end BodyBuilder

end CilAssembler
