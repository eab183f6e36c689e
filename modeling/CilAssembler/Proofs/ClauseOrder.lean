import CilAssembler.Proofs.Bookkeeping
import CilAssembler.Proofs.ExceptionTable

/-! # The order of the exception table

A runtime takes the first clause that fits, so inner clauses have to come first. They do: a clause is
closed after everything inside its blocks, and clauses are listed as they are closed. -/

namespace CilAssembler

/-! ## Cleanup handlers come last -/

/-- The open block of an exception region. -/
def Frame.state? : Frame → Option BlockState
  | .exceptionBlock _ state _ => some state
  | .scope => none

namespace RegionStack

variable {s : RegionStack} {call : RegionCall}

/-- The open blocks of the exception regions, innermost first. -/
def states (s : RegionStack) : List BlockState :=
  s.frames.filterMap Frame.state?

/-- A call that opens a handler is one that the innermost block allows. -/
theorem states_advance (h : s.check call = .ok ()) (hend : call ≠ .endBlock)
    (hscope : call ≠ .endScope) :
    ∃ state rest, s.states = state :: rest ∧ state.allows call = true ∧
      (s.advance call).states = call.opens :: rest := by
  obtain ⟨frames⟩ := s
  cases frames with
  | nil => cases h
  | cons frame rest =>
      cases frame with
      | scope => cases call <;> first | exact absurd rfl hscope | cases h
      | exceptionBlock exit state handlers =>
          refine ⟨state, rest.filterMap Frame.state?, rfl, ?_, ?_⟩
          · unfold check fault? at h
            cases call <;> first | exact absurd rfl hscope | skip
            all_goals
              by_contra hrefused
              simp [hrefused] at h
          · cases call <;> first | exact absurd rfl hscope | exact absurd rfl hend | rfl

theorem states_endBlock (h : s.check .endBlock = .ok ()) :
    ∃ state, s.states = state :: (s.advance .endBlock).states := by
  obtain ⟨frames⟩ := s
  cases frames with
  | nil => cases h
  | cons frame rest =>
      cases frame with
      | scope => cases h
      | exceptionBlock exit state handlers => exact ⟨state, rfl⟩

theorem states_endScope (h : s.check .endScope = .ok ()) :
    (s.advance .endScope).states = s.states := by
  obtain ⟨frames⟩ := s
  cases frames with
  | nil => cases h
  | cons frame rest =>
      cases frame with
      | scope => rfl
      | exceptionBlock exit state handlers => cases h

end RegionStack

theorem BlockState.not_allows_of_cleanup {state : BlockState} {call : RegionCall}
    (h : state = .inFinally ∨ state = .inFault) (hend : call ≠ .endBlock) :
    state.allows call = false := by
  rcases h with rfl | rfl
  all_goals
    cases call with
    | beginCatch typed => cases typed <;> rfl
    | endBlock => exact absurd rfl hend
    | _ => rfl

/-- The block is a cleanup handler if its region has one. -/
def BlockState.Settles (is : List Instruction) (k : Nat) (state : BlockState) : Prop :=
  ∀ m, Marks is k m → CleansUp is m → state = .inFinally ∨ state = .inFault

/-- A region with a cleanup handler is in that handler, and has no marker after it. -/
structure Settled (is : List Instruction) (states : List BlockState) : Prop where
  states : List.Forall₂ (BlockState.Settles is) (openBlocks is) states
  last : ∀ k m l, Marks is k m → CleansUp is m → Marks is k l → l ≤ m

namespace Settled

variable {is : List Instruction} {i : Instruction} {states : List BlockState} {k : Nat}

theorem settles_append {state : BlockState} (h : state.Settles is k)
    (hline : ¬Marks (is ++ [i]) k is.length) : state.Settles (is ++ [i]) k := by
  intro m hm hcleanup
  rcases lt_or_eq_of_lt_length hm.lt_length with hold | rfl
  · exact h m ((marks_append_iff hold).mp hm) ((cleansUp_append_iff hold).mp hcleanup)
  · exact absurd hm hline

theorem last_append (h : Settled is states)
    (hline : ∀ k m, Marks (is ++ [i]) k is.length → Marks is k m → ¬CleansUp is m) :
    ∀ k m l, Marks (is ++ [i]) k m → CleansUp (is ++ [i]) m → Marks (is ++ [i]) k l → l ≤ m := by
  intro k m l hm hcleanup hl
  rcases lt_or_eq_of_lt_length hm.lt_length with hmlt | rfl <;>
    rcases lt_or_eq_of_lt_length hl.lt_length with hllt | rfl
  · rw [marks_append_iff hmlt] at hm
    rw [cleansUp_append_iff hmlt] at hcleanup
    exact h.last k m l hm hcleanup ((marks_append_iff hllt).mp hl)
  · rw [marks_append_iff hmlt] at hm
    rw [cleansUp_append_iff hmlt] at hcleanup
    exact absurd hcleanup (hline k m hl hm)
  · exact Nat.le_of_lt hllt
  · exact Nat.le_refl _

theorem append_other {id : AssemblerId}
    (h : Settled is (Books.ofInstructions is).regions.states)
    (hadmits : (Books.ofInstructions is).Admits id i) (hmarker : i.handlerKind? = none) :
    Settled (is ++ [i]) (Books.ofInstructions (is ++ [i])).regions.states := by
  have hnot := not_marks_of_handlerKind?_eq_none hmarker is
  have hkeep : List.Forall₂ (BlockState.Settles (is ++ [i])) (openBlocks is)
      (Books.ofInstructions is).regions.states :=
    h.states.imp fun k state hstate => settles_append hstate (hnot k)
  refine ⟨?_, h.last_append fun k m hk => absurd hk (hnot k)⟩
  rw [Books.regions_append_singleton, openBlocks_append_singleton]
  cases hadmits with
  | beginExceptionBlock exit =>
      exact .cons (fun m hm => absurd hm (not_marks_length is _ m)) hkeep
  | move _ call hcall hcheck =>
      cases i with
      | endExceptionBlock exit =>
          cases hcall
          obtain ⟨state, hstates⟩ := RegionStack.states_endBlock hcheck
          rw [hstates] at hkeep
          obtain ⟨k, blocks, _, hrest, hblocks⟩ := List.forall₂_cons_right_iff.mp hkeep
          rw [hblocks]
          exact hrest
      | endScope =>
          cases hcall
          have hstates := RegionStack.states_endScope hcheck
          rw [← hstates] at hkeep
          exact hkeep
      | _ => first | (cases hcall; done) | cases hmarker
  | _ => exact hkeep

/-- A handler marker is refused where a cleanup handler is open. -/
theorem append_marker {id : AssemblerId} {kind : HandlerKind}
    (h : Settled is (Books.ofInstructions is).regions.states)
    (hadmits : (Books.ofInstructions is).Admits id i) (hkind : i.handlerKind? = some kind) :
    Settled (is ++ [i]) (Books.ofInstructions (is ++ [i])).regions.states := by
  obtain ⟨call, hcall, hcheck, hend, hscope, hopens⟩ : ∃ call, i.regionCall? = some call ∧
      (Books.ofInstructions is).regions.check call = .ok () ∧ call ≠ .endBlock ∧ call ≠ .endScope ∧
      (kind.isCleanup = true → call.opens = .inFinally ∨ call.opens = .inFault) := by
    cases hadmits with
    | move _ call hcall hcheck =>
        refine ⟨call, hcall, hcheck, ?_⟩
        cases i <;> cases hcall <;> cases hkind <;> simp [HandlerKind.isCleanup, RegionCall.opens]
    | _ => cases hkind
  obtain ⟨state, rest, hstates, hallows, hafter⟩ := RegionStack.states_advance hcheck hend hscope
  have hold := h.states
  rw [hstates] at hold
  obtain ⟨k, blocks, hstate, hrest, hblocks⟩ := List.forall₂_cons_right_iff.mp hold
  have hnone : ∀ m, Marks is k m → ¬CleansUp is m := by
    intro m hm hcleanup
    rw [BlockState.not_allows_of_cleanup (hstate m hm hcleanup) hend] at hallows
    cases hallows
  have hblock : blockAt (is ++ [i]) is.length = some k := by
    rw [blockAt_append (Nat.le_refl _), blockAt_length, hblocks, List.head?_cons]
  refine ⟨?_, h.last_append fun other m hother hm => ?_⟩
  · rw [Books.regions_append_singleton, Recorder.regionsAfter_of_move hcall, hafter,
      BodyBuilder.Traces.openBlocks_of_handlerKind? hkind, hblocks]
    refine .cons (fun m hm hcleanup => ?_) ?_
    · rcases lt_or_eq_of_lt_length hm.lt_length with hold | rfl
      · exact absurd ((cleansUp_append_iff hold).mp hcleanup)
          (hnone m ((marks_append_iff hold).mp hm))
      · rw [CleansUp, markAt?_length, hkind, Option.some.injEq, Option.some.injEq] at hcleanup
        exact hopens (OpenRegion.isCleanup_iff.mpr hcleanup)
    · have hinner := pairwise_openBlocks is
      rw [hblocks] at hinner
      refine ((List.forall₂_and_left _ _).mpr ⟨fun outer houter => ?_, hrest⟩).imp
        fun outer state hboth => settles_append hboth.2 hboth.1
      intro hmarks
      have hlt := List.rel_of_pairwise_cons hinner houter
      rw [hmarks.block_eq hblock] at hlt
      exact Nat.lt_irrefl _ hlt
  · rw [hother.block_eq hblock] at hm
    exact hnone m hm

end Settled

theorem Recorded.settled {id : AssemblerId} {is : List Instruction} (h : Recorded id is) :
    Settled is (Books.ofInstructions is).regions.states := by
  induction is using List.reverseRecOn with
  | nil => exact ⟨.nil, fun _ _ _ hm => absurd hm.lt_length (Nat.not_lt_zero _)⟩
  | append_singleton is i ih =>
      obtain ⟨hprev, hadmits⟩ := append_singleton_iff.mp h
      cases hkind : i.handlerKind? with
      | none => exact (ih hprev).append_other hadmits hkind
      | some kind => exact (ih hprev).append_marker hadmits hkind

/-! ## Clauses by their offsets -/

namespace ExceptionClause

/-- The offset after the protected block. -/
def tryEnd (c : ExceptionClause) : Nat :=
  c.tryOffset.toNat + c.tryLength.toNat

/-- The offset of the filter if there is one, and else of the handler. -/
def handlerStart (c : ExceptionClause) : Nat :=
  (c.filterOffset.getD c.handlerOffset).toNat

/-- How a clause may come before another one. It lies in the protected block or in the filter or
handler of the other, or it ends before the other begins; or the two are handlers of one block, or
it lies between the block of the other and its handler. -/
inductive Precedes (c d : ExceptionClause) : Prop where
  | inTry (hstart : d.tryOffset ≤ c.tryOffset) (hend : c.handlerEnd ≤ d.tryEnd)
  | inHandler (hstart : d.handlerStart ≤ c.tryOffset.toNat) (hend : c.handlerEnd ≤ d.handlerEnd)
  | before (hend : c.handlerEnd ≤ d.tryOffset.toNat)
  | sibling (htry : c.tryOffset = d.tryOffset) (hlength : c.tryLength = d.tryLength)
      (hend : c.handlerEnd ≤ d.handlerStart)
  | between (hstart : d.tryEnd ≤ c.tryOffset.toNat) (hend : c.handlerEnd ≤ d.handlerStart)

/-- A clause with code in it lies in a block of another one that goes beyond it. -/
structure Inside (c d : ExceptionClause) : Prop where
  nonempty : c.tryOffset.toNat < c.handlerEnd
  smaller : c.tryOffset ≠ d.tryOffset ∨ c.handlerEnd ≠ d.handlerEnd
  inside : d.tryOffset ≤ c.tryOffset ∧ c.handlerEnd ≤ d.tryEnd ∨
    d.handlerStart ≤ c.tryOffset.toNat ∧ c.handlerEnd ≤ d.handlerEnd

/-- The blocks of a clause come one after the other. -/
structure Ordered (c : ExceptionClause) : Prop where
  handler : c.tryEnd ≤ c.handlerStart
  ends : c.handlerStart ≤ c.handlerEnd

theorem Precedes.not_inside {c d : ExceptionClause} (h : c.Precedes d) (hc : c.Ordered)
    (hd : d.Ordered) : ¬d.Inside c := by
  rintro ⟨hnonempty, hsmaller, hinside⟩
  obtain ⟨hchandler, hcend⟩ := hc
  obtain ⟨hdhandler, hdend⟩ := hd
  have hctry : c.tryOffset.toNat ≤ c.tryEnd := Nat.le_add_right _ _
  have hdtry : d.tryOffset.toNat ≤ d.tryEnd := Nat.le_add_right _ _
  rw [UInt32.le_iff_toNat_le] at hinside
  rw [ne_eq, UInt32.toNat_inj.symm] at hsmaller
  cases h with
  | inTry hstart hend =>
      rw [UInt32.le_iff_toNat_le] at hstart
      omega
  | inHandler hstart hend => omega
  | before hend => omega
  | sibling htry hlength hend =>
      have hsame : c.tryEnd = d.tryEnd := by rw [tryEnd, tryEnd, htry, hlength]
      have hstart : c.tryOffset.toNat = d.tryOffset.toNat := congrArg UInt32.toNat htry
      omega
  | between hstart hend => omega

end ExceptionClause

/-! ## Clauses by their lines -/

/-- The clause begins in a block of the other one: its region is opened after the region of the other
and before the other is closed. -/
structure Span.Inside (s t : Span) : Prop where
  opened : t.block < s.block
  closed : s.block < t.close

/-- Where the blocks of a clause lie: its region begins at one line, its protected block ends at a
second, its handler begins at a third and ends at a fourth. -/
structure Span.Lies (is : List Instruction) (s : Span) (c : ExceptionClause) (e : Nat) : Prop where
  tryOffset : c.tryOffset.toNat = (Stream.ofInstructions is).offsetAt s.block
  tryEnd : c.tryEnd = (Stream.ofInstructions is).offsetAt e
  protectedTo : ProtectedTo is (CountsPrevious is s.block s.marker) s.block s.marker e
  handlerStart : c.handlerStart = (Stream.ofInstructions is).offsetAt s.marker
  handlerEnd : c.handlerEnd = (Stream.ofInstructions is).offsetAt s.close

section Order

variable {id : AssemblerId} {is : List Instruction} {s t : Span} {c d : ExceptionClause}

theorem Span.Describes.lies (h : s.Describes CountsPrevious (Stream.ofInstructions is) c)
    (hlimit : totalSize is ≤ offsetLimit) : ∃ e, s.Lies is c e := by
  obtain ⟨_, htry, ⟨e, hprotected, hlength⟩, ⟨start, hstart, hoffset⟩, hend, hfilter⟩ := h
  rw [Stream.instructions_ofInstructions] at hprotected hstart hfilter
  refine ⟨e, htry, hlength, hprotected, ?_, ?_⟩
  · by_cases hkind : markAt? is s.marker = some .filtering
    · rw [if_pos hkind] at hfilter
      obtain ⟨offset, hsome, heq⟩ := Option.map_eq_some_iff.mp hfilter
      rw [ExceptionClause.handlerStart, hsome, Option.getD_some, heq]
    · rw [if_neg hkind, Option.map_eq_none_iff] at hfilter
      rw [ExceptionClause.handlerStart, hfilter, Option.getD_none, hoffset]
      cases hstart with
      | marker => rfl
      | handler hfilters => exact absurd hfilters hkind
      | waiting hfilters => exact absurd hfilters hkind
  · have hle := Stream.offsetAt_le is s.close
    rw [offsetLimit] at hlimit
    rw [ExceptionClause.handlerEnd, hend]
    omega

theorem Span.Lies.ordered {e : Nat} (h : s.Lies is c e) (hs : s.Closes is) : c.Ordered := by
  constructor
  · rw [h.tryEnd, h.handlerStart]
    exact Stream.offsetAt_mono is (h.protectedTo.le hs.opens.marks).2
  · rw [h.handlerStart, h.handlerEnd]
    exact Stream.offsetAt_mono is (Nat.le_of_lt hs.lt)

/-- A clause that is closed first does not have the other one inside. -/
theorem Span.not_inside (hs : s.Closes is) (ht : t.Closes is) (hst : s.close < t.close) :
    ¬t.Inside s := by
  rintro ⟨hopened, hclosed⟩
  have hle := le_of_blockAt hs.block_close ht.block_close (Nat.le_of_lt hst) hopened
  omega

/-- Of two clauses of one region, the first is closed before the second is opened. -/
theorem Span.close_le_marker (hs : s.Closes is) (ht : t.Closes is) (hst : s.close < t.close)
    (hblock : s.block = t.block) : s.close ≤ t.marker := by
  by_contra hearly
  have hopens := ht.opens
  rw [← hblock] at hopens
  rcases Nat.lt_trichotomy s.marker t.marker with hlt | heq | hgt
  · exact hs.next _ hlt (Nat.lt_of_not_le hearly) hopens
  · exact Nat.ne_of_lt hst (hs.close_eq ht hblock heq)
  · have hopens := hs.opens
    rw [hblock] at hopens
    exact ht.next _ hgt (Nat.lt_trans hs.lt hst) hopens

/-- Two clauses of one region: siblings, or the second one covers the first. -/
theorem Span.precedes_of_same {e e' : Nat} (hrecorded : Recorded id is) (hs : s.Closes is)
    (ht : t.Closes is) (hst : s.close < t.close) (hc : s.Lies is c e) (hd : t.Lies is d e')
    (hblock : s.block = t.block) : c.Precedes d := by
  have hle := Span.close_le_marker hs ht hst hblock
  have htry : c.tryOffset = d.tryOffset := by
    rw [← UInt32.toNat_inj, hc.tryOffset, hd.tryOffset, hblock]
  have hends : c.handlerEnd ≤ (Stream.ofInstructions is).offsetAt t.marker := by
    rw [hc.handlerEnd]
    exact Stream.offsetAt_mono is hle
  have hprotected := hc.protectedTo
  have htryEnd := hd.tryEnd
  cases hd.protectedTo with
  | covering _ =>
      refine .inTry (Nat.le_of_eq (congrArg UInt32.toNat htry.symm)) ?_
      rw [htryEnd]
      exact hends
  | first hfirst _ =>
      cases hprotected with
      | covering hcovers =>
          -- A cleanup handler would have to be the last of its region.
          have hmarks := ht.opens.marks
          rw [← hblock] at hmarks
          have hlast := hrecorded.settled.last _ _ _ hs.opens.marks hcovers.cleanup hmarks
          have hlt := hs.lt
          omega
      | first hfirst' _ =>
          have hsame : c.tryEnd = d.tryEnd := by
            rw [hblock] at hfirst'
            rw [htryEnd, hc.tryEnd, hfirst'.unique hfirst]
          refine .sibling htry ?_ (hd.handlerStart ▸ hends)
          rw [ExceptionClause.tryEnd, ExceptionClause.tryEnd, htry] at hsame
          exact UInt32.toNat_inj.mp (Nat.add_left_cancel hsame)

/-- A clause of a region that lies in another region: in its protected block, in its handler, or in
between in an earlier handler. -/
theorem Span.precedes_of_inner {e e' : Nat} (hs : s.Closes is) (ht : t.Closes is)
    (hst : s.close < t.close) (hc : s.Lies is c e) (hd : t.Lies is d e') (hblock : t.block < s.block) :
    c.Precedes d := by
  -- The lines of the outer region are not among those of the inner one.
  have hapart : ∀ n, blockAt is n = some t.block → n ≤ s.block ∨ s.close ≤ n := by
    intro n hn
    rcases Nat.le_total n s.close with hle | hle
    · exact .inl (le_of_blockAt hn hs.block_close hle hblock)
    · exact .inr hle
  have hmono := fun m n => Stream.offsetAt_mono is (m := m) (n := n)
  have hprotects : blockAt is e' = some t.block := by
    cases hd.protectedTo with
    | first hfirst _ => exact hfirst.marks.block
    | covering _ => exact ht.opens.marks.block
  rcases hapart t.marker ht.opens.marks.block with hle | hge
  · apply ExceptionClause.Precedes.inHandler
    · rw [hd.handlerStart, hc.tryOffset]
      exact hmono _ _ hle
    · rw [hc.handlerEnd, hd.handlerEnd]
      exact hmono _ _ (Nat.le_of_lt hst)
  · rcases hapart e' hprotects with hle | hge'
    · apply ExceptionClause.Precedes.between
      · rw [hd.tryEnd, hc.tryOffset]
        exact hmono _ _ hle
      · rw [hc.handlerEnd, hd.handlerStart]
        exact hmono _ _ hge
    · apply ExceptionClause.Precedes.inTry
      · rw [UInt32.le_iff_toNat_le, hd.tryOffset, hc.tryOffset]
        exact hmono _ _ (Nat.le_of_lt hblock)
      · rw [hc.handlerEnd, hd.tryEnd]
        exact hmono _ _ hge'

/-- Whatever their regions, the clause that is closed first may come first. -/
theorem Span.precedes {e e' : Nat} (hrecorded : Recorded id is) (hs : s.Closes is) (ht : t.Closes is)
    (hst : s.close < t.close) (hc : s.Lies is c e) (hd : t.Lies is d e') : c.Precedes d := by
  rcases Nat.lt_trichotomy s.block t.block with hlt | heq | hgt
  · apply ExceptionClause.Precedes.before
    rw [hc.handlerEnd, hd.tryOffset]
    exact Stream.offsetAt_mono is (le_of_blockAt hs.block_close ht.block_close (Nat.le_of_lt hst) hlt)
  · exact precedes_of_same hrecorded hs ht hst hc hd heq
  · exact precedes_of_inner hs ht hst hc hd hgt

theorem pairwise_of_forall₂ {α β : Type} {R : α → α → Prop} {P : α → β → Prop} {S : β → β → Prop}
    {xs : List α} {ys : List β} (h : List.Forall₂ P xs ys) (hxs : xs.Pairwise R)
    (himp : ∀ x x' y y', R x x' → P x y → P x' y' → S y y') : ys.Pairwise S := by
  rw [List.pairwise_iff_getElem] at hxs ⊢
  intro m n hm hn hmn
  have hlength := h.length_eq
  exact himp _ _ _ _ (hxs m n (by omega) (by omega) hmn) (h.get (by omega) hm) (h.get (by omega) hn)

/-- Clauses that are listed as they are closed are in order. -/
theorem Lists.precedes {clauses : List ExceptionClause} (hrecorded : Recorded id is)
    (h : Lists CountsPrevious (Stream.ofInstructions is) clauses) :
    clauses.Pairwise ExceptionClause.Precedes ∧ clauses.Pairwise (fun c d => ¬d.Inside c) ∧
      ∃ spans,
        List.Forall₂ (Span.Describes CountsPrevious (Stream.ofInstructions is)) spans clauses ∧
        spans.Pairwise fun s t => ¬t.Inside s := by
  obtain ⟨spans, hmem, horder, hclauses⟩ := h
  simp only [Stream.instructions_ofInstructions] at hmem
  have hlies : List.Forall₂ (fun s c => s.Closes is ∧ ∃ e, s.Lies is c e) spans clauses :=
    ((List.forall₂_and_left _ _).mpr ⟨fun s hs => (hmem s).mp hs, hclauses⟩).imp
      fun s c hboth => ⟨hboth.1, hboth.2.lies hrecorded.totalSize_le⟩
  refine ⟨?_, ?_, spans, hclauses, ?_⟩
  · refine pairwise_of_forall₂ hlies horder ?_
    rintro s t c d hst ⟨hs, e, hc⟩ ⟨ht, e', hd⟩
    exact Span.precedes hrecorded hs ht hst hc hd
  · refine pairwise_of_forall₂ hlies horder ?_
    rintro s t c d hst ⟨hs, e, hc⟩ ⟨ht, e', hd⟩
    exact (Span.precedes hrecorded hs ht hst hc hd).not_inside (hc.ordered hs) (hd.ordered ht)
  · exact horder.imp_of_mem fun hs ht hst => Span.not_inside ((hmem _).mp hs) ((hmem _).mp ht) hst

end Order

/-- Whatever was called: every clause may come before those that follow it, so no clause comes before
one that lies inside it, by the offsets of their blocks or by the lines of their regions. -/
theorem Assembler.clauses_innermost_first (id : AssemblerId) (calls : List Call) :
    let a := (new id BodyBuilder.empty).after calls
    a.sink.clauses.toList.Pairwise ExceptionClause.Precedes ∧
    a.sink.clauses.toList.Pairwise (fun c d => ¬d.Inside c) ∧
    ∃ spans,
      List.Forall₂ (Span.Describes CountsPrevious a.recorder.stream) spans a.sink.clauses.toList ∧
      spans.Pairwise fun s t => ¬t.Inside s := by
  intro a
  have htabulates : a.Tabulates := (tabulates_new id).after calls
  have hkept := htabulates.builds.kept
  rw [hkept.stream_eq]
  exact htabulates.traces.clauses.precedes hkept.recorded

end CilAssembler
