import CilAssembler.Proofs.Clauses

/-! # Open regions and their lines

An open region of a builder holds exactly what its next clause needs to know of the lines so far: the
offset of its first marker, the last marker that opened a clause, and whether a filter still waits
for its handler. One call moves the regions and the clauses in a few ways only, and each of them
keeps this up. -/

namespace CilAssembler

namespace OpenRegion

/-- The region has no handler yet. -/
structure Trying (is : List Instruction) (k : Nat) (region : OpenRegion) : Prop where
  tryEnd : region.tryEnd = none
  closedHandlers : region.closedHandlers = 0
  handler : region.handler = none
  unmarked : ∀ m, ¬Marks is k m

/-- The clause that line `m` opened is open. -/
structure Handling (is : List Instruction) (k m : Nat) (region : OpenRegion) : Prop where
  first : ∃ f, FirstMark is k f ∧ region.tryEnd = some ((Stream.ofInstructions is).offsetAt f)
  opens : Opens is k m
  last : ∀ l, m < l → ¬Opens is k l
  closed : region.closedHandlers = (clausesBefore is k m).toUInt32
  handler : ∃ kind start, markAt? is m = some kind ∧ Started is k m is.length start ∧
    region.handler = some ⟨kind, (Stream.ofInstructions is).offsetAt m,
      start.map (Stream.ofInstructions is).offsetAt, kind.isCleanup && 0 < region.closedHandlers⟩

/-- The region is the one opened at line `k`, as the lines so far leave it. -/
structure Follows (is : List Instruction) (k : Nat) (region : OpenRegion) : Prop where
  lt : k < is.length
  tryStart : region.tryStart = (Stream.ofInstructions is).offsetAt k
  stage : region.Trying is k ∨ ∃ m, region.Handling is k m

variable {is : List Instruction} {i : Instruction} {k m : Nat} {region : OpenRegion}

/-! ## Lines of other regions -/

theorem Trying.append (h : region.Trying is k) (hline : ¬Marks (is ++ [i]) k is.length) :
    region.Trying (is ++ [i]) k := by
  refine ⟨h.tryEnd, h.closedHandlers, h.handler, fun m hm => ?_⟩
  rcases lt_or_eq_of_lt_length hm.lt_length with hold | rfl
  · exact h.unmarked m ((marks_append_iff hold).mp hm)
  · exact hline hm

theorem map_offsetAt_append {start : Option Nat} {n : Nat} (h : Started is k m n start)
    (hm : m < n) (hn : n ≤ is.length) :
    start.map (Stream.ofInstructions (is ++ [i])).offsetAt =
      start.map (Stream.ofInstructions is).offsetAt := by
  refine Option.map_congr fun s hs => Stream.offsetAt_append ?_ [i]
  have hle := h.getD_le hm
  rw [hs, Option.getD_some] at hle
  exact Nat.le_trans hle hn

/-- The clause stays open over a line that opens none. -/
theorem Handling.extend {region' : OpenRegion} (h : region.Handling is k m)
    (hline : ¬Opens (is ++ [i]) k is.length) (htryEnd : region'.tryEnd = region.tryEnd)
    (hclosed : region'.closedHandlers = region.closedHandlers)
    (hhandler : ∃ kind start, markAt? is m = some kind ∧
      Started (is ++ [i]) k m (is ++ [i]).length start ∧
      region'.handler = some ⟨kind, (Stream.ofInstructions is).offsetAt m,
        start.map (Stream.ofInstructions (is ++ [i])).offsetAt,
        kind.isCleanup && 0 < region.closedHandlers⟩) :
    region'.Handling (is ++ [i]) k m := by
  obtain ⟨f, hfirst, hf⟩ := h.first
  have hm := h.opens.marks.lt_length
  constructor
  case first =>
    refine ⟨f, hfirst.append, ?_⟩
    rw [htryEnd, hf, Stream.offsetAt_append (Nat.le_of_lt hfirst.marks.lt_length)]
  case opens => exact (opens_append_iff hm).mpr h.opens
  case last =>
    intro l hl hopen
    rcases lt_or_eq_of_lt_length hopen.marks.lt_length with hold | rfl
    · exact h.last l hl ((opens_append_iff hold).mp hopen)
    · exact hline hopen
  case closed => rw [hclosed, h.closed, clausesBefore_append (Nat.le_of_lt hm)]
  case handler =>
    rw [hclosed, markAt?_append hm, Stream.offsetAt_append (Nat.le_of_lt hm)]
    exact hhandler

theorem Handling.append (h : region.Handling is k m) (hline : ¬Marks (is ++ [i]) k is.length) :
    region.Handling (is ++ [i]) k m := by
  obtain ⟨kind, start, hkind, hstart, hhandler⟩ := h.handler
  have hm := h.opens.marks.lt_length
  refine h.extend (fun hopen => hline hopen.marks) rfl rfl ⟨kind, start, hkind, ?_, ?_⟩
  · rw [List.length_append, List.length_singleton]
    exact (hstart.append hm (Nat.le_refl _)).extend hline
  · rw [hhandler, map_offsetAt_append hstart hm (Nat.le_refl _)]

theorem Follows.extend {region' : OpenRegion} (h : region.Follows is k)
    (htryStart : region'.tryStart = region.tryStart)
    (hstage : region'.Trying (is ++ [i]) k ∨ ∃ m, region'.Handling (is ++ [i]) k m) :
    region'.Follows (is ++ [i]) k := by
  refine ⟨?_, ?_, hstage⟩
  · rw [List.length_append]
    exact Nat.lt_add_right _ h.lt
  · rw [htryStart, h.tryStart, Stream.offsetAt_append (Nat.le_of_lt h.lt)]

/-- A line that is no marker of the region leaves it as it is. -/
theorem Follows.append (h : region.Follows is k) (hline : ¬Marks (is ++ [i]) k is.length) :
    region.Follows (is ++ [i]) k :=
  h.extend rfl (h.stage.imp (·.append hline) fun ⟨m, hm⟩ => ⟨m, hm.append hline⟩)

/-! ## Markers of the region -/

/-- A marker opens a clause unless a filter waits for it. -/
theorem Follows.opens {kind : HandlerKind} (h : region.Follows is k)
    (hblock : blockAt is is.length = some k) (hkind : i.handlerKind? = some kind)
    (hready : ¬(i = .beginCatchBlock none ∧
      ∃ handler, region.handler = some handler ∧ handler.started = none)) :
    Opens (is ++ [i]) k is.length := by
  refine ⟨⟨?_, by rw [markAt?_length, hkind, Option.isSome_some]⟩, ?_⟩
  · rwa [blockAt_append (Nat.le_refl _)]
  rintro ⟨hcatch, hfiltering⟩
  rw [filtering_append_iff (Nat.le_refl _)] at hfiltering
  obtain ⟨j, hj, hmarks, hfilter, hafter⟩ := hfiltering
  have hi : i = .beginCatchBlock none := by simpa using hcatch
  refine hready ⟨hi, ?_⟩
  rcases h.stage with htrying | ⟨m, hhandling⟩
  · exact absurd hmarks (htrying.unmarked j)
  obtain ⟨kind, start, hkindm, hstart, hhandler⟩ := hhandling.handler
  -- The last marker is a filter, so it opened the clause that is open.
  have hopensj : Opens is k j := by
    refine ⟨hmarks, fun hcatch => ?_⟩
    rw [markAt?, hcatch.1] at hfilter
    cases hfilter
  have heq : m = j := by
    have hmj := hhandling.last j
    have hjm := hafter m
    by_contra hne
    rcases Nat.lt_or_gt_of_ne hne with hlt | hgt
    · exact hmj hlt hopensj
    · exact hjm hgt hhandling.opens.marks.lt_length hhandling.opens.marks
  cases heq
  cases hstart with
  | marker hother => exact absurd hfilter hother
  | handler _ hlate hbefore hblockh hcatchh _ =>
      exact absurd ⟨hblockh, by rw [markAt?, hcatchh]; rfl⟩ (hafter _ hlate hbefore)
  | waiting _ _ => exact ⟨_, hhandler, rfl⟩

theorem tryStart_close (region : OpenRegion) (position : Nat) :
    (region.close position).1.tryStart = region.tryStart := by
  unfold close
  cases region.handler <;> rfl

theorem tryEnd_close (region : OpenRegion) (position : Nat) :
    (region.close position).1.tryEnd = some (region.tryEnd.getD position) := by
  unfold close
  cases region.handler <;> rfl

/-- A region whose last line opened a clause. -/
theorem Handling.of_opens {kind : HandlerKind} (hopens : Opens (is ++ [i]) k is.length)
    (hkind : i.handlerKind? = some kind)
    (hfirst : ∃ f, FirstMark (is ++ [i]) k f ∧
      region.tryEnd = some ((Stream.ofInstructions (is ++ [i])).offsetAt f))
    (hclosed : region.closedHandlers = (clausesBefore (is ++ [i]) k is.length).toUInt32)
    (hhandler : region.handler = some ⟨kind, totalSize is,
      if kind = .filtering then none else some (totalSize is),
      kind.isCleanup && 0 < region.closedHandlers⟩) :
    region.Handling (is ++ [i]) k is.length := by
  have hoffset : (Stream.ofInstructions (is ++ [i])).offsetAt is.length = totalSize is := by
    rw [Stream.offsetAt_append (Nat.le_refl _), Stream.offsetAt_length]
  have hmark : markAt? (is ++ [i]) is.length = some kind := by rw [markAt?_length, hkind]
  refine ⟨hfirst, hopens, fun l hl hopen => ?_, hclosed, kind, ?_⟩
  · rcases lt_or_eq_of_lt_length hopen.marks.lt_length with hlt | rfl
    · exact Nat.lt_asymm hl hlt
    · exact Nat.lt_irrefl _ hl
  · rw [hoffset, hhandler]
    by_cases hfilter : kind = .filtering
    · refine ⟨none, hmark, .waiting (hfilter ▸ hmark) fun l hl hln => ?_, by simp [hfilter]⟩
      rw [List.length_append, List.length_singleton] at hln
      omega
    · refine ⟨some is.length, hmark, .marker ?_, by simp [hfilter, hoffset]⟩
      simpa [hmark] using hfilter

/-- A marker that opens a clause closes the one before it. -/
theorem Follows.reopen {kind : HandlerKind} (h : region.Follows is k)
    (hopens : Opens (is ++ [i]) k is.length) (hkind : i.handlerKind? = some kind) :
    (region.reopen (totalSize is) kind).Follows (is ++ [i]) k := by
  have hoffset : (Stream.ofInstructions (is ++ [i])).offsetAt is.length = totalSize is := by
    rw [Stream.offsetAt_append (Nat.le_refl _), Stream.offsetAt_length]
  have htryEnd : (region.reopen (totalSize is) kind).tryEnd =
      some (region.tryEnd.getD (totalSize is)) :=
    tryEnd_close region _
  refine h.extend (tryStart_close region _) (.inr ⟨is.length, .of_opens hopens hkind ?_ ?_ rfl⟩)
  · rw [htryEnd]
    rcases h.stage with htrying | ⟨m, hhandling⟩
    · refine ⟨is.length, ⟨hopens.marks, fun l hl => Nat.le_of_not_lt fun hlt => ?_⟩, ?_⟩
      · exact htrying.unmarked l ((marks_append_iff hlt).mp hl)
      · rw [htrying.tryEnd, hoffset, Option.getD_none]
    · obtain ⟨f, hfirst, hf⟩ := hhandling.first
      refine ⟨f, hfirst.append, ?_⟩
      rw [hf, Option.getD_some, Stream.offsetAt_append (Nat.le_of_lt hfirst.marks.lt_length)]
  · rw [clausesBefore_append (Nat.le_refl _)]
    rcases h.stage with htrying | ⟨m, hhandling⟩
    · have hnone : clausesBefore is k is.length = 0 := by
        refine Nat.eq_zero_of_not_pos fun hpos => ?_
        obtain ⟨l, _, hopen⟩ := clausesBefore_pos_iff.mp hpos
        exact htrying.unmarked l hopen.marks
      simp [OpenRegion.reopen, close, htrying.handler, htrying.closedHandlers, hnone]
    · obtain ⟨other, start, _, _, hhandler⟩ := hhandling.handler
      have hcount : (region.reopen (totalSize is) kind).closedHandlers = region.closedHandlers + 1 := by
        simp [OpenRegion.reopen, close, hhandler]
      rw [hcount, hhandling.closed, clausesBefore_eq_of_last hhandling.opens hhandling.last
        hhandling.opens.marks.lt_length, toUInt32_succ]

/-- An untyped catch for which a filter waits is the handler of that filter. -/
theorem Follows.handle {exit : BodyLabel} {tryStart opened : Nat} {tryEnd : Option Nat}
    {closed : UInt32} {kind : HandlerKind} {covers : Bool}
    (h : (⟨exit, tryStart, tryEnd, closed, some ⟨kind, opened, none, covers⟩⟩ : OpenRegion).Follows is k)
    (hblock : blockAt is is.length = some k) :
    (⟨exit, tryStart, tryEnd, closed, some ⟨kind, opened, some (totalSize is), covers⟩⟩ :
      OpenRegion).Follows (is ++ [.beginCatchBlock none]) k ∧
    ¬Opens (is ++ [.beginCatchBlock none]) k is.length := by
  rcases h.stage with htrying | ⟨m, hhandling⟩
  · cases htrying.handler
  obtain ⟨other, start, hkind, hstart, hhandler⟩ := hhandling.handler
  rw [Option.some.injEq, OpenHandler.mk.injEq] at hhandler
  obtain ⟨rfl, rfl, hwaits, hcovers⟩ := hhandler
  cases hstart with
  | marker => cases hwaits
  | handler => cases hwaits
  | waiting hfilter hnone =>
  have hmarks := hhandling.opens.marks
  have hm := hmarks.lt_length
  have hnot : ¬Opens (is ++ [.beginCatchBlock none]) k is.length := by
    rintro ⟨_, hother⟩
    refine hother ⟨by simp, ?_⟩
    rw [filtering_append_iff (Nat.le_refl _)]
    exact ⟨m, hm, hmarks, hfilter, hnone⟩
  refine ⟨h.extend rfl (.inr ⟨m, ?_⟩), hnot⟩
  refine hhandling.extend hnot rfl rfl ⟨kind, some is.length, hkind, ?_, ?_⟩
  · refine .handler (by rwa [markAt?_append hm]) hm (by simp) ?_ (by simp) fun l hl hln => ?_
    · rwa [blockAt_append (Nat.le_refl _)]
    · rw [marks_append_iff hln]
      exact hnone l hl hln
  · rw [Option.map_some, Stream.offsetAt_append (Nat.le_refl _), Stream.offsetAt_length, ← hcovers]

/-! ## Closing a clause -/

theorem Handling.closes (h : region.Handling is k m)
    (hcloses : Opens (is ++ [i]) k is.length ∨ Ends (is ++ [i]) k is.length) :
    Span.Closes (is ++ [i]) ⟨k, m, is.length⟩ := by
  have hm := h.opens.marks.lt_length
  refine ⟨(opens_append_iff hm).mpr h.opens, hm, hcloses, fun l hl hln hopen => ?_⟩
  exact h.last l hl ((opens_append_iff hln).mp hopen)

theorem Handling.eq_of_closes (h : region.Handling is k m) (hblock : blockAt is is.length = some k)
    {t : Span} (hclose : t.close = is.length) (ht : t.Closes (is ++ [i])) : t = ⟨k, m, is.length⟩ := by
  obtain ⟨block, marker, close⟩ := t
  cases hclose
  have hsame := ht.block_close
  rw [blockAt_append (Nat.le_refl _), hblock] at hsame
  cases hsame
  have hopens := (opens_append_iff ht.lt).mp ht.opens
  have hm := h.opens.marks.lt_length
  -- Neither of the two markers comes before the other: no clause is opened after either.
  have heq : marker = m := by
    by_contra hne
    rcases Nat.lt_or_gt_of_ne hne with hlt | hgt
    · exact ht.next m hlt hm ((opens_append_iff hm).mpr h.opens)
    · exact h.last marker hgt hopens
  rw [heq]

theorem Trying.not_closes (h : region.Trying is k) (hblock : blockAt is is.length = some k)
    {t : Span} (hclose : t.close = is.length) : ¬t.Closes (is ++ [i]) := by
  intro ht
  have hsame := ht.block_close
  rw [hclose, blockAt_append (Nat.le_refl _), hblock] at hsame
  have hlt := ht.lt
  rw [hclose] at hlt
  have hmarks := ((opens_append_iff hlt).mp ht.opens).marks
  rw [← Option.some.inj hsame] at hmarks
  exact h.unmarked _ hmarks

theorem announces_of_handlerKind? {kind : HandlerKind} (h : i.handlerKind? = some kind) :
    i.Announces kind.flags kind.classToken? := by
  cases i <;> cases h <;> constructor

theorem isCleanup_iff {kind : HandlerKind} :
    kind.isCleanup = true ↔ kind = .finalizing ∨ kind = .faulting := by
  cases kind <;> simp [HandlerKind.isCleanup]

theorem toUInt32_pos_iff {n : Nat} : 0 < n.toUInt32 ↔ ¬2 ^ 32 ∣ n := by
  rw [UInt32.lt_iff_toNat_lt, Nat.toUInt32_eq, UInt32.toNat_ofNat', Nat.dvd_iff_mod_eq_zero]
  exact Nat.pos_iff_ne_zero

/-- Where the protected block of the open clause ends. -/
theorem Handling.protectedTo {f : Nat} {kind : HandlerKind} (h : region.Handling is k m)
    (hfirst : FirstMark is k f) (hkind : markAt? is m = some kind) :
    ∃ e, ProtectedTo is (CountsPrevious is k m) k m e ∧
      (if (kind.isCleanup && decide (0 < region.closedHandlers)) = true then
        (Stream.ofInstructions is).offsetAt m else (Stream.ofInstructions is).offsetAt f) =
      (Stream.ofInstructions is).offsetAt e := by
  have hcovers : CountsPrevious is k m ↔
      (kind.isCleanup && decide (0 < region.closedHandlers)) = true := by
    rw [countsPrevious_iff, CleansUp, hkind, Bool.and_eq_true, decide_eq_true_iff, h.closed,
      toUInt32_pos_iff, isCleanup_iff, Option.some.injEq, Option.some.injEq]
  by_cases hm : CountsPrevious is k m
  · exact ⟨m, .covering hm, if_pos (hcovers.mp hm)⟩
  · exact ⟨f, .first hfirst hm, if_neg (mt hcovers.mpr hm)⟩

theorem getD_map_offsetAt (is : List Instruction) (start : Option Nat) :
    (start.map (Stream.ofInstructions is).offsetAt).getD (totalSize is) =
      (Stream.ofInstructions is).offsetAt (start.getD is.length) := by
  cases start with
  | none => exact (Stream.offsetAt_length is).symm
  | some s => rfl

/-- The clause of an open handler that is closed here says what its lines call for. -/
theorem Handling.describes (h : region.Handling is k m) (hlimit : totalSize is ≤ offsetLimit)
    (htryStart : region.tryStart = (Stream.ofInstructions is).offsetAt k) :
    ∃ clause, (region.close (totalSize is)).2 = some clause ∧
      Span.Describes CountsPrevious (Stream.ofInstructions (is ++ [i])) ⟨k, m, is.length⟩
        clause := by
  obtain ⟨f, hfirst, htryEnd⟩ := h.first
  obtain ⟨kind, start, hkind, hstart, hhandler⟩ := h.handler
  obtain ⟨e, hprotected, hend⟩ := h.protectedTo hfirst hkind
  obtain ⟨hke, hem⟩ := hprotected.le h.opens.marks
  have hm := h.opens.marks.lt_length
  have hstarts := hstart.getD_le hm
  have hle := Stream.offsetAt_le is
  have hoffset : ∀ n, n ≤ is.length → (Stream.ofInstructions (is ++ [i])).offsetAt n =
      (Stream.ofInstructions is).offsetAt n := fun n hn => Stream.offsetAt_append hn [i]
  have hword : ∀ n, n ≤ totalSize is → n.toUInt32.toNat = n := by
    intro n hn
    refine toNat_toUInt32_of_lt ?_
    rw [offsetLimit] at hlimit
    omega
  have hclose : (region.close (totalSize is)).2 = some (OpenHandler.clause ⟨kind,
      (Stream.ofInstructions is).offsetAt m, start.map (Stream.ofInstructions is).offsetAt,
      kind.isCleanup && decide (0 < region.closedHandlers)⟩ ((Stream.ofInstructions is).offsetAt k)
      ((Stream.ofInstructions is).offsetAt f) (totalSize is)) := by
    simp [close, hhandler, htryEnd, htryStart]
  refine ⟨_, hclose, ?_⟩
  constructor
  case kind =>
    obtain ⟨j, hj, hjkind⟩ := Option.bind_eq_some_iff.mp hkind
    rw [Stream.instructions_ofInstructions, List.getElem?_append_left hm]
    exact ⟨j, hj, announces_of_handlerKind? hjkind⟩
  case tryOffset => exact (hword _ (hle k)).trans (hoffset k (by omega)).symm
  case tryLength =>
    rw [Stream.instructions_ofInstructions]
    refine ⟨e, hprotected.append hm, ?_⟩
    have hbefore := Stream.offsetAt_mono is hke
    have hroom := hle e
    simp only [OpenHandler.clause, hend]
    rw [hword _ (hle k), hword _ (by omega), hoffset e (by omega)]
    omega
  case handlerOffset =>
    rw [Stream.instructions_ofInstructions]
    refine ⟨start, hstart.append hm (Nat.le_refl _), ?_⟩
    simp only [OpenHandler.clause, getD_map_offsetAt]
    rw [hword _ (hle _), hoffset _ hstarts]
  case handlerLength =>
    have hroom := hle (start.getD is.length)
    simp only [OpenHandler.clause, getD_map_offsetAt]
    rw [hword _ hroom, hword _ (by omega), hoffset _ (Nat.le_refl _), Stream.offsetAt_length]
    omega
  case filterOffset =>
    rw [Stream.instructions_ofInstructions, markAt?_append hm, hkind]
    by_cases hfilter : kind = .filtering
    · simp [OpenHandler.clause, hfilter, hword _ (hle m), hoffset m (by omega)]
    · simp [OpenHandler.clause, hfilter]

/-- What closing a region's handler adds to the clauses. -/
theorem Follows.lists {clauses : List ExceptionClause} (h : region.Follows is k)
    (hlimit : totalSize is ≤ offsetLimit)
    (hcloses : Opens (is ++ [i]) k is.length ∨ Ends (is ++ [i]) k is.length)
    (hlists : Lists CountsPrevious (Stream.ofInstructions is) clauses) :
    Lists CountsPrevious (Stream.ofInstructions (is ++ [i]))
      (clauses ++ (region.close (totalSize is)).2.toList) := by
  have hblock : blockAt is is.length = some k := by
    rw [← blockAt_append (Nat.le_refl _) [i]]
    exact hcloses.elim (·.marks.block) (·.block)
  rcases h.stage with htrying | ⟨m, hhandling⟩
  · have hnone : (region.close (totalSize is)).2 = none := by simp [close, htrying.handler]
    rw [hnone, Option.toList_none, List.append_nil]
    exact hlists.append fun t ht => htrying.not_closes hblock ht
  · obtain ⟨clause, hclause, hdescribes⟩ := hhandling.describes (i := i) hlimit h.tryStart
    rw [hclause, Option.toList_some]
    exact hlists.concat rfl (hhandling.closes hcloses)
      (fun t ht hclosed => hhandling.eq_of_closes hblock ht hclosed) hdescribes

end OpenRegion

end CilAssembler
