import CilAssembler.MethodBody.OpenRegion
import CilAssembler.Proofs.Stream
import Mathlib.Data.Nat.Count
import Mathlib.Data.Nat.Find
import Mathlib.Tactic.MkIffOfInductiveProp

/-! # Blocks and markers

The exception regions of a stream, each known by the line that opened it: which region a line stands
in, which markers open a clause of that region, and at which line such a clause is closed. Scopes
play no part here. -/

namespace CilAssembler

/-! ## Open blocks -/

/-- The open exception regions after line `n`, innermost first. -/
def blocksAfter (blocks : List Nat) (n : Nat) : Instruction → List Nat
  | .beginExceptionBlock _ => n :: blocks
  | .endExceptionBlock _ => blocks.tail
  | _ => blocks

/-- The lines that opened the exception regions which are still open, innermost first. -/
def openBlocks (is : List Instruction) : List Nat :=
  is.zipIdx.foldl (fun blocks entry => blocksAfter blocks entry.2 entry.1) []

/-- The innermost exception region that is open at line `n`. -/
def blockAt (is : List Instruction) (n : Nat) : Option Nat :=
  (openBlocks (is.take n)).head?

section Blocks

variable {is : List Instruction} {i : Instruction} {k k' n n' : Nat}

theorem openBlocks_append_singleton (is : List Instruction) (i : Instruction) :
    openBlocks (is ++ [i]) = blocksAfter (openBlocks is) is.length i := by
  simp [openBlocks, List.zipIdx_append]

theorem mem_blocksAfter {blocks : List Nat} (h : k ∈ blocksAfter blocks n i) : k = n ∨ k ∈ blocks := by
  cases i with
  | beginExceptionBlock exit => exact List.mem_cons.mp h
  | endExceptionBlock exit => exact .inr (List.mem_of_mem_tail h)
  | _ => exact .inr h

theorem lt_length_of_mem_openBlocks (h : k ∈ openBlocks is) : k < is.length := by
  induction is using List.reverseRecOn with
  | nil => cases h
  | append_singleton is i ih =>
      rw [openBlocks_append_singleton] at h
      rw [List.length_append, List.length_singleton]
      rcases mem_blocksAfter h with rfl | hold
      · exact Nat.lt_succ_self _
      · exact Nat.lt_succ_of_lt (ih hold)

/-- The inner regions were opened later. -/
theorem pairwise_openBlocks (is : List Instruction) : (openBlocks is).Pairwise (· > ·) := by
  induction is using List.reverseRecOn with
  | nil => exact .nil
  | append_singleton is i ih =>
      rw [openBlocks_append_singleton]
      cases i with
      | beginExceptionBlock exit =>
          exact List.pairwise_cons.mpr ⟨fun k hk => lt_length_of_mem_openBlocks hk, ih⟩
      | endExceptionBlock exit => exact ih.tail
      | _ => exact ih

/-- A region that is closed stays closed. -/
theorem not_mem_openBlocks_append (hk : k < is.length) (hclosed : k ∉ openBlocks is)
    (js : List Instruction) : k ∉ openBlocks (is ++ js) := by
  induction js using List.reverseRecOn with
  | nil => rwa [List.append_nil]
  | append_singleton js j ih =>
      rw [← List.append_assoc, openBlocks_append_singleton]
      intro hmem
      rcases mem_blocksAfter hmem with rfl | hold
      · rw [List.length_append] at hk
        omega
      · exact ih hold

theorem openBlocks_take_succ (hi : is[n]? = some i) :
    openBlocks (is.take (n + 1)) = blocksAfter (openBlocks (is.take n)) n i := by
  have hlt := (List.getElem?_eq_some_iff.mp hi).1
  rw [List.take_add_one, hi, Option.toList_some, openBlocks_append_singleton, List.length_take,
    Nat.min_eq_left (Nat.le_of_lt hlt)]

theorem blockAt_append (h : n ≤ is.length) (js : List Instruction) :
    blockAt (is ++ js) n = blockAt is n := by
  rw [blockAt, List.take_append_of_le_length h, blockAt]

theorem blockAt_length (is : List Instruction) : blockAt is is.length = (openBlocks is).head? := by
  rw [blockAt, List.take_length]

theorem mem_openBlocks_of_blockAt (h : blockAt is n = some k) : k ∈ openBlocks (is.take n) :=
  List.mem_of_head? h

theorem lt_of_blockAt (h : blockAt is n = some k) : k < n := by
  have hlt := lt_length_of_mem_openBlocks (mem_openBlocks_of_blockAt h)
  exact Nat.lt_of_lt_of_le hlt (List.length_take_le n is)

/-- Regions nest: a line that stands in a region comes before every region that is opened later and
closed later. -/
theorem le_of_blockAt (h : blockAt is n = some k) (h' : blockAt is n' = some k') (hn : n ≤ n')
    (hk : k < k') : n ≤ k' := by
  by_contra hlate
  have hopen := mem_openBlocks_of_blockAt h'
  have hclosed : k' ∉ openBlocks (is.take n) := by
    obtain ⟨rest, hrest⟩ := List.head?_eq_some_iff.mp h
    have hinner := pairwise_openBlocks (is.take n)
    rw [hrest] at hinner ⊢
    intro hmem
    rcases List.mem_cons.mp hmem with rfl | hmem
    · exact Nat.lt_irrefl _ hk
    · exact Nat.lt_asymm hk (List.rel_of_pairwise_cons hinner hmem)
  have hbound : k' < (is.take n).length := by
    have hlt := lt_length_of_mem_openBlocks hopen
    rw [List.length_take] at hlt ⊢
    omega
  have hsplit : is.take n' = is.take n ++ (is.drop n).take (n' - n) := by
    rw [← List.take_add, Nat.add_sub_cancel' hn]
  rw [hsplit] at hopen
  exact not_mem_openBlocks_append hbound hclosed _ hopen

end Blocks

/-! ## Markers of a region -/

/-- The kind of handler that a marker begins. -/
def Instruction.handlerKind? : Instruction → Option HandlerKind
  | .beginCatchBlock type => some (.catching (type.map (·.token)))
  | .beginExceptFilterBlock => some .filtering
  | .beginFinallyBlock => some .finalizing
  | .beginFaultBlock => some .faulting
  | _ => none

/-- The kind of handler that line `n` begins. -/
def markAt? (is : List Instruction) (n : Nat) : Option HandlerKind :=
  is[n]?.bind Instruction.handlerKind?

/-- Line `m` is a handler marker of the region opened at line `k`. -/
@[mk_iff]
structure Marks (is : List Instruction) (k m : Nat) : Prop where
  block : blockAt is m = some k
  marker : (markAt? is m).isSome = true

/-- Before line `n`, the region is in the filter state: its last marker is a filter. -/
def Filtering (is : List Instruction) (k n : Nat) : Prop :=
  ∃ m, m < n ∧ Marks is k m ∧ markAt? is m = some .filtering ∧
    ∀ l, m < l → l < n → ¬Marks is k l

/-- Line `m` is a marker of the region that opens a clause. Every marker does, except that an untyped
catch in the filter state is the handler of the filter. -/
@[mk_iff]
structure Opens (is : List Instruction) (k m : Nat) : Prop where
  marks : Marks is k m
  opens : ¬(is[m]? = some (.beginCatchBlock none) ∧ Filtering is k m)

/-- Line `c` ends the region opened at line `k`. -/
@[mk_iff]
structure Ends (is : List Instruction) (k c : Nat) : Prop where
  block : blockAt is c = some k
  ends : ∃ exit, is[c]? = some (.endExceptionBlock exit)

/-- A clause by its lines: where its region begins, where it is opened, and where it is closed. -/
structure Span where
  block : Nat
  marker : Nat
  close : Nat

/-- The clause is opened by a marker of its region and closed by the next one that opens a clause, or
by the end of the region. -/
structure Span.Closes (is : List Instruction) (s : Span) : Prop where
  opens : Opens is s.block s.marker
  lt : s.marker < s.close
  closes : Opens is s.block s.close ∨ Ends is s.block s.close
  next : ∀ l, s.marker < l → l < s.close → ¬Opens is s.block l

section Markers

variable {is : List Instruction} {i : Instruction} {k k' m n : Nat}

theorem markAt?_append (h : m < is.length) (js : List Instruction) :
    markAt? (is ++ js) m = markAt? is m := by
  rw [markAt?, List.getElem?_append_left h, markAt?]

@[simp] theorem markAt?_length (is : List Instruction) (i : Instruction) :
    markAt? (is ++ [i]) is.length = i.handlerKind? := by
  simp [markAt?]

theorem lt_length_of_markAt? (h : (markAt? is m).isSome = true) : m < is.length := by
  by_contra hlate
  rw [markAt?, List.getElem?_eq_none (Nat.le_of_not_lt hlate)] at h
  cases h

theorem Marks.lt_length (h : Marks is k m) : m < is.length :=
  lt_length_of_markAt? h.marker

theorem Marks.block_lt (h : Marks is k m) : k < m :=
  lt_of_blockAt h.block

theorem Marks.block_eq (h : Marks is k m) (h' : blockAt is m = some k') : k = k' :=
  Option.some.inj (h.block.symm.trans h')

/-- A region has no markers when it is opened. -/
theorem not_marks_length (is : List Instruction) (i : Instruction) (m : Nat) :
    ¬Marks (is ++ [i]) is.length m := by
  intro h
  rcases lt_or_eq_of_lt_length h.lt_length with hlt | rfl
  · exact Nat.lt_asymm h.block_lt hlt
  · exact Nat.lt_irrefl _ h.block_lt

/-- A line that is no handler marker marks no region. -/
theorem not_marks_of_handlerKind?_eq_none (h : i.handlerKind? = none) (is : List Instruction)
    (k : Nat) : ¬Marks (is ++ [i]) k is.length := by
  intro hmarks
  have hmarker := hmarks.marker
  rw [markAt?_length, h] at hmarker
  cases hmarker

theorem Ends.lt_length (h : Ends is k m) : m < is.length := by
  obtain ⟨exit, hexit⟩ := h.ends
  exact (List.getElem?_eq_some_iff.mp hexit).1

theorem Span.Closes.block_close {s : Span} (h : s.Closes is) : blockAt is s.close = some s.block :=
  h.closes.elim (·.marks.block) (·.block)

theorem Span.Closes.lt_length {s : Span} (h : s.Closes is) : s.close < is.length :=
  h.closes.elim (·.marks.lt_length) (·.lt_length)

/-! The lines that are already there keep their part when a line is added. -/

theorem marks_append_iff (h : m < is.length) : Marks (is ++ [i]) k m ↔ Marks is k m := by
  rw [marks_iff, marks_iff, blockAt_append (Nat.le_of_lt h), markAt?_append h]

theorem filtering_append_iff (h : n ≤ is.length) : Filtering (is ++ [i]) k n ↔ Filtering is k n := by
  refine exists_congr fun m => and_congr_right fun hm => ?_
  have hlt := Nat.lt_of_lt_of_le hm h
  rw [marks_append_iff hlt, markAt?_append hlt]
  refine and_congr_right fun _ => and_congr_right fun _ => ?_
  refine forall_congr' fun l => imp_congr_right fun _ => forall_congr' fun hl => ?_
  rw [marks_append_iff (Nat.lt_of_lt_of_le hl h)]

theorem opens_append_iff (h : m < is.length) : Opens (is ++ [i]) k m ↔ Opens is k m := by
  rw [opens_iff, opens_iff, marks_append_iff h, filtering_append_iff (Nat.le_of_lt h),
    List.getElem?_append_left h]

theorem ends_append_iff (h : m < is.length) : Ends (is ++ [i]) k m ↔ Ends is k m := by
  rw [ends_iff, ends_iff, blockAt_append (Nat.le_of_lt h), List.getElem?_append_left h]

theorem Span.closes_append_iff {s : Span} (h : s.close < is.length) :
    s.Closes (is ++ [i]) ↔ s.Closes is := by
  constructor
  · rintro ⟨hopens, hlt, hcloses, hnext⟩
    refine ⟨(opens_append_iff (Nat.lt_trans hlt h)).mp hopens, hlt, ?_, ?_⟩
    · exact hcloses.imp (opens_append_iff h).mp (ends_append_iff h).mp
    · intro l hl hlc hopen
      exact hnext l hl hlc ((opens_append_iff (Nat.lt_trans hlc h)).mpr hopen)
  · rintro ⟨hopens, hlt, hcloses, hnext⟩
    refine ⟨(opens_append_iff (Nat.lt_trans hlt h)).mpr hopens, hlt, ?_, ?_⟩
    · exact hcloses.imp (opens_append_iff h).mpr (ends_append_iff h).mpr
    · intro l hl hlc hopen
      exact hnext l hl hlc ((opens_append_iff (Nat.lt_trans hlc h)).mp hopen)

end Markers

/-! ## Counting clauses -/

/-- The number of clauses of the region that are opened before line `m`. -/
noncomputable def clausesBefore (is : List Instruction) (k m : Nat) : Nat :=
  @Nat.count (Opens is k) (Classical.decPred _) m

section Counting

variable {is : List Instruction} {i : Instruction} {k m n : Nat}

theorem clausesBefore_succ_of_opens (h : Opens is k m) :
    clausesBefore is k (m + 1) = clausesBefore is k m + 1 := by
  classical exact Nat.count_succ_eq_succ_count_iff.mpr h

theorem clausesBefore_succ_of_not_opens (h : ¬Opens is k m) :
    clausesBefore is k (m + 1) = clausesBefore is k m := by
  classical exact Nat.count_succ_eq_count_iff.mpr h

theorem clausesBefore_append (h : m ≤ is.length) :
    clausesBefore (is ++ [i]) k m = clausesBefore is k m := by
  induction m with
  | zero => rfl
  | succ m ih =>
      have hsame := opens_append_iff (i := i) (k := k) (Nat.lt_of_succ_le h)
      by_cases hopens : Opens is k m
      · rw [clausesBefore_succ_of_opens hopens, clausesBefore_succ_of_opens (hsame.mpr hopens),
          ih (Nat.le_of_succ_le h)]
      · rw [clausesBefore_succ_of_not_opens hopens,
          clausesBefore_succ_of_not_opens (mt hsame.mp hopens), ih (Nat.le_of_succ_le h)]

theorem clausesBefore_pos_iff : 0 < clausesBefore is k m ↔ ∃ l, l < m ∧ Opens is k l := by
  classical
  constructor
  · intro hpos
    by_contra hnone
    have hzero : clausesBefore is k m = 0 :=
      Nat.count_of_forall_not fun l hl hopens => hnone ⟨l, hl, hopens⟩
    omega
  · rintro ⟨l, hl, hopens⟩
    exact Nat.lt_of_le_of_lt (Nat.zero_le _) (Nat.count_strict_mono hopens hl)

theorem clausesBefore_le (is : List Instruction) (k m : Nat) : clausesBefore is k m ≤ m := by
  classical exact Nat.count_le _

/-- The clauses before line `n`, if the last of them is opened at line `m`. -/
theorem clausesBefore_eq_of_last (hopens : Opens is k m) (hlast : ∀ l, m < l → ¬Opens is k l)
    (hn : m < n) : clausesBefore is k n = clausesBefore is k m + 1 := by
  induction n, hn using Nat.le_induction with
  | base => exact clausesBefore_succ_of_opens hopens
  | succ n hn ih => rw [clausesBefore_succ_of_not_opens (hlast n hn), ih]

end Counting

/-! ## Closed clauses -/

section Closing

variable {is : List Instruction} {k m n n' : Nat}

/-- A region that was open and no longer is was ended in between. -/
theorem exists_ends (hopen : k ∈ openBlocks (is.take n)) (hn : n ≤ n')
    (hclosed : k ∉ openBlocks (is.take n')) : ∃ c, n ≤ c ∧ Ends is k c := by
  induction n', hn using Nat.le_induction with
  | base => exact absurd hopen hclosed
  | succ n' hn ih =>
      by_cases hstill : k ∈ openBlocks (is.take n')
      · refine ⟨n', hn, ?_⟩
        cases hi : is[n']? with
        | none =>
            rw [List.take_add_one, hi, Option.toList_none, List.append_nil] at hclosed
            exact absurd hstill hclosed
        | some i =>
            rw [openBlocks_take_succ hi] at hclosed
            cases i with
            | endExceptionBlock exit =>
                refine ⟨?_, exit, hi⟩
                obtain ⟨head, rest, hrest⟩ := List.exists_cons_of_ne_nil (List.ne_nil_of_mem hstill)
                rw [hrest] at hstill hclosed
                rcases List.mem_cons.mp hstill with rfl | htail
                · rw [blockAt, hrest, List.head?_cons]
                · exact absurd htail hclosed
            | beginExceptionBlock exit => exact absurd (List.mem_cons_of_mem _ hstill) hclosed
            | _ => exact absurd hstill hclosed
      · exact ih hstill

/-- After its end, no line stands in a region. -/
theorem Ends.le_of_blockAt (h : Ends is k n) (h' : blockAt is n' = some k) : n' ≤ n := by
  by_contra hlate
  obtain ⟨exit, hexit⟩ := h.ends
  have hclosed : k ∉ openBlocks (is.take (n + 1)) := by
    obtain ⟨rest, hrest⟩ := List.head?_eq_some_iff.mp h.block
    have hinner := pairwise_openBlocks (is.take n)
    rw [openBlocks_take_succ hexit, hrest]
    rw [hrest] at hinner
    intro hmem
    exact Nat.lt_irrefl _ (List.rel_of_pairwise_cons hinner hmem)
  have hbound : k < (is.take (n + 1)).length := by
    have hlt := lt_of_blockAt h.block
    have hlength := h.lt_length
    rw [List.length_take]
    omega
  have hsplit : is.take n' = is.take (n + 1) ++ (is.drop (n + 1)).take (n' - (n + 1)) := by
    rw [← List.take_add]
    congr 1
    omega
  have hopen := mem_openBlocks_of_blockAt h'
  rw [hsplit] at hopen
  exact not_mem_openBlocks_append hbound hclosed _ hopen

/-- A clause is closed once. -/
theorem Span.Closes.close_eq {s t : Span} (hs : s.Closes is) (ht : t.Closes is)
    (hblock : s.block = t.block) (hmarker : s.marker = t.marker) : s.close = t.close := by
  -- The earlier of two closing lines would have to end the region in which the later one stands.
  have hle : ∀ {s t : Span}, s.Closes is → t.Closes is → s.block = t.block → s.marker = t.marker →
      t.close ≤ s.close := by
    intro s t hs ht hblock hmarker
    by_contra hlate
    rcases hs.closes with hopens | hends
    · rw [hblock] at hopens
      exact ht.next _ (hmarker ▸ hs.lt) (Nat.lt_of_not_le hlate) hopens
    · exact hlate (hends.le_of_blockAt (hblock ▸ ht.block_close))
  exact Nat.le_antisymm (hle ht hs hblock.symm hmarker.symm) (hle hs ht hblock hmarker)

/-- Where no region is open, every opened clause is closed. -/
theorem exists_closes (hopens : Opens is k m) (hnil : openBlocks is = []) :
    ∃ c, Span.Closes is ⟨k, m, c⟩ := by
  classical
  have hlt := hopens.marks.lt_length
  obtain ⟨e, hle, hends⟩ := exists_ends (mem_openBlocks_of_blockAt hopens.marks.block)
    (Nat.le_of_lt hlt) (by simp [hnil])
  have hne : m ≠ e := by
    rintro rfl
    obtain ⟨exit, hexit⟩ := hends.ends
    have hmarker := hopens.marks.marker
    rw [markAt?, hexit] at hmarker
    cases hmarker
  have hexists : ∃ c, m < c ∧ (Opens is k c ∨ Ends is k c) :=
    ⟨e, Nat.lt_of_le_of_ne hle hne, .inr hends⟩
  obtain ⟨hc, hcloses⟩ := Nat.find_spec hexists
  refine ⟨Nat.find hexists, hopens, hc, hcloses, ?_⟩
  intro l hl hlc hopen
  exact Nat.find_min hexists hlc ⟨hl, .inl hopen⟩

end Closing

end CilAssembler
