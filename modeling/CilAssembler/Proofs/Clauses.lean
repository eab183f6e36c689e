import CilAssembler.Proofs.Blocks
import CilAssembler.Proofs.Building
import Mathlib.Data.List.Forall2

/-! # Clauses and their markers

What the clause of a handler marker has to say, in terms of the lines of the stream, and why the
clauses collected so far say it: every open region of a builder keeps, of the lines so far, what the
next clause needs. -/

namespace CilAssembler

/-! ## What a clause says -/

/-- The flags of the clause that a marker opens, and the class that it catches. -/
inductive Instruction.Announces : Instruction → UInt16 → Option Token → Prop where
  | catching (type : Option Member) : Announces (.beginCatchBlock type) 0x0000 (type.map (·.token))
  | filtering : Announces .beginExceptFilterBlock 0x0001 none
  | finalizing : Announces .beginFinallyBlock 0x0002 none
  | faulting : Announces .beginFaultBlock 0x0004 none

/-- Line `f` is the first handler marker of its region. -/
structure FirstMark (is : List Instruction) (k f : Nat) : Prop where
  marks : Marks is k f
  first : ∀ l, Marks is k l → f ≤ l

/-- Line `m` is a finally or a fault marker. -/
def CleansUp (is : List Instruction) (m : Nat) : Prop :=
  markAt? is m = some .finalizing ∨ markAt? is m = some .faulting

/-- Line `m` is a finally or fault marker that comes after another clause of its region. -/
@[mk_iff]
structure CoversPrevious (is : List Instruction) (k m : Nat) : Prop where
  cleanup : CleansUp is m
  previous : ∃ l, l < m ∧ Opens is k l

/-- Line `m` is a finally or fault marker that comes after a number of clauses of its region which
is not zero if it is counted with 32 bits. -/
@[mk_iff]
structure CountsPrevious (is : List Instruction) (k m : Nat) : Prop where
  cleanup : CleansUp is m
  counted : ¬2 ^ 32 ∣ clausesBefore is k m

/-- The line at which the protected block of the clause opened at line `m` ends, given whether the
clause covers the handlers before it. -/
inductive ProtectedTo (is : List Instruction) (covers : Prop) (k m : Nat) : Nat → Prop where
  | first {f : Nat} (hfirst : FirstMark is k f) (hcovers : ¬covers) : ProtectedTo is covers k m f
  | covering (hcovers : covers) : ProtectedTo is covers k m m

/-- The line at which the handler of the clause opened at line `m` has started before line `n`. A
filter waits for the untyped catch that is its handler. -/
inductive Started (is : List Instruction) (k m n : Nat) : Option Nat → Prop where
  | marker (hkind : markAt? is m ≠ some .filtering) : Started is k m n (some m)
  | handler {h : Nat} (hfilter : markAt? is m = some .filtering) (hafter : m < h) (hbefore : h < n)
      (hblock : blockAt is h = some k) (hcatch : is[h]? = some (.beginCatchBlock none))
      (hfirst : ∀ l, m < l → l < h → ¬Marks is k l) : Started is k m n (some h)
  | waiting (hfilter : markAt? is m = some .filtering) (hnone : ∀ l, m < l → l < n → ¬Marks is k l) :
      Started is k m n none

/-- The clause that the lines of a span call for, given which lines cover the handlers before
them. -/
structure Span.Describes (covers : List Instruction → Nat → Nat → Prop) (stream : Stream) (s : Span)
    (clause : ExceptionClause) : Prop where
  kind : ∃ i, stream.instructions[s.marker]? = some i ∧ i.Announces clause.flags clause.classToken
  tryOffset : clause.tryOffset.toNat = stream.offsetAt s.block
  tryLength : ∃ e, ProtectedTo stream.instructions (covers stream.instructions s.block s.marker)
      s.block s.marker e ∧
    clause.tryOffset.toNat + clause.tryLength.toNat = stream.offsetAt e
  handlerOffset : ∃ start, Started stream.instructions s.block s.marker s.close start ∧
    clause.handlerOffset.toNat = stream.offsetAt (start.getD s.close)
  handlerLength : clause.handlerOffset.toNat + clause.handlerLength.toNat = stream.offsetAt s.close
  filterOffset : clause.filterOffset.map UInt32.toNat =
    if markAt? stream.instructions s.marker = some .filtering then some (stream.offsetAt s.marker)
    else none

/-- The clauses of a stream: one for each span that is closed, in the order of the closing lines. -/
def Lists (covers : List Instruction → Nat → Nat → Prop) (stream : Stream)
    (clauses : List ExceptionClause) : Prop :=
  ∃ spans : List Span, (∀ s, s ∈ spans ↔ s.Closes stream.instructions) ∧
    spans.Pairwise (fun s t => s.close < t.close) ∧
    List.Forall₂ (Span.Describes covers stream) spans clauses

section Append

variable {is : List Instruction} {i : Instruction} {k f m n : Nat}

theorem FirstMark.append (h : FirstMark is k f) : FirstMark (is ++ [i]) k f := by
  have hlt := h.marks.lt_length
  refine ⟨(marks_append_iff hlt).mpr h.marks, fun l hl => ?_⟩
  by_cases hold : l < is.length
  · exact h.first l ((marks_append_iff hold).mp hl)
  · omega

theorem FirstMark.unique {f' : Nat} (h : FirstMark is k f) (h' : FirstMark is k f') : f = f' :=
  Nat.le_antisymm (h.first f' h'.marks) (h'.first f h.marks)

theorem cleansUp_append_iff (h : m < is.length) : CleansUp (is ++ [i]) m ↔ CleansUp is m := by
  rw [CleansUp, CleansUp, markAt?_append h]

theorem countsPrevious_append_iff (h : m < is.length) :
    CountsPrevious (is ++ [i]) k m ↔ CountsPrevious is k m := by
  rw [countsPrevious_iff, countsPrevious_iff, cleansUp_append_iff h,
    clausesBefore_append (Nat.le_of_lt h)]

theorem ProtectedTo.append {e : Nat} (h : ProtectedTo is (CountsPrevious is k m) k m e)
    (hm : m < is.length) : ProtectedTo (is ++ [i]) (CountsPrevious (is ++ [i]) k m) k m e := by
  rw [countsPrevious_append_iff hm]
  cases h with
  | first hfirst hcovers => exact .first hfirst.append hcovers
  | covering hcovers => exact .covering hcovers

theorem ProtectedTo.le {covers : Prop} {e : Nat} (h : ProtectedTo is covers k m e)
    (hmarks : Marks is k m) : k ≤ e ∧ e ≤ m := by
  cases h with
  | first hfirst _ => exact ⟨Nat.le_of_lt hfirst.marks.block_lt, hfirst.first m hmarks⟩
  | covering _ => exact ⟨Nat.le_of_lt hmarks.block_lt, Nat.le_refl m⟩

theorem Started.append {start : Option Nat} (h : Started is k m n start) (hm : m < is.length)
    (hn : n ≤ is.length) : Started (is ++ [i]) k m n start := by
  cases h with
  | marker hkind => exact .marker (by rwa [markAt?_append hm])
  | handler hfilter hafter hbefore hblock hcatch hfirst =>
      have hlt := Nat.lt_of_lt_of_le hbefore hn
      refine .handler (by rwa [markAt?_append hm]) hafter hbefore ?_ ?_ fun l hl hlh => ?_
      · rwa [blockAt_append (Nat.le_of_lt hlt)]
      · rwa [List.getElem?_append_left hlt]
      · rw [marks_append_iff (Nat.lt_trans hlh hlt)]
        exact hfirst l hl hlh
  | waiting hfilter hnone =>
      refine .waiting (by rwa [markAt?_append hm]) fun l hl hln => ?_
      rw [marks_append_iff (Nat.lt_of_lt_of_le hln hn)]
      exact hnone l hl hln

theorem Started.extend {start : Option Nat} (h : Started is k m n start) (hn : ¬Marks is k n) :
    Started is k m (n + 1) start := by
  cases h with
  | marker hkind => exact .marker hkind
  | handler hfilter hafter hbefore hblock hcatch hfirst =>
      exact .handler hfilter hafter (Nat.lt_succ_of_lt hbefore) hblock hcatch hfirst
  | waiting hfilter hnone =>
      refine .waiting hfilter fun l hl hln => ?_
      rcases Nat.lt_succ_iff_lt_or_eq.mp hln with hlt | rfl
      · exact hnone l hl hlt
      · exact hn

theorem Started.getD_le {start : Option Nat} (h : Started is k m n start) (hm : m < n) :
    start.getD n ≤ n := by
  cases h with
  | marker _ => exact Nat.le_of_lt hm
  | handler _ _ hbefore => exact Nat.le_of_lt hbefore
  | waiting _ _ => exact Nat.le_refl n

/-- A clause stays described when a line is added. -/
theorem Span.Describes.append {s : Span} {clause : ExceptionClause}
    (h : s.Describes CountsPrevious (Stream.ofInstructions is) clause) (hcloses : s.Closes is) :
    s.Describes CountsPrevious (Stream.ofInstructions (is ++ [i])) clause := by
  obtain ⟨⟨j, hj, hannounces⟩, htry, ⟨e, hprotected, hlength⟩, ⟨start, hstart, hoffset⟩, hend,
    hfilter⟩ := h
  rw [Stream.instructions_ofInstructions] at hj hprotected hstart hfilter
  have hmarks := hcloses.opens.marks
  have hclose := hcloses.lt_length
  have hle := hprotected.le hmarks
  have hstarts := hstart.getD_le hcloses.lt
  have hm := hmarks.lt_length
  constructor
  case kind =>
    rw [Stream.instructions_ofInstructions, List.getElem?_append_left hm]
    exact ⟨j, hj, hannounces⟩
  case tryOffset => rw [htry, Stream.offsetAt_append (by omega)]
  case tryLength =>
    rw [Stream.instructions_ofInstructions]
    exact ⟨e, hprotected.append hm, by rw [hlength, Stream.offsetAt_append (by omega)]⟩
  case handlerOffset =>
    rw [Stream.instructions_ofInstructions]
    exact ⟨start, hstart.append hm (Nat.le_of_lt hclose),
      by rw [hoffset, Stream.offsetAt_append (by omega)]⟩
  case handlerLength => rw [hend, Stream.offsetAt_append (by omega)]
  case filterOffset =>
    rw [hfilter, Stream.instructions_ofInstructions, markAt?_append hm,
      Stream.offsetAt_append (by omega)]

end Append

/-! ## Lists of clauses -/

namespace Lists

variable {is : List Instruction} {i : Instruction} {clauses : List ExceptionClause}

theorem nil : Lists CountsPrevious Stream.empty [] :=
  ⟨[], fun _ => ⟨nofun, fun h => absurd h.lt_length (Nat.not_lt_zero _)⟩, .nil, .nil⟩

theorem describes_append {spans : List Span} (hspans : ∀ s ∈ spans, s.Closes is)
    (h : List.Forall₂ (Span.Describes CountsPrevious (Stream.ofInstructions is)) spans clauses) :
    List.Forall₂ (Span.Describes CountsPrevious (Stream.ofInstructions (is ++ [i]))) spans
      clauses := by
  have hboth := (List.forall₂_and_left _ _).mpr ⟨hspans, h⟩
  exact hboth.imp fun s clause hs => hs.2.append hs.1

/-- A line that closes no clause adds none. -/
theorem append (h : Lists CountsPrevious (Stream.ofInstructions is) clauses)
    (hnone : ∀ s : Span, s.close = is.length → ¬s.Closes (is ++ [i])) :
    Lists CountsPrevious (Stream.ofInstructions (is ++ [i])) clauses := by
  obtain ⟨spans, hmem, horder, hclauses⟩ := h
  rw [Stream.instructions_ofInstructions] at hmem
  refine ⟨spans, fun s => ?_, horder, describes_append (fun s hs => (hmem s).mp hs) hclauses⟩
  rw [Stream.instructions_ofInstructions, hmem]
  constructor
  · intro hs
    exact (Span.closes_append_iff hs.lt_length).mpr hs
  · intro hs
    rcases lt_or_eq_of_lt_length hs.lt_length with hlt | hlast
    · exact (Span.closes_append_iff hlt).mp hs
    · exact absurd hs (hnone s hlast)

/-- A line that closes one clause adds it at the end. -/
theorem concat (h : Lists CountsPrevious (Stream.ofInstructions is) clauses) {s : Span}
    {clause : ExceptionClause} (hclose : s.close = is.length) (hs : s.Closes (is ++ [i]))
    (honly : ∀ t : Span, t.close = is.length → t.Closes (is ++ [i]) → t = s)
    (hdescribes : s.Describes CountsPrevious (Stream.ofInstructions (is ++ [i])) clause) :
    Lists CountsPrevious (Stream.ofInstructions (is ++ [i])) (clauses ++ [clause]) := by
  obtain ⟨spans, hmem, horder, hclauses⟩ := h
  rw [Stream.instructions_ofInstructions] at hmem
  refine ⟨spans ++ [s], fun t => ?_, ?_, ?_⟩
  · rw [Stream.instructions_ofInstructions, List.mem_append, List.mem_singleton, hmem]
    constructor
    · rintro (ht | rfl)
      · exact (Span.closes_append_iff ht.lt_length).mpr ht
      · exact hs
    · intro ht
      rcases lt_or_eq_of_lt_length ht.lt_length with hlt | hlast
      · exact .inl ((Span.closes_append_iff hlt).mp ht)
      · exact .inr (honly t hlast ht)
  · rw [List.pairwise_append]
    refine ⟨horder, List.pairwise_singleton _ _, fun t ht u hu => ?_⟩
    rw [List.mem_singleton.mp hu, hclose]
    exact ((hmem t).mp ht).lt_length
  · refine List.rel_append ?_ (.cons hdescribes .nil)
    exact describes_append (fun t ht => (hmem t).mp ht) hclauses

end Lists

/-! ## Coverage by count -/

/-- Line `m` opens a clause that covers others of its region, but their number, counted with 32
bits, is zero. -/
structure Miscounts (is : List Instruction) (k m : Nat) : Prop where
  opens : Opens is k m
  covers : CoversPrevious is k m
  wraps : 2 ^ 32 ∣ clausesBefore is k m

section Coverage

variable {is : List Instruction} {k m : Nat} {stream : Stream} {s : Span} {clause : ExceptionClause}
  {clauses : List ExceptionClause}

theorem CountsPrevious.covers (h : CountsPrevious is k m) : CoversPrevious is k m := by
  refine ⟨h.cleanup, clausesBefore_pos_iff.mp (Nat.pos_of_ne_zero fun hzero => h.counted ?_)⟩
  rw [hzero]
  exact Nat.dvd_zero _

/-- The count cannot start over in fewer lines than it has numbers. -/
theorem not_miscounts_of_length_le (h : is.length ≤ 2 ^ 32) : ¬Miscounts is k m := by
  rintro ⟨hopens, ⟨_, hprevious⟩, hwraps⟩
  have hlt := hopens.marks.lt_length
  have hle := clausesBefore_le is k m
  have hge := Nat.le_of_dvd (clausesBefore_pos_iff.mpr hprevious) hwraps
  omega

/-- A clause protects what its lines call for unless the count of the clauses before it is wrong and
something stands between the first handler and its own. -/
theorem Span.Describes.coversPrevious_iff (h : s.Describes CountsPrevious stream clause)
    (hopens : Opens stream.instructions s.block s.marker) :
    s.Describes CoversPrevious stream clause ↔ ∀ f, Miscounts stream.instructions s.block s.marker →
      FirstMark stream.instructions s.block f → stream.offsetAt s.marker = stream.offsetAt f := by
  obtain ⟨e, hprotected, hlength⟩ := h.tryLength
  constructor
  · intro hdescribes f hmiscounts hfirst
    obtain ⟨e', hprotected', hlength'⟩ := hdescribes.tryLength
    have heq : stream.offsetAt e' = stream.offsetAt e := hlength'.symm.trans hlength
    cases hprotected' with
    | first _ hcovers => exact absurd hmiscounts.covers hcovers
    | covering _ =>
        cases hprotected with
        | first hfirst' _ => rw [heq, hfirst.unique hfirst']
        | covering hcounts => exact absurd hmiscounts.wraps hcounts.counted
  · intro hsame
    refine { h with tryLength := ?_ }
    cases hprotected with
    | covering hcounts => exact ⟨_, .covering hcounts.covers, hlength⟩
    | first hfirst hcounts =>
        by_cases hcovers : CoversPrevious stream.instructions s.block s.marker
        · have hwraps : 2 ^ 32 ∣ clausesBefore stream.instructions s.block s.marker :=
            not_not.mp fun hcounted => hcounts ⟨hcovers.cleanup, hcounted⟩
          have hoffset := hsame _ ⟨hopens, hcovers, hwraps⟩ hfirst
          exact ⟨_, .covering hcovers, hlength.trans hoffset.symm⟩
        · exact ⟨_, .first hfirst hcovers, hlength⟩

/-- Spans in the order of their closing lines are determined by which there are. -/
theorem spans_eq {spans spans' : List Span} (hmem : ∀ s, s ∈ spans ↔ s ∈ spans')
    (horder : spans.Pairwise (fun s t => s.close < t.close))
    (horder' : spans'.Pairwise (fun s t => s.close < t.close)) : spans = spans' := by
  have hnodup : ∀ {ss : List Span}, ss.Pairwise (fun s t => s.close < t.close) → ss.Nodup :=
    fun h => h.imp fun hlt heq => Nat.ne_of_lt hlt (congrArg Span.close heq)
  refine List.Perm.eq_of_pairwise (fun s t _ _ hst hts => ?_) horder horder' ?_
  · exact absurd hst (Nat.lt_asymm hts)
  · exact (List.perm_ext_iff_of_nodup (hnodup horder) (hnodup horder')).mpr hmem

/-- The table that the builder collects is the one that the lines call for, unless a clause has a
wrong count and it shows. -/
theorem Lists.coversPrevious_iff (h : Lists CountsPrevious stream clauses)
    (hclosed : ∀ k m, Opens stream.instructions k m →
      ∃ c, Span.Closes stream.instructions ⟨k, m, c⟩) :
    Lists CoversPrevious stream clauses ↔ ∀ k m f, Miscounts stream.instructions k m →
      FirstMark stream.instructions k f → stream.offsetAt m = stream.offsetAt f := by
  obtain ⟨spans, hmem, horder, hclauses⟩ := h
  have hopens : ∀ s ∈ spans, Opens stream.instructions s.block s.marker :=
    fun s hs => ((hmem s).mp hs).opens
  have hboth := (List.forall₂_and_left _ _).mpr ⟨hopens, hclauses⟩
  constructor
  · rintro ⟨spans', hmem', horder', hclauses'⟩ k m f hmiscounts hfirst
    cases spans_eq (fun s => (hmem' s).trans (hmem s).symm) horder' horder
    obtain ⟨c, hc⟩ := hclosed k m hmiscounts.opens
    obtain ⟨n, hn⟩ := List.mem_iff_getElem?.mp ((hmem _).mpr hc)
    have hlt := (List.getElem?_eq_some_iff.mp hn).1
    have hlt' : n < clauses.length := hclauses.length_eq ▸ hlt
    have hspan := (List.getElem?_eq_some_iff.mp hn).2
    have hdescribes := hclauses.get hlt hlt'
    have hdescribes' := hclauses'.get hlt hlt'
    rw [List.get_eq_getElem, hspan] at hdescribes hdescribes'
    exact (hdescribes.coversPrevious_iff hmiscounts.opens).mp hdescribes' f hmiscounts hfirst
  · intro hsame
    refine ⟨spans, hmem, horder, hboth.imp fun s clause hs => ?_⟩
    exact (hs.2.coversPrevious_iff hs.1).mpr (hsame s.block s.marker)

end Coverage

end CilAssembler
