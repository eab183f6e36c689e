import CilAssembler.Proofs.Sessions

/-! # Edited streams

The offset of the end is kept beside the lines, and every edit maintains it in its own way. Whatever
the edits, it stays the total size of the lines, and so does the offset of every line. -/

namespace CilAssembler

theorem Instruction.size_of_isMarker {i : Instruction} (hmarker : i.isMarker = true) : i.size = 0 := by
  cases i with
  | op o => cases hmarker
  | _ => rfl

namespace Stream

/-- An edit of a stream. -/
inductive Edit where
  | push (i : Instruction)
  | pushMarker (i : Instruction) (hmarker : i.isMarker = true)
  | truncate (count : Nat)
  | truncateAfter (index : Nat)

/-- The stream after an edit. A refused push counts as an edit too. -/
def edit (s : Stream) : Edit → Stream
  | .push i => (s.push i).2
  | .pushMarker i _ => s.pushMarker i
  | .truncate count => s.truncate count
  | .truncateAfter index => s.truncateAfter index

/-- The stream after some edits. -/
def edited (s : Stream) (edits : List Edit) : Stream :=
  edits.foldl edit s

/-- Pushes instructions in order, stopping at the first that is refused. -/
def pushEach (s : Stream) : List Instruction → Except Error Stream
  | [] => .ok s
  | i :: rest =>
      match s.push i with
      | (.error e, _) => .error e
      | (.ok _, s) => s.pushEach rest

/-- The offsets are exact, and the stream can be cut and extended as its instructions say. -/
structure Exact (s : Stream) : Prop where
  /-- Every line stands at the total size of the lines before it. -/
  offset_eq : ∀ (k : Nat) (line : Line), s.lines[k]? = some line →
    line.offset = totalSize (s.instructions.take k)
  endOffset_eq : s.endOffset = totalSize s.instructions
  endOffset_le : s.endOffset ≤ offsetLimit
  /-- A push is refused exactly if the total size would pass the largest offset. -/
  push_refused_iff : ∀ i, (s.push i).1.isOk = false ↔ offsetLimit < totalSize (s.instructions ++ [i])
  push_refused : ∀ i, (s.push i).1.isOk = false → (s.push i).2 = s
  push_accepted : ∀ i, (s.push i).1.isOk = true →
    (s.push i).1 = .ok (totalSize s.instructions) ∧ (s.push i).2.instructions = s.instructions ++ [i]
  /-- Cutting the stream is the same as pushing only its first instructions. -/
  truncate_eq : ∀ count,
    empty.pushEach (s.instructions.take (min count s.length)) = .ok (s.truncate count)

/-! ## One edit -/

theorem pushMarker_eq_append (s : Stream) {i : Instruction} (hmarker : i.isMarker = true) :
    s.pushMarker i = s.append i := by
  cases i with
  | op o => cases hmarker
  | _ => rfl

/-- The stream records some instructions that fit it, and nothing else. -/
def Records (s : Stream) (is : List Instruction) : Prop :=
  s = ofInstructions is ∧ totalSize is ≤ offsetLimit

theorem Records.append {s : Stream} {is : List Instruction} (h : s.Records is) {i : Instruction}
    (hfits : totalSize (is ++ [i]) ≤ offsetLimit) : (s.append i).Records (is ++ [i]) := by
  obtain ⟨rfl, _⟩ := h
  exact ⟨(ofInstructions_append_singleton is i).symm, hfits⟩

theorem Records.truncate {s : Stream} {is : List Instruction} (h : s.Records is) (count : Nat) :
    (s.truncate count).Records (is.take count) := by
  obtain ⟨rfl, hfits⟩ := h
  refine ⟨truncate_ofInstructions is count, ?_⟩
  rw [← offsetAt_ofInstructions]
  exact Nat.le_trans (offsetAt_le is count) hfits

/-- A push is refused and changes nothing, or it adds a line at the end. -/
theorem Records.push_cases {s : Stream} {is : List Instruction} (h : s.Records is) (i : Instruction) :
    (offsetLimit < totalSize (is ++ [i]) ∧ ∃ e, s.push i = (.error e, s)) ∨
      (totalSize (is ++ [i]) ≤ offsetLimit ∧ s.push i = (.ok (totalSize is), s.append i)) := by
  have hend : s.endOffset = totalSize is := h.1 ▸ endOffset_ofInstructions is
  have htotal : totalSize (is ++ [i]) = s.endOffset + i.size := by simp [hend]
  rw [htotal, ← hend]
  by_cases hroom : s.endOffset + i.size ≤ offsetLimit
  · exact .inr ⟨hroom, if_pos hroom⟩
  · exact .inl ⟨Nat.lt_of_not_le hroom, _, if_neg hroom⟩

theorem Records.edit {s : Stream} {is : List Instruction} (h : s.Records is) (e : Edit) :
    ∃ js, (s.edit e).Records js := by
  cases e with
  | push i =>
      rcases h.push_cases i with ⟨_, e, hrefused⟩ | ⟨hfits, haccepted⟩
      · refine ⟨is, ?_⟩
        rw [Stream.edit, hrefused]
        exact h
      · refine ⟨is ++ [i], ?_⟩
        rw [Stream.edit, haccepted]
        exact h.append hfits
  | pushMarker i hmarker =>
      refine ⟨is ++ [i], ?_⟩
      rw [Stream.edit, pushMarker_eq_append s hmarker]
      apply h.append
      simpa [Instruction.size_of_isMarker hmarker] using h.2
  | truncate count => exact ⟨_, h.truncate count⟩
  | truncateAfter index => exact ⟨_, h.truncate (index + 1)⟩

/-! ## Any number of edits -/

theorem edited_append_singleton (s : Stream) (edits : List Edit) (e : Edit) :
    s.edited (edits ++ [e]) = (s.edited edits).edit e := by
  simp [edited]

theorem records_empty : empty.Records [] :=
  ⟨rfl, Nat.zero_le _⟩

theorem exists_records_edited (edits : List Edit) : ∃ is, (empty.edited edits).Records is := by
  induction edits using List.reverseRecOn with
  | nil => exact ⟨[], records_empty⟩
  | append_singleton edits e ih =>
      obtain ⟨is, h⟩ := ih
      rw [edited_append_singleton]
      exact h.edit e

/-- Instructions that fit a stream can all be pushed. -/
theorem Records.pushEach_eq {s : Stream} {done is : List Instruction} (h : s.Records done)
    (hfits : totalSize (done ++ is) ≤ offsetLimit) :
    s.pushEach is = .ok (ofInstructions (done ++ is)) := by
  induction is generalizing s done with
  | nil => rw [List.append_nil, pushEach, h.1]
  | cons i is ih =>
      rw [List.append_cons] at hfits ⊢
      have hfirst : totalSize (done ++ [i]) ≤ offsetLimit := by
        rw [totalSize_append _ is] at hfits
        omega
      rcases h.push_cases i with ⟨hover, _⟩ | ⟨_, haccepted⟩
      · exact absurd hfirst (Nat.not_le.mpr hover)
      · rw [pushEach, haccepted]
        exact ih (h.append hfirst) hfits

theorem Records.exact {s : Stream} {is : List Instruction} (h : s.Records is) : s.Exact := by
  have hpush := h.push_cases
  have hcut := h.truncate
  obtain ⟨rfl, hfits⟩ := h
  constructor
  case offset_eq =>
    intro k line hline
    rw [lines_ofInstructions, List.getElem?_toArray, getElem?_linesFrom] at hline
    obtain ⟨i, _, rfl⟩ := Option.map_eq_some_iff.mp hline
    rw [instructions_ofInstructions, Nat.zero_add]
  case endOffset_eq => rw [endOffset_ofInstructions, instructions_ofInstructions]
  case endOffset_le =>
    rw [endOffset_ofInstructions]
    exact hfits
  case truncate_eq =>
    intro count
    obtain ⟨heq, hfits⟩ := hcut count
    rw [heq, instructions_ofInstructions, length_ofInstructions, ← List.take_eq_take_min]
    exact records_empty.pushEach_eq hfits
  case push_refused_iff =>
    intro i
    rw [instructions_ofInstructions]
    rcases hpush i with ⟨hover, e, hrefused⟩ | ⟨hroom, haccepted⟩
    · rw [hrefused]
      exact iff_of_true rfl hover
    · rw [haccepted]
      exact iff_of_false (by rintro ⟨⟩) (Nat.not_lt.mpr hroom)
  case push_refused =>
    intro i h
    rcases hpush i with ⟨_, e, hrefused⟩ | ⟨_, haccepted⟩
    · rw [hrefused]
    · rw [haccepted] at h
      cases h
  case push_accepted =>
    intro i h
    rcases hpush i with ⟨_, e, hrefused⟩ | ⟨_, haccepted⟩
    · rw [hrefused] at h
      cases h
    · rw [haccepted]
      simp

end Stream

/-! ## Streams of recorders and assemblers -/

/-- The stream comes of edits of the empty stream. -/
def Stream.Edited (s : Stream) : Prop :=
  ∃ edits, s = empty.edited edits

theorem Stream.Edited.edit {s : Stream} (h : s.Edited) (e : Edit) : (s.edit e).Edited := by
  obtain ⟨edits, rfl⟩ := h
  exact ⟨edits ++ [e], (edited_append_singleton _ edits e).symm⟩

theorem Stream.Edited.exact {s : Stream} (h : s.Edited) : s.Exact := by
  obtain ⟨edits, rfl⟩ := h
  obtain ⟨is, hrecords⟩ := exists_records_edited edits
  exact hrecords.exact

namespace Recorder

theorem edited_record {r : Recorder} (h : r.stream.Edited) {i : Instruction}
    (hadmits : r.books.Admits r.id i) : (r.record i).stream.Edited := by
  by_cases hmarker : i.isMarker = true
  · have hedit := h.edit (.pushMarker i hmarker)
    rwa [Stream.edit, Stream.pushMarker_eq_append _ hmarker] at hedit
  · cases hadmits with
    | op o _ _ hroom =>
        have hedit := h.edit (.push (.op o))
        have hpush : (r.stream.push (.op o)).2 = r.stream.append (.op o) := by
          rw [Stream.push, if_pos]
          exact hroom
        rwa [Stream.edit, hpush] at hedit
    | move _ call hcall =>
        cases i with
        | op o => cases hcall
        | _ => exact absurd rfl hmarker
    | _ => exact absurd rfl hmarker

theorem edited_perform {r : Recorder} (h : r.stream.Edited) (call : Call) :
    (r.perform call).2.stream.Edited := by
  rcases perform_cases call r with ⟨e, _, hrefused⟩ | ⟨reply, i, _, haccepted, hadmits⟩
  · rw [hrefused]
    exact h
  · rw [haccepted]
    exact edited_record h hadmits

theorem edited_rewind {r : Recorder} (h : r.stream.Edited) (c : Checkpoint) :
    (r.rewind c).2.stream.Edited := by
  unfold rewind
  split
  · exact h
  · exact h.edit (.truncate c.lines)

end Recorder

theorem Workshop.edited_run (requests : List Request) (id : AssemblerId) :
    ((run requests).recorder id).stream.Edited := by
  induction requests using List.reverseRecOn with
  | nil => exact ⟨[], rfl⟩
  | append_singleton requests request ih =>
      rw [run_append_singleton]
      rcases step_cases (identified_run requests) id request with
        ⟨call, rfl, hrecorder, _⟩ | ⟨rfl, hrecorder, _⟩ | ⟨number, c, rfl, _, hrecorder, _⟩ |
        ⟨_, _, hrecorder, _⟩
      · rw [hrecorder]
        exact Recorder.edited_perform ih call
      · rw [hrecorder]
        exact ih
      · rw [hrecorder]
        exact Recorder.edited_rewind ih c
      · rw [hrecorder]
        exact ih

theorem Assembler.edited_after {σ Λ V : Type} [Sink σ Λ V] (id : AssemblerId) (sink : σ)
    (calls : List Call) : ((new id sink : Assembler σ Λ V).after calls).recorder.stream.Edited := by
  induction calls using List.reverseRecOn with
  | nil => exact ⟨[], rfl⟩
  | append_singleton calls call ih =>
      rw [after_append_singleton]
      rcases recorder_perform_cases call ((new id sink : Assembler σ Λ V).after calls) with
        hsame | ⟨reply, i, hprepare, hrecord⟩
      · rw [hsame]
        exact ih
      · rw [hrecord]
        exact Recorder.edited_record ih (Recorder.admits_of_prepare hprepare)

/-- Whatever pushes and cuts made a stream, its offsets are exact. So are those of a recorder after any
calls and rewinds, and of an assembler after any calls, whatever its sink does. -/
theorem Stream.offsets_stay_exact :
    (∀ edits : List Edit, (empty.edited edits).Exact) ∧
      (∀ (requests : List Request) (id : AssemblerId),
        ((Workshop.run requests).recorder id).stream.Exact) ∧
      ∀ {σ Λ V : Type} [Sink σ Λ V] (id : AssemblerId) (sink : σ) (calls : List Call),
        ((Assembler.new id sink : Assembler σ Λ V).after calls).recorder.stream.Exact := by
  refine ⟨?_, ?_, ?_⟩
  · exact fun edits => Edited.exact ⟨edits, rfl⟩
  · exact fun requests id => (Workshop.edited_run requests id).exact
  · exact fun id sink calls => (Assembler.edited_after id sink calls).exact

end CilAssembler
