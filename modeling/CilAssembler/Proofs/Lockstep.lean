import CilAssembler.Proofs.Forwarding

/-! # Recorder and sink in lockstep

Whatever is called, the rosters of sink handles keep step with those of the recorder. So every call
that the recorder accepts can be forwarded, and every accepted sink call renders one line. -/

namespace CilAssembler

variable {σ Λ V : Type}

/-- Every sink call renders its instruction, in terms of what the sink made for the instructions
before it. -/
def Faithful (history : List (Instruction × Response Λ V)) : Prop :=
  ∀ (k : Nat) (i : Instruction) (r : Response Λ V), history[k]? = some (i, r) →
    i.Renders (fun label made => labelFor? (history.take k) label = some made)
      (fun v made => localFor? (history.take k) v = some made) r.call

namespace Faithful

variable {history : List (Instruction × Response Λ V)}

theorem nil : Faithful ([] : List (Instruction × Response Λ V)) := by
  intro k i r h
  simp at h

theorem append_singleton (h : Faithful history) {i : Instruction} {r : Response Λ V}
    (hrenders : i.Renders (fun label made => labelFor? history label = some made)
      (fun v made => localFor? history v = some made) r.call) :
    Faithful (history ++ [(i, r)]) := by
  intro k j s hj
  by_cases hk : k < history.length
  · rw [List.getElem?_append_left hk] at hj
    rw [List.take_append_of_le_length (Nat.le_of_lt hk)]
    exact h k j s hj
  · have hlt : k < (history ++ [(i, r)]).length := (List.getElem?_eq_some_iff.mp hj).1
    have hlast : k = history.length := by
      simp only [List.length_append, List.length_singleton] at hlt
      omega
    subst hlast
    obtain ⟨rfl, rfl⟩ : i = j ∧ r = s := by simpa using hj
    simpa using hrenders

theorem isSome_label? (h : Faithful history) :
    ∀ e ∈ history, e.1.definedLabel?.isSome = e.2.label?.isSome := by
  intro e he
  obtain ⟨k, hk⟩ := List.mem_iff_getElem?.mp he
  exact (h k e.1 e.2 hk).isSome_label?

theorem isSome_local? (h : Faithful history) :
    ∀ e ∈ history, e.1.declaredLocal?.isSome = e.2.local?.isSome := by
  intro e he
  obtain ⟨k, hk⟩ := List.mem_iff_getElem?.mp he
  exact (h k e.1 e.2 hk).isSome_local?

end Faithful

/-- Two partial functions that yield something on the same entries yield equally many things. -/
theorem length_filterMap_eq {α β γ δ : Type} {f : α → Option γ} {g : β → Option δ}
    {entries : List (α × β)} (haligned : ∀ e ∈ entries, (f e.1).isSome = (g e.2).isSome) :
    ((entries.map Prod.fst).filterMap f).length = ((entries.map Prod.snd).filterMap g).length := by
  induction entries with
  | nil => rfl
  | cons e entries ih =>
      have hrest := ih fun e' he' => haligned e' (List.mem_cons_of_mem e he')
      have hhead := haligned e List.mem_cons_self
      cases hf : f e.1 <;> cases hg : g e.2 <;> simp_all

namespace Assembler

/-- The recorded instructions, each with the sink call that succeeded for it. -/
def history (a : Assembler (Logged σ Λ V) Λ V) : List (Instruction × Response Λ V) :=
  a.recorder.stream.instructions.zip a.sink.responses

/-- The recorder keeps its books, and the sink has answered for every line: its labels and locals
are on the rosters, and its calls render the lines. -/
structure Lockstep (a : Assembler (Logged σ Λ V) Λ V) : Prop where
  kept : a.recorder.Kept
  length : a.sink.responses.length = a.recorder.stream.instructions.length
  labels : a.labels.toList = a.sink.responses.filterMap Response.label?
  locals : a.locals.toList = a.sink.responses.filterMap Response.local?
  faithful : Faithful a.history

namespace Lockstep

variable {a : Assembler (Logged σ Λ V) Λ V}

theorem map_fst_history (h : a.Lockstep) :
    a.history.map Prod.fst = a.recorder.stream.instructions :=
  List.map_fst_zip (Nat.le_of_eq h.length.symm)

theorem map_snd_history (h : a.Lockstep) : a.history.map Prod.snd = a.sink.responses :=
  List.map_snd_zip (Nat.le_of_eq h.length)

theorem recorded_history (h : a.Lockstep) : Recorded a.recorder.id (a.history.map Prod.fst) := by
  rw [h.map_fst_history]
  exact h.kept.recorded

theorem books_history (h : a.Lockstep) :
    a.recorder.books = .ofInstructions (a.history.map Prod.fst) := by
  rw [h.map_fst_history]
  exact h.kept.books

/-- A label on the recorder's roster has a counterpart, which is what the sink made for it. -/
theorem sinkLabel_eq_ok (h : a.Lockstep) {label : Label} (hlabel : a.recorder.books.HasLabel label) :
    ∃ made, a.sinkLabel label = .ok made ∧ labelFor? a.history label = some made := by
  rw [h.books_history] at hlabel
  have hfor := labelFor?_eq h.recorded_history h.faithful.isSome_label? hlabel
  have hlt := Recorded.index_lt_of_hasLabel hlabel
  rw [Books.size_labels, length_filterMap_eq h.faithful.isSome_label?, h.map_snd_history,
    ← h.labels, Array.length_toList] at hlt
  rw [h.map_snd_history, ← h.labels, Array.getElem?_toList, Array.getElem?_eq_getElem hlt] at hfor
  have howner := h.recorded_history.owner_of_hasLabel hlabel
  rw [← h.books_history] at hlabel
  exact ⟨_, Assembler.sinkLabel_eq_ok (Recorder.checkLabel_eq_ok.mpr ⟨howner, hlabel⟩)
    (Array.getElem?_eq_getElem hlt), hfor⟩

/-- A local on the recorder's roster has a counterpart, which is what the sink made for it. -/
theorem sinkLocal_eq_ok (h : a.Lockstep) {v : Local} (hlocal : a.recorder.books.HasLocal v) :
    ∃ made, a.sinkLocal v = .ok made ∧ localFor? a.history v = some made := by
  rw [h.books_history] at hlocal
  have hfor := localFor?_eq h.recorded_history h.faithful.isSome_local? hlocal
  obtain ⟨slot, hslot, _⟩ := id hlocal
  have hlt := (Array.getElem?_eq_some_iff.mp hslot).1
  rw [Books.size_locals, length_filterMap_eq h.faithful.isSome_local?, h.map_snd_history,
    ← h.locals, Array.length_toList] at hlt
  rw [h.map_snd_history, ← h.locals, Array.getElem?_toList, Array.getElem?_eq_getElem hlt] at hfor
  have howner := h.recorded_history.owner_of_hasLocal hlocal
  rw [← h.books_history] at hlocal
  exact ⟨_, Assembler.sinkLocal_eq_ok (Recorder.checkLocal_eq_ok.mpr ⟨howner, hlocal⟩)
    (Array.getElem?_eq_getElem hlt), hfor⟩

/-- A call that the recorder accepts can be forwarded. -/
theorem exists_sinkCall (h : a.Lockstep) {i : Instruction}
    (hadmits : a.recorder.books.Admits a.recorder.id i) :
    ∃ k, a.sinkCall i = .ok k ∧
      i.Renders (fun label made => labelFor? a.history label = some made)
        (fun v made => localFor? a.history v = some made) k := by
  apply exists_sinkCall_eq_ok
  · intro label hused
    exact h.sinkLabel_eq_ok (hadmits.hasLabel hused)
  · intro v hused
    exact h.sinkLocal_eq_ok (hadmits.hasLocal hused)

/-- A refused sink call leaves everything but the log as it was. -/
theorem refused (h : a.Lockstep) (s : σ) (k : SinkCall Λ V) (e : Error) :
    ({ a with sink := a.sink.note s k (.error e) } : Assembler (Logged σ Λ V) Λ V).Lockstep := by
  refine ⟨h.kept, ?_, ?_, ?_, ?_⟩
  · rw [Logged.responses_note_error]
    exact h.length
  · rw [Logged.responses_note_error]
    exact h.labels
  · rw [Logged.responses_note_error]
    exact h.locals
  · unfold history
    rw [Logged.responses_note_error]
    exact h.faithful

/-- A line and the sink call that renders it are added together. -/
theorem recorded (h : a.Lockstep) {i : Instruction} {k : SinkCall Λ V} (s : σ) (made : k.Reply)
    (hadmits : a.recorder.books.Admits a.recorder.id i)
    (hrenders : i.Renders (fun label made => labelFor? a.history label = some made)
      (fun v made => localFor? a.history v = some made) k) :
    (⟨a.recorder.record i, a.sink.note s k (.ok made), k.enrollLabel made a.labels,
      k.enrollLocal made a.locals⟩ : Assembler (Logged σ Λ V) Λ V).Lockstep := by
  refine ⟨h.kept.record hadmits, ?_, ?_, ?_, ?_⟩
  · simp [h.length]
  · rw [Response.toList_enrollLabel ⟨k, made⟩, h.labels, Logged.responses_note_ok,
      List.filterMap_append, filterMap_singleton]
  · rw [Response.toList_enrollLocal ⟨k, made⟩, h.locals, Logged.responses_note_ok,
      List.filterMap_append, filterMap_singleton]
  · unfold history
    rw [Logged.responses_note_ok, Recorder.instructions_record, List.zip_append h.length.symm]
    exact h.faithful.append_singleton hrenders

end Lockstep

/-! ## Calls from outside -/

/-- What a call can do. The recorder refuses it, and no sink call is made. Or exactly one sink call
is made, for the line that the recorder would add: if it fails, nothing but the sink has changed,
and if it succeeds, the line is added. -/
inductive Forwards [Sink σ Λ V] (call : Call) (a : Assembler (Logged σ Λ V) Λ V) :
    Except Error call.Reply × Assembler (Logged σ Λ V) Λ V → Prop where
  | refused {e : Error} (hrecorder : a.recorder.perform call = (.error e, a.recorder))
      (hgap : e.isRosterGap = false) : Forwards call a (.error e, a)
  | failed {reply : call.Reply} {i : Instruction} {k : SinkCall Λ V} {e : Error} {s : σ}
      (hrecorder : a.recorder.perform call = (.ok reply, a.recorder.record i))
      (hrenders : i.Renders (fun label made => labelFor? a.history label = some made)
        (fun v made => localFor? a.history v = some made) k)
      (hsink : Sink.perform k a.sink.sink = (.error e, s)) :
      Forwards call a (.error e, { a with sink := a.sink.note s k (.error e) })
  | recorded {reply : call.Reply} {i : Instruction} {k : SinkCall Λ V} {made : k.Reply} {s : σ}
      (hrecorder : a.recorder.perform call = (.ok reply, a.recorder.record i))
      (hrenders : i.Renders (fun label made => labelFor? a.history label = some made)
        (fun v made => localFor? a.history v = some made) k)
      (hsink : Sink.perform k a.sink.sink = (.ok made, s))
      (hpush : a.recorder.stream.push i =
        (.ok a.recorder.stream.endOffset, (a.recorder.record i).stream)) :
      Forwards call a (.ok reply, ⟨a.recorder.record i, a.sink.note s k (.ok made),
        k.enrollLabel made a.labels, k.enrollLocal made a.locals⟩)

namespace Lockstep

variable [Sink σ Λ V] {a : Assembler (Logged σ Λ V) Λ V}

theorem forwards (h : a.Lockstep) (call : Call) : Forwards call a (a.perform call) := by
  rcases Recorder.perform_cases call a.recorder with
    ⟨e, hprepare, hrefused⟩ | ⟨reply, i, hprepare, haccepted, hadmits⟩
  · have hperform : a.perform call = (.error e, a) := by simp [perform, hprepare]
    rw [hperform]
    exact .refused hrefused (a.recorder.gapless_prepare call e hprepare)
  · obtain ⟨k, hcall, hrenders⟩ := h.exists_sinkCall hadmits
    cases hsink : Sink.perform k a.sink.sink with
    | mk outcome s =>
        have hlogged := Logged.perform_of_sink hsink
        cases outcome with
        | error e =>
            have hperform : a.perform call =
                (.error e, { a with sink := a.sink.note s k (.error e) }) := by
              simp [perform, hprepare, hcall, forward, hlogged]
            rw [hperform]
            exact .failed haccepted hrenders hsink
        | ok made =>
            have hperform : a.perform call = (.ok reply, ⟨a.recorder.record i,
                a.sink.note s k (.ok made), k.enrollLabel made a.labels,
                k.enrollLocal made a.locals⟩) := by
              simp [perform, hprepare, hcall, forward, hlogged]
            rw [hperform]
            refine .recorded haccepted hrenders hsink ?_
            have hroom := (h.kept.record hadmits).recorded.totalSize_le
            have hend : a.recorder.stream.endOffset =
                totalSize a.recorder.stream.instructions := by
              rw [← Stream.endOffset_ofInstructions, ← Books.stream_ofInstructions, ← h.kept.books]
              rfl
            rw [Recorder.instructions_record, totalSize_append, totalSize_cons, totalSize_nil,
              Nat.add_zero, ← hend] at hroom
            simp [Stream.push, hroom, Recorder.record]

theorem perform (h : a.Lockstep) (call : Call) : (a.perform call).2.Lockstep := by
  have hforwards := h.forwards call
  generalize a.perform call = result at hforwards
  cases hforwards with
  | refused hrecorder hgap => exact h
  | failed hrecorder hrenders hsink => exact h.refused _ _ _
  | recorded hrecorder hrenders hsink hpush =>
      exact h.recorded _ _ (Recorder.admits_of_perform hrecorder) hrenders

theorem after (h : a.Lockstep) (calls : List Call) : (a.after calls).Lockstep := by
  induction calls using List.reverseRecOn with
  | nil => exact h
  | append_singleton calls call ih =>
      rw [after_append_singleton]
      exact ih.perform call

end Lockstep

end Assembler

end CilAssembler
