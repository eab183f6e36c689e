import CilAssembler.Proofs.Building

/-! # Assembling method bodies

An assembler whose sink is a builder keeps the two in step: every label and every local has the
same index on both sides, and the builder has taken exactly the calls of the recorded lines. -/

namespace CilAssembler

/-! ## Handles keep their index -/

section InBody

variable {R : Label → BodyLabel → Prop} {S : Local → BodyLocal → Prop}

theorem eq_map_of_forall₂ {α β : Type} {P : α → β → Prop} {f : α → β} {xs : List α} {ys : List β}
    (hP : ∀ x y, P x y → y = f x) (h : List.Forall₂ P xs ys) : ys = xs.map f := by
  induction h with
  | nil => rfl
  | cons hxy _ ih => rw [List.map_cons, hP _ _ hxy, ih]

theorem Operand.Renders.eq_inBody {x : Operand Label Local} {y : Operand BodyLabel BodyLocal}
    (hR : ∀ label made, R label made → made = label.inBody)
    (hS : ∀ v made, S v made → made = v.inBody) (h : x.Renders R S y) : y = x.inBody := by
  cases h with
  | label h => rw [hR _ _ h, inBody]
  | labels h => rw [eq_map_of_forall₂ hR h, inBody]
  | localVar h => rw [hS _ _ h, inBody]
  | _ => rfl

theorem Instruction.Renders.eq_inBody {i : Instruction} {k : SinkCall BodyLabel BodyLocal}
    (hR : ∀ label made, R label made → made = label.inBody)
    (hS : ∀ v made, S v made → made = v.inBody) (h : i.Renders R S k) : k = i.inBody := by
  cases h with
  | op h => rw [h.eq_inBody hR hS, inBody]
  | markLabel h => rw [hR _ _ h, inBody]
  | _ => rfl

end InBody

namespace Assembler

/-- The recorder keeps its books, the builder is in step with them, and the rosters of the
builder's handles count up from zero. -/
structure Builds (a : Assembler BodyBuilder BodyLabel BodyLocal) : Prop where
  kept : a.recorder.Kept
  drafts : a.sink.Drafts a.recorder.stream.instructions
  labels : a.labels.toList = (List.range a.recorder.labels.size).map fun n => ⟨n.toUInt32⟩
  locals : a.locals.toList = (List.range a.recorder.locals.size).map fun n => ⟨n.toUInt16⟩

theorem builds_new (id : AssemblerId) :
    (new id BodyBuilder.empty : Assembler BodyBuilder BodyLabel BodyLocal).Builds :=
  ⟨Recorder.kept_new id, BodyBuilder.drafts_empty, rfl, rfl⟩

namespace Builds

variable {a : Assembler BodyBuilder BodyLabel BodyLocal}

theorem size_labels (h : a.Builds) : a.sink.labels.size = a.recorder.labels.size := by
  rw [h.drafts.labels.size, ← h.kept.books]
  rfl

theorem size_locals (h : a.Builds) : a.sink.locals.size = a.recorder.locals.size := by
  rw [h.drafts.locals.size, ← h.kept.books]
  rfl

theorem sinkLabel_eq (h : a.Builds) {label : Label} (hlabel : a.recorder.books.HasLabel label) :
    a.sinkLabel label = .ok label.inBody := by
  have hlt : label.index.toNat < a.recorder.labels.size := Recorded.index_lt_of_hasLabel hlabel
  have howner : label.owner = a.recorder.id := by
    rw [h.kept.books] at hlabel
    exact h.kept.recorded.owner_of_hasLabel hlabel
  apply sinkLabel_eq_ok (Recorder.checkLabel_eq_ok.mpr ⟨howner, hlabel⟩)
  rw [← Array.getElem?_toList, h.labels, List.getElem?_map, List.getElem?_range hlt]
  simp [Label.inBody]

theorem sinkLocal_eq (h : a.Builds) {v : Local} (hlocal : a.recorder.books.HasLocal v) :
    a.sinkLocal v = .ok v.inBody := by
  have hlt : v.index.toNat < a.recorder.locals.size := by
    obtain ⟨slot, hslot, _⟩ := hlocal
    exact (Array.getElem?_eq_some_iff.mp hslot).1
  have howner : v.owner = a.recorder.id := by
    rw [h.kept.books] at hlocal
    exact h.kept.recorded.owner_of_hasLocal hlocal
  apply sinkLocal_eq_ok (Recorder.checkLocal_eq_ok.mpr ⟨howner, hlocal⟩)
  rw [← Array.getElem?_toList, h.locals, List.getElem?_map, List.getElem?_range hlt]
  rfl

theorem sinkCall_eq (h : a.Builds) {i : Instruction}
    (hadmits : a.recorder.books.Admits a.recorder.id i) : a.sinkCall i = .ok i.inBody := by
  obtain ⟨k, hcall, hrenders⟩ := exists_sinkCall_eq_ok (a := a)
    (R := fun label made => made = label.inBody) (S := fun v made => made = v.inBody)
    (fun label hused => ⟨_, h.sinkLabel_eq (hadmits.hasLabel hused), rfl⟩)
    (fun v hused => ⟨_, h.sinkLocal_eq (hadmits.hasLocal hused), rfl⟩)
  rw [hcall, hrenders.eq_inBody (fun _ _ h => h) (fun _ _ h => h)]

/-- A line and the call that the builder took for it are added together. -/
theorem record (h : a.Builds) {i : Instruction} {made : i.inBody.Reply} {b : BodyBuilder}
    (hadmits : a.recorder.books.Admits a.recorder.id i)
    (hdrafts : b.Drafts (a.recorder.stream.instructions ++ [i]))
    (hlabel : Response.label? ⟨i.inBody, made⟩ =
      i.definedLabel?.map fun _ => ⟨a.sink.labels.size.toUInt32⟩)
    (hlocal : Response.local? ⟨i.inBody, made⟩ =
      i.declaredLocal?.map fun _ => ⟨a.sink.locals.size.toUInt16⟩) :
    (⟨a.recorder.record i, b, i.inBody.enrollLabel made a.labels,
      i.inBody.enrollLocal made a.locals⟩ : Assembler BodyBuilder BodyLabel BodyLocal).Builds := by
  have hkept := h.kept.record hadmits
  have hlabels := h.size_labels.symm
  have hlocals := h.size_locals.symm
  refine ⟨hkept, ?_, ?_, ?_⟩
  · rw [Recorder.instructions_record]
    exact hdrafts
  · rw [Response.toList_enrollLabel ⟨i.inBody, made⟩, h.labels, hlabel, hlabels]
    rcases Recorder.labelsAfter_cases a.recorder.labels a.recorder.stream.length i with
      ⟨label, hdef, _, hafter⟩ | ⟨label, hdef, _, hafter⟩ | ⟨hdef, _, hafter⟩
    all_goals
      have hsize : (a.recorder.record i).labels = _ := hafter
      simp [hsize, hdef, hlabels, List.range_succ]
  · rw [Response.toList_enrollLocal ⟨i.inBody, made⟩, h.locals, hlocal, hlocals]
    rcases Recorder.localsAfter_cases a.recorder.locals i with ⟨v, hdef, hafter⟩ | ⟨hdef, hafter⟩
    all_goals
      have hsize : (a.recorder.record i).locals = _ := hafter
      simp [hsize, hdef, hlocals, List.range_succ]

/-- A call that is refused leaves no trace; one that is accepted was taken by the builder. -/
theorem perform_cases (h : a.Builds) (call : Call) :
    (∃ e, a.perform call = (.error e, a)) ∨ ∃ reply i made b,
      (Books.ofInstructions a.recorder.stream.instructions).Admits a.recorder.id i ∧
      a.sink.perform i.inBody = (.ok made, b) ∧
      a.perform call = (.ok reply, ⟨a.recorder.record i, b, i.inBody.enrollLabel made a.labels,
        i.inBody.enrollLocal made a.locals⟩) := by
  rcases Assembler.perform_cases call a with ⟨e, _, hresult⟩ | ⟨reply, i, e, _, _, hresult⟩ |
    ⟨reply, i, k, e, s, hprepare, hcall, hsink, hresult⟩ |
    ⟨reply, i, k, made, s, hprepare, hcall, hsink, hresult⟩
  · exact .inl ⟨e, hresult⟩
  · exact .inl ⟨e, hresult⟩
  all_goals
    have hadmits := Recorder.admits_of_prepare hprepare
    rw [h.sinkCall_eq hadmits] at hcall
    cases hcall
    rw [h.kept.books] at hadmits
  · -- The builder refuses a line that fits the books only before it has written anything.
    rcases h.drafts.advances h.kept.recorded hadmits with
      ⟨cause, _, hrefused⟩ | ⟨made, b, htaken, _⟩
    · cases hsink.symm.trans hrefused
      exact .inl ⟨_, hresult⟩
    · cases hsink.symm.trans htaken
  · exact .inr ⟨reply, i, made, s, hadmits, hsink, hresult⟩

theorem perform (h : a.Builds) (call : Call) : (a.perform call).2.Builds := by
  rcases h.perform_cases call with ⟨e, hresult⟩ | ⟨reply, i, made, b, hadmits, hsink, hresult⟩
  · rw [hresult]
    exact h
  · rcases h.drafts.advances h.kept.recorded hadmits with
      ⟨cause, _, hrefused⟩ | ⟨made', b', htaken, hdrafts, hlabel, hlocal⟩
    · cases hsink.symm.trans hrefused
    · cases hsink.symm.trans htaken
      rw [hresult]
      rw [← h.kept.books] at hadmits
      exact h.record hadmits hdrafts hlabel hlocal

theorem after (h : a.Builds) (calls : List Call) : (a.after calls).Builds := by
  induction calls using List.reverseRecOn with
  | nil => exact h
  | append_singleton calls call ih =>
      rw [after_append_singleton]
      exact ih.perform call

end Builds

/-! ## Refused calls -/

/-- The calls that are accepted when the list is performed. -/
def accepted {σ Λ V : Type} [Sink σ Λ V] (a : Assembler σ Λ V) : List Call → List Call
  | [] => []
  | call :: rest =>
      match a.perform call with
      | (.error _, next) => next.accepted rest
      | (.ok _, next) => call :: next.accepted rest

theorem Builds.eq_of_error {a : Assembler BodyBuilder BodyLabel BodyLocal} (h : a.Builds)
    {call : Call} {e : Error} (herror : (a.perform call).1 = .error e) : (a.perform call).2 = a := by
  rcases h.perform_cases call with ⟨_, hresult⟩ | ⟨_, _, _, _, _, _, hresult⟩
  · rw [hresult]
  · rw [hresult] at herror
    cases herror

/-- A session without its refused calls ends in the same state. -/
theorem Builds.after_accepted {a : Assembler BodyBuilder BodyLabel BodyLocal} (h : a.Builds)
    (calls : List Call) : a.after (a.accepted calls) = a.after calls := by
  induction calls generalizing a with
  | nil => rfl
  | cons call rest ih =>
      have hnext := ih (h.perform call)
      rcases h.perform_cases call with ⟨e, hresult⟩ | ⟨reply, _, _, _, _, _, hresult⟩
      all_goals
        rw [hresult] at hnext
        simp only [accepted, after_cons, hresult]
        exact hnext

/-- Whatever was called before, a call that is refused leaves the recorder, the rosters and the
builder as they were. So a whole session leaves what its accepted calls alone leave. -/
theorem refused_leaves_no_trace (id : AssemblerId) (calls : List Call) :
    let start : Assembler BodyBuilder BodyLabel BodyLocal := new id .empty
    let a := start.after calls
    (∀ call e, (a.perform call).1 = .error e → (a.perform call).2 = a) ∧
    start.after (start.accepted calls) = a := by
  intro start a
  have hbuilds : a.Builds := (builds_new id).after calls
  exact ⟨fun _ _ => hbuilds.eq_of_error, (builds_new id).after_accepted calls⟩

/-- In an open protected block, a branch to a label of another assembler, a mark of a placed label,
an operand of the wrong kind and the end of the block are refused. -/
theorem refused_leaves_no_trace_in_block :
    let id : AssemblerId := ⟨1⟩
    let top : Label := ⟨id, 0, 0, none⟩
    let start : Assembler BodyBuilder BodyLabel BodyLocal := new id .empty
    let opening : List Call :=
      [.defineLabel none, .beginExceptionBlock, .markLabel top, .emit .ldcI4 (.int32 7)]
    let refused : List Call :=
      [.emit .br (.label ⟨⟨2⟩, 0, 0, none⟩), .markLabel top, .emit .ldstr .none, .endExceptionBlock]
    let a := start.after opening
    a.sink.code.size = 5 ∧ a.sink.regions.length = 1 ∧
      (∀ call ∈ refused, (a.perform call).2 = a) ∧
      start.after (start.accepted (opening ++ refused)) = start.after (opening ++ refused) := by
  intro id top start opening refused a
  have hrefused : ∀ call ∈ refused, (a.perform call).1.isOk = false := by decide +kernel
  refine ⟨by decide +kernel, by decide +kernel, ?_,
    (refused_leaves_no_trace id (opening ++ refused)).2⟩
  intro call hcall
  have hfails := hrefused call hcall
  cases herror : (a.perform call).1 with
  | error e => exact (refused_leaves_no_trace id opening).1 call e herror
  | ok reply =>
      rw [herror] at hfails
      cases hfails

end Assembler

end CilAssembler
