import CilAssembler.Assembler
import CilAssembler.Proofs.References

/-! # Forwarding to a sink

An assembler and its sink advance in lockstep. The sink calls that succeed render the recorded
lines one by one, each in terms of what the sink itself made for the lines before it. Nothing is
assumed of the sink, so its calls are observed through a sink that keeps a log. -/

namespace CilAssembler

variable {σ Λ V : Type}

/-! ## Sinks with a log -/

/-- A sink call and its outcome. -/
structure Exchange (Λ V : Type) where
  call : SinkCall Λ V
  outcome : Except Error call.Reply

/-- A sink call that succeeded, and what the sink made. -/
structure Response (Λ V : Type) where
  call : SinkCall Λ V
  made : call.Reply

/-- The response, if the sink call succeeded. -/
def Exchange.response? : Exchange Λ V → Option (Response Λ V)
  | ⟨call, .ok made⟩ => some ⟨call, made⟩
  | ⟨_, .error _⟩ => none

namespace Response

/-- The label that the sink made, if it made one. -/
def label? : Response Λ V → Option Λ
  | ⟨.defineLabel, made⟩ => some made
  | ⟨.beginExceptionBlock, made⟩ => some made
  | _ => none

/-- The local that the sink made, if it made one. -/
def local? : Response Λ V → Option V
  | ⟨.declareLocal _ _, made⟩ => some made
  | _ => none

theorem toList_enrollLabel (r : Response Λ V) (labels : Array Λ) :
    (r.call.enrollLabel r.made labels).toList = labels.toList ++ r.label?.toList := by
  obtain ⟨call, made⟩ := r
  cases call <;> simp [SinkCall.enrollLabel, label?]

theorem toList_enrollLocal (r : Response Λ V) (locals : Array V) :
    (r.call.enrollLocal r.made locals).toList = locals.toList ++ r.local?.toList := by
  obtain ⟨call, made⟩ := r
  cases call <;> simp [SinkCall.enrollLocal, local?]

end Response

/-- A sink that keeps a log of the calls made on it, first one first. -/
structure Logged (σ Λ V : Type) where
  sink : σ
  log : List (Exchange Λ V)

namespace Logged

/-- Nothing has been called. -/
def fresh (sink : σ) : Logged σ Λ V :=
  ⟨sink, []⟩

/-- Adds an exchange to the log. -/
def note (s : Logged σ Λ V) (sink : σ) (call : SinkCall Λ V) (outcome : Except Error call.Reply) :
    Logged σ Λ V :=
  ⟨sink, s.log ++ [⟨call, outcome⟩]⟩

/-- The sink calls that succeeded, in order. -/
def responses (s : Logged σ Λ V) : List (Response Λ V) :=
  s.log.filterMap Exchange.response?

instance [Sink σ Λ V] : Sink (Logged σ Λ V) Λ V where
  perform call s :=
    match Sink.perform call s.sink with
    | (outcome, sink) => (outcome, s.note sink call outcome)

/-- A logged sink answers as the sink does, and notes the answer. -/
theorem perform_of_sink [Sink σ Λ V] {s : Logged σ Λ V} {call : SinkCall Λ V}
    {outcome : Except Error call.Reply} {sink : σ} (h : Sink.perform call s.sink = (outcome, sink)) :
    Sink.perform call s = (outcome, s.note sink call outcome) := by
  simp [Sink.perform, h]

@[simp] theorem responses_note_ok (s : Logged σ Λ V) (sink : σ) (call : SinkCall Λ V)
    (made : call.Reply) :
    (s.note sink call (.ok made)).responses = s.responses ++ [⟨call, made⟩] := by
  simp [responses, note, Exchange.response?]

@[simp] theorem responses_note_error (s : Logged σ Λ V) (sink : σ) (call : SinkCall Λ V)
    (e : Error) : (s.note sink call (.error e)).responses = s.responses := by
  simp [responses, note, Exchange.response?]

end Logged

/-! ## Rendering -/

/-- An operand in terms of a sink. `R` relates labels to labels of the sink, and `S` locals to
locals of the sink; everything else is the same. -/
inductive Operand.Renders (R : Label → Λ → Prop) (S : Local → V → Prop) :
    Operand Label Local → Operand Λ V → Prop where
  | none : Renders R S .none .none
  | int8 (value : Int8) : Renders R S (.int8 value) (.int8 value)
  | uint8 (value : UInt8) : Renders R S (.uint8 value) (.uint8 value)
  | uint16 (value : UInt16) : Renders R S (.uint16 value) (.uint16 value)
  | int32 (value : Int32) : Renders R S (.int32 value) (.int32 value)
  | int64 (value : Int64) : Renders R S (.int64 value) (.int64 value)
  | float32 (bits : UInt32) : Renders R S (.float32 bits) (.float32 bits)
  | float64 (bits : UInt64) : Renders R S (.float64 bits) (.float64 bits)
  | string (text : String) : Renders R S (.string text) (.string text)
  | label {target : Label} {made : Λ} (h : R target made) : Renders R S (.label target) (.label made)
  | labels {targets : List Label} {made : List Λ} (h : List.Forall₂ R targets made) :
      Renders R S (.labels targets) (.labels made)
  | localVar {v : Local} {made : V} (h : S v made) : Renders R S (.localVar v) (.localVar made)
  | field (member : Member) : Renders R S (.field member) (.field member)
  | constructor (member : Member) : Renders R S (.constructor member) (.constructor member)
  | method (member : Member) : Renders R S (.method member) (.method member)
  | type (member : Member) : Renders R S (.type member) (.type member)

/-- The sink call that stands for an instruction. -/
inductive Instruction.Renders (R : Label → Λ → Prop) (S : Local → V → Prop) :
    Instruction → SinkCall Λ V → Prop where
  | op {o : Op} {x : Operand Λ V} (h : o.operand.Renders R S x) : Renders R S (.op o) (.emit o.code x)
  | defineLabel (label : Label) : Renders R S (.defineLabel label) .defineLabel
  | markLabel {label : Label} {made : Λ} (h : R label made) :
      Renders R S (.markLabel label) (.markLabel made)
  | declareLocal (v : Local) : Renders R S (.declareLocal v) (.declareLocal v.type v.pinned)
  | beginExceptionBlock (exit : Label) : Renders R S (.beginExceptionBlock exit) .beginExceptionBlock
  | beginCatchBlock (type : Option Member) :
      Renders R S (.beginCatchBlock type) (.beginCatchBlock type)
  | beginExceptFilterBlock : Renders R S .beginExceptFilterBlock .beginExceptFilterBlock
  | beginFinallyBlock : Renders R S .beginFinallyBlock .beginFinallyBlock
  | beginFaultBlock : Renders R S .beginFaultBlock .beginFaultBlock
  | endExceptionBlock (exit : Label) : Renders R S (.endExceptionBlock exit) .endExceptionBlock
  | beginScope : Renders R S .beginScope .beginScope
  | endScope : Renders R S .endScope .endScope

section Rendering

variable {R : Label → Λ → Prop} {S : Local → V → Prop}

theorem exists_mapM_eq_ok {α β : Type} {f : α → Except Error β} {P : α → β → Prop} {xs : List α}
    (h : ∀ x ∈ xs, ∃ y, f x = .ok y ∧ P x y) :
    ∃ ys, xs.mapM f = .ok ys ∧ List.Forall₂ P xs ys := by
  induction xs with
  | nil => exact ⟨[], rfl, .nil⟩
  | cons x xs ih =>
      obtain ⟨y, hy, hxy⟩ := h x List.mem_cons_self
      obtain ⟨ys, hys, hforall⟩ := ih fun z hz => h z (List.mem_cons_of_mem x hz)
      refine ⟨y :: ys, ?_, .cons hxy hforall⟩
      simp [List.mapM_cons, hy, hys, bind, Except.bind, pure, Except.pure]

/-- Renaming an operand whose references all have counterparts renders it. -/
theorem Operand.exists_rename_eq_ok {f : Label → Except Error Λ} {g : Local → Except Error V}
    {x : Operand Label Local} (hlabels : ∀ label ∈ x.targets, ∃ made, f label = .ok made ∧ R label made)
    (hlocal : ∀ v, x = .localVar v → ∃ made, g v = .ok made ∧ S v made) :
    ∃ y, x.rename f g = .ok y ∧ x.Renders R S y := by
  cases x with
  | label target =>
      obtain ⟨made, hmade, hR⟩ := hlabels target List.mem_cons_self
      exact ⟨.label made, by simp [rename, hmade, Except.map], .label hR⟩
  | labels targets =>
      have htargets : ∀ label ∈ targets, ∃ made, f label = .ok made ∧ R label made := hlabels
      obtain ⟨made, hmade, hR⟩ := exists_mapM_eq_ok htargets
      exact ⟨.labels made, by simp [rename, hmade, Except.map], .labels hR⟩
  | localVar v =>
      obtain ⟨made, hmade, hS⟩ := hlocal v rfl
      exact ⟨.localVar made, by simp [rename, hmade, Except.map], .localVar hS⟩
  | _ => exact ⟨_, rfl, by constructor⟩

/-- A call makes a label exactly for the instructions that allocate one. -/
theorem Instruction.Renders.isSome_label? {i : Instruction} {r : Response Λ V}
    (h : i.Renders R S r.call) : i.definedLabel?.isSome = r.label?.isSome := by
  obtain ⟨call, made⟩ := r
  cases h <;> rfl

/-- A call makes a local exactly for the instructions that allocate one. -/
theorem Instruction.Renders.isSome_local? {i : Instruction} {r : Response Λ V}
    (h : i.Renders R S r.call) : i.declaredLocal?.isSome = r.local?.isSome := by
  obtain ⟨call, made⟩ := r
  cases h <;> rfl

end Rendering

/-! ## One call -/

namespace Assembler

/-- Performs calls in order, whether or not they are refused. -/
def after [Sink σ Λ V] (a : Assembler σ Λ V) (calls : List Call) : Assembler σ Λ V :=
  calls.foldl (fun a call => (a.perform call).2) a

theorem after_cons [Sink σ Λ V] (a : Assembler σ Λ V) (call : Call) (calls : List Call) :
    a.after (call :: calls) = (a.perform call).2.after calls := rfl

theorem after_append_singleton [Sink σ Λ V] (a : Assembler σ Λ V) (calls : List Call)
    (call : Call) : a.after (calls ++ [call]) = ((a.after calls).perform call).2 := by
  simp [after]

theorem sinkLabel_eq_ok {a : Assembler σ Λ V} {label : Label} {made : Λ}
    (hcheck : a.recorder.checkLabel label = .ok ())
    (hmade : a.labels[label.index.toNat]? = some made) : a.sinkLabel label = .ok made := by
  simp [sinkLabel, hcheck, hmade]

theorem sinkLocal_eq_ok {a : Assembler σ Λ V} {v : Local} {made : V}
    (hcheck : a.recorder.checkLocal v = .ok ())
    (hmade : a.locals[v.index.toNat]? = some made) : a.sinkLocal v = .ok made := by
  simp [sinkLocal, hcheck, hmade]

/-- The sink call of an instruction renders it, if everything it refers to has a counterpart. -/
theorem exists_sinkCall_eq_ok {a : Assembler σ Λ V} {i : Instruction} {R : Label → Λ → Prop}
    {S : Local → V → Prop}
    (hlabels : ∀ label ∈ i.labelsUsed, ∃ made, a.sinkLabel label = .ok made ∧ R label made)
    (hlocals : ∀ v, i.UsesLocal v → ∃ made, a.sinkLocal v = .ok made ∧ S v made) :
    ∃ call, a.sinkCall i = .ok call ∧ i.Renders R S call := by
  cases i with
  | op o =>
      obtain ⟨x, hx, hrenders⟩ :=
        Operand.exists_rename_eq_ok hlabels fun v hv => hlocals v ⟨o, rfl, hv⟩
      exact ⟨.emit o.code x, by simp [sinkCall, hx, Except.map], .op hrenders⟩
  | markLabel label =>
      obtain ⟨made, hmade, hR⟩ := hlabels label List.mem_cons_self
      exact ⟨.markLabel made, by simp [sinkCall, hmade, Except.map], .markLabel hR⟩
  | _ => exact ⟨_, rfl, by constructor⟩

/-- The ways in which a call can go: the recorder refuses it, it has no sink call, or it is
forwarded and the sink refuses or takes it. -/
theorem perform_cases [Sink σ Λ V] (call : Call) (a : Assembler σ Λ V) :
    (∃ e, a.recorder.prepare call = .error e ∧ a.perform call = (.error e, a)) ∨
    (∃ reply i e, a.recorder.prepare call = .ok (reply, i) ∧ a.sinkCall i = .error e ∧
      a.perform call = (.error e, a)) ∨
    (∃ reply i k e s, a.recorder.prepare call = .ok (reply, i) ∧ a.sinkCall i = .ok k ∧
      Sink.perform k a.sink = (.error e, s) ∧
      a.perform call = (.error e, { a with sink := s })) ∨
    (∃ reply i k made s, a.recorder.prepare call = .ok (reply, i) ∧ a.sinkCall i = .ok k ∧
      Sink.perform k a.sink = (.ok made, s) ∧
      a.perform call = (.ok reply,
        ⟨a.recorder.record i, s, k.enrollLabel made a.labels, k.enrollLocal made a.locals⟩)) := by
  unfold perform
  cases hprepare : a.recorder.prepare call with
  | error e => exact .inl ⟨e, rfl, rfl⟩
  | ok prepared =>
      obtain ⟨reply, i⟩ := prepared
      cases hcall : a.sinkCall i with
      | error e => exact .inr (.inl ⟨reply, i, e, rfl, hcall, by simp [hcall]⟩)
      | ok k =>
          cases hsink : Sink.perform k a.sink with
          | mk outcome s =>
              cases outcome with
              | error e =>
                  refine .inr (.inr (.inl ⟨reply, i, k, e, s, rfl, hcall, hsink, ?_⟩))
                  simp [hcall, forward, hsink]
              | ok made =>
                  refine .inr (.inr (.inr ⟨reply, i, k, made, s, rfl, hcall, hsink, ?_⟩))
                  simp [hcall, forward, hsink]

/-- Forgets the log. -/
def unlogged (a : Assembler (Logged σ Λ V) Λ V) : Assembler σ Λ V :=
  ⟨a.recorder, a.sink.sink, a.labels, a.locals⟩

theorem sinkCall_unlogged (a : Assembler (Logged σ Λ V) Λ V) (i : Instruction) :
    a.unlogged.sinkCall i = a.sinkCall i := by
  cases i <;> rfl

/-- The log is only watched: no call goes otherwise because of it. -/
theorem perform_unlogged [Sink σ Λ V] (call : Call) (a : Assembler (Logged σ Λ V) Λ V) :
    a.unlogged.perform call = ((a.perform call).1, (a.perform call).2.unlogged) := by
  have hrecorder : a.unlogged.recorder = a.recorder := rfl
  unfold perform
  rw [hrecorder]
  cases a.recorder.prepare call with
  | error e => rfl
  | ok prepared =>
      obtain ⟨reply, i⟩ := prepared
      simp only [sinkCall_unlogged]
      cases a.sinkCall i with
      | error e => rfl
      | ok k =>
          have hsink : Sink.perform k a.sink = ((Sink.perform k a.sink.sink).1,
            a.sink.note (Sink.perform k a.sink.sink).2 k (Sink.perform k a.sink.sink).1) := rfl
          simp only [forward, unlogged, hsink]
          cases Sink.perform k a.sink.sink with
          | mk outcome s => cases outcome <;> rfl

theorem after_unlogged [Sink σ Λ V] (calls : List Call) (a : Assembler (Logged σ Λ V) Λ V) :
    (a.after calls).unlogged = a.unlogged.after calls := by
  induction calls using List.reverseRecOn with
  | nil => rfl
  | append_singleton calls call ih =>
      rw [after_append_singleton, after_append_singleton, ← ih, perform_unlogged]

end Assembler

/-! ## Counterparts -/

/-- What the sink made for the first line that allocated a label equal to this one. -/
def labelFor? (history : List (Instruction × Response Λ V)) (label : Label) : Option Λ :=
  (history.find? fun entry => entry.1.definedLabel?.any (· == label)).bind (·.2.label?)

/-- What the sink made for the first line that allocated a local equal to this one. -/
def localFor? (history : List (Instruction × Response Λ V)) (v : Local) : Option V :=
  (history.find? fun entry => entry.1.declaredLocal?.any (· == v)).bind (·.2.local?)

/-- Let two partial functions yield something on the two halves of the same entries. If `n` is the
place of the first thing on the left that satisfies `p`, the first entry whose left half yields
such a thing yields the `n`-th thing on the right. -/
theorem find?_bind_eq_getElem? {α β γ δ : Type} {f : α → Option γ} {g : β → Option δ} {p : γ → Bool}
    {entries : List (α × β)} (haligned : ∀ e ∈ entries, (f e.1).isSome = (g e.2).isSome) {n : Nat}
    {y : γ} (hy : ((entries.map Prod.fst).filterMap f)[n]? = some y) (hp : p y = true)
    (hfirst : ∀ m z, m < n → ((entries.map Prod.fst).filterMap f)[m]? = some z → p z = false) :
    (entries.find? fun e => (f e.1).any p).bind (fun e => g e.2) =
      ((entries.map Prod.snd).filterMap g)[n]? := by
  induction entries generalizing n with
  | nil => simp at hy
  | cons e entries ih =>
      have hrest := fun e' he' => haligned e' (List.mem_cons_of_mem e he')
      have hhead := haligned e List.mem_cons_self
      cases hf : f e.1 with
      | none =>
          rw [hf] at hhead
          have hg : g e.2 = none := by simpa using hhead
          simp only [List.map_cons, List.filterMap_cons, hf, hg] at hy hfirst ⊢
          rw [List.find?_cons_of_neg (by simp [hf])]
          exact ih hrest hy hfirst
      | some z =>
          rw [hf] at hhead
          obtain ⟨d, hg⟩ := Option.isSome_iff_exists.mp hhead.symm
          simp only [List.map_cons, List.filterMap_cons, hf, hg] at hy hfirst ⊢
          cases n with
          | zero =>
              obtain rfl : z = y := by simpa using hy
              rw [List.find?_cons_of_pos (by simp [hf, hp])]
              simp [hg]
          | succ n =>
              have hz : p z = false := hfirst 0 z (Nat.succ_pos n) (by simp)
              rw [List.find?_cons_of_neg (by simp [hf, hz])]
              simp only [List.getElem?_cons_succ] at hy hfirst ⊢
              exact ih hrest hy fun m w hm hw => hfirst (m + 1) w (Nat.succ_lt_succ hm) hw

section Counterparts

variable {id : AssemblerId} {history : List (Instruction × Response Λ V)}

theorem labelFor?_eq (h : Recorded id (history.map Prod.fst))
    (haligned : ∀ e ∈ history, e.1.definedLabel?.isSome = e.2.label?.isSome) {label : Label}
    (hlabel : (Books.ofInstructions (history.map Prod.fst)).HasLabel label) :
    labelFor? history label =
      ((history.map Prod.snd).filterMap Response.label?)[label.index.toNat]? := by
  obtain ⟨found, hfound, heq⟩ := Books.hasLabel_iff.mp hlabel
  apply find?_bind_eq_getElem? haligned hfound heq
  intro m other hm hother
  rw [Bool.eq_false_iff]
  intro hsame
  have hindex := h.index_of_definedLabel hother
  rw [Label.index_eq_of_beq hsame] at hindex
  exact toUInt32_ne_of_lt hm hindex.symm

theorem localFor?_eq (h : Recorded id (history.map Prod.fst))
    (haligned : ∀ e ∈ history, e.1.declaredLocal?.isSome = e.2.local?.isSome) {v : Local}
    (hlocal : (Books.ofInstructions (history.map Prod.fst)).HasLocal v) :
    localFor? history v = ((history.map Prod.snd).filterMap Response.local?)[v.index.toNat]? := by
  obtain ⟨found, hfound, heq⟩ := Books.hasLocal_iff.mp hlocal
  apply find?_bind_eq_getElem? haligned hfound heq
  intro m other hm hother
  rw [Bool.eq_false_iff]
  intro hsame
  have hindex := h.index_of_declaredLocal hother
  rw [Local.index_eq_of_beq hsame] at hindex
  exact toUInt32_ne_of_lt hm hindex.symm

end Counterparts

/-! ## Roster gaps -/

/-- Whether the error says that a roster of sink handles is out of step with the recorder. -/
def Error.isRosterGap : Error → Bool
  | .malformed (.labelRosterGap _) | .malformed (.localRosterGap _) => true
  | _ => false

/-- If the computation fails, a roster gap is not the reason. -/
def Gapless {α : Type} (x : Except Error α) : Prop :=
  ∀ e, x = .error e → e.isRosterGap = false

namespace Gapless

end Gapless

namespace Recorder

variable (r : Recorder)

theorem gapless_checkHandle (handle : Handle) : Gapless (r.checkHandle handle) := by
  intro e h
  obtain ⟨fault, rfl⟩ := checkHandle_eq_error h
  cases handle <;> rfl

theorem gapless_prepare (call : Call) : Gapless (r.prepare call) := by
  intro e h
  cases reports_of_prepare h with
  | @passed handle _ _ hcheck => exact r.gapless_checkHandle handle e hcheck
  | _ => rfl

end Recorder

end CilAssembler
