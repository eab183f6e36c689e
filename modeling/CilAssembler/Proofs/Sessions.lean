import CilAssembler.Proofs.Forwarding
import CilAssembler.Proofs.Provenance
import CilAssembler.Proofs.Workshop

/-! # Recording sessions

The two ways to record a stream are sessions: a recorder among others, with checkpoints and rewinds,
and the recorder of an assembler. -/

namespace CilAssembler

/-! ## A recorder among others -/

/-- The call that the request makes on the recorder with identity `id`. -/
def Request.callOn? (id : AssemblerId) : Request → Option Call
  | .perform other call => if other = id then some call else none
  | _ => none

namespace Workshop

/-- The session of the recorder with identity `id`. -/
def session (id : AssemblerId) : Session Request where
  recorder requests := (run requests).recorder id
  call? := Request.callOn? id

/-- The session is proper, and neither checkpoints nor revisions run out of numbers. -/
structure Proper (id : AssemblerId) (requests : List Request) : Prop
    extends (session id).Proper requests where
  checkpoints : requests.countP (·.takesCheckpoint id) < 2 ^ 32
  rewinds : (rewindsTo id opened requests).length < 2 ^ 32

/-- What a request does to one recorder. -/
theorem Keeps.step_cases {w : Workshop} {id : AssemblerId} {count : Nat} (h : w.Keeps id count)
    (request : Request) :
    (rewoundTo? id w request = none ∧
      ((w.step request).recorder id).books = (w.recorder id).books ∧
      ((w.step request).recorder id).revision = (w.recorder id).revision) ∨
    (∃ (call : Call) (reply : call.Reply) (i : Instruction), request = .perform id call ∧
      (w.recorder id).prepare call = .ok (reply, i) ∧
      (w.step request).recorder id = (w.recorder id).record i) ∨
    (∃ number c, rewoundTo? id w request = some number ∧
      (w.step request).recorder id = (w.recorder id).restore c ∧
      ((w.recorder id).restore c).stream.instructions =
        (w.recorder id).stream.instructions.take c.lines) := by
  rcases Workshop.step_cases h.identified id request with
    ⟨call, rfl, hrecorder, _⟩ | ⟨rfl, hrecorder, _⟩ |
    ⟨number, c, rfl, hc, hrecorder, _⟩ | ⟨_, hnone, hrecorder, _⟩
  · rcases Recorder.perform_cases call (w.recorder id) with
      ⟨e, _, hrefused⟩ | ⟨reply, i, hprepare, haccepted, _⟩
    · rw [hrecorder, hrefused]
      exact .inl ⟨rfl, rfl, rfl⟩
    · rw [haccepted] at hrecorder
      exact .inr (.inl ⟨call, reply, i, rfl, hprepare, hrecorder⟩)
  · rw [hrecorder]
    exact .inl ⟨rfl, rfl, rfl⟩
  · have haccepts : w.accepts id number = true ↔ _ := accepts_iff h.identified hc
    by_cases haccepted : w.accepts id number = true
    · obtain ⟨howner, hlive⟩ := haccepts.mp haccepted
      refine .inr (.inr ⟨number, c, ?_, h.recorder_rewind hc howner hlive, ?_⟩)
      · simp [rewoundTo?, haccepted]
      · exact (h.sound.restore (mem_taken_of_getElem? hc howner) hlive).2
    · rw [step_rewind_of_refused (Bool.eq_false_iff.mpr haccepted)]
      exact .inl ⟨by simp [rewoundTo?, haccepted], rfl, rfl⟩
  · rw [hrecorder]
    exact .inl ⟨hnone, rfl, rfl⟩

theorem length_rewindsTo_le {id : AssemblerId} {w : Workshop} {before requests : List Request}
    (h : before <+: requests) : (rewindsTo id w before).length ≤ (rewindsTo id w requests).length := by
  obtain ⟨later, rfl⟩ := h
  rw [rewindsTo_append, List.length_append]
  exact Nat.le_add_right _ _

theorem run_append_singleton (requests : List Request) (request : Request) :
    run (requests ++ [request]) = (run requests).step request :=
  after_append_singleton opened requests request

theorem rewindsTo_opened_append_singleton (id : AssemblerId) (requests : List Request)
    (request : Request) :
    rewindsTo id opened (requests ++ [request]) =
      rewindsTo id opened requests ++ (rewoundTo? id (run requests) request).toList :=
  rewindsTo_append_singleton id opened requests request

/-- The revision of a recorder counts its rewinds. -/
theorem toNat_revision {id : AssemblerId} {requests : List Request}
    (hcheckpoints : requests.countP (·.takesCheckpoint id) < 2 ^ 32)
    (hrewinds : (rewindsTo id opened requests).length < 2 ^ 32) :
    ((run requests).recorder id).revision.toNat = (rewindsTo id opened requests).length := by
  induction requests using List.reverseRecOn with
  | nil => rfl
  | append_singleton requests request ih =>
      rw [List.countP_append] at hcheckpoints
      have hbefore := ih (by omega)
        (Nat.lt_of_le_of_lt (length_rewindsTo_le (List.prefix_append _ _)) hrewinds)
      rw [rewindsTo_opened_append_singleton, List.length_append] at hrewinds ⊢
      rw [run_append_singleton]
      rcases (keeps_run requests id (by omega)).step_cases request with
        ⟨hnone, _, hrevision⟩ | ⟨call, reply, i, rfl, _, hrecorder⟩ | ⟨number, c, hsome, hrecorder, _⟩
      · rw [hrevision, hbefore, hnone]
        rfl
      · rw [hrecorder]
        exact hbefore
      · rw [hsome, Option.toList_some, List.length_singleton, ← hbefore] at hrewinds ⊢
        rw [hrecorder]
        simp only [Recorder.restore, UInt32.toNat_add]
        exact Nat.mod_eq_of_lt hrewinds

/-- A recorder among others runs as recorders do, as long as neither checkpoints nor revisions run out
of numbers. -/
theorem runs_session {id : AssemblerId} {requests : List Request}
    (hcheckpoints : requests.countP (·.takesCheckpoint id) < 2 ^ 32)
    (hrewinds : (rewindsTo id opened requests).length < 2 ^ 32) : (session id).Runs requests where
  start := rfl
  kept before hpre :=
    (keeps_run before id (Nat.lt_of_le_of_lt hpre.countP_le hcheckpoints)).sound.toKept
  turns before request hpre := by
    have hpre' := (List.prefix_append before [request]).trans hpre
    have hcount := Nat.lt_of_le_of_lt hpre'.countP_le hcheckpoints
    have hnow := toNat_revision hcount (Nat.lt_of_le_of_lt (length_rewindsTo_le hpre') hrewinds)
    have hnext := toNat_revision (Nat.lt_of_le_of_lt hpre.countP_le hcheckpoints)
      (Nat.lt_of_le_of_lt (length_rewindsTo_le hpre) hrewinds)
    change ((run before).recorder id).Turns _ ((run (before ++ [request])).recorder id)
    rcases (keeps_run before id hcount).step_cases request with
      ⟨_, hbooks, hrevision⟩ | ⟨call, reply, i, rfl, hprepare, hrecorder⟩ |
      ⟨number, c, hsome, hrecorder, hlines⟩
    · rw [run_append_singleton]
      exact .rest hbooks hrevision
    · rw [run_append_singleton, hrecorder]
      exact .record (if_pos rfl) hprepare
    · refine .cut c.lines ?_ ?_
      · rw [run_append_singleton, hrecorder, hlines]
      · rw [UInt32.lt_iff_toNat_lt, hnow, hnext, rewindsTo_opened_append_singleton,
          List.length_append, hsome]
        exact Nat.lt_succ_self _

theorem Proper.runs {id : AssemblerId} {requests : List Request} (h : Proper id requests) :
    (session id).Runs requests :=
  runs_session h.checkpoints h.rewinds

end Workshop

/-! ## The recorder of an assembler -/

namespace Assembler

variable {σ Λ V : Type} [Sink σ Λ V]

/-- The session of the recorder of an assembler over a sink. -/
def session (id : AssemblerId) (sink : σ) : Session Call where
  recorder calls := ((new id sink : Assembler σ Λ V).after calls).recorder
  call? := some

/-- A call leaves the recorder as it is, or it records an instruction. -/
theorem recorder_perform_cases (call : Call) (a : Assembler σ Λ V) :
    (a.perform call).2.recorder = a.recorder ∨
      ∃ reply i, a.recorder.prepare call = .ok (reply, i) ∧
        (a.perform call).2.recorder = a.recorder.record i := by
  rcases a.perform_cases call with ⟨e, _, hrefused⟩ | ⟨_, _, e, _, _, hrefused⟩ |
    ⟨_, _, _, e, s, _, _, _, hrefused⟩ | ⟨reply, i, _, made, s, hprepare, _, _, haccepted⟩
  · exact .inl (by rw [hrefused])
  · exact .inl (by rw [hrefused])
  · exact .inl (by rw [hrefused])
  · exact .inr ⟨reply, i, hprepare, by rw [haccepted]⟩

theorem kept_after (id : AssemblerId) (sink : σ) (calls : List Call) :
    ((new id sink : Assembler σ Λ V).after calls).recorder.Kept := by
  induction calls using List.reverseRecOn with
  | nil => exact Recorder.kept_new id
  | append_singleton calls call ih =>
      rw [after_append_singleton]
      rcases recorder_perform_cases call ((new id sink : Assembler σ Λ V).after calls) with
        hsame | ⟨reply, i, hprepare, hrecord⟩
      · rw [hsame]
        exact ih
      · rw [hrecord]
        exact ih.record (Recorder.admits_of_prepare hprepare)

theorem runs_session (id : AssemblerId) (sink : σ) (calls : List Call) :
    (session (Λ := Λ) (V := V) id sink).Runs calls where
  start := rfl
  kept before _ := kept_after id sink before
  turns before call _ := by
    change ((new id sink : Assembler σ Λ V).after before).recorder.Turns (some call)
      ((new id sink : Assembler σ Λ V).after (before ++ [call])).recorder
    rw [after_append_singleton]
    rcases recorder_perform_cases call ((new id sink : Assembler σ Λ V).after before) with
      hsame | ⟨reply, i, hprepare, hrecord⟩
    · rw [hsame]
      exact .rest rfl rfl
    · rw [hrecord]
      exact .record rfl hprepare

end Assembler

/-! ## Recorded streams -/

/-- The streams that proper sessions record, during the session or at its end, and what is left when
they are truncated. -/
inductive Stream.OfSession : Stream → Prop where
  | recorder {id : AssemblerId} {requests : List Request} (h : Workshop.Proper id requests) :
      OfSession ((Workshop.run requests).recorder id).stream
  | recorderFinish {id : AssemblerId} {requests : List Request} {s : Stream}
      (h : Workshop.Proper id requests)
      (hfinish : ((Workshop.run requests).recorder id).finish = .ok s) : OfSession s
  | assembler {σ Λ V : Type} [Sink σ Λ V] {id : AssemblerId} {sink : σ} {calls : List Call}
      (h : (Assembler.session (Λ := Λ) (V := V) id sink).Proper calls) :
      OfSession ((Assembler.new id sink : Assembler σ Λ V).after calls).recorder.stream
  | assemblerFinish {σ Λ V : Type} [Sink σ Λ V] {id : AssemblerId} {sink : σ} {calls : List Call}
      {s : Stream} {done : σ} (h : (Assembler.session (Λ := Λ) (V := V) id sink).Proper calls)
      (hfinish : ((Assembler.new id sink : Assembler σ Λ V).after calls).finish = .ok (s, done)) :
      OfSession s
  | truncate {s : Stream} (h : OfSession s) (count : Nat) : OfSession (s.truncate count)

/-- A stream that a session recorded consists of traceable lines. -/
theorem Stream.OfSession.traceable {s : Stream} (h : s.OfSession) :
    ∃ id is, s = .ofInstructions is ∧ Traceable id is := by
  induction h with
  | recorder h =>
      exact ⟨_, _, (h.runs.kept _ List.prefix_rfl).stream_eq, h.runs.traceable h.toProper⟩
  | recorderFinish h hfinish =>
      rw [(Recorder.finish_eq_ok.mp hfinish).2.2]
      exact ⟨_, _, (h.runs.kept _ List.prefix_rfl).stream_eq, h.runs.traceable h.toProper⟩
  | @assembler _ _ _ _ id sink calls h =>
      have hruns := Assembler.runs_session id sink calls
      exact ⟨_, _, (hruns.kept _ List.prefix_rfl).stream_eq, hruns.traceable h⟩
  | @assemblerFinish _ _ _ _ id sink calls s done h hfinish =>
      have hruns := Assembler.runs_session id sink calls
      obtain ⟨stream, hstream, heq⟩ := Except.map_eq_ok.mp hfinish
      cases heq
      rw [(Recorder.finish_eq_ok.mp hstream).2.2]
      exact ⟨_, _, (hruns.kept _ List.prefix_rfl).stream_eq, hruns.traceable h⟩
  | truncate _ count ih =>
      obtain ⟨id, is, rfl, h⟩ := ih
      exact ⟨id, is.take count, Stream.truncate_ofInstructions is count, h.take count⟩

end CilAssembler
