import CilAssembler.Proofs.Copying

/-! # Replaying and direct emission

A recorded session can be brought to an assembler over a builder in two ways: its stream is replayed
there, or the calls that are left of the session are made there directly. The two take the same
course. What a session tried and took back leaves no trace in either. -/

namespace CilAssembler

/-! ## What is left of a session -/

/-- An accepted call, and what it gave back. -/
structure Granted where
  call : Call
  reply : call.Reply

/-- The call that the instruction records, and what it gave back. -/
def Instruction.granted (i : Instruction) : Granted :=
  ⟨i.call, i.reply⟩

theorem Recorder.granted_of_prepare {r : Recorder} {call : Call} {reply : call.Reply}
    {i : Instruction} (h : r.prepare call = .ok (reply, i)) : i.granted = ⟨call, reply⟩ := by
  cases call with
  | defineLabel | declareLocal | beginExceptionBlock | beginScope =>
      cases h
      rfl
  | emit code x =>
      obtain ⟨o, hop, heq⟩ := Except.map_eq_ok.mp h
      cases heq
      obtain ⟨rfl, rfl⟩ := operand_of_make (checkOp_eq_ok.mp hop).1
      rfl
  | _ =>
      obtain ⟨_, _, heq⟩ := Except.map_eq_ok.mp h
      cases heq
      rfl

namespace Workshop

/-- The accepted calls on the recorder `id` whose lines are there after one more request. An accepted
call adds a line, and an accepted rewind keeps the lines that there were at its checkpoint. -/
def surviving (id : AssemblerId) (w : Workshop) (calls : List Granted) : Request → List Granted
  | .perform other call =>
      if other = id then
        match (w.recorder id).perform call with
        | (.ok reply, _) => calls ++ [⟨call, reply⟩]
        | (.error _, _) => calls
      else
        calls
  | .checkpoint _ => calls
  | .rewind other number =>
      match w.checkpoints[number]? with
      | some c => if other = id ∧ w.accepts other number then calls.take c.lines else calls
      | none => calls

/-- The same after a number of requests. -/
def survivorsFrom (id : AssemblerId) : Workshop → List Granted → List Request → List Granted
  | _, calls, [] => calls
  | w, calls, request :: rest =>
      survivorsFrom id (w.step request) (surviving id w calls request) rest

/-- The accepted calls of a session whose lines survived all rewinds. -/
def survivors (id : AssemblerId) (requests : List Request) : List Granted :=
  survivorsFrom id opened [] requests

theorem survivorsFrom_append_singleton (id : AssemblerId) (w : Workshop) (calls : List Granted)
    (requests : List Request) (request : Request) :
    survivorsFrom id w calls (requests ++ [request]) =
      surviving id (w.after requests) (survivorsFrom id w calls requests) request := by
  induction requests generalizing w calls with
  | nil => rfl
  | cons first rest ih => exact ih (w.step first) (surviving id w calls first)

/-- If the calls kept so far are those of the stream, they still are after a request. -/
theorem surviving_eq (id : AssemblerId) (w : Workshop) (request : Request) :
    surviving id w ((w.recorder id).stream.instructions.map Instruction.granted) request =
      ((w.step request).recorder id).stream.instructions.map Instruction.granted := by
  cases request with
  | perform other call =>
      by_cases hid : other = id
      · subst hid
        have hrecorder : (w.step (.perform other call)).recorder other =
            ((w.recorder other).perform call).2 := recorder_update_self _ _ _
        rw [surviving, if_pos rfl, hrecorder]
        rcases Recorder.perform_cases call (w.recorder other) with
          ⟨e, _, hrefused⟩ | ⟨reply, i, hprepare, haccepted, _⟩
        · rw [hrefused]
        · rw [haccepted, Recorder.instructions_record, List.map_append, List.map_singleton,
            Recorder.granted_of_prepare hprepare]
      · have hrecorder : (w.step (.perform other call)).recorder id = w.recorder id :=
          recorder_update_of_ne _ _ (Ne.symm hid)
        rw [surviving, if_neg hid, hrecorder]
  | checkpoint other =>
      by_cases hid : other = id
      · subst hid
        have hrecorder : (w.step (.checkpoint other)).recorder other =
            (w.recorder other).checkpoint.2 := recorder_update_self _ _ _
        rw [hrecorder]
        rfl
      · have hrecorder : (w.step (.checkpoint other)).recorder id = w.recorder id :=
          recorder_update_of_ne _ _ (Ne.symm hid)
        rw [hrecorder]
        rfl
  | rewind other number =>
      cases hc : w.checkpoints[number]? with
      | none =>
          rw [step_rewind_of_none hc]
          simp only [surviving, hc]
      | some c =>
          simp only [surviving, hc]
          by_cases hid : other = id
          · subst hid
            by_cases haccepted : w.accepts other number = true
            · have hrewind : ((w.recorder other).rewind c).1.isOk = true := by
                simpa only [accepts, hc] using haccepted
              obtain ⟨howner, hlive⟩ := Recorder.isOk_rewind_iff.mp hrewind
              rw [if_pos ⟨rfl, haccepted⟩, step_rewind_of_some hc, recorder_update_self,
                Recorder.rewind_of_live howner hlive, Recorder.restore,
                Stream.instructions_truncate, List.map_take]
            · rw [if_neg fun hboth => haccepted hboth.2,
                step_rewind_of_refused (Bool.eq_false_iff.mpr haccepted)]
          · rw [if_neg fun hboth => hid hboth.1, step_rewind_of_some hc,
              recorder_update_of_ne _ _ (Ne.symm hid)]

/-- The calls that are left of a session are those of its stream. -/
theorem survivors_eq (id : AssemblerId) (requests : List Request) :
    survivors id requests =
      ((run requests).recorder id).stream.instructions.map Instruction.granted := by
  induction requests using List.reverseRecOn with
  | nil => rfl
  | append_singleton requests request ih =>
      have hafter := surviving_eq id (run requests) request
      rw [← ih] at hafter
      rw [run_append_singleton, ← hafter]
      exact survivorsFrom_append_singleton id opened [] requests request

/-- The end labels of exception regions have no name. -/
theorem exits_unnamed {id : AssemblerId} {requests : List Request}
    (hcheckpoints : requests.countP (·.takesCheckpoint id) < 2 ^ 32) {exit : Label}
    (hexit : .beginExceptionBlock exit ∈ ((run requests).recorder id).stream.instructions) :
    exit.name = none := by
  induction requests using List.reverseRecOn with
  | nil => cases hexit
  | append_singleton requests request ih =>
      rw [List.countP_append] at hcheckpoints
      rw [run_append_singleton] at hexit
      rcases (keeps_run requests id (by omega)).step_cases request with
        ⟨_, hbooks, _⟩ | ⟨call, reply, i, rfl, hprepare, hrecorder⟩ |
        ⟨number, c, _, hrecorder, hlines⟩
      · rw [show ((run requests).step request |>.recorder id).stream = _ from
          congrArg Books.stream hbooks] at hexit
        exact ih (by omega) hexit
      · rw [hrecorder, Recorder.instructions_record] at hexit
        rcases List.mem_append.mp hexit with hold | hlast
        · exact ih (by omega) hold
        · exact (Recorder.call_of_prepare hprepare).2.exit exit (List.mem_singleton.mp hlast).symm
      · rw [hrecorder, hlines] at hexit
        exact ih (by omega) (List.mem_of_mem_take hexit)

end Workshop

/-! ## Direct emission -/

/-- The handles of one session, each with the one that stands for it in another. -/
structure Counterparts where
  labels : List (Label × Label)
  locals : List (Local × Local)

namespace Counterparts

/-- Nothing has been allocated yet. -/
def empty : Counterparts := ⟨[], []⟩

/-- What stands for a label. A label that was not given out there is a foreign one. -/
def label (m : Counterparts) (label : Label) : Except Error Label :=
  match m.labels.find? (·.1 == label) with
  | some pair => .ok pair.2
  | none => .error (.invalidLabel label .foreign)

/-- What stands for a local. A local that was not given out there is a foreign one. -/
def localVar (m : Counterparts) (v : Local) : Except Error Local :=
  match m.locals.find? (·.1 == v) with
  | some pair => .ok pair.2
  | none => .error (.invalidLocal v .foreign)

/-- Notes which handle stands for the one that a call gave back. -/
def pair (m : Counterparts) : Granted → (call : Call) → call.Reply → Counterparts
  | ⟨.defineLabel _, label⟩, .defineLabel _, made =>
      { m with labels := m.labels ++ [(label, made)] }
  | ⟨.beginExceptionBlock, exit⟩, .beginExceptionBlock, made =>
      { m with labels := m.labels ++ [(exit, made)] }
  | ⟨.declareLocal _ _ _, v⟩, .declareLocal _ _ _, made =>
      { m with locals := m.locals ++ [(v, made)] }
  | _, _, _ => m

end Counterparts

/-- Makes the calls of another session in order, stopping at the first that is refused. Every handle
is replaced by the one that the corresponding call gave back here. -/
def reissue {α : Type} [Emitter α] (m : Counterparts) : List Granted → α → Except Error Unit × α
  | [], a => (.ok (), a)
  | granted :: rest, a =>
      match granted.call.rename m.label m.localVar with
      | .error e => (.error e, a)
      | .ok call =>
          match Emitter.perform call a with
          | (.error e, a) => (.error e, a)
          | (.ok reply, a) => reissue (m.pair granted call reply) rest a

/-! ## Both ways make copies -/

section Copies

variable {id other : AssemblerId} {done : List Instruction} {i copy : Instruction}

/-- Replaying a line copies it. -/
theorem Renaming.Adopts.exists_copy {m : Renaming} (h : m.Adopts id done)
    (hadmits : (Books.ofInstructions done).Admits other i) :
    ∃ copy, i.Copied id copy ∧ m.call i = .ok copy.call := by
  rw [m.call_eq_rename]
  apply Instruction.exists_copy
  · intro label hused
    obtain ⟨found, hfound, heq⟩ := Books.hasLabel_iff.mp (hadmits.hasLabel hused)
    have hknown := h.labels found (List.mem_of_getElem? hfound)
    rw [Label.index_eq_of_beq heq] at hknown
    exact ⟨found.adopt id, by simp [Renaming.label, hknown], Label.copied_of_beq heq⟩
  · intro v hused
    obtain ⟨found, hfound, heq⟩ := Books.hasLocal_iff.mp (hadmits.hasLocal hused)
    have hknown := h.locals found (List.mem_of_getElem? hfound)
    rw [Local.index_eq_of_beq heq] at hknown
    exact ⟨found.adopt id, by simp [Renaming.localVar, hknown], Local.copied_of_beq heq⟩

namespace Counterparts

/-- The labels and locals that the lines so far allocated are paired with those of `id` that have the
same indices. -/
structure Matches (id : AssemblerId) (done : List Instruction) (m : Counterparts) : Prop where
  labels : m.labels =
    (done.filterMap Instruction.definedLabel?).map fun label => (label, label.adopt id)
  locals : m.locals = (done.filterMap Instruction.declaredLocal?).map fun v => (v, v.adopt id)

variable {m : Counterparts}

theorem matches_empty (id : AssemblerId) : empty.Matches id [] :=
  ⟨rfl, rfl⟩

/-- A handle that is among those paired, up to its name, has a counterpart. -/
theorem exists_find?_paired {H : Type} [BEq H] {f : H → H} {handles : List H} {found handle : H}
    (hmem : found ∈ handles) (heq : (found == handle) = true) :
    ∃ source, (source == handle) = true ∧
      (handles.map fun source => (source, f source)).find? (·.1 == handle) =
        some (source, f source) := by
  have hsome : (handles.find? (· == handle)).isSome = true :=
    List.find?_isSome.mpr ⟨found, hmem, heq⟩
  obtain ⟨source, hsource⟩ := Option.isSome_iff_exists.mp hsome
  have hsame : (source == handle) = true := List.find?_some (p := (· == handle)) hsource
  refine ⟨source, hsame, ?_⟩
  rw [List.find?_map, Function.comp_def, hsource, Option.map_some]

theorem Matches.exists_label (h : m.Matches id done) {label : Label}
    (hlabel : (Books.ofInstructions done).HasLabel label) :
    ∃ copy, m.label label = .ok copy ∧ label.Copied id copy := by
  obtain ⟨found, hfound, heq⟩ := Books.hasLabel_iff.mp hlabel
  obtain ⟨source, hsame, hpair⟩ := exists_find?_paired (List.mem_of_getElem? hfound) heq
  rw [← h.labels] at hpair
  exact ⟨source.adopt id, by simp [Counterparts.label, hpair], Label.copied_of_beq hsame⟩

theorem Matches.exists_localVar (h : m.Matches id done) {v : Local}
    (hlocal : (Books.ofInstructions done).HasLocal v) :
    ∃ copy, m.localVar v = .ok copy ∧ v.Copied id copy := by
  obtain ⟨found, hfound, heq⟩ := Books.hasLocal_iff.mp hlocal
  obtain ⟨source, hsame, hpair⟩ := exists_find?_paired (List.mem_of_getElem? hfound) heq
  rw [← h.locals] at hpair
  exact ⟨source.adopt id, by simp [Counterparts.localVar, hpair], Local.copied_of_beq hsame⟩

/-- Making the call of a line directly copies the line. -/
theorem Matches.exists_copy (h : m.Matches id done)
    (hadmits : (Books.ofInstructions done).Admits other i) :
    ∃ copy, i.Copied id copy ∧ i.granted.call.rename m.label m.localVar = .ok copy.call :=
  Instruction.exists_copy (fun _ hused => h.exists_label (hadmits.hasLabel hused))
    fun _ hused => h.exists_localVar (hadmits.hasLocal hused)

/-- What the direct call gave back is paired with what the call gave back in the session. -/
theorem Matches.pair (h : m.Matches id done) (hcopied : i.Copied id copy) :
    (m.pair i.granted copy.call copy.reply).Matches id (done ++ [i]) := by
  constructor
  · rw [List.filterMap_append, filterMap_singleton, List.map_append, ← h.labels]
    cases hcopied with
    | op | markLabel => exact (List.append_nil _).symm
    | adopt =>
        cases i with
        | defineLabel | beginExceptionBlock => rfl
        | _ => exact (List.append_nil _).symm
  · rw [List.filterMap_append, filterMap_singleton, List.map_append, ← h.locals]
    cases hcopied with
    | op | markLabel => exact (List.append_nil _).symm
    | adopt =>
        cases i with
        | declareLocal => rfl
        | _ => exact (List.append_nil _).symm

end Counterparts

/-- What the replayed line allocated is noted. -/
theorem Renaming.Adopts.learn_copy {m : Renaming} (h : m.Adopts id done) {r : Recorder}
    (hrecorded : Recorded other (done ++ [i])) (hcopied : i.Copied id copy)
    (hcopies : r.Copies id (done ++ [i])) (hlabels : r.labels.size ≤ 2 ^ 32)
    (hlocals : r.locals.size ≤ 2 ^ 32) :
    (m.learn i copy.call copy.reply).Adopts id (done ++ [i]) := by
  rw [hcopies.size_labels] at hlabels
  rw [hcopies.size_locals] at hlocals
  rw [hcopied.learn_eq]
  exact h.learn hrecorded hlabels hlocals

end Copies

/-! ## Both ways take the same course -/

section Course

variable {α : Type} [Emitter α] {a a' : α} {call : Call} {e : Error}

theorem replay_cons_of_ok {m : Renaming} {i : Instruction} {reply : call.Reply}
    (hcall : m.call i = .ok call) (hperform : Emitter.perform call a = (.ok reply, a'))
    (rest : List Instruction) : replay m (i :: rest) a = replay (m.learn i call reply) rest a' := by
  simp only [replay, hcall, hperform]

theorem replay_cons_of_error {m : Renaming} {i : Instruction} (hcall : m.call i = .ok call)
    (hperform : Emitter.perform call a = (.error e, a')) (rest : List Instruction) :
    replay m (i :: rest) a = (.error e, a') := by
  simp only [replay, hcall, hperform]

theorem reissue_cons_of_ok {m : Counterparts} {granted : Granted} {reply : call.Reply}
    (hcall : granted.call.rename m.label m.localVar = .ok call)
    (hperform : Emitter.perform call a = (.ok reply, a')) (rest : List Granted) :
    reissue m (granted :: rest) a = reissue (m.pair granted call reply) rest a' := by
  simp only [reissue, hcall, hperform]

theorem reissue_cons_of_error {m : Counterparts} {granted : Granted}
    (hcall : granted.call.rename m.label m.localVar = .ok call)
    (hperform : Emitter.perform call a = (.error e, a')) (rest : List Granted) :
    reissue m (granted :: rest) a = (.error e, a') := by
  simp only [reissue, hcall, hperform]

end Course

section Agreement

variable {first second other : AssemblerId} {done : List Instruction}
  {a b : Assembler BodyBuilder BodyLabel BodyLocal}

/-- Two assemblers copy a line over the same builder: both are refused with the same error, or both
go on over the same builder. -/
theorem Assembler.Builds.perform_copies {i acopy bcopy : Instruction} (ha : a.Builds) (hb : b.Builds)
    (hacopies : a.recorder.Copies first done) (hbcopies : b.recorder.Copies second done)
    (hsink : a.sink = b.sink) (hadmits : (Books.ofInstructions done).Admits other i)
    (hacopy : i.Copied first acopy) (hbcopy : i.Copied second bcopy)
    (hexit : ∀ exit, i = .beginExceptionBlock exit → exit.name = none) :
    (∃ e, a.perform acopy.call = (.error e, a) ∧ b.perform bcopy.call = (.error e, b)) ∨
    ∃ a' b', a.perform acopy.call = (.ok acopy.reply, a') ∧
      b.perform bcopy.call = (.ok bcopy.reply, b') ∧ a'.Builds ∧ b'.Builds ∧
      a'.recorder.Copies first (done ++ [i]) ∧ b'.recorder.Copies second (done ++ [i]) ∧
      a'.sink = b'.sink := by
  have hsame : a.sink.perform i.inBody = b.sink.perform i.inBody := by rw [hsink]
  rcases ha.perform_copy hacopies hadmits hacopy hexit with
    ⟨e, hanswer, haresult⟩ | ⟨made, a', hanswer, haresult, ha', hacopies'⟩
  · rcases hb.perform_copy hbcopies hadmits hbcopy hexit with
      ⟨e', hanswer', hbresult⟩ | ⟨made', b', hanswer', _⟩
    · rw [hanswer, hanswer'] at hsame
      cases (Prod.mk.inj hsame).1
      exact .inl ⟨e, haresult, hbresult⟩
    · rw [hanswer, hanswer'] at hsame
      cases (Prod.mk.inj hsame).1
  · rcases hb.perform_copy hbcopies hadmits hbcopy hexit with
      ⟨e', hanswer', _⟩ | ⟨made', b', hanswer', hbresult, hb', hbcopies'⟩
    · rw [hanswer, hanswer'] at hsame
      cases (Prod.mk.inj hsame).1
    · rw [hanswer, hanswer'] at hsame
      exact .inr ⟨a', b', haresult, hbresult, ha', hb', hacopies', hbcopies', (Prod.mk.inj hsame).2⟩

/-- How two attempts to copy lines compare: both are refused at the same line with the same error, or
both copy all lines and leave the same builder. -/
inductive Agree (first second : AssemblerId) (is : List Instruction) :
    Except Error Unit × Assembler BodyBuilder BodyLabel BodyLocal →
      Except Error Unit × Assembler BodyBuilder BodyLabel BodyLocal → Prop where
  | refused {e : Error} {a b : Assembler BodyBuilder BodyLabel BodyLocal} (n : Nat)
      (hn : n < is.length) (ha : a.recorder.stream.length = n)
      (hb : b.recorder.stream.length = n) : Agree first second is (.error e, a) (.error e, b)
  | copied {a b : Assembler BodyBuilder BodyLabel BodyLocal} (hsink : a.sink = b.sink)
      (ha : a.recorder.Copies first is) (hb : b.recorder.Copies second is) :
      Agree first second is (.ok (), a) (.ok (), b)

theorem agree_replay_reissue {rest : List Instruction} {m : Renaming} {n : Counterparts}
    (hrecorded : Recorded other (done ++ rest))
    (hexits : ∀ exit, .beginExceptionBlock exit ∈ rest → exit.name = none)
    (ha : a.Builds) (hb : b.Builds) (hacopies : a.recorder.Copies first done)
    (hbcopies : b.recorder.Copies second done) (hsink : a.sink = b.sink) (hm : m.Adopts first done)
    (hn : n.Matches second done) :
    Agree first second (done ++ rest) (replay m rest a)
      (reissue n (rest.map Instruction.granted) b) := by
  -- The lines move from `rest` to `done` one by one; the two builders are the same all along.
  induction rest generalizing done a b m n with
  | nil =>
      rw [List.append_nil, List.map_nil, replay, reissue]
      exact .copied hsink hacopies hbcopies
  | cons i rest ih =>
      rw [List.append_cons] at hrecorded ⊢
      have hline : Recorded other (done ++ [i]) := by
        have hcut := hrecorded.take (done ++ [i]).length
        rwa [List.take_left] at hcut
      obtain ⟨_, hadmits⟩ := Recorded.append_singleton_iff.mp hline
      obtain ⟨acopy, hacopy, hacall⟩ := hm.exists_copy hadmits
      obtain ⟨bcopy, hbcopy, hbcall⟩ := hn.exists_copy hadmits
      rw [List.map_cons]
      rcases ha.perform_copies hb hacopies hbcopies hsink hadmits hacopy hbcopy
          (by rintro exit rfl; exact hexits exit List.mem_cons_self) with
        ⟨e, haresult, hbresult⟩ | ⟨a', b', haresult, hbresult, ha', hb', hacopies', hbcopies', hsink'⟩
      · rw [replay_cons_of_error hacall haresult, reissue_cons_of_error hbcall hbresult]
        refine .refused done.length ?_ hacopies.length_eq hbcopies.length_eq
        rw [List.length_append, List.length_append, List.length_singleton]
        omega
      · rw [replay_cons_of_ok hacall haresult, reissue_cons_of_ok hbcall hbresult]
        have hlabels : a'.recorder.labels.size ≤ 2 ^ 32 := by
          rw [← ha'.size_labels]
          exact ha'.drafts.labels.room
        have hlocals : a'.recorder.locals.size ≤ 2 ^ 32 := by
          rw [← ha'.size_locals]
          exact Nat.le_trans ha'.drafts.locals.room (by decide)
        exact ih hrecorded (fun exit hexit => hexits exit (List.mem_cons_of_mem _ hexit)) ha' hb'
          hacopies' hbcopies' hsink' (hm.learn_copy hline hacopy hacopies' hlabels hlocals)
          (hn.pair hbcopy)

end Agreement

/-! ## The end of both ways -/

theorem Operand.targets_inBody (x : Operand Label Local) :
    x.inBody.targets = x.targets.map Label.inBody := by
  cases x <;> rfl

/-- An operation whose call is among those of some lines is a copy of one of them. -/
theorem Instruction.exists_op_of_inBody {is : List Instruction} {o : Op}
    (h : (Instruction.op o).inBody ∈ is.map Instruction.inBody) :
    ∃ source, .op source ∈ is ∧ source.operand.inBody = o.operand.inBody := by
  obtain ⟨i, hi, hsame⟩ := List.mem_map.mp h
  cases i with
  | op source =>
      refine ⟨source, hi, ?_⟩
      injection hsame
  | _ => cases hsame

/-- A recorder that copied a finished stream can be finished. -/
theorem Recorder.Copies.finish_eq {r source : Recorder} {id : AssemblerId} {s : Stream}
    (h : r.Copies id source.stream.instructions) (hsource : source.Kept)
    (hfinish : source.finish = .ok s) : r.finish = .ok r.stream := by
  obtain ⟨hempty, htargets, _⟩ := finish_eq_ok.mp hfinish
  have hbooks := h.books
  rw [← hsource.books] at hbooks
  refine finish_eq_ok.mpr ⟨?_, ?_, rfl⟩
  · have hregions : r.regions = source.regions.relabel (.adopting id) := hbooks.regions
    have hframes : source.regions.frames = [] := List.isEmpty_iff.mp hempty
    rw [hregions, RegionStack.isEmpty, RegionStack.relabel, hframes]
    rfl
  · rw [unmarkedTarget?_eq_none_iff] at htargets ⊢
    rintro ⟨offset, o⟩ hentry target htarget
    -- The line was copied from one whose targets have the same indices.
    have hline := List.mem_map_of_mem (f := Instruction.inBody)
      (Stream.exists_mem_ops_iff.mp ⟨offset, hentry⟩)
    rw [h.lines] at hline
    obtain ⟨p, hp, hsame⟩ := Instruction.exists_op_of_inBody hline
    have hindex := congrArg Operand.targets hsame
    rw [Operand.targets_inBody, Operand.targets_inBody] at hindex
    have hmem := List.mem_map_of_mem (f := Label.inBody) htarget
    rw [← hindex] at hmem
    obtain ⟨label, hlabel, heq⟩ := List.mem_map.mp hmem
    obtain ⟨offset', hentry'⟩ := Stream.exists_mem_ops_iff.mpr hp
    obtain ⟨slot, hslot, hmark⟩ := htargets _ hentry' label hlabel
    have hlabels : r.labels = source.labels.map (·.relabel (.adopting id)) := hbooks.labels
    have hplace : label.index = target.index := congrArg BodyLabel.index heq
    rw [hplace] at hslot
    exact ⟨slot.relabel _, by rw [hlabels, Array.getElem?_map, hslot]; rfl, hmark⟩

namespace Workshop

/-- A session with any checkpoints, rewinds and refused calls ends with the stream `s`. Then replaying
`s` into a new assembler and making the surviving calls of the session directly on another one take
the same course: both are refused at the same call with the same error, or both go through, and both
assemblers can be finished and hand over the same builder, and with it the same body or the same
reason why there is none. -/
theorem replay_agrees_with_direct_emission (requests : List Request) (id first second : AssemblerId)
    (s : Stream) (hcheckpoints : requests.countP (·.takesCheckpoint id) < 2 ^ 32)
    (hfinish : ((run requests).recorder id).finish = .ok s) :
    let start (id : AssemblerId) : Assembler BodyBuilder BodyLabel BodyLocal := .new id .empty
    let replayed := s.replayInto (start first)
    let emitted := reissue .empty (survivors id requests) (start second)
    (∃ n e, n < s.length ∧ n < (survivors id requests).length ∧
      replayed.1 = .error e ∧ emitted.1 = .error e ∧
      replayed.2.recorder.stream.length = n ∧ emitted.2.recorder.stream.length = n) ∨
    (replayed.1 = .ok () ∧ emitted.1 = .ok () ∧ ∃ copy copy' sink,
      replayed.2.finish = .ok (copy, sink) ∧ emitted.2.finish = .ok (copy', sink)) := by
  intro start replayed emitted
  have hkept := (keeps_run requests id hcheckpoints).sound.toKept
  obtain ⟨_, _, rfl⟩ := Recorder.finish_eq_ok.mp hfinish
  have hsurvivors := survivors_eq id requests
  have hagree : Agree first second ((run requests).recorder id).stream.instructions
      replayed emitted := by
    have hcourse : Agree first second ([] ++ ((run requests).recorder id).stream.instructions) _ _ :=
      agree_replay_reissue hkept.recorded (fun exit => exits_unnamed hcheckpoints)
        (Assembler.builds_new first) (Assembler.builds_new second) (Recorder.copies_new first)
        (Recorder.copies_new second) rfl (Renaming.adopts_empty first)
        (Counterparts.matches_empty second)
    rw [← hsurvivors] at hcourse
    exact hcourse
  clear_value replayed emitted
  cases hagree with
  | @refused e a b n hn ha hb =>
      left
      refine ⟨n, e, ?_, ?_, rfl, rfl, ha, hb⟩
      · rwa [Stream.length_instructions] at hn
      · rwa [hsurvivors, List.length_map]
  | @copied a b hsink ha hb =>
      right
      refine ⟨rfl, rfl, a.recorder.stream, b.recorder.stream, a.sink, ?_, ?_⟩
      · exact Except.map_eq_ok.mpr ⟨_, ha.finish_eq hkept hfinish, rfl⟩
      · exact Except.map_eq_ok.mpr ⟨_, hb.finish_eq hkept hfinish, by rw [hsink]⟩

/-- The first region and the jump in it are taken back, the mark of the lost label is refused, and the
second region stays. Eight lines are left. -/
theorem replay_agrees_with_direct_emission_rewound :
    let requests : List Request :=
      [.perform ⟨1⟩ (.defineLabel none), .checkpoint ⟨1⟩, .perform ⟨1⟩ .beginExceptionBlock,
        .perform ⟨1⟩ (.emit .leave (.label ⟨⟨1⟩, 0, 1, none⟩)), .rewind ⟨1⟩ 0,
        .perform ⟨1⟩ (.markLabel ⟨⟨1⟩, 0, 1, none⟩), .perform ⟨1⟩ .beginExceptionBlock,
        .perform ⟨1⟩ (.emit .br (.label ⟨⟨1⟩, 0, 0, none⟩)),
        .perform ⟨1⟩ (.markLabel ⟨⟨1⟩, 0, 0, none⟩), .perform ⟨1⟩ .beginFinallyBlock,
        .perform ⟨1⟩ (.emit .endfinally .none), .perform ⟨1⟩ .endExceptionBlock,
        .perform ⟨1⟩ (.emit .ret .none)]
    let start (id : AssemblerId) : Assembler BodyBuilder BodyLabel BodyLocal := .new id .empty
    ∃ s copy copy' sink, ((run requests).recorder ⟨1⟩).finish = .ok s ∧
      (survivors ⟨1⟩ requests).length = 8 ∧
      (s.replayInto (start ⟨2⟩)).2.finish = .ok (copy, sink) ∧
      (reissue .empty (survivors ⟨1⟩ requests) (start ⟨3⟩)).2.finish = .ok (copy', sink) := by
  intro requests start
  have htargets : ((run requests).recorder ⟨1⟩).unmarkedTarget?.isNone = true := by decide +kernel
  have hfinish := Recorder.finish_eq_ok.mpr
    ⟨by decide +kernel, Option.isNone_iff_eq_none.mp htargets, rfl⟩
  have hlength : (survivors ⟨1⟩ requests).length = 8 := by decide +kernel
  have haccepted : (reissue .empty (survivors ⟨1⟩ requests) (start ⟨3⟩)).1.isOk = true := by
    decide +kernel
  rcases replay_agrees_with_direct_emission requests ⟨1⟩ ⟨2⟩ ⟨3⟩ _ (by decide) hfinish with
    ⟨_, _, _, _, _, hrefused, _⟩ | ⟨_, _, copy, copy', sink, hreplayed, hemitted⟩
  · rw [hrefused] at haccepted
    cases haccepted
  · exact ⟨_, copy, copy', sink, hfinish, hlength, hreplayed, hemitted⟩

/-- A local that a rewind has taken away, and lines that load it. -/
def lostLocal : Local := ⟨⟨1⟩, 1, 0, ⟨⟨0x01000001⟩, "Int32"⟩, false, none⟩

@[inherit_doc lostLocal]
def lostLocalLoad : List Instruction :=
  [.op .nop, .op .nop, .op ⟨.ldloc, .localVar lostLocal, 4, rfl, rfl⟩]

/-- Once the serial numbers are used up a session can be finished with these lines. Both ways fail
at the load, but not with the same error. -/
theorem replay_fails_otherwise :
    let declare : Call := .declareLocal lostLocal.type false none
    let nop : Call := .emit .nop .none
    let requests := relapse ⟨1⟩ [declare] [nop, declare] [nop, .emit .ldloc (.localVar lostLocal)]
    let s := Stream.ofInstructions lostLocalLoad
    let start (id : AssemblerId) : Assembler BodyBuilder BodyLabel BodyLocal := .new id .empty
    requests.countP (·.takesCheckpoint ⟨1⟩) = 2 ^ 32 ∧
      ((run requests).recorder ⟨1⟩).finish = .ok s ∧
      (survivors ⟨1⟩ requests).map Granted.call = s.instructions.map Instruction.call ∧
      (s.replayInto (start ⟨2⟩)).1 = .error (.malformed (.localUsedBeforeDeclaration lostLocal)) ∧
      (reissue .empty (survivors ⟨1⟩ requests) (start ⟨3⟩)).1 =
        .error (.invalidLocal lostLocal .foreign) := by
  have hfinish : (Recorder.relapsed ⟨1⟩ [.declareLocal lostLocal.type false none]
      [.emit .nop .none, .declareLocal lostLocal.type false none]
      [.emit .nop .none, .emit .ldloc (.localVar lostLocal)]).finish =
        .ok (.ofInstructions lostLocalLoad) := by with_unfolding_all rfl
  have hstream := (Recorder.finish_eq_ok.mp hfinish).2.2
  dsimp only
  rw [survivors_eq, countP_relapse, recorder_run_relapse, hfinish, ← hstream]
  refine ⟨rfl, rfl, ?_, ?_, ?_⟩
  · rw [List.map_map]
    rfl
  · with_unfolding_all rfl
  · with_unfolding_all rfl

end Workshop

end CilAssembler
