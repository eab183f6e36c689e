import CilAssembler.Proofs.Overrun
import CilAssembler.Proofs.References

/-! # The life of handles

A handle is valid on its own recorder from its allocation until a rewind to a checkpoint taken
before, and never again after that, even if its index is given to another handle. No other recorder
accepts it at any time. -/

namespace CilAssembler

/-- Whether the request allocates a handle on the recorder with identity `id`. -/
def Request.allocatesOn (id : AssemblerId) : Request → Bool
  | .perform other (.defineLabel _) => other = id
  | .perform other (.declareLocal _ _ _) => other = id
  | .perform other .beginExceptionBlock => other = id
  | _ => false

/-- The lines allocate the handle. -/
def Allocated (is : List Instruction) (handle : Handle) : Prop :=
  handle ∈ is.filterMap Instruction.handle?

theorem allocated_append_singleton {is : List Instruction} {i : Instruction} {handle : Handle} :
    Allocated (is ++ [i]) handle ↔ Allocated is handle ∨ i.handle? = some handle := by
  simp [Allocated, List.filterMap_append, filterMap_singleton]

namespace Handle

/-- The handles are of one kind and have the same stamp. -/
def Twins : Handle → Handle → Prop
  | .label a, .label b => a.stamp = b.stamp
  | .localVar a, .localVar b => a.stamp = b.stamp
  | _, _ => False

theorem Twins.refl (handle : Handle) : handle.Twins handle := by
  cases handle <;> rfl

theorem twins_of_beq {a b : Handle} (h : (a == b) = true) : a.Twins b := by
  cases a with
  | label a =>
      cases b with
      | label b => exact Label.stamp_eq_of_beq h
      | localVar b => cases h
  | localVar a =>
      cases b with
      | label b => cases h
      | localVar b => exact Local.stamp_eq_of_beq h

theorem Twins.owner_eq {a b : Handle} (h : a.Twins b) : a.owner = b.owner := by
  cases a with
  | label a =>
      cases b with
      | label b => exact congrArg Stamp.owner h
      | localVar b => cases h
  | localVar a =>
      cases b with
      | label b => cases h
      | localVar b => exact congrArg Stamp.owner h

end Handle

/-! ## Allocations -/

namespace Recorder

/-- An accepted call gives back the handle that its instruction allocates. -/
theorem handle?_of_prepare {r : Recorder} {call : Call} {reply : call.Reply} {i : Instruction}
    (h : r.prepare call = .ok (reply, i)) : call.handle? reply = i.handle? := by
  cases call with
  | defineLabel | declareLocal | beginExceptionBlock | beginScope =>
      cases h
      rfl
  | _ =>
      obtain ⟨_, _, heq⟩ := Except.map_eq_ok.mp h
      cases heq
      rfl

theorem owner_of_prepare {r : Recorder} {call : Call} {reply : call.Reply} {i : Instruction}
    {handle : Handle} (h : r.prepare call = .ok (reply, i)) (hmade : i.handle? = some handle) :
    handle.owner = r.id := by
  cases call with
  | defineLabel | declareLocal | beginExceptionBlock =>
      cases h
      cases hmade
      rfl
  | beginScope =>
      cases h
      cases hmade
  | _ =>
      obtain ⟨_, _, heq⟩ := Except.map_eq_ok.mp h
      cases heq
      cases hmade

end Recorder

namespace Workshop

/-- The handle that a request gives back, if it gives one. -/
def given? (w : Workshop) : Request → Option Handle
  | .perform id call =>
      match ((w.recorder id).perform call).1 with
      | .ok reply => call.handle? reply
      | .error _ => none
  | _ => none

/-- One of the requests gave the handle back. -/
def Given (requests : List Request) (handle : Handle) : Prop :=
  ∃ before request later, requests = before ++ request :: later ∧
    (run before).given? request = some handle

/-- The recorder does not run out of numbers for its checkpoints, revisions and handles. -/
structure InLimits (id : AssemblerId) (requests : List Request) : Prop where
  checkpoints : requests.countP (·.takesCheckpoint id) < 2 ^ 32
  rewinds : (rewindsTo id opened requests).length < 2 ^ 32
  allocations : requests.countP (·.allocatesOn id) < 2 ^ 32

/-- A handle is given by a call whose instruction allocates it. -/
theorem exists_of_given? {w : Workshop} {request : Request} {handle : Handle}
    (h : w.given? request = some handle) :
    ∃ (id : AssemblerId) (call : Call) (reply : call.Reply) (i : Instruction),
      request = .perform id call ∧ (w.recorder id).prepare call = .ok (reply, i) ∧
      i.handle? = some handle := by
  cases request with
  | perform id call =>
      rcases Recorder.perform_cases call (w.recorder id) with
        ⟨e, _, hrefused⟩ | ⟨reply, i, hprepare, haccepted, _⟩
      · simp [given?, hrefused] at h
      · simp only [given?, haccepted] at h
        rw [Recorder.handle?_of_prepare hprepare] at h
        exact ⟨id, call, reply, i, rfl, hprepare, h⟩
  | checkpoint | rewind => cases h

section Limits

variable {id : AssemblerId} {requests before : List Request}

theorem InLimits.of_isPrefix (h : InLimits id requests) (hpre : before <+: requests) :
    InLimits id before where
  checkpoints := Nat.lt_of_le_of_lt hpre.countP_le h.checkpoints
  rewinds := Nat.lt_of_le_of_lt (length_rewindsTo_le hpre) h.rewinds
  allocations := Nat.lt_of_le_of_lt hpre.countP_le h.allocations

theorem length_rewindsTo_le_length (id : AssemblerId) (w : Workshop) (requests : List Request) :
    (rewindsTo id w requests).length ≤ requests.length := by
  induction requests generalizing w with
  | nil => exact Nat.le_refl _
  | cons request rest ih =>
      have hrest := ih (w.step request)
      have hfirst := Option.length_toList_le (o := rewoundTo? id w request)
      rw [rewindsTo, List.length_append, List.length_cons]
      omega

/-- Few requests stay within the limits. -/
theorem inLimits_of_length (h : requests.length < 2 ^ 32) (id : AssemblerId) :
    InLimits id requests where
  checkpoints := Nat.lt_of_le_of_lt List.countP_le_length h
  rewinds := Nat.lt_of_le_of_lt (length_rewindsTo_le_length id opened requests) h
  allocations := Nat.lt_of_le_of_lt List.countP_le_length h

theorem InLimits.runs (h : InLimits id requests) : (session id).Runs requests :=
  runs_session h.checkpoints h.rewinds

theorem InLimits.kept (h : InLimits id requests) : ((run requests).recorder id).Kept :=
  h.runs.kept requests List.prefix_rfl

/-- A call that allocates a handle is counted as such. -/
theorem allocatesOn_of_prepare {r : Recorder} {call : Call} {reply : call.Reply} {i : Instruction}
    (h : r.prepare call = .ok (reply, i)) (hmade : i.handle?.isSome = true) (id : AssemblerId) :
    Request.allocatesOn id (.perform id call) = true := by
  rw [← Recorder.handle?_of_prepare h] at hmade
  cases call with
  | defineLabel | declareLocal | beginExceptionBlock => exact decide_eq_true rfl
  | _ => cases hmade

/-- The lines of a recorder hold no more handles than were ever allocated. -/
theorem length_handles_le (h : InLimits id requests) :
    ((session id).handles Instruction.handle? requests).length ≤
      requests.countP (·.allocatesOn id) := by
  induction requests using List.reverseRecOn with
  | nil => exact Nat.le_refl _
  | append_singleton requests request ih =>
      have hbefore := h.of_isPrefix (List.prefix_append _ _)
      have hle := ih hbefore
      rw [List.countP_append, List.countP_singleton]
      simp only [Session.handles, session, run_append_singleton] at hle ⊢
      rcases (keeps_run requests id hbefore.checkpoints).step_cases request with
        ⟨_, hbooks, _⟩ | ⟨call, reply, i, rfl, hprepare, hrecorder⟩ | ⟨_, c, _, hrecorder, hlines⟩
      · have hsame : ((run requests).step request |>.recorder id).stream =
            ((run requests).recorder id).stream := congrArg Books.stream hbooks
        rw [hsame]
        omega
      · rw [hrecorder, Recorder.instructions_record, List.filterMap_append, filterMap_singleton,
          List.length_append]
        cases hmade : i.handle? with
        | none =>
            rw [Option.toList_none, List.length_nil]
            omega
        | some handle =>
            rw [allocatesOn_of_prepare hprepare (by rw [hmade]; rfl) id, Option.toList_some,
              List.length_singleton, if_pos rfl]
            omega
      · have hsublist := (List.take_sublist c.lines
          ((run requests).recorder id).stream.instructions).filterMap Instruction.handle?
        rw [hrecorder, hlines]
        have hcut := hsublist.length_le
        omega

/-- There is an index for every handle of a kind. -/
theorem InLimits.room {H : Type} {made? : Instruction → Option H} (h : InLimits id requests)
    (hmade : ∀ i, (made? i).isSome = true → i.handle?.isSome = true) :
    ((session id).handles made? requests).length < 2 ^ 32 := by
  have hle := length_handles_le h
  have hallocations := h.allocations
  have hkind : ((session id).handles made? requests).length ≤
      ((session id).handles Instruction.handle? requests).length := by
    simp only [Session.handles, List.length_filterMap_eq_countP]
    exact List.countP_mono_left fun i _ => hmade i
  omega

theorem isSome_handle?_of_definedLabel? (i : Instruction) (h : i.definedLabel?.isSome = true) :
    i.handle?.isSome = true := by
  cases i <;> first | rfl | cases h

theorem isSome_handle?_of_declaredLocal? (i : Instruction) (h : i.declaredLocal?.isSome = true) :
    i.handle?.isSome = true := by
  cases i <;> first | rfl | cases h

theorem InLimits.distinct_labels (h : InLimits id requests) :
    (session id).Distinct Instruction.definedLabel? Label.stamp requests := by
  apply h.runs.distinct numbered_labels
  intro before hpre
  exact Nat.le_of_lt ((h.of_isPrefix hpre).room isSome_handle?_of_definedLabel?)

theorem InLimits.distinct_locals (h : InLimits id requests) :
    (session id).Distinct Instruction.declaredLocal? Local.stamp requests := by
  apply h.runs.distinct numbered_locals
  intro before hpre
  exact Nat.le_of_lt ((h.of_isPrefix hpre).room isSome_handle?_of_declaredLocal?)

end Limits

/-! ## Issued handles -/

section Issued

variable {id : AssemblerId} {requests before : List Request} {handle new : Handle}

theorem issued_label_iff {label : Label} :
    (session id).Issued Instruction.handle? requests (.label label) ↔
      (session id).Issued Instruction.definedLabel? requests label :=
  exists_congr fun _ => and_congr_right fun _ => label_mem_handles

theorem issued_localVar_iff {v : Local} :
    (session id).Issued Instruction.handle? requests (.localVar v) ↔
      (session id).Issued Instruction.declaredLocal? requests v :=
  exists_congr fun _ => and_congr_right fun _ => localVar_mem_handles

/-- A handle that is given was not issued before, nor was one with its stamp. -/
theorem InLimits.not_twins (h : InLimits id requests) {call : Call} {reply : call.Reply}
    {i : Instruction} (hprepare : ((run requests).recorder id).prepare call = .ok (reply, i))
    (hnew : i.handle? = some new)
    (hissued : (session id).Issued Instruction.handle? requests handle) : ¬handle.Twins new := by
  have hlabels := h.room isSome_handle?_of_definedLabel?
  have hlocals := h.room isSome_handle?_of_declaredLocal?
  cases handle with
  | label a =>
      cases new with
      | label b =>
          have hdef : i.definedLabel? = some b := by
            cases i <;> cases hnew <;> rfl
          exact h.distinct_labels.fresh numbered_labels h.kept hprepare hdef hlabels
            (issued_label_iff.mp hissued)
      | localVar b => exact not_false
  | localVar a =>
      cases new with
      | label b => exact not_false
      | localVar b =>
          have hdef : i.declaredLocal? = some b := by
            cases i <;> cases hnew
            rfl
          exact h.distinct_locals.fresh numbered_locals h.kept hprepare hdef hlocals
            (issued_localVar_iff.mp hissued)

theorem owner_of_given? {call : Call} (h : (run before).given? (.perform id call) = some handle) :
    handle.owner = id := by
  obtain ⟨_, _, reply, i, heq, hprepare, hmade⟩ := exists_of_given? h
  cases heq
  rw [Recorder.owner_of_prepare hprepare hmade]
  exact identified_run before id

/-- An accepted call records its instruction. -/
theorem recorder_of_prepare {call : Call} {reply : call.Reply} {i : Instruction}
    (hprepare : ((run before).recorder id).prepare call = .ok (reply, i)) :
    (run (before ++ [.perform id call])).recorder id = ((run before).recorder id).record i := by
  rw [run_append_singleton, step, recorder_update_self]
  simp [Recorder.perform, hprepare]

/-- A handle that was given is issued by its owner. -/
theorem issued_of_given? {request : Request} (h : (run before).given? request = some handle)
    (hpre : before ++ [request] <+: requests) :
    (session handle.owner).Issued Instruction.handle? requests handle := by
  obtain ⟨id, call, reply, i, rfl, hprepare, hmade⟩ := exists_of_given? h
  rw [owner_of_given? h]
  refine ⟨_, hpre, ?_⟩
  simp only [Session.handles, session, recorder_of_prepare hprepare, Recorder.instructions_record]
  exact allocated_append_singleton.mpr (.inr hmade)

theorem Given.issued (h : Given requests handle) :
    (session handle.owner).Issued Instruction.handle? requests handle := by
  obtain ⟨before, request, later, rfl, hgiven⟩ := h
  exact issued_of_given? hgiven ⟨later, by simp⟩

/-- Two allocations, on whichever recorders, never give back equal handles. -/
theorem beq_of_given_later {request other : Request}
    (hgiven : (run before).given? request = some handle) (hpre : before ++ [request] <+: requests)
    (hlimits : ∀ id, InLimits id requests) (hnew : (run requests).given? other = some new) :
    (handle == new) = false := by
  rw [Bool.eq_false_iff]
  intro hequal
  have htwins := Handle.twins_of_beq hequal
  obtain ⟨id, _, reply, i, rfl, hprepare, hmade⟩ := exists_of_given? hnew
  have hissued := issued_of_given? hgiven hpre
  rw [htwins.owner_eq, owner_of_given? hnew] at hissued
  exact (hlimits id).not_twins hprepare hmade hissued htwins

end Issued

/-! ## The course of one handle -/

/-- What is known in workshop `w` of a handle that was given when `count` checkpoints had been taken
and whose recorder has been rewound to the checkpoints `rewinds` since. The lines allocate it unless
one of these was taken before the handle was given. Of the lines that a live checkpoint keeps, the
same holds if the checkpoint was taken after the handle was given. -/
structure Remembers (w : Workshop) (owner : AssemblerId) (handle : Handle) (count : Nat)
    (rewinds : List Nat) : Prop where
  count_le : count ≤ w.checkpoints.length
  allocated : Allocated (w.recorder owner).stream.instructions handle ↔
    ∀ number ∈ rewinds, count ≤ number
  kept : ∀ number c, w.checkpoints[number]? = some c → c.owner = owner →
    (w.recorder owner).Live c →
    (Allocated ((w.recorder owner).stream.instructions.take c.lines) handle ↔
      count ≤ number ∧ ∀ other ∈ rewinds, count ≤ other)

/-- A checkpoint is one that was there before the request, or the one that the request took. -/
theorem checkpoints_step_cases {w : Workshop} {request : Request} {number : Nat} {c : Checkpoint}
    (h : (w.step request).checkpoints[number]? = some c) :
    w.checkpoints[number]? = some c ∨ ∃ id, request = .checkpoint id ∧
      number = w.checkpoints.length ∧ c = (w.recorder id).checkpoint.1 := by
  cases request with
  | perform id call => exact .inl h
  | rewind id other =>
      cases hother : w.checkpoints[other]? with
      | none =>
          rw [step_rewind_of_none hother] at h
          exact .inl h
      | some d =>
          rw [step_rewind_of_some hother] at h
          exact .inl h
  | checkpoint id =>
      have happend : (w.checkpoints ++ [(w.recorder id).checkpoint.1])[number]? = some c := h
      rw [List.getElem?_append] at happend
      split at happend
      · exact .inl happend
      · rename_i hle
        rw [List.getElem?_singleton] at happend
        split at happend
        · cases happend
          exact .inr ⟨id, rfl, by omega, rfl⟩
        · cases happend

theorem length_checkpoints_step (w : Workshop) (request : Request) :
    w.checkpoints.length ≤ (w.step request).checkpoints.length := by
  cases request with
  | perform id call => exact Nat.le_refl _
  | checkpoint id => simp [step]
  | rewind id number =>
      cases hc : w.checkpoints[number]? with
      | none => rw [step_rewind_of_none hc]
      | some c => rw [step_rewind_of_some hc, checkpoints_update]

section Step

variable {w : Workshop} {owner : AssemblerId} {handle : Handle} {count taken : Nat}
  {rewinds : List Nat} {request : Request}

/-- A request that neither records nor rewinds leaves the lines and the live checkpoints. -/
theorem Remembers.step_of_rest (h : w.Remembers owner handle count rewinds)
    (hkeeps : w.Keeps owner taken) (hnone : rewoundTo? owner w request = none)
    (hstream : ((w.step request).recorder owner).stream = (w.recorder owner).stream)
    (hlive : ∀ c, ((w.step request).recorder owner).Live c → (w.recorder owner).Live c) :
    (w.step request).Remembers owner handle count
      (rewinds ++ (rewoundTo? owner w request).toList) := by
  rw [hnone, Option.toList_none, List.append_nil]
  refine ⟨Nat.le_trans h.count_le (length_checkpoints_step w request), ?_, ?_⟩
  · rw [hstream]
    exact h.allocated
  · intro number c hc howner hafter
    rw [hstream]
    rcases checkpoints_step_cases hc with hold | ⟨id, rfl, rfl, rfl⟩
    · exact h.kept number c hold howner (hlive c hafter)
    · -- The new checkpoint keeps all lines.
      obtain rfl : id = owner := (hkeeps.identified id).symm.trans howner
      have hall : (w.recorder id).stream.instructions.take (w.recorder id).checkpoint.1.lines =
          (w.recorder id).stream.instructions :=
        List.take_of_length_le (Nat.le_of_eq (Stream.length_instructions _))
      rw [hall, h.allocated]
      exact (and_iff_right h.count_le).symm

/-- A line that does not allocate the handle changes nothing for it. -/
theorem Remembers.step_of_record (h : w.Remembers owner handle count rewinds)
    (hkeeps : w.Keeps owner taken) {call : Call} {i : Instruction}
    (hrecorder : (w.step (.perform owner call)).recorder owner = (w.recorder owner).record i)
    (hfresh : i.handle? ≠ some handle) :
    (w.step (.perform owner call)).Remembers owner handle count
      (rewinds ++ (rewoundTo? owner w (.perform owner call)).toList) := by
  have hnone : rewoundTo? owner w (.perform owner call) = none := rfl
  rw [hnone, Option.toList_none, List.append_nil]
  refine ⟨h.count_le, ?_, ?_⟩
  · rw [hrecorder, Recorder.instructions_record, allocated_append_singleton, h.allocated]
    exact or_iff_left hfresh
  · intro number c hc howner hlive
    rw [hrecorder] at hlive ⊢
    have hlines := (hkeeps.sound.describes c (mem_taken_of_getElem? hc howner) hlive).lines
    rw [Recorder.instructions_record, List.take_append_of_le_length hlines]
    exact h.kept number c hc howner hlive

/-- A rewind leaves the lines that its checkpoint keeps. -/
theorem Remembers.step_of_rewound (h : w.Remembers owner handle count rewinds)
    (hkeeps : w.Keeps owner taken) {number : Nat} (haccepted : w.accepts owner number = true) :
    (w.step (.rewind owner number)).Remembers owner handle count
      (rewinds ++ (rewoundTo? owner w (.rewind owner number)).toList) := by
  obtain ⟨c, hc⟩ := exists_checkpoint_of_accepts haccepted
  obtain ⟨howner, hlive⟩ := (accepts_iff hkeeps.identified hc).mp haccepted
  have hmem := mem_taken_of_getElem? hc howner
  have hrecorder := hkeeps.recorder_rewind hc howner hlive
  have hlines := (hkeeps.sound.restore hmem hlive).2
  have hrewound : rewoundTo? owner w (.rewind owner number) = some number := by
    simp [rewoundTo?, haccepted]
  have hsplit : (∀ other ∈ rewinds ++ [number], count ≤ other) ↔
      count ≤ number ∧ ∀ other ∈ rewinds, count ≤ other := by
    simp [or_imp, forall_and, and_comm]
  rw [hrewound, Option.toList_some]
  refine ⟨Nat.le_trans h.count_le (length_checkpoints_step w _), ?_, ?_⟩
  · rw [hrecorder, hlines, hsplit]
    exact h.kept number c hc howner hlive
  · intro m d hd hdowner hdlive
    rw [step_rewind_of_some hc, checkpoints_update] at hd
    have hdmem := mem_taken_of_getElem? hd hdowner
    rw [hrecorder] at hdlive ⊢
    obtain ⟨hdlive, hserial⟩ := (Recorder.live_restore_iff (hkeeps.sound.serial_lt c hmem)
      (hkeeps.sound.serial_lt d hdmem)).mp hdlive
    have hle : m ≤ number := (serial_le_iff hkeeps.sound.serials hd hc hdowner howner).mp hserial
    have hshorter := hkeeps.sound.lines_le d hdmem c hmem hdlive hlive hserial
    rw [hlines, List.take_take, Nat.min_eq_left hshorter, h.kept m d hd hdowner hdlive, hsplit]
    exact and_congr_right fun hm => (and_iff_right (Nat.le_trans hm hle)).symm

theorem Remembers.step (h : w.Remembers owner handle count rewinds) (hkeeps : w.Keeps owner taken)
    (hfresh : ∀ (call : Call) (reply : call.Reply) (i : Instruction),
      request = .perform owner call → (w.recorder owner).prepare call = .ok (reply, i) →
      i.handle? ≠ some handle) :
    (w.step request).Remembers owner handle count
      (rewinds ++ (rewoundTo? owner w request).toList) := by
  rcases step_cases hkeeps.identified owner request with
    ⟨call, rfl, hrecorder, _⟩ | ⟨rfl, hrecorder, _⟩ |
    ⟨number, _, rfl, _, _, _⟩ | ⟨_, hnone, hrecorder, _⟩
  · rcases Recorder.perform_cases call (w.recorder owner) with
      ⟨e, _, hrefused⟩ | ⟨reply, i, hprepare, haccepted, _⟩
    · rw [hrefused] at hrecorder
      exact h.step_of_rest hkeeps rfl (by rw [hrecorder]) (by rw [hrecorder]; exact fun _ => id)
    · rw [haccepted] at hrecorder
      exact h.step_of_record hkeeps hrecorder (hfresh call reply i rfl hprepare)
  · exact h.step_of_rest hkeeps rfl (by rw [hrecorder]; rfl) (by rw [hrecorder]; exact fun _ => id)
  · by_cases haccepted : w.accepts owner number = true
    · exact h.step_of_rewound hkeeps haccepted
    · have hsame := step_rewind_of_refused (Bool.eq_false_iff.mpr haccepted)
      apply h.step_of_rest hkeeps
      · simp [rewoundTo?, haccepted]
      · rw [hsame]
      · rw [hsame]
        exact fun _ => id
  · exact h.step_of_rest hkeeps hnone (by rw [hrecorder]) (by rw [hrecorder]; exact fun _ => id)

end Step

section Course

variable {owner : AssemblerId} {before : List Request} {call : Call} {handle : Handle}

theorem remembers_given (hlimits : InLimits owner before)
    (hgiven : (run before).given? (.perform owner call) = some handle) :
    (run (before ++ [.perform owner call])).Remembers owner handle
      (run before).checkpoints.length [] := by
  obtain ⟨_, _, reply, i, heq, hprepare, hmade⟩ := exists_of_given? hgiven
  cases heq
  have hrecorder := recorder_of_prepare hprepare
  have hcheckpoints : (run (before ++ [.perform owner call])).checkpoints =
      (run before).checkpoints := by
    rw [run_append_singleton]
    rfl
  have hnew : ¬Allocated ((run before).recorder owner).stream.instructions handle := by
    intro hallocated
    exact hlimits.not_twins hprepare hmade (.of_mem hallocated) (.refl handle)
  refine ⟨by rw [hcheckpoints], ?_, ?_⟩
  · rw [hrecorder, Recorder.instructions_record, allocated_append_singleton]
    exact iff_of_true (.inr hmade) (by simp)
  · intro number c hc howner hlive
    rw [hcheckpoints] at hc
    rw [hrecorder] at hlive ⊢
    have hsound := (keeps_run before owner hlimits.checkpoints).sound
    have hlines := (hsound.describes c (mem_taken_of_getElem? hc howner) hlive).lines
    have hearlier := (List.getElem?_eq_some_iff.mp hc).1
    rw [Recorder.instructions_record, List.take_append_of_le_length hlines]
    refine iff_of_false ?_ (by omega)
    intro hallocated
    exact hnew (((List.take_sublist _ _).filterMap _).subset hallocated)

/-- The course of a handle through any requests that follow its allocation. -/
theorem remembers_run {later : List Request}
    (hlimits : InLimits owner (before ++ [.perform owner call] ++ later))
    (hgiven : (run before).given? (.perform owner call) = some handle) :
    (run (before ++ [.perform owner call] ++ later)).Remembers owner handle
      (run before).checkpoints.length
      (rewindsTo owner (run (before ++ [.perform owner call])) later) := by
  induction later using List.reverseRecOn with
  | nil =>
      rw [List.append_nil] at hlimits ⊢
      exact remembers_given (hlimits.of_isPrefix (List.prefix_append _ _)) hgiven
  | append_singleton later request ih =>
      rw [← List.append_assoc] at hlimits ⊢
      have hbefore := hlimits.of_isPrefix (List.prefix_append _ _)
      rw [run_append_singleton, rewindsTo_append_singleton, ← run_append]
      apply (ih hbefore).step (keeps_run _ owner hbefore.checkpoints)
      intro other reply i _ hprepare hmade
      have hissued := issued_of_given? hgiven (List.prefix_append (before ++ [_]) later)
      rw [owner_of_given? hgiven] at hissued
      exact hbefore.not_twins hprepare hmade hissued (.refl handle)

end Course

/-! ## What the check of a handle says -/

section Check

variable {id : AssemblerId} {requests : List Request} {handle : Handle}

theorem InLimits.checkHandle_of_allocated (h : InLimits id requests)
    (hallocated : Allocated ((run requests).recorder id).stream.instructions handle) :
    ((run requests).recorder id).checkHandle handle = .ok () := by
  have hkept := h.kept
  have hrecorded := hkept.recorded
  rw [identified_run requests id] at hrecorded
  cases handle with
  | label label =>
      obtain ⟨n, hn⟩ := List.mem_iff_getElem?.mp (label_mem_handles.mp hallocated)
      have hlt := (List.getElem?_eq_some_iff.mp hn).1
      have hroom := h.room isSome_handle?_of_definedLabel?
      have hindex : label.index.toNat = n := by
        rw [hrecorded.index_of_definedLabel hn]
        exact toNat_toUInt32_of_lt (Nat.lt_trans hlt hroom)
      have hhas : (Books.ofInstructions ((run requests).recorder id).stream.instructions).HasLabel
          label := Books.hasLabel_iff.mpr ⟨label, by rw [hindex, hn], by simp [Label.beq_iff]⟩
      refine Recorder.checkLabel_eq_ok.mpr ⟨?_, by rw [hkept.books]; exact hhas⟩
      rw [hrecorded.owner_of_hasLabel hhas, identified_run requests id]
  | localVar v =>
      obtain ⟨n, hn⟩ := List.mem_iff_getElem?.mp (localVar_mem_handles.mp hallocated)
      have hlt := (List.getElem?_eq_some_iff.mp hn).1
      have hroom := h.room isSome_handle?_of_declaredLocal?
      have hindex : v.index.toNat = n := by
        rw [hrecorded.index_of_declaredLocal hn]
        exact toNat_toUInt32_of_lt (Nat.lt_trans hlt hroom)
      have hhas : (Books.ofInstructions ((run requests).recorder id).stream.instructions).HasLocal
          v := Books.hasLocal_iff.mpr ⟨v, by rw [hindex, hn], Local.beq_self v⟩
      refine Recorder.checkLocal_eq_ok.mpr ⟨?_, by rw [hkept.books]; exact hhas⟩
      rw [hrecorded.owner_of_hasLocal hhas, identified_run requests id]

/-- The handle in a slot is the only issued one with its stamp. -/
theorem InLimits.allocated_of_check (h : InLimits id requests)
    (hissued : (session id).Issued Instruction.handle? requests handle)
    (hcheck : ((run requests).recorder id).checkHandle handle = .ok ()) :
    Allocated ((run requests).recorder id).stream.instructions handle := by
  have hkept := h.kept
  cases handle with
  | label label =>
      have hhas := (Recorder.checkLabel_eq_ok.mp hcheck).2
      rw [hkept.books] at hhas
      obtain ⟨found, hfound, hsame⟩ := Books.hasLabel_iff.mp hhas
      exact label_mem_handles.mpr (h.distinct_labels.mem_of_issued (List.mem_of_getElem? hfound)
        (issued_label_iff.mp hissued) (Label.stamp_eq_of_beq hsame))
  | localVar v =>
      have hhas := (Recorder.checkLocal_eq_ok.mp hcheck).2
      rw [hkept.books] at hhas
      obtain ⟨found, hfound, hsame⟩ := Books.hasLocal_iff.mp hhas
      exact localVar_mem_handles.mpr (h.distinct_locals.mem_of_issued
        (List.mem_of_getElem? hfound) (issued_localVar_iff.mp hissued)
        (Local.stamp_eq_of_beq hsame))

/-- A handle that was discarded is refused as such: what now stands in its slot has another
stamp. -/
theorem InLimits.checkHandle_of_not_allocated (h : InLimits id requests)
    (howner : handle.owner = id)
    (hissued : (session id).Issued Instruction.handle? requests handle)
    (hnot : ¬Allocated ((run requests).recorder id).stream.instructions handle) :
    ((run requests).recorder id).checkHandle handle = .error (handle.error .invalidated) := by
  rcases Recorder.checkHandle_cases (howner.trans (identified_run requests id).symm) with
    hok | hinvalidated | ⟨v, slot, rfl, hslot, hsame⟩
  · exact absurd (h.allocated_of_check hissued hok) hnot
  · exact hinvalidated
  · have hbooks : ((run requests).recorder id).books.locals[v.index.toNat]? = some slot := hslot
    rw [h.kept.books, ← Array.getElem?_toList, Books.locals_ofInstructions] at hbooks
    exact absurd (localVar_mem_handles.mpr (h.distinct_locals.mem_of_issued
      (List.mem_of_getElem? hbooks) (issued_localVar_iff.mp hissued)
      (Local.stamp_eq_of_sameSlot hsame))) hnot

theorem InLimits.takes_iff (h : InLimits id requests)
    (hissued : (session id).Issued Instruction.handle? requests handle) :
    ((run requests).recorder id).Takes handle ↔
      Allocated ((run requests).recorder id).stream.instructions handle :=
  ⟨fun htakes => h.allocated_of_check hissued htakes.check,
    fun hallocated => Recorder.takes_of_check (h.checkHandle_of_allocated hallocated)⟩

theorem InLimits.refuses_iff (h : InLimits id requests) (howner : handle.owner = id)
    (hissued : (session id).Issued Instruction.handle? requests handle) :
    ((run requests).recorder id).Refuses handle .invalidated ↔
      ¬Allocated ((run requests).recorder id).stream.instructions handle := by
  constructor
  · intro hrefuses hallocated
    cases (h.checkHandle_of_allocated hallocated).symm.trans hrefuses.check
  · intro hnot
    exact Recorder.refuses_of_check (h.checkHandle_of_not_allocated howner hissued hnot)

/-- No handle that was given is found to contradict its slot. -/
theorem InLimits.checkHandle_ne_mismatched (h : InLimits id requests)
    (hgiven : handle.owner = id → Given requests handle) (blamed : Handle) :
    ((run requests).recorder id).checkHandle handle ≠ .error (blamed.error .mismatched) := by
  intro hcheck
  by_cases howner : handle.owner = id
  · have hissued := (hgiven howner).issued
    rw [howner] at hissued
    by_cases hallocated : Allocated ((run requests).recorder id).stream.instructions handle
    · cases (h.checkHandle_of_allocated hallocated).symm.trans hcheck
    · rw [h.checkHandle_of_not_allocated howner hissued hallocated] at hcheck
      cases handle <;> cases blamed <;> cases hcheck
  · rw [Recorder.checkHandle_of_foreign (by rwa [identified_run requests id])] at hcheck
    cases handle <;> cases blamed <;> cases hcheck

theorem InLimits.perform_ne_mismatched (h : InLimits id requests) {call : Call}
    (hgiven : ∀ other ∈ call.handles, other.owner = id → Given requests other)
    (blamed : Handle) :
    (((run requests).recorder id).perform call).1 ≠ .error (blamed.error .mismatched) := by
  intro hmismatched
  rcases Recorder.perform_cases call ((run requests).recorder id) with
    ⟨e, hprepare, hrefused⟩ | ⟨_, _, _, haccepted, _⟩
  · rw [hrefused] at hmismatched
    cases Recorder.reports_of_prepare hprepare with
    | @passed passed _ hpassed hcheck =>
        cases hmismatched
        exact h.checkHandle_ne_mismatched (hgiven passed hpassed) blamed hcheck
    | place label hfault =>
        cases blamed <;> cases hmismatched
        exact hfault rfl
    | _ => cases blamed <;> cases hmismatched
  · rw [haccepted] at hmismatched
    cases hmismatched

end Check

/-- Let the recorder `owner` give a handle back, and let other requests follow. Every other recorder
refuses the handle as foreign. Its own refuses it as discarded exactly if it has been rewound since
to a checkpoint taken before the handle was given, and takes it otherwise. No later allocation, on
whichever recorder, gives back an equal handle. A recorder that is passed no handles of its own but
those it gave never finds one to contradict its slot. -/
theorem handle_lives_until_discarded (before later : List Request) (owner : AssemblerId)
    (call : Call) (handle : Handle)
    (hgiven : (run before).given? (.perform owner call) = some handle)
    (hlimits : ∀ id, InLimits id (before ++ .perform owner call :: later)) :
    let requests := before ++ .perform owner call :: later
    let now := run requests
    let rewinds := rewindsTo owner (run (before ++ [.perform owner call])) later
    let count := (run before).checkpoints.length
    (∀ id, id ≠ owner → (now.recorder id).Refuses handle .foreign) ∧
    ((now.recorder owner).Refuses handle .invalidated ↔ ∃ number ∈ rewinds, number < count) ∧
    ((now.recorder owner).Takes handle ↔ ¬∃ number ∈ rewinds, number < count) ∧
    (∀ middle request rest other, later = middle ++ request :: rest →
      (run (before ++ .perform owner call :: middle)).given? request = some other →
      (handle == other) = false) ∧
    ∀ (id : AssemblerId) (call : Call) (blamed : Handle),
      (∀ other ∈ call.handles, other.owner = id → Given requests other) →
      ((now.recorder id).perform call).1 ≠ .error (blamed.error .mismatched) := by
  intro requests now rewinds count
  have howner := owner_of_given? hgiven
  have hsplit : requests = before ++ [.perform owner call] ++ later := by simp [requests]
  have hissued : (session handle.owner).Issued Instruction.handle? requests handle :=
    issued_of_given? hgiven ⟨later, hsplit.symm⟩
  rw [howner] at hissued
  have hremembers : now.Remembers owner handle count rewinds := by
    have hown := hlimits owner
    simp only [now, hsplit]
    exact remembers_run (by rwa [← hsplit]) hgiven
  have hdiscarded : (∃ number ∈ rewinds, number < count) ↔
      ¬Allocated (now.recorder owner).stream.instructions handle := by
    rw [hremembers.allocated]
    simp
  refine ⟨?_, ?_, ?_, ?_, ?_⟩
  · intro id hid
    apply Recorder.refuses_of_check
    apply Recorder.checkHandle_of_foreign
    rw [howner, identified_run requests id]
    exact hid.symm
  · rw [hdiscarded]
    exact (hlimits owner).refuses_iff howner hissued
  · rw [hdiscarded, not_not]
    exact (hlimits owner).takes_iff hissued
  · intro middle request rest other hlater hother
    refine beq_of_given_later hgiven ⟨middle, by simp⟩ ?_ hother
    intro id
    exact (hlimits id).of_isPrefix ⟨request :: rest, by simp [hlater]⟩
  · intro id other blamed hothers
    exact (hlimits id).perform_ne_mismatched hothers blamed

/-- A local outlives the first rewind and not the second, after which its index is given again. The
label that was defined before both checkpoints outlives both. -/
theorem handle_lives_until_discarded_reused :
    let type : Member := ⟨⟨0x01000001⟩, "Int32"⟩
    let declare : Call := .declareLocal type false none
    let label : Handle := .label ⟨⟨1⟩, 0, 0, none⟩
    let v : Handle := .localVar ⟨⟨1⟩, 0, 0, type, false, none⟩
    let before : List Request := [.perform ⟨1⟩ (.defineLabel none), .checkpoint ⟨1⟩]
    let middle : List Request := [.checkpoint ⟨1⟩, .perform ⟨1⟩ .beginScope, .rewind ⟨1⟩ 1]
    let rest : List Request := [.rewind ⟨1⟩ 0, .perform ⟨2⟩ declare, .perform ⟨1⟩ declare]
    let early := run (before ++ .perform ⟨1⟩ declare :: middle)
    let late := run (before ++ .perform ⟨1⟩ declare :: (middle ++ rest))
    (early.recorder ⟨1⟩).Takes v ∧ (late.recorder ⟨1⟩).Refuses v .invalidated ∧
      (late.recorder ⟨2⟩).Refuses v .foreign ∧ (late.recorder ⟨1⟩).locals.size = 1 ∧
      (late.recorder ⟨1⟩).Takes label := by
  intro type declare label v before middle rest early late
  have hearly := handle_lives_until_discarded before middle ⟨1⟩ declare v rfl
    (inLimits_of_length (by decide))
  have hlate := handle_lives_until_discarded before (middle ++ rest) ⟨1⟩ declare v rfl
    (inLimits_of_length (by decide))
  have hlabel := handle_lives_until_discarded []
    (.checkpoint ⟨1⟩ :: .perform ⟨1⟩ declare :: (middle ++ rest)) ⟨1⟩ (.defineLabel none) label rfl
    (inLimits_of_length (by decide))
  refine ⟨hearly.2.2.1.mpr (by decide +kernel), hlate.2.1.mpr (by decide +kernel),
    hlate.1 ⟨2⟩ (by decide), by decide +kernel, hlabel.2.2.1.mpr ?_⟩
  rintro ⟨number, _, hlt⟩
  exact absurd hlt (Nat.not_lt_zero number)

theorem rewindsTo_replicate_checkpoint (id owner : AssemblerId) (w : Workshop) (n : Nat) :
    rewindsTo id w (List.replicate n (.checkpoint owner)) = [] := by
  induction n generalizing w with
  | zero => rfl
  | succ n ih =>
      rw [List.replicate_succ, rewindsTo, ih]
      rfl

/-- Checkpoints taken at the start count neither as rewinds nor as allocations. -/
theorem counts_after_checkpoints (id owner : AssemblerId) (n : Nat) (rest : List Request) :
    (rewindsTo id opened (List.replicate n (.checkpoint owner) ++ rest)).length ≤ rest.length ∧
      (List.replicate n (Request.checkpoint owner) ++ rest).countP (·.allocatesOn id) ≤
        rest.length := by
  constructor
  · rw [rewindsTo_append, rewindsTo_replicate_checkpoint, List.nil_append]
    exact length_rewindsTo_le_length ..
  · have hnone : (Request.checkpoint owner).allocatesOn id = false := rfl
    rw [List.countP_append, List.countP_replicate, hnone, if_neg Bool.false_ne_true, Nat.zero_add]
    exact List.countP_le_length

/-- With rewinds and allocations to spare, but no serial numbers: the rewind to a checkpoint that
was taken before the label, and discarded since, leaves the label valid. -/
theorem handle_outlives_discarded_checkpoint :
    let define : Call := .defineLabel none
    let label : Handle := .label ⟨⟨1⟩, 1, 0, none⟩
    let before := overrun ⟨1⟩ [define]
    let later : List Request := [.rewind ⟨1⟩ (2 ^ 32 - 1)]
    let requests := before ++ .perform ⟨1⟩ define :: later
    (∀ id, (rewindsTo id opened requests).length < 2 ^ 32 ∧
      requests.countP (·.allocatesOn id) < 2 ^ 32) ∧
    (run before).given? (.perform ⟨1⟩ define) = some label ∧
    (∃ number ∈ rewindsTo ⟨1⟩ (run (before ++ [.perform ⟨1⟩ define])) later,
      number < (run before).checkpoints.length) ∧
    ((run requests).recorder ⟨1⟩).Takes label := by
  dsimp only
  obtain ⟨hrecorder, hlength, _⟩ := run_overrun ⟨1⟩ [.defineLabel none]
  refine ⟨fun id => ?_, ?_, ⟨2 ^ 32 - 1, ?_, ?_⟩, ?_⟩
  · rw [overrun, exhaustion, List.append_assoc, List.append_assoc, List.append_assoc]
    refine (counts_after_checkpoints id ⟨1⟩ (2 ^ 32 - 1) _).imp
      (fun hrewinds => Nat.lt_of_le_of_lt hrewinds ?_)
      (fun hallocations => Nat.lt_of_le_of_lt hallocations ?_)
    all_goals decide
  · rw [given?, hrecorder]
    with_unfolding_all rfl
  · have haccepted := accepts_overrun_append ⟨1⟩ [.defineLabel none] [.defineLabel none]
    rw [List.map_cons, List.map_nil] at haccepted
    rw [rewindsTo, rewoundTo?, if_pos ⟨rfl, haccepted⟩]
    exact List.mem_append_left _ (List.mem_singleton.mpr rfl)
  · rw [hlength]
    decide
  · have htaken : (Recorder.relapsed ⟨1⟩ [.defineLabel none] [.defineLabel none] []).checkHandle
        (.label ⟨⟨1⟩, 1, 0, none⟩) = .ok () := by with_unfolding_all rfl
    have hrun := recorder_run_relapse ⟨1⟩ [.defineLabel none] [.defineLabel none] []
    rw [relapse, List.map_cons, List.map_nil, List.append_nil, List.append_assoc,
      List.singleton_append] at hrun
    rw [hrun]
    exact Recorder.takes_of_check htaken

end Workshop

end CilAssembler
