import CilAssembler.Proofs.Bookkeeping
import CilAssembler.Proofs.Rewind

/-! # Sessions with checkpoints

Any number of recorders side by side, with calls, checkpoints and rewinds in any order. A rewind
names its checkpoint by the number under which it was taken, on whichever recorder that was. -/

namespace CilAssembler

/-- A request to the recorder with identity `id`. -/
inductive Request where
  | perform (id : AssemblerId) (call : Call)
  | checkpoint (id : AssemblerId)
  | rewind (id : AssemblerId) (number : Nat)

/-- Whether the request takes a checkpoint on the recorder with identity `id`. -/
def Request.takesCheckpoint (id : AssemblerId) : Request → Bool
  | .checkpoint other => other = id
  | _ => false

/-- A recorder for every identity, and the checkpoints taken so far, first one first. -/
structure Workshop where
  recorder : AssemblerId → Recorder
  checkpoints : List Checkpoint

namespace Workshop

/-- Nothing has been requested. -/
def opened : Workshop :=
  ⟨Recorder.new, []⟩

/-- Replaces one recorder. -/
def update (w : Workshop) (id : AssemblerId) (r : Recorder) : Workshop :=
  { w with recorder := fun other => if other = id then r else w.recorder other }

/-- Carries out a request, whether or not it is refused. -/
def step (w : Workshop) : Request → Workshop
  | .perform id call => w.update id ((w.recorder id).perform call).2
  | .checkpoint id =>
      let taken := (w.recorder id).checkpoint
      { w.update id taken.2 with checkpoints := w.checkpoints ++ [taken.1] }
  | .rewind id number =>
      match w.checkpoints[number]? with
      | some c => w.update id ((w.recorder id).rewind c).2
      | none => w

/-- Carries out requests in order. -/
def after (w : Workshop) (requests : List Request) : Workshop :=
  requests.foldl step w

/-- The workshop after some requests. -/
def run (requests : List Request) : Workshop :=
  opened.after requests

/-- Whether the recorder would accept a rewind to the checkpoint with the given number. -/
def accepts (w : Workshop) (id : AssemblerId) (number : Nat) : Bool :=
  match w.checkpoints[number]? with
  | some c => ((w.recorder id).rewind c).1.isOk
  | none => false

/-- The number of the checkpoint to which a request rewinds the recorder, if it does and is
accepted. -/
def rewoundTo? (id : AssemblerId) (w : Workshop) : Request → Option Nat
  | .rewind other number => if other = id ∧ w.accepts other number then some number else none
  | _ => none

/-- The numbers of the checkpoints to which the recorder is rewound while requests are carried
out, in order. -/
def rewindsTo (id : AssemblerId) : Workshop → List Request → List Nat
  | _, [] => []
  | w, request :: rest => (rewoundTo? id w request).toList ++ rewindsTo id (w.step request) rest

theorem after_append_singleton (w : Workshop) (requests : List Request) (request : Request) :
    w.after (requests ++ [request]) = (w.after requests).step request := by
  simp [after]

theorem rewindsTo_append (id : AssemblerId) (w : Workshop) (requests later : List Request) :
    rewindsTo id w (requests ++ later) =
      rewindsTo id w requests ++ rewindsTo id (w.after requests) later := by
  induction requests generalizing w with
  | nil => rfl
  | cons first rest ih => simp [rewindsTo, ih, after]

theorem rewindsTo_append_singleton (id : AssemblerId) (w : Workshop) (requests : List Request)
    (request : Request) :
    rewindsTo id w (requests ++ [request]) =
      rewindsTo id w requests ++ (rewoundTo? id (w.after requests) request).toList := by
  rw [rewindsTo_append, rewindsTo, rewindsTo, List.append_nil]

/-! ## One recorder of many -/

@[simp] theorem recorder_update_self (w : Workshop) (id : AssemblerId) (r : Recorder) :
    (w.update id r).recorder id = r := by
  simp [update]

theorem recorder_update_of_ne (w : Workshop) {id other : AssemblerId} (r : Recorder)
    (h : other ≠ id) : (w.update id r).recorder other = w.recorder other := by
  simp [update, h]

@[simp] theorem checkpoints_update (w : Workshop) (id : AssemblerId) (r : Recorder) :
    (w.update id r).checkpoints = w.checkpoints := rfl

theorem update_recorder (w : Workshop) (id : AssemblerId) : w.update id (w.recorder id) = w := by
  cases w
  simp only [update, mk.injEq, and_true]
  funext other
  split
  · rename_i h
    rw [h]
  · rfl

theorem step_rewind_of_some {w : Workshop} {number : Nat} {c : Checkpoint}
    (hc : w.checkpoints[number]? = some c) (id : AssemblerId) :
    w.step (.rewind id number) = w.update id ((w.recorder id).rewind c).2 := by
  simp [step, hc]

theorem step_rewind_of_none {w : Workshop} {number : Nat} (hc : w.checkpoints[number]? = none)
    (id : AssemblerId) : w.step (.rewind id number) = w := by
  simp [step, hc]

/-- A refused rewind changes nothing. -/
theorem step_rewind_of_refused {w : Workshop} {id : AssemblerId} {number : Nat}
    (h : w.accepts id number = false) : w.step (.rewind id number) = w := by
  cases hc : w.checkpoints[number]? with
  | none => exact step_rewind_of_none hc id
  | some c =>
      have hrefused : ¬(c.owner = (w.recorder id).id ∧ (w.recorder id).Live c) := by
        rw [← Recorder.isOk_rewind_iff, Bool.not_eq_true]
        simpa only [accepts, hc] using h
      obtain ⟨e, he⟩ := Recorder.rewind_of_not_live hrefused
      rw [step_rewind_of_some hc, he, update_recorder]

/-- The checkpoints taken on one recorder. -/
def taken (w : Workshop) (id : AssemblerId) : List Checkpoint :=
  w.checkpoints.filter (·.owner = id)

/-- Every recorder stands at its own identity. -/
def Identified (w : Workshop) : Prop :=
  ∀ id, (w.recorder id).id = id

theorem id_perform (call : Call) (r : Recorder) : (r.perform call).2.id = r.id := by
  rcases Recorder.perform_cases call r with ⟨e, _, hrefused⟩ | ⟨reply, i, _, haccepted, _⟩
  · rw [hrefused]
  · rw [haccepted]
    rfl

theorem id_rewind (r : Recorder) (c : Checkpoint) : (r.rewind c).2.id = r.id := by
  unfold Recorder.rewind
  split <;> rfl

theorem Identified.update {w : Workshop} (h : w.Identified) {id : AssemblerId} {r : Recorder}
    (hr : r.id = id) : (w.update id r).Identified := by
  intro other
  by_cases hother : other = id
  · subst hother
    rw [recorder_update_self, hr]
  · rw [recorder_update_of_ne w r hother, h other]

theorem Identified.step {w : Workshop} (h : w.Identified) (request : Request) :
    (w.step request).Identified := by
  cases request with
  | perform id call => exact h.update ((id_perform call _).trans (h id))
  | checkpoint id =>
      have hupdate : (w.update id (w.recorder id).checkpoint.2).Identified := h.update (h id)
      exact hupdate
  | rewind id number =>
      cases hc : w.checkpoints[number]? with
      | none =>
          rw [step_rewind_of_none hc]
          exact h
      | some c =>
          rw [step_rewind_of_some hc]
          exact h.update ((id_rewind _ _).trans (h id))

/-- What a request means to one recorder and to the checkpoints taken on it. -/
theorem step_cases {w : Workshop} (h : w.Identified) (id : AssemblerId) (request : Request) :
    (∃ call, request = .perform id call ∧
      (w.step request).recorder id = ((w.recorder id).perform call).2 ∧
      (w.step request).taken id = w.taken id) ∨
    (request = .checkpoint id ∧
      (w.step request).recorder id = (w.recorder id).checkpoint.2 ∧
      (w.step request).taken id = w.taken id ++ [(w.recorder id).checkpoint.1]) ∨
    (∃ number c, request = .rewind id number ∧ w.checkpoints[number]? = some c ∧
      (w.step request).recorder id = ((w.recorder id).rewind c).2 ∧
      (w.step request).taken id = w.taken id) ∨
    (request.takesCheckpoint id = false ∧ rewoundTo? id w request = none ∧
      (w.step request).recorder id = w.recorder id ∧
      (w.step request).taken id = w.taken id) := by
  cases request with
  | perform other call =>
      by_cases hid : other = id
      · subst hid
        exact .inl ⟨call, rfl, recorder_update_self _ _ _, rfl⟩
      · exact .inr (.inr (.inr ⟨rfl, rfl, recorder_update_of_ne _ _ (Ne.symm hid), rfl⟩))
  | checkpoint other =>
      by_cases hid : other = id
      · subst hid
        refine .inr (.inl ⟨rfl, recorder_update_self _ _ _, ?_⟩)
        simp [taken, step, Recorder.checkpoint, h other]
      · refine .inr (.inr (.inr ⟨by simp [Request.takesCheckpoint, hid], rfl,
          recorder_update_of_ne _ _ (Ne.symm hid), ?_⟩))
        simp [taken, step, Recorder.checkpoint, h other, hid]
  | rewind other number =>
      cases hc : w.checkpoints[number]? with
      | none =>
          rw [step_rewind_of_none hc]
          exact .inr (.inr (.inr ⟨rfl, by simp [rewoundTo?, accepts, hc], rfl, rfl⟩))
      | some c =>
          rw [step_rewind_of_some hc]
          by_cases hid : other = id
          · subst hid
            exact .inr (.inr (.inl ⟨number, c, rfl, hc, recorder_update_self _ _ _, rfl⟩))
          · exact .inr (.inr (.inr ⟨rfl, by simp [rewoundTo?, hid],
              recorder_update_of_ne _ _ (Ne.symm hid), rfl⟩))

theorem mem_taken_of_getElem? {w : Workshop} {id : AssemblerId} {number : Nat} {c : Checkpoint}
    (hc : w.checkpoints[number]? = some c) (howner : c.owner = id) : c ∈ w.taken id :=
  List.mem_filter.mpr ⟨List.mem_of_getElem? hc, decide_eq_true howner⟩

/-! ## Every run is sound -/

/-- One recorder is sound, and `count` checkpoints were taken on it. -/
structure Keeps (w : Workshop) (id : AssemblerId) (count : Nat) : Prop where
  identified : w.Identified
  sound : (w.recorder id).Sound (w.taken id)
  next : (w.recorder id).nextCheckpoint.toNat = count

theorem nextCheckpoint_perform (call : Call) (r : Recorder) :
    (r.perform call).2.nextCheckpoint = r.nextCheckpoint := by
  rcases Recorder.perform_cases call r with ⟨e, _, hrefused⟩ | ⟨reply, i, _, haccepted, _⟩
  · rw [hrefused]
  · rw [haccepted]
    rfl

theorem nextCheckpoint_rewind (r : Recorder) (c : Checkpoint) :
    (r.rewind c).2.nextCheckpoint = r.nextCheckpoint := by
  unfold Recorder.rewind
  split <;> rfl

theorem Keeps.step {w : Workshop} {id : AssemblerId} {count : Nat} (h : w.Keeps id count)
    (request : Request) (hroom : count + 1 < 2 ^ 32 ∨ request.takesCheckpoint id = false) :
    (w.step request).Keeps id (count + if request.takesCheckpoint id then 1 else 0) := by
  refine ⟨h.identified.step request, ?_, ?_⟩
  all_goals
    rcases step_cases h.identified id request with
      ⟨call, rfl, hrecorder, htaken⟩ | ⟨rfl, hrecorder, htaken⟩ |
      ⟨number, c, rfl, hc, hrecorder, htaken⟩ | ⟨htakes, _, hrecorder, htaken⟩
  · rw [hrecorder, htaken]
    exact h.sound.perform call
  · rw [hrecorder, htaken]
    have hnext : count + 1 < 2 ^ 32 := hroom.resolve_right (by simp [Request.takesCheckpoint])
    exact h.sound.checkpoint (h.next ▸ hnext)
  · rw [hrecorder, htaken]
    apply h.sound.rewind
    rw [h.identified id]
    by_cases howner : c.owner = id
    · exact .inl (mem_taken_of_getElem? hc howner)
    · exact .inr howner
  · rw [hrecorder, htaken]
    exact h.sound
  · rw [hrecorder, nextCheckpoint_perform, h.next]
    rfl
  · have hnext : count + 1 < 2 ^ 32 := hroom.resolve_right (by simp [Request.takesCheckpoint])
    rw [hrecorder]
    simp only [Recorder.checkpoint, UInt32.toNat_add, h.next, Request.takesCheckpoint, decide_true,
      if_true]
    exact Nat.mod_eq_of_lt hnext
  · rw [hrecorder, nextCheckpoint_rewind, h.next]
    rfl
  · rw [hrecorder, h.next, htakes]
    rfl

theorem keeps_opened (id : AssemblerId) : opened.Keeps id 0 :=
  ⟨fun _ => rfl, Recorder.sound_new id, rfl⟩

theorem Keeps.after {w : Workshop} {id : AssemblerId} {count : Nat} (h : w.Keeps id count)
    (requests : List Request)
    (hroom : count + requests.countP (·.takesCheckpoint id) < 2 ^ 32) :
    (w.after requests).Keeps id (count + requests.countP (·.takesCheckpoint id)) := by
  induction requests using List.reverseRecOn with
  | nil => exact h
  | append_singleton requests request ih =>
      rw [List.countP_append, List.countP_singleton, ← Nat.add_assoc] at hroom ⊢
      rw [after_append_singleton]
      apply (ih (by omega)).step
      cases htakes : request.takesCheckpoint id with
      | false => exact .inr rfl
      | true =>
          left
          simp only [htakes, if_true] at hroom
          omega

theorem run_append (before rest : List Request) : run (before ++ rest) = (run before).after rest := by
  simp [run, after]

theorem identified_run (requests : List Request) : (run requests).Identified := by
  induction requests using List.reverseRecOn with
  | nil => exact fun _ => rfl
  | append_singleton requests request ih =>
      rw [run, after_append_singleton]
      exact ih.step request

theorem keeps_run (requests : List Request) (id : AssemblerId)
    (hcheckpoints : requests.countP (·.takesCheckpoint id) < 2 ^ 32) :
    (run requests).Keeps id (requests.countP (·.takesCheckpoint id)) := by
  have hkeeps := (keeps_opened id).after requests (by omega)
  rwa [Nat.zero_add] at hkeeps

/-- Whatever was requested, the books of a recorder are balanced. -/
theorem balanced_books (requests : List Request) (id : AssemblerId)
    (hcheckpoints : requests.countP (·.takesCheckpoint id) < 2 ^ 32)
    (hlabels : ((run requests).recorder id).labels.size < 2 ^ 32)
    (hlocals : ((run requests).recorder id).locals.size < 2 ^ 32) :
    ((run requests).recorder id).books.Balanced := by
  have hsound := (keeps_run requests id hcheckpoints).sound
  have hbooks := hsound.books
  rw [hbooks]
  apply hsound.recorded.balanced
  · rw [← hbooks]
    exact Nat.le_of_lt hlabels
  · rw [← hbooks]
    exact Nat.le_of_lt hlocals

/-- A block is opened, closed and rewound, then opened again; a foreign rewind and a branch to the
discarded label are refused. -/
theorem balanced_books_rewound :
    let requests : List Request :=
      [.perform ⟨1⟩ (.defineLabel none), .checkpoint ⟨1⟩, .perform ⟨1⟩ .beginExceptionBlock,
        .perform ⟨1⟩ (.markLabel ⟨⟨1⟩, 0, 0, none⟩), .perform ⟨1⟩ .beginFinallyBlock,
        .perform ⟨1⟩ .endExceptionBlock, .rewind ⟨2⟩ 0, .rewind ⟨1⟩ 0,
        .perform ⟨1⟩ .beginExceptionBlock,
        .perform ⟨1⟩ (.emit .br (.label ⟨⟨1⟩, 0, 1, none⟩)),
        .perform ⟨1⟩ (.emit .br (.label ⟨⟨1⟩, 1, 1, none⟩))]
    ((run requests).recorder ⟨1⟩).stream.length = 3 ∧
      ((run requests).recorder ⟨1⟩).books.Balanced := by
  constructor
  · decide +kernel
  · exact balanced_books _ _ (by decide) (by decide +kernel) (by decide +kernel)

/-! ## The course of one checkpoint -/

/-- What is known in workshop `w` of the checkpoint `c` with the given number. It was taken after
the instructions `is`, and its recorder has been rewound to the checkpoints `rewinds` since. -/
structure Tracks (w : Workshop) (owner : AssemblerId) (number : Nat) (c : Checkpoint)
    (is : List Instruction) (rewinds : List Nat) : Prop where
  checkpoint : w.checkpoints[number]? = some c
  live_iff : (w.recorder owner).Live c ↔ ∀ other ∈ rewinds, number ≤ other
  kept : (w.recorder owner).Live c →
    (w.recorder owner).stream.instructions.take c.lines = is

/-- Serial numbers are given in the order in which checkpoints are taken. -/
theorem serial_le_iff {w : Workshop} {id : AssemblerId} {m n : Nat} {c d : Checkpoint}
    (h : (w.taken id).Pairwise (·.serial < ·.serial)) (hc : w.checkpoints[m]? = some c)
    (hd : w.checkpoints[n]? = some d) (hcid : c.owner = id) (hdid : d.owner = id) :
    c.serial ≤ d.serial ↔ m ≤ n := by
  rw [taken, List.pairwise_filter, List.pairwise_iff_getElem] at h
  obtain ⟨hm, rfl⟩ := List.getElem?_eq_some_iff.mp hc
  obtain ⟨hn, rfl⟩ := List.getElem?_eq_some_iff.mp hd
  rcases Nat.lt_trichotomy m n with hlt | rfl | hlt
  · have hserial := h m n hm hn hlt (decide_eq_true hcid) (decide_eq_true hdid)
    exact ⟨fun _ => Nat.le_of_lt hlt, fun _ => UInt32.le_of_lt hserial⟩
  · exact ⟨fun _ => Nat.le_refl _, fun _ => UInt32.le_refl _⟩
  · have hserial := h n m hn hm hlt (decide_eq_true hdid) (decide_eq_true hcid)
    constructor
    · exact fun hle => absurd hserial (UInt32.not_lt.mpr hle)
    · exact fun hle => absurd hlt (Nat.not_lt.mpr hle)

theorem checkpoints_step {w : Workshop} {number : Nat} {c : Checkpoint}
    (hc : w.checkpoints[number]? = some c) (request : Request) :
    (w.step request).checkpoints[number]? = some c := by
  cases request with
  | perform id call => exact hc
  | checkpoint id =>
      simp only [step]
      rw [List.getElem?_append_left (List.getElem?_eq_some_iff.mp hc).1, hc]
  | rewind id other =>
      cases hother : w.checkpoints[other]? with
      | none => rw [step_rewind_of_none hother, hc]
      | some d => rw [step_rewind_of_some hother, checkpoints_update, hc]

theorem accepts_iff {w : Workshop} (h : w.Identified) {id : AssemblerId} {number : Nat}
    {c : Checkpoint} (hc : w.checkpoints[number]? = some c) :
    w.accepts id number = true ↔ c.owner = id ∧ (w.recorder id).Live c := by
  unfold accepts
  rw [hc]
  simp only [Recorder.isOk_rewind_iff, h id]

theorem exists_checkpoint_of_accepts {w : Workshop} {id : AssemblerId} {number : Nat}
    (h : w.accepts id number = true) : ∃ c, w.checkpoints[number]? = some c := by
  unfold accepts at h
  split at h
  · exact ⟨_, ‹_›⟩
  · cases h

/-- A request that is no accepted rewind leaves the checkpoint and its lines as they are. -/
theorem Tracks.step_of_not_rewound {w : Workshop} {owner : AssemblerId} {number : Nat}
    {c : Checkpoint} {is : List Instruction} {rewinds : List Nat} {request : Request}
    (h : w.Tracks owner number c is rewinds) (hnone : rewoundTo? owner w request = none)
    (hlive : ((w.step request).recorder owner).Live c ↔ (w.recorder owner).Live c)
    (hkept : (w.recorder owner).Live c →
      ((w.step request).recorder owner).stream.instructions.take c.lines =
        (w.recorder owner).stream.instructions.take c.lines) :
    (w.step request).Tracks owner number c is
      (rewinds ++ (rewoundTo? owner w request).toList) := by
  rw [hnone, Option.toList_none, List.append_nil]
  refine ⟨checkpoints_step h.checkpoint request, hlive.trans h.live_iff, ?_⟩
  intro hafter
  have hbefore := hlive.mp hafter
  rw [hkept hbefore, h.kept hbefore]

theorem live_perform (call : Call) (r : Recorder) (c : Checkpoint) :
    (r.perform call).2.Live c ↔ r.Live c := by
  rcases Recorder.perform_cases call r with ⟨e, _, hrefused⟩ | ⟨reply, i, _, haccepted, _⟩
  · rw [hrefused]
  · rw [haccepted]
    rfl

theorem take_instructions_perform (call : Call) (r : Recorder) {lines : Nat}
    (hlines : lines ≤ r.stream.instructions.length) :
    (r.perform call).2.stream.instructions.take lines = r.stream.instructions.take lines := by
  rcases Recorder.perform_cases call r with ⟨e, _, hrefused⟩ | ⟨reply, i, _, haccepted, _⟩
  · rw [hrefused]
  · rw [haccepted]
    rw [Recorder.instructions_record, List.take_append_of_le_length hlines]

/-- An accepted rewind of a recorder restores it. -/
theorem Keeps.recorder_rewind {w : Workshop} {owner : AssemblerId} {number count : Nat}
    {c : Checkpoint} (h : w.Keeps owner count) (hc : w.checkpoints[number]? = some c)
    (howner : c.owner = owner) (hlive : (w.recorder owner).Live c) :
    (w.step (.rewind owner number)).recorder owner = (w.recorder owner).restore c := by
  rw [step_rewind_of_some hc, recorder_update_self,
    Recorder.rewind_of_live (howner.trans (h.identified owner).symm) hlive]

/-- After an accepted rewind the checkpoint is live if it was and was not taken later than the one
gone back to. -/
theorem Tracks.step_of_rewound {w : Workshop} {owner : AssemblerId} {number other count : Nat}
    {c : Checkpoint} {is : List Instruction} {rewinds : List Nat}
    (h : w.Tracks owner number c is rewinds) (hkeeps : w.Keeps owner count)
    (howner : c.owner = owner) (haccepted : w.accepts owner other = true) :
    (w.step (.rewind owner other)).Tracks owner number c is
      (rewinds ++ (rewoundTo? owner w (.rewind owner other)).toList) := by
  obtain ⟨d, hd⟩ := exists_checkpoint_of_accepts haccepted
  obtain ⟨hdowner, hdlive⟩ := (accepts_iff hkeeps.identified hd).mp haccepted
  have hmem : c ∈ w.taken owner := mem_taken_of_getElem? h.checkpoint howner
  have hdmem : d ∈ w.taken owner := mem_taken_of_getElem? hd hdowner
  have hrecorder := hkeeps.recorder_rewind hd hdowner hdlive
  have horder := serial_le_iff hkeeps.sound.serials h.checkpoint hd howner hdowner
  have hlive : ((w.recorder owner).restore d).Live c ↔
      (w.recorder owner).Live c ∧ number ≤ other := by
    rw [← horder]
    exact Recorder.live_restore_iff (hkeeps.sound.serial_lt d hdmem) (hkeeps.sound.serial_lt c hmem)
  have hrewound : rewoundTo? owner w (.rewind owner other) = some other := by
    simp [rewoundTo?, haccepted]
  rw [hrewound, Option.toList_some]
  refine ⟨checkpoints_step h.checkpoint _, ?_, ?_⟩
  · rw [hrecorder, hlive, h.live_iff]
    simp only [List.mem_append, List.mem_singleton, or_imp, forall_and, forall_eq]
  · intro hafter
    rw [hrecorder] at hafter
    obtain ⟨hbefore, hle⟩ := hlive.mp hafter
    have hlines := hkeeps.sound.lines_le c hmem d hdmem hbefore hdlive (horder.mpr hle)
    rw [hrecorder, (hkeeps.sound.restore hdmem hdlive).2, List.take_take,
      Nat.min_eq_left hlines, h.kept hbefore]

/-- An accepted rewind brings back the books of the instructions from which the checkpoint was
taken. -/
theorem Tracks.books_rewind {w : Workshop} {owner : AssemblerId} {number count : Nat}
    {c : Checkpoint} {is : List Instruction} {rewinds : List Nat}
    (h : w.Tracks owner number c is rewinds) (hkeeps : w.Keeps owner count)
    (howner : c.owner = owner) (hlive : (w.recorder owner).Live c) :
    ((w.step (.rewind owner number)).recorder owner).books = Books.ofInstructions is := by
  have hmem := mem_taken_of_getElem? h.checkpoint howner
  rw [hkeeps.recorder_rewind h.checkpoint howner hlive,
    Recorder.books_restore hkeeps.sound.books hkeeps.sound.recorded
      (hkeeps.sound.describes c hmem hlive), h.kept hlive]

theorem Tracks.step {w : Workshop} {owner : AssemblerId} {number count : Nat} {c : Checkpoint}
    {is : List Instruction} {rewinds : List Nat} (h : w.Tracks owner number c is rewinds)
    (hkeeps : w.Keeps owner count) (howner : c.owner = owner) (request : Request) :
    (w.step request).Tracks owner number c is
      (rewinds ++ (rewoundTo? owner w request).toList) := by
  have hmem : c ∈ w.taken owner := mem_taken_of_getElem? h.checkpoint howner
  rcases step_cases hkeeps.identified owner request with
    ⟨call, rfl, hrecorder, _⟩ | ⟨rfl, hrecorder, _⟩ |
    ⟨other, _, rfl, _, _, _⟩ | ⟨_, hnone, hrecorder, _⟩
  · apply h.step_of_not_rewound rfl
    · rw [hrecorder]
      exact live_perform call _ c
    · intro hlive
      rw [hrecorder]
      exact take_instructions_perform call _ (hkeeps.sound.describes c hmem hlive).lines
  · apply h.step_of_not_rewound rfl
    · rw [hrecorder]
      rfl
    · intro _
      rw [hrecorder]
      rfl
  · by_cases haccepted : w.accepts owner other = true
    · exact h.step_of_rewound hkeeps howner haccepted
    · have hsame := step_rewind_of_refused (Bool.eq_false_iff.mpr haccepted)
      apply h.step_of_not_rewound
      · simp [rewoundTo?, haccepted]
      · rw [hsame]
      · intro _
        rw [hsame]
  · apply h.step_of_not_rewound hnone
    · rw [hrecorder]
    · intro _
      rw [hrecorder]

theorem Tracks.after {w : Workshop} {owner : AssemblerId} {number count : Nat} {c : Checkpoint}
    {is : List Instruction} (h : w.Tracks owner number c is []) (hkeeps : w.Keeps owner count)
    (howner : c.owner = owner) (requests : List Request)
    (hroom : count + requests.countP (·.takesCheckpoint owner) < 2 ^ 32) :
    (w.after requests).Tracks owner number c is (rewindsTo owner w requests) := by
  induction requests using List.reverseRecOn with
  | nil => exact h
  | append_singleton requests request ih =>
      rw [List.countP_append] at hroom
      rw [after_append_singleton, rewindsTo_append_singleton]
      exact (ih (by omega)).step (hkeeps.after requests (by omega)) howner request

/-- A checkpoint that was just taken is tracked from the instructions recorded so far. -/
theorem Keeps.tracks {w : Workshop} {owner : AssemblerId} {count : Nat} (h : w.Keeps owner count) :
    (w.step (.checkpoint owner)).Tracks owner w.checkpoints.length
      (w.recorder owner).checkpoint.1 (w.recorder owner).stream.instructions [] := by
  have hrecorder : (w.step (.checkpoint owner)).recorder owner =
      (w.recorder owner).checkpoint.2 := recorder_update_self _ _ _
  refine ⟨?_, ?_, ?_⟩
  · simp [Workshop.step]
  · rw [hrecorder]
    exact ⟨fun _ => nofun, fun _ => h.sound.live_checkpoint⟩
  · intro _
    rw [hrecorder]
    exact List.take_of_length_le (Nat.le_of_eq (Stream.length_instructions _))

/-- Let a checkpoint be taken on the recorder `owner` after the requests `before`, and let other
requests follow. A rewind to it is accepted by `owner` alone, and as long as `owner` has not been
rewound to a checkpoint taken earlier. It restores the books of the moment when the checkpoint was
taken and touches no other recorder; a refused rewind changes nothing. -/
theorem rewind_exact (before later : List Request) (owner id : AssemblerId)
    (hcheckpoints :
      (before ++ .checkpoint owner :: later).countP (·.takesCheckpoint owner) < 2 ^ 32) :
    let now := run (before ++ .checkpoint owner :: later)
    let number := (run before).checkpoints.length
    now.checkpoints[number]? = some ((run before).recorder owner).checkpoint.1 ∧
    (now.accepts id number = true ↔
      id = owner ∧
        ∀ other ∈ rewindsTo owner (run (before ++ [.checkpoint owner])) later, number ≤ other) ∧
    (now.accepts id number = true →
      ((now.step (.rewind id number)).recorder id).books = ((run before).recorder owner).books ∧
        ∀ other, other ≠ id →
          (now.step (.rewind id number)).recorder other = now.recorder other) ∧
    (now.accepts id number = false → now.step (.rewind id number) = now) := by
  intro now number
  rw [List.countP_append, List.countP_cons] at hcheckpoints
  have htakes : Request.takesCheckpoint owner (.checkpoint owner) = true := decide_eq_true rfl
  rw [htakes, if_pos rfl] at hcheckpoints
  have hstart := keeps_run before owner (by omega)
  have hkeeps := hstart.step (.checkpoint owner) (.inl (by omega))
  rw [htakes, if_pos rfl] at hkeeps
  have hnow : now = ((run before).step (.checkpoint owner)).after later := by
    simp [now, run_append, after]
  have htracks := hstart.tracks.after hkeeps (hstart.identified owner) later (by omega)
  have hend := hkeeps.after later (by omega)
  rw [← hnow] at htracks hend
  have hfrom : run (before ++ [.checkpoint owner]) = (run before).step (.checkpoint owner) := by
    simp [run_append, after]
  rw [hfrom]
  have howner : ((run before).recorder owner).checkpoint.1.owner = owner := hstart.identified owner
  have haccepts : now.accepts id number = true ↔ _ :=
    accepts_iff hend.identified htracks.checkpoint
  refine ⟨htracks.checkpoint, ?_, ?_, ?_⟩
  · rw [haccepts, ← htracks.live_iff, howner]
    constructor
    · rintro ⟨rfl, hlive⟩
      exact ⟨rfl, hlive⟩
    · rintro ⟨rfl, hlive⟩
      exact ⟨rfl, hlive⟩
  · intro haccepted
    obtain ⟨hid, hlive⟩ := haccepts.mp haccepted
    obtain rfl : owner = id := howner.symm.trans hid
    constructor
    · rw [htracks.books_rewind hend howner hlive, ← hstart.sound.books]
    · intro other hother
      rw [step_rewind_of_some htracks.checkpoint]
      exact recorder_update_of_ne _ _ hother
  · exact step_rewind_of_refused

/-- A second rewind to the same checkpoint, after rewinds of another recorder and refused ones. -/
theorem rewind_exact_again :
    let before : List Request := [.perform ⟨1⟩ (.defineLabel none), .checkpoint ⟨1⟩]
    let later : List Request :=
      [.perform ⟨1⟩ (.markLabel ⟨⟨1⟩, 0, 0, none⟩), .rewind ⟨1⟩ 1, .checkpoint ⟨2⟩,
        .perform ⟨1⟩ .beginScope, .rewind ⟨2⟩ 0, .rewind ⟨2⟩ 2]
    let now := run (before ++ .checkpoint ⟨1⟩ :: later)
    ((now.step (.rewind ⟨1⟩ 1)).recorder ⟨1⟩).books = ((run before).recorder ⟨1⟩).books ∧
      now.step (.rewind ⟨2⟩ 1) = now := by
  intro before later now
  have hown := rewind_exact before later ⟨1⟩ ⟨1⟩ (by decide)
  have hforeign := rewind_exact before later ⟨1⟩ ⟨2⟩ (by decide)
  exact ⟨(hown.2.2.1 (by decide)).1, hforeign.2.2.2 (by decide)⟩

end Workshop

end CilAssembler
