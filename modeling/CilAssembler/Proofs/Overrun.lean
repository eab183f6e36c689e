import CilAssembler.Proofs.Sessions

/-! # Running out of serial numbers

The serial number of a checkpoint has 32 bits, and the number after the last one is 0. From then on
a rewind finds no later checkpoints to discard. So a recorder can be rewound to a checkpoint that
was taken of lines which are gone: it gets back the regions that were open there, and keeps as many
of its present lines, labels and locals as there were then. -/

namespace CilAssembler

namespace Recorder

/-- Performs calls in order, whether or not they are refused. -/
def after (r : Recorder) (calls : List Call) : Recorder :=
  calls.foldl (fun r call => (r.perform call).2) r

theorem after_cons (r : Recorder) (call : Call) (calls : List Call) :
    r.after (call :: calls) = (r.perform call).2.after calls := rfl

/-- Calls have no part in what tells the checkpoints of a recorder apart. -/
theorem checkpoints_after (r : Recorder) (calls : List Call) :
    (r.after calls).id = r.id ∧ (r.after calls).nextCheckpoint = r.nextCheckpoint ∧
      (r.after calls).stale = r.stale := by
  induction calls generalizing r with
  | nil => exact ⟨rfl, rfl, rfl⟩
  | cons call calls ih =>
      rw [after_cons]
      rcases perform_cases call r with ⟨e, _, hrefused⟩ | ⟨reply, i, _, haccepted, _⟩
      · rw [hrefused]
        exact ih r
      · rw [haccepted]
        exact ih (r.record i)

/-- A new recorder that has taken all checkpoints but the last one. -/
def worn (id : AssemblerId) : Recorder :=
  { new id with nextCheckpoint := 0xFFFFFFFF }

end Recorder

/-- The first checkpoint of a new recorder. -/
def Checkpoint.first (id : AssemblerId) : Checkpoint :=
  ⟨id, 0, 0, 0, 0, .empty⟩

/-- The last checkpoint that has a serial number of its own, taken after some calls. -/
def Checkpoint.last (id : AssemblerId) (calls : List Call) : Checkpoint :=
  ((Recorder.worn id).after calls).checkpoint.1

namespace Recorder

/-- The recorder that has taken its last checkpoint and has gone back to the first one. -/
def overrun (id : AssemblerId) (calls : List Call) : Recorder :=
  ((worn id).after calls).checkpoint.2.restore (.first id)

/-- The recorder that, after some more calls, has gone on from its last checkpoint. -/
def relapsed (id : AssemblerId) (first second third : List Call) : Recorder :=
  (((overrun id first).after second).restore (.last id first)).after third

theorem stale_overrun (id : AssemblerId) (calls : List Call) : (overrun id calls).stale = [] := by
  obtain ⟨_, hnext, hstale⟩ := checkpoints_after (worn id) calls
  have hnone : ((worn id).after calls).checkpoint.2.discardedAfter 0 = none := by
    simp only [discardedAfter, checkpoint, hnext]
    simp [worn]
  simp only [overrun, restore, Checkpoint.first, hnone]
  exact hstale

theorem id_overrun (id : AssemblerId) (calls : List Call) : (overrun id calls).id = id :=
  (checkpoints_after (worn id) calls).1

/-- Whatever was called, the first checkpoint can be returned to. -/
theorem rewind_first (id : AssemblerId) (calls : List Call) :
    ((worn id).after calls).checkpoint.2.rewind (.first id) = (.ok (), overrun id calls) := by
  obtain ⟨hid, _, hstale⟩ := checkpoints_after (worn id) calls
  refine rewind_of_live hid.symm ?_
  rw [Live, checkpoint, hstale]
  rfl

/-- The last checkpoint can be returned to as well, although it has been discarded. -/
theorem rewind_last (id : AssemblerId) (calls later : List Call) :
    ((overrun id calls).after later).rewind (.last id calls) =
      (.ok (), ((overrun id calls).after later).restore (.last id calls)) := by
  obtain ⟨hid, _, hstale⟩ := checkpoints_after (overrun id calls) later
  refine rewind_of_live ?_ ?_
  · rw [hid, id_overrun]
    exact (checkpoints_after (worn id) calls).1
  · rw [Live, hstale, stale_overrun]
    rfl

end Recorder

namespace Workshop

theorem update_update (w : Workshop) (id : AssemblerId) (r s : Recorder) :
    (w.update id r).update id s = w.update id s := by
  simp only [update, mk.injEq, and_true]
  funext other
  split <;> rfl

theorem after_map_perform (w : Workshop) (id : AssemblerId) (calls : List Call) :
    w.after (calls.map (.perform id)) = w.update id ((w.recorder id).after calls) := by
  induction calls generalizing w with
  | nil => exact (update_recorder w id).symm
  | cons call calls ih =>
      have hstep := ih (w.update id ((w.recorder id).perform call).2)
      rw [recorder_update_self, update_update] at hstep
      exact hstep

/-- The serial numbers of checkpoints are their numbers, up to a multiple of 2^32. -/
theorem run_replicate_checkpoint (id : AssemblerId) (n : Nat) :
    (run (List.replicate n (.checkpoint id))).recorder id =
        { Recorder.new id with nextCheckpoint := n.toUInt32 } ∧
      (run (List.replicate n (.checkpoint id))).checkpoints =
        (List.range n).map fun k => ⟨id, k.toUInt32, 0, 0, 0, .empty⟩ := by
  induction n with
  | zero => exact ⟨rfl, rfl⟩
  | succ n ih =>
      obtain ⟨hrecorder, hcheckpoints⟩ := ih
      rw [List.replicate_succ', run_append_singleton]
      constructor
      · simp only [step, update, hrecorder, Recorder.checkpoint, if_true, toUInt32_succ]
      · simp only [step, hrecorder, hcheckpoints, Recorder.checkpoint, List.range_succ,
          List.map_append, List.map_cons, List.map_nil]
        rfl

theorem accepts_of_rewind {w : Workshop} {id : AssemblerId} {number : Nat} {c : Checkpoint}
    (hc : w.checkpoints[number]? = some c) (hrewind : ((w.recorder id).rewind c).1 = .ok ()) :
    w.accepts id number = true := by
  simp only [accepts, hc, hrewind, Except.isOk, Except.toBool]

/-- A session that uses up the serial numbers: of 2^32 checkpoints the last one is taken after some
calls. -/
def exhaustion (id : AssemblerId) (calls : List Call) : List Request :=
  List.replicate (2 ^ 32 - 1) (.checkpoint id) ++ calls.map (.perform id) ++ [.checkpoint id]

theorem step_checkpoint (w : Workshop) (id : AssemblerId) :
    (w.step (.checkpoint id)).recorder id = (w.recorder id).checkpoint.2 ∧
      (w.step (.checkpoint id)).checkpoints = w.checkpoints ++ [(w.recorder id).checkpoint.1] := by
  simp [step, update]

/-- The recorder after such a session, and its checkpoints. -/
theorem run_exhaustion (id : AssemblerId) (calls : List Call) :
    (run (exhaustion id calls)).recorder id = ((Recorder.worn id).after calls).checkpoint.2 ∧
      (run (exhaustion id calls)).checkpoints.length = 2 ^ 32 ∧
      (run (exhaustion id calls)).checkpoints[0]? = some (.first id) ∧
      (run (exhaustion id calls)).checkpoints[2 ^ 32 - 1]? = some (.last id calls) := by
  have hword : (2 ^ 32 - 1 : Nat).toUInt32 = 0xFFFFFFFF := rfl
  have hpos : 0 < 2 ^ 32 - 1 := by decide
  have hsize : 2 ^ 32 - 1 + 1 = 2 ^ 32 := rfl
  rw [exhaustion]
  -- The rest holds of any number of checkpoints, and nothing may evaluate so many of them.
  generalize 2 ^ 32 - 1 = n at hword hpos hsize ⊢
  obtain ⟨hrecorder, hcheckpoints⟩ := run_replicate_checkpoint id n
  have hworn : (run (List.replicate n (.checkpoint id))).recorder id = .worn id := by
    rw [hrecorder, hword, Recorder.worn]
  have hlength : (run (List.replicate n (.checkpoint id))).checkpoints.length = n := by
    rw [hcheckpoints, List.length_map, List.length_range]
  have hfirst : (run (List.replicate n (.checkpoint id))).checkpoints[0]? = some (.first id) := by
    rw [hcheckpoints, List.getElem?_map, List.getElem?_range hpos]
    rfl
  obtain ⟨htaken, hall⟩ := step_checkpoint
    (run (List.replicate n (.checkpoint id) ++ calls.map (.perform id))) id
  rw [run_append_singleton, htaken, hall, run_append, after_map_perform, hworn,
    recorder_update_self, checkpoints_update]
  refine ⟨rfl, ?_, ?_, ?_⟩
  · rw [List.length_append, hlength]
    exact hsize
  · rw [List.getElem?_append_left (by rw [hlength]; exact hpos), hfirst]
  · rw [List.getElem?_append_right (Nat.le_of_eq hlength), hlength, Nat.sub_self]
    rfl

/-- Then the recorder is rewound to the first checkpoint. -/
def overrun (id : AssemblerId) (calls : List Call) : List Request :=
  exhaustion id calls ++ [.rewind id 0]

/-- The recorder after that, and its checkpoints. -/
theorem run_overrun (id : AssemblerId) (calls : List Call) :
    (run (overrun id calls)).recorder id = .overrun id calls ∧
      (run (overrun id calls)).checkpoints.length = 2 ^ 32 ∧
      (run (overrun id calls)).checkpoints[2 ^ 32 - 1]? = some (.last id calls) := by
  obtain ⟨hrecorder, hlength, hfirst, hlast⟩ := run_exhaustion id calls
  rw [overrun, run_append_singleton, step_rewind_of_some hfirst, recorder_update_self,
    checkpoints_update, hrecorder, Recorder.rewind_first]
  exact ⟨rfl, hlength, hlast⟩

/-- The recorder when it has performed some more calls, and the discarded checkpoint. -/
theorem run_overrun_append (id : AssemblerId) (first second : List Call) :
    (run (overrun id first ++ second.map (.perform id))).recorder id =
        (Recorder.overrun id first).after second ∧
      (run (overrun id first ++ second.map (.perform id))).checkpoints[2 ^ 32 - 1]? =
        some (.last id first) := by
  obtain ⟨hrecorder, _, hlast⟩ := run_overrun id first
  rw [run_append, after_map_perform, recorder_update_self, checkpoints_update, hrecorder]
  exact ⟨rfl, hlast⟩

/-- The discarded checkpoint is accepted. -/
theorem accepts_overrun_append (id : AssemblerId) (first second : List Call) :
    (run (overrun id first ++ second.map (.perform id))).accepts id (2 ^ 32 - 1) = true := by
  obtain ⟨hrecorder, hlast⟩ := run_overrun_append id first second
  refine accepts_of_rewind hlast ?_
  rw [hrecorder, Recorder.rewind_last]

/-- A session that uses up the serial numbers goes on with some calls, returns to the checkpoint
that was discarded, and goes on from there. -/
def relapse (id : AssemblerId) (first second third : List Call) : List Request :=
  overrun id first ++ second.map (.perform id) ++ [.rewind id (2 ^ 32 - 1)] ++
    third.map (.perform id)

theorem countP_map_perform (id : AssemblerId) (calls : List Call) :
    (calls.map (Request.perform id)).countP (·.takesCheckpoint id) = 0 := by
  simp [List.countP_eq_zero, Request.takesCheckpoint]

/-- The session takes as many checkpoints as there are serial numbers. -/
theorem countP_relapse (id : AssemblerId) (first second third : List Call) :
    (relapse id first second third).countP (·.takesCheckpoint id) = 2 ^ 32 := by
  simp only [relapse, overrun, exhaustion, List.countP_append, countP_map_perform,
    List.countP_replicate]
  simp [Request.takesCheckpoint]

/-- The recorder after such a session. -/
theorem recorder_run_relapse (id : AssemblerId) (first second third : List Call) :
    (run (relapse id first second third)).recorder id = .relapsed id first second third := by
  obtain ⟨hrecorder, hlast⟩ := run_overrun_append id first second
  rw [relapse, run_append, run_append_singleton, step_rewind_of_some hlast, after_map_perform,
    recorder_update_self, recorder_update_self, hrecorder, Recorder.rewind_last, Recorder.relapsed]

end Workshop

end CilAssembler
