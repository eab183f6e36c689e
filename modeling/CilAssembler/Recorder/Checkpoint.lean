import CilAssembler.Recorder.Basic

/-! # Checkpoints

A checkpoint remembers a point of a recording session. Rewinding to it discards what was recorded
since: lines, labels, locals and the places of labels. It starts a new revision, so discarded
handles stay invalid, and it discards the checkpoints taken since. -/

namespace CilAssembler

/-- A point of a recording session. -/
structure Checkpoint where
  owner : AssemblerId
  serial : UInt32
  lines : Nat
  labels : Nat
  locals : Nat
  regions : RegionStack

/-- Forgets a place that was given to a label in line `lines` or later. -/
def LabelSlot.unmarkFrom (lines : Nat) (slot : LabelSlot) : LabelSlot :=
  match slot.mark with
  | some line => if lines ≤ line then { slot with mark := none } else slot
  | none => slot

namespace Recorder

/-- Takes a checkpoint. -/
def checkpoint (r : Recorder) : Checkpoint × Recorder :=
  (⟨r.id, r.nextCheckpoint, r.stream.length, r.labels.size, r.locals.size, r.regions⟩,
    { r with nextCheckpoint := r.nextCheckpoint + 1 })

/-- Checks that a checkpoint was taken here and not discarded since. -/
def checkRewind (r : Recorder) (c : Checkpoint) : Except Error Unit :=
  if c.owner ≠ r.id then
    .error (.malformed (.foreignCheckpoint c.owner r.id))
  else if r.stale.any (·.contains c.serial) then
    .error (.malformed (.staleCheckpoint c.serial))
  else
    .ok ()

/-- The checkpoints taken after the one with serial number `serial`, if there are any. -/
def discardedAfter (r : Recorder) (serial : UInt32) : Option SerialRange :=
  if serial + 1 = 0 then none
  else if serial + 1 < r.nextCheckpoint then some ⟨serial + 1, r.nextCheckpoint⟩
  else none

/-- Goes back to a checkpoint that has been checked. -/
def restore (r : Recorder) (c : Checkpoint) : Recorder :=
  { r with
    stream := r.stream.truncate c.lines
    labels := (r.labels.take c.labels).map (LabelSlot.unmarkFrom c.lines)
    locals := r.locals.take c.locals
    regions := c.regions
    revision := r.revision + 1
    stale := (r.discardedAfter c.serial).toList ++ r.stale }

/-- Rewinds to a checkpoint. A refused rewind changes nothing. -/
def rewind (r : Recorder) (c : Checkpoint) : Except Error Unit × Recorder :=
  match r.checkRewind c with
  | .error e => (.error e, r)
  | .ok () => (.ok (), r.restore c)

end Recorder

end CilAssembler
