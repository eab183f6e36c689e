import CilAssembler.Call
import CilAssembler.Region.Stack

/-! # The recorder

The recorder checks every call and keeps the accepted ones as a stream. A call is prepared first:
it is refused, or it becomes an instruction. Recording that instruction cannot fail and determines
the new state, so the state is a function of the stream. -/

namespace CilAssembler

/-- A label that was defined, and the line that placed it. -/
structure LabelSlot where
  label : Label
  mark : Option Nat

/-- The serial numbers of checkpoints that a rewind discarded: from `first`, before `past`. -/
structure SerialRange where
  first : UInt32
  past : UInt32

/-- Whether a serial number lies in the range. -/
def SerialRange.contains (range : SerialRange) (serial : UInt32) : Bool :=
  range.first ≤ serial && serial < range.past

/-- A recording session. -/
structure Recorder where
  id : AssemblerId
  revision : UInt32
  stream : Stream
  labels : Array LabelSlot
  locals : Array Local
  regions : RegionStack
  nextCheckpoint : UInt32
  stale : List SerialRange

namespace Recorder

/-- A session without calls. Handles are told apart by the identity, so sessions that exchange
handles need identities of their own. -/
def new (id : AssemblerId) : Recorder :=
  ⟨id, 0, .empty, #[], #[], .empty, 0, []⟩

/-! ## Checks -/

/-- The slot of a label, if the label is valid here. -/
def labelSlot (r : Recorder) (label : Label) : Except Error LabelSlot :=
  if label.owner = r.id then
    match r.labels[label.index.toNat]? with
    | some slot =>
        if slot.label == label then .ok slot else .error (.invalidLabel label .invalidated)
    | none => .error (.invalidLabel label .invalidated)
  else
    .error (.invalidLabel label .foreign)

/-- Checks that a label is valid here. -/
def checkLabel (r : Recorder) (label : Label) : Except Error Unit :=
  (r.labelSlot label).map fun _ => ()

/-- Checks that a local is valid here. -/
def checkLocal (r : Recorder) (v : Local) : Except Error Unit :=
  if v.owner = r.id then
    match r.locals[v.index.toNat]? with
    | some slot =>
        if slot == v then .ok ()
        else .error (.invalidLocal v (if slot.sameSlot v then .mismatched else .invalidated))
    | none => .error (.invalidLocal v .invalidated)
  else
    .error (.invalidLocal v .foreign)

/-- Checks that a label is valid and not placed yet. -/
def checkMark (r : Recorder) (label : Label) : Except Error Unit :=
  match r.labelSlot label with
  | .ok slot =>
      if slot.mark.isSome then .error (.invalidLabel label .alreadyMarked) else .ok ()
  | .error e => .error e

/-- Whether a label is valid and placed. -/
def isMarked (r : Recorder) (label : Label) : Bool :=
  match r.labelSlot label with
  | .ok slot => slot.mark.isSome
  | .error _ => false

/-- Checks the labels and the local that an operand refers to. -/
def checkReferences (r : Recorder) : Operand Label Local → Except Error Unit
  | .label target => r.checkLabel target
  | .labels targets => targets.forM r.checkLabel
  | .localVar v => r.checkLocal v
  | _ => .ok ()

/-- Checks an operation: its operand, the handles in it, and the room left in the body. -/
def checkOp (r : Recorder) (code : Opcode) (operand : Operand Label Local) : Except Error Op :=
  match Op.make code operand with
  | .error e => .error e
  | .ok op =>
      match r.checkReferences operand with
      | .error e => .error e
      | .ok () =>
          if r.stream.endOffset + op.size ≤ offsetLimit then .ok op
          else .error (.malformed (.bodyOverflow code r.stream.endOffset))

/-- Checks that the innermost exception region can be closed: it has a handler, and its end label
is not placed yet. Gives the end label. -/
def checkEnd (r : Recorder) : Except Error Label :=
  match r.regions.check .endBlock with
  | .error e => .error e
  | .ok () =>
      match r.regions.innermostExit? with
      | some exit => (r.checkMark exit).map fun _ => exit
      | none => .error (.regionViolation .endExceptionBlock .noExceptionRegion)

/-! ## Allocation -/

/-- The next label. -/
def nextLabel (r : Recorder) (name : Option String) : Label :=
  ⟨r.id, r.revision, r.labels.size.toUInt32, name⟩

/-- The next local. -/
def nextLocal (r : Recorder) (type : Member) (pinned : Bool) (name : Option String) : Local :=
  ⟨r.id, r.revision, r.locals.size.toUInt32, type, pinned, name⟩

/-! ## Calls -/

/-- Checks a call. An accepted call becomes the instruction that records it. -/
def prepare (r : Recorder) : (call : Call) → Except Error (call.Reply × Instruction)
  | .defineLabel name =>
      let label := r.nextLabel name
      .ok (label, .defineLabel label)
  | .declareLocal type pinned name =>
      let v := r.nextLocal type pinned name
      .ok (v, .declareLocal v)
  | .markLabel label => (r.checkMark label).map fun _ => ((), .markLabel label)
  | .emit code operand => (r.checkOp code operand).map fun op => ((), .op op)
  | .beginExceptionBlock =>
      let exit := r.nextLabel none
      .ok (exit, .beginExceptionBlock exit)
  | .beginCatchBlock type =>
      (r.regions.check (.beginCatch type.isSome)).map fun _ => ((), .beginCatchBlock type)
  | .beginExceptFilterBlock =>
      (r.regions.check .beginFilter).map fun _ => ((), .beginExceptFilterBlock)
  | .beginFinallyBlock => (r.regions.check .beginFinally).map fun _ => ((), .beginFinallyBlock)
  | .beginFaultBlock => (r.regions.check .beginFault).map fun _ => ((), .beginFaultBlock)
  | .endExceptionBlock => r.checkEnd.map fun exit => ((), .endExceptionBlock exit)
  | .beginScope => .ok ((), .beginScope)
  | .endScope => (r.regions.check .endScope).map fun _ => ((), .endScope)

/-- The label roster after line `line` recorded an instruction. -/
def labelsAfter (labels : Array LabelSlot) (line : Nat) : Instruction → Array LabelSlot
  | .defineLabel label | .beginExceptionBlock label => labels.push ⟨label, none⟩
  | .markLabel label | .endExceptionBlock label =>
      labels.modify label.index.toNat fun slot => { slot with mark := some line }
  | _ => labels

/-- The local roster after an instruction. -/
def localsAfter (locals : Array Local) : Instruction → Array Local
  | .declareLocal v => locals.push v
  | _ => locals

/-- The open regions after an instruction. -/
def regionsAfter (regions : RegionStack) : Instruction → RegionStack
  | .beginExceptionBlock exit => regions.pushTry exit
  | .beginScope => regions.pushScope
  | .beginCatchBlock type => regions.advance (.beginCatch type.isSome)
  | .beginExceptFilterBlock => regions.advance .beginFilter
  | .beginFinallyBlock => regions.advance .beginFinally
  | .beginFaultBlock => regions.advance .beginFault
  | .endExceptionBlock _ => regions.advance .endBlock
  | .endScope => regions.advance .endScope
  | _ => regions

/-- Records an instruction that was prepared. -/
def record (r : Recorder) (i : Instruction) : Recorder :=
  let line := r.stream.length
  { r with
    labels := labelsAfter r.labels line i
    locals := localsAfter r.locals i
    regions := regionsAfter r.regions i
    stream := r.stream.append i }

/-- Performs a call: prepares it and records what it became. A refused call changes nothing. -/
def perform (call : Call) (r : Recorder) : Except Error call.Reply × Recorder :=
  match r.prepare call with
  | .error e => (.error e, r)
  | .ok (reply, i) => (.ok reply, r.record i)

instance : Emitter Recorder where
  stream := Recorder.stream
  perform := Recorder.perform

/-! ## The end of a session -/

/-- The first label that some operation refers to and no line places. -/
def unmarkedTarget? (r : Recorder) : Option Label :=
  (r.stream.ops.flatMap fun (_, op) => op.operand.targets).find? fun label =>
    match r.labels[label.index.toNat]? with
    | some slot => slot.mark.isNone
    | none => true

/-- Ends the session. Every region has to be closed and every branch target placed. -/
def finish (r : Recorder) : Except Error Stream :=
  if r.regions.isEmpty then
    match r.unmarkedTarget? with
    | some label => .error (.unmarkedLabel label)
    | none => .ok r.stream
  else
    .error (.regionViolation .finish (.regionsOpen r.regions.depth))

end Recorder

end CilAssembler
