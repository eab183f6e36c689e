import CilAssembler.MethodBody.OpenRegion
import CilAssembler.Sink
import CilAssembler.Sizing
import CilAssembler.StringHeap.Basic

/-! # Building method bodies

The sink that writes a method body. Opcodes and operands are written as they come; the
displacements of branches are left open until every label has its place. Clauses are collected as
handlers close, so a clause comes after those of the regions inside its blocks. -/

namespace CilAssembler

/-- A declared local. -/
structure LocalVariable where
  type : Member
  pinned : Bool

/-- A field of the code that holds the distance from `next`, the position after the instruction,
to the place of a label. -/
structure Displacement where
  target : BodyLabel
  op : Opcode
  instruction : Nat
  field : Nat
  width : Nat
  next : Nat

/-- A method body that is being written. -/
structure BodyBuilder where
  code : Array UInt8
  labels : Array (Option Nat)
  branches : Array Displacement
  tables : Array Displacement
  locals : Array LocalVariable
  regions : List OpenRegion
  clauses : Array ExceptionClause
  strings : StringHeap

namespace BodyBuilder

/-- The body without code. -/
def empty : BodyBuilder :=
  ⟨#[], #[], #[], #[], #[], [], #[], .empty⟩

/-- The position at the end of the code. -/
def position (b : BodyBuilder) : Except Error Nat :=
  if b.code.size ≤ offsetLimit then .ok b.code.size else .error (.malformed .codeOverflow)

/-! ## Labels and locals -/

/-- Defines a label without a place. -/
def defineLabel (b : BodyBuilder) : Except Error BodyLabel × BodyBuilder :=
  if b.labels.size ≤ 0xFFFFFFFF then
    (.ok ⟨b.labels.size.toUInt32⟩, { b with labels := b.labels.push none })
  else
    (.error (.malformed .tooManyLabels), b)

/-- Declares a local. The largest index is reserved. -/
def declareLocal (b : BodyBuilder) (type : Member) (pinned : Bool) :
    Except Error BodyLocal × BodyBuilder :=
  if b.locals.size < 0xFFFF then
    (.ok ⟨b.locals.size.toUInt16⟩, { b with locals := b.locals.push ⟨type, pinned⟩ })
  else
    (.error (.malformed (.tooManyLocals b.locals.size)), b)

/-- Checks that a label can be placed here, and gives the place. -/
def checkMark (b : BodyBuilder) (label : BodyLabel) : Except Error Nat :=
  match b.position, b.labels[label.index.toNat]? with
  | .error e, _ => .error e
  | .ok _, none => .error (.undefinedLabel label.index)
  | .ok _, some (some previous) => .error (.bodyLabelPlaced label.index previous)
  | .ok position, some none => .ok position

/-- Places a label here. -/
def markLabel (b : BodyBuilder) (label : BodyLabel) : Except Error Unit × BodyBuilder :=
  match b.checkMark label with
  | .error e => (.error e, b)
  | .ok position =>
      (.ok (), { b with labels := b.labels.setIfInBounds label.index.toNat (some position) })

/-! ## Instructions -/

/-- The bytes of an operand that is written as it stands: a number or the token of a member. -/
def immediate {Λ V : Type} : Operand Λ V → List UInt8
  | .int8 value => littleEndianInt 1 value.toInt
  | .uint8 value => littleEndian 1 value.toNat
  | .uint16 value => littleEndian 2 value.toNat
  | .int32 value => littleEndianInt 4 value.toInt
  | .int64 value => littleEndianInt 8 value.toInt
  | .float32 bits => littleEndian 4 bits.toNat
  | .float64 bits => littleEndian 8 bits.toNat
  | .field member | .constructor member | .method member | .type member =>
      littleEndian 4 member.token.value.toNat
  | _ => []

/-- Writes an opcode and the bytes of its operand. -/
def write (b : BodyBuilder) (op : Opcode) (operand : List UInt8) : BodyBuilder :=
  { b with code := b.code ++ (op.bytes ++ operand) }

/-- Writes the token of a text. -/
def emitString (op : Opcode) (text : String) : BodyBuilder → Except Error Unit × BodyBuilder
  | ⟨code, labels, branches, tables, locals, regions, clauses, strings⟩ =>
      match strings.intern text with
      | (.error e, strings) =>
          (.error e, ⟨code, labels, branches, tables, locals, regions, clauses, strings⟩)
      | (.ok token, strings) =>
          (.ok (), write ⟨code, labels, branches, tables, locals, regions, clauses, strings⟩ op
            (littleEndian 4 token.value.toNat))

/-- Writes a branch whose displacement is open. If the code outgrows its offsets at the operand,
the opcode stays written. -/
def emitBranch (b : BodyBuilder) (op : Opcode) (target : BodyLabel) :
    Except Error Unit × BodyBuilder :=
  if b.labels.size ≤ target.index.toNat then
    (.error (.undefinedLabel target.index), b)
  else
    match b.position with
    | .error e => (.error e, b)
    | .ok instruction =>
        let b := b.write op []
        match b.position with
        | .error e => (.error e, b)
        | .ok field =>
            let width := if op.kind = .shortBranch then 1 else 4
            (.ok (), { b with
              code := b.code ++ List.replicate width (0 : UInt8)
              branches := b.branches.push ⟨target, op, instruction, field, width, field + width⟩ })

/-- The open displacements of a jump table whose first slot is at `field`. -/
def tableDisplacements (op : Opcode) (instruction next : Nat) :
    Nat → List BodyLabel → List Displacement
  | _, [] => []
  | field, target :: rest =>
      ⟨target, op, instruction, field, 4, next⟩ ::
        tableDisplacements op instruction next (field + 4) rest

/-- Writes a jump table whose displacements are open. If the code outgrows its offsets before or
after the slots, what came before stays written. -/
def emitSwitch (b : BodyBuilder) (op : Opcode) (targets : List BodyLabel) :
    Except Error Unit × BodyBuilder :=
  if 0xFFFFFFFF < targets.length then
    (.error (.malformed (.tooManySwitchTargets targets.length)), b)
  else
    match b.position with
    | .error e => (.error e, b)
    | .ok instruction =>
        let b := b.write op (littleEndian 4 targets.length)
        match b.position with
        | .error e => (.error e, b)
        | .ok field =>
            let b := { b with code := b.code ++ List.replicate (4 * targets.length) (0 : UInt8) }
            match b.position with
            | .error e => (.error e, b)
            | .ok next =>
                let slots := tableDisplacements op instruction next field targets
                (.ok (), { b with tables := b.tables ++ slots })

/-- The index of a local that a mismatch names, and the category of any other operand. -/
def found : Operand BodyLabel BodyLocal → String
  | .localVar v => "local " ++ toString v.index.toNat
  | x => x.category

/-- Whether an opcode of the kind takes the operand. -/
def takes (kind : OperandKind) (x : Operand BodyLabel BodyLocal) : Bool :=
  x.suits kind && match kind, x with
    | .shortLocal, .localVar v => v.index ≤ 0xFF
    | _, _ => true

/-- Writes an instruction. -/
def emit (b : BodyBuilder) (op : Opcode) (x : Operand BodyLabel BodyLocal) :
    Except Error Unit × BodyBuilder :=
  if takes op.kind x then
    match x with
    | .string text => b.emitString op text
    | .label target => b.emitBranch op target
    | .labels targets => b.emitSwitch op targets
    | .localVar v =>
        (.ok (), b.write op (littleEndian (if op.kind = .shortLocal then 1 else 2) v.index.toNat))
    | x => (.ok (), b.write op (immediate x))
  else
    (.error (.operandMismatch op op.kind (found x)), b)

/-! ## Regions -/

/-- Opens an exception region here, with a label for its end. The label is defined first, and
stays if the code has outgrown its offsets. -/
def beginExceptionBlock (b : BodyBuilder) : Except Error BodyLabel × BodyBuilder :=
  match b.defineLabel with
  | (.error e, b) => (.error e, b)
  | (.ok exit, b) =>
      match b.position with
      | .error e => (.error e, b)
      | .ok start => (.ok exit, { b with regions := ⟨exit, start, none, 0, none⟩ :: b.regions })

/-- Closes what is open in the innermost region and opens a handler here. -/
def openHandler (b : BodyBuilder) (operation : RegionOperation) (kind : HandlerKind) :
    Except Error Unit × BodyBuilder :=
  match b.position, b.regions with
  | .error e, _ => (.error e, b)
  | .ok _, [] => (.error (.regionViolation operation .noExceptionRegion), b)
  | .ok position, region :: rest =>
      let (region, clause) := region.close position
      let handler : OpenHandler :=
        { kind := kind
          opened := position
          started := if kind = .filtering then none else some position
          coversPrevious := kind.isCleanup && 0 < region.closedHandlers }
      (.ok (), { b with
        regions := { region with handler := some handler } :: rest
        clauses := b.clauses ++ clause.toList })

/-- Opens a catch handler here. Without a type, and while a filter waits for its handler, it is
the handler of that filter. -/
def beginCatchBlock (b : BodyBuilder) (type : Option Member) : Except Error Unit × BodyBuilder :=
  match b.position, type, b.regions with
  | .ok position, none, ⟨exit, tryStart, tryEnd, closed, some ⟨kind, opened, none, covers⟩⟩ :: rest =>
      (.ok (), { b with
        regions := ⟨exit, tryStart, tryEnd, closed, some ⟨kind, opened, some position, covers⟩⟩ ::
          rest })
  | _, _, _ => b.openHandler .beginCatchBlock (.catching (type.map (·.token)))

/-- Closes the innermost region and places its end label here. The region is closed even if its
label already has a place. -/
def endExceptionBlock (b : BodyBuilder) : Except Error Unit × BodyBuilder :=
  match b.position, b.regions with
  | .error e, _ => (.error e, b)
  | .ok _, [] => (.error (.regionViolation .endExceptionBlock .noExceptionRegion), b)
  | .ok position, region :: rest =>
      let (_, clause) := region.close position
      markLabel { b with regions := rest, clauses := b.clauses ++ clause.toList } region.exit

/-! ## Calls -/

/-- Performs a call. -/
def perform : (call : SinkCall BodyLabel BodyLocal) → BodyBuilder →
    Except Error call.Reply × BodyBuilder
  | .defineLabel, b => b.defineLabel
  | .declareLocal type pinned, b => b.declareLocal type pinned
  | .markLabel label, b => b.markLabel label
  | .emit op x, b => b.emit op x
  | .beginExceptionBlock, b => b.beginExceptionBlock
  | .beginCatchBlock type, b => b.beginCatchBlock type
  | .beginExceptFilterBlock, b => b.openHandler .beginExceptFilterBlock .filtering
  | .beginFinallyBlock, b => b.openHandler .beginFinallyBlock .finalizing
  | .beginFaultBlock, b => b.openHandler .beginFaultBlock .faulting
  | .endExceptionBlock, b => b.endExceptionBlock
  | .beginScope, b => (.ok (), b)
  | .endScope, b => (.ok (), b)

instance : Sink BodyBuilder BodyLabel BodyLocal where
  perform := BodyBuilder.perform

end BodyBuilder

end CilAssembler
