import CilAssembler.MethodBody.Builder

/-! # Finished method bodies

Once every label has its place, the open displacements are filled in and the body is complete. -/

namespace CilAssembler

/-- A complete method body. -/
structure MethodBody where
  code : Array UInt8
  locals : Array LocalVariable
  clauses : Array ExceptionClause
  strings : StringHeap

namespace MethodBody

/-- Whether the body has exception handlers. -/
def hasExceptionHandlers (body : MethodBody) : Bool :=
  !body.clauses.isEmpty

/-- The section that holds the exception table. -/
def sectionBytes (body : MethodBody) : List UInt8 :=
  exceptionSection body.clauses.toList

end MethodBody

/-- Overwrites the code from position `start` on. -/
def patch (code : Array UInt8) (start : Nat) : List UInt8 → Array UInt8
  | [] => code
  | byte :: rest => patch (code.setIfInBounds start byte) (start + 1) rest

/-- Whether a signed number of `width` bytes can hold a distance. -/
def fitsSigned (width : Nat) (distance : Int) : Bool :=
  -(Nat.pow 256 width : Nat) ≤ 2 * distance && 2 * distance < (Nat.pow 256 width : Nat)

namespace BodyBuilder

/-- The place of a label. -/
def labelPosition (labels : Array (Option Nat)) (label : BodyLabel) : Except Error Nat :=
  match labels[label.index.toNat]? with
  | some (some position) => .ok position
  | _ => .error (.undefinedLabel label.index)

/-- Fills in a displacement. -/
def fill (labels : Array (Option Nat)) (code : Array UInt8) (d : Displacement) :
    Except Error (Array UInt8) :=
  match labelPosition labels d.target with
  | .error e => .error e
  | .ok target =>
      let distance : Int := target - d.next
      if fitsSigned d.width distance then
        .ok (patch code d.field (littleEndianInt d.width distance))
      else
        .error (.branchOutOfRange d.op d.instruction target distance)

/-- Fills in displacements in order. -/
def fillAll (labels : Array (Option Nat)) :
    List Displacement → Array UInt8 → Except Error (Array UInt8)
  | [], code => .ok code
  | d :: rest, code =>
      match fill labels code d with
      | .error e => .error e
      | .ok code => fillAll labels rest code

/-- Completes the body: branches first, then jump tables. -/
def finish (b : BodyBuilder) : Except Error MethodBody :=
  if b.regions.isEmpty then
    match fillAll b.labels (b.branches.toList ++ b.tables.toList) b.code with
    | .error e => .error e
    | .ok code => .ok ⟨code, b.locals, b.clauses, b.strings⟩
  else
    .error (.regionViolation .finish (.exceptionRegionsOpen b.regions.length))

end BodyBuilder

end CilAssembler
