import CilAssembler.ExceptionClause

/-! # Regions under construction

An exception region of a method body while its blocks are being written. A handler becomes a
clause when it closes. -/

namespace CilAssembler

/-- A label of a method body. -/
structure BodyLabel where
  index : UInt32
  deriving DecidableEq

/-- A local of a method body. -/
structure BodyLocal where
  index : UInt16
  deriving DecidableEq

/-- What kind of handler a clause has. -/
inductive HandlerKind where
  | catching (type : Option Token)
  | filtering
  | finalizing
  | faulting
  deriving DecidableEq

/-- The flags of a clause with such a handler. -/
def HandlerKind.flags : HandlerKind → UInt16
  | .catching _ => 0
  | .filtering => ExceptionClause.filterFlag
  | .finalizing => ExceptionClause.finallyFlag
  | .faulting => ExceptionClause.faultFlag

/-- The class that the handler catches. -/
def HandlerKind.classToken? : HandlerKind → Option Token
  | .catching type => type
  | _ => none

/-- Whether the handler runs however its block is left. -/
def HandlerKind.isCleanup : HandlerKind → Bool
  | .finalizing | .faulting => true
  | _ => false

/-- A handler that is being written. It was opened at `opened`; the handler of a filter starts
only where the filter ends. A cleanup handler that follows other handlers covers those as well. -/
structure OpenHandler where
  kind : HandlerKind
  opened : Nat
  started : Option Nat
  coversPrevious : Bool

/-- An exception region that is being written. The number of its closed handlers starts over at
2^32. -/
structure OpenRegion where
  exit : BodyLabel
  tryStart : Nat
  tryEnd : Option Nat
  closedHandlers : UInt32
  handler : Option OpenHandler

/-- The clause of a handler that ends at `position`. -/
def OpenHandler.clause (h : OpenHandler) (tryStart tryEnd position : Nat) : ExceptionClause :=
  let start := h.started.getD position
  { flags := h.kind.flags
    tryOffset := tryStart.toUInt32
    tryLength := ((if h.coversPrevious then h.opened else tryEnd) - tryStart).toUInt32
    handlerOffset := start.toUInt32
    handlerLength := (position - start).toUInt32
    classToken := h.kind.classToken?
    filterOffset := if h.kind = .filtering then some h.opened.toUInt32 else none }

/-- Ends the try block if no handler has ended it, and the open handler if there is one. -/
def OpenRegion.close (region : OpenRegion) (position : Nat) :
    OpenRegion × Option ExceptionClause :=
  let tryEnd := region.tryEnd.getD position
  match region.handler with
  | none => ({ region with tryEnd := some tryEnd }, none)
  | some handler =>
      ({ region with
          tryEnd := some tryEnd
          closedHandlers := region.closedHandlers + 1
          handler := none },
        some (handler.clause region.tryStart tryEnd position))

end CilAssembler
