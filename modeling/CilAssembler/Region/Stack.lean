import CilAssembler.Error

/-! # Open regions

The stack of exception regions and scopes that are open, innermost first, and the rules for
moving from one block of a region to the next. A call is checked first and then carried out, so a
refused call changes nothing. -/

namespace CilAssembler

/-- A call that moves within the innermost region or closes it. -/
inductive RegionCall where
  | beginCatch (typed : Bool)
  | beginFilter
  | beginFinally
  | beginFault
  | endBlock
  | endScope
  deriving DecidableEq

/-- The operation the call performs. -/
def RegionCall.operation : RegionCall → RegionOperation
  | .beginCatch _ => .beginCatchBlock
  | .beginFilter => .beginExceptFilterBlock
  | .beginFinally => .beginFinallyBlock
  | .beginFault => .beginFaultBlock
  | .endBlock => .endExceptionBlock
  | .endScope => .endScope

/-- An open region. An exception region has a label for its end, the block that is open and the
number of clauses opened so far, which starts over at 2^32. -/
inductive Frame where
  | exceptionBlock (exit : Label) (state : BlockState) (handlers : UInt32)
  | scope

/-- Whether a region whose open block is `state` takes the call. -/
def BlockState.allows (state : BlockState) : RegionCall → Bool
  | .beginCatch false => state ≠ .inFinally && state ≠ .inFault
  | .beginCatch true | .beginFilter | .beginFinally | .beginFault =>
      state = .inTry || state = .inCatch
  | .endBlock => state ≠ .inTry
  | .endScope => false

/-- Why a region whose open block is `state` refuses the call. -/
def BlockState.refusal (state : BlockState) : RegionCall → RegionFault
  | .beginCatch true => if state = .inFilter then .typedFilterHandler else .notAllowed state
  | .endBlock => if state = .inTry then .noHandler else .notAllowed state
  | _ => .notAllowed state

/-- The block that a call opens. -/
def RegionCall.opens : RegionCall → BlockState
  | .beginFilter => .inFilter
  | .beginFinally => .inFinally
  | .beginFault => .inFault
  | _ => .inCatch

/-- The open regions, innermost first. -/
structure RegionStack where
  frames : List Frame

namespace RegionStack

/-- No region is open. -/
def empty : RegionStack := ⟨[]⟩

/-- Whether no region is open. -/
def isEmpty (s : RegionStack) : Bool :=
  s.frames.isEmpty

/-- The number of open regions and scopes. -/
def depth (s : RegionStack) : Nat :=
  s.frames.length

/-- The open block of the innermost region, if that is an exception region. -/
def currentState? (s : RegionStack) : Option BlockState :=
  match s.frames with
  | .exceptionBlock _ state _ :: _ => some state
  | _ => none

/-- The end label of the innermost region, if that is an exception region. -/
def innermostExit? (s : RegionStack) : Option Label :=
  match s.frames with
  | .exceptionBlock exit _ _ :: _ => some exit
  | _ => none

/-- Opens an exception region in its try block. -/
def pushTry (s : RegionStack) (exit : Label) : RegionStack :=
  ⟨.exceptionBlock exit .inTry 0 :: s.frames⟩

/-- Opens a scope. -/
def pushScope (s : RegionStack) : RegionStack :=
  ⟨.scope :: s.frames⟩

/-- Why the call is refused, if it is. -/
def fault? (s : RegionStack) (call : RegionCall) : Option RegionFault :=
  match s.frames, call with
  | [], _ => some .noRegion
  | .scope :: _, .endScope => none
  | .scope :: _, _ => some .scopeOpen
  | .exceptionBlock _ state _ :: _, .endScope => some (.blockNotScope state)
  | .exceptionBlock _ state _ :: _, call =>
      if state.allows call then none else some (state.refusal call)

/-- Checks whether the call is allowed now. -/
def check (s : RegionStack) (call : RegionCall) : Except Error Unit :=
  match s.fault? call with
  | some fault => .error (.regionViolation call.operation fault)
  | none => .ok ()

/-- Carries out a call that has been checked. A filter and its handler count as one clause. -/
def advance (s : RegionStack) (call : RegionCall) : RegionStack :=
  match s.frames, call with
  | [], _ => s
  | _ :: rest, .endBlock | _ :: rest, .endScope => ⟨rest⟩
  | .scope :: _, _ => s
  | .exceptionBlock exit state handlers :: rest, call =>
      ⟨.exceptionBlock exit call.opens (if state = .inFilter then handlers else handlers + 1) ::
        rest⟩

/-- Checks a call and carries it out. Closing an exception region gives back its end label. -/
def apply (s : RegionStack) (call : RegionCall) : Except Error (Option Label × RegionStack) :=
  match s.check call with
  | .error e => .error e
  | .ok () =>
      .ok (if call = .endBlock then s.innermostExit? else none, s.advance call)

end RegionStack

end CilAssembler
