/-! # Region faults

The blocks of an exception region, the calls that move between them, and what can be wrong with
such a call. -/

namespace CilAssembler

/-- The block of an exception region that is open. -/
inductive BlockState where
  | inTry
  | inCatch
  | inFilter
  | inFinally
  | inFault
  deriving DecidableEq

/-- The block in words. -/
protected def BlockState.toString : BlockState → String
  | .inTry => "try block"
  | .inCatch => "catch block"
  | .inFilter => "filter block"
  | .inFinally => "finally block"
  | .inFault => "fault block"

instance : ToString BlockState := ⟨BlockState.toString⟩

/-- The calls that regions constrain. -/
inductive RegionOperation where
  | beginCatchBlock
  | beginExceptFilterBlock
  | beginFinallyBlock
  | beginFaultBlock
  | endExceptionBlock
  | endScope
  | finish
  deriving DecidableEq

/-- The name under which faults report the call. -/
def RegionOperation.name : RegionOperation → String
  | .beginCatchBlock => "begin_catch_block"
  | .beginExceptFilterBlock => "begin_except_filter_block"
  | .beginFinallyBlock => "begin_finally_block"
  | .beginFaultBlock => "begin_fault_block"
  | .endExceptionBlock => "end_exception_block"
  | .endScope => "end_scope"
  | .finish => "finish"

/-- Why a call is refused by the regions that are open. -/
inductive RegionFault where
  | noRegion
  | noExceptionRegion
  | blockNotScope (state : BlockState)
  | scopeOpen
  | typedFilterHandler
  | noHandler
  | notAllowed (state : BlockState)
  | regionsOpen (count : Nat)
  | exceptionRegionsOpen (count : Nat)
  deriving DecidableEq

/-- The fault in words. -/
def RegionFault.message : RegionFault → String
  | .noRegion => "no region is open"
  | .noExceptionRegion => "no exception region is open"
  | .blockNotScope state => "innermost region is an open " ++ state.toString ++ ", not a scope"
  | .scopeOpen => "innermost region is a lexical scope that must end first"
  | .typedFilterHandler => "the handler of a filter block must not name an exception type"
  | .noHandler => "the region has no handler, finally or fault block"
  | .notAllowed state => "not allowed in a " ++ state.toString
  | .regionsOpen count => toString count ++ " region(s) still open"
  | .exceptionRegionsOpen count => toString count ++ " exception region(s) still open"

end CilAssembler
