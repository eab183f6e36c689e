import CilAssembler.Proofs.Rosters

/-! # The grammar of regions

Calls on a stack of open regions are words. The words that are accepted and leave nothing open are
those of a context-free grammar, and what is accepted at all is the beginning of such a word. The
stack keeps the words that are half derived: a frame for every phrase that is not complete. -/

namespace CilAssembler

/-- A call on a stack of open regions. -/
inductive RegionStep where
  | openBlock (exit : Label)
  | openScope
  | move (call : RegionCall)

namespace RegionStack

/-- Performs one call. -/
def perform (s : RegionStack) : RegionStep → Except Error RegionStack
  | .openBlock exit => .ok (s.pushTry exit)
  | .openScope => .ok s.pushScope
  | .move call => (s.apply call).map (·.2)

/-- Performs calls in order, stopping at the first that is refused. -/
def run (s : RegionStack) : List RegionStep → Except Error RegionStack
  | [] => .ok s
  | step :: rest =>
      match s.perform step with
      | .error e => .error e
      | .ok s => s.run rest

theorem run_append_eq_ok {s u : RegionStack} {first rest : List RegionStep} :
    s.run (first ++ rest) = .ok u ↔ ∃ t, s.run first = .ok t ∧ t.run rest = .ok u := by
  induction first generalizing s with
  | nil => simp [run]
  | cons step first ih =>
      rw [List.cons_append, run, run]
      cases s.perform step with
      | error e => simp
      | ok t => exact ih

theorem run_singleton (s : RegionStack) (step : RegionStep) : s.run [step] = s.perform step := by
  rw [run]
  cases s.perform step <;> rfl

/-! ## Moves -/

theorem perform_move_eq_ok {s t : RegionStack} {call : RegionCall} :
    s.perform (.move call) = .ok t ↔ s.check call = .ok () ∧ t = s.advance call := by
  unfold perform apply
  simp only [Except.map_eq_ok]
  cases s.check call with
  | error e => simp
  | ok u => simp [eq_comm]

/-- A move that is accepted ends a scope, ends an exception region, or goes on to another block of
the innermost region. -/
theorem move_cases {s t : RegionStack} {call : RegionCall} (h : s.perform (.move call) = .ok t) :
    (call = .endScope ∧ s.frames = .scope :: t.frames) ∨
    (call = .endBlock ∧ ∃ exit state handlers, state ≠ .inTry ∧
      s.frames = .exceptionBlock exit state handlers :: t.frames) ∨
    (call ≠ .endScope ∧ call ≠ .endBlock ∧ ∃ exit state handlers outer,
      state.allows call = true ∧ s.frames = .exceptionBlock exit state handlers :: outer ∧
      t.frames = .exceptionBlock exit call.opens
        (if state = .inFilter then handlers else handlers + 1) :: outer) := by
  obtain ⟨hcheck, rfl⟩ := perform_move_eq_ok.mp h
  obtain ⟨frames⟩ := s
  cases frames with
  | nil => cases hcheck
  | cons frame outer =>
      cases frame with
      | scope =>
          cases call with
          | endScope => exact .inl ⟨rfl, rfl⟩
          | _ => cases hcheck
      | exceptionBlock exit state handlers =>
          have hallows : call ≠ .endScope → state.allows call = true := by
            intro hscope
            by_contra hrefused
            cases call <;> simp_all [check, fault?]
          cases call with
          | endScope => cases hcheck
          | endBlock =>
              have hstate : state ≠ .inTry := by
                simpa [BlockState.allows] using hallows (by simp)
              exact .inr (.inl ⟨rfl, exit, state, handlers, hstate, rfl⟩)
          | _ =>
              exact .inr (.inr ⟨by simp, by simp, exit, state, handlers, outer,
                hallows (by simp), rfl, rfl⟩)

theorem perform_move_of_allows {exit : Label} {state : BlockState} {handlers : UInt32}
    {outer : List Frame} {call : RegionCall} (h : state.allows call = true)
    (hend : call ≠ .endBlock) :
    perform ⟨.exceptionBlock exit state handlers :: outer⟩ (.move call) =
      .ok ⟨.exceptionBlock exit call.opens
        (if state = .inFilter then handlers else handlers + 1) :: outer⟩ := by
  rw [perform_move_eq_ok]
  cases call with
  | endBlock => exact absurd rfl hend
  | endScope => cases h
  | _ => simp [check, fault?, h, advance]

theorem perform_endBlock {exit : Label} {state : BlockState} {handlers : UInt32}
    {outer : List Frame} (h : state ≠ .inTry) :
    perform ⟨.exceptionBlock exit state handlers :: outer⟩ (.move .endBlock) = .ok ⟨outer⟩ := by
  rw [perform_move_eq_ok]
  simp [check, fault?, BlockState.allows, h, advance]

end RegionStack

/-- A block after which another handler may follow. -/
def BlockState.TakesHandlers (state : BlockState) : Prop :=
  state = .inTry ∨ state = .inCatch

theorem BlockState.TakesHandlers.allows {state : BlockState} (h : state.TakesHandlers)
    {call : RegionCall} (hend : call ≠ .endBlock) (hscope : call ≠ .endScope) :
    state.allows call = true := by
  rcases h with rfl | rfl <;> rcases call with ⟨_ | _⟩ | _ | _ | _ | _ | _ <;>
    first | rfl | exact absurd rfl hend | exact absurd rfl hscope

/-- Where no other handler may follow, only the handler of a filter can. -/
theorem BlockState.takesHandlers_or_filter {state : BlockState} {call : RegionCall}
    (h : state.allows call = true) (hend : call ≠ .endBlock) :
    state.TakesHandlers ∨ state = .inFilter ∧ call = .beginCatch false := by
  cases state with
  | inTry => exact .inl (.inl rfl)
  | inCatch => exact .inl (.inr rfl)
  | _ =>
      rcases call with ⟨_ | _⟩ | _ | _ | _ | _ | _ <;>
        first | exact .inr ⟨rfl, rfl⟩ | exact absurd rfl hend | cases h

namespace RegionGrammar

/-! ## The grammar -/

/-- What the grammar tells apart. -/
inductive Phrase where
  | block
  | item
  | clause
  | clauses
  | last
  | handlers

/-- The words of the grammar. A block is a sequence of items, each a scope or an exception region
with handlers. Handlers are clauses, of which a filter with its handler is one, and at the end
possibly a finally block, a fault block or a filter alone; there is at least one of them. -/
inductive Derives : Phrase → List RegionStep → Prop where
  | nothing : Derives .block []
  | concat {items item : List RegionStep} (hitems : Derives .block items)
      (hitem : Derives .item item) : Derives .block (items ++ item)
  | scope {block : List RegionStep} (hblock : Derives .block block) :
      Derives .item (.openScope :: block ++ [.move .endScope])
  | region (exit : Label) {block handlers : List RegionStep} (hblock : Derives .block block)
      (hhandlers : Derives .handlers handlers) :
      Derives .item (.openBlock exit :: (block ++ handlers) ++ [.move .endBlock])
  | catching (typed : Bool) {block : List RegionStep} (hblock : Derives .block block) :
      Derives .clause (.move (.beginCatch typed) :: block)
  | filtering {filter handler : List RegionStep} (hfilter : Derives .block filter)
      (hhandler : Derives .block handler) :
      Derives .clause (.move .beginFilter :: filter ++ .move (.beginCatch false) :: handler)
  | noClause : Derives .clauses []
  | addClause {clauses clause : List RegionStep} (hclauses : Derives .clauses clauses)
      (hclause : Derives .clause clause) : Derives .clauses (clauses ++ clause)
  | finalizing {block : List RegionStep} (hblock : Derives .block block) :
      Derives .last (.move .beginFinally :: block)
  | faulting {block : List RegionStep} (hblock : Derives .block block) :
      Derives .last (.move .beginFault :: block)
  | unhandled {filter : List RegionStep} (hfilter : Derives .block filter) :
      Derives .last (.move .beginFilter :: filter)
  | clausesOnly {clauses : List RegionStep} (hclauses : Derives .clauses clauses)
      (hsome : clauses ≠ []) : Derives .handlers clauses
  | withLast {clauses last : List RegionStep} (hclauses : Derives .clauses clauses)
      (hlast : Derives .last last) : Derives .handlers (clauses ++ last)

/-! ## Words are accepted -/

/-- Performing the calls in an exception region whose block is one of `start` leads to a block that
is one of `stop`, and leaves the regions around it alone. -/
def Leads (start stop : BlockState → Prop) (steps : List RegionStep) : Prop :=
  ∀ exit state handlers outer, start state → ∃ state' handlers', stop state' ∧
    RegionStack.run ⟨.exceptionBlock exit state handlers :: outer⟩ steps =
      .ok ⟨.exceptionBlock exit state' handlers' :: outer⟩

theorem Leads.append {P Q R : BlockState → Prop} {first rest : List RegionStep}
    (hfirst : Leads P Q first) (hrest : Leads Q R rest) : Leads P R (first ++ rest) := by
  intro exit state handlers outer hstate
  obtain ⟨middle, count, hmiddle, hrun⟩ := hfirst exit state handlers outer hstate
  obtain ⟨state', handlers', hstop, hrun'⟩ := hrest exit middle count outer hmiddle
  exact ⟨state', handlers', hstop, RegionStack.run_append_eq_ok.mpr ⟨_, hrun, hrun'⟩⟩

/-- A call that opens another block of the region, and items in that block. -/
theorem Leads.opening {P : BlockState → Prop} (call : RegionCall) {block : List RegionStep}
    (hallows : ∀ state, P state → state.allows call = true) (hend : call ≠ .endBlock)
    (hblock : ∀ s : RegionStack, s.run block = .ok s) :
    Leads P (· = call.opens) (.move call :: block) := by
  intro exit state handlers outer hstate
  refine ⟨call.opens, if state = .inFilter then handlers else handlers + 1, rfl, ?_⟩
  rw [RegionStack.run, RegionStack.perform_move_of_allows (hallows state hstate) hend]
  exact hblock _

theorem Leads.mono {P Q R : BlockState → Prop} {steps : List RegionStep} (h : Leads P Q steps)
    (himp : ∀ state, Q state → R state) : Leads P R steps := by
  intro exit state handlers outer hstate
  obtain ⟨state', handlers', hstop, hrun⟩ := h exit state handlers outer hstate
  exact ⟨state', handlers', himp state' hstop, hrun⟩

/-- A handler that follows the try block or a catch block. -/
theorem Leads.handler (call : RegionCall) {block : List RegionStep} (hend : call ≠ .endBlock)
    (hscope : call ≠ .endScope) (hblock : ∀ s : RegionStack, s.run block = .ok s) :
    Leads BlockState.TakesHandlers (· = call.opens) (.move call :: block) :=
  .opening call (fun _ hstate => hstate.allows hend hscope) hend hblock

/-- What performing a phrase does to the open regions. -/
def Phrase.Runs : Phrase → List RegionStep → Prop
  | .block, steps | .item, steps => ∀ s : RegionStack, s.run steps = .ok s
  | .clause, steps => Leads BlockState.TakesHandlers (· = .inCatch) steps
  | .clauses, steps =>
      Leads BlockState.TakesHandlers BlockState.TakesHandlers steps ∧
        (steps ≠ [] → Leads BlockState.TakesHandlers (· = .inCatch) steps)
  | .last, steps | .handlers, steps => Leads BlockState.TakesHandlers (· ≠ .inTry) steps

theorem Derives.runs {phrase : Phrase} {steps : List RegionStep} (h : Derives phrase steps) :
    phrase.Runs steps := by
  induction h with
  | nothing => exact fun s => rfl
  | concat _ _ hitems hitem =>
      exact fun s => RegionStack.run_append_eq_ok.mpr ⟨s, hitems s, hitem s⟩
  | scope _ hblock =>
      exact fun s => RegionStack.run_append_eq_ok.mpr ⟨s.pushScope, hblock s.pushScope, rfl⟩
  | region exit _ _ hblock hhandlers =>
      intro s
      obtain ⟨state, handlers, hstate, hrun⟩ := hhandlers exit .inTry 0 s.frames (.inl rfl)
      have hinside := RegionStack.run_append_eq_ok.mpr ⟨_, hblock (s.pushTry exit), hrun⟩
      refine RegionStack.run_append_eq_ok.mpr ⟨_, hinside, ?_⟩
      rw [RegionStack.run_singleton, RegionStack.perform_endBlock hstate]
  | catching typed _ hblock => exact .handler (.beginCatch typed) (by simp) (by simp) hblock
  | filtering _ _ hfilter hhandler =>
      have hfilters := Leads.handler .beginFilter (by simp) (by simp) hfilter
      exact hfilters.append (.opening (.beginCatch false) (by rintro _ rfl; rfl) (by simp) hhandler)
  | noClause =>
      exact ⟨fun _ state handlers _ hstate => ⟨state, handlers, hstate, rfl⟩,
        fun hsome => absurd rfl hsome⟩
  | addClause _ _ hclauses hclause =>
      have hcatch := hclauses.1.append hclause
      exact ⟨hcatch.mono fun _ => .inr, fun _ => hcatch⟩
  | finalizing _ hblock =>
      exact (Leads.handler .beginFinally (by simp) (by simp) hblock).mono (by rintro _ rfl ⟨⟩)
  | faulting _ hblock =>
      exact (Leads.handler .beginFault (by simp) (by simp) hblock).mono (by rintro _ rfl ⟨⟩)
  | unhandled _ hfilter =>
      exact (Leads.handler .beginFilter (by simp) (by simp) hfilter).mono (by rintro _ rfl ⟨⟩)
  | clausesOnly _ hsome hclauses => exact (hclauses.2 hsome).mono (by rintro _ rfl ⟨⟩)
  | withLast _ _ hclauses hlast => exact hclauses.1.append hlast

/-! ## What is accepted is half derived -/

/-- The calls made in an exception region that is open, up to its block `state`. -/
inductive Inside : BlockState → List RegionStep → Prop where
  | inTry {block : List RegionStep} (hblock : Derives .block block) : Inside .inTry block
  | inCatch {block clauses : List RegionStep} (hblock : Derives .block block)
      (hclauses : Derives .clauses clauses) (hsome : clauses ≠ []) :
      Inside .inCatch (block ++ clauses)
  | inFilter {block clauses filter : List RegionStep} (hblock : Derives .block block)
      (hclauses : Derives .clauses clauses) (hfilter : Derives .block filter) :
      Inside .inFilter (block ++ (clauses ++ .move .beginFilter :: filter))
  | inFinally {block clauses rest : List RegionStep} (hblock : Derives .block block)
      (hclauses : Derives .clauses clauses) (hrest : Derives .block rest) :
      Inside .inFinally (block ++ (clauses ++ .move .beginFinally :: rest))
  | inFault {block clauses rest : List RegionStep} (hblock : Derives .block block)
      (hclauses : Derives .clauses clauses) (hrest : Derives .block rest) :
      Inside .inFault (block ++ (clauses ++ .move .beginFault :: rest))

/-- The calls that left the given frames open: a word for everything that is closed, and the
beginning of a phrase for every frame. -/
inductive Pending : List Frame → List RegionStep → Prop where
  | nothing {block : List RegionStep} (hblock : Derives .block block) : Pending [] block
  | scope {outer : List Frame} {before block : List RegionStep} (houter : Pending outer before)
      (hblock : Derives .block block) : Pending (.scope :: outer) (before ++ .openScope :: block)
  | region {outer : List Frame} {before inside : List RegionStep} {state : BlockState}
      (exit : Label) (handlers : UInt32) (houter : Pending outer before)
      (hinside : Inside state inside) :
      Pending (.exceptionBlock exit state handlers :: outer) (before ++ .openBlock exit :: inside)

theorem Derives.clauses_item {clauses item : List RegionStep} (h : Derives .clauses clauses)
    (hsome : clauses ≠ []) (hitem : Derives .item item) : Derives .clauses (clauses ++ item) := by
  cases h with
  | noClause => exact absurd rfl hsome
  | addClause hclauses hclause =>
      rw [List.append_assoc]
      apply hclauses.addClause
      cases hclause with
      | catching typed hblock => exact .catching typed (hblock.concat hitem)
      | filtering hfilter hhandler =>
          rw [List.append_assoc, List.cons_append]
          exact .filtering hfilter (hhandler.concat hitem)

theorem Inside.item {state : BlockState} {inside item : List RegionStep} (h : Inside state inside)
    (hitem : Derives .item item) : Inside state (inside ++ item) := by
  cases h with
  | inTry hblock => exact .inTry (hblock.concat hitem)
  | inCatch hblock hclauses hsome =>
      rw [List.append_assoc]
      exact .inCatch hblock (hclauses.clauses_item hsome hitem) (by simp [hsome])
  | inFilter hblock hclauses hfilter =>
      rw [List.append_assoc, List.append_assoc]
      exact .inFilter hblock hclauses (hfilter.concat hitem)
  | inFinally hblock hclauses hrest =>
      rw [List.append_assoc, List.append_assoc]
      exact .inFinally hblock hclauses (hrest.concat hitem)
  | inFault hblock hclauses hrest =>
      rw [List.append_assoc, List.append_assoc]
      exact .inFault hblock hclauses (hrest.concat hitem)

/-- Before a handler there are the try block and clauses. -/
theorem Inside.exists_clauses {state : BlockState} {inside : List RegionStep}
    (h : Inside state inside) (hstate : state.TakesHandlers) :
    ∃ block clauses, inside = block ++ clauses ∧ Derives .block block ∧
      Derives .clauses clauses := by
  cases h with
  | inTry hblock => exact ⟨inside, [], (List.append_nil inside).symm, hblock, .noClause⟩
  | inCatch hblock hclauses => exact ⟨_, _, rfl, hblock, hclauses⟩
  | _ => rcases hstate with ⟨⟨⟩⟩ | ⟨⟨⟩⟩

/-- A handler follows the try block or a catch block. -/
theorem Inside.handler {state : BlockState} {inside : List RegionStep} {call : RegionCall}
    (h : Inside state inside) (hstate : state.TakesHandlers) (hend : call ≠ .endBlock)
    (hscope : call ≠ .endScope) : Inside call.opens (inside ++ [.move call]) := by
  obtain ⟨block, clauses, rfl, hblock, hclauses⟩ := h.exists_clauses hstate
  rw [List.append_assoc]
  cases call with
  | beginCatch typed =>
      exact .inCatch hblock (hclauses.addClause (.catching typed .nothing)) (by simp)
  | beginFilter => exact .inFilter hblock hclauses .nothing
  | beginFinally => exact .inFinally hblock hclauses .nothing
  | beginFault => exact .inFault hblock hclauses .nothing
  | endBlock => exact absurd rfl hend
  | endScope => exact absurd rfl hscope

/-- A move to another block of the region. -/
theorem Inside.move {state : BlockState} {inside : List RegionStep} {call : RegionCall}
    (h : Inside state inside) (hallows : state.allows call = true) (hend : call ≠ .endBlock)
    (hscope : call ≠ .endScope) : Inside call.opens (inside ++ [.move call]) := by
  rcases BlockState.takesHandlers_or_filter hallows hend with hstate | ⟨rfl, rfl⟩
  · exact h.handler hstate hend hscope
  · cases h with
    | inFilter hblock hclauses hfilter =>
        rw [List.append_assoc, List.append_assoc]
        exact .inCatch hblock (hclauses.addClause (.filtering hfilter .nothing)) (by simp)

/-- An exception region that has a handler can be closed. -/
theorem Inside.close {state : BlockState} {inside : List RegionStep} (h : Inside state inside)
    (hstate : state ≠ .inTry) (exit : Label) :
    Derives .item (.openBlock exit :: inside ++ [.move .endBlock]) := by
  cases h with
  | inTry => exact absurd rfl hstate
  | inCatch hblock hclauses hsome => exact .region exit hblock (.clausesOnly hclauses hsome)
  | inFilter hblock hclauses hfilter =>
      exact .region exit hblock (.withLast hclauses (.unhandled hfilter))
  | inFinally hblock hclauses hrest =>
      exact .region exit hblock (.withLast hclauses (.finalizing hrest))
  | inFault hblock hclauses hrest =>
      exact .region exit hblock (.withLast hclauses (.faulting hrest))

theorem Pending.item {frames : List Frame} {before item : List RegionStep}
    (h : Pending frames before) (hitem : Derives .item item) : Pending frames (before ++ item) := by
  cases h with
  | nothing hblock => exact .nothing (hblock.concat hitem)
  | scope houter hblock =>
      rw [List.append_assoc]
      exact .scope houter (hblock.concat hitem)
  | region exit handlers houter hinside =>
      rw [List.append_assoc]
      exact .region exit handlers houter (hinside.item hitem)

/-- What one call does to the frames, the half derived phrases follow. -/
theorem Pending.step {s t : RegionStack} {steps : List RegionStep} {step : RegionStep}
    (h : Pending s.frames steps) (hstep : s.perform step = .ok t) :
    Pending t.frames (steps ++ [step]) := by
  cases step with
  | openBlock exit =>
      cases hstep
      exact .region exit 0 h (.inTry .nothing)
  | openScope =>
      cases hstep
      exact .scope h .nothing
  | move call =>
      rcases RegionStack.move_cases hstep with ⟨rfl, hframes⟩ |
        ⟨rfl, exit, state, handlers, hstate, hframes⟩ |
        ⟨hscope, hend, exit, state, handlers, outer, hallows, hframes, hafter⟩
      all_goals rw [hframes] at h
      · cases h with
        | scope houter hblock =>
            rw [List.append_assoc]
            exact houter.item (.scope hblock)
      · cases h with
        | region _ _ houter hinside =>
            rw [List.append_assoc]
            exact houter.item (hinside.close hstate exit)
      · rw [hafter]
        cases h with
        | region _ _ houter hinside =>
            rw [List.append_assoc]
            exact .region exit _ houter (hinside.move hallows hend hscope)

end RegionGrammar

open RegionGrammar

namespace RegionStack

/-- Accepted calls are half derived as the frames tell. -/
theorem pending_of_run {steps : List RegionStep} {s : RegionStack} (h : empty.run steps = .ok s) :
    Pending s.frames steps := by
  induction steps using List.reverseRecOn generalizing s with
  | nil =>
      cases h
      exact .nothing .nothing
  | append_singleton steps step ih =>
      obtain ⟨t, hbefore, hstep⟩ := run_append_eq_ok.mp h
      rw [run_singleton] at hstep
      exact (ih hbefore).step hstep

theorem run_eq_empty_iff {steps : List RegionStep} :
    empty.run steps = .ok empty ↔ Derives .block steps := by
  constructor
  · intro h
    cases pending_of_run h with
    | nothing hblock => exact hblock
  · intro h
    exact h.runs empty

/-- The calls that close what is open, from the innermost frame outwards. -/
def closing : List Frame → List RegionStep
  | [] => []
  | .scope :: outer => .move .endScope :: closing outer
  | .exceptionBlock _ .inTry _ :: outer =>
      .move .beginFinally :: .move .endBlock :: closing outer
  | .exceptionBlock _ _ _ :: outer => .move .endBlock :: closing outer

/-- Whatever is open can be closed. -/
theorem run_closing (frames : List Frame) : run ⟨frames⟩ (closing frames) = .ok empty := by
  induction frames with
  | nil => rfl
  | cons frame outer ih =>
      cases frame with
      | scope => exact ih
      | exceptionBlock exit state handlers => cases state <;> exact ih

/-- The calls are accepted exactly if they begin a word. -/
theorem exists_run_iff {steps : List RegionStep} :
    (∃ s, empty.run steps = .ok s) ↔ ∃ word, Derives .block word ∧ steps <+: word := by
  constructor
  · rintro ⟨s, hrun⟩
    refine ⟨steps ++ closing s.frames, ?_, List.prefix_append _ _⟩
    exact run_eq_empty_iff.mp (run_append_eq_ok.mpr ⟨s, hrun, run_closing s.frames⟩)
  · rintro ⟨_, hword, rest, rfl⟩
    obtain ⟨s, hrun, _⟩ := run_append_eq_ok.mp (run_eq_empty_iff.mpr hword)
    exact ⟨s, hrun⟩

end RegionStack

/-! ## Counting clauses -/

/-- Whether the call closes a frame. -/
def RegionCall.closes : RegionCall → Bool
  | .endBlock | .endScope => true
  | _ => false

/-- Follows the calls made since a region was opened: the number of frames open inside it, and the
calls made on the region itself. Nothing is left to follow once the region is closed. -/
def RegionStep.within : Nat × List RegionCall → RegionStep → Option (Nat × List RegionCall)
  | (nested, own), .openBlock _ | (nested, own), .openScope => some (nested + 1, own)
  | (0, own), .move call => if call.closes then none else some (0, own ++ [call])
  | (nested + 1, own), .move call =>
      if call.closes then some (nested, own) else some (nested + 1, own)

/-- The number of clauses and last parts that calls on one region open: one for each call, except
that a filter and the untyped catch after it are one clause together. -/
def clauseCount : List RegionCall → Nat
  | [] => 0
  | [_] => 1
  | call :: next :: rest =>
      (if call = .beginFilter ∧ next = .beginCatch false then 0 else 1) + clauseCount (next :: rest)

theorem clauseCount_append_singleton (own : List RegionCall) (call : RegionCall) :
    clauseCount (own ++ [call]) =
      clauseCount own +
        if own.getLast? = some .beginFilter ∧ call = .beginCatch false then 0 else 1 := by
  fun_induction clauseCount own with
  | case1 => simp [clauseCount]
  | case2 first => simp [clauseCount, Nat.add_comm]
  | case3 first next rest ih =>
      rw [List.getLast?_cons_cons, Nat.add_assoc, ← ih]
      rfl

/-- The block that the calls on a region lead to. -/
def stateAfter (own : List RegionCall) : BlockState :=
  (own.getLast?.map RegionCall.opens).getD .inTry

theorem stateAfter_append_singleton (own : List RegionCall) (call : RegionCall) :
    stateAfter (own ++ [call]) = call.opens := by
  simp [stateAfter]

theorem getLast?_of_stateAfter {own : List RegionCall} (h : stateAfter own = .inFilter) :
    own.getLast? = some .beginFilter := by
  unfold stateAfter at h
  cases hlast : own.getLast? with
  | none =>
      rw [hlast] at h
      cases h
  | some call =>
      rw [hlast] at h
      cases call <;> first | rfl | cases h

/-- A handler is counted unless it is that of a filter. -/
theorem clauseCount_of_allows {own : List RegionCall} {call : RegionCall}
    (h : (stateAfter own).allows call = true) (hend : call ≠ .endBlock) :
    clauseCount (own ++ [call]) =
      if stateAfter own = .inFilter then clauseCount own else clauseCount own + 1 := by
  rw [clauseCount_append_singleton]
  rcases BlockState.takesHandlers_or_filter h hend with hstate | ⟨hstate, rfl⟩
  · have hfilter : stateAfter own ≠ .inFilter := by
      rcases hstate with hstate | hstate <;> simp [hstate]
    have hlast : own.getLast? ≠ some .beginFilter := by
      intro hlast
      simp [stateAfter, hlast, RegionCall.opens] at hfilter
    simp [hfilter, hlast]
  · simp [hstate, getLast?_of_stateAfter hstate]

namespace RegionStack

/-- The frame with `nested` others inside it is an exception region. There is the call that opened
it, and `own` are the calls made on the region itself since then. -/
def Origin (steps : List RegionStep) (nested : Nat) (exit : Label) (own : List RegionCall) : Prop :=
  ∃ before inside, steps = before ++ .openBlock exit :: inside ∧
    inside.foldlM RegionStep.within (0, []) = some (nested, own)

theorem Origin.extend {steps : List RegionStep} {nested nested' : Nat} {exit : Label}
    {own own' : List RegionCall} {step : RegionStep} (h : Origin steps nested exit own)
    (hstep : RegionStep.within (nested, own) step = some (nested', own')) :
    Origin (steps ++ [step]) nested' exit own' := by
  obtain ⟨before, inside, rfl, hinside⟩ := h
  refine ⟨before, inside ++ [step], by simp, ?_⟩
  simp [List.foldlM_append, hinside, hstep]

/-- The frame with `nested` others inside it tells the block that the calls on its region have led
to, and the number of clauses that they have opened, up to a multiple of 2^32. -/
def Tells (steps : List RegionStep) (nested : Nat) : Frame → Prop
  | .scope => True
  | .exceptionBlock exit state handlers =>
      ∃ own, Origin steps nested exit own ∧ state = stateAfter own ∧
        handlers = (clauseCount own).toUInt32

/-- A call that is not made on the region itself leaves its frame as it is. -/
theorem Tells.elsewhere {steps : List RegionStep} {nested nested' : Nat} {frame : Frame}
    {step : RegionStep} (h : Tells steps nested frame)
    (hstep : ∀ own, RegionStep.within (nested, own) step = some (nested', own)) :
    Tells (steps ++ [step]) nested' frame := by
  cases frame with
  | scope => trivial
  | exceptionBlock exit state handlers =>
      obtain ⟨own, horigin, htold⟩ := h
      exact ⟨own, horigin.extend (hstep own), htold⟩

theorem Tells.move {steps : List RegionStep} {exit : Label} {state : BlockState} {handlers : UInt32}
    {call : RegionCall} (h : Tells steps 0 (.exceptionBlock exit state handlers))
    (hallows : state.allows call = true) (hend : call ≠ .endBlock) (hcloses : call.closes = false) :
    Tells (steps ++ [.move call]) 0
      (.exceptionBlock exit call.opens (if state = .inFilter then handlers else handlers + 1)) := by
  obtain ⟨own, horigin, rfl, rfl⟩ := h
  refine ⟨own ++ [call], horigin.extend (by simp [RegionStep.within, hcloses]), ?_, ?_⟩
  · rw [stateAfter_append_singleton]
  · rw [clauseCount_of_allows hallows hend]
    split
    · rfl
    · exact (toUInt32_succ _).symm

/-- If every frame tells of its region, it does so after one more call. -/
theorem tells_step {s t : RegionStack} {steps : List RegionStep} {step : RegionStep}
    (htells : ∀ nested frame, s.frames[nested]? = some frame → Tells steps nested frame)
    (hstep : s.perform step = .ok t) {nested : Nat} {frame : Frame}
    (hframe : t.frames[nested]? = some frame) : Tells (steps ++ [step]) nested frame := by
  cases step with
  | openBlock exit =>
      cases hstep
      cases nested with
      | zero =>
          cases hframe
          exact ⟨[], ⟨steps, [], rfl, rfl⟩, rfl, rfl⟩
      | succ nested => exact (htells nested frame hframe).elsewhere fun _ => rfl
  | openScope =>
      cases hstep
      cases nested with
      | zero =>
          cases hframe
          trivial
      | succ nested => exact (htells nested frame hframe).elsewhere fun _ => rfl
  | move call =>
      rcases move_cases hstep with ⟨rfl, hframes⟩ | ⟨rfl, _, _, _, _, hframes⟩ |
        ⟨hscope, hend, exit, state, handlers, outer, hallows, hframes, hafter⟩
      all_goals rw [hframes] at htells
      · exact (htells (nested + 1) frame hframe).elsewhere fun _ => rfl
      · exact (htells (nested + 1) frame hframe).elsewhere fun _ => rfl
      · have hcloses : call.closes = false := by
          cases call <;> first | rfl | exact absurd rfl hscope | exact absurd rfl hend
        rw [hafter] at hframe
        cases nested with
        | zero =>
            cases hframe
            exact (htells 0 _ rfl).move hallows hend hcloses
        | succ nested =>
            apply (htells (nested + 1) frame hframe).elsewhere
            simp [RegionStep.within, hcloses]

/-- Every open exception region was opened by a call that no other has closed, and its frame tells
of the calls made on it since. -/
theorem tells_of_run {steps : List RegionStep} {s : RegionStack} (h : empty.run steps = .ok s)
    {nested : Nat} {frame : Frame} (hframe : s.frames[nested]? = some frame) :
    Tells steps nested frame := by
  induction steps using List.reverseRecOn generalizing s nested frame with
  | nil =>
      cases h
      simp [empty] at hframe
  | append_singleton steps step ih =>
      obtain ⟨t, hbefore, hstep⟩ := run_append_eq_ok.mp h
      rw [run_singleton] at hstep
      exact tells_step (fun _ _ => ih hbefore) hstep hframe

/-- The calls on a stack of open regions are accepted and leave nothing open exactly if they are a
word of the grammar, and they are accepted exactly if they begin such a word. The frame of an open
exception region counts the clauses and last parts opened in it so far: there is the call that
opened it, and after it the calls on the region itself have opened that many. The count has 32 bits,
so it is right exactly as long as there are fewer than 2^32 of them. -/
theorem accepts_exactly_grammar (steps : List RegionStep) :
    (empty.run steps = .ok empty ↔ Derives .block steps) ∧
    ((∃ s, empty.run steps = .ok s) ↔ ∃ word, Derives .block word ∧ steps <+: word) ∧
    ∀ (s : RegionStack) (nested : Nat) (exit : Label) (state : BlockState) (handlers : UInt32),
      empty.run steps = .ok s → s.frames[nested]? = some (.exceptionBlock exit state handlers) →
      ∃ own, Origin steps nested exit own ∧ handlers = (clauseCount own).toUInt32 ∧
        (handlers.toNat = clauseCount own ↔ clauseCount own < 2 ^ 32) := by
  refine ⟨run_eq_empty_iff, exists_run_iff, ?_⟩
  intro s nested exit state handlers hrun hframe
  obtain ⟨own, horigin, _, rfl⟩ := tells_of_run hrun hframe
  refine ⟨own, horigin, rfl, fun hcount => ?_, toNat_toUInt32_of_lt⟩
  rw [← hcount]
  exact UInt32.toNat_lt _

/-- A filter with its handler, in which a region with a scope in its try block is open. The filter
and its handler are one clause; the typed catch before them is another. -/
theorem accepts_exactly_grammar_nested :
    let outer : Label := ⟨⟨1⟩, 0, 0, none⟩
    let inner : Label := ⟨⟨1⟩, 0, 1, none⟩
    let steps : List RegionStep :=
      [.openBlock outer, .move (.beginCatch true), .move .beginFilter, .openScope, .move .endScope,
        .move (.beginCatch false), .openBlock inner, .openScope, .move .endScope,
        .move .beginFinally]
    ¬Derives .block steps ∧ (∃ word, Derives .block word ∧ steps <+: word) ∧
      Derives .block (steps ++ [.move .endBlock, .move .endBlock]) ∧
      ∃ own, Origin steps 1 outer own ∧ (clauseCount own).toUInt32 = 2 := by
  intro outer inner steps
  have hrun : empty.run steps =
      .ok ⟨[.exceptionBlock inner .inFinally 1, .exceptionBlock outer .inCatch 2]⟩ := rfl
  refine ⟨?_, (accepts_exactly_grammar steps).2.1.mp ⟨_, hrun⟩,
    (accepts_exactly_grammar _).1.mp rfl, ?_⟩
  · intro hblock
    cases hrun.symm.trans ((accepts_exactly_grammar steps).1.mpr hblock)
  · obtain ⟨own, horigin, hcount, _⟩ :=
      (accepts_exactly_grammar steps).2.2 _ 1 outer .inCatch 2 hrun rfl
    exact ⟨own, horigin, hcount.symm⟩

/-! ## A region with more clauses than can be counted -/

/-- Every further catch block adds one to the count. -/
theorem run_replicate_catch (exit : Label) (handlers : UInt32) (outer : List Frame) (n : Nat) :
    run ⟨.exceptionBlock exit .inCatch handlers :: outer⟩
        (List.replicate n (.move (.beginCatch false))) =
      .ok ⟨.exceptionBlock exit .inCatch (handlers + n.toUInt32) :: outer⟩ := by
  induction n generalizing handlers with
  | zero => simp [run]
  | succ n ih =>
      have hcount : handlers + 1 + n.toUInt32 = handlers + (n + 1).toUInt32 := by
        rw [UInt32.add_assoc, UInt32.add_comm 1, toUInt32_succ]
      rw [List.replicate_succ, run, perform_move_of_allows rfl (by simp)]
      exact hcount ▸ ih (handlers + 1)

/-- A region with catch blocks only. -/
theorem run_catches (exit : Label) {n : Nat} (h : 0 < n) :
    empty.run (.openBlock exit :: (List.replicate n (.beginCatch false)).map .move) =
      .ok ⟨[.exceptionBlock exit .inCatch n.toUInt32]⟩ := by
  obtain ⟨n, rfl⟩ := Nat.exists_eq_add_one_of_ne_zero (Nat.ne_of_gt h)
  have hcount : (1 : UInt32) + n.toUInt32 = (n + 1).toUInt32 := by
    rw [UInt32.add_comm, toUInt32_succ]
  rw [List.map_replicate, List.replicate_succ, run]
  exact hcount ▸ run_replicate_catch exit 1 [] n

theorem clauseCount_replicate_catch (n : Nat) :
    clauseCount (List.replicate n (.beginCatch false)) = n := by
  induction n with
  | zero => rfl
  | succ n ih =>
      have hlast :
          (List.replicate n (RegionCall.beginCatch false)).getLast? ≠ some .beginFilter := by
        intro hfilter
        cases List.eq_of_mem_replicate (List.mem_of_getLast? hfilter)
      rw [List.replicate_succ', clauseCount_append_singleton, ih, if_neg fun h => hlast h.1]

/-- Calls that close nothing are all made on the region itself. -/
theorem foldlM_within_move {own : List RegionCall} (h : ∀ call ∈ own, call.closes = false)
    (before : List RegionCall) :
    (own.map RegionStep.move).foldlM RegionStep.within (0, before) = some (0, before ++ own) := by
  induction own generalizing before with
  | nil => simp
  | cons call own ih =>
      have hcall := h call List.mem_cons_self
      have hrest := ih (fun other hother => h other (List.mem_cons_of_mem _ hother))
        (before ++ [call])
      simpa [List.foldlM_cons, RegionStep.within, hcall] using hrest

/-- What follows the opening of a region in which nothing else is opened was called on the
region. -/
theorem origin_map_move_iff {own other : List RegionCall} (h : ∀ call ∈ own, call.closes = false)
    (exit : Label) : Origin (.openBlock exit :: own.map .move) 0 exit other ↔ other = own := by
  constructor
  · rintro ⟨before, inside, hsteps, hinside⟩
    cases before with
    | nil =>
        cases hsteps
        rw [foldlM_within_move h] at hinside
        cases hinside
        rfl
    | cons step before =>
        have hmem : RegionStep.openBlock exit ∈ own.map RegionStep.move := by
          rw [(List.cons.inj hsteps).2]
          simp
        obtain ⟨_, _, hmove⟩ := List.mem_map.mp hmem
        cases hmove
  · rintro rfl
    exact ⟨[], other.map .move, rfl, foldlM_within_move h []⟩

/-- A region with 2^32 catch blocks counts none. -/
theorem handlers_start_over :
    let exit : Label := ⟨⟨1⟩, 0, 0, none⟩
    let catches : List RegionCall := List.replicate (2 ^ 32) (.beginCatch false)
    let steps : List RegionStep := .openBlock exit :: catches.map .move
    empty.run steps = .ok ⟨[.exceptionBlock exit .inCatch 0]⟩ ∧
      (∀ own, Origin steps 0 exit own ↔ own = catches) ∧ clauseCount catches = 2 ^ 32 := by
  intro exit catches steps
  have hrun := run_catches exit (show 0 < 2 ^ 32 by decide)
  rw [show (2 ^ 32 : Nat).toUInt32 = 0 from rfl] at hrun
  refine ⟨hrun, fun own => ?_, clauseCount_replicate_catch (2 ^ 32)⟩
  apply origin_map_move_iff
  intro call hcall
  rw [List.eq_of_mem_replicate hcall]
  rfl

end RegionStack

end CilAssembler
