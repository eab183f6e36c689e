import CilAssembler.Proofs.Rosters

/-! # References to handles

A call passes handles of labels and locals, and the recorder checks them in the order in which they
stand. `Refuses` and `Takes` say what that comes to for one handle: which calls fail because of it,
and which do not. -/

namespace CilAssembler

/-- A handle of a label or of a local. -/
inductive Handle where
  | label (label : Label)
  | localVar (v : Local)

namespace Handle

/-- Handles are the same if they are of one kind and the same there. -/
instance : BEq Handle where
  beq
    | .label a, .label b => a == b
    | .localVar a, .localVar b => a == b
    | _, _ => false

def owner : Handle → AssemblerId
  | .label target => target.owner
  | .localVar v => v.owner

/-- The error that reports a fault of the handle. -/
def error (fault : ReferenceFault) : Handle → Error
  | .label target => .invalidLabel target fault
  | .localVar v => .invalidLocal v fault

end Handle

theorem Local.beq_self (v : Local) : (v == v) = true := by
  change (v.sameSlot v && v.type == v.type && v.pinned == v.pinned) = true
  simp [sameSlot]

/-- The handles in an operand, in the order in which they are checked. -/
def Operand.handles : Operand Label Local → List Handle
  | .label target => [.label target]
  | .labels targets => targets.map .label
  | .localVar v => [.localVar v]
  | _ => []

namespace Call

/-- The handles that the caller passes. -/
def handles : Call → List Handle
  | .markLabel label => [.label label]
  | .emit _ x => x.handles
  | _ => []

/-- The handle that an accepted call gives back, if it gives one. -/
def handle? : (call : Call) → call.Reply → Option Handle
  | .defineLabel _, label => some (.label label)
  | .beginExceptionBlock, exit => some (.label exit)
  | .declareLocal _ _ _, v => some (.localVar v)
  | _, _ => none

end Call

/-- The handle that the instruction allocates, if it allocates one. -/
def Instruction.handle? : Instruction → Option Handle
  | .defineLabel label | .beginExceptionBlock label => some (.label label)
  | .declareLocal v => some (.localVar v)
  | _ => none

theorem label_mem_handles {is : List Instruction} {label : Label} :
    .label label ∈ is.filterMap Instruction.handle? ↔
      label ∈ is.filterMap Instruction.definedLabel? := by
  simp only [List.mem_filterMap]
  refine exists_congr fun i => and_congr_right fun _ => ?_
  cases i <;> simp [Instruction.handle?, Instruction.definedLabel?]

theorem localVar_mem_handles {is : List Instruction} {v : Local} :
    .localVar v ∈ is.filterMap Instruction.handle? ↔
      v ∈ is.filterMap Instruction.declaredLocal? := by
  simp only [List.mem_filterMap]
  refine exists_congr fun i => and_congr_right fun _ => ?_
  cases i <;> simp [Instruction.handle?, Instruction.declaredLocal?]

theorem Except.map_eq_error {ε α β : Type} {f : α → β} {x : Except ε α} {e : ε} :
    x.map f = .error e ↔ x = .error e := by
  cases x <;> simp [Except.map]

/-- Checks are made in order, and the first that fails is reported. -/
theorem forM_append_cons_eq_error {α : Type} {f : α → Except Error Unit} {earlier rest : List α}
    {x : α} {e : Error} (hearlier : ∀ y ∈ earlier, f y = .ok ()) (hx : f x = .error e) :
    forM (earlier ++ x :: rest) f = .error e := by
  induction earlier with
  | nil => simp [bind, Except.bind, hx]
  | cons y earlier ih =>
      have hy := hearlier y List.mem_cons_self
      have hrest := ih fun z hz => hearlier z (List.mem_cons_of_mem y hz)
      rw [List.cons_append, List.forM_cons, hy]
      exact hrest

theorem exists_of_forM_eq_error {α : Type} {f : α → Except Error Unit} {xs : List α} {e : Error}
    (h : forM xs f = .error e) : ∃ x ∈ xs, f x = .error e := by
  induction xs with
  | nil => cases h
  | cons x xs ih =>
      rw [List.forM_cons] at h
      cases hx : f x with
      | error e' =>
          rw [hx] at h
          cases h
          exact ⟨x, List.mem_cons_self, hx⟩
      | ok u =>
          rw [hx] at h
          obtain ⟨y, hy, hfails⟩ := ih h
          exact ⟨y, List.mem_cons_of_mem x hy, hfails⟩

namespace Recorder

/-! ## Checking one handle -/

/-- Checks that a handle is valid here. -/
def checkHandle (r : Recorder) : Handle → Except Error Unit
  | .label label => r.checkLabel label
  | .localVar v => r.checkLocal v

theorem checkReferences_eq (r : Recorder) (x : Operand Label Local) :
    r.checkReferences x = forM x.handles r.checkHandle := by
  cases x with
  | label target =>
      rw [Operand.handles, List.forM_cons]
      simp only [checkReferences, checkHandle]
      cases r.checkLabel target <;> rfl
  | labels targets => simp [checkReferences, Operand.handles, checkHandle]
  | localVar v =>
      rw [Operand.handles, List.forM_cons]
      simp only [checkReferences, checkHandle]
      cases r.checkLocal v <;> rfl
  | _ => rfl

theorem checkHandle_of_foreign {r : Recorder} {handle : Handle} (h : handle.owner ≠ r.id) :
    r.checkHandle handle = .error (handle.error .foreign) := by
  cases handle with
  | label label =>
      have howner : label.owner ≠ r.id := h
      simp [checkHandle, checkLabel, labelSlot, howner, Except.map, Handle.error]
  | localVar v =>
      have howner : v.owner ≠ r.id := h
      simp [checkHandle, checkLocal, howner, Handle.error]

/-- A recorder refuses a handle of its own as discarded, unless a local in its slot says otherwise
about the type. -/
theorem checkHandle_cases {r : Recorder} {handle : Handle} (h : handle.owner = r.id) :
    r.checkHandle handle = .ok () ∨ r.checkHandle handle = .error (handle.error .invalidated) ∨
    ∃ v slot, handle = .localVar v ∧ r.locals[v.index.toNat]? = some slot ∧
      slot.sameSlot v = true := by
  cases handle with
  | label label =>
      have howner : label.owner = r.id := h
      simp only [checkHandle, checkLabel, labelSlot, howner, if_true, Handle.error]
      cases r.labels[label.index.toNat]? with
      | none => exact .inr (.inl rfl)
      | some slot =>
          by_cases hsame : (slot.label == label) = true
          · exact .inl (by simp [hsame, Except.map])
          · exact .inr (.inl (by simp [hsame, Except.map]))
  | localVar v =>
      have howner : v.owner = r.id := h
      simp only [checkHandle, checkLocal, howner, if_true, Handle.error]
      cases hslot : r.locals[v.index.toNat]? with
      | none => exact .inr (.inl rfl)
      | some slot =>
          by_cases hsame : (slot == v) = true
          · exact .inl (by simp [hsame])
          · by_cases hplace : slot.sameSlot v = true
            · exact .inr (.inr ⟨v, slot, rfl, hslot, hplace⟩)
            · exact .inr (.inl (by simp [hsame, hplace]))

theorem checkMark_of_error {r : Recorder} {label : Label} {e : Error}
    (h : r.checkLabel label = .error e) : r.checkMark label = .error e := by
  have hslot := Except.map_eq_error.mp h
  simp [checkMark, hslot]

/-- A valid label can be marked once. -/
theorem checkMark_of_ok {r : Recorder} {label : Label} (h : r.checkLabel label = .ok ()) :
    r.checkMark label = if r.isMarked label then .error (.invalidLabel label .alreadyMarked)
      else .ok () := by
  obtain ⟨slot, hslot, _⟩ := Except.map_eq_ok.mp h
  simp [checkMark, isMarked, hslot]

/-! ## What the check of a handle means for calls -/

/-- The handle is not valid, for the given reason. Every call that comes to check it reports so and
changes nothing: a mark, and an operation whose operand fits and holds no other invalid handle
before this one. -/
structure Refuses (r : Recorder) (handle : Handle) (fault : ReferenceFault) : Prop where
  check : r.checkHandle handle = .error (handle.error fault)
  mark : ∀ label, handle = .label label →
    r.perform (.markLabel label) = (.error (handle.error fault), r)
  emit : ∀ code x o earlier rest, Op.make code x = .ok o → x.handles = earlier ++ handle :: rest →
    (∀ other ∈ earlier, r.checkHandle other = .ok ()) →
    r.perform (.emit code x) = (.error (handle.error fault), r)

/-- The handle is valid, so no call fails because of it. A mark is accepted unless the label is
placed already; an operation whose operand fits and holds no invalid handle is accepted if there is
room for it. -/
structure Takes (r : Recorder) (handle : Handle) : Prop where
  check : r.checkHandle handle = .ok ()
  mark : ∀ label, handle = .label label → r.perform (.markLabel label) =
    if r.isMarked label then (.error (.invalidLabel label .alreadyMarked), r)
    else (.ok (), r.record (.markLabel label))
  emit : ∀ code x o, Op.make code x = .ok o →
    (∀ other ∈ x.handles, other ≠ handle → r.checkHandle other = .ok ()) →
    r.perform (.emit code x) = if r.stream.endOffset + o.size ≤ offsetLimit
      then (.ok (), r.record (.op o))
      else (.error (.malformed (.bodyOverflow code r.stream.endOffset)), r)

theorem refuses_of_check {r : Recorder} {handle : Handle} {fault : ReferenceFault}
    (h : r.checkHandle handle = .error (handle.error fault)) : r.Refuses handle fault := by
  refine ⟨h, ?_, ?_⟩
  · rintro label rfl
    have hmark : r.checkMark label = .error (.invalidLabel label fault) := checkMark_of_error h
    simp [perform, prepare, hmark, Except.map, Handle.error]
  · intro code x o earlier rest hmake hhandles hearlier
    have hrefs : r.checkReferences x = .error (handle.error fault) := by
      rw [checkReferences_eq, hhandles]
      exact forM_append_cons_eq_error hearlier h
    simp [perform, prepare, checkOp, hmake, hrefs, Except.map]

theorem takes_of_check {r : Recorder} {handle : Handle} (h : r.checkHandle handle = .ok ()) :
    r.Takes handle := by
  refine ⟨h, ?_, ?_⟩
  · rintro label rfl
    have hmark := checkMark_of_ok h
    by_cases hmarked : r.isMarked label = true
    · simp [perform, prepare, hmark, hmarked, Except.map]
    · simp [perform, prepare, hmark, hmarked, Except.map]
  · intro code x o hmake hothers
    have hrefs : r.checkReferences x = .ok () := by
      rw [checkReferences_eq]
      apply forM_eq_ok.mpr
      intro other hother
      by_cases hsame : other = handle
      · rw [hsame, h]
      · exact hothers other hother hsame
    by_cases hroom : r.stream.endOffset + o.size ≤ offsetLimit
    · simp [perform, prepare, checkOp, hmake, hrefs, hroom, Except.map]
    · simp [perform, prepare, checkOp, hmake, hrefs, hroom, Except.map]

/-! ## Reported errors -/

/-- A label has no type, so it cannot contradict its slot. -/
theorem checkLabel_eq_error {r : Recorder} {label : Label} {e : Error}
    (h : r.checkLabel label = .error e) :
    ∃ fault, fault ≠ .mismatched ∧ e = .invalidLabel label fault := by
  have hcheck : r.checkHandle (.label label) = .error e := h
  by_cases howner : (Handle.label label).owner = r.id
  · rcases checkHandle_cases howner with hok | hinvalidated | ⟨_, _, ⟨⟩, _⟩
    · cases hok.symm.trans hcheck
    · cases hinvalidated.symm.trans hcheck
      exact ⟨.invalidated, by simp, rfl⟩
  · cases (checkHandle_of_foreign howner).symm.trans hcheck
    exact ⟨.foreign, by simp, rfl⟩

theorem checkHandle_eq_error {r : Recorder} {handle : Handle} {e : Error}
    (h : r.checkHandle handle = .error e) : ∃ fault, e = handle.error fault := by
  cases handle with
  | label label =>
      obtain ⟨fault, _, he⟩ := checkLabel_eq_error h
      exact ⟨fault, he⟩
  | localVar v =>
      simp only [checkHandle, checkLocal] at h
      split at h
      · split at h
        · split at h
          · cases h
          · cases h
            exact ⟨_, rfl⟩
        · cases h
          exact ⟨_, rfl⟩
      · cases h
        exact ⟨_, rfl⟩

theorem checkMark_eq_error {r : Recorder} {label : Label} {e : Error}
    (h : r.checkMark label = .error e) :
    ∃ fault, fault ≠ .mismatched ∧ e = .invalidLabel label fault := by
  cases hcheck : r.checkLabel label with
  | error e' =>
      rw [checkMark_of_error hcheck] at h
      cases h
      exact checkLabel_eq_error hcheck
  | ok u =>
      rw [checkMark_of_ok hcheck] at h
      split at h
      · cases h
        exact ⟨.alreadyMarked, by simp, rfl⟩
      · cases h

/-- The errors with which a call can be refused. A handle is only blamed if the caller passed it;
the others stand for what is wrong with a label to be placed, an operand or a region. -/
inductive Reports (r : Recorder) (call : Call) : Error → Prop where
  | passed {handle : Handle} {e : Error} (hpassed : handle ∈ call.handles)
      (hcheck : r.checkHandle handle = .error e) : Reports r call e
  | place (label : Label) {fault : ReferenceFault} (hfault : fault ≠ .mismatched) :
      Reports r call (.invalidLabel label fault)
  | operand (code : Opcode) (kind : OperandKind) (found : String) :
      Reports r call (.operandMismatch code kind found)
  | table (count : Nat) : Reports r call (.malformed (.tooManySwitchTargets count))
  | size (code : Opcode) : Reports r call (.sizeTableGap code)
  | room (code : Opcode) (offset : Nat) : Reports r call (.malformed (.bodyOverflow code offset))
  | region (operation : RegionOperation) (fault : RegionFault) :
      Reports r call (.regionViolation operation fault)

theorem reports_of_make {code : Opcode} {x : Operand Label Local} {e : Error}
    (h : Op.make code x = .error e) (r : Recorder) (call : Call) : r.Reports call e := by
  unfold Op.make at h
  split at h
  · split at h
    · cases h
    · rename_i hsize
      cases h
      have hoperand := Except.map_eq_error.mp hsize
      unfold operandSize switchTableSize at hoperand
      split at hoperand
      · split at hoperand
        · cases hoperand
        · cases hoperand
          exact .table _
      · split at hoperand
        · cases hoperand
        · cases hoperand
          exact .size _
  · cases h
    exact .operand _ _ _

theorem reports_of_checkOp {r : Recorder} {code : Opcode} {x : Operand Label Local} {e : Error}
    (h : r.checkOp code x = .error e) : r.Reports (.emit code x) e := by
  unfold checkOp at h
  split at h
  · rename_i hmake
    cases h
    exact reports_of_make hmake r _
  · split at h
    · rename_i hrefs
      cases h
      rw [checkReferences_eq] at hrefs
      obtain ⟨handle, hpassed, hcheck⟩ := exists_of_forM_eq_error hrefs
      exact .passed hpassed hcheck
    · split at h
      · cases h
      · cases h
        exact .room _ _

theorem reports_of_check {s : RegionStack} {move : RegionCall} {e : Error}
    (h : s.check move = .error e) (r : Recorder) (call : Call) : r.Reports call e := by
  unfold RegionStack.check at h
  split at h
  · cases h
    exact .region _ _
  · cases h

theorem reports_of_checkMark {r : Recorder} {label : Label} {e : Error}
    (h : r.checkMark label = .error e) (call : Call) : r.Reports call e := by
  obtain ⟨fault, hfault, rfl⟩ := checkMark_eq_error h
  exact .place label hfault

theorem reports_of_checkEnd {r : Recorder} {e : Error} (h : r.checkEnd = .error e) (call : Call) :
    r.Reports call e := by
  unfold checkEnd at h
  split at h
  · rename_i hcheck
    cases h
    exact reports_of_check hcheck r call
  · split at h
    · exact reports_of_checkMark (Except.map_eq_error.mp h) call
    · cases h
      exact .region _ _

theorem reports_of_prepare {r : Recorder} {call : Call} {e : Error}
    (h : r.prepare call = .error e) : r.Reports call e := by
  cases call with
  | defineLabel | declareLocal | beginExceptionBlock | beginScope => cases h
  | markLabel label => exact reports_of_checkMark (Except.map_eq_error.mp h) _
  | emit code x => exact reports_of_checkOp (Except.map_eq_error.mp h)
  | endExceptionBlock => exact reports_of_checkEnd (Except.map_eq_error.mp h) _
  | beginCatchBlock | beginExceptFilterBlock | beginFinallyBlock | beginFaultBlock | endScope =>
      exact reports_of_check (Except.map_eq_error.mp h) r _

end Recorder

end CilAssembler
