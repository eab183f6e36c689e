import CilAssembler.Proofs.Rosters

/-! # Relabeled sessions

Handles and members may be replaced by others throughout a session. As long as labels and locals
keep their indices, a relabeled line has the same size and stands at the same offset, and it changes
the relabeled books as the line changes the books. -/

namespace CilAssembler

/-- Replacements for labels, locals and members. Labels and locals keep their indices. -/
structure Relabeling where
  label : Label → Label
  localVar : Local → Local
  member : Member → Member
  index_label : ∀ target, (label target).index = target.index
  index_localVar : ∀ v, (localVar v).index = v.index

attribute [simp] Relabeling.index_label Relabeling.index_localVar

/-! ## Operands and instructions -/

namespace Operand

variable {Λ V Λ' V' : Type}

/-- The operand with everything it refers to replaced. -/
def map (f : Λ → Λ') (g : V → V') (m : Member → Member) : Operand Λ V → Operand Λ' V'
  | .none => .none
  | .int8 value => .int8 value
  | .uint8 value => .uint8 value
  | .uint16 value => .uint16 value
  | .int32 value => .int32 value
  | .int64 value => .int64 value
  | .float32 bits => .float32 bits
  | .float64 bits => .float64 bits
  | .string text => .string text
  | .label target => .label (f target)
  | .labels targets => .labels (targets.map f)
  | .localVar v => .localVar (g v)
  | .field member => .field (m member)
  | .constructor member => .constructor (m member)
  | .method member => .method (m member)
  | .type member => .type (m member)

section Map

variable (f : Λ → Λ') (g : V → V') (m : Member → Member) (x : Operand Λ V)

@[simp] theorem suits_map (kind : OperandKind) : (x.map f g m).suits kind = x.suits kind := by
  cases x <;> cases kind <;> rfl

@[simp] theorem targets_map : (x.map f g m).targets = x.targets.map f := by
  cases x <;> rfl

@[simp] theorem instructionSize_map (code : Opcode) :
    instructionSize code (x.map f g m) = instructionSize code x := by
  unfold instructionSize operandSize
  generalize code.kind = kind
  cases x <;> cases kind <;> simp [map]

end Map

/-- The operand with relabeled handles and members. -/
def relabel (ρ : Relabeling) (x : Operand Label Local) : Operand Label Local :=
  x.map ρ.label ρ.localVar ρ.member

variable (ρ : Relabeling) (x : Operand Label Local)

@[simp] theorem fits_relabel (kind : OperandKind) : (x.relabel ρ).fits kind = x.fits kind := by
  have hindex : (x.relabel ρ).indexFits kind = x.indexFits kind := by
    cases x <;> cases kind <;> simp [relabel, map, indexFits]
  rw [fits, hindex, relabel, suits_map, fits]

@[simp] theorem describe_relabel : (x.relabel ρ).describe = x.describe := by
  cases x <;> simp [relabel, map, describe, category]

end Operand

/-- The operation with relabeled handles and members. -/
def Op.relabel (ρ : Relabeling) (o : Op) : Op where
  code := o.code
  operand := o.operand.relabel ρ
  size := o.size
  fits := (o.operand.fits_relabel ρ o.code.kind).trans o.fits
  size_eq := (o.operand.instructionSize_map _ _ _ o.code).trans o.size_eq

theorem Op.targets_relabel (ρ : Relabeling) (o : Op) :
    (o.relabel ρ).operand.targets = o.operand.targets.map ρ.label :=
  o.operand.targets_map _ _ _

namespace Instruction

/-- The instruction with relabeled handles and members. -/
def relabel (ρ : Relabeling) : Instruction → Instruction
  | .op o => .op (o.relabel ρ)
  | .defineLabel label => .defineLabel (ρ.label label)
  | .markLabel label => .markLabel (ρ.label label)
  | .declareLocal v => .declareLocal (ρ.localVar v)
  | .beginExceptionBlock exit => .beginExceptionBlock (ρ.label exit)
  | .beginCatchBlock type => .beginCatchBlock (type.map ρ.member)
  | .beginExceptFilterBlock => .beginExceptFilterBlock
  | .beginFinallyBlock => .beginFinallyBlock
  | .beginFaultBlock => .beginFaultBlock
  | .endExceptionBlock exit => .endExceptionBlock (ρ.label exit)
  | .beginScope => .beginScope
  | .endScope => .endScope

/-- The local in the instruction, allocated or referred to. -/
def localVar? : Instruction → Option Local
  | .declareLocal v => some v
  | .op ⟨_, .localVar v, _, _, _⟩ => some v
  | _ => none

variable (ρ : Relabeling) (i : Instruction)

@[simp] theorem size_relabel : (i.relabel ρ).size = i.size := by
  cases i <;> rfl

@[simp] theorem name_relabel : (i.relabel ρ).name = i.name := by
  cases i <;> rfl

@[simp] theorem definedLabel?_relabel : (i.relabel ρ).definedLabel? = i.definedLabel?.map ρ.label := by
  cases i <;> rfl

@[simp] theorem declaredLocal?_relabel :
    (i.relabel ρ).declaredLocal? = i.declaredLocal?.map ρ.localVar := by
  cases i <;> rfl

@[simp] theorem placed?_relabel : (i.relabel ρ).placed? = i.placed?.map ρ.label := by
  cases i <;> rfl

@[simp] theorem regionCall?_relabel : (i.relabel ρ).regionCall? = i.regionCall? := by
  cases i with
  | beginCatchBlock type => simp [relabel, regionCall?]
  | _ => rfl

@[simp] theorem labelsUsed_relabel : (i.relabel ρ).labelsUsed = i.labelsUsed.map ρ.label := by
  cases i with
  | op o => exact o.targets_relabel ρ
  | _ => rfl

@[simp] theorem localVar?_relabel : (i.relabel ρ).localVar? = i.localVar?.map ρ.localVar := by
  cases i with
  | op o =>
      obtain ⟨code, operand, size, fits, size_eq⟩ := o
      cases operand <;> rfl
  | _ => rfl

@[simp] theorem op?_relabel : (i.relabel ρ).op? = i.op?.map (·.relabel ρ) := by
  cases i <;> rfl

/-- Relabeled lines allocate the relabeled labels. -/
theorem filterMap_definedLabel?_relabel (is : List Instruction) :
    (is.map (·.relabel ρ)).filterMap definedLabel? = (is.filterMap definedLabel?).map ρ.label := by
  simp only [List.filterMap_map, List.map_filterMap, Function.comp_def, definedLabel?_relabel]

/-- Relabeled lines allocate the relabeled locals. -/
theorem filterMap_declaredLocal?_relabel (is : List Instruction) :
    (is.map (·.relabel ρ)).filterMap declaredLocal? =
      (is.filterMap declaredLocal?).map ρ.localVar := by
  simp only [List.filterMap_map, List.map_filterMap, Function.comp_def, declaredLocal?_relabel]

end Instruction

/-! ## Streams -/

/-- The line with relabeled handles and members. -/
def Line.relabel (ρ : Relabeling) (line : Line) : Line :=
  { line with instruction := line.instruction.relabel ρ }

namespace Stream

/-- The stream with relabeled handles and members. -/
def relabel (ρ : Relabeling) (s : Stream) : Stream :=
  { s with lines := s.lines.map (·.relabel ρ) }

variable (ρ : Relabeling) (s : Stream)

@[simp] theorem length_relabel : (s.relabel ρ).length = s.length := by
  simp [length, relabel]

theorem relabel_append (i : Instruction) :
    (s.append i).relabel ρ = (s.relabel ρ).append (i.relabel ρ) := by
  simp [relabel, append, Line.relabel]

theorem relabel_ofInstructions (is : List Instruction) :
    (ofInstructions is).relabel ρ = ofInstructions (is.map (·.relabel ρ)) := by
  induction is using List.reverseRecOn with
  | nil => simp [relabel, empty]
  | append_singleton is i ih =>
      rw [List.map_append, List.map_singleton, ofInstructions_append_singleton,
        ofInstructions_append_singleton, relabel_append, ih]

/-- Labels keep their offsets, since they are found by their indices. -/
theorem labelOffsets_relabel : (s.relabel ρ).labelOffsets = s.labelOffsets := by
  simp only [labelOffsets, relabel, Array.foldl_map]
  congr 1
  funext offsets line
  simp only [Line.relabel, Instruction.placed?_relabel]
  cases line.instruction.placed? with
  | none => rfl
  | some label => simp only [Option.map_some, ρ.index_label]

theorem ops_relabel :
    (s.relabel ρ).ops = s.ops.map fun entry => (entry.1, entry.2.relabel ρ) := by
  simp only [ops, relabel, Array.toList_map, List.filterMap_map, List.map_filterMap,
    Function.comp_def, Line.relabel, Instruction.op?_relabel, Option.map_map]

end Stream

/-! ## What a line shows of itself -/

/-- Where a line stands, how long it is, what it does, and the indices of the labels and locals in
it. -/
structure Outline where
  offset : Nat
  size : Nat
  mnemonic : String
  labels : List UInt32
  locals : List UInt32

/-- What the line shows apart from names. -/
def Line.outline (line : Line) : Outline where
  offset := line.offset
  size := line.size
  mnemonic := line.instruction.name
  labels := (line.instruction.definedLabel?.map (·.index)).toList ++
    line.instruction.labelsUsed.map (·.index)
  locals := (line.instruction.localVar?.map (·.index)).toList

/-- The outlines of the lines, and the offset after them. -/
def Stream.outline (s : Stream) : List Outline × Nat :=
  (s.lines.toList.map (·.outline), s.endOffset)

theorem Line.outline_relabel (ρ : Relabeling) (line : Line) :
    (line.relabel ρ).outline = line.outline := by
  simp [outline, relabel, size, Function.comp_def]

theorem Stream.outline_relabel (ρ : Relabeling) (s : Stream) : (s.relabel ρ).outline = s.outline := by
  simp [outline, relabel, Line.outline_relabel]

/-! ## Regions and rosters -/

/-- The open region with a relabeled end label. -/
def Frame.relabel (ρ : Relabeling) : Frame → Frame
  | .exceptionBlock exit state handlers => .exceptionBlock (ρ.label exit) state handlers
  | .scope => .scope

namespace RegionStack

/-- The open regions with relabeled end labels. -/
def relabel (ρ : Relabeling) (s : RegionStack) : RegionStack :=
  ⟨s.frames.map (·.relabel ρ)⟩

variable (ρ : Relabeling) (s : RegionStack)

@[simp] theorem check_relabel (call : RegionCall) : (s.relabel ρ).check call = s.check call := by
  have hfault : (s.relabel ρ).fault? call = s.fault? call := by
    obtain ⟨frames⟩ := s
    cases frames with
    | nil => rfl
    | cons frame rest => cases frame <;> cases call <;> rfl
  rw [check, hfault, check]

theorem innermostExit?_relabel : (s.relabel ρ).innermostExit? = s.innermostExit?.map ρ.label := by
  obtain ⟨frames⟩ := s
  cases frames with
  | nil => rfl
  | cons frame rest => cases frame <;> rfl

theorem advance_relabel (call : RegionCall) :
    (s.relabel ρ).advance call = (s.advance call).relabel ρ := by
  obtain ⟨frames⟩ := s
  cases frames with
  | nil => rfl
  | cons frame rest => cases frame <;> cases call <;> rfl

theorem regionsAfter_relabel (i : Instruction) :
    Recorder.regionsAfter (s.relabel ρ) (i.relabel ρ) = (Recorder.regionsAfter s i).relabel ρ := by
  cases i with
  | beginCatchBlock type =>
      simp only [Instruction.relabel, Recorder.regionsAfter, Option.isSome_map, advance_relabel]
  | beginExceptFilterBlock | beginFinallyBlock | beginFaultBlock | endExceptionBlock | endScope =>
      exact advance_relabel ρ s _
  | _ => rfl

end RegionStack

/-- The slot with a relabeled label. -/
def LabelSlot.relabel (ρ : Relabeling) (slot : LabelSlot) : LabelSlot :=
  { slot with label := ρ.label slot.label }

namespace Recorder

variable (ρ : Relabeling)

theorem labelsAfter_relabel (labels : Array LabelSlot) (line : Nat) (i : Instruction) :
    labelsAfter (labels.map (·.relabel ρ)) line (i.relabel ρ) =
      (labelsAfter labels line i).map (·.relabel ρ) := by
  -- A label is marked by its index, which it keeps.
  have hmodify : ∀ n, (labels.map (·.relabel ρ)).modify n (fun slot => { slot with mark := some line }) =
      (labels.modify n fun slot => { slot with mark := some line }).map (·.relabel ρ) := by
    intro n
    apply Array.ext_getElem?
    intro k
    simp only [Array.getElem?_modify, Array.getElem?_map]
    split <;> cases labels[k]? <;> rfl
  cases i with
  | defineLabel | beginExceptionBlock => simp [labelsAfter, Instruction.relabel, LabelSlot.relabel]
  | markLabel | endExceptionBlock =>
      simp only [labelsAfter, Instruction.relabel, ρ.index_label, hmodify]
  | _ => rfl

theorem localsAfter_relabel (locals : Array Local) (i : Instruction) :
    localsAfter (locals.map ρ.localVar) (i.relabel ρ) = (localsAfter locals i).map ρ.localVar := by
  cases i with
  | declareLocal v => simp [localsAfter, Instruction.relabel]
  | _ => rfl

end Recorder

namespace Books

/-- The books with relabeled handles and members. -/
def relabel (ρ : Relabeling) (b : Books) : Books where
  stream := b.stream.relabel ρ
  labels := b.labels.map (·.relabel ρ)
  locals := b.locals.map ρ.localVar
  regions := b.regions.relabel ρ

variable (ρ : Relabeling)

/-- Relabeling a line and entering it can be done in either order. -/
theorem relabel_enter (b : Books) (i : Instruction) :
    (b.enter i).relabel ρ = (b.relabel ρ).enter (i.relabel ρ) := by
  simp only [enter, relabel, Stream.relabel_append, Recorder.labelsAfter_relabel,
    Recorder.localsAfter_relabel, RegionStack.regionsAfter_relabel, Stream.length_relabel]

/-- The books of relabeled lines are the relabeled books of the lines. -/
theorem relabel_ofInstructions (is : List Instruction) :
    (ofInstructions is).relabel ρ = ofInstructions (is.map (·.relabel ρ)) := by
  induction is using List.reverseRecOn with
  | nil =>
      simp [relabel, empty, Stream.relabel, Stream.empty, RegionStack.relabel, RegionStack.empty]
  | append_singleton is i ih =>
      rw [List.map_append, List.map_singleton, ofInstructions_append_singleton,
        ofInstructions_append_singleton, relabel_enter, ih]

end Books

namespace Recorder

variable (ρ : Relabeling)

/-- The session of another assembler with relabeled handles and members. -/
def relabel (id : AssemblerId) (r : Recorder) : Recorder :=
  { r with
    id := id
    stream := r.stream.relabel ρ
    labels := r.labels.map (·.relabel ρ)
    locals := r.locals.map ρ.localVar
    regions := r.regions.relabel ρ }

/-- Relabeling a line and recording it can be done in either order. -/
theorem relabel_record (id : AssemblerId) (r : Recorder) (i : Instruction) :
    (r.record i).relabel ρ id = (r.relabel ρ id).record (i.relabel ρ) := by
  simp only [relabel, record, Stream.relabel_append, labelsAfter_relabel, localsAfter_relabel,
    RegionStack.regionsAfter_relabel, Stream.length_relabel]

theorem find?_flatMap_relabel {p q : Label → Bool} {f g : Nat × Op → List Label}
    (hlabel : ∀ label, p (ρ.label label) = q label)
    (hentry : ∀ entry, f (entry.1, entry.2.relabel ρ) = (g entry).map ρ.label)
    (entries : List (Nat × Op)) :
    ((entries.map fun entry => (entry.1, entry.2.relabel ρ)).flatMap f).find? p =
      ((entries.flatMap g).find? q).map ρ.label := by
  have hpredicate : p ∘ ρ.label = q := funext hlabel
  simp only [List.flatMap_map, hentry]
  rw [← List.map_flatMap, List.find?_map, hpredicate]

theorem unmarkedTarget?_relabel (id : AssemblerId) (r : Recorder) :
    (r.relabel ρ id).unmarkedTarget? = r.unmarkedTarget?.map ρ.label := by
  have hops : (r.relabel ρ id).stream.ops =
    r.stream.ops.map fun entry => (entry.1, entry.2.relabel ρ) := Stream.ops_relabel ρ r.stream
  unfold unmarkedTarget?
  rw [hops]
  refine find?_flatMap_relabel ρ (fun label => ?_) (fun entry => ?_) r.stream.ops
  · simp only [relabel, ρ.index_label, Array.getElem?_map]
    cases r.labels[label.index.toNat]? <;> rfl
  · exact entry.2.targets_relabel ρ

end Recorder

end CilAssembler
