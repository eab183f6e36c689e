import CilAssembler.Proofs.OpDraft
import CilAssembler.Proofs.Rosters
import Mathlib.Data.List.Basic

/-! # Builders in step with the stream

The state of a builder that was given the calls of some recorded instructions: its code is made of
the drafts of the operations, its labels have the places that the stream gives them, and its open
regions are the open exception regions of the stream. -/

namespace CilAssembler

/-! ## Exits of open regions -/

/-- The end label of an exception region. -/
def Frame.exit? : Frame → Option Label
  | .exceptionBlock exit _ _ => some exit
  | .scope => none

namespace RegionStack

/-- The end labels of the open exception regions, innermost first. -/
def exits (s : RegionStack) : List Label :=
  s.frames.filterMap Frame.exit?

/-- A call that is not refused and does not close a region leaves the end labels as they are. -/
theorem exits_advance {s : RegionStack} {call : RegionCall} (h : s.check call = .ok ())
    (hcall : call ≠ .endBlock) : (s.advance call).exits = s.exits := by
  obtain ⟨frames⟩ := s
  cases frames with
  | nil => rfl
  | cons frame rest =>
      cases frame with
      | scope => cases call <;> rfl
      | exceptionBlock exit state handlers =>
          cases call with
          | endScope => cases h
          | endBlock => exact absurd rfl hcall
          | _ => rfl

/-- Closing an exception region takes away the innermost end label. -/
theorem exits_eq_cons {s : RegionStack} {exit : Label} (h : s.innermostExit? = some exit) :
    s.exits = exit :: (s.advance .endBlock).exits := by
  obtain ⟨frames⟩ := s
  cases frames with
  | nil => cases h
  | cons frame rest =>
      cases frame with
      | scope => cases h
      | exceptionBlock other state handlers =>
          cases h
          rfl

/-- A call on blocks is refused unless an exception region is open. -/
theorem exits_ne_nil {s : RegionStack} {call : RegionCall} (h : s.check call = .ok ())
    (hcall : call ≠ .endScope) : s.exits ≠ [] := by
  obtain ⟨frames⟩ := s
  cases frames with
  | nil => cases h
  | cons frame rest =>
      cases frame with
      | scope => cases call <;> first | exact absurd rfl hcall | cases h
      | exceptionBlock exit state handlers => exact List.cons_ne_nil _ _

end RegionStack

/-! ## Drafts of instructions -/

namespace Instruction

/-- The bytes of an instruction as long as displacements are open. -/
def draft (strings : StringHeap) : Instruction → List UInt8
  | .op o => o.draft strings
  | _ => []

@[simp] theorem length_draft (strings : StringHeap) (i : Instruction) :
    (i.draft strings).length = i.size := by
  cases i with
  | op o => exact o.length_draft strings
  | _ => rfl

theorem draft_of_op?_eq_none {i : Instruction} (h : i.op? = none) (strings : StringHeap) :
    i.draft strings = [] := by
  cases i with
  | op o => cases h
  | _ => rfl

end Instruction

theorem length_flatMap_draft (strings : StringHeap) (is : List Instruction) :
    (is.flatMap (Instruction.draft strings)).length = totalSize is := by
  induction is with
  | nil => rfl
  | cons i is ih =>
      rw [List.flatMap_cons, List.length_append, ih, Instruction.length_draft, totalSize_cons]

namespace BodyBuilder

/-! ## Code -/

/-- The code and the open displacements are those of the operations, and the heap knows every text
in them. -/
structure DraftsCode (is : List Instruction) (b : BodyBuilder) : Prop where
  code : b.code.toList = is.flatMap (Instruction.draft b.strings)
  branches : b.branches.toList =
    (Stream.ofInstructions is).ops.flatMap fun entry => entry.2.branchHoles entry.1
  tables : b.tables.toList =
    (Stream.ofInstructions is).ops.flatMap fun entry => entry.2.tableHoles entry.1
  strings : ∃ texts, b.strings.Holds texts
  known : ∀ (o : Op) (text : String), .op o ∈ is → o.operand = .string text →
    ∃ offset, b.strings.offsets[text]? = some offset

variable {is : List Instruction} {i : Instruction} {b b' : BodyBuilder}

theorem DraftsCode.size_code (h : b.DraftsCode is) : b.code.size = totalSize is := by
  rw [← Array.length_toList, h.code, length_flatMap_draft]

/-- Markers take no room. -/
theorem DraftsCode.marker (h : b.DraftsCode is) (hop : i.op? = none) (hcode : b'.code = b.code)
    (hbranches : b'.branches = b.branches) (htables : b'.tables = b.tables)
    (hstrings : b'.strings = b.strings) : b'.DraftsCode (is ++ [i]) := by
  have hops : (Stream.ofInstructions (is ++ [i])).ops = (Stream.ofInstructions is).ops := by
    rw [Stream.ofInstructions_append_singleton, Stream.ops_append, hop, Option.map_none,
      Option.toList_none, List.append_nil]
  constructor
  case code =>
    rw [hcode, hstrings, h.code, List.flatMap_append, List.flatMap_singleton,
      Instruction.draft_of_op?_eq_none hop, List.append_nil]
  case branches => rw [hbranches, h.branches, hops]
  case tables => rw [htables, h.tables, hops]
  case strings =>
    rw [hstrings]
    exact h.strings
  case known =>
    intro o text ho htext
    rw [hstrings]
    rcases List.mem_append.mp ho with hold | hnew
    · exact h.known o text hold htext
    · rw [← List.mem_singleton.mp hnew] at hop
      cases hop

/-- An operation that was written is added at the end. -/
theorem DraftsCode.op {o : Op} (h : b.DraftsCode is) (hwrites : Writes o b b') :
    b'.DraftsCode (is ++ [.op o]) := by
  have hops : (Stream.ofInstructions (is ++ [.op o])).ops =
      (Stream.ofInstructions is).ops ++ [(totalSize is, o)] := by
    rw [Stream.ofInstructions_append_singleton, Stream.ops_append, Stream.endOffset_ofInstructions]
    rfl
  constructor
  case code =>
    have hsame : is.flatMap (Instruction.draft b'.strings) =
        is.flatMap (Instruction.draft b.strings) := by
      apply List.flatMap_congr
      intro i hi
      cases i with
      | op p =>
          apply Op.draft_congr
          intro text htext
          obtain ⟨offset, hoffset⟩ := h.known p text hi htext
          rw [hoffset, hwrites.known text offset hoffset]
      | _ => rfl
    rw [hwrites.code, h.code, List.flatMap_append, List.flatMap_singleton, hsame]
    rfl
  case branches =>
    rw [hwrites.branches, h.branches, hops, List.flatMap_append, List.flatMap_singleton, h.size_code]
  case tables =>
    rw [hwrites.tables, h.tables, hops, List.flatMap_append, List.flatMap_singleton, h.size_code]
  case strings => exact hwrites.strings
  case known =>
    intro p text hp htext
    rcases List.mem_append.mp hp with hold | hnew
    · obtain ⟨offset, hoffset⟩ := h.known p text hold htext
      exact ⟨offset, hwrites.known text offset hoffset⟩
    · cases List.mem_singleton.mp hnew
      exact hwrites.text text htext

/-! ## Labels, locals and regions -/

/-- Every label of the stream has one in the builder, at the place that the stream gives it. -/
structure DraftsLabels (is : List Instruction) (b : BodyBuilder) : Prop where
  size : b.labels.size = (Books.ofInstructions is).labels.size
  room : b.labels.size ≤ 2 ^ 32
  placed : ∀ n, n < b.labels.size →
    b.labels[n]? = some (Stream.ofInstructions is).labelOffsets[n.toUInt32]?

/-- Every local of the stream has one in the builder, with its type. -/
structure DraftsLocals (is : List Instruction) (b : BodyBuilder) : Prop where
  locals : b.locals.toList =
    (Books.ofInstructions is).locals.toList.map fun v => ⟨v.type, v.pinned⟩
  room : b.locals.size ≤ 0xFFFF

/-- The open regions of the builder are the open exception regions of the stream. -/
def DraftsRegions (is : List Instruction) (b : BodyBuilder) : Prop :=
  b.regions.map (·.exit) = (Books.ofInstructions is).regions.exits.map Label.inBody

theorem DraftsLocals.size (h : b.DraftsLocals is) :
    b.locals.size = (Books.ofInstructions is).locals.size := by
  rw [← Array.length_toList, h.locals, List.length_map, Array.length_toList]

theorem DraftsLabels.unrelated (h : b.DraftsLabels is) (hdef : i.definedLabel? = none)
    (hplaced : i.placed? = none) (hlabels : b'.labels = b.labels) :
    b'.DraftsLabels (is ++ [i]) := by
  refine ⟨?_, ?_, ?_⟩
  · rw [hlabels, h.size, Books.size_labels_append_singleton, hdef]
    rfl
  · rw [hlabels]
    exact h.room
  · rw [hlabels, Stream.labelOffsets_of_not_placed hplaced]
    exact h.placed

theorem DraftsLabels.define {id : AssemblerId} {label : Label} (h : b.DraftsLabels is)
    (hrecorded : Recorded id is) (hdef : i.definedLabel? = some label)
    (hplaced : i.placed? = none) (hroom : b.labels.size < 2 ^ 32)
    (hlabels : b'.labels = b.labels.push none) : b'.DraftsLabels (is ++ [i]) := by
  refine ⟨?_, ?_, ?_⟩
  · rw [hlabels, Array.size_push, h.size, Books.size_labels_append_singleton, hdef]
    rfl
  · rw [hlabels, Array.size_push]
    exact hroom
  · intro n hn
    rw [hlabels, Array.size_push] at hn
    rw [hlabels, Stream.labelOffsets_of_not_placed hplaced, Array.getElem?_push]
    by_cases hlast : n = b.labels.size
    · rw [if_pos hlast, hrecorded.labelOffsets_of_fresh (hlast.trans h.size) (by omega)]
    · rw [if_neg hlast]
      exact h.placed n (by omega)

/-- A label that the stream may place has no place in the builder either. -/
theorem DraftsLabels.getElem?_of_unmarked {id : AssemblerId} {label : Label}
    (h : b.DraftsLabels is) (hrecorded : Recorded id is)
    (hunmarked : (Books.ofInstructions is).Unmarked label) :
    b.labels[label.index.toNat]? = some none := by
  have hlt := Recorded.index_lt_of_hasLabel hunmarked.hasLabel
  have hroom := h.room
  rw [h.size] at hroom
  rw [h.placed _ (h.size ▸ hlt)]
  have hindex : label.index.toNat.toUInt32 = label.index := by simp
  rw [hindex, hrecorded.labelOffsets_of_unmarked hroom hunmarked]

theorem DraftsLabels.place {label : Label} (h : b.DraftsLabels is) (hdef : i.definedLabel? = none)
    (hplaced : i.placed? = some label)
    (hlabels : b'.labels = b.labels.setIfInBounds label.index.toNat (some (totalSize is))) :
    b'.DraftsLabels (is ++ [i]) := by
  have hroom := h.room
  refine ⟨?_, ?_, ?_⟩
  · rw [hlabels, Array.size_setIfInBounds, h.size, Books.size_labels_append_singleton, hdef]
    rfl
  · rw [hlabels, Array.size_setIfInBounds]
    exact hroom
  · intro n hn
    rw [hlabels, Array.size_setIfInBounds] at hn
    rw [hlabels, Stream.labelOffsets_of_placed hplaced, Std.HashMap.getElem?_insert]
    by_cases hsame : label.index.toNat = n
    · subst hsame
      rw [Array.getElem?_setIfInBounds_self_of_lt hn]
      simp
    · have hne : (label.index == n.toUInt32) = false := by
        rw [beq_eq_false_iff_ne]
        intro heq
        rw [heq, toNat_toUInt32_of_lt (by omega)] at hsame
        exact hsame rfl
      rw [Array.getElem?_setIfInBounds_ne hsame, hne]
      exact h.placed n hn

theorem DraftsLocals.unrelated (h : b.DraftsLocals is) (hdef : i.declaredLocal? = none)
    (hlocals : b'.locals = b.locals) : b'.DraftsLocals (is ++ [i]) := by
  constructor
  · rw [hlocals, h.locals, Books.locals_ofInstructions, Books.locals_ofInstructions,
      List.filterMap_append, filterMap_singleton, hdef, Option.toList_none, List.append_nil]
  · rw [hlocals]
    exact h.room

theorem DraftsLocals.declare {v : Local} (h : b.DraftsLocals is) (hroom : b.locals.size < 0xFFFF)
    (hlocals : b'.locals = b.locals.push ⟨v.type, v.pinned⟩) :
    b'.DraftsLocals (is ++ [.declareLocal v]) := by
  constructor
  · rw [hlocals, Array.toList_push, h.locals, Books.locals_ofInstructions,
      Books.locals_ofInstructions, List.filterMap_append, List.map_append]
    rfl
  · rw [hlocals, Array.size_push]
    exact hroom

theorem DraftsRegions.unrelated (h : b.DraftsRegions is)
    (hexits : (Recorder.regionsAfter (Books.ofInstructions is).regions i).exits =
      (Books.ofInstructions is).regions.exits)
    (hregions : b'.regions.map (·.exit) = b.regions.map (·.exit)) :
    b'.DraftsRegions (is ++ [i]) := by
  rw [DraftsRegions, hregions, h, Books.regions_append_singleton, hexits]

end BodyBuilder

end CilAssembler
