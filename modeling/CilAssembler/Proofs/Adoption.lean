import CilAssembler.Listing
import CilAssembler.Proofs.Relabeling

/-! # Adopted streams

A stream whose handles belong to another owner. Apart from the owner and the revision of its handles
nothing changes: neither the offsets nor the listing, nor what the books say about it. Adopting is one
way of relabeling. -/

namespace CilAssembler

/-! ## Handles, operands and lines -/

/-- The label as the first revision of another owner has it. -/
def Label.adopt (id : AssemblerId) (label : Label) : Label :=
  { label with owner := id, revision := 0 }

/-- The local as the first revision of another owner has it. -/
def Local.adopt (id : AssemblerId) (v : Local) : Local :=
  { v with owner := id, revision := 0 }

/-- Replaces handles by adopted ones. -/
def Relabeling.adopting (id : AssemblerId) : Relabeling where
  label := Label.adopt id
  localVar := Local.adopt id
  member member := member
  index_label _ := rfl
  index_localVar _ := rfl

/-- The operand with adopted handles. -/
abbrev Operand.adopt (id : AssemblerId) (x : Operand Label Local) : Operand Label Local :=
  x.relabel (.adopting id)

/-- The instruction with adopted handles. -/
abbrev Instruction.adopt (id : AssemblerId) (i : Instruction) : Instruction :=
  i.relabel (.adopting id)

/-- The stream with adopted handles. -/
abbrev Stream.adopt (id : AssemblerId) (s : Stream) : Stream :=
  s.relabel (.adopting id)

/-- The books with adopted handles. -/
abbrev Books.adopt (id : AssemblerId) (b : Books) : Books :=
  b.relabel (.adopting id)

theorem Operand.adopt_adopt (id id' : AssemblerId) (x : Operand Label Local) :
    (x.adopt id).adopt id' = x.adopt id' := by
  cases x with
  | labels targets => simp [relabel, map, Relabeling.adopting, Label.adopt]
  | _ => rfl

/-- An adopted line keeps its members. -/
theorem Instruction.adopt_beginCatchBlock (id : AssemblerId) (type : Option Member) :
    (beginCatchBlock type).adopt id = .beginCatchBlock type := by
  cases type <;> rfl

/-- Of several owners the last one has the handles. -/
theorem Instruction.adopt_adopt (id id' : AssemblerId) (i : Instruction) :
    (i.adopt id).adopt id' = i.adopt id' := by
  cases i with
  | op o => simp only [relabel, Op.relabel, o.operand.adopt_adopt id id']
  | beginCatchBlock type => simp only [adopt_beginCatchBlock]
  | _ => rfl

/-! ## What a listing shows -/

namespace ListingOptions

variable (id : AssemblerId) (options : ListingOptions) (offsets : Std.HashMap UInt32 Nat)

theorem operand_adopt (x : Operand Label Local) :
    options.operand offsets (x.adopt id) = options.operand offsets x := by
  cases x with
  | labels targets =>
      simp only [Operand.relabel, Operand.map, operand, List.map_map]
      rfl
  | _ => rfl

theorem line_adopt (l : Line) :
    options.line offsets (l.relabel (.adopting id)) = options.line offsets l := by
  obtain ⟨offset, i⟩ := l
  cases i with
  | op o =>
      simp only [line, Line.relabel, Instruction.relabel, instruction?, op, Op.relabel]
      rw [operand_adopt]
  | beginCatchBlock type => cases type <;> rfl
  | _ => rfl

end ListingOptions

theorem Stream.listing_adopt (id : AssemblerId) (s : Stream) (options : ListingOptions) :
    (s.adopt id).listing options = s.listing options := by
  have hlines : (s.adopt id).lines = s.lines.map (·.relabel (.adopting id)) := rfl
  simp only [listing, labelOffsets_relabel, hlines, Array.foldl_map, ListingOptions.line_adopt]

/-! ## What the books say -/

namespace Books

variable (id : AssemblerId) {b : Books}

theorem HasLabel.adopt {label : Label} (h : b.HasLabel label) :
    (b.adopt id).HasLabel (label.adopt id) := by
  obtain ⟨slot, hslot, heq⟩ := h
  refine ⟨slot.relabel (.adopting id), ?_, ?_⟩
  · simp [relabel, Label.adopt, hslot]
  · exact Label.beq_iff.mpr ⟨rfl, rfl, (Label.beq_iff.mp heq).2.2⟩

theorem Unmarked.adopt {label : Label} (h : b.Unmarked label) :
    (b.adopt id).Unmarked (label.adopt id) := by
  obtain ⟨slot, hslot, heq, hmark⟩ := h
  refine ⟨slot.relabel (.adopting id), ?_, ?_, hmark⟩
  · simp [relabel, Label.adopt, hslot]
  · exact Label.beq_iff.mpr ⟨rfl, rfl, (Label.beq_iff.mp heq).2.2⟩

theorem HasLocal.adopt {v : Local} (h : b.HasLocal v) : (b.adopt id).HasLocal (v.adopt id) := by
  obtain ⟨slot, hslot, heq⟩ := h
  refine ⟨slot.adopt id, ?_, ?_⟩
  · simp [relabel, Relabeling.adopting, Local.adopt, hslot]
  · exact Local.beq_iff.mpr ⟨rfl, rfl, (Local.beq_iff.mp heq).2.2⟩

/-- What one recorder admits, another one admits with handles of its own. -/
theorem Admits.adopt {other : AssemblerId} {i : Instruction} (h : b.Admits other i) :
    (b.adopt id).Admits id (i.adopt id) := by
  cases h with
  | op o hlabels hlocal hroom =>
      refine .op (o.relabel _) (fun label hlabel => ?_) (fun v hv => ?_) hroom
      · rw [Op.targets_relabel] at hlabel
        obtain ⟨source, hsource, rfl⟩ := List.mem_map.mp hlabel
        exact (hlabels source hsource).adopt id
      · obtain ⟨code, operand, size, fits, size_eq⟩ := o
        cases operand <;> cases hv
        exact (hlocal _ rfl).adopt id
  | defineLabel label _ hindex =>
      exact .defineLabel _ rfl (by simpa [relabel] using hindex)
  | markLabel label hunmarked => exact .markLabel _ (hunmarked.adopt id)
  | declareLocal v _ hindex =>
      exact .declareLocal _ rfl (by simpa [relabel] using hindex)
  | beginExceptionBlock exit _ hindex =>
      exact .beginExceptionBlock _ rfl (by simpa [relabel] using hindex)
  | beginScope => exact .beginScope
  | move _ call hcall hcheck hexit =>
      refine .move _ call (by rwa [Instruction.regionCall?_relabel]) ?_ ?_
      · exact (b.regions.check_relabel _ call).trans hcheck
      · intro exit hi
        cases i with
        | endExceptionBlock source =>
            cases hi
            obtain ⟨hinnermost, hunmarked⟩ := hexit source rfl
            refine ⟨?_, hunmarked.adopt id⟩
            have hadopted := b.regions.innermostExit?_relabel (.adopting id)
            rw [hinnermost] at hadopted
            exact hadopted
        | _ => cases hi

end Books

/-- Recorded lines are recorded lines of any owner that adopts them. -/
theorem Recorded.adopt {other : AssemblerId} {is : List Instruction} (h : Recorded other is)
    (id : AssemblerId) : Recorded id (is.map (·.adopt id)) := by
  intro k i hi
  rw [List.getElem?_map] at hi
  obtain ⟨source, hsource, rfl⟩ := Option.map_eq_some_iff.mp hi
  rw [← List.map_take, ← Books.relabel_ofInstructions]
  exact (h k source hsource).adopt id

end CilAssembler
