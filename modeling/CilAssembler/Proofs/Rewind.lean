import CilAssembler.Proofs.Rosters
import CilAssembler.Recorder.Checkpoint

/-! # Rewinding

A checkpoint only counts lines, labels and locals, and the places given to labels are not saved.
Cutting the rosters and forgetting later places gives back exactly the books of the lines that
remain. `Sound` relates a recorder to the checkpoints taken on it, and every request keeps it. -/

namespace CilAssembler

/-! ## What remains of the rosters -/

theorem LabelSlot.unmarkFrom_of_lt {slot : LabelSlot} {lines : Nat}
    (h : ∀ line, slot.mark = some line → line < lines) : slot.unmarkFrom lines = slot := by
  unfold unmarkFrom
  cases hmark : slot.mark with
  | none => rfl
  | some line => simp [Nat.not_le.mpr (h line hmark)]

theorem LabelSlot.unmarkFrom_marked {slot : LabelSlot} {lines line : Nat} (hnone : slot.mark = none)
    (hle : lines ≤ line) : ({ slot with mark := some line }).unmarkFrom lines = slot := by
  cases slot
  simp_all [unmarkFrom]

/-- A slot is marked by a line of the stream. -/
theorem Books.mark_lt {is : List Instruction} {n : Nat} {slot : LabelSlot} {line : Nat}
    (hslot : (ofInstructions is).labels[n]? = some slot) (hmark : slot.mark = some line) :
    line < is.length := by
  induction is using List.reverseRecOn generalizing n slot with
  | nil => simp [empty] at hslot
  | append_singleton is i ih =>
      rw [labels_append_singleton] at hslot
      rw [List.length_append, List.length_singleton]
      rcases Recorder.labelsAfter_cases (ofInstructions is).labels is.length i
        with ⟨label, _, _, hafter⟩ | ⟨label, _, _, hafter⟩ | ⟨_, _, hafter⟩
      · rw [hafter, Array.getElem?_push] at hslot
        split at hslot
        · cases hslot
          cases hmark
        · exact Nat.lt_succ_of_lt (ih hslot hmark)
      · rw [hafter, Array.getElem?_modify] at hslot
        split at hslot
        · obtain ⟨old, _, rfl⟩ := Option.map_eq_some_iff.mp hslot
          cases hmark
          exact Nat.lt_succ_self _
        · exact Nat.lt_succ_of_lt (ih hslot hmark)
      · rw [hafter] at hslot
        exact Nat.lt_succ_of_lt (ih hslot hmark)

theorem Books.size_labels_take_le (is : List Instruction) (count : Nat) :
    (ofInstructions (is.take count)).labels.size ≤ (ofInstructions is).labels.size := by
  rw [size_labels, size_labels]
  exact ((List.take_sublist count is).filterMap _).length_le

namespace Recorded

variable {id : AssemblerId} {is : List Instruction}

/-- A slot of the books of the first lines comes back when places given later are forgotten. -/
theorem unmarkFrom_slot (h : Recorded id is) {lines n : Nat} (hlines : lines ≤ is.length)
    (hn : n < (Books.ofInstructions (is.take lines)).labels.size) :
    (Books.ofInstructions is).labels[n]?.map (LabelSlot.unmarkFrom lines) =
      (Books.ofInstructions (is.take lines)).labels[n]? := by
  induction is using List.reverseRecOn with
  | nil => simp [Books.empty] at hn
  | append_singleton is i ih =>
      by_cases hall : lines = (is ++ [i]).length
      · -- nothing is cut, and no place was given after the last line
        rw [List.take_of_length_le (Nat.le_of_eq hall.symm)] at hn ⊢
        rw [Array.getElem?_eq_getElem hn]
        simp only [Option.map_some, Option.some.injEq]
        apply LabelSlot.unmarkFrom_of_lt
        intro line hmark
        rw [hall]
        exact Books.mark_lt (Array.getElem?_eq_getElem hn) hmark
      · obtain ⟨hprev, hadmits⟩ := append_singleton_iff.mp h
        have hle : lines ≤ is.length := by
          simp only [List.length_append, List.length_singleton] at hlines hall
          omega
        rw [List.take_append_of_le_length hle] at hn ⊢
        rw [← ih hprev hle hn, Books.labels_append_singleton]
        have hlt : n < (Books.ofInstructions is).labels.size :=
          Nat.lt_of_lt_of_le hn (Books.size_labels_take_le is lines)
        rcases Recorder.labelsAfter_cases (Books.ofInstructions is).labels is.length i
          with ⟨label, _, _, hafter⟩ | ⟨label, _, hplaced, hafter⟩ | ⟨_, _, hafter⟩
        · rw [hafter, Array.getElem?_push, if_neg (Nat.ne_of_lt hlt)]
        · rw [hafter, Array.getElem?_modify]
          split
          · -- the slot was unmarked before, so forgetting the new place restores it
            rename_i hindex
            subst hindex
            obtain ⟨slot, hslot, _, hnone⟩ := hadmits.placed hplaced
            rw [hslot]
            simp only [Option.map_some, Option.some.injEq]
            rw [LabelSlot.unmarkFrom_marked hnone hle]
            exact (LabelSlot.unmarkFrom_of_lt (by simp [hnone])).symm
          · rfl
        · rw [hafter]

/-- Cutting the label roster and forgetting later places undoes the later lines. -/
theorem labels_take (h : Recorded id is) {lines : Nat} (hlines : lines ≤ is.length) :
    ((Books.ofInstructions is).labels.take
      (Books.ofInstructions (is.take lines)).labels.size).map (LabelSlot.unmarkFrom lines) =
      (Books.ofInstructions (is.take lines)).labels := by
  apply Array.ext_getElem?
  intro n
  have hsize := Books.size_labels_take_le is lines
  by_cases hn : n < (Books.ofInstructions (is.take lines)).labels.size
  · rw [← h.unmarkFrom_slot hlines hn, Array.getElem?_map]
    congr 1
    simp [Array.take_eq_extract, Array.getElem?_extract]
    omega
  · rw [Array.getElem?_eq_none (Nat.le_of_not_lt hn), Array.getElem?_eq_none]
    simp
    omega

end Recorded

/-- Cutting the local roster undoes the later lines. -/
theorem Books.locals_take (is : List Instruction) (lines : Nat) :
    (ofInstructions is).locals.take (ofInstructions (is.take lines)).locals.size =
      (ofInstructions (is.take lines)).locals := by
  apply Array.toList_inj.mp
  rw [locals_ofInstructions, size_locals, Array.take_eq_extract, Array.toList_extract,
    locals_ofInstructions]
  simp only [List.extract_eq_take_drop, List.drop_zero, Nat.sub_zero]
  conv_lhs => rw [← List.take_append_drop lines is, List.filterMap_append]
  simp

/-! ## Checkpoints -/

/-- The checkpoint counts what the first lines of `is` put in the books. -/
structure Checkpoint.Describes (c : Checkpoint) (is : List Instruction) : Prop where
  lines : c.lines ≤ is.length
  labels : c.labels = (Books.ofInstructions (is.take c.lines)).labels.size
  locals : c.locals = (Books.ofInstructions (is.take c.lines)).locals.size
  regions : c.regions = (Books.ofInstructions (is.take c.lines)).regions

/-- Only the lines that a checkpoint counts matter to it. -/
theorem Checkpoint.Describes.congr {c : Checkpoint} {is js : List Instruction} (h : c.Describes is)
    (hlines : c.lines ≤ js.length) (htake : js.take c.lines = is.take c.lines) :
    c.Describes js := by
  refine ⟨hlines, ?_, ?_, ?_⟩
  all_goals rw [htake]
  · exact h.labels
  · exact h.locals
  · exact h.regions

namespace Recorder

/-- Restoring a checkpoint leaves the books of the lines that it counts. -/
theorem books_restore {r : Recorder} {c : Checkpoint} {is : List Instruction}
    (hbooks : r.books = .ofInstructions is) (h : Recorded r.id is) (hc : c.Describes is) :
    (r.restore c).books = .ofInstructions (is.take c.lines) := by
  have hstream : r.stream = .ofInstructions is := by
    rw [← Books.stream_ofInstructions, ← hbooks]
    rfl
  have hlabels : r.labels = (Books.ofInstructions is).labels := by
    rw [← hbooks]
    rfl
  have hlocals : r.locals = (Books.ofInstructions is).locals := by
    rw [← hbooks]
    rfl
  unfold restore books
  rw [hstream, hlabels, hlocals, hc.labels, hc.locals, hc.regions, h.labels_take hc.lines,
    Books.locals_take, Stream.truncate_ofInstructions, ← Books.stream_ofInstructions]

/-- No rewind has discarded the checkpoint. -/
def Live (r : Recorder) (c : Checkpoint) : Prop :=
  r.stale.any (·.contains c.serial) = false

theorem rewind_of_live {r : Recorder} {c : Checkpoint} (howner : c.owner = r.id) (hlive : r.Live c) :
    r.rewind c = (.ok (), r.restore c) := by
  unfold rewind checkRewind
  rw [if_neg (not_not_intro howner), hlive]
  rfl

theorem rewind_of_not_live {r : Recorder} {c : Checkpoint} (h : ¬(c.owner = r.id ∧ r.Live c)) :
    ∃ e, r.rewind c = (.error e, r) := by
  unfold rewind checkRewind
  by_cases howner : c.owner = r.id
  · have hstale : r.stale.any (·.contains c.serial) = true := by
      by_contra hfalse
      exact h ⟨howner, Bool.eq_false_iff.mpr hfalse⟩
    rw [if_neg (not_not_intro howner), if_pos hstale]
    exact ⟨_, rfl⟩
  · rw [if_pos howner]
    exact ⟨_, rfl⟩

theorem isOk_rewind_iff {r : Recorder} {c : Checkpoint} :
    (r.rewind c).1.isOk = true ↔ c.owner = r.id ∧ r.Live c := by
  by_cases h : c.owner = r.id ∧ r.Live c
  · rw [rewind_of_live h.1 h.2]
    exact ⟨fun _ => h, fun _ => rfl⟩
  · obtain ⟨e, he⟩ := rewind_of_not_live h
    rw [he]
    exact ⟨nofun, fun hlive => absurd hlive h⟩

/-- A rewind discards exactly the checkpoints with larger serial numbers. -/
theorem live_restore_iff {r : Recorder} {c d : Checkpoint} (hc : c.serial < r.nextCheckpoint)
    (hd : d.serial < r.nextCheckpoint) :
    (r.restore c).Live d ↔ r.Live d ∧ d.serial ≤ c.serial := by
  have hnext := r.nextCheckpoint.toNat_lt
  rw [UInt32.lt_iff_toNat_lt] at hc hd
  have hsucc : (c.serial + 1).toNat = c.serial.toNat + 1 := by
    rw [UInt32.toNat_add]
    exact Nat.mod_eq_of_lt (by simp; omega)
  have hzero : ¬c.serial + 1 = 0 := by
    intro h
    have := congrArg UInt32.toNat h
    simp [hsucc] at this
  unfold Live restore discardedAfter
  simp only [hzero, if_false, List.any_append, Bool.or_eq_false_iff]
  rw [and_comm]
  apply and_congr_right
  intro _
  rw [UInt32.le_iff_toNat_le]
  split
  · rename_i hlt
    rw [UInt32.lt_iff_toNat_lt, hsucc] at hlt
    simp only [Option.toList_some, List.any_cons, List.any_nil, Bool.or_false,
      SerialRange.contains, Bool.and_eq_false_iff, decide_eq_false_iff_not,
      UInt32.le_iff_toNat_le, UInt32.lt_iff_toNat_lt, hsucc]
    omega
  · rename_i hlt
    rw [UInt32.lt_iff_toNat_lt, hsucc] at hlt
    simp only [Option.toList_none, List.any_nil, true_iff]
    omega

/-! ## Sound recorders -/

/-- The recorder keeps the books of admitted instructions, and those of the checkpoints `cs` taken
on it that are live count lines that are still there. Of two live checkpoints, the one taken first
counts fewer lines, which is why a rewind to one leaves the earlier ones intact. -/
structure Sound (r : Recorder) (cs : List Checkpoint) : Prop extends r.Kept where
  owner : ∀ c ∈ cs, c.owner = r.id
  serial_lt : ∀ c ∈ cs, c.serial < r.nextCheckpoint
  past_le : ∀ range ∈ r.stale, range.past ≤ r.nextCheckpoint
  serials : cs.Pairwise (·.serial < ·.serial)
  describes : ∀ c ∈ cs, r.Live c → c.Describes r.stream.instructions
  lines_le : ∀ c ∈ cs, ∀ d ∈ cs, r.Live c → r.Live d → c.serial ≤ d.serial → c.lines ≤ d.lines

theorem sound_new (id : AssemblerId) : (new id).Sound [] :=
  ⟨kept_new id, nofun, nofun, nofun, .nil, nofun, nofun⟩

theorem Sound.record {r : Recorder} {cs : List Checkpoint} {i : Instruction} (h : r.Sound cs)
    (hadmits : r.books.Admits r.id i) : (r.record i).Sound cs := by
  constructor
  case toKept => exact h.toKept.record hadmits
  case describes =>
    intro c hc hlive
    have hold := h.describes c hc hlive
    rw [instructions_record]
    apply hold.congr
    · rw [List.length_append]
      exact Nat.le_add_right_of_le hold.lines
    · exact List.take_append_of_le_length hold.lines
  case owner => exact h.owner
  case serial_lt => exact h.serial_lt
  case past_le => exact h.past_le
  case serials => exact h.serials
  case lines_le => exact h.lines_le

theorem Sound.perform {r : Recorder} {cs : List Checkpoint} (h : r.Sound cs) (call : Call) :
    (r.perform call).2.Sound cs := by
  rcases perform_cases call r with ⟨e, _, hrefused⟩ | ⟨reply, i, _, haccepted, hadmits⟩
  · rw [hrefused]
    exact h
  · rw [haccepted]
    exact h.record hadmits

theorem describes_checkpoint {r : Recorder} (hbooks : r.books = .ofInstructions r.stream.instructions) :
    r.checkpoint.1.Describes r.stream.instructions := by
  have hlines : r.checkpoint.1.lines = r.stream.instructions.length :=
    (Stream.length_instructions r.stream).symm
  refine ⟨Nat.le_of_eq hlines, ?_, ?_, ?_⟩
  all_goals rw [List.take_of_length_le (Nat.le_of_eq hlines.symm), ← hbooks]
  all_goals rfl

theorem Sound.checkpoint {r : Recorder} {cs : List Checkpoint} (h : r.Sound cs)
    (hroom : r.nextCheckpoint.toNat + 1 < 2 ^ 32) :
    r.checkpoint.2.Sound (cs ++ [r.checkpoint.1]) := by
  have hnext : r.checkpoint.2.nextCheckpoint.toNat = r.nextCheckpoint.toNat + 1 := by
    simp only [Recorder.checkpoint, UInt32.toNat_add]
    exact Nat.mod_eq_of_lt hroom
  have hserial : r.checkpoint.1.serial = r.nextCheckpoint := rfl
  have hgrows : ∀ serial : UInt32, serial ≤ r.nextCheckpoint →
      serial < r.checkpoint.2.nextCheckpoint := by
    intro serial hle
    rw [UInt32.le_iff_toNat_le] at hle
    rw [UInt32.lt_iff_toNat_lt, hnext]
    omega
  constructor
  case toKept => exact ⟨h.books, h.recorded⟩
  case owner =>
    intro c hc
    rcases List.mem_append.mp hc with hc | hc
    · exact h.owner c hc
    · rw [List.mem_singleton.mp hc]
      rfl
  case serial_lt =>
    intro c hc
    rcases List.mem_append.mp hc with hc | hc
    · exact hgrows _ (UInt32.le_of_lt (h.serial_lt c hc))
    · rw [List.mem_singleton.mp hc]
      exact hgrows _ (UInt32.le_refl _)
  case past_le =>
    intro range hrange
    exact UInt32.le_of_lt (hgrows _ (h.past_le range hrange))
  case serials =>
    rw [List.pairwise_append]
    refine ⟨h.serials, List.pairwise_singleton _ _, ?_⟩
    intro c hc d hd
    rw [List.mem_singleton.mp hd]
    exact h.serial_lt c hc
  case describes =>
    intro c hc hlive
    rcases List.mem_append.mp hc with hc | hc
    · exact h.describes c hc hlive
    · rw [List.mem_singleton.mp hc]
      exact describes_checkpoint h.books
  case lines_le =>
    intro c hc d hd hlivec hlived hle
    rcases List.mem_append.mp hc with hc | hc <;> rcases List.mem_append.mp hd with hd | hd
    · exact h.lines_le c hc d hd hlivec hlived hle
    · rw [List.mem_singleton.mp hd]
      have hlines := (h.describes c hc hlivec).lines
      rwa [Stream.length_instructions] at hlines
    · rw [List.mem_singleton.mp hc, hserial] at hle
      exact absurd (h.serial_lt d hd) (UInt32.not_lt.mpr hle)
    · cases List.mem_singleton.mp hc
      cases List.mem_singleton.mp hd
      exact Nat.le_refl _

/-- A checkpoint that was just taken is live. -/
theorem Sound.live_checkpoint {r : Recorder} {cs : List Checkpoint} (h : r.Sound cs) :
    r.checkpoint.2.Live r.checkpoint.1 := by
  apply List.any_eq_false.mpr
  intro range hrange hcontains
  simp only [SerialRange.contains, Bool.and_eq_true, decide_eq_true_eq] at hcontains
  exact absurd hcontains.2 (UInt32.not_lt.mpr (h.past_le range hrange))

theorem Sound.restore {r : Recorder} {cs : List Checkpoint} {c : Checkpoint} (h : r.Sound cs)
    (hc : c ∈ cs) (hlive : r.Live c) :
    (r.restore c).Sound cs ∧
      (r.restore c).stream.instructions = r.stream.instructions.take c.lines := by
  have hbooks := books_restore h.books h.recorded (h.describes c hc hlive)
  have hinstructions :
      (r.restore c).stream.instructions = r.stream.instructions.take c.lines :=
    Stream.instructions_truncate r.stream c.lines
  refine ⟨?_, hinstructions⟩
  have hstill : ∀ d ∈ cs, (r.restore c).Live d → r.Live d ∧ d.lines ≤ c.lines := by
    intro d hd hlived
    obtain ⟨hlived, hle⟩ := (live_restore_iff (h.serial_lt c hc) (h.serial_lt d hd)).mp hlived
    exact ⟨hlived, h.lines_le d hd c hc hlived hlive hle⟩
  constructor
  case toKept =>
    constructor
    · rw [hbooks, hinstructions]
    · rw [hinstructions]
      exact h.recorded.take c.lines
  case owner => exact h.owner
  case serial_lt => exact h.serial_lt
  case past_le =>
    intro range hrange
    rcases List.mem_append.mp hrange with hnew | hold
    · unfold discardedAfter at hnew
      split at hnew
      · cases hnew
      · split at hnew
        · rw [List.mem_singleton.mp hnew]
          exact UInt32.le_refl _
        · cases hnew
    · exact h.past_le range hold
  case serials => exact h.serials
  case describes =>
    intro d hd hlived
    obtain ⟨hlived, hle⟩ := hstill d hd hlived
    have hold := h.describes d hd hlived
    rw [hinstructions]
    apply hold.congr
    · rw [List.length_take]
      exact Nat.le_min.mpr ⟨hle, hold.lines⟩
    · rw [List.take_take, Nat.min_eq_left hle]
  case lines_le =>
    intro d hd e he hlived hlivee
    exact h.lines_le d hd e he (hstill d hd hlived).1 (hstill e he hlivee).1

theorem Sound.rewind {r : Recorder} {cs : List Checkpoint} (h : r.Sound cs) {c : Checkpoint}
    (hc : c ∈ cs ∨ c.owner ≠ r.id) : (r.rewind c).2.Sound cs := by
  by_cases hlive : c.owner = r.id ∧ r.Live c
  · rw [rewind_of_live hlive.1 hlive.2]
    exact (h.restore (hc.resolve_right (not_not_intro hlive.1)) hlive.2).1
  · obtain ⟨e, he⟩ := rewind_of_not_live hlive
    rw [he]
    exact h

end Recorder

end CilAssembler
