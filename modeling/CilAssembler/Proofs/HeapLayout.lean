import CilAssembler.Proofs.Interning
import Mathlib.Data.List.Forall2

/-! # The layout of a heap

After its zero byte a heap is tiled by entries, one for every text that it accepted, in the order in
which the texts first came up. So a reader that only skips from length to length finds the rows of
all tokens, and nothing else, on its way to the end. -/

namespace CilAssembler

/-! ## First occurrences -/

theorem eraseDups_append_singleton_of_mem {α : Type} [BEq α] [LawfulBEq α] {xs : List α} {x : α}
    (h : x ∈ xs) : (xs ++ [x]).eraseDups = xs.eraseDups := by
  rw [List.eraseDups_append]
  simp [List.cons_removeAll, h]

theorem eraseDups_append_singleton_of_not_mem {α : Type} [BEq α] [LawfulBEq α] {xs : List α} {x : α}
    (h : x ∉ xs) : (xs ++ [x]).eraseDups = xs.eraseDups ++ [x] := by
  rw [List.eraseDups_append]
  simp [List.cons_removeAll, List.eraseDups_cons, h]

namespace StringHeap

/-- The texts that were accepted, every time they were, with the tokens that were given for them. -/
def accepted (h : StringHeap) : List String → List (String × Token)
  | [] => []
  | text :: texts =>
      ((h.intern text).1.toOption.map (text, ·)).toList ++ accepted (h.intern text).2 texts

theorem accepted_append_singleton (h : StringHeap) (texts : List String) (text : String) :
    h.accepted (texts ++ [text]) =
      h.accepted texts ++ (((h.after texts).intern text).1.toOption.map (text, ·)).toList := by
  induction texts generalizing h with
  | nil => simp [accepted, after]
  | cons first texts ih => simp [accepted, after, ih]

/-- The texts of a history, each where it first came up. -/
def textsOf (given : List (String × Token)) : List String :=
  (given.map fun g => g.1).eraseDups

/-- The rows of the tokens of a history, each where it first came up. -/
def rowsOf (given : List (String × Token)) : List Nat :=
  (given.map fun g => g.2.row.toNat).eraseDups

/-! ## Entries -/

/-- The entry of a text: the compressed length of what follows, the units of the text with their
least significant bytes first, and a flag. The flag is one if some unit is beyond Latin-1, an
apostrophe, a hyphen or one of certain controls, and zero if none is. -/
def IsEntry (text : String) (bytes : List UInt8) : Prop :=
  ∃ header flag, compressedLength? (2 * (Text.unitsOf text).length + 1) = some header ∧
    bytes = header ++ (unitBytes (Text.unitsOf text) ++ [flag]) ∧ (flag = 0 ∨ flag = 1) ∧
    (flag = 1 ↔ ∃ u ∈ Text.unitsOf text, 0xFF < u.toNat ∨ 0x01 ≤ u.toNat ∧ u.toNat ≤ 0x08 ∨
      0x0E ≤ u.toNat ∧ u.toNat ≤ 0x1F ∨ u.toNat = 0x27 ∨ u.toNat = 0x2D ∨ u.toNat = 0x7F)

theorem isSpecialUnit_iff {u : UInt16} :
    isSpecialUnit u = true ↔ 0xFF < u.toNat ∨ 0x01 ≤ u.toNat ∧ u.toNat ≤ 0x08 ∨
      0x0E ≤ u.toNat ∧ u.toNat ≤ 0x1F ∨ u.toNat = 0x27 ∨ u.toNat = 0x2D ∨ u.toNat = 0x7F := by
  simp [isSpecialUnit, UInt16.le_iff_toNat_le, UInt16.lt_iff_toNat_lt, ← UInt16.toNat_inj, or_assoc]

theorem flag_eq (text : String) :
    flag text = if (Text.unitsOf text).any isSpecialUnit then 1 else 0 := by
  have hfold : ∀ (cs : List Char) (special : Bool),
      cs.foldl (fun special c => special || (Text.units c).any isSpecialUnit) special =
        (special || (cs.flatMap Text.units).any isSpecialUnit) := by
    intro cs
    induction cs with
    | nil => simp
    | cons c cs ih =>
        intro special
        rw [List.foldl_cons, ih, List.flatMap_cons, List.any_append, Bool.or_assoc]
  rw [flag, String.foldl_eq_foldl_toList, hfold, Bool.false_or]
  rfl

theorem isEntry_entry {text : String} {header : List UInt8}
    (h : compressedLength? (entryLength text) = some header) : IsEntry text (entry text) := by
  refine ⟨header, flag text, ?_, entry_eq h, ?_, ?_⟩
  · rw [← entryLength_eq, h]
  · rw [flag_eq]
    split
    · exact .inr rfl
    · exact .inl rfl
  · have hflag : flag text = 1 ↔ (Text.unitsOf text).any isSpecialUnit = true := by simp [flag_eq]
    simp only [hflag, List.any_eq_true, isSpecialUnit_iff]

theorem length_entry {text : String} {header : List UInt8}
    (h : compressedLength? (entryLength text) = some header) :
    (entry text).length = header.length + entryLength text := by
  simp [entry_eq h, entryLength_eq]

/-! ## Skipping from entry to entry -/

/-- The offsets that are visited on the way from an offset to the end of the heap, if at each of them
the length that can be read there is skipped together with its bytes. -/
inductive Walks (h : StringHeap) : Nat → List Nat → Prop where
  | done : Walks h h.bytes.size []
  | visit {offset length header : Nat} {visited : List Nat}
      (hread : readCompressedLength? (h.bytes.toList.drop offset) = some (length, header))
      (hrest : Walks h (offset + header + length) visited) : Walks h offset (offset :: visited)

/-- Nothing can be read at the end, so a walk cannot go on there. -/
theorem not_walks_size_cons {h : StringHeap} {first : Nat} {visited : List Nat} :
    ¬h.Walks h.bytes.size (first :: visited) := by
  intro hwalks
  cases hwalks with
  | visit hread =>
      rw [← Array.length_toList, List.drop_length] at hread
      cases hread

/-- What can be read decides where a walk goes. -/
theorem Walks.unique {h : StringHeap} {offset : Nat} {xs ys : List Nat} (hxs : h.Walks offset xs)
    (hys : h.Walks offset ys) : xs = ys := by
  induction hxs generalizing ys with
  | done =>
      cases ys with
      | nil => rfl
      | cons first visited => exact absurd hys not_walks_size_cons
  | visit hread hrest ih =>
      cases hys with
      | done => exact absurd (.visit hread hrest) not_walks_size_cons
      | visit hread' hrest' =>
          rw [hread] at hread'
          cases hread'
          rw [ih hrest']

/-- Where the entries of some texts start if the first one starts at `base`. -/
def startsFrom : Nat → List String → List Nat
  | _, [] => []
  | base, text :: texts => base :: startsFrom (base + (entry text).length) texts

theorem startsFrom_append_singleton (base : Nat) (texts : List String) (text : String) :
    startsFrom base (texts ++ [text]) =
      startsFrom base texts ++ [base + (texts.flatMap entry).length] := by
  induction texts generalizing base with
  | nil => rfl
  | cons first texts ih => simp [startsFrom, ih, Nat.add_assoc]

theorem length_startsFrom (base : Nat) (texts : List String) :
    (startsFrom base texts).length = texts.length := by
  induction texts generalizing base with
  | nil => rfl
  | cons text texts ih => simp [startsFrom, ih]

/-- Every entry has a flag at least, so none starts at the end. -/
theorem lt_of_mem_startsFrom {base start : Nat} {texts : List String}
    (h : start ∈ startsFrom base texts) : start < base + (texts.flatMap entry).length := by
  induction texts generalizing base with
  | nil => simp [startsFrom] at h
  | cons text texts ih =>
      have hpos : 0 < (entry text).length := by
        simp only [entry, List.length_append, List.length_singleton]
        omega
      rw [List.flatMap_cons, List.length_append]
      rcases List.mem_cons.mp h with rfl | hlater
      · omega
      · have hlt := ih hlater
        omega

/-- Entries whose lengths can be written are walked one by one. -/
theorem walks_startsFrom {h : StringHeap} {texts : List String} {offset : Nat}
    (hle : offset ≤ h.bytes.size) (hrest : h.bytes.toList.drop offset = texts.flatMap entry)
    (hwritable : ∀ text ∈ texts, ∃ header, compressedLength? (entryLength text) = some header) :
    h.Walks offset (startsFrom offset texts) := by
  induction texts generalizing offset with
  | nil =>
      rw [List.flatMap_nil, List.drop_eq_nil_iff, Array.length_toList] at hrest
      obtain rfl : offset = h.bytes.size := Nat.le_antisymm hle hrest
      exact .done
  | cons text texts ih =>
      obtain ⟨header, hheader⟩ := hwritable text (List.mem_cons_self ..)
      have hlength := length_entry hheader
      rw [List.flatMap_cons] at hrest
      have hend : offset + (entry text).length ≤ h.bytes.size := by
        have hcount := congrArg List.length hrest
        rw [List.length_drop, List.length_append, Array.length_toList] at hcount
        omega
      have hlater : h.bytes.toList.drop (offset + (entry text).length) = texts.flatMap entry := by
        rw [← List.drop_drop, hrest, List.drop_left]
      have hread : readCompressedLength? (h.bytes.toList.drop offset) =
          some (entryLength text, header.length) := by
        rw [hrest, entry_eq hheader, List.append_assoc, readCompressedLength?_append hheader]
      refine .visit hread ?_
      rw [Nat.add_assoc, ← hlength]
      exact ih hend hlater fun other hother => hwritable other (List.mem_cons_of_mem _ hother)

/-! ## Heaps and their histories -/

/-- The heap has entries for the texts of the history, and knows them by the tokens given. -/
structure Tells (h : StringHeap) (given : List (String × Token)) : Prop where
  holds : h.Holds (textsOf given)
  size : h.size = (textsOf given).length
  known : ∀ text t, (text, t) ∈ given ↔ ∃ offset, t = token offset ∧ h.offsets[text]? = some offset
  rows : rowsOf given = startsFrom 1 (textsOf given)

theorem tells_empty : empty.Tells [] := by
  refine ⟨holds_empty, rfl, ?_, rfl⟩
  intro text t
  simp [empty]

/-- A text that is known adds nothing to what its history says. -/
theorem Tells.again {h : StringHeap} {given : List (String × Token)} (hh : h.Tells given)
    {text : String} {offset : UInt32} (hknown : h.offsets[text]? = some offset) :
    h.Tells (given ++ [(text, token offset)]) := by
  have hmem : (text, token offset) ∈ given := (hh.known text _).mpr ⟨offset, rfl, hknown⟩
  have htexts : textsOf (given ++ [(text, token offset)]) = textsOf given := by
    rw [textsOf, List.map_append]
    exact eraseDups_append_singleton_of_mem (List.mem_map_of_mem hmem)
  have hrows : rowsOf (given ++ [(text, token offset)]) = rowsOf given := by
    rw [rowsOf, List.map_append]
    exact eraseDups_append_singleton_of_mem
      (List.mem_map_of_mem (f := fun g : String × Token => g.2.row.toNat) hmem)
  constructor
  case holds =>
    rw [htexts]
    exact hh.holds
  case size =>
    rw [htexts]
    exact hh.size
  case known =>
    intro other t
    rw [← hh.known, List.mem_append, List.mem_singleton]
    constructor
    · rintro (hold | hsame)
      · exact hold
      · rw [hsame]
        exact hmem
    · exact .inl
  case rows => rw [hrows, htexts, hh.rows]

/-- A text that the heap does not know was never given a token. -/
theorem Tells.not_mem_texts {h : StringHeap} {given : List (String × Token)} (hh : h.Tells given)
    {text : String} (hnew : h.offsets[text]? = none) : text ∉ given.map fun g => g.1 := by
  rw [List.mem_map]
  rintro ⟨⟨_, t⟩, hmem, rfl⟩
  obtain ⟨offset, _, hknown⟩ := (hh.known _ _).mp hmem
  rw [hnew] at hknown
  cases hknown

/-- No token leads to the end of the heap. -/
theorem Tells.not_mem_rows {h : StringHeap} {given : List (String × Token)} (hh : h.Tells given) :
    h.bytes.size ∉ given.map fun g => g.2.row.toNat := by
  intro hmem
  have hstart : h.bytes.size ∈ rowsOf given := List.mem_eraseDups.mpr hmem
  rw [hh.rows] at hstart
  have hlt := lt_of_mem_startsFrom hstart
  rw [← hh.holds.size_bytes] at hlt
  exact Nat.lt_irrefl _ hlt

/-- A text that is new adds its entry where the heap ended. -/
theorem Tells.enter {h : StringHeap} {given : List (String × Token)} (hh : h.Tells given)
    {text : String} {header : List UInt8} (hnew : h.offsets[text]? = none)
    (hroom : h.bytes.size ≤ heapCapacity)
    (hheader : compressedLength? (entryLength text) = some header) :
    Tells ⟨(appendUnits (h.bytes ++ header) text).push (flag text),
      h.offsets.insert text h.bytes.size.toUInt32⟩
      (given ++ [(text, token h.bytes.size.toUInt32)]) := by
  have hoffset := toNat_toUInt32_of_le hroom
  have hrow : (token h.bytes.size.toUInt32).row.toNat = h.bytes.size := by
    rw [row_token (by rwa [hoffset]), hoffset]
  have htexts : textsOf (given ++ [(text, token h.bytes.size.toUInt32)]) =
      textsOf given ++ [text] := by
    rw [textsOf, List.map_append]
    exact eraseDups_append_singleton_of_not_mem (hh.not_mem_texts hnew)
  constructor
  case holds =>
    rw [htexts]
    exact hh.holds.enter hroom hheader
  case size =>
    have hout : text ∉ h.offsets := by
      rw [Std.HashMap.mem_iff_isSome_getElem?, hnew]
      exact Bool.false_ne_true
    rw [htexts, List.length_append, List.length_singleton, ← hh.size]
    exact (Std.HashMap.size_insert ..).trans (if_neg hout)
  case known =>
    intro other t
    rw [List.mem_append, List.mem_singleton, Std.HashMap.getElem?_insert, hh.known]
    by_cases hsame : text = other
    · subst hsame
      simp [hnew]
    · simp [hsame, Ne.symm hsame]
  case rows =>
    rw [htexts, startsFrom_append_singleton, ← hh.holds.size_bytes, ← hh.rows, rowsOf,
      List.map_append, List.map_singleton, hrow,
      eraseDups_append_singleton_of_not_mem hh.not_mem_rows]
    rfl

theorem tells_after (texts : List String) : (empty.after texts).Tells (empty.accepted texts) := by
  induction texts using List.reverseRecOn with
  | nil => exact tells_empty
  | append_singleton texts text ih =>
      rw [after_append_singleton, accepted_append_singleton]
      rcases intern_cases (empty.after texts) text with
        ⟨cause, _, heq⟩ | ⟨offset, hknown, heq⟩ | ⟨header, hnew, hroom, hheader, heq⟩
      · rw [heq]
        simpa [Except.toOption] using ih
      · rw [heq]
        exact ih.again hknown
      · rw [heq]
        exact ih.enter hnew hroom hheader

theorem forall₂_isEntry {texts : List String}
    (hwritable : ∀ text ∈ texts, ∃ header, compressedLength? (entryLength text) = some header) :
    List.Forall₂ IsEntry texts (texts.map entry) := by
  rw [List.forall₂_map_right_iff, List.forall₂_same]
  intro text hmem
  obtain ⟨header, hheader⟩ := hwritable text hmem
  exact isEntry_entry hheader

/-- Let texts be interned in order, of which some may be refused. The heap is then a zero byte and
one entry for each text that was accepted, in the order in which they first were. The one walk from
the first entry to the end of the heap visits the rows of the tokens that were given, in the same
order, and there are as many texts in the heap as the walk visits entries. -/
theorem entries_tile_heap (texts : List String) :
    (∃ entries, (empty.after texts).bytes.toList = 0 :: entries.flatten ∧
      List.Forall₂ IsEntry (textsOf (empty.accepted texts)) entries) ∧
    (∀ visited, (empty.after texts).Walks 1 visited ↔ visited = rowsOf (empty.accepted texts)) ∧
    (empty.after texts).size = (rowsOf (empty.accepted texts)).length := by
  have htells := tells_after texts
  have hbytes := htells.holds.bytes
  have hwalks : (empty.after texts).Walks 1 (rowsOf (empty.accepted texts)) := by
    rw [htells.rows]
    apply walks_startsFrom
    · rw [htells.holds.size_bytes]
      exact Nat.le_add_right 1 _
    · rw [hbytes, List.drop_one, List.tail_cons]
    · exact htells.holds.writable
  refine ⟨⟨_, ?_, forall₂_isEntry htells.holds.writable⟩, ?_, ?_⟩
  · rw [hbytes, List.flatMap_def]
  · intro visited
    constructor
    · exact fun hvisited => hvisited.unique hwalks
    · rintro rfl
      exact hwalks
  · rw [htells.size, htells.rows, length_startsFrom]

end StringHeap

end CilAssembler
