import CilAssembler.Proofs.StringHeap

/-! # Interning one text after the other

A heap only ever grows at its end, so a token that was given once stays good: it leads to the entry
of its text, and the text keeps it whatever is interned or refused later. -/

namespace CilAssembler.StringHeap

/-- The heap after some texts were interned in order, whether or not they were refused. -/
def after (h : StringHeap) (texts : List String) : StringHeap :=
  texts.foldl (fun h text => (h.intern text).2) h

theorem after_append (h : StringHeap) (texts later : List String) :
    h.after (texts ++ later) = (h.after texts).after later := by
  simp [after]

theorem after_append_singleton (h : StringHeap) (texts : List String) (text : String) :
    h.after (texts ++ [text]) = ((h.after texts).intern text).2 := by
  simp [after]

/-! ## Heaps only grow -/

/-- The later heap has all that the earlier one has, in the same places. -/
structure Extends (h later : StringHeap) : Prop where
  bytes : h.bytes.toList <+: later.bytes.toList
  offsets : ∀ (text : String) (offset : UInt32), h.offsets[text]? = some offset →
    later.offsets[text]? = some offset

theorem Extends.refl (h : StringHeap) : h.Extends h :=
  ⟨List.prefix_rfl, fun _ _ hknown => hknown⟩

theorem Extends.trans {a b c : StringHeap} (hab : a.Extends b) (hbc : b.Extends c) : a.Extends c :=
  ⟨hab.bytes.trans hbc.bytes,
    fun text offset hknown => hbc.offsets text offset (hab.offsets text offset hknown)⟩

/-- Interning a text appends to the heap or leaves it alone. -/
theorem extends_intern (h : StringHeap) (text : String) : h.Extends (h.intern text).2 := by
  rcases intern_cases h text with ⟨cause, _, heq⟩ | ⟨offset, _, heq⟩ | ⟨header, hnew, _, _, heq⟩
  · rw [heq]
    exact .refl h
  · rw [heq]
    exact .refl h
  · rw [heq]
    constructor
    · rw [Array.toList_push, toList_appendUnits, Array.toList_appendList, List.append_assoc,
        List.append_assoc]
      exact List.prefix_append _ _
    · intro other offset hother
      have hne : (text == other) = false := by
        rw [beq_eq_false_iff_ne]
        rintro rfl
        rw [hnew] at hother
        cases hother
      rw [Std.HashMap.getElem?_insert, hne]
      exact hother

theorem extends_after (h : StringHeap) (texts : List String) : h.Extends (h.after texts) := by
  induction texts using List.reverseRecOn with
  | nil => exact .refl h
  | append_singleton texts text ih =>
      rw [after_append_singleton]
      exact ih.trans (extends_intern _ text)

/-- An intern that is refused leaves the bytes and the offsets as they were. -/
theorem eq_of_intern_eq_error {h : StringHeap} {text : String} {e : Error}
    (herror : (h.intern text).1 = .error e) : (h.intern text).2 = h := by
  rcases intern_cases h text with ⟨cause, _, heq⟩ | ⟨offset, _, heq⟩ | ⟨header, _, _, _, heq⟩
  · rw [heq]
  · rw [heq]
  · rw [heq] at herror
    cases herror

theorem holds_after (texts : List String) : ∃ stored, (empty.after texts).Holds stored := by
  induction texts using List.reverseRecOn with
  | nil => exact ⟨[], holds_empty⟩
  | append_singleton texts text ih =>
      obtain ⟨stored, hholds⟩ := ih
      rw [after_append_singleton]
      rcases hholds.intern text with ⟨cause, _, heq⟩ | ⟨offset, later, stored', heq, hlater, _⟩
      · rw [heq]
        exact ⟨stored, hholds⟩
      · rw [heq]
        exact ⟨stored', hlater⟩

/-- A heap only knows texts that were interned. -/
theorem mem_of_offsets {texts : List String} {text : String} {offset : UInt32}
    (hknown : (empty.after texts).offsets[text]? = some offset) : text ∈ texts := by
  induction texts using List.reverseRecOn with
  | nil => simp [after, empty] at hknown
  | append_singleton texts last ih =>
      rw [after_append_singleton] at hknown
      rw [List.mem_append, List.mem_singleton]
      rcases intern_cases (empty.after texts) last with
        ⟨cause, _, heq⟩ | ⟨_, _, heq⟩ | ⟨header, _, _, _, heq⟩
      · rw [heq] at hknown
        exact .inl (ih hknown)
      · rw [heq] at hknown
        exact .inl (ih hknown)
      · rw [heq, Std.HashMap.getElem?_insert] at hknown
        split at hknown
        · rename_i hsame
          exact .inr (beq_iff_eq.mp hsame).symm
        · exact .inl (ih hknown)

/-! ## Tokens -/

/-- The token leads to the entry of the text, and the text has this token for good. -/
structure Locates (h : StringHeap) (text : String) (t : Token) : Prop where
  table : t.table = Token.userStringTable
  entry : entry text <+: h.bytes.toList.drop t.row.toNat
  read : h.get? t = some text
  again : h.intern text = (.ok t, h)

theorem Holds.locates {h : StringHeap} {stored : List String} (hh : h.Holds stored) {text : String}
    {offset : UInt32} (hknown : h.offsets[text]? = some offset) : h.Locates text (token offset) := by
  obtain ⟨hle, before, later, rfl, hat⟩ := hh.located text offset hknown
  constructor
  case table => exact beq_iff_eq.mp (isUserString_token offset)
  case entry =>
    rw [row_token hle, hh.bytes, hat, Nat.add_comm 1, List.drop_succ_cons, List.flatMap_append,
      List.flatMap_cons, List.drop_left]
    exact List.prefix_append _ _
  case read => exact hh.get?_token hknown
  case again => simp [StringHeap.intern, hknown]

/-- A text that is accepted is known from then on by the offset in its token. A new text has the
offset where the heap ended before. -/
theorem intern_eq_ok {h : StringHeap} {text : String} {t : Token}
    (haccepted : (h.intern text).1 = .ok t) :
    ∃ offset, t = token offset ∧ (h.intern text).2.offsets[text]? = some offset ∧
      (h.offsets[text]? = none → t.row.toNat = h.bytes.size) := by
  rcases intern_cases h text with
    ⟨cause, _, heq⟩ | ⟨offset, hknown, heq⟩ | ⟨header, _, hroom, _, heq⟩
  · rw [heq] at haccepted
    cases haccepted
  · rw [heq] at haccepted ⊢
    cases haccepted
    refine ⟨offset, rfl, hknown, fun hnew => ?_⟩
    rw [hknown] at hnew
    cases hnew
  · rw [heq] at haccepted ⊢
    cases haccepted
    have hsize := toNat_toUInt32_of_le hroom
    refine ⟨_, rfl, Std.HashMap.getElem?_insert_self, fun _ => ?_⟩
    rw [row_token (by rwa [hsize]), hsize]

/-- A text that was accepted once is still located after whatever was interned since. -/
theorem locates_of_accepted {texts before : List String} {text : String} {t : Token}
    (hpre : before ++ [text] <+: texts) (haccepted : ((empty.after before).intern text).1 = .ok t) :
    (empty.after texts).Locates text t := by
  obtain ⟨later, rfl⟩ := hpre
  obtain ⟨stored, hholds⟩ := holds_after (before ++ [text] ++ later)
  obtain ⟨offset, rfl, hknown, _⟩ := intern_eq_ok haccepted
  apply hholds.locates
  rw [after_append, after_append_singleton]
  exact (extends_after _ later).offsets text offset hknown

/-- Let texts be interned in order, of which some may be refused. Every token given along the way
leads in the end to the entry of its text, which stands where the heap ended when the text first
came up, and the text would get the same token again. Different texts have different tokens. Bytes
are only ever appended, and a refused text leaves no trace. -/
theorem tokens_stay_good (texts : List String) :
    (∀ before text t, before ++ [text] <+: texts →
      ((empty.after before).intern text).1 = .ok t →
      (empty.after texts).Locates text t ∧
        (text ∉ before → t.row.toNat = (empty.after before).bytes.size)) ∧
    (∀ before before' text text' t, before ++ [text] <+: texts → before' ++ [text'] <+: texts →
      ((empty.after before).intern text).1 = .ok t →
      ((empty.after before').intern text').1 = .ok t → text = text') ∧
    (∀ before, before <+: texts →
      (empty.after before).bytes.toList <+: (empty.after texts).bytes.toList) ∧
    (∀ text e, ((empty.after texts).intern text).1 = .error e →
      ((empty.after texts).intern text).2 = empty.after texts) := by
  refine ⟨?_, ?_, ?_, fun text e => eq_of_intern_eq_error⟩
  · intro before text t hpre haccepted
    refine ⟨locates_of_accepted hpre haccepted, fun hnew => ?_⟩
    obtain ⟨_, _, _, hrow⟩ := intern_eq_ok haccepted
    apply hrow
    cases hknown : (empty.after before).offsets[text]? with
    | none => rfl
    | some offset => exact absurd (mem_of_offsets hknown) hnew
  · intro before before' text text' t hpre hpre' haccepted haccepted'
    have hread := (locates_of_accepted hpre haccepted).read
    rw [(locates_of_accepted hpre' haccepted').read] at hread
    exact (Option.some.inj hread).symm
  · rintro before ⟨later, rfl⟩
    rw [after_append]
    exact (extends_after _ later).bytes

/-- A character beyond the basic plane between two times the same text. -/
theorem tokens_stay_good_repeated :
    let h := empty.after ["A", "😀", "A"]
    (empty.intern "A").1 = .ok (token 1) ∧ ((empty.after ["A"]).intern "😀").1 = .ok (token 5) ∧
      h.Locates "A" (token 1) ∧ h.Locates "😀" (token 5) := by
  have hlatin : entryLength "A" = 3 := by
    simp [entryLength, Text.unitCount_eq_length, Text.unitsOf, Text.units]
  have hemoji : entryLength "😀" = 5 := by
    simp [entryLength, Text.unitCount_eq_length, Text.unitsOf, Text.units]
  have hfirst : (empty.intern "A").1 = .ok (token 1) := by
    simp [intern, empty, hlatin, compressedLength?, heapCapacity]
  have hsize : (empty.after ["A"]).bytes.size = 5 := by
    rw [← Array.length_toList]
    simp [after, intern, empty, hlatin, compressedLength?, heapCapacity, toList_appendUnits,
      Text.unitsOf, Text.units]
  have hsecond : ((empty.after ["A"]).intern "😀").1 = .ok (token 5) := by
    have hnew : (empty.after ["A"]).offsets["😀"]? = none := by
      simp [after, intern, empty, hlatin, compressedLength?, heapCapacity]
    simp [intern, hnew, hsize, hemoji, compressedLength?, heapCapacity]
  have hgood := (tokens_stay_good ["A", "😀", "A"]).1
  exact ⟨hfirst, hsecond, (hgood [] "A" _ ⟨["😀", "A"], rfl⟩ hfirst).1,
    (hgood ["A"] "😀" _ ⟨["A"], rfl⟩ hsecond).1⟩

end CilAssembler.StringHeap
