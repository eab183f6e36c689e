import CilAssembler.MethodBody.Finish

/-! # Filling in displacements

Filling in displacements whose fields do not overlap writes each distance into its own field and
leaves every other byte as it is. -/

namespace CilAssembler

/-! ## Overwriting -/

@[simp] theorem size_patch (code : Array UInt8) (start : Nat) (bytes : List UInt8) :
    (patch code start bytes).size = code.size := by
  induction bytes generalizing code start with
  | nil => rfl
  | cons byte bytes ih =>
      rw [patch, ih]
      simp

theorem getElem?_patch_of_lt (code : Array UInt8) {start p : Nat} (h : p < start)
    (bytes : List UInt8) : (patch code start bytes)[p]? = code[p]? := by
  induction bytes generalizing code start with
  | nil => rfl
  | cons byte bytes ih =>
      rw [patch, ih _ (Nat.lt_succ_of_lt h), Array.getElem?_setIfInBounds_ne (Nat.ne_of_gt h)]

theorem getElem?_patch_of_le (code : Array UInt8) {start p : Nat} {bytes : List UInt8}
    (h : start + bytes.length ≤ p) : (patch code start bytes)[p]? = code[p]? := by
  induction bytes generalizing code start with
  | nil => rfl
  | cons byte bytes ih =>
      rw [List.length_cons] at h
      rw [patch, ih _ (by omega), Array.getElem?_setIfInBounds_ne (by omega)]

theorem getElem?_patch {code : Array UInt8} {start : Nat} {bytes : List UInt8}
    (hroom : start + bytes.length ≤ code.size) {k : Nat} (hk : k < bytes.length) :
    (patch code start bytes)[start + k]? = bytes[k]? := by
  induction bytes generalizing code start k with
  | nil => cases hk
  | cons byte bytes ih =>
      rw [List.length_cons] at hroom hk
      rw [patch]
      cases k with
      | zero =>
          have hstart : start + 0 = start := Nat.add_zero start
          rw [hstart, getElem?_patch_of_lt _ (Nat.lt_add_one start),
            Array.getElem?_setIfInBounds_self_of_lt (by omega)]
          rfl
      | succ k =>
          have hnext : start + (k + 1) = start + 1 + k := by omega
          rw [hnext, List.getElem?_cons_succ]
          exact ih (by rw [Array.size_setIfInBounds]; omega) (by omega)

/-! ## Fields -/

namespace Displacement

/-- The byte at a position belongs to the field. -/
def Covers (d : Displacement) (p : Nat) : Prop :=
  d.field ≤ p ∧ p < d.field + d.width

/-- The fields have no byte in common. -/
def Apart (d e : Displacement) : Prop :=
  d.field + d.width ≤ e.field ∨ e.field + e.width ≤ d.field

/-- The field holds the distance to the place of the target. -/
def Filled (labels : Array (Option Nat)) (code : Array UInt8) (d : Displacement) : Prop :=
  ∃ place : Nat, BodyBuilder.labelPosition labels d.target = .ok place ∧
    fitsSigned d.width (place - d.next) = true ∧
    ∀ k, k < d.width → code[d.field + k]? = (littleEndianInt d.width (place - d.next))[k]?

theorem Apart.not_covers {d e : Displacement} (h : d.Apart e) {k : Nat} (hk : k < d.width) :
    ¬e.Covers (d.field + k) := by
  rintro ⟨hle, hlt⟩
  rcases h with h | h <;> omega

theorem Filled.congr {labels : Array (Option Nat)} {code code' : Array UInt8} {d : Displacement}
    (h : d.Filled labels code) (heq : ∀ k, k < d.width → code'[d.field + k]? = code[d.field + k]?) :
    d.Filled labels code' := by
  obtain ⟨place, hplace, hfits, hbytes⟩ := h
  refine ⟨place, hplace, hfits, ?_⟩
  intro k hk
  rw [heq k hk, hbytes k hk]

end Displacement

namespace BodyBuilder

theorem fill_eq_ok {labels : Array (Option Nat)} {code code' : Array UInt8} {d : Displacement}
    (h : fill labels code d = .ok code') :
    ∃ place : Nat, labelPosition labels d.target = .ok place ∧
      fitsSigned d.width (place - d.next) = true ∧
      code' = patch code d.field (littleEndianInt d.width (place - d.next)) := by
  unfold fill at h
  cases hplace : labelPosition labels d.target with
  | error e =>
      rw [hplace] at h
      cases h
  | ok place =>
      rw [hplace] at h
      simp only at h
      split at h
      · rename_i hfits
        cases h
        exact ⟨place, rfl, hfits, rfl⟩
      · cases h

/-- What filling in a list of displacements does to the code. -/
structure FilledIn (labels : Array (Option Nat)) (ds : List Displacement) (code code' : Array UInt8) :
    Prop where
  size : code'.size = code.size
  kept : ∀ p, (∀ d ∈ ds, ¬d.Covers p) → code'[p]? = code[p]?
  filled : ∀ d ∈ ds, d.Filled labels code'

theorem filledIn_of_fill {labels : Array (Option Nat)} {code code' : Array UInt8} {d : Displacement}
    (h : fill labels code d = .ok code') (hroom : d.field + d.width ≤ code.size) :
    FilledIn labels [d] code code' := by
  obtain ⟨place, hplace, hfits, rfl⟩ := fill_eq_ok h
  have hlength := length_littleEndianInt d.width (place - d.next)
  refine ⟨size_patch _ _ _, ?_, ?_⟩
  · intro p hp
    have hnot := hp d List.mem_cons_self
    by_cases hlt : p < d.field
    · exact getElem?_patch_of_lt _ hlt _
    · refine getElem?_patch_of_le _ ?_
      rw [hlength]
      exact Nat.le_of_not_lt fun h => hnot ⟨Nat.le_of_not_lt hlt, h⟩
  · intro e he
    rw [List.mem_singleton.mp he]
    refine ⟨place, hplace, hfits, ?_⟩
    intro k hk
    exact getElem?_patch (by rw [hlength]; exact hroom) (by rw [hlength]; exact hk)

/-- Fields may be listed twice, since a field that is filled in twice gets the same bytes. -/
theorem filledIn_of_fillAll {labels : Array (Option Nat)} {ds : List Displacement}
    {code code' : Array UInt8} (h : fillAll labels ds code = .ok code')
    (hapart : ∀ d ∈ ds, ∀ e ∈ ds, d = e ∨ d.Apart e)
    (hroom : ∀ d ∈ ds, d.field + d.width ≤ code.size) : FilledIn labels ds code code' := by
  induction ds generalizing code with
  | nil =>
      cases h
      exact ⟨rfl, fun _ _ => rfl, nofun⟩
  | cons d rest ih =>
      unfold fillAll at h
      cases hfill : fill labels code d with
      | error e =>
          rw [hfill] at h
          cases h
      | ok first =>
          rw [hfill] at h
          have hfirst := filledIn_of_fill hfill (hroom d List.mem_cons_self)
          have hrest : FilledIn labels rest first code' := by
            apply ih h
            · intro e he f hf
              exact hapart e (List.mem_cons_of_mem d he) f (List.mem_cons_of_mem d hf)
            · intro e he
              rw [hfirst.size]
              exact hroom e (List.mem_cons_of_mem d he)
          refine ⟨hrest.size.trans hfirst.size, ?_, ?_⟩
          · intro p hp
            rw [hrest.kept p fun e he => hp e (List.mem_cons_of_mem d he),
              hfirst.kept p fun e he => List.mem_singleton.mp he ▸ hp d List.mem_cons_self]
          · intro e he
            by_cases hagain : e ∈ rest
            · exact hrest.filled e hagain
            · obtain rfl : e = d := (List.mem_cons.mp he).resolve_right hagain
              apply (hfirst.filled e List.mem_cons_self).congr
              intro k hk
              apply hrest.kept
              intro f hf
              have hne : e ≠ f := fun heq => hagain (heq ▸ hf)
              exact ((hapart e he f (List.mem_cons_of_mem e hf)).resolve_left hne).not_covers hk

end BodyBuilder

end CilAssembler
