import CilAssembler.Cache
import CilAssembler.CallShape
import CilAssembler.Error

/-! # Caches are written once

A builder may use the cache for which it builds, so between the look-up of a key and the binding of
what was built for it anything can happen, the same build included. Even so a key is bound once:
whoever asks for its value, at whatever depth, is given the same. -/

namespace CilAssembler

namespace Cache

/-! ## Scripts -/

/-- What is done with a cache, step by step; a step may depend on the answers to those before it. A
builder is a script as well, which ends with what it built or with its failure. -/
inductive Script (κ ν ε : Type) where
  | done (outcome : Except ε ν)
  | get (key : κ) (next : Option ν → Script κ ν ε)
  | contains (key : κ) (next : Bool → Script κ ν ε)
  | build (key : κ) (builder : Script κ ν ε) (next : Except ε ν → Script κ ν ε)

variable {κ ν ε : Type} [BEq κ] [Hashable κ]

/-- What a step answered. A build also says how its builder ended and which cache the builder left, if
it ran. -/
inductive Answer (κ ν ε : Type) [BEq κ] [Hashable κ] where
  | value (answer : Option ν)
  | presence (answer : Bool)
  | built (builder : Option (Except ε ν × Cache κ ν)) (result : Except ε ν)

/-- A step that was carried out, between the caches before and after it. -/
structure Event (κ ν ε : Type) [BEq κ] [Hashable κ] where
  key : κ
  before : Cache κ ν
  answer : Answer κ ν ε
  after : Cache κ ν

/-- How a script ended, the steps on the way and the cache that it left. Steps are listed in the order
in which they ended, so those of a builder come before the build. -/
structure Course (κ ν ε : Type) [BEq κ] [Hashable κ] where
  outcome : Except ε ν
  events : List (Event κ ν ε)
  left : Cache κ ν

/-- Puts steps before those of a course. -/
def Course.follow (events : List (Event κ ν ε)) (course : Course κ ν ε) : Course κ ν ε :=
  { course with events := events ++ course.events }

/-- Carries out a script. -/
def Script.run : Script κ ν ε → Cache κ ν → Course κ ν ε
  | .done outcome, c => ⟨outcome, [], c⟩
  | .get key next, c =>
      ((next (c.get? key)).run c).follow [⟨key, c, .value (c.get? key), c⟩]
  | .contains key next, c =>
      ((next (c.contains key)).run c).follow [⟨key, c, .presence (c.contains key), c⟩]
  | .build key builder next, c =>
      let built := c.getOrBuild key fun c =>
        (((builder.run c).outcome, builder.run c), (builder.run c).left)
      let inner := (built.1.report.map (·.events)).getD []
      let ran := built.1.report.map fun course => (course.outcome, course.left)
      ((next built.1.result).run built.2).follow
        (inner ++ [⟨key, c, .built ran built.1.result, built.2⟩])

/-- The value that a step returned. -/
def Event.value? (e : Event κ ν ε) : Option ν :=
  match e.answer with
  | .value answer => answer
  | .presence _ => none
  | .built _ result => result.toOption

/-- The step is a build of the key that returned a value. -/
def Event.Builds (e : Event κ ν ε) (key : κ) : Prop :=
  (e.key == key) = true ∧ ∃ builder v, e.answer = .built builder (.ok v)

/-! ## What is promised -/

/-- What was bound before is bound to the same value. -/
def KeptBy (c d : Cache κ ν) : Prop :=
  ∀ key v, c.get? key = some v → d.get? key = some v

/-- What one step promises. -/
structure Event.Sound (e : Event κ ν ε) : Prop where
  /-- A value that is returned is bound. -/
  bound : ∀ v, e.value? = some v → e.after.get? e.key = some v
  /-- A builder runs only for a key that is not bound. -/
  unbound : ∀ ran result, e.answer = .built (some ran) result → e.before.get? e.key = none
  /-- Without its builder a build returns what was bound, and changes nothing. -/
  found : ∀ result, e.answer = .built none result →
    e.after = e.before ∧ ∃ v, e.before.get? e.key = some v ∧ result = .ok v
  /-- What a builder's own steps bound wins over what it built. -/
  earlier_wins : ∀ own left result, e.answer = .built (some (.ok own, left)) result →
    result = .ok ((left.get? e.key).getD own)
  /-- A failed build leaves the cache as the steps of the builder left it. -/
  failed : ∀ ran failure, e.answer = .built ran (.error failure) →
    ran = some (.error failure, e.after)

/-- The steps lead from one cache to another. A bound value stays, and only builds bind. -/
structure Leads (start : Cache κ ν) (events : List (Event κ ν ε)) (final : Cache κ ν) : Prop where
  sound : ∀ e ∈ events, e.Sound
  kept : (start :: (events.map (·.after) ++ [final])).Pairwise KeptBy
  contains_iff : ∀ key, final.contains key = true ↔
    start.contains key = true ∨ ∃ e ∈ events, e.Builds key

/-- The steps lead from one cache to another, and all that return a value of one key return the same
value. -/
structure WriteOnce (start : Cache κ ν) (events : List (Event κ ν ε)) (final : Cache κ ν) : Prop
    extends Leads start events final where
  agree : ∀ d ∈ events, ∀ e ∈ events, (d.key == e.key) = true →
    ∀ v w, d.value? = some v → e.value? = some w → v = w

/-! ## Kept values -/

theorem KeptBy.refl (c : Cache κ ν) : c.KeptBy c :=
  fun _ _ h => h

theorem KeptBy.trans {c d e : Cache κ ν} (hcd : c.KeptBy d) (hde : d.KeptBy e) : c.KeptBy e :=
  fun key v h => hde key v (hcd key v h)

/-! ## Steps in a row -/

namespace Leads

variable {start mid final : Cache κ ν} {events later : List (Event κ ν ε)}

theorem nil (c : Cache κ ν) : Leads (ε := ε) c [] c where
  sound := by simp
  kept := by simpa using KeptBy.refl c
  contains_iff := by simp

theorem append (h : Leads start events mid) (hlater : Leads mid later final) :
    Leads start (events ++ later) final where
  sound e he := (List.mem_append.mp he).elim (h.sound e) (hlater.sound e)
  kept := by
    rw [List.map_append, List.append_assoc, ← List.cons_append]
    obtain ⟨hbefore, _, hmid⟩ := List.pairwise_append.mp (List.cons_append ▸ h.kept)
    obtain ⟨hafter, hrest⟩ := List.pairwise_cons.mp hlater.kept
    refine List.pairwise_append.mpr ⟨hbefore, hrest, ?_⟩
    intro c hc d hd
    exact (hmid c hc mid List.mem_cons_self).trans (hafter d hd)
  contains_iff key := by
    rw [hlater.contains_iff, h.contains_iff, or_assoc]
    simp only [List.mem_append, or_and_right, exists_or]

/-- One step leads from a cache to the cache after it, if it keeps values and binds what it built. -/
theorem singleton {e : Event κ ν ε} (hsound : e.Sound) (hkept : start.KeptBy e.after)
    (hcontains : ∀ key, e.after.contains key = true ↔ start.contains key = true ∨ e.Builds key) :
    Leads start [e] e.after where
  sound := by simpa using hsound
  kept := by simpa using ⟨hkept, KeptBy.refl e.after⟩
  contains_iff := by simpa using hcontains

/-- A step that only reads leads nowhere else. -/
theorem read (c : Cache κ ν) (key : κ) {answer : Answer κ ν ε}
    (hanswer : answer = .value (c.get? key) ∨ ∃ present, answer = .presence present) :
    Leads c [⟨key, c, answer, c⟩] c := by
  have hbuilt : ∀ ran result, answer ≠ .built ran result := by
    rintro ran result rfl
    rcases hanswer with h | ⟨_, h⟩ <;> cases h
  refine singleton (e := ⟨key, c, answer, c⟩) ⟨?_, ?_, ?_, ?_, ?_⟩ (KeptBy.refl c) ?_
  · intro v hv
    rcases hanswer with rfl | ⟨present, rfl⟩
    · exact hv
    · cases hv
  · exact fun ran result h => absurd h (hbuilt _ _)
  · exact fun result h => absurd h (hbuilt _ _)
  · exact fun own left result h => absurd h (hbuilt _ _)
  · exact fun ran failure h => absurd h (hbuilt _ _)
  · intro other
    have hnot : ¬Event.Builds ⟨key, c, answer, c⟩ other := by
      rintro ⟨_, _, _, h⟩
      exact hbuilt _ _ h
    simp only [hnot, or_false]

/-- A build whose builder fails and leaves the cache `left`. -/
theorem failed {c : Cache κ ν} {key : κ} (hkey : c.get? key = none) (failure : ε) (left : Cache κ ν) :
    Leads left [⟨key, c, .built (some (.error failure, left)) (.error failure), left⟩] left := by
  refine singleton (e := ⟨key, c, .built (some (.error failure, left)) (.error failure), left⟩)
    ⟨?_, ?_, ?_, ?_, ?_⟩ (KeptBy.refl left) ?_
  · rintro _ ⟨⟩
  · rintro _ _ ⟨⟩
    exact hkey
  · rintro _ ⟨⟩
  · rintro _ _ _ ⟨⟩
  · rintro _ _ ⟨⟩
    rfl
  · intro other
    constructor
    · exact .inl
    · rintro (h | ⟨_, _, _, ⟨⟩⟩)
      exact h

/-- A value that some step returned is bound at the end. -/
theorem get?_of_value? (h : Leads start events final) {e : Event κ ν ε} (he : e ∈ events) {v : ν}
    (hv : e.value? = some v) : final.get? e.key = some v := by
  have hkept := (List.pairwise_append.mp (List.pairwise_cons.mp h.kept).2).2.2
  exact hkept e.after (List.mem_map_of_mem he) final List.mem_cons_self e.key v ((h.sound e he).bound v hv)

end Leads

/-! ## Keys -/

/-- All that asking for a value can come to. -/
theorem getOrBuild_cases {β : Type} (c : Cache κ ν) (key : κ)
    (build : Cache κ ν → (Except ε ν × β) × Cache κ ν) :
    (∃ v, c.get? key = some v ∧ c.getOrBuild key build = (⟨.ok v, none⟩, c)) ∨
    (∃ e report left, c.get? key = none ∧ build c = ((.error e, report), left) ∧
      c.getOrBuild key build = (⟨.error e, some report⟩, left)) ∨
    (∃ own report left, c.get? key = none ∧ build c = ((.ok own, report), left) ∧
      c.getOrBuild key build =
        (⟨.ok (left.insertIfNew key own).1, some report⟩, (left.insertIfNew key own).2)) := by
  unfold getOrBuild
  cases hkey : c.get? key with
  | some v => exact .inl ⟨v, rfl, rfl⟩
  | none =>
      cases hbuild : build c with
      | mk done left =>
          obtain ⟨outcome, report⟩ := done
          cases outcome with
          | error e => exact .inr (.inl ⟨e, report, left, rfl, rfl, rfl⟩)
          | ok own => exact .inr (.inr ⟨own, report, left, rfl, rfl, rfl⟩)

theorem insertIfNew_fst (c : Cache κ ν) (key : κ) (value : ν) :
    (c.insertIfNew key value).1 = (c.get? key).getD value := by
  unfold insertIfNew
  cases c.get? key <;> rfl

section Lawful

variable [EquivBEq κ] [LawfulHashable κ]

theorem get?_congr (c : Cache κ ν) {key key' : κ} (h : (key == key') = true) :
    c.get? key = c.get? key' :=
  Std.HashMap.getElem?_congr h

theorem contains_iff_exists (c : Cache κ ν) (key : κ) :
    c.contains key = true ↔ ∃ v, c.get? key = some v := by
  rw [contains, Std.HashMap.contains_eq_isSome_getElem?, Option.isSome_iff_exists]
  rfl

/-- Binding a key that has no value binds nothing else, and a value that is there stays. -/
theorem get?_insertIfNew (c : Cache κ ν) (key : κ) (value : ν) (other : κ) :
    (c.insertIfNew key value).2.get? other =
      if (key == other) = true then some ((c.get? key).getD value) else c.get? other := by
  unfold insertIfNew
  cases hkey : c.get? key with
  | none =>
      simp only [get?, Std.HashMap.getElem?_insert, Option.getD_none]
  | some bound =>
      by_cases hother : (key == other) = true
      · rw [if_pos hother, ← get?_congr c hother, hkey]
        rfl
      · rw [if_neg hother]

theorem keptBy_insertIfNew (c : Cache κ ν) (key : κ) (value : ν) :
    c.KeptBy (c.insertIfNew key value).2 := by
  intro other v hv
  rw [get?_insertIfNew]
  by_cases hother : (key == other) = true
  · rw [if_pos hother, get?_congr c hother, hv]
    rfl
  · rw [if_neg hother, hv]

theorem contains_insertIfNew (c : Cache κ ν) (key : κ) (value : ν) (other : κ) :
    (c.insertIfNew key value).2.contains other = true ↔
      c.contains other = true ∨ (key == other) = true := by
  rw [contains_iff_exists, contains_iff_exists, get?_insertIfNew]
  by_cases hother : (key == other) = true
  · simp [hother]
  · simp [hother]

/-! ## Builds -/

namespace Leads

/-- A build whose key is bound. -/
theorem found {c : Cache κ ν} {key : κ} {v : ν} (hkey : c.get? key = some v) :
    Leads (ε := ε) c [⟨key, c, .built none (.ok v), c⟩] c := by
  refine singleton (e := ⟨key, c, .built none (.ok v), c⟩) ⟨?_, ?_, ?_, ?_, ?_⟩ (KeptBy.refl c) ?_
  · rintro _ ⟨⟩
    exact hkey
  · rintro _ _ ⟨⟩
  · rintro _ ⟨⟩
    exact ⟨rfl, v, hkey, rfl⟩
  · rintro _ _ _ ⟨⟩
  · rintro _ _ ⟨⟩
  · intro other
    constructor
    · exact .inl
    · rintro (h | ⟨hother, _⟩)
      · exact h
      · rw [contains_iff_exists, ← get?_congr c hother]
        exact ⟨v, hkey⟩

/-- A build whose builder leaves the cache `left` and a value of its own. -/
theorem built {c : Cache κ ν} {key : κ} (hkey : c.get? key = none) (own : ν) (left : Cache κ ν) :
    Leads (ε := ε) left [⟨key, c, .built (some (.ok own, left)) (.ok (left.insertIfNew key own).1),
      (left.insertIfNew key own).2⟩] (left.insertIfNew key own).2 := by
  refine singleton (e := ⟨key, c, .built (some (.ok own, left)) (.ok (left.insertIfNew key own).1),
    (left.insertIfNew key own).2⟩) ⟨?_, ?_, ?_, ?_, ?_⟩ (keptBy_insertIfNew left key own) ?_
  · rintro _ ⟨⟩
    rw [get?_insertIfNew, if_pos BEq.rfl, insertIfNew_fst]
  · rintro _ _ ⟨⟩
    exact hkey
  · rintro _ ⟨⟩
  · rintro _ _ _ ⟨⟩
    rw [insertIfNew_fst]
  · rintro _ _ ⟨⟩
  · intro other
    rw [contains_insertIfNew]
    constructor
    · rintro (h | h)
      · exact .inl h
      · exact .inr ⟨h, _, _, rfl⟩
    · rintro (h | ⟨h, _⟩)
      · exact .inl h
      · exact .inr h

theorem writeOnce {start final : Cache κ ν} {events : List (Event κ ν ε)}
    (h : Leads start events final) : WriteOnce start events final where
  toLeads := h
  agree := by
    intro d hd e he hkey v w hv hw
    have hbound := h.get?_of_value? hd hv
    rw [get?_congr final hkey, h.get?_of_value? he hw] at hbound
    exact (Option.some.inj hbound).symm

end Leads

/-- Each step leads on from where the one before it led. A build leads through the steps of its
builder first, if the builder runs. -/
theorem Script.leads_run (script : Script κ ν ε) (c : Cache κ ν) :
    Leads c (script.run c).events (script.run c).left := by
  induction script generalizing c with
  | done outcome => exact .nil c
  | get key next ih => exact (Leads.read c key (.inl rfl)).append (ih _ c)
  | contains key next ih => exact (Leads.read c key (.inr ⟨_, rfl⟩)).append (ih _ c)
  | build key builder next ihbuilder ih =>
      rcases c.getOrBuild_cases key fun c =>
        (((builder.run c).outcome, builder.run c), (builder.run c).left) with
        ⟨v, hkey, hbuilt⟩ | ⟨failure, _, _, hkey, hrun, hbuilt⟩ | ⟨own, _, _, hkey, hrun, hbuilt⟩
      · simp only [run, hbuilt]
        exact (Leads.found hkey).append (ih _ c)
      · obtain ⟨⟨houtcome, rfl⟩, rfl⟩ := by simpa only [Prod.mk.injEq] using hrun
        simp only [run, hbuilt, Option.map_some, Option.getD_some, houtcome]
        exact ((ihbuilder c).append (Leads.failed hkey failure _)).append (ih _ _)
      · obtain ⟨⟨houtcome, rfl⟩, rfl⟩ := by simpa only [Prod.mk.injEq] using hrun
        simp only [run, hbuilt, Option.map_some, Option.getD_some, houtcome]
        exact ((ihbuilder c).append (Leads.built hkey own _)).append (ih _ _)

/-- Whatever is done with a cache, and whatever builders do with it meanwhile, a key is bound once. -/
theorem bound_value_never_changes (script : Script κ ν ε) (c : Cache κ ν) :
    WriteOnce c (script.run c).events (script.run c).left :=
  (script.leads_run c).writeOnce

/-- A builder binds its own key under another name and then fails. What it bound is what the next
build of the key returns. -/
theorem bound_value_never_changes_own_key :
    ∃ script : Script CallShape String Error,
      script = .build ⟨false, [⟨⟨0x01000001⟩, "System.Int32"⟩], none⟩
        (.build ⟨false, [⟨⟨0x01000001⟩, "int"⟩], none⟩ (.done (.ok "inner"))
          fun _ => .done (.error (.failure "late")))
        (fun _ => .build ⟨false, [⟨⟨0x01000001⟩, "int32"⟩], none⟩ (.done (.ok "outer")) .done) ∧
      (script.run .empty).outcome = .ok "inner" ∧
      WriteOnce .empty (script.run .empty).events (script.run .empty).left := by
  refine ⟨_, rfl, ?_, bound_value_never_changes _ _⟩
  have hsame : ∀ name name' : String,
      ((⟨false, [⟨⟨0x01000001⟩, name⟩], none⟩ : CallShape) ==
        ⟨false, [⟨⟨0x01000001⟩, name'⟩], none⟩) = true :=
    fun _ _ => CallShape.beq_iff_tokens_eq.mpr rfl
  simp [Script.run, Course.follow, getOrBuild, insertIfNew, get?, empty, Std.HashMap.getElem_insert,
    hsame]

end Lawful

end Cache

end CilAssembler
