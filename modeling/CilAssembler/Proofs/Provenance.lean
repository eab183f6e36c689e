import CilAssembler.Proofs.Calls

/-! # Where handles come from

Handles can be copied but not made up: a caller only has those that the recorder gave it at some
time. A rewind lets indices be given again, but only in a new revision. So a handle that is accepted
is, down to its name, one that a line of the stream allocated. -/

namespace CilAssembler

/-! ## Lines and the handles in them -/

/-- What the caller passed was allocated by the lines before, and an end label has no name. -/
structure Instruction.Sourced (before : List Instruction) (i : Instruction) : Prop where
  labels : ∀ label ∈ i.call.labels, label ∈ before.filterMap definedLabel?
  localVar : ∀ v, i.call.localVar? = some v → v ∈ before.filterMap declaredLocal?
  exit : ∀ exit, i = .beginExceptionBlock exit → exit.name = none

/-! ## Sessions -/

/-- A way to use a recorder: its state after some requests, and the call on it that a request
makes. -/
structure Session (ρ : Type) where
  recorder : List ρ → Recorder
  call? : ρ → Option Call

/-- What one request does to a recorder: it leaves the books alone, records a call, or cuts lines
off and starts a later revision. -/
inductive Recorder.Turns (call? : Option Call) (r : Recorder) : Recorder → Prop where
  | rest {r' : Recorder} (hbooks : r'.books = r.books) (hrevision : r'.revision = r.revision) :
      Turns call? r r'
  | record {call : Call} {reply : call.Reply} {i : Instruction} (hcall : call? = some call)
      (hprepare : r.prepare call = .ok (reply, i)) : Turns call? r (r.record i)
  | cut {r' : Recorder} (lines : Nat)
      (hlines : r'.stream.instructions = r.stream.instructions.take lines)
      (hrevision : r.revision < r'.revision) : Turns call? r r'

namespace Session

variable {ρ H : Type} (S : Session ρ) (made? : Instruction → Option H)

/-- The handles that the lines of the stream allocate after some requests. -/
def handles (requests : List ρ) : List H :=
  (S.recorder requests).stream.instructions.filterMap made?

/-- The handle was allocated by a line of the stream at some time. -/
def Issued (requests : List ρ) (handle : H) : Prop :=
  ∃ before, before <+: requests ∧ handle ∈ S.handles made? before

/-- The caller passes no handles of this recorder but those that it was given before. -/
structure Genuine (before : List ρ) (call : Call) : Prop where
  labels : ∀ label ∈ call.labels, label.owner = (S.recorder before).id →
    S.Issued Instruction.definedLabel? before label
  localVar : ∀ v, call.localVar? = some v → v.owner = (S.recorder before).id →
    S.Issued Instruction.declaredLocal? before v

/-- All calls are genuine, and the indices of handles are not exhausted. -/
structure Proper (requests : List ρ) : Prop where
  genuine : ∀ before request call, before ++ [request] <+: requests →
    S.call? request = some call → S.Genuine before call
  labels : ∀ before, before <+: requests → (S.recorder before).labels.size ≤ 2 ^ 32
  locals : ∀ before, before <+: requests → (S.recorder before).locals.size ≤ 2 ^ 32

/-- The recorder starts without lines and moves as recorders do. -/
structure Runs (requests : List ρ) : Prop where
  start : (S.recorder []).stream = .empty
  kept : ∀ before, before <+: requests → (S.recorder before).Kept
  turns : ∀ before request, before ++ [request] <+: requests →
    (S.recorder before).Turns (S.call? request) (S.recorder (before ++ [request]))

variable {S made?} {requests : List ρ} {request : ρ} {handle : H}

/-- A call without handles is genuine. -/
theorem Genuine.of_none {call : Call} (hlabels : call.labels = []) (hlocal : call.localVar? = none) :
    S.Genuine requests call := by
  constructor
  · intro label hlabel
    rw [hlabels] at hlabel
    cases hlabel
  · intro v hv
    rw [hlocal] at hv
    cases hv

theorem Issued.of_mem (h : handle ∈ S.handles made? requests) : S.Issued made? requests handle :=
  ⟨requests, List.prefix_rfl, h⟩

theorem issued_append_singleton_iff :
    S.Issued made? (requests ++ [request]) handle ↔
      S.Issued made? requests handle ∨ handle ∈ S.handles made? (requests ++ [request]) := by
  constructor
  · rintro ⟨before, hpre, hmem⟩
    rcases List.prefix_concat_iff.mp hpre with rfl | hpre
    · exact .inr hmem
    · exact .inl ⟨before, hpre, hmem⟩
  · rintro (⟨before, hpre, hmem⟩ | hmem)
    · exact ⟨before, hpre.trans (List.prefix_append _ _), hmem⟩
    · exact .of_mem hmem

/-- A request that allocates nothing issues nothing. -/
theorem Issued.of_subset
    (hsubset : S.handles made? (requests ++ [request]) ⊆ S.handles made? requests)
    (h : S.Issued made? (requests ++ [request]) handle) : S.Issued made? requests handle := by
  rcases issued_append_singleton_iff.mp h with hold | hmem
  · exact hold
  · exact .of_mem (hsubset hmem)

end Session

/-! ## Handles are told apart -/

/-- What tells handles of one kind apart. -/
structure Stamp where
  owner : AssemblerId
  revision : UInt32
  index : UInt32

def Label.stamp (label : Label) : Stamp :=
  ⟨label.owner, label.revision, label.index⟩

def Local.stamp (v : Local) : Stamp :=
  ⟨v.owner, v.revision, v.index⟩

theorem Label.stamp_eq_of_beq {a b : Label} (h : (a == b) = true) : a.stamp = b.stamp := by
  obtain ⟨howner, hrevision, hindex⟩ := Label.beq_iff.mp h
  rw [stamp, howner, hrevision, hindex, stamp]

theorem Local.stamp_eq_of_sameSlot {a b : Local} (h : a.sameSlot b = true) : a.stamp = b.stamp := by
  simp only [Local.sameSlot, Bool.and_eq_true, beq_iff_eq] at h
  rw [stamp, h.1.1, h.1.2, h.2, stamp]

theorem Local.stamp_eq_of_beq {a b : Local} (h : (a == b) = true) : a.stamp = b.stamp := by
  obtain ⟨howner, hrevision, hindex, _, _⟩ := Local.beq_iff.mp h
  rw [stamp, howner, hrevision, hindex, stamp]

/-- Handles of one kind are numbered in the order of their allocation, and a new one is stamped with
the present revision. -/
structure Numbered {H : Type} (made? : Instruction → Option H) (stamp : H → Stamp) : Prop where
  index : ∀ {id : AssemblerId} {is : List Instruction} {n : Nat} {handle : H}, Recorded id is →
    (is.filterMap made?)[n]? = some handle → (stamp handle).index = n.toUInt32
  new : ∀ {r : Recorder} {call : Call} {reply : call.Reply} {i : Instruction} {new : H}, r.Kept →
    r.prepare call = .ok (reply, i) → made? i = some new →
    stamp new = ⟨r.id, r.revision, (r.stream.instructions.filterMap made?).length.toUInt32⟩

theorem numbered_labels : Numbered Instruction.definedLabel? Label.stamp where
  index h := h.index_of_definedLabel
  new {r _ _ _ new} hkept hprepare hdef := by
    obtain ⟨howner, hindex⟩ := (Recorder.admits_of_prepare hprepare).definedLabel hdef
    rw [hkept.books, Books.size_labels] at hindex
    rw [Label.stamp, howner, hindex, (Recorder.call_of_prepare hprepare).2.label new hdef]

theorem numbered_locals : Numbered Instruction.declaredLocal? Local.stamp where
  index h := h.index_of_declaredLocal
  new {r _ _ _ new} hkept hprepare hdef := by
    obtain ⟨howner, hindex⟩ := (Recorder.admits_of_prepare hprepare).declaredLocal hdef
    rw [hkept.books, Books.size_locals] at hindex
    rw [Local.stamp, howner, hindex, (Recorder.call_of_prepare hprepare).2.localVar new hdef]

namespace Session

variable {ρ H : Type} {S : Session ρ} {made? : Instruction → Option H} {stamp : H → Stamp}
  {requests : List ρ} {request : ρ}

/-- No two handles that were ever issued have the same stamp. This rests on the revisions: handles
that were discarded are of earlier ones than the present one. -/
structure Distinct (S : Session ρ) (made? : Instruction → Option H) (stamp : H → Stamp)
    (requests : List ρ) : Prop where
  present : ∀ handle, S.Issued made? requests handle →
    (stamp handle).revision < (S.recorder requests).revision ∨
      (stamp handle).revision = (S.recorder requests).revision ∧ handle ∈ S.handles made? requests
  unique : ∀ a b, S.Issued made? requests a → S.Issued made? requests b → stamp a = stamp b → a = b

theorem Distinct.of_empty (h : S.handles made? [] = []) : S.Distinct made? stamp [] := by
  have hnone : ∀ handle, ¬S.Issued made? [] handle := by
    rintro handle ⟨before, hpre, hmem⟩
    rw [List.prefix_nil.mp hpre, h] at hmem
    cases hmem
  exact ⟨fun handle hissued => absurd hissued (hnone handle),
    fun a _ hissued => absurd hissued (hnone a)⟩

theorem Distinct.same (h : S.Distinct made? stamp requests)
    (hhandles : S.handles made? (requests ++ [request]) = S.handles made? requests)
    (hrevision : (S.recorder (requests ++ [request])).revision = (S.recorder requests).revision) :
    S.Distinct made? stamp (requests ++ [request]) := by
  have hback : ∀ handle, S.Issued made? (requests ++ [request]) handle →
      S.Issued made? requests handle := by
    intro handle
    apply Issued.of_subset
    rw [hhandles]
    exact List.Subset.refl _
  refine ⟨fun handle hissued => ?_, fun a b ha hb => h.unique a b (hback a ha) (hback b hb)⟩
  rw [hrevision, hhandles]
  exact h.present handle (hback handle hissued)

theorem Distinct.cut (h : S.Distinct made? stamp requests)
    (hhandles : S.handles made? (requests ++ [request]) ⊆ S.handles made? requests)
    (hrevision : (S.recorder requests).revision < (S.recorder (requests ++ [request])).revision) :
    S.Distinct made? stamp (requests ++ [request]) := by
  refine ⟨fun handle hissued => .inl ?_,
    fun a b ha hb => h.unique a b (ha.of_subset hhandles) (hb.of_subset hhandles)⟩
  rcases h.present handle (hissued.of_subset hhandles) with hless | ⟨hsame, _⟩
  · exact UInt32.lt_trans hless hrevision
  · rwa [hsame]

/-- A new handle is none that was issued before: those that were discarded are of earlier revisions,
and the others have smaller indices. -/
theorem Distinct.fresh (h : S.Distinct made? stamp requests) (hkind : Numbered made? stamp)
    (hkept : (S.recorder requests).Kept) {call : Call} {reply : call.Reply} {i : Instruction}
    {new handle : H} (hprepare : (S.recorder requests).prepare call = .ok (reply, i))
    (hmade : made? i = some new) (hroom : (S.handles made? requests).length < 2 ^ 32)
    (hissued : S.Issued made? requests handle) : stamp handle ≠ stamp new := by
  intro heq
  rw [hkind.new hkept hprepare hmade] at heq
  rcases h.present handle hissued with hless | ⟨_, hmem⟩
  · rw [heq] at hless
    exact UInt32.lt_irrefl _ hless
  · obtain ⟨n, hn⟩ := List.mem_iff_getElem?.mp hmem
    have hlt := (List.getElem?_eq_some_iff.mp hn).1
    have hindex : (S.handles made? requests).length.toUInt32 = n.toUInt32 :=
      (congrArg Stamp.index heq).symm.trans (hkind.index hkept.recorded hn)
    exact toUInt32_ne_of_lt (by rwa [toNat_toUInt32_of_lt hroom]) hindex.symm

theorem Distinct.grow (h : S.Distinct made? stamp requests) {new : H}
    (hhandles : S.handles made? (requests ++ [request]) = S.handles made? requests ++ [new])
    (hrevision : (S.recorder (requests ++ [request])).revision = (S.recorder requests).revision)
    (hnew : (stamp new).revision = (S.recorder requests).revision)
    (hfresh : ∀ handle, S.Issued made? requests handle → stamp handle ≠ stamp new) :
    S.Distinct made? stamp (requests ++ [request]) := by
  have hcases : ∀ handle, S.Issued made? (requests ++ [request]) handle →
      S.Issued made? requests handle ∨ handle = new := by
    intro handle hissued
    rcases issued_append_singleton_iff.mp hissued with hold | hmem
    · exact .inl hold
    · rw [hhandles, List.mem_append, List.mem_singleton] at hmem
      exact hmem.imp_left .of_mem
  constructor
  case present =>
    intro handle hissued
    rw [hrevision, hhandles]
    rcases hcases handle hissued with hold | rfl
    · exact (h.present handle hold).imp_right fun ⟨hsame, hmem⟩ =>
        ⟨hsame, List.mem_append_left _ hmem⟩
    · exact .inr ⟨hnew, List.mem_append_right _ (List.mem_singleton_self _)⟩
  case unique =>
    intro a b ha hb heq
    rcases hcases a ha with ha | rfl <;> rcases hcases b hb with hb | rfl
    · exact h.unique a b ha hb heq
    · exact absurd heq (hfresh a ha)
    · exact absurd heq.symm (hfresh b hb)
    · rfl

theorem handles_of_record {i : Instruction}
    (h : S.recorder (requests ++ [request]) = (S.recorder requests).record i) :
    S.handles made? (requests ++ [request]) = S.handles made? requests ++ (made? i).toList := by
  rw [handles, handles, h, Recorder.instructions_record, List.filterMap_append, filterMap_singleton]

theorem Distinct.step (h : S.Distinct made? stamp requests) (hkind : Numbered made? stamp)
    (hruns : S.Runs (requests ++ [request]))
    (hroom : (S.handles made? (requests ++ [request])).length ≤ 2 ^ 32) :
    S.Distinct made? stamp (requests ++ [request]) := by
  have hkept := hruns.kept requests (List.prefix_append _ _)
  have hturns := hruns.turns requests request List.prefix_rfl
  generalize hafter : S.recorder (requests ++ [request]) = after at hturns
  cases hturns with
  | rest hbooks hrevision =>
      rw [← hafter] at hbooks hrevision
      refine h.same ?_ hrevision
      exact congrArg (·.stream.instructions.filterMap made?) hbooks
  | @record call reply i hcall hprepare =>
      have hhandles : S.handles made? (requests ++ [request]) = _ := handles_of_record hafter
      have hrevision : (S.recorder (requests ++ [request])).revision =
          (S.recorder requests).revision := by
        rw [hafter]
        rfl
      cases hmade : made? i with
      | none =>
          rw [hmade, Option.toList_none, List.append_nil] at hhandles
          exact h.same hhandles hrevision
      | some new =>
          rw [hmade, Option.toList_some] at hhandles
          rw [hhandles, List.length_append, List.length_singleton] at hroom
          refine h.grow hhandles hrevision ?_ ?_
          · rw [hkind.new hkept hprepare hmade]
          · exact fun handle => h.fresh hkind hkept hprepare hmade hroom
  | cut lines hlines hrevision =>
      rw [← hafter] at hlines hrevision
      refine h.cut ?_ hrevision
      rw [handles, handles, hlines]
      exact ((List.take_sublist _ _).filterMap _).subset

theorem Runs.of_append (h : S.Runs (requests ++ [request])) : S.Runs requests where
  start := h.start
  kept before hpre := h.kept before (hpre.trans (List.prefix_append _ _))
  turns before request hpre := h.turns before request (hpre.trans (List.prefix_append _ _))

/-- As long as the indices of a kind of handle are not exhausted, its handles are told apart. -/
theorem Runs.distinct (hruns : S.Runs requests) (hkind : Numbered made? stamp)
    (hroom : ∀ before, before <+: requests → (S.handles made? before).length ≤ 2 ^ 32) :
    S.Distinct made? stamp requests := by
  induction requests using List.reverseRecOn with
  | nil =>
      apply Distinct.of_empty
      rw [handles, hruns.start]
      rfl
  | append_singleton requests request ih =>
      refine (ih hruns.of_append ?_).step hkind hruns (hroom _ List.prefix_rfl)
      exact fun before hpre => hroom before (hpre.trans (List.prefix_append _ _))

/-- A handle that was issued is on the roster if one with its stamp is. -/
theorem Distinct.mem_of_issued (h : S.Distinct made? stamp requests) {found handle : H}
    (hfound : found ∈ S.handles made? requests) (hissued : S.Issued made? requests handle)
    (hstamp : stamp found = stamp handle) : handle ∈ S.handles made? requests := by
  rwa [h.unique found handle (.of_mem hfound) hissued hstamp] at hfound

/-! ## Lines refer to what lines allocated -/

theorem size_labels (h : (S.recorder requests).Kept) :
    (S.recorder requests).labels.size = (S.handles Instruction.definedLabel? requests).length := by
  rw [handles, ← Books.size_labels, ← h.books]
  rfl

theorem size_locals (h : (S.recorder requests).Kept) :
    (S.recorder requests).locals.size = (S.handles Instruction.declaredLocal? requests).length := by
  rw [handles, ← Books.size_locals, ← h.books]
  rfl

/-- What is known of a recorder after proper requests. -/
structure Traced (S : Session ρ) (requests : List ρ) : Prop where
  labels : S.Distinct Instruction.definedLabel? Label.stamp requests
  locals : S.Distinct Instruction.declaredLocal? Local.stamp requests
  sourced : EachLine Instruction.Sourced (S.recorder requests).stream.instructions

namespace Traced

theorem sourced_of_prepare (h : S.Traced requests) (hkept : (S.recorder requests).Kept) {call : Call}
    {reply : call.Reply} {i : Instruction} (hgenuine : S.Genuine requests call)
    (hprepare : (S.recorder requests).prepare call = .ok (reply, i)) :
    i.Sourced (S.recorder requests).stream.instructions := by
  obtain ⟨hsame, hallocates⟩ := Recorder.call_of_prepare hprepare
  have hadmits := Recorder.admits_of_prepare hprepare
  rw [hkept.books] at hadmits
  refine ⟨?_, ?_, hallocates.exit⟩
  · intro label hlabel
    have hhas := hadmits.hasLabel (i.labels_call_subset hlabel)
    have hissued := hgenuine.labels label (hsame ▸ hlabel) (hkept.recorded.owner_of_hasLabel hhas)
    -- The recorder compares stamps only, but no other label with this stamp was ever issued.
    obtain ⟨found, hfound, heq⟩ := Books.hasLabel_iff.mp hhas
    exact h.labels.mem_of_issued (List.mem_of_getElem? hfound) hissued (Label.stamp_eq_of_beq heq)
  · intro v hv
    have hhas := hadmits.hasLocal (Instruction.usesLocal_of_call hv)
    have hissued := hgenuine.localVar v (hsame ▸ hv) (hkept.recorded.owner_of_hasLocal hhas)
    obtain ⟨found, hfound, heq⟩ := Books.hasLocal_iff.mp hhas
    exact h.locals.mem_of_issued (List.mem_of_getElem? hfound) hissued (Local.stamp_eq_of_beq heq)

theorem step (h : S.Traced requests) (hruns : S.Runs (requests ++ [request]))
    (hproper : S.Proper (requests ++ [request])) : S.Traced (requests ++ [request]) := by
  have hkept := hruns.kept requests (List.prefix_append _ _)
  have hkept' := hruns.kept (requests ++ [request]) List.prefix_rfl
  constructor
  case labels =>
    apply h.labels.step numbered_labels hruns
    rw [← size_labels hkept']
    exact hproper.labels _ List.prefix_rfl
  case locals =>
    apply h.locals.step numbered_locals hruns
    rw [← size_locals hkept']
    exact hproper.locals _ List.prefix_rfl
  case sourced =>
    have hturns := hruns.turns requests request List.prefix_rfl
    generalize hafter : S.recorder (requests ++ [request]) = after at hturns
    cases hturns with
    | rest hbooks hrevision =>
        have hinstructions : after.stream.instructions =
            (S.recorder requests).stream.instructions := congrArg (·.stream.instructions) hbooks
        rw [hinstructions]
        exact h.sourced
    | @record call _ _ hcall hprepare =>
        have hgenuine := hproper.genuine requests request call List.prefix_rfl hcall
        rw [Recorder.instructions_record, EachLine.append_singleton_iff]
        exact ⟨h.sourced, h.sourced_of_prepare hkept hgenuine hprepare⟩
    | cut lines hlines hrevision =>
        rw [hlines]
        exact h.sourced.take lines

end Traced

theorem Proper.of_append (h : S.Proper (requests ++ [request])) : S.Proper requests where
  genuine before request call hpre :=
    h.genuine before request call (hpre.trans (List.prefix_append _ _))
  labels before hpre := h.labels before (hpre.trans (List.prefix_append _ _))
  locals before hpre := h.locals before (hpre.trans (List.prefix_append _ _))

theorem Runs.traced (hruns : S.Runs requests) (hproper : S.Proper requests) : S.Traced requests := by
  induction requests using List.reverseRecOn with
  | nil =>
      have hnone : (S.recorder []).stream.instructions = [] := by
        rw [hruns.start]
        rfl
      refine ⟨.of_empty ?_, .of_empty ?_, ?_⟩
      · rw [handles, hnone, List.filterMap_nil]
      · rw [handles, hnone, List.filterMap_nil]
      · rw [hnone]
        exact .nil
  | append_singleton requests request ih =>
      exact (ih hruns.of_append hproper.of_append).step hruns hproper

end Session

/-! ## Traceable lines -/

/-- The lines were admitted one by one, they refer to what lines before them allocated, and no two
handles share an index. -/
structure Traceable (id : AssemblerId) (is : List Instruction) : Prop where
  recorded : Recorded id is
  sourced : EachLine Instruction.Sourced is
  labels : (is.filterMap Instruction.definedLabel?).length ≤ 2 ^ 32
  locals : (is.filterMap Instruction.declaredLocal?).length ≤ 2 ^ 32

theorem Traceable.take {id : AssemblerId} {is : List Instruction} (h : Traceable id is) (count : Nat) :
    Traceable id (is.take count) where
  recorded := h.recorded.take count
  sourced := h.sourced.take count
  labels := Nat.le_trans ((List.take_sublist count is).filterMap _).length_le h.labels
  locals := Nat.le_trans ((List.take_sublist count is).filterMap _).length_le h.locals

theorem Session.Runs.traceable {ρ : Type} {S : Session ρ} {requests : List ρ} (h : S.Runs requests)
    (hproper : S.Proper requests) :
    Traceable (S.recorder requests).id (S.recorder requests).stream.instructions := by
  have hkept := h.kept requests List.prefix_rfl
  constructor
  case recorded => exact hkept.recorded
  case sourced => exact (h.traced hproper).sourced
  case labels => exact (size_labels hkept).symm ▸ hproper.labels requests List.prefix_rfl
  case locals => exact (size_locals hkept).symm ▸ hproper.locals requests List.prefix_rfl

end CilAssembler
