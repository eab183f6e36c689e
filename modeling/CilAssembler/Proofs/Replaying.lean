import CilAssembler.Proofs.Adoption
import CilAssembler.Proofs.Overrun
import CilAssembler.Replay

/-! # Replaying a stream

A new recorder accepts the calls of a recorded stream one by one, and hands out handles with the
same indices in the same order. So it ends up with the stream that was replayed, in its own
handles. -/

namespace CilAssembler

/-! ## Renamings -/

theorem mapM_eq_ok_map {α β : Type} {f : α → Except Error β} {g : α → β} {xs : List α}
    (h : ∀ x ∈ xs, f x = .ok (g x)) : xs.mapM f = .ok (xs.map g) := by
  induction xs with
  | nil => rfl
  | cons x xs ih =>
      have hx := h x List.mem_cons_self
      have hxs := ih fun y hy => h y (List.mem_cons_of_mem x hy)
      simp [List.mapM_cons, hx, hxs, bind, Except.bind, pure, Except.pure]

/-- Entering the next of some numbered things in a map keeps what the map holds for the others. -/
theorem getElem?_insert_of_numbered {α β : Type} (index : α → UInt32) (f : α → β) {xs : List α}
    {new : α} {map : Std.HashMap UInt32 β}
    (hnumbered : ∀ (n : Nat) (x : α), (xs ++ [new])[n]? = some x → index x = n.toUInt32)
    (hroom : (xs ++ [new]).length ≤ 2 ^ 32) (h : ∀ x ∈ xs, map[index x]? = some (f x)) :
    ∀ x ∈ xs ++ [new], (map.insert (index new) (f new))[index x]? = some (f x) := by
  have hnew := hnumbered xs.length new (by simp)
  rw [List.length_append, List.length_singleton] at hroom
  intro x hx
  rcases List.mem_append.mp hx with hold | hlast
  · obtain ⟨n, hn⟩ := List.mem_iff_getElem?.mp hold
    have hlt := (List.getElem?_eq_some_iff.mp hn).1
    have hindex := hnumbered n x (by rw [List.getElem?_append_left hlt, hn])
    have hne : (index new == index x) = false := by
      rw [beq_eq_false_iff_ne, hnew, hindex]
      exact (toUInt32_ne_of_lt (by rwa [toNat_toUInt32_of_lt hroom])).symm
    rw [Std.HashMap.getElem?_insert, hne]
    exact h x hold
  · rw [List.mem_singleton.mp hlast]
    exact Std.HashMap.getElem?_insert_self

theorem Operand.rename_eq_adopt {id : AssemblerId} {f : Label → Except Error Label}
    {g : Local → Except Error Local} {x : Operand Label Local}
    (hlabels : ∀ label ∈ x.targets, f label = .ok (label.adopt id))
    (hlocal : ∀ v, x = .localVar v → g v = .ok (v.adopt id)) : x.rename f g = .ok (x.adopt id) := by
  cases x with
  | label target =>
      simp only [rename, hlabels target List.mem_cons_self, Except.map]
      rfl
  | labels targets =>
      have htargets : targets.mapM f = .ok (targets.map (·.adopt id)) := mapM_eq_ok_map hlabels
      simp only [rename, htargets, Except.map]
      rfl
  | localVar v =>
      simp only [rename, hlocal v rfl, Except.map]
      rfl
  | _ => rfl

namespace Renaming

/-- What the lines so far allocated has become the handles of `id` with the same indices. -/
structure Adopts (id : AssemblerId) (done : List Instruction) (m : Renaming) : Prop where
  labels : ∀ label ∈ done.filterMap Instruction.definedLabel?,
    m.labels[label.index]? = some (label.adopt id)
  locals : ∀ v ∈ done.filterMap Instruction.declaredLocal?,
    m.locals[v.index]? = some (v.adopt id)

variable {id : AssemblerId} {done : List Instruction} {m : Renaming} {i : Instruction}

theorem adopts_empty (id : AssemblerId) : empty.Adopts id [] :=
  ⟨nofun, nofun⟩

theorem Adopts.label_eq (h : m.Adopts id done) {label : Label}
    (hlabel : label ∈ done.filterMap Instruction.definedLabel?) :
    m.label label = .ok (label.adopt id) := by
  simp [Renaming.label, h.labels label hlabel]

theorem Adopts.localVar_eq (h : m.Adopts id done) {v : Local}
    (hv : v ∈ done.filterMap Instruction.declaredLocal?) : m.localVar v = .ok (v.adopt id) := by
  simp [localVar, h.locals v hv]

/-- A line is repeated by the call that its adopted form records. -/
theorem Adopts.call_eq (h : m.Adopts id done) (hsourced : i.Sourced done) :
    m.call i = .ok (i.adopt id).call := by
  cases i with
  | op o =>
      have hoperand : o.operand.rename m.label m.localVar = .ok (o.operand.adopt id) := by
        apply Operand.rename_eq_adopt
        · exact fun label hlabel => h.label_eq (hsourced.labels label hlabel)
        · intro v hv
          apply h.localVar_eq (hsourced.localVar v _)
          simp [Instruction.call, Call.localVar?, hv]
      simp only [call, hoperand, Except.map]
      rfl
  | markLabel label =>
      have hlabel := h.label_eq (hsourced.labels label List.mem_cons_self)
      simp only [call, hlabel, Except.map]
      rfl
  | beginCatchBlock type =>
      rw [Instruction.adopt_beginCatchBlock]
      rfl
  | _ => rfl

/-- What the repeated line allocated is noted. -/
theorem Adopts.learn (h : m.Adopts id done) {other : AssemblerId}
    (hrecorded : Recorded other (done ++ [i]))
    (hlabels : ((done ++ [i]).filterMap Instruction.definedLabel?).length ≤ 2 ^ 32)
    (hlocals : ((done ++ [i]).filterMap Instruction.declaredLocal?).length ≤ 2 ^ 32) :
    (m.learn i (i.adopt id).call (i.adopt id).reply).Adopts id (done ++ [i]) := by
  have hindex : ∀ (n : Nat) (label : Label),
      ((done ++ [i]).filterMap Instruction.definedLabel?)[n]? = some label →
        label.index = n.toUInt32 :=
    fun _ _ => hrecorded.index_of_definedLabel
  have hindex' : ∀ (n : Nat) (v : Local),
      ((done ++ [i]).filterMap Instruction.declaredLocal?)[n]? = some v → v.index = n.toUInt32 :=
    fun _ _ => hrecorded.index_of_declaredLocal
  rw [List.filterMap_append, filterMap_singleton] at hlabels hlocals hindex hindex'
  constructor
  · rw [List.filterMap_append, filterMap_singleton]
    cases i with
    | defineLabel | beginExceptionBlock =>
        exact getElem?_insert_of_numbered Label.index (Label.adopt id) hindex hlabels h.labels
    | _ => exact (List.append_nil _).symm ▸ h.labels
  · rw [List.filterMap_append, filterMap_singleton]
    cases i with
    | declareLocal =>
        exact getElem?_insert_of_numbered Local.index (Local.adopt id) hindex' hlocals h.locals
    | _ => exact (List.append_nil _).symm ▸ h.locals

end Renaming

/-! ## Replaying into a new recorder -/

/-- The recorder with the given books that has not been rewound. -/
def Recorder.holding (id : AssemblerId) (b : Books) : Recorder :=
  ⟨id, 0, b.stream, b.labels, b.locals, b.regions, 0, []⟩

theorem Recorder.kept_holding {id : AssemblerId} {is : List Instruction} (h : Recorded id is) :
    (holding id (.ofInstructions is)).Kept := by
  have hinstructions : (holding id (.ofInstructions is)).stream.instructions = is := by
    rw [holding, Books.stream_ofInstructions, Stream.instructions_ofInstructions]
  constructor
  · rw [hinstructions]
    rfl
  · rw [hinstructions]
    exact h

/-- An adopted line allocates handles of the first revision. -/
theorem Instruction.allocates_adopt {i : Instruction} (id : AssemblerId)
    (hexit : ∀ exit, i = .beginExceptionBlock exit → exit.name = none) :
    (i.adopt id).Allocates 0 := by
  cases i with
  | defineLabel label => exact .defineLabel rfl
  | declareLocal v => exact .declareLocal rfl
  | beginExceptionBlock exit => exact .beginExceptionBlock rfl (hexit exit rfl)
  | _ => exact .of_none rfl rfl 0

section Replaying

variable {other : AssemblerId} {done : List Instruction} {i : Instruction}

/-- The new recorder takes the next line over. -/
theorem Traceable.perform_call (h : Traceable other (done ++ [i])) (id : AssemblerId) :
    (Recorder.holding id (.ofInstructions (done.map (·.adopt id)))).perform (i.adopt id).call =
      (.ok (i.adopt id).reply,
        .holding id (.ofInstructions ((done ++ [i]).map (·.adopt id)))) := by
  have hrecorded := h.recorded.adopt id
  rw [List.map_append, List.map_singleton] at hrecorded ⊢
  obtain ⟨hbefore, hadmits⟩ := Recorded.append_singleton_iff.mp hrecorded
  have hexit := (EachLine.append_singleton_iff.mp h.sourced).2.exit
  have hprepare := Recorder.prepare_call (Recorder.kept_holding hbefore) hadmits
    (Instruction.allocates_adopt id hexit)
  unfold Recorder.perform
  rw [hprepare, Books.ofInstructions_append_singleton]
  rfl

theorem Traceable.replay_eq {rest : List Instruction} (h : Traceable other (done ++ rest))
    {id : AssemblerId} {m : Renaming} (hm : m.Adopts id done) :
    replay m rest (Recorder.holding id (.ofInstructions (done.map (·.adopt id)))) =
      (.ok (), .holding id (.ofInstructions ((done ++ rest).map (·.adopt id)))) := by
  -- The lines move from `rest` to `done` one by one, and the renaming knows what `done` allocated.
  induction rest generalizing done m with
  | nil => rw [replay, List.append_nil]
  | cons i rest ih =>
      rw [List.append_cons] at h ⊢
      have hline : Traceable other (done ++ [i]) := by
        have hcut := h.take (done ++ [i]).length
        rwa [List.take_left] at hcut
      have hsourced : i.Sourced done := (EachLine.append_singleton_iff.mp hline.sourced).2
      have hperform : Emitter.perform (i.adopt id).call
          (Recorder.holding id (.ofInstructions (done.map (·.adopt id)))) = _ :=
        hline.perform_call id
      rw [replay, hm.call_eq hsourced]
      simp only [hperform]
      exact ih h (hm.learn hline.recorded hline.labels hline.locals)

theorem Traceable.replayInto_eq {is : List Instruction} (h : Traceable other is) (id : AssemblerId) :
    (Stream.ofInstructions is).replayInto (Recorder.new id) =
      (.ok (), .holding id (.ofInstructions (is.map (·.adopt id)))) := by
  have hinstructions : (Stream.ofInstructions is).lines.toList.map (·.instruction) = is :=
    Stream.instructions_ofInstructions is
  rw [Stream.replayInto, hinstructions]
  exact replay_eq h (Renaming.adopts_empty id)

end Replaying

/-! ## Adopted lines can be replayed as well -/

namespace Instruction

variable (ρ : Relabeling) (i : Instruction)

theorem labels_call_relabel : (i.relabel ρ).call.labels = i.call.labels.map ρ.label := by
  cases i with
  | op o => exact o.targets_relabel ρ
  | _ => rfl

theorem localVar?_call_relabel :
    (i.relabel ρ).call.localVar? = i.call.localVar?.map ρ.localVar := by
  cases i with
  | op o =>
      obtain ⟨code, operand, size, fits, size_eq⟩ := o
      cases operand <;> rfl
  | _ => rfl

variable {i}

theorem Sourced.adopt {before : List Instruction} (h : i.Sourced before) (id : AssemblerId) :
    (i.adopt id).Sourced (before.map (·.adopt id)) := by
  refine ⟨?_, ?_, ?_⟩
  · rw [labels_call_relabel, filterMap_definedLabel?_relabel]
    intro label hlabel
    obtain ⟨source, hsource, rfl⟩ := List.mem_map.mp hlabel
    exact List.mem_map_of_mem (h.labels source hsource)
  · rw [localVar?_call_relabel, filterMap_declaredLocal?_relabel]
    intro v hv
    obtain ⟨source, hsource, rfl⟩ := Option.map_eq_some_iff.mp hv
    exact List.mem_map_of_mem (h.localVar source hsource)
  · intro exit hexit
    cases i with
    | beginExceptionBlock source =>
        cases hexit
        exact h.exit source rfl
    | _ => cases hexit

end Instruction

theorem Traceable.adopt {other : AssemblerId} {is : List Instruction} (h : Traceable other is)
    (id : AssemblerId) : Traceable id (is.map (·.adopt id)) where
  recorded := h.recorded.adopt id
  sourced := by
    intro k i hi
    rw [List.getElem?_map] at hi
    obtain ⟨source, hsource, rfl⟩ := Option.map_eq_some_iff.mp hi
    rw [← List.map_take]
    exact (h.sourced k source hsource).adopt id
  labels := by
    rw [Instruction.filterMap_definedLabel?_relabel, List.length_map]
    exact h.labels
  locals := by
    rw [Instruction.filterMap_declaredLocal?_relabel, List.length_map]
    exact h.locals

theorem Session.exists_getElem?_of_isPrefix {ρ : Type} {before requests : List ρ} {request : ρ}
    (h : before ++ [request] <+: requests) :
    ∃ n, requests[n]? = some request ∧ before = requests.take n := by
  obtain ⟨later, rfl⟩ := h
  exact ⟨before.length, by simp, by simp⟩

/-- A stream that a session recorded can be replayed into a new recorder. The recorder ends up with
the same stream but for the owner and the revision of the handles. So labels have the same offsets,
the listings are the same, and replaying the copy is no different from replaying the stream. -/
theorem Stream.replay_reproduces {s : Stream} (h : s.OfSession) (id : AssemblerId) :
    ∃ r : Recorder, s.replayInto (Recorder.new id) = (.ok (), r) ∧ r.stream = s.adopt id ∧
      r.stream.labelOffsets = s.labelOffsets ∧
      (∀ options, r.stream.listing options = s.listing options) ∧
      ∀ id', r.stream.replayInto (Recorder.new id') = s.replayInto (Recorder.new id') := by
  obtain ⟨other, is, rfl, htraceable⟩ := h.traceable
  have hcopy : (Recorder.holding id (.ofInstructions (is.map (·.adopt id)))).stream =
      .ofInstructions (is.map (·.adopt id)) := Books.stream_ofInstructions _
  rw [← relabel_ofInstructions] at hcopy
  refine ⟨_, htraceable.replayInto_eq id, hcopy, ?_, ?_, ?_⟩
  · rw [hcopy, labelOffsets_relabel]
  · intro options
    rw [hcopy, listing_adopt]
  · intro id'
    rw [hcopy, relabel_ofInstructions, (htraceable.adopt id).replayInto_eq id',
      htraceable.replayInto_eq id', List.map_map]
    simp only [Function.comp_def, Instruction.adopt_adopt]

/-- A label takes the index of a discarded one, which is no longer accepted. The stream is cut after
the line that loads a local. -/
theorem Stream.replay_reproduces_rewound :
    let first : Label := ⟨⟨1⟩, 0, 0, some "first"⟩
    let second : Label := ⟨⟨1⟩, 1, 0, some "second"⟩
    let v : Local := ⟨⟨1⟩, 1, 0, default, true, some "v"⟩
    let requests : List Request :=
      [.checkpoint ⟨1⟩, .perform ⟨1⟩ (.defineLabel (some "first")), .rewind ⟨1⟩ 0,
        .perform ⟨1⟩ (.defineLabel (some "second")), .perform ⟨1⟩ (.markLabel first),
        .perform ⟨1⟩ (.markLabel second), .perform ⟨1⟩ (.declareLocal default true (some "v")),
        .perform ⟨1⟩ (.emit .ldloc (.localVar v)), .perform ⟨1⟩ .beginScope]
    let s := ((Workshop.run requests).recorder ⟨1⟩).stream.truncate 4
    s.length = 4 ∧ ∃ r, s.replayInto (Recorder.new ⟨2⟩) = (.ok (), r) ∧ r.stream = s.adopt ⟨2⟩ ∧
      ∀ options, r.stream.listing options = s.listing options := by
  intro first second v requests s
  have hproper : Workshop.Proper ⟨1⟩ requests := by
    have hroom : ∀ n ≤ 9, ((Workshop.run (requests.take n)).recorder ⟨1⟩).labels.size ≤ 2 ^ 32 ∧
        ((Workshop.run (requests.take n)).recorder ⟨1⟩).locals.size ≤ 2 ^ 32 := by
      decide +kernel
    have hfirst : (Workshop.session ⟨1⟩).handles Instruction.definedLabel? (requests.take 2) =
        [first] := by with_unfolding_all rfl
    have hsecond : (Workshop.session ⟨1⟩).handles Instruction.definedLabel? (requests.take 5) =
        [second] := by with_unfolding_all rfl
    have hv : (Workshop.session ⟨1⟩).handles Instruction.declaredLocal? (requests.take 7) =
        [v] := by with_unfolding_all rfl
    refine ⟨⟨?_, ?_, ?_⟩, by decide, by decide +kernel⟩
    · intro before request call hpre hcall
      obtain ⟨n, hn, rfl⟩ := Session.exists_getElem?_of_isPrefix hpre
      rcases n with _ | _ | _ | _ | _ | _ | _ | _ | _ | n
      all_goals cases hn
      all_goals cases hcall
      · exact .of_none rfl rfl
      · exact .of_none rfl rfl
      · refine ⟨fun label hlabel _ => ?_, by rintro _ ⟨⟩⟩
        rw [List.mem_singleton.mp hlabel]
        exact ⟨requests.take 2, List.take_prefix_take_left (by decide), hfirst ▸ List.mem_cons_self⟩
      · refine ⟨fun label hlabel _ => ?_, by rintro _ ⟨⟩⟩
        rw [List.mem_singleton.mp hlabel]
        exact .of_mem (hsecond ▸ List.mem_cons_self)
      · exact .of_none rfl rfl
      · refine ⟨by rintro _ ⟨⟩, fun u hu _ => ?_⟩
        cases hu
        exact .of_mem (hv ▸ List.mem_cons_self)
      · exact .of_none rfl rfl
    · intro before hpre
      rw [List.prefix_iff_eq_take.mp hpre]
      exact (hroom _ hpre.length_le).1
    · intro before hpre
      rw [List.prefix_iff_eq_take.mp hpre]
      exact (hroom _ hpre.length_le).2
  obtain ⟨r, hreplay, hstream, _, hlisting, _⟩ :=
    replay_reproduces ((OfSession.recorder hproper).truncate 4) ⟨2⟩
  exact ⟨by decide +kernel, r, hreplay, hstream, hlisting⟩

/-- After 2^32 checkpoints, a recorder returns to a region whose first line is gone. It takes a
finally block there, which no new recorder takes. -/
theorem Stream.replay_refuses_lost_region :
    let requests := Workshop.relapse ⟨1⟩ [.beginExceptionBlock] [] [.beginFinallyBlock]
    let s := ((Workshop.run requests).recorder ⟨1⟩).stream
    requests.countP (·.takesCheckpoint ⟨1⟩) = 2 ^ 32 ∧ s.instructions = [.beginFinallyBlock] ∧
      ∀ id r, s.replayInto (Recorder.new id) ≠ (.ok (), r) := by
  have hstream : (Recorder.relapsed ⟨1⟩ [.beginExceptionBlock] [] [.beginFinallyBlock]).stream =
      .ofInstructions [.beginFinallyBlock] := by with_unfolding_all rfl
  dsimp only
  rw [Workshop.countP_relapse, Workshop.recorder_run_relapse, hstream]
  refine ⟨rfl, instructions_ofInstructions _, fun id r hreplay => ?_⟩
  cases hreplay

end CilAssembler
