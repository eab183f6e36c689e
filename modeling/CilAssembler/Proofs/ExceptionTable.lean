import CilAssembler.Proofs.Encoding
import CilAssembler.Proofs.OpenClauses

/-! # Exception tables

The clauses that a builder collects are those that the marker lines of the stream call for, in the
order in which they are closed. -/

namespace CilAssembler

namespace BodyBuilder

/-! ## Moves of the builder -/

/-- What an accepted call of an instruction does to the open regions and to the clauses. -/
inductive Moves (position : Nat) : Instruction → List OpenRegion → List ExceptionClause →
    List OpenRegion → List ExceptionClause → Prop where
  | plain {i : Instruction} (hmarker : i.handlerKind? = none)
      (hbegins : ∀ exit, i ≠ .beginExceptionBlock exit) (hends : ∀ exit, i ≠ .endExceptionBlock exit)
      (regions : List OpenRegion) (clauses : List ExceptionClause) :
      Moves position i regions clauses regions clauses
  | begins (label : Label) (exit : BodyLabel) (regions : List OpenRegion)
      (clauses : List ExceptionClause) :
      Moves position (.beginExceptionBlock label) regions clauses
        (⟨exit, position, none, 0, none⟩ :: regions) clauses
  | handles (exit : BodyLabel) (tryStart : Nat) (tryEnd : Option Nat) (closed : UInt32)
      (kind : HandlerKind) (opened : Nat) (covers : Bool) (rest : List OpenRegion)
      (clauses : List ExceptionClause) :
      Moves position (.beginCatchBlock none)
        (⟨exit, tryStart, tryEnd, closed, some ⟨kind, opened, none, covers⟩⟩ :: rest) clauses
        (⟨exit, tryStart, tryEnd, closed, some ⟨kind, opened, some position, covers⟩⟩ :: rest) clauses
  | opens {i : Instruction} {kind : HandlerKind} {region : OpenRegion}
      (hkind : i.handlerKind? = some kind)
      (hready : ¬(i = .beginCatchBlock none ∧
        ∃ handler, region.handler = some handler ∧ handler.started = none))
      (rest : List OpenRegion) (clauses : List ExceptionClause) :
      Moves position i (region :: rest) clauses (region.reopen position kind :: rest)
        (clauses ++ (region.close position).2.toList)
  | ends (label : Label) (region : OpenRegion) (rest : List OpenRegion)
      (clauses : List ExceptionClause) :
      Moves position (.endExceptionBlock label) (region :: rest) clauses rest
        (clauses ++ (region.close position).2.toList)

variable {b b' : BodyBuilder} {position : Nat} {i : Instruction}

/-- Writing an instruction leaves the regions and the clauses alone. -/
theorem emit_frame (b : BodyBuilder) (op : Opcode) (x : Operand BodyLabel BodyLocal) :
    (b.emit op x).2.regions = b.regions ∧ (b.emit op x).2.clauses = b.clauses := by
  unfold emit
  split
  · cases x with
    | string text =>
        obtain ⟨code, labels, branches, tables, locals, regions, clauses, strings⟩ := b
        simp only [emitString]
        split <;> exact ⟨rfl, rfl⟩
    | label target =>
        simp only [emitBranch]
        split
        · exact ⟨rfl, rfl⟩
        · split
          · exact ⟨rfl, rfl⟩
          · split <;> exact ⟨rfl, rfl⟩
    | labels targets =>
        simp only [emitSwitch]
        split
        · exact ⟨rfl, rfl⟩
        · split
          · exact ⟨rfl, rfl⟩
          · split
            · exact ⟨rfl, rfl⟩
            · split <;> exact ⟨rfl, rfl⟩
    | _ => exact ⟨rfl, rfl⟩
  · exact ⟨rfl, rfl⟩

theorem moves_of_openHandler (hposition : b.position = .ok position) {operation : RegionOperation}
    {kind : HandlerKind} {made : Unit} (hkind : i.handlerKind? = some kind)
    (hready : ∀ region ∈ b.regions.head?, ¬(i = .beginCatchBlock none ∧
      ∃ handler, region.handler = some handler ∧ handler.started = none))
    (h : b.openHandler operation kind = (.ok made, b')) :
    Moves position i b.regions b.clauses.toList b'.regions b'.clauses.toList := by
  cases hregions : b.regions with
  | nil =>
      rw [openHandler, hposition, hregions] at h
      cases h
  | cons region rest =>
      rw [openHandler_eq hposition hregions] at h
      cases h
      rw [Array.toList_appendList]
      exact .opens hkind (hready region (by simp [hregions])) rest b.clauses.toList

theorem moves_of_beginCatchBlock (hposition : b.position = .ok position) {type : Option Member}
    {made : Unit} (h : b.beginCatchBlock type = (.ok made, b')) :
    Moves position (.beginCatchBlock type) b.regions b.clauses.toList b'.regions b'.clauses.toList := by
  unfold beginCatchBlock at h
  split at h
  · rename_i here _ exit tryStart tryEnd closed kind opened covers rest hhere hregions
    cases hposition.symm.trans hhere
    cases h
    rw [hregions]
    exact .handles exit tryStart tryEnd closed kind opened covers rest b.clauses.toList
  · rename_i hother
    refine moves_of_openHandler hposition rfl ?_ h
    rintro ⟨exit, tryStart, tryEnd, closed, handler⟩ hregion
      ⟨htype, ⟨kind, opened, started, covers⟩, hhandler, hwaits⟩
    obtain ⟨rest, hrest⟩ := List.head?_eq_some_iff.mp hregion
    cases htype
    cases hhandler
    cases hwaits
    exact hother position exit tryStart tryEnd closed kind opened covers rest hposition rfl hrest

theorem moves_of_endExceptionBlock (hposition : b.position = .ok position) {label : Label}
    {made : Unit} (h : b.endExceptionBlock = (.ok made, b')) :
    Moves position (.endExceptionBlock label) b.regions b.clauses.toList b'.regions
      b'.clauses.toList := by
  cases hregions : b.regions with
  | nil =>
      rw [endExceptionBlock, hposition, hregions] at h
      cases h
  | cons region rest =>
      simp only [endExceptionBlock, hposition, hregions, markLabel] at h
      split at h
      · cases h
      · cases h
        rw [Array.toList_appendList]
        exact .ends label region rest b.clauses.toList

theorem moves_of_beginExceptionBlock (hposition : b.position = .ok position) {label : Label}
    {made : BodyLabel} (h : b.beginExceptionBlock = (.ok made, b')) :
    Moves position (.beginExceptionBlock label) b.regions b.clauses.toList b'.regions
      b'.clauses.toList := by
  unfold beginExceptionBlock defineLabel at h
  split at h
  · cases h
  · rename_i exit next hdefine
    split at hdefine
    · cases hdefine
      have hsame : BodyBuilder.position { b with labels := b.labels.push none } = .ok position :=
        hposition
      rw [hsame] at h
      cases h
      exact .begins label _ b.regions b.clauses.toList
    · cases hdefine

/-- An accepted call moves the regions and the clauses in one of these ways. -/
theorem moves_of_perform (hposition : b.position = .ok position) {made : i.inBody.Reply}
    (h : b.perform i.inBody = (.ok made, b')) :
    Moves position i b.regions b.clauses.toList b'.regions b'.clauses.toList := by
  -- The calls that have nothing to do with exception regions.
  have hplain (hmarker : i.handlerKind? = none) (hbegins : ∀ exit, i ≠ .beginExceptionBlock exit)
      (hends : ∀ exit, i ≠ .endExceptionBlock exit)
      (hframe : (b.perform i.inBody).2.regions = b.regions ∧
        (b.perform i.inBody).2.clauses = b.clauses) :
      Moves position i b.regions b.clauses.toList b'.regions b'.clauses.toList := by
    rw [h] at hframe
    rw [hframe.1, hframe.2]
    exact .plain hmarker hbegins hends _ _
  cases i with
  | op o => exact hplain rfl (by simp) (by simp) (emit_frame b o.code _)
  | defineLabel label =>
      refine hplain rfl (by simp) (by simp) ?_
      simp only [perform, Instruction.inBody, defineLabel]
      split <;> exact ⟨rfl, rfl⟩
  | markLabel label =>
      refine hplain rfl (by simp) (by simp) ?_
      simp only [perform, Instruction.inBody, markLabel]
      split <;> exact ⟨rfl, rfl⟩
  | declareLocal v =>
      refine hplain rfl (by simp) (by simp) ?_
      simp only [perform, Instruction.inBody, declareLocal]
      split <;> exact ⟨rfl, rfl⟩
  | beginScope => exact hplain rfl (by simp) (by simp) ⟨rfl, rfl⟩
  | endScope => exact hplain rfl (by simp) (by simp) ⟨rfl, rfl⟩
  | beginExceptionBlock label => exact moves_of_beginExceptionBlock hposition h
  | endExceptionBlock label => exact moves_of_endExceptionBlock hposition h
  | beginCatchBlock type => exact moves_of_beginCatchBlock hposition h
  | beginExceptFilterBlock => exact moves_of_openHandler hposition rfl (by simp) h
  | beginFinallyBlock => exact moves_of_openHandler hposition rfl (by simp) h
  | beginFaultBlock => exact moves_of_openHandler hposition rfl (by simp) h

/-- Finishing a body leaves its clauses as they are. -/
theorem clauses_of_finish {body : MethodBody} (h : b.finish = .ok body) : body.clauses = b.clauses := by
  unfold finish at h
  split at h
  · split at h <;> cases h
    rfl
  · cases h

/-! ## What the moves keep -/

/-- The open regions are those of the lines so far, and so are the clauses. Every handler marker
stands in a region. -/
structure Traces (is : List Instruction) (regions : List OpenRegion) (clauses : List ExceptionClause) :
    Prop where
  regions : List.Forall₂ (OpenRegion.Follows is) (openBlocks is) regions
  clauses : Lists CountsPrevious (Stream.ofInstructions is) clauses
  markers : ∀ m, (markAt? is m).isSome = true → ∃ k, Marks is k m

namespace Traces

variable {is : List Instruction} {regions regions' : List OpenRegion}
  {clauses clauses' : List ExceptionClause} {k : Nat}

theorem nil : Traces [] [] [] :=
  ⟨.nil, .nil, nofun⟩

/-- The regions around the innermost one have no part in the next line. -/
theorem follows_outer {blocks : List Nat} (hblocks : openBlocks is = k :: blocks)
    (h : List.Forall₂ (OpenRegion.Follows is) blocks regions) :
    List.Forall₂ (OpenRegion.Follows (is ++ [i])) blocks regions := by
  have hother : ∀ outer ∈ blocks, ¬Marks (is ++ [i]) outer is.length := by
    intro outer houter hmarks
    have hblock := hmarks.block
    rw [blockAt_append (Nat.le_refl _), blockAt_length, hblocks, List.head?_cons] at hblock
    have hinner := pairwise_openBlocks is
    rw [hblocks] at hinner
    have hlt := List.rel_of_pairwise_cons hinner houter
    rw [Option.some.inj hblock] at hlt
    exact Nat.lt_irrefl _ hlt
  exact ((List.forall₂_and_left _ _).mpr ⟨hother, h⟩).imp fun outer region hboth =>
    hboth.2.append hboth.1

theorem markers_append (h : Traces is regions clauses)
    (hline : i.handlerKind?.isSome = true → openBlocks is ≠ []) :
    ∀ m, (markAt? (is ++ [i]) m).isSome = true → ∃ k, Marks (is ++ [i]) k m := by
  intro m hm
  rcases lt_or_eq_of_lt_length (lt_length_of_markAt? hm) with hold | rfl
  · rw [markAt?_append hold] at hm
    obtain ⟨k, hk⟩ := h.markers m hm
    exact ⟨k, (marks_append_iff hold).mpr hk⟩
  · have hmarker := hm
    rw [markAt?_length] at hmarker
    obtain ⟨k, rest, hblocks⟩ := List.exists_cons_of_ne_nil (hline hmarker)
    refine ⟨k, ?_, hm⟩
    rw [blockAt_append (Nat.le_refl _), blockAt_length, hblocks, List.head?_cons]

/-- The innermost region of the builder is that of the innermost open block. -/
theorem innermost {region : OpenRegion} (h : Traces is (region :: regions) clauses) :
    ∃ k blocks, openBlocks is = k :: blocks ∧ blockAt is is.length = some k ∧ region.Follows is k ∧
      List.Forall₂ (OpenRegion.Follows is) blocks regions := by
  obtain ⟨k, blocks, hregion, hrest, heq⟩ := List.forall₂_cons_right_iff.mp h.regions
  exact ⟨k, blocks, heq, by rw [blockAt_length, heq, List.head?_cons], hregion, hrest⟩

theorem openBlocks_of_handlerKind? {kind : HandlerKind} (h : i.handlerKind? = some kind) :
    openBlocks (is ++ [i]) = openBlocks is := by
  rw [openBlocks_append_singleton]
  cases i <;> first | rfl | cases h

/-! One lemma for each move. -/

theorem step_plain (h : Traces is regions clauses) (hmarker : i.handlerKind? = none)
    (hbegins : ∀ exit, i ≠ .beginExceptionBlock exit) (hends : ∀ exit, i ≠ .endExceptionBlock exit) :
    Traces (is ++ [i]) regions clauses := by
  have hnot := not_marks_of_handlerKind?_eq_none hmarker is
  have hsame : blocksAfter (openBlocks is) is.length i = openBlocks is := by
    cases i <;> first | rfl | exact absurd rfl (hbegins _) | exact absurd rfl (hends _)
  refine ⟨?_, h.clauses.append fun s hclose hs => ?_, h.markers_append (by simp [hmarker])⟩
  · rw [openBlocks_append_singleton, hsame]
    exact h.regions.imp fun k region hregion => hregion.append (hnot k)
  · rcases hs.closes with hopens | hend
    · exact hnot _ (hclose ▸ hopens.marks)
    · obtain ⟨exit, hexit⟩ := hend.ends
      rw [hclose] at hexit
      exact hends exit (by simpa using hexit)

theorem step_begins (h : Traces is regions clauses) (label : Label) (exit : BodyLabel) :
    Traces (is ++ [.beginExceptionBlock label]) (⟨exit, totalSize is, none, 0, none⟩ :: regions)
      clauses := by
  have hnot : ∀ k, ¬Marks (is ++ [.beginExceptionBlock label]) k is.length :=
    not_marks_of_handlerKind?_eq_none rfl is
  refine ⟨?_, h.clauses.append fun s hclose hs => ?_, h.markers_append ?_⟩
  · rw [openBlocks_append_singleton]
    refine .cons ⟨by simp, ?_, .inl ⟨rfl, rfl, rfl, fun m hm => ?_⟩⟩
      (h.regions.imp fun k region hregion => hregion.append (hnot k))
    · rw [Stream.offsetAt_append (Nat.le_refl _), Stream.offsetAt_length]
    · exact not_marks_length is _ m hm
  · rcases hs.closes with hopens | hend
    · exact hnot _ (hclose ▸ hopens.marks)
    · obtain ⟨other, hother⟩ := hend.ends
      simp [hclose] at hother
  · simp [Instruction.handlerKind?]

theorem step_handles {exit : BodyLabel} {tryStart opened : Nat} {tryEnd : Option Nat}
    {closed : UInt32} {kind : HandlerKind} {covers : Bool}
    (h : Traces is (⟨exit, tryStart, tryEnd, closed, some ⟨kind, opened, none, covers⟩⟩ :: regions)
      clauses) :
    Traces (is ++ [.beginCatchBlock none])
      (⟨exit, tryStart, tryEnd, closed, some ⟨kind, opened, some (totalSize is), covers⟩⟩ :: regions)
      clauses := by
  obtain ⟨k, blocks, hblocks, hblock, hregion, hrest⟩ := h.innermost
  obtain ⟨hfollows, hnot⟩ := hregion.handle hblock
  refine ⟨?_, h.clauses.append fun s hclose hs => ?_, h.markers_append fun _ => by simp [hblocks]⟩
  · rw [openBlocks_of_handlerKind? rfl, hblocks]
    exact .cons hfollows (follows_outer hblocks hrest)
  · rcases hs.closes with hopens | hend
    · have hsame := hopens.marks.block
      rw [hclose, blockAt_append (Nat.le_refl _), hblock] at hsame
      rw [hclose, ← Option.some.inj hsame] at hopens
      exact hnot hopens
    · obtain ⟨other, hother⟩ := hend.ends
      simp [hclose] at hother

theorem step_opens {region : OpenRegion} {kind : HandlerKind}
    (h : Traces is (region :: regions) clauses) (hlimit : totalSize is ≤ offsetLimit)
    (hkind : i.handlerKind? = some kind)
    (hready : ¬(i = .beginCatchBlock none ∧
      ∃ handler, region.handler = some handler ∧ handler.started = none)) :
    Traces (is ++ [i]) (region.reopen (totalSize is) kind :: regions)
      (clauses ++ (region.close (totalSize is)).2.toList) := by
  obtain ⟨k, blocks, hblocks, hblock, hregion, hrest⟩ := h.innermost
  have hopens := hregion.opens hblock hkind hready
  refine ⟨?_, hregion.lists hlimit (.inl hopens) h.clauses, h.markers_append fun _ => by simp [hblocks]⟩
  rw [openBlocks_of_handlerKind? hkind, hblocks]
  exact .cons (hregion.reopen hopens hkind) (follows_outer hblocks hrest)

theorem step_ends {region : OpenRegion} (h : Traces is (region :: regions) clauses)
    (hlimit : totalSize is ≤ offsetLimit) (label : Label) :
    Traces (is ++ [.endExceptionBlock label]) regions
      (clauses ++ (region.close (totalSize is)).2.toList) := by
  obtain ⟨k, blocks, hblocks, hblock, hregion, hrest⟩ := h.innermost
  have hends : Ends (is ++ [.endExceptionBlock label]) k is.length := by
    refine ⟨?_, label, by simp⟩
    rwa [blockAt_append (Nat.le_refl _)]
  refine ⟨?_, hregion.lists hlimit (.inr hends) h.clauses, h.markers_append fun _ => by simp [hblocks]⟩
  rw [openBlocks_append_singleton, hblocks]
  exact follows_outer hblocks hrest

theorem step (h : Traces is regions clauses) (hlimit : totalSize is ≤ offsetLimit)
    (hmoves : Moves (totalSize is) i regions clauses regions' clauses') :
    Traces (is ++ [i]) regions' clauses' := by
  cases hmoves with
  | plain hmarker hbegins hends => exact h.step_plain hmarker hbegins hends
  | begins label exit => exact h.step_begins label exit
  | handles => exact h.step_handles
  | opens hkind hready => exact h.step_opens hlimit hkind hready
  | ends label => exact h.step_ends hlimit label

end Traces

end BodyBuilder

namespace Assembler

/-! ## Whole sessions -/

variable {a : Assembler BodyBuilder BodyLabel BodyLocal}

/-- The builder is in step with the recorder, and its regions and clauses are those of the stream. -/
structure Tabulates (a : Assembler BodyBuilder BodyLabel BodyLocal) : Prop where
  builds : a.Builds
  traces : BodyBuilder.Traces a.recorder.stream.instructions a.sink.regions a.sink.clauses.toList

theorem tabulates_new (id : AssemblerId) :
    (new id BodyBuilder.empty : Assembler BodyBuilder BodyLabel BodyLocal).Tabulates :=
  ⟨builds_new id, .nil⟩

theorem Tabulates.perform (h : a.Tabulates) (call : Call) : (a.perform call).2.Tabulates := by
  refine ⟨h.builds.perform call, ?_⟩
  rcases h.builds.perform_cases call with ⟨e, hresult⟩ | ⟨reply, i, made, b, _, hsink, hresult⟩
  · rw [hresult]
    exact h.traces
  · have hrecorded := h.builds.kept.recorded
    have hmoves := BodyBuilder.moves_of_perform (h.builds.drafts.position hrecorded) hsink
    rw [hresult]
    simp only [Recorder.instructions_record]
    exact h.traces.step hrecorded.totalSize_le hmoves

theorem Tabulates.after (h : a.Tabulates) (calls : List Call) : (a.after calls).Tabulates := by
  induction calls using List.reverseRecOn with
  | nil => exact h
  | append_singleton calls call ih =>
      rw [after_append_singleton]
      exact ih.perform call

theorem Tabulates.lists (h : a.Tabulates) :
    Lists CountsPrevious a.recorder.stream a.sink.clauses.toList := by
  rw [h.builds.kept.stream_eq]
  exact h.traces.clauses

/-- Every exception region is closed in a session that can be finished. -/
theorem Tabulates.openBlocks_of_finish {stream : Stream} {sink : BodyBuilder} (h : a.Tabulates)
    (hfinish : a.finish = .ok (stream, sink)) : openBlocks a.recorder.stream.instructions = [] := by
  have hempty := (Recorder.finish_eq_ok.mp (recorder_of_finish hfinish).1).1
  have hexits := h.builds.regions_eq_nil hempty
  have hregions := h.traces.regions
  rw [hexits] at hregions
  exact List.forall₂_nil_right_iff.mp hregions

/-- A finished session has the clauses that the marker lines of its stream call for: every handler
marker stands in a region, every marker that opens a clause has one line that closes it, and the
table lists the clauses so closed, each as its lines describe it, in the order of the closing lines.
A finally or fault handler is taken to come after others by a count that has 32 bits. So the table
is the right one exactly if, wherever that count starts over, the handlers left uncovered are
empty. -/
theorem clauses_follow_markers_iff (id : AssemblerId) (calls : List Call) {stream : Stream}
    {sink : BodyBuilder}
    (hfinish : ((new id BodyBuilder.empty).after calls).finish = .ok (stream, sink)) :
    (∀ m, (markAt? stream.instructions m).isSome = true → ∃ k, Marks stream.instructions k m) ∧
    (∀ k m, Opens stream.instructions k m → ∃! c, Span.Closes stream.instructions ⟨k, m, c⟩) ∧
    Lists CountsPrevious stream sink.clauses.toList ∧
    (Lists CoversPrevious stream sink.clauses.toList ↔
      ∀ k m f, Miscounts stream.instructions k m → FirstMark stream.instructions k f →
        stream.offsetAt m = stream.offsetAt f) ∧
    ∀ body, sink.finish = .ok body → body.clauses = sink.clauses := by
  have htabulates := (tabulates_new id).after calls
  have hnil := htabulates.openBlocks_of_finish hfinish
  obtain ⟨rfl, rfl⟩ := finish_eq_ok hfinish
  have hlists := htabulates.lists
  refine ⟨htabulates.traces.markers, fun k m hopens => ?_, hlists,
    hlists.coversPrevious_iff fun k m hopens => exists_closes hopens hnil, fun body hbody => ?_⟩
  · obtain ⟨c, hc⟩ := exists_closes hopens hnil
    exact ⟨c, hc, fun c' hc' => hc'.close_eq hc rfl rfl⟩
  · exact BodyBuilder.clauses_of_finish hbody

/-- A filter with its handler inside a block with a catch and a finally, and a filter without one. -/
theorem clauses_follow_markers_nested :
    let id : AssemblerId := ⟨1⟩
    let type : Member := ⟨⟨0x01000001⟩, "Exception"⟩
    let nop : Call := .emit .nop .none
    let calls : List Call :=
      [.beginExceptionBlock, nop, .beginExceptionBlock, nop, .beginExceptFilterBlock, nop,
        .beginCatchBlock none, nop, .endExceptionBlock, .beginCatchBlock (some type), nop,
        .beginFinallyBlock, .emit .endfinally .none, .endExceptionBlock,
        .beginExceptionBlock, nop, .beginExceptFilterBlock, nop, .endExceptionBlock, .emit .ret .none]
    ∃ stream sink, ((new id BodyBuilder.empty).after calls).finish = .ok (stream, sink) ∧
      sink.clauses.toList =
        [⟨0x0001, 1, 1, 3, 1, none, some 2⟩, ⟨0x0000, 0, 4, 4, 1, some type.token, none⟩,
          ⟨0x0002, 0, 5, 5, 1, none, none⟩, ⟨0x0001, 6, 1, 8, 0, none, some 7⟩] ∧
      Lists CoversPrevious stream sink.clauses.toList := by
  intro id type nop calls
  have hfinished : ((new id BodyBuilder.empty).after calls).finish.isOk = true := by decide +kernel
  have hclauses : ((new id BodyBuilder.empty).after calls).sink.clauses.toList =
      [⟨0x0001, 1, 1, 3, 1, none, some 2⟩, ⟨0x0000, 0, 4, 4, 1, some type.token, none⟩,
        ⟨0x0002, 0, 5, 5, 1, none, none⟩, ⟨0x0001, 6, 1, 8, 0, none, some 7⟩] := by
    decide +kernel
  have hlength :
      ((new id BodyBuilder.empty).after calls).recorder.stream.instructions.length = 20 := by
    decide +kernel
  obtain ⟨⟨stream, sink⟩, hfinish⟩ := Except.exists_of_isOk hfinished
  obtain ⟨hstream, hsink⟩ := finish_eq_ok hfinish
  rw [← hstream] at hlength
  rw [← hsink] at hclauses
  refine ⟨stream, sink, hfinish, hclauses,
    (clauses_follow_markers_iff id calls hfinish).2.2.2.1.mpr ?_⟩
  exact fun k m f hmiscounts => absurd hmiscounts (not_miscounts_of_length_le (by omega))

/-! ## A region with more clauses than can be counted -/

section Catches

/-- The end label of the only region of a session. -/
def onlyExit : Label := ⟨⟨1⟩, 0, 0, none⟩

/-- The calls of a session in which an untyped catch is repeated. -/
def catchCalls (n : Nat) : List Call :=
  [.beginExceptionBlock, .emit .nop .none, .beginCatchBlock none, .emit .nop .none] ++
    List.replicate n (.beginCatchBlock none)

/-- The lines of that session. -/
def catchLines (n : Nat) : List Instruction :=
  [.beginExceptionBlock onlyExit, .op .nop, .beginCatchBlock none, .op .nop] ++
    List.replicate n (.beginCatchBlock none)

theorem catchCalls_succ (n : Nat) :
    catchCalls (n + 1) = catchCalls n ++ [.beginCatchBlock none] := by
  rw [catchCalls, List.replicate_succ', ← List.append_assoc, ← catchCalls]

theorem catchLines_succ (n : Nat) :
    catchLines (n + 1) = catchLines n ++ [.beginCatchBlock none] := by
  rw [catchLines, List.replicate_succ', ← List.append_assoc, ← catchLines]

/-- Every further catch adds a clause and moves the counts. -/
theorem after_catchCalls (n : Nat) :
    ∃ opened clauses, (new ⟨1⟩ BodyBuilder.empty).after (catchCalls n) =
      ⟨⟨⟨1⟩, 0, .ofInstructions (catchLines n), #[⟨onlyExit, none⟩], #[],
          ⟨[.exceptionBlock onlyExit .inCatch (n.toUInt32 + 1)]⟩, 0, []⟩,
        ⟨#[0, 0], #[none], #[], #[], #[],
          [⟨⟨0⟩, 0, some 1, n.toUInt32, some ⟨.catching none, opened, some opened, false⟩⟩],
          clauses, .empty⟩, #[⟨0⟩], #[]⟩ := by
  induction n with
  | zero => exact ⟨1, #[], rfl⟩
  | succ n ih =>
      obtain ⟨opened, clauses, hafter⟩ := ih
      rw [catchCalls_succ, after_append_singleton, hafter, catchLines_succ,
        Stream.ofInstructions_append_singleton, toUInt32_succ]
      exact ⟨2, _, rfl⟩

theorem openBlocks_catchLines (n : Nat) : openBlocks (catchLines n) = [0] := by
  induction n with
  | zero => rfl
  | succ n ih =>
      rw [catchLines_succ, openBlocks_append_singleton, ih]
      rfl

theorem totalSize_catchLines (n : Nat) : totalSize (catchLines n) = 2 := by
  induction n with
  | zero => rfl
  | succ n ih =>
      rw [catchLines_succ, totalSize_append, ih]
      rfl

theorem targets_of_mem_catchLines {n : Nat} {o : Op}
    (h : .op o ∈ catchLines n ++ [.beginFinallyBlock, .endExceptionBlock onlyExit]) :
    o.operand.targets = [] := by
  have hnop : o = .nop := by simpa [catchLines, List.mem_replicate] using h
  rw [hnop]
  rfl

/-- A finally handler after the catches. Where their count has started over, it covers none of
them. -/
theorem finish_catchCalls {n : Nat} (h : n.toUInt32 + 1 = 0) :
    ∃ sink : BodyBuilder,
      ((new ⟨1⟩ BodyBuilder.empty).after
          (catchCalls n ++ [.beginFinallyBlock, .endExceptionBlock])).finish =
        .ok (.ofInstructions (catchLines n ++ [.beginFinallyBlock, .endExceptionBlock onlyExit]),
          sink) ∧
      sink.clauses.toList.getLast? = some ⟨0x0002, 0, 1, 2, 0, none, none⟩ := by
  obtain ⟨opened, clauses, hafter⟩ := after_catchCalls n
  have hlines :
      Stream.ofInstructions (catchLines n ++ [.beginFinallyBlock, .endExceptionBlock onlyExit]) =
        ((Stream.ofInstructions (catchLines n)).append .beginFinallyBlock).append
          (.endExceptionBlock onlyExit) := by
    rw [← Stream.ofInstructions_append_singleton, ← Stream.ofInstructions_append_singleton,
      List.append_assoc]
    rfl
  have htargets : (Stream.ofInstructions (catchLines n ++
      [.beginFinallyBlock, .endExceptionBlock onlyExit])).ops.flatMap
        (fun entry => entry.2.operand.targets) = [] := by
    refine List.flatMap_eq_nil_iff.mpr fun entry hentry => targets_of_mem_catchLines (n := n) ?_
    have hmem := Stream.exists_mem_ops_iff.mp ⟨entry.1, hentry⟩
    rwa [Stream.instructions_ofInstructions] at hmem
  have hclause :
      OpenHandler.clause ⟨.finalizing, 2, some 2, true && decide (0 < n.toUInt32 + 1)⟩ 0 1 2 =
        ⟨0x0002, 0, 1, 2, 0, none, none⟩ := by
    rw [h]
    rfl
  rw [← List.singleton_append, ← List.append_assoc, after_append_singleton, after_append_singleton,
    hafter]
  refine ⟨_, congrArg (Except.map (·, _)) (Recorder.finish_eq_ok.mpr ⟨rfl, ?_, hlines⟩), ?_⟩
  · rw [hlines] at htargets
    exact congrArg (List.find? _) htargets
  · rw [← hclause]
    exact (congrArg List.getLast? (Array.toList_append ..)).trans List.getLast?_concat

/-- The finally handler comes after other clauses of its region. -/
theorem coversPrevious_catchLines (n : Nat) :
    CoversPrevious (catchLines n ++ [.beginFinallyBlock, .endExceptionBlock onlyExit]) 0
      (catchLines n).length := by
  have hlength : (catchLines n).length = n + 4 := by simp [catchLines]
  refine ⟨.inl (by simp [markAt?, Instruction.handlerKind?]), 2, by omega, ⟨rfl, rfl⟩, ?_⟩
  rintro ⟨_, m, hm, hmarks, _⟩
  have hmarker := hmarks.marker
  rcases m with _ | _ | m
  · cases hmarker
  · cases hmarker
  · omega

theorem eq_finally_of_announces {i : Instruction} {flags : UInt16} {type : Option Token}
    (h : i.Announces flags type) (hflags : flags = 0x0002) : i = .beginFinallyBlock := by
  cases h with
  | finalizing => rfl
  | _ => exact absurd hflags (by decide)

/-- Only one line of the session is a finally marker. -/
theorem eq_length_of_finally {n m : Nat}
    (h : (catchLines n ++ [.beginFinallyBlock, .endExceptionBlock onlyExit])[m]? =
      some .beginFinallyBlock) : m = (catchLines n).length := by
  rcases Nat.lt_trichotomy m (catchLines n).length with hlt | heq | hgt
  · rw [List.getElem?_append_left hlt] at h
    have hmem := List.mem_of_getElem? h
    simp [catchLines, List.mem_replicate] at hmem
  · exact heq
  · rw [List.getElem?_append_right (Nat.le_of_lt hgt)] at h
    obtain ⟨d, hd⟩ := Nat.exists_eq_add_of_lt hgt
    rw [show m - (catchLines n).length = d + 1 by omega] at h
    cases d <;> cases h

theorem not_lists_catchLines {n : Nat} {clauses : List ExceptionClause}
    (hlast : clauses.getLast? = some ⟨0x0002, 0, 1, 2, 0, none, none⟩) :
    ¬Lists CoversPrevious
      (.ofInstructions (catchLines n ++ [.beginFinallyBlock, .endExceptionBlock onlyExit]))
      clauses := by
  rintro ⟨spans, hmem, _, hclauses⟩
  obtain ⟨j, hj⟩ := List.mem_iff_getElem?.mp (List.mem_of_getLast? hlast)
  obtain ⟨hj, hclause⟩ := List.getElem?_eq_some_iff.mp hj
  have hj' : j < spans.length := hclauses.length_eq ▸ hj
  have hdescribes := hclauses.get hj' hj
  rw [List.get_eq_getElem, List.get_eq_getElem, hclause] at hdescribes
  have hcloses := (hmem spans[j]).mp (List.getElem_mem hj')
  generalize spans[j] = s at hdescribes hcloses
  obtain ⟨i, hi, hannounces⟩ := hdescribes.kind
  obtain ⟨e, hprotected, hlength⟩ := hdescribes.tryLength
  rw [Stream.instructions_ofInstructions] at hi hprotected hcloses
  rw [eq_finally_of_announces hannounces rfl] at hi
  have hmarker := eq_length_of_finally hi
  have hblock := hcloses.opens.marks.block
  rw [hmarker, blockAt_append (Nat.le_refl _), blockAt_length, openBlocks_catchLines,
    List.head?_cons, Option.some.injEq] at hblock
  rw [hmarker, ← hblock] at hprotected
  cases hprotected with
  | first _ hcovers => exact hcovers (coversPrevious_catchLines n)
  | covering _ =>
      rw [Stream.offsetAt_append (Nat.le_refl _), Stream.offsetAt_length,
        totalSize_catchLines] at hlength
      cases hlength

/-- A region with 2^32 catch handlers and a finally handler, which protects the try block alone. -/
theorem catches_left_uncovered :
    let calls : List Call :=
      [.beginExceptionBlock, .emit .nop .none, .beginCatchBlock none, .emit .nop .none] ++
        List.replicate (2 ^ 32 - 1) (.beginCatchBlock none) ++
        [.beginFinallyBlock, .endExceptionBlock]
    ∃ stream sink, ((new ⟨1⟩ BodyBuilder.empty).after calls).finish = .ok (stream, sink) ∧
      sink.clauses.toList.getLast? = some ⟨0x0002, 0, 1, 2, 0, none, none⟩ ∧
      ¬Lists CoversPrevious stream sink.clauses.toList := by
  obtain ⟨sink, hfinish, hlast⟩ := finish_catchCalls (n := 2 ^ 32 - 1) rfl
  exact ⟨_, sink, hfinish, hlast, not_lists_catchLines hlast⟩

end Catches

end Assembler

end CilAssembler
