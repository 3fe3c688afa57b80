import UmmapIo.Mapping.History
import UmmapIo.Mapping.Shown
import UmmapIo.Retarget.Switch

/-!
# What a mapping shows after a switch

Once no clean segment is mapped, what loads return is settled: the memory of the
mapped segments, and the storage or zeroes for the others.  Both clean actions of a
switch lead to such a state, and from then on only stores change what loads return.
A segment that was dropped shows the new storage only if it has to be read on its
next first access.
-/

namespace UmmapIo

/-! ## Settled states -/

section Settled

variable {mapping : Mapping} {core : Core}

/-- No clean segment is mapped. -/
def Core.Settled (core : Core) (mapping : Mapping) : Prop :=
  ∀ segmentId, segmentId < mapping.segments →
    (core.status segmentId).mapped = true →
      (core.status segmentId).dirty = true

theorem Core.Settled.unmapped {offset : Nat} (settled : core.Settled mapping)
    (inside : offset < mapping.size)
    (clean : (core.status (offset / mapping.segmentSize)).dirty = false) :
    (core.status (offset / mapping.segmentSize)).mapped = false := by
  rw [← Bool.not_eq_true]
  intro mapped
  exact Bool.false_ne_true (clean.symm.trans
    (settled _ (mapping.div_lt_segments inside) mapped))

/-- A settled mapping is coherent with what it shows. -/
theorem AllCoherent.of_settled (inOrder : Segmentwise InOrder core)
    (vacant : AllVacant mapping core) (settled : core.Settled mapping) :
    AllCoherent mapping (core.shows mapping) core.forget := by
  intro segmentId
  refine ⟨⟨(inOrder segmentId).closed, ?_, ?_, ?_⟩, (inOrder segmentId).writable⟩
  · rintro here offset _ rfl
    change core.memory offset = core.shows mapping offset
    unfold Core.shows
    cases mapped : (core.status (offset / mapping.segmentSize)).mapped with
    | true => rw [if_pos rfl]
    | false =>
        have unread : (core.status (offset / mapping.segmentSize)).needRead =
            false :=
          here.resolve_left fun isMapped =>
            Bool.false_ne_true (mapped.symm.trans isMapped)
        rw [unread, (vacant _ mapped).2.2 offset rfl]
        rfl
  · rintro clean stored offset inside rfl
    change core.storage _ = core.shows mapping offset
    unfold Core.shows
    rw [settled.unmapped inside clean,
      show (core.status (offset / mapping.segmentSize)).needRead = true from stored]
    rfl
  · rintro clean unread offset inside rfl
    change core.shows mapping offset = 0
    unfold Core.shows
    rw [settled.unmapped inside clean,
      show (core.status (offset / mapping.segmentSize)).needRead = false from unread]
    rfl

/-! ## Clean actions -/

theorem Core.settled_dropClean : (core.dropClean mapping).Settled mapping := by
  intro segmentId exists_
  obtain ⟨middle, _, after⟩ := core.exists_dropClean exists_
  rw [after.status]
  unfold dropSegment unmapSegment
  split
  · simp
  · simp_all

theorem Core.settled_markCleanAsDirty
    (writable : mapping.protection.write = true) :
    (core.markCleanAsDirty mapping).Settled mapping := by
  intro segmentId exists_
  obtain ⟨middle, _, after⟩ := core.exists_markCleanAsDirty exists_
  rw [after.status]
  unfold markSegment
  split
  · simp
  · simp_all

/-- Dropping the clean segments leaves a dirty one as it is. -/
theorem Core.dropClean_of_dirty {segmentId : Nat}
    (exists_ : segmentId < mapping.segments)
    (dirty : (core.status segmentId).dirty = true) :
    (core.dropClean mapping).status segmentId = core.status segmentId ∧
      ∀ offset, offset / mapping.segmentSize = segmentId →
        (core.dropClean mapping).memory offset = core.memory offset := by
  obtain ⟨middle, before, after⟩ := core.exists_dropClean exists_
  have same : middle.dropSegment mapping segmentId = middle := by
    unfold dropSegment
    rw [before.status, dirty, Bool.not_true, Bool.and_false]
    rfl
  rw [same] at after
  refine ⟨after.status.trans before.status, ?_⟩
  intro offset own
  exact (after.memory offset own).trans (before.memory offset own)

end Settled

/-! ## Later calls -/

section Later

variable {F : Type} [DecidableEq F] {mapping : Mapping} {driver : Driver}
variable {clone : CloneAnswer F} {entries : List MappingRegistryEntry} {attempts : Nat}
variable {view : Nat → Byte} {history : List Event} {state : FileState F}

/-- Calls of the mapping among those of a client. -/
def FileCall.plain (calls : List (Nat × Call)) : List (Nat × FileCall F) :=
  calls.map fun pair => (pair.1, .call pair.2)

variable {later : List (Nat × Call)}

/-- Accepted calls of the mapping compute their effect beside the other files. -/
theorem Mapping.runFileCalls_plain (noError : driver.NoError)
    (accepted : ∀ pair ∈ later, pair.2.Accepted mapping)
    (entries : List MappingRegistryEntry) (clone : CloneAnswer F) (attempts : Nat)
    (state : FileState F) (core : Core) :
    mapping.runFileCalls entries driver clone attempts (FileCall.plain later)
        (state.setMachine (.idle core)) =
      .finished (Core.callAll mapping driver attempts later core).1
        (state.setMachine
          (.idle (Core.callAll mapping driver attempts later core).2)) := by
  induction later generalizing core with
  | nil => rfl
  | cons pair rest inductionHypothesis =>
      obtain ⟨thread, call⟩ := pair
      have head : (mapping.fileCall entries attempts (.call call)).run
          (mapping.handleFiles driver clone thread)
          (state.setMachine (.idle core)) =
          .finished (core.call mapping driver attempts thread call).1
            (state.setMachine (.idle (core.call mapping driver attempts thread
              call).2)) := by
        refine (FileState.run_onMapping _ _).trans ?_
        rw [show (state.setMachine (.idle core)).machine = .idle core from rfl,
          call_finishes noError (accepted _ List.mem_cons_self)]
        rfl
      have split : (FileCall.plain ((thread, call) :: rest) :
          List (Nat × FileCall F)) = (thread, .call call) :: FileCall.plain rest :=
        rfl
      rw [split]
      unfold Mapping.runFileCalls Core.callAll
      rw [head, Outcome.andThen_finished, inductionHypothesis
        fun other member => accepted other (List.mem_cons_of_mem _ member)]
      rfl

/-- What every call keeps holds after a sequence of calls. -/
theorem Core.callAll_invariant (property : Core → Prop)
    (kept : ∀ core thread call, property core →
      property (core.call mapping driver attempts thread call).2)
    (calls : List (Nat × Call))
    {core : Core}
    (holds : property core) :
    property (Core.callAll mapping driver attempts calls core).2 := by
  induction calls generalizing core with
  | nil => exact holds
  | cons pair rest inductionHypothesis =>
      exact inductionHypothesis (kept core pair.1 pair.2 holds)

variable {property : SegmentStatus → Protection → Prop} {core : Core}

/-- From a settled state on, calls of the mapping keep it coherent with what it
showed then. -/
theorem FileState.run_of_settled (full : driver.Full)
    (upkeep : Upkeep mapping driver property)
    (inOrder : state.InOrder mapping property)
    (settled : state.machine.core.Settled mapping)
    (accepted : ∀ pair ∈ later, pair.2.Accepted mapping) :
    ∃ values current,
      mapping.runFileCalls entries driver clone attempts (FileCall.plain later) state =
        .finished values (state.setMachine
          (.idle (Core.withHistory current state.machine.core.trace))) ∧
      AllCoherent mapping (state.machine.core.shows mapping) current ∧
      Segmentwise UmmapIo.InOrder current ∧ Segmentwise property current := by
  refine ⟨(Core.callAll mapping driver attempts later
      state.machine.core.forget).1, (Core.callAll mapping driver attempts later
      state.machine.core.forget).2, ?_, ?_, ?_, ?_⟩
  · have start : state = state.setMachine (.idle
        (state.machine.core.forget.withHistory state.machine.core.trace)) := by
      unfold setMachine
      rw [Core.forget_withHistory, ← inOrder.idle]
    have ran := Mapping.runFileCalls_plain full.noError accepted entries clone
      attempts state
      (state.machine.core.forget.withHistory state.machine.core.trace)
    rw [Core.callAll_withHistory full.noError accepted, ← start] at ran
    exact ran
  · exact Core.callAll_invariant
      (AllCoherent mapping (state.machine.core.shows mapping))
      (fun _ thread call coherent =>
        (AllCoherent.preserved full).call coherent attempts thread call) later
      (AllCoherent.of_settled inOrder.pages inOrder.vacant settled)
  · exact Core.callAll_invariant (Segmentwise UmmapIo.InOrder)
      (fun _ thread call holds =>
        UmmapIo.InOrder.upkeep.preserved.call holds attempts thread call) later
      inOrder.pages
  · exact Core.callAll_invariant (Segmentwise property)
      (fun _ thread call holds => upkeep.preserved.call holds attempts thread call) later
      inOrder.segments

variable {offset : Nat}

/-- A load returns what it should, whatever was recorded before. -/
theorem FileState.returns_withHistory (full : driver.Full)
    (coherent : AllCoherent mapping view core)
    (inOrder : Segmentwise UmmapIo.InOrder core)
    (accepted : (Call.load offset).Accepted mapping)
    (inside : offset < mapping.size) (state : FileState F) (loader : Nat) :
    (state.setMachine (.idle (core.withHistory history))).Returns mapping entries
      driver clone (attempts + 2) loader offset
      (expected view core.trace offset) := by
  have accepts : ∀ pair ∈ [(loader, Call.load offset)],
      pair.2.Accepted mapping := List.forall_mem_singleton.mpr accepted
  have ran := Mapping.runFileCalls_plain full.noError accepts entries clone
    (attempts + 2) state (core.withHistory history)
  have value : (core.call mapping driver (attempts + 2) loader (.load offset)).1 =
      some (expected view core.trace offset) :=
    loadByte_value full (core.read_fault _ (inOrder _).readable) coherent inside loader
      attempts
  unfold Core.callAll at ran
  rw [Core.call_withHistory full.noError accepted, value] at ran
  exact ⟨_, ran⟩

/-- Only the initial byte of the offset matters. -/
theorem expected_congr {first second : Nat → Byte} (same : first offset = second offset)
    (trace : List Event) :
    expected first trace offset = expected second trace offset := by
  unfold expected
  rw [same]

/-- A load of a mapped segment returns the byte in memory. -/
theorem FileState.InOrder.returns_memory
    (inOrder : state.InOrder mapping property)
    (noError : driver.NoError)
    (accepted : (Call.load offset).Accepted mapping)
    (mapped : (state.machine.core.status (offset / mapping.segmentSize)).mapped = true)
    (loader : Nat) :
    state.Returns mapping entries driver clone (attempts + 2) loader offset
      (state.machine.core.memory offset) := by
  have value : (state.machine.core.call mapping driver (attempts + 2) loader
      (.load offset)).1 = some (state.machine.core.memory offset) := by
    change (Core.loadByte mapping driver loader offset (attempts + 2) _).1 = _
    unfold Core.loadByte
    rw [if_pos ((inOrder.pages _).readable mapped)]
  have finishes := call_finishes noError accepted (attempts + 2) loader
    state.machine.core
  rw [← inOrder.idle, value] at finishes
  exact ⟨_, Mapping.runFileCalls_single ((run_onMapping _ _).trans
    (congrArg (Outcome.mapState state.setMachine) finishes))⟩

end Later

/-! ## Switches -/

section Switches

variable {F : Type} [DecidableEq F]

/-- What loads return after a switch that marks the clean segments as dirty: the
memory of the segments that are mapped, and the new storage elsewhere. -/
def FileState.markedView (state : FileState F) (mapping : Mapping) (target : F)
    (offset : Nat) : Byte :=
  if (state.machine.core.status (offset / mapping.segmentSize)).mapped then
    state.machine.core.memory offset
  else
    state.contents target (mapping.storageOffset + offset)

/-- What loads return after a switch that drops the clean segments: the memory of
the dirty segments, and elsewhere the new storage for the segments that have to be
read and zeroes for the others. -/
def FileState.droppedView (state : FileState F) (mapping : Mapping) (target : F)
    (offset : Nat) : Byte :=
  if (state.machine.core.status (offset / mapping.segmentSize)).dirty then
    state.machine.core.memory offset
  else if (state.machine.core.status (offset / mapping.segmentSize)).needRead then
    state.contents target (mapping.storageOffset + offset)
  else 0

variable {mapping : Mapping} {property : SegmentStatus → Protection → Prop}
variable {state : FileState F} {target : F} {offset : Nat}

theorem FileState.shows_marked
    (resumable : Segmentwise Resumable state.machine.core)
    (inside : offset < mapping.size) :
    (state.switched mapping target .markCleanDirty).machine.core.shows mapping
        offset = state.markedView mapping target offset := by
  refine (Core.shows_markCleanAsDirty inside).trans ?_
  unfold Core.shows markedView
  rw [show ((state.setFd target).machine.core.status
    (offset / mapping.segmentSize)).needRead = true from (resumable _).1, if_pos rfl]
  rfl

theorem FileState.shows_dropped
    (vacant : AllVacant mapping state.machine.core)
    (inside : offset < mapping.size) :
    (state.switched mapping target .dropClean).machine.core.shows mapping offset =
      state.droppedView mapping target offset :=
  Core.shows_dropClean (show AllVacant mapping (state.setFd target).machine.core
    from vacant) inside

/-- A clean action leaves the files as they are. -/
theorem FileState.contents_switched (action : SwitchClean) {file : F}
    (other : file ≠ target) :
    (state.switched mapping target action).contents file = state.contents file :=
  (contents_setMachine (show file ≠ (state.setFd target).fd from other) _).trans
    (state.contents_setFd target file)

end Switches

/-- Over a full driver, for a writable mapping with the first reads, whatever was
called before: after `ummap_switch_fd` to another file with
`UMMAP_MARK_CLEAN_DIRTY`, and after any later calls, loads return what the mapped
segments showed at the switch and the contents of the new file elsewhere, both
overridden by the later stores; a flush of the whole mapping leaves the same in the
new file; and the old file is never written. -/
theorem switch_marking_clean_dirty {F : Type} [DecidableEq F] (mapping : Mapping)
    (writable : mapping.protection.write = true)
    (flags : CreationFlags) (firstRead : flags.noFirstRead = false)
    (former driver : Driver) (full : driver.Full) (direct : driver.directMSync = false)
    (clone : CloneAnswer F) (entries : List MappingRegistryEntry) (addr : Nat)
    (registered : getMapping entries addr = some mapping)
    (files : F → Nat → Byte) (start : F) (attempts : Nat)
    (before : List (Nat × SwitchCall F))
    (concern : ∀ pair ∈ before, pair.2.Concerns mapping entries)
    (values : List (Option Byte)) (state : FileState F)
    (reached : mapping.runSwitchCalls entries former clone (attempts + 2) before
      (.initial flags files start) = .finished values state)
    (target : F)
    (thread : Nat) :
    ∃ after,
      (ummapSwitchFd entries addr target .markCleanDirty).run
        (mapping.handleFiles driver clone thread) state = .finished 0 after ∧
      after.fd = target ∧
      (∀ loader offset, (Call.load offset).Accepted mapping →
        (state.machine.core.status (offset / mapping.segmentSize)).mapped = true →
          state.Returns mapping entries driver clone (attempts + 2) loader offset
            (state.markedView mapping target offset)) ∧
      ∀ later : List (Nat × Call), (∀ pair ∈ later, pair.2.Accepted mapping) →
        ∃ values final events,
          mapping.runFileCalls entries driver clone (attempts + 2)
            (FileCall.plain later) after = .finished values final ∧
          final.machine.core.trace = events ++ after.machine.core.trace ∧
          (∀ file, file ≠ target → final.contents file = state.contents file) ∧
          (∀ loader offset, (Call.load offset).Accepted mapping →
            offset < mapping.size →
              final.Returns mapping entries driver clone (attempts + 2) loader
                offset (expected (state.markedView mapping target) events offset)) ∧
          ∀ flusher flushFlags, ∃ flushed,
            mapping.runFileCalls entries driver clone (attempts + 2)
              (FileCall.plain [(flusher, .flush 0 mapping.getAlignedSize flushFlags)])
              final = .finished [none] flushed ∧
            (∀ file, file ≠ target →
              flushed.contents file = state.contents file) ∧
            ∀ offset, offset < mapping.size →
              flushed.contents target (mapping.storageOffset + offset) =
                expected (state.markedView mapping target) events offset := by
  have inOrder : state.InOrder mapping Resumable :=
    (FileState.InOrder.of_constructor
      ⟨congrArg (!·) firstRead, fun mapped => nomatch mapped⟩ files
      start).runSwitchCalls Resumable.upkeep concern reached
  have upkeep : Upkeep mapping driver Resumable := Resumable.upkeep
  have switched := inOrder.switched upkeep target .markCleanDirty
  refine ⟨state.switched mapping target .markCleanDirty,
    (inOrder.ends_ummapSwitchFd registered target _).finishes
      (fun ⟨_, absurdity⟩ => nomatch absurdity), rfl, ?_, ?_⟩
  · intro loader offset accepted mapped
    unfold FileState.markedView
    rw [if_pos mapped]
    exact inOrder.returns_memory full.noError accepted mapped loader
  · intro later accepted
    obtain ⟨values, current, ran, coherent, pages, resumable⟩ :=
      FileState.run_of_settled full upkeep switched
        (Core.settled_markCleanAsDirty writable) accepted
    refine ⟨values, _, current.trace, ran, rfl, ?_, ?_, ?_⟩
    · intro file other
      exact (FileState.contents_setMachine other _).trans
        (FileState.contents_switched _ other)
    · intro loader offset accepts inside
      rw [expected_congr (FileState.shows_marked inOrder.segments inside).symm]
      exact FileState.returns_withHistory full coherent pages accepts inside _ loader
    · intro flusher flushFlags
      have flushes := mapping.accepted_flush_all flushFlags
      have accepts : ∀ pair ∈ [(flusher,
          Call.flush 0 mapping.getAlignedSize flushFlags)],
          pair.2.Accepted mapping := List.forall_mem_singleton.mpr flushes
      refine ⟨_, Mapping.runFileCalls_plain full.noError accepts entries clone
        (attempts + 2) _ _, ?_, ?_⟩
      · intro file other
        exact (FileState.contents_setMachine other _).trans
          (FileState.contents_switched _ other)
      · intro offset inside
        rw [expected_congr (FileState.shows_marked inOrder.segments inside).symm,
          ← coherent.storage_flush_all resumable full direct inside flushFlags,
          Core.callAll_withHistory full.noError accepts]
        exact congrFun (FileState.contents_fd _) _

/-- These calls on a mapping of two pages over a file of ones return, where the other
file is one of twos. -/
abbrev SwitchTwoPages (calls : List (Nat × SwitchCall Bool))
    (values : List (Option Byte)) (state : FileState Bool) : Prop :=
  twoPages.runSwitchCalls [.ofMapping twoPages] Driver.whole (fun _ _ _ => none) 2 calls
    (.initial ⟨false, false⟩ (fun file _ => if file then 2 else 1) false) =
      .finished values state

/-- A mapping of two pages with a load of the first one, then a switch to a file of
twos, then a store to the first page: a flush brings the first page and the store to
that file, which keeps the bytes behind the second page. -/
theorem switch_marking_clean_dirty_of_two_pages :
    ∃ state after final flushed : FileState Bool, ∃ events,
      SwitchTwoPages [(0, .file (.call (.load 3)))] [some 1] state ∧
      state.markedView twoPages true 3 = 1 ∧
      state.markedView twoPages true 5000 = 2 ∧
      (ummapSwitchFd [.ofMapping twoPages] 5000 true
          .markCleanDirty).run
          (twoPages.handleFiles Driver.whole (fun _ _ _ => none) 0)
          state = .finished 0 after ∧
      (∃ values, twoPages.runFileCalls
          [.ofMapping twoPages] Driver.whole (fun _ _ _ => none) 2
          (FileCall.plain [(0, .store 4 9)]) after = .finished values final) ∧
      final.machine.core.trace = events ++ after.machine.core.trace ∧
      twoPages.runFileCalls [.ofMapping twoPages] Driver.whole (fun _ _ _ => none) 2
          (FileCall.plain [(0, .flush 0 twoPages.getAlignedSize ⟨false, false, false⟩)])
          final = .finished [none] flushed ∧
      flushed.contents false = state.contents false ∧
      ∀ offset, offset < twoPages.size →
        flushed.contents true (twoPages.storageOffset + offset) =
          expected (state.markedView twoPages true) events
            offset := by
  obtain ⟨state, reached, first, second⟩ : ∃ state : FileState Bool,
      SwitchTwoPages [(0, .file (.call (.load 3)))] [some 1] state ∧
      state.markedView twoPages true 3 = 1 ∧
      state.markedView twoPages true 5000 = 2 :=
    ⟨_, rfl, by decide, by decide⟩
  have concerns : (SwitchCall.file (.call (.load 3)) : SwitchCall Bool).Concerns
      twoPages [.ofMapping twoPages] := trivial
  have accepted : (Call.store 4 9).Accepted twoPages := by
    decide
  obtain ⟨after, switched, _, _, goesOn⟩ := switch_marking_clean_dirty
    (F := Bool) twoPages rfl ⟨false, false⟩ rfl Driver.whole Driver.whole
    Driver.whole_full rfl (fun _ _ _ => none)
    [.ofMapping twoPages] 5000 rfl
    (fun file _ => if file then 2 else 1) false 0 [(0, .file (.call (.load 3)))]
    (List.forall_mem_singleton.mpr concerns) [some 1] state reached true 0
  obtain ⟨values, final, events, ran, recorded, _, _, flushes⟩ := goesOn
    [(0, .store 4 9)] (List.forall_mem_singleton.mpr accepted)
  obtain ⟨flushed, returns, kept, contents⟩ := flushes 0 ⟨false, false, false⟩
  exact ⟨state, after, final, flushed, events, reached, first, second, switched,
    ⟨values, ran⟩, recorded, returns, kept false Bool.false_ne_true, contents⟩

/-- Over a full driver, for any flags and whatever was called before: after
`ummap_switch_fd` with `UMMAP_DROP_CLEAN` the dirty segments are mapped and keep their
memory, and after any later calls loads return what the dirty segments held, the
contents of the new file for the clean segments that have to be read, and zeroes for
the other clean segments, all overridden by the later stores. -/
theorem switch_dropping_clean {F : Type} [DecidableEq F] (mapping : Mapping)
    (flags : CreationFlags) (former driver : Driver) (full : driver.Full)
    (clone : CloneAnswer F) (entries : List MappingRegistryEntry) (addr : Nat)
    (registered : getMapping entries addr = some mapping)
    (files : F → Nat → Byte) (start : F) (attempts : Nat)
    (before : List (Nat × SwitchCall F))
    (concern : ∀ pair ∈ before, pair.2.Concerns mapping entries)
    (values : List (Option Byte)) (state : FileState F)
    (reached : mapping.runSwitchCalls entries former clone (attempts + 2) before
      (.initial flags files start) = .finished values state)
    (target : F)
    (thread : Nat) :
    ∃ after,
      (ummapSwitchFd entries addr target .dropClean).run
        (mapping.handleFiles driver clone thread) state = .finished 0 after ∧
      after.fd = target ∧
      (∀ segmentId, segmentId < mapping.segments →
        (state.machine.core.status segmentId).dirty = true →
          (after.machine.core.status segmentId).mapped = true ∧
          (after.machine.core.status segmentId).dirty = true ∧
          ∀ offset, offset / mapping.segmentSize = segmentId →
            after.machine.core.memory offset = state.machine.core.memory offset) ∧
      ∀ later : List (Nat × Call), (∀ pair ∈ later, pair.2.Accepted mapping) →
        ∃ values final events,
          mapping.runFileCalls entries driver clone (attempts + 2)
            (FileCall.plain later) after = .finished values final ∧
          final.machine.core.trace = events ++ after.machine.core.trace ∧
          ∀ loader offset, (Call.load offset).Accepted mapping →
            offset < mapping.size →
              final.Returns mapping entries driver clone (attempts + 2) loader
                offset (expected (state.droppedView mapping target) events offset) := by
  have always (other : Driver) : Upkeep mapping other (fun _ _ => True) :=
    ⟨fun _ _ _ _ => trivial, fun _ _ _ _ => trivial, fun _ _ _ => trivial,
      fun _ _ _ => trivial⟩
  have inOrder : state.InOrder mapping (fun _ _ => True) :=
    (FileState.InOrder.of_constructor trivial files start).runSwitchCalls
      (always former) concern reached
  have switched := inOrder.switched (always former) target .dropClean
  refine ⟨state.switched mapping target .dropClean,
    (inOrder.ends_ummapSwitchFd registered target _).finishes
      (fun ⟨_, absurdity⟩ => nomatch absurdity), rfl, ?_, ?_⟩
  · intro segmentId exists_ dirty
    obtain ⟨status, memory⟩ := Core.dropClean_of_dirty exists_
      (show ((state.setFd target).machine.core.status segmentId).dirty = true
        from dirty)
    have after : (state.switched mapping target .dropClean).machine.core.status
        segmentId = state.machine.core.status segmentId := status
    rw [after]
    exact ⟨(inOrder.pages segmentId).mapped_of_dirty dirty, dirty, memory⟩
  · intro later accepted
    obtain ⟨values, current, ran, coherent, pages, _⟩ :=
      FileState.run_of_settled full (always driver) switched
        Core.settled_dropClean accepted
    refine ⟨values, _, current.trace, ran, rfl, ?_⟩
    intro loader offset accepts inside
    rw [expected_congr (FileState.shows_dropped inOrder.vacant inside).symm]
    exact FileState.returns_withHistory full coherent pages accepts inside _ loader

/-- A mapping of two pages with a load of the first one and a store to the second
one, then a switch to a file of twos: the first page shows the new file and the
second one keeps its memory. -/
theorem switch_dropping_clean_of_two_pages :
    ∃ state after final : FileState Bool, ∃ events,
      SwitchTwoPages
        [(0, .file (.call (.load 3))), (0, .file (.call (.store 5000 7)))]
        [some 1, none] state ∧
      state.droppedView twoPages true 3 = 2 ∧
      state.droppedView twoPages true 5000 = 7 ∧
      (ummapSwitchFd [.ofMapping twoPages] 5000 true
          .dropClean).run
          (twoPages.handleFiles Driver.whole (fun _ _ _ => none) 0)
          state = .finished 0 after ∧
      after.machine.core.memory 5000 = state.machine.core.memory 5000 ∧
      (∃ values, twoPages.runFileCalls
          [.ofMapping twoPages] Driver.whole (fun _ _ _ => none) 2
          (FileCall.plain [(0, .store 4 9)]) after = .finished values final) ∧
      final.machine.core.trace = events ++ after.machine.core.trace ∧
      final.Returns twoPages [.ofMapping twoPages] Driver.whole (fun _ _ _ => none) 2 0
        3 (expected (state.droppedView twoPages true) events 3) := by
  obtain ⟨state, reached, first, second, dirty⟩ : ∃ state : FileState Bool,
      SwitchTwoPages
        [(0, .file (.call (.load 3))), (0, .file (.call (.store 5000 7)))]
        [some 1, none] state ∧
      state.droppedView twoPages true 3 = 2 ∧
      state.droppedView twoPages true 5000 = 7 ∧
      (state.machine.core.status 1).dirty = true :=
    ⟨_, rfl, by decide, by decide, rfl⟩
  have accepted : (Call.store 4 9).Accepted twoPages := by
    decide
  obtain ⟨after, switched, _, keeps, goesOn⟩ := switch_dropping_clean
    (F := Bool) twoPages ⟨false, false⟩ Driver.whole Driver.whole
    Driver.whole_full (fun _ _ _ => none) [.ofMapping twoPages]
    5000 rfl (fun file _ => if file then 2 else 1) false 0
    [(0, .file (.call (.load 3))), (0, .file (.call (.store 5000 7)))]
    (List.forall_mem_cons.mpr ⟨trivial, List.forall_mem_singleton.mpr trivial⟩)
    [some 1, none] state reached true 0
  obtain ⟨values, final, events, ran, recorded, loads⟩ := goesOn
    [(0, .store 4 9)] (List.forall_mem_singleton.mpr accepted)
  exact ⟨state, after, final, events, reached, first, second, switched,
    (keeps 1 (by decide) dirty).2.2 5000 (by decide), ⟨values, ran⟩, recorded,
    loads 0 3 (by decide) (by decide)⟩

/-- A page of a mapping without first reads is loaded and dropped: it shows zeroes
and not the sevens of the new file. -/
theorem switch_dropping_clean_shows_zeroes :
    ∃ state after : FileState Bool,
      onePage.runSwitchCalls [.ofMapping onePage] Driver.whole (fun _ _ _ => none) 2
          [(0, .file (.call (.load 3)))]
          (.initial ⟨true, false⟩ (fun file _ => if file then 7 else 1) false) =
        .finished [some 0] state ∧
      (state.machine.core.status 0).mapped = true ∧
      (state.machine.core.status 0).dirty = false ∧
      (ummapSwitchFd [.ofMapping onePage] pageSize true
          .dropClean).run
          (onePage.handleFiles Driver.whole (fun _ _ _ => none) 0)
          state = .finished 0 after ∧
      after.fd = true ∧
      after.contents true (onePage.storageOffset + 3) = 7 ∧
      after.Returns onePage [.ofMapping onePage] Driver.whole (fun _ _ _ => none) 2 0
        3 0 :=
  ⟨_, _, rfl, rfl, rfl, rfl, rfl, by decide, _, rfl⟩

end UmmapIo
