import UmmapIo.Mapping.SegmentEffects

/-!
# Status bits and page protections

Between two operations, an unmapped segment should have no access, a mapped
clean segment should be read-only and a mapped dirty segment read-write; then a
handled fault lets the access through.  This module determines the runs in which
that is so: exactly those in which no read fault is handled on a segment that is
mapped and dirty.  Such a fault takes the write access away and leaves the dirty
bit set, and every later write fault on the segment returns without effect.
-/

namespace UmmapIo

/-- The protection lets a read or a write access through. -/
def Protection.allows (protection : Protection) (isWrite : Bool) : Bool :=
  if isWrite then protection.write else protection.read

/-- The protection of a segment is the one that its status asks for. -/
structure Agrees (status : SegmentStatus) (protection : Protection) : Prop where
  unmapped : status.mapped = false →
    status.dirty = false ∧ protection.read = false ∧ protection.write = false
  clean : status.mapped = true → status.dirty = false →
    protection.read = true ∧ protection.write = false
  dirty : status.mapped = true → status.dirty = true →
    protection.read = true ∧ protection.write = true

/-- Every segment has the protection that its status asks for. -/
def Agreement (core : Core) : Prop :=
  ∀ segmentId, Agrees (core.status segmentId) (core.pages segmentId)

/-- A read fault that is handled on a segment which is mapped and dirty. -/
def StaleReadFault (mapping : Mapping) (core : Core) : Call → Prop
  | .fault address false =>
      (Call.fault address false).Accepted mapping ∧
        (core.status ((address - mapping.baseAddress) /
          mapping.segmentSize)).mapped = true ∧
        (core.status ((address - mapping.baseAddress) /
          mapping.segmentSize)).dirty = true
  | _ => False

variable {mapping : Mapping} {driver : Driver}

/-! ## One segment -/

section Segment

variable {status : SegmentStatus} {protection : Protection} {core : Core}
variable {segmentId : Nat}

theorem Agrees.of_unmapped (unmapped : status.mapped = false)
    (notDirty : status.dirty = false) (noRead : protection.read = false)
    (noWrite : protection.write = false) :
    Agrees status protection := by
  constructor
  · exact fun _ => ⟨notDirty, noRead, noWrite⟩
  · intro mapped
    rw [unmapped] at mapped
    cases mapped
  · intro mapped
    rw [unmapped] at mapped
    cases mapped

theorem Agrees.of_mapped (mapped : status.mapped = true)
    (readable : protection.read = true)
    (writable : protection.write = status.dirty) :
    Agrees status protection := by
  constructor
  · intro unmapped
    rw [mapped] at unmapped
    cases unmapped
  · intro _ notDirty
    exact ⟨readable, writable.trans notDirty⟩
  · intro _ dirty
    exact ⟨readable, writable.trans dirty⟩

/-- A mapped segment can be read, and written when it is dirty. -/
theorem Agrees.of_status_mapped (agrees : Agrees status protection)
    (mapped : status.mapped = true) :
    protection.read = true ∧ protection.write = status.dirty := by
  cases dirty : status.dirty with
  | false => exact agrees.clean mapped dirty
  | true => exact agrees.dirty mapped dirty

section

variable (agrees : Agrees (core.status segmentId) (core.pages segmentId))
include agrees

/-- Handling a fault keeps the agreement, except for a read fault on a mapped
dirty segment. -/
theorem Agrees.fault {isWrite : Bool}
    (fresh : isWrite = false → (core.status segmentId).mapped = true →
      (core.status segmentId).dirty = false) :
    Agrees ((core.fault mapping driver segmentId isWrite).status segmentId)
      ((core.fault mapping driver segmentId isWrite).pages segmentId) := by
  rw [Core.fault_status, Core.fault_pages]
  cases done : Mapping.alreadyDone isWrite (core.status segmentId) with
  | true => exact agrees
  | false =>
      cases isWrite with
      | true => exact Agrees.of_mapped rfl rfl rfl
      | false =>
          have notDirty : (core.status segmentId).dirty = false := by
            cases mapped : (core.status segmentId).mapped with
            | false => exact (agrees.unmapped mapped).1
            | true => exact fresh rfl mapped
          refine Agrees.of_mapped rfl rfl ?_
          rw [Bool.false_or, notDirty]
          rfl

/-- A handled fault lets its access through. -/
theorem Agrees.allows_fault (isWrite : Bool) :
    ((core.fault mapping driver segmentId isWrite).pages segmentId).allows
      isWrite = true := by
  rw [Core.fault_pages]
  cases done : Mapping.alreadyDone isWrite (core.status segmentId) with
  | false => cases isWrite <;> rfl
  | true =>
      unfold Mapping.alreadyDone at done
      rw [Bool.and_eq_true, beq_iff_eq] at done
      cases isWrite with
      | true => exact (agrees.dirty done.2 done.1.symm).2
      | false => exact (agrees.clean done.2 done.1.symm).1

theorem Agrees.flushSegment (unmap : Bool) :
    Agrees ((core.flushSegment mapping driver unmap segmentId).status segmentId)
      ((core.flushSegment mapping driver unmap segmentId).pages segmentId) := by
  unfold Core.flushSegment
  rw [Core.release_status, Core.release_pages, Core.writeBack_status,
    Core.writeBack_pages]
  cases mapped : (core.status segmentId).mapped with
  | false =>
      obtain ⟨notDirty, noRead, noWrite⟩ := agrees.unmapped mapped
      refine Agrees.of_unmapped rfl ?_ ?_ ?_
      · simp [notDirty]
      · simpa [notDirty] using noRead
      · simpa [notDirty] using noWrite
  | true =>
      obtain ⟨readable, writable⟩ := agrees.of_status_mapped mapped
      cases unmap with
      | true => exact Agrees.of_unmapped rfl (by simp) rfl rfl
      | false =>
          cases dirty : (core.status segmentId).dirty <;>
            cases mapping.threadSafe <;>
            apply Agrees.of_mapped <;>
            simp [dirty, readable, writable]

theorem Agrees.dropSegment :
    Agrees ((core.dropSegment mapping segmentId).status segmentId)
      ((core.dropSegment mapping segmentId).pages segmentId) := by
  unfold Core.dropSegment Core.unmapSegment
  split
  · rename_i mappedClean
    rw [Bool.and_eq_true, Bool.not_eq_true'] at mappedClean
    apply Agrees.of_unmapped <;> simp [mappedClean.2]
  · exact agrees

theorem Agrees.markSegment :
    Agrees ((core.markSegment mapping segmentId).status segmentId)
      ((core.markSegment mapping segmentId).pages segmentId) := by
  unfold Core.markSegment
  split
  · rename_i condition
    simp only [Bool.and_eq_true] at condition
    apply Agrees.of_mapped <;> simp [condition.1.1]
  · exact agrees

end

end Segment

/-! ## Calls -/

section Calls

variable {core : Core}

/-- Every part keeps the agreement, except a read fault of a dirty segment. -/
theorem Agreement.preserved :
    Preserved mapping driver (fun core segmentId isWrite => isWrite = false →
      (core.status segmentId).mapped = true → (core.status segmentId).dirty = false)
      Agreement :=
  .of_segments (fun _ => 0)
    (fun untouched own => by rwa [untouched.status, untouched.pages])
    (fun fresh own => own.fault fresh) (fun unmap _ own => own.flushSegment unmap)
    (fun own => own.dropSegment) (fun own => own.markSegment)
    (fun _ _ _ _ agreement => agreement)

/-- The faults of accesses are not stale. -/
theorem Agreement.allows {call : Call}
    (accesses : ∀ address isWrite, call ≠ .fault address isWrite) :
    call.Allows mapping (fun core segmentId isWrite => isWrite = false →
      (core.status segmentId).mapped = true → (core.status segmentId).dirty = false)
      Agreement := by
  cases call with
  | load offset =>
      -- A load raises no fault on a dirty segment.
      intro current agrees closed _ mapped
      rw [((agrees _).of_status_mapped mapped).1] at closed
      cases closed
  | store offset value =>
      rintro _ _ ⟨⟩
  | fault address isWrite => exact absurd rfl (accesses address isWrite)
  | _ => trivial

/-- Every call that returns keeps the agreement, except a stale read fault. -/
theorem Agreement.call {call : Call} {attempts thread : Nat} {value : Option Byte}
    {final : Machine} (agreement : Agreement core)
    (fresh : ¬StaleReadFault mapping core call)
    (returns : (mapping.call attempts call).run
      (mapping.handle driver thread) (.idle core) = .finished value final) :
    Agreement (core.call mapping driver attempts thread call).2 := by
  cases call with
  | fault address isWrite =>
      refine preserved.fault ?_ agreement
      intro isRead mapped
      subst isRead
      by_contra dirty
      exact fresh ⟨accepted_of_fault_finished returns, mapped,
        by simpa using dirty⟩
  | _ =>
      exact preserved.call_of_allows agreement (allows (by rintro _ _ ⟨⟩)) attempts
        thread

end Calls

/-! ## Runs -/

/-- A call that works on the segment; an access does so when it raises a
fault. -/
def Call.Concerns (mapping : Mapping) (core : Core) (segmentId : Nat) : Call → Prop
  | .load offset =>
      offset / mapping.segmentSize = segmentId ∧
        (core.pages segmentId).read = false
  | .store offset _ =>
      offset / mapping.segmentSize = segmentId ∧
        (core.pages segmentId).write = false
  | .fault address _ =>
      (address - mapping.baseAddress) / mapping.segmentSize = segmentId
  | .flush offset size _ => segmentId ∈ mapping.flushSegments offset size
  | .evict other => other = segmentId
  | .dropClean => True
  | .markCleanAsDirty => True

/-- None of the calls, made one after the other, concerns the segment. -/
def Quiet (mapping : Mapping) (driver : Driver)
    (attempts segmentId : Nat) : List (Nat × Call) → Core → Prop
  | [], _ => True
  | (thread, call) :: rest, core =>
      ¬call.Concerns mapping core segmentId ∧
        Quiet mapping driver attempts segmentId rest
          (core.call mapping driver attempts thread call).2

/-- The current protections let through every access whose fault was handled
during the calls, as long as no later call concerned its segment. -/
def PermitsHandledFaults (mapping : Mapping) (driver : Driver) (attempts : Nat)
    (start : Machine) (calls : List (Nat × Call))
    (core : Core) : Prop :=
  ∀ earlier thread address isWrite later,
    calls = earlier ++ (thread, .fault address isWrite) :: later →
    (∀ values state,
      mapping.runCalls driver attempts
          (earlier ++ [(thread, .fault address isWrite)]) start =
        .finished values state →
      Quiet mapping driver attempts
        ((address - mapping.baseAddress) / mapping.segmentSize) later
        state.core) →
    (core.pages ((address - mapping.baseAddress) /
      mapping.segmentSize)).allows isWrite = true

section Runs

variable {core : Core} {segmentId : Nat} {offset : Nat}

theorem loadByte_pages
    (elsewhere : offset / mapping.segmentSize ≠ segmentId)
    (thread attempts : Nat) :
    (core.loadByte mapping driver thread offset attempts).2.pages segmentId =
      core.pages segmentId := by
  induction attempts generalizing core with
  | zero => rfl
  | succ attempts inductionHypothesis =>
      have only : OnlySegment mapping (fun _ => 0)
          (offset / mapping.segmentSize) core
          (core.fault mapping driver (offset / mapping.segmentSize) false) :=
        OnlySegment.fault core _ false
      unfold Core.loadByte
      split
      · rfl
      · rw [inductionHypothesis]
        exact only.pages segmentId (Ne.symm elsewhere)

theorem storeByte_pages
    (elsewhere : offset / mapping.segmentSize ≠ segmentId)
    (value : Byte) (thread attempts : Nat) :
    (core.storeByte mapping driver thread offset value attempts).2.pages segmentId =
      core.pages segmentId := by
  induction attempts generalizing core with
  | zero => rfl
  | succ attempts inductionHypothesis =>
      have only : OnlySegment mapping (fun _ => 0)
          (offset / mapping.segmentSize) core
          (core.fault mapping driver (offset / mapping.segmentSize) true) :=
        OnlySegment.fault core _ true
      unfold Core.storeByte
      split
      · rfl
      · rw [inductionHypothesis]
        exact only.pages segmentId (Ne.symm elsewhere)

theorem flush_pages {size : Nat}
    (elsewhere : segmentId ∉ mapping.flushSegments offset size)
    (flags : FlushFlags) :
    (core.flush mapping driver offset size flags).pages segmentId =
      core.pages segmentId := by
  have untouched : Untouched mapping (fun _ => 0) segmentId core
      (core.flushLoop mapping driver offset size flags.unmap) :=
    Untouched.foldl
      (fun current item => OnlySegment.flushSegment current item flags.unmap)
      elsewhere core
  unfold Core.flush
  split
  · rfl
  · dsimp only
    split <;> exact untouched.pages

theorem evict_pages {other : Nat} (elsewhere : other ≠ segmentId) :
    (core.evict mapping driver other).pages segmentId = core.pages segmentId := by
  have only : OnlySegment mapping (fun _ => 0) other core
      (core.flushSegment mapping driver true other) :=
    OnlySegment.flushSegment core other true
  unfold Core.evict
  split
  · rfl
  · exact only.pages segmentId (Ne.symm elsewhere)

/-- A call that does not concern a segment leaves its protection. -/
theorem call_pages {call : Call}
    (unconcerned : ¬call.Concerns mapping core segmentId)
    (attempts thread : Nat) :
    (core.call mapping driver attempts thread call).2.pages segmentId =
      core.pages segmentId := by
  cases call with
  | load offset =>
      by_cases here : offset / mapping.segmentSize = segmentId
      · have opened : (core.pages segmentId).read = true := by
          simpa [Call.Concerns, here] using unconcerned
        cases attempts with
        | zero => rfl
        | succ attempts => simp [Core.call, Core.loadByte, here, opened]
      · exact loadByte_pages here thread attempts
  | store offset value =>
      by_cases here : offset / mapping.segmentSize = segmentId
      · have opened : (core.pages segmentId).write = true := by
          simpa [Call.Concerns, here] using unconcerned
        cases attempts with
        | zero => rfl
        | succ attempts => simp [Core.call, Core.storeByte, here, opened]
      · exact storeByte_pages here value thread attempts
  | fault address isWrite =>
      have only : OnlySegment mapping (fun _ => 0)
          ((address - mapping.baseAddress) / mapping.segmentSize) core
          (core.fault mapping driver
            ((address - mapping.baseAddress) / mapping.segmentSize) isWrite) :=
        OnlySegment.fault core _ isWrite
      exact only.pages segmentId fun same => unconcerned same.symm
  | flush offset size flags => exact flush_pages unconcerned flags
  | evict other => exact evict_pages unconcerned
  | dropClean => exact absurd trivial unconcerned
  | markCleanAsDirty => exact absurd trivial unconcerned

variable {attempts : Nat} {calls : List (Nat × Call)}

theorem quiet_pages
    (quiet : Quiet mapping driver attempts segmentId calls core) :
    (Core.callAll mapping driver attempts calls core).2.pages segmentId =
      core.pages segmentId := by
  induction calls generalizing core with
  | nil => rfl
  | cons pair rest inductionHypothesis =>
      obtain ⟨thread, call⟩ := pair
      exact (inductionHypothesis quiet.2).trans (call_pages quiet.1 attempts thread)

/-- Without stale read faults, the agreement holds after a run. -/
theorem agreement_of_run {start : Core} (agreement : Agreement start)
    (fresh : ∀ earlier thread call, earlier ++ [(thread, call)] <+: calls →
      ∀ values state,
        mapping.runCalls driver attempts earlier (.idle start) =
          .finished values state →
        ¬StaleReadFault mapping state.core call)
    {values : List (Option Byte)}
    {state : Machine}
    (finished : mapping.runCalls driver attempts calls (.idle start) =
      .finished values state) :
    ∃ core, state = .idle core ∧ Agreement core := by
  refine runCalls_invariant Agreement agreement ?_ finished
  intro earlier thread call initialPart earlierValues core ran current value ends
  exact current.call (fresh earlier thread call initialPart earlierValues _ ran) ends

/-- The machine right after the constructor agrees. -/
theorem Agreement.initial (flags : CreationFlags) (storage : Nat → Byte) :
    Agreement (Core.initial flags storage) :=
  fun _ => Agrees.of_unmapped rfl rfl rfl rfl

/-- A stale read fault is handled to its end and breaks the agreement. -/
theorem StaleReadFault.breaks {call : Call}
    (stale : StaleReadFault mapping core call)
    (attempts thread : Nat) :
    ∃ broken,
      mapping.runCalls driver attempts [(thread, call)] (.idle core) =
        .finished [none] (.idle broken) ∧
      ¬Agreement broken := by
  cases call with
  | fault address isWrite =>
      cases isWrite with
      | true => exact stale.elim
      | false =>
          obtain ⟨accepted, mapped, dirty⟩ := stale
          have handled : (mapping.onSegmentationFault address false).run
              (mapping.handle driver thread) (.idle core) = _ :=
            (ends_onSegmentationFault (Or.inl mapped) (Or.inl accepted) rfl).finishes id
          refine ⟨core.fault mapping driver
            ((address - mapping.baseAddress) / mapping.segmentSize) false, ?_, ?_⟩
          · unfold Mapping.runCalls Mapping.call
            rw [Program.run_bind, handled]
            rfl
          · intro agreement
            have agrees := agreement
              ((address - mapping.baseAddress) / mapping.segmentSize)
            rw [Core.fault_status, Core.fault_pages] at agrees
            simp only [Mapping.alreadyDone, mapped, dirty] at agrees
            exact absurd (agrees.dirty rfl rfl).2 (by simp)
  | load offset => exact stale.elim
  | store offset value => exact stale.elim
  | flush offset size flags => exact stale.elim
  | evict segmentId => exact stale.elim
  | dropClean => exact stale.elim
  | markCleanAsDirty => exact stale.elim

/-- Without stale read faults, a handled fault lets its access through until the
next call that concerns its segment. -/
theorem permits_of_run {start : Core} (agreement : Agreement start)
    (fresh : ∀ earlier thread call, earlier ++ [(thread, call)] <+: calls →
      ∀ values state,
        mapping.runCalls driver attempts earlier (.idle start) =
          .finished values state →
        ¬StaleReadFault mapping state.core call)
    {values : List (Option Byte)}
    {state : Machine}
    (finished : mapping.runCalls driver attempts calls (.idle start) =
      .finished values state) :
    PermitsHandledFaults mapping driver attempts (.idle start) calls state.core := by
  intro earlier thread address isWrite later split quiet
  rw [List.append_cons] at split
  subst split
  rw [runCalls_append] at finished
  obtain ⟨_, faulted, ran, rest⟩ := Outcome.andThen_eq_finished.mp finished
  obtain ⟨_, final, lastRan, same⟩ := Outcome.andThen_eq_finished.mp rest
  have stillQuiet := quiet _ faulted ran
  rw [runCalls_append] at ran
  obtain ⟨_, before, ranBefore, faultRest⟩ :=
    Outcome.andThen_eq_finished.mp ran
  obtain ⟨_, handled, ranFault, sameFault⟩ :=
    Outcome.andThen_eq_finished.mp faultRest
  obtain ⟨core, rfl, current⟩ := agreement_of_run agreement
    (fun first other call initialPart => fresh first other call
      (initialPart.trans (List.prefix_append_of_prefix
        (List.prefix_append earlier _)))) ranBefore
  rw [Outcome.finished.injEq] at same sameFault
  obtain ⟨_, rfl⟩ := same
  obtain ⟨_, rfl⟩ := sameFault
  obtain ⟨_, rfl⟩ := runCalls_determines ranFault
  obtain ⟨_, rfl⟩ := runCalls_determines lastRan
  have unchanged := quiet_pages stillQuiet
  simp only [Machine.idle] at unchanged ⊢
  rw [unchanged]
  exact (current _).allows_fault isWrite

end Runs

/-- Status bits and protections agree after every call of a run, and every
handled fault lets its access through until the next operation on its segment,
exactly when the run handles no read fault on a mapped dirty segment. -/
theorem agreement_iff_no_stale_read_fault (mapping : Mapping) (driver : Driver)
    (attempts : Nat) (flags : CreationFlags) (storage : Nat → Byte)
    (calls : List (Nat × Call)) :
    (∀ earlier, earlier <+: calls → ∀ values state,
        mapping.runCalls driver attempts earlier (Machine.initial flags storage) =
          .finished values state →
        Agreement state.core ∧
          PermitsHandledFaults mapping driver attempts
            (Machine.initial flags storage) earlier state.core) ↔
      ∀ earlier thread call, earlier ++ [(thread, call)] <+: calls →
        ∀ values state,
          mapping.runCalls driver attempts earlier (Machine.initial flags storage) =
            .finished values state →
          ¬StaleReadFault mapping state.core call := by
  have start : Machine.initial flags storage =
      .idle (Core.initial flags storage) := rfl
  rw [start]
  constructor
  · intro agreeing earlier thread call initialPart values state ran stale
    obtain ⟨core, rfl⟩ : ∃ core, state = .idle core :=
      ⟨_, (runCalls_determines ran).2⟩
    obtain ⟨broken, breaks, disagreement⟩ : ∃ broken,
        mapping.runCalls driver attempts [(thread, call)] (.idle core) =
          .finished [none] (.idle broken) ∧
        ¬Agreement broken := stale.breaks attempts thread
    have runs : mapping.runCalls driver attempts (earlier ++ [(thread, call)])
        (.idle (Core.initial flags storage)) =
        .finished (values ++ [none]) (.idle broken) := by
      rw [runCalls_append, ran, Outcome.andThen_finished, breaks]
      rfl
    exact disagreement (agreeing _ initialPart _ _ runs).1
  · intro fresh earlier initialPart values state ran
    have freshEarlier : ∀ first other call, first ++ [(other, call)] <+: earlier →
        ∀ values' state',
          mapping.runCalls driver attempts first (.idle (Core.initial flags storage)) =
            .finished values' state' →
          ¬StaleReadFault mapping state'.core call :=
      fun first other call part => fresh first other call (part.trans initialPart)
    obtain ⟨core, rfl, agreement⟩ :=
      agreement_of_run (Agreement.initial flags storage) freshEarlier ran
    exact ⟨agreement,
      permits_of_run (Agreement.initial flags storage) freshEarlier ran⟩

/-- A write fault and then a read fault on the same page: the segment is mapped
and dirty but read-only, and a further write fault returns without giving the
write access. -/
theorem stale_read_fault_blocks_writes :
    ∃ values state,
      onePage.runCalls Driver.whole 2
          [(0, .fault pageSize true), (1, .fault pageSize false),
            (0, .fault pageSize true)]
          (Machine.initial ⟨false, false⟩ fun _ => 0) =
        .finished values state ∧
      (state.core.status 0).mapped = true ∧
      (state.core.status 0).dirty = true ∧
      state.core.pages 0 = onePage.readOnly := by
  refine ⟨_, _, rfl, ?_, ?_, ?_⟩ <;> rfl

end UmmapIo
