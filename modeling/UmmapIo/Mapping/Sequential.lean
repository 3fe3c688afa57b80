import UmmapIo.Lib.Hoare
import UmmapIo.Mapping.Calls
import Mathlib.Data.List.Induction

/-!
# Calls that run alone

When no other thread runs, a call finds every mutex free and releases those it
took, so it is a transformation of memory, status bits and storage.  This module
gives that transformation for every operation, proves that the program of the
operation computes it, and runs sequences of calls.
-/

namespace UmmapIo

/-! ## Effects of the operations -/

namespace Core

variable (core : Core) (mapping : Mapping) (driver : Driver)

/-- Effect of `Mapping::loadAndSwapSegment`. -/
def loadAndSwapSegment (segmentId : Nat) (writeAccess : Bool) : Core :=
  let offset := mapping.segmentSize * segmentId
  if mapping.threadSafe then
    core.countCall.mremapForced mapping segmentId
      (core.preadBuffer driver (fun _ => 0) (mapping.readWriteSize offset)
        (mapping.storageOffset + offset))
      (if writeAccess then mapping.readWrite else mapping.readOnly)
  else
    let loaded := (core.mprotect segmentId mapping.readWrite).pread driver
      offset (mapping.readWriteSize offset) (mapping.storageOffset + offset)
    if writeAccess then loaded else loaded.mprotect segmentId mapping.readOnly

/-- Effect of opening a segment for an access. -/
def openSegment (segmentId : Nat) (isWrite : Bool) : Core :=
  if !(core.status segmentId).mapped && (core.status segmentId).needRead then
    let loaded := core.loadAndSwapSegment mapping driver segmentId isWrite
    if isWrite then loaded.setDirty segmentId true else loaded
  else if isWrite then
    (core.mprotect segmentId mapping.readWrite).setDirty segmentId true
  else
    core.mprotect segmentId mapping.readOnly

/-- Effect of the critical section of `Mapping::onSegmentationFault`. -/
def fault (segmentId : Nat) (isWrite : Bool) : Core :=
  if Mapping.alreadyDone isWrite (core.status segmentId) then core
  else (core.openSegment mapping driver segmentId isWrite).setMapped segmentId true

/-- The transfer made when a segment is written back. -/
def pwriteSegment (segmentId : Nat) : Core :=
  let offset := mapping.segmentSize * segmentId
  core.pwrite driver offset (mapping.readWriteSize offset)
    (mapping.storageOffset + offset)

/-- Effect of writing back one segment. -/
def writeBack (segmentId : Nat) : Core :=
  if (core.status segmentId).dirty && (core.status segmentId).mapped then
    let guarded :=
      if mapping.threadSafe then core.mprotect segmentId mapping.readOnly
      else core
    ((guarded.pwriteSegment mapping driver segmentId).setDirty
      segmentId false).setNeedRead segmentId true
  else core

/-- Effect of withdrawing a segment. -/
def unmapSegment (segmentId : Nat) : Core :=
  ((core.mprotect segmentId mapping.noAccess).madviseDontNeed mapping
    segmentId).setMapped segmentId false

/-- Effect of the second half of the loop body of `Mapping::flush`. -/
def release (segmentId : Nat) (unmap : Bool) : Core :=
  if (core.status segmentId).mapped then
    if unmap then core.unmapSegment mapping segmentId
    else if mapping.threadSafe then core
    else core.mprotect segmentId mapping.readOnly
  else core

/-- Effect of the loop body of `Mapping::flush`. -/
def flushSegment (unmap : Bool) (segmentId : Nat) : Core :=
  (core.writeBack mapping driver segmentId).release mapping segmentId unmap

/-- Effect of the loop of `Mapping::flush`. -/
def flushLoop (offset size : Nat) (unmap : Bool) : Core :=
  (mapping.flushSegments offset size).foldl
    (fun current segmentId =>
      current.flushSegment mapping driver unmap segmentId) core

/-- Effect of `Mapping::flush`. -/
def flush (offset size : Nat) (flags : FlushFlags) : Core :=
  if driver.directMSync then core
  else
    let flushed := core.flushLoop mapping driver offset size flags.unmap
    if flags.sync then flushed.record (.sync offset size) else flushed

/-- Effect of `Mapping::evict`. -/
def evict (segmentId : Nat) : Core :=
  if driver.directMSync then core
  else core.flushSegment mapping driver true segmentId

/-- Effect of the loop body of `Mapping::dropClean`. -/
def dropSegment (segmentId : Nat) : Core :=
  if (core.status segmentId).mapped && !(core.status segmentId).dirty then
    core.unmapSegment mapping segmentId
  else core

/-- Effect of `Mapping::dropClean`. -/
def dropClean : Core :=
  (List.range mapping.segments).foldl
    (fun current segmentId => current.dropSegment mapping segmentId) core

/-- Effect of the loop body of `Mapping::markCleanAsDirty`. -/
def markSegment (segmentId : Nat) : Core :=
  if (core.status segmentId).mapped && !(core.status segmentId).dirty &&
      mapping.protection.write then
    (core.mprotect segmentId mapping.readWrite).setDirty segmentId true
  else core

/-- Effect of `Mapping::markCleanAsDirty`. -/
def markCleanAsDirty : Core :=
  (List.range mapping.segments).foldl
    (fun current segmentId => current.markSegment mapping segmentId) core

end Core

/-- Result and effect of a byte load. -/
def Core.loadByte (mapping : Mapping) (driver : Driver)
    (thread offset : Nat) : Nat → Core → Option Byte × Core
  | 0, core => (none, core)
  | attempts + 1, core =>
      if (core.pages (offset / mapping.segmentSize)).read then
        (some (core.memory offset),
          core.record (.load thread offset (core.memory offset)))
      else
        Core.loadByte mapping driver thread offset attempts
          (core.fault mapping driver (offset / mapping.segmentSize) false)

/-- Result and effect of a byte store. -/
def Core.storeByte (mapping : Mapping) (driver : Driver) (thread offset : Nat)
    (value : Byte) : Nat → Core → Bool × Core
  | 0, core => (false, core)
  | attempts + 1, core =>
      if (core.pages (offset / mapping.segmentSize)).write then
        (true, core.store thread offset value)
      else
        Core.storeByte mapping driver thread offset value attempts
          (core.fault mapping driver (offset / mapping.segmentSize) true)

/-- Result and effect of a call. -/
def Core.call (mapping : Mapping) (driver : Driver) (attempts thread : Nat)
    (core : Core) : Call → Option Byte × Core
  | .load offset => core.loadByte mapping driver thread offset attempts
  | .store offset value =>
      (none, (core.storeByte mapping driver thread offset value attempts).2)
  | .fault address isWrite =>
      (none, core.fault mapping driver
        ((address - mapping.baseAddress) / mapping.segmentSize) isWrite)
  | .flush offset size flags => (none, core.flush mapping driver offset size flags)
  | .evict segmentId => (none, core.evict mapping driver segmentId)
  | .dropClean => (none, core.dropClean mapping)
  | .markCleanAsDirty => (none, core.markCleanAsDirty mapping)

/-- The checks that a call makes on its arguments before it does anything. -/
def Call.Accepted (mapping : Mapping) : Call → Prop
  | .load offset =>
      offset < mapping.getAlignedSize ∧ mapping.protection ≠ Protection.none
  | .store offset _ =>
      offset < mapping.getAlignedSize ∧ mapping.protection.write = true
  | .fault address isWrite =>
      mapping.baseAddress ≤ address ∧
        address < mapping.baseAddress + mapping.getAlignedSize ∧
        mapping.protection ≠ Protection.none ∧
        (isWrite = true → mapping.protection.write = true)
  | .flush offset size _ =>
      offset < mapping.size ∧ wordAdd offset size ≤ mapping.getAlignedSize ∧
        offset % mapping.segmentSize = 0 ∧ size % mapping.segmentSize = 0
  | .evict segmentId => segmentId < mapping.segments
  | .dropClean => True
  | .markCleanAsDirty => True

instance Call.decidableAccepted (mapping : Mapping) :
    (call : Call) → Decidable (call.Accepted mapping)
  | .load _ => inferInstanceAs (Decidable (_ ∧ _))
  | .store _ _ => inferInstanceAs (Decidable (_ ∧ _))
  | .fault _ _ => inferInstanceAs (Decidable (_ ∧ _ ∧ _ ∧ _))
  | .flush _ _ _ => inferInstanceAs (Decidable (_ ∧ _ ∧ _ ∧ _))
  | .evict _ => inferInstanceAs (Decidable (_ < _))
  | .dropClean => inferInstanceAs (Decidable True)
  | .markCleanAsDirty => inferInstanceAs (Decidable True)

variable {mapping : Mapping} {offset : Nat} {size : Nat} {flags : FlushFlags}

/-- An accepted flush range that does not wrap around lies in the mapping. -/
theorem Call.Accepted.fits
    (accepted : (Call.flush offset size flags).Accepted mapping)
    (unwrapped : offset + size < wordModulus) :
    offset + size ≤ mapping.getAlignedSize := by
  rw [← wordAdd_of_lt unwrapped]
  exact accepted.2.1

/-- The segments that an accepted flush visits exist. -/
theorem Call.Accepted.lt_segments {segmentId : Nat}
    (accepted : (Call.flush offset size flags).Accepted mapping)
    (member : segmentId ∈ mapping.flushSegments offset size) :
    segmentId < mapping.segments := by
  obtain ⟨first, rfl⟩ := Nat.dvd_of_mod_eq_zero accepted.2.2.1
  have last := Nat.div_le_div_right accepted.2.1 (c := mapping.segmentSize)
  unfold Mapping.flushSegments at member
  unfold Mapping.getAlignedSize at last
  rw [Nat.mul_div_cancel_left _ mapping.segmentSize_pos, Nat.sub_mul_div,
    List.mem_range'_1] at member
  rw [Nat.mul_div_cancel_left _ mapping.segmentSize_pos] at last
  omega

/-- The fault of an accepted load is accepted. -/
theorem Call.Accepted.load_fault
    (accepted : (Call.load offset).Accepted mapping) :
    (Call.fault (mapping.baseAddress + offset) false).Accepted mapping :=
  ⟨Nat.le_add_right _ _, Nat.add_lt_add_left accepted.1 _, accepted.2,
    fun absurdity => nomatch absurdity⟩

/-- The fault of an accepted store is accepted. -/
theorem Call.Accepted.store_fault {value : Byte}
    (accepted : (Call.store offset value).Accepted mapping) :
    (Call.fault (mapping.baseAddress + offset) true).Accepted mapping := by
  refine ⟨Nat.le_add_right _ _, Nat.add_lt_add_left accepted.1 _, ?_,
    fun _ => accepted.2⟩
  intro closed
  have writable := accepted.2
  rw [closed] at writable
  cases writable

section Checks

variable {E : Signature} {S : Type} {handle : Handler E S} {rest : Program E Unit}
variable {state after : S} {address : Nat} {isWrite : Bool}

/-- The segment of an accepted fault exists. -/
theorem Call.Accepted.fault_lt_segments
    (accepted : (Call.fault address isWrite).Accepted mapping) :
    (address - mapping.baseAddress) / mapping.segmentSize < mapping.segments := by
  rw [← mapping.lt_getAlignedSize_iff]
  have lower := accepted.1
  have upper := accepted.2.1
  omega

theorem Call.accepted_fault
    (inside : decide (mapping.baseAddress ≤ address ∧ address <
      mapping.baseAddress + mapping.segments * mapping.segmentSize) = true)
    (notNone : decide (mapping.protection ≠ Protection.none) = true)
    (allowed : (!isWrite || mapping.protection.write) = true) :
    (Call.fault address isWrite).Accepted mapping := by
  rw [decide_eq_true_eq, Nat.mul_comm] at inside
  refine ⟨inside.1, inside.2, of_decide_eq_true notNone, ?_⟩
  intro isWriteAccess
  rw [isWriteAccess] at allowed
  exact allowed

/-- A fault that gets past its checks is accepted. -/
theorem Call.accepted_of_checkFault {rest : Nat → Program E Unit}
    (returns : (mapping.checkFault address isWrite rest).run handle state =
      .finished () after) :
    (Call.fault address isWrite).Accepted mapping := by
  obtain ⟨inside, returns⟩ := Program.run_assume_eq_finished returns
  obtain ⟨notNone, returns⟩ := Program.run_assume_eq_finished returns
  obtain ⟨allowed, _⟩ := Program.run_assume_eq_finished returns
  exact Call.accepted_fault inside notNone allowed

theorem Program.Meets.checkFault {rest : Nat → Program E Unit} {contract : Contract E S}
    {post : Unit → S → Prop} (stops : ∀ message, contract.stops message)
    (passed : (Call.fault address isWrite).Accepted mapping →
      (rest ((address - mapping.baseAddress) / mapping.segmentSize)).Meets handle
        contract post state) :
    (mapping.checkFault address isWrite rest).Meets handle contract post state := by
  refine .assume (stops _) fun inside => .assume (stops _) fun notNone => ?_
  exact .assume (stops _) fun allowed =>
    passed (Call.accepted_fault inside notNone allowed)

theorem Mapping.checkFlush_of_accepted
    (accepted : (Call.flush offset size flags).Accepted mapping) :
    mapping.checkFlush offset size rest = rest := by
  obtain ⟨inside, ends, offsetAligned, sizeAligned⟩ := accepted
  unfold Mapping.checkFlush
  rw [decide_eq_true inside, decide_eq_true ends, decide_eq_true offsetAligned,
    decide_eq_true sizeAligned]
  rfl

theorem Mapping.checkFault_of_accepted
    (accepted : (Call.fault address isWrite).Accepted mapping)
    (rest : Nat → Program E Unit) :
    mapping.checkFault address isWrite rest =
      rest ((address - mapping.baseAddress) / mapping.segmentSize) := by
  obtain ⟨lower, upper, readable, writable⟩ := accepted
  have inside : decide (mapping.baseAddress ≤ address ∧
      address < mapping.baseAddress + mapping.segments * mapping.segmentSize) = true := by
    rw [Nat.mul_comm]
    exact decide_eq_true ⟨lower, upper⟩
  have write : (!isWrite || mapping.protection.write) = true := by
    cases isWrite with
    | false => rfl
    | true => exact writable rfl
  unfold Mapping.checkFault
  rw [inside, decide_eq_true readable, write]
  rfl

/-- A run that gets past the checks of a flush has an accepted range. -/
theorem Call.accepted_of_checkFlush
    (returns : (mapping.checkFlush offset size rest).run handle state =
      .finished () after) :
    (Call.flush offset size flags).Accepted mapping := by
  obtain ⟨inside, returns⟩ := Program.run_assume_eq_finished returns
  obtain ⟨fits, returns⟩ := Program.run_assume_eq_finished returns
  obtain ⟨alignedOffset, returns⟩ := Program.run_assume_eq_finished returns
  obtain ⟨alignedSize, _⟩ := Program.run_assume_eq_finished returns
  exact ⟨of_decide_eq_true inside, of_decide_eq_true fits,
    of_decide_eq_true alignedOffset, of_decide_eq_true alignedSize⟩

theorem Program.Ends.checkFlush {mayAbort : Prop}
    (accepted : (Call.flush offset size flags).Accepted mapping ∨ mayAbort)
    (ends : rest.Ends handle mayAbort state () after) :
    (mapping.checkFlush offset size rest).Ends handle mayAbort state () after := by
  refine Program.Ends.assume ?_ fun _ => ?_
  · exact accepted.imp_left fun checks => decide_eq_true checks.1
  refine Program.Ends.assume ?_ fun _ => ?_
  · exact accepted.imp_left fun checks => decide_eq_true checks.2.1
  refine Program.Ends.assume ?_ fun _ => ?_
  · exact accepted.imp_left fun checks => decide_eq_true checks.2.2.1
  refine Program.Ends.assume ?_ fun _ => ?_
  · exact accepted.imp_left fun checks => decide_eq_true checks.2.2.2
  exact ends

end Checks

/-! ## The programs compute their effects -/

/-- The machine with these contents and no mutex held. -/
def Machine.idle (core : Core) : Machine where
  core := core
  mutex := fun _ => none

section Ends

variable {mapping : Mapping} {driver : Driver} {thread : Nat} {core : Core}
variable {mutex : Nat → Option Nat} {mayAbort : Prop}

theorem ends_loadAndSwapSegment (errors : driver.NoError ∨ mayAbort) (segmentId : Nat)
    (writeAccess : Bool) :
    (mapping.loadAndSwapSegment segmentId writeAccess).Ends
      (mapping.handle driver thread) mayAbort ⟨core, mutex⟩ ()
      ⟨core.loadAndSwapSegment mapping driver segmentId writeAccess, mutex⟩ := by
  have checked (call size offset : Nat) :
      decide (0 ≤ driver.preadResult call size offset) = true ∨ mayAbort :=
    errors.imp_left fun noError => decide_eq_true (noError call size offset).1
  unfold Mapping.loadAndSwapSegment Core.loadAndSwapSegment
  cases threadSafe : mapping.threadSafe with
  | true =>
      refine Program.Ends.bind (.request rfl) ?_
      refine Program.Ends.assume (checked _ _ _) fun _ => ?_
      exact .request rfl
  | false =>
      refine Program.Ends.bind (.request rfl) ?_
      refine Program.Ends.bind (.request rfl) ?_
      refine Program.Ends.assume (checked _ _ _) fun _ => ?_
      cases writeAccess with
      | true => exact .done () _
      | false => exact .request rfl

variable {segmentId : Nat}

/-- A driver error can only stop the opening of a segment that is not mapped. -/
theorem ends_openSegment
    (errors : (core.status segmentId).mapped = true ∨ driver.NoError ∨ mayAbort)
    (isWrite : Bool) :
    (mapping.openSegment segmentId isWrite (core.status segmentId)).Ends
      (mapping.handle driver thread) mayAbort ⟨core, mutex⟩ ()
      ⟨core.openSegment mapping driver segmentId isWrite, mutex⟩ := by
  unfold Mapping.openSegment Core.openSegment
  cases load : !(core.status segmentId).mapped &&
      (core.status segmentId).needRead with
  | true =>
      rw [Bool.and_eq_true, Bool.not_eq_true'] at load
      have serious := errors.resolve_left (by simp [load.1])
      refine Program.Ends.bind (ends_loadAndSwapSegment serious segmentId isWrite) ?_
      cases isWrite with
      | true => exact .request rfl
      | false => exact .done () _
  | false =>
      cases isWrite with
      | true => exact Program.Ends.bind (.request rfl) (.request rfl)
      | false => exact .request rfl

theorem ends_fault
    (errors : (core.status segmentId).mapped = true ∨ driver.NoError ∨ mayAbort)
    (isWrite : Bool) :
    (Program.when (!Mapping.alreadyDone isWrite (core.status segmentId)) do
        mapping.openSegment segmentId isWrite (core.status segmentId)
        Sys.setMapped segmentId true).Ends
      (mapping.handle driver thread) mayAbort ⟨core, mutex⟩ ()
      ⟨core.fault mapping driver segmentId isWrite, mutex⟩ := by
  unfold Core.fault
  cases Mapping.alreadyDone isWrite (core.status segmentId) with
  | true => exact .done () _
  | false =>
      exact Program.Ends.bind (ends_openSegment errors isWrite) (.request rfl)

theorem ends_writeBack (errors : driver.NoError ∨ mayAbort) (segmentId : Nat) :
    (mapping.writeBack segmentId).Ends
      (mapping.handle driver thread) mayAbort ⟨core, mutex⟩ ()
      ⟨core.writeBack mapping driver segmentId, mutex⟩ := by
  have checked (call size offset : Nat) :
      (decide (driver.pwriteResult call size offset ≠ -1) = true ∨ mayAbort) ∧
        (decide (0 ≤ driver.pwriteResult call size offset) = true ∨
          mayAbort) := by
    obtain noError | allowed := errors
    · have positive := (noError call size offset).2
      exact ⟨Or.inl (decide_eq_true (by omega)), Or.inl (decide_eq_true positive)⟩
    · exact ⟨Or.inr allowed, Or.inr allowed⟩
  have guarded : (Program.when mapping.threadSafe
      (Sys.mprotect segmentId mapping.readOnly)).Ends
      (mapping.handle driver thread) mayAbort ⟨core, mutex⟩ ()
      ⟨if mapping.threadSafe then core.mprotect segmentId mapping.readOnly
        else core, mutex⟩ := by
    cases mapping.threadSafe with
    | true => exact .request rfl
    | false => exact .done () _
  unfold Mapping.writeBack Core.writeBack
  refine Program.Ends.bind (.request rfl) ?_
  cases (core.status segmentId).dirty && (core.status segmentId).mapped with
  | false => exact .done () _
  | true =>
      refine Program.Ends.bind guarded ?_
      refine Program.Ends.bind (.request rfl) ?_
      refine Program.Ends.assume (checked _ _ _).1 fun _ => ?_
      refine Program.Ends.assume (checked _ _ _).2 fun _ => ?_
      exact Program.Ends.bind (.request rfl) (.request rfl)

theorem ends_unmapSegment (segmentId : Nat) :
    (mapping.unmapSegment segmentId).Ends
      (mapping.handle driver thread) mayAbort ⟨core, mutex⟩ ()
      ⟨core.unmapSegment mapping segmentId, mutex⟩ :=
  Program.Ends.bind (.request rfl) (Program.Ends.bind (.request rfl) (.request rfl))

theorem ends_release (segmentId : Nat) (unmap : Bool) :
    (mapping.release segmentId unmap).Ends
      (mapping.handle driver thread) mayAbort ⟨core, mutex⟩ ()
      ⟨core.release mapping segmentId unmap, mutex⟩ := by
  unfold Mapping.release Core.release
  refine Program.Ends.bind (.request rfl) ?_
  cases (core.status segmentId).mapped with
  | false => exact .done () _
  | true =>
      cases unmap with
      | true => exact ends_unmapSegment segmentId
      | false =>
          cases mapping.threadSafe with
          | true => exact .done () _
          | false => exact .request rfl

theorem ends_flushSegment (errors : driver.NoError ∨ mayAbort) (unmap : Bool)
    (segmentId : Nat) :
    (mapping.flushSegment unmap segmentId).Ends
      (mapping.handle driver thread) mayAbort ⟨core, mutex⟩ ()
      ⟨core.flushSegment mapping driver unmap segmentId, mutex⟩ :=
  Program.Ends.bind (ends_writeBack errors segmentId) (ends_release segmentId unmap)

theorem ends_dropSegment (segmentId : Nat) :
    (mapping.dropSegment segmentId).Ends
      (mapping.handle driver thread) mayAbort ⟨core, mutex⟩ ()
      ⟨core.dropSegment mapping segmentId, mutex⟩ := by
  unfold Mapping.dropSegment Core.dropSegment
  refine Program.Ends.bind (.request rfl) ?_
  cases (core.status segmentId).mapped && !(core.status segmentId).dirty with
  | false => exact .done () _
  | true => exact ends_unmapSegment segmentId

theorem ends_markSegment (segmentId : Nat) :
    (mapping.markSegment segmentId).Ends
      (mapping.handle driver thread) mayAbort ⟨core, mutex⟩ ()
      ⟨core.markSegment mapping segmentId, mutex⟩ := by
  unfold Mapping.markSegment Core.markSegment
  refine Program.Ends.bind (.request rfl) ?_
  cases (core.status segmentId).mapped && !(core.status segmentId).dirty &&
      mapping.protection.write with
  | false => exact .done () _
  | true => exact Program.Ends.bind (.request rfl) (.request rfl)

variable {body : Nat → MappingProgram Unit} {effect : Core → Nat → Core}

/-- A loop over segments folds the effect of its body. -/
theorem ends_eachSegment
    (bodyEnds : ∀ current segmentId,
      (body segmentId).Ends (mapping.handle driver thread) mayAbort
        ⟨current, mutex⟩ () ⟨effect current segmentId, mutex⟩)
    (segmentIds : List Nat) :
    (Program.each body segmentIds).Ends
      (mapping.handle driver thread) mayAbort ⟨core, mutex⟩ ()
      ⟨segmentIds.foldl effect core, mutex⟩ := by
  induction segmentIds generalizing core with
  | nil => exact .done () _
  | cons first rest inductionHypothesis =>
      exact Program.Ends.bind (bodyEnds core first) inductionHypothesis

/-! ## Mutexes -/

variable {mutexIds : List Nat}

theorem ends_lockEach (distinct : mutexIds.Nodup)
    (free : ∀ mutexId ∈ mutexIds, mutex mutexId = none) :
    (Program.each Sys.lock mutexIds).Ends
      (mapping.handle driver thread) mayAbort ⟨core, mutex⟩ ()
      ⟨core, fun mutexId =>
        if mutexId ∈ mutexIds then some thread else mutex mutexId⟩ := by
  induction mutexIds generalizing mutex with
  | nil => exact .done () _
  | cons first rest inductionHypothesis =>
      rw [List.nodup_cons] at distinct
      have isFree := free first List.mem_cons_self
      have answer : mapping.handle driver thread (.lock first) ⟨core, mutex⟩ =
          some ((), ⟨core, Function.update mutex first (some thread)⟩) := by
        simp only [Mapping.handle, isFree]
        rfl
      refine Program.Ends.bind (.request answer) ?_
      have restFree : ∀ mutexId ∈ rest,
          Function.update mutex first (some thread) mutexId = none := by
        intro mutexId member
        have different : mutexId ≠ first := by
          intro same
          subst same
          exact distinct.1 member
        rw [Function.update_of_ne different]
        exact free mutexId (List.mem_cons_of_mem first member)
      have taken : (fun mutexId => if mutexId ∈ first :: rest then some thread
            else mutex mutexId) =
          fun mutexId => if mutexId ∈ rest then some thread
            else Function.update mutex first (some thread) mutexId := by
        funext mutexId
        by_cases same : mutexId = first
        · subst same
          simp
        · simp [same]
      rw [taken]
      exact inductionHypothesis distinct.2 restFree

theorem ends_unlockEach (mutexIds : List Nat) :
    (Program.each Sys.unlock mutexIds).Ends
      (mapping.handle driver thread) mayAbort ⟨core, mutex⟩ ()
      ⟨core, fun mutexId =>
        if mutexId ∈ mutexIds then none else mutex mutexId⟩ := by
  induction mutexIds generalizing mutex with
  | nil => exact .done () _
  | cons first rest inductionHypothesis =>
      refine Program.Ends.bind (.request rfl) ?_
      have released : (fun mutexId => if mutexId ∈ first :: rest then none
            else mutex mutexId) =
          fun mutexId => if mutexId ∈ rest then none
            else Function.update mutex first none mutexId := by
        funext mutexId
        by_cases same : mutexId = first
        · subst same
          simp
        · simp [same]
      rw [released]
      exact inductionHypothesis

/-- Releasing mutexes that were free before they were taken. -/
theorem ends_unlockAll
    (free : ∀ mutexId ∈ mutexIds, mutex mutexId = none) :
    (Program.each Sys.unlock mutexIds).Ends (mapping.handle driver thread) mayAbort
      ⟨core, fun mutexId =>
        if mutexId ∈ mutexIds then some thread else mutex mutexId⟩
      () ⟨core, mutex⟩ := by
  have restored : mutex = fun mutexId => if mutexId ∈ mutexIds then none
      else if mutexId ∈ mutexIds then some thread else mutex mutexId := by
    funext mutexId
    split
    · exact free mutexId ‹_›
    · rfl
  conv => rhs; rw [restored]
  exact ends_unlockEach mutexIds

/-! ## Calls -/

section

variable (errors : (core.status segmentId).mapped = true ∨ driver.NoError ∨ mayAbort)
include errors

/-- A fault takes the mutex of its segment and releases it. -/
theorem ends_faultSection_of_free
    (free : mutex (mapping.mutexId segmentId) = none)
    (isWrite : Bool) :
    (mapping.faultSection segmentId isWrite).Ends
      (mapping.handle driver thread) mayAbort ⟨core, mutex⟩ ()
      ⟨core.fault mapping driver segmentId isWrite, mutex⟩ := by
  have answer : mapping.handle driver thread (.lock (mapping.mutexId segmentId))
      ⟨core, mutex⟩ = some ((), ⟨core, Function.update mutex
        (mapping.mutexId segmentId) (some thread)⟩) := by
    simp only [Mapping.handle, free]
    rfl
  have restored : Function.update (Function.update mutex
      (mapping.mutexId segmentId) (some thread)) (mapping.mutexId segmentId)
      none = mutex := by
    rw [Function.update_idem, Function.update_eq_self_iff, free]
  unfold Mapping.faultSection
  refine Program.Ends.bind (.request answer) ?_
  refine Program.Ends.bind (.request rfl) ?_
  refine Program.Ends.bind (ends_fault errors isWrite) ?_
  refine .request ?_
  simp only [Mapping.handle, restored]

theorem ends_faultSection (isWrite : Bool) :
    (mapping.faultSection segmentId isWrite).Ends
      (mapping.handle driver thread) mayAbort (.idle core) ()
      (.idle (core.fault mapping driver segmentId isWrite)) :=
  ends_faultSection_of_free errors rfl isWrite

theorem ends_onSegmentationFault {address : Nat} {isWrite : Bool}
    (accepted : (Call.fault address isWrite).Accepted mapping ∨ mayAbort)
    (position :
      (address - mapping.baseAddress) / mapping.segmentSize = segmentId) :
    (mapping.onSegmentationFault address isWrite).Ends
      (mapping.handle driver thread) mayAbort (.idle core) ()
      (.idle (core.fault mapping driver segmentId isWrite)) := by
  unfold Mapping.onSegmentationFault Mapping.checkFault
  rw [position]
  refine Program.Ends.assume ?_ fun _ => ?_
  · refine accepted.imp_left fun checks => decide_eq_true ?_
    rw [Nat.mul_comm]
    exact ⟨checks.1, checks.2.1⟩
  refine Program.Ends.assume ?_ fun _ => ?_
  · exact accepted.imp_left fun checks => decide_eq_true checks.2.2.1
  refine Program.Ends.assume ?_ fun _ => ?_
  · refine accepted.imp_left fun checks => ?_
    cases isWrite with
    | false => rfl
    | true => exact checks.2.2.2 rfl
  exact ends_faultSection errors isWrite

end

variable {offset : Nat} {size : Nat} {flags : FlushFlags}

theorem ends_flush (errors : driver.NoError ∨ mayAbort)
    (accepted : (Call.flush offset size flags).Accepted mapping ∨ mayAbort)
    (free : ∀ mutexId ∈ mapping.flushMutexes offset size flags,
      mutex mutexId = none) :
    (mapping.flush offset size flags).Ends
      (mapping.handle driver thread) mayAbort ⟨core, mutex⟩ ()
      ⟨core.flush mapping driver offset size flags, mutex⟩ := by
  unfold Mapping.flush Mapping.flushSection
  refine Program.Ends.checkFlush accepted (Program.Ends.bind (.request rfl) ?_)
  unfold Core.flush
  cases driver.directMSync with
  | true => exact .done () _
  | false =>
      refine Program.Ends.bind
        (ends_lockEach (mapping.nodup_flushMutexes offset size flags) free) ?_
      refine Program.Ends.bind
        (ends_eachSegment
          (fun _ segmentId => ends_flushSegment errors flags.unmap segmentId)
          (mapping.flushSegments offset size)) ?_
      cases flags.sync with
      | true => exact Program.Ends.bind (.request rfl) (ends_unlockAll free)
      | false => exact ends_unlockAll free

/-- The range of a segment does not wrap around. -/
theorem Mapping.segment_fits (exists_ : segmentId < mapping.segments) :
    segmentId * mapping.segmentSize + mapping.segmentSize ≤
      mapping.getAlignedSize := by
  rw [Mapping.getAlignedSize, ← Nat.succ_mul, Nat.mul_comm]
  exact Nat.mul_le_mul_left mapping.segmentSize exists_

/-- The flush of a single segment passes its checks. -/
theorem Call.accepted_flush_of_evict
    (accepted : (Call.evict segmentId).Accepted mapping)
    (flags : FlushFlags) :
    (Call.flush (segmentId * mapping.segmentSize) mapping.segmentSize
      flags).Accepted mapping := by
  have starts := (mapping.lt_segments_iff segmentId).mp accepted
  refine ⟨?_, Nat.le_trans (Nat.mod_le _ _) (Mapping.segment_fits accepted),
    Nat.mul_mod_left _ _, Nat.mod_self _⟩
  rw [Nat.mul_comm]
  exact starts

theorem Core.flush_evict (exists_ : segmentId < mapping.segments) :
    core.flush mapping driver (segmentId * mapping.segmentSize)
        mapping.segmentSize ⟨false, true, true⟩ =
      core.evict mapping driver segmentId := by
  unfold flush evict flushLoop
  rw [mapping.flushSegments_eq (Nat.lt_of_le_of_lt (Mapping.segment_fits exists_)
      mapping.getAlignedSize_lt_wordModulus),
    Nat.mul_div_cancel segmentId mapping.segmentSize_pos,
    Nat.div_self mapping.segmentSize_pos]
  rfl

theorem ends_flush_evict (errors : driver.NoError ∨ mayAbort)
    (accepted : (Call.evict segmentId).Accepted mapping ∨ mayAbort) :
    (mapping.flush (segmentId * mapping.segmentSize) mapping.segmentSize
        ⟨false, true, true⟩).Ends
      (mapping.handle driver thread) mayAbort ⟨core, mutex⟩ ()
      ⟨core.evict mapping driver segmentId, mutex⟩ := by
  by_cases exists_ : segmentId < mapping.segments
  · rw [← Core.flush_evict exists_]
    exact ends_flush errors (Or.inl (Call.accepted_flush_of_evict exists_ _))
      fun _ absurdity => nomatch absurdity
  · refine Program.Ends.assume (Or.inr (accepted.resolve_left exists_)) ?_
    intro inside
    rw [decide_eq_true_eq, Nat.mul_comm] at inside
    exact absurd ((mapping.lt_segments_iff segmentId).mpr inside) exists_

theorem ends_evict (errors : driver.NoError ∨ mayAbort)
    (accepted : (Call.evict segmentId).Accepted mapping ∨ mayAbort) :
    (mapping.evict segmentId).Ends
      (mapping.handle driver thread) mayAbort (.idle core) ()
      (.idle (core.evict mapping driver segmentId)) := by
  unfold Mapping.evict
  refine Program.Ends.bind (.request rfl) ?_
  refine Program.Ends.bind (ends_flush_evict errors accepted) ?_
  refine .request ?_
  simp [Mapping.handle, Machine.idle]

theorem ends_withAllLocked
    (bodyEnds : ∀ mutex current segmentId,
      (body segmentId).Ends (mapping.handle driver thread) mayAbort
        ⟨current, mutex⟩ () ⟨effect current segmentId, mutex⟩) :
    (mapping.withAllLocked body).Ends
      (mapping.handle driver thread) mayAbort (.idle core) ()
      (.idle ((List.range mapping.segments).foldl effect core)) := by
  unfold Mapping.withAllLocked
  refine Program.Ends.bind (ends_lockEach List.nodup_range fun _ _ => rfl) ?_
  refine Program.Ends.bind
    (ends_eachSegment (bodyEnds _) (List.range mapping.segments)) ?_
  exact ends_unlockAll fun _ _ => rfl

theorem ends_loadByte (errors : driver.NoError ∨ mayAbort)
    (accepted : (Call.load offset).Accepted mapping ∨ mayAbort)
    (attempts : Nat) :
    (mapping.loadByte offset attempts).Ends
      (mapping.handle driver thread) mayAbort (.idle core)
      (core.loadByte mapping driver thread offset attempts).1
      (.idle (core.loadByte mapping driver thread offset attempts).2) := by
  induction attempts generalizing core with
  | zero => exact .done _ _
  | succ attempts inductionHypothesis =>
      unfold Mapping.loadByte Core.loadByte
      cases opened : (core.pages (offset / mapping.segmentSize)).read with
      | true =>
          have answers : (Sys.load offset).Ends (mapping.handle driver thread)
              mayAbort (.idle core) (some (core.memory offset))
              (.idle (core.record (.load thread offset (core.memory offset)))) := by
            refine .request ?_
            simp [Mapping.handle, Machine.idle, opened]
          exact answers.bind (.done _ _)
      | false =>
          have faults : (Sys.load offset).Ends (mapping.handle driver thread)
              mayAbort (.idle core) none (.idle core) := by
            refine .request ?_
            simp [Mapping.handle, Machine.idle, opened]
          refine faults.bind (.bind (ends_onSegmentationFault (Or.inr errors)
            (accepted.imp_left Call.Accepted.load_fault) ?_)
            inductionHypothesis)
          rw [Nat.add_sub_cancel_left]

theorem ends_storeByte (errors : driver.NoError ∨ mayAbort) {value : Byte}
    (accepted : (Call.store offset value).Accepted mapping ∨ mayAbort)
    (attempts : Nat) :
    (mapping.storeByte offset value attempts).Ends
      (mapping.handle driver thread) mayAbort (.idle core)
      (core.storeByte mapping driver thread offset value attempts).1
      (.idle (core.storeByte mapping driver thread offset value attempts).2) := by
  induction attempts generalizing core with
  | zero => exact .done _ _
  | succ attempts inductionHypothesis =>
      unfold Mapping.storeByte Core.storeByte
      cases opened : (core.pages (offset / mapping.segmentSize)).write with
      | true =>
          have answers : (Sys.store offset value).Ends
              (mapping.handle driver thread) mayAbort (.idle core) true
              (.idle (core.store thread offset value)) := by
            refine .request ?_
            simp [Mapping.handle, Machine.idle, opened]
          exact answers.bind (.done _ _)
      | false =>
          have faults : (Sys.store offset value).Ends
              (mapping.handle driver thread) mayAbort (.idle core) false
              (.idle core) := by
            refine .request ?_
            simp [Mapping.handle, Machine.idle, opened]
          refine faults.bind (.bind (ends_onSegmentationFault (Or.inr errors)
            (accepted.imp_left Call.Accepted.store_fault) ?_)
            inductionHypothesis)
          rw [Nat.add_sub_cancel_left]

variable {call : Call}

/-- Every call computes its effect, unless it aborts. -/
theorem ends_call (errors : driver.NoError ∨ mayAbort)
    (accepted : call.Accepted mapping ∨ mayAbort)
    (attempts : Nat) :
    (mapping.call attempts call).Ends
      (mapping.handle driver thread) mayAbort (.idle core)
      (core.call mapping driver attempts thread call).1
      (.idle (core.call mapping driver attempts thread call).2) := by
  cases call with
  | load offset => exact ends_loadByte errors accepted attempts
  | store offset value =>
      exact Program.Ends.bind (ends_storeByte errors accepted attempts) (.done _ _)
  | fault address isWrite =>
      exact Program.Ends.bind (ends_onSegmentationFault (Or.inr errors) accepted rfl)
        (.done _ _)
  | flush offset size flags =>
      exact Program.Ends.bind (ends_flush errors accepted fun _ _ => rfl)
        (.done _ _)
  | evict segmentId =>
      exact Program.Ends.bind (ends_evict errors accepted) (.done _ _)
  | dropClean =>
      exact Program.Ends.bind
        (ends_withAllLocked fun _ _ segmentId => ends_dropSegment segmentId)
        (.done _ _)
  | markCleanAsDirty =>
      exact Program.Ends.bind
        (ends_withAllLocked fun _ _ segmentId => ends_markSegment segmentId)
        (.done _ _)

/-- Without driver errors, an accepted call finishes. -/
theorem call_finishes (noError : driver.NoError) (accepted : call.Accepted mapping)
    (attempts thread : Nat) (core : Core) :
    (mapping.call attempts call).run (mapping.handle driver thread) (.idle core) =
      .finished (core.call mapping driver attempts thread call).1
        (.idle (core.call mapping driver attempts thread call).2) :=
  (ends_call (Or.inl noError) (Or.inl accepted) attempts).finishes id

variable {state : Machine}

/-- A flush that returns passed all checks. -/
theorem accepted_of_flush_finished {thread : Nat} {after : Machine}
    (returns : (mapping.flush offset size flags).run (mapping.handle driver thread)
      state = .finished () after) :
    (Call.flush offset size flags).Accepted mapping :=
  Call.accepted_of_checkFlush returns

/-- A fault that is handled to its end passed all checks. -/
theorem accepted_of_fault_finished {attempts address : Nat} {isWrite : Bool}
    {value : Option Byte} {final : Machine}
    (finished : (mapping.call attempts (.fault address isWrite)).run
      (mapping.handle driver thread) state = .finished value final) :
    (Call.fault address isWrite).Accepted mapping := by
  rw [Mapping.call, Program.run_bind] at finished
  obtain ⟨_, _, handled, _⟩ := Outcome.andThen_eq_finished.mp finished
  exact Call.accepted_of_checkFault handled

end Ends

/-! ## Sequences of calls -/

/-- Run calls of threads one after the other and collect their results. -/
def Mapping.runCalls (mapping : Mapping) (driver : Driver) (attempts : Nat) :
    List (Nat × Call) → Machine → Outcome Machine (List (Option Byte))
  | [], state => .finished [] state
  | (thread, call) :: rest, state =>
      ((mapping.call attempts call).run (mapping.handle driver thread)
        state).andThen fun value state' =>
          (mapping.runCalls driver attempts rest state').andThen
            fun values final => .finished (value :: values) final

/-- A load by a thread returns this byte. -/
def Machine.Returns (machine : Machine) (mapping : Mapping) (driver : Driver)
    (attempts thread offset : Nat)
    (value : Byte) : Prop :=
  ∃ after, mapping.runCalls driver attempts [(thread, .load offset)] machine =
    .finished [some value] after

/-- Results and effect of a sequence of calls. -/
def Core.callAll (mapping : Mapping) (driver : Driver)
    (attempts : Nat) : List (Nat × Call) → Core → List (Option Byte) × Core
  | [], core => ([], core)
  | (thread, call) :: rest, core =>
      let (value, core') := core.call mapping driver attempts thread call
      let (values, final) := Core.callAll mapping driver attempts rest core'
      (value :: values, final)

section Runs

variable {mapping : Mapping} {driver : Driver} {attempts : Nat}

/-- Without driver errors, accepted calls all finish. -/
theorem runCalls_finishes (noError : driver.NoError) (calls : List (Nat × Call))
    (accepted : ∀ pair ∈ calls, pair.2.Accepted mapping)
    (core : Core) :
    mapping.runCalls driver attempts calls (.idle core) =
      .finished (Core.callAll mapping driver attempts calls core).1
        (.idle (Core.callAll mapping driver attempts calls core).2) := by
  induction calls generalizing core with
  | nil => rfl
  | cons pair rest inductionHypothesis =>
      obtain ⟨thread, call⟩ := pair
      have head := call_finishes noError (accepted _ List.mem_cons_self)
        attempts thread core
      have tail := inductionHypothesis
        (fun other member => accepted other (List.mem_cons_of_mem _ member))
      unfold Mapping.runCalls Core.callAll
      rw [head, Outcome.andThen_finished, tail]
      rfl

variable {calls : List (Nat × Call)} {values : List (Option Byte)} {state : Machine}

/-- A sequence of calls that finishes computes its effect. -/
theorem runCalls_determines {core : Core}
    (finished : mapping.runCalls driver attempts calls (.idle core) =
      .finished values state) :
    values = (Core.callAll mapping driver attempts calls core).1 ∧
      state = .idle (Core.callAll mapping driver attempts calls core).2 := by
  induction calls generalizing core values with
  | nil =>
      unfold Mapping.runCalls at finished
      rw [Outcome.finished.injEq] at finished
      exact ⟨finished.1.symm, finished.2.symm⟩
  | cons pair rest inductionHypothesis =>
      obtain ⟨thread, call⟩ := pair
      unfold Mapping.runCalls at finished
      obtain ⟨value, state', head, more⟩ :=
        Outcome.andThen_eq_finished.mp finished
      obtain ⟨values', final, tail, last⟩ :=
        Outcome.andThen_eq_finished.mp more
      obtain ⟨rfl, rfl⟩ := (ends_call (Or.inr trivial) (Or.inr trivial)
        attempts).determines head
      rw [Outcome.finished.injEq] at last
      obtain ⟨rfl, rfl⟩ := last
      obtain ⟨rfl, rfl⟩ := inductionHypothesis tail
      exact ⟨rfl, rfl⟩

/-- A sequence of calls runs its first part, then the rest. -/
theorem runCalls_append (first second : List (Nat × Call)) (state : Machine) :
    mapping.runCalls driver attempts (first ++ second) state =
      (mapping.runCalls driver attempts first state).andThen
        fun values state' =>
          (mapping.runCalls driver attempts second state').andThen
            fun more final => .finished (values ++ more) final := by
  induction first generalizing state with
  | nil => exact (Outcome.andThen_id _).symm
  | cons pair rest inductionHypothesis =>
      simp only [List.cons_append, Mapping.runCalls, inductionHypothesis,
        Outcome.andThen_assoc, Outcome.andThen_finished]

/-- A property of the contents that every call of a run keeps holds at its end. -/
theorem runCalls_invariant (property : Core → Prop) {start : Core}
    (holds : property start)
    (kept : ∀ earlier thread call, earlier ++ [(thread, call)] <+: calls →
      ∀ values core,
        mapping.runCalls driver attempts earlier (.idle start) =
          .finished values (.idle core) →
        property core →
      ∀ value,
        (mapping.call attempts call).run (mapping.handle driver thread) (.idle core) =
          .finished value (.idle (core.call mapping driver attempts thread call).2) →
          property (core.call mapping driver attempts thread call).2)
    (finished : mapping.runCalls driver attempts calls (.idle start) =
      .finished values state) :
    ∃ core, state = .idle core ∧ property core := by
  induction calls using List.reverseRecOn generalizing values state with
  | nil =>
      unfold Mapping.runCalls at finished
      rw [Outcome.finished.injEq] at finished
      exact ⟨start, finished.2.symm, holds⟩
  | append_singleton earlier pair inductionHypothesis =>
      obtain ⟨thread, call⟩ := pair
      rw [runCalls_append] at finished
      obtain ⟨first, middle, ran, rest⟩ :=
        Outcome.andThen_eq_finished.mp finished
      obtain ⟨more, final, last, same⟩ := Outcome.andThen_eq_finished.mp rest
      obtain ⟨core, rfl, current⟩ := inductionHypothesis
        (fun before other otherCall initialPart => kept before other otherCall
          (initialPart.trans (List.prefix_append earlier _))) ran
      rw [Outcome.finished.injEq] at same
      obtain ⟨value, final', head, _⟩ := Outcome.andThen_eq_finished.mp last
      obtain ⟨_, rfl⟩ := (ends_call (Or.inr trivial) (Or.inr trivial)
        attempts).determines head
      obtain ⟨_, rfl⟩ := runCalls_determines last
      exact ⟨_, same.2.symm, kept earlier thread call List.prefix_rfl first core
        ran current value head⟩

end Runs

end UmmapIo
