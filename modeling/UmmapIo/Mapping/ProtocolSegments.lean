import UmmapIo.Mapping.ProtocolSteps

/-!
# The work on one segment under the protocol

The parts of the operations that work on one segment of a thread-safe mapping
while its mutex is held.  Each of them finds the segment settled and leaves it
settled, whatever the other threads do between two of its steps.
-/

namespace UmmapIo

section Safety

variable
  {mapping : Mapping}
  {initial : Nat → Byte}
  {driver : Driver}
  {thread segmentId : Nat}
  {held : Nat → Prop}
  {status : SegmentStatus}
  {protection : Protection}
  {memoryOk storageOk : Bool}
  {state : Machine}

/-! ## Leaving a segment settled -/

/-- The work on a mapped segment may stop when its pages can be read and, if it
is clean, its storage is known. -/
theorem Working.locked_of_mapped
    (working : Working mapping initial thread held segmentId status protection
      true storageOk state)
    (needRead : status.needRead = true)
    (mapped : status.mapped = true)
    (readable : protection.read = true)
    (clean : status.dirty = false →
      protection.write = false ∧ storageOk = true) :
    Locked mapping initial thread held state := by
  apply working.locked
  constructor
  · rw [working.status_eq]
    exact needRead
  · rw [working.status_eq, mapped]
    intro absurdity
    cases absurdity
  · intro _
    rw [working.pages_eq]
    exact ⟨readable, working.memory rfl⟩
  · rw [working.status_eq, working.pages_eq]
    intro _ notDirty
    obtain ⟨noWrite, known⟩ := clean notDirty
    exact ⟨noWrite, working.storage known⟩

/-- The work on a clean unmapped segment may stop when its pages are closed and
its storage is known. -/
theorem Working.locked_of_unmapped
    (working : Working mapping initial thread held segmentId status protection
      memoryOk true state)
    (needRead : status.needRead = true)
    (unmapped : status.mapped = false)
    (closed : protection.read = false ∧ protection.write = false)
    (notDirty : status.dirty = false) :
    Locked mapping initial thread held state := by
  apply working.locked
  constructor
  · rw [working.status_eq]
    exact needRead
  · rw [working.status_eq, working.pages_eq]
    intro _
    exact ⟨closed.1, closed.2, notDirty, working.storage rfl⟩
  · rw [working.status_eq, unmapped]
    intro absurdity
    cases absurdity
  · rw [working.status_eq, unmapped]
    intro absurdity
    cases absurdity

/-- What is known of the storage may be given up. -/
theorem Working.forgetStorage
    (working : Working mapping initial thread held segmentId status protection
      memoryOk storageOk state) :
    Working mapping initial thread held segmentId status protection
      memoryOk false state :=
  { working with storage := fun absurdity => by cases absurdity }

/-! ## Faults -/

theorem Working.safe_loadAndSwapSegment (full : driver.Full)
    (threadSafe : mapping.threadSafe = true)
    (working : Working mapping initial thread held segmentId status protection
      memoryOk true state)
    (readOnly : protection.write = false)
    (writeAccess : Bool) :
    (mapping.loadAndSwapSegment segmentId writeAccess).Safe
      (protocol mapping initial) (mapping.handle driver) thread
      (fun _ => Working mapping initial thread held segmentId status
        (if writeAccess then mapping.readWrite else mapping.readOnly)
        true (!writeAccess))
      state := by
  simp only [Mapping.loadAndSwapSegment, threadSafe, if_true]
  refine Program.Safe.andThen (working.safe_preadBuffer (fun _ => readOnly) full _) ?_
  rintro ⟨result, buffer⟩ current ⟨loaded, matching⟩
  refine Program.Safe.assume fun _ => ?_
  refine (loaded.safe_mremapForced readOnly matching _).mono ?_
  intro _ _ swapped
  cases writeAccess <;> exact swapped

theorem Mapping.read_of_access (isWrite : Bool) :
    (if isWrite then mapping.readWrite else mapping.readOnly).read = true := by
  cases isWrite <;> rfl

/-- Opening a segment makes its memory known and its pages fit the access. -/
theorem Working.safe_openSegment (full : driver.Full)
    (threadSafe : mapping.threadSafe = true) (observed : Observed status protection)
    (working : Working mapping initial thread held segmentId status protection
      status.mapped (!status.dirty) state)
    (isWrite : Bool) :
    (mapping.openSegment segmentId isWrite status).Safe
      (protocol mapping initial) (mapping.handle driver) thread
      (fun _ => Working mapping initial thread held segmentId
        { status with dirty := isWrite || status.dirty }
        (if isWrite then mapping.readWrite else mapping.readOnly)
        true (!(isWrite || status.dirty)))
      state := by
  obtain ⟨mapped, dirty, needRead⟩ := status
  obtain rfl : needRead = true := observed.needRead
  cases mapped with
  | false =>
      obtain ⟨_, noWrite, notDirty⟩ := observed.unmapped rfl
      obtain rfl : dirty = false := notDirty
      refine Program.Safe.andThen
        (working.safe_loadAndSwapSegment full threadSafe noWrite isWrite) ?_
      intro _ current loaded
      cases isWrite with
      | false => exact loaded
      | true =>
          exact loaded.safe_setDirty (fun absurdity => nomatch absurdity) true
  | true =>
      cases isWrite with
      | false =>
          refine working.safe_mprotect ?_ mapping.readOnly fun _ => rfl
          intro clean
          exact observed.guarded (by simpa using clean)
      | true =>
          refine Program.Safe.andThen
            (working.forgetStorage.safe_mprotect
              (fun absurdity => nomatch absurdity) mapping.readWrite
              fun _ => rfl) ?_
          intro _ current opened
          exact opened.safe_setDirty (fun absurdity => nomatch absurdity) true

/-- Marking an opened segment as mapped settles it. -/
theorem Working.safe_markMapped {isWrite dirty : Bool}
    (needRead : status.needRead = true)
    (working : Working mapping initial thread held segmentId
      { status with dirty := isWrite || dirty }
      (if isWrite then mapping.readWrite else mapping.readOnly)
      true (!(isWrite || dirty)) state) :
    (Sys.setMapped segmentId true).Safe
      (protocol mapping initial) (mapping.handle driver) thread
      (fun _ => Locked mapping initial thread held) state := by
  have guarded : (isWrite || dirty) = false →
      (if isWrite then mapping.readWrite else mapping.readOnly).write = false := by
    intro clean
    rw [Bool.or_eq_false_iff] at clean
    rw [clean.1]
    rfl
  refine (working.safe_setMapped ?_ true).mono ?_
  · intro clean
    exact guarded (by simpa using clean)
  · intro _ _ settled
    refine settled.locked_of_mapped needRead rfl (Mapping.read_of_access isWrite) ?_
    intro clean
    exact ⟨guarded clean, by simpa using clean⟩

section

variable (full : driver.Full) (threadSafe : mapping.threadSafe = true)
variable (locked : Locked mapping initial thread held state)
include full threadSafe locked

theorem Working.safe_fault (observed : Observed status protection)
    (working : Working mapping initial thread held segmentId status protection
      status.mapped (!status.dirty) state)
    (isWrite : Bool) :
    (Program.when (!Mapping.alreadyDone isWrite status) do
        mapping.openSegment segmentId isWrite status
        Sys.setMapped segmentId true).Safe
      (protocol mapping initial) (mapping.handle driver) thread
      (fun _ => Locked mapping initial thread held) state := by
  refine Program.Safe.when ?_ fun _ => locked
  intro _
  refine Program.Safe.andThen
    (working.safe_openSegment full threadSafe observed isWrite) ?_
  intro _ _ opened
  exact opened.safe_markMapped observed.needRead

/-! ## Write-back and release -/

/-- After the first half of a flush, the segment is clean. -/
theorem Locked.safe_writeBack
    (holds : held (mapping.mutexId segmentId)) :
    (mapping.writeBack segmentId).Safe
      (protocol mapping initial) (mapping.handle driver) thread
      (fun _ current => Locked mapping initial thread held current ∧
        (current.core.status segmentId).dirty = false)
      state := by
  unfold Mapping.writeBack
  refine Program.Safe.andThen (locked.safe_getStatus (fun _ => True) holds trivial) ?_
  rintro status current ⟨_, still, protection, observed, working⟩
  refine Program.Safe.when ?_ ?_
  · intro dirtyMapped
    rw [Bool.and_eq_true] at dirtyMapped
    obtain ⟨dirty, mapped⟩ := dirtyMapped
    rw [mapped, dirty] at working
    rw [threadSafe, Program.when_true]
    refine Program.Safe.andThen
      (working.safe_mprotect (fun absurdity => nomatch absurdity)
        mapping.readOnly fun _ => rfl) ?_
    intro _ _ readOnly
    refine Program.Safe.andThen (readOnly.safe_pwrite full rfl) ?_
    intro result _ written
    refine Program.Safe.assume fun _ => ?_
    refine Program.Safe.assume fun _ => ?_
    refine Program.Safe.andThen (written.safe_setDirty (fun _ => rfl) false) ?_
    intro _ _ cleaned
    refine (cleaned.safe_setNeedRead (fun _ => rfl) true).mono ?_
    intro _ _ settled
    refine ⟨settled.locked_of_mapped rfl mapped rfl fun _ => ⟨rfl, rfl⟩, ?_⟩
    rw [settled.status_eq]
  · intro notBoth
    refine ⟨still, ?_⟩
    rw [working.status_eq]
    cases mapped : status.mapped with
    | false => exact (observed.unmapped mapped).2.2
    | true => simpa [mapped] using notBoth

end

theorem Working.safe_unmapSegment (observed : Observed status protection)
    (notDirty : status.dirty = false)
    (working : Working mapping initial thread held segmentId status protection
      memoryOk true state) :
    (mapping.unmapSegment segmentId).Safe
      (protocol mapping initial) (mapping.handle driver) thread
      (fun _ => Locked mapping initial thread held) state := by
  unfold Mapping.unmapSegment
  refine Program.Safe.andThen
    (working.safe_mprotect (fun _ => observed.guarded notDirty)
      mapping.noAccess fun absurdity => nomatch absurdity) ?_
  intro _ _ closed
  refine Program.Safe.andThen (closed.safe_madviseDontNeed (fun _ => rfl) rfl) ?_
  intro _ _ dropped
  refine (dropped.safe_setMapped (fun _ => rfl) false).mono ?_
  intro _ _ settled
  exact settled.locked_of_unmapped observed.needRead rfl ⟨rfl, rfl⟩ notDirty

theorem Locked.safe_release (threadSafe : mapping.threadSafe = true)
    (locked : Locked mapping initial thread held state)
    (holds : held (mapping.mutexId segmentId))
    (clean : (state.core.status segmentId).dirty = false)
    (unmap : Bool) :
    (mapping.release segmentId unmap).Safe
      (protocol mapping initial) (mapping.handle driver) thread
      (fun _ => Locked mapping initial thread held) state := by
  unfold Mapping.release
  refine Program.Safe.andThen
    (locked.safe_getStatus (fun answered => answered.dirty = false) holds
      clean) ?_
  rintro status current ⟨notDirty, still, protection, observed, working⟩
  refine Program.Safe.when ?_ fun _ => still
  intro mapped
  cases unmap with
  | false =>
      simp only [threadSafe, Bool.false_eq_true, if_false]
      exact still
  | true =>
      rw [notDirty] at working
      exact working.safe_unmapSegment observed notDirty

theorem Locked.safe_flushSegment (full : driver.Full)
    (threadSafe : mapping.threadSafe = true)
    (locked : Locked mapping initial thread held state)
    (holds : held (mapping.mutexId segmentId))
    (unmap : Bool) :
    (mapping.flushSegment unmap segmentId).Safe
      (protocol mapping initial) (mapping.handle driver) thread
      (fun _ => Locked mapping initial thread held) state := by
  unfold Mapping.flushSegment
  refine Program.Safe.andThen (locked.safe_writeBack full threadSafe holds) ?_
  rintro _ current ⟨still, clean⟩
  exact still.safe_release threadSafe holds clean unmap

theorem Locked.safe_dropSegment
    (locked : Locked mapping initial thread held state)
    (holds : held (mapping.mutexId segmentId)) :
    (mapping.dropSegment segmentId).Safe
      (protocol mapping initial) (mapping.handle driver) thread
      (fun _ => Locked mapping initial thread held) state := by
  unfold Mapping.dropSegment
  refine Program.Safe.andThen (locked.safe_getStatus (fun _ => True) holds trivial) ?_
  rintro status current ⟨_, still, protection, observed, working⟩
  refine Program.Safe.when ?_ fun _ => still
  intro mappedClean
  rw [Bool.and_eq_true, Bool.not_eq_true'] at mappedClean
  rw [mappedClean.2] at working
  exact working.safe_unmapSegment observed mappedClean.2

theorem Locked.safe_markSegment
    (locked : Locked mapping initial thread held state)
    (holds : held (mapping.mutexId segmentId)) :
    (mapping.markSegment segmentId).Safe
      (protocol mapping initial) (mapping.handle driver) thread
      (fun _ => Locked mapping initial thread held) state := by
  unfold Mapping.markSegment
  refine Program.Safe.andThen (locked.safe_getStatus (fun _ => True) holds trivial) ?_
  rintro status current ⟨_, still, protection, observed, working⟩
  refine Program.Safe.when ?_ fun _ => still
  intro condition
  have mapped : status.mapped = true := by
    simp only [Bool.and_eq_true] at condition
    exact condition.1.1
  rw [mapped] at working
  refine Program.Safe.andThen
    (working.forgetStorage.safe_mprotect (fun absurdity => nomatch absurdity)
      mapping.readWrite fun _ => rfl) ?_
  intro _ _ opened
  refine (opened.safe_setDirty (fun absurdity => nomatch absurdity) true).mono ?_
  intro _ _ settled
  exact settled.locked_of_mapped observed.needRead mapped rfl
    fun absurdity => nomatch absurdity

end Safety

end UmmapIo
