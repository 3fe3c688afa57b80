import UmmapIo.Mapping.SegmentEffects

/-!
# Where the contents of a segment are

The three status bits tell where the bytes of a segment are to be found: in
memory when it is mapped, in the storage when it is clean and has to be read,
and nowhere, since they are all zero, when it is clean and was never read.  Every
call keeps this invariant over a driver that transfers what it is asked for.
-/

namespace UmmapIo

section Coherence

variable (mapping : Mapping) (initial : Nat → Byte)

/-- Loads of this segment should all return zero. -/
def Blank (core : Core) (segmentId : Nat) : Prop :=
  ∀ offset, offset < mapping.size → offset / mapping.segmentSize = segmentId →
    expected initial core.trace offset = 0

/-- The status bits of a segment tell where its contents are. -/
structure Located (core : Core) (segmentId : Nat) : Prop where
  closed : (core.status segmentId).mapped = false →
    (core.pages segmentId).read = false ∧
      (core.pages segmentId).write = false ∧
      (core.status segmentId).dirty = false
  memory : (core.status segmentId).mapped = true ∨
      (core.status segmentId).needRead = false →
    MemoryOk mapping initial core segmentId
  storage : (core.status segmentId).dirty = false →
    (core.status segmentId).needRead = true →
      StorageOk mapping initial core segmentId
  blank : (core.status segmentId).dirty = false →
    (core.status segmentId).needRead = false →
      Blank mapping initial core segmentId

/-- Moreover a segment that can be written is dirty. -/
structure Coherent (core : Core) (segmentId : Nat) : Prop extends
    Located mapping initial core segmentId where
  writable : (core.pages segmentId).write = true →
    (core.status segmentId).dirty = true

variable {mapping initial} {driver : Driver} {core : Core} {segmentId : Nat}

theorem Coherent.of_untouched {after : Core}
    (coherent : Coherent mapping initial core segmentId)
    (untouched : Untouched mapping initial segmentId core after) :
    Coherent mapping initial after segmentId where
  closed := by
    rw [untouched.status, untouched.pages]
    exact coherent.closed
  memory := by
    rw [untouched.status]
    exact fun here => untouched.memoryOk (coherent.memory here)
  storage := by
    rw [untouched.status]
    exact fun clean stored => untouched.storageOk (coherent.storage clean stored)
  blank := by
    rw [untouched.status]
    intro clean unread offset inside inSegment
    rw [untouched.record]
    exact coherent.blank clean unread offset inside inSegment
  writable := by
    rw [untouched.status, untouched.pages]
    exact coherent.writable

/-! ## Transfers -/

/-- Loading a segment brings the bytes of the storage into memory. -/
theorem StorageOk.loadAndSwapSegment (full : driver.Full)
    (stored : StorageOk mapping initial core segmentId)
    (writeAccess : Bool) :
    MemoryOk mapping initial
      (core.loadAndSwapSegment mapping driver segmentId writeAccess)
      segmentId := by
  intro offset inside inSegment
  have only : OnlySegment mapping initial segmentId core
      (core.loadAndSwapSegment mapping driver segmentId writeAccess) :=
    OnlySegment.loadAndSwapSegment core segmentId writeAccess
  rw [only.record, ← stored offset inside inSegment,
    Core.loadAndSwapSegment_memory inSegment, Mapping.bytesRead_of_full full,
    if_pos ((mapping.lt_readWriteSize_iff inSegment).mpr inside)]

/-- Writing a segment back brings the bytes of the memory into the storage. -/
theorem MemoryOk.pwriteSegment (full : driver.Full)
    (contents : MemoryOk mapping initial core segmentId) :
    MemoryOk mapping initial (core.pwriteSegment mapping driver segmentId) segmentId ∧
      StorageOk mapping initial (core.pwriteSegment mapping driver segmentId)
        segmentId := by
  have record : expected initial
      (core.pwriteSegment mapping driver segmentId).trace =
        expected initial core.trace :=
    expected_pwrite initial _ _ _
  refine ⟨?_, ?_⟩
  · intro offset inside inSegment
    rw [record]
    exact contents offset inside inSegment
  · intro offset inside inSegment
    rw [record, ← contents offset inside inSegment,
      Core.pwriteSegment_storage inSegment, Mapping.bytesWritten_of_full full,
      if_pos ((mapping.lt_readWriteSize_iff inSegment).mpr inside)]

/-! ## Parts of the operations -/

theorem Core.loadAndSwapSegment_storage (writeAccess : Bool) :
    (core.loadAndSwapSegment mapping driver segmentId writeAccess).storage =
      core.storage := by
  unfold loadAndSwapSegment
  split
  · rfl
  · cases writeAccess <;> rfl

theorem Core.fault_storage (isWrite : Bool) :
    (core.fault mapping driver segmentId isWrite).storage = core.storage := by
  unfold fault openSegment
  split
  · rfl
  · split
    · cases isWrite <;> exact loadAndSwapSegment_storage _
    · cases isWrite <;> rfl

namespace Coherent

/-- After a fault, the contents are in memory. -/
theorem memoryOk_fault (full : driver.Full)
    (coherent : Coherent mapping initial core segmentId)
    (isWrite : Bool) :
    MemoryOk mapping initial (core.fault mapping driver segmentId isWrite)
      segmentId := by
  unfold Core.fault Core.openSegment
  split
  · rename_i done
    unfold Mapping.alreadyDone at done
    rw [Bool.and_eq_true] at done
    exact coherent.memory (Or.inl done.2)
  · split
    · rename_i load
      rw [Bool.and_eq_true, Bool.not_eq_true'] at load
      have notDirty := (coherent.closed load.1).2.2
      have loaded := (coherent.storage notDirty load.2).loadAndSwapSegment full isWrite
      cases isWrite <;> exact loaded
    · rename_i present
      have contents : MemoryOk mapping initial core segmentId := by
        apply coherent.memory
        simpa [or_iff_not_imp_left] using present
      cases isWrite <;> exact contents

/-- Handling a fault keeps the invariant, whatever the fault and the status. -/
theorem fault (full : driver.Full)
    (coherent : Coherent mapping initial core segmentId)
    (isWrite : Bool) :
    Coherent mapping initial (core.fault mapping driver segmentId isWrite)
      segmentId := by
  cases done : Mapping.alreadyDone isWrite (core.status segmentId) with
  | true =>
      have same : core.fault mapping driver segmentId isWrite = core :=
        if_pos done
      rw [same]
      exact coherent
  | false =>
      have contents := coherent.memoryOk_fault full isWrite
      have only : OnlySegment mapping initial segmentId core
          (core.fault mapping driver segmentId isWrite) :=
        OnlySegment.fault core segmentId isWrite
      have status : (core.fault mapping driver segmentId isWrite).status
          segmentId = ⟨true, isWrite || (core.status segmentId).dirty,
            (core.status segmentId).needRead⟩ := by
        rw [Core.fault_status, done]
        rfl
      have pages : (core.fault mapping driver segmentId isWrite).pages
          segmentId =
            if isWrite then mapping.readWrite else mapping.readOnly := by
        rw [Core.fault_pages, done]
        rfl
      refine ⟨⟨?_, fun _ => contents, ?_, ?_⟩, ?_⟩
      · rw [status]
        intro absurdity
        cases absurdity
      · rw [status]
        intro clean stored offset inside inSegment
        rw [Core.fault_storage, only.record]
        exact coherent.storage (Bool.or_eq_false_iff.mp clean).2 stored offset
          inside inSegment
      · rw [status]
        intro clean unread offset inside inSegment
        rw [only.record]
        exact coherent.blank (Bool.or_eq_false_iff.mp clean).2 unread offset
          inside inSegment
      · rw [status, pages]
        intro writable
        cases isWrite with
        | true => rfl
        | false => cases writable

/-- Opening the pages of a segment for reading only, or closing them for
writing, needs nothing more. -/
theorem of_readOnly
    (located : Located mapping initial core segmentId)
    (mapped : (core.status segmentId).mapped = true) :
    Coherent mapping initial (core.mprotect segmentId mapping.readOnly) segmentId where
  closed := fun unmapped => by
    rw [Core.mprotect_status, mapped] at unmapped
    cases unmapped
  memory := located.memory
  storage := located.storage
  blank := located.blank
  writable := fun writable => by
    rw [Core.mprotect_pages, Function.update_self] at writable
    cases writable

/-- Withdrawing a clean segment keeps the invariant. -/
theorem unmapSegment
    (located : Located mapping initial core segmentId)
    (notDirty : (core.status segmentId).dirty = false) :
    Coherent mapping initial (core.unmapSegment mapping segmentId)
      segmentId := by
  have only : OnlySegment mapping initial segmentId core
      (core.unmapSegment mapping segmentId) :=
    OnlySegment.unmapSegment core segmentId
  have status : (core.unmapSegment mapping segmentId).status segmentId =
      ⟨false, (core.status segmentId).dirty,
        (core.status segmentId).needRead⟩ := by
    simp [Core.unmapSegment]
  have pages : (core.unmapSegment mapping segmentId).pages segmentId =
      mapping.noAccess := by
    simp [Core.unmapSegment]
  refine ⟨⟨?_, ?_, ?_, ?_⟩, ?_⟩
  · rw [status, pages]
    exact fun _ => ⟨rfl, rfl, notDirty⟩
  · rw [status]
    intro here offset inside inSegment
    have unread : (core.status segmentId).needRead = false :=
      here.resolve_left Bool.false_ne_true
    rw [only.record, located.blank notDirty unread offset inside inSegment]
    unfold Core.unmapSegment
    rw [Core.setMapped_memory, Core.madviseDontNeed_memory,
      blit_block _ _ mapping.segmentSize_pos inSegment]
  · rw [status]
    intro _ stored offset inside inSegment
    rw [only.record]
    exact located.storage notDirty stored offset inside inSegment
  · rw [status]
    intro _ unread offset inside inSegment
    rw [only.record]
    exact located.blank notDirty unread offset inside inSegment
  · rw [pages]
    intro absurdity
    cases absurdity

theorem mapped_of_dirty
    (coherent : Coherent mapping initial core segmentId)
    (dirty : (core.status segmentId).dirty = true) :
    (core.status segmentId).mapped = true := by
  cases mapped : (core.status segmentId).mapped with
  | true => rfl
  | false =>
      rw [(coherent.closed mapped).2.2] at dirty
      cases dirty

/-- Writing back a dirty segment brings its contents into the storage. -/
theorem writeBack_dirty (full : driver.Full)
    (coherent : Coherent mapping initial core segmentId)
    (dirty : (core.status segmentId).dirty = true) :
    Located mapping initial (core.writeBack mapping driver segmentId)
      segmentId := by
  have mapped := coherent.mapped_of_dirty dirty
  have contents := coherent.memory (Or.inl mapped)
  have status : (core.writeBack mapping driver segmentId).status segmentId =
      ⟨true, false, true⟩ := by
    rw [Core.writeBack_status, mapped, dirty]
    simp
  have stored : MemoryOk mapping initial
        (core.writeBack mapping driver segmentId) segmentId ∧
      StorageOk mapping initial
        (core.writeBack mapping driver segmentId) segmentId := by
    unfold Core.writeBack
    rw [dirty, mapped]
    cases mapping.threadSafe with
    | true =>
        have guarded : MemoryOk mapping initial
          (core.mprotect segmentId mapping.readOnly) segmentId := contents
        exact guarded.pwriteSegment full
    | false => exact contents.pwriteSegment full
  refine ⟨?_, fun _ => stored.1, fun _ _ => stored.2, ?_⟩
  · rw [status]
    intro absurdity
    cases absurdity
  · rw [status]
    intro _ absurdity
    cases absurdity

/-- One turn of a flush keeps the invariant. -/
theorem flushSegment (full : driver.Full)
    (coherent : Coherent mapping initial core segmentId)
    (unmap : Bool) :
    Coherent mapping initial
      (core.flushSegment mapping driver unmap segmentId) segmentId := by
  unfold Core.flushSegment
  cases dirty : (core.status segmentId).dirty with
  | false =>
      have same : core.writeBack mapping driver segmentId = core := by
        simp [Core.writeBack, dirty]
      rw [same]
      unfold Core.release
      split
      · split
        · exact unmapSegment coherent.toLocated dirty
        · split
          · exact coherent
          · exact of_readOnly coherent.toLocated ‹_›
      · exact coherent
  | true =>
      have mapped := coherent.mapped_of_dirty dirty
      have located := coherent.writeBack_dirty full dirty
      have status : (core.writeBack mapping driver segmentId).status
          segmentId = ⟨true, false, true⟩ := by
        rw [Core.writeBack_status, mapped, dirty]
        simp
      have stillMapped : ((core.writeBack mapping driver segmentId).status
          segmentId).mapped = true := by
        rw [status]
      unfold Core.release
      rw [stillMapped, if_pos rfl]
      split
      · refine unmapSegment located ?_
        rw [status]
      · split
        · rename_i threadSafe
          refine ⟨located, ?_⟩
          rw [Core.writeBack_pages, dirty, mapped, threadSafe]
          intro absurdity
          cases absurdity
        · exact of_readOnly located stillMapped

theorem dropSegment
    (coherent : Coherent mapping initial core segmentId) :
    Coherent mapping initial (core.dropSegment mapping segmentId)
      segmentId := by
  unfold Core.dropSegment
  split
  · rename_i mappedClean
    rw [Bool.and_eq_true, Bool.not_eq_true'] at mappedClean
    exact unmapSegment coherent.toLocated mappedClean.2
  · exact coherent

theorem markSegment
    (coherent : Coherent mapping initial core segmentId) :
    Coherent mapping initial (core.markSegment mapping segmentId)
      segmentId := by
  unfold Core.markSegment
  split
  · rename_i condition
    simp only [Bool.and_eq_true] at condition
    have mapped := condition.1.1
    have status : ((core.mprotect segmentId mapping.readWrite).setDirty
        segmentId true).status segmentId =
        ⟨true, true, (core.status segmentId).needRead⟩ := by
      simp [mapped]
    refine ⟨⟨?_, fun _ => coherent.memory (Or.inl mapped), ?_, ?_⟩, ?_⟩
    · rw [status]
      intro absurdity
      cases absurdity
    · rw [status]
      intro absurdity
      cases absurdity
    · rw [status]
      intro absurdity
      cases absurdity
    · rw [status]
      exact fun _ => rfl
  · exact coherent

end Coherent

/-! ## Calls -/

/-- Every segment is coherent. -/
def AllCoherent (mapping : Mapping) (initial : Nat → Byte) (core : Core) : Prop :=
  ∀ segmentId, Coherent mapping initial core segmentId

namespace AllCoherent

/-- The number of transfers does not matter. -/
theorem recount
    (coherent : AllCoherent mapping initial core)
    (calls : Nat) :
    AllCoherent mapping initial (core.recount calls) :=
  fun segmentId => (coherent segmentId).of_untouched
    ⟨rfl, rfl, fun _ _ => rfl, fun _ _ _ => rfl, rfl⟩

/-- A store to a segment that can be written. -/
theorem store {offset : Nat}
    (coherent : AllCoherent mapping initial core)
    (writable : (core.pages (offset / mapping.segmentSize)).write = true)
    (thread : Nat) (value : Byte) :
    AllCoherent mapping initial (core.store thread offset value) := by
  intro segmentId
  have own := coherent segmentId
  have dirtyHere : offset / mapping.segmentSize = segmentId →
      (core.status segmentId).dirty = true := by
    intro here
    rw [here] at writable
    exact own.writable writable
  have elsewhere : (core.status segmentId).dirty = false →
      offset / mapping.segmentSize ≠ segmentId := by
    intro clean here
    rw [dirtyHere here] at clean
    cases clean
  refine ⟨⟨own.closed, ?_, ?_, ?_⟩, own.writable⟩
  · exact fun here => (own.memory here).store offset value
  · exact fun clean stored =>
      (own.storage clean stored).store (elsewhere clean) value
  · intro clean unread position inside inSegment
    have distinct : position ≠ offset := by
      intro same
      subst same
      exact elsewhere clean inSegment
    rw [Core.store_trace, expected_store, Function.update_of_ne distinct]
    exact own.blank clean unread position inside inSegment

/-- Every call keeps the contents where the status bits tell. -/
theorem preserved (full : driver.Full) :
    Preserved mapping driver (fun _ _ _ => True) (AllCoherent mapping initial) :=
  .of_segments initial (fun untouched own => own.of_untouched untouched)
    (fun _ own => own.fault full _) (fun unmap _ own => own.flushSegment full unmap)
    (fun own => own.dropSegment) (fun own => own.markSegment)
    (fun thread _ value writable coherent => store coherent writable thread value)

/-- The machine right after the constructor. -/
theorem of_constructor (flags : CreationFlags) (storage : Nat → Byte) :
    AllCoherent mapping (mapping.initialView flags storage)
      (Core.initial flags storage) := by
  intro segmentId
  refine ⟨⟨fun _ => ⟨rfl, rfl, rfl⟩, ?_, ?_, ?_⟩, ?_⟩
  · intro here offset _ _
    have unread : flags.noFirstRead = true := by
      simpa [Core.initial] using here
    simp [Core.initial, Mapping.initialView, unread]
  · intro _ stored offset _ _
    have reads : flags.noFirstRead = false := by
      simpa [Core.initial] using stored
    simp [Core.initial, Mapping.initialView, reads]
  · intro _ unread offset _ _
    have skipped : flags.noFirstRead = true := by
      simpa [Core.initial] using unread
    simp [Core.initial, Mapping.initialView, skipped]
  · intro absurdity
    cases absurdity

end AllCoherent

end Coherence

end UmmapIo
