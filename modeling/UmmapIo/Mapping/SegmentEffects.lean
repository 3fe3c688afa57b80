import UmmapIo.Mapping.Frame
import UmmapIo.Mapping.Sequential

/-!
# What an operation does to each segment

Every operation works on segments one at a time.  For each of its parts this
module gives the new status and the new protection of the segment it works on,
and states that the other segments are untouched; loops over segments follow.
-/

namespace UmmapIo

variable {mapping : Mapping} {initial : Nat → Byte} {driver : Driver}

/-! ## Parts of the operations stay on their segment -/

namespace OnlySegment

variable (core : Core) (segmentId : Nat)

/-- A transfer from the storage stays within the bytes of its segment. -/
theorem pread (offset : Nat) :
    OnlySegment mapping initial segmentId core
      (core.pread driver (mapping.segmentSize * segmentId)
        (mapping.readWriteSize (mapping.segmentSize * segmentId)) offset) where
  status := fun _ _ => rfl
  pages := fun _ _ => rfl
  memory := fun position different => by
    have short := mapping.readWriteSize_le (mapping.segmentSize * segmentId)
    rw [Ne, div_eq_iff_block mapping.segmentSize_pos] at different
    rw [Core.pread_memory]
    apply blit_outside
    unfold Core.transferred
    omega
  storage := fun _ _ _ => rfl
  record := rfl
  loads := id

theorem loadAndSwapSegment (writeAccess : Bool) :
    OnlySegment mapping initial segmentId core
      (core.loadAndSwapSegment mapping driver segmentId writeAccess) := by
  unfold Core.loadAndSwapSegment
  split
  · exact (countCall core segmentId).trans (mremapForced _ _ _ _)
  · dsimp only
    split
    · exact (mprotect _ _ _).trans (pread _ _ _)
    · exact ((mprotect _ _ _).trans (pread _ _ _)).trans (mprotect _ _ _)

theorem openSegment (isWrite : Bool) :
    OnlySegment mapping initial segmentId core
      (core.openSegment mapping driver segmentId isWrite) := by
  unfold Core.openSegment
  split
  · dsimp only
    split
    · exact (loadAndSwapSegment _ _ _).trans (setStatus _ _ _)
    · exact loadAndSwapSegment _ _ _
  · split
    · exact (mprotect _ _ _).trans (setStatus _ _ _)
    · exact mprotect _ _ _

theorem fault (isWrite : Bool) :
    OnlySegment mapping initial segmentId core
      (core.fault mapping driver segmentId isWrite) := by
  unfold Core.fault
  split
  · exact refl core segmentId
  · exact (openSegment core segmentId isWrite).trans (setStatus _ _ _)

theorem writeBack :
    OnlySegment mapping initial segmentId core
      (core.writeBack mapping driver segmentId) := by
  unfold Core.writeBack Core.pwriteSegment
  split
  · have guarded : OnlySegment mapping initial segmentId core
        (if mapping.threadSafe then core.mprotect segmentId mapping.readOnly
          else core) := by
      split
      · exact mprotect _ _ _
      · exact refl core segmentId
    exact ((guarded.trans (pwrite _ _ _)).trans (setStatus _ _ _)).trans
      (setStatus _ _ _)
  · exact refl core segmentId

theorem unmapSegment :
    OnlySegment mapping initial segmentId core (core.unmapSegment mapping segmentId) :=
  ((mprotect _ _ _).trans (madviseDontNeed _ _)).trans (setStatus _ _ _)

theorem release (unmap : Bool) :
    OnlySegment mapping initial segmentId core
      (core.release mapping segmentId unmap) := by
  unfold Core.release
  split
  · split
    · exact unmapSegment core segmentId
    · split
      · exact refl core segmentId
      · exact mprotect _ _ _
  · exact refl core segmentId

theorem flushSegment (unmap : Bool) :
    OnlySegment mapping initial segmentId core
      (core.flushSegment mapping driver unmap segmentId) :=
  (writeBack core segmentId).trans (release _ _ _)

theorem dropSegment :
    OnlySegment mapping initial segmentId core
      (core.dropSegment mapping segmentId) := by
  unfold Core.dropSegment
  split
  · exact unmapSegment core segmentId
  · exact refl core segmentId

theorem markSegment :
    OnlySegment mapping initial segmentId core
      (core.markSegment mapping segmentId) := by
  unfold Core.markSegment
  split
  · exact (mprotect _ _ _).trans (setStatus _ _ _)
  · exact refl core segmentId

end OnlySegment

/-! ## Status and protection of the segment itself -/

namespace Core

variable (core : Core) (segmentId : Nat)

theorem loadAndSwapSegment_pages (writeAccess : Bool) :
    (core.loadAndSwapSegment mapping driver segmentId writeAccess).pages segmentId =
      if writeAccess then mapping.readWrite else mapping.readOnly := by
  unfold loadAndSwapSegment
  split
  · simp
  · cases writeAccess <;> simp

theorem loadAndSwapSegment_status (writeAccess : Bool) :
    (core.loadAndSwapSegment mapping driver segmentId writeAccess).status =
      core.status := by
  unfold loadAndSwapSegment
  split
  · rfl
  · cases writeAccess <;> rfl

/-- A fault that is not already done gives the pages the access it is for. -/
theorem fault_pages (isWrite : Bool) :
    (core.fault mapping driver segmentId isWrite).pages segmentId =
      if Mapping.alreadyDone isWrite (core.status segmentId) then
        core.pages segmentId
      else if isWrite then mapping.readWrite
      else mapping.readOnly := by
  unfold fault openSegment
  split
  · rfl
  · split
    · cases isWrite <;> simp [loadAndSwapSegment_pages]
    · cases isWrite <;> simp

/-- After a read fault the segment can be read. -/
theorem read_fault
    (readable : (core.status segmentId).mapped = true →
      (core.pages segmentId).read = true) :
    ((core.fault mapping driver segmentId false).pages segmentId).read = true := by
  rw [fault_pages]
  split
  · rename_i done
    unfold Mapping.alreadyDone at done
    rw [Bool.and_eq_true] at done
    exact readable done.2
  · rfl

/-- A fault that is not already done maps the segment; a write makes it
dirty. -/
theorem fault_status (isWrite : Bool) :
    (core.fault mapping driver segmentId isWrite).status segmentId =
      if Mapping.alreadyDone isWrite (core.status segmentId) then
        core.status segmentId
      else
        { mapped := true
          dirty := isWrite || (core.status segmentId).dirty
          needRead := (core.status segmentId).needRead } := by
  unfold fault openSegment
  split
  · rfl
  · split
    · cases isWrite <;> simp [loadAndSwapSegment_status]
    · cases isWrite <;> simp

/-- A write-back leaves no mapped segment dirty, and the next first access has
to read the storage. -/
theorem writeBack_status :
    (core.writeBack mapping driver segmentId).status segmentId =
      { mapped := (core.status segmentId).mapped
        dirty := (core.status segmentId).dirty && !(core.status segmentId).mapped
        needRead := (core.status segmentId).needRead ||
          (core.status segmentId).dirty && (core.status segmentId).mapped } := by
  unfold writeBack pwriteSegment
  split
  · cases mapping.threadSafe <;> simp_all
  · cases mapped : (core.status segmentId).mapped <;> ext <;> simp_all

theorem writeBack_pages :
    (core.writeBack mapping driver segmentId).pages segmentId =
      if (core.status segmentId).dirty && (core.status segmentId).mapped &&
          mapping.threadSafe then
        mapping.readOnly
      else core.pages segmentId := by
  unfold writeBack pwriteSegment
  split
  · cases mapping.threadSafe <;> simp_all
  · simp_all

theorem release_status (unmap : Bool) :
    (core.release mapping segmentId unmap).status segmentId =
      { core.status segmentId with
        mapped := (core.status segmentId).mapped && !unmap } := by
  unfold release unmapSegment
  cases mapped : (core.status segmentId).mapped with
  | false => ext <;> simp [mapped]
  | true =>
      cases unmap with
      | true => simp
      | false => cases mapping.threadSafe <;> ext <;> simp [mapped]

theorem release_pages (unmap : Bool) :
    (core.release mapping segmentId unmap).pages segmentId =
      if (core.status segmentId).mapped then
        if unmap then mapping.noAccess
        else if mapping.threadSafe then core.pages segmentId
        else mapping.readOnly
      else core.pages segmentId := by
  unfold release unmapSegment
  cases (core.status segmentId).mapped with
  | false => rfl
  | true =>
      cases unmap with
      | true => simp
      | false => cases mapping.threadSafe <;> simp

end Core

/-! ## Bytes of the segment itself -/

section Bytes

variable {core : Core} {segmentId offset : Nat}

/-- Number of bytes that the driver moves if its transfer of this number reads a
segment. -/
def Mapping.bytesRead (mapping : Mapping) (driver : Driver)
    (call segmentId : Nat) : Nat :=
  Core.transferred (driver.preadResult call
    (mapping.readWriteSize (mapping.segmentSize * segmentId))
    (mapping.storageOffset + mapping.segmentSize * segmentId))
    (mapping.readWriteSize (mapping.segmentSize * segmentId))

/-- Number of bytes that the driver moves if its transfer of this number writes a
segment. -/
def Mapping.bytesWritten (mapping : Mapping) (driver : Driver)
    (call segmentId : Nat) : Nat :=
  Core.transferred (driver.pwriteResult call
    (mapping.readWriteSize (mapping.segmentSize * segmentId))
    (mapping.storageOffset + mapping.segmentSize * segmentId))
    (mapping.readWriteSize (mapping.segmentSize * segmentId))

theorem Mapping.bytesRead_of_full (full : driver.Full) (call : Nat) :
    mapping.bytesRead driver call segmentId =
      mapping.readWriteSize (mapping.segmentSize * segmentId) := by
  unfold bytesRead
  rw [(full _ _ _).1, Core.transferred_self]

theorem Mapping.bytesWritten_of_full (full : driver.Full) (call : Nat) :
    mapping.bytesWritten driver call segmentId =
      mapping.readWriteSize (mapping.segmentSize * segmentId) := by
  unfold bytesWritten
  rw [(full _ _ _).2, Core.transferred_self]

/-- A first read brings the bytes that the driver moves into memory.  The bytes
behind them become zero, or stay as they are in thread-unsafe mode. -/
theorem Core.loadAndSwapSegment_memory
    (inSegment : offset / mapping.segmentSize = segmentId)
    (writeAccess : Bool) :
    (core.loadAndSwapSegment mapping driver segmentId writeAccess).memory offset =
      if offset < mapping.segmentSize * segmentId +
          mapping.bytesRead driver core.calls segmentId then
        core.storage (mapping.storageOffset + offset)
      else if mapping.threadSafe then 0
      else core.memory offset := by
  have block := (div_eq_iff_block mapping.segmentSize_pos).mp inSegment
  have source : mapping.storageOffset + mapping.segmentSize * segmentId +
      (offset - mapping.segmentSize * segmentId) =
      mapping.storageOffset + offset := by
    omega
  unfold loadAndSwapSegment
  cases mapping.threadSafe with
  | true =>
      rw [if_pos rfl, if_pos rfl, mremapForced_memory,
        blit_block _ _ mapping.segmentSize_pos inSegment]
      change blit _ 0 (mapping.bytesRead driver core.calls segmentId) _ _ = _
      split
      · rw [blit_inside _ _ (Nat.zero_le _) (by omega), Nat.sub_zero, source]
      · exact blit_outside _ _ (by omega)
  | false =>
      have filled : (blit core.memory (mapping.segmentSize * segmentId)
          (mapping.bytesRead driver core.calls segmentId) fun position => core.storage
            (mapping.storageOffset + mapping.segmentSize * segmentId + position))
          offset = if offset < mapping.segmentSize * segmentId +
              mapping.bytesRead driver core.calls segmentId then
            core.storage (mapping.storageOffset + offset)
          else core.memory offset := by
        split
        · rw [blit_inside _ _ block.1 (by omega), source]
        · exact blit_outside _ _ (by omega)
      cases writeAccess <;> exact filled

/-- A transfer of a segment brings the bytes that the driver moves into the
storage. -/
theorem Core.pwriteSegment_storage
    (inSegment : offset / mapping.segmentSize = segmentId) :
    (core.pwriteSegment mapping driver segmentId).storage
        (mapping.storageOffset + offset) =
      if offset < mapping.segmentSize * segmentId +
          mapping.bytesWritten driver core.calls segmentId then
        core.memory offset
      else core.storage (mapping.storageOffset + offset) := by
  have block := (div_eq_iff_block mapping.segmentSize_pos).mp inSegment
  unfold pwriteSegment
  rw [pwrite_storage]
  change blit _ _ (mapping.bytesWritten driver core.calls segmentId) _ _ = _
  split
  · rw [blit_inside _ _ (by omega) (by omega)]
    congr 1
    omega
  · exact blit_outside _ _ (by omega)

theorem Core.writeBack_memory :
    (core.writeBack mapping driver segmentId).memory = core.memory := by
  unfold writeBack
  split
  · cases mapping.threadSafe <;> rfl
  · rfl

/-- Releasing a segment gives its pages back if it is withdrawn. -/
theorem Core.release_memory
    (inSegment : offset / mapping.segmentSize = segmentId)
    (unmap : Bool) :
    (core.release mapping segmentId unmap).memory offset =
      if (core.status segmentId).mapped && unmap then 0
      else core.memory offset := by
  unfold release unmapSegment
  cases (core.status segmentId).mapped with
  | false => rfl
  | true =>
      cases unmap with
      | true =>
          rw [if_pos rfl, if_pos rfl, setMapped_memory, madviseDontNeed_memory,
            blit_block _ _ mapping.segmentSize_pos inSegment]
          rfl
      | false => cases mapping.threadSafe <;> rfl

end Bytes

/-! ## What loads should return -/

section Record

variable {core : Core}

theorem foldl_record {effect : Core → Nat → Core}
    (only : ∀ current segmentId,
      OnlySegment mapping initial segmentId current (effect current segmentId))
    (segmentIds : List Nat) :
    expected initial (segmentIds.foldl effect core).trace =
      expected initial core.trace := by
  induction segmentIds generalizing core with
  | nil => rfl
  | cons first rest inductionHypothesis =>
      rw [List.foldl_cons, inductionHypothesis]
      exact (only core first).record

theorem fault_record (segmentId : Nat) (isWrite : Bool) :
    expected initial (core.fault mapping driver segmentId isWrite).trace =
      expected initial core.trace :=
  (OnlySegment.fault core segmentId isWrite).record

theorem flush_record (offset size : Nat) (flags : FlushFlags) :
    expected initial (core.flush mapping driver offset size flags).trace =
      expected initial core.trace := by
  have flushed : expected initial
      (core.flushLoop mapping driver offset size flags.unmap).trace =
      expected initial core.trace :=
    foldl_record
      (fun current segmentId =>
        OnlySegment.flushSegment current segmentId flags.unmap) _
  unfold Core.flush
  split
  · rfl
  · dsimp only
    split
    · rw [Core.record_trace, expected_sync, flushed]
    · exact flushed

theorem evict_record (segmentId : Nat) :
    expected initial (core.evict mapping driver segmentId).trace =
      expected initial core.trace := by
  unfold Core.evict
  split
  · rfl
  · exact (OnlySegment.flushSegment core segmentId true).record

theorem loadByte_record (thread offset attempts : Nat) :
    expected initial (core.loadByte mapping driver thread offset attempts).2.trace =
      expected initial core.trace := by
  induction attempts generalizing core with
  | zero => rfl
  | succ attempts inductionHypothesis =>
      unfold Core.loadByte
      split
      · exact expected_load initial thread offset _ _
      · rw [inductionHypothesis, fault_record]

end Record

/-! ## What every call keeps -/

/-- The parts of the operations keep an invariant: faults where they are allowed, the
other parts everywhere. -/
structure Preserved (mapping : Mapping) (driver : Driver)
    (allowed : Core → Nat → Bool → Prop)
    (invariant : Core → Prop) : Prop where
  fault : ∀ {core segmentId isWrite}, allowed core segmentId isWrite →
    invariant core → invariant (core.fault mapping driver segmentId isWrite)
  flushSegment : ∀ {core} unmap segmentId, invariant core →
    invariant (core.flushSegment mapping driver unmap segmentId)
  dropSegment : ∀ {core} segmentId, invariant core →
    invariant (core.dropSegment mapping segmentId)
  markSegment : ∀ {core} segmentId, invariant core →
    invariant (core.markSegment mapping segmentId)
  load : ∀ {core} thread offset value, invariant core →
    invariant (core.record (.load thread offset value))
  sync : ∀ {core} offset size, invariant core →
    invariant (core.record (.sync offset size))
  store : ∀ {core} thread offset value,
    (core.pages (offset / mapping.segmentSize)).write = true →
      invariant core → invariant (core.store thread offset value)

/-- The faults that a call raises are allowed wherever the invariant holds. -/
def Call.Allows (mapping : Mapping) (allowed : Core → Nat → Bool → Prop)
    (invariant : Core → Prop) : Call → Prop
  | .load offset => ∀ core, invariant core →
      (core.pages (offset / mapping.segmentSize)).read = false →
        allowed core (offset / mapping.segmentSize) false
  | .store offset _ => ∀ core, invariant core →
      allowed core (offset / mapping.segmentSize) true
  | .fault address isWrite => ∀ core, invariant core →
      allowed core ((address - mapping.baseAddress) / mapping.segmentSize) isWrite
  | _ => True

namespace Preserved

variable {allowed : Core → Nat → Bool → Prop} {invariant : Core → Prop} {core : Core}
variable (preserved : Preserved mapping driver allowed invariant)

include preserved

theorem loadByte (holds : invariant core) {offset : Nat}
    (allows : (Call.load offset).Allows mapping allowed invariant)
    (thread attempts : Nat) :
    invariant (core.loadByte mapping driver thread offset attempts).2 := by
  induction attempts generalizing core with
  | zero => exact holds
  | succ attempts inductionHypothesis =>
      unfold Core.loadByte
      split
      · exact preserved.load thread offset _ holds
      · rename_i closed
        exact inductionHypothesis (preserved.fault
          (allows core holds (Bool.eq_false_iff.mpr closed)) holds)

theorem storeByte (holds : invariant core) {offset : Nat} {value : Byte}
    (allows : (Call.store offset value).Allows mapping allowed invariant)
    (thread attempts : Nat) :
    invariant (core.storeByte mapping driver thread offset value attempts).2 := by
  induction attempts generalizing core with
  | zero => exact holds
  | succ attempts inductionHypothesis =>
      unfold Core.storeByte
      split
      · exact preserved.store thread offset value ‹_› holds
      · exact inductionHypothesis (preserved.fault (allows core holds) holds)

theorem flush (holds : invariant core) (offset size : Nat) (flags : FlushFlags) :
    invariant (core.flush mapping driver offset size flags) := by
  have flushed : invariant (core.flushLoop mapping driver offset size flags.unmap) :=
    List.foldlRecOn _ _ holds fun _ kept segmentId _ =>
      preserved.flushSegment flags.unmap segmentId kept
  unfold Core.flush
  split
  · exact holds
  · dsimp only
    split
    · exact preserved.sync offset size flushed
    · exact flushed

theorem evict (holds : invariant core) (segmentId : Nat) :
    invariant (core.evict mapping driver segmentId) := by
  unfold Core.evict
  split
  · exact holds
  · exact preserved.flushSegment true segmentId holds

theorem dropClean (holds : invariant core) : invariant (core.dropClean mapping) :=
  List.foldlRecOn _ _ holds fun _ kept segmentId _ =>
    preserved.dropSegment segmentId kept

theorem markCleanAsDirty (holds : invariant core) :
    invariant (core.markCleanAsDirty mapping) :=
  List.foldlRecOn _ _ holds fun _ kept segmentId _ =>
    preserved.markSegment segmentId kept

/-- Every call whose faults are allowed keeps the invariant. -/
theorem call_of_allows (holds : invariant core) {call : Call}
    (allows : call.Allows mapping allowed invariant)
    (attempts thread : Nat) :
    invariant (core.call mapping driver attempts thread call).2 := by
  cases call with
  | load offset => exact preserved.loadByte holds allows thread attempts
  | store offset value => exact preserved.storeByte holds allows thread attempts
  | fault address isWrite => exact preserved.fault (allows core holds) holds
  | flush offset size flags => exact preserved.flush holds offset size flags
  | evict segmentId => exact preserved.evict holds segmentId
  | dropClean => exact preserved.dropClean holds
  | markCleanAsDirty => exact preserved.markCleanAsDirty holds

omit preserved

/-- Where all faults are allowed, every call keeps the invariant. -/
theorem call
    (preserved : Preserved mapping driver (fun _ _ _ => True) invariant)
    (holds : invariant core) (attempts thread : Nat) (call : Call) :
    invariant (core.call mapping driver attempts thread call).2 := by
  refine preserved.call_of_allows holds ?_ attempts thread
  cases call <;> simp [Call.Allows]

/-- A property that concerns each segment by itself is kept by every part that keeps
it of the segment it works on. -/
theorem of_segments (initial : Nat → Byte) {property : Core → Nat → Prop}
    (elsewhere : ∀ {before after segmentId},
      Untouched mapping initial segmentId before after →
        property before segmentId → property after segmentId)
    (fault : ∀ {core segmentId isWrite}, allowed core segmentId isWrite →
      property core segmentId →
        property (core.fault mapping driver segmentId isWrite) segmentId)
    (flushSegment : ∀ {core} unmap segmentId, property core segmentId →
      property (core.flushSegment mapping driver unmap segmentId) segmentId)
    (dropSegment : ∀ {core segmentId}, property core segmentId →
      property (core.dropSegment mapping segmentId) segmentId)
    (markSegment : ∀ {core segmentId}, property core segmentId →
      property (core.markSegment mapping segmentId) segmentId)
    (store : ∀ {core} thread offset value,
      (core.pages (offset / mapping.segmentSize)).write = true →
        (∀ segmentId, property core segmentId) →
          ∀ segmentId, property (core.store thread offset value) segmentId) :
    Preserved mapping driver allowed fun core =>
      ∀ segmentId, property core segmentId := by
  have step {core after : Core} {segmentId : Nat}
      (only : OnlySegment mapping initial segmentId core after)
      (holds : ∀ other, property core other)
      (own : property after segmentId) (other : Nat) : property after other := by
    by_cases same : other = segmentId
    · rw [same]
      exact own
    · exact elsewhere (only.untouched same) (holds other)
  have noted {core : Core} {event : Event}
      (same : expected initial (event :: core.trace) = expected initial core.trace)
      (holds : ∀ other, property core other) (other : Nat) :
      property (core.record event) other := by
    have untouched : Untouched mapping initial other core (core.record event) :=
      ⟨rfl, rfl, fun _ _ => rfl, fun _ _ _ => rfl, same⟩
    exact elsewhere untouched (holds other)
  exact
    { fault := fun allows holds =>
        step (OnlySegment.fault ..) holds (fault allows (holds _))
      flushSegment := fun unmap segmentId holds =>
        step (OnlySegment.flushSegment ..) holds (flushSegment unmap segmentId (holds _))
      dropSegment := fun segmentId holds =>
        step (OnlySegment.dropSegment ..) holds (dropSegment (holds segmentId))
      markSegment := fun segmentId holds =>
        step (OnlySegment.markSegment ..) holds (markSegment (holds segmentId))
      load := fun thread offset value holds =>
        noted (expected_load initial thread offset _ _) holds
      sync := fun offset size holds => noted (expected_sync initial offset size _) holds
      store := store }

end Preserved

/-- The status and the protection of every segment have the property. -/
def Segmentwise
    (property : SegmentStatus → Protection → Prop)
    (core : Core) : Prop :=
  ∀ segmentId, property (core.status segmentId) (core.pages segmentId)

end UmmapIo
