import UmmapIo.Mapping.Defs

/-!
# The operations of a mapping

`core/Mapping.cpp` as programs over the atomic operations of the machine.  A
segment mutex guards the status bits; byte accesses take no mutex and are only
held back by page protections.  Policies are not notified here: an eviction
chosen by a policy is a call of `evict`, which any thread may make at any time.
-/

namespace UmmapIo

/-- A program of a thread that works on a mapping. -/
abbrev MappingProgram (α : Type) : Type := Program mappingSignature α

/-! ## Atomic operations as programs -/

namespace Sys

open Program (request)

/-- Take a segment mutex. -/
def lock (mutexId : Nat) : MappingProgram Unit :=
  request (E := mappingSignature) (.lock mutexId)

/-- Release a segment mutex. -/
def unlock (mutexId : Nat) : MappingProgram Unit :=
  request (E := mappingSignature) (.unlock mutexId)

/-- Read the status bits of a segment. -/
def getStatus (segmentId : Nat) : MappingProgram SegmentStatus :=
  request (E := mappingSignature) (.getStatus segmentId)

/-- `status.mapped = value`. -/
def setMapped (segmentId : Nat) (value : Bool) : MappingProgram Unit :=
  request (E := mappingSignature) (.setMapped segmentId value)

/-- `status.dirty = value`. -/
def setDirty (segmentId : Nat) (value : Bool) : MappingProgram Unit :=
  request (E := mappingSignature) (.setDirty segmentId value)

/-- `status.needRead = value`. -/
def setNeedRead (segmentId : Nat) (value : Bool) : MappingProgram Unit :=
  request (E := mappingSignature) (.setNeedRead segmentId value)

/-- `OS::mprotect` of a whole segment. -/
def mprotect (segmentId : Nat) (protection : Protection) : MappingProgram Unit :=
  request (E := mappingSignature) (.mprotect segmentId protection)

/-- `OS::madviseDontNeed` of a whole segment. -/
def madviseDontNeed (segmentId : Nat) : MappingProgram Unit :=
  request (E := mappingSignature) (.madviseDontNeed segmentId)

/-- `OS::mremapForced` of a private buffer over a segment. -/
def mremapForced (segmentId : Nat) (buffer : Nat → Byte)
    (protection : Protection) : MappingProgram Unit :=
  request (E := mappingSignature) (.mremapForced segmentId buffer protection)

/-- `driver->pread` into the mapped range. -/
def pread (start size offset : Nat) : MappingProgram Int :=
  request (E := mappingSignature) (.pread start size offset)

/-- `driver->pread` into a private buffer. -/
def preadBuffer (buffer : Nat → Byte)
    (size offset : Nat) : MappingProgram (Int × (Nat → Byte)) :=
  request (E := mappingSignature) (.preadBuffer buffer size offset)

/-- `driver->pwrite` from the mapped range. -/
def pwrite (start size offset : Nat) : MappingProgram Int :=
  request (E := mappingSignature) (.pwrite start size offset)

/-- `driver->directMSync`. -/
def directMSync : MappingProgram Bool :=
  request (E := mappingSignature) .directMSync

/-- `driver->sync`. -/
def sync (offset size : Nat) : MappingProgram Unit :=
  request (E := mappingSignature) (.sync offset size)

/-- One attempt to load a byte. -/
def load (offset : Nat) : MappingProgram (Option Byte) :=
  request (E := mappingSignature) (.load offset)

/-- One attempt to store a byte. -/
def store (offset : Nat) (value : Byte) : MappingProgram Bool :=
  request (E := mappingSignature) (.store offset value)

end Sys

namespace Mapping

variable (mapping : Mapping)

/-! ## Page protections used by the operations -/

/-- `OS::mprotect(.., true, false, protection & PROT_EXEC)`. -/
@[simps] def readOnly : Protection := ⟨true, false, mapping.protection.exec⟩

/-- `OS::mprotect(.., true, true, protection & PROT_EXEC)`. -/
@[simps] def readWrite : Protection := ⟨true, true, mapping.protection.exec⟩

/-- `OS::mprotect(.., false, false, protection & PROT_EXEC)`. -/
@[simps] def noAccess : Protection := ⟨false, false, mapping.protection.exec⟩

/-- The mutex of a segment: `segmentId % segmentMutexesCnt`. -/
def mutexId (segmentId : Nat) : Nat :=
  segmentId % mapping.segmentMutexesCnt

/-! ## Faults -/

/-- `Mapping::loadAndSwapSegment`.  In thread-safe mode the data is read in a
private buffer which then replaces the segment in one step. -/
def loadAndSwapSegment (segmentId : Nat) (writeAccess : Bool) :
    MappingProgram Unit := do
  let offset := mapping.segmentSize * segmentId
  if mapping.threadSafe then
    let (res, buffer) ← Sys.preadBuffer (fun _ => 0)
      (mapping.readWriteSize offset) (mapping.storageOffset + offset)
    Program.assume (0 ≤ res)
      s!"Fail to read all data, got {res} instead of {mapping.segmentSize} !"
    Sys.mremapForced segmentId buffer
      (if writeAccess then mapping.readWrite else mapping.readOnly)
  else
    Sys.mprotect segmentId mapping.readWrite
    let res ← Sys.pread offset
      (mapping.readWriteSize offset) (mapping.storageOffset + offset)
    Program.assume (0 ≤ res)
      s!"Fail to read all data, got {res} instead of {mapping.segmentSize} !"
    Program.when (!writeAccess) (Sys.mprotect segmentId mapping.readOnly)

/-- The branches of `Mapping::onSegmentationFault` that open a segment whose
status does not allow the access yet. -/
def openSegment (segmentId : Nat) (isWrite : Bool)
    (status : SegmentStatus) : MappingProgram Unit := do
  if !status.mapped && status.needRead then
    mapping.loadAndSwapSegment segmentId isWrite
    Program.when isWrite (Sys.setDirty segmentId true)
  else if isWrite then
    Sys.mprotect segmentId mapping.readWrite
    Sys.setDirty segmentId true
  else
    Sys.mprotect segmentId mapping.readOnly

/-- Whether `onSegmentationFault` returns at once: `isWrite == status.dirty &&
status.mapped`. -/
def alreadyDone (isWrite : Bool) (status : SegmentStatus) : Bool :=
  isWrite == status.dirty && status.mapped

/-- The critical section of `Mapping::onSegmentationFault`. -/
def faultSection (segmentId : Nat) (isWrite : Bool) : MappingProgram Unit := do
  Sys.lock (mapping.mutexId segmentId)
  let status ← Sys.getStatus segmentId
  Program.when (!alreadyDone isWrite status) do
    mapping.openSegment segmentId isWrite status
    Sys.setMapped segmentId true
  Sys.unlock (mapping.mutexId segmentId)

/-- The checks of `Mapping::onSegmentationFault`, and what follows for the segment of
the address. -/
def checkFault {E : Signature} (address : Nat) (isWrite : Bool)
    (rest : Nat → Program E Unit) : Program E Unit := do
  Program.assume
    (mapping.baseAddress ≤ address ∧
      address < mapping.baseAddress + mapping.segments * mapping.segmentSize)
    "Invalid address, not fit into the current segment !"
  Program.assume (mapping.protection ≠ Protection.none)
    "Try to access a segment which is PROT_NONE"
  Program.assume (!isWrite || mapping.protection.write)
    "Try to write access a segment which is not writable"
  rest ((address - mapping.baseAddress) / mapping.segmentSize)

/-- `Mapping::onSegmentationFault`. -/
def onSegmentationFault (address : Nat) (isWrite : Bool) : MappingProgram Unit :=
  mapping.checkFault address isWrite fun segmentId =>
    mapping.faultSection segmentId isWrite

/-! ## Flush and eviction -/

/-- `Mapping::getMutexRange`: which mutexes a flush of this range takes. -/
def getMutexRange (offset size : Nat) : Nat → Bool :=
  (List.range' (offset / mapping.segmentSize) (size / mapping.segmentSize)).foldl
    (fun list segmentId => Function.update list (mapping.mutexId segmentId) true)
    fun _ => false

/-- The mutexes of a table, in the order in which they are taken. -/
def selectedMutexes (toLock : Nat → Bool) : List Nat :=
  (List.range mapping.segmentMutexesCnt).filter toLock

/-- Write back one segment: the first half of the loop body of
`Mapping::flush`. -/
def writeBack (segmentId : Nat) : MappingProgram Unit := do
  let curOffset := mapping.segmentSize * segmentId
  let status ← Sys.getStatus segmentId
  Program.when (status.dirty && status.mapped) do
    Program.when mapping.threadSafe (Sys.mprotect segmentId mapping.readOnly)
    let res ← Sys.pwrite curOffset (mapping.readWriteSize curOffset)
      (mapping.storageOffset + curOffset)
    Program.assume (res ≠ -1) "Fail to pwrite"
    Program.assume (0 ≤ res) s!"Fail to fully write the segment, got : {res}"
    Sys.setDirty segmentId false
    Sys.setNeedRead segmentId true

/-- Withdraw a segment: access closed, pages given back, bit cleared. -/
def unmapSegment (segmentId : Nat) : MappingProgram Unit := do
  Sys.mprotect segmentId mapping.noAccess
  Sys.madviseDontNeed segmentId
  Sys.setMapped segmentId false

/-- The second half of the loop body of `Mapping::flush`. -/
def release (segmentId : Nat) (unmap : Bool) : MappingProgram Unit := do
  let status ← Sys.getStatus segmentId
  Program.when status.mapped <|
    if unmap then
      mapping.unmapSegment segmentId
    else
      Program.when (!mapping.threadSafe) (Sys.mprotect segmentId mapping.readOnly)

/-- The loop body of `Mapping::flush`. -/
def flushSegment (unmap : Bool) (segmentId : Nat) : MappingProgram Unit := do
  mapping.writeBack segmentId
  mapping.release segmentId unmap

/-- The mutexes that a flush takes and releases: none with
`UMMAP_FLUSH_NO_LOCK`. -/
def flushMutexes (offset size : Nat) (flags : FlushFlags) : List Nat :=
  if flags.noLock then []
  else mapping.selectedMutexes (mapping.getMutexRange offset size)

theorem nodup_flushMutexes (offset size : Nat) (flags : FlushFlags) :
    (mapping.flushMutexes offset size flags).Nodup := by
  unfold flushMutexes selectedMutexes
  split
  · exact List.nodup_nil
  · exact List.nodup_range.filter _

/-- The segments of the loop of `Mapping::flush`: from `offset` on up to the word
`offset + size`. -/
def flushSegments (offset size : Nat) : List Nat :=
  List.range' (offset / mapping.segmentSize)
    ((wordAdd offset size - offset) / mapping.segmentSize)

variable {offset size : Nat}

/-- The range of a flush that does not wrap around. -/
theorem flushSegments_eq (fits : offset + size < wordModulus) :
    mapping.flushSegments offset size =
      List.range' (offset / mapping.segmentSize) (size / mapping.segmentSize) := by
  unfold flushSegments
  rw [wordAdd_of_lt fits, Nat.add_sub_cancel_left]

/-- A segment starts in the range of a flush. -/
def Covers (offset size segmentId : Nat) : Prop :=
  offset ≤ mapping.segmentSize * segmentId ∧
    mapping.segmentSize * segmentId < offset + size

instance (offset size segmentId : Nat) :
    Decidable (mapping.Covers offset size segmentId) :=
  inferInstanceAs (Decidable (_ ∧ _))

variable {segmentId : Nat}

/-- The loop of a flush that does not wrap around reaches the segments that start in
its range. -/
theorem mem_flushSegments_iff
    (unwrapped : offset + size < wordModulus)
    (offsetAligned : offset % mapping.segmentSize = 0)
    (sizeAligned : size % mapping.segmentSize = 0) :
    segmentId ∈ mapping.flushSegments offset size ↔
      mapping.Covers offset size segmentId := by
  obtain ⟨first, rfl⟩ := Nat.dvd_of_mod_eq_zero offsetAligned
  obtain ⟨count, rfl⟩ := Nat.dvd_of_mod_eq_zero sizeAligned
  have positive := mapping.segmentSize_pos
  unfold Covers
  rw [mapping.flushSegments_eq unwrapped, Nat.mul_div_cancel_left _ positive,
    Nat.mul_div_cancel_left _ positive, List.mem_range'_1, ← Nat.mul_add,
    Nat.mul_le_mul_left_iff positive, Nat.mul_lt_mul_left positive]

/-- The loop never leaves the segments whose mutexes are taken. -/
theorem mem_range_of_mem_flushSegments
    (member : segmentId ∈ mapping.flushSegments offset size) :
    segmentId ∈ List.range' (offset / mapping.segmentSize)
      (size / mapping.segmentSize) := by
  have shorter : wordAdd offset size - offset ≤ size :=
    Nat.sub_le_of_le_add (Nat.add_comm size offset ▸ Nat.mod_le _ _)
  have fewer := Nat.div_le_div_right shorter (c := mapping.segmentSize)
  rw [flushSegments, List.mem_range'_1] at member
  rw [List.mem_range'_1]
  omega

/-- The loop of an eviction reaches its segment only. -/
theorem eq_of_mem_flushSegments_evict {other : Nat}
    (member : other ∈ mapping.flushSegments (segmentId * mapping.segmentSize)
      mapping.segmentSize) :
    other = segmentId := by
  have inside := mapping.mem_range_of_mem_flushSegments member
  rw [Nat.mul_div_cancel segmentId mapping.segmentSize_pos,
    Nat.div_self mapping.segmentSize_pos] at inside
  exact List.mem_singleton.mp inside

/-- A flush whose range wraps around has no segments. -/
theorem flushSegments_of_wrap (small : size < wordModulus)
    (wraps : wordModulus ≤ offset + size) :
    mapping.flushSegments offset size = [] := by
  have before : wordAdd offset size ≤ offset := by
    unfold wordAdd wordModulus at *
    omega
  unfold flushSegments
  rw [Nat.sub_eq_zero_of_le before, Nat.zero_div]
  rfl

/-- The critical section of `Mapping::flush`. -/
def flushSection (offset size : Nat) (flags : FlushFlags) :
    MappingProgram Unit := do
  Program.each Sys.lock (mapping.flushMutexes offset size flags)
  Program.each (mapping.flushSegment flags.unmap) (mapping.flushSegments offset size)
  Program.when flags.sync (Sys.sync offset size)
  Program.each Sys.unlock (mapping.flushMutexes offset size flags)

/-- The checks of `Mapping::flush`, and what follows. -/
def checkFlush {E : Signature} (offset size : Nat) (rest : Program E Unit) :
    Program E Unit := do
  Program.assume (offset < mapping.size) s!"Offset ({offset}) is not in valid range !"
  Program.assume (wordAdd offset size ≤ mapping.getAlignedSize)
    s!"'Offset ({offset}) + size' is not in valid range !"
  Program.assume (offset % mapping.segmentSize = 0)
    s!"Should get offset ({offset}) multiple of segment size !"
  Program.assume (size % mapping.segmentSize = 0)
    s!"Should get size ({size}) multiple of segment size !"
  rest

/-- `Mapping::flush(offset, size, flags)`. -/
def flush (offset size : Nat) (flags : FlushFlags) : MappingProgram Unit :=
  mapping.checkFlush offset size do
    let res ← Sys.directMSync
    Program.when (!res) (mapping.flushSection offset size flags)

/-- `Mapping::flush(bool sync)`: the whole mapping. -/
def flushAll (sync : Bool) : MappingProgram Unit :=
  mapping.flush 0 mapping.size ⟨sync, false, false⟩

/-- `Mapping::evict`. -/
def evict (segmentId : Nat) : MappingProgram Unit := do
  Sys.lock (mapping.mutexId segmentId)
  mapping.flush (segmentId * mapping.segmentSize) mapping.segmentSize
    ⟨false, true, true⟩
  Sys.unlock (mapping.mutexId segmentId)

/-! ## Operations on all segments -/

/-- Run a body for every segment while holding every mutex. -/
def withAllLocked (body : Nat → MappingProgram Unit) : MappingProgram Unit := do
  Program.each Sys.lock (List.range mapping.segmentMutexesCnt)
  Program.each body (List.range mapping.segments)
  Program.each Sys.unlock (List.range mapping.segmentMutexesCnt)

/-- The loop body of `Mapping::dropClean`. -/
def dropSegment (segmentId : Nat) : MappingProgram Unit := do
  let status ← Sys.getStatus segmentId
  Program.when (status.mapped && !status.dirty) (mapping.unmapSegment segmentId)

/-- `Mapping::dropClean`. -/
def dropClean : MappingProgram Unit :=
  mapping.withAllLocked mapping.dropSegment

/-- The loop body of `Mapping::markCleanAsDirty`. -/
def markSegment (segmentId : Nat) : MappingProgram Unit := do
  let status ← Sys.getStatus segmentId
  Program.when (status.mapped && !status.dirty && mapping.protection.write) do
    Sys.mprotect segmentId mapping.readWrite
    Sys.setDirty segmentId true

/-- `Mapping::markCleanAsDirty`. -/
def markCleanAsDirty : MappingProgram Unit :=
  mapping.withAllLocked mapping.markSegment

/-- `Mapping::skipFirstRead`.  It takes no mutex. -/
def skipFirstRead : MappingProgram Unit :=
  Program.each (fun segmentId => Sys.setNeedRead segmentId false)
    (List.range mapping.segments)

/-! ## Byte accesses -/

/-- A byte load: attempt, handle the fault, retry.  The number of attempts is a
parameter; any finite part of an unbounded retry is a run with enough of
them. -/
def loadByte (offset : Nat) : Nat → MappingProgram (Option Byte)
  | 0 => pure none
  | attempts + 1 => do
      let value ← Sys.load offset
      if value.isSome then
        pure value
      else
        mapping.onSegmentationFault (mapping.baseAddress + offset) false
        loadByte offset attempts

/-- A byte store: attempt, handle the fault, retry. -/
def storeByte (offset : Nat) (value : Byte) : Nat → MappingProgram Bool
  | 0 => pure false
  | attempts + 1 => do
      let written ← Sys.store offset value
      if written then
        pure true
      else
        mapping.onSegmentationFault (mapping.baseAddress + offset) true
        storeByte offset value attempts

end Mapping
end UmmapIo
