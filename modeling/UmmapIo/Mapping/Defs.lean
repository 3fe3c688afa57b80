import UmmapIo.Lib.Bytes
import UmmapIo.Lib.Program
import UmmapIo.Lib.Words
import Mathlib.Tactic.Simps.Basic

/-!
# A mapping and the machine it runs on

The data model of `core/Mapping.hpp`: a mapping cuts its address range into
segments, tracks three status bits for each of them, and moves their contents
between anonymous memory and a storage reached through a driver.

The machine below the mapping has, for each segment, a page protection; it has
the bytes of the mapped range, the bytes of the storage object, and the segment
mutexes.  Memory is addressed relative to the base address of the mapping.  The
machine records loads, stores and the calls that reach the storage.
-/

namespace UmmapIo

/-- One byte of memory or storage. -/
abbrev Byte : Type := UInt8

/-- `UMMAP_PAGE_SIZE`. -/
def pageSize : Nat := 4096

/-- A combination of `PROT_READ`, `PROT_WRITE` and `PROT_EXEC`. -/
structure Protection where
  /-- `PROT_READ`. -/
  read : Bool
  /-- `PROT_WRITE`. -/
  write : Bool
  /-- `PROT_EXEC`. -/
  exec : Bool
  deriving DecidableEq

/-- `PROT_NONE`. -/
def Protection.none : Protection := ⟨false, false, false⟩

/-- The bits of `SegmentStatus`. -/
@[ext] structure SegmentStatus where
  /-- The segment is mapped. -/
  mapped : Bool
  /-- The segment was touched by a write access and differs from the storage. -/
  dirty : Bool
  /-- The next first access reads the storage instead of showing zeroes. -/
  needRead : Bool
  deriving DecidableEq

/-- The creation flags of a mapping, one field a bit. -/
structure CreationFlags where
  /-- `UMMAP_NO_FIRST_READ`. -/
  noFirstRead : Bool
  /-- `UMMAP_THREAD_UNSAFE`. -/
  threadUnsafe : Bool
  deriving DecidableEq

/-- The flags of `Mapping::flush`, one field a bit. -/
structure FlushFlags where
  /-- `UMMAP_FLUSH_SYNC`. -/
  sync : Bool
  /-- `UMMAP_FLUSH_UNMAP`. -/
  unmap : Bool
  /-- `UMMAP_FLUSH_NO_LOCK`. -/
  noLock : Bool
  deriving DecidableEq

/-- The values a `Driver` object answers.  The transfers themselves move bytes
of the storage; a driver decides how many of them and reports it, or reports a
negative error.  The first argument counts the calls made so far. -/
structure Driver where
  /-- Result of a `pread` of the given size at the given offset. -/
  preadResult : Nat → Nat → Nat → Int
  /-- Result of a `pwrite` of the given size at the given offset. -/
  pwriteResult : Nat → Nat → Nat → Int
  /-- Result of `directMSync`: the driver maps the storage directly. -/
  directMSync : Bool
  /-- Result of `checkThreadSafety`. -/
  checkThreadSafety : Bool

/-- The driver transfers all the bytes it is asked for. -/
def Driver.Full (driver : Driver) : Prop :=
  ∀ call size offset,
    driver.preadResult call size offset = size ∧
      driver.pwriteResult call size offset = size

/-- The driver reports no error. -/
def Driver.NoError (driver : Driver) : Prop :=
  ∀ call size offset,
    0 ≤ driver.preadResult call size offset ∧
      0 ≤ driver.pwriteResult call size offset

theorem Driver.Full.noError {driver : Driver} (full : driver.Full) :
    driver.NoError := by
  intro call size offset
  obtain ⟨reads, writes⟩ := full call size offset
  omega

/-- A driver that transfers everything and maps nothing directly. -/
def Driver.whole : Driver where
  preadResult := fun _ size _ => size
  pwriteResult := fun _ size _ => size
  directMSync := false
  checkThreadSafety := true

theorem Driver.whole_full : Driver.whole.Full :=
  fun _ _ _ => ⟨rfl, rfl⟩

/-- Size rounded up to a multiple of the segment size. -/
def Mapping.mapSize (size segmentSize : Nat) : Nat :=
  if size % segmentSize ≠ 0 then
    size + (segmentSize - size % segmentSize)
  else
    size

/-- The fields of a `Mapping` that its operations do not change, with what the
constructor has checked and the system has granted: the segments fit in the address
space. -/
structure Mapping where
  /-- Base address of the mapping. -/
  baseAddress : Nat
  /-- Size of the mapped data, not rounded to segments. -/
  size : Nat
  /-- Granularity of the input and output operations. -/
  segmentSize : Nat
  /-- Offset of the mapped data in the storage. -/
  storageOffset : Nat
  /-- Access the user asked for. -/
  protection : Protection
  /-- Whether loads go through a private buffer that is moved in place. -/
  threadSafe : Bool
  /-- Number of segment mutexes. -/
  segmentMutexesCnt : Nat
  size_pos : 0 < size
  segmentSize_pos : 0 < segmentSize
  segmentSize_page : segmentSize % pageSize = 0
  segmentMutexesCnt_pos : 0 < segmentMutexesCnt
  mapSize_lt : Mapping.mapSize size segmentSize < wordModulus

namespace Mapping

/-- Number of segments. -/
def segments (mapping : Mapping) : Nat :=
  mapSize mapping.size mapping.segmentSize / mapping.segmentSize

/-- `Mapping::getAlignedSize`. -/
def getAlignedSize (mapping : Mapping) : Nat :=
  mapping.segmentSize * mapping.segments

/-- Number of bytes of the segment at this offset that belong to the mapped
data: `Mapping::readWriteSize`. -/
def readWriteSize (mapping : Mapping) (offset : Nat) : Nat :=
  if mapping.size - offset ≥ mapping.segmentSize then
    mapping.segmentSize
  else
    mapping.size - offset

/-! ## Segment arithmetic -/

variable (mapping : Mapping)

theorem mapSize_spec (size segmentSize : Nat) (positive : 0 < segmentSize) :
    size ≤ mapSize size segmentSize ∧
      mapSize size segmentSize < size + segmentSize ∧
      segmentSize ∣ mapSize size segmentSize := by
  have remainder := Nat.mod_lt size positive
  have split := Nat.div_add_mod size segmentSize
  unfold mapSize
  split
  · refine ⟨by omega, by omega, size / segmentSize + 1, ?_⟩
    rw [Nat.mul_add, Nat.mul_one]
    omega
  · refine ⟨Nat.le_refl size, by omega, size / segmentSize, ?_⟩
    omega

theorem getAlignedSize_eq_mapSize :
    mapping.getAlignedSize = mapSize mapping.size mapping.segmentSize :=
  Nat.mul_div_cancel'
    (mapSize_spec mapping.size mapping.segmentSize mapping.segmentSize_pos).2.2

theorem size_le_getAlignedSize : mapping.size ≤ mapping.getAlignedSize := by
  rw [getAlignedSize_eq_mapSize]
  exact (mapSize_spec mapping.size mapping.segmentSize mapping.segmentSize_pos).1

theorem getAlignedSize_lt :
    mapping.getAlignedSize < mapping.size + mapping.segmentSize := by
  rw [getAlignedSize_eq_mapSize]
  exact (mapSize_spec mapping.size mapping.segmentSize mapping.segmentSize_pos).2.1

theorem getAlignedSize_lt_wordModulus :
    mapping.getAlignedSize < wordModulus := by
  rw [getAlignedSize_eq_mapSize]
  exact mapping.mapSize_lt

/-- The segments of the mapping are those that start below its size. -/
theorem lt_segments_iff (segmentId : Nat) :
    segmentId < mapping.segments ↔
      mapping.segmentSize * segmentId < mapping.size := by
  have lower := mapping.size_le_getAlignedSize
  have upper := mapping.getAlignedSize_lt
  have positive := mapping.segmentSize_pos
  unfold getAlignedSize at lower upper
  constructor
  · intro below
    have step : mapping.segmentSize * (segmentId + 1) ≤
        mapping.segmentSize * mapping.segments :=
      Nat.mul_le_mul_left mapping.segmentSize below
    rw [Nat.mul_add, Nat.mul_one] at step
    omega
  · intro starts
    by_contra notBelow
    have step : mapping.segmentSize * mapping.segments ≤
        mapping.segmentSize * segmentId :=
      Nat.mul_le_mul_left mapping.segmentSize (Nat.le_of_not_lt notBelow)
    omega

/-- An offset lies in the aligned mapping when its segment exists. -/
theorem lt_getAlignedSize_iff (offset : Nat) :
    offset < mapping.getAlignedSize ↔
      offset / mapping.segmentSize < mapping.segments := by
  rw [getAlignedSize, Nat.div_lt_iff_lt_mul mapping.segmentSize_pos,
    Nat.mul_comm]

/-- The segment of an offset below the size exists. -/
theorem div_lt_segments {offset : Nat} (inside : offset < mapping.size) :
    offset / mapping.segmentSize < mapping.segments :=
  (mapping.lt_getAlignedSize_iff offset).mp
    (Nat.lt_of_lt_of_le inside mapping.size_le_getAlignedSize)

/-- Within a segment of the mapping, the bytes that take part in transfers are
those below the size of the mapping. -/
theorem lt_readWriteSize_iff {segmentId offset : Nat}
    (inSegment : offset / mapping.segmentSize = segmentId) :
    offset < mapping.segmentSize * segmentId +
        mapping.readWriteSize (mapping.segmentSize * segmentId) ↔
      offset < mapping.size := by
  obtain ⟨lower, upper⟩ := (div_eq_iff_block mapping.segmentSize_pos).mp inSegment
  unfold readWriteSize
  split <;> omega

/-- A transfer never leaves the mapped data. -/
theorem add_readWriteSize_le {offset : Nat} (inside : offset < mapping.size) :
    offset + mapping.readWriteSize offset ≤ mapping.size := by
  unfold readWriteSize
  split <;> omega

/-- Every segment has bytes that take part in transfers. -/
theorem readWriteSize_pos {offset : Nat} (inside : offset < mapping.size) :
    0 < mapping.readWriteSize offset := by
  have positive := mapping.segmentSize_pos
  unfold readWriteSize
  split <;> omega

theorem readWriteSize_le (offset : Nat) :
    mapping.readWriteSize offset ≤ mapping.segmentSize := by
  unfold readWriteSize
  split <;> omega

end Mapping

/-- The constructor `Mapping::Mapping` for a driver without direct mapping:
its checks in order, then the fields.  `cpuNumber` is what the system reports
and `address` is where it placed the range.  A rounded size that wraps around has no
whole segment left, and the system refuses a range of no bytes. -/
def Mapping.create
    (address size segmentSize storageOffset : Nat)
    (protection : Protection) (flags : CreationFlags) (driver : Driver)
    (cpuNumber : Nat) : Except String Mapping :=
  let mapSize := Mapping.mapSize size segmentSize % wordModulus
  if hsize : 0 < size then
    if hsegment : 0 < segmentSize then
      if hpage : segmentSize % pageSize = 0 then
        if mapSize % segmentSize = 0 then
          if flags.threadUnsafe || driver.checkThreadSafety then
            if hspace : Mapping.mapSize size segmentSize < wordModulus then
              let segments := Mapping.mapSize size segmentSize / segmentSize
              .ok
                { baseAddress := address
                  size := size
                  segmentSize := segmentSize
                  storageOffset := storageOffset
                  protection := protection
                  threadSafe := !flags.threadUnsafe
                  segmentMutexesCnt := min (cpuNumber * 4 + 1) segments
                  size_pos := hsize
                  segmentSize_pos := hsegment
                  segmentSize_page := hpage
                  segmentMutexesCnt_pos := by
                    obtain ⟨lower, _, divides⟩ :=
                      Mapping.mapSize_spec size segmentSize hsegment
                    have positive : 0 < segments :=
                      Nat.div_pos (Nat.le_of_dvd (by omega) divides) hsegment
                    omega
                  mapSize_lt := hspace }
            else
              .error s!"Fail to call mmap with size={mapSize}"
          else
            .error ("Ask for mapping thread safety but the driver does not " ++
              "support it !")
        else
          .error (s!"Size should be multiple of segment size ({segmentSize}), " ++
            s!"got '{size}'")
      else
        .error s!"Segment size should be multiple of page size ({pageSize}), got '{size}'"
    else
      .error "Do not accept null segment size"
  else
    .error "Do not accept null size mapping"

/-- The rounded size of a small mapping is no larger than a machine word. -/
theorem Mapping.mapSize_lt_of_small {size segmentSize : Nat}
    (positive : 0 < segmentSize)
    (small : size + segmentSize ≤ wordModulus) :
    Mapping.mapSize size segmentSize < wordModulus :=
  Nat.lt_of_lt_of_le (Mapping.mapSize_spec size segmentSize positive).2.1 small

/-- A readable and writable mapping of whole pages with one page a segment and
one mutex. -/
def Mapping.ofPages (pages : UInt16) (threadSafe : Bool) : Mapping where
  baseAddress := pageSize
  size := pageSize * (pages.toNat + 1)
  segmentSize := pageSize
  storageOffset := 0
  protection := ⟨true, true, false⟩
  threadSafe := threadSafe
  segmentMutexesCnt := 1
  size_pos := by
    unfold pageSize
    omega
  segmentSize_pos := by decide
  segmentSize_page := by decide
  segmentMutexesCnt_pos := by decide
  mapSize_lt := by
    have small := pages.toNat_lt
    refine Mapping.mapSize_lt_of_small (by decide) ?_
    unfold pageSize wordModulus
    omega

/-- A thread safe mapping of one page. -/
abbrev onePage : Mapping :=
  .ofPages 0 true

/-- A thread safe mapping of two pages. -/
abbrev twoPages : Mapping :=
  .ofPages 1 true

/-- Such a mapping with two pages a segment. -/
def Mapping.ofPagePairs (pages : UInt16) : Mapping :=
  { Mapping.ofPages pages true with
    segmentSize := 2 * pageSize
    segmentSize_pos := by decide
    segmentSize_page := by decide
    mapSize_lt := by
      have small := pages.toNat_lt
      refine Mapping.mapSize_lt_of_small (by decide) ?_
      change pageSize * (pages.toNat + 1) + 2 * pageSize ≤ wordModulus
      unfold pageSize wordModulus
      omega }

/-- A page that starts at the second page of the storage. -/
def Mapping.secondPage : Mapping :=
  { onePage with storageOffset := pageSize }

/-! ## Machine state -/

/-- What the machine records. -/
inductive Event : Type
  | load (thread offset : Nat) (value : Byte)
  | store (thread offset : Nat) (value : Byte)
  | pwrite (offset size : Nat)
  | sync (offset size : Nat)
  deriving DecidableEq

/-- The machine without the mutexes. -/
structure Core where
  /-- Status bits of each segment. -/
  status : Nat → SegmentStatus
  /-- Page protection of each segment. -/
  pages : Nat → Protection
  /-- Bytes of the mapped range. -/
  memory : Nat → Byte
  /-- Bytes of the storage object; positions past its end are zero. -/
  storage : Nat → Byte
  /-- Number of transfers asked from the driver so far. -/
  calls : Nat
  /-- Recorded events, the latest first. -/
  trace : List Event

/-- The machine: memory, storage and the owner of each segment mutex. -/
structure Machine where
  /-- Memory and storage. -/
  core : Core
  /-- The thread that holds each mutex. -/
  mutex : Nat → Option Nat

/-- State right after the constructor: no access, nothing mapped, and the first
read skipped when the creation flags ask for it. -/
def Core.initial (flags : CreationFlags) (storage : Nat → Byte) : Core where
  status := fun _ => ⟨false, false, !flags.noFirstRead⟩
  pages := fun _ => Protection.none
  memory := fun _ => 0
  storage := storage
  calls := 0
  trace := []

/-- The machine right after the constructor. -/
def Machine.initial (flags : CreationFlags) (storage : Nat → Byte) : Machine where
  core := .initial flags storage
  mutex := fun _ => none

namespace Core

/-- Assign the `mapped` bit of a segment. -/
@[simps] def setMapped (core : Core) (segmentId : Nat)
    (value : Bool) : Core :=
  { core with
    status := Function.update core.status segmentId
      { core.status segmentId with mapped := value } }

/-- Assign the `dirty` bit of a segment. -/
@[simps] def setDirty (core : Core) (segmentId : Nat)
    (value : Bool) : Core :=
  { core with
    status := Function.update core.status segmentId
      { core.status segmentId with dirty := value } }

/-- Assign the `needRead` bit of a segment. -/
@[simps] def setNeedRead (core : Core) (segmentId : Nat)
    (value : Bool) : Core :=
  { core with
    status := Function.update core.status segmentId
      { core.status segmentId with needRead := value } }

/-- `OS::mprotect` of one segment. -/
@[simps] def mprotect (core : Core) (segmentId : Nat)
    (protection : Protection) : Core :=
  { core with pages := Function.update core.pages segmentId protection }

/-- `OS::madviseDontNeed` of one segment: its pages become zero pages. -/
@[simps] def madviseDontNeed (core : Core) (mapping : Mapping)
    (segmentId : Nat) : Core :=
  { core with
    memory := blit core.memory (mapping.segmentSize * segmentId)
      mapping.segmentSize fun _ => 0 }

/-- `OS::mremapForced`: a private buffer and its protection replace a
segment. -/
@[simps] def mremapForced (core : Core) (mapping : Mapping) (segmentId : Nat)
    (buffer : Nat → Byte)
    (protection : Protection) : Core :=
  { core with
    memory := blit core.memory (mapping.segmentSize * segmentId)
      mapping.segmentSize buffer
    pages := Function.update core.pages segmentId protection }

/-- Bytes moved by a transfer that reports `result`. -/
def transferred (result : Int) (size : Nat) : Nat :=
  min result.toNat size

theorem transferred_self (size : Nat) : transferred size size = size := by
  unfold transferred
  rw [Int.toNat_natCast, Nat.min_self]

/-- `Driver::pread` into the mapped range. -/
@[simps] def pread (core : Core) (driver : Driver)
    (start size offset : Nat) : Core :=
  { core with
    memory := blit core.memory start
      (transferred (driver.preadResult core.calls size offset) size)
      fun position => core.storage (offset + position)
    calls := core.calls + 1 }

/-- `Driver::pread` into a private buffer: the buffer after the call. -/
def preadBuffer (core : Core) (driver : Driver) (buffer : Nat → Byte)
    (size offset : Nat) : Nat → Byte :=
  blit buffer 0 (transferred (driver.preadResult core.calls size offset) size)
    fun position => core.storage (offset + position)

/-- One more transfer was asked from the driver. -/
@[simps] def countCall (core : Core) : Core :=
  { core with calls := core.calls + 1 }

/-- The same contents after another number of transfers. -/
@[simps] def recount (core : Core) (calls : Nat) : Core :=
  { core with calls := calls }

/-- `Driver::pwrite` from the mapped range. -/
@[simps] def pwrite (core : Core) (driver : Driver)
    (start size offset : Nat) : Core :=
  { core with
    storage := blit core.storage offset
      (transferred (driver.pwriteResult core.calls size offset) size)
      fun position => core.memory (start + position)
    calls := core.calls + 1
    trace := .pwrite offset size :: core.trace }

/-- Add an event to the record. -/
@[simps] def record (core : Core) (event : Event) : Core :=
  { core with trace := event :: core.trace }

/-- A byte store that the page protection lets through. -/
@[simps] def store (core : Core) (thread offset : Nat)
    (value : Byte) : Core :=
  { core with
    memory := Function.update core.memory offset value
    trace := .store thread offset value :: core.trace }

end Core

/-! ## Atomic operations -/

/-- The atomic operations of a thread: system calls on one segment, driver
calls, assignments of status bits, mutex operations and single-byte accesses. -/
inductive MappingOp : Type
  | lock (mutexId : Nat)
  | unlock (mutexId : Nat)
  | getStatus (segmentId : Nat)
  | setMapped (segmentId : Nat) (value : Bool)
  | setDirty (segmentId : Nat) (value : Bool)
  | setNeedRead (segmentId : Nat) (value : Bool)
  | mprotect (segmentId : Nat) (protection : Protection)
  | madviseDontNeed (segmentId : Nat)
  | mremapForced (segmentId : Nat) (buffer : Nat → Byte) (protection : Protection)
  | pread (start size offset : Nat)
  | preadBuffer (buffer : Nat → Byte) (size offset : Nat)
  | pwrite (start size offset : Nat)
  | directMSync
  | sync (offset size : Nat)
  | load (offset : Nat)
  | store (offset : Nat) (value : Byte)

/-- Operations with the type of their results.  An access that raises a fault
answers `none` for a load and `false` for a store. -/
def mappingSignature : Signature where
  Op := MappingOp
  Result
    | .getStatus _ => SegmentStatus
    | .pread _ _ _ => Int
    | .preadBuffer _ _ _ => Int × (Nat → Byte)
    | .pwrite _ _ _ => Int
    | .directMSync => Bool
    | .load _ => Option Byte
    | .store _ _ => Bool
    | _ => Unit

/-- Effect of an operation of a thread on the machine. -/
def Mapping.handle (mapping : Mapping) (driver : Driver)
    (thread : Nat) : Handler mappingSignature Machine
  | .lock mutexId, state =>
      match state.mutex mutexId with
      | none => some ((), { state with
          mutex := Function.update state.mutex mutexId (some thread) })
      | some _ => none
  | .unlock mutexId, state =>
      some ((), { state with mutex := Function.update state.mutex mutexId none })
  | .getStatus segmentId, state => some (state.core.status segmentId, state)
  | .setMapped segmentId value, state =>
      some ((), { state with core := state.core.setMapped segmentId value })
  | .setDirty segmentId value, state =>
      some ((), { state with core := state.core.setDirty segmentId value })
  | .setNeedRead segmentId value, state =>
      some ((), { state with core := state.core.setNeedRead segmentId value })
  | .mprotect segmentId protection, state =>
      some ((), { state with core := state.core.mprotect segmentId protection })
  | .madviseDontNeed segmentId, state =>
      some ((), { state with
        core := state.core.madviseDontNeed mapping segmentId })
  | .mremapForced segmentId buffer protection, state =>
      some ((), { state with
        core := state.core.mremapForced mapping segmentId buffer protection })
  | .pread start size offset, state =>
      some (driver.preadResult state.core.calls size offset,
        { state with core := state.core.pread driver start size offset })
  | .preadBuffer buffer size offset, state =>
      some ((driver.preadResult state.core.calls size offset,
        state.core.preadBuffer driver buffer size offset),
        { state with core := state.core.countCall })
  | .pwrite start size offset, state =>
      some (driver.pwriteResult state.core.calls size offset,
        { state with core := state.core.pwrite driver start size offset })
  | .directMSync, state => some (driver.directMSync, state)
  | .sync offset size, state =>
      some ((), { state with core := state.core.record (.sync offset size) })
  | .load offset, state =>
      if (state.core.pages (offset / mapping.segmentSize)).read then
        some (some (state.core.memory offset), { state with
          core := state.core.record (.load thread offset (state.core.memory offset)) })
      else
        some (none, state)
  | .store offset value, state =>
      if (state.core.pages (offset / mapping.segmentSize)).write then
        some (true, { state with core := state.core.store thread offset value })
      else
        some (false, state)

end UmmapIo
