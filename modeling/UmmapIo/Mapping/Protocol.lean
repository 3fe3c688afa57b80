import UmmapIo.Lib.RelyGuarantee
import UmmapIo.Mapping.Frame

/-!
# The locking and protection protocol of a thread-safe mapping

Threads share a mapping under two rules.  The status bits, the page protection
and the storage of a segment only change under its mutex.  Its memory may also
change without the mutex, by stores, but only while its pages are writable.

While no thread holds the mutex of a segment, the segment is `Settled`: status,
protection, memory and storage agree.  A thread that holds the mutex may break
this agreement between two of its steps, but a readable segment always shows
what loads should return.
-/

namespace UmmapIo

section Protocol

variable (mapping : Mapping) (initial : Nat → Byte)

/-- The state of a segment that no operation is working on. -/
structure Settled (core : Core) (segmentId : Nat) : Prop where
  needRead : (core.status segmentId).needRead = true
  unmapped : (core.status segmentId).mapped = false →
    (core.pages segmentId).read = false ∧
      (core.pages segmentId).write = false ∧
      (core.status segmentId).dirty = false ∧
      StorageOk mapping initial core segmentId
  mapped : (core.status segmentId).mapped = true →
    (core.pages segmentId).read = true ∧
      MemoryOk mapping initial core segmentId
  clean : (core.status segmentId).mapped = true →
    (core.status segmentId).dirty = false →
      (core.pages segmentId).write = false ∧
        StorageOk mapping initial core segmentId

/-- What holds between any two steps of any threads. -/
structure ProtocolInv (state : Machine) : Prop where
  visible : ∀ segmentId, (state.core.pages segmentId).read = true →
    MemoryOk mapping initial state.core segmentId
  free : ∀ segmentId, state.mutex (mapping.mutexId segmentId) = none →
    Settled mapping initial state.core segmentId
  loads : LoadsCoherent mapping.size initial state.core.trace

/-- The changes a thread tolerates: what it holds a mutex for only changes by
stores to writable pages. -/
structure ProtocolRely (thread : Nat) (before after : Machine) : Prop where
  mutex : ∀ mutexId,
    before.mutex mutexId = some thread ↔ after.mutex mutexId = some thread
  status : ∀ segmentId,
    before.mutex (mapping.mutexId segmentId) = some thread →
      after.core.status segmentId = before.core.status segmentId
  pages : ∀ segmentId,
    before.mutex (mapping.mutexId segmentId) = some thread →
      after.core.pages segmentId = before.core.pages segmentId
  storage : ∀ segmentId,
    before.mutex (mapping.mutexId segmentId) = some thread →
      ∀ offset, offset < mapping.size →
        offset / mapping.segmentSize = segmentId →
          after.core.storage (mapping.storageOffset + offset) =
            before.core.storage (mapping.storageOffset + offset)
  memory : ∀ segmentId,
    before.mutex (mapping.mutexId segmentId) = some thread →
      MemoryOk mapping initial before.core segmentId →
        MemoryOk mapping initial after.core segmentId
  quiet : ∀ segmentId,
    before.mutex (mapping.mutexId segmentId) = some thread →
      (before.core.pages segmentId).write = false →
        ∀ offset, offset < mapping.size →
          offset / mapping.segmentSize = segmentId →
            expected initial after.core.trace offset =
              expected initial before.core.trace offset

variable {mapping initial} {core : Core}

/-- A thread tolerates that mutexes change hands between other threads. -/
theorem ProtocolRely.of_mutex (thread : Nat) {mutex mutex' : Nat → Option Nat}
    (same : ∀ mutexId, mutex mutexId = some thread ↔ mutex' mutexId = some thread) :
    ProtocolRely mapping initial thread ⟨core, mutex⟩ ⟨core, mutex'⟩ where
  mutex := same
  status := fun _ _ => rfl
  pages := fun _ _ => rfl
  storage := fun _ _ _ _ _ => rfl
  memory := fun _ _ contents => contents
  quiet := fun _ _ _ _ _ _ => rfl

theorem ProtocolRely.refl (thread : Nat) (state : Machine) :
    ProtocolRely mapping initial thread state state :=
  .of_mutex thread fun _ => Iff.rfl

variable {thread : Nat}

theorem ProtocolRely.trans {first second third : Machine}
    (before : ProtocolRely mapping initial thread first second)
    (after : ProtocolRely mapping initial thread second third) :
    ProtocolRely mapping initial thread first third where
  mutex := fun mutexId => (before.mutex mutexId).trans (after.mutex mutexId)
  status := fun segmentId held =>
    (after.status segmentId ((before.mutex _).mp held)).trans
      (before.status segmentId held)
  pages := fun segmentId held =>
    (after.pages segmentId ((before.mutex _).mp held)).trans
      (before.pages segmentId held)
  storage := fun segmentId held offset inside inSegment =>
    (after.storage segmentId ((before.mutex _).mp held) offset inside inSegment).trans
      (before.storage segmentId held offset inside inSegment)
  memory := fun segmentId held contents =>
    after.memory segmentId ((before.mutex _).mp held)
      (before.memory segmentId held contents)
  quiet := fun segmentId held readOnly offset inside inSegment => by
    have stillReadOnly : (second.core.pages segmentId).write = false := by
      rw [before.pages segmentId held]
      exact readOnly
    rw [after.quiet segmentId ((before.mutex _).mp held) stillReadOnly offset
        inside inSegment,
      before.quiet segmentId held readOnly offset inside inSegment]

variable (mapping initial)

/-- The protocol as a discipline for interleaved threads; between operations a
thread holds no mutex. -/
def protocol : Discipline Nat Machine where
  Inv := ProtocolInv mapping initial
  Rely := ProtocolRely mapping initial
  Idle := fun thread state => ∀ mutexId, state.mutex mutexId ≠ some thread
  rely_refl := ProtocolRely.refl
  rely_trans := fun _ _ _ _ => ProtocolRely.trans
  idle_stable := fun _ _ _ idle tolerated mutexId held =>
    idle mutexId ((tolerated.mutex mutexId).mpr held)

variable {mapping initial}

/-! ## Assertions of a thread -/

variable {segmentId : Nat} {before after : Machine}

/-- A clean storage of a held segment stays clean while its pages cannot be
written. -/
theorem StorageOk.stable
    (contents : StorageOk mapping initial before.core segmentId)
    (held : before.mutex (mapping.mutexId segmentId) = some thread)
    (readOnly : (before.core.pages segmentId).write = false)
    (tolerated : ProtocolRely mapping initial thread before after) :
    StorageOk mapping initial after.core segmentId := by
  intro offset inside inSegment
  rw [tolerated.storage segmentId held offset inside inSegment,
    tolerated.quiet segmentId held readOnly offset inside inSegment]
  exact contents offset inside inSegment

/-- A segment stays settled when its status and its protection stay, its memory
stays known, and its storage does while its pages cannot be written. -/
theorem Settled.carry {core' : Core}
    (settled : Settled mapping initial core segmentId)
    (sameStatus : core'.status segmentId = core.status segmentId)
    (samePages : core'.pages segmentId = core.pages segmentId)
    (memory : MemoryOk mapping initial core segmentId →
      MemoryOk mapping initial core' segmentId)
    (storage : (core.pages segmentId).write = false →
      StorageOk mapping initial core segmentId →
        StorageOk mapping initial core' segmentId) :
    Settled mapping initial core' segmentId := by
  constructor
  · rw [sameStatus]
    exact settled.needRead
  · rw [sameStatus, samePages]
    intro unmapped
    obtain ⟨noRead, noWrite, notDirty, contents⟩ := settled.unmapped unmapped
    exact ⟨noRead, noWrite, notDirty, storage noWrite contents⟩
  · rw [sameStatus, samePages]
    intro mapped
    obtain ⟨readable, contents⟩ := settled.mapped mapped
    exact ⟨readable, memory contents⟩
  · rw [sameStatus, samePages]
    intro mapped notDirty
    obtain ⟨noWrite, contents⟩ := settled.clean mapped notDirty
    exact ⟨noWrite, storage noWrite contents⟩

theorem Settled.stable
    (settled : Settled mapping initial before.core segmentId)
    (held : before.mutex (mapping.mutexId segmentId) = some thread)
    (tolerated : ProtocolRely mapping initial thread before after) :
    Settled mapping initial after.core segmentId :=
  settled.carry (tolerated.status segmentId held) (tolerated.pages segmentId held)
    (tolerated.memory segmentId held)
    fun noWrite contents => contents.stable held noWrite tolerated

variable (mapping initial)

/-- The thread holds exactly these mutexes and their segments are settled. -/
structure Locked (thread : Nat) (held : Nat → Prop)
    (state : Machine) : Prop where
  owner : ∀ mutexId, state.mutex mutexId = some thread ↔ held mutexId
  settled : ∀ segmentId, held (mapping.mutexId segmentId) →
    Settled mapping initial state.core segmentId

/-- The thread holds exactly these mutexes and is working on one of their
segments, whose status and protection it knows.  The two flags tell whether its
memory and its storage are known to hold what loads should return. -/
structure Working (thread : Nat) (held : Nat → Prop) (segmentId : Nat)
    (status : SegmentStatus) (protection : Protection) (memoryOk storageOk : Bool)
    (state : Machine) : Prop where
  owner : ∀ mutexId, state.mutex mutexId = some thread ↔ held mutexId
  holds : held (mapping.mutexId segmentId)
  others : ∀ other, other ≠ segmentId → held (mapping.mutexId other) →
    Settled mapping initial state.core other
  status_eq : state.core.status segmentId = status
  pages_eq : state.core.pages segmentId = protection
  memory : memoryOk = true → MemoryOk mapping initial state.core segmentId
  storage : storageOk = true → StorageOk mapping initial state.core segmentId

variable {mapping initial} {held : Nat → Prop}

theorem Locked.stable
    (locked : Locked mapping initial thread held before)
    (tolerated : ProtocolRely mapping initial thread before after) :
    Locked mapping initial thread held after where
  owner := fun mutexId =>
    (tolerated.mutex mutexId).symm.trans (locked.owner mutexId)
  settled := fun segmentId isHeld =>
    (locked.settled segmentId isHeld).stable ((locked.owner _).mpr isHeld) tolerated

variable {status : SegmentStatus} {protection : Protection} {memoryOk storageOk : Bool}

theorem Working.stable
    (working : Working mapping initial thread held segmentId status protection
      memoryOk storageOk before)
    (guarded : storageOk = true → protection.write = false)
    (tolerated : ProtocolRely mapping initial thread before after) :
    Working mapping initial thread held segmentId status protection
      memoryOk storageOk after := by
  have mine := (working.owner _).mpr working.holds
  constructor
  · intro mutexId
    exact (tolerated.mutex mutexId).symm.trans (working.owner mutexId)
  · exact working.holds
  · intro other different isHeld
    exact (working.others other different isHeld).stable
      ((working.owner _).mpr isHeld) tolerated
  · exact (tolerated.status segmentId mine).trans working.status_eq
  · exact (tolerated.pages segmentId mine).trans working.pages_eq
  · intro known
    exact tolerated.memory segmentId mine (working.memory known)
  · intro known
    have noWrite : (before.core.pages segmentId).write = false := by
      rw [working.pages_eq]
      exact guarded known
    exact (working.storage known).stable mine noWrite tolerated

variable {state : Machine}

/-- Begin to work on a held segment whose storage is guarded. -/
theorem Locked.working
    (locked : Locked mapping initial thread held state)
    (holds : held (mapping.mutexId segmentId))
    (status_eq : state.core.status segmentId = status) :
    Working mapping initial thread held segmentId status
      (state.core.pages segmentId) status.mapped (!status.dirty) state := by
  have settled := locked.settled segmentId holds
  rw [← status_eq]
  constructor
  · exact locked.owner
  · exact holds
  · intro other _ isHeld
    exact locked.settled other isHeld
  · rfl
  · rfl
  · intro mapped
    exact (settled.mapped mapped).2
  · intro clean
    have notDirty : (state.core.status segmentId).dirty = false := by
      simpa using clean
    cases mapped : (state.core.status segmentId).mapped with
    | false => exact (settled.unmapped mapped).2.2.2
    | true => exact (settled.clean mapped notDirty).2

/-- Stop working on a segment that is settled again. -/
theorem Working.locked
    (working : Working mapping initial thread held segmentId status protection
      memoryOk storageOk state)
    (settled : Settled mapping initial state.core segmentId) :
    Locked mapping initial thread held state where
  owner := working.owner
  settled := fun other isHeld => by
    by_cases same : other = segmentId
    · rw [same]
      exact settled
    · exact working.others other same isHeld

/-! ## Steps on a held segment -/

namespace OnlySegment

variable {segmentId : Nat} {before after : Core}

theorem settled
    (only : OnlySegment mapping initial segmentId before after)
    {other : Nat} (different : other ≠ segmentId)
    (settled : Settled mapping initial before other) :
    Settled mapping initial after other :=
  settled.carry (only.status other different) (only.pages other different)
    (only.memoryOk different) fun _ => only.storageOk different

/-- A step of the thread that holds the mutex, on that segment only, keeps the
invariant and is tolerated by the other threads. -/
theorem step {thread : Nat} {held : Nat → Prop} {status : SegmentStatus}
    {protection : Protection} {memoryOk storageOk : Bool} {state : Machine}
    (only : OnlySegment mapping initial segmentId state.core after)
    (working : Working mapping initial thread held segmentId status protection
      memoryOk storageOk state)
    (invariant : ProtocolInv mapping initial state)
    (visible : (after.pages segmentId).read = true →
      MemoryOk mapping initial after segmentId) :
    ProtocolInv mapping initial { state with core := after } ∧
      ∀ other, other ≠ thread →
        ProtocolRely mapping initial other state
          { state with core := after } := by
  have mine : state.mutex (mapping.mutexId segmentId) = some thread :=
    (working.owner _).mpr working.holds
  refine ⟨?_, ?_⟩
  · constructor
    · intro other readable
      by_cases same : other = segmentId
      · subst same
        exact visible readable
      · apply only.memoryOk same
        apply invariant.visible other
        rw [← only.pages other same]
        exact readable
    · intro other isFree
      have different : other ≠ segmentId := by
        intro same
        subst same
        rw [mine] at isFree
        cases isFree
      exact only.settled different (invariant.free other isFree)
    · exact only.loads invariant.loads
  · intro otherThread differentThread
    have different (other : Nat)
        (isHeld : state.mutex (mapping.mutexId other) = some otherThread) :
        other ≠ segmentId := by
      intro same
      subst same
      rw [mine, Option.some.injEq] at isHeld
      exact differentThread isHeld.symm
    constructor
    · exact fun _ => Iff.rfl
    · exact fun other isHeld => only.status other (different other isHeld)
    · exact fun other isHeld => only.pages other (different other isHeld)
    · intro other isHeld offset inside inSegment
      apply only.storage offset inside
      rw [inSegment]
      exact different other isHeld
    · exact fun other isHeld => only.memoryOk (different other isHeld)
    · intro other _ _ offset _ _
      exact congrFun only.record offset

end OnlySegment

end Protocol

end UmmapIo
