import UmmapIo.Mapping.Protocol

/-!
# The atomic operations under the protocol

One rule for each atomic operation: what a thread that is working on a segment
knows after the operation, whatever the other threads do before it.
-/

namespace UmmapIo

section Steps

variable {mapping : Mapping} {initial : Nat → Byte}

/-- What a thread knows of its segment after a step on it. -/
theorem Working.next {thread segmentId : Nat} {held : Nat → Prop}
    {status status' : SegmentStatus} {protection protection' : Protection}
    {memoryOk storageOk memoryOk' storageOk' : Bool} {state : Machine} {core' : Core}
    (working : Working mapping initial thread held segmentId status protection
      memoryOk storageOk state)
    (only : OnlySegment mapping initial segmentId state.core core')
    (newStatus : core'.status segmentId = status')
    (newPages : core'.pages segmentId = protection')
    (newMemory : memoryOk' = true → MemoryOk mapping initial core' segmentId)
    (newStorage : storageOk' = true →
      StorageOk mapping initial core' segmentId) :
    Working mapping initial thread held segmentId status' protection'
      memoryOk' storageOk' { state with core := core' } where
  owner := working.owner
  holds := working.holds
  others := fun other different isHeld =>
    only.settled different (working.others other different isHeld)
  status_eq := newStatus
  pages_eq := newPages
  memory := newMemory
  storage := newStorage

section Rules

variable
  {driver : Driver}
  {thread segmentId : Nat}
  {held : Nat → Prop}
  {status : SegmentStatus}
  {protection : Protection}
  {memoryOk storageOk : Bool}
  {state : Machine}

section

variable (working : Working mapping initial thread held segmentId status protection
  memoryOk storageOk state)
variable (guarded : storageOk = true → protection.write = false)
include working guarded

/-- The common shape of the rules below: an operation that answers at once and
changes one held segment. -/
theorem Working.safe_request {op : MappingOp}
    {post : mappingSignature.Result op → Machine → Prop}
    (result : Machine → mappingSignature.Result op)
    (effect : Core → Core)
    (answers : ∀ before, mapping.handle driver thread op before =
      some (result before, { before with core := effect before.core }))
    (only : ∀ core, OnlySegment mapping initial segmentId core (effect core))
    (acts : ∀ before,
      Working mapping initial thread held segmentId status protection
        memoryOk storageOk before →
      ProtocolInv mapping initial before →
        ((effect before.core).pages segmentId).read = true →
          MemoryOk mapping initial (effect before.core) segmentId)
    (reaches : ∀ before,
      Working mapping initial thread held segmentId status protection
        memoryOk storageOk before →
      ProtocolInv mapping initial before →
        post (result before) { before with core := effect before.core }) :
    (Program.request (E := mappingSignature) op).Safe
      (protocol mapping initial) (mapping.handle driver) thread post state := by
  refine Program.Safe.request _ working ?_ ?_
  · exact fun _ _ held tolerated => held.stable guarded tolerated
  · intro before current invariant given after answer
    rw [answers before] at answer
    obtain ⟨rfl, rfl⟩ := answer_inj answer
    obtain ⟨kept, others⟩ := (only before.core).step current invariant
      (acts before current invariant)
    exact ⟨kept, others, reaches before current invariant⟩

/-- The rule for the three flags of the status. -/
theorem Working.safe_setStatus {op : MappingOp} {result : mappingSignature.Result op}
    (change : SegmentStatus → SegmentStatus)
    (answers : ∀ before, mapping.handle driver thread op before =
      some (result, { before with core := { before.core with
        status := Function.update before.core.status segmentId
          (change (before.core.status segmentId)) } })) :
    (Program.request (E := mappingSignature) op).Safe (protocol mapping initial)
      (mapping.handle driver) thread
      (fun _ => Working mapping initial thread held segmentId (change status)
        protection memoryOk storageOk)
      state := by
  refine working.safe_request guarded (fun _ => result)
    (fun core => { core with
      status := Function.update core.status segmentId (change (core.status segmentId)) })
    answers (fun core => .setStatus core segmentId _) ?_ ?_
  · exact fun _ _ invariant readable => invariant.visible segmentId readable
  · intro before current _
    exact current.next (.setStatus before.core segmentId _)
      (by simp [current.status_eq]) current.pages_eq current.memory current.storage

theorem Working.safe_setMapped (value : Bool) :
    (Sys.setMapped segmentId value).Safe (protocol mapping initial)
      (mapping.handle driver) thread
      (fun _ => Working mapping initial thread held segmentId
        { status with mapped := value } protection memoryOk storageOk)
      state :=
  working.safe_setStatus guarded ({ · with mapped := value }) fun _ => rfl

theorem Working.safe_setDirty (value : Bool) :
    (Sys.setDirty segmentId value).Safe (protocol mapping initial)
      (mapping.handle driver) thread
      (fun _ => Working mapping initial thread held segmentId
        { status with dirty := value } protection memoryOk storageOk)
      state :=
  working.safe_setStatus guarded ({ · with dirty := value }) fun _ => rfl

theorem Working.safe_setNeedRead (value : Bool) :
    (Sys.setNeedRead segmentId value).Safe (protocol mapping initial)
      (mapping.handle driver) thread
      (fun _ => Working mapping initial thread held segmentId
        { status with needRead := value } protection memoryOk storageOk)
      state :=
  working.safe_setStatus guarded ({ · with needRead := value }) fun _ => rfl

/-- Pages may become readable only when the memory is known. -/
theorem Working.safe_mprotect (newProtection : Protection)
    (readable : newProtection.read = true → memoryOk = true) :
    (Sys.mprotect segmentId newProtection).Safe (protocol mapping initial)
      (mapping.handle driver) thread
      (fun _ => Working mapping initial thread held segmentId status
        newProtection memoryOk storageOk)
      state := by
  refine working.safe_request guarded (fun _ => ())
    (fun core => core.mprotect segmentId newProtection) (fun _ => rfl)
    (fun core => .mprotect core segmentId newProtection) ?_ ?_
  · intro before current _ opened
    simp only [Core.mprotect_pages, Function.update_self] at opened
    exact current.memory (readable opened)
  · intro before current _
    exact current.next (.mprotect before.core segmentId newProtection)
      current.status_eq (by simp) current.memory current.storage

/-- Pages are given back only when nobody can read them. -/
theorem Working.safe_madviseDontNeed (closed : protection.read = false) :
    (Sys.madviseDontNeed segmentId).Safe (protocol mapping initial)
      (mapping.handle driver) thread
      (fun _ => Working mapping initial thread held segmentId status
        protection false storageOk)
      state := by
  refine working.safe_request guarded (fun _ => ())
    (fun core => core.madviseDontNeed mapping segmentId) (fun _ => rfl)
    (fun core => .madviseDontNeed core segmentId) ?_ ?_
  · intro before current _ opened
    rw [Core.madviseDontNeed_pages, current.pages_eq, closed] at opened
    cases opened
  · intro before current _
    exact current.next (.madviseDontNeed before.core segmentId)
      current.status_eq current.pages_eq (fun absurdity => by cases absurdity)
      current.storage

end

/-- Writing back a segment whose memory is known makes its storage known. -/
theorem Working.safe_pwrite
    (working : Working mapping initial thread held segmentId status protection
      true storageOk state)
    (full : driver.Full)
    (readOnly : protection.write = false) :
    (Sys.pwrite (mapping.segmentSize * segmentId)
        (mapping.readWriteSize (mapping.segmentSize * segmentId))
        (mapping.storageOffset + mapping.segmentSize * segmentId)).Safe
      (protocol mapping initial) (mapping.handle driver) thread
      (fun _ => Working mapping initial thread held segmentId status
        protection true true)
      state := by
  refine working.safe_request (fun _ => readOnly)
    (fun before => driver.pwriteResult before.core.calls _ _)
    (fun core => core.pwrite driver _ _ _) (fun _ => rfl)
    (fun core => .pwrite core driver segmentId) ?_ ?_
  · intro before current invariant opened offset inside inSegment
    simp only [Core.pwrite_memory, Core.pwrite_trace, expected_pwrite]
    exact invariant.visible segmentId opened offset inside inSegment
  · intro before current _
    refine current.next (.pwrite before.core driver segmentId)
      current.status_eq current.pages_eq ?_ ?_
    · intro known offset inside inSegment
      simp only [Core.pwrite_memory, Core.pwrite_trace, expected_pwrite]
      exact current.memory known offset inside inSegment
    · intro _ offset inside inSegment
      have block := (div_eq_iff_block mapping.segmentSize_pos).mp inSegment
      have moved := (mapping.lt_readWriteSize_iff inSegment).mpr inside
      simp only [Core.pwrite_storage, Core.pwrite_trace, expected_pwrite,
        Core.transferred, (full before.core.calls _ _).2, Int.toNat_natCast,
        Nat.min_self]
      rw [blit_inside _ _ (by omega) (by omega)]
      rw [← current.memory rfl offset inside inSegment]
      congr 1
      omega

/-! ## Loading a segment through a private buffer -/

/-- The private buffer holds the storage bytes of the segment. -/
def BufferOk (mapping : Mapping) (segmentId : Nat) (buffer : Nat → Byte)
    (core : Core) : Prop :=
  ∀ offset, offset < mapping.size → offset / mapping.segmentSize = segmentId →
    buffer (offset - mapping.segmentSize * segmentId) =
      core.storage (mapping.storageOffset + offset)

/-- The buffer keeps matching the storage while the mutex is held. -/
theorem BufferOk.stable {buffer : Nat → Byte} {before after : Machine}
    (matching : BufferOk mapping segmentId buffer before.core)
    (isHeld : before.mutex (mapping.mutexId segmentId) = some thread)
    (tolerated : ProtocolRely mapping initial thread before after) :
    BufferOk mapping segmentId buffer after.core := by
  intro offset inside inSegment
  rw [tolerated.storage segmentId isHeld offset inside inSegment]
  exact matching offset inside inSegment

/-- A full read fills the buffer with the storage bytes of the segment. -/
theorem Working.safe_preadBuffer
    (working : Working mapping initial thread held segmentId status protection
      memoryOk storageOk state)
    (guarded : storageOk = true → protection.write = false)
    (full : driver.Full)
    (buffer : Nat → Byte) :
    (Sys.preadBuffer buffer (mapping.readWriteSize (mapping.segmentSize * segmentId))
        (mapping.storageOffset + mapping.segmentSize * segmentId)).Safe
      (protocol mapping initial) (mapping.handle driver) thread
      (fun answered current =>
        Working mapping initial thread held segmentId status protection
          memoryOk storageOk current ∧
        BufferOk mapping segmentId answered.2 current.core)
      state := by
  refine working.safe_request guarded
    (fun before => (driver.preadResult before.core.calls _ _,
      before.core.preadBuffer driver buffer _ _))
    (fun core => core.countCall) (fun _ => rfl)
    (fun core => .countCall core segmentId) ?_ ?_
  · exact fun _ _ invariant readable => invariant.visible segmentId readable
  · intro before current _
    refine ⟨current.next (.countCall before.core segmentId) current.status_eq
      current.pages_eq current.memory current.storage, ?_⟩
    intro offset inside inSegment
    have block := (div_eq_iff_block mapping.segmentSize_pos).mp inSegment
    have moved := (mapping.lt_readWriteSize_iff inSegment).mpr inside
    simp only [Core.preadBuffer, Core.transferred, (full before.core.calls _ _).1,
      Int.toNat_natCast, Nat.min_self, Core.countCall_storage]
    rw [blit_inside _ _ (by omega) (by omega)]
    congr 1
    omega

/-- Moving a matching buffer in place makes the memory known.  If the new pages
can be written then the storage is no longer known. -/
theorem Working.safe_mremapForced {buffer : Nat → Byte}
    (working : Working mapping initial thread held segmentId status protection
      memoryOk true state)
    (readOnly : protection.write = false)
    (matching : BufferOk mapping segmentId buffer state.core)
    (newProtection : Protection) :
    (Sys.mremapForced segmentId buffer newProtection).Safe
      (protocol mapping initial) (mapping.handle driver) thread
      (fun _ => Working mapping initial thread held segmentId status
        newProtection true (!newProtection.write))
      state := by
  refine Program.Safe.request
    (fun current =>
      Working mapping initial thread held segmentId status protection
        memoryOk true current ∧
      BufferOk mapping segmentId buffer current.core)
    ⟨working, matching⟩ ?_ ?_
  · rintro before after ⟨current, currentMatching⟩ tolerated
    exact ⟨current.stable (fun _ => readOnly) tolerated,
      currentMatching.stable ((current.owner _).mpr current.holds) tolerated⟩
  · rintro before ⟨current, currentMatching⟩ invariant answered after answer
    obtain ⟨rfl, rfl⟩ := answer_inj answer
    have moved : MemoryOk mapping initial
        (before.core.mremapForced mapping segmentId buffer newProtection)
        segmentId := by
      intro offset inside inSegment
      rw [Core.mremapForced_memory,
        blit_block _ _ mapping.segmentSize_pos inSegment,
        currentMatching offset inside inSegment]
      exact current.storage rfl offset inside inSegment
    obtain ⟨kept, others⟩ :=
      (OnlySegment.mremapForced before.core segmentId buffer
        newProtection).step current invariant fun _ => moved
    refine ⟨kept, others, ?_⟩
    exact current.next (.mremapForced before.core segmentId buffer newProtection)
      current.status_eq (by simp) (fun _ => moved) (fun _ => current.storage rfl)

/-! ## Mutexes -/

/-- Taking a mutex adds its settled segments to what the thread holds. -/
theorem Locked.safe_lock
    (locked : Locked mapping initial thread held state)
    (mutexId : Nat) :
    (Sys.lock mutexId).Safe (protocol mapping initial) (mapping.handle driver) thread
      (fun _ => Locked mapping initial thread
        (fun other => held other ∨ other = mutexId))
      state := by
  refine Program.Safe.request _ locked ?_ ?_
  · exact fun _ _ current tolerated => current.stable tolerated
  · intro before current invariant answered after answer
    have isFree : before.mutex mutexId = none := by
      cases owner : before.mutex mutexId with
      | none => rfl
      | some other => simp [Mapping.handle, owner] at answer
    have state_eq : after = { before with
        mutex := Function.update before.mutex mutexId (some thread) } := by
      simp only [Mapping.handle, isFree] at answer
      exact (answer_inj answer).2.symm
    subst state_eq
    refine ⟨?_, ?_, ?_⟩
    · refine ⟨invariant.visible, ?_, invariant.loads⟩
      intro other otherFree
      apply invariant.free other
      by_cases same : mapping.mutexId other = mutexId
      · rw [same]
        exact isFree
      · simpa [Function.update_of_ne same] using otherFree
    · refine fun otherThread different => .of_mutex otherThread fun other => ?_
      by_cases same : other = mutexId
      · subst same
        simp [isFree, Ne.symm different]
      · simp [Function.update_of_ne same]
    · constructor
      · intro other
        by_cases same : other = mutexId
        · subst same
          simp
        · simp only [Function.update_of_ne same, same, or_false]
          exact current.owner other
      · rintro other (isHeld | same)
        · exact current.settled other isHeld
        · apply invariant.free other
          rw [same]
          exact isFree

/-- Releasing a mutex requires its segments to be settled, which they are. -/
theorem Locked.safe_unlock
    (locked : Locked mapping initial thread held state)
    {mutexId : Nat} (isHeld : held mutexId) :
    (Sys.unlock mutexId).Safe (protocol mapping initial) (mapping.handle driver) thread
      (fun _ => Locked mapping initial thread
        (fun other => held other ∧ other ≠ mutexId))
      state := by
  refine Program.Safe.request _ locked ?_ ?_
  · exact fun _ _ current tolerated => current.stable tolerated
  · intro before current invariant answered after answer
    obtain ⟨rfl, rfl⟩ := answer_inj answer
    have mine := (current.owner mutexId).mpr isHeld
    refine ⟨?_, ?_, ?_⟩
    · refine ⟨invariant.visible, ?_, invariant.loads⟩
      intro other otherFree
      by_cases same : mapping.mutexId other = mutexId
      · apply current.settled other
        rw [same]
        exact isHeld
      · apply invariant.free other
        simpa [Function.update_of_ne same] using otherFree
    · refine fun otherThread different => .of_mutex otherThread fun other => ?_
      by_cases same : other = mutexId
      · subst same
        simp [mine, Ne.symm different]
      · simp [Function.update_of_ne same]
    · constructor
      · intro other
        by_cases same : other = mutexId
        · subst same
          simp
        · simp only [Function.update_of_ne same, same, not_false_eq_true,
            and_true, ne_eq]
          exact current.owner other
      · rintro other ⟨otherHeld, _⟩
        exact current.settled other otherHeld

/-- What the status and the protection of a settled segment say about each
other. -/
structure Observed (status : SegmentStatus)
    (protection : Protection) : Prop where
  needRead : status.needRead = true
  unmapped : status.mapped = false →
    protection.read = false ∧ protection.write = false ∧ status.dirty = false
  guarded : status.dirty = false → protection.write = false

/-- Reading the status of a held segment, about which something is known. -/
theorem Locked.safe_getStatus (known : SegmentStatus → Prop)
    (locked : Locked mapping initial thread held state)
    (holds : held (mapping.mutexId segmentId))
    (knows : known (state.core.status segmentId)) :
    (Sys.getStatus segmentId).Safe (protocol mapping initial)
      (mapping.handle driver) thread
      (fun answered current => known answered ∧
        Locked mapping initial thread held current ∧
        ∃ observed, Observed answered observed ∧
          Working mapping initial thread held segmentId answered observed
            answered.mapped (!answered.dirty) current)
      state := by
  refine Program.Safe.request
    (fun current => Locked mapping initial thread held current ∧
      known (current.core.status segmentId)) ⟨locked, knows⟩ ?_ ?_
  · rintro before after ⟨current, currentKnows⟩ tolerated
    have mine := (current.owner _).mpr holds
    refine ⟨current.stable tolerated, ?_⟩
    rw [tolerated.status segmentId mine]
    exact currentKnows
  · rintro before ⟨current, currentKnows⟩ invariant answered after answer
    obtain ⟨rfl, rfl⟩ := answer_inj answer
    have settled := current.settled segmentId holds
    refine ⟨invariant, fun other _ => ProtocolRely.refl other before,
      currentKnows, current, before.core.pages segmentId, ?_,
      current.working holds rfl⟩
    constructor
    · exact settled.needRead
    · intro unmapped
      obtain ⟨noRead, noWrite, notDirty, _⟩ := settled.unmapped unmapped
      exact ⟨noRead, noWrite, notDirty⟩
    · intro notDirty
      cases mapped : (before.core.status segmentId).mapped with
      | false => exact (settled.unmapped mapped).2.1
      | true => exact (settled.clean mapped notDirty).1

/-- Asking the driver whether it maps the storage directly. -/
theorem Locked.safe_directMSync
    (locked : Locked mapping initial thread held state) :
    Sys.directMSync.Safe (protocol mapping initial) (mapping.handle driver) thread
      (fun _ => Locked mapping initial thread held) state := by
  refine Program.Safe.request _ locked ?_ ?_
  · exact fun _ _ current tolerated => current.stable tolerated
  · intro before current invariant answered after answer
    obtain ⟨rfl, rfl⟩ := answer_inj answer
    exact ⟨invariant, fun other _ => ProtocolRely.refl other before, current⟩

/-! ## Accesses and other recorded events -/

/-- Recording an event that does not change what loads should return. -/
theorem ProtocolInv.record {event : Event}
    (invariant : ProtocolInv mapping initial state)
    (same : expected initial (event :: state.core.trace) =
      expected initial state.core.trace)
    (coherent : LoadsCoherent mapping.size initial (event :: state.core.trace)) :
    ProtocolInv mapping initial
        { state with core := state.core.record event } ∧
      ∀ other, ProtocolRely mapping initial other state
        { state with core := state.core.record event } := by
  have memoryOk (other : Nat) (contents : MemoryOk mapping initial state.core other) :
      MemoryOk mapping initial (state.core.record event) other := by
    intro offset inside inSegment
    rw [Core.record_trace, same]
    exact contents offset inside inSegment
  have storageOk (other : Nat) (contents : StorageOk mapping initial state.core other) :
      StorageOk mapping initial (state.core.record event) other := by
    intro offset inside inSegment
    rw [Core.record_trace, same]
    exact contents offset inside inSegment
  refine ⟨⟨?_, ?_, coherent⟩, ?_⟩
  · exact fun other readable => memoryOk other (invariant.visible other readable)
  · exact fun other isFree => (invariant.free other isFree).carry rfl rfl
      (memoryOk other) fun _ => storageOk other
  · intro other
    constructor
    · exact fun _ => Iff.rfl
    · exact fun _ _ => rfl
    · exact fun _ _ => rfl
    · exact fun _ _ _ _ _ => rfl
    · exact fun segment _ contents => memoryOk segment contents
    · exact fun _ _ _ offset _ _ => congrFun same offset

theorem Locked.safe_sync
    (locked : Locked mapping initial thread held state)
    (offset size : Nat) :
    (Sys.sync offset size).Safe (protocol mapping initial)
      (mapping.handle driver) thread
      (fun _ => Locked mapping initial thread held) state := by
  refine Program.Safe.request _ locked ?_ ?_
  · exact fun _ _ current tolerated => current.stable tolerated
  · intro before current invariant answered after answer
    obtain ⟨rfl, rfl⟩ := answer_inj answer
    obtain ⟨kept, tolerated⟩ := invariant.record
      (expected_sync initial offset size before.core.trace)
      (invariant.loads.cons_other fun _ _ _ => Event.noConfusion)
    exact ⟨kept, fun other _ => tolerated other,
      current.stable (tolerated thread)⟩

/-- A load attempt: if the pages are readable, it returns what it should. -/
theorem safe_load
    (idle : (protocol mapping initial).Idle thread state)
    (offset : Nat) :
    (Sys.load offset).Safe (protocol mapping initial) (mapping.handle driver) thread
      (fun _ => (protocol mapping initial).Idle thread) state := by
  refine Program.Safe.request _ idle ?_ ?_
  · exact (protocol mapping initial).idle_stable thread
  · intro before current invariant answered after answer
    cases opened : (before.core.pages (offset / mapping.segmentSize)).read with
    | false =>
        simp only [Mapping.handle, opened] at answer
        obtain ⟨rfl, rfl⟩ := answer_inj answer
        exact ⟨invariant, fun other _ => ProtocolRely.refl other before,
          current⟩
    | true =>
        simp only [Mapping.handle, opened, if_true] at answer
        obtain ⟨rfl, rfl⟩ := answer_inj answer
        have returned := invariant.visible _ opened
        obtain ⟨kept, tolerated⟩ := invariant.record
          (expected_load initial thread offset (before.core.memory offset)
            before.core.trace)
          (invariant.loads.cons_load fun inside => returned offset inside rfl)
        exact ⟨kept, fun other _ => tolerated other, current⟩

/-- A store attempt: if the pages are writable, no thread expects the segment
to be clean. -/
theorem safe_store
    (idle : (protocol mapping initial).Idle thread state)
    (offset : Nat) (value : Byte) :
    (Sys.store offset value).Safe (protocol mapping initial)
      (mapping.handle driver) thread
      (fun _ => (protocol mapping initial).Idle thread) state := by
  refine Program.Safe.request _ idle ?_ ?_
  · exact (protocol mapping initial).idle_stable thread
  · intro before current invariant answered after answer
    cases opened : (before.core.pages (offset / mapping.segmentSize)).write with
    | false =>
        simp only [Mapping.handle, opened] at answer
        obtain ⟨rfl, rfl⟩ := answer_inj answer
        exact ⟨invariant, fun other _ => ProtocolRely.refl other before,
          current⟩
    | true =>
        simp only [Mapping.handle, opened, if_true] at answer
        obtain ⟨rfl, rfl⟩ := answer_inj answer
        have elsewhere (other : Nat)
            (noWrite : (before.core.pages other).write = false) :
            offset / mapping.segmentSize ≠ other := by
          intro same
          rw [same, noWrite] at opened
          cases opened
        refine ⟨⟨?_, ?_, ?_⟩, ?_, current⟩
        · exact fun other readable =>
            (invariant.visible other readable).store offset value
        · exact fun other isFree => (invariant.free other isFree).carry rfl rfl
            (fun contents => contents.store offset value)
            fun noWrite contents => contents.store (elsewhere other noWrite) value
        · exact invariant.loads.cons_other fun _ _ _ => Event.noConfusion
        · intro otherThread _
          constructor
          · exact fun _ => Iff.rfl
          · exact fun _ _ => rfl
          · exact fun _ _ => rfl
          · exact fun _ _ _ _ _ => rfl
          · exact fun _ _ contents => contents.store offset value
          · intro other _ noWrite position _ inSegment
            have distinct : position ≠ offset := by
              intro same
              subst same
              exact elsewhere other noWrite inSegment
            simp only [Core.store_trace, expected_store,
              Function.update_of_ne distinct]

end Rules

end Steps

end UmmapIo
