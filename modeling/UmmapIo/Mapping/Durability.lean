import UmmapIo.Handler.Defs
import UmmapIo.Mapping.Coherence
import UmmapIo.Mapping.Syncing

/-!
# What a flush leaves in the storage

A flush brings the dirty segments of its range into the storage and touches no
other byte of it.  Over a whole run only the bytes behind the mapped data are
ever written, and after the flush made when a mapping is destroyed the storage
holds the last store to every offset.
-/

namespace UmmapIo

section Durability

variable {mapping : Mapping} {driver : Driver} {core : Core} {segmentId : Nat}

/-! ## Storage and record after each part -/

theorem Core.fault_trace (isWrite : Bool) :
    (core.fault mapping driver segmentId isWrite).trace = core.trace := by
  unfold fault openSegment loadAndSwapSegment
  split
  · rfl
  · split
    · split <;> cases isWrite <;> rfl
    · cases isWrite <;> rfl

/-- Whether a position of the storage is behind a segment. -/
def Mapping.Behind (mapping : Mapping) (segmentId position : Nat) : Prop :=
  mapping.storageOffset + mapping.segmentSize * segmentId ≤ position ∧
    position < mapping.storageOffset +
      min (mapping.segmentSize * segmentId + mapping.segmentSize) mapping.size

instance (mapping : Mapping) (segmentId position : Nat) :
    Decidable (mapping.Behind segmentId position) :=
  inferInstanceAs (Decidable (_ ∧ _))

variable {position : Nat}

/-- The bytes behind a segment are those that a transfer of it moves. -/
theorem Mapping.behind_iff (exists_ : segmentId < mapping.segments) :
    mapping.Behind segmentId position ↔
      mapping.storageOffset + mapping.segmentSize * segmentId ≤ position ∧
        position < mapping.storageOffset + mapping.segmentSize * segmentId +
          mapping.readWriteSize (mapping.segmentSize * segmentId) := by
  have starts := (mapping.lt_segments_iff segmentId).mp exists_
  unfold Behind readWriteSize
  split <;> omega

theorem Core.release_storage (unmap : Bool) :
    (core.release mapping segmentId unmap).storage = core.storage := by
  unfold release unmapSegment
  split
  · split
    · rfl
    · split <;> rfl
  · rfl

theorem Core.release_trace (unmap : Bool) :
    (core.release mapping segmentId unmap).trace = core.trace := by
  unfold release unmapSegment
  split
  · split
    · rfl
    · split <;> rfl
  · rfl

/-- A segment that is not dirty is not written back. -/
theorem Core.writeBack_clean
    (clean : (core.status segmentId).dirty = false) :
    core.writeBack mapping driver segmentId = core := by
  simp [writeBack, clean]

/-- A write-back of a dirty segment is one transfer. -/
theorem Core.writeBack_storage
    (dirty : (core.status segmentId).dirty = true)
    (mapped : (core.status segmentId).mapped = true) :
    (core.writeBack mapping driver segmentId).storage =
      (core.pwriteSegment mapping driver segmentId).storage := by
  unfold writeBack
  rw [dirty, mapped]
  cases mapping.threadSafe <;> rfl

theorem Core.writeBack_trace
    (dirty : (core.status segmentId).dirty = true)
    (mapped : (core.status segmentId).mapped = true) :
    (core.writeBack mapping driver segmentId).trace =
      .pwrite (mapping.storageOffset + mapping.segmentSize * segmentId)
        (mapping.readWriteSize (mapping.segmentSize * segmentId)) ::
          core.trace := by
  unfold writeBack
  rw [dirty, mapped]
  cases mapping.threadSafe <;> rfl

/-- A transfer of a segment writes no byte that is not behind it. -/
theorem Core.pwriteSegment_elsewhere (exists_ : segmentId < mapping.segments)
    (elsewhere : ¬mapping.Behind segmentId position) :
    (core.pwriteSegment mapping driver segmentId).storage position =
      core.storage position := by
  rw [Mapping.behind_iff exists_] at elsewhere
  unfold pwriteSegment
  rw [Core.pwrite_storage]
  unfold Core.transferred
  apply blit_outside
  omega

/-- A full transfer of a segment writes the bytes behind it. -/
theorem Core.pwriteSegment_behind (full : driver.Full)
    (exists_ : segmentId < mapping.segments)
    (behind : mapping.Behind segmentId position) :
    (core.pwriteSegment mapping driver segmentId).storage position =
      core.memory (position - mapping.storageOffset) := by
  rw [Mapping.behind_iff exists_] at behind
  unfold pwriteSegment
  rw [Core.pwrite_storage]
  unfold Core.transferred
  rw [(full _ _ _).2, Int.toNat_natCast, Nat.min_self,
    blit_inside _ _ behind.1 behind.2]
  congr 1
  omega

/-- One turn of a flush writes no byte that is not behind a dirty segment. -/
theorem Core.flushSegment_elsewhere
    (own : (core.status segmentId).dirty = true →
      (core.status segmentId).mapped = true ∧ segmentId < mapping.segments)
    (unmap : Bool)
    (elsewhere : (core.status segmentId).dirty = true →
      ¬mapping.Behind segmentId position) :
    (core.flushSegment mapping driver unmap segmentId).storage position =
      core.storage position := by
  unfold Core.flushSegment
  rw [Core.release_storage]
  cases dirty : (core.status segmentId).dirty with
  | false => rw [Core.writeBack_clean dirty]
  | true =>
      obtain ⟨mapped, exists_⟩ := own dirty
      rw [Core.writeBack_storage dirty mapped]
      exact Core.pwriteSegment_elsewhere exists_ (elsewhere dirty)

/-- One turn of a flush writes the bytes behind a dirty segment. -/
theorem Core.flushSegment_behind (full : driver.Full)
    (dirty : (core.status segmentId).dirty = true)
    (mapped : (core.status segmentId).mapped = true)
    (exists_ : segmentId < mapping.segments) (unmap : Bool)
    (behind : mapping.Behind segmentId position) :
    (core.flushSegment mapping driver unmap segmentId).storage position =
      core.memory (position - mapping.storageOffset) := by
  unfold Core.flushSegment
  rw [Core.release_storage, Core.writeBack_storage dirty mapped]
  exact Core.pwriteSegment_behind full exists_ behind

/-- One turn of a flush brings the bytes of a dirty segment that the driver moves into
the storage. -/
theorem Core.flushSegment_moved {offset : Nat}
    (dirty : (core.status segmentId).dirty = true)
    (mapped : (core.status segmentId).mapped = true)
    (inSegment : offset / mapping.segmentSize = segmentId)
    (unmap : Bool) :
    (core.flushSegment mapping driver unmap segmentId).storage
        (mapping.storageOffset + offset) =
      if offset < mapping.segmentSize * segmentId +
          mapping.bytesWritten driver core.calls segmentId then
        core.memory offset
      else core.storage (mapping.storageOffset + offset) := by
  unfold Core.flushSegment
  rw [Core.release_storage, Core.writeBack_storage dirty mapped,
    Core.pwriteSegment_storage inSegment]

/-- Transfers to the storage do not change the last stores. -/
theorem lastStore_append_of_pwrites {events earlier : List Event}
    (transfers : ∀ event ∈ events, ∃ offset size, event = .pwrite offset size) :
    lastStore (events ++ earlier) = lastStore earlier := by
  induction events with
  | nil => rfl
  | cons first rest inductionHypothesis =>
      obtain ⟨offset, size, rfl⟩ := transfers first List.mem_cons_self
      rw [List.cons_append, lastStore_pwrite]
      exact inductionHypothesis fun event member =>
        transfers event (List.mem_cons_of_mem _ member)

/-! ## Invariants of the storage over runs -/

/-- What holds of the storage in every state of a run that began with this
storage. -/
structure Footprint (mapping : Mapping) (storage : Nat → Byte)
    (core : Core) : Prop where
  inside : ∀ segmentId, (core.status segmentId).mapped = true →
    segmentId < mapping.segments
  mapped : ∀ segmentId, (core.status segmentId).dirty = true →
    (core.status segmentId).mapped = true
  writable : ∀ segmentId, (core.pages segmentId).write = true →
    (core.status segmentId).dirty = true
  outside : ∀ position, position < mapping.storageOffset ∨
      mapping.storageOffset + mapping.size ≤ position →
    core.storage position = storage position
  writes : ∀ offset size, Event.pwrite offset size ∈ core.trace →
    mapping.storageOffset ≤ offset ∧
      offset + size ≤ mapping.storageOffset + mapping.size
  tracked : ∀ offset value, lastStore core.trace offset = some value →
    (core.status (offset / mapping.segmentSize)).dirty = true ∨
      (core.status (offset / mapping.segmentSize)).needRead = true

namespace Footprint

variable {storage : Nat → Byte}

section

variable (footprint : Footprint mapping storage core)
include footprint

/-- A dirty segment is mapped and exists. -/
theorem own (segmentId : Nat)
    (dirty : (core.status segmentId).dirty = true) :
    (core.status segmentId).mapped = true ∧ segmentId < mapping.segments :=
  ⟨footprint.mapped segmentId dirty,
    footprint.inside segmentId (footprint.mapped segmentId dirty)⟩

/-- A change of one segment that the invariants allow. -/
theorem of_onlySegment {after : Core}
    (only : OnlySegment mapping (fun _ => 0) segmentId core after)
    (inside : (after.status segmentId).mapped = true →
      segmentId < mapping.segments)
    (mapped : (after.status segmentId).dirty = true →
      (after.status segmentId).mapped = true)
    (writable : (after.pages segmentId).write = true →
      (after.status segmentId).dirty = true)
    (outside : ∀ position, position < mapping.storageOffset ∨
        mapping.storageOffset + mapping.size ≤ position →
      after.storage position = core.storage position)
    (writes : ∀ offset size, Event.pwrite offset size ∈ after.trace →
      Event.pwrite offset size ∈ core.trace ∨
        mapping.storageOffset ≤ offset ∧
          offset + size ≤ mapping.storageOffset + mapping.size)
    (stores : lastStore after.trace = lastStore core.trace)
    (tracked : (core.status segmentId).dirty = true ∨
        (core.status segmentId).needRead = true →
      (after.status segmentId).dirty = true ∨
        (after.status segmentId).needRead = true) :
    Footprint mapping storage after := by
  constructor
  · intro other isMapped
    by_cases same : other = segmentId
    · rw [same] at isMapped ⊢
      exact inside isMapped
    · rw [only.status other same] at isMapped
      exact footprint.inside other isMapped
  · intro other dirty
    by_cases same : other = segmentId
    · rw [same] at dirty ⊢
      exact mapped dirty
    · rw [only.status other same] at dirty ⊢
      exact footprint.mapped other dirty
  · intro other opened
    by_cases same : other = segmentId
    · rw [same] at opened ⊢
      exact writable opened
    · rw [only.pages other same] at opened
      rw [only.status other same]
      exact footprint.writable other opened
  · intro position far
    rw [outside position far]
    exact footprint.outside position far
  · intro offset size event
    obtain earlier | bounded := writes offset size event
    · exact footprint.writes offset size earlier
    · exact bounded
  · intro offset value stored
    rw [stores] at stored
    have known := footprint.tracked offset value stored
    by_cases same : offset / mapping.segmentSize = segmentId
    · rw [same] at known ⊢
      exact tracked known
    · rw [only.status _ same]
      exact known

theorem fault (exists_ : segmentId < mapping.segments) (isWrite : Bool) :
    Footprint mapping storage (core.fault mapping driver segmentId isWrite) := by
  apply footprint.of_onlySegment (OnlySegment.fault core segmentId isWrite)
  · exact fun _ => exists_
  · rw [Core.fault_status]
    split
    · exact footprint.mapped segmentId
    · exact fun _ => rfl
  · rw [Core.fault_status, Core.fault_pages]
    split
    · exact footprint.writable segmentId
    · cases isWrite with
      | true => exact fun _ => rfl
      | false => exact fun absurdity => nomatch absurdity
  · intro position _
    rw [Core.fault_storage]
  · intro offset size event
    rw [Core.fault_trace] at event
    exact Or.inl event
  · rw [Core.fault_trace]
  · rw [Core.fault_status]
    split
    · exact id
    · rintro (dirty | needRead)
      · exact Or.inl (by simp [dirty])
      · exact Or.inr needRead

/-- One turn of a flush records at most one transfer, within the mapped data. -/
theorem flushSegment_trace (unmap : Bool) :
    ∃ events : List Event,
      (core.flushSegment mapping driver unmap segmentId).trace =
        events ++ core.trace ∧
      ∀ event ∈ events, ∃ offset size, event = .pwrite offset size ∧
        mapping.storageOffset ≤ offset ∧
        offset + size ≤ mapping.storageOffset + mapping.size := by
  unfold Core.flushSegment
  rw [Core.release_trace]
  cases dirty : (core.status segmentId).dirty with
  | false =>
      rw [Core.writeBack_clean dirty]
      exact ⟨[], rfl, fun _ absurdity => nomatch absurdity⟩
  | true =>
      have mapped := footprint.mapped segmentId dirty
      have starts := (mapping.lt_segments_iff segmentId).mp
        (footprint.inside segmentId mapped)
      have bounded := mapping.add_readWriteSize_le starts
      refine ⟨[_], Core.writeBack_trace dirty mapped, ?_⟩
      intro event member
      rw [List.mem_singleton] at member
      exact ⟨_, _, member, by omega, by omega⟩

/-- After one turn of a flush the segment cannot be written. -/
theorem flushSegment_pages (unmap : Bool) (segmentId : Nat) :
    ((core.flushSegment mapping driver unmap segmentId).pages
      segmentId).write = false := by
  have clean : (core.status segmentId).dirty = false →
      (core.pages segmentId).write = false := by
    intro notDirty
    by_contra opened
    rw [footprint.writable segmentId (by simpa using opened)] at notDirty
    cases notDirty
  unfold Core.flushSegment
  rw [Core.release_pages, Core.writeBack_pages, Core.writeBack_status]
  cases dirty : (core.status segmentId).dirty with
  | false =>
      cases (core.status segmentId).mapped <;> cases unmap <;>
        cases mapping.threadSafe <;> simp [clean dirty]
  | true =>
      rw [footprint.mapped segmentId dirty]
      cases unmap <;> cases mapping.threadSafe <;> simp

/-- A write-back of an existing segment stays within the mapped data. -/
theorem flushSegment (unmap : Bool) (segmentId : Nat) :
    Footprint mapping storage (core.flushSegment mapping driver unmap segmentId) := by
  have status : (core.flushSegment mapping driver unmap segmentId).status
      segmentId = ⟨(core.status segmentId).mapped && !unmap, false,
        (core.status segmentId).needRead || (core.status segmentId).dirty⟩ := by
    unfold Core.flushSegment
    rw [Core.release_status, Core.writeBack_status]
    cases dirty : (core.status segmentId).dirty with
    | false => simp
    | true => simp [footprint.mapped segmentId dirty]
  obtain ⟨events, recorded, transfers⟩ : ∃ events : List Event,
      (core.flushSegment mapping driver unmap segmentId).trace =
        events ++ core.trace ∧ _ := footprint.flushSegment_trace unmap
  apply footprint.of_onlySegment (OnlySegment.flushSegment core segmentId unmap)
  · rw [status]
    intro isMapped
    rw [Bool.and_eq_true] at isMapped
    exact footprint.inside segmentId isMapped.1
  · rw [status]
    intro absurdity
    cases absurdity
  · rw [status]
    intro opened
    rw [footprint.flushSegment_pages] at opened
    cases opened
  · intro position far
    apply Core.flushSegment_elsewhere (footprint.own segmentId)
    intro _ behind
    unfold Mapping.Behind at behind
    omega
  · intro offset size event
    rw [recorded, List.mem_append] at event
    obtain new | earlier := event
    · obtain ⟨_, _, same, bounded⟩ := transfers _ new
      cases same
      exact Or.inr bounded
    · exact Or.inl earlier
  · rw [recorded]
    exact lastStore_append_of_pwrites fun event new => by
      obtain ⟨offset, size, same, _⟩ := transfers event new
      exact ⟨offset, size, same⟩
  · rw [status]
    rintro (dirty | needRead)
    · exact Or.inr (by simp [dirty])
    · exact Or.inr (by simp [needRead])

theorem dropSegment (segmentId : Nat) :
    Footprint mapping storage (core.dropSegment mapping segmentId) := by
  have only : OnlySegment mapping (fun _ => 0) segmentId core
      (core.dropSegment mapping segmentId) :=
    OnlySegment.dropSegment core segmentId
  unfold Core.dropSegment Core.unmapSegment at only ⊢
  split
  · rename_i mappedClean
    rw [if_pos mappedClean] at only
    rw [Bool.and_eq_true, Bool.not_eq_true'] at mappedClean
    apply footprint.of_onlySegment only
    · simp
    · simp [mappedClean.2]
    · simp
    · exact fun _ _ => rfl
    · exact fun _ _ event => Or.inl event
    · rfl
    · simp
  · exact footprint

theorem markSegment (segmentId : Nat) :
    Footprint mapping storage (core.markSegment mapping segmentId) := by
  have only : OnlySegment mapping (fun _ => 0) segmentId core
      (core.markSegment mapping segmentId) :=
    OnlySegment.markSegment core segmentId
  unfold Core.markSegment at only ⊢
  split
  · rename_i condition
    rw [if_pos condition] at only
    simp only [Bool.and_eq_true] at condition
    have mapped := condition.1.1
    apply footprint.of_onlySegment only
    · exact fun _ => footprint.inside segmentId mapped
    · simp [mapped]
    · simp
    · exact fun _ _ => rfl
    · exact fun _ _ event => Or.inl event
    · rfl
    · simp
  · exact footprint

/-- Recording an access or a synchronisation. -/
theorem record {event : Event}
    (notTransfer : ∀ offset size, event ≠ .pwrite offset size)
    (notStore : lastStore (event :: core.trace) = lastStore core.trace) :
    Footprint mapping storage (core.record event) := by
  refine ⟨footprint.inside, footprint.mapped, footprint.writable,
    footprint.outside, ?_, ?_⟩
  · intro offset size member
    rw [Core.record_trace, List.mem_cons] at member
    exact footprint.writes offset size
      (member.resolve_left fun same => notTransfer offset size same.symm)
  · rw [Core.record_trace, notStore]
    exact footprint.tracked

theorem store {offset : Nat}
    (dirty : (core.status (offset / mapping.segmentSize)).dirty = true)
    (thread : Nat) (value : Byte) :
    Footprint mapping storage (core.store thread offset value) := by
  refine ⟨footprint.inside, footprint.mapped, footprint.writable,
    footprint.outside, ?_, ?_⟩
  · intro position size member
    rw [Core.store_trace, List.mem_cons] at member
    exact footprint.writes position size (member.resolve_left Event.noConfusion)
  · intro position last stored
    rw [Core.store_trace, lastStore_store] at stored
    by_cases same : offset = position
    · rw [← same]
      exact Or.inl dirty
    · rw [if_neg same] at stored
      exact footprint.tracked position last stored

end

/-- Every part of the operations keeps the invariants of the storage. -/
theorem preserved :
    Preserved mapping driver (fun _ segmentId _ => segmentId < mapping.segments)
      (Footprint mapping storage) where
  fault := fun exists_ footprint => footprint.fault exists_ _
  flushSegment := fun unmap segmentId footprint =>
    footprint.flushSegment unmap segmentId
  dropSegment := fun segmentId footprint => footprint.dropSegment segmentId
  markSegment := fun segmentId footprint => footprint.markSegment segmentId
  load := fun _ _ _ footprint =>
    footprint.record (fun _ _ => Event.noConfusion) (lastStore_load _ _ _ _)
  sync := fun _ _ footprint =>
    footprint.record (fun _ _ => Event.noConfusion) (lastStore_sync _ _ _)
  store := fun thread _ value opened footprint =>
    footprint.store (footprint.writable _ opened) thread value

/-- The number of transfers does not matter. -/
theorem recount
    (footprint : Footprint mapping storage core)
    (calls : Nat) :
    Footprint mapping storage (core.recount calls) :=
  ⟨footprint.inside, footprint.mapped, footprint.writable, footprint.outside,
    footprint.writes, footprint.tracked⟩

/-- Every accepted call keeps the invariants of the storage. -/
theorem call {call : Call}
    (footprint : Footprint mapping storage core)
    (accepted : call.Accepted mapping) (attempts thread : Nat) :
    Footprint mapping storage (core.call mapping driver attempts thread call).2 := by
  refine preserved.call_of_allows footprint ?_ attempts thread
  cases call with
  | load offset =>
      exact fun _ _ _ => (mapping.lt_getAlignedSize_iff offset).mp accepted.1
  | store offset value =>
      exact fun _ _ => (mapping.lt_getAlignedSize_iff offset).mp accepted.1
  | fault address isWrite =>
      exact fun _ _ => accepted.fault_lt_segments
  | _ => trivial

theorem of_constructor (flags : CreationFlags) (storage : Nat → Byte) :
    Footprint mapping storage (Core.initial flags storage) where
  inside := fun _ absurdity => nomatch absurdity
  mapped := fun _ absurdity => nomatch absurdity
  writable := fun _ absurdity => nomatch absurdity
  outside := fun _ _ => rfl
  writes := fun _ _ absurdity => nomatch absurdity
  tracked := fun _ _ absurdity => nomatch absurdity

end Footprint

/-! ## A single flush -/

theorem Mapping.nodup_flushSegments (offset size : Nat) :
    (mapping.flushSegments offset size).Nodup :=
  List.nodup_range'

section Flush

variable {storage : Nat → Byte} {offset size : Nat} {flags : FlushFlags}

/-- Without direct mapping, a flush is its loop followed by an optional
synchronisation. -/
theorem Core.flush_fields (direct : driver.directMSync = false) :
    (core.flush mapping driver offset size flags).status =
        (core.flushLoop mapping driver offset size flags.unmap).status ∧
      (core.flush mapping driver offset size flags).storage =
        (core.flushLoop mapping driver offset size flags.unmap).storage := by
  unfold flush
  rw [direct]
  cases flags.sync <;> exact ⟨rfl, rfl⟩

/-- A flush whose range wraps around leaves the status bits and the storage alone. -/
theorem Core.flush_of_wrap (direct : driver.directMSync = false)
    (small : size < wordModulus) (wraps : wordModulus ≤ offset + size) :
    (core.flush mapping driver offset size flags).status = core.status ∧
      (core.flush mapping driver offset size flags).storage = core.storage := by
  unfold flush flushLoop
  rw [direct, mapping.flushSegments_of_wrap small wraps]
  cases flags.sync <;> exact ⟨rfl, rfl⟩

theorem onlySegment_flushSegment (mapping : Mapping) (driver : Driver) (unmap : Bool)
    (current : Core) (item : Nat) :
    OnlySegment mapping (fun _ => 0) item current
      (current.flushSegment mapping driver unmap item) :=
  OnlySegment.flushSegment current item unmap

/-- After a flush, no segment of its range is dirty, and one that was dirty has
to be read from the storage. -/
theorem Core.flush_status (direct : driver.directMSync = false)
    (mapped : (core.status segmentId).dirty = true →
      (core.status segmentId).mapped = true)
    (member : segmentId ∈ mapping.flushSegments offset size) :
    ((core.flush mapping driver offset size flags).status segmentId).dirty =
        false ∧
      ((core.flush mapping driver offset size flags).status segmentId).needRead =
        ((core.status segmentId).needRead || (core.status segmentId).dirty) := by
  rw [(Core.flush_fields direct).1]
  refine (Untouched.foldl_rule (onlySegment_flushSegment mapping driver flags.unmap)
    (fun current => current.status segmentId = core.status segmentId)
    (fun current => (current.status segmentId).dirty = false ∧
      (current.status segmentId).needRead =
        ((core.status segmentId).needRead || (core.status segmentId).dirty))
    (mapping.nodup_flushSegments offset size) ?_ ?_ ?_ rfl).1 member
  · intro first second untouched
    rw [untouched.status]
    exact id
  · intro first second untouched
    rw [untouched.status]
    exact id
  · intro current same
    unfold Core.flushSegment
    rw [Core.release_status, Core.writeBack_status, same]
    cases dirty : (core.status segmentId).dirty with
    | false => simp
    | true => simp [mapped dirty]

variable {position : Nat}

/-- After a flush, the storage behind a segment that was dirty holds its
memory. -/
theorem Core.flush_behind (full : driver.Full) (direct : driver.directMSync = false)
    (member : segmentId ∈ mapping.flushSegments offset size)
    (dirty : (core.status segmentId).dirty = true)
    (own : (core.status segmentId).mapped = true ∧ segmentId < mapping.segments)
    (behind : mapping.Behind segmentId position) :
    (core.flush mapping driver offset size flags).storage position =
      core.memory (position - mapping.storageOffset) := by
  rw [(Core.flush_fields direct).2]
  obtain ⟨middle, before, after⟩ := Untouched.exists_foldl
    (onlySegment_flushSegment mapping driver flags.unmap)
    (mapping.nodup_flushSegments offset size) member core
  have bounds := behind
  unfold Mapping.Behind at bounds
  have inSegment : (position - mapping.storageOffset) / mapping.segmentSize =
      segmentId := by
    rw [div_eq_iff_block mapping.segmentSize_pos]
    omega
  have inside : position - mapping.storageOffset < mapping.size := by
    omega
  have same : mapping.storageOffset + (position - mapping.storageOffset) =
      position := by
    omega
  have kept := after.storage _ inside inSegment
  rw [same] at kept
  have stillDirty : (middle.status segmentId).dirty = true := by
    rw [before.status]
    exact dirty
  obtain ⟨mapped, exists_⟩ := own
  rw [← before.status] at mapped
  have transfer : (middle.flushSegment mapping driver flags.unmap
      segmentId).storage position =
      middle.memory (position - mapping.storageOffset) :=
    Core.flushSegment_behind full stillDirty mapped exists_ flags.unmap behind
  rw [Core.flushLoop, kept, transfer, before.memory _ inSegment]

/-- A flush writes no other byte of the storage. -/
theorem Core.flush_elsewhere (direct : driver.directMSync = false)
    (own : ∀ segmentId ∈ mapping.flushSegments offset size,
      (core.status segmentId).dirty = true →
        (core.status segmentId).mapped = true ∧ segmentId < mapping.segments)
    (elsewhere : ∀ segmentId ∈ mapping.flushSegments offset size,
      (core.status segmentId).dirty = true →
        ¬mapping.Behind segmentId position) :
    (core.flush mapping driver offset size flags).storage position =
      core.storage position := by
  have loop (segmentIds : List Nat) (distinct : segmentIds.Nodup) (current : Core)
      (kept : ∀ segmentId ∈ segmentIds,
        (current.status segmentId).dirty = true →
          ((current.status segmentId).mapped = true ∧
            segmentId < mapping.segments) ∧
          ¬mapping.Behind segmentId position) :
      (segmentIds.foldl (fun inner segmentId =>
          inner.flushSegment mapping driver flags.unmap segmentId)
        current).storage position = current.storage position := by
    induction segmentIds generalizing current with
    | nil => rfl
    | cons first rest inductionHypothesis =>
        rw [List.nodup_cons] at distinct
        obtain ⟨head, tail⟩ := List.forall_mem_cons.mp kept
        have only := onlySegment_flushSegment mapping driver flags.unmap current first
        rw [List.foldl_cons, inductionHypothesis distinct.2]
        · exact Core.flushSegment_elsewhere (fun dirty => (head dirty).1)
            flags.unmap fun dirty => (head dirty).2
        · intro segmentId member
          have different : segmentId ≠ first := by
            intro same
            subst same
            exact distinct.1 member
          rw [only.status segmentId different]
          exact tail segmentId member
  rw [(Core.flush_fields direct).2]
  exact loop _ (mapping.nodup_flushSegments offset size) core
    fun segmentId member dirty =>
      ⟨own segmentId member dirty, elsewhere segmentId member dirty⟩

/-- What a flush leaves in the storage. -/
def Core.writtenBack (core : Core) (mapping : Mapping)
    (offset size position : Nat) : Byte :=
  if ∃ segmentId ∈ mapping.flushSegments offset size,
      (core.status segmentId).dirty = true ∧ mapping.Behind segmentId position then
    core.memory (position - mapping.storageOffset)
  else core.storage position

theorem Core.flush_storage (full : driver.Full) (direct : driver.directMSync = false)
    (accepted : (Call.flush offset size flags).Accepted mapping)
    (mapped : ∀ segmentId, (core.status segmentId).dirty = true →
      (core.status segmentId).mapped = true) :
    (core.flush mapping driver offset size flags).storage position =
      core.writtenBack mapping offset size position := by
  have own : ∀ segmentId ∈ mapping.flushSegments offset size,
      (core.status segmentId).dirty = true →
        (core.status segmentId).mapped = true ∧ segmentId < mapping.segments :=
    fun segmentId member dirty =>
      ⟨mapped segmentId dirty, accepted.lt_segments member⟩
  unfold writtenBack
  split
  · rename_i covered
    obtain ⟨segmentId, member, dirty, behind⟩ := covered
    exact flush_behind full direct member dirty (own segmentId member dirty) behind
  · rename_i uncovered
    exact flush_elsewhere direct own fun segmentId member dirty behind =>
      uncovered ⟨segmentId, member, dirty, behind⟩

/-- The flush that covers the whole mapping is always accepted. -/
theorem Mapping.accepted_flush_all (flags : FlushFlags) :
    (Call.flush 0 mapping.getAlignedSize flags).Accepted mapping := by
  refine ⟨mapping.size_pos, ?_, Nat.zero_mod _, Nat.mul_mod_right _ _⟩
  exact Nat.le_trans (Nat.mod_le _ _) (Nat.le_of_eq (Nat.zero_add _))

theorem Mapping.mem_flushSegments_all (exists_ : segmentId < mapping.segments) :
    segmentId ∈ mapping.flushSegments 0 mapping.getAlignedSize := by
  have fits : 0 + mapping.getAlignedSize < wordModulus := by
    rw [Nat.zero_add]
    exact mapping.getAlignedSize_lt_wordModulus
  rw [mapping.flushSegments_eq fits, getAlignedSize, Nat.zero_div,
    Nat.mul_div_cancel_left _ mapping.segmentSize_pos, List.mem_range'_1]
  omega

/-- A flush of the whole mapping brings the last stores into the storage. -/
theorem Footprint.flush_all_last_store {initial : Nat → Byte} {value : Byte}
    (full : driver.Full) (direct : driver.directMSync = false)
    (footprint : Footprint mapping storage core)
    (coherent : AllCoherent mapping initial core)
    (inside : offset < mapping.size)
    (stored : lastStore core.trace offset = some value) :
    (core.flush mapping driver 0 mapping.getAlignedSize flags).storage
      (mapping.storageOffset + offset) = value := by
  have exists_ : offset / mapping.segmentSize < mapping.segments :=
    (mapping.lt_getAlignedSize_iff offset).mp
      (Nat.lt_of_lt_of_le inside mapping.size_le_getAlignedSize)
  obtain ⟨clean, needRead⟩ : _ ∧ ((core.flush mapping driver 0
      mapping.getAlignedSize flags).status
        (offset / mapping.segmentSize)).needRead = _ :=
    Core.flush_status direct (footprint.mapped _)
      (Mapping.mem_flushSegments_all exists_)
  have readBack : ((core.status (offset / mapping.segmentSize)).needRead ||
      (core.status (offset / mapping.segmentSize)).dirty) = true := by
    rw [Bool.or_eq_true]
    exact (footprint.tracked offset value stored).symm
  have flushed := (AllCoherent.preserved full).flush coherent 0
    mapping.getAlignedSize flags (offset / mapping.segmentSize)
  rw [flushed.storage clean (needRead.trans readBack) offset inside rfl,
    flush_record]
  unfold expected
  rw [stored]
  rfl

end Flush

/-! ## Runs -/

section Reached

variable {flags : CreationFlags} {storage : Nat → Byte} {attempts : Nat}
variable {calls : List (Nat × Call)} {values : List (Option Byte)}

/-- The storage invariants hold in every state that accepted calls reach. -/
theorem Footprint.of_reached
    (accepted : ∀ pair ∈ calls, pair.2.Accepted mapping)
    (reached : mapping.runCalls driver attempts calls
      (Machine.initial flags storage) = .finished values (.idle core)) :
    Footprint mapping storage core := by
  obtain ⟨final, same, footprint⟩ := runCalls_invariant
    (Footprint mapping storage) (Footprint.of_constructor flags storage)
    (fun _ thread call initialPart _ _ _ kept _ _ =>
      kept.call (accepted (thread, call) (initialPart.subset (by simp)))
        attempts thread) reached
  cases same
  exact footprint

/-- The storage invariants hold in every state that accepted calls reach whose `sync`
leaves the mapping alone, and the contents are where the status bits tell. -/
theorem Footprint.of_reachedWith {sync : Nat → Nat → MappingProgram Unit}
    {state : Machine} (full : driver.Full)
    (accepted : ∀ pair ∈ calls, pair.2.Accepted mapping)
    (undisturbed : ∀ pair ∈ calls, pair.2.Undisturbed mapping driver sync)
    (reached : mapping.runCallsWith sync driver attempts calls
      (Machine.initial flags storage) = .finished values state) :
    state = .idle state.core ∧ Footprint mapping storage state.core ∧
      AllCoherent mapping (mapping.initialView flags storage) state.core := by
  refine Outcome.runAll_invariant
    (fun machine => machine = .idle machine.core ∧
      Footprint mapping storage machine.core ∧
        AllCoherent mapping (mapping.initialView flags storage) machine.core)
    ?_ ⟨rfl, Footprint.of_constructor flags storage,
      AllCoherent.of_constructor flags storage⟩ reached
  rintro ⟨thread, call⟩ member before value after ⟨idle, footprint, coherent⟩ ran
  obtain ⟨count, ends⟩ := ends_callWith (Or.inr trivial) (Or.inr trivial)
    (undisturbed _ member) attempts thread before.core
  rw [idle] at ran
  obtain ⟨_, rfl⟩ := ends.determines ran
  exact ⟨rfl, (footprint.call (accepted _ member).unsynced attempts thread).recount
      count,
    ((AllCoherent.preserved full).call coherent attempts thread
      call.unsynced).recount count⟩

end Reached

/-- A byte is stored in the second of two pages of ones. -/
abbrev StoresInOnes (state : Machine) : Prop :=
  twoPages.runCallsWith (fun _ _ => pure ()) Driver.whole 2 [(0, .store 5000 7)]
    (Machine.initial ⟨false, false⟩ fun _ => 1) = .finished [none] state

end Durability

end UmmapIo
