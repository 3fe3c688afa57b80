import UmmapIo.Mapping.FirstRead

/-!
# Partial transfers

A driver may move fewer bytes than it was asked for.  The operations only check that it
has reported no error: a flush marks a segment as clean whatever number of its bytes
was written, and a fault opens a segment whatever number of its bytes was read.
-/

namespace UmmapIo

/-- The contract of `Driver::pread` and `Driver::pwrite`: the number of bytes that were
transferred, or a negative value on error. -/
def Driver.Contract (driver : Driver) : Prop :=
  ∀ call size offset,
    driver.preadResult call size offset ≤ size ∧
      driver.pwriteResult call size offset ≤ size

/-- A driver that moves one byte at a time. -/
def Driver.oneByte : Driver where
  preadResult := fun _ size _ => min 1 size
  pwriteResult := fun _ size _ => min 1 size
  directMSync := false
  checkThreadSafety := true

theorem Driver.oneByte_contract : Driver.oneByte.Contract :=
  fun _ size _ => ⟨Int.min_le_right 1 size, Int.min_le_right 1 size⟩

section Transfers

variable {mapping : Mapping} {driver : Driver} {core : Core} {segmentId offset : Nat}

/-! ## Number of transfers -/

theorem Core.release_calls (unmap : Bool) :
    (core.release mapping segmentId unmap).calls = core.calls := by
  unfold release unmapSegment
  split
  · split
    · rfl
    · split <;> rfl
  · rfl

/-- One turn of a flush asks the driver for one transfer if the segment is dirty. -/
theorem Core.flushSegment_calls (unmap : Bool) :
    (core.flushSegment mapping driver unmap segmentId).calls =
      if (core.status segmentId).dirty && (core.status segmentId).mapped then
        core.calls + 1
      else core.calls := by
  unfold flushSegment
  rw [release_calls]
  unfold writeBack
  split
  · cases mapping.threadSafe <;> rfl
  · rfl

theorem Core.calls_le_foldl_flushSegment (mapping : Mapping) (driver : Driver)
    (unmap : Bool) (segmentIds : List Nat) :
    core.calls ≤ (segmentIds.foldl (fun current segmentId =>
      current.flushSegment mapping driver unmap segmentId) core).calls := by
  induction segmentIds generalizing core with
  | nil => exact Nat.le_refl _
  | cons first rest inductionHypothesis =>
      refine Nat.le_trans ?_ inductionHypothesis
      rw [flushSegment_calls]
      split
      · exact Nat.le_succ _
      · exact Nat.le_refl _

/-! ## Flushes and faults -/

/-- A flush makes one transfer for each dirty segment of its range.  It marks the segment
as clean and brings the bytes that were moved into the storage. -/
theorem Core.flush_moved {start size : Nat} (direct : driver.directMSync = false)
    (dirty : (core.status segmentId).dirty = true)
    (mapped : (core.status segmentId).mapped = true)
    (member : segmentId ∈ mapping.flushSegments start size)
    (flags : FlushFlags) :
    ∃ call, core.calls ≤ call ∧
      call < (core.flush mapping driver start size flags).calls ∧
      ∀ offset, offset < mapping.size →
        offset / mapping.segmentSize = segmentId →
          (core.flush mapping driver start size flags).storage
              (mapping.storageOffset + offset) =
            if offset < mapping.segmentSize * segmentId +
                mapping.bytesWritten driver call segmentId then
              core.memory offset
            else core.storage (mapping.storageOffset + offset) := by
  have only := onlySegment_flushSegment mapping driver flags.unmap
  have fields : (core.flush mapping driver start size flags).storage =
        (core.flushLoop mapping driver start size flags.unmap).storage ∧
      (core.flush mapping driver start size flags).calls =
        (core.flushLoop mapping driver start size flags.unmap).calls := by
    unfold flush
    rw [direct]
    cases flags.sync <;> exact ⟨rfl, rfl⟩
  have distinct := mapping.nodup_flushSegments start size
  rw [fields.1, fields.2]
  unfold flushLoop
  obtain ⟨earlier, later, split⟩ := List.append_of_mem member
  rw [split] at distinct ⊢
  rw [List.foldl_append, List.foldl_cons]
  obtain ⟨_, distinctLater, apart⟩ := List.nodup_append.mp distinct
  have notEarlier : segmentId ∉ earlier := fun inside =>
    apart segmentId inside segmentId List.mem_cons_self rfl
  have before := Untouched.foldl only notEarlier core
  refine ⟨_, calls_le_foldl_flushSegment mapping driver flags.unmap earlier, ?_, ?_⟩
  · refine Nat.lt_of_lt_of_le ?_ (calls_le_foldl_flushSegment mapping driver
      flags.unmap later)
    rw [flushSegment_calls, before.status, dirty, mapped]
    exact Nat.lt_succ_self _
  · intro offset inside inSegment
    have after := Untouched.foldl only (List.nodup_cons.mp distinctLater).1
      ((earlier.foldl (fun current item =>
        current.flushSegment mapping driver flags.unmap item) core).flushSegment
          mapping driver flags.unmap segmentId)
    rw [after.storage offset inside inSegment,
      flushSegment_moved (by rw [before.status, dirty])
        (by rw [before.status, mapped]) inSegment,
      before.memory offset inSegment, before.storage offset inside inSegment]

/-- The first access to a segment that has to be read brings the bytes that the driver
moves into memory, with zeroes behind them. -/
theorem Core.fault_moved (vacant : Vacant mapping core segmentId)
    (unmapped : (core.status segmentId).mapped = false)
    (needRead : (core.status segmentId).needRead = true)
    (inSegment : offset / mapping.segmentSize = segmentId)
    (isWrite : Bool) :
    (core.fault mapping driver segmentId isWrite).memory offset =
      if offset < mapping.segmentSize * segmentId +
          mapping.bytesRead driver core.calls segmentId then
        core.storage (mapping.storageOffset + offset)
      else 0 := by
  have loaded : (core.loadAndSwapSegment mapping driver segmentId isWrite).memory
      offset = if offset < mapping.segmentSize * segmentId +
          mapping.bytesRead driver core.calls segmentId then
        core.storage (mapping.storageOffset + offset)
      else 0 := by
    rw [loadAndSwapSegment_memory inSegment, (vacant unmapped).2.2 offset inSegment,
      ite_self]
  unfold fault openSegment Mapping.alreadyDone
  rw [unmapped, needRead, Bool.and_false]
  cases isWrite <;> exact loaded

end Transfers

/-- Over any driver, in every state that calls lead to.  A flush that returns has left a
byte of a dirty segment of its range in the storage exactly if the driver moved it in the
transfer of that segment, or it was there already; if the range wraps around there is no
transfer.  A fault that returns after reading a segment has
brought a byte of the storage into memory exactly if the driver moved it, or it is
zero. -/
theorem transfers_complete_iff (mapping : Mapping) (flags : CreationFlags)
    (driver : Driver) (direct : driver.directMSync = false)
    (entries : List MappingRegistryEntry) (storage : Nat → Byte) (attempts : Nat)
    (before : List (Nat × SkipCall))
    (accepted : ∀ pair ∈ before, pair.2.Accepted mapping entries)
    (values : List (Option Byte)) (state : Machine)
    (reached : mapping.runSkipCalls entries driver attempts before
      (.initial flags storage) = .finished values state)
    (thread : Nat) :
    (∀ start size flushFlags after, size < wordModulus →
      (mapping.flush start size flushFlags).run (mapping.handle driver thread)
          state = .finished () after →
      ∀ segmentId, mapping.Covers start size segmentId →
        (state.core.status segmentId).dirty = true →
        (start + size < wordModulus →
          ∃ call, state.core.calls ≤ call ∧ call < after.core.calls ∧
            ∀ offset, offset < mapping.size →
              offset / mapping.segmentSize = segmentId →
                (after.core.storage (mapping.storageOffset + offset) =
                    state.core.memory offset ↔
                  offset < mapping.segmentSize * segmentId +
                      mapping.bytesWritten driver call segmentId ∨
                    state.core.storage (mapping.storageOffset + offset) =
                      state.core.memory offset)) ∧
        (wordModulus ≤ start + size → ∀ offset,
          (after.core.storage (mapping.storageOffset + offset) =
              state.core.memory offset ↔
            state.core.storage (mapping.storageOffset + offset) =
              state.core.memory offset))) ∧
    ∀ address isWrite after segmentId,
      (mapping.onSegmentationFault address isWrite).run
          (mapping.handle driver thread) state = .finished () after →
      (address - mapping.baseAddress) / mapping.segmentSize = segmentId →
      (state.core.status segmentId).mapped = false →
      (state.core.status segmentId).needRead = true →
      ∀ offset, offset < mapping.size →
        offset / mapping.segmentSize = segmentId →
          (after.core.memory offset =
              after.core.storage (mapping.storageOffset + offset) ↔
            offset < mapping.segmentSize * segmentId +
                mapping.bytesRead driver state.core.calls segmentId ∨
              state.core.storage (mapping.storageOffset + offset) = 0) := by
  obtain ⟨idle, pages, vacant⟩ := runSkipCalls_invariant
    (fun core => Segmentwise InOrder core ∧ AllVacant mapping core) accepted
    (fun _ pair holds => ⟨InOrder.skipCall holds.1 pair, holds.2.skipCall pair⟩)
    ⟨InOrder.initial flags storage, AllVacant.of_constructor flags storage⟩ reached
  refine ⟨?_, ?_⟩
  · intro start size flushFlags after small returns segmentId covers dirty
    have checks := accepted_of_flush_finished returns
    rw [idle] at returns
    obtain ⟨_, rfl⟩ := (ends_flush (Or.inr trivial) (Or.inr trivial)
      fun _ _ => rfl).determines returns
    refine ⟨fun unwrapped => ?_, fun wraps offset => ?_⟩
    · have member := (mapping.mem_flushSegments_iff unwrapped checks.2.2.1
        checks.2.2.2).mpr covers
      obtain ⟨call, notEarlier, notLater, written⟩ := Core.flush_moved direct dirty
        ((pages segmentId).mapped_of_dirty dirty) member flushFlags
      refine ⟨call, notEarlier, notLater, ?_⟩
      intro offset inside inSegment
      change (state.core.flush mapping driver start size flushFlags).storage _ = _ ↔ _
      rw [written offset inside inSegment]
      split
      · rename_i moved
        exact ⟨fun _ => Or.inl moved, fun _ => rfl⟩
      · rename_i left
        exact ⟨Or.inr, fun there => there.resolve_left left⟩
    · change (state.core.flush mapping driver start size flushFlags).storage _ = _ ↔ _
      rw [(Core.flush_of_wrap direct small wraps).2]
  · intro address isWrite after segmentId returns position unmapped needRead offset
      inside inSegment
    rw [idle] at returns
    obtain ⟨_, rfl⟩ := (ends_onSegmentationFault (Or.inr (Or.inr trivial))
      (Or.inr trivial) position).determines returns
    change (state.core.fault mapping driver segmentId isWrite).memory _ =
      (state.core.fault mapping driver segmentId isWrite).storage _ ↔ _
    rw [Core.fault_storage, Core.fault_moved (vacant segmentId) unmapped needRead
      inSegment]
    split
    · rename_i moved
      exact ⟨fun _ => Or.inl moved, fun _ => rfl⟩
    · rename_i left
      exact ⟨fun same => Or.inr same.symm, fun zero => (zero.resolve_left left).symm⟩

/-- A page of sevens in which a byte is stored and flushed by a driver that moves all
bytes. -/
theorem transfers_complete_iff_of_store :
    ∃ state after,
      onePage.runSkipCalls [.ofMapping onePage] Driver.whole 2 [(0, .call (.store 3 9))]
          (.initial ⟨false, false⟩ fun _ => 7) = .finished [none] state ∧
      (onePage.flush 0 pageSize ⟨false, false, false⟩).run
          (onePage.handle Driver.whole 0) state =
        .finished () after ∧
      ∃ call, state.core.calls ≤ call ∧ call < after.core.calls ∧
        (after.core.storage 3 = state.core.memory 3 ↔
          3 < onePage.bytesWritten Driver.whole call 0 ∨
            state.core.storage 3 = state.core.memory 3) := by
  obtain ⟨state, after, reached, dirty, flushed⟩ : ∃ state after,
      onePage.runSkipCalls [.ofMapping onePage] Driver.whole 2 [(0, .call (.store 3 9))]
          (.initial ⟨false, false⟩ fun _ => 7) = .finished [none] state ∧
      (state.core.status 0).dirty = true ∧
      (onePage.flush 0 pageSize ⟨false, false, false⟩).run
          (onePage.handle Driver.whole 0) state =
        .finished () after :=
    ⟨_, _, rfl, rfl, rfl⟩
  have stores : (Call.store 3 9).Accepted onePage := by
    decide
  obtain ⟨call, notEarlier, notLater, written⟩ := ((transfers_complete_iff
    onePage ⟨false, false⟩ Driver.whole rfl
    [.ofMapping onePage] (fun _ => 7) 2
    [(0, .call (.store 3 9))] (List.forall_mem_singleton.mpr stores) [none] state
    reached 0).1 0 pageSize ⟨false, false, false⟩ after (by decide) flushed 0
    (by decide) dirty).1 (by decide)
  refine ⟨state, after, reached, flushed, call, notEarlier, notLater, ?_⟩
  simpa [Mapping.ofPages] using written 3 (by decide) (by decide)

/-- Over a driver that moves one byte at a time and never reports an error: a flush
returns and marks the page as clean without having written the byte 3 that was stored,
and a first load of the byte 3 of a page of sevens returns zero. -/
theorem partial_transfers_lose_bytes :
    Driver.oneByte.Contract ∧
    (∃ state after,
      onePage.runSkipCalls [.ofMapping onePage]
          Driver.oneByte 2 [(0, .call (.store 3 9))]
          (.initial ⟨false, false⟩ fun _ => 7) = .finished [none] state ∧
      state.core.memory 3 = 9 ∧
      (onePage.flush 0 pageSize ⟨false, false, false⟩).run
          (onePage.handle Driver.oneByte 0) state =
        .finished () after ∧
      (after.core.status 0).dirty = false ∧
      after.core.storage 3 = 7) ∧
    ∃ state,
      onePage.runSkipCalls [.ofMapping onePage] Driver.oneByte 2 [(0, .call (.load 3))]
          (.initial ⟨false, false⟩ fun _ => 7) = .finished [some 0] state ∧
      state.core.storage 3 = 7 :=
  ⟨Driver.oneByte_contract, ⟨_, _, rfl, by decide, rfl, rfl, by decide⟩, _, rfl,
    by decide⟩

end UmmapIo
