import UmmapIo.Mapping.Durability
import UmmapIo.Mapping.InOrder
import UmmapIo.Mapping.Vacancy

/-!
# What a mapping shows

In any state the status bits tell what the next load of an offset returns: the memory
of a mapped segment, the storage of one that has to be read, zero otherwise.  Over a
driver that transfers what it is asked for, this only changes by a store and when a
segment is withdrawn whose contents are in memory alone although it is clean.
-/

namespace UmmapIo

/-- What the status bits make the next load of an offset return. -/
def Core.shows (core : Core) (mapping : Mapping) (offset : Nat) : Byte :=
  if (core.status (offset / mapping.segmentSize)).mapped then
    core.memory offset
  else if (core.status (offset / mapping.segmentSize)).needRead then
    core.storage (mapping.storageOffset + offset)
  else 0

/-- The segment is mapped and clean but would not be read again. -/
def Core.exposed (core : Core) (segmentId : Nat) : Bool :=
  (core.status segmentId).mapped && !(core.status segmentId).dirty &&
    !(core.status segmentId).needRead

/-- If the segment is mapped and clean and would be read again, the storage holds its
memory. -/
def Synced (mapping : Mapping) (core : Core) (segmentId : Nat) : Prop :=
  (core.status segmentId).mapped = true →
    (core.status segmentId).dirty = false →
      (core.status segmentId).needRead = true →
        ∀ offset, offset < mapping.size →
          offset / mapping.segmentSize = segmentId →
            core.memory offset = core.storage (mapping.storageOffset + offset)

/-- What is known of a mapping whose driver transfers everything. -/
structure Steady (mapping : Mapping) (core : Core) : Prop where
  pages : Segmentwise InOrder core
  vacant : AllVacant mapping core
  synced : ∀ segmentId, Synced mapping core segmentId

section Shown

variable {mapping : Mapping} {driver : Driver} {core : Core} {segmentId offset : Nat}

/-! ## Changes elsewhere -/

theorem Untouched.shows_eq {initial : Nat → Byte} {after : Core}
    (untouched : Untouched mapping initial segmentId core after)
    (inside : offset < mapping.size)
    (inSegment : offset / mapping.segmentSize = segmentId) :
    after.shows mapping offset = core.shows mapping offset := by
  unfold Core.shows
  rw [inSegment, untouched.status, untouched.memory offset inSegment,
    untouched.storage offset inside inSegment]

theorem Untouched.synced {initial : Nat → Byte} {after : Core}
    (untouched : Untouched mapping initial segmentId core after)
    (synced : Synced mapping core segmentId) :
    Synced mapping after segmentId := by
  unfold Synced
  rw [untouched.status]
  intro mapped clean stored offset inside inSegment
  rw [untouched.memory offset inSegment, untouched.storage offset inside inSegment]
  exact synced mapped clean stored offset inside inSegment

/-- Nothing is known of a segment that is not mapped. -/
theorem Synced.of_unmapped
    (unmapped : (core.status segmentId).mapped = false) :
    Synced mapping core segmentId := by
  intro mapped
  rw [unmapped] at mapped
  cases mapped

theorem Synced.of_dirty
    (dirty : (core.status segmentId).dirty = true) :
    Synced mapping core segmentId := by
  intro _ clean
  rw [dirty] at clean
  cases clean

/-! ## Parts of the operations -/

section Parts

variable (full : driver.Full)

include full

/-- A fault brings what a segment shows into memory. -/
theorem Core.fault_memory (vacant : Vacant mapping core segmentId)
    (inside : offset < mapping.size)
    (inSegment : offset / mapping.segmentSize = segmentId)
    (isWrite : Bool) :
    (core.fault mapping driver segmentId isWrite).memory offset =
      core.shows mapping offset := by
  unfold fault openSegment shows
  rw [inSegment]
  split
  · rename_i done
    unfold Mapping.alreadyDone at done
    rw [Bool.and_eq_true] at done
    rw [done.2, if_pos rfl]
  · cases mapped : (core.status segmentId).mapped with
    | true => cases isWrite <;> rfl
    | false =>
        cases needRead : (core.status segmentId).needRead with
        | true =>
            have loaded : (core.loadAndSwapSegment mapping driver segmentId
                isWrite).memory offset =
                core.storage (mapping.storageOffset + offset) := by
              rw [loadAndSwapSegment_memory inSegment, Mapping.bytesRead_of_full full,
                if_pos ((mapping.lt_readWriteSize_iff inSegment).mpr inside)]
            cases isWrite <;> exact loaded
        | false =>
            have blank := (vacant mapped).2.2 offset inSegment
            cases isWrite <;> exact blank

/-- A fault changes nothing that a mapping shows. -/
theorem Core.shows_fault (vacant : AllVacant mapping core)
    (inside : offset < mapping.size) (segmentId : Nat) (isWrite : Bool) :
    (core.fault mapping driver segmentId isWrite).shows mapping offset =
      core.shows mapping offset := by
  by_cases own : offset / mapping.segmentSize = segmentId
  · unfold shows
    rw [own, core.fault_mapped segmentId isWrite, if_pos rfl,
      fault_memory full (vacant segmentId) inside own]
    unfold shows
    rw [own]
  · have only : OnlySegment mapping (fun _ => 0) segmentId core
        (core.fault mapping driver segmentId isWrite) :=
      OnlySegment.fault core segmentId isWrite
    exact (only.untouched own).shows_eq inside rfl

theorem Synced.fault (synced : Synced mapping core segmentId)
    (vacant : Vacant mapping core segmentId) (isWrite : Bool) :
    Synced mapping (core.fault mapping driver segmentId isWrite) segmentId := by
  intro _ clean stored offset inside inSegment
  rw [Core.fault_status] at clean stored
  rw [Core.fault_storage, Core.fault_memory full vacant inside inSegment]
  unfold Core.shows
  rw [inSegment]
  cases mapped : (core.status segmentId).mapped with
  | true =>
      rw [if_pos rfl]
      refine synced mapped ?_ ?_ offset inside inSegment
      · split at clean
        · exact clean
        · exact (Bool.or_eq_false_iff.mp clean).2
      · split at stored <;> exact stored
  | false =>
      have needRead : (core.status segmentId).needRead = true := by
        split at stored <;> exact stored
      rw [needRead]
      rfl

/-- One turn of a flush writes the memory of a dirty segment. -/
theorem Core.flushSegment_storage (inside : offset < mapping.size)
    (inSegment : offset / mapping.segmentSize = segmentId)
    (unmap : Bool) :
    (core.flushSegment mapping driver unmap segmentId).storage
        (mapping.storageOffset + offset) =
      if (core.status segmentId).dirty && (core.status segmentId).mapped then
        core.memory offset
      else core.storage (mapping.storageOffset + offset) := by
  split
  · rename_i written
    rw [Bool.and_eq_true] at written
    rw [flushSegment_moved written.1 written.2 inSegment,
      Mapping.bytesWritten_of_full full,
      if_pos ((mapping.lt_readWriteSize_iff inSegment).mpr inside)]
  · rename_i skipped
    unfold flushSegment
    rw [release_storage]
    unfold writeBack
    rw [if_neg skipped]

/-- One turn of a flush changes what a segment shows only if it withdraws a segment
whose contents are in memory alone. -/
theorem Core.shows_flushSegment (vacant : Vacant mapping core segmentId)
    (synced : Synced mapping core segmentId) (inside : offset < mapping.size)
    (inSegment : offset / mapping.segmentSize = segmentId)
    (unmap : Bool) :
    (core.flushSegment mapping driver unmap segmentId).shows mapping offset =
      if unmap && core.exposed segmentId then 0
      else core.shows mapping offset := by
  unfold shows
  rw [inSegment, flushSegment_storage full inside inSegment]
  unfold flushSegment exposed
  rw [release_memory inSegment, release_status, writeBack_status, writeBack_memory]
  cases mapped : (core.status segmentId).mapped with
  | false => simp [(vacant mapped).1]
  | true =>
      cases unmap with
      | false => simp
      | true =>
          cases dirty : (core.status segmentId).dirty with
          | true => simp
          | false =>
              cases needRead : (core.status segmentId).needRead with
              | true => simp [synced mapped dirty needRead offset inside inSegment]
              | false => simp

theorem Synced.flushSegment (synced : Synced mapping core segmentId) (unmap : Bool) :
    Synced mapping (core.flushSegment mapping driver unmap segmentId)
      segmentId := by
  intro stays _ stored offset inside inSegment
  rw [Core.flushSegment_storage full inside inSegment]
  unfold Core.flushSegment at stays stored ⊢
  rw [Core.release_status, Core.writeBack_status] at stays stored
  rw [Core.release_memory inSegment, Core.writeBack_status, Core.writeBack_memory]
  obtain ⟨mapped, kept⟩ := Bool.and_eq_true_iff.mp stays
  dsimp only at mapped stored
  rw [mapped, Bool.and_true] at stored
  rw [Bool.not_eq_true'] at kept
  rw [kept, Bool.and_false, if_neg Bool.false_ne_true, mapped, Bool.and_true]
  cases dirty : (core.status segmentId).dirty with
  | true => rfl
  | false =>
      rw [dirty, Bool.or_false] at stored
      exact synced mapped dirty stored offset inside inSegment

end Parts

theorem Synced.dropSegment (synced : Synced mapping core segmentId) :
    Synced mapping (core.dropSegment mapping segmentId) segmentId := by
  unfold Core.dropSegment Core.unmapSegment
  split
  · exact of_unmapped (by simp)
  · exact synced

theorem Synced.markSegment (synced : Synced mapping core segmentId) :
    Synced mapping (core.markSegment mapping segmentId) segmentId := by
  unfold Core.markSegment
  split
  · exact of_dirty (by simp)
  · exact synced

/-! ## Operations -/

/-- For one segment, `Mapping::dropClean` is one turn of its loop. -/
theorem Core.exists_dropClean (core : Core) {segmentId : Nat}
    (exists_ : segmentId < mapping.segments) :
    ∃ middle, Untouched mapping (fun _ => 0) segmentId core middle ∧
      Untouched mapping (fun _ => 0) segmentId
        (middle.dropSegment mapping segmentId) (core.dropClean mapping) :=
  Untouched.exists_foldl
    (fun current item => OnlySegment.dropSegment current item)
    List.nodup_range (List.mem_range.mpr exists_) core

theorem Core.exists_markCleanAsDirty (core : Core) {segmentId : Nat}
    (exists_ : segmentId < mapping.segments) :
    ∃ middle, Untouched mapping (fun _ => 0) segmentId core middle ∧
      Untouched mapping (fun _ => 0) segmentId
        (middle.markSegment mapping segmentId)
        (core.markCleanAsDirty mapping) :=
  Untouched.exists_foldl
    (fun current item => OnlySegment.markSegment current item)
    List.nodup_range (List.mem_range.mpr exists_) core

/-- Dropping the clean segments leaves the dirty ones as they are; the others show
the storage if they have to be read. -/
theorem Core.shows_dropClean {offset : Nat} (vacant : AllVacant mapping core)
    (inside : offset < mapping.size) :
    (core.dropClean mapping).shows mapping offset =
      if (core.status (offset / mapping.segmentSize)).dirty then
        core.memory offset
      else if (core.status (offset / mapping.segmentSize)).needRead then
        core.storage (mapping.storageOffset + offset)
      else 0 := by
  obtain ⟨middle, before, after⟩ := core.exists_dropClean
    (mapping.div_lt_segments inside)
  have own := vacant (offset / mapping.segmentSize)
  unfold shows
  rw [after.status, after.memory offset rfl, after.storage offset inside rfl]
  unfold dropSegment unmapSegment
  rw [before.status]
  cases mapped : (core.status (offset / mapping.segmentSize)).mapped with
  | true =>
      cases dirty : (core.status (offset / mapping.segmentSize)).dirty with
      | true => simp [before.status, mapped, before.memory offset rfl]
      | false => simp [before.status, before.storage offset inside rfl]
  | false =>
      simp [before.status, mapped, (own mapped).1, before.storage offset inside rfl]

/-- Marking the clean segments as dirty changes nothing that loads return. -/
theorem Core.shows_markCleanAsDirty {offset : Nat} (inside : offset < mapping.size) :
    (core.markCleanAsDirty mapping).shows mapping offset =
      core.shows mapping offset := by
  obtain ⟨middle, before, after⟩ := core.exists_markCleanAsDirty
    (mapping.div_lt_segments inside)
  unfold shows
  rw [after.status, after.memory offset rfl, after.storage offset inside rfl]
  unfold markSegment
  split
  · simp [before.status, before.memory offset rfl, before.storage offset inside rfl]
  · rw [before.status, before.memory offset rfl, before.storage offset inside rfl]

/-- Dropping the clean segments changes what a segment shows only if its contents are
in memory alone. -/
theorem Steady.shows_dropClean (steady : Steady mapping core)
    (inside : offset < mapping.size) :
    (core.dropClean mapping).shows mapping offset =
      if core.exposed (offset / mapping.segmentSize) then 0
      else core.shows mapping offset := by
  have synced := steady.synced (offset / mapping.segmentSize)
  rw [Core.shows_dropClean steady.vacant inside]
  unfold Core.exposed Core.shows
  cases mapped : (core.status (offset / mapping.segmentSize)).mapped with
  | false => simp [(steady.vacant _ mapped).1]
  | true =>
      cases dirty : (core.status (offset / mapping.segmentSize)).dirty with
      | true => simp
      | false =>
          cases needRead : (core.status (offset / mapping.segmentSize)).needRead with
          | true => simp [synced mapped dirty needRead offset inside rfl]
          | false => simp

section

variable (full : driver.Full) (steady : Steady mapping core)
variable (inside : offset < mapping.size)
include full steady inside

/-- The loop of a flush changes what a segment shows only if it withdraws it while
its contents are in memory alone. -/
theorem Steady.shows_flushSegments (unmap : Bool) {segmentIds : List Nat}
    (distinct : segmentIds.Nodup) :
    (segmentIds.foldl (fun current segmentId =>
        current.flushSegment mapping driver unmap segmentId) core).shows mapping
        offset =
      if unmap && decide (offset / mapping.segmentSize ∈ segmentIds) &&
          core.exposed (offset / mapping.segmentSize) then 0
      else core.shows mapping offset := by
  have only := onlySegment_flushSegment mapping driver unmap
  by_cases member : offset / mapping.segmentSize ∈ segmentIds
  · obtain ⟨middle, before, after⟩ :=
      Untouched.exists_foldl only distinct member core
    rw [after.shows_eq inside rfl, Core.shows_flushSegment full
      ((steady.vacant _).of_untouched before) (before.synced (steady.synced _))
      inside rfl, before.shows_eq inside rfl]
    unfold Core.exposed
    rw [before.status]
    simp [member]
  · rw [(Untouched.foldl only member core).shows_eq inside rfl]
    simp [member]

theorem Steady.shows_flush (start size : Nat) (flags : FlushFlags) :
    (core.flush mapping driver start size flags).shows mapping offset =
      if !driver.directMSync && flags.unmap &&
          decide (offset / mapping.segmentSize ∈ mapping.flushSegments start size) &&
          core.exposed (offset / mapping.segmentSize) then 0
      else core.shows mapping offset := by
  have loop := steady.shows_flushSegments full inside flags.unmap
    (mapping.nodup_flushSegments start size)
  unfold Core.flush
  cases driver.directMSync with
  | true => rfl
  | false => cases flags.sync <;> exact loop

/-- What a segment shows after an eviction. -/
theorem Steady.shows_evict (segmentId : Nat) :
    (core.evict mapping driver segmentId).shows mapping offset =
      if !driver.directMSync && decide (offset / mapping.segmentSize = segmentId) &&
          core.exposed (offset / mapping.segmentSize) then 0
      else core.shows mapping offset := by
  have loop := steady.shows_flushSegments full inside true
    (List.pairwise_singleton _ segmentId)
  rw [Bool.true_and] at loop
  simp only [List.mem_singleton] at loop
  unfold Core.evict
  cases driver.directMSync with
  | true => rfl
  | false => exact loop

end

/-! ## Calls -/

namespace Steady

/-- The machine right after the constructor. -/
theorem of_constructor (flags : CreationFlags) (storage : Nat → Byte) :
    Steady mapping (Core.initial flags storage) where
  pages := InOrder.initial flags storage
  vacant := AllVacant.of_constructor flags storage
  synced := fun _ => Synced.of_unmapped rfl

theorem iff_segments :
    Steady mapping core ↔ ∀ segmentId,
      InOrder (core.status segmentId) (core.pages segmentId) ∧
        Vacant mapping core segmentId ∧ Synced mapping core segmentId :=
  ⟨fun steady segmentId => ⟨steady.pages segmentId, steady.vacant segmentId,
    steady.synced segmentId⟩,
    fun segments => ⟨fun segmentId => (segments segmentId).1,
      fun segmentId => (segments segmentId).2.1,
      fun segmentId => (segments segmentId).2.2⟩⟩

/-- A store to a segment that can be written. -/
theorem store {position : Nat} (steady : Steady mapping core)
    (writable : (core.pages (position / mapping.segmentSize)).write = true)
    (thread : Nat) (value : Byte) :
    Steady mapping (core.store thread position value) where
  pages := steady.pages
  vacant := steady.vacant.store writable thread value
  synced := by
    intro segmentId mapped clean stored offset inside inSegment
    have distinct : offset ≠ position := by
      rintro rfl
      rw [inSegment] at writable
      exact Bool.false_ne_true
        (clean.symm.trans ((steady.pages segmentId).writable writable))
    rw [Core.store_memory, Function.update_of_ne distinct]
    exact steady.synced segmentId mapped clean stored offset inside inSegment

theorem preserved (full : driver.Full) :
    Preserved mapping driver (fun _ _ _ => True) (Steady mapping) := by
  simp only [show Steady mapping = _ from funext fun _ => propext iff_segments]
  exact .of_segments (fun _ => 0)
    (fun untouched own => ⟨by rw [untouched.status, untouched.pages]; exact own.1,
      own.2.1.of_untouched untouched, untouched.synced own.2.2⟩)
    (fun {core segmentId isWrite} _ own => ⟨own.1.fault isWrite,
      .of_mapped (core.fault_mapped segmentId isWrite),
      own.2.2.fault full own.2.1 isWrite⟩)
    (fun unmap _ own => ⟨own.1.flushSegment unmap, own.2.1.flushSegment unmap,
      own.2.2.flushSegment full unmap⟩)
    (fun own => ⟨own.1.dropSegment, own.2.1.dropSegment, own.2.2.dropSegment⟩)
    (fun own => ⟨own.1.markSegment, own.2.1.markSegment, own.2.2.markSegment⟩)
    (fun thread _ value writable own =>
      iff_segments.mp ((iff_segments.mpr own).store writable thread value))

end Steady

/-! ## What calls change -/

/-- The call withdraws this segment, if it is mapped and no write is pending. -/
def Call.withdraws (mapping : Mapping) (driver : Driver)
    (segmentId : Nat) : Call → Bool
  | .flush offset size flags =>
      !driver.directMSync && flags.unmap &&
        decide (segmentId ∈ mapping.flushSegments offset size)
  | .evict other => !driver.directMSync && decide (segmentId = other)
  | .dropClean => true
  | _ => false

section Record

variable (initial : Nat → Byte)

theorem dropClean_record :
    expected initial (core.dropClean mapping).trace =
      expected initial core.trace := by
  have only (current : Core) (segmentId : Nat) : OnlySegment mapping initial
      segmentId current (current.dropSegment mapping segmentId) :=
    OnlySegment.dropSegment current segmentId
  exact foldl_record only _

theorem markCleanAsDirty_record :
    expected initial (core.markCleanAsDirty mapping).trace =
      expected initial core.trace := by
  have only (current : Core) (segmentId : Nat) : OnlySegment mapping initial
      segmentId current (current.markSegment mapping segmentId) :=
    OnlySegment.markSegment current segmentId
  exact foldl_record only _

/-- A call that withdraws segments stores nothing. -/
theorem record_of_withdraws {call : Call}
    (withdraws : call.withdraws mapping driver segmentId = true)
    (attempts thread : Nat) :
    expected initial (core.call mapping driver attempts thread call).2.trace =
      expected initial core.trace := by
  cases call with
  | flush start size flags => exact flush_record start size flags
  | evict other => exact evict_record other
  | dropClean => exact dropClean_record initial
  | _ => cases withdraws

end Record

namespace Steady

variable {initial : Nat → Byte}

theorem loadByte_value (full : driver.Full) (steady : Steady mapping core)
    (inside : offset < mapping.size) (thread attempts : Nat) :
    (core.loadByte mapping driver thread offset (attempts + 2)).1 =
      some (core.shows mapping offset) := by
  have readable (current : Core) (pages : Segmentwise InOrder current)
      (opened : (current.pages (offset / mapping.segmentSize)).read = true) :
      current.memory offset = current.shows mapping offset := by
    have mapped : (current.status (offset / mapping.segmentSize)).mapped =
        true := by
      rw [← Bool.not_eq_false]
      intro unmapped
      exact Bool.false_ne_true (((pages _).closed unmapped).1.symm.trans opened)
    unfold Core.shows
    rw [mapped, if_pos rfl]
  unfold Core.loadByte
  split
  · rename_i opened
    rw [readable core steady.pages opened]
  · have opened : ((core.fault mapping driver (offset / mapping.segmentSize)
        false).pages (offset / mapping.segmentSize)).read = true :=
      core.read_fault _ (steady.pages _).readable
    unfold Core.loadByte
    rw [if_pos opened, readable _ ((preserved full).fault trivial steady).pages opened,
      Core.shows_fault full steady.vacant inside]

theorem shows_loadByte (full : driver.Full) (steady : Steady mapping core)
    (inside : offset < mapping.size) (thread position attempts : Nat) :
    (core.loadByte mapping driver thread position attempts).2.shows mapping
        offset = core.shows mapping offset := by
  induction attempts generalizing core with
  | zero => rfl
  | succ attempts inductionHypothesis =>
      unfold Core.loadByte
      split
      · rfl
      · rw [inductionHypothesis ((preserved full).fault trivial steady),
          Core.shows_fault full steady.vacant inside]

/-- A store to a segment that can be written is shown. -/
theorem shows_store {position : Nat} (steady : Steady mapping core)
    (writable : (core.pages (position / mapping.segmentSize)).write = true)
    (thread : Nat) (value : Byte) :
    (core.store thread position value).shows mapping offset =
      Function.update (core.shows mapping) position value offset := by
  by_cases same : offset = position
  · subst same
    have own := steady.pages (offset / mapping.segmentSize)
    have mapped := own.mapped_of_dirty (own.writable writable)
    rw [Function.update_self]
    unfold Core.shows
    rw [Core.store_status, mapped, if_pos rfl, Core.store_memory,
      Function.update_self]
  · rw [Function.update_of_ne same]
    unfold Core.shows
    rw [Core.store_memory, Function.update_of_ne same]
    rfl

section

variable (full : driver.Full) (steady : Steady mapping core)
variable (inside : offset < mapping.size)
variable (shown : core.shows mapping offset = expected initial core.trace offset)
include full steady inside shown

/-- After a store the byte that was stored is shown. -/
theorem shows_storeByte (thread position : Nat) (value : Byte) (attempts : Nat) :
    (core.storeByte mapping driver thread position value attempts).2.shows mapping
        offset =
      expected initial (core.storeByte mapping driver thread position value
        attempts).2.trace offset := by
  induction attempts generalizing core with
  | zero => exact shown
  | succ attempts inductionHypothesis =>
      unfold Core.storeByte
      split
      · rename_i writable
        rw [Core.store_trace, expected_store, steady.shows_store writable]
        by_cases same : offset = position
        · subst same
          rw [Function.update_self, Function.update_self]
        · rw [Function.update_of_ne same, Function.update_of_ne same, shown]
      · refine inductionHypothesis ((preserved full).fault trivial steady) ?_
        rw [Core.shows_fault full steady.vacant inside, fault_record, shown]

/-- A call that does not withdraw a segment whose contents are in memory alone shows
the last stores; otherwise zeroes are shown. -/
theorem shows_call (attempts thread : Nat) (call : Call) :
    (core.call mapping driver attempts thread call).2.shows mapping offset =
      if call.withdraws mapping driver (offset / mapping.segmentSize) &&
          core.exposed (offset / mapping.segmentSize) then 0
      else expected initial
        (core.call mapping driver attempts thread call).2.trace offset := by
  cases call with
  | load position =>
      refine (steady.shows_loadByte full inside thread position attempts).trans ?_
      exact shown.trans (congrFun (loadByte_record thread position attempts).symm _)
  | store position value =>
      exact steady.shows_storeByte full inside shown thread position value attempts
  | fault address isWrite =>
      refine (Core.shows_fault full steady.vacant inside _ isWrite).trans ?_
      exact shown.trans (congrFun (fault_record _ isWrite).symm _)
  | flush start size flags =>
      refine (steady.shows_flush full inside start size flags).trans ?_
      rw [shown, ← flush_record start size flags]
      rfl
  | evict segmentId =>
      refine (steady.shows_evict full inside segmentId).trans ?_
      rw [shown, ← evict_record segmentId]
      rfl
  | dropClean =>
      refine (steady.shows_dropClean inside).trans ?_
      rw [shown, ← dropClean_record initial]
      rfl
  | markCleanAsDirty =>
      refine (Core.shows_markCleanAsDirty inside).trans ?_
      rw [shown, ← markCleanAsDirty_record initial]
      rfl

end

end Steady

end Shown

end UmmapIo
