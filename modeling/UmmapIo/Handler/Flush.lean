import UmmapIo.Mapping.Durability

/-!
# Flushing an address range

`GlobalHandler::flush` turns an address range into a range of whole segments.
The start should be rounded down and the end rounded up.  The computed range is
right only for ranges that are aligned already: with a misaligned start the
offset becomes its own remainder, and with a misaligned size a whole segment is
added to it; `Mapping::flush` rejects both and the process aborts.
-/

namespace UmmapIo

namespace GlobalHandler

/-- The number of bytes a flush is asked for; zero stands for the rest of the
mapping. -/
def requestedSize (mapping : Mapping) (ptr size : Nat) : Nat :=
  if size = 0 then mapping.getAlignedSize - (ptr - mapping.baseAddress) else size

/-- The computed range consists of whole segments of the mapping and covers the
requested bytes. -/
def RangeCovers (mapping : Mapping) (ptr size : Nat) : Prop :=
  (flushRange mapping ptr size).1 % mapping.segmentSize = 0 ∧
    (flushRange mapping ptr size).2 % mapping.segmentSize = 0 ∧
    (flushRange mapping ptr size).1 + (flushRange mapping ptr size).2 ≤
      mapping.getAlignedSize ∧
    mapping.baseAddress + (flushRange mapping ptr size).1 ≤ ptr ∧
    ptr + requestedSize mapping ptr size ≤
      mapping.baseAddress + (flushRange mapping ptr size).1 +
        (flushRange mapping ptr size).2

/-- A segment holds one of the requested bytes. -/
def Intersects (mapping : Mapping) (ptr size segmentId : Nat) : Prop :=
  mapping.baseAddress + mapping.segmentSize * segmentId <
      ptr + requestedSize mapping ptr size ∧
    ptr < mapping.baseAddress + mapping.segmentSize * segmentId + mapping.segmentSize

/-- Both ends of the requested range are segment boundaries. -/
def Aligned (mapping : Mapping) (ptr size : Nat) : Prop :=
  (ptr - mapping.baseAddress) % mapping.segmentSize = 0 ∧
    size % mapping.segmentSize = 0

variable {mapping : Mapping} {ptr size : Nat}

/-! ## The computed range -/

theorem requestedSize_mod
    (offsetAligned : (ptr - mapping.baseAddress) % mapping.segmentSize = 0) :
    requestedSize mapping ptr size % mapping.segmentSize =
      size % mapping.segmentSize := by
  unfold requestedSize
  split
  · rename_i zero
    subst zero
    rw [Nat.zero_mod, Nat.sub_mod_eq_zero_of_mod_eq]
    rw [offsetAligned]
    exact Nat.mul_mod_right _ _
  · rfl

/-- An aligned range is passed on as it is. -/
theorem flushRange_of_aligned (aligned : Aligned mapping ptr size) :
    flushRange mapping ptr size =
      (ptr - mapping.baseAddress, requestedSize mapping ptr size) := by
  have sizeAligned := (requestedSize_mod aligned.1).trans aligned.2
  unfold requestedSize at sizeAligned
  unfold flushRange requestedSize
  simp [aligned.1, sizeAligned]

/-- A misaligned range gives a misaligned offset or a misaligned size. -/
theorem flushRange_of_not_aligned (misaligned : ¬Aligned mapping ptr size) :
    (flushRange mapping ptr size).1 % mapping.segmentSize ≠ 0 ∨
      (flushRange mapping ptr size).2 % mapping.segmentSize ≠ 0 := by
  by_cases offsetAligned :
      (ptr - mapping.baseAddress) % mapping.segmentSize = 0
  · right
    have sizeMisaligned : requestedSize mapping ptr size % mapping.segmentSize ≠ 0 := by
      rw [requestedSize_mod offsetAligned]
      exact fun sizeAligned => misaligned ⟨offsetAligned, sizeAligned⟩
    unfold requestedSize at sizeMisaligned
    unfold flushRange
    simp [offsetAligned, sizeMisaligned]
  · left
    have remainder : (ptr - mapping.baseAddress) -
        ((ptr - mapping.baseAddress) -
          (ptr - mapping.baseAddress) % mapping.segmentSize) =
        (ptr - mapping.baseAddress) % mapping.segmentSize :=
      Nat.sub_sub_self (Nat.mod_le _ _)
    have first : (flushRange mapping ptr size).1 =
        (ptr - mapping.baseAddress) % mapping.segmentSize := by
      unfold flushRange
      simp only [ne_eq, offsetAligned, not_false_eq_true, if_true, remainder,
        apply_ite Prod.fst, ite_self]
    rw [first, Nat.mod_mod]
    exact offsetAligned

/-- The whole range is passed on when it is aligned. -/
theorem rangeCovers_of_aligned (aligned : Aligned mapping ptr size)
    (lower : mapping.baseAddress ≤ ptr)
    (fits : ptr + requestedSize mapping ptr size ≤
      mapping.baseAddress + mapping.getAlignedSize) :
    RangeCovers mapping ptr size := by
  unfold RangeCovers
  rw [flushRange_of_aligned aligned]
  refine ⟨aligned.1, (requestedSize_mod aligned.1).trans aligned.2, ?_, ?_, ?_⟩
  all_goals
    dsimp only
    omega

/-! ## Running the flush -/

section Run

variable {driver : Driver} {entries : List MappingRegistryEntry} {thread : Nat}
variable {core : Core} {evict sync : Bool}

/-- `Mapping::flush` rejects a misaligned range before it does anything. -/
theorem flush_aborts {offset length : Nat} {flags : FlushFlags} {state : Machine}
    (misaligned : offset % mapping.segmentSize ≠ 0 ∨
      length % mapping.segmentSize ≠ 0) :
    ∃ message, (mapping.flush offset length flags).run
      (mapping.handle driver thread) state = .aborted message state := by
  unfold Mapping.flush Mapping.checkFlush
  by_cases inside : offset < mapping.size
  · by_cases fits : wordAdd offset length ≤ mapping.getAlignedSize
    · by_cases offsetAligned : offset % mapping.segmentSize = 0
      · have sizeMisaligned := misaligned.resolve_left (· offsetAligned)
        simp [inside, fits, offsetAligned, sizeMisaligned]
      · simp [inside, fits, offsetAligned]
    · simp [inside, fits]
  · simp [inside]

/-- The handler aborts on a misaligned range. -/
theorem handler_flush_aborts
    (found : getMapping entries ptr = some mapping)
    (misaligned : ¬Aligned mapping ptr size) (state : Machine) :
    ∃ message, (flush entries ptr size evict sync).run
      (mapping.handle driver thread) state = .aborted message state := by
  unfold flush
  rw [found]
  dsimp only
  by_cases fits : ptr + (flushRange mapping ptr size).2 ≤
      mapping.baseAddress + mapping.getAlignedSize
  · rw [decide_eq_true fits, Program.assume_true, Program.done_bind]
    exact flush_aborts (flushRange_of_not_aligned misaligned)
  · rw [decide_eq_false fits, Program.assume_false, Program.abort_bind]
    exact ⟨_, rfl⟩

/-- The handler flushes the requested bytes of an aligned range. -/
theorem handler_flush_finishes (noError : driver.NoError)
    (found : getMapping entries ptr = some mapping)
    (aligned : Aligned mapping ptr size) (lower : mapping.baseAddress ≤ ptr)
    (upper : ptr < mapping.baseAddress + mapping.size)
    (fits : ptr + requestedSize mapping ptr size ≤
      mapping.baseAddress + mapping.getAlignedSize) :
    (flush entries ptr size evict sync).run (mapping.handle driver thread)
        (.idle core) =
      .finished () (.idle (core.flush mapping driver
        (ptr - mapping.baseAddress) (requestedSize mapping ptr size)
        ⟨sync, evict, false⟩)) := by
  have accepted : (Call.flush (ptr - mapping.baseAddress)
      (requestedSize mapping ptr size) ⟨sync, evict, false⟩).Accepted
        mapping := by
    refine ⟨by omega, Nat.le_trans (Nat.mod_le _ _) (by omega), aligned.1, ?_⟩
    exact (requestedSize_mod aligned.1).trans aligned.2
  unfold flush
  rw [found]
  dsimp only
  rw [flushRange_of_aligned aligned]
  dsimp only
  rw [decide_eq_true fits, Program.assume_true, Program.done_bind]
  exact (ends_flush (Or.inl noError) (Or.inl accepted) fun _ _ => rfl).finishes id

/-- Every segment that holds a requested byte is in an aligned range. -/
theorem mem_flushSegments_of_intersects {segmentId : Nat}
    (aligned : Aligned mapping ptr size) (lower : mapping.baseAddress ≤ ptr)
    (fits : ptr + requestedSize mapping ptr size ≤
      mapping.baseAddress + mapping.getAlignedSize)
    (intersects : Intersects mapping ptr size segmentId) :
    segmentId ∈ mapping.flushSegments (ptr - mapping.baseAddress)
      (requestedSize mapping ptr size) := by
  have bound := mapping.getAlignedSize_lt_wordModulus
  obtain ⟨first, offset_eq⟩ := Nat.dvd_of_mod_eq_zero aligned.1
  obtain ⟨before, after⟩ := intersects
  rw [mapping.mem_flushSegments_iff (by omega) aligned.1
    ((requestedSize_mod aligned.1).trans aligned.2)]
  refine ⟨?_, by omega⟩
  have product : mapping.segmentSize * first <
      mapping.segmentSize * (segmentId + 1) := by
    rw [Nat.mul_add, Nat.mul_one]
    omega
  rw [offset_eq]
  exact Nat.mul_le_mul_left _ (Nat.lt_succ_iff.mp (Nat.lt_of_mul_lt_mul_left product))

end Run

/-- The mapping that the registry finds for an address holds that address. -/
theorem bounds_of_getMapping {mappings : List Mapping}
    (found : getMapping (mappings.map MappingRegistryEntry.ofMapping) ptr =
      some mapping) :
    mapping.baseAddress ≤ ptr ∧
      ptr < mapping.baseAddress + mapping.size := by
  unfold getMapping at found
  rw [Option.map_eq_some_iff] at found
  obtain ⟨entry, isEntry, rfl⟩ := found
  have holds := List.find?_some isEntry
  have member := List.mem_of_find?_eq_some isEntry
  rw [List.mem_map] at member
  obtain ⟨registered, _, rfl⟩ := member
  rw [Bool.and_eq_true, decide_eq_true_eq, decide_eq_true_eq] at holds
  exact holds

end GlobalHandler

open GlobalHandler

end UmmapIo
