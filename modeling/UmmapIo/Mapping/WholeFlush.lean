import UmmapIo.Handler.Flush
import UmmapIo.Mapping.InOrder

/-!
# Flushing the whole mapping

`Mapping::flush(bool)` asks for a flush of the exact size of the mapping, while the
checks of the range flush want whole segments.  The two agree exactly for mappings
whose size is a multiple of the segment size.  For the others the flush ends the
process, whatever is still dirty.
-/

namespace UmmapIo

section WholeFlush

variable {mapping : Mapping} {driver : Driver} {core : Core} {sync : Bool}

/-- A mapping of whole segments is as large as its segments. -/
theorem Mapping.getAlignedSize_of_dvd
    (whole : mapping.segmentSize ∣ mapping.size) :
    mapping.getAlignedSize = mapping.size := by
  rw [getAlignedSize_eq_mapSize]
  unfold mapSize
  rw [Nat.mod_eq_zero_of_dvd whole]
  rfl

/-- The range of the whole flush passes the checks exactly for whole segments. -/
theorem Mapping.accepted_flushAll_iff :
    (Call.flush 0 mapping.size ⟨sync, false, false⟩).Accepted mapping ↔
      mapping.segmentSize ∣ mapping.size := by
  constructor
  · intro accepted
    exact Nat.dvd_of_mod_eq_zero accepted.2.2.2
  · intro whole
    rw [← Mapping.getAlignedSize_of_dvd whole]
    exact mapping.accepted_flush_all _

/-- A whole flush of a mapping with an incomplete last segment does nothing but end
the process. -/
theorem Mapping.flushAll_aborts
    (incomplete : ¬mapping.segmentSize ∣ mapping.size)
    (thread : Nat) (state : Machine) :
    (mapping.flushAll sync).run (mapping.handle driver thread) state =
      .aborted s!"Should get size ({mapping.size}) multiple of segment size !"
        state := by
  have misaligned : ¬mapping.size % mapping.segmentSize = 0 :=
    fun aligned => incomplete (Nat.dvd_of_mod_eq_zero aligned)
  have fits : wordAdd 0 mapping.size ≤ mapping.getAlignedSize := by
    refine Nat.le_trans (Nat.mod_le _ _) ?_
    rw [Nat.zero_add]
    exact mapping.size_le_getAlignedSize
  unfold Mapping.flushAll Mapping.flush Mapping.checkFlush
  simp [mapping.size_pos, fits, misaligned]

/-- Every segment that is dirty is mapped, in every reachable state. -/
theorem InOrder.of_reached {flags : CreationFlags} {storage : Nat → Byte}
    {attempts : Nat} {calls : List (Nat × Call)} {values : List (Option Byte)}
    (reached : mapping.runCalls driver attempts calls
      (Machine.initial flags storage) = .finished values (.idle core)) :
    Segmentwise InOrder core := by
  obtain ⟨final, same, inOrder⟩ := runCalls_invariant (Segmentwise InOrder)
    (InOrder.initial flags storage)
    (fun _ thread call _ _ _ _ kept _ _ =>
      InOrder.upkeep.preserved.call kept attempts thread call) reached
  cases same
  exact inOrder

/-- A whole flush that returns leaves nothing dirty.  A driver that maps the storage
directly takes over the flush, so nothing may be dirty before. -/
theorem InOrder.clean_of_flushAll {thread : Nat} {final : Machine}
    (inOrder : Segmentwise InOrder core)
    (whole : mapping.segmentSize ∣ mapping.size)
    (indirect : driver.directMSync = true →
      ∀ segmentId, (core.status segmentId).dirty = false)
    (returns : (mapping.flushAll sync).run (mapping.handle driver thread)
      (.idle core) = .finished () final) :
    ∀ segmentId, segmentId < mapping.segments →
      (final.core.status segmentId).dirty = false := by
  intro segmentId below
  obtain ⟨_, rfl⟩ := (ends_flush (Or.inr trivial) (Or.inr trivial)
    fun _ _ => rfl).determines returns
  cases direct : driver.directMSync with
  | true =>
      unfold Core.flush
      rw [direct]
      exact indirect direct segmentId
  | false =>
      have member := mapping.mem_flushSegments_all below
      rw [Mapping.getAlignedSize_of_dvd whole] at member
      exact (Core.flush_status direct (inOrder segmentId).mapped_of_dirty member).1

end WholeFlush

/-- `Mapping::flush(bool)` passes the checks of the range flush exactly for a mapping
whose size is a multiple of its segment size.  Then it returns unless the driver
reports an error, and leaves no segment dirty.  For any other size it ends the
process before it does anything. -/
theorem flushAll_iff_whole_segments (mapping : Mapping) (driver : Driver)
    (flags : CreationFlags) (storage : Nat → Byte) (attempts : Nat)
    (calls : List (Nat × Call)) (values : List (Option Byte)) (core : Core)
    (reached : mapping.runCalls driver attempts calls
      (Machine.initial flags storage) = .finished values (.idle core))
    (indirect : driver.directMSync = true →
      ∀ segmentId, (core.status segmentId).dirty = false)
    (sync : Bool)
    (thread : Nat) :
    ((Call.flush 0 mapping.size ⟨sync, false, false⟩).Accepted mapping ↔
      mapping.segmentSize ∣ mapping.size) ∧
    (mapping.segmentSize ∣ mapping.size →
      (driver.NoError → ∃ final,
        (mapping.flushAll sync).run (mapping.handle driver thread)
          (.idle core) = .finished () final) ∧
      ∀ final, (mapping.flushAll sync).run (mapping.handle driver thread)
          (.idle core) = .finished () final →
        ∀ segmentId, segmentId < mapping.segments →
          (final.core.status segmentId).dirty = false) ∧
    (¬mapping.segmentSize ∣ mapping.size →
      (mapping.flushAll sync).run (mapping.handle driver thread) (.idle core) =
        .aborted s!"Should get size ({mapping.size}) multiple of segment size !"
          (.idle core)) := by
  refine ⟨Mapping.accepted_flushAll_iff, ?_, ?_⟩
  · intro whole
    refine ⟨?_, ?_⟩
    · intro noError
      have accepted : (Call.flush 0 mapping.size
          ⟨sync, false, false⟩).Accepted mapping :=
        Mapping.accepted_flushAll_iff.mpr whole
      exact ⟨_, (ends_flush (Or.inl noError) (Or.inl accepted)
        fun _ _ => rfl).finishes id⟩
    · intro final returns
      exact InOrder.clean_of_flushAll (InOrder.of_reached reached) whole indirect
        returns
  · intro incomplete
    exact Mapping.flushAll_aborts incomplete thread (.idle core)

/-- After a store to the second of two pages, the whole flush of the mapping
returns and the page is clean. -/
theorem flushAll_cleans_two_pages :
    ∃ final,
      (twoPages.flushAll true).run (twoPages.handle Driver.whole 0)
          (.idle (Core.callAll twoPages Driver.whole 2
            [(0, .store 5000 7)] (Core.initial ⟨false, false⟩ fun _ => 1)).2) =
        .finished () final ∧
      (final.core.status 1).dirty = false := by
  obtain ⟨_, whole, _⟩ := flushAll_iff_whole_segments twoPages
    Driver.whole ⟨false, false⟩ (fun _ => 1) 2 [(0, .store 5000 7)] _ _
    (runCalls_finishes Driver.whole_full.noError _ (by decide) _)
    (fun direct => nomatch direct) true 0
  obtain ⟨returns, clean⟩ := whole (by decide)
  obtain ⟨final, returned⟩ := returns Driver.whole_full.noError
  exact ⟨final, returned, clean final returned 1 (by decide)⟩

/-- The constructor accepts a mapping of 100 bytes with segments of one page.  After
a store its whole flush ends the process, and the page is still dirty. -/
theorem flushAll_of_incomplete_segment_aborts :
    ∃ mapping core,
      Mapping.create pageSize 100 pageSize 0 ⟨true, true, false⟩ ⟨false, false⟩
          Driver.whole 1 = .ok mapping ∧
        mapping.runCalls Driver.whole 2 [(0, .store 50 7)]
          (Machine.initial ⟨false, false⟩ fun _ => 0) =
            .finished [none] (.idle core) ∧
        (core.status 0).dirty = true ∧
        (mapping.flushAll true).run (mapping.handle Driver.whole 0) (.idle core) =
          .aborted "Should get size (100) multiple of segment size !" (.idle core) := by
  refine ⟨_, _, rfl, runCalls_finishes Driver.whole_full.noError _ (by decide) _,
    ?_, ?_⟩
  · rfl
  · exact Mapping.flushAll_aborts (by decide) 0 _

end UmmapIo
