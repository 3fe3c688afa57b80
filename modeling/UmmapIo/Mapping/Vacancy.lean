import UmmapIo.Mapping.Residency

/-!
# Segments that are not mapped

A segment that is not mapped is clean, cannot be written and consists of zero pages,
whatever the driver answers.  A first access that reads less than a whole segment
therefore leaves zeroes behind the bytes that it has read.
-/

namespace UmmapIo

section Vacancy

variable (mapping : Mapping)

/-- If the segment is not mapped, there is nothing in it. -/
def Vacant (core : Core) (segmentId : Nat) : Prop :=
  (core.status segmentId).mapped = false →
    (core.status segmentId).dirty = false ∧
      (core.pages segmentId).write = false ∧
      ∀ offset, offset / mapping.segmentSize = segmentId →
        core.memory offset = 0

/-- There is nothing in any segment that is not mapped. -/
def AllVacant (core : Core) : Prop :=
  ∀ segmentId, Vacant mapping core segmentId

variable {mapping} {driver : Driver} {core : Core} {segmentId : Nat}

namespace Vacant

theorem of_mapped
    (mapped : (core.status segmentId).mapped = true) :
    Vacant mapping core segmentId := by
  intro unmapped
  rw [mapped] at unmapped
  cases unmapped

theorem of_untouched {initial : Nat → Byte} {after : Core}
    (vacant : Vacant mapping core segmentId)
    (untouched : Untouched mapping initial segmentId core after) :
    Vacant mapping after segmentId := by
  unfold Vacant
  rw [untouched.status, untouched.pages]
  intro unmapped
  obtain ⟨notDirty, closed, blank⟩ := vacant unmapped
  refine ⟨notDirty, closed, fun offset inSegment => ?_⟩
  rw [untouched.memory offset inSegment]
  exact blank offset inSegment

theorem unmapSegment
    (notDirty : (core.status segmentId).dirty = false) :
    Vacant mapping (core.unmapSegment mapping segmentId) segmentId := by
  unfold Core.unmapSegment
  intro _
  refine ⟨by simpa using notDirty, by simp, ?_⟩
  intro offset inSegment
  rw [Core.setMapped_memory, Core.madviseDontNeed_memory,
    blit_block _ _ mapping.segmentSize_pos inSegment]

theorem flushSegment (vacant : Vacant mapping core segmentId) (unmap : Bool) :
    Vacant mapping (core.flushSegment mapping driver unmap segmentId)
      segmentId := by
  cases mapped : (core.status segmentId).mapped with
  | false =>
      have notDirty := (vacant mapped).1
      have same : core.flushSegment mapping driver unmap segmentId = core := by
        simp [Core.flushSegment, Core.writeBack, Core.release, mapped, notDirty]
      rw [same]
      exact vacant
  | true =>
      have written : (core.writeBack mapping driver segmentId).status segmentId =
          ⟨true, false, (core.status segmentId).needRead ||
            (core.status segmentId).dirty⟩ := by
        rw [Core.writeBack_status, mapped]
        simp
      unfold Core.flushSegment Core.release
      rw [written, if_pos rfl]
      split
      · exact unmapSegment (by rw [written])
      · split
        · exact of_mapped (by rw [written])
        · refine of_mapped ?_
          rw [Core.mprotect_status, written]

theorem dropSegment (vacant : Vacant mapping core segmentId) :
    Vacant mapping (core.dropSegment mapping segmentId) segmentId := by
  unfold Core.dropSegment
  split
  · rename_i mappedClean
    rw [Bool.and_eq_true, Bool.not_eq_true'] at mappedClean
    exact unmapSegment mappedClean.2
  · exact vacant

theorem markSegment (vacant : Vacant mapping core segmentId) :
    Vacant mapping (core.markSegment mapping segmentId) segmentId := by
  unfold Core.markSegment
  split
  · rename_i condition
    simp only [Bool.and_eq_true] at condition
    exact of_mapped (by simpa using condition.1.1)
  · exact vacant

end Vacant

namespace AllVacant

theorem store {offset : Nat} (vacant : AllVacant mapping core)
    (writable : (core.pages (offset / mapping.segmentSize)).write = true)
    (thread : Nat) (value : Byte) :
    AllVacant mapping (core.store thread offset value) := by
  intro segmentId unmapped
  obtain ⟨notDirty, closed, blank⟩ := vacant segmentId unmapped
  refine ⟨notDirty, closed, fun position inSegment => ?_⟩
  have distinct : position ≠ offset := by
    rintro rfl
    rw [inSegment, closed] at writable
    cases writable
  rw [Core.store_memory, Function.update_of_ne distinct]
  exact blank position inSegment

/-- Every call keeps the invariant, over any driver. -/
theorem preserved :
    Preserved mapping driver (fun _ _ _ => True) (AllVacant mapping) :=
  .of_segments (fun _ => 0) (fun untouched own => own.of_untouched untouched)
    (fun {core segmentId isWrite} _ _ => .of_mapped (core.fault_mapped segmentId isWrite))
    (fun unmap _ own => own.flushSegment unmap) (fun own => own.dropSegment)
    (fun own => own.markSegment)
    (fun thread _ value writable vacant => store vacant writable thread value)

/-- The machine right after the constructor. -/
theorem of_constructor (flags : CreationFlags) (storage : Nat → Byte) :
    AllVacant mapping (Core.initial flags storage) :=
  fun _ _ => ⟨rfl, rfl, fun _ _ => rfl⟩

end AllVacant

end Vacancy

end UmmapIo
