import UmmapIo.Mapping.SegmentEffects

/-!
# What every call keeps of status bits and protections

A property of the status and the protection of a segment that the parts of the
operations keep holds of every segment after every call.  The property of interest
is that the protection never allows more than the status accounts for; unlike the
full agreement between the two, it also survives a read fault that is handled late.
-/

namespace UmmapIo

/-- The parts of the operations keep the property of the segment they work on. -/
structure Upkeep (mapping : Mapping) (driver : Driver)
    (property : SegmentStatus → Protection → Prop) : Prop where
  fault : ∀ (core : Core) (segmentId : Nat) (isWrite : Bool),
    property (core.status segmentId) (core.pages segmentId) →
      property ((core.fault mapping driver segmentId isWrite).status segmentId)
        ((core.fault mapping driver segmentId isWrite).pages segmentId)
  flushSegment : ∀ (core : Core) (segmentId : Nat) (unmap : Bool),
    property (core.status segmentId) (core.pages segmentId) →
      property ((core.flushSegment mapping driver unmap segmentId).status segmentId)
        ((core.flushSegment mapping driver unmap segmentId).pages segmentId)
  dropSegment : ∀ (core : Core) (segmentId : Nat),
    property (core.status segmentId) (core.pages segmentId) →
      property ((core.dropSegment mapping segmentId).status segmentId)
        ((core.dropSegment mapping segmentId).pages segmentId)
  markSegment : ∀ (core : Core) (segmentId : Nat),
    property (core.status segmentId) (core.pages segmentId) →
      property ((core.markSegment mapping segmentId).status segmentId)
        ((core.markSegment mapping segmentId).pages segmentId)

namespace Upkeep

variable {mapping : Mapping} {driver : Driver}
variable {property : SegmentStatus → Protection → Prop}

/-- Every call keeps the property of every segment. -/
theorem preserved
    (upkeep : Upkeep mapping driver property) :
    Preserved mapping driver (fun _ _ _ => True) (Segmentwise property) :=
  .of_segments (fun _ => 0)
    (fun untouched own => by rwa [untouched.status, untouched.pages])
    (fun _ own => upkeep.fault _ _ _ own)
    (fun unmap segmentId own => upkeep.flushSegment _ segmentId unmap own)
    (fun own => upkeep.dropSegment _ _ own) (fun own => upkeep.markSegment _ _ own)
    (fun _ _ _ _ holds => holds)

end Upkeep

/-! ## Protections that the status accounts for -/

/-- A segment that is not mapped is clean and closed, a mapped one can be read, and
only a dirty one can be written. -/
structure InOrder (status : SegmentStatus) (protection : Protection) : Prop where
  closed : status.mapped = false →
    protection.read = false ∧ protection.write = false ∧ status.dirty = false
  readable : status.mapped = true → protection.read = true
  writable : protection.write = true → status.dirty = true

namespace InOrder

variable {mapping : Mapping} {driver : Driver} {core : Core} {segmentId : Nat}
variable {status : SegmentStatus} {protection : Protection}

theorem mapped_of_dirty (inOrder : InOrder status protection)
    (dirty : status.dirty = true) :
    status.mapped = true := by
  rw [← Bool.not_eq_false]
  intro unmapped
  exact Bool.false_ne_true ((inOrder.closed unmapped).2.2.symm.trans dirty)

theorem of_mapped (mapped : status.mapped = true) (readable : protection.read = true)
    (writable : protection.write = true → status.dirty = true) :
    InOrder status protection where
  closed := fun unmapped => by
    rw [mapped] at unmapped
    cases unmapped
  readable := fun _ => readable
  writable := writable

theorem of_unmapped (unmapped : status.mapped = false)
    (noRead : protection.read = false) (noWrite : protection.write = false)
    (notDirty : status.dirty = false) :
    InOrder status protection where
  closed := fun _ => ⟨noRead, noWrite, notDirty⟩
  readable := fun mapped => by
    rw [unmapped] at mapped
    cases mapped
  writable := fun writable => by
    rw [noWrite] at writable
    cases writable

section

variable (inOrder : InOrder (core.status segmentId) (core.pages segmentId))
include inOrder

theorem fault (isWrite : Bool) :
    InOrder ((core.fault mapping driver segmentId isWrite).status segmentId)
      ((core.fault mapping driver segmentId isWrite).pages segmentId) := by
  rw [Core.fault_status, Core.fault_pages]
  cases Mapping.alreadyDone isWrite (core.status segmentId) with
  | true => exact inOrder
  | false => cases isWrite <;> exact of_mapped rfl rfl (by simp)

theorem flushSegment (unmap : Bool) :
    InOrder ((core.flushSegment mapping driver unmap segmentId).status segmentId)
      ((core.flushSegment mapping driver unmap segmentId).pages segmentId) := by
  unfold Core.flushSegment
  rw [Core.release_status, Core.release_pages, Core.writeBack_status,
    Core.writeBack_pages]
  cases mapped : (core.status segmentId).mapped with
  | false =>
      obtain ⟨noRead, noWrite, notDirty⟩ := inOrder.closed mapped
      refine of_unmapped rfl ?_ ?_ ?_
      · simpa [notDirty] using noRead
      · simpa [notDirty] using noWrite
      · simp [notDirty]
  | true =>
      have readable := inOrder.readable mapped
      have writable := inOrder.writable
      cases unmap with
      | true => exact of_unmapped rfl rfl rfl (by simp)
      | false =>
          cases dirty : (core.status segmentId).dirty <;>
            cases mapping.threadSafe <;>
            apply of_mapped <;>
            simp_all

theorem dropSegment :
    InOrder ((core.dropSegment mapping segmentId).status segmentId)
      ((core.dropSegment mapping segmentId).pages segmentId) := by
  unfold Core.dropSegment Core.unmapSegment
  split
  · rename_i mappedClean
    rw [Bool.and_eq_true, Bool.not_eq_true'] at mappedClean
    apply of_unmapped <;> simp [mappedClean.2]
  · exact inOrder

theorem markSegment :
    InOrder ((core.markSegment mapping segmentId).status segmentId)
      ((core.markSegment mapping segmentId).pages segmentId) := by
  unfold Core.markSegment
  split
  · rename_i condition
    simp only [Bool.and_eq_true] at condition
    apply of_mapped <;> simp [condition.1.1]
  · exact inOrder

end

/-- The parts of the operations keep the order, over any driver. -/
theorem upkeep : Upkeep mapping driver InOrder where
  fault := fun _ _ isWrite inOrder => inOrder.fault isWrite
  flushSegment := fun _ _ unmap inOrder => inOrder.flushSegment unmap
  dropSegment := fun _ _ inOrder => inOrder.dropSegment
  markSegment := fun _ _ inOrder => inOrder.markSegment

/-- The machine right after the constructor. -/
theorem initial (flags : CreationFlags) (storage : Nat → Byte) :
    Segmentwise InOrder (Core.initial flags storage) :=
  fun _ => of_unmapped rfl rfl rfl rfl

end InOrder

end UmmapIo
