import UmmapIo.Mapping.SegmentEffects

/-!
# Which segments are mapped

A fault maps its segment, an eviction withdraws it, and the maintenance
operations map nothing.
-/

namespace UmmapIo
namespace Core

variable {mapping : Mapping} {driver : Driver} (core : Core)

/-- The segment is mapped. -/
def Mapped (segmentId : Nat) : Prop :=
  (core.status segmentId).mapped = true

instance decidableMapped (segmentId : Nat) :
    Decidable (core.Mapped segmentId) :=
  inferInstanceAs (Decidable (_ = _))

theorem fault_mapped (segmentId : Nat) (isWrite : Bool) :
    (core.fault mapping driver segmentId isWrite).Mapped segmentId := by
  unfold Mapped
  rw [fault_status]
  split
  · rename_i done
    unfold Mapping.alreadyDone at done
    simp only [Bool.and_eq_true] at done
    exact done.2
  · rfl

/-- A fault maps its own segment and no other. -/
theorem mapped_fault_iff (segmentId other : Nat) (isWrite : Bool) :
    (core.fault mapping driver segmentId isWrite).Mapped other ↔
      core.Mapped other ∨ other = segmentId := by
  by_cases same : other = segmentId
  · subst same
    simp [core.fault_mapped other isWrite]
  · have only : OnlySegment mapping (fun _ => 0) segmentId core
        (core.fault mapping driver segmentId isWrite) :=
      OnlySegment.fault core segmentId isWrite
    unfold Mapped
    rw [only.status other same]
    simp [same]

theorem flushSegment_mapped (unmap : Bool) (segmentId : Nat) :
    ((core.flushSegment mapping driver unmap segmentId).status segmentId).mapped =
      ((core.status segmentId).mapped && !unmap) := by
  unfold flushSegment
  rw [release_status, writeBack_status]

/-- A step that maps no segment. -/
def MapsNothing (before after : Core) : Prop :=
  ∀ segmentId, after.Mapped segmentId → before.Mapped segmentId

/-- A loop maps nothing if its body does not. -/
theorem mapsNothing_foldl {effect : Core → Nat → Core}
    (body : ∀ current segmentId, MapsNothing current (effect current segmentId))
    (segmentIds : List Nat) :
    MapsNothing core (segmentIds.foldl effect core) := by
  induction segmentIds generalizing core with
  | nil => exact fun _ mapped => mapped
  | cons first rest inductionHypothesis =>
      intro segmentId mapped
      exact body core first segmentId
        (inductionHypothesis (effect core first) segmentId mapped)

theorem mapsNothing_flushSegment (unmap : Bool) (segmentId : Nat) :
    MapsNothing core (core.flushSegment mapping driver unmap segmentId) := by
  intro other mapped
  have only : OnlySegment mapping (fun _ => 0) segmentId core
      (core.flushSegment mapping driver unmap segmentId) :=
    OnlySegment.flushSegment core segmentId unmap
  unfold Mapped at mapped ⊢
  by_cases same : other = segmentId
  · subst same
    rw [flushSegment_mapped, Bool.and_eq_true] at mapped
    exact mapped.1
  · rw [only.status other same] at mapped
    exact mapped

theorem mapsNothing_dropSegment (segmentId : Nat) :
    MapsNothing core (core.dropSegment mapping segmentId) := by
  intro other mapped
  have only : OnlySegment mapping (fun _ => 0) segmentId core
      (core.dropSegment mapping segmentId) :=
    OnlySegment.dropSegment core segmentId
  unfold Mapped at mapped ⊢
  by_cases same : other = segmentId
  · subst same
    unfold dropSegment unmapSegment at mapped
    split at mapped
    · simp at mapped
    · exact mapped
  · rw [only.status other same] at mapped
    exact mapped

/-- `Mapping::flush` maps nothing. -/
theorem mapsNothing_flush (offset size : Nat) (flags : FlushFlags) :
    MapsNothing core (core.flush mapping driver offset size flags) := by
  have loop : MapsNothing core
      (core.flushLoop mapping driver offset size flags.unmap) :=
    core.mapsNothing_foldl
      (fun current segmentId =>
        current.mapsNothing_flushSegment flags.unmap segmentId) _
  unfold flush
  split
  · exact fun _ mapped => mapped
  · dsimp only
    split
    · exact loop
    · exact loop

/-- `Mapping::dropClean` maps nothing. -/
theorem mapsNothing_dropClean : MapsNothing core (core.dropClean mapping) :=
  core.mapsNothing_foldl
    (fun current segmentId => current.mapsNothing_dropSegment segmentId) _

/-- The segments that the loop body of a flush leaves mapped. -/
theorem mapped_flushSegment_iff (unmap : Bool) (flushed segmentId : Nat) :
    (core.flushSegment mapping driver unmap flushed).Mapped segmentId ↔
      core.Mapped segmentId ∧ (unmap = true → segmentId ≠ flushed) := by
  have only : OnlySegment mapping (fun _ => 0) flushed core
      (core.flushSegment mapping driver unmap flushed) :=
    OnlySegment.flushSegment core flushed unmap
  unfold Mapped
  by_cases same : segmentId = flushed
  · subst same
    rw [flushSegment_mapped]
    cases unmap <;> simp
  · rw [only.status segmentId same]
    simp [same]

/-- The segments that a flush leaves mapped. -/
theorem mapped_flush_iff (indirect : driver.directMSync = false) {offset size : Nat}
    {flags : FlushFlags} (segmentId : Nat) :
    (core.flush mapping driver offset size flags).Mapped segmentId ↔
      core.Mapped segmentId ∧ (flags.unmap = true →
        segmentId ∉ mapping.flushSegments offset size) := by
  have loop (segmentIds : List Nat) (current : Core) :
      (segmentIds.foldl (fun current flushed =>
        current.flushSegment mapping driver flags.unmap flushed)
          current).Mapped segmentId ↔
        current.Mapped segmentId ∧
          (flags.unmap = true → segmentId ∉ segmentIds) := by
    induction segmentIds generalizing current with
    | nil => simp
    | cons first rest inductionHypothesis =>
        rw [List.foldl_cons, inductionHypothesis, mapped_flushSegment_iff,
          List.mem_cons]
        tauto
  unfold flush flushLoop
  rw [indirect, if_neg Bool.false_ne_true]
  refine Iff.trans ?_ (loop _ core)
  dsimp only
  split <;> exact Iff.rfl

/-- The segments that `Mapping::dropClean` leaves mapped. -/
theorem mapped_dropClean_iff (segmentId : Nat) :
    (core.dropClean mapping).Mapped segmentId ↔
      core.Mapped segmentId ∧ (segmentId < mapping.segments →
        (core.status segmentId).dirty = true) := by
  have loop (segmentIds : List Nat) (current : Core) :
      (segmentIds.foldl (fun current dropped =>
        current.dropSegment mapping dropped) current).Mapped segmentId ↔
        current.Mapped segmentId ∧ (segmentId ∈ segmentIds →
          (current.status segmentId).dirty = true) := by
    induction segmentIds generalizing current with
    | nil => simp
    | cons first rest inductionHypothesis =>
        have only : OnlySegment mapping (fun _ => 0) first current
            (current.dropSegment mapping first) :=
          OnlySegment.dropSegment current first
        rw [List.foldl_cons, inductionHypothesis, List.mem_cons]
        unfold Mapped
        by_cases same : segmentId = first
        · subst same
          unfold dropSegment unmapSegment
          split
          · simp_all
          · simp_all
        · rw [only.status segmentId same]
          simp [same]
  unfold dropClean
  rw [loop, List.mem_range]

/-- `Mapping::markCleanAsDirty` neither maps nor withdraws a segment. -/
theorem mapped_markCleanAsDirty_iff (segmentId : Nat) :
    (core.markCleanAsDirty mapping).Mapped segmentId ↔
      core.Mapped segmentId := by
  have loop (segmentIds : List Nat) (current : Core) :
      (segmentIds.foldl (fun current marked =>
        current.markSegment mapping marked) current).Mapped segmentId ↔
        current.Mapped segmentId := by
    induction segmentIds generalizing current with
    | nil => exact Iff.rfl
    | cons first rest inductionHypothesis =>
        have only : OnlySegment mapping (fun _ => 0) first current
            (current.markSegment mapping first) :=
          OnlySegment.markSegment current first
        rw [List.foldl_cons, inductionHypothesis]
        unfold Mapped
        by_cases same : segmentId = first
        · subst same
          unfold markSegment
          split
          · simp
          · exact Iff.rfl
        · rw [only.status segmentId same]
  exact loop _ core

/-- An eviction withdraws its segment and no other. -/
theorem mapped_evict_iff (indirect : driver.directMSync = false)
    (segmentId other : Nat) :
    (core.evict mapping driver segmentId).Mapped other ↔
      core.Mapped other ∧ other ≠ segmentId := by
  unfold evict
  rw [indirect, if_neg Bool.false_ne_true, mapped_flushSegment_iff]
  simp

end Core
end UmmapIo
