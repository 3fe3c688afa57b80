import UmmapIo.Mapping.View

/-!
# Changes confined to one segment

Most steps concern a single segment: they leave the status, the protection, the
memory and the storage of every other segment as they were, and they do not
change what loads should return.
-/

namespace UmmapIo

section Frame

variable (mapping : Mapping) (initial : Nat → Byte)

/-- A step that leaves every other segment and the meaning of the record as
they were. -/
structure OnlySegment (segmentId : Nat) (before after : Core) : Prop where
  status : ∀ other, other ≠ segmentId →
    after.status other = before.status other
  pages : ∀ other, other ≠ segmentId → after.pages other = before.pages other
  memory : ∀ offset, offset / mapping.segmentSize ≠ segmentId →
    after.memory offset = before.memory offset
  storage : ∀ offset, offset < mapping.size →
    offset / mapping.segmentSize ≠ segmentId →
      after.storage (mapping.storageOffset + offset) =
        before.storage (mapping.storageOffset + offset)
  record : expected initial after.trace = expected initial before.trace
  loads : LoadsCoherent mapping.size initial before.trace →
    LoadsCoherent mapping.size initial after.trace

variable {mapping initial}

namespace OnlySegment

theorem refl (core : Core) (segmentId : Nat) :
    OnlySegment mapping initial segmentId core core where
  status := fun _ _ => rfl
  pages := fun _ _ => rfl
  memory := fun _ _ => rfl
  storage := fun _ _ _ => rfl
  record := rfl
  loads := id

theorem trans {segmentId : Nat} {first second third : Core}
    (before : OnlySegment mapping initial segmentId first second)
    (after : OnlySegment mapping initial segmentId second third) :
    OnlySegment mapping initial segmentId first third where
  status := fun other different =>
    (after.status other different).trans (before.status other different)
  pages := fun other different =>
    (after.pages other different).trans (before.pages other different)
  memory := fun offset different =>
    (after.memory offset different).trans (before.memory offset different)
  storage := fun offset inside different =>
    (after.storage offset inside different).trans
      (before.storage offset inside different)
  record := after.record.trans before.record
  loads := fun coherent => after.loads (before.loads coherent)

section Contents

variable {segmentId : Nat} {before after : Core} {other : Nat}

theorem memoryOk
    (only : OnlySegment mapping initial segmentId before after)
    (different : other ≠ segmentId)
    (contents : MemoryOk mapping initial before other) :
    MemoryOk mapping initial after other := by
  intro offset inside inSegment
  rw [only.memory offset (by rw [inSegment]; exact different), only.record]
  exact contents offset inside inSegment

theorem storageOk
    (only : OnlySegment mapping initial segmentId before after)
    (different : other ≠ segmentId)
    (contents : StorageOk mapping initial before other) :
    StorageOk mapping initial after other := by
  intro offset inside inSegment
  rw [only.storage offset inside (by rw [inSegment]; exact different),
    only.record]
  exact contents offset inside inSegment

end Contents

/-! ## Updates of the machine -/

section

variable (core : Core) (segmentId : Nat)
include core segmentId

theorem setStatus (status : SegmentStatus) :
    OnlySegment mapping initial segmentId core
      { core with status := Function.update core.status segmentId status } where
  status := fun other different => by simp [different]
  pages := fun _ _ => rfl
  memory := fun _ _ => rfl
  storage := fun _ _ _ => rfl
  record := rfl
  loads := id

theorem mprotect (protection : Protection) :
    OnlySegment mapping initial segmentId core
      (core.mprotect segmentId protection) where
  status := fun _ _ => rfl
  pages := fun other different => by simp [different]
  memory := fun _ _ => rfl
  storage := fun _ _ _ => rfl
  record := rfl
  loads := id

theorem countCall :
    OnlySegment mapping initial segmentId core core.countCall where
  status := fun _ _ => rfl
  pages := fun _ _ => rfl
  memory := fun _ _ => rfl
  storage := fun _ _ _ => rfl
  record := rfl
  loads := id

theorem madviseDontNeed :
    OnlySegment mapping initial segmentId core
      (core.madviseDontNeed mapping segmentId) where
  status := fun _ _ => rfl
  pages := fun _ _ => rfl
  memory := fun offset different => by
    rw [Core.madviseDontNeed_memory]
    exact blit_otherBlock _ _ mapping.segmentSize_pos different
  storage := fun _ _ _ => rfl
  record := rfl
  loads := id

theorem mremapForced (buffer : Nat → Byte) (protection : Protection) :
    OnlySegment mapping initial segmentId core
      (core.mremapForced mapping segmentId buffer protection) where
  status := fun _ _ => rfl
  pages := fun other different => by simp [different]
  memory := fun offset different => by
    rw [Core.mremapForced_memory]
    exact blit_otherBlock _ _ mapping.segmentSize_pos different
  storage := fun _ _ _ => rfl
  record := rfl
  loads := id

end

/-- A transfer of a segment to the storage stays within the bytes of that
segment. -/
theorem pwrite (core : Core) (driver : Driver) (segmentId : Nat) :
    OnlySegment mapping initial segmentId core
      (core.pwrite driver (mapping.segmentSize * segmentId)
        (mapping.readWriteSize (mapping.segmentSize * segmentId))
        (mapping.storageOffset + mapping.segmentSize * segmentId)) where
  status := fun _ _ => rfl
  pages := fun _ _ => rfl
  memory := fun _ _ => rfl
  storage := fun offset _ different => by
    have short := mapping.readWriteSize_le (mapping.segmentSize * segmentId)
    rw [Ne, div_eq_iff_block mapping.segmentSize_pos] at different
    rw [Core.pwrite_storage]
    apply blit_outside
    unfold Core.transferred
    omega
  record := by simp
  loads := fun coherent => coherent.cons_other fun _ _ _ => Event.noConfusion


end OnlySegment

/-! ## Stores -/

variable {core : Core} {thread segmentId : Nat}

/-- A store changes the memory and what loads should return alike. -/
theorem MemoryOk.store
    (contents : MemoryOk mapping initial core segmentId)
    (offset : Nat) (value : Byte) :
    MemoryOk mapping initial (core.store thread offset value) segmentId := by
  intro other inside inSegment
  simp only [Core.store_memory, Core.store_trace, expected_store]
  by_cases same : other = offset
  · subst same
    simp
  · simp only [Function.update_of_ne same]
    exact contents other inside inSegment

/-- A store to another segment does not concern the storage of this one. -/
theorem StorageOk.store {offset : Nat}
    (contents : StorageOk mapping initial core segmentId)
    (different : offset / mapping.segmentSize ≠ segmentId)
    (value : Byte) :
    StorageOk mapping initial (core.store thread offset value) segmentId := by
  intro other inside inSegment
  have distinct : other ≠ offset := by
    intro same
    subst same
    exact different inSegment
  simp only [Core.store_storage, Core.store_trace, expected_store,
    Function.update_of_ne distinct]
  exact contents other inside inSegment

/-! ## Segments that a change does not concern -/

/-- A change that does not concern this segment. -/
structure Untouched (mapping : Mapping) (initial : Nat → Byte) (segmentId : Nat)
    (before after : Core) : Prop where
  status : after.status segmentId = before.status segmentId
  pages : after.pages segmentId = before.pages segmentId
  memory : ∀ offset, offset / mapping.segmentSize = segmentId →
    after.memory offset = before.memory offset
  storage : ∀ offset, offset < mapping.size →
    offset / mapping.segmentSize = segmentId →
      after.storage (mapping.storageOffset + offset) =
        before.storage (mapping.storageOffset + offset)
  record : expected initial after.trace = expected initial before.trace

theorem OnlySegment.untouched {other : Nat} {before after : Core}
    (only : OnlySegment mapping initial other before after)
    (different : segmentId ≠ other) :
    Untouched mapping initial segmentId before after where
  status := only.status segmentId different
  pages := only.pages segmentId different
  memory := fun offset inSegment => only.memory offset (by
    rw [inSegment]
    exact different)
  storage := fun offset inside inSegment => only.storage offset inside (by
    rw [inSegment]
    exact different)
  record := only.record

namespace Untouched

variable {segmentId : Nat}

theorem refl (core : Core) : Untouched mapping initial segmentId core core :=
  ⟨rfl, rfl, fun _ _ => rfl, fun _ _ _ => rfl, rfl⟩

theorem trans {first second third : Core}
    (before : Untouched mapping initial segmentId first second)
    (after : Untouched mapping initial segmentId second third) :
    Untouched mapping initial segmentId first third where
  status := after.status.trans before.status
  pages := after.pages.trans before.pages
  memory := fun offset inSegment =>
    (after.memory offset inSegment).trans (before.memory offset inSegment)
  storage := fun offset inside inSegment =>
    (after.storage offset inside inSegment).trans
      (before.storage offset inside inSegment)
  record := after.record.trans before.record

variable {before after : Core}

theorem memoryOk
    (untouched : Untouched mapping initial segmentId before after)
    (contents : MemoryOk mapping initial before segmentId) :
    MemoryOk mapping initial after segmentId := by
  intro offset inside inSegment
  rw [untouched.memory offset inSegment, untouched.record]
  exact contents offset inside inSegment

theorem storageOk
    (untouched : Untouched mapping initial segmentId before after)
    (contents : StorageOk mapping initial before segmentId) :
    StorageOk mapping initial after segmentId := by
  intro offset inside inSegment
  rw [untouched.storage offset inside inSegment, untouched.record]
  exact contents offset inside inSegment

variable {effect : Core → Nat → Core}
variable (only : ∀ core item, OnlySegment mapping initial item core (effect core item))

include only

variable {segmentIds : List Nat}

/-- A loop does not concern the segments it does not visit. -/
theorem foldl (absent : segmentId ∉ segmentIds) (core : Core) :
    Untouched mapping initial segmentId core (segmentIds.foldl effect core) := by
  induction segmentIds generalizing core with
  | nil => exact refl core
  | cons first rest inductionHypothesis =>
      rw [List.mem_cons, not_or] at absent
      exact ((only core first).untouched absent.1).trans
        (inductionHypothesis absent.2 _)

/-- For a segment it visits once, a loop is a single turn of its body. -/
theorem exists_foldl (distinct : segmentIds.Nodup) (member : segmentId ∈ segmentIds)
    (core : Core) :
    ∃ middle, Untouched mapping initial segmentId core middle ∧
      Untouched mapping initial segmentId (effect middle segmentId)
        (segmentIds.foldl effect core) := by
  induction segmentIds generalizing core with
  | nil => cases member
  | cons first rest inductionHypothesis =>
      rw [List.nodup_cons] at distinct
      by_cases same : segmentId = first
      · subst same
        exact ⟨core, refl core, foldl only distinct.1 _⟩
      · have inRest : segmentId ∈ rest := by
          rw [List.mem_cons] at member
          exact member.resolve_left same
        obtain ⟨middle, before, after⟩ :=
          inductionHypothesis distinct.2 inRest (effect core first)
        exact ⟨middle, ((only core first).untouched same).trans before, after⟩

/-- What one turn of a loop keeps of its segment, the loop keeps of every segment. -/
theorem forall_foldl (property : Core → Nat → Prop)
    (kept : ∀ first second other, Untouched mapping initial other first second →
      property first other → property second other)
    (turn : ∀ current item, property current item →
      property (effect current item) item)
    {core : Core}
    (holds : ∀ other, property core other)
    (segmentIds : List Nat) :
    ∀ other, property (segmentIds.foldl effect core) other := by
  induction segmentIds generalizing core with
  | nil => exact holds
  | cons first rest inductionHypothesis =>
      apply inductionHypothesis
      intro other
      by_cases same : other = first
      · rw [same]
        exact turn core first (holds first)
      · exact kept _ _ _ ((only core first).untouched same) (holds other)

/-- What one turn of a loop establishes for its segment holds after the loop,
and what holds of other segments remains. -/
theorem foldl_rule (before after : Core → Prop) {core : Core}
    (distinct : segmentIds.Nodup)
    (beforeLocal : ∀ first second,
      Untouched mapping initial segmentId first second →
        before first → before second)
    (afterLocal : ∀ first second,
      Untouched mapping initial segmentId first second →
        after first → after second)
    (turn : ∀ current, before current → after (effect current segmentId))
    (holds : before core) :
    (segmentId ∈ segmentIds → after (segmentIds.foldl effect core)) ∧
      (segmentId ∉ segmentIds → before (segmentIds.foldl effect core)) := by
  refine ⟨?_, ?_⟩
  · intro member
    obtain ⟨middle, earlier, later⟩ := exists_foldl only distinct member core
    exact afterLocal _ _ later (turn middle (beforeLocal _ _ earlier holds))
  · intro absent
    exact beforeLocal _ _ (foldl only absent core) holds

end Untouched

end Frame

end UmmapIo
