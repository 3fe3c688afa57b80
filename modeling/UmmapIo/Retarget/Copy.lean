import UmmapIo.Retarget.Defs
import UmmapIo.Mapping.Sequential

/-!
# What a copy of the mapped part does

A copy writes the target and no other file.  Each segment is taken from memory when
it is in step with the storage and from the storage otherwise, so the target ends
up with one definite byte for every offset below the size of the mapping.
-/

namespace UmmapIo

variable {F : Type} [DecidableEq F]

/-! ## Files -/

namespace FileState

variable (state : FileState F)

theorem contents_fd : state.contents state.fd = state.machine.core.storage :=
  if_pos rfl

variable {state}

theorem contents_of_ne {file : F} (apart : file ≠ state.fd) :
    state.contents file = state.others file :=
  if_neg apart

variable (state)

/-- The files stay as they are when the driver turns to another one. -/
theorem contents_setFd (file other : F) :
    (state.setFd file).contents other = state.contents other := by
  by_cases same : other = file
  · subst same
    exact if_pos rfl
  · rw [contents_of_ne (show other ≠ (state.setFd file).fd from same)]
    by_cases used : other = state.fd
    · subst used
      rw [contents_fd]
      exact Function.update_self _ _ _
    · rw [contents_of_ne used]
      exact Function.update_of_ne used _ _

/-- The state after some transfers, with other bytes in a file that the driver
does not use. -/
def copied (target : F) (calls : Nat)
    (bytes : Nat → Byte) : FileState F where
  machine :=
    { state.machine with core := { state.machine.core with calls := calls } }
  fd := state.fd
  others := Function.update state.others target bytes

variable {state} {target : F} {calls : Nat} {bytes : Nat → Byte}

@[simp] theorem copied_status :
    (state.copied target calls bytes).machine.core.status =
      state.machine.core.status := rfl

theorem copied_self (target : F) :
    state.copied target state.machine.core.calls (state.others target) =
      state := by
  unfold copied
  rw [Function.update_eq_self]

theorem contents_copied_of_ne {file : F} (other : file ≠ target) :
    (state.copied target calls bytes).contents file = state.contents file := by
  unfold contents copied
  split
  · rfl
  · exact Function.update_of_ne other _ _

theorem contents_copied (apart : target ≠ state.fd) :
    (state.copied target calls bytes).contents target = bytes := by
  rw [contents_of_ne (show target ≠ (state.copied target calls bytes).fd
    from apart)]
  exact Function.update_self _ _ _

theorem write_eq_copied (apart : target ≠ state.fd) (bytes : Nat → Byte) :
    state.write target bytes =
      state.copied target state.machine.core.calls bytes :=
  if_neg apart

theorem pwrite_copied {driver : Driver} (full : driver.Full) (apart : target ≠ state.fd)
    (buffer : Nat → Byte) (size offset : Nat) :
    (state.copied target calls bytes).pwrite driver target buffer size offset =
      state.copied target (calls + 1) (blit bytes offset size buffer) := by
  unfold pwrite write
  dsimp only
  rw [contents_copied apart, if_neg (show target ≠
    (state.copied target calls bytes).fd from apart)]
  unfold copied setCore setMachine Core.countCall
  dsimp only
  rw [(full calls size offset).2, Core.transferred_self, Function.update_idem]

end FileState

/-! ## Segments -/

section Copy

variable {mapping : Mapping} {driver : Driver} {clone : CloneAnswer F}
variable {thread : Nat} {state : FileState F} {target : F} {segmentId : Nat}

/-- A copy of the whole mapped part moves the bytes of a segment that belong to
the mapped data. -/
theorem Mapping.copySize_eq_readWriteSize {i : Nat} (inside : i < mapping.size) :
    mapping.copySize mapping.size i = mapping.readWriteSize i := by
  unfold copySize readWriteSize
  dsimp only
  split <;> split <;> split <;> omega

/-- Where a copy takes a byte of a segment from. -/
def Core.copySource (core : Core) (mapping : Mapping)
    (segmentId offset : Nat) : Byte :=
  if (core.status segmentId).mapped && !(core.status segmentId).dirty then
    core.memory offset
  else
    core.storage (mapping.storageOffset + offset)

variable {mayAbort : Prop} {calls : Nat} {bytes : Nat → Byte}

theorem ends_pwrite (full : driver.Full) (apart : target ≠ state.fd)
    (buffer : Nat → Byte) (size offset : Nat) :
    (Files.pwrite target buffer size offset).Ends
      (mapping.handleFiles driver clone thread) mayAbort
      (state.copied target calls bytes) (size : Int)
      (state.copied target (calls + 1) (blit bytes offset size buffer)) := by
  refine Program.Ends.request ?_
  rw [← FileState.pwrite_copied full apart, ← (full calls size offset).2]
  rfl

theorem ends_pwriteMemory (full : driver.Full) (apart : target ≠ state.fd)
    (start size offset : Nat) :
    (Files.pwriteMemory target start size offset).Ends
      (mapping.handleFiles driver clone thread) mayAbort
      (state.copied target calls bytes) (size : Int)
      (state.copied target (calls + 1) (blit bytes offset size fun position =>
        state.machine.core.memory (start + position))) := by
  refine Program.Ends.request ?_
  rw [← FileState.pwrite_copied full apart, ← (full calls size offset).2]
  rfl

theorem ends_preadBuffer (full : driver.Full) (buffer : Nat → Byte)
    (size offset : Nat) :
    (Files.onMapping (Sys.preadBuffer buffer size offset)).Ends
      (mapping.handleFiles driver clone thread) mayAbort
      (state.copied target calls bytes)
      ((size : Int), blit buffer 0 size fun position =>
        state.machine.core.storage (offset + position))
      (state.copied target (calls + 1) bytes) := by
  refine Program.Ends.request (Eq.trans (b := some ((
    driver.preadResult calls size offset,
    blit buffer 0 (Core.transferred (driver.preadResult calls size offset) size)
      fun position => state.machine.core.storage (offset + position)),
    state.copied target (calls + 1) bytes)) rfl ?_)
  rw [(full calls size offset).1, Core.transferred_self]
  rfl

theorem ends_copySegment (full : driver.Full) (apart : target ≠ state.fd)
    (inside : mapping.segmentSize * segmentId < mapping.size)
    (calls : Nat) (bytes : Nat → Byte) :
    ∃ calls', (mapping.copySegment target mapping.size segmentId).Ends
      (mapping.handleFiles driver clone thread) False
      (state.copied target calls bytes) ()
      (state.copied target calls' (blit bytes
        (mapping.storageOffset + mapping.segmentSize * segmentId)
        (mapping.readWriteSize (mapping.segmentSize * segmentId))
        fun position => state.machine.core.copySource mapping segmentId
          (mapping.segmentSize * segmentId + position))) := by
  unfold Mapping.copySegment Core.copySource
  dsimp only
  rw [Mapping.copySize_eq_readWriteSize inside]
  cases clean : (state.machine.core.status segmentId).mapped &&
      !(state.machine.core.status segmentId).dirty with
  | true =>
      refine ⟨calls + 1, Program.Ends.bind (.request rfl) ?_⟩
      rw [FileState.copied_status, if_pos clean]
      refine (ends_pwriteMemory full apart _ _ _).bind ?_
      rw [decide_eq_true (Eq.refl _)]
      exact .done () _
  | false =>
      refine ⟨calls + 1 + 1, Program.Ends.bind (.request rfl) ?_⟩
      rw [FileState.copied_status, clean]
      refine (ends_preadBuffer full _ _ _).bind ?_
      dsimp only
      rw [decide_eq_true (Eq.refl _)]
      refine (ends_pwrite full apart _ _ _).bind ?_
      rw [decide_eq_true (Eq.refl _), blit_buffer]
      simp only [Nat.add_assoc]
      exact .done () _

/-- A copy of one segment reaches the bytes of that segment. -/
theorem Mapping.blit_segment {offset : Nat} (inside : offset < mapping.size)
    (bytes source : Nat → Byte) (segmentId : Nat) :
    blit bytes (mapping.storageOffset + mapping.segmentSize * segmentId)
        (mapping.readWriteSize (mapping.segmentSize * segmentId))
        (fun position => source (mapping.segmentSize * segmentId + position))
        (mapping.storageOffset + offset) =
      if offset / mapping.segmentSize = segmentId then source offset
      else bytes (mapping.storageOffset + offset) := by
  split
  · rename_i here
    have lower := ((div_eq_iff_block mapping.segmentSize_pos).mp here).1
    have upper := (mapping.lt_readWriteSize_iff here).mpr inside
    rw [blit_inside _ _ (by omega) (by omega)]
    congr 1
    omega
  · rename_i elsewhere
    have short := mapping.readWriteSize_le (mapping.segmentSize * segmentId)
    rw [div_eq_iff_block mapping.segmentSize_pos] at elsewhere
    exact blit_outside _ _ (by omega)

/-- The copies of some segments, one after the other: their bytes are right then,
and those that were right before still are. -/
theorem ends_copySegments (full : driver.Full) (apart : target ≠ state.fd)
    {segmentIds : List Nat}
    (exist : ∀ segmentId ∈ segmentIds,
      mapping.segmentSize * segmentId < mapping.size)
    (calls : Nat)
    (bytes : Nat → Byte) :
    ∃ calls' bytes',
      (Program.each (mapping.copySegment target mapping.size) segmentIds).Ends
        (mapping.handleFiles driver clone thread) False
        (state.copied target calls bytes) ()
        (state.copied target calls' bytes') ∧
      ∀ offset, offset < mapping.size →
        offset / mapping.segmentSize ∈ segmentIds ∨
          bytes (mapping.storageOffset + offset) =
            state.machine.core.copySource mapping
              (offset / mapping.segmentSize) offset →
        bytes' (mapping.storageOffset + offset) =
          state.machine.core.copySource mapping (offset / mapping.segmentSize)
            offset := by
  induction segmentIds generalizing calls bytes with
  | nil =>
      refine ⟨calls, bytes, .done () _, ?_⟩
      rintro offset _ (absurdity | right)
      · cases absurdity
      · exact right
  | cons first rest inductionHypothesis =>
      obtain ⟨calls₁, copies⟩ := ends_copySegment full apart
        (exist first List.mem_cons_self) calls bytes
      obtain ⟨calls₂, bytes₂, follows, right⟩ := inductionHypothesis
        (fun segmentId member => exist segmentId (List.mem_cons_of_mem _ member))
        calls₁ _
      refine ⟨calls₂, bytes₂, copies.bind follows, ?_⟩
      intro offset inside reached
      refine right offset inside ?_
      rw [Mapping.blit_segment inside bytes]
      by_cases here : offset / mapping.segmentSize = first
      · rw [if_pos here, here]
        exact Or.inr rfl
      · rw [if_neg here]
        obtain member | before := reached
        · exact Or.inl ((List.mem_cons.mp member).resolve_left here)
        · exact Or.inr before

/-- `Mapping::copyToDriver` with the size of the storage up to the end of the
mapping. -/
theorem ends_copyToDriver (full : driver.Full) (apart : target ≠ state.fd) :
    ∃ calls bytes,
      (mapping.copyToDriver target (mapping.storageOffset + mapping.size)).Ends
        (mapping.handleFiles driver clone thread) False state ()
        (state.copied target calls bytes) ∧
      ∀ offset, offset < mapping.size →
        bytes (mapping.storageOffset + offset) =
          state.machine.core.copySource mapping (offset / mapping.segmentSize)
            offset := by
  have exist : ∀ segmentId ∈ List.range mapping.segments,
      mapping.segmentSize * segmentId < mapping.size := fun segmentId member =>
    (mapping.lt_segments_iff segmentId).mp (List.mem_range.mp member)
  obtain ⟨calls, bytes, copies, right⟩ := ends_copySegments full
    apart exist state.machine.core.calls (state.others target)
  rw [FileState.copied_self] at copies
  refine ⟨calls, bytes, ?_, ?_⟩
  · unfold Mapping.copyToDriver
    refine Program.Ends.assume (Or.inl (decide_eq_true (Nat.le_add_right _ _)))
      fun _ => ?_
    unfold Mapping.copyMappedPart
    dsimp only
    rw [Nat.add_sub_cancel_left, if_neg (Nat.lt_irrefl _)]
    exact copies
  · intro offset inside
    refine right offset inside (Or.inl (List.mem_range.mpr ?_))
    exact (mapping.lt_getAlignedSize_iff offset).mp
      (Nat.lt_of_lt_of_le inside mapping.size_le_getAlignedSize)

end Copy

end UmmapIo
