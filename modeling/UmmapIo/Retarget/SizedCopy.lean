import UmmapIo.Retarget.SizedRuns

/-!
# Copies of files that end

`Mapping::copyMappedPart` checks that every read of the original file returns as
many bytes as it was asked for.  A segment is taken from the file unless it is mapped
and clean, so the copy gets past a segment exactly if it is mapped and clean or lies
within the file.  A copy that gets past all of them leaves the same bytes as one over
a driver that transfers everything, also when a file is copied onto itself.
-/

namespace UmmapIo

/-- The machine with another storage and after some transfers. -/
def Machine.refill (machine : Machine) (storage : Nat → Byte)
    (calls : Nat) : Machine :=
  { machine with core := { machine.core with storage := storage, calls := calls } }

section Files

variable {F : Type} [DecidableEq F] (files : FileState F) (name : F)

/-- Other bytes in a file change neither the memory nor the status of the
mapping. -/
theorem FileState.machine_write (bytes : Nat → Byte) :
    ∃ storage, (files.write name bytes).machine =
      files.machine.refill storage files.machine.core.calls := by
  unfold write
  split
  · exact ⟨_, rfl⟩
  · exact ⟨files.machine.core.storage, rfl⟩

theorem FileState.fd_write (bytes : Nat → Byte) :
    (files.write name bytes).fd = files.fd := by
  unfold write
  split <;> rfl

theorem FileState.contents_write (bytes : Nat → Byte) :
    (files.write name bytes).contents name = bytes := by
  unfold write
  split
  · rename_i used
    exact if_pos used
  · rename_i other
    exact (if_neg other).trans (Function.update_self _ _ _)

theorem FileState.contents_write_of_ne {other : F} (different : other ≠ name)
    (bytes : Nat → Byte) :
    (files.write name bytes).contents other = files.contents other := by
  unfold write
  split
  · rename_i used
    exact contents_setMachine (used ▸ different) _
  · by_cases used : other = files.fd
    · subst used
      exact (if_pos rfl).trans (contents_fd files).symm
    · exact (if_neg used).trans
        ((Function.update_of_ne different _ _).trans (contents_of_ne used).symm)

variable (driver : Driver) (buffer : Nat → Byte) (size offset : Nat)

theorem FileState.machine_pwrite :
    ∃ storage calls, (files.pwrite driver name buffer size offset).machine =
      files.machine.refill storage calls := by
  obtain ⟨storage, written⟩ := files.machine_write name
    (blit (files.contents name) offset (Core.transferred
      (driver.pwriteResult files.machine.core.calls size offset) size) buffer)
  refine ⟨storage, files.machine.core.calls + 1, ?_⟩
  unfold pwrite setCore setMachine
  dsimp only
  rw [written]
  rfl

theorem FileState.fd_pwrite :
    (files.pwrite driver name buffer size offset).fd = files.fd :=
  files.fd_write name _

/-- A transfer writes the file that it is for. -/
theorem FileState.contents_pwrite :
    (files.pwrite driver name buffer size offset).contents name =
      blit (files.contents name) offset (Core.transferred
        (driver.pwriteResult files.machine.core.calls size offset) size)
        buffer :=
  files.contents_write name _

theorem FileState.contents_pwrite_of_ne {other : F} (different : other ≠ name) :
    (files.pwrite driver name buffer size offset).contents other =
      files.contents other :=
  files.contents_write_of_ne name different _

end Files

/-! ## Transfers -/

section Transfers

variable {F : Type} [DecidableEq F] {mapping : Mapping} {clone : SizedClone F}
variable {thread : Nat} {state : SizedState F}

/-- `newDriver->pwrite`. -/
def SizedState.pwrite (state : SizedState F) (name : F) (buffer : Nat → Byte)
    (size offset : Nat) : SizedState F :=
  ⟨state.files.pwrite (FDDriver.ofSize state.usedSize) name buffer size offset,
    state.grown name (offset + size)⟩

/-- One more read was asked from the driver. -/
def SizedState.countRead (state : SizedState F) : SizedState F :=
  ⟨state.files.setCore state.files.machine.core.countCall, state.sizes⟩

theorem FDDriver.pwrite_ofSize (fileSize call size offset : Nat) :
    Core.transferred ((FDDriver.ofSize fileSize).pwriteResult call size offset)
        size = size :=
  Core.transferred_self size

theorem SizedState.usedSize_pwrite (state : SizedState F) (name : F)
    (buffer : Nat → Byte) (size offset : Nat) :
    (state.pwrite name buffer size offset).usedSize =
      state.grown name (offset + size) state.files.fd := by
  unfold usedSize pwrite
  dsimp only
  rw [FileState.fd_pwrite]

/-- A transfer moves the end of the file as far as it has to. -/
theorem SizedState.Ended.pwrite (ended : state.Ended) (name : F) (buffer : Nat → Byte)
    (size offset : Nat) :
    (state.pwrite name buffer size offset).Ended := by
  intro other position past
  have before := ended other position
    (Nat.le_trans (state.le_grown name (offset + size) other) past)
  unfold SizedState.file SizedState.pwrite at *
  dsimp only at *
  by_cases same : other = name
  · subst same
    have far := Nat.le_trans (state.self_le_grown other (offset + size)) past
    rw [FileState.contents_pwrite, FDDriver.pwrite_ofSize,
      blit_outside _ _ (Or.inr far)]
    exact before
  · rw [FileState.contents_pwrite_of_ne _ _ _ _ _ _ same]
    exact before

theorem run_sizedPwrite (name : F) (buffer : Nat → Byte) (size offset : Nat) :
    (Files.pwrite name buffer size offset).run (mapping.handleSized clone thread)
        state = .finished (size : Int) (state.pwrite name buffer size offset) :=
  rfl

theorem run_sizedPwriteMemory (name : F) (start size offset : Nat) :
    (Files.pwriteMemory name start size offset).run
        (mapping.handleSized clone thread) state =
      .finished (size : Int) (state.pwrite name
        (fun position => state.files.machine.core.memory (start + position))
        size offset) :=
  rfl

theorem run_sizedPreadBuffer (buffer : Nat → Byte) (size offset : Nat) :
    (Files.onMapping (Sys.preadBuffer buffer size offset)).run
        (mapping.handleSized clone thread) state =
      .finished (((min size (state.usedSize - offset) : Nat) : Int),
          state.files.machine.core.preadBuffer (FDDriver.ofSize state.usedSize)
            buffer size offset)
        state.countRead :=
  rfl

theorem run_sizedGetStatus (segmentId : Nat) :
    (Files.onMapping (F := F) (Sys.getStatus segmentId)).run
        (mapping.handleSized clone thread) state =
      .finished (state.files.machine.core.status segmentId) state :=
  rfl

end Transfers

/-! ## Segments -/

/-- The bytes of the segment lie within a storage of this size. -/
def Mapping.Covered (mapping : Mapping) (storageSize segmentId : Nat) : Prop :=
  mapping.storageOffset + mapping.segmentSize * segmentId +
    mapping.readWriteSize (mapping.segmentSize * segmentId) ≤ storageSize

instance Mapping.decidableCovered
    (mapping : Mapping)
    (storageSize segmentId : Nat) :
    Decidable (mapping.Covered storageSize segmentId) :=
  inferInstanceAs (Decidable (_ ≤ _))

/-- The copy of the segment gets past its checks: it takes the segment from memory,
or the file is long enough. -/
def Core.Copyable (core : Core) (mapping : Mapping)
    (storageSize segmentId : Nat) : Prop :=
  ((core.status segmentId).mapped && !(core.status segmentId).dirty) = true ∨
    mapping.Covered storageSize segmentId

instance Core.decidableCopyable
    (core : Core)
    (mapping : Mapping)
    (storageSize segmentId : Nat) :
    Decidable (core.Copyable mapping storageSize segmentId) :=
  inferInstanceAs (Decidable (_ ∨ _))

section Copy

variable {F : Type} [DecidableEq F] {mapping : Mapping} {clone : SizedClone F}
variable {thread : Nat} {start now : SizedState F} {target : F} {turns : Nat}

/-- A copy has done the first segments. -/
structure SizedState.Copied (mapping : Mapping) (target : F) (start : SizedState F)
    (turns : Nat)
    (now : SizedState F) : Prop where
  fd : now.files.fd = start.files.fd
  kept : ∃ storage calls,
    now.files.machine = start.files.machine.refill storage calls
  others : ∀ name, name ≠ target →
    now.files.contents name = start.files.contents name
  longer : start.usedSize ≤ now.usedSize
  bounded : now.usedSize ≤
    max start.usedSize (mapping.storageOffset + mapping.segmentSize * turns)
  ended : now.Ended
  done : ∀ offset, offset < mapping.size → offset / mapping.segmentSize < turns →
    now.files.contents target (mapping.storageOffset + offset) =
      start.files.machine.core.copySource mapping (offset / mapping.segmentSize) offset
  ahead : ∀ offset, offset < mapping.size → turns ≤ offset / mapping.segmentSize →
    now.files.contents target (mapping.storageOffset + offset) =
      start.files.contents target (mapping.storageOffset + offset)

namespace SizedState.Copied

theorem refl (ended : start.Ended) : start.Copied mapping target 0 start where
  fd := rfl
  kept := ⟨_, _, rfl⟩
  others := fun _ _ => rfl
  longer := Nat.le_refl _
  bounded := Nat.le_max_left _ _
  ended := ended
  done := fun _ _ absurdity => absurd absurdity (Nat.not_lt_zero _)
  ahead := fun _ _ _ => rfl

section

variable (copied : start.Copied mapping target turns now)
include copied

/-- The storage of the segments ahead is what it was. -/
theorem storage_ahead {offset : Nat} (inside : offset < mapping.size)
    (ahead : turns ≤ offset / mapping.segmentSize) :
    now.files.machine.core.storage (mapping.storageOffset + offset) =
      start.files.machine.core.storage (mapping.storageOffset + offset) := by
  rw [← FileState.contents_fd, ← FileState.contents_fd, copied.fd]
  by_cases same : start.files.fd = target
  · rw [same]
    exact copied.ahead offset inside ahead
  · rw [copied.others _ same]

/-- The file is no longer than it was, as far as the segments ahead are
concerned. -/
theorem covered_iff (exists_ : turns < mapping.segments) :
    mapping.Covered now.usedSize turns ↔ mapping.Covered start.usedSize turns := by
  have longer := copied.longer
  have bounded := copied.bounded
  have starts := (mapping.lt_segments_iff turns).mp exists_
  have moved := mapping.readWriteSize_pos starts
  unfold Mapping.Covered
  omega

theorem countRead :
    start.Copied mapping target turns now.countRead := by
  obtain ⟨storage, calls, kept⟩ := copied.kept
  refine ⟨copied.fd, ⟨storage, calls + 1, ?_⟩, copied.others, copied.longer,
    copied.bounded, copied.ended, copied.done, copied.ahead⟩
  unfold SizedState.countRead FileState.setCore FileState.setMachine
  dsimp only
  rw [kept]
  rfl

/-- The transfer of the next segment, from a buffer that holds what it should. -/
theorem pwrite {buffer : Nat → Byte}
    (right : ∀ position,
      position < mapping.readWriteSize (mapping.segmentSize * turns) →
        buffer position = start.files.machine.core.copySource mapping turns
          (mapping.segmentSize * turns + position)) :
    start.Copied mapping target (turns + 1) (now.pwrite target buffer
      (mapping.readWriteSize (mapping.segmentSize * turns))
      (mapping.storageOffset + mapping.segmentSize * turns)) := by
  have short := mapping.readWriteSize_le (mapping.segmentSize * turns)
  have written (offset : Nat) (inside : offset < mapping.size) :
      (now.pwrite target buffer (mapping.readWriteSize (mapping.segmentSize * turns))
          (mapping.storageOffset + mapping.segmentSize * turns)).files.contents
          target (mapping.storageOffset + offset) =
        if offset / mapping.segmentSize = turns then
          start.files.machine.core.copySource mapping turns offset
        else
          now.files.contents target (mapping.storageOffset + offset) := by
    unfold SizedState.pwrite
    dsimp only
    rw [FileState.contents_pwrite, FDDriver.pwrite_ofSize, blit_congr right,
      Mapping.blit_segment inside _ (start.files.machine.core.copySource mapping turns)]
  obtain ⟨storage, calls, kept⟩ := copied.kept
  obtain ⟨storage', calls', turned⟩ := FileState.machine_pwrite now.files target
    (FDDriver.ofSize now.usedSize) buffer
    (mapping.readWriteSize (mapping.segmentSize * turns))
    (mapping.storageOffset + mapping.segmentSize * turns)
  refine ⟨(FileState.fd_pwrite _ _ _ _ _ _).trans copied.fd,
    ⟨storage', calls', turned.trans (by rw [kept]; rfl)⟩, ?_, ?_, ?_, ?_, ?_, ?_⟩
  · intro name other
    exact (FileState.contents_pwrite_of_ne _ _ _ _ _ _ other).trans
      (copied.others name other)
  · rw [SizedState.usedSize_pwrite]
    exact Nat.le_trans copied.longer (now.le_grown _ _ _)
  · have bounded := copied.bounded
    rw [SizedState.usedSize_pwrite, Nat.mul_succ]
    unfold SizedState.grown
    unfold SizedState.usedSize at bounded ⊢
    by_cases same : now.files.fd = target
    · subst same
      rw [Function.update_self]
      omega
    · rw [Function.update_of_ne same]
      omega
  · exact copied.ended.pwrite _ _ _ _
  · intro offset inside done
    rw [written offset inside]
    split
    · rename_i here
      rw [here]
    · exact copied.done offset inside (by omega)
  · intro offset inside ahead
    rw [written offset inside, if_neg (by omega)]
    exact copied.ahead offset inside (by omega)

theorem status_eq (segmentId : Nat) :
    now.files.machine.core.status segmentId =
      start.files.machine.core.status segmentId := by
  obtain ⟨storage, calls, kept⟩ := copied.kept
  rw [kept]
  rfl

/-- The copy of the next segment, from memory or from a file that is long enough. -/
theorem copySegment (exists_ : turns < mapping.segments)
    (copyable : start.files.machine.core.Copyable mapping start.usedSize turns) :
    ∃ next, (mapping.copySegment target mapping.size turns).run
        (mapping.handleSized clone thread) now = .finished () next ∧
      start.Copied mapping target (turns + 1) next := by
  have starts := (mapping.lt_segments_iff turns).mp exists_
  unfold Mapping.copySegment
  dsimp only
  rw [Mapping.copySize_eq_readWriteSize starts, Program.run_bind,
    run_sizedGetStatus, Outcome.andThen_finished, copied.status_eq]
  cases clean : (start.files.machine.core.status turns).mapped &&
      !(start.files.machine.core.status turns).dirty with
  | true =>
      rw [if_pos rfl, Program.run_bind, run_sizedPwriteMemory,
        Outcome.andThen_finished, decide_eq_true (Eq.refl _)]
      refine ⟨_, rfl, copied.pwrite fun position _ => ?_⟩
      obtain ⟨storage, calls, kept⟩ := copied.kept
      rw [kept]
      exact (if_pos clean).symm
  | false =>
      have covered := (copied.covered_iff exists_).mpr
        (copyable.resolve_left (by rw [clean]; exact Bool.false_ne_true))
      unfold Mapping.Covered at covered
      have whole : min (mapping.readWriteSize (mapping.segmentSize * turns))
          (now.usedSize - (mapping.storageOffset + mapping.segmentSize * turns)) =
          mapping.readWriteSize (mapping.segmentSize * turns) := by
        omega
      rw [if_neg Bool.false_ne_true, Program.run_bind, run_sizedPreadBuffer,
        Outcome.andThen_finished]
      dsimp only
      rw [whole, decide_eq_true (Eq.refl _), Program.assume_true, Program.done_bind,
        Program.run_bind, run_sizedPwrite, Outcome.andThen_finished,
        decide_eq_true (Eq.refl _)]
      refine ⟨_, rfl, copied.countRead.pwrite fun position below => ?_⟩
      have short := mapping.readWriteSize_le (mapping.segmentSize * turns)
      have fits := mapping.add_readWriteSize_le starts
      have here : (mapping.segmentSize * turns + position) / mapping.segmentSize =
          turns :=
        (div_eq_iff_block mapping.segmentSize_pos).mpr (by omega)
      unfold Core.preadBuffer
      rw [FDDriver.transferred_ofSize, whole,
        blit_inside _ _ (Nat.zero_le _) (by omega), Nat.sub_zero, Nat.add_assoc,
        copied.storage_ahead (by omega) (Nat.le_of_eq here.symm)]
      unfold Core.copySource
      rw [clean, if_neg Bool.false_ne_true]

/-- The copy of the next segment stops when the file is too short for it. -/
theorem copySegment_aborts (exists_ : turns < mapping.segments)
    (stuck : ¬start.files.machine.core.Copyable mapping start.usedSize turns) :
    ∃ message final, (mapping.copySegment target mapping.size turns).run
        (mapping.handleSized clone thread) now = .aborted message final := by
  have starts := (mapping.lt_segments_iff turns).mp exists_
  have moved := mapping.readWriteSize_pos starts
  obtain ⟨elsewhere, notCovered⟩ := not_or.mp stuck
  rw [← copied.covered_iff exists_] at notCovered
  unfold Mapping.Covered at notCovered
  have fewer : ((min (mapping.readWriteSize (mapping.segmentSize * turns))
      (now.usedSize - (mapping.storageOffset + mapping.segmentSize * turns)) :
        Nat) : Int) ≠
      (mapping.readWriteSize (mapping.segmentSize * turns) : Int) := by
    omega
  unfold Mapping.copySegment
  dsimp only
  rw [Mapping.copySize_eq_readWriteSize starts, Program.run_bind,
    run_sizedGetStatus, Outcome.andThen_finished, copied.status_eq,
    if_neg elsewhere, Program.run_bind, run_sizedPreadBuffer,
    Outcome.andThen_finished]
  dsimp only
  rw [decide_eq_false fewer]
  exact ⟨_, _, rfl⟩

end

/-- The copy of the first segments comes to its end if it gets past each of
them. -/
theorem copySegments (ended : start.Ended) (exist : turns ≤ mapping.segments)
    (copyable : ∀ segmentId, segmentId < turns →
      start.files.machine.core.Copyable mapping start.usedSize segmentId) :
    ∃ now, (Program.each (mapping.copySegment target mapping.size)
        (List.range turns)).run (mapping.handleSized clone thread) start =
          .finished () now ∧
      start.Copied mapping target turns now := by
  induction turns with
  | zero => exact ⟨start, rfl, refl ended⟩
  | succ turns inductionHypothesis =>
      obtain ⟨now, ran, copied⟩ := inductionHypothesis (by omega)
        fun segmentId below => copyable segmentId (by omega)
      obtain ⟨next, turn, copied'⟩ := copied.copySegment exist
        (copyable turns (Nat.lt_succ_self turns))
      refine ⟨next, ?_, copied'⟩
      rw [List.range_succ, Program.each_append, Program.run_bind, ran,
        Outcome.andThen_finished, Program.each_cons, Program.run_bind, turn]
      rfl

theorem copySegments_aborts (ended : start.Ended) (exist : turns ≤ mapping.segments)
    (stuck : ∃ segmentId, segmentId < turns ∧
      ¬start.files.machine.core.Copyable mapping start.usedSize segmentId) :
    ∃ message final, (Program.each (mapping.copySegment target mapping.size)
        (List.range turns)).run (mapping.handleSized clone thread) start =
          .aborted message final := by
  induction turns with
  | zero =>
      obtain ⟨segmentId, absurdity, _⟩ := stuck
      exact absurd absurdity (Nat.not_lt_zero _)
  | succ turns inductionHypothesis =>
      rw [List.range_succ, Program.each_append, Program.run_bind]
      by_cases earlier : ∃ segmentId, segmentId < turns ∧
          ¬start.files.machine.core.Copyable mapping start.usedSize segmentId
      · obtain ⟨message, final, stops⟩ := inductionHypothesis (by omega) earlier
        rw [stops]
        exact ⟨message, final, rfl⟩
      · have copyable : ∀ segmentId, segmentId < turns →
            start.files.machine.core.Copyable mapping start.usedSize segmentId :=
          fun segmentId below =>
            by_contra fun stops => earlier ⟨segmentId, below, stops⟩
        obtain ⟨segmentId, below, stops⟩ := stuck
        obtain rfl : segmentId = turns := by
          by_contra other
          exact stops (copyable segmentId (by omega))
        obtain ⟨now, ran, copied⟩ := copySegments ended (by omega) copyable
        obtain ⟨message, final, aborted⟩ := copied.copySegment_aborts exist stops
        rw [ran, Outcome.andThen_finished, Program.each_cons, Program.run_bind,
          aborted]
        exact ⟨message, final, rfl⟩

end SizedState.Copied

end Copy

end UmmapIo
