import UmmapIo.Retarget.Copy
import UmmapIo.Mapping.InOrder
import UmmapIo.Mapping.Durability
import UmmapIo.Mapping.Transparency

/-!
# Copy on write keeps the view

The contents of a clean segment are in the storage, so the target of a copy or of a
clone holds them afterwards; the contents of a dirty segment are in memory and reach
the target with the next flush.  The status bits therefore tell where the contents
are after the driver was retargeted as they did before, and everything that holds
of a mapping and its storage goes on to hold with the new file.  The old file is
written neither by the copy nor by anything that comes after it.
-/

namespace UmmapIo

/-! ## Segments that can be read again -/

/-- The next first access reads the storage, and a mapped segment can be read. -/
def Resumable (status : SegmentStatus) (protection : Protection) : Prop :=
  status.needRead = true ∧ (status.mapped = true → protection.read = true)

namespace Resumable

variable {mapping : Mapping} {driver : Driver} {core : Core} {segmentId : Nat}

section

variable (resumable : Resumable (core.status segmentId) (core.pages segmentId))
include resumable

theorem fault (isWrite : Bool) :
    Resumable ((core.fault mapping driver segmentId isWrite).status segmentId)
      ((core.fault mapping driver segmentId isWrite).pages segmentId) := by
  rw [Core.fault_status, Core.fault_pages]
  cases Mapping.alreadyDone isWrite (core.status segmentId) with
  | true => exact resumable
  | false => cases isWrite <;> exact ⟨resumable.1, fun _ => rfl⟩

theorem flushSegment (unmap : Bool) :
    Resumable ((core.flushSegment mapping driver unmap segmentId).status segmentId)
      ((core.flushSegment mapping driver unmap segmentId).pages segmentId) := by
  unfold Core.flushSegment
  rw [Core.release_status, Core.release_pages, Core.writeBack_status,
    Core.writeBack_pages]
  refine ⟨?_, ?_⟩
  · simp [resumable.1]
  · intro mapped
    rw [Bool.and_eq_true, Bool.not_eq_true'] at mapped
    obtain ⟨mapped, stays⟩ := mapped
    rw [if_pos mapped, stays, if_neg Bool.false_ne_true]
    split
    · split
      · rfl
      · exact resumable.2 mapped
    · rfl

theorem dropSegment :
    Resumable ((core.dropSegment mapping segmentId).status segmentId)
      ((core.dropSegment mapping segmentId).pages segmentId) := by
  unfold Core.dropSegment Core.unmapSegment
  split
  · simp [Resumable, resumable.1]
  · exact resumable

theorem markSegment :
    Resumable ((core.markSegment mapping segmentId).status segmentId)
      ((core.markSegment mapping segmentId).pages segmentId) := by
  unfold Core.markSegment
  split
  · simp [Resumable, resumable.1]
  · exact resumable

end

/-- The parts of the operations keep every segment resumable. -/
theorem upkeep : Upkeep mapping driver Resumable where
  fault := fun _ _ isWrite resumable => resumable.fault isWrite
  flushSegment := fun _ _ unmap resumable => resumable.flushSegment unmap
  dropSegment := fun _ _ resumable => resumable.dropSegment
  markSegment := fun _ _ resumable => resumable.markSegment

end Resumable

/-! ## The new file takes the place of the old one -/

section Retarget

variable {mapping : Mapping} {initial : Nat → Byte} {core : Core} {offset : Nat}

/-- A copy takes the contents of a clean segment from where they are. -/
theorem AllCoherent.copySource_eq
    (coherent : AllCoherent mapping initial core)
    (resumable : Segmentwise Resumable core) (inside : offset < mapping.size)
    (clean : (core.status (offset / mapping.segmentSize)).dirty = false) :
    core.copySource mapping (offset / mapping.segmentSize) offset =
      expected initial core.trace offset := by
  have own := coherent (offset / mapping.segmentSize)
  unfold Core.copySource
  rw [clean, Bool.not_false, Bool.and_true]
  split
  · exact own.memory (Or.inl ‹_›) offset inside rfl
  · exact own.storage clean (resumable _).1 offset inside rfl

/-- A storage that holds the contents of every clean segment that has to be read can
take the place of the one that there is. -/
theorem AllCoherent.retarget
    (coherent : AllCoherent mapping initial core)
    {bytes : Nat → Byte}
    (right : ∀ offset, offset < mapping.size →
      (core.status (offset / mapping.segmentSize)).dirty = false →
      (core.status (offset / mapping.segmentSize)).needRead = true →
        bytes (mapping.storageOffset + offset) =
          expected initial core.trace offset)
    (calls : Nat) :
    AllCoherent mapping initial
      { core with storage := bytes, calls := calls } := by
  intro segmentId
  have own := coherent segmentId
  refine ⟨⟨own.closed, own.memory, ?_, own.blank⟩, own.writable⟩
  rintro clean stored offset inside rfl
  exact right offset inside clean stored

/-- A flush of the whole mapping leaves all contents in the storage. -/
theorem AllCoherent.storage_flush_all {driver : Driver}
    (coherent : AllCoherent mapping initial core)
    (resumable : Segmentwise Resumable core) (full : driver.Full)
    (direct : driver.directMSync = false) (inside : offset < mapping.size)
    (flags : FlushFlags) :
    (core.flush mapping driver 0 mapping.getAlignedSize flags).storage
        (mapping.storageOffset + offset) =
      expected initial core.trace offset := by
  have exists_ : offset / mapping.segmentSize < mapping.segments :=
    (mapping.lt_getAlignedSize_iff offset).mp
      (Nat.lt_of_lt_of_le inside mapping.size_le_getAlignedSize)
  have clean : ((core.flush mapping driver 0 mapping.getAlignedSize
      flags).status (offset / mapping.segmentSize)).dirty = false :=
    (Core.flush_status direct (coherent (offset / mapping.segmentSize)).mapped_of_dirty
      (Mapping.mem_flushSegments_all exists_)).1
  have reads : Segmentwise Resumable
      (core.flush mapping driver 0 mapping.getAlignedSize flags) :=
    Resumable.upkeep.preserved.flush resumable 0 mapping.getAlignedSize flags
  have flushed := (AllCoherent.preserved full).flush coherent 0 mapping.getAlignedSize
    flags (offset / mapping.segmentSize)
  rw [flushed.storage clean (reads _).1 offset inside rfl, flush_record]

end Retarget

/-! ## States of a mapping over files -/

/-- The mapping is at rest and its contents are where the status bits tell. -/
structure FileState.Sound {F : Type} (mapping : Mapping) (initial : Nat → Byte)
    (state : FileState F) : Prop where
  idle : state.machine = .idle state.machine.core
  coherent : AllCoherent mapping initial state.machine.core
  resumable : Segmentwise Resumable state.machine.core

/-- A successful clone that `FDDriver::cloneRange` asks for has copied the mapped
part of the source. -/
def CloneAnswer.CopiesRange {F : Type} (clone : CloneAnswer F)
    (mapping : Mapping) : Prop :=
  ∀ fd source target bytes,
    clone ⟨fd, mapping.size, mapping.storageOffset, mapping.storageOffset⟩
      source target = some bytes →
    ∀ position, mapping.storageOffset ≤ position →
      position < mapping.storageOffset + mapping.size →
        bytes position = source position

/-- The checks that a call makes on its arguments before it does anything. -/
def FileCall.Accepted {F : Type} (mapping : Mapping)
    (entries : List MappingRegistryEntry) : FileCall F → Prop
  | .call plain => plain.Accepted mapping
  | .cow addr _ => getMapping entries addr = some mapping

namespace FileState

variable {F : Type} [DecidableEq F] {mapping : Mapping} {initial : Nat → Byte}
variable {driver : Driver} {clone : CloneAnswer F} {thread : Nat} {state : FileState F}

/-- A program of the mapping runs as it does without the other files. -/
theorem run_onMapping {α : Type} (program : MappingProgram α) (state : FileState F) :
    (Files.onMapping program).run (mapping.handleFiles driver clone thread) state =
      (program.run (mapping.handle driver thread) state.machine).mapState
        state.setMachine := by
  have handles (op : MappingOp) (machine : Machine) :
      mapping.handleFiles driver clone thread (.mapping op) (state.setMachine machine) =
        (mapping.handle driver thread op machine).map fun answer =>
          (answer.1, state.setMachine answer.2) := rfl
  refine Program.run_expand (mapping.handle driver thread) state.setMachine ?_ ?_
    program state.machine
  · intro op machine waits
    refine Program.run_request_blocked ((handles op machine).trans ?_)
    rw [waits]
    rfl
  · intro op machine result after answer
    refine Program.run_request ((handles op machine).trans ?_)
    rw [answer]
    rfl

/-- A change of the machine leaves the other files alone. -/
theorem contents_setMachine {file : F} (apart : file ≠ state.fd) (machine : Machine) :
    (state.setMachine machine).contents file = state.contents file :=
  (contents_of_ne (show file ≠ (state.setMachine machine).fd from apart)).trans
    (contents_of_ne apart).symm

namespace Sound

/-- An accepted call of the mapping. -/
theorem call (sound : state.Sound mapping initial) (full : driver.Full) {plain : Call}
    (accepted : plain.Accepted mapping) (attempts thread : Nat) :
    (Files.onMapping (mapping.call attempts plain)).run
        (mapping.handleFiles driver clone thread) state =
      .finished (state.machine.core.call mapping driver attempts thread plain).1
        (state.setMachine (.idle (state.machine.core.call mapping driver
          attempts thread plain).2)) ∧
    (state.setMachine (.idle (state.machine.core.call mapping driver attempts
      thread plain).2)).Sound mapping initial := by
  refine ⟨?_, rfl, (AllCoherent.preserved full).call sound.coherent attempts thread plain,
    Resumable.upkeep.preserved.call sound.resumable attempts thread plain⟩
  have finishes := call_finishes full.noError accepted attempts thread
    state.machine.core
  rw [← sound.idle] at finishes
  rw [run_onMapping, finishes]
  rfl

variable {offset : Nat}

/-- A load of an offset below the size returns what it should. -/
theorem load (sound : state.Sound mapping initial) (full : driver.Full)
    (accepted : (Call.load offset).Accepted mapping)
    (inside : offset < mapping.size) (attempts thread : Nat) :
    ∃ after, (Files.onMapping (mapping.call (attempts + 2)
      (.load offset))).run (mapping.handleFiles driver clone thread) state =
        .finished (some (expected initial state.machine.core.trace offset))
          after := by
  have value : (state.machine.core.call mapping driver (attempts + 2) thread
      (.load offset)).1 =
        some (expected initial state.machine.core.trace offset) :=
    loadByte_value full (Core.read_fault _ _ (sound.resumable _).2) sound.coherent
      inside thread attempts
  rw [← value]
  exact ⟨_, (sound.call full accepted (attempts + 2) thread).1⟩

variable {target : F} {bytes : Nat → Byte}

/-- The driver turns to a file that holds the contents of the clean segments. -/
theorem retarget (sound : state.Sound mapping initial) (apart : target ≠ state.fd)
    (right : ∀ offset, offset < mapping.size →
      (state.machine.core.status (offset / mapping.segmentSize)).dirty = false →
        bytes (mapping.storageOffset + offset) =
          expected initial state.machine.core.trace offset)
    (calls : Nat) :
    ((state.copied target calls bytes).setFd target).Sound mapping initial := by
  have free : state.machine.mutex = fun _ => none :=
    congrArg Machine.mutex sound.idle
  have retargeted : ((state.copied target calls bytes).setFd target).machine =
      .idle { state.machine.core with storage := bytes, calls := calls } := by
    unfold setFd
    rw [contents_copied apart]
    unfold copied
    dsimp only
    rw [free]
    rfl
  constructor
  · rw [retargeted]
    rfl
  · rw [retargeted]
    exact sound.coherent.retarget
      (fun offset inside clean _ => right offset inside clean) calls
  · rw [retargeted]
    exact sound.resumable

variable {mayAbort : Prop} {size : Nat}

theorem ends_cloneRange_of_some (apart : target ≠ state.fd)
    (answer : clone ⟨state.fd, size, offset, offset⟩ (state.contents state.fd)
      (state.contents target) = some bytes) :
    (FDDriver.cloneRange target offset size).Ends
      (mapping.handleFiles driver clone thread) mayAbort state true
      (state.copied target state.machine.core.calls bytes) := by
  have handles : mapping.handleFiles driver clone thread
      (.ficloneRange target ⟨state.fd, size, offset, offset⟩) state =
        some ((0 : Int), state.write target bytes) := by
    unfold Mapping.handleFiles
    dsimp only
    rw [answer]
    rfl
  rw [write_eq_copied apart] at handles
  exact Program.Ends.bind (.request rfl)
    (Program.Ends.bind (.request handles) (.done true _))

theorem ends_cloneRange_of_none
    (answer : clone ⟨state.fd, size, offset, offset⟩ (state.contents state.fd)
      (state.contents target) = none) :
    (FDDriver.cloneRange target offset size).Ends
      (mapping.handleFiles driver clone thread) mayAbort state false state := by
  have handles : mapping.handleFiles driver clone thread
      (.ficloneRange target ⟨state.fd, size, offset, offset⟩) state =
        some ((-1 : Int), state) := by
    unfold Mapping.handleFiles
    dsimp only
    rw [answer]
    rfl
  exact Program.Ends.bind (.request rfl)
    (Program.Ends.bind (.request handles) (.done false _))

/-- `ummap_cow_fd` comes to its end, by way of the clone or of the copy. -/
theorem cow (sound : state.Sound mapping initial) (full : driver.Full)
    (copies : clone.CopiesRange mapping) (apart : target ≠ state.fd) :
    ∃ calls bytes,
      (mapping.cowFd target).Ends (mapping.handleFiles driver clone thread)
        False state 0 ((state.copied target calls bytes).setFd target) ∧
      ((state.copied target calls bytes).setFd target).Sound mapping initial := by
  unfold Mapping.cowFd
  cases answer : clone ⟨state.fd, mapping.size, mapping.storageOffset,
      mapping.storageOffset⟩ (state.contents state.fd)
      (state.contents target) with
  | some bytes =>
      refine ⟨state.machine.core.calls, bytes, ?_, ?_⟩
      · exact (ends_cloneRange_of_some apart answer).bind
          (Program.Ends.bind (.done () _)
            (Program.Ends.bind (.request rfl) (.done 0 _)))
      · refine sound.retarget apart (fun offset inside clean => ?_) _
        rw [copies _ _ _ _ answer _ (by omega) (by omega), contents_fd]
        exact (sound.coherent _).storage clean (sound.resumable _).1 offset inside rfl
  | none =>
      obtain ⟨calls, bytes, copied, right⟩ := ends_copyToDriver full apart
      refine ⟨calls, bytes, ?_, ?_⟩
      · exact (ends_cloneRange_of_none answer).bind
          (copied.bind (Program.Ends.bind (.request rfl) (.done 0 _)))
      · refine sound.retarget apart (fun offset inside clean => ?_) _
        rw [right offset inside]
        exact sound.coherent.copySource_eq sound.resumable inside clean

end Sound

end FileState

variable {F : Type} {mapping : Mapping}

/-- The state right after the constructor. -/
theorem FileState.Sound.of_constructor {flags : CreationFlags}
    (firstRead : flags.noFirstRead = false) (files : F → Nat → Byte) (fd : F) :
    Sound mapping (mapping.initialView flags (files fd))
      (FileState.initial flags files fd) where
  idle := rfl
  coherent := AllCoherent.of_constructor flags (files fd)
  resumable := fun _ => ⟨congrArg (!·) firstRead, fun mapped => nomatch mapped⟩

/-! ## Runs -/

section Runs

variable {F : Type} [DecidableEq F] {mapping : Mapping} {initial : Nat → Byte}
variable {driver : Driver} {clone : CloneAnswer F} {entries : List MappingRegistryEntry}
variable {thread attempts : Nat} {state : FileState F}

theorem Mapping.runFileCalls_single {call : FileCall F} {value : Option Byte}
    {after : FileState F}
    (returns : (mapping.fileCall entries attempts call).run
      (mapping.handleFiles driver clone thread) state = .finished value after) :
    mapping.runFileCalls entries driver clone attempts [(thread, call)] state =
      .finished [value] after := by
  unfold runFileCalls
  rw [returns]
  rfl

namespace FileState.Sound

section

variable (sound : state.Sound mapping initial) (full : driver.Full)
variable (copies : clone.CopiesRange mapping)
include sound full copies

/-- `ummap_cow_fd` writes no file but the target. -/
theorem ummapCowFd {addr : Nat} {target : F}
    (registered : getMapping entries addr = some mapping)
    (apart : target ≠ state.fd) (thread : Nat) :
    ∃ after, (UmmapIo.ummapCowFd entries addr target).run
        (mapping.handleFiles driver clone thread) state = .finished 0 after ∧
      after.Sound mapping initial ∧
      after.fd = target ∧
      after.machine.core.trace = state.machine.core.trace ∧
      ∀ file, file ≠ target → after.contents file = state.contents file := by
  obtain ⟨calls, bytes, ends, after⟩ := sound.cow full copies apart
  refine ⟨_, ?_, after, rfl, rfl, fun file other => ?_⟩
  · unfold UmmapIo.ummapCowFd GlobalHandler.applyCow
    rw [registered]
    exact (ends.bind (.done 0 _)).finishes id
  · rw [contents_setFd, contents_copied_of_ne other]

theorem fileCall {call : FileCall F}
    (accepted : call.Accepted mapping entries)
    (fresh : ∀ target ∈ call.target, target ≠ state.fd)
    (attempts thread : Nat) :
    ∃ value after, (mapping.fileCall entries attempts call).run
        (mapping.handleFiles driver clone thread) state =
          .finished value after ∧
      after.Sound mapping initial ∧
      after.fd = call.target.getD state.fd ∧
      ∀ file, file ≠ state.fd → file ∉ call.target →
        after.contents file = state.contents file := by
  cases call with
  | call plain =>
      obtain ⟨returns, after⟩ := sound.call full accepted attempts thread
      exact ⟨_, _, returns, after, rfl, fun file other _ =>
        contents_setMachine other _⟩
  | cow addr target =>
      obtain ⟨after, returns, soundAfter, turned, _, others⟩ := sound.ummapCowFd
        full copies accepted (fresh target rfl) thread
      refine ⟨none, after, ?_, soundAfter, turned, fun file _ other =>
        others file fun same => other (congrArg some same.symm)⟩
      unfold Mapping.fileCall
      rw [Program.run_bind, returns]
      rfl

/-- A sequence of calls comes to its end and writes only the file that the driver
uses and those that it turns to. -/
theorem runFileCalls {calls : List (Nat × FileCall F)}
    (accepted : ∀ pair ∈ calls, pair.2.Accepted mapping entries)
    (fresh : (state.fd :: FileCall.targets calls).Nodup)
    (attempts : Nat) :
    ∃ values final,
      mapping.runFileCalls entries driver clone attempts calls state =
        .finished values final ∧
      final.Sound mapping initial ∧
      final.fd = (FileCall.targets calls).getLastD state.fd ∧
      ∀ file, file ∉ state.fd :: FileCall.targets calls →
        final.contents file = state.contents file := by
  induction calls generalizing state with
  | nil => exact ⟨[], state, rfl, sound, rfl, fun _ _ => rfl⟩
  | cons pair rest inductionHypothesis =>
      obtain ⟨thread, call⟩ := pair
      rw [FileCall.targets_cons] at fresh ⊢
      have freshCall : ∀ target ∈ call.target, target ≠ state.fd := by
        cases target : call.target <;> simp_all [Ne.symm]
      obtain ⟨value, after, returns, soundAfter, turned, others⟩ :=
        sound.fileCall full copies (accepted (thread, call) List.mem_cons_self)
          freshCall attempts thread
      have freshAfter : (after.fd :: FileCall.targets rest).Nodup := by
        cases target : call.target <;> simp_all
      obtain ⟨values, final, follows, soundFinal, last, unchanged⟩ :=
        inductionHypothesis soundAfter
          (fun other member => accepted other (List.mem_cons_of_mem _ member))
          freshAfter
      refine ⟨value :: values, final, ?_, soundFinal, ?_, fun file other => ?_⟩
      · unfold Mapping.runFileCalls
        rw [returns, Outcome.andThen_finished, follows]
        rfl
      · rw [last, turned]
        cases call.target with
        | none => rfl
        | some target => exact (List.getLastD_cons ..).symm
      · simp only [List.mem_cons, List.mem_append, Option.mem_toList,
          not_or] at other
        obtain ⟨notUsed, notTarget, notLater⟩ := other
        rw [unchanged file ?_, others file notUsed notTarget]
        rw [List.mem_cons, turned]
        rintro (same | later)
        · cases target : call.target with
          | none => exact notUsed (same.trans (by rw [target]; rfl))
          | some chosen =>
              refine notTarget ?_
              rw [same, target]
              rfl
        · exact notLater later

end

end FileState.Sound

end Runs

/-- A load by a thread returns this byte. -/
def FileState.Returns {F : Type} [DecidableEq F] (mapping : Mapping)
    (entries : List MappingRegistryEntry) (driver : Driver) (clone : CloneAnswer F)
    (attempts : Nat) (state : FileState F) (thread offset : Nat)
    (value : Byte) : Prop :=
  ∃ after, mapping.runFileCalls entries driver clone attempts
    [(thread, .call (.load offset))] state = .finished [some value] after

theorem FileState.Sound.returns [DecidableEq F] {initial : Nat → Byte} {driver : Driver}
    {clone : CloneAnswer F} {state : FileState F} {offset : Nat}
    (sound : state.Sound mapping initial) (full : driver.Full)
    (accepted : (Call.load offset).Accepted mapping)
    (inside : offset < mapping.size) (entries : List MappingRegistryEntry)
    (attempts thread : Nat) :
    state.Returns mapping entries driver clone (attempts + 2) thread offset
      (expected initial state.machine.core.trace offset) := by
  obtain ⟨after, returns⟩ := sound.load full accepted inside attempts thread
  exact ⟨after, Mapping.runFileCalls_single returns⟩

/-- Over a full driver and with the first reads, whatever was called before:
`ummap_cow_fd` to a new file returns, changes no load and leaves the file that the
driver used as it is.  Whatever is called afterwards, copies to further new files
included, that file is never written, and a flush of the whole mapping leaves what
loads return in the file that the driver uses then. -/
theorem cow_keeps_view {F : Type} [DecidableEq F] (mapping : Mapping)
    (flags : CreationFlags) (firstRead : flags.noFirstRead = false) (driver : Driver)
    (full : driver.Full) (direct : driver.directMSync = false) (clone : CloneAnswer F)
    (copies : clone.CopiesRange mapping) (entries : List MappingRegistryEntry)
    (addr : Nat)
    (registered : getMapping entries addr = some mapping)
    (files : F → Nat → Byte) (start : F) (attempts : Nat)
    (before : List (Nat × FileCall F))
    (accepted : ∀ pair ∈ before, pair.2.Accepted mapping entries)
    (target : F)
    (fresh : (start :: FileCall.targets before ++ [target]).Nodup)
    (values : List (Option Byte)) (state : FileState F)
    (reached : mapping.runFileCalls entries driver clone (attempts + 2) before
      (.initial flags files start) = .finished values state)
    (thread : Nat) :
    ∃ after,
      (ummapCowFd entries addr target).run
        (mapping.handleFiles driver clone thread) state = .finished 0 after ∧
      after.fd = target ∧
      after.contents state.fd = state.contents state.fd ∧
      (∀ loader offset, (Call.load offset).Accepted mapping →
        offset < mapping.size → ∃ value,
          state.Returns mapping entries driver clone (attempts + 2) loader offset
            value ∧
          after.Returns mapping entries driver clone (attempts + 2) loader offset
            value) ∧
      ∀ later : List (Nat × FileCall F),
        (∀ pair ∈ later, pair.2.Accepted mapping entries) →
        (start :: FileCall.targets before ++ target :: FileCall.targets later).Nodup →
        ∃ values final,
          mapping.runFileCalls entries driver clone (attempts + 2) later after =
            .finished values final ∧
          final.fd = (FileCall.targets later).getLastD target ∧
          final.contents state.fd = state.contents state.fd ∧
          ∀ flusher flushFlags, ∃ flushed,
            mapping.runFileCalls entries driver clone (attempts + 2)
              [(flusher, .call (.flush 0 mapping.getAlignedSize flushFlags))]
              final = .finished [none] flushed ∧
            flushed.contents state.fd = state.contents state.fd ∧
            ∀ loader offset, (Call.load offset).Accepted mapping →
              offset < mapping.size → ∃ value,
                final.Returns mapping entries driver clone (attempts + 2) loader
                  offset value ∧
                flushed.contents final.fd (mapping.storageOffset + offset) =
                  value := by
  have freshBefore : (start :: FileCall.targets before).Nodup :=
    fresh.sublist (List.sublist_append_left (start :: FileCall.targets before) _)
  obtain ⟨_, _, ran, sound, last, _⟩ :=
    (FileState.Sound.of_constructor firstRead files start).runFileCalls full copies
      accepted freshBefore (attempts + 2)
  rw [reached] at ran
  cases ran
  have used : state.fd ∈ start :: FileCall.targets before := by
    rw [last]
    exact List.getLastD_mem_cons ..
  have apart : target ≠ state.fd := by
    rintro rfl
    exact (List.nodup_append.mp fresh).2.2 _ used _ (List.mem_singleton_self _) rfl
  obtain ⟨after, returns, soundAfter, turned, sameTrace, others⟩ :=
    sound.ummapCowFd full copies registered apart thread
  refine ⟨after, returns, turned, others _ (Ne.symm apart), ?_, ?_⟩
  · intro loader offset loads inside
    refine ⟨_, sound.returns full loads inside entries attempts loader, ?_⟩
    rw [← sameTrace]
    exact soundAfter.returns full loads inside entries attempts loader
  · intro later acceptedLater freshLater
    have unused : state.fd ∉ target :: FileCall.targets later := fun member =>
      (List.nodup_append.mp freshLater).2.2 _ used _ member rfl
    obtain ⟨values, final, follows, soundFinal, lastFinal, unchanged⟩ :=
      soundAfter.runFileCalls full copies acceptedLater
        (turned ▸ (List.nodup_append.mp freshLater).2.1) (attempts + 2)
    rw [turned] at lastFinal unchanged
    have kept : final.contents state.fd = state.contents state.fd :=
      (unchanged _ unused).trans (others _ (Ne.symm apart))
    have notFinal : state.fd ≠ final.fd := by
      intro same
      rw [same, lastFinal] at unused
      exact unused (List.getLastD_mem_cons ..)
    refine ⟨values, final, follows, lastFinal, kept, ?_⟩
    intro flusher flushFlags
    refine ⟨_, Mapping.runFileCalls_single (soundFinal.call full
      (mapping.accepted_flush_all flushFlags) (attempts + 2) flusher).1,
      (FileState.contents_setMachine notFinal _).trans kept, ?_⟩
    · intro loader offset loads inside
      refine ⟨_, soundFinal.returns full loads inside entries attempts loader, ?_⟩
      exact (congrFun (FileState.contents_fd _) _).trans
        (soundFinal.coherent.storage_flush_all soundFinal.resumable full direct
          inside flushFlags)

/-- A mapping of two pages with a store to the second one, then a copy on write by a
file system that clones the whole file, then a store to the first page. -/
theorem cow_keeps_view_of_two_pages :
    ∃ state after : FileState Bool,
      twoPages.runFileCalls [.ofMapping twoPages]
          Driver.whole (fun _ source _ => some source) 2
          [(0, .call (.store 5000 7))]
          (.initial ⟨false, false⟩ (fun _ _ => 1) false) =
        .finished [none] state ∧
      (ummapCowFd [.ofMapping twoPages] 5000 true).run
          (twoPages.handleFiles Driver.whole
            (fun _ source _ => some source) 0) state = .finished 0 after ∧
      after.contents false = state.contents false ∧
      ∃ values final,
        twoPages.runFileCalls [.ofMapping twoPages] Driver.whole
            (fun _ source _ => some source) 2 [(0, .call (.store 3 9))] after =
          .finished values final ∧
        final.fd = true ∧
        final.contents false = state.contents false := by
  have first : (Call.store 5000 7).Accepted twoPages := by
    decide
  have second : (Call.store 3 9).Accepted twoPages := by
    decide
  have copies : CloneAnswer.CopiesRange (F := Bool) (fun _ source _ => some source)
      twoPages := by
    rintro _ _ _ _ ⟨⟩ _ _ _
    rfl
  obtain ⟨after, returns, _, kept, _, goesOn⟩ := cow_keeps_view
    twoPages ⟨false, false⟩ rfl Driver.whole Driver.whole_full rfl
    (fun _ source _ => some source) copies
    [.ofMapping twoPages] 5000 rfl (fun _ _ => 1) false 0
    [(0, .call (.store 5000 7))] (List.forall_mem_singleton.mpr first) true
    (by decide) _ _ rfl 0
  obtain ⟨values, final, follows, last, stays, _⟩ := goesOn
    [(0, .call (.store 3 9))] (List.forall_mem_singleton.mpr second) (by decide)
  exact ⟨_, after, rfl, returns, kept, values, final, follows, last, stays⟩

end UmmapIo
