import UmmapIo.Retarget.SizedCopy

/-!
# Copy on write of files that end

`ummap_cow_fd` clones the mapped part of the file and falls back to a copy.  The
clone takes every byte from the file, the copy takes those of the mapped clean
segments from memory; the two are the same exactly when the file holds zeroes behind
every segment that was opened without being read.  The copy comes to its end exactly
when the file is long enough for every segment that is not both mapped and clean.
-/

namespace UmmapIo

/-- A successful clone that `FDDriver::cloneRange` asks for has copied the mapped
part of the source. -/
def SizedClone.CopiesRange {F : Type} (clone : SizedClone F)
    (mapping : Mapping) : Prop :=
  ∀ fd source target image,
    clone.answer ⟨fd, mapping.size, mapping.storageOffset, mapping.storageOffset⟩
      source target = some image →
    ∀ position, mapping.storageOffset ≤ position →
      position < mapping.storageOffset + mapping.size →
        image.bytes position = source.bytes position

/-- What `FICLONERANGE` is documented to do with a range of a positive length that
lies within the source. -/
def SizedClone.reflink {F : Type} : SizedClone F where
  answer := fun range source target =>
    some ⟨max target.size (range.destOffset + range.srcLength),
      blit target.bytes range.destOffset range.srcLength
        fun position => source.bytes (range.srcOffset + position)⟩
  ended := by
    rintro range source target _ - ended ⟨⟩ position past
    dsimp only at past ⊢
    rw [blit_outside _ _ (Or.inr (by omega))]
    exact ended position (by omega)

variable {F : Type}

theorem SizedClone.copiesRange_never (mapping : Mapping) :
    (SizedClone.never : SizedClone F).CopiesRange mapping :=
  fun _ _ _ _ absurdity => nomatch absurdity

/-- The fields that `FDDriver::cloneRange` fills in are those of the mapped part if
its offset and its size are the same. -/
theorem SizedClone.copiesRange_reflink {mapping : Mapping}
    (same : mapping.storageOffset = mapping.size) :
    (SizedClone.reflink : SizedClone F).CopiesRange mapping := by
  rintro fd source target _ ⟨⟩ position lower upper
  dsimp only
  rw [blit_inside _ _ lower (by omega)]
  congr 1
  omega

theorem Mapping.copyToDriver_eq (mapping : Mapping) (target : F) :
    mapping.copyToDriver target (mapping.storageOffset + mapping.size) =
      Program.each (mapping.copySegment target mapping.size)
        (List.range mapping.segments) := by
  unfold copyToDriver copyMappedPart
  dsimp only
  rw [decide_eq_true (Nat.le_add_right _ _), Nat.add_sub_cancel_left,
    if_neg (Nat.lt_irrefl _)]
  rfl

/-! ## The two ways -/

section Ways

variable {F : Type} [DecidableEq F] {mapping : Mapping} {clone : SizedClone F}
variable {thread : Nat} {state : SizedState F} {target : F}

/-- The request of `FDDriver::cloneRange` for the mapped part. -/
def SizedState.cloneAnswer (state : SizedState F) (mapping : Mapping)
    (clone : SizedClone F)
    (target : F) : Option File :=
  clone.answer
    ⟨state.files.fd, mapping.size, mapping.storageOffset, mapping.storageOffset⟩
    (state.file state.files.fd) (state.file target)

/-- The driver turns to another file. -/
def SizedState.setFd (state : SizedState F) (name : F) : SizedState F :=
  ⟨state.files.setFd name, state.sizes⟩

/-- The state after a clone. -/
def SizedState.cloned (state : SizedState F) (target : F)
    (image : File) : SizedState F :=
  ⟨state.files.write target image.bytes,
    Function.update state.sizes target image.size⟩

theorem run_cloneRange {status : Int} {next : SizedState F}
    (handles : mapping.handleSized clone thread
      (.ficloneRange target ⟨state.files.fd, mapping.size, mapping.storageOffset,
        mapping.storageOffset⟩) state = some (status, next)) :
    (FDDriver.cloneRange target mapping.storageOffset mapping.size).run
        (mapping.handleSized clone thread) state =
      .finished (status == 0) next := by
  have gets : (Files.getFd : FileProgram F F).run
      (mapping.handleSized clone thread) state =
        .finished state.files.fd state := rfl
  have asks : (Files.ficloneRange target ⟨state.files.fd, mapping.size,
      mapping.storageOffset, mapping.storageOffset⟩).run
      (mapping.handleSized clone thread) state = .finished status next :=
    Program.run_request handles
  unfold FDDriver.cloneRange
  rw [Program.run_bind, gets, Outcome.andThen_finished, Program.run_bind, asks]
  rfl

theorem run_cowFd_of_some {image : File}
    (answer : state.cloneAnswer mapping clone target = some image) :
    (mapping.cowFd target).run (mapping.handleSized clone thread) state =
      .finished 0 ((state.cloned target image).setFd target) := by
  have handles : mapping.handleSized clone thread
      (.ficloneRange target ⟨state.files.fd, mapping.size, mapping.storageOffset,
        mapping.storageOffset⟩) state =
        some ((0 : Int), state.cloned target image) := by
    unfold SizedState.cloneAnswer at answer
    unfold Mapping.handleSized
    dsimp only
    rw [answer]
    rfl
  unfold Mapping.cowFd
  rw [Program.run_bind, run_cloneRange handles]
  rfl

theorem run_cowFd_of_none
    (answer : state.cloneAnswer mapping clone target = none) :
    (mapping.cowFd target).run (mapping.handleSized clone thread) state =
      ((Program.each (mapping.copySegment target mapping.size)
        (List.range mapping.segments)).run (mapping.handleSized clone thread)
        state).andThen fun _ now => .finished 0 (now.setFd target) := by
  have handles : mapping.handleSized clone thread
      (.ficloneRange target ⟨state.files.fd, mapping.size, mapping.storageOffset,
        mapping.storageOffset⟩) state = some ((-1 : Int), state) := by
    unfold SizedState.cloneAnswer at answer
    unfold Mapping.handleSized
    dsimp only
    rw [answer]
    rfl
  have failed : ((-1 : Int) == 0) = false := rfl
  unfold Mapping.cowFd
  rw [Program.run_bind, run_cloneRange handles, Outcome.andThen_finished,
    Mapping.copyToDriver_eq, failed, Bool.not_false, Program.when_true,
    Program.run_bind]
  rfl

theorem run_ummapCowFd {entries : List MappingRegistryEntry} {addr : Nat}
    (registered : getMapping entries addr = some mapping) :
    (ummapCowFd entries addr target).run (mapping.handleSized clone thread) state =
      (mapping.cowFd target).run (mapping.handleSized clone thread) state := by
  unfold ummapCowFd GlobalHandler.applyCow
  rw [registered]
  dsimp only
  rw [Program.run_bind]
  exact Outcome.andThen_id _

end Ways

/-! ## Reachable states -/

/-- The mapping is at rest, its contents are where the status bits tell, and
nothing stands behind the end of any file. -/
structure SizedState.Sound {F : Type} [DecidableEq F] (mapping : Mapping)
    (initial : Nat → Byte)
    (state : SizedState F) : Prop where
  idle : state.files.machine = .idle state.files.machine.core
  coherent : AllCoherent mapping initial state.files.machine.core
  vacant : AllVacant mapping state.files.machine.core
  ended : state.Ended

namespace SizedState.Sound

variable {F : Type} [DecidableEq F] {mapping : Mapping} {initial : Nat → Byte}
variable {clone : SizedClone F} {entries : List MappingRegistryEntry}
variable {thread attempts : Nat} {state after : SizedState F} {target : F}

/-- The state right after the constructor. -/
theorem of_constructor {files : F → File} (ended : ∀ name, (files name).Ended)
    (flags : CreationFlags) (fd : F) :
    Sound mapping (mapping.initialView flags (files fd).bytes)
      (SizedState.initial flags files fd) where
  idle := rfl
  coherent := AllCoherent.of_constructor flags (files fd).bytes
  vacant := AllVacant.of_constructor flags (files fd).bytes
  ended := by
    intro name position past
    have same : ((SizedState.initial flags files fd).file name).bytes =
        (files name).bytes := by
      by_cases used : name = fd
      · subst used
        exact if_pos rfl
      · exact if_neg used
    rw [same]
    exact ended name position past

section

variable (sound : state.Sound mapping initial)
include sound

variable {value : Option Byte}

/-- An accepted call of the mapping. -/
theorem call {plain : Call} (accepted : plain.Accepted mapping)
    (finished : (Files.onMapping (mapping.call attempts plain)).run
      (mapping.handleSized clone thread) state = .finished value after) :
    after.Sound mapping initial := by
  obtain ⟨_, returns, follows⟩ := sound.ended.call sound.idle sound.vacant accepted
    attempts thread
  rw [finished, Outcome.finished.injEq] at returns
  obtain ⟨_, rfl⟩ := returns
  have machine := congrArg FileState.machine follows.files
  refine ⟨?_, ?_, ?_, follows.ended⟩
  · rw [machine]
    rfl
  · rw [machine]
    exact (AllCoherent.preserved Driver.whole_full).call sound.coherent attempts thread
      plain
  · rw [machine]
    exact AllVacant.preserved.call sound.vacant attempts thread plain

variable {now : SizedState F}

/-- The driver turns to a file that holds the contents of the clean segments that
have to be read. -/
theorem retarget
    (kept : ∃ storage calls,
      now.files.machine = state.files.machine.refill storage calls)
    (ended : now.Ended)
    (right : ∀ offset, offset < mapping.size →
      (state.files.machine.core.status (offset / mapping.segmentSize)).dirty = false →
      (state.files.machine.core.status (offset / mapping.segmentSize)).needRead = true →
        now.files.contents target (mapping.storageOffset + offset) =
          expected initial state.files.machine.core.trace offset) :
    (now.setFd target).Sound mapping initial := by
  obtain ⟨storage, calls, kept⟩ := kept
  have machine : (now.setFd target).files.machine = .idle
      { state.files.machine.core with
        storage := now.files.contents target, calls := calls } := by
    have free := congrArg Machine.mutex sound.idle
    unfold SizedState.setFd FileState.setFd
    dsimp only
    rw [kept]
    unfold Machine.refill
    dsimp only
    rw [free]
    rfl
  refine ⟨by rw [machine]; rfl, ?_, ?_, ?_⟩
  · rw [machine]
    exact sound.coherent.retarget right calls
  · rw [machine]
    exact sound.vacant
  · intro name position past
    exact (congrFun (FileState.contents_setFd _ target name) position).trans
      (ended name position past)

/-- What a copy of every segment leaves in the target. -/
theorem copySource_eq {offset : Nat} (inside : offset < mapping.size)
    (clean : (state.files.machine.core.status
      (offset / mapping.segmentSize)).dirty = false)
    (stored : (state.files.machine.core.status
      (offset / mapping.segmentSize)).needRead = true) :
    state.files.machine.core.copySource mapping (offset / mapping.segmentSize) offset =
      expected initial state.files.machine.core.trace offset := by
  have own := sound.coherent (offset / mapping.segmentSize)
  unfold Core.copySource
  rw [clean, Bool.not_false, Bool.and_true]
  split
  · exact own.memory (Or.inl ‹_›) offset inside rfl
  · exact own.storage clean stored offset inside rfl

/-- A clone into the target, then the driver turns to it. -/
theorem cloned {image : File} (copies : clone.CopiesRange mapping)
    (answer : state.cloneAnswer mapping clone target = some image) :
    ((state.cloned target image).setFd target).Sound mapping initial := by
  obtain ⟨storage, kept⟩ := state.files.machine_write target image.bytes
  refine sound.retarget ⟨storage, _, kept⟩ ?_ fun offset inside clean stored => ?_
  · intro name position past
    unfold SizedState.cloned SizedState.file at past ⊢
    dsimp only at past ⊢
    by_cases same : name = target
    · subst same
      rw [Function.update_self] at past
      rw [FileState.contents_write]
      exact clone.ended _ _ _ image (sound.ended _) (sound.ended _) answer position past
    · rw [Function.update_of_ne same] at past
      rw [FileState.contents_write_of_ne _ _ same]
      exact sound.ended name position past
  · unfold SizedState.cloned
    dsimp only
    rw [FileState.contents_write, copies _ _ _ _ answer _ (by omega) (by omega)]
    unfold SizedState.file
    dsimp only
    rw [FileState.contents_fd]
    exact (sound.coherent _).storage clean stored offset inside rfl

/-- A copy into the target, then the driver turns to it. -/
theorem copied
    (copied : state.Copied mapping target mapping.segments now) :
    (now.setFd target).Sound mapping initial := by
  refine sound.retarget copied.kept copied.ended fun offset inside clean stored => ?_
  rw [copied.done offset inside (mapping.div_lt_segments inside)]
  exact sound.copySource_eq inside clean stored

/-- `ummap_cow_fd`, by way of the clone or of the copy, if it returns. -/
theorem cowFd (copies : clone.CopiesRange mapping) {status : Int}
    (finished : (mapping.cowFd target).run (mapping.handleSized clone thread)
      state = .finished status after) :
    after.Sound mapping initial := by
  cases answer : state.cloneAnswer mapping clone target with
  | some image =>
      rw [run_cowFd_of_some answer, Outcome.finished.injEq] at finished
      obtain ⟨_, rfl⟩ := finished
      exact sound.cloned copies answer
  | none =>
      rw [run_cowFd_of_none answer] at finished
      by_cases copyable : ∀ segmentId, segmentId < mapping.segments →
          state.files.machine.core.Copyable mapping state.usedSize segmentId
      · obtain ⟨now, ran, copied⟩ := SizedState.Copied.copySegments sound.ended
          (Nat.le_refl _) copyable
        rw [ran, Outcome.andThen_finished, Outcome.finished.injEq] at finished
        obtain ⟨_, rfl⟩ := finished
        exact sound.copied copied
      · push Not at copyable
        obtain ⟨message, final, stops⟩ := SizedState.Copied.copySegments_aborts
          sound.ended (Nat.le_refl _) copyable
        rw [stops] at finished
        cases finished

theorem fileCall {call : FileCall F} (copies : clone.CopiesRange mapping)
    (accepted : call.Accepted mapping entries)
    (finished : (mapping.fileCall entries attempts call).run
      (mapping.handleSized clone thread) state = .finished value after) :
    after.Sound mapping initial := by
  cases call with
  | call plain => exact sound.call accepted finished
  | cow addr fd =>
      unfold Mapping.fileCall at finished
      rw [Program.run_bind, run_ummapCowFd accepted] at finished
      obtain ⟨status, _, returns, last⟩ := Outcome.andThen_eq_finished.mp finished
      cases last
      exact sound.cowFd copies returns

/-- A sequence of calls that comes to its end. -/
theorem runSizedCalls {calls : List (Nat × FileCall F)} {values : List (Option Byte)}
    (copies : clone.CopiesRange mapping)
    (accepted : ∀ pair ∈ calls, pair.2.Accepted mapping entries)
    (finished : mapping.runSizedCalls entries clone attempts calls state =
      .finished values after) :
    after.Sound mapping initial := by
  induction calls generalizing state values with
  | nil =>
      cases finished
      exact sound
  | cons pair rest inductionHypothesis =>
      obtain ⟨thread, call⟩ := pair
      unfold Mapping.runSizedCalls at finished
      obtain ⟨value, middle, first, more⟩ :=
        Outcome.andThen_eq_finished.mp finished
      obtain ⟨later, final, follows, last⟩ := Outcome.andThen_eq_finished.mp more
      cases last
      exact inductionHypothesis
        (sound.fileCall copies (accepted _ List.mem_cons_self) first)
        (fun other member => accepted other (List.mem_cons_of_mem _ member)) follows

end

end SizedState.Sound

/-! ## The clone and the copy -/

section Paths

variable {F : Type} [DecidableEq F] {mapping : Mapping} {initial : Nat → Byte}
variable {state : SizedState F}

/-- A mapped clean segment is in step with the storage unless it was opened without
being read, when it shows zeroes. -/
theorem SizedState.Sound.copySource_eq_storage_iff (sound : state.Sound mapping initial)
    {offset : Nat} (inside : offset < mapping.size) :
    state.files.machine.core.copySource mapping (offset / mapping.segmentSize) offset =
        state.files.machine.core.storage (mapping.storageOffset + offset) ↔
      (state.files.machine.core.status (offset / mapping.segmentSize) =
          ⟨true, false, false⟩ →
        state.files.machine.core.storage (mapping.storageOffset + offset) = 0) := by
  have own := sound.coherent (offset / mapping.segmentSize)
  unfold Core.copySource
  generalize status : state.files.machine.core.status
    (offset / mapping.segmentSize) = bits at own ⊢
  obtain ⟨mapped, dirty, needRead⟩ := bits
  cases mapped with
  | false => simp
  | true =>
      have memory := own.memory (Or.inl (by rw [status])) offset inside rfl
      cases dirty with
      | true => simp
      | false =>
          cases needRead with
          | true =>
              have stored := own.storage (by rw [status]) (by rw [status]) offset
                inside rfl
              simp [memory, stored]
          | false =>
              have blank := own.blank (by rw [status]) (by rw [status]) offset
                inside rfl
              simp [memory, blank, eq_comm]

end Paths

/-- Whatever was called before, over files of any sizes of which the one in use
covers the mapped part: `ummap_cow_fd` returns by way of the clone and by way of the
copy, and the two leave the same bytes in the mapped part of the target exactly when
the file holds zeroes behind every mapped clean segment that was opened without
being read. -/
theorem cow_paths_agree_iff {F : Type} [DecidableEq F] (mapping : Mapping)
    (flags : CreationFlags) (clone : SizedClone F) (copies : clone.CopiesRange mapping)
    (entries : List MappingRegistryEntry) (addr : Nat)
    (registered : getMapping entries addr = some mapping)
    (files : F → File) (ended : ∀ name, (files name).Ended) (start : F) (attempts : Nat)
    (before : List (Nat × FileCall F))
    (accepted : ∀ pair ∈ before, pair.2.Accepted mapping entries)
    (values : List (Option Byte)) (state : SizedState F)
    (reached : mapping.runSizedCalls entries clone attempts before
      (.initial flags files start) = .finished values state)
    (covers : mapping.storageOffset + mapping.size ≤ state.usedSize)
    (target : F)
    (thread : Nat)
    (succeeding failing : SizedClone F)
    (clones : succeeding.CopiesRange mapping)
    (image : File)
    (succeeds : state.cloneAnswer mapping succeeding target = some image)
    (fails : state.cloneAnswer mapping failing target = none) :
    ∃ cloned copied : SizedState F,
      (ummapCowFd entries addr target).run (mapping.handleSized succeeding thread)
        state = .finished 0 cloned ∧
      (ummapCowFd entries addr target).run (mapping.handleSized failing thread)
        state = .finished 0 copied ∧
      ((∀ position, mapping.storageOffset ≤ position →
          position < mapping.storageOffset + mapping.size →
            cloned.files.contents target position =
              copied.files.contents target position) ↔
        ∀ offset, offset < mapping.size →
          state.files.machine.core.status (offset / mapping.segmentSize) =
            ⟨true, false, false⟩ →
          state.files.machine.core.storage (mapping.storageOffset + offset) =
            0) := by
  have sound := (SizedState.Sound.of_constructor ended flags start).runSizedCalls
    copies accepted reached
  have copyable : ∀ segmentId, segmentId < mapping.segments →
      state.files.machine.core.Copyable mapping state.usedSize segmentId := by
    intro segmentId exists_
    have starts := (mapping.lt_segments_iff segmentId).mp exists_
    have fits := mapping.add_readWriteSize_le starts
    refine Or.inr ?_
    unfold Mapping.Covered
    omega
  obtain ⟨now, ran, copied⟩ := SizedState.Copied.copySegments sound.ended
    (Nat.le_refl _) copyable
  refine ⟨(state.cloned target image).setFd target, now.setFd target, ?_, ?_, ?_⟩
  · rw [run_ummapCowFd registered, run_cowFd_of_some succeeds]
  · rw [run_ummapCowFd registered, run_cowFd_of_none fails, ran]
    rfl
  · have clonedByte (offset : Nat) (inside : offset < mapping.size) :
        ((state.cloned target image).setFd target).files.contents target
            (mapping.storageOffset + offset) =
          state.files.machine.core.storage (mapping.storageOffset + offset) := by
      refine (congrFun (FileState.contents_setFd _ target target) _).trans ?_
      refine (congrFun (FileState.contents_write _ _ _) _).trans ?_
      rw [clones _ _ _ _ succeeds _ (by omega) (by omega),
        ← FileState.contents_fd]
      rfl
    have copiedByte (offset : Nat) (inside : offset < mapping.size) :
        (now.setFd target).files.contents target (mapping.storageOffset + offset) =
          state.files.machine.core.copySource mapping
            (offset / mapping.segmentSize) offset :=
      (congrFun (FileState.contents_setFd _ target target) _).trans
        (copied.done offset inside (mapping.div_lt_segments inside))
    constructor
    · intro agree offset inside
      refine (sound.copySource_eq_storage_iff inside).mp ?_
      rw [← copiedByte offset inside, ← clonedByte offset inside]
      exact (agree _ (by omega) (by omega)).symm
    · intro zero position lower upper
      obtain ⟨offset, rfl⟩ := Nat.exists_eq_add_of_le lower
      have inside : offset < mapping.size := by
        omega
      rw [clonedByte offset inside, copiedByte offset inside]
      exact ((sound.copySource_eq_storage_iff inside).mpr (zero offset inside)).symm

/-- Two pages of sevens. -/
def File.sevens : File where
  size := 2 * pageSize
  bytes := fun position => if position < 2 * pageSize then 7 else 0

theorem File.ended_sevens : File.sevens.Ended :=
  fun _ past => if_neg (Nat.not_lt_of_le past)

/-- The second page of a file after a store, with the first read. -/
theorem cow_paths_agree_iff_second_page :
    ∃ state cloned copied : SizedState Bool,
      Mapping.secondPage.runSizedCalls [.ofMapping Mapping.secondPage] .never 2
          [(0, .call (.store 5 1))]
          (.initial ⟨false, false⟩ (fun _ => File.sevens) false) =
        .finished [none] state ∧
      (ummapCowFd [.ofMapping Mapping.secondPage] pageSize true).run
          (Mapping.secondPage.handleSized .reflink 0) state =
        .finished 0 cloned ∧
      (ummapCowFd [.ofMapping Mapping.secondPage] pageSize true).run
          (Mapping.secondPage.handleSized .never 0) state =
        .finished 0 copied ∧
      ∀ position, Mapping.secondPage.storageOffset ≤ position →
        position < Mapping.secondPage.storageOffset + Mapping.secondPage.size →
        cloned.files.contents true position =
          copied.files.contents true position := by
  have store : (Call.store 5 1).Accepted Mapping.secondPage := by decide
  obtain ⟨state, ran, covers, ⟨image, succeeds⟩, fails, dirty⟩ :
      ∃ state : SizedState Bool,
        Mapping.secondPage.runSizedCalls [.ofMapping Mapping.secondPage] .never 2
            [(0, .call (.store 5 1))]
            (.initial ⟨false, false⟩ (fun _ => File.sevens) false) =
          .finished [none] state ∧
        Mapping.secondPage.storageOffset + Mapping.secondPage.size ≤
          state.usedSize ∧
        (∃ image, state.cloneAnswer Mapping.secondPage .reflink true =
          some image) ∧
        state.cloneAnswer Mapping.secondPage .never true = none ∧
        state.files.machine.core.status 0 ≠ ⟨true, false, false⟩ :=
    ⟨_, rfl, by decide, ⟨_, rfl⟩, rfl, by decide⟩
  obtain ⟨cloned, copied, first, second, agree⟩ := cow_paths_agree_iff
    Mapping.secondPage ⟨false, false⟩ .never (SizedClone.copiesRange_never _)
    [.ofMapping Mapping.secondPage] pageSize rfl (fun _ => File.sevens)
    (fun _ => File.ended_sevens) false 2 [(0, .call (.store 5 1))]
    (List.forall_mem_singleton.mpr store) _ state ran covers true 0 .reflink .never
    (SizedClone.copiesRange_reflink rfl) image succeeds fails
  refine ⟨state, cloned, copied, ran, first, second, agree.mpr ?_⟩
  intro offset inside unread
  have here : offset / Mapping.secondPage.segmentSize = 0 :=
    Nat.div_eq_of_lt (by simpa [Mapping.secondPage, Mapping.ofPages] using inside)
  rw [here] at unread
  exact absurd unread dirty

/-- With `UMMAP_NO_FIRST_READ`, a load opens the page without reading it.  The clone
then leaves the sevens of the file in the target and the copy leaves the zeroes of
the memory there. -/
theorem cow_paths_differ_after_unread_load :
    ∃ state cloned copied : SizedState Bool,
      Mapping.secondPage.runSizedCalls [.ofMapping Mapping.secondPage] .never 2
          [(0, .call (.load 0))]
          (.initial ⟨true, false⟩ (fun _ => File.sevens) false) =
        .finished [some 0] state ∧
      Mapping.secondPage.storageOffset + Mapping.secondPage.size ≤
        state.usedSize ∧
      (SizedClone.reflink : SizedClone Bool).CopiesRange Mapping.secondPage ∧
      (ummapCowFd [.ofMapping Mapping.secondPage] pageSize true).run
          (Mapping.secondPage.handleSized .reflink 0) state =
        .finished 0 cloned ∧
      (ummapCowFd [.ofMapping Mapping.secondPage] pageSize true).run
          (Mapping.secondPage.handleSized .never 0) state =
        .finished 0 copied ∧
      cloned.files.contents true pageSize = 7 ∧
      copied.files.contents true pageSize = 0 :=
  ⟨_, _, _, rfl, by decide, SizedClone.copiesRange_reflink rfl, rfl, rfl,
    by decide, by decide⟩

/-! ## Files that are too short -/

/-- Whatever was called before, over files of any sizes: without a clone,
`ummap_cow_fd` returns exactly when the file is long enough for every segment that is
not both mapped and clean.  Otherwise the process aborts. -/
theorem cow_copy_returns_iff {F : Type} [DecidableEq F] (mapping : Mapping)
    (flags : CreationFlags) (clone : SizedClone F) (copies : clone.CopiesRange mapping)
    (entries : List MappingRegistryEntry) (addr : Nat)
    (registered : getMapping entries addr = some mapping)
    (files : F → File) (ended : ∀ name, (files name).Ended) (start : F) (attempts : Nat)
    (before : List (Nat × FileCall F))
    (accepted : ∀ pair ∈ before, pair.2.Accepted mapping entries)
    (values : List (Option Byte)) (state : SizedState F)
    (reached : mapping.runSizedCalls entries clone attempts before
      (.initial flags files start) = .finished values state)
    (target : F)
    (thread : Nat)
    (failing : SizedClone F)
    (fails : state.cloneAnswer mapping failing target = none) :
    ((∃ after, (ummapCowFd entries addr target).run
        (mapping.handleSized failing thread) state = .finished 0 after) ↔
      ∀ segmentId, segmentId < mapping.segments →
        state.files.machine.core.Copyable mapping state.usedSize segmentId) ∧
    ((∃ segmentId, segmentId < mapping.segments ∧
        ¬state.files.machine.core.Copyable mapping state.usedSize segmentId) →
      ∃ message final, (ummapCowFd entries addr target).run
        (mapping.handleSized failing thread) state = .aborted message final) := by
  have sound := (SizedState.Sound.of_constructor ended flags start).runSizedCalls
    copies accepted reached
  have aborts (stuck : ∃ segmentId, segmentId < mapping.segments ∧
      ¬state.files.machine.core.Copyable mapping state.usedSize segmentId) :
      ∃ message final, (ummapCowFd entries addr target).run
        (mapping.handleSized failing thread) state = .aborted message final := by
    obtain ⟨message, final, stops⟩ := SizedState.Copied.copySegments_aborts
      sound.ended (Nat.le_refl _) stuck
    rw [run_ummapCowFd registered, run_cowFd_of_none fails, stops]
    exact ⟨message, final, rfl⟩
  refine ⟨⟨?_, ?_⟩, aborts⟩
  · rintro ⟨after, returns⟩
    by_contra stuck
    push Not at stuck
    obtain ⟨message, final, stops⟩ := aborts stuck
    rw [returns] at stops
    cases stops
  · intro copyable
    obtain ⟨now, ran, _⟩ := SizedState.Copied.copySegments sound.ended
      (Nat.le_refl _) copyable
    rw [run_ummapCowFd registered, run_cowFd_of_none fails, ran]
    exact ⟨_, rfl⟩

/-- A file without any bytes. -/
def File.empty : File := ⟨0, fun _ => 0⟩

/-- These calls on a mapping of two pages over an empty file return. -/
abbrev SizedTwoPages (calls : List (Nat × FileCall Bool))
    (values : List (Option Byte)) (state : SizedState Bool) : Prop :=
  twoPages.runSizedCalls [.ofMapping twoPages] .never 2 calls
    (.initial ⟨false, false⟩ (fun _ => File.empty) false) = .finished values state

/-- Two pages over an empty file, both written and flushed. -/
theorem cow_copy_returns_iff_flushed :
    ∃ state after : SizedState Bool,
      SizedTwoPages
        [(0, .call (.store 3 1)), (0, .call (.store 5000 1)),
          (0, .call (.flush 0 8192 ⟨false, false, false⟩))]
        [none, none, none] state ∧
      (ummapCowFd [.ofMapping twoPages] 5000 true).run
          (twoPages.handleSized .never 0) state =
        .finished 0 after := by
  have first : (Call.store 3 1).Accepted twoPages := by decide
  have second : (Call.store 5000 1).Accepted twoPages := by decide
  have flush : (Call.flush 0 8192 ⟨false, false, false⟩).Accepted
      twoPages := by decide
  have accepted : ∀ pair ∈ [(0, FileCall.call (F := Bool) (.store 3 1)),
      (0, .call (.store 5000 1)),
      (0, .call (.flush 0 8192 ⟨false, false, false⟩))],
      pair.2.Accepted twoPages [.ofMapping twoPages] :=
    List.forall_mem_cons.mpr ⟨first, List.forall_mem_cons.mpr ⟨second,
      List.forall_mem_singleton.mpr flush⟩⟩
  obtain ⟨state, ran, copyable⟩ :
      ∃ state : SizedState Bool,
        SizedTwoPages
          [(0, .call (.store 3 1)), (0, .call (.store 5000 1)),
            (0, .call (.flush 0 8192 ⟨false, false, false⟩))]
          [none, none, none] state ∧
        ∀ segmentId, segmentId < twoPages.segments →
          state.files.machine.core.Copyable twoPages state.usedSize segmentId :=
    ⟨_, rfl, by decide⟩
  obtain ⟨after, returns⟩ := (cow_copy_returns_iff twoPages
    ⟨false, false⟩ .never (SizedClone.copiesRange_never _)
    [.ofMapping twoPages] 5000 rfl (fun _ => File.empty)
    (fun _ _ _ => rfl) false 2 _ accepted _ state ran true 0 .never rfl).1.mpr
    copyable
  exact ⟨state, after, ran, returns⟩

/-- Two pages over an empty file, of which only the first one was written and
flushed: the file then ends behind the first page, and the copy aborts when it reads
the second one. -/
theorem cow_copy_aborts_of_unflushed_tail :
    ∃ state final : SizedState Bool,
      SizedTwoPages
        [(0, .call (.store 3 1)),
          (0, .call (.flush 0 8192 ⟨false, false, false⟩))]
        [none, none] state ∧
      state.usedSize = 4096 ∧
      (ummapCowFd [.ofMapping twoPages] 5000 true).run
          (twoPages.handleSized .never 0) state =
        .aborted (twoPages.copyFailure
          "Failed to read data from the original driver !" 0 4096 4096) final :=
  ⟨_, _, rfl, by decide, rfl⟩

end UmmapIo
