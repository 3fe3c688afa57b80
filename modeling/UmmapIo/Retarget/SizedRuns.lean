import UmmapIo.Retarget.Sized
import UmmapIo.Retarget.Cow
import UmmapIo.Mapping.Transfers
import UmmapIo.Mapping.Vacancy

/-!
# A file that ends is one that goes on with zeroes

A segment is only loaded while its pages are zero pages.  A read that stops at the
end of the file therefore leaves the same bytes as a full read of a storage that
goes on with zeroes, and every call does over a file that ends what it does over a
driver that transfers everything.
-/

namespace UmmapIo

/-! ## Reads that stop at the end -/

section Reads

variable {mapping : Mapping} {core : Core} {segmentId fileSize : Nat}

theorem FDDriver.transferred_ofSize (call size offset : Nat) :
    Core.transferred ((FDDriver.ofSize fileSize).preadResult call size offset)
        size = min size (fileSize - offset) := by
  unfold Core.transferred
  change min ((min size (fileSize - offset) : Nat) : Int).toNat size = _
  omega

section

variable (ended : ∀ position, fileSize ≤ position → core.storage position = 0)
include ended

variable {start size : Nat}

/-- A read up to the end of the file, into zeroes. -/
theorem blit_ofSize {buffer : Nat → Byte}
    (blank : ∀ index, index < size → buffer (start + index) = 0)
    (call offset : Nat) :
    blit buffer start (Core.transferred
        ((FDDriver.ofSize fileSize).preadResult call size offset) size)
        (fun position => core.storage (offset + position)) =
      blit buffer start (Core.transferred
        (Driver.whole.preadResult call size offset) size)
        fun position => core.storage (offset + position) := by
  rw [FDDriver.transferred_ofSize, (Driver.whole_full call size offset).1,
    Core.transferred_self]
  refine blit_shorter (Nat.min_le_left _ _) fun index past inside => ?_
  rw [blank index inside, ended]
  omega

theorem Core.preadBuffer_ofSize (size offset : Nat) :
    core.preadBuffer (FDDriver.ofSize fileSize) (fun _ => 0) size offset =
      core.preadBuffer Driver.whole (fun _ => 0) size offset :=
  blit_ofSize ended (fun _ _ => rfl) core.calls offset

theorem Core.pread_ofSize
    (blank : ∀ index, index < size → core.memory (start + index) = 0)
    (offset : Nat) :
    core.pread (FDDriver.ofSize fileSize) start size offset =
      core.pread Driver.whole start size offset := by
  unfold pread
  rw [blit_ofSize ended blank]

theorem Core.loadAndSwapSegment_ofSize (vacant : Vacant mapping core segmentId)
    (unmapped : (core.status segmentId).mapped = false)
    (writeAccess : Bool) :
    core.loadAndSwapSegment mapping (FDDriver.ofSize fileSize) segmentId writeAccess =
      core.loadAndSwapSegment mapping Driver.whole segmentId writeAccess := by
  have blank : ∀ index,
      index < mapping.readWriteSize (mapping.segmentSize * segmentId) →
        (core.mprotect segmentId mapping.readWrite).memory
          (mapping.segmentSize * segmentId + index) = 0 := by
    intro index inside
    have short := mapping.readWriteSize_le (mapping.segmentSize * segmentId)
    refine (vacant unmapped).2.2 _ ((div_eq_iff_block mapping.segmentSize_pos).mpr ?_)
    omega
  have opened : ∀ position, fileSize ≤ position →
      (core.mprotect segmentId mapping.readWrite).storage position = 0 := ended
  unfold loadAndSwapSegment
  dsimp only
  rw [Core.preadBuffer_ofSize ended, Core.pread_ofSize opened blank]

section

variable (vacant : AllVacant mapping core)
include vacant

theorem Core.fault_ofSize (segmentId : Nat) (isWrite : Bool) :
    core.fault mapping (FDDriver.ofSize fileSize) segmentId isWrite =
      core.fault mapping Driver.whole segmentId isWrite := by
  unfold fault openSegment
  cases mapped : (core.status segmentId).mapped with
  | true => rfl
  | false =>
      rw [Core.loadAndSwapSegment_ofSize ended (vacant segmentId) mapped]

theorem Core.loadByte_ofSize (thread offset attempts : Nat) :
    core.loadByte mapping (FDDriver.ofSize fileSize) thread offset attempts =
      core.loadByte mapping Driver.whole thread offset attempts := by
  induction attempts generalizing core with
  | zero => rfl
  | succ attempts inductionHypothesis =>
      unfold loadByte
      rw [Core.fault_ofSize ended vacant,
        inductionHypothesis ?_ (AllVacant.preserved.fault trivial vacant)]
      rw [Core.fault_storage]
      exact ended

theorem Core.storeByte_ofSize (thread offset : Nat) (value : Byte) (attempts : Nat) :
    core.storeByte mapping (FDDriver.ofSize fileSize) thread offset value attempts =
      core.storeByte mapping Driver.whole thread offset value attempts := by
  induction attempts generalizing core with
  | zero => rfl
  | succ attempts inductionHypothesis =>
      unfold storeByte
      rw [Core.fault_ofSize ended vacant,
        inductionHypothesis ?_ (AllVacant.preserved.fault trivial vacant)]
      rw [Core.fault_storage]
      exact ended

/-- Every call has the effect that it has over a driver that transfers
everything. -/
theorem Core.call_ofSize (attempts thread : Nat) (call : Call) :
    core.call mapping (FDDriver.ofSize fileSize) attempts thread call =
      core.call mapping Driver.whole attempts thread call := by
  cases call with
  | load offset => exact Core.loadByte_ofSize ended vacant thread offset attempts
  | store offset value =>
      exact congrArg (fun result => (none, result.2))
        (Core.storeByte_ofSize ended vacant thread offset value attempts)
  | fault address isWrite =>
      exact congrArg (Prod.mk none) (Core.fault_ofSize ended vacant _ isWrite)
  | _ => rfl

end

end

end Reads

/-! ## Calls -/

/-- An operation that does not write the storage leaves it as it is. -/
theorem Mapping.handle_storage {mapping : Mapping} {driver : Driver} {thread : Nat}
    {op : MappingOp} {machine after : Machine} {result : mappingSignature.Result op}
    (keeps : op.KeepsStorage)
    (answer : mapping.handle driver thread op machine = some (result, after)) :
    after.core.storage = machine.core.storage := by
  cases op with
  | pwrite start size offset => exact keeps.elim
  | lock mutexId =>
      unfold handle at answer
      dsimp only at answer
      split at answer
      · obtain ⟨_, rfl⟩ := answer_inj answer
        rfl
      · cases answer
  | load offset | store offset value =>
      unfold handle at answer
      dsimp only at answer
      split at answer <;> obtain ⟨_, rfl⟩ := answer_inj answer <;> rfl
  | _ =>
      obtain ⟨_, rfl⟩ := answer_inj answer
      rfl

section Calls

variable {F : Type} [DecidableEq F]
variable {mapping : Mapping} {clone : SizedClone F} {state : SizedState F}

/-- The storage of the machine is the file that the driver uses. -/
theorem FileState.contents_fd_setMachine (files : FileState F) (machine : Machine) :
    (files.setMachine machine).contents files.fd = machine.core.storage :=
  if_pos rfl

/-- Everything behind the end of every file is zero. -/
def SizedState.Ended (state : SizedState F) : Prop :=
  ∀ name, (state.file name).Ended

/-- The mapping runs over the same files, which have not become shorter. -/
structure SizedState.Follows (state : SizedState F) (machine : Machine)
    (after : SizedState F) : Prop where
  files : after.files = state.files.setMachine machine
  longer : ∀ name, state.sizes name ≤ after.sizes name
  ended : after.Ended

namespace SizedState

theorem le_grown (state : SizedState F) (written : F) (position : Nat) (name : F) :
    state.sizes name ≤ state.grown written position name := by
  unfold grown
  by_cases same : name = written
  · subst same
    rw [Function.update_self]
    exact Nat.le_max_left _ _
  · exact Nat.le_of_eq (Function.update_of_ne same _ _).symm

theorem self_le_grown (state : SizedState F) (written : F) (position : Nat) :
    position ≤ state.grown written position written := by
  unfold grown
  rw [Function.update_self]
  exact Nat.le_max_right _ _

/-- The storage ends where the file that the driver uses ends. -/
theorem Ended.used (ended : state.Ended) (position : Nat)
    (past : state.usedSize ≤ position) :
    state.files.machine.core.storage position = 0 := by
  have before := ended state.files.fd position past
  unfold file at before
  rwa [FileState.contents_fd] at before

theorem handleSized_mapping {thread : Nat} {op : MappingOp}
    {result : mappingSignature.Result op} {next : Machine}
    (answer : mapping.handle (FDDriver.ofSize state.usedSize) thread op
      state.files.machine = some (result, next)) :
    mapping.handleSized clone thread (.mapping op) state =
      some (result, ⟨state.files.setMachine next,
        state.sizesAfter (.mapping op)⟩) := by
  unfold Mapping.handleSized Mapping.handleFiles
  dsimp only
  rw [answer]
  rfl

end SizedState

namespace SizedState.Follows

variable {machine next : Machine} {after : SizedState F}

/-- The machine has left the storage alone. -/
theorem of_storage (ended : state.Ended)
    (same : machine.core.storage = state.files.machine.core.storage) :
    state.Follows machine ⟨state.files.setMachine machine, state.sizes⟩ where
  files := rfl
  longer := fun _ => Nat.le_refl _
  ended := by
    intro name position past
    have before := ended name position past
    unfold SizedState.file FileState.contents at before ⊢
    dsimp only [FileState.setMachine] at before ⊢
    rw [same]
    exact before

/-- A step that leaves the storage alone. -/
theorem keep (follows : state.Follows machine after)
    (same : next.core.storage = machine.core.storage) :
    state.Follows next ⟨after.files.setMachine next, after.sizes⟩ := by
  have stored : next.core.storage = after.files.machine.core.storage := by
    rw [same, follows.files]
    rfl
  refine ⟨?_, follows.longer, (of_storage follows.ended stored).ended⟩
  rw [follows.files]
  rfl

/-- A transfer to the file that the driver uses. -/
theorem pwrite (follows : state.Follows machine after) (start size offset : Nat) :
    state.Follows
      { machine with core := machine.core.pwrite Driver.whole start size offset }
      ⟨after.files.setMachine
          { machine with
            core := machine.core.pwrite Driver.whole start size offset },
        after.grown after.files.fd (offset + size)⟩ := by
  have larger : ∀ name, after.sizes name ≤
      after.grown after.files.fd (offset + size) name := after.le_grown _ _
  refine ⟨?_, fun name => Nat.le_trans (follows.longer name) (larger name), ?_⟩
  · rw [follows.files]
    rfl
  · intro name position past
    have before := follows.ended name position (Nat.le_trans (larger name) past)
    by_cases used : name = after.files.fd
    · subst used
      have far : offset + size ≤ position :=
        Nat.le_trans (after.self_le_grown _ _) past
      unfold SizedState.file at before ⊢
      dsimp only at before ⊢
      rw [FileState.contents_fd, follows.files] at before
      rw [FileState.contents_fd_setMachine, Core.pwrite_storage,
        (Driver.whole_full _ _ _).2, Core.transferred_self, blit_outside _ _ (Or.inr far)]
      exact before
    · exact (congrFun (FileState.contents_setMachine used _) position).trans before

variable {thread : Nat} {op : MappingOp} {result : mappingSignature.Result op}

/-- An operation that does not write the storage. -/
theorem step_of_keepsStorage (follows : state.Follows machine after)
    (keeps : op.KeepsStorage)
    (answer : mapping.handle (FDDriver.ofSize after.usedSize) thread op machine =
      some (result, next)) :
    ∃ after', mapping.handleSized clone thread (.mapping op) after =
        some (result, after') ∧
      state.Follows next after' ∧ after'.usedSize = after.usedSize := by
  have same : after.sizesAfter (.mapping op) = after.sizes := by
    cases op with
    | pwrite start size offset => exact keeps.elim
    | _ => rfl
  refine ⟨⟨after.files.setMachine next, after.sizes⟩, ?_,
    follows.keep (Mapping.handle_storage keeps answer), rfl⟩
  rw [← same]
  refine SizedState.handleSized_mapping ?_
  rw [follows.files]
  exact answer

/-- An operation that does not read the storage. -/
theorem step_of_loadsNothing (follows : state.Follows machine after)
    (loads : op.LoadsNothing)
    (answer : mapping.handle Driver.whole thread op machine =
      some (result, next)) :
    ∃ after', mapping.handleSized clone thread (.mapping op) after =
        some (result, after') ∧
      state.Follows next after' := by
  have same : mapping.handle (FDDriver.ofSize after.usedSize) thread op
      after.files.machine = some (result, next) := by
    rw [follows.files, ← answer]
    cases op with
    | pread start size offset => exact loads.elim
    | preadBuffer buffer size offset => exact loads.elim
    | _ => rfl
  refine ⟨_, SizedState.handleSized_mapping same, ?_⟩
  cases op with
  | pwrite start size offset =>
      obtain ⟨_, rfl⟩ := answer_inj answer
      exact follows.pwrite start size offset
  | _ =>
      refine follows.keep (Mapping.handle_storage ?_ answer)
      trivial

end SizedState.Follows

/-- An accepted call of the mapping does what it does over a driver that transfers
everything. -/
theorem SizedState.Ended.call {plain : Call} (ended : state.Ended)
    (idle : state.files.machine = .idle state.files.machine.core)
    (vacant : AllVacant mapping state.files.machine.core)
    (accepted : plain.Accepted mapping) (attempts thread : Nat) :
    ∃ after, (Files.onMapping (mapping.call attempts plain)).run
        (mapping.handleSized clone thread) state =
          .finished (state.files.machine.core.call mapping Driver.whole attempts
            thread plain).1 after ∧
      state.Follows (.idle (state.files.machine.core.call mapping Driver.whole
        attempts thread plain).2) after := by
  have finishes (driver : Driver) (noError : driver.NoError) :
      (mapping.call attempts plain).run (mapping.handle driver thread)
          state.files.machine =
        .finished (state.files.machine.core.call mapping driver attempts thread
          plain).1 (.idle (state.files.machine.core.call mapping driver attempts
            thread plain).2) := by
    have returns := call_finishes noError accepted attempts thread
      state.files.machine.core
    rwa [← idle] at returns
  have start : state.Follows state.files.machine state :=
    ⟨rfl, fun _ => Nat.le_refl _, ended⟩
  obtain keeps | loads := mapping.call_performs attempts plain
  · have noError : (FDDriver.ofSize state.usedSize).NoError :=
      fun _ _ _ => ⟨Int.natCast_nonneg _, Int.natCast_nonneg _⟩
    have answers (op : MappingOp) (keep : op.KeepsStorage) (machine : Machine)
        (now : SizedState F) (result : mappingSignature.Result op) (next : Machine)
        (before : state.Follows machine now ∧ now.usedSize = state.usedSize)
        (answer : mapping.handle (FDDriver.ofSize state.usedSize) thread op
          machine = some (result, next)) :
        ∃ after, (Program.request (E := fileSignature F) (.mapping op)).run
            (mapping.handleSized clone thread) now = .finished result after ∧
          state.Follows next after ∧ after.usedSize = state.usedSize := by
      rw [← before.2] at answer
      obtain ⟨after, handles, follows, same⟩ :=
        before.1.step_of_keepsStorage keep answer
      exact ⟨after, Program.run_request handles, follows, same.trans before.2⟩
    obtain ⟨after, returns, follows, _⟩ := keeps.run_expand answers ⟨start, rfl⟩
      (finishes _ noError)
    rw [Core.call_ofSize ended.used vacant] at returns follows
    exact ⟨after, returns, follows⟩
  · have answers (op : MappingOp) (load : op.LoadsNothing) (machine : Machine)
        (now : SizedState F) (result : mappingSignature.Result op) (next : Machine)
        (before : state.Follows machine now)
        (answer : mapping.handle Driver.whole thread op machine =
          some (result, next)) :
        ∃ after, (Program.request (E := fileSignature F) (.mapping op)).run
            (mapping.handleSized clone thread) now = .finished result after ∧
          state.Follows next after := by
      obtain ⟨after, handles, follows⟩ := before.step_of_loadsNothing load answer
      exact ⟨after, Program.run_request handles, follows⟩
    exact loads.run_expand answers start (finishes _ Driver.whole_full.noError)

end Calls

end UmmapIo
