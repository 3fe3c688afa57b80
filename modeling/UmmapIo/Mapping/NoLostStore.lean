import UmmapIo.Mapping.Calls
import UmmapIo.Mapping.ProtocolSegments

/-!
# A thread-safe mapping loses no store

Every call on a thread-safe mapping follows the protocol: it takes the mutexes
of the segments it works on and releases them at its end.  The interleaving rule
then gives the main theorem: in every run of any number of threads, every load
returns the last store to its offset.
-/

namespace UmmapIo

section Safety

variable {mapping : Mapping} {initial : Nat → Byte} {driver : Driver} {thread : Nat}
variable {held : Nat → Prop} {state : Machine}

/-! ## Taking and releasing several mutexes -/

theorem Locked.congr {held' : Nat → Prop}
    (locked : Locked mapping initial thread held state)
    (same : ∀ mutexId, held mutexId ↔ held' mutexId) :
    Locked mapping initial thread held' state where
  owner := fun mutexId => (locked.owner mutexId).trans (same mutexId)
  settled := fun segmentId isHeld => locked.settled segmentId ((same _).mpr isHeld)

theorem Locked.of_idle
    (idle : (protocol mapping initial).Idle thread state) :
    Locked mapping initial thread (fun _ => False) state where
  owner := fun mutexId => ⟨idle mutexId, False.elim⟩
  settled := fun _ => False.elim

theorem Locked.idle
    (locked : Locked mapping initial thread held state)
    (nothing : ∀ mutexId, ¬held mutexId) :
    (protocol mapping initial).Idle thread state :=
  fun mutexId owned => nothing mutexId ((locked.owner mutexId).mp owned)

theorem Locked.safe_lockEach
    (locked : Locked mapping initial thread held state)
    (mutexIds : List Nat) :
    (Program.each Sys.lock mutexIds).Safe
      (protocol mapping initial) (mapping.handle driver) thread
      (fun _ => Locked mapping initial thread
        (fun mutexId => held mutexId ∨ mutexId ∈ mutexIds))
      state := by
  induction mutexIds generalizing held state with
  | nil => exact locked.congr fun mutexId => by simp
  | cons first rest inductionHypothesis =>
      refine Program.Safe.andThen (locked.safe_lock first) ?_
      intro _ _ more
      refine (inductionHypothesis more).mono ?_
      intro _ _ all
      refine all.congr fun mutexId => ?_
      rw [List.mem_cons, or_assoc]

variable {mutexIds : List Nat}

theorem Locked.safe_unlockEach
    (locked : Locked mapping initial thread held state)
    (distinct : mutexIds.Nodup)
    (mine : ∀ mutexId ∈ mutexIds, held mutexId) :
    (Program.each Sys.unlock mutexIds).Safe
      (protocol mapping initial) (mapping.handle driver) thread
      (fun _ => Locked mapping initial thread
        (fun mutexId => held mutexId ∧ mutexId ∉ mutexIds))
      state := by
  induction mutexIds generalizing held state with
  | nil => exact locked.congr fun mutexId => by simp
  | cons first rest inductionHypothesis =>
      rw [List.nodup_cons] at distinct
      refine Program.Safe.andThen
        (locked.safe_unlock (mine first List.mem_cons_self)) ?_
      intro _ _ fewer
      refine (inductionHypothesis fewer distinct.2 ?_).mono ?_
      · intro mutexId member
        refine ⟨mine mutexId (List.mem_cons_of_mem first member), ?_⟩
        intro same
        subst same
        exact distinct.1 member
      · intro _ _ none
        refine none.congr fun mutexId => ?_
        rw [List.mem_cons, not_or, and_assoc]

/-- Releasing all mutexes that a call has taken ends it. -/
theorem Locked.safe_unlockAll
    (locked : Locked mapping initial thread (· ∈ mutexIds) state)
    (distinct : mutexIds.Nodup) :
    (Program.each Sys.unlock mutexIds).Safe
      (protocol mapping initial) (mapping.handle driver) thread
      (fun _ => (protocol mapping initial).Idle thread) state := by
  refine (locked.safe_unlockEach distinct fun _ member => member).mono ?_
  intro _ _ none
  exact none.idle fun mutexId kept => kept.2 kept.1

theorem safe_lockAll
    (idle : (protocol mapping initial).Idle thread state)
    (mutexIds : List Nat) :
    (Program.each Sys.lock mutexIds).Safe
      (protocol mapping initial) (mapping.handle driver) thread
      (fun _ => Locked mapping initial thread (· ∈ mutexIds)) state := by
  refine ((Locked.of_idle idle).safe_lockEach mutexIds).mono ?_
  intro _ _ all
  refine all.congr fun mutexId => ?_
  rw [false_or]

/-- Taking one mutex begins a critical section. -/
theorem safe_lockOne
    (idle : (protocol mapping initial).Idle thread state)
    (mutexId : Nat) :
    (Sys.lock mutexId).Safe (protocol mapping initial) (mapping.handle driver) thread
      (fun _ => Locked mapping initial thread (· = mutexId)) state := by
  refine ((Locked.of_idle idle).safe_lock mutexId).mono ?_
  intro _ _ locked
  refine locked.congr fun other => ?_
  rw [false_or]

theorem Locked.safe_unlockOne {mutexId : Nat}
    (locked : Locked mapping initial thread (· = mutexId) state) :
    (Sys.unlock mutexId).Safe (protocol mapping initial) (mapping.handle driver) thread
      (fun _ => (protocol mapping initial).Idle thread) state := by
  refine (locked.safe_unlock rfl).mono ?_
  intro _ _ none
  exact none.idle fun other kept => kept.2 kept.1

/-! ## Which mutexes a flush takes -/

/-- Marking the image of a list in a table. -/
theorem foldl_update_true (image : Nat → Nat) (items : List Nat) (table : Nat → Bool)
    (index : Nat) :
    items.foldl (fun list item => Function.update list (image item) true)
        table index = true ↔
      table index = true ∨ ∃ item ∈ items, image item = index := by
  induction items generalizing table with
  | nil => simp
  | cons first rest inductionHypothesis =>
      rw [List.foldl_cons, inductionHypothesis]
      by_cases same : index = image first
      · subst same
        simp
      · rw [Function.update_of_ne same]
        simp [Ne.symm same]

theorem Mapping.mutexId_lt (segmentId : Nat) :
    mapping.mutexId segmentId < mapping.segmentMutexesCnt :=
  Nat.mod_lt segmentId mapping.segmentMutexesCnt_pos

variable {offset size : Nat} {flags : FlushFlags}

/-- A locking flush takes the mutexes of all its segments. -/
theorem Mapping.mem_flushMutexes {segmentId : Nat} (locking : flags.noLock = false)
    (member : segmentId ∈ mapping.flushSegments offset size) :
    mapping.mutexId segmentId ∈ mapping.flushMutexes offset size flags := by
  unfold flushMutexes selectedMutexes getMutexRange
  rw [locking, if_neg Bool.false_ne_true, List.mem_filter, List.mem_range]
  refine ⟨mapping.mutexId_lt segmentId, ?_⟩
  rw [foldl_update_true]
  exact Or.inr ⟨segmentId, mapping.mem_range_of_mem_flushSegments member, rfl⟩

/-! ## Calls -/

theorem safe_onSegmentationFault (full : driver.Full)
    (threadSafe : mapping.threadSafe = true)
    (idle : (protocol mapping initial).Idle thread state)
    (address : Nat) (isWrite : Bool) :
    (mapping.onSegmentationFault address isWrite).Safe
      (protocol mapping initial) (mapping.handle driver) thread
      (fun _ => (protocol mapping initial).Idle thread) state := by
  unfold Mapping.onSegmentationFault Mapping.faultSection
  refine Program.Safe.assume fun _ => ?_
  refine Program.Safe.assume fun _ => ?_
  refine Program.Safe.assume fun _ => ?_
  refine Program.Safe.andThen (safe_lockOne idle _) ?_
  intro _ _ locked
  refine Program.Safe.andThen (locked.safe_getStatus (fun _ => True) rfl trivial) ?_
  rintro status current ⟨_, still, protection, observed, working⟩
  refine Program.Safe.andThen
    (working.safe_fault full threadSafe still observed isWrite) ?_
  intro _ _ settled
  exact settled.safe_unlockOne

variable {body : Nat → MappingProgram Unit}

/-- A loop over segments whose mutexes are all held. -/
theorem Locked.safe_eachSegment {segmentIds : List Nat}
    (locked : Locked mapping initial thread held state)
    (holds : ∀ segmentId ∈ segmentIds, held (mapping.mutexId segmentId))
    (bodySafe : ∀ segmentId current,
      Locked mapping initial thread held current →
      held (mapping.mutexId segmentId) →
        (body segmentId).Safe (protocol mapping initial) (mapping.handle driver) thread
          (fun _ => Locked mapping initial thread held) current) :
    (Program.each body segmentIds).Safe
      (protocol mapping initial) (mapping.handle driver) thread
      (fun _ => Locked mapping initial thread held) state := by
  refine Program.Safe.each (Locked mapping initial thread held) locked ?_
  intro segmentId member current still
  exact bodySafe segmentId current still (holds segmentId member)

section

variable (full : driver.Full) (threadSafe : mapping.threadSafe = true)
include full threadSafe

theorem safe_flush
    (idle : (protocol mapping initial).Idle thread state)
    (offset size : Nat) (locking : flags.noLock = false) :
    (mapping.flush offset size flags).Safe
      (protocol mapping initial) (mapping.handle driver) thread
      (fun _ => (protocol mapping initial).Idle thread) state := by
  unfold Mapping.flush Mapping.flushSection
  refine Program.Safe.assume fun _ => ?_
  refine Program.Safe.assume fun _ => ?_
  refine Program.Safe.assume fun _ => ?_
  refine Program.Safe.assume fun _ => ?_
  refine Program.Safe.andThen (Locked.of_idle idle).safe_directMSync ?_
  intro _ _ nothing
  have stillIdle := nothing.idle fun _ => id
  refine Program.Safe.when ?_ fun _ => stillIdle
  intro _
  refine Program.Safe.andThen (safe_lockAll stillIdle _) ?_
  intro _ _ locked
  refine Program.Safe.andThen
    (locked.safe_eachSegment
      (fun _ member => Mapping.mem_flushMutexes locking member)
      fun _ _ still holds =>
        still.safe_flushSegment full threadSafe holds flags.unmap) ?_
  intro _ _ flushed
  refine Program.Safe.andThen
    (Program.Safe.when (fun _ => flushed.safe_sync offset size)
      fun _ => flushed) ?_
  intro _ _ synced
  exact synced.safe_unlockAll (mapping.nodup_flushMutexes offset size flags)

/-- The flush made by an eviction, which holds the mutex already. -/
theorem Locked.safe_flush_noLock
    (locked : Locked mapping initial thread held state)
    (holds : ∀ segmentId ∈ mapping.flushSegments offset size,
      held (mapping.mutexId segmentId)) :
    (mapping.flush offset size ⟨false, true, true⟩).Safe
      (protocol mapping initial) (mapping.handle driver) thread
      (fun _ => Locked mapping initial thread held) state := by
  unfold Mapping.flush Mapping.flushSection Mapping.flushMutexes
  refine Program.Safe.assume fun _ => ?_
  refine Program.Safe.assume fun _ => ?_
  refine Program.Safe.assume fun _ => ?_
  refine Program.Safe.assume fun _ => ?_
  refine Program.Safe.andThen locked.safe_directMSync ?_
  intro _ _ still
  refine Program.Safe.when ?_ fun _ => still
  intro _
  simp only [if_true, Program.each_nil, Program.done_bind, Program.when_false]
  refine Program.Safe.andThen
    (still.safe_eachSegment holds fun _ _ current holdsOne =>
      current.safe_flushSegment full threadSafe holdsOne true) ?_
  intro _ _ flushed
  exact flushed

theorem safe_evict
    (idle : (protocol mapping initial).Idle thread state)
    (segmentId : Nat) :
    (mapping.evict segmentId).Safe
      (protocol mapping initial) (mapping.handle driver) thread
      (fun _ => (protocol mapping initial).Idle thread) state := by
  unfold Mapping.evict
  refine Program.Safe.andThen (safe_lockOne idle _) ?_
  intro _ _ locked
  have holds : ∀ other ∈ mapping.flushSegments
      (segmentId * mapping.segmentSize) mapping.segmentSize,
      mapping.mutexId other = mapping.mutexId segmentId :=
    fun _ member => congrArg _ (mapping.eq_of_mem_flushSegments_evict member)
  refine Program.Safe.andThen (locked.safe_flush_noLock full threadSafe holds) ?_
  intro _ _ flushed
  exact flushed.safe_unlockOne

end

theorem safe_withAllLocked
    (idle : (protocol mapping initial).Idle thread state)
    (bodySafe : ∀ held segmentId current,
      Locked mapping initial thread held current →
      held (mapping.mutexId segmentId) →
        (body segmentId).Safe (protocol mapping initial) (mapping.handle driver) thread
          (fun _ => Locked mapping initial thread held) current) :
    (mapping.withAllLocked body).Safe
      (protocol mapping initial) (mapping.handle driver) thread
      (fun _ => (protocol mapping initial).Idle thread) state := by
  unfold Mapping.withAllLocked
  refine Program.Safe.andThen (safe_lockAll idle _) ?_
  intro _ _ locked
  refine Program.Safe.andThen
    (locked.safe_eachSegment
      (fun segmentId _ => List.mem_range.mpr (Mapping.mutexId_lt segmentId))
      fun segmentId current => bodySafe _ segmentId current) ?_
  intro _ _ worked
  exact worked.safe_unlockAll List.nodup_range

section

variable (full : driver.Full) (threadSafe : mapping.threadSafe = true)
variable (idle : (protocol mapping initial).Idle thread state)
include full threadSafe idle

theorem safe_loadByte (offset attempts : Nat) :
    (mapping.loadByte offset attempts).Safe
      (protocol mapping initial) (mapping.handle driver) thread
      (fun _ => (protocol mapping initial).Idle thread) state := by
  induction attempts generalizing state with
  | zero => exact idle
  | succ attempts inductionHypothesis =>
      unfold Mapping.loadByte
      refine Program.Safe.andThen (safe_load idle offset) ?_
      intro value _ attempted
      split
      · exact attempted
      · refine Program.Safe.andThen
          (safe_onSegmentationFault full threadSafe attempted _ false) ?_
        intro _ _ handled
        exact inductionHypothesis handled

theorem safe_storeByte (offset : Nat) (value : Byte) (attempts : Nat) :
    (mapping.storeByte offset value attempts).Safe
      (protocol mapping initial) (mapping.handle driver) thread
      (fun _ => (protocol mapping initial).Idle thread) state := by
  induction attempts generalizing state with
  | zero => exact idle
  | succ attempts inductionHypothesis =>
      unfold Mapping.storeByte
      refine Program.Safe.andThen (safe_store idle offset value) ?_
      intro written _ attempted
      split
      · exact attempted
      · refine Program.Safe.andThen
          (safe_onSegmentationFault full threadSafe attempted _ true) ?_
        intro _ _ handled
        exact inductionHypothesis handled

/-- Every call that takes its own mutexes follows the protocol. -/
theorem safe_call (attempts : Nat) {call : Call} (locking : call.Locking) :
    (mapping.call attempts call).Safe
      (protocol mapping initial) (mapping.handle driver) thread
      (fun _ => (protocol mapping initial).Idle thread) state := by
  cases call with
  | load offset => exact safe_loadByte full threadSafe idle offset attempts
  | store offset value =>
      exact Program.Safe.andThen
        (safe_storeByte full threadSafe idle offset value attempts)
        fun _ _ done => done
  | fault address isWrite =>
      exact Program.Safe.andThen
        (safe_onSegmentationFault full threadSafe idle address isWrite)
        fun _ _ done => done
  | flush offset size flags =>
      exact Program.Safe.andThen (safe_flush full threadSafe idle offset size locking)
        fun _ _ done => done
  | evict segmentId =>
      exact Program.Safe.andThen (safe_evict full threadSafe idle segmentId)
        fun _ _ done => done
  | dropClean =>
      exact Program.Safe.andThen
        (safe_withAllLocked idle fun _ _ _ locked holds =>
          locked.safe_dropSegment holds)
        fun _ _ done => done
  | markCleanAsDirty =>
      exact Program.Safe.andThen
        (safe_withAllLocked idle fun _ _ _ locked holds =>
          locked.safe_markSegment holds)
        fun _ _ done => done

end

/-! ## Runs -/

/-- The machine right after the constructor satisfies the invariant. -/
theorem ProtocolInv.of_constructor {flags : CreationFlags}
    (firstRead : flags.noFirstRead = false) (storage : Nat → Byte) :
    ProtocolInv mapping (mapping.initialView flags storage)
      (Machine.initial flags storage) where
  visible := fun _ absurdity => nomatch absurdity
  free := fun segmentId _ => by
    refine ⟨?_, ?_, (fun absurdity => nomatch absurdity),
      (fun absurdity => nomatch absurdity)⟩
    · simp [Machine.initial, Core.initial, firstRead]
    · intro _
      refine ⟨rfl, rfl, rfl, ?_⟩
      intro offset _ _
      simp [Machine.initial, Core.initial, Mapping.initialView, firstRead]
  loads := LoadsCoherent.nil mapping.size _

/-- In a thread-safe mapping that reads its storage, whatever the threads do and
however their steps interleave, every load below the size returned the last
store to its offset, or the initial storage byte. -/
theorem loads_return_last_store (mapping : Mapping)
    (threadSafe : mapping.threadSafe = true) (flags : CreationFlags)
    (firstRead : flags.noFirstRead = false) (driver : Driver) (full : driver.Full)
    (storage : Nat → Byte)
    (configuration : Configuration Nat mappingSignature Machine)
    (reached : Reachable (mapping.handle driver) mapping.clientPrograms
      (Machine.initial flags storage) configuration) :
    LoadsCoherent mapping.size (mapping.initialView flags storage)
      configuration.state.core.trace := by
  have invariant := Reachable.inv (protocol mapping (mapping.initialView flags storage))
    (ProtocolInv.of_constructor firstRead storage) ?_ ?_ reached
  · exact invariant.loads
  · intro thread mutexId absurdity
    cases absurdity
  · rintro program ⟨attempts, call, locking, rfl⟩ thread state _ idle
    exact Program.Safe.andThen (safe_call full threadSafe idle attempts locking)
      fun _ _ done => done

/-- One thread stores a byte, another one evicts the segment and loads it
back. -/
theorem loads_return_last_store_after_evict :
    ∃ configuration : Configuration Nat mappingSignature Machine,
      configuration.state.core.trace =
        [.load 1 5 7, .pwrite 0 pageSize, .store 0 5 7] ∧
      LoadsCoherent pageSize (fun _ => 0) configuration.state.core.trace := by
  have started : Reachable (onePage.handle Driver.whole) onePage.clientPrograms
      (Machine.initial ⟨false, false⟩ fun _ => 0) _ := .initial
  have stored := started.run 0 _ rfl ⟨2, .store 5 7, trivial, rfl⟩ rfl
  have evicted := stored.run 1 _ rfl ⟨0, .evict 0, trivial, rfl⟩ rfl
  have loaded := evicted.run 1 _ rfl ⟨2, .load 5, trivial, rfl⟩ rfl
  exact ⟨_, rfl, loads_return_last_store onePage rfl
    ⟨false, false⟩ rfl Driver.whole Driver.whole_full (fun _ => 0) _ loaded⟩

end Safety

end UmmapIo
