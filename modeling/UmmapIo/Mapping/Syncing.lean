import UmmapIo.Lib.Sequence
import UmmapIo.Mapping.Sequential
import UmmapIo.Mapping.Transfers

/-!
# Drivers with a `sync` of their own

With `UMMAP_FLUSH_SYNC`, `Mapping::flush` calls `driver->sync` at the end of its
critical section.  What the call does is up to the class of the driver, and it may
access the mapping as the application does.  Here the `sync` of the driver is a
program.  A flush whose `sync` leaves the mapping alone does what it does without the
flag.
-/

namespace UmmapIo

/-- The operations of a mapping, with the `sync` of its driver. -/
def Sys.withSync (sync : Nat → Nat → MappingProgram Unit) :
    (op : mappingSignature.Op) → MappingProgram (mappingSignature.Result op)
  | .sync offset size => sync offset size
  | op => Program.request op

namespace Mapping

variable (mapping : Mapping) (sync : Nat → Nat → MappingProgram Unit)

/-- `Mapping::flush` over a driver with this `sync`. -/
def flushWith (offset size : Nat) (flags : FlushFlags) : MappingProgram Unit :=
  (mapping.flush offset size flags).expand (Sys.withSync sync)

/-- The program of a call over a driver with this `sync`; only a flush calls it. -/
def callWith (attempts : Nat) : Call → MappingProgram (Option Byte)
  | .flush offset size flags => do
      mapping.flushWith sync offset size flags
      pure none
  | other => mapping.call attempts other

/-- Run calls of threads one after the other and collect their results. -/
def runCallsWith (driver : Driver) (attempts : Nat) :
    List (Nat × Call) → Machine → Outcome Machine (List (Option Byte)) :=
  Outcome.runAll fun pair =>
    (mapping.callWith sync attempts pair.2).run (mapping.handle driver pair.1)

theorem flushWith_eq (offset size : Nat) (flags : FlushFlags) :
    mapping.flushWith sync offset size flags = mapping.checkFlush offset size (do
      let res ← Sys.directMSync
      Program.when (!res) do
        Program.each Sys.lock (mapping.flushMutexes offset size flags)
        Program.each (mapping.flushSegment flags.unmap)
          (mapping.flushSegments offset size)
        Program.when flags.sync (sync offset size)
        Program.each Sys.unlock (mapping.flushMutexes offset size flags)) := by
  have unchanged (segmentId : Nat) :
      (mapping.flushSegment flags.unmap segmentId).expand (Sys.withSync sync) =
        mapping.flushSegment flags.unmap segmentId := by
    refine (mapping.flushSegment_performs flags.unmap segmentId).expand_eq ?_
    intro op writesBack
    cases op with
    | sync _ _ => exact writesBack.elim
    | _ => rfl
  have synchronises : (Sys.sync offset size).expand (Sys.withSync sync) =
      sync offset size :=
    Program.bind_done _
  unfold flushWith flush checkFlush flushSection
  simp only [Program.expand_bind, Program.expand_assume, Program.expand_when,
    Program.expand_each, unchanged, synchronises]
  rfl

end Mapping

/-! ## A `sync` that leaves the mapping alone -/

/-- The `sync` of the driver, called for this range, returns.  It does not touch the
memory of the mapping, its status bits and mutexes, or the storage. -/
def Mapping.SyncLeavesAlone (mapping : Mapping) (driver : Driver)
    (sync : Nat → Nat → MappingProgram Unit)
    (offset size : Nat) : Prop :=
  ∀ thread core, ∃ calls, ∀ mutex,
    (sync offset size).run (mapping.handle driver thread) ⟨core, mutex⟩ =
      .finished () ⟨core.recount calls, mutex⟩

/-- If the call is a flush that calls `sync`, this leaves the mapping alone. -/
def Call.Undisturbed (mapping : Mapping) (driver : Driver)
    (sync : Nat → Nat → MappingProgram Unit) : Call → Prop
  | .flush offset size flags =>
      flags.sync = true → driver.directMSync = false →
        mapping.SyncLeavesAlone driver sync offset size
  | _ => True

/-- A `sync` that does nothing leaves the mapping alone. -/
theorem Call.undisturbed_of_pure (mapping : Mapping) (driver : Driver) (call : Call) :
    call.Undisturbed mapping driver fun _ _ => pure () := by
  cases call with
  | flush offset size flags => exact fun _ _ _ core => ⟨core.calls, fun _ => rfl⟩
  | _ => trivial

/-- The call without `UMMAP_FLUSH_SYNC`. -/
def Call.unsynced : Call → Call
  | .flush offset size flags => .flush offset size { flags with sync := false }
  | call => call

theorem Call.Accepted.unsynced {mapping : Mapping} {call : Call}
    (accepted : call.Accepted mapping) :
    call.unsynced.Accepted mapping := by
  cases call <;> exact accepted

section Syncing

variable {mapping : Mapping} {driver : Driver} {core : Core} {thread : Nat}
variable {sync : Nat → Nat → MappingProgram Unit} {mayAbort : Prop}
variable {offset size : Nat} {flags : FlushFlags}

/-- A flush that returns passed all checks. -/
theorem accepted_of_flushWith_finished {state after : Machine}
    (returns : (mapping.flushWith sync offset size flags).run
      (mapping.handle driver thread) state = .finished () after) :
    (Call.flush offset size flags).Accepted mapping := by
  rw [mapping.flushWith_eq] at returns
  exact Call.accepted_of_checkFlush returns

/-- A flush over a driver whose `sync` computes an effect. -/
theorem ends_flushWith_of_sync (errors : driver.NoError ∨ mayAbort) (after : Core)
    (accepted : (Call.flush offset size flags).Accepted mapping ∨ mayAbort)
    (synced : driver.directMSync = false → flags.sync = true → ∀ mutex,
      (sync offset size).Ends (mapping.handle driver thread) mayAbort
        ⟨core.flushLoop mapping driver offset size flags.unmap, mutex⟩ ()
        ⟨after, mutex⟩) :
    (mapping.flushWith sync offset size flags).Ends
      (mapping.handle driver thread) mayAbort (.idle core) ()
      (.idle (if flags.sync && !driver.directMSync then after
        else core.flush mapping driver offset size
          { flags with sync := false })) := by
  rw [mapping.flushWith_eq]
  refine Program.Ends.checkFlush accepted (Program.Ends.bind (.request rfl) ?_)
  unfold Core.flush
  cases direct : driver.directMSync with
  | true =>
      rw [Bool.not_true, Bool.and_false]
      exact .done () _
  | false =>
      refine Program.Ends.bind
        (ends_lockEach (mapping.nodup_flushMutexes offset size flags)
          fun _ _ => rfl) ?_
      refine Program.Ends.bind
        (ends_eachSegment
          (fun _ segmentId => ends_flushSegment errors flags.unmap segmentId)
          (mapping.flushSegments offset size)) ?_
      cases requested : flags.sync with
      | true =>
          exact Program.Ends.bind (synced direct requested _)
            (ends_unlockAll fun _ _ => rfl)
      | false => exact ends_unlockAll fun _ _ => rfl

/-- A flush whose `sync` leaves the mapping alone. -/
theorem ends_flushWith (errors : driver.NoError ∨ mayAbort)
    (accepted : (Call.flush offset size flags).Accepted mapping ∨ mayAbort)
    (undisturbed :
      (Call.flush offset size flags).Undisturbed mapping driver sync) :
    ∃ calls, (mapping.flushWith sync offset size flags).Ends
      (mapping.handle driver thread) mayAbort (.idle core) ()
      (.idle ((core.flush mapping driver offset size
        { flags with sync := false }).recount calls)) := by
  cases requested : flags.sync && !driver.directMSync with
  | true =>
      obtain ⟨sync, indirect⟩ := Bool.and_eq_true_iff.mp requested
      rw [Bool.not_eq_true'] at indirect
      obtain ⟨calls, runs⟩ := undisturbed sync indirect thread
        (core.flushLoop mapping driver offset size flags.unmap)
      have ends := ends_flushWith_of_sync errors _ accepted
        fun _ _ mutex => Or.inl (runs mutex)
      rw [if_pos requested] at ends
      refine ⟨calls, ?_⟩
      unfold Core.flush
      rw [indirect]
      exact ends
  | false =>
      have ends : (mapping.flushWith sync offset size flags).Ends
          (mapping.handle driver thread) mayAbort (.idle core) () _ :=
        ends_flushWith_of_sync errors core accepted
          fun indirect sync => by simp [indirect, sync] at requested
      rw [if_neg (Bool.eq_false_iff.mp requested)] at ends
      exact ⟨_, ends⟩

/-- A call whose `sync` leaves the mapping alone. -/
theorem ends_callWith (errors : driver.NoError ∨ mayAbort) {call : Call}
    (accepted : call.Accepted mapping ∨ mayAbort)
    (undisturbed : call.Undisturbed mapping driver sync)
    (attempts thread : Nat) (core : Core) :
    ∃ calls, (mapping.callWith sync attempts call).Ends
      (mapping.handle driver thread) mayAbort (.idle core)
      (core.call mapping driver attempts thread call.unsynced).1
      (.idle ((core.call mapping driver attempts thread
        call.unsynced).2.recount calls)) := by
  cases call with
  | flush offset size flags =>
      obtain ⟨calls, ends⟩ := ends_flushWith errors accepted undisturbed
      exact ⟨calls, ends.bind (.done none _)⟩
  | _ => exact ⟨_, ends_call errors accepted attempts⟩

/-- Without driver errors, an accepted call whose `sync` leaves the mapping alone
finishes. -/
theorem callWith_finishes (noError : driver.NoError) {call : Call}
    (accepted : call.Accepted mapping)
    (undisturbed : call.Undisturbed mapping driver sync)
    (attempts thread : Nat) (core : Core) :
    ∃ calls, (mapping.callWith sync attempts call).run
        (mapping.handle driver thread) (.idle core) =
      .finished (core.call mapping driver attempts thread call.unsynced).1
        (.idle ((core.call mapping driver attempts thread
          call.unsynced).2.recount calls)) := by
  obtain ⟨calls, ends⟩ := ends_callWith (Or.inl noError) (Or.inl accepted)
    undisturbed attempts thread core
  exact ⟨calls, ends.finishes id⟩

end Syncing

end UmmapIo
