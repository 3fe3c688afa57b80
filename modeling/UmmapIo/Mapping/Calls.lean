import UmmapIo.Mapping.Operations

/-!
# The calls of a client

What a thread may ask of a mapping: byte accesses, faults that are delivered or
raised directly, and the maintenance operations.  A client calls them one after
the other.
-/

namespace UmmapIo

/-- One call of a client on a mapping. -/
inductive Call : Type
  | load (offset : Nat)
  | store (offset : Nat) (value : Byte)
  | fault (address : Nat) (isWrite : Bool)
  | flush (offset size : Nat) (flags : FlushFlags)
  | evict (segmentId : Nat)
  | dropClean
  | markCleanAsDirty
  deriving DecidableEq

/-- A call that takes the mutexes it needs: `UMMAP_FLUSH_NO_LOCK` is reserved to
`evict`, which holds the mutex already. -/
def Call.Locking : Call → Prop
  | .flush _ _ flags => flags.noLock = false
  | _ => True

namespace Mapping

variable (mapping : Mapping)

/-- The program of a call; a load returns the byte it read.  Byte accesses are
attempted at most the given number of times. -/
def call (attempts : Nat) : Call → MappingProgram (Option Byte)
  | .load offset => mapping.loadByte offset attempts
  | .store offset value => do
      let _ ← mapping.storeByte offset value attempts
      pure none
  | .fault address isWrite => do
      mapping.onSegmentationFault address isWrite
      pure none
  | .flush offset size flags => do
      mapping.flush offset size flags
      pure none
  | .evict segmentId => do
      mapping.evict segmentId
      pure none
  | .dropClean => do
      mapping.dropClean
      pure none
  | .markCleanAsDirty => do
      mapping.markCleanAsDirty
      pure none

/-- The programs a thread may run beside others: locking calls with any number
of attempts. -/
def clientPrograms : Set (MappingProgram Unit) :=
  { program | ∃ attempts call, Call.Locking call ∧
      program = mapping.call attempts call >>= fun _ => pure () }

end Mapping

end UmmapIo
