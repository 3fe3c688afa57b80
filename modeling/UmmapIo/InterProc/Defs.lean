import UmmapIo.Lib.Transition
import Mathlib.Data.Finset.Filter
import Mathlib.Algebra.BigOperators.Group.Finset.Defs

/-!
# Processes that share a quota

The protocol of `core/PolicyQuotaInterProc.cpp`.  The processes of a group share
a counter and a table of process identifiers.  Constructors and destructors
change them in critical sections; the new size of the share of a process is
computed from the counter, without a lock, by `update`, which also runs in the
handler of a signal that every constructor sends to the other processes.

Each action of a process is one critical section or one half of an `update`: the
signal may arrive between the division and the assignment.  The rest of
`update`, which shrinks policies, is in `Policy/Operations.lean`.
-/

namespace UmmapIo
namespace ProcessGroup

/-! ## The shared data -/

/-- `SHARED_TAB_ENTRIES`. -/
def sharedTabEntries : Nat := (1024 * 1024 - 4 * 4) / 4

/-- The value of a `std::atomic<int>` after an increment or a decrement. -/
def wrapInt (value : Int) : Int :=
  value.bmod (2 ^ 32)

/-- `PolicyQuotaInterProcShared`.  The table is `pids[0 .. indexMax)`; an entry
is zero when it is free. -/
structure Shared where
  /-- The number of processes. -/
  processes : Int
  /-- The entries in use so far. -/
  pids : List Nat

namespace Shared

/-- The shared memory right after it was created. -/
def initial : Shared := ⟨0, []⟩

variable (alive : Nat → Bool)

/-- The test `pids[i] == 0 || kill(pids[i],0) == -1` of the constructor. -/
def isAvailable (entry : Nat) : Bool :=
  entry = 0 || !alive entry

/-- The loop of the constructor: put the identifier in the first entry that is
free or belongs to no process. -/
def takeEntry (pid : Nat) : List Nat → Option (List Nat)
  | [] => none
  | entry :: rest =>
      if isAvailable alive entry then some (pid :: rest)
      else (takeEntry pid rest).map (entry :: ·)

/-- The critical section of the constructor.  With no entry left, it writes
behind the end of the shared memory. -/
def register (shared : Shared) (pid : Nat) : Option Shared :=
  match takeEntry alive pid shared.pids with
  | some pids => some ⟨wrapInt (shared.processes + 1), pids⟩
  | none =>
      if shared.pids.length < sharedTabEntries then
        some ⟨wrapInt (shared.processes + 1), shared.pids ++ [pid]⟩
      else none

/-- The loop of the destructor: free the first entry with this identifier. -/
def clearEntry (pid : Nat) : List Nat → Option (List Nat)
  | [] => none
  | entry :: rest =>
      if entry = pid then some (0 :: rest)
      else (clearEntry pid rest).map (entry :: ·)

/-- The critical section of the destructor, with whether an entry was found. -/
def unregister (shared : Shared) (pid : Nat) : Bool × Shared :=
  match clearEntry pid shared.pids with
  | some pids => (true, ⟨wrapInt (shared.processes - 1), pids⟩)
  | none => (false, ⟨wrapInt (shared.processes - 1), shared.pids⟩)

/-- The test `pids[i] != 0 && kill(pids[i],0) != 0` of `signalAll`. -/
def isStale (entry : Nat) : Bool :=
  entry ≠ 0 && !alive entry

/-- The first loop of `signalAll`: free the entries of processes that have
ended. -/
def purge (shared : Shared) : Shared where
  processes := shared.pids.foldl
    (fun processes entry =>
      if isStale alive entry then wrapInt (processes - 1) else processes)
    shared.processes
  pids := shared.pids.map fun entry => if isStale alive entry then 0 else entry

/-- The second loop of `signalAll`: whether a process is sent the signal by the
process with this identifier. -/
def isSignalled (shared : Shared) (sender pid : Nat) : Bool :=
  pid ≠ 0 && pid ≠ sender && pid ∈ shared.pids

end Shared

/-! ## The processes -/

/-- Where a process stands. -/
inductive Phase : Type
  /-- No process has this identifier: `kill` fails. -/
  | dead
  /-- The process has ended and its parent has not noticed yet. -/
  | zombie
  /-- `gblPolicyQuotaInterProc` is `NULL`. -/
  | outside
  /-- `gblPolicyQuotaInterProc` is set, `shared` is not. -/
  | opening
  /-- The shared memory is open. -/
  | opened
  /-- The process is in the table; `signalAll` is next. -/
  | constructing
  /-- `signalAll` is done; the constructor calls `update`. -/
  | signalled
  /-- The constructor has computed this share and not assigned it yet. -/
  | updating (share : Nat)
  /-- The constructor has returned. -/
  | member
  /-- The destructor has left the table; `gblPolicyQuotaInterProc` is still
  set. -/
  | leaving
  deriving DecidableEq

namespace Phase

/-- The process is in the table and has not ended. -/
def isRegistered : Phase → Bool
  | constructing => true
  | signalled => true
  | updating _ => true
  | member => true
  | _ => false

/-- The process has not ended. -/
def isRunning : Phase → Bool
  | dead => false
  | zombie => false
  | _ => true

end Phase

/-- A process. -/
structure Process where
  /-- Where it stands. -/
  phase : Phase
  /-- `staticMaxMemory` of its quota. -/
  staticMaxMemory : Nat
  /-- The signal is pending; a second one is merged with it. -/
  pending : Bool
  /-- Shares computed and not assigned yet, by handlers and by other calls of
  `update` than that of the constructor. -/
  computed : List Nat

/-- A process that has just been started. -/
def Process.started : Process := ⟨.outside, 0, false, []⟩

/-- What the processes of a group have in common. -/
structure Group where
  /-- The maximum given to every constructor. -/
  totalAllowed : Nat
  /-- Assertions are compiled out. -/
  ndebug : Bool

/-- The division of `update`.  The assertion on the counter ends the process, and
so does a division by zero; a negative counter is converted to `size_t`. -/
def Group.perProcQuota (group : Group) (processes : Int) : Option Nat :=
  if 0 < processes then
    some (group.totalAllowed / processes.toNat)
  else if group.ndebug && processes ≠ 0 then
    some (group.totalAllowed / (2 ^ 64 + processes).toNat)
  else none

/-! ## Steps of one process -/

/-- What a process does outside of the critical sections. -/
inductive LocalAction : Type
  /-- The process is started. -/
  | spawn
  /-- The constructor, up to the installation of the handler. -/
  | construct
  /-- `openShm`. -/
  | openShm
  /-- The division in the `update` of the constructor. -/
  | beginUpdate
  /-- The assignment in the `update` of the constructor. -/
  | endUpdate
  /-- The division in an `update` from `registerPolicy` or a touch. -/
  | beginCall
  /-- The signal is delivered, up to the division in the `update` of
  `sigHandler`. -/
  | sigHandler
  /-- The assignment in an `update` from a handler or a call. -/
  | assign (share : Nat)
  /-- The end of the destructor. -/
  | finish
  /-- The process ends. -/
  | crash
  /-- The parent notices that the process has ended. -/
  | reap
  deriving DecidableEq

namespace Process

variable (group : Group) (processes : Int) (process : Process)

/-- The division in an `update` from a handler or a call. -/
def compute : Process :=
  match group.perProcQuota processes with
  | some share => { process with computed := share :: process.computed }
  | none => { process with phase := .zombie }

/-- The division in the `update` of the constructor. -/
def beginUpdate : Process :=
  match group.perProcQuota processes with
  | some share => { process with phase := .updating share }
  | none => { process with phase := .zombie }

/-- `sigHandler`, up to the division.  Before `openShm`, `update` follows a
pointer that is not set. -/
def sigHandler : Process :=
  match process.phase with
  | .outside => { process with pending := false }
  | .opening => { process with phase := .zombie, pending := false }
  | _ => { process with pending := false }.compute group processes

/-- Where an action of the process leads. -/
def step : LocalAction → Option Process
  | .spawn => if process.phase = .dead then some .started else none
  | .construct =>
      if process.phase = .outside then
        some { process with
          phase := .opening
          staticMaxMemory := group.totalAllowed
          computed := [] }
      else none
  | .openShm =>
      if process.phase = .opening then some { process with phase := .opened }
      else none
  | .beginUpdate =>
      if process.phase = .signalled then
        some (process.beginUpdate group processes)
      else none
  | .endUpdate =>
      match process.phase with
      | .updating share =>
          some { process with phase := .member, staticMaxMemory := share }
      | _ => none
  | .beginCall =>
      if process.phase = .member then some (process.compute group processes)
      else none
  | .sigHandler =>
      if process.pending && process.phase.isRunning then
        some (process.sigHandler group processes)
      else none
  | .assign share =>
      if process.phase.isRunning && decide (share ∈ process.computed) then
        some { process with
          staticMaxMemory := share
          computed := process.computed.erase share }
      else none
  | .finish =>
      if process.phase = .leaving then
        some { process with phase := .outside, computed := [] }
      else none
  | .crash =>
      if process.phase.isRunning then some { process with phase := .zombie }
      else none
  | .reap =>
      if process.phase = .zombie then some { process with phase := .dead }
      else none

end Process

/-! ## Steps of the group -/

/-- What a process does next; critical sections are single steps. -/
inductive Action : Type
  /-- A step outside of the critical sections. -/
  | alone (pid : Nat) (action : LocalAction)
  /-- The critical section of the constructor. -/
  | register (pid : Nat)
  /-- `signalAll`. -/
  | signalAll (pid : Nat)
  /-- The critical section of the destructor. -/
  | leave (pid : Nat)
  deriving DecidableEq

/-- The state of all processes. -/
structure State where
  /-- The shared memory. -/
  shared : Shared
  /-- The process of each identifier. -/
  process : Nat → Process

namespace State

/-- Nothing has been started. -/
def initial : State where
  shared := .initial
  process := fun _ => ⟨.dead, 0, false, []⟩

/-- What `kill(pid, 0)` finds. -/
def alive (state : State) (pid : Nat) : Bool :=
  (state.process pid).phase ≠ .dead

/-- Replace one process. -/
@[simps] def setProcess (state : State) (pid : Nat) (process : Process) : State :=
  { state with process := Function.update state.process pid process }

/-- Change the phase of a process. -/
def setPhase (state : State) (pid : Nat) (phase : Phase) : State :=
  state.setProcess pid { state.process pid with phase := phase }

/-- Replace the shared memory. -/
@[simps] def setShared (state : State) (shared : Shared) : State :=
  { state with shared := shared }

/-- The second loop of `signalAll`. -/
@[simps] def signal (state : State) (sender : Nat) : State :=
  { state with
    process := fun pid =>
      if state.shared.isSignalled sender pid then
        { state.process pid with pending := true }
      else state.process pid }

/-- Where an action leads.  The identifier zero belongs to no process. -/
def step (group : Group) (state : State) : Action → Option State
  | .alone pid action =>
      if pid = 0 then none
      else ((state.process pid).step group state.shared.processes action).map
        (state.setProcess pid)
  | .register pid =>
      if (state.process pid).phase = .opened then
        (state.shared.register state.alive pid).map fun shared =>
          (state.setShared shared).setPhase pid .constructing
      else none
  | .signalAll pid =>
      if (state.process pid).phase = .constructing then
        some (((state.setShared (state.shared.purge state.alive)).signal
          pid).setPhase pid .signalled)
      else none
  | .leave pid =>
      if (state.process pid).phase = .member then
        let (found, shared) := state.shared.unregister pid
        some ((state.setShared shared).setPhase pid
          (if found then .leaving else .zombie))
      else none

/-- The registered processes that have not ended. -/
def registered (state : State) : Finset Nat :=
  state.shared.pids.toFinset.filter fun pid =>
    (state.process pid).phase.isRegistered

/-- The shares of the registered processes together. -/
def granted (state : State) : Nat :=
  ∑ pid ∈ state.registered, (state.process pid).staticMaxMemory

end State

end ProcessGroup
end UmmapIo
