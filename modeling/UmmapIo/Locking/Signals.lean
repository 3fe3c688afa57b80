import UmmapIo.Lib.Interrupts
import UmmapIo.Locking.Order

/-!
# Signals and mutexes

`sigHandler` runs `update` in the thread that it interrupts, which takes the
mutex of the quota and then segment mutexes.  The flags that should defer a
signal are set around a fault, where the signal is blocked anyway; the handler
does not look at them, and nothing else does.
-/

namespace UmmapIo

variable {M P Q : Type}

namespace Layout

variable {layout : Layout M P} [DecidableEq M] [DecidableEq P] [DecidableEq Q]

theorem orderly_sigHandler (rounds : Nat) :
    (layout.sigHandler rounds : LockedProgram M P Q Unit).Orderly
      (Mutex.rules layout.mutexCount) (fun _ => 0) fun _ => 0 := by
  refine (orderly_step .interProc).bind fun interProc => ?_
  cases (interProc : Option Q) with
  | none => exact rfl
  | some quota => exact orderly_update rounds quota

theorem orderly_deferSignal :
    (deferSignal : LockedProgram M P Q Unit).Orderly
      (Mutex.rules layout.mutexCount) (fun _ => 0) fun _ => 0 := by
  refine (orderly_step .interProc).bind fun interProc => ?_
  cases (interProc : Option Q) with
  | none => exact rfl
  | some quota => exact orderly_step _

theorem orderly_runDeferedLoop (rounds : Nat) (quota : Q) (more : Nat) :
    (layout.runDeferedLoop rounds quota more : LockedProgram M P Q Unit).Orderly
      (Mutex.rules layout.mutexCount) (fun _ => 0) fun _ => 0 := by
  induction more with
  | zero => exact orderly_plain _
  | succ more inductionHypothesis =>
      refine (orderly_step .hasPendingSignal).bind fun pending => ?_
      cases (pending : Bool) with
      | false => exact rfl
      | true =>
          exact (orderly_step _).bind fun _ =>
            (orderly_update rounds quota).bind fun _ => inductionHypothesis

theorem orderly_runDeferedSignal (rounds : Nat) :
    (layout.runDeferedSignal rounds : LockedProgram M P Q Unit).Orderly
      (Mutex.rules layout.mutexCount) (fun _ => 0) fun _ => 0 := by
  refine (orderly_step .interProc).bind fun interProc => ?_
  cases (interProc : Option Q) with
  | none => exact rfl
  | some quota =>
      exact (orderly_runDeferedLoop rounds quota rounds).bind fun _ =>
        orderly_step _

/-- The operations that threads run, faults from the handler of `SIGSEGV`
included. -/
inductive SignalOperation (layout : Layout M P) : LockedProgram M P Q Unit → Prop
  | locked (program : LockedProgram M P Q Unit)
      (operation : layout.LockedOperation program) :
      layout.SignalOperation program
  | onSegFault (rounds : Nat) (mapping : M) (address : Nat) (isWrite : Bool) :
      layout.SignalOperation (layout.onSegFault rounds mapping address isWrite)

theorem orderly_signalOperation {program : LockedProgram M P Q Unit}
    (operation : layout.SignalOperation program) :
    program.Orderly (Mutex.rules layout.mutexCount) (fun _ => 0) fun _ => 0 := by
  cases operation with
  | locked _ operation => exact orderly_operation operation
  | onSegFault rounds mapping address isWrite =>
      exact orderly_deferSignal.bind fun _ =>
        (orderly_onSegmentationFault rounds mapping address isWrite).bind fun _ =>
        orderly_runDeferedSignal rounds

/-- The handler of `SIGEVICT`. -/
def sigHandlers (layout : Layout M P) : Set (LockedProgram M P Q Unit) :=
  { handler | ∃ rounds, handler = layout.sigHandler rounds }

end Layout

/-- In every interleaving in which `SIGEVICT` only interrupts threads that hold no
quota mutex and no segment mutex: whatever a thread is doing, in its own operation
or in the handler, it never takes a mutex that it holds already, except for the
recursive one of a policy. -/
theorem handler_takes_no_held_mutex {T S : Type} [DecidableEq T] [DecidableEq M]
    [DecidableEq P] [DecidableEq Q] (layout : Layout M P)
    (inner : T → Handler (dataSignature M P Q) S)
    (initial : S)
    (configuration : Configuration T (locking (Mutex M P Q)
      (dataSignature M P Q)) (LockState T (Mutex M P Q) S))
    (reached : ReachableInterrupted (LockState.handle Mutex.recursive inner)
      { program | layout.SignalOperation program } layout.sigHandlers
      (fun current thread => ∀ mutex, 0 < current.state.held thread mutex →
        mutex.recursive = true)
      (.free initial) configuration)
    (thread : T)
    (mutex : Mutex M P Q)
    (taken : (configuration.program thread).nextOp = some (.lock mutex))
    (once : mutex.recursive = false) :
    configuration.state.held thread mutex = 0 := by
  have handlers (handler : LockedProgram M P Q Unit)
      (installed : handler ∈ layout.sigHandlers) :
      handler.Orderly (.alone Mutex.recursive) (fun _ => 0) fun _ => 0 := by
    obtain ⟨rounds, rfl⟩ := installed
    exact (Layout.orderly_sigHandler rounds).alone (Mutex.not_precedes_self _)
  have programs (program : LockedProgram M P Q Unit)
      (operation : layout.SignalOperation program) :
      program.Orderly (.alone Mutex.recursive) (fun _ => 0) fun _ => 0 :=
    (Layout.orderly_signalOperation operation).alone (Mutex.not_precedes_self _)
  have orderly := reached.orderly programs handlers thread
  refine Nat.eq_zero_of_not_pos fun holds => ?_
  obtain different | ⟨_, again⟩ := orderly.allows taken mutex holds
  · exact different rfl
  · exact absurd (again.symm.trans once) (by decide)

/-- The configurations of one thread that the handler may interrupt. -/
abbrev SignalRun (interruptible : LockedConfiguration Unit → Unit → Prop)
    (world : World Unit Unit Unit) : LockedConfiguration Unit → Prop :=
  ReachableInterrupted
    (LockState.handle Mutex.recursive (lockedSetup.handleData (some ())))
    { program | lockedLayout.SignalOperation program } lockedLayout.sigHandlers
    interruptible (.free (.start world))

/-- The signal arrives before a registration has taken the mutex of the quota; the
handler takes it first. -/
theorem handler_takes_no_held_mutex_before_registration :
    ∃ configuration : LockedConfiguration Unit,
      (configuration.program ()).nextOp = some (.lock (.quota ())) ∧
        configuration.state.held () (.quota ()) = 0 := by
  have registers : SignalRun (fun current thread => ∀ mutex,
      0 < current.state.held thread mutex → mutex.recursive = true) lockedWorld _ :=
    ReachableInterrupted.initial.step (.start () (lockedLayout.registerPolicy 1 () ())
      rfl (.locked _ (.registerPolicy 1 () ())))
  have handles := (registers.interrupt () (lockedLayout.sigHandler 1) ⟨1, rfl⟩
    fun _ holds => nomatch holds).follow [(), ()] rfl
  exact ⟨_, rfl, handler_takes_no_held_mutex _ _ _ _ handles () (.quota ()) rfl rfl⟩

/-- Both pages of the mapping have been touched, and then another process has
joined. -/
def crowdedWorld : World Unit Unit Unit :=
  let operations : PolicyProgram Unit Unit Unit Unit := do
    PolicyProgram.registerPolicy 1 () ()
    lockedSetup.onSegmentationFault 1 () pageSize true
    lockedSetup.onSegmentationFault 1 () (2 * pageSize) true
  match operations.run lockedSetup.handle lockedWorld with
  | .finished _ world =>
      world.setQuota () { world.quota () with
        interProc := some ⟨2 * pageSize, 2⟩ }
  | _ => lockedWorld

/-- The signal arrives while the thread is in the critical section of
`registerPolicy`, and the handler waits for the mutex of the quota; or it arrives
while the thread flushes the mapping, and the handler waits for the mutex of the
segment that it evicts. -/
theorem handler_takes_held_mutex :
    (∃ configuration : LockedConfiguration Unit,
      SignalRun (fun _ _ => True) lockedWorld configuration ∧
        (configuration.program ()).nextOp = some (.lock (.quota ())) ∧
        configuration.state.held () (.quota ()) = 1) ∧
    ∃ configuration : LockedConfiguration Unit,
      SignalRun (fun _ _ => True) crowdedWorld configuration ∧
        (configuration.program ()).nextOp = some (.lock (.segment () 0)) ∧
        configuration.state.held () (.segment () 0) = 1 := by
  constructor
  · have registers : SignalRun (fun _ _ => True) lockedWorld _ :=
      ReachableInterrupted.initial.step (.start () (lockedLayout.registerPolicy 1 () ())
        rfl (.locked _ (.registerPolicy 1 () ())))
    have handles := ((registers.follow [()] rfl).interrupt ()
      (lockedLayout.sigHandler 1) ⟨1, rfl⟩ trivial).follow [(), ()] rfl
    exact ⟨_, handles, rfl, rfl⟩
  · have flushes : SignalRun (fun _ _ => True) crowdedWorld _ :=
      ReachableInterrupted.initial.step (.start ()
        (lockedLayout.flush () 0 pageSize ⟨false, false, false⟩) rfl
        (.locked _ (.flush () 0 pageSize _)))
    have handles := ((flushes.follow [()] rfl).interrupt ()
      (lockedLayout.sigHandler 3) ⟨3, rfl⟩ trivial).follow (List.replicate 11 ()) rfl
    exact ⟨_, handles, rfl, rfl⟩

end UmmapIo
