import UmmapIo.Lib.LockOrder

/-!
# Handlers that interrupt threads

A handler may interrupt a thread between any two of its operations: the thread
runs the handler and then goes on with its program.  The handler belongs to the
thread, so it waits for ever if it takes a mutex that the thread holds and that
is not recursive.
-/

namespace UmmapIo

variable {T L S α : Type} {E : Signature}

/-- Configurations reached by the interleavings in which a handler interrupts a
thread only where a condition on the configuration lets it. -/
inductive ReachableInterrupted [DecidableEq T]
    (handle : T → Handler E S)
    (menu handlers : Set (Program E Unit))
    (condition : Configuration T E S → T → Prop)
    (initial : S) : Configuration T E S → Prop
  | initial : ReachableInterrupted handle menu handlers condition initial
      { state := initial, program := fun _ => .done () }
  | step {before after : Configuration T E S}
      (reached : ReachableInterrupted handle menu handlers condition initial before)
      (moved : Step handle menu before after) :
      ReachableInterrupted handle menu handlers condition initial after
  | interrupt {configuration : Configuration T E S}
      (reached : ReachableInterrupted handle menu handlers condition initial
        configuration)
      (thread : T)
      (handler : Program E Unit)
      (installed : handler ∈ handlers)
      (allowed : condition configuration thread) :
      ReachableInterrupted handle menu handlers condition initial
        { configuration with
          program := Function.update configuration.program thread
            (handler >>= fun _ => configuration.program thread) }

/-- Following a schedule stays among the reachable configurations. -/
theorem ReachableInterrupted.follow [DecidableEq T] {handle : T → Handler E S}
    {menu handlers : Set (Program E Unit)} {condition : Configuration T E S → T → Prop}
    {initial : S} {before after : Configuration T E S}
    (reached : ReachableInterrupted handle menu handlers condition initial before)
    (schedule : List T)
    (follows : schedule.foldlM (Configuration.act (fun _ _ => True) handle)
      before = some after) :
    ReachableInterrupted handle menu handlers condition initial after := by
  induction schedule generalizing before with
  | nil =>
      cases follows
      exact reached
  | cons thread rest inductionHypothesis =>
      rw [List.foldlM_cons, Option.bind_eq_bind, Option.bind_eq_some_iff] at follows
      obtain ⟨middle, acts, follows⟩ := follows
      refine inductionHypothesis ?_ follows
      unfold Configuration.act at acts
      rw [if_pos trivial] at acts
      split at acts
      · rename_i op next current
        obtain ⟨answer, answered, rfl⟩ := Option.map_eq_some_iff.mp acts
        exact reached.step (.act thread current answered)
      · cases acts

/-! ## Waiting for oneself -/

/-- The rules that only keep a thread from waiting for itself. -/
def LockRules.alone (recursive : L → Bool) : LockRules L :=
  ⟨recursive, fun first second => first ≠ second⟩

variable [DecidableEq L] {held final : L → Nat}

/-- Programs that keep to an order do not wait for themselves. -/
theorem Program.Orderly.alone {rules : LockRules L} {program : Program (locking L E) α}
    (irreflexive : ∀ mutex, ¬rules.Precedes mutex mutex)
    (orderly : program.Orderly rules final held) :
    program.Orderly (.alone rules.recursive) final held := by
  induction program generalizing held with
  | done value => exact orderly
  | abort message => trivial
  | perform op next inductionHypothesis =>
      cases op with
      | lock mutex =>
          refine ⟨?_, inductionHypothesis () orderly.2⟩
          intro other holds
          refine (orderly.1 other holds).imp_left ?_
          rintro precedes rfl
          exact irreflexive other precedes
      | unlock mutex => exact ⟨orderly.1, inductionHypothesis () orderly.2⟩
      | other op =>
          exact fun result => inductionHypothesis result (orderly result)

/-- A program that does not wait for itself does not do so either while the
thread holds recursive mutexes. -/
theorem Program.Orderly.frame {recursive : L → Bool} {program : Program (locking L E) α}
    (orderly : program.Orderly (.alone recursive) final held)
    (more : L → Nat)
    (again : ∀ mutex, 0 < more mutex → recursive mutex = true) :
    program.Orderly (.alone recursive) (fun mutex => final mutex + more mutex)
      fun mutex => held mutex + more mutex := by
  induction program generalizing held with
  | done value =>
      obtain rfl : held = final := orderly
      exact rfl
  | abort message => trivial
  | perform op next inductionHypothesis =>
      have changed (mutex : L) (count : Nat) :
          (fun other => Function.update held mutex count other + more other) =
            Function.update (fun other => held other + more other) mutex
              (count + more mutex) := by
        funext other
        by_cases same : other = mutex
        · subst same
          rw [Function.update_self, Function.update_self]
        · rw [Function.update_of_ne same, Function.update_of_ne same]
      cases op with
      | lock mutex =>
          obtain ⟨allowed, continues⟩ := orderly
          refine ⟨?_, ?_⟩
          · intro other holds
            dsimp only at holds
            by_cases own : 0 < held other
            · exact allowed other own
            · by_cases same : other = mutex
              · subst same
                exact Or.inr ⟨rfl, again other (by omega)⟩
              · exact Or.inl same
          · have rest := inductionHypothesis () continues
            rw [changed] at rest
            rwa [show held mutex + more mutex + 1 = held mutex + 1 + more mutex by
              omega]
      | unlock mutex =>
          obtain ⟨holds, continues⟩ := orderly
          refine ⟨Nat.add_pos_left holds _, ?_⟩
          have rest := inductionHypothesis () continues
          rw [changed] at rest
          rwa [show held mutex + more mutex - 1 = held mutex - 1 + more mutex by
            omega]
      | other op =>
          exact fun result => inductionHypothesis result (orderly result)

variable [DecidableEq T] {recursive : L → Bool} {inner : T → Handler E S}
variable {menu handlers : Set (Program (locking L E) Unit)} {initial : S}
variable {configuration : Configuration T (locking L E) (LockState T L S)}

/-- Where handlers only interrupt threads that hold recursive mutexes, no thread
waits for itself. -/
theorem ReachableInterrupted.orderly
    (offered : ∀ program ∈ menu,
      program.Orderly (.alone recursive) (fun _ => 0) fun _ => 0)
    (installed : ∀ handler ∈ handlers,
      handler.Orderly (.alone recursive) (fun _ => 0) fun _ => 0)
    (reached : ReachableInterrupted (LockState.handle recursive inner) menu handlers
      (fun configuration thread => ∀ mutex,
        0 < configuration.state.held thread mutex → recursive mutex = true)
      (.free initial) configuration)
    (thread : T) :
    (configuration.program thread).Orderly (.alone recursive) (fun _ => 0)
      (configuration.state.held thread) := by
  induction reached generalizing thread with
  | initial => exact rfl
  | step _ moved inductionHypothesis =>
      exact moved.orderly offered inductionHypothesis thread
  | @interrupt configuration _ target handler member allowed
      inductionHypothesis =>
      dsimp only
      by_cases same : thread = target
      · subst same
        rw [Function.update_self]
        have runs := (installed handler member).frame
          (configuration.state.held thread) allowed
        simp only [Nat.zero_add] at runs
        exact runs.bind fun _ => inductionHypothesis thread
      · rw [Function.update_of_ne same]
        exact inductionHypothesis thread

end UmmapIo
