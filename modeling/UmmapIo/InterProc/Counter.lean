import UmmapIo.InterProc.Table
import Mathlib.Data.Finset.Card

/-!
# The counter of processes

The counter is exactly the number of entries in use as long as no constructor
takes over the entry of a process that has ended.  In any case it is not below
that number, so that an `update` of a process in the table never divides by
zero.  An `update` of a process that has left the table may.
-/

namespace UmmapIo
namespace ProcessGroup

namespace State

variable {group : Group} {state after : State} {action : Action}

/-- The increment of the counter does not overflow. -/
def belowMaximum (state : State) : Action → Bool
  | .register _ => state.shared.processes + 1 < 2 ^ 31
  | _ => true

/-- What a step does to the counter and to the number of entries in use. -/
theorem counted_step (listed : state.Listed) (counted : state.shared.Counted)
    (below : state.belowMaximum action = true)
    (moved : state.step group action = some after) :
    after.shared.Counted ∧
      (after.shared.processes - after.shared.used =
          state.shared.processes - state.shared.used ∨
        (∃ pid, action = .register pid) ∧
          state.shared.takesOver state.alive = true) := by
  cases action with
  | alone pid action =>
      obtain ⟨_, _, _, rfl⟩ := step_alone moved
      exact ⟨counted, Or.inl rfl⟩
  | register pid =>
      obtain ⟨ready, shared, registers, rfl⟩ := step_register moved
      have joined := Shared.joined_of_register
        (listed.ne_zero ready (by decide)) registers
      have below := of_decide_eq_true below
      refine ⟨joined.counted counted below, ?_⟩
      cases takeover : state.shared.takesOver state.alive with
      | true => exact Or.inr ⟨⟨pid, rfl⟩, rfl⟩
      | false =>
          left
          change shared.processes - shared.used = _
          have used := joined.used
          rw [takeover] at used
          change shared.used = state.shared.used + 1 at used
          have processes := joined.processes_eq counted below
          omega
  | signalAll pid =>
      obtain ⟨_, rfl⟩ := step_signalAll moved
      refine ⟨Shared.purge_counted counted, Or.inl ?_⟩
      change (state.shared.purge state.alive).processes -
        (state.shared.purge state.alive).used = _
      have total := Shared.purge_used state.alive state.shared
      rw [Shared.purge_processes counted]
      omega
  | leave pid =>
      obtain ⟨ready, rfl⟩ := step_leave moved
      obtain ⟨shared, unregisters, left⟩ := Shared.left_of_unregister
        (listed.ne_zero ready (by decide)) (listed.table pid (ready ▸ rfl))
      rw [unregisters]
      refine ⟨left.counted counted, Or.inl ?_⟩
      change shared.processes - shared.used = _
      have processes := left.processes_eq counted
      have used := left.used
      omega

theorem counted_initial : State.initial.shared.Counted where
  enough := by decide
  bounded := by decide
  room := by decide

/-- The registered processes take up entries. -/
theorem Listed.card_le_used (listed : state.Listed) :
    state.registered.card ≤ state.shared.used := by
  have inside : state.registered ⊆
      (state.shared.pids.filter Shared.isUsed).toFinset := by
    intro pid member
    obtain ⟨inTable, registered⟩ := Finset.mem_filter.mp member
    rw [List.mem_toFinset] at inTable ⊢
    have running := of_decide_eq_true (alive_of_isRegistered registered)
    exact List.mem_filter.mpr
      ⟨inTable, Shared.isUsed_of_ne (listed.ne_zero rfl running)⟩
  calc state.registered.card
      ≤ (state.shared.pids.filter Shared.isUsed).toFinset.card :=
        Finset.card_le_card inside
    _ ≤ (state.shared.pids.filter Shared.isUsed).length :=
        List.toFinset_card_le _
    _ = state.shared.used := List.countP_eq_length_filter.symm

/-- The counter is positive as long as some process is registered. -/
theorem processes_pos (listed : state.Listed) (counted : state.shared.Counted)
    (pid : Nat)
    (registered : (state.process pid).phase.isRegistered = true) :
    0 < state.shared.processes := by
  have member : pid ∈ state.registered :=
    Finset.mem_filter.mpr
      ⟨List.mem_toFinset.mpr (listed.table pid registered), registered⟩
  have positive := Finset.card_pos.mpr ⟨pid, member⟩
  have used := listed.card_le_used
  have enough := counted.enough
  omega

end State

/-- A process is started and runs the constructor. -/
def joining (pid : Nat) : List Action :=
  [.alone pid .spawn, .alone pid .construct, .alone pid .openShm, .register pid,
    .signalAll pid, .alone pid .beginUpdate, .alone pid .endUpdate]

/-! ## Exactness -/

/-- No constructor takes over the entry of a process that has ended. -/
def State.takesFree (state : State) : Action → Bool
  | .register _ => !state.shared.takesOver state.alive
  | _ => true

/-- In every run of joins, leaves, purges, crashes and identifiers used again in
which no constructor takes over the entry of a process that has ended, the
counter is the number of entries in use after every critical section. -/
theorem counter_counts_entries (group : Group) (state : State)
    (reached : ReachableBy (State.step group)
      (fun current action => current.takesFree action) State.initial state) :
    state.shared.processes = state.shared.used := by
  have exactly : state.Listed ∧ state.shared.Counted ∧
      state.shared.processes = state.shared.used := by
    refine reached.invariant (fun current => current.Listed ∧
      current.shared.Counted ∧ current.shared.processes = current.shared.used)
      ⟨State.listed_initial, State.counted_initial, rfl⟩ ?_
    rintro before after action ⟨listed, counted, same⟩ free moved
    have below : before.belowMaximum action = true := by
      cases action with
      | register pid =>
          have used := before.shared.used_le_length
          have room : before.shared.pids.length ≤ 262140 := counted.room
          refine decide_eq_true ?_
          omega
      | _ => rfl
    obtain ⟨counted', kept | ⟨⟨pid, rfl⟩, takeover⟩⟩ :=
      State.counted_step listed counted below moved
    · exact ⟨listed.step moved, counted', by omega⟩
    · simp [State.takesFree, takeover] at free
  exact exactly.2.2

/-- Two processes join and the first one leaves. -/
theorem counter_counts_entries_after_leave :
    ∃ state : State, state.shared.pids = [0, 2] ∧
      state.shared.processes = state.shared.used := by
  have reached : ReachableBy (State.step ⟨16384, false⟩)
      (fun current action => current.takesFree action) State.initial _ :=
    ReachableBy.initial.follow (joining 1 ++ joining 2 ++ [.leave 1]) rfl
  exact ⟨_, rfl, counter_counts_entries ⟨16384, false⟩ _ reached⟩

/-- A process crashes after it has registered, and another one takes over its
entry: one entry is in use, and the counter is two. -/
theorem crashed_process_stays_counted :
    ∃ state : State,
      ReachableBy (State.step ⟨16384, false⟩) (fun _ _ => True) State.initial
          state ∧
        state.shared.processes = 2 ∧ state.shared.used = 1 := by
  have reached : ReachableBy (State.step ⟨16384, false⟩) (fun _ _ => True)
      State.initial _ :=
    ReachableBy.initial.follow
      [.alone 1 .spawn, .alone 1 .construct, .alone 1 .openShm, .register 1,
        .alone 1 .crash, .alone 1 .reap,
        .alone 2 .spawn, .alone 2 .construct, .alone 2 .openShm, .register 2]
      rfl
  exact ⟨_, reached, rfl, rfl⟩

/-! ## The divisor -/

/-- The action runs into the division of `update`. -/
def State.runsUpdate (state : State) : Action → Bool
  | .alone pid .beginUpdate => (state.process pid).phase = .signalled
  | .alone pid .beginCall => (state.process pid).phase = .member
  | .alone pid .sigHandler =>
      (state.process pid).pending && (state.process pid).phase.isRunning &&
        (state.process pid).phase ≠ .outside
  | _ => false

/-- The handler does not run while `gblPolicyQuotaInterProc` is set and the
process is not in the table; the increment of the counter does not overflow. -/
def State.attended (state : State) : Action → Bool
  | .alone pid .sigHandler =>
      (state.process pid).phase.isRegistered || (state.process pid).phase = .outside
  | action => state.belowMaximum action

/-- In every run in which no handler runs in a process that is about to enter the
table or has just left it, the counter is positive whenever an `update` divides
by it. -/
theorem update_divides_by_positive (group : Group) (state : State)
    (reached : ReachableBy (State.step group)
      (fun current action => current.attended action) State.initial state)
    (action : Action)
    (attended : state.attended action = true)
    (runs : state.runsUpdate action = true) :
    0 < state.shared.processes := by
  have below (current : State) (action : Action)
      (attended : current.attended action = true) :
      current.belowMaximum action = true := by
    unfold State.attended at attended
    split at attended
    · rfl
    · exact attended
  obtain ⟨listed, counted⟩ := reached.invariant
    (fun current => current.Listed ∧ current.shared.Counted)
    ⟨State.listed_initial, State.counted_initial⟩
    (fun before after action holds attended moved =>
      ⟨holds.1.step moved, (State.counted_step holds.1 holds.2
        (below before action attended) moved).1⟩)
  unfold State.runsUpdate at runs
  split at runs
  · rename_i pid
    exact State.processes_pos listed counted pid (by rw [of_decide_eq_true runs]; rfl)
  · rename_i pid
    exact State.processes_pos listed counted pid (by rw [of_decide_eq_true runs]; rfl)
  · rename_i pid
    rw [Bool.and_eq_true] at runs
    have inside := of_decide_eq_true runs.2
    refine State.processes_pos listed counted pid ?_
    simpa [State.attended, inside] using attended
  · cases runs

/-- The second process has joined; the first one is about to handle its
signal. -/
theorem update_divides_by_positive_after_join :
    ∃ state : State,
      state.runsUpdate (.alone 1 .sigHandler) = true ∧
        0 < state.shared.processes := by
  have reached : ReachableBy (State.step ⟨16384, false⟩)
      (fun current action => current.attended action) State.initial _ :=
    ReachableBy.initial.follow (joining 1 ++ joining 2) rfl
  exact ⟨_, rfl, update_divides_by_positive ⟨16384, false⟩ _ reached
    (.alone 1 .sigHandler) rfl rfl⟩

/-- Two processes join, the second one leaves, and the first one leaves with the
signal of the second still pending: its handler runs `update` with a counter of
zero. -/
theorem update_divides_by_zero :
    ∃ state : State,
      ReachableBy (State.step ⟨16384, false⟩) (fun _ _ => True) State.initial
          state ∧
        (state.process 1).phase = .leaving ∧
        state.runsUpdate (.alone 1 .sigHandler) = true ∧
        state.shared.processes = 0 := by
  have reached : ReachableBy (State.step ⟨16384, false⟩) (fun _ _ => True)
      State.initial _ :=
    ReachableBy.initial.follow (joining 1 ++ joining 2 ++ [.leave 2, .leave 1]) rfl
  exact ⟨_, reached, rfl, rfl, rfl⟩

end ProcessGroup
end UmmapIo
