import UmmapIo.InterProc.Counter
import Mathlib.Algebra.BigOperators.Ring.Finset
import Mathlib.Algebra.Order.BigOperators.Group.Finset

/-!
# The shares of the processes

The share of a process is computed from a counter that changes afterwards.  A
constructor makes the counter larger and then signals everybody in the table, so
a process without a pending signal has computed its share for at least as many
processes as have signalled.  This is lost when an `update` is interrupted by
another one between its division and its assignment: the older share then
overwrites the newer one.
-/

namespace UmmapIo
namespace ProcessGroup

/-! ## One process -/

namespace Process

/-- An `update` is between its division and its assignment. -/
def isUpdating (process : Process) : Bool :=
  !process.computed.isEmpty ||
    match process.phase with
    | .updating _ => true
    | _ => false

/-- The share that the process has or is about to assign. -/
def current (process : Process) : Option Nat :=
  match process.phase with
  | .updating share => some share
  | .member => some (process.computed.headD process.staticMaxMemory)
  | _ => none

/-- At most one `update` is in progress, and without a pending signal the share
is small enough for this many processes. -/
structure Fair (totalAllowed announced : Nat)
    (process : Process) : Prop where
  single : process.computed.length ≤ 1
  alone : ∀ share, process.phase = .updating share → process.computed = []
  bounded : process.pending = false → ∀ share, process.current = some share →
    share * announced ≤ totalAllowed

variable {group : Group} {processes : Int} {process after : Process} {announced : Nat}

theorem Fair.mono {totalAllowed fewer : Nat}
    (fair : process.Fair totalAllowed announced)
    (less : fewer ≤ announced) :
    process.Fair totalAllowed fewer where
  single := fair.single
  alone := fair.alone
  bounded := fun delivered share current =>
    (Nat.mul_le_mul_left share less).trans (fair.bounded delivered share current)

theorem fair_of_current {totalAllowed : Nat} (single : process.computed.length ≤ 1)
    (current : process.current = none)
    (alone : ∀ share, process.phase ≠ .updating share) :
    process.Fair totalAllowed announced where
  single := single
  alone := fun share updating => absurd updating (alone share)
  bounded := by
    intro _ share own
    rw [current] at own
    cases own

/-- A share computed from a counter that counts everybody. -/
theorem perProcQuota_mul_le {share : Nat} (enough : (announced : Int) ≤ processes)
    (computes : group.perProcQuota processes = some share) :
    share * announced ≤ group.totalAllowed := by
  unfold Group.perProcQuota at computes
  split at computes
  · cases computes
    calc group.totalAllowed / processes.toNat * announced
        ≤ group.totalAllowed / processes.toNat * processes.toNat :=
          Nat.mul_le_mul_left _ (by omega)
      _ ≤ group.totalAllowed := Nat.div_mul_le_self _ _
  · split at computes
    · rename_i negative
      have nonzero : processes ≠ 0 := by
        simpa using (Bool.and_eq_true_iff.mp negative).2
      omega
    · cases computes

theorem eq_nil_of_isUpdating (idle : process.isUpdating = false) :
    process.computed = [] ∧ ∀ share, process.phase ≠ .updating share := by
  unfold isUpdating at idle
  rw [Bool.or_eq_false_iff] at idle
  refine ⟨by simpa using idle.1, ?_⟩
  intro share updating
  rw [updating] at idle
  cases idle.2

/-- The division of an `update` from a handler or a call. -/
theorem fair_compute (enough : (announced : Int) ≤ processes)
    (idle : process.computed = [])
    (other : ∀ share, process.phase ≠ .updating share) :
    (process.compute group processes).Fair group.totalAllowed announced := by
  unfold compute
  split
  · rename_i share computes
    refine ⟨by rw [idle]; exact Nat.le_refl 1,
      fun updating phase => absurd phase (other updating), ?_⟩
    intro _ own current
    unfold Process.current at current
    split at current
    · rename_i updating
      exact absurd updating (other _)
    · cases current
      exact perProcQuota_mul_le enough computes
    · cases current
  · exact fair_of_current (by rw [idle]; decide) rfl
      (by rintro _ ⟨⟩)

/-- The action is the division of an `update`. -/
def begins : LocalAction → Bool
  | .beginUpdate => true
  | .beginCall => true
  | .sigHandler => true
  | _ => false

/-- A step of the process itself. -/
theorem Fair.step {action : LocalAction}
    (fair : process.Fair group.totalAllowed announced)
    (enough : (announced : Int) ≤ processes)
    (serial : begins action = true → process.isUpdating = false)
    (moved : process.step group processes action = some after) :
    after.Fair group.totalAllowed announced := by
  cases action with
  | beginUpdate =>
      obtain ⟨_, same⟩ := Option.ite_none_right_eq_some.mp moved
      cases same
      obtain ⟨idle, _⟩ := eq_nil_of_isUpdating (serial rfl)
      unfold beginUpdate
      split
      · rename_i share computes
        refine ⟨fair.single, fun _ _ => idle, ?_⟩
        intro _ own current
        cases current
        exact perProcQuota_mul_le enough computes
      · exact fair_of_current fair.single rfl
          (by rintro _ ⟨⟩)
  | endUpdate =>
      simp only [Process.step] at moved
      split at moved
      · rename_i share updating
        cases moved
        have idle := fair.alone share updating
        refine ⟨fair.single, fun _ _ => idle, ?_⟩
        intro delivered own current
        rw [Process.current, idle] at current
        cases current
        refine fair.bounded delivered share ?_
        rw [Process.current, updating]
      · cases moved
  | beginCall =>
      obtain ⟨_, same⟩ := Option.ite_none_right_eq_some.mp moved
      cases same
      obtain ⟨idle, other⟩ := eq_nil_of_isUpdating (serial rfl)
      exact fair_compute enough idle other
  | sigHandler =>
      obtain ⟨_, same⟩ := Option.ite_none_right_eq_some.mp moved
      cases same
      obtain ⟨idle, other⟩ := eq_nil_of_isUpdating (serial rfl)
      unfold sigHandler
      split
      · rename_i outside
        refine fair_of_current fair.single ?_ other
        rw [Process.current, outside]
      · exact fair_of_current fair.single rfl
          (by rintro _ ⟨⟩)
      · exact fair_compute enough idle other
  | assign share =>
      obtain ⟨running, same⟩ := Option.ite_none_right_eq_some.mp moved
      cases same
      have member := of_decide_eq_true (Bool.and_eq_true_iff.mp running).2
      obtain ⟨other, computed⟩ :
          ∃ other, process.computed = [other] := by
        obtain empty | one := Nat.le_one_iff_eq_zero_or_eq_one.mp fair.single
        · rw [List.length_eq_zero_iff.mp empty] at member
          cases member
        · exact List.length_eq_one_iff.mp one
      rw [computed, List.mem_singleton] at member
      subst member
      have erased : process.computed.erase share = [] := by
        rw [computed, List.erase_cons_head]
      refine ⟨by rw [erased]; exact Nat.zero_le 1, fun _ _ => erased, ?_⟩
      intro delivered own current
      refine fair.bounded delivered own ?_
      rw [← current, Process.current, Process.current, erased, computed]
      cases process.phase <;> rfl
  | spawn | construct | finish =>
      obtain ⟨_, same⟩ := Option.ite_none_right_eq_some.mp moved
      cases same
      exact fair_of_current (Nat.zero_le 1) rfl (by rintro _ ⟨⟩)
  | _ =>
      obtain ⟨_, same⟩ := Option.ite_none_right_eq_some.mp moved
      cases same
      exact fair_of_current fair.single rfl (by rintro _ ⟨⟩)

end Process

/-! ## All processes -/

namespace State

variable {group : Group} {state after : State} {action : Action}

/-- The registered processes that have signalled the others. -/
def announced (state : State) : Finset Nat :=
  state.shared.pids.toFinset.filter fun pid =>
    (state.process pid).phase.isAnnounced

/-- No `update` begins in a process while another one is in progress there; the
increment of the counter does not overflow. -/
def serial (state : State) : Action → Bool
  | .alone pid action =>
      !(Process.begins action && (state.process pid).isUpdating)
  | action => state.belowMaximum action

theorem belowMaximum_of_serial (serial : state.serial action = true) :
    state.belowMaximum action = true := by
  cases action with
  | alone pid action => rfl
  | _ => exact serial

theorem announced_subset (listed : state.Listed)
    (kept : ∀ pid, (after.process pid).phase.isAnnounced = true →
      (state.process pid).phase.isAnnounced = true) :
    after.announced ⊆ state.announced := by
  intro pid member
  have announced := kept pid (Finset.mem_filter.mp member).2
  refine Finset.mem_filter.mpr ⟨List.mem_toFinset.mpr ?_, announced⟩
  exact listed.table pid (Phase.isRegistered_of_isAnnounced announced)

theorem announced_le_processes (listed : state.Listed)
    (counted : state.shared.Counted) :
    (state.announced.card : Int) ≤ state.shared.processes := by
  have inside : state.announced ⊆ state.registered := by
    intro pid member
    obtain ⟨inTable, announced⟩ := Finset.mem_filter.mp member
    exact Finset.mem_filter.mpr ⟨inTable, Phase.isRegistered_of_isAnnounced announced⟩
  have fewer := Finset.card_le_card inside
  have used := listed.card_le_used
  have enough := counted.enough
  omega

/-- What holds in every state of a run in which no `update` is interrupted by
another one. -/
structure Balanced (group : Group) (state : State) : Prop where
  listed : state.Listed
  counted : state.shared.Counted
  fair : ∀ pid,
    (state.process pid).Fair group.totalAllowed state.announced.card

theorem balanced_initial (group : Group) : State.initial.Balanced group where
  listed := listed_initial
  counted := counted_initial
  fair := fun _ => Process.fair_of_current (Nat.zero_le 1) rfl
    (by rintro _ ⟨⟩)

/-- One process changes and is not announced by that. -/
theorem Balanced.fair_setProcess (balanced : state.Balanced group) {shared : Shared}
    {pid : Nat} {process : Process}
    (announced : process.phase.isAnnounced = true →
      (state.process pid).phase.isAnnounced = true)
    (own : process.Fair group.totalAllowed state.announced.card)
    (other : Nat) :
    (((state.setShared shared).setProcess pid process).process other).Fair
      group.totalAllowed
      ((state.setShared shared).setProcess pid process).announced.card := by
  have fewer : ((state.setShared shared).setProcess pid process).announced.card ≤
      state.announced.card := by
    refine Finset.card_le_card (announced_subset balanced.listed ?_)
    intro changed isAnnounced
    by_cases same : changed = pid
    · subst same
      rw [setProcess_self] at isAnnounced
      exact announced isAnnounced
    · rw [setProcess_of_ne same] at isAnnounced
      exact isAnnounced
  by_cases same : other = pid
  · subst same
    rw [setProcess_self]
    exact own.mono fewer
  · rw [setProcess_of_ne same]
    exact (balanced.fair other).mono fewer

/-- After `signalAll`, every other process with a share has a pending signal. -/
theorem Balanced.fair_signalAll (balanced : state.Balanced group)
    (announced other pid : Nat) (different : other ≠ pid) :
    (((state.setShared (state.shared.purge state.alive)).signal pid).process
      other).Fair group.totalAllowed announced := by
  have fair := balanced.fair other
  rw [signal_process]
  split
  · exact ⟨fair.single, fair.alone, fun absurdity => nomatch absurdity⟩
  · rename_i skipped
    refine ⟨fair.single, fair.alone, ?_⟩
    intro _ share current
    have registered : (state.process other).phase.isRegistered = true := by
      change (state.process other).current = some share at current
      unfold Process.current at current
      split at current
      · rename_i updating
        rw [updating]
        rfl
      · rename_i member
        rw [member]
        rfl
      · cases current
    have alive := alive_of_isRegistered registered
    have nonzero := balanced.listed.ne_zero rfl (of_decide_eq_true alive)
    refine absurd ?_ skipped
    have listed := Shared.mem_purge (balanced.listed.table other registered) alive
    simp [Shared.isSignalled, nonzero, different, listed]

/-- A step that does not interrupt an `update` by another one. -/
theorem Balanced.step (balanced : state.Balanced group)
    (serial : state.serial action = true)
    (moved : state.step group action = some after) :
    after.Balanced group := by
  have listed := balanced.listed.step moved
  have counted := (counted_step balanced.listed balanced.counted
    (belowMaximum_of_serial serial) moved).1
  refine ⟨listed, counted, ?_⟩
  intro other
  cases action with
  | alone pid action =>
      obtain ⟨_, process, moves, rfl⟩ := step_alone moved
      refine balanced.fair_setProcess (Process.isAnnounced_of_step moves)
        ((balanced.fair pid).step
          (announced_le_processes balanced.listed balanced.counted) ?_ moves)
        other
      intro begins
      simpa [State.serial, begins] using serial
  | register pid =>
      obtain ⟨_, shared, _, rfl⟩ := step_register moved
      have own : Process.Fair group.totalAllowed state.announced.card
          { state.process pid with phase := .constructing } :=
        Process.fair_of_current (balanced.fair pid).single rfl (by rintro _ ⟨⟩)
      refine balanced.fair_setProcess ?_ own other
      intro announced
      cases announced
  | signalAll pid =>
      obtain ⟨ready, rfl⟩ := step_signalAll moved
      by_cases same : other = pid
      · subst same
        rw [setPhase, setProcess_self]
        refine Process.fair_of_current ?_ rfl (by rintro _ ⟨⟩)
        have single := (balanced.fair other).single
        change ((signal _ _).process other).computed.length ≤ 1
        rw [signal_process]
        split <;> exact single
      · rw [setPhase, setProcess_of_ne same]
        exact balanced.fair_signalAll _ other pid same
  | leave pid =>
      obtain ⟨ready, rfl⟩ := step_leave moved
      obtain ⟨silent, own⟩ :
          (if (state.shared.unregister pid).1 then Phase.leaving
            else Phase.zombie).isAnnounced = false ∧
          Process.Fair group.totalAllowed state.announced.card
            { state.process pid with
              phase := if (state.shared.unregister pid).1 then .leaving
                else .zombie } := by
        have single := (balanced.fair pid).single
        cases (state.shared.unregister pid).1 <;>
          exact ⟨rfl, Process.fair_of_current single rfl (by rintro _ ⟨⟩)⟩
      refine balanced.fair_setProcess ?_ own other
      intro announced
      rw [silent] at announced
      cases announced

/-- Every registered process has returned from its constructor, has no pending
signal and no `update` in progress. -/
def Quiet (state : State) : Prop :=
  ∀ pid ∈ state.registered, (state.process pid).phase = .member ∧
    (state.process pid).pending = false ∧ (state.process pid).computed = []

instance (state : State) : Decidable state.Quiet :=
  Finset.decidableDforallFinset

/-- In a quiet state, every share is small enough for all registered
processes. -/
theorem Balanced.share_mul_le (balanced : state.Balanced group) (quiet : state.Quiet)
    {pid : Nat} (member : pid ∈ state.registered) :
    (state.process pid).staticMaxMemory * state.registered.card ≤
      group.totalAllowed := by
  have everybody : state.registered ⊆ state.announced := by
    intro other registered
    refine Finset.mem_filter.mpr ⟨(Finset.mem_filter.mp registered).1, ?_⟩
    rw [(quiet other registered).1]
    rfl
  obtain ⟨phase, delivered, idle⟩ := quiet pid member
  have fair := (balanced.fair pid).bounded delivered (state.process pid).staticMaxMemory
    (by rw [Process.current, phase, idle]; rfl)
  exact (Nat.mul_le_mul_left _ (Finset.card_le_card everybody)).trans fair

end State

/-- In every run in which no `update` of a process is interrupted by another one
between its division and its assignment, the shares of the registered processes
together are within the maximum whenever no signal is pending, no `update` is in
progress and no process is in its constructor. -/
theorem granted_within_total (group : Group) (state : State)
    (reached : ReachableBy (State.step group)
      (fun current action => current.serial action) State.initial state)
    (quiet : state.Quiet) :
    state.granted ≤ group.totalAllowed := by
  have balanced := reached.invariant (State.Balanced group)
    (State.balanced_initial group)
    fun _ _ _ holds serial moved => holds.step serial moved
  obtain empty | nonempty := state.registered.eq_empty_or_nonempty
  · unfold State.granted
    rw [empty, Finset.sum_empty]
    exact Nat.zero_le _
  · refine Nat.le_of_mul_le_mul_right ?_ (Finset.card_pos.mpr nonempty)
    calc state.granted * state.registered.card
        = ∑ pid ∈ state.registered,
            (state.process pid).staticMaxMemory * state.registered.card :=
          Finset.sum_mul _ _ _
      _ ≤ ∑ _pid ∈ state.registered, group.totalAllowed :=
          Finset.sum_le_sum fun pid member => balanced.share_mul_le quiet member
      _ = group.totalAllowed * state.registered.card := by
          rw [Finset.sum_const, Nat.nsmul_eq_mul, Nat.mul_comm]

/-- Two processes join, and the first one handles its signal. -/
theorem granted_within_total_two_processes :
    ∃ state : State, state.registered.card = 2 ∧ state.granted ≤ 16384 := by
  have reached : ReachableBy (State.step ⟨16384, false⟩)
      (fun current action => current.serial action) State.initial _ :=
    ReachableBy.initial.follow
      (joining 1 ++ joining 2 ++ [.alone 1 .sigHandler, .alone 1 (.assign 8192)]) rfl
  exact ⟨_, rfl, granted_within_total ⟨16384, false⟩ _ reached (by decide)⟩

/-- Three processes join.  The third one registers while the second one is in the
`update` of its constructor, and the handler of the second one runs before that
`update` assigns the older share. -/
theorem interrupted_update_exceeds_total :
    ∃ state : State,
      ReachableBy (State.step ⟨16384, false⟩) (fun _ _ => True) State.initial
        state ∧
        state.Quiet ∧ 16384 < state.granted := by
  have start : ReachableBy (State.step ⟨16384, false⟩) (fun _ _ => True)
      State.initial State.initial := .initial
  obtain ⟨state, reached, found⟩ :=
    start.exists_follow
      (joining 1 ++
        [.alone 2 .spawn, .alone 2 .construct, .alone 2 .openShm, .register 2,
          .signalAll 2, .alone 2 .beginUpdate] ++
        joining 3 ++
        [.alone 1 .sigHandler, .alone 1 (.assign 5461), .alone 2 .sigHandler,
          .alone 2 (.assign 5461), .alone 2 .endUpdate])
      (fun state => decide (state.Quiet ∧ 16384 < state.granted))
      (by decide +kernel)
  exact ⟨state, reached, of_decide_eq_true found⟩

end ProcessGroup
end UmmapIo
