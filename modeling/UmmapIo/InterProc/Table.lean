import UmmapIo.InterProc.Defs

/-!
# The table of processes and its counter

What the critical sections do to the counter and to the number of entries in
use.  Freeing an entry changes both, and so does taking a free entry.  Taking
over the entry of a process that has ended only changes the counter.
-/

namespace UmmapIo
namespace ProcessGroup

theorem wrapInt_of_mem {value : Int} (lower : -2 ^ 31 ≤ value)
    (upper : value < 2 ^ 31) :
    wrapInt value = value := by
  unfold wrapInt
  rw [Int.bmod_def]
  split <;> omega

namespace Shared

/-- The entry is not free. -/
def isUsed (entry : Nat) : Bool := entry ≠ 0

@[simp] theorem isUsed_zero : isUsed 0 = false := rfl

theorem isUsed_of_ne {entry : Nat} (nonzero : entry ≠ 0) :
    isUsed entry = true :=
  decide_eq_true nonzero

/-- The number of entries that are not free. -/
def used (shared : Shared) : Nat :=
  shared.pids.countP isUsed

/-- The constructor takes over the entry of a process that has ended. -/
def takesOver (alive : Nat → Bool) (shared : Shared) : Bool :=
  match shared.pids.find? (isAvailable alive) with
  | some entry => entry ≠ 0
  | none => false

/-! ## The loops -/

section Loops

variable {alive : Nat → Bool} {pid : Nat} {pids result : List Nat}

/-- The entry taken is the first one that is available. -/
theorem takeEntry_eq_some
    (taken : takeEntry alive pid pids = some result) :
    ∃ earlier entry later, pids = earlier ++ entry :: later ∧
      result = earlier ++ pid :: later ∧ isAvailable alive entry = true ∧
      pids.find? (isAvailable alive) = some entry := by
  induction pids generalizing result with
  | nil => cases taken
  | cons first rest inductionHypothesis =>
      unfold takeEntry at taken
      cases available : isAvailable alive first with
      | true =>
          rw [if_pos available] at taken
          cases taken
          exact ⟨[], first, rest, rfl, rfl, available,
            List.find?_cons_of_pos available⟩
      | false =>
          rw [if_neg (Bool.eq_false_iff.mp available)] at taken
          obtain ⟨others, takes, rfl⟩ := Option.map_eq_some_iff.mp taken
          obtain ⟨earlier, entry, later, rfl, rfl, isAvailable, found⟩ :=
            inductionHypothesis takes
          refine ⟨first :: earlier, entry, later, rfl, rfl, isAvailable, ?_⟩
          rw [List.find?_cons_of_neg (Bool.eq_false_iff.mp available)]
          exact found

theorem takeEntry_eq_none (full : takeEntry alive pid pids = none) :
    pids.find? (isAvailable alive) = none := by
  induction pids with
  | nil => rfl
  | cons first rest inductionHypothesis =>
      unfold takeEntry at full
      cases available : isAvailable alive first with
      | true =>
          rw [if_pos available] at full
          cases full
      | false =>
          rw [if_neg (Bool.eq_false_iff.mp available)] at full
          rw [List.find?_cons_of_neg (Bool.eq_false_iff.mp available)]
          exact inductionHypothesis (Option.map_eq_none_iff.mp full)

theorem clearEntry_eq_some
    (cleared : clearEntry pid pids = some result) :
    ∃ earlier later, pids = earlier ++ pid :: later ∧
      result = earlier ++ 0 :: later := by
  induction pids generalizing result with
  | nil => cases cleared
  | cons first rest inductionHypothesis =>
      unfold clearEntry at cleared
      split at cleared
      · rename_i same
        cases cleared
        exact ⟨[], rest, by rw [same]; rfl, rfl⟩
      · obtain ⟨others, clears, rfl⟩ := Option.map_eq_some_iff.mp cleared
        obtain ⟨earlier, later, rfl, rfl⟩ := inductionHypothesis clears
        exact ⟨first :: earlier, later, rfl, rfl⟩

theorem exists_clearEntry (member : pid ∈ pids) :
    ∃ result, clearEntry pid pids = some result := by
  induction pids with
  | nil => cases member
  | cons first rest inductionHypothesis =>
      unfold clearEntry
      split
      · exact ⟨_, rfl⟩
      · rename_i different
        have later := (List.mem_cons.mp member).resolve_left
          fun same => different same.symm
        obtain ⟨result, clears⟩ := inductionHypothesis later
        rw [clears]
        exact ⟨_, rfl⟩

/-- The counter after the first loop of `signalAll`. -/
theorem purge_counter {processes : Int}
    (enough : (pids.countP (isStale alive) : Int) ≤ processes)
    (bounded : processes < 2 ^ 31) :
    pids.foldl (fun processes entry =>
        if isStale alive entry then wrapInt (processes - 1) else processes)
      processes = processes - pids.countP (isStale alive) := by
  induction pids generalizing processes with
  | nil => simp
  | cons first rest inductionHypothesis =>
      rw [List.foldl_cons]
      cases stale : isStale alive first with
      | true =>
          rw [List.countP_cons_of_pos stale] at enough ⊢
          rw [if_pos rfl, wrapInt_of_mem (by omega) (by omega),
            inductionHypothesis (by omega) (by omega)]
          omega
      | false =>
          rw [List.countP_cons_of_neg (Bool.eq_false_iff.mp stale)] at enough ⊢
          exact inductionHypothesis enough bounded

theorem isUsed_of_isStale {entry : Nat} (stale : isStale alive entry = true) :
    isUsed entry = true :=
  (Bool.and_eq_true_iff.mp stale).1

/-- The entries in use before and after the first loop of `signalAll`. -/
theorem purge_countP (alive : Nat → Bool) (pids : List Nat) :
    (pids.map fun entry => if isStale alive entry then 0 else entry).countP
        isUsed + pids.countP (isStale alive) =
      pids.countP isUsed := by
  induction pids with
  | nil => rfl
  | cons first rest inductionHypothesis =>
      rw [List.map_cons, List.countP_cons, List.countP_cons, List.countP_cons]
      cases stale : isStale alive first with
      | true =>
          simp only [if_true, isUsed_zero, isUsed_of_isStale stale,
            Bool.false_eq_true, if_false]
          omega
      | false =>
          simp only [Bool.false_eq_true, if_false]
          omega

end Loops

/-! ## The critical sections -/

/-- The counter is not below the number of entries in use, and the table fits in
the shared memory. -/
structure Counted (shared : Shared) : Prop where
  enough : (shared.used : Int) ≤ shared.processes
  bounded : shared.processes < 2 ^ 31
  room : shared.pids.length ≤ sharedTabEntries

theorem used_le_length (shared : Shared) :
    shared.used ≤ shared.pids.length :=
  List.countP_le_length

section Sections

variable {alive : Nat → Bool} {pid : Nat} {shared after : Shared}

/-- What the critical section of the constructor does. -/
structure Joined (alive : Nat → Bool) (pid : Nat)
    (shared after : Shared) : Prop where
  processes : after.processes = wrapInt (shared.processes + 1)
  used : after.used = shared.used + if shared.takesOver alive then 0 else 1
  own : pid ∈ after.pids
  others : ∀ other ∈ shared.pids, other ≠ 0 → alive other = true →
    other ∈ after.pids
  room : shared.pids.length ≤ sharedTabEntries →
    after.pids.length ≤ sharedTabEntries

theorem joined_of_register (nonzero : pid ≠ 0)
    (registers : shared.register alive pid = some after) :
    Joined alive pid shared after := by
  unfold register at registers
  split at registers
  · rename_i pids taken
    cases registers
    obtain ⟨earlier, entry, later, table, rfl, available, found⟩ :=
      takeEntry_eq_some taken
    refine ⟨rfl, ?_, ?_, ?_, ?_⟩
    · unfold used takesOver
      rw [found, table]
      change List.countP isUsed (earlier ++ pid :: later) =
        List.countP isUsed (earlier ++ entry :: later) +
          if isUsed entry then 0 else 1
      rw [List.countP_append, List.countP_append, List.countP_cons,
        List.countP_cons, isUsed_of_ne nonzero]
      cases isUsed entry with
      | true => rfl
      | false =>
          simp only [if_true, Bool.false_eq_true, if_false]
          omega
    · simp
    · intro other member different isAlive
      rw [table] at member
      have kept : other ≠ entry := by
        rintro rfl
        simp [isAvailable, different, isAlive] at available
      simp only [List.mem_append, List.mem_cons] at member ⊢
      tauto
    · intro room
      rw [table] at room
      simpa using room
  · rename_i full
    split at registers
    · rename_i free
      cases registers
      refine ⟨rfl, ?_, ?_, ?_, ?_⟩
      · unfold used takesOver
        rw [takeEntry_eq_none full, List.countP_append, List.countP_singleton,
          isUsed_of_ne nonzero]
        rfl
      · simp
      · intro other member _ _
        exact List.mem_append_left _ member
      · intro _
        rw [List.length_append, List.length_singleton]
        omega
    · cases registers

theorem Joined.processes_eq (joined : Joined alive pid shared after)
    (counted : shared.Counted) (below : shared.processes + 1 < 2 ^ 31) :
    after.processes = shared.processes + 1 := by
  have enough := counted.enough
  rw [joined.processes, wrapInt_of_mem (by omega) below]

theorem Joined.counted (joined : Joined alive pid shared after)
    (counted : shared.Counted) (below : shared.processes + 1 < 2 ^ 31) :
    after.Counted := by
  have enough := counted.enough
  have processes := joined.processes_eq counted below
  have used : after.used ≤ shared.used + 1 := by
    rw [joined.used]
    split <;> omega
  exact ⟨by omega, by omega, joined.room counted.room⟩

/-- The critical section of the destructor of a process in the table. -/
structure Left (pid : Nat) (shared after : Shared) : Prop where
  processes : after.processes = wrapInt (shared.processes - 1)
  used : after.used + 1 = shared.used
  length : after.pids.length = shared.pids.length
  others : ∀ other ∈ shared.pids, other ≠ pid → other ∈ after.pids

theorem left_of_unregister (nonzero : pid ≠ 0) (member : pid ∈ shared.pids) :
    ∃ after, shared.unregister pid = (true, after) ∧ Left pid shared after := by
  obtain ⟨pids, clears⟩ := exists_clearEntry member
  obtain ⟨earlier, later, table, rfl⟩ := clearEntry_eq_some clears
  refine ⟨⟨wrapInt (shared.processes - 1), earlier ++ 0 :: later⟩, ?_, rfl, ?_,
    ?_, ?_⟩
  · unfold unregister
    rw [clears]
  · unfold used
    rw [table, List.countP_append, List.countP_append, List.countP_cons,
      List.countP_cons, isUsed_of_ne nonzero, isUsed_zero]
    simp only [if_true, Bool.false_eq_true, if_false]
    omega
  · rw [table]
    simp
  · intro other listed different
    rw [table] at listed
    simp only [List.mem_append, List.mem_cons] at listed ⊢
    tauto

theorem Left.processes_eq (left : Left pid shared after) (counted : shared.Counted) :
    after.processes = shared.processes - 1 := by
  have enough := counted.enough
  have bounded := counted.bounded
  have used := left.used
  rw [left.processes, wrapInt_of_mem (by omega) (by omega)]

theorem Left.counted (left : Left pid shared after) (counted : shared.Counted) :
    after.Counted := by
  have enough := counted.enough
  have bounded := counted.bounded
  have used := left.used
  have processes := left.processes_eq counted
  refine ⟨by omega, by omega, ?_⟩
  rw [left.length]
  exact counted.room

theorem purge_processes (counted : shared.Counted) :
    (shared.purge alive).processes =
      shared.processes - shared.pids.countP (isStale alive) := by
  refine purge_counter ?_ counted.bounded
  have total := purge_countP alive shared.pids
  have enough := counted.enough
  unfold used at enough
  omega

theorem purge_used (alive : Nat → Bool) (shared : Shared) :
    (shared.purge alive).used + shared.pids.countP (isStale alive) =
      shared.used :=
  purge_countP alive shared.pids

theorem purge_counted (counted : shared.Counted) :
    (shared.purge alive).Counted := by
  have total := purge_used alive shared
  have enough := counted.enough
  have bounded := counted.bounded
  refine ⟨?_, ?_, ?_⟩
  · rw [purge_processes counted]
    omega
  · rw [purge_processes counted]
    omega
  · unfold purge
    rw [List.length_map]
    exact counted.room

/-- The entries of processes that have not ended stay. -/
theorem mem_purge (member : pid ∈ shared.pids) (isAlive : alive pid = true) :
    pid ∈ (shared.purge alive).pids := by
  refine List.mem_map.mpr ⟨pid, member, ?_⟩
  simp [isStale, isAlive]

end Sections

end Shared
/-! ## Steps -/

section Steps

variable {group : Group} {processes : Int} {process after : Process}
variable {action : LocalAction}

/-- The process is registered and has signalled the others. -/
def Phase.isAnnounced : Phase → Bool
  | signalled => true
  | updating _ => true
  | member => true
  | _ => false

theorem Phase.isRegistered_of_isAnnounced {phase : Phase}
    (announced : phase.isAnnounced = true) :
    phase.isRegistered = true := by
  cases phase <;> first | rfl | cases announced

theorem Process.phase_compute (group : Group) (processes : Int) (process : Process) :
    (process.compute group processes).phase = process.phase ∨
      (process.compute group processes).phase = .zombie := by
  unfold compute
  split
  · exact Or.inl rfl
  · exact Or.inr rfl

section

variable (moved : process.step group processes action = some after)
include moved

/-- Outside of the critical sections, a phase changes to one outside of the table
or from one phase after `signalAll` to another. -/
theorem Process.phase_of_step :
    after.phase = process.phase ∨ after.phase.isRegistered = false ∨
      process.phase.isAnnounced = true ∧ after.phase.isAnnounced = true := by
  have computed (start : Process) :
      (start.compute group processes).phase = start.phase ∨
        (start.compute group processes).phase.isRegistered = false := by
    refine (phase_compute group processes start).imp_right fun ended => ?_
    rw [ended]
    rfl
  cases action with
  | endUpdate =>
      simp only [step] at moved
      split at moved
      · rename_i phase
        cases moved
        exact Or.inr (Or.inr ⟨by rw [phase]; rfl, rfl⟩)
      · cases moved
  | assign share =>
      obtain ⟨_, same⟩ := Option.ite_none_right_eq_some.mp moved
      cases same
      exact Or.inl rfl
  | beginUpdate =>
      obtain ⟨phase, same⟩ := Option.ite_none_right_eq_some.mp moved
      cases same
      unfold beginUpdate
      split
      · exact Or.inr (Or.inr ⟨by rw [phase]; rfl, rfl⟩)
      · exact Or.inr (Or.inl rfl)
  | beginCall =>
      obtain ⟨_, same⟩ := Option.ite_none_right_eq_some.mp moved
      cases same
      exact (computed process).imp_right Or.inl
  | sigHandler =>
      obtain ⟨_, same⟩ := Option.ite_none_right_eq_some.mp moved
      cases same
      unfold sigHandler
      split
      · exact Or.inl rfl
      · exact Or.inr (Or.inl rfl)
      · exact (computed { process with pending := false }).imp_right Or.inl
  | _ =>
      obtain ⟨_, same⟩ := Option.ite_none_right_eq_some.mp moved
      cases same
      exact Or.inr (Or.inl rfl)

/-- Outside of the critical sections no process enters the table. -/
theorem Process.isRegistered_of_step
    (registered : after.phase.isRegistered = true) :
    process.phase.isRegistered = true := by
  obtain same | out | ⟨announced, _⟩ := phase_of_step moved
  · rwa [← same]
  · rw [out] at registered
    cases registered
  · exact Phase.isRegistered_of_isAnnounced announced

theorem Process.isAnnounced_of_step
    (announced : after.phase.isAnnounced = true) :
    process.phase.isAnnounced = true := by
  obtain same | out | ⟨before, _⟩ := phase_of_step moved
  · rwa [← same]
  · rw [Phase.isRegistered_of_isAnnounced announced] at out
    cases out
  · exact before

end

end Steps

namespace State

variable {group : Group} {state after : State}

@[simp] theorem setProcess_self (state : State) (pid : Nat) (process : Process) :
    (state.setProcess pid process).process pid = process := by
  rw [setProcess_process, Function.update_self]

variable {pid : Nat}

theorem setProcess_of_ne {other : Nat} (different : other ≠ pid) (state : State)
    (process : Process) :
    (state.setProcess pid process).process other = state.process other := by
  rw [setProcess_process, Function.update_of_ne different]

theorem step_alone {action : LocalAction}
    (moved : state.step group (.alone pid action) = some after) :
    pid ≠ 0 ∧ ∃ process,
      (state.process pid).step group state.shared.processes action =
        some process ∧ after = state.setProcess pid process := by
  simp only [step] at moved
  split at moved
  · cases moved
  · rename_i nonzero
    obtain ⟨process, moves, same⟩ := Option.map_eq_some_iff.mp moved
    exact ⟨nonzero, process, moves, same.symm⟩

theorem step_register
    (moved : state.step group (.register pid) = some after) :
    (state.process pid).phase = .opened ∧ ∃ shared,
      state.shared.register state.alive pid = some shared ∧
      after = (state.setShared shared).setPhase pid .constructing := by
  obtain ⟨ready, registers⟩ := Option.ite_none_right_eq_some.mp moved
  obtain ⟨shared, joins, same⟩ := Option.map_eq_some_iff.mp registers
  exact ⟨ready, shared, joins, same.symm⟩

theorem step_signalAll
    (moved : state.step group (.signalAll pid) = some after) :
    (state.process pid).phase = .constructing ∧
      after = ((state.setShared (state.shared.purge state.alive)).signal
        pid).setPhase pid .signalled := by
  obtain ⟨ready, same⟩ := Option.ite_none_right_eq_some.mp moved
  cases same
  exact ⟨ready, rfl⟩

theorem step_leave
    (moved : state.step group (.leave pid) = some after) :
    (state.process pid).phase = .member ∧
      after = (state.setShared (state.shared.unregister pid).2).setPhase pid
        (if (state.shared.unregister pid).1 then .leaving else .zombie) := by
  obtain ⟨ready, same⟩ := Option.ite_none_right_eq_some.mp moved
  cases same
  exact ⟨ready, rfl⟩

/-- The registered processes are in the table; no process has the identifier
zero. -/
structure Listed (state : State) : Prop where
  table : ∀ pid, (state.process pid).phase.isRegistered = true →
    pid ∈ state.shared.pids
  zero : (state.process 0).phase = .dead

theorem listed_initial : State.initial.Listed where
  table := fun _ absurdity => nomatch absurdity
  zero := rfl

theorem Listed.ne_zero (listed : state.Listed) {phase : Phase}
    (current : (state.process pid).phase = phase)
    (running : phase ≠ .dead) :
    pid ≠ 0 := by
  rintro rfl
  exact running (current.symm.trans listed.zero)

theorem alive_of_isRegistered
    (registered : (state.process pid).phase.isRegistered = true) :
    state.alive pid = true := by
  refine decide_eq_true fun dead => ?_
  rw [dead] at registered
  cases registered

theorem listed_setProcess (state : State) (zero : (state.process 0).phase = .dead)
    {shared : Shared} {process : Process} (nonzero : pid ≠ 0)
    (own : process.phase.isRegistered = true → pid ∈ shared.pids)
    (others : ∀ other, other ≠ pid →
      (state.process other).phase.isRegistered = true → other ∈ shared.pids) :
    ((state.setShared shared).setProcess pid process).Listed where
  table := by
    intro other registered
    by_cases same : other = pid
    · subst same
      rw [setProcess_self] at registered
      exact own registered
    · rw [setProcess_of_ne same] at registered
      exact others other same registered
  zero := by
    rw [setProcess_of_ne nonzero.symm]
    exact zero

theorem signal_phase (state : State) (sender pid : Nat) :
    ((state.signal sender).process pid).phase = (state.process pid).phase := by
  rw [signal_process]
  split <;> rfl

/-- A step keeps the registered processes in the table. -/
theorem Listed.step (listed : state.Listed) {action : Action}
    (moved : state.step group action = some after) :
    after.Listed := by
  cases action with
  | alone pid action =>
      obtain ⟨nonzero, process, moves, rfl⟩ := step_alone moved
      exact listed_setProcess state listed.zero nonzero
        (fun registered => listed.table pid
          (Process.isRegistered_of_step moves registered))
        (fun other _ => listed.table other)
  | register pid =>
      obtain ⟨ready, shared, registers, rfl⟩ := step_register moved
      have nonzero := listed.ne_zero ready (by decide)
      have joined := Shared.joined_of_register nonzero registers
      refine listed_setProcess state listed.zero nonzero (fun _ => joined.own) ?_
      intro other _ registered
      have alive := alive_of_isRegistered registered
      exact joined.others other (listed.table other registered)
        (listed.ne_zero rfl (of_decide_eq_true alive)) alive
  | signalAll pid =>
      obtain ⟨ready, rfl⟩ := step_signalAll moved
      have nonzero := listed.ne_zero ready (by decide)
      have kept (other : Nat)
          (registered : (state.process other).phase.isRegistered = true) :
          other ∈ (state.shared.purge state.alive).pids :=
        Shared.mem_purge (listed.table other registered)
          (alive_of_isRegistered registered)
      refine listed_setProcess ((state.setShared _).signal pid) ?_ nonzero
        (fun _ => kept pid (ready ▸ rfl)) ?_
      · rw [signal_phase]
        exact listed.zero
      · intro other _ registered
        rw [signal_phase] at registered
        exact kept other registered
  | leave pid =>
      obtain ⟨ready, rfl⟩ := step_leave moved
      have nonzero := listed.ne_zero ready (by decide)
      obtain ⟨shared, unregisters, left⟩ :=
        Shared.left_of_unregister nonzero (listed.table pid (ready ▸ rfl))
      rw [unregisters]
      refine listed_setProcess state listed.zero nonzero
        (fun absurdity => nomatch absurdity) ?_
      intro other different registered
      exact left.others other (listed.table other registered) different

end State

end ProcessGroup
end UmmapIo
