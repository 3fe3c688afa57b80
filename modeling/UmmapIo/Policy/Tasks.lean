import UmmapIo.Policy.Sections

/-!
# Threads as lists of tasks

What a thread still has to do after a critical section is a list of tasks:
notify a policy, evict a segment, look at the quota.  Each section takes the
first task off the list and may put others in its place.  This module shows that
every interleaving of the programs of the threads is a sequence of such moves,
so that invariants can speak about pending tasks.
-/

namespace UmmapIo

/-- A part of a fault that remains to be done. -/
inductive Task (M P : Type) : Type
  | notify (policy : P) (element : ListElement M)
  | evict (source : P) (element : ListElement M)
  | quota (policy : P) (touch : Touch M)

namespace Task

open PolicyProgram

variable {M P Q : Type}

/-- The program of a task. -/
def program (rounds : Nat) : Task M P → PolicyProgram M P Q Unit
  | .notify policy element => notifyTouch rounds policy element
  | .evict source element => PolicyProgram.evict source element
  | .quota policy touch => notifyQuota rounds policy touch

/-- The first critical section of a task. -/
def op : Task M P → PolicyOp M P Q
  | .notify policy element => .notifyTouch policy element.1 element.2
  | .evict source element => .evict source element.1 element.2
  | .quota policy _ => .observe policy

/-- The program of a list of tasks. -/
def agenda (rounds : Nat) (tasks : List (Task M P)) : PolicyProgram M P Q Unit :=
  Program.each (program rounds) tasks

/-- The tasks that the critical section of a touch leaves. -/
def afterTouch (policy : P) (touch : Touch M) (rest : List (Task M P)) :
    List (Task M P) :=
  touch.idsToEvict.map (.evict policy) ++ .quota policy touch :: rest

theorem agenda_notify (rounds : Nat) (policy : P) (element : ListElement M)
    (rest : List (Task M P)) :
    (agenda rounds (.notify policy element :: rest) : PolicyProgram M P Q Unit) =
      .perform (.notifyTouch policy element.1 element.2) fun answer =>
        Program.ofExcept answer >>= fun touch =>
          agenda rounds (afterTouch policy touch rest) := by
  unfold agenda afterTouch
  rw [Program.each_cons]
  change Program.perform (E := policySignature M P Q) _ _ = _
  congr 1
  funext answer
  cases answer with
  | error message => rfl
  | ok touch =>
      change (Program.each (PolicyProgram.evict policy) touch.idsToEvict >>=
          fun _ => notifyQuota rounds policy touch) >>=
            (fun _ => Program.each (program rounds) rest) =
        Program.each (program rounds) _
      rw [Program.each_append, Program.each_map, Program.bind_assoc]
      rfl

theorem agenda_evict (rounds : Nat) (source : P) (element : ListElement M)
    (rest : List (Task M P)) :
    (agenda rounds (.evict source element :: rest) : PolicyProgram M P Q Unit) =
      .perform (.evict source element.1 element.2) fun answer =>
        Program.ofExcept answer >>= fun _ => agenda rounds rest :=
  rfl

theorem agenda_quota (rounds : Nat) (policy : P) (touch : Touch M)
    (rest : List (Task M P)) :
    ∃ next : Nat × Option Q → PolicyProgram M P Q Unit,
      agenda rounds (.quota policy touch :: rest) =
          .perform (.observe policy) next ∧
        ∀ currentMemory, next (currentMemory, none) = agenda rounds rest :=
  ⟨_, rfl, fun _ => rfl⟩

theorem nextOp_agenda (task : Task M P) (rounds : Nat) (rest : List (Task M P)) :
    Program.nextOp (agenda rounds (task :: rest) : PolicyProgram M P Q Unit) =
      some task.op := by
  cases task <;> rfl

/-! ## Pending tasks -/

section Pending

variable {T : Type}

/-- Some thread has this task. -/
def Pending (tasks : T → List (Task M P)) (task : Task M P) : Prop :=
  ∃ thread, task ∈ tasks thread

variable [DecidableEq T] {tasks : T → List (Task M P)} {thread : T} {task : Task M P}
variable {rest : List (Task M P)}

/-- A task stays pending if the thread that moves keeps it. -/
theorem Pending.update (pending : Pending tasks task)
    (kept : task ∈ tasks thread → task ∈ rest) :
    Pending (Function.update tasks thread rest) task := by
  obtain ⟨other, member⟩ := pending
  refine ⟨other, ?_⟩
  by_cases same : other = thread
  · subst same
    rw [Function.update_self]
    exact kept member
  · rw [Function.update_of_ne same]
    exact member

theorem pending_of_mem (tasks : T → List (Task M P)) (thread : T)
    (member : task ∈ rest) :
    Pending (Function.update tasks thread rest) task :=
  ⟨thread, by rwa [Function.update_self]⟩

/-- A task that is pending after a move is new or was pending before. -/
theorem Pending.of_update
    (pending : Pending (Function.update tasks thread rest) task) :
    task ∈ rest ∨ Pending tasks task := by
  obtain ⟨other, member⟩ := pending
  by_cases same : other = thread
  · subst same
    rw [Function.update_self] at member
    exact Or.inl member
  · rw [Function.update_of_ne same] at member
    exact Or.inr ⟨other, member⟩

end Pending

end Task

/-- The first section of an operation of a client. -/
def PolicyOp.Begins {M P Q : Type} : PolicyOp M P Q → Bool
  | .faultSection _ _ _ => true
  | .flush _ _ _ _ => true
  | .dropClean _ => true
  | _ => false

namespace Setup

variable {M P Q : Type} [Fintype M] (setup : Setup M P)

/-- The programs that threads run on some of the mappings: faults, flushes of
accepted ranges and `dropClean`. -/
inductive ClientProgram (on : M → Prop) : PolicyProgram M P Q Unit → Prop
  | fault (rounds : Nat) (mapping : M) (address : Nat) (isWrite : Bool)
      (served : on mapping)
      (accepted : (Call.fault address isWrite).Accepted (setup.mapping mapping)) :
      ClientProgram on (setup.onSegmentationFault rounds mapping address isWrite)
  | flush (mapping : M) (offset size : Nat) (flags : FlushFlags) (served : on mapping)
      (accepted : (Call.flush offset size flags).Accepted (setup.mapping mapping)) :
      ClientProgram on (setup.flush mapping offset size flags)
  | dropClean (mapping : M) (served : on mapping) :
      ClientProgram on (Section.dropClean mapping)

/-- The tasks of a fault that did change the status of its segment. -/
def faultTasks (element : ListElement M) : List (Task M P) :=
  (setup.policiesOf element.1).map fun policy => .notify policy element

variable {mapping : M} {address : Nat} {isWrite : Bool}

theorem onSegmentationFault_shape
    (accepted : (Call.fault address isWrite).Accepted (setup.mapping mapping))
    (rounds : Nat) :
    (setup.onSegmentationFault rounds mapping address isWrite :
        PolicyProgram M P Q Unit) =
      .perform (.faultSection mapping ((address -
          (setup.mapping mapping).baseAddress) /
            (setup.mapping mapping).segmentSize) isWrite) fun alreadyDone =>
        Program.when (!alreadyDone)
          (Task.agenda rounds (setup.faultTasks (mapping, (address -
            (setup.mapping mapping).baseAddress) /
              (setup.mapping mapping).segmentSize))) := by
  unfold onSegmentationFault
  rw [Mapping.checkFault_of_accepted accepted]
  unfold Task.agenda faultTasks
  rw [Program.each_map]
  rfl

theorem onSegmentationFault_eq
    (accepted : (Call.fault address isWrite).Accepted (setup.mapping mapping))
    (rounds : Nat) :
    ∃ segmentId, segmentId < (setup.mapping mapping).segments ∧
      (setup.onSegmentationFault rounds mapping address isWrite :
          PolicyProgram M P Q Unit) =
        .perform (.faultSection mapping segmentId isWrite) fun alreadyDone =>
          Program.when (!alreadyDone)
            (Task.agenda rounds (setup.faultTasks (mapping, segmentId))) :=
  ⟨_, accepted.fault_lt_segments, setup.onSegmentationFault_shape accepted rounds⟩

theorem flush_eq {offset size : Nat} {flags : FlushFlags}
    (accepted : (Call.flush offset size flags).Accepted (setup.mapping mapping)) :
    (setup.flush mapping offset size flags : PolicyProgram M P Q Unit) =
      .perform (.flush mapping offset size flags) .done := by
  unfold flush
  rw [Mapping.checkFlush_of_accepted accepted]
  rfl

/-- A program that does these tasks: their agenda, a program that has not begun,
or whatever was left when the process aborted. -/
inductive Doing (on : M → Prop) :
    List (Task M P) → PolicyProgram M P Q Unit → Prop
  | agenda (rounds : Nat) (tasks : List (Task M P)) :
      Doing on tasks (Task.agenda rounds tasks)
  | fresh {program : PolicyProgram M P Q Unit}
      (offered : setup.ClientProgram on program) :
      Doing on [] program
  | aborted (tasks : List (Task M P)) (message : String) :
      Doing on tasks (.abort message)

variable {setup} {program : PolicyProgram M P Q Unit}

/-- The first section of a program that has not begun. -/
theorem ClientProgram.begins {on : M → Prop}
    (client : setup.ClientProgram on program) :
    ∃ op next, program = .perform op next ∧ op.Begins = true := by
  cases client with
  | fault rounds mapping address isWrite served accepted =>
      obtain ⟨segmentId, _, shape⟩ :=
        setup.onSegmentationFault_eq (Q := Q) accepted rounds
      exact ⟨_, _, shape, rfl⟩
  | flush mapping offset size flags served accepted =>
      exact ⟨_, _, setup.flush_eq accepted, rfl⟩
  | dropClean mapping served => exact ⟨_, _, rfl, rfl⟩

/-- A thread that has nothing to do, or has not begun, has no task. -/
theorem Doing.eq_nil {on : M → Prop} {tasks : List (Task M P)}
    (doing : setup.Doing on tasks program)
    (quiet : program = .done () ∨ setup.ClientProgram on program) :
    tasks = [] := by
  have begins : program = .done () ∨
      ∃ op next, program = .perform op next ∧ op.Begins = true :=
    quiet.imp_right ClientProgram.begins
  cases doing with
  | fresh offered => rfl
  | agenda rounds tasks =>
      cases tasks with
      | nil => rfl
      | cons head rest =>
          obtain finished | ⟨op, next, shape, opens⟩ := begins
          · cases head <;> cases finished
          · cases head <;> cases shape <;> cases opens
  | aborted tasks message =>
      obtain finished | ⟨op, next, shape, opens⟩ := begins
      · cases finished
      · cases shape

/-- A thread with a task performs the first section of that task next. -/
theorem Doing.nextOp {on : M → Prop} {task : Task M P} {rest : List (Task M P)}
    (doing : setup.Doing on (task :: rest) program)
    (running : program.hasAborted = false) :
    program.nextOp = some task.op := by
  cases doing with
  | agenda rounds _ => exact task.nextOp_agenda rounds rest
  | aborted _ message => cases running

variable {op : PolicyOp M P Q}

/-- A thread that performs a section which begins no operation has a task with
that section. -/
theorem Doing.head {on : M → Prop} {tasks : List (Task M P)}
    (doing : setup.Doing on tasks program) (performs : program.nextOp = some op)
    (inner : op.Begins = false) :
    ∃ task rest, tasks = task :: rest ∧ task.op = op := by
  cases doing with
  | agenda rounds tasks =>
      cases tasks with
      | nil => cases performs
      | cons task rest =>
          refine ⟨task, rest, rfl, ?_⟩
          rw [Task.nextOp_agenda] at performs
          exact Option.some.inj performs
  | fresh offered =>
      obtain ⟨op', next, shape, begins⟩ := offered.begins
      rw [shape] at performs
      cases performs
      rw [begins] at inner
      cases inner
  | aborted _ message => cases performs

/-! ## Moves -/

variable {T : Type} [DecidableEq T]

/-- One move of a thread: what a critical section does to the world and to the
tasks of the threads. -/
inductive Move [DecidableEq M] [DecidableEq P]
    (setup : Setup M P)
    (on : M → Prop)
    (thread : T)
    (world : World M P Q)
    (tasks : T → List (Task M P)) :
    World M P Q → (T → List (Task M P)) → Prop
  | stay : Move setup on thread world tasks world tasks
  | fault (element : ListElement M) (isWrite : Bool) (served : on element.1)
      (below : element.2 < (setup.mapping element.1).segments)
      (idle : tasks thread = []) :
      Move setup on thread world tasks
        (world.setCore element.1 ((world.core element.1).fault
          (setup.mapping element.1) (setup.driver element.1) element.2 isWrite))
        (Function.update tasks thread (setup.faultTasks element))
  | notify (policy : P) (element : ListElement M) (rest : List (Task M P))
      (touch : Touch M) (state : Policy M Q)
      (head : tasks thread = .notify policy element :: rest)
      (touched : (world.policy policy).notifyTouch setup.mapping setup.ndebug
        element.1 element.2 = .ok (touch, state)) :
      Move setup on thread world tasks (world.setPolicy policy state)
        (Function.update tasks thread (Task.afterTouch policy touch rest))
  | evict (source : P) (element : ListElement M) (rest : List (Task M P))
      (after : World M P Q)
      (head : tasks thread = .evict source element :: rest)
      (evicted : setup.evictSection source element.1 element.2 world =
        .ok after) :
      Move setup on thread world tasks after (Function.update tasks thread rest)
  | quota (policy : P) (touch : Touch M) (rest : List (Task M P))
      (head : tasks thread = .quota policy touch :: rest) :
      Move setup on thread world tasks world (Function.update tasks thread rest)
  | maintain (mapping : M) (core : Core)
      (mapsNothing : (world.core mapping).MapsNothing core) :
      Move setup on thread world tasks (world.setCore mapping core) tasks

variable [DecidableEq M] [DecidableEq P] [DecidableEq Q] {on : M → Prop} {thread : T}
variable {world world' : World M P Q} {tasks : T → List (Task M P)}
variable {next : op.Result → PolicyProgram M P Q Unit} {result : op.Result}

/-- A section of a program that has not begun. -/
theorem ClientProgram.move
    (client : setup.ClientProgram on program)
    (idle : tasks thread = []) (current : program = .perform op next)
    (answer : setup.handle op world = some (result, world')) :
    ∃ tasks', setup.Move on thread world tasks world'
        (Function.update tasks thread tasks') ∧
      setup.Doing on tasks' (next result) := by
  have unchanged : Function.update tasks thread [] = tasks := by
    rw [← idle, Function.update_eq_self]
  cases client with
  | fault rounds mapping address isWrite served accepted =>
      obtain ⟨segmentId, below, shape⟩ :=
        setup.onSegmentationFault_eq accepted rounds
      rw [shape] at current
      cases current
      cases answer
      cases done : Mapping.alreadyDone isWrite
          ((world.core mapping).status segmentId) with
      | true =>
          refine ⟨[], ?_, .agenda 0 []⟩
          rw [unchanged]
          refine .maintain mapping _ ?_
          unfold Core.fault
          rw [if_pos done]
          exact fun _ mapped => mapped
      | false =>
          exact ⟨setup.faultTasks (mapping, segmentId),
            .fault (mapping, segmentId) isWrite served below idle,
            .agenda rounds _⟩
  | flush mapping offset size flags served accepted =>
      rw [setup.flush_eq accepted] at current
      cases current
      cases answer
      refine ⟨[], ?_, .agenda 0 []⟩
      rw [unchanged]
      exact .maintain mapping _
        ((world.core mapping).mapsNothing_flush offset size flags)
  | dropClean mapping served =>
      cases current
      cases answer
      refine ⟨[], ?_, .agenda 0 []⟩
      rw [unchanged]
      exact .maintain mapping _ (world.core mapping).mapsNothing_dropClean

/-- A section of the agenda of a thread.  Without a quota, the last part of a
touch does nothing. -/
theorem Doing.move
    (noQuota : ∀ policy, (world.policy policy).policyQuota = none)
    (doing : setup.Doing on (tasks thread) program)
    (current : program = .perform op next)
    (answer : setup.handle op world = some (result, world')) :
    ∃ tasks', setup.Move on thread world tasks world'
        (Function.update tasks thread tasks') ∧
      setup.Doing on tasks' (next result) := by
  have unchanged : setup.Move on thread world tasks world
      (Function.update tasks thread (tasks thread)) := by
    rw [Function.update_eq_self]
    exact .stay
  generalize todo : tasks thread = remaining at doing unchanged
  cases doing with
  | agenda rounds _ =>
      cases remaining with
      | nil => cases current
      | cons head rest =>
          cases head with
          | notify policy element =>
              rw [Task.agenda_notify] at current
              cases current
              obtain ⟨touch, ends, rfl⟩ | ⟨message, _, rfl, rfl⟩ :=
                World.reply_eq_some answer
              · obtain ⟨⟨value, state⟩, touched, same⟩ :=
                  Fallible.map_eq_ok.mp ends
                cases same
                exact ⟨_, .notify policy element rest value state todo touched,
                  .agenda rounds _⟩
              · exact ⟨_, unchanged, .aborted _ message⟩
          | evict source element =>
              rw [Task.agenda_evict] at current
              cases current
              obtain ⟨evicted, rfl⟩ | ⟨message, _, rfl, rfl⟩ :=
                World.replyUnit_eq_some answer
              · exact ⟨_, .evict source element rest world' todo evicted,
                  .agenda rounds _⟩
              · exact ⟨_, unchanged, .aborted _ message⟩
          | quota policy touch =>
              obtain ⟨follow, shape, ends⟩ :=
                Task.agenda_quota (Q := Q) rounds policy touch rest
              rw [shape] at current
              cases current
              cases answer
              refine ⟨_, .quota policy touch rest todo, ?_⟩
              rw [noQuota policy, ends]
              exact .agenda rounds rest
  | fresh offered => exact offered.move todo current answer
  | aborted _ message => cases current

/-- The run rule: an invariant of worlds and pending tasks that every move keeps
holds in every configuration that is reached. -/
theorem Move.invariant {initial : World M P Q}
    {condition : Configuration T (policySignature M P Q) (World M P Q) → T → Prop}
    {configuration : Configuration T (policySignature M P Q) (World M P Q)}
    (property : World M P Q → (T → List (Task M P)) → Prop)
    (initially : property initial fun _ => [])
    (noQuota : ∀ world tasks, property world tasks →
      ∀ policy, (world.policy policy).policyQuota = none)
    (kept : ∀ before tasks thread world' tasks',
      (∀ other, setup.Doing on (tasks other) (before.program other)) →
      condition before thread → property before.state tasks →
      setup.Move on thread before.state tasks world' tasks' →
      property world' tasks')
    (reached : ReachableUnder (fun _ => setup.handle)
      { program | setup.ClientProgram on program } initial condition
      configuration) :
    ∃ tasks : T → List (Task M P),
      (∀ thread, setup.Doing on (tasks thread) (configuration.program thread)) ∧
        property configuration.state tasks := by
  induction reached with
  | initial => exact ⟨fun _ => [], fun _ => .agenda 0 [], initially⟩
  | start _ thread program ready offered inductionHypothesis =>
      obtain ⟨tasks, doing, holds⟩ := inductionHypothesis
      refine ⟨tasks, ?_, holds⟩
      intro other
      by_cases same : other = thread
      · subst same
        have idle := (doing other).eq_nil (Or.inl ready)
        simp only [Function.update_self]
        rw [idle]
        exact .fresh offered
      · simp only [Function.update_of_ne same]
        exact doing other
  | act _ thread current answer allowed inductionHypothesis =>
      obtain ⟨tasks, doing, holds⟩ := inductionHypothesis
      obtain ⟨rest, moved, does⟩ := (doing thread).move
        (noQuota _ tasks holds) current answer
      refine ⟨_, ?_, kept _ tasks thread _ _ doing allowed holds moved⟩
      intro other
      by_cases same : other = thread
      · subst same
        simp only [Function.update_self]
        exact does
      · simp only [Function.update_of_ne same]
        exact doing other

end Setup

end UmmapIo
