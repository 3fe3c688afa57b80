import UmmapIo.Lib.Program

/-!
# Interleaved threads and thread-local reasoning

Any number of threads run programs over one shared machine state.  A step is
one operation of one thread; a thread that has finished its program may start
any other program of a fixed menu.  A process that has aborted takes no step.

The proof rule is thread-local.  A `Discipline` fixes a global invariant and,
for each thread, the changes it tolerates from the others.  A program is
`Safe` when each of its operations keeps the invariant and makes only changes
that every other thread tolerates.  If every program of the menu is safe then
the invariant holds in every reachable configuration.
-/

namespace UmmapIo

variable {T S : Type} {E : Signature}

/-- What threads promise each other about the shared state. -/
structure Discipline (T S : Type) where
  /-- Holds between any two steps. -/
  Inv : S → Prop
  /-- Changes by the other threads that the given thread tolerates. -/
  Rely : T → S → S → Prop
  /-- Assertion of a thread that is between two programs. -/
  Idle : T → S → Prop
  rely_refl : ∀ thread state, Rely thread state state
  rely_trans : ∀ thread first second third,
    Rely thread first second → Rely thread second third →
      Rely thread first third
  idle_stable : ∀ thread state state',
    Idle thread state → Rely thread state state' → Idle thread state'

/-- The shared state and what every thread still has to do. -/
structure Configuration (T : Type) (E : Signature) (S : Type) where
  /-- Shared machine state. -/
  state : S
  /-- Remaining program of each thread. -/
  program : T → Program E Unit

/-- One step of one thread. -/
inductive Step [DecidableEq T]
    (handle : T → Handler E S)
    (menu : Set (Program E Unit)) :
    Configuration T E S → Configuration T E S → Prop
  | start {configuration : Configuration T E S} (thread : T) (program : Program E Unit)
      (ready : configuration.program thread = .done ())
      (offered : program ∈ menu) :
      Step handle menu configuration
        { configuration with
          program := Function.update configuration.program thread program }
  | act {configuration : Configuration T E S} (thread : T) {op : E.Op}
      {next : E.Result op → Program E Unit} {result : E.Result op} {state' : S}
      (current : configuration.program thread = .perform op next)
      (answer : handle thread op configuration.state = some (result, state')) :
      Step handle menu configuration
        { state := state'
          program := Function.update configuration.program thread (next result) }

/-- Configurations reached by some interleaving when all threads begin with
nothing to do. -/
inductive Reachable [DecidableEq T]
    (handle : T → Handler E S)
    (menu : Set (Program E Unit))
    (initial : S) : Configuration T E S → Prop
  | initial : Reachable handle menu initial
      { state := initial, program := fun _ => .done () }
  | step {before after : Configuration T E S}
      (reached : Reachable handle menu initial before)
      (moved : Step handle menu before after) :
      Reachable handle menu initial after

/-- Configurations reached by the interleavings in which a thread takes a step
only where a condition on the configuration lets it. -/
inductive ReachableUnder [DecidableEq T]
    (handle : T → Handler E S)
    (menu : Set (Program E Unit))
    (initial : S)
    (condition : Configuration T E S → T → Prop) : Configuration T E S → Prop
  | initial : ReachableUnder handle menu initial condition
      { state := initial, program := fun _ => .done () }
  | start {configuration : Configuration T E S}
      (reached : ReachableUnder handle menu initial condition configuration)
      (thread : T) (program : Program E Unit)
      (ready : configuration.program thread = .done ())
      (offered : program ∈ menu) :
      ReachableUnder handle menu initial condition
        { configuration with
          program := Function.update configuration.program thread program }
  | act {configuration : Configuration T E S}
      (reached : ReachableUnder handle menu initial condition configuration)
      (thread : T) {op : E.Op} {next : E.Result op → Program E Unit}
      {result : E.Result op} {state' : S}
      (current : configuration.program thread = .perform op next)
      (answer : handle thread op configuration.state = some (result, state'))
      (allowed : condition configuration thread) :
      ReachableUnder handle menu initial condition
        { state := state'
          program := Function.update configuration.program thread (next result) }

variable {handle : T → Handler E S} {menu : Set (Program E Unit)} {initial : S}
variable {configuration : Configuration T E S}

/-- Without a condition, every interleaving counts. -/
theorem Reachable.under [DecidableEq T]
    (reached : Reachable handle menu initial configuration) :
    ReachableUnder handle menu initial (fun _ _ => True) configuration := by
  induction reached with
  | initial => exact .initial
  | step _ moved inductionHypothesis =>
      cases moved with
      | start thread program ready offered =>
          exact inductionHypothesis.start thread program ready offered
      | act thread current answer =>
          exact inductionHypothesis.act thread current answer trivial

/-- Whatever the condition, only interleavings count. -/
theorem ReachableUnder.reachable [DecidableEq T]
    {condition : Configuration T E S → T → Prop}
    (reached : ReachableUnder handle menu initial condition configuration) :
    Reachable handle menu initial configuration := by
  induction reached with
  | initial => exact .initial
  | start _ thread program ready offered inductionHypothesis =>
      exact inductionHypothesis.step (.start thread program ready offered)
  | act _ thread current answer _ inductionHypothesis =>
      exact inductionHypothesis.step (.act thread current answer)

section Schedule

variable [DecidableEq T] (condition : Configuration T E S → T → Prop)
variable [∀ configuration thread, Decidable (condition configuration thread)]

/-- Let a thread take its next step, if the condition lets it. -/
def Configuration.act (handle : T → Handler E S) (configuration : Configuration T E S)
    (thread : T) : Option (Configuration T E S) :=
  if condition configuration thread then
    match configuration.program thread with
    | .perform op next =>
        (handle thread op configuration.state).map fun answer =>
          { state := answer.2
            program := Function.update configuration.program thread (next answer.1) }
    | _ => none
  else none

variable {condition}

/-- Following a schedule stays among the reachable configurations. -/
theorem ReachableUnder.follow {handle : T → Handler E S} {menu : Set (Program E Unit)}
    {initial : S} {before after : Configuration T E S}
    (reached : ReachableUnder handle menu initial condition before)
    (schedule : List T)
    (follows : schedule.foldlM (Configuration.act condition handle) before =
      some after) :
    ReachableUnder handle menu initial condition after := by
  induction schedule generalizing before with
  | nil =>
      cases follows
      exact reached
  | cons thread rest inductionHypothesis =>
      rw [List.foldlM_cons, Option.bind_eq_bind, Option.bind_eq_some_iff] at follows
      obtain ⟨middle, acts, follows⟩ := follows
      refine inductionHypothesis ?_ follows
      unfold Configuration.act at acts
      split at acts
      · rename_i allowed
        split at acts
        · rename_i op next current
          obtain ⟨answer, answered, rfl⟩ := Option.map_eq_some_iff.mp acts
          exact reached.act thread current answered allowed
        · cases acts
      · cases acts

end Schedule

/-- A thread that has nothing to do may run a whole program before any other
thread takes a step. -/
theorem Reachable.run [DecidableEq T] {state' : S}
    (reached : Reachable handle menu initial configuration)
    (thread : T) (program : Program E Unit)
    (ready : configuration.program thread = .done ())
    (offered : program ∈ menu)
    (runs : program.run (handle thread) configuration.state =
      .finished () state') :
    Reachable handle menu initial { configuration with state := state' } := by
  have running (current : Program E Unit) (state : S)
      (reachedState : Reachable handle menu initial
        { state := state
          program := Function.update configuration.program thread current })
      (finishes : current.run (handle thread) state = .finished () state') :
      Reachable handle menu initial { configuration with state := state' } := by
    induction current generalizing state with
    | done value =>
        obtain rfl : state = state' := by
          rw [Program.run_done, Outcome.finished.injEq] at finishes
          exact finishes.2
        rw [← ready, Function.update_eq_self] at reachedState
        exact reachedState
    | abort message => cases finishes
    | perform op next inductionHypothesis =>
        rw [Program.run_perform] at finishes
        cases answer : handle thread op state with
        | none =>
            rw [answer] at finishes
            cases finishes
        | some pair =>
            obtain ⟨result, after⟩ := pair
            rw [answer] at finishes
            refine inductionHypothesis result after ?_ finishes
            have advanced := reachedState.step
              (.act thread (Function.update_self thread
                (Program.perform op next) configuration.program) answer)
            rw [Function.update_idem] at advanced
            exact advanced
  exact running program configuration.state
    (reached.step (.start thread program ready offered)) runs

namespace Program

variable {α β : Type}

/-- From this state on, every operation of the program keeps the invariant,
disturbs no other thread, and the final result satisfies `post`. -/
def Safe (discipline : Discipline T S) (handle : T → Handler E S) (thread : T)
    (post : α → S → Prop) : Program E α → S → Prop
  | .done value, state => post value state
  | .abort _, _ => True
  | .perform op next, state =>
      ∀ state', discipline.Rely thread state state' → discipline.Inv state' →
        ∀ result state'', handle thread op state' = some (result, state'') →
          discipline.Inv state'' ∧
          (∀ other, other ≠ thread → discipline.Rely other state' state'') ∧
          (next result).Safe discipline handle thread post state''

variable {discipline : Discipline T S} {handle : T → Handler E S} {thread : T}

variable {post : α → S → Prop} {program : Program E α} {state : S}

theorem Safe.mono {post' : α → S → Prop}
    (safe : program.Safe discipline handle thread post state)
    (weaker : ∀ value state', post value state' → post' value state') :
    program.Safe discipline handle thread post' state := by
  induction program generalizing state with
  | done value => exact weaker value state safe
  | abort message => trivial
  | perform op next inductionHypothesis =>
      intro state' tolerated invariant result state'' answer
      obtain ⟨kept, others, rest⟩ :=
        safe state' tolerated invariant result state'' answer
      exact ⟨kept, others, inductionHypothesis result rest⟩

/-- Sequential composition: the first part ends where the second is safe. -/
theorem Safe.bind {post : β → S → Prop} {next : α → Program E β}
    (safe : program.Safe discipline handle thread
      (fun value state' =>
        (next value).Safe discipline handle thread post state') state) :
    (program >>= next).Safe discipline handle thread post state := by
  induction program generalizing state with
  | done value => exact safe
  | abort message => trivial
  | perform op rest inductionHypothesis =>
      intro state' tolerated invariant result state'' answer
      obtain ⟨kept, others, tail⟩ :=
        safe state' tolerated invariant result state'' answer
      exact ⟨kept, others, inductionHypothesis result tail⟩

/-- Composition through an intermediate assertion. -/
theorem Safe.andThen {middle : α → S → Prop} {post : β → S → Prop}
    {next : α → Program E β}
    (first : program.Safe discipline handle thread middle state)
    (second : ∀ value state', middle value state' →
      (next value).Safe discipline handle thread post state') :
    (program >>= next).Safe discipline handle thread post state :=
  Safe.bind (first.mono second)

/-- One operation under an assertion the other threads cannot falsify. -/
theorem Safe.request {op : E.Op} {post : E.Result op → S → Prop} (pre : S → Prop)
    (holds : pre state)
    (stable : ∀ before after,
      pre before → discipline.Rely thread before after → pre after)
    (acts : ∀ before, pre before → discipline.Inv before →
      ∀ result after, handle thread op before = some (result, after) →
        discipline.Inv after ∧
        (∀ other, other ≠ thread → discipline.Rely other before after) ∧
        post result after) :
    (Program.request op).Safe discipline handle thread post state := by
  intro state' tolerated invariant result state'' answer
  exact acts state' (stable state state' holds tolerated) invariant
    result state'' answer

/-- A check either aborts the process or lets the rest go on. -/
theorem Safe.assume {condition : Bool} {message : String} {next : Unit → Program E α}
    (rest : condition = true →
      (next ()).Safe discipline handle thread post state) :
    (Program.assume condition message >>= next).Safe discipline handle thread
      post state := by
  cases condition with
  | false => trivial
  | true => exact rest rfl

/-- A conditional part that keeps the same assertion when it is skipped. -/
theorem Safe.when {condition : Bool} {program : Program E Unit} {post : Unit → S → Prop}
    (taken : condition = true →
      program.Safe discipline handle thread post state)
    (skipped : condition = false → post () state) :
    (Program.when condition program).Safe discipline handle thread post state := by
  cases condition with
  | false => exact skipped rfl
  | true => exact taken rfl

/-- A loop is safe when its body keeps an assertion from one item to the
next. -/
theorem Safe.each {body : β → Program E Unit} {items : List β} (pre : S → Prop)
    (holds : pre state)
    (bodySafe : ∀ item ∈ items, ∀ current, pre current →
      (body item).Safe discipline handle thread (fun _ => pre) current) :
    (Program.each body items).Safe discipline handle thread
      (fun _ => pre) state := by
  induction items generalizing state with
  | nil => exact holds
  | cons item rest inductionHypothesis =>
      rw [each_cons]
      refine Safe.andThen (bodySafe item List.mem_cons_self state holds) ?_
      intro _ state' kept
      exact inductionHypothesis kept fun other member =>
        bodySafe other (List.mem_cons_of_mem item member)

/-- Safety survives the changes the thread tolerates, provided its result
assertion does. -/
theorem Safe.stable {state' : S}
    (safe : program.Safe discipline handle thread post state)
    (tolerated : discipline.Rely thread state state')
    (postStable : ∀ value before after,
      post value before → discipline.Rely thread before after →
        post value after) :
    program.Safe discipline handle thread post state' := by
  cases program with
  | done value => exact postStable value state state' safe tolerated
  | abort message => trivial
  | perform op next =>
      intro later laterTolerated invariant result after answer
      exact safe later
        (discipline.rely_trans thread state state' later tolerated laterTolerated)
        invariant result after answer

end Program

/-- What holds of a configuration while every thread follows the discipline. -/
def Disciplined (discipline : Discipline T S) (handle : T → Handler E S)
    (configuration : Configuration T E S) : Prop :=
  discipline.Inv configuration.state ∧
    ∀ thread, (configuration.program thread).Safe discipline handle thread
      (fun _ => discipline.Idle thread) configuration.state

/-- Every step keeps a configuration disciplined. -/
theorem Step.disciplined [DecidableEq T] {discipline : Discipline T S}
    {before after : Configuration T E S}
    (menuSafe : ∀ program ∈ menu, ∀ thread state,
      discipline.Inv state → discipline.Idle thread state →
        program.Safe discipline handle thread
          (fun _ => discipline.Idle thread) state)
    (moved : Step handle menu before after)
    (holds : Disciplined discipline handle before) :
    Disciplined discipline handle after := by
  obtain ⟨invariant, threads⟩ := holds
  cases moved with
  | start thread program ready offered =>
      refine ⟨invariant, ?_⟩
      intro other
      by_cases same : other = thread
      · subst same
        have idle := threads other
        rw [ready] at idle
        simp only [Function.update_self]
        exact menuSafe program offered other before.state invariant idle
      · simp only [Function.update_of_ne same]
        exact threads other
  | @act thread op next result state' current answer =>
      have actor := threads thread
      rw [current] at actor
      obtain ⟨kept, others, rest⟩ :=
        actor before.state (discipline.rely_refl thread before.state)
          invariant result state' answer
      refine ⟨kept, ?_⟩
      intro other
      by_cases same : other = thread
      · subst same
        simp only [Function.update_self]
        exact rest
      · simp only [Function.update_of_ne same]
        exact (threads other).stable (others other same)
          fun _ before after => discipline.idle_stable other before after

/-- The interleaving rule: the invariant holds in every reachable
configuration. -/
theorem Reachable.inv [DecidableEq T] (discipline : Discipline T S)
    (initialInv : discipline.Inv initial)
    (initialIdle : ∀ thread, discipline.Idle thread initial)
    (menuSafe : ∀ program ∈ menu, ∀ thread state,
      discipline.Inv state → discipline.Idle thread state →
        program.Safe discipline handle thread
          (fun _ => discipline.Idle thread) state)
    (reached : Reachable handle menu initial configuration) :
    discipline.Inv configuration.state := by
  have disciplined : Disciplined discipline handle configuration := by
    induction reached with
    | initial => exact ⟨initialInv, initialIdle⟩
    | step _ moved inductionHypothesis =>
        exact moved.disciplined menuSafe inductionHypothesis
  exact disciplined.1

end UmmapIo
