import UmmapIo.Lib.RelyGuarantee
import Mathlib.Order.WellFounded

/-!
# Mutexes that are taken in an order

Threads take and release mutexes beside the operations of another signature.  A
mutex may be recursive: its owner can take it again.  A program is orderly if,
whatever its other operations answer, every mutex it takes comes after those it
holds, or is a recursive one that it holds already, and it releases only what it
holds.  If ascending chains of mutexes are finite, threads that run orderly
programs never wait for each other in a circle.
-/

namespace UmmapIo

variable {T L S α β : Type} {E : Signature}

/-- Operations on mutexes beside those of another signature. -/
inductive LockOp (L : Type) (E : Signature) : Type
  | lock (mutex : L)
  | unlock (mutex : L)
  | other (op : E.Op)

/-- The signature of programs that take mutexes. -/
def locking (L : Type) (E : Signature) : Signature where
  Op := LockOp L E
  Result
    | .lock _ => Unit
    | .unlock _ => Unit
    | .other op => E.Result op

/-- Which mutexes may be taken while others are held. -/
structure LockRules (L : Type) where
  /-- The owner may take the mutex again. -/
  recursive : L → Bool
  /-- The second mutex may be taken while the first one is held. -/
  Precedes : L → L → Prop

/-- What a thread that holds these mutexes, each so many times, may take. -/
def LockRules.Allows (rules : LockRules L) (held : L → Nat)
    (mutex : L) : Prop :=
  ∀ other, 0 < held other →
    rules.Precedes other mutex ∨ other = mutex ∧ rules.recursive mutex = true

/-- A thread that holds nothing may take any mutex. -/
theorem LockRules.allows_zero (rules : LockRules L) (mutex : L) :
    rules.Allows (fun _ => 0) mutex := by
  intro other holds
  cases holds

/-! ## The table of mutexes -/

/-- The owner of each mutex, with how many more times it holds the mutex, and the
state of everything else. -/
structure LockState (T L S : Type) where
  /-- The table of mutexes. -/
  owner : L → Option (T × Nat)
  /-- Everything else. -/
  inner : S

namespace LockState

/-- No mutex is taken. -/
def free (inner : S) : LockState T L S := ⟨fun _ => none, inner⟩

variable [DecidableEq T]

/-- How often the owner of an entry, if it is this thread, holds the mutex. -/
def depth (thread : T) : Option (T × Nat) → Nat
  | none => 0
  | some (owner, again) => if owner = thread then again + 1 else 0

/-- How often a thread holds a mutex. -/
def held (state : LockState T L S) (thread : T) (mutex : L) : Nat :=
  depth thread (state.owner mutex)

variable {state : LockState T L S} {thread : T} {mutex : L}

theorem owner_of_held (holds : 0 < state.held thread mutex) :
    ∃ again, state.owner mutex = some (thread, again) := by
  unfold held depth at holds
  split at holds
  · cases holds
  · rename_i owner again taken
    split at holds
    · rename_i same
      exact ⟨again, same ▸ taken⟩
    · cases holds

variable [DecidableEq L]

/-- Change one entry of the table. -/
def setOwner (state : LockState T L S) (mutex : L)
    (entry : Option (T × Nat)) : LockState T L S :=
  { state with owner := Function.update state.owner mutex entry }

theorem held_setOwner (state : LockState T L S) (mutex : L) (entry : Option (T × Nat))
    (thread : T) :
    (state.setOwner mutex entry).held thread =
      Function.update (state.held thread) mutex (depth thread entry) := by
  funext other
  change depth thread (Function.update state.owner mutex entry other) = _
  by_cases same : other = mutex
  · subst same
    rw [Function.update_self, Function.update_self]
  · rw [Function.update_of_ne same, Function.update_of_ne same]
    rfl

/-- Take a mutex: `none` while another thread holds it, and for ever if the
thread itself holds it and it is not recursive. -/
def lock (recursive : L → Bool) (state : LockState T L S) (thread : T)
    (mutex : L) : Option (LockState T L S) :=
  match state.owner mutex with
  | none => some (state.setOwner mutex (some (thread, 0)))
  | some (owner, again) =>
      if owner = thread ∧ recursive mutex = true then
        some (state.setOwner mutex (some (thread, again + 1)))
      else none

/-- Release a mutex that the thread holds. -/
def unlock (state : LockState T L S) (thread : T)
    (mutex : L) : Option (LockState T L S) :=
  match state.owner mutex with
  | none => none
  | some (owner, again) =>
      if owner = thread then
        match again with
        | 0 => some (state.setOwner mutex none)
        | again + 1 => some (state.setOwner mutex (some (thread, again)))
      else none

/-- One thread holds these mutexes afterwards; the other threads hold what they
held before, and nothing else changes. -/
structure Moves (state after : LockState T L S) (thread : T)
    (held : L → Nat) : Prop where
  own : after.held thread = held
  others : ∀ other, other ≠ thread → after.held other = state.held other
  inner : after.inner = state.inner

variable {recursive : L → Bool} {after : LockState T L S}

theorem moves_of_lock
    (takes : state.lock recursive thread mutex = some after) :
    state.Moves after thread
      (Function.update (state.held thread) mutex (state.held thread mutex + 1)) := by
  unfold lock at takes
  split at takes
  · rename_i nobody
    cases takes
    refine ⟨?_, ?_, rfl⟩
    · rw [held_setOwner, held, nobody]
      simp [depth]
    · intro other different
      rw [held_setOwner, Function.update_eq_self_iff, held, nobody]
      simp [depth, different.symm]
  · rename_i owner again taken
    obtain ⟨⟨rfl, _⟩, same⟩ := Option.ite_none_right_eq_some.mp takes
    cases same
    refine ⟨?_, ?_, rfl⟩
    · rw [held_setOwner, held, taken]
      simp [depth]
    · intro other different
      rw [held_setOwner, Function.update_eq_self_iff, held, taken]
      simp [depth, different.symm]

theorem moves_of_unlock
    (gives : state.unlock thread mutex = some after) :
    state.Moves after thread
      (Function.update (state.held thread) mutex (state.held thread mutex - 1)) := by
  unfold unlock at gives
  split at gives
  · cases gives
  · rename_i owner again taken
    obtain ⟨rfl, same⟩ := Option.ite_none_right_eq_some.mp gives
    split at same
    all_goals
      cases same
      refine ⟨?_, ?_, rfl⟩
    · rw [held_setOwner, held, taken]
      simp [depth]
    · intro other different
      rw [held_setOwner, Function.update_eq_self_iff, held, taken]
      simp [depth, different.symm]
    · rw [held_setOwner, held, taken]
      simp [depth]
    · intro other different
      rw [held_setOwner, Function.update_eq_self_iff, held, taken]
      simp [depth, different.symm]

/-- The owner of a recursive mutex never waits for it. -/
theorem lock_of_held (holds : 0 < state.held thread mutex)
    (again : recursive mutex = true) :
    state.lock recursive thread mutex ≠ none := by
  obtain ⟨count, taken⟩ := owner_of_held holds
  unfold lock
  rw [taken]
  simp [again]

/-- How the machine answers a thread. -/
def handle (recursive : L → Bool) (inner : T → Handler E S)
    (thread : T) : Handler (locking L E) (LockState T L S)
  | .lock mutex, state =>
      (state.lock recursive thread mutex).map fun after => ((), after)
  | .unlock mutex, state =>
      (state.unlock thread mutex).map fun after => ((), after)
  | .other op, state =>
      (inner thread op state.inner).map fun answer =>
        (answer.1, { state with inner := answer.2 })

end LockState

/-! ## Orderly programs -/

namespace Program

variable (rules : LockRules L) (final : L → Nat)

/-- A program that holds these mutexes keeps to the rules, whatever its other
operations answer, and holds the final ones when it is done. -/
def Orderly [DecidableEq L] : Program (locking L E) α → (L → Nat) → Prop
  | .done _, held => held = final
  | .abort _, _ => True
  | .perform (.lock mutex) next, held =>
      rules.Allows held mutex ∧
        (next ()).Orderly (Function.update held mutex (held mutex + 1))
  | .perform (.unlock mutex) next, held =>
      0 < held mutex ∧
        (next ()).Orderly (Function.update held mutex (held mutex - 1))
  | .perform (.other _) next, held => ∀ result, (next result).Orderly held

variable {rules final} [DecidableEq L] {held middle : L → Nat}
variable {program : Program (locking L E) α}

theorem Orderly.bind {next : α → Program (locking L E) β}
    (first : program.Orderly rules middle held)
    (second : ∀ value, (next value).Orderly rules final middle) :
    (program >>= next).Orderly rules final held := by
  induction program generalizing held with
  | done value =>
      obtain rfl : held = middle := first
      exact second value
  | abort message => trivial
  | perform op rest inductionHypothesis =>
      cases op with
      | lock mutex => exact ⟨first.1, inductionHypothesis () first.2⟩
      | unlock mutex => exact ⟨first.1, inductionHypothesis () first.2⟩
      | other op =>
          exact fun result => inductionHypothesis result (first result)

theorem Orderly.each {body : β → Program (locking L E) Unit} {items : List β}
    (steps : ∀ item ∈ items, (body item).Orderly rules held held) :
    (each body items).Orderly rules held held := by
  induction items with
  | nil => exact rfl
  | cons item rest inductionHypothesis =>
      exact (steps item List.mem_cons_self).bind fun _ =>
        inductionHypothesis fun other member =>
          steps other (List.mem_cons_of_mem _ member)

theorem Orderly.when {condition : Bool} {program : Program (locking L E) Unit}
    (taken : program.Orderly rules held held) :
    (when condition program).Orderly rules held held := by
  cases condition with
  | true => exact taken
  | false => exact rfl

theorem Orderly.assume (condition : Bool) (message : String) :
    (Program.assume condition message : Program (locking L E) Unit).Orderly
      rules held held := by
  cases condition with
  | true => exact rfl
  | false => trivial

theorem Orderly.ofExcept (result : Except String α) :
    (Program.ofExcept result : Program (locking L E) α).Orderly rules held
      held := by
  cases result with
  | ok value => exact rfl
  | error message => trivial

/-- The program takes and releases no mutex. -/
def LockFree : Program (locking L E) α → Prop
  | .perform (.other _) next => ∀ result, (next result).LockFree
  | .perform _ _ => False
  | _ => True

theorem LockFree.orderly (free : program.LockFree) :
    program.Orderly rules held held := by
  induction program with
  | done value => exact rfl
  | abort message => trivial
  | perform op next inductionHypothesis =>
      cases op with
      | other op => exact fun result => inductionHypothesis result (free result)
      | _ => exact free.elim

end Program

/-! ## Critical sections -/

namespace Locking

/-- Take a mutex. -/
def lock (mutex : L) : Program (locking L E) Unit :=
  .perform (.lock mutex) .done

/-- Release a mutex. -/
def unlock (mutex : L) : Program (locking L E) Unit :=
  .perform (.unlock mutex) .done

/-- An operation that is not about mutexes. -/
def other (op : E.Op) : Program (locking L E) (E.Result op) :=
  .perform (.other op) .done

/-- A section that holds a mutex. -/
def guarded (mutex : L) (body : Program (locking L E) α) :
    Program (locking L E) α := do
  lock mutex
  let value ← body
  unlock mutex
  pure value

/-- A section that takes several mutexes, one after the other, and releases them
in the same order. -/
def guardedAll (mutexes : List L) (body : Program (locking L E) α) :
    Program (locking L E) α := do
  Program.each lock mutexes
  let value ← body
  Program.each unlock mutexes
  pure value

variable [DecidableEq L] {rules : LockRules L} {held : L → Nat}

/-- The mutexes held after taking more. -/
def takeAll (held : L → Nat) (mutexes : List L) : L → Nat :=
  fun mutex => held mutex + mutexes.count mutex

theorem takeAll_cons (held : L → Nat) (mutex : L) (rest : List L) :
    takeAll held (mutex :: rest) =
      takeAll (Function.update held mutex (held mutex + 1)) rest := by
  funext other
  unfold takeAll
  by_cases same : other = mutex
  · subst same
    rw [Function.update_self, List.count_cons_self]
    omega
  · rw [Function.update_of_ne same, List.count_cons_of_ne (Ne.symm same)]

theorem takeAll_release (held : L → Nat) (mutex : L) (rest : List L) :
    Function.update (takeAll held (mutex :: rest)) mutex
        (takeAll held (mutex :: rest) mutex - 1) =
      takeAll held rest := by
  funext other
  by_cases same : other = mutex
  · subst same
    rw [Function.update_self, takeAll, takeAll, List.count_cons_self]
    omega
  · rw [Function.update_of_ne same, takeAll, takeAll,
      List.count_cons_of_ne (Ne.symm same)]

variable {mutex : L}

/-- A recursive mutex that may be taken may be taken again. -/
theorem allows_again (allowed : rules.Allows held mutex)
    (again : rules.recursive mutex = true) :
    rules.Allows (takeAll held [mutex]) mutex := by
  intro other holds
  by_cases same : other = mutex
  · exact Or.inr ⟨same, again⟩
  · rw [takeAll, List.count_cons_of_ne (Ne.symm same), List.count_nil] at holds
    exact allowed other holds

theorem orderly_other (op : E.Op) :
    (other op : Program (locking L E) (E.Result op)).Orderly rules held held :=
  fun _ => rfl

variable {mutexes : List L}

theorem orderly_lockAll
    (allowed : ∀ mutex ∈ mutexes, rules.Allows held mutex)
    (ordered : mutexes.Pairwise rules.Precedes) :
    (Program.each lock mutexes : Program (locking L E) Unit).Orderly rules
      (takeAll held mutexes) held := by
  induction mutexes generalizing held with
  | nil => exact rfl
  | cons mutex rest inductionHypothesis =>
      obtain ⟨before, ordered⟩ := List.pairwise_cons.mp ordered
      rw [takeAll_cons]
      refine ⟨allowed mutex List.mem_cons_self, inductionHypothesis ?_ ordered⟩
      intro later member other holds
      by_cases same : other = mutex
      · exact Or.inl (same ▸ before later member)
      · rw [Function.update_of_ne same] at holds
        exact allowed later (List.mem_cons_of_mem _ member) other holds

theorem orderly_unlockAll (held : L → Nat) (mutexes : List L) :
    (Program.each unlock mutexes : Program (locking L E) Unit).Orderly rules held
      (takeAll held mutexes) := by
  induction mutexes with
  | nil => exact rfl
  | cons mutex rest inductionHypothesis =>
      refine ⟨?_, ?_⟩
      · rw [takeAll, List.count_cons_self]
        omega
      · rw [takeAll_release]
        exact inductionHypothesis

variable {body : Program (locking L E) α}

/-- A section that takes several mutexes in order. -/
theorem orderly_guardedAll
    (allowed : ∀ mutex ∈ mutexes, rules.Allows held mutex)
    (ordered : mutexes.Pairwise rules.Precedes)
    (inside : body.Orderly rules (takeAll held mutexes) (takeAll held mutexes)) :
    (guardedAll mutexes body).Orderly rules held held :=
  (orderly_lockAll allowed ordered).bind fun _ =>
    inside.bind fun _ => (orderly_unlockAll held mutexes).bind fun _ => rfl

theorem orderly_guarded (allowed : rules.Allows held mutex)
    (inside : body.Orderly rules (takeAll held [mutex]) (takeAll held [mutex])) :
    (guarded mutex body).Orderly rules held held := by
  have same : guarded mutex body = guardedAll [mutex] body := rfl
  rw [same]
  refine orderly_guardedAll ?_ (List.pairwise_singleton _ _) inside
  intro other member
  rw [List.mem_singleton.mp member]
  exact allowed

end Locking

/-! ## Interleaved threads -/

section Threads

variable [DecidableEq T] [DecidableEq L] {rules : LockRules L} {inner : T → Handler E S}
variable {final : L → Nat}

theorem Program.Orderly.act {thread : T} {op : (locking L E).Op}
    {next : (locking L E).Result op → Program (locking L E) α}
    {state after : LockState T L S} {result : (locking L E).Result op}
    (orderly : (Program.perform op next).Orderly rules final (state.held thread))
    (answer : LockState.handle rules.recursive inner thread op state =
      some (result, after)) :
    (next result).Orderly rules final (after.held thread) ∧
      ∀ other, other ≠ thread → after.held other = state.held other := by
  cases op with
  | lock mutex =>
      obtain ⟨state', takes, same⟩ := Option.map_eq_some_iff.mp answer
      cases same
      have moves := LockState.moves_of_lock takes
      rw [moves.own]
      exact ⟨orderly.2, moves.others⟩
  | unlock mutex =>
      obtain ⟨state', gives, same⟩ := Option.map_eq_some_iff.mp answer
      cases same
      have moves := LockState.moves_of_unlock gives
      rw [moves.own]
      exact ⟨orderly.2, moves.others⟩
  | other op =>
      obtain ⟨reply, _, same⟩ := Option.map_eq_some_iff.mp answer
      cases same
      exact ⟨orderly reply.1, fun _ _ => rfl⟩

variable {menu : Set (Program (locking L E) Unit)} {initial : S}
variable {configuration after : Configuration T (locking L E) (LockState T L S)}

/-- A step leaves every thread with an orderly program for what it holds. -/
theorem Step.orderly
    (offered : ∀ program ∈ menu,
      program.Orderly rules (fun _ => 0) fun _ => 0)
    (moved : Step (LockState.handle rules.recursive inner) menu configuration after)
    (orderly : ∀ thread, (configuration.program thread).Orderly rules
      (fun _ => 0) (configuration.state.held thread))
    (thread : T) :
    (after.program thread).Orderly rules (fun _ => 0)
      (after.state.held thread) := by
  cases moved with
  | start starter program ready onMenu =>
      by_cases same : thread = starter
      · subst same
        have idle := orderly thread
        rw [ready] at idle
        dsimp only
        rw [Function.update_self, show LockState.held _ thread = _ from idle]
        exact offered program onMenu
      · dsimp only
        rw [Function.update_of_ne same]
        exact orderly thread
  | act actor current answer =>
      have acts := orderly actor
      rw [current] at acts
      obtain ⟨continues, others⟩ := acts.act answer
      by_cases same : thread = actor
      · subst same
        dsimp only
        rw [Function.update_self]
        exact continues
      · dsimp only
        rw [Function.update_of_ne same, others thread same]
        exact orderly thread

/-- Every thread goes on in an orderly way with what it holds. -/
theorem Reachable.orderly
    (offered : ∀ program ∈ menu,
      program.Orderly rules (fun _ => 0) fun _ => 0)
    (reached : Reachable (LockState.handle rules.recursive inner) menu
      (.free initial) configuration)
    (thread : T) :
    (configuration.program thread).Orderly rules (fun _ => 0)
      (configuration.state.held thread) := by
  induction reached generalizing thread with
  | initial => exact rfl
  | step _ moved inductionHypothesis =>
      exact moved.orderly offered inductionHypothesis thread

/-- The thread is about to take a mutex and cannot. -/
def Configuration.Waits (rules : LockRules L)
    (configuration : Configuration T (locking L E) (LockState T L S))
    (thread : T)
    (mutex : L) : Prop :=
  (configuration.program thread).nextOp = some (.lock mutex) ∧
    configuration.state.lock rules.recursive thread mutex = none

/-- A thread only takes what the rules allow. -/
theorem Program.Orderly.allows {program : Program (locking L E) α} {held : L → Nat}
    {mutex : L}
    (orderly : program.Orderly rules final held)
    (next : program.nextOp = some (.lock mutex)) :
    rules.Allows held mutex := by
  cases program with
  | done value => cases next
  | abort message => cases next
  | perform op rest =>
      cases next
      exact orderly.1

/-- Threads that run orderly programs do not wait for each other in a circle, if
ascending chains of mutexes are finite. -/
theorem Configuration.no_circular_wait
    (founded : WellFounded fun first second => rules.Precedes second first)
    (orderly : ∀ thread, (configuration.program thread).Orderly rules final
      (configuration.state.held thread))
    (threads : Set T)
    (nonempty : threads.Nonempty) :
    ¬∀ thread ∈ threads, ∃ mutex, configuration.Waits rules thread mutex ∧
      ∃ owner ∈ threads, 0 < configuration.state.held owner mutex := by
  intro waiting
  obtain ⟨someone, member⟩ := nonempty
  obtain ⟨wanted, waits, _⟩ := waiting someone member
  obtain ⟨last, ⟨thread, inside, waits⟩, maximal⟩ := founded.has_min
    { mutex | ∃ thread ∈ threads, configuration.Waits rules thread mutex }
    ⟨wanted, someone, member, waits⟩
  obtain ⟨mutex, alsoWaits, owner, owns, holds⟩ := waiting thread inside
  obtain rfl : last = mutex := by
    have same := waits.1.symm.trans alsoWaits.1
    cases same
    rfl
  obtain ⟨next, nextWaits, _⟩ := waiting owner owns
  obtain later | ⟨rfl, again⟩ := (orderly owner).allows nextWaits.1 last holds
  · exact maximal next ⟨owner, owns, nextWaits⟩ later
  · exact LockState.lock_of_held holds again nextWaits.2

end Threads

end UmmapIo
