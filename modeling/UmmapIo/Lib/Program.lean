import Mathlib.Logic.Function.Basic

/-!
# Programs over atomic operations

A program is a tree of atomic operations: it performs one operation, receives
the result and continues.  The same program text has two readings.  Run alone,
it is a state transformer.  Run beside other threads, it is a sequence of steps
that may be interleaved at every operation boundary.
-/

namespace UmmapIo

/-- The atomic operations of a machine and the type of result of each. -/
structure Signature where
  /-- Names of the operations together with their arguments. -/
  Op : Type
  /-- What an operation answers to the program that performed it. -/
  Result : Op → Type

/-- A terminating program that performs operations one after the other. -/
inductive Program (E : Signature) (α : Type) : Type
  | done (value : α)
  | abort (message : String)
  | perform (op : E.Op) (next : E.Result op → Program E α)

/-- How a machine answers an operation: `none` when the operation has to wait,
otherwise the result and the new state. -/
abbrev Handler (E : Signature) (S : Type) : Type :=
  (op : E.Op) → S → Option (E.Result op × S)

/-- Two equal answers carry the same result and the same state. -/
theorem answer_inj {S R : Type} {result result' : R} {state state' : S}
    (equal : some (result, state) = some (result', state')) :
    result = result' ∧ state = state' := by
  rw [Option.some.injEq, Prod.mk.injEq] at equal
  exact equal

/-- How a program run alone ends. -/
inductive Outcome (S α : Type) : Type
  | finished (value : α) (state : S)
  | aborted (message : String) (state : S)
  | blocked (state : S)

namespace Outcome

variable {S α β : Type}

/-- Continue after a finished run; an aborted or blocked run stays as it is. -/
def andThen (outcome : Outcome S α) (next : α → S → Outcome S β) :
    Outcome S β :=
  match outcome with
  | .finished value state => next value state
  | .aborted message state => .aborted message state
  | .blocked state => .blocked state

@[simp] theorem andThen_finished (value : α) (state : S) (next : α → S → Outcome S β) :
    (finished value state).andThen next = next value state := rfl

@[simp] theorem andThen_aborted (message : String) (state : S)
    (next : α → S → Outcome S β) :
    (aborted message state : Outcome S α).andThen next =
      .aborted message state := rfl

@[simp] theorem andThen_blocked (state : S) (next : α → S → Outcome S β) :
    (blocked state : Outcome S α).andThen next = .blocked state := rfl

/-- Look at the final state through a function. -/
def mapState {S' : Type} (view : S → S') : Outcome S α → Outcome S' α
  | .finished value state => .finished value (view state)
  | .aborted message state => .aborted message (view state)
  | .blocked state => .blocked (view state)

/-- A composition finishes when both of its parts do. -/
theorem andThen_eq_finished {outcome : Outcome S α} {next : α → S → Outcome S β}
    {result : β} {final : S} :
    outcome.andThen next = .finished result final ↔
      ∃ value state, outcome = .finished value state ∧
        next value state = .finished result final := by
  cases outcome with
  | finished value state =>
      constructor
      · intro equal
        exact ⟨value, state, rfl, equal⟩
      · rintro ⟨value', state', same, equal⟩
        cases same
        exact equal
  | aborted message state => simp
  | blocked state => simp

theorem andThen_assoc {γ : Type} (outcome : Outcome S α) (next : α → S → Outcome S β)
    (last : β → S → Outcome S γ) :
    (outcome.andThen next).andThen last =
      outcome.andThen fun value state => (next value state).andThen last := by
  cases outcome <;> rfl

theorem andThen_id (outcome : Outcome S α) :
    outcome.andThen .finished = outcome := by
  cases outcome <;> rfl

end Outcome

namespace Program

variable {E : Signature} {S α β γ : Type}

/-- Sequential composition. -/
def bind : Program E α → (α → Program E β) → Program E β
  | .done value, next => next value
  | .abort message, _ => .abort message
  | .perform op rest, next => .perform op fun result => (rest result).bind next

instance : Monad (Program E) where
  pure := .done
  bind := .bind

@[simp] theorem done_bind (value : α) (next : α → Program E β) :
    (done value : Program E α) >>= next = next value := rfl

@[simp] theorem abort_bind (message : String) (next : α → Program E β) :
    (abort message : Program E α) >>= next = .abort message := rfl

@[simp] theorem perform_bind (op : E.Op) (rest : E.Result op → Program E α)
    (next : α → Program E β) :
    perform op rest >>= next = .perform op fun result => rest result >>= next :=
  rfl

theorem bind_assoc (program : Program E α) (next : α → Program E β)
    (last : β → Program E γ) :
    (program >>= next) >>= last = program >>= fun value => next value >>= last := by
  induction program with
  | done value => rfl
  | abort message => rfl
  | perform op rest inductionHypothesis =>
      rw [perform_bind, perform_bind, perform_bind]
      congr 1
      funext result
      exact inductionHypothesis result

theorem bind_done (program : Program E α) : program >>= .done = program := by
  induction program with
  | done value => rfl
  | abort message => rfl
  | perform op rest inductionHypothesis =>
      rw [perform_bind]
      congr 1
      funext result
      exact inductionHypothesis result

/-- Perform a single operation and return its result. -/
def request (op : E.Op) : Program E (E.Result op) :=
  .perform op .done

/-- Stop the whole process with a message unless the condition holds. -/
def assume (condition : Bool) (message : String) : Program E Unit :=
  if condition then .done () else .abort message

@[simp] theorem assume_true (message : String) :
    (assume true message : Program E Unit) = .done () := rfl

@[simp] theorem assume_false (message : String) :
    (assume false message : Program E Unit) = .abort message := rfl

/-- Run a program only if the condition holds. -/
def when (condition : Bool) (program : Program E Unit) : Program E Unit :=
  if condition then program else .done ()

@[simp] theorem when_true (program : Program E Unit) :
    when true program = program := rfl

@[simp] theorem when_false (program : Program E Unit) :
    when false program = .done () := rfl

/-- The operation that a program performs next. -/
def nextOp : Program E α → Option E.Op
  | .perform op _ => some op
  | _ => none

/-- The process has stopped with a message. -/
def hasAborted : Program E α → Bool
  | .abort _ => true
  | _ => false

/-- Continue with the value of a fallible computation; a failure stops the whole
process with its message. -/
def ofExcept : Except String α → Program E α
  | .ok value => .done value
  | .error message => .abort message

/-- Run the body for every element of a list, in order. -/
def each (body : β → Program E Unit) : List β → Program E Unit
  | [] => .done ()
  | item :: rest => body item >>= fun _ => each body rest

@[simp] theorem each_nil (body : β → Program E Unit) :
    each body [] = .done () := rfl

@[simp] theorem each_cons (body : β → Program E Unit) (item : β) (rest : List β) :
    each body (item :: rest) = body item >>= fun _ => each body rest := rfl

theorem each_append (body : β → Program E Unit) (first second : List β) :
    each body (first ++ second) =
      each body first >>= fun _ => each body second := by
  induction first with
  | nil => rfl
  | cons item rest inductionHypothesis =>
      rw [List.cons_append, each_cons, each_cons, inductionHypothesis, bind_assoc]

theorem each_map {ι : Type} (body : β → Program E Unit) (rename : ι → β)
    (items : List ι) :
    each body (items.map rename) = each (fun item => body (rename item)) items := by
  induction items with
  | nil => rfl
  | cons item rest inductionHypothesis =>
      rw [List.map_cons, each_cons, each_cons, inductionHypothesis]

/-! ## Replacing operations by programs -/

section Expand

variable {F : Signature} (replace : (op : E.Op) → Program F (E.Result op))

/-- Replace every operation by a program over other operations. -/
def expand : Program E α → Program F α
  | .done value => .done value
  | .abort message => .abort message
  | .perform op next => replace op >>= fun result => (next result).expand

@[simp] theorem expand_done (value : α) :
    (done value : Program E α).expand replace = .done value := rfl

@[simp] theorem expand_abort (message : String) :
    (abort message : Program E α).expand replace = .abort message := rfl

@[simp] theorem expand_perform (op : E.Op) (next : E.Result op → Program E α) :
    (perform op next).expand replace =
      replace op >>= fun result => (next result).expand replace := rfl

@[simp] theorem expand_bind (program : Program E α) (next : α → Program E β) :
    (program >>= next).expand replace =
      program.expand replace >>= fun value => (next value).expand replace := by
  induction program with
  | done value => rfl
  | abort message => rfl
  | perform op rest inductionHypothesis =>
      rw [perform_bind, expand_perform, expand_perform, bind_assoc]
      congr 1
      funext result
      exact inductionHypothesis result

@[simp] theorem expand_assume (condition : Bool) (message : String) :
    (assume condition message : Program E Unit).expand replace =
      assume condition message := by
  cases condition <;> rfl

@[simp] theorem expand_when (condition : Bool) (program : Program E Unit) :
    (when condition program).expand replace =
      when condition (program.expand replace) := by
  cases condition <;> rfl

@[simp] theorem expand_ofExcept (result : Except String α) :
    (ofExcept result : Program E α).expand replace = ofExcept result := by
  cases result <;> rfl

@[simp] theorem expand_each (body : β → Program E Unit) (items : List β) :
    (each body items).expand replace =
      each (fun item => (body item).expand replace) items := by
  induction items with
  | nil => rfl
  | cons item rest inductionHypothesis =>
      rw [each_cons, expand_bind, each_cons, inductionHypothesis]

end Expand

/-! ## Running a program alone -/

/-- Run a program to its end with no other thread around. -/
def run (handle : Handler E S) : Program E α → S → Outcome S α
  | .done value, state => .finished value state
  | .abort message, state => .aborted message state
  | .perform op next, state =>
      match handle op state with
      | none => .blocked state
      | some (result, state') => (next result).run handle state'

@[simp] theorem run_done (handle : Handler E S) (value : α) (state : S) :
    (done value : Program E α).run handle state = .finished value state := rfl

@[simp] theorem run_abort (handle : Handler E S) (message : String) (state : S) :
    (abort message : Program E α).run handle state =
      .aborted message state := rfl

theorem run_perform (handle : Handler E S) (op : E.Op)
    (next : E.Result op → Program E α) (state : S) :
    (perform op next).run handle state =
      match handle op state with
      | none => .blocked state
      | some (result, state') => (next result).run handle state' := by
  rw [run]

/-- Running a composition runs the first part, then the second from where the
first ended. -/
@[simp] theorem run_bind (handle : Handler E S) (program : Program E α)
    (next : α → Program E β) (state : S) :
    (program >>= next).run handle state =
      (program.run handle state).andThen
        fun value state' => (next value).run handle state' := by
  induction program generalizing state with
  | done value => rfl
  | abort message => rfl
  | perform op rest inductionHypothesis =>
      rw [perform_bind, run_perform, run_perform]
      cases answer : handle op state with
      | none => rfl
      | some pair => exact inductionHypothesis pair.1 pair.2

variable {op : E.Op} {state state' : S} {result : E.Result op}

theorem run_request {handle : Handler E S}
    (answer : handle op state = some (result, state')) :
    (request op).run handle state = .finished result state' := by
  rw [request, run_perform, answer]
  rfl

theorem run_request_blocked {handle : Handler E S} (waits : handle op state = none) :
    (request op).run handle state = .blocked state := by
  rw [request, run_perform, waits]

/-- When the programs that replace the operations do on a part of a larger state
what the operations do on that part, so does the whole program. -/
theorem run_expand {F : Signature} {S' : Type}
    {replace : (op : E.Op) → Program F (E.Result op)} (handle : Handler E S)
    {handle' : Handler F S'} (embed : S → S')
    (waits : ∀ op state, handle op state = none →
      (replace op).run handle' (embed state) = .blocked (embed state))
    (answers : ∀ op state result after,
      handle op state = some (result, after) →
        (replace op).run handle' (embed state) = .finished result (embed after))
    (program : Program E α)
    (state : S) :
    (program.expand replace).run handle' (embed state) =
      (program.run handle state).mapState embed := by
  induction program generalizing state with
  | done value => rfl
  | abort message => rfl
  | perform op next inductionHypothesis =>
      rw [expand_perform, run_bind, run_perform]
      cases answer : handle op state with
      | none =>
          rw [waits op state answer]
          rfl
      | some pair =>
          rw [answers op state pair.1 pair.2 answer]
          exact inductionHypothesis pair.1 pair.2

/-- A handler that answers on a larger state what another answers on a part of
it. -/
theorem run_embed {S' : Type} {handle : Handler E S} {handle' : Handler E S'}
    {embed : S → S'}
    (answers : ∀ op state, handle' op (embed state) =
      (handle op state).map fun pair => (pair.1, embed pair.2))
    (program : Program E α)
    (state : S) :
    program.run handle' (embed state) =
      (program.run handle state).mapState embed := by
  induction program generalizing state with
  | done value => rfl
  | abort message => rfl
  | perform op next inductionHypothesis =>
      rw [run_perform, run_perform, answers]
      cases handle op state with
      | none => rfl
      | some pair => exact inductionHypothesis pair.1 pair.2

variable {condition : Bool} {message : String} {next : Unit → Program E α} {value : α}

/-- A run that gets past a check has passed it. -/
theorem run_assume_eq_finished {handle : Handler E S} {final : S}
    (finished : (assume condition message >>= next).run handle state =
      .finished value final) :
    condition = true ∧ (next ()).run handle state = .finished value final := by
  cases condition with
  | false => cases finished
  | true => exact ⟨rfl, finished⟩

/-! ## Predicting a run -/

/-- Run alone, the program finishes with this value and this state; if aborting
is allowed, it may abort instead. -/
def Ends (handle : Handler E S) (mayAbort : Prop) (program : Program E α) (state : S)
    (value : α)
    (state' : S) : Prop :=
  program.run handle state = .finished value state' ∨
    mayAbort ∧ ∃ message final,
      program.run handle state = .aborted message final

variable {handle : Handler E S} {mayAbort : Prop} {program : Program E α}

/-- A run that may not abort finishes. -/
theorem Ends.finishes
    (ends : program.Ends handle mayAbort state value state')
    (noAbort : ¬mayAbort) :
    program.run handle state = .finished value state' :=
  ends.resolve_right fun aborts => noAbort aborts.1

/-- A run that finishes does so as predicted. -/
theorem Ends.determines {final : S} {result : α}
    (ends : program.Ends handle mayAbort state value state')
    (finished : program.run handle state = .finished result final) :
    result = value ∧ final = state' := by
  obtain predicted | ⟨_, message, stopped, aborted⟩ := ends
  · rw [finished, Outcome.finished.injEq] at predicted
    exact predicted
  · rw [finished] at aborted
    cases aborted

theorem Ends.done (value : α) (state : S) :
    (Program.done value : Program E α).Ends handle mayAbort state value state :=
  Or.inl rfl

theorem Ends.bind {next : α → Program E β} {first second third : S} {result : β}
    (head : program.Ends handle mayAbort first value second)
    (tail : (next value).Ends handle mayAbort second result third) :
    (program >>= next).Ends handle mayAbort first result third := by
  unfold Ends
  rw [run_bind]
  obtain finished | ⟨allowed, message, final, aborted⟩ := head
  · rw [finished]
    exact tail
  · rw [aborted]
    exact Or.inr ⟨allowed, message, final, rfl⟩

theorem Ends.request
    (answer : handle op state = some (result, state')) :
    (Program.request op).Ends handle mayAbort state result state' :=
  Or.inl (run_request answer)

/-- A check that fails aborts, which has to be allowed then. -/
theorem Ends.assume (passes : condition = true ∨ mayAbort)
    (rest : condition = true →
      (next ()).Ends handle mayAbort state value state') :
    (Program.assume condition message >>= next).Ends handle mayAbort
      state value state' := by
  cases condition with
  | true => exact rest rfl
  | false =>
      have allowed : mayAbort := passes.resolve_left Bool.false_ne_true
      exact Or.inr ⟨allowed, message, state, rfl⟩

/-! ## Predicting runs that may not finish -/

/-- Run alone, the program either does not finish, or it finishes with this value and
this state. -/
def Leads (handle : Handler E S) (program : Program E α) (state : S) (value : α)
    (state' : S) : Prop :=
  ∀ result final, program.run handle state = .finished result final →
    result = value ∧ final = state'

theorem Ends.leads
    (ends : program.Ends handle mayAbort state value state') :
    program.Leads handle state value state' :=
  fun _ _ finished => ends.determines finished

theorem Leads.bind {next : α → Program E β} {first second third : S} {result : β}
    (head : program.Leads handle first value second)
    (tail : (next value).Leads handle second result third) :
    (program >>= next).Leads handle first result third := by
  intro found final finished
  rw [run_bind] at finished
  obtain ⟨middle, state, before, after⟩ := Outcome.andThen_eq_finished.mp finished
  obtain ⟨rfl, rfl⟩ := head middle state before
  exact tail found final after

theorem Leads.done (value : α) (state : S) :
    (Program.done value : Program E α).Leads handle state value state := by
  intro found final finished
  cases finished
  exact ⟨rfl, rfl⟩

theorem Leads.request
    (answer : handle op state = some (result, state')) :
    (Program.request op).Leads handle state result state' := by
  intro found final finished
  rw [run_request answer] at finished
  cases finished
  exact ⟨rfl, rfl⟩

theorem Leads.of_blocked {next : E.Result op → Program E α}
    (waits : handle op state = none) :
    (Program.request op >>= next).Leads handle state value state' := by
  intro found final finished
  rw [run_bind, run_request_blocked waits] at finished
  cases finished

theorem Leads.assume
    (rest : condition = true → (next ()).Leads handle state value state') :
    (Program.assume condition message >>= next).Leads handle state value state' := by
  intro found final finished
  obtain ⟨passed, more⟩ := run_assume_eq_finished finished
  exact rest passed found final more

end Program
end UmmapIo
