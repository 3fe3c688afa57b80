import UmmapIo.Lib.Program
import Mathlib.Data.Set.Defs

/-!
# Contracts of programs that run alone

A contract says what a run may assume of the operations it performs, what holds
whenever it performs one, with which messages it may abort and whether it may
block.  A program meets a contract from a state if its run keeps to it and ends
in a result that satisfies an assertion.  There is one rule for each way to
build a program.

A sequential run is a sequence of programs, each started where the one before it
finished.
-/

namespace UmmapIo

variable {E : Signature} {S α β : Type}

/-- What a run may assume and has to guarantee. -/
structure Contract (E : Signature) (S : Type) where
  /-- What may be assumed of an operation and the state it is performed in. -/
  assumes : E.Op → S → Prop
  /-- What holds whenever an operation is performed. -/
  invariant : E.Op → S → Prop
  /-- The messages with which the run may abort. -/
  stops : String → Prop
  /-- The run may wait for ever. -/
  blocks : Prop

/-- The contract that allows everything. -/
def Contract.lenient : Contract E S where
  assumes _ _ := True
  invariant _ _ := True
  stops _ := True
  blocks := True

/-- The contract of a run that ends, and aborts with certain messages only. -/
def Contract.ending (stops : String → Prop) : Contract E S where
  assumes _ _ := True
  invariant _ _ := True
  stops := stops
  blocks := False

namespace Program

/-- The operations of a run, with the states they are performed in. -/
def performed (handle : Handler E S) : Program E α → S → List (E.Op × S)
  | .done _, _ => []
  | .abort _, _ => []
  | .perform op next, state =>
      (op, state) ::
        match handle op state with
        | none => []
        | some (result, state') => (next result).performed handle state'

theorem performed_perform (handle : Handler E S) (op : E.Op)
    (next : E.Result op → Program E α) (state : S) :
    (perform op next).performed handle state =
      (op, state) ::
        match handle op state with
        | none => []
        | some (result, state') => (next result).performed handle state' := by
  rw [performed]

variable {program : Program E α} {next : α → Program E β} {state : S}

/-- The operations of a composition are those of the first part and, from where it
finished, those of the second. -/
theorem mem_performed_bind {handle : Handler E S} {entry : E.Op × S} :
    entry ∈ (program >>= next).performed handle state ↔
      entry ∈ program.performed handle state ∨
        ∃ value state', program.run handle state = .finished value state' ∧
          entry ∈ (next value).performed handle state' := by
  induction program generalizing state with
  | done value =>
      constructor
      · intro member
        exact Or.inr ⟨value, state, rfl, member⟩
      · rintro (absurdity | ⟨_, _, same, member⟩)
        · cases absurdity
        · cases same
          exact member
  | abort message =>
      constructor
      · intro absurdity
        cases absurdity
      · rintro (absurdity | ⟨_, _, same, _⟩)
        · cases absurdity
        · cases same
  | perform op rest inductionHypothesis =>
      rw [perform_bind, run_perform, performed_perform, performed_perform]
      cases handle op state with
      | none => simp
      | some pair =>
          rw [List.mem_cons, List.mem_cons, inductionHypothesis, or_assoc]

variable {state' : S} {value : α}

theorem mem_performed_of_finished {handle : Handler E S}
    (finished : program.run handle state = .finished value state')
    {entry : E.Op × S} :
    entry ∈ (program >>= next).performed handle state ↔
      entry ∈ program.performed handle state ∨
        entry ∈ (next value).performed handle state' := by
  rw [mem_performed_bind, finished]
  constructor
  · rintro (first | ⟨_, _, same, second⟩)
    · exact Or.inl first
    · cases same
      exact Or.inr second
  · rintro (first | second)
    · exact Or.inl first
    · exact Or.inr ⟨value, state', rfl, second⟩

theorem performed_assume (handle : Handler E S) (condition : Bool) (message : String)
    (state : S) :
    (assume condition message).performed handle state = [] := by
  cases condition <;> rfl

variable {condition : Bool} {message : String}

/-- What follows a check is performed if it passes. -/
theorem mem_performed_assume {handle : Handler E S} {next : Unit → Program E α}
    {entry : E.Op × S} :
    entry ∈ (assume condition message >>= next).performed handle state ↔
      condition = true ∧ entry ∈ (next ()).performed handle state := by
  cases condition with
  | true => simp
  | false => simp [performed]

variable {op : E.Op}

theorem mem_performed_request {handle : Handler E S} {entry : E.Op × S} :
    entry ∈ (request op).performed handle state ↔ entry = (op, state) := by
  rw [request, performed_perform]
  cases handle op state with
  | none => simp
  | some pair => simp [performed]

/-- From this state on, the program keeps to the contract, and its result
satisfies `post`. -/
def Meets (handle : Handler E S) (contract : Contract E S)
    (post : α → S → Prop) : Program E α → S → Prop
  | .done value, state => post value state
  | .abort message, _ => contract.stops message
  | .perform op next, state =>
      contract.invariant op state ∧
        (contract.assumes op state →
          (handle op state = none → contract.blocks) ∧
          ∀ result state', handle op state = some (result, state') →
            (next result).Meets handle contract post state')

variable {handle : Handler E S} {contract : Contract E S} {post : α → S → Prop}

section

variable (meets : program.Meets handle contract post state)
include meets

/-- What a contract says about a run that meets its assumptions. -/
theorem Meets.run
    (assumed : ∀ entry ∈ program.performed handle state,
      contract.assumes entry.1 entry.2) :
    (∀ entry ∈ program.performed handle state,
      contract.invariant entry.1 entry.2) ∧
      match program.run handle state with
      | .finished value state' => post value state'
      | .aborted message _ => contract.stops message
      | .blocked _ => contract.blocks := by
  induction program generalizing state with
  | done value => exact ⟨fun _ absurdity => (nomatch absurdity), meets⟩
  | abort message => exact ⟨fun _ absurdity => (nomatch absurdity), meets⟩
  | perform op next inductionHypothesis =>
      unfold performed at assumed ⊢
      obtain ⟨invariant, continues⟩ := meets
      obtain ⟨waits, continues⟩ :=
        continues (assumed (op, state) List.mem_cons_self)
      rw [run_perform]
      cases answer : handle op state with
      | none =>
          refine ⟨?_, waits answer⟩
          intro entry member
          obtain rfl := List.mem_singleton.mp member
          exact invariant
      | some pair =>
          obtain ⟨result, state'⟩ := pair
          simp only [answer] at assumed ⊢
          obtain ⟨visited, ends⟩ := inductionHypothesis result
            (continues result state' answer)
            fun entry member => assumed entry (List.mem_cons_of_mem _ member)
          refine ⟨?_, ends⟩
          intro entry member
          obtain rfl | later := List.mem_cons.mp member
          · exact invariant
          · exact visited entry later

/-- What holds of an operation before which the assumptions were met. -/
theorem Meets.invariant_at {earlier later : List (E.Op × S)} {entry : E.Op × S}
    (performs : program.performed handle state = earlier ++ entry :: later)
    (assumed : ∀ entry ∈ earlier, contract.assumes entry.1 entry.2) :
    contract.invariant entry.1 entry.2 := by
  induction program generalizing state earlier with
  | done value => simp [performed] at performs
  | abort message => simp [performed] at performs
  | perform op next inductionHypothesis =>
      obtain ⟨invariant, continues⟩ := meets
      rw [performed_perform] at performs
      cases earlier with
      | nil =>
          obtain ⟨rfl, _⟩ := List.cons.inj performs
          exact invariant
      | cons first rest =>
          obtain ⟨rfl, remains⟩ := List.cons.inj performs
          obtain ⟨_, continues⟩ := continues (assumed _ List.mem_cons_self)
          cases answer : handle op state with
          | none => simp [answer] at remains
          | some pair =>
              rw [answer] at remains
              exact inductionHypothesis pair.1 (continues pair.1 pair.2 answer)
                remains fun entry member =>
                  assumed entry (List.mem_cons_of_mem _ member)

theorem Meets.mono {post' : α → S → Prop}
    (weaker : ∀ value state', post value state' → post' value state') :
    program.Meets handle contract post' state := by
  induction program generalizing state with
  | done value => exact weaker value state meets
  | abort message => exact meets
  | perform op next inductionHypothesis =>
      obtain ⟨invariant, continues⟩ := meets
      refine ⟨invariant, fun allowed => ⟨(continues allowed).1, ?_⟩⟩
      intro result state' answer
      exact inductionHypothesis result ((continues allowed).2 result state' answer)

end

/-- Sequential composition: the first part ends where the second meets the
contract. -/
theorem Meets.bind {post : β → S → Prop}
    (meets : program.Meets handle contract
      (fun value state' => (next value).Meets handle contract post state')
      state) :
    (program >>= next).Meets handle contract post state := by
  induction program generalizing state with
  | done value => exact meets
  | abort message => exact meets
  | perform op rest inductionHypothesis =>
      obtain ⟨invariant, continues⟩ := meets
      refine ⟨invariant, fun allowed => ⟨(continues allowed).1, ?_⟩⟩
      intro result state' answer
      exact inductionHypothesis result ((continues allowed).2 result state' answer)

/-- Composition through an intermediate assertion. -/
theorem Meets.andThen {middle : α → S → Prop} {post : β → S → Prop}
    (first : program.Meets handle contract middle state)
    (second : ∀ value state', middle value state' →
      (next value).Meets handle contract post state') :
    (program >>= next).Meets handle contract post state :=
  Meets.bind (first.mono second)

theorem Meets.request {post : E.Result op → S → Prop}
    (invariant : contract.invariant op state)
    (waits : contract.assumes op state → handle op state = none →
      contract.blocks)
    (answered : contract.assumes op state →
      ∀ result state', handle op state = some (result, state') →
        post result state') :
    (Program.request op).Meets handle contract post state :=
  ⟨invariant, fun allowed => ⟨waits allowed, answered allowed⟩⟩

/-- A single operation whose answer is known. -/
theorem Meets.answer {post : E.Result op → S → Prop} {result : E.Result op}
    (invariant : contract.invariant op state)
    (answer : handle op state = some (result, state'))
    (holds : contract.assumes op state → post result state') :
    (Program.request op).Meets handle contract post state := by
  refine .request invariant ?_ ?_
  · intro _ waits
    rw [waits] at answer
    cases answer
  · intro allowed other final replied
    rw [answer] at replied
    obtain ⟨rfl, rfl⟩ := answer_inj replied
    exact holds allowed

/-- A conditional part. -/
theorem Meets.when {program : Program E Unit} {post : Unit → S → Prop}
    (taken : condition = true → program.Meets handle contract post state)
    (skipped : condition = false → post () state) :
    (Program.when condition program).Meets handle contract post state := by
  cases condition with
  | true => exact taken rfl
  | false => exact skipped rfl

theorem Meets.assume {next : Unit → Program E α} (stops : contract.stops message)
    (passed : condition = true →
      (next ()).Meets handle contract post state) :
    (Program.assume condition message >>= next).Meets handle contract post
      state := by
  cases condition with
  | true => exact passed rfl
  | false => exact stops

/-- A loop over a list, with an invariant on the items that remain. -/
theorem Meets.each {body : β → Program E Unit} {items : List β}
    (remaining : List β → S → Prop) (holds : remaining items state)
    (steps : ∀ item rest before, remaining (item :: rest) before →
      (body item).Meets handle contract (fun _ after => remaining rest after)
        before) :
    (Program.each body items).Meets handle contract
      (fun _ after => remaining [] after) state := by
  induction items generalizing state with
  | nil => exact holds
  | cons item rest inductionHypothesis =>
      rw [each_cons]
      exact (steps item rest state holds).andThen fun _ _ kept =>
        inductionHypothesis kept

/-- What holds of a run that finishes, whatever else may happen. -/
theorem Meets.finished {final : S}
    (meets : program.Meets handle .lenient post state)
    (finished : program.run handle state = .finished value final) :
    post value final := by
  have ends := (meets.run fun _ _ => trivial).2
  rw [finished] at ends
  exact ends

/-- How a run ends that has to. -/
theorem Meets.ends {stops : String → Prop}
    (meets : program.Meets handle (.ending stops) post state) :
    (∃ value final, program.run handle state = .finished value final ∧
      post value final) ∨
    ∃ message final, program.run handle state = .aborted message final ∧
      stops message := by
  have ends := (meets.run fun _ _ => trivial).2
  cases ran : program.run handle state with
  | finished value final =>
      rw [ran] at ends
      exact Or.inl ⟨value, final, rfl, ends⟩
  | aborted message final =>
      rw [ran] at ends
      exact Or.inr ⟨message, final, rfl, ends⟩
  | blocked final =>
      rw [ran] at ends
      exact ends.elim

end Program

/-! ## Sequential runs -/

/-- The states between the programs of a sequence.  Each program is on offer in
the state it starts from, all its operations meet the condition, and it
finishes. -/
inductive SequentialRun (handle : Handler E S)
    (offers : S → Set (Program E Unit))
    (condition : E.Op → S → Prop)
    (initial : S) : S → Prop
  | initial : SequentialRun handle offers condition initial initial
  | call {before after : S}
      (reached : SequentialRun handle offers condition initial before)
      (program : Program E Unit) (offered : program ∈ offers before)
      (allowed : ∀ entry ∈ program.performed handle before,
        condition entry.1 entry.2)
      (finishes : program.run handle before = .finished () after) :
      SequentialRun handle offers condition initial after

variable {handle : Handler E S} {offers : S → Set (Program E Unit)} {initial state : S}

/-- What holds at the beginning and is kept by every program on offer holds
between any two programs. -/
theorem SequentialRun.invariant (contract : Contract E S) (property : S → Prop)
    (initially : property initial)
    (kept : ∀ before, property before → ∀ program ∈ offers before,
      program.Meets handle contract (fun _ after => property after) before)
    (reached : SequentialRun handle offers contract.assumes initial state) :
    property state := by
  induction reached with
  | initial => exact initially
  | call _ program offered allowed finishes inductionHypothesis =>
      have ends := ((kept _ inductionHypothesis program offered).run allowed).2
      rw [finishes] at ends
      exact ends

/-- A sequence of programs between which the surroundings may change the
state. -/
inductive DisturbedRun (handle : Handler E S)
    (offers : S → Set (Program E Unit))
    (condition : E.Op → S → Prop) (disturbs : S → S → Prop)
    (initial : S) : S → Prop
  | initial : DisturbedRun handle offers condition disturbs initial initial
  | call {before after : S}
      (reached : DisturbedRun handle offers condition disturbs initial before)
      (program : Program E Unit) (offered : program ∈ offers before)
      (allowed : ∀ entry ∈ program.performed handle before,
        condition entry.1 entry.2)
      (finishes : program.run handle before = .finished () after) :
      DisturbedRun handle offers condition disturbs initial after
  | disturbed {before after : S}
      (reached : DisturbedRun handle offers condition disturbs initial before)
      (changes : disturbs before after) :
      DisturbedRun handle offers condition disturbs initial after

/-- What every program on offer and every disturbance keeps. -/
theorem DisturbedRun.invariant {disturbs : S → S → Prop} (contract : Contract E S)
    (property : S → Prop) (initially : property initial)
    (kept : ∀ before, property before → ∀ program ∈ offers before,
      program.Meets handle contract (fun _ after => property after) before)
    (undisturbed : ∀ before after, property before → disturbs before after →
      property after)
    (reached : DisturbedRun handle offers contract.assumes disturbs initial state) :
    property state := by
  induction reached with
  | initial => exact initially
  | call _ program offered allowed finishes inductionHypothesis =>
      have ends := ((kept _ inductionHypothesis program offered).run allowed).2
      rw [finishes] at ends
      exact ends
  | disturbed _ changes inductionHypothesis =>
      exact undisturbed _ _ inductionHypothesis changes

end UmmapIo
