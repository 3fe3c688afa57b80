import UmmapIo.Lib.Program

/-!
# Calls one after the other

A client makes one call after the other and collects their results.  When every call
computes a function of some part of the state, so does the whole sequence, and what
every call keeps holds at the end.
-/

namespace UmmapIo

namespace Outcome

variable {S T C α : Type}

/-- Run calls one after the other and collect their results. -/
def runAll (run : C → S → Outcome S α) : List C → S → Outcome S (List α)
  | [], state => .finished [] state
  | call :: rest, state =>
      (run call state).andThen fun value state' =>
        (runAll run rest state').andThen
          fun values final => .finished (value :: values) final

/-- Results and effect of calls that compute functions. -/
def effectAll (effect : C → T → α × T) : List C → T → List α × T
  | [], start => ([], start)
  | call :: rest, start =>
      ((effect call start).1 :: (effectAll effect rest (effect call start).2).1,
        (effectAll effect rest (effect call start).2).2)

variable {run : C → S → Outcome S α} {effect : C → T → α × T}

/-- Calls that all finish and compute functions. -/
theorem runAll_finishes {calls : List C} (embed : T → S)
    (finishes : ∀ call ∈ calls, ∀ start,
      run call (embed start) =
        .finished (effect call start).1 (embed (effect call start).2))
    (start : T) :
    runAll run calls (embed start) =
      .finished (effectAll effect calls start).1
        (embed (effectAll effect calls start).2) := by
  induction calls generalizing start with
  | nil => rfl
  | cons call rest inductionHypothesis =>
      unfold runAll effectAll
      rw [finishes call List.mem_cons_self, andThen_finished,
        inductionHypothesis
          fun other member => finishes other (List.mem_cons_of_mem _ member)]
      rfl

theorem runAll_append (first second : List C) (state : S) :
    runAll run (first ++ second) state =
      (runAll run first state).andThen fun values middle =>
        (runAll run second middle).andThen fun more final =>
          .finished (values ++ more) final := by
  induction first generalizing state with
  | nil => exact (andThen_id _).symm
  | cons call rest inductionHypothesis =>
      simp only [List.cons_append, runAll, inductionHypothesis, andThen_assoc,
        andThen_finished]

/-- What every call keeps holds at the end of a sequence that finishes. -/
theorem runAll_invariant (property : S → Prop) {calls : List C} {state final : S}
    {values : List α}
    (kept : ∀ call ∈ calls, ∀ before value after, property before →
      run call before = .finished value after → property after)
    (holds : property state)
    (finished : runAll run calls state = .finished values final) :
    property final := by
  induction calls generalizing state values with
  | nil =>
      cases finished
      exact holds
  | cons call rest inductionHypothesis =>
      unfold runAll at finished
      obtain ⟨value, middle, first, more⟩ := andThen_eq_finished.mp finished
      obtain ⟨others, last, follows, same⟩ := andThen_eq_finished.mp more
      cases same
      exact inductionHypothesis
        (fun other member => kept other (List.mem_cons_of_mem _ member))
        (kept call List.mem_cons_self state value middle holds first) follows

/-- What every call keeps holds after the effect of a sequence. -/
theorem effectAll_invariant (property : T → Prop)
    (kept : ∀ call start, property start → property (effect call start).2)
    (calls : List C) {start : T} (holds : property start) :
    property (effectAll effect calls start).2 := by
  induction calls generalizing start with
  | nil => exact holds
  | cons call rest inductionHypothesis =>
      exact inductionHypothesis (kept call start holds)

/-- A change of the start that every call carries along. -/
theorem effectAll_carry {calls : List C} (carry : T → T)
    (commutes : ∀ call ∈ calls, ∀ start,
      effect call (carry start) =
        ((effect call start).1, carry (effect call start).2))
    (start : T) :
    effectAll effect calls (carry start) =
      ((effectAll effect calls start).1,
        carry (effectAll effect calls start).2) := by
  induction calls generalizing start with
  | nil => rfl
  | cons call rest inductionHypothesis =>
      unfold effectAll
      rw [commutes call List.mem_cons_self,
        inductionHypothesis
          fun other member => commutes other (List.mem_cons_of_mem _ member)]

end Outcome

end UmmapIo
