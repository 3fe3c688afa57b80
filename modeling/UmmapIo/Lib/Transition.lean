import Mathlib.Logic.Basic

/-!
# Systems that move by actions

A system is given by a partial function that says where an action leads.  Runs
may be restricted to actions that meet a condition in the state in which they
are taken.  What holds at the beginning and is kept by every such action holds
in every state of every run.
-/

namespace UmmapIo

variable {S A : Type}

/-- The states reached by actions that all meet the condition. -/
inductive ReachableBy (step : S → A → Option S) (condition : S → A → Prop)
    (initial : S) : S → Prop
  | initial : ReachableBy step condition initial initial
  | step {before after : S}
      (reached : ReachableBy step condition initial before)
      (action : A) (allowed : condition before action)
      (moved : step before action = some after) :
      ReachableBy step condition initial after

variable {step : S → A → Option S} {condition : S → A → Prop} {initial : S}

/-- The induction over runs. -/
theorem ReachableBy.invariant {state : S} (property : S → Prop)
    (initially : property initial)
    (kept : ∀ before after action, property before → condition before action →
      step before action = some after → property after)
    (reached : ReachableBy step condition initial state) :
    property state := by
  induction reached with
  | initial => exact initially
  | step _ action allowed moved inductionHypothesis =>
      exact kept _ _ action inductionHypothesis allowed moved

/-- Take an action if the condition allows it. -/
def guardedStep (step : S → A → Option S) (condition : S → A → Prop)
    [∀ state action, Decidable (condition state action)] (state : S)
    (action : A) : Option S :=
  if condition state action then step state action else none

/-- Following a list of actions stays among the reachable states. -/
theorem ReachableBy.follow [∀ state action, Decidable (condition state action)]
    {before after : S}
    (reached : ReachableBy step condition initial before)
    (actions : List A)
    (follows : actions.foldlM (guardedStep step condition) before =
      some after) :
    ReachableBy step condition initial after := by
  induction actions generalizing before with
  | nil =>
      cases follows
      exact reached
  | cons action rest inductionHypothesis =>
      rw [List.foldlM_cons, Option.bind_eq_bind, Option.bind_eq_some_iff] at follows
      obtain ⟨middle, moves, follows⟩ := follows
      refine inductionHypothesis ?_ follows
      unfold guardedStep at moves
      split at moves
      · rename_i allowed
        exact reached.step action allowed moves
      · cases moves

/-- A reachable state with a property, found by following a list of actions. -/
theorem ReachableBy.exists_follow [∀ state action, Decidable (condition state action)]
    {before : S}
    (reached : ReachableBy step condition initial before)
    (actions : List A) (property : S → Bool)
    (finds : (actions.foldlM (guardedStep step condition) before).any property =
      true) :
    ∃ after, ReachableBy step condition initial after ∧ property after = true := by
  obtain ⟨after, follows, holds⟩ := (Option.any_eq_true _ _).mp finds
  exact ⟨after, reached.follow actions follows, holds⟩

end UmmapIo
