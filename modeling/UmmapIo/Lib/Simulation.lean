import UmmapIo.Lib.Program

/-!
# Programs that perform operations of one kind

A program keeps to a kind of operations when no run of it, whatever the answers
are, performs any other one.  Two machines that answer the operations of a kind
alike cannot be told apart by such a program, also where the second machine needs a
program of its own for every operation of the first.
-/

namespace UmmapIo
namespace Program

variable {E : Signature} {S S' α β : Type} {kind : E.Op → Prop}

/-- Every operation that the program may perform is of this kind. -/
def Performs (kind : E.Op → Prop) : Program E α → Prop
  | .done _ => True
  | .abort _ => True
  | .perform op next => kind op ∧ ∀ result, (next result).Performs kind

namespace Performs

variable {program : Program E α}

theorem bind {next : α → Program E β} (first : program.Performs kind)
    (second : ∀ value, (next value).Performs kind) :
    (program >>= next).Performs kind := by
  induction program with
  | done value => exact second value
  | abort message => trivial
  | perform op rest inductionHypothesis =>
      exact ⟨first.1, fun result => inductionHypothesis result (first.2 result)⟩

theorem request {op : E.Op} (allowed : kind op) :
    (Program.request op).Performs kind :=
  ⟨allowed, fun _ => trivial⟩

theorem assume (condition : Bool) (message : String) :
    (Program.assume condition message : Program E Unit).Performs kind := by
  cases condition <;> trivial

theorem when {program : Program E Unit} (condition : Bool)
    (performs : program.Performs kind) :
    (Program.when condition program).Performs kind := by
  cases condition with
  | true => exact performs
  | false => trivial

theorem each {body : β → Program E Unit}
    (performs : ∀ item, (body item).Performs kind)
    (items : List β) :
    (Program.each body items).Performs kind := by
  induction items with
  | nil => trivial
  | cons item rest inductionHypothesis =>
      exact (performs item).bind fun _ => inductionHypothesis

theorem mono {weaker : E.Op → Prop} (performs : program.Performs kind)
    (allowed : ∀ op, kind op → weaker op) :
    program.Performs weaker := by
  induction program with
  | done value => trivial
  | abort message => trivial
  | perform op rest inductionHypothesis =>
      exact ⟨allowed op performs.1,
        fun result => inductionHypothesis result (performs.2 result)⟩

/-- Replacing other operations changes nothing. -/
theorem expand_eq {replace : (op : E.Op) → Program E (E.Result op)}
    (performs : program.Performs kind)
    (fixed : ∀ op, kind op → replace op = Program.request op) :
    program.expand replace = program := by
  induction program with
  | done value => rfl
  | abort message => rfl
  | perform op rest inductionHypothesis =>
      rw [expand_perform, fixed op performs.1, Program.request, perform_bind]
      congr 1
      funext result
      exact inductionHypothesis result (performs.2 result)

variable {handle : Handler E S} {state final : S} {value : α}

/-- What the operations of the kind keep holds at the end of a run. -/
theorem invariant {holds : S → Prop}
    (kept : ∀ op, kind op → ∀ state result after,
      handle op state = some (result, after) → holds state → holds after)
    (performs : program.Performs kind)
    (before : holds state)
    (finished : program.run handle state = .finished value final) :
    holds final := by
  induction program generalizing state with
  | done result =>
      rw [run_done, Outcome.finished.injEq] at finished
      rw [← finished.2]
      exact before
  | abort message => cases finished
  | perform op next inductionHypothesis =>
      rw [run_perform] at finished
      cases answer : handle op state with
      | none =>
          rw [answer] at finished
          cases finished
      | some pair =>
          rw [answer] at finished
          exact inductionHypothesis pair.1 (performs.2 pair.1)
            (kept op performs.1 state pair.1 pair.2 answer before) finished

/-- Related states stay related, and a run that finishes on one machine finishes
on the other one with the same value. -/
theorem run_expand {F : Signature} {replace : (op : E.Op) → Program F (E.Result op)}
    {handle' : Handler F S'} {related : S → S' → Prop}
    (answers : ∀ op, kind op → ∀ state state' result after, related state state' →
      handle op state = some (result, after) →
        ∃ after', (replace op).run handle' state' = .finished result after' ∧
          related after after')
    (performs : program.Performs kind)
    {state' : S'}
    (before : related state state')
    (finished : program.run handle state = .finished value final) :
    ∃ final', (program.expand replace).run handle' state' =
        .finished value final' ∧
      related final final' := by
  induction program generalizing state state' with
  | done result =>
      rw [run_done, Outcome.finished.injEq] at finished
      obtain ⟨rfl, rfl⟩ := finished
      exact ⟨state', rfl, before⟩
  | abort message => cases finished
  | perform op next inductionHypothesis =>
      rw [run_perform] at finished
      cases answer : handle op state with
      | none =>
          rw [answer] at finished
          cases finished
      | some pair =>
          obtain ⟨result, after⟩ := pair
          rw [answer] at finished
          obtain ⟨after', answered, still⟩ := answers op performs.1 state state'
            result after before answer
          rw [expand_perform, run_bind, answered]
          exact inductionHypothesis result (performs.2 result) still finished

end Performs

end Program
end UmmapIo
