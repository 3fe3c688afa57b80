import Mathlib.Algebra.Group.Nat.Defs

/-!
# Machine words

Unsigned arithmetic of 64 bits on natural numbers.
-/

namespace UmmapIo

/-- Number of values of a 64-bit word. -/
def wordModulus : Nat := 2 ^ 64

/-- Addition of unsigned words. -/
def wordAdd (left right : Nat) : Nat :=
  (left + right) % wordModulus

/-- Subtraction of unsigned words. -/
def wordSub (left right : Nat) : Nat :=
  (left + (wordModulus - right % wordModulus)) % wordModulus

/-- The difference of two words is positive when read as a signed word. -/
def wordIncreased (now before : Nat) : Bool :=
  decide (0 < wordSub now before) && decide (wordSub now before < wordModulus / 2)

theorem wordAdd_of_lt {left right : Nat} (small : left + right < wordModulus) :
    wordAdd left right = left + right :=
  Nat.mod_eq_of_lt small

theorem wordSub_of_le {left right : Nat} (enough : right ≤ left)
    (small : left < wordModulus) :
    wordSub left right = left - right := by
  unfold wordSub wordModulus at *
  omega

/-- On the lower half of the words, the signed difference is positive exactly
when the value grew. -/
theorem wordIncreased_iff {now before : Nat} (nowSmall : now < wordModulus / 2)
    (beforeSmall : before < wordModulus / 2) :
    wordIncreased now before = true ↔ before < now := by
  unfold wordIncreased wordSub wordModulus at *
  rw [Bool.and_eq_true, decide_eq_true_eq, decide_eq_true_eq]
  omega

end UmmapIo
