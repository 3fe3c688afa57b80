import Mathlib.Logic.Basic

/-!
# Computations that may fail

Inversion of compositions of fallible computations: what the parts did when the
whole returned, and which part failed when it did not.  Two computations match when
they fail alike or return related values.
-/

namespace UmmapIo
namespace Fallible

variable {ε α β : Type} {first : Except ε α}

theorem bind_eq_ok {next : α → Except ε β} {result : β} :
    (first >>= next) = .ok result ↔
      ∃ value, first = .ok value ∧ next value = .ok result := by
  cases first with
  | error failure =>
      constructor
      · intro equal
        cases equal
      · rintro ⟨value, absurdity, _⟩
        cases absurdity
  | ok value =>
      constructor
      · intro equal
        exact ⟨value, rfl, equal⟩
      · rintro ⟨value', same, equal⟩
        cases same
        exact equal

theorem bind_eq_error {next : α → Except ε β} {failure : ε} :
    (first >>= next) = .error failure ↔
      first = .error failure ∨
        ∃ value, first = .ok value ∧ next value = .error failure := by
  cases first with
  | error failure' => simp [Bind.bind, Except.bind]
  | ok value => simp [Bind.bind, Except.bind]

theorem map_eq_ok {change : α → β} {result : β} :
    first.map change = .ok result ↔
      ∃ value, first = .ok value ∧ change value = result := by
  cases first with
  | error failure => simp [Except.map]
  | ok value => simp [Except.map]

theorem map_pair_eq_ok {label expected : β} {value : α} :
    (first.map fun value => (label, value)) = .ok (expected, value) ↔
      expected = label ∧ first = .ok value := by
  cases first with
  | error failure => simp [Except.map]
  | ok value => simp [Except.map, eq_comm]

theorem map_eq_error {change : α → β} {failure : ε} :
    first.map change = .error failure ↔ first = .error failure := by
  cases first with
  | error failure' => simp [Except.map]
  | ok value => simp [Except.map]

end Fallible
end UmmapIo
