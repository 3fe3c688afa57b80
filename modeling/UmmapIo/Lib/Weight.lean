import UmmapIo.Lib.Words
import Mathlib.Algebra.BigOperators.Ring.Finset
import Mathlib.Algebra.Order.BigOperators.Group.Finset
import Mathlib.Algebra.Order.BigOperators.Group.List

/-!
# Word-sized counters of weighted lists

A counter that follows the total weight of a list is a machine word: it wraps
around on overflow and on underflow.  Here are the total weight of a list and the
facts that keep the two in step.
-/

namespace UmmapIo

/-! ## Weights -/

section Weight

variable {α : Type} (size : α → Nat)

/-- Total weight of a list. -/
def weight (items : List α) : Nat :=
  (items.map size).sum

@[simp] theorem weight_nil : weight size [] = 0 := rfl

@[simp] theorem weight_cons (item : α) (items : List α) :
    weight size (item :: items) = size item + weight size items := by
  unfold weight
  rw [List.map_cons, List.sum_cons]

@[simp] theorem weight_append (left right : List α) :
    weight size (left ++ right) = weight size left + weight size right := by
  unfold weight
  rw [List.map_append, List.sum_append]

variable {items : List α}

/-- Taking an element out of a list takes its weight away. -/
theorem weight_erase [BEq α] [LawfulBEq α] {item : α} (member : item ∈ items) :
    weight size (items.erase item) + size item = weight size items := by
  have total := ((List.perm_cons_erase member).map size).sum_eq
  unfold weight
  rw [total, List.map_cons, List.sum_cons]
  omega

/-- A list without repetition weighs at most as much as any finite set that
holds its elements. -/
theorem weight_le_sum (nodup : items.Nodup) (holder : Finset α)
    (held : ∀ item ∈ items, item ∈ holder) :
    weight size items ≤ ∑ item ∈ holder, size item := by
  classical
  unfold weight
  rw [← List.sum_toFinset size nodup]
  apply Finset.sum_le_sum_of_subset
  intro item member
  exact held item (List.mem_toFinset.mp member)

/-- A finite set weighs at most as much as a list that holds its elements. -/
theorem sum_le_weight (nodup : items.Nodup) (part : Finset α)
    (held : ∀ item ∈ part, item ∈ items) :
    ∑ item ∈ part, size item ≤ weight size items := by
  classical
  unfold weight
  rw [← List.sum_toFinset size nodup]
  apply Finset.sum_le_sum_of_subset
  intro item member
  exact List.mem_toFinset.mpr (held item member)

/-- A list without repetition weighs at most as much as a list that holds its
elements. -/
theorem weight_le_weight {holder : List α} (nodup : items.Nodup)
    (holderNodup : holder.Nodup) (held : ∀ item ∈ items, item ∈ holder) :
    weight size items ≤ weight size holder := by
  classical
  have bound := weight_le_sum size nodup holder.toFinset fun item member =>
    List.mem_toFinset.mpr (held item member)
  rw [List.sum_toFinset size holderNodup] at bound
  exact bound

theorem weight_le_length_mul {bound : Nat}
    (small : ∀ item ∈ items, size item ≤ bound) :
    weight size items ≤ items.length * bound := by
  have total := List.sum_le_card_nsmul (items.map size) bound (by simpa using small)
  simpa [weight] using total

theorem weight_eq_length_mul {amount : Nat}
    (uniform : ∀ item ∈ items, size item = amount) :
    weight size items = items.length * amount := by
  induction items with
  | nil => simp
  | cons item rest inductionHypothesis =>
      rw [weight_cons, uniform item List.mem_cons_self,
        inductionHypothesis fun other member =>
          uniform other (List.mem_cons_of_mem item member),
        List.length_cons, Nat.succ_mul, Nat.add_comm]

end Weight

/-! ## Weights of several lists -/

section Lists

variable {α ι : Type} (size : α → Nat)

theorem weight_sum (holder : Finset α) (part : ι → α → Nat) (indices : List ι) :
    weight (fun index => ∑ item ∈ holder, part index item) indices =
      ∑ item ∈ holder, weight (fun index => part index item) indices := by
  induction indices with
  | nil => simp
  | cons index rest inductionHypothesis =>
      simp only [weight_cons, Finset.sum_add_distrib, inductionHypothesis]

theorem weight_ite (chosen : ι → Bool) (amount : Nat) (indices : List ι) :
    weight (fun index => if chosen index then amount else 0) indices =
      (indices.filter chosen).length * amount := by
  induction indices with
  | nil => simp
  | cons index rest inductionHypothesis =>
      rw [weight_cons, inductionHypothesis, List.filter_cons]
      split
      · rw [List.length_cons, Nat.succ_mul, Nat.add_comm]
      · exact Nat.zero_add _

/-- Lists that together hold every item at most `bound` times weigh at most
`bound` times as much as a set that holds all their items. -/
theorem weight_weight_le [DecidableEq α] (lists : ι → List α) {indices : List ι}
    (holder : Finset α) (bound : Nat)
    (nodup : ∀ index ∈ indices, (lists index).Nodup)
    (held : ∀ index ∈ indices, ∀ item ∈ lists index, item ∈ holder)
    (few : ∀ item ∈ holder,
      (indices.filter fun index => decide (item ∈ lists index)).length ≤ bound) :
    weight (fun index => weight size (lists index)) indices ≤
      bound * ∑ item ∈ holder, size item := by
  have spread : weight (fun index => weight size (lists index)) indices =
      weight (fun index => ∑ item ∈ holder,
        if decide (item ∈ lists index) then size item else 0) indices := by
    unfold weight
    congr 1
    apply List.map_congr_left
    intro index member
    rw [← List.sum_toFinset size (nodup index member)]
    simp only [decide_eq_true_eq]
    rw [← Finset.sum_filter]
    congr 1
    ext item
    rw [List.mem_toFinset, Finset.mem_filter]
    exact ⟨fun listed => ⟨held index member item listed, listed⟩, And.right⟩
  rw [spread, weight_sum, Finset.mul_sum]
  apply Finset.sum_le_sum
  intro item member
  rw [weight_ite]
  exact Nat.mul_le_mul_right _ (few item member)

end Lists

end UmmapIo
