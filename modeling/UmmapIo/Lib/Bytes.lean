import Mathlib.Data.Nat.Init

/-!
# Ranges of cells in an unbounded array

An array is a function of the position.  `blit` overwrites a range of an array
with the beginning of another one, as a block copy does.
-/

namespace UmmapIo

variable {α : Type}

/-- Overwrite `length` cells of `target` from `start` on with the first cells
of `source`. -/
def blit (target : Nat → α) (start length : Nat)
    (source : Nat → α) : Nat → α :=
  fun position =>
    if start ≤ position ∧ position < start + length then
      source (position - start)
    else
      target position

variable {start length position : Nat}

theorem blit_inside (target source : Nat → α) (lower : start ≤ position)
    (upper : position < start + length) :
    blit target start length source position = source (position - start) :=
  if_pos ⟨lower, upper⟩

/-- A cell before or after the overwritten range. -/
theorem blit_outside (target source : Nat → α)
    (outside : position < start ∨ start + length ≤ position) :
    blit target start length source position = target position := by
  unfold blit
  rw [if_neg]
  omega

/-- Only the cells that are copied matter. -/
theorem blit_congr {source source' : Nat → α}
    (same : ∀ index, index < length → source index = source' index)
    (target : Nat → α) (start : Nat) :
    blit target start length source = blit target start length source' := by
  funext position
  unfold blit
  split
  · exact same _ (by omega)
  · rfl

/-- A shorter copy is as good when the rest is there already. -/
theorem blit_shorter {target source : Nat → α} {short long : Nat}
    (shorter : short ≤ long)
    (there : ∀ index, short ≤ index → index < long →
      source index = target (start + index)) :
    blit target start short source = blit target start long source := by
  funext position
  unfold blit
  by_cases moved : start ≤ position ∧ position < start + short
  · rw [if_pos moved, if_pos (by omega)]
  · rw [if_neg moved]
    split
    · rw [there (position - start) (by omega) (by omega)]
      congr 1
      omega
    · rfl

theorem blit_buffer (target buffer : Nat → α) (start length : Nat) (source : Nat → α) :
    blit target start length (blit buffer 0 length source) =
      blit target start length source := by
  funext position
  by_cases inside : start ≤ position ∧ position < start + length
  · obtain ⟨lower, upper⟩ := inside
    rw [blit_inside _ _ lower upper, blit_inside _ _ lower upper]
    exact blit_inside _ _ (Nat.zero_le _) (by omega)
  · have outside : position < start ∨ start + length ≤ position := by
      omega
    rw [blit_outside _ _ outside, blit_outside _ _ outside]

variable {size block : Nat}

/-- The block of a given size that holds a position. -/
theorem div_eq_iff_block (positive : 0 < size) :
    position / size = block ↔
      size * block ≤ position ∧ position < size * block + size := by
  constructor
  · intro equal
    subst equal
    exact ⟨Nat.mul_div_le position size,
      Nat.lt_mul_div_succ position positive⟩
  · rintro ⟨lower, upper⟩
    apply Nat.div_eq_of_lt_le
    · rw [Nat.mul_comm]
      exact lower
    · rw [Nat.mul_comm, Nat.mul_succ]
      exact upper

theorem blit_block (target source : Nat → α) (positive : 0 < size)
    (inBlock : position / size = block) :
    blit target (size * block) size source position =
      source (position - size * block) := by
  obtain ⟨lower, upper⟩ := (div_eq_iff_block positive).mp inBlock
  exact blit_inside target source lower upper

theorem blit_otherBlock (target source : Nat → α) (positive : 0 < size)
    (different : position / size ≠ block) :
    blit target (size * block) size source position = target position := by
  apply blit_outside
  rw [Ne, div_eq_iff_block positive] at different
  omega

end UmmapIo
