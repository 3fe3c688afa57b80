import UmmapIo.Policy.Touch

/-!
# How the eviction loop ends

The loop stops at the check on the number of evictions when the elements it may
still take do not bring the counter within the limit and another one is left.
It goes on for ever when there are fewer elements than that and all of them are
not enough.  Both are decided by the ring and the counter at the beginning.
-/

namespace UmmapIo
namespace Policy

variable {M Q : Type} [DecidableEq M] {mappings : M → Mapping}

/-! ## The loop -/

section EvictLoop

variable {ring : List (ListElement M)} {policy : Policy M Q} {cntIdsToEvict : Nat}

/-- The loop does nothing within the limit. -/
theorem evictLoop_of_within
    (within : policy.currentMemory ≤ policy.dynamicMaxMemory) :
    evictLoop mappings cntIdsToEvict ring policy =
      .ok ([], policy.setRing ring) := by
  cases ring with
  | nil => exact if_pos within
  | cons element rest => exact if_pos within

/-- The loop on a ring that is not empty fails when it fails after a round, or
at the check of the round. -/
theorem evictLoop_cons_eq_error_iff {element : ListElement M} {stop : Stop}
    (stores : policy.Stores mappings element) :
    evictLoop mappings cntIdsToEvict (element :: ring) policy = .error stop ↔
      policy.dynamicMaxMemory < policy.currentMemory ∧
        if cntIdsToEvict + 1 < maxIdsToEvict then
          evictLoop mappings (cntIdsToEvict + 1) ring
            (policy.decrease (elementSize mappings element)) = .error stop
        else stop = .fatal reachMaximum := by
  rw [evictLoop_cons cntIdsToEvict stores]
  split
  · rename_i within
    constructor
    · intro absurdity
      cases absurdity
    · rintro ⟨above, _⟩
      exact absurd within (Nat.not_le.mpr above)
  · rename_i above
    rw [and_iff_right (Nat.not_le.mp above)]
    split
    · exact Fallible.map_eq_error
    · rw [Except.error.injEq]
      exact eq_comm

omit [DecidableEq M] in
/-- What a round of the loop leaves for the next one. -/
theorem decrease_covers {element : ListElement M}
    (stores : ∀ other ∈ element :: ring, policy.Stores mappings other)
    (covered : weight (elementSize mappings) (element :: ring) ≤
      policy.currentMemory)
    (small : policy.currentMemory < wordModulus) :
    let taken := policy.decrease (elementSize mappings element)
    (∀ other ∈ ring, taken.Stores mappings other) ∧
      taken.currentMemory + elementSize mappings element =
        policy.currentMemory ∧
      weight (elementSize mappings) ring ≤ taken.currentMemory ∧
      taken.currentMemory < wordModulus := by
  rw [weight_cons] at covered
  have enough : elementSize mappings element ≤ policy.currentMemory := by
    omega
  have decreased := wordSub_of_le enough small
  refine ⟨fun other member => stores other (List.mem_cons_of_mem _ member),
    ?_, ?_, ?_⟩ <;> rw [decrease_currentMemory, decreased] <;> omega

theorem evictLoop_eq_error {stop : Stop}
    (stores : ∀ element ∈ ring, policy.Stores mappings element)
    (fails : evictLoop mappings cntIdsToEvict ring policy = .error stop) :
    stop = .endless ∨ stop = .fatal reachMaximum := by
  induction ring generalizing cntIdsToEvict policy with
  | nil =>
      unfold evictLoop at fails
      split at fails
      · cases fails
      · cases fails
        exact Or.inl rfl
  | cons element rest inductionHypothesis =>
      obtain ⟨_, next⟩ := (evictLoop_cons_eq_error_iff
        (stores element List.mem_cons_self)).mp fails
      split at next
      · have restStores : ∀ other ∈ rest,
            (policy.decrease (elementSize mappings element)).Stores mappings other :=
          fun other member => stores other (List.mem_cons_of_mem _ member)
        exact inductionHypothesis restStores next
      · exact Or.inr next

section

variable (stores : ∀ element ∈ ring, policy.Stores mappings element)
variable (covered : weight (elementSize mappings) ring ≤ policy.currentMemory)
variable (small : policy.currentMemory < wordModulus)
variable (room : cntIdsToEvict < maxIdsToEvict)
include stores covered small room

/-- The loop goes on for ever when the whole ring is not enough. -/
theorem evictLoop_eq_endless_iff :
    evictLoop mappings cntIdsToEvict ring policy = .error .endless ↔
      cntIdsToEvict + ring.length < maxIdsToEvict ∧
        policy.dynamicMaxMemory + weight (elementSize mappings) ring <
          policy.currentMemory := by
  induction ring generalizing cntIdsToEvict policy with
  | nil =>
      unfold evictLoop
      split
      · simp
        omega
      · simp
        omega
  | cons element rest inductionHypothesis =>
      rw [evictLoop_cons_eq_error_iff (stores element List.mem_cons_self),
        weight_cons, List.length_cons]
      obtain ⟨restStores, memory, restCovered, restSmall⟩ :=
        decrease_covers stores covered small
      split
      · rename_i next
        rw [inductionHypothesis restStores restCovered restSmall next,
          decrease_toPolicySettings]
        omega
      · simp
        omega

/-- The loop fails at the check when the elements it may take are not enough and
another one is left. -/
theorem evictLoop_eq_reachMaximum_iff :
    evictLoop mappings cntIdsToEvict ring policy = .error (.fatal reachMaximum) ↔
      maxIdsToEvict ≤ cntIdsToEvict + ring.length ∧
        policy.dynamicMaxMemory + weight (elementSize mappings)
          (ring.take (maxIdsToEvict - 1 - cntIdsToEvict)) <
            policy.currentMemory := by
  induction ring generalizing cntIdsToEvict policy with
  | nil =>
      unfold evictLoop
      split
      · simp
        omega
      · simp
        omega
  | cons element rest inductionHypothesis =>
      rw [evictLoop_cons_eq_error_iff (stores element List.mem_cons_self),
        List.length_cons]
      obtain ⟨restStores, memory, restCovered, restSmall⟩ :=
        decrease_covers stores covered small
      split
      · rename_i next
        have taken : maxIdsToEvict - 1 - cntIdsToEvict =
            (maxIdsToEvict - 1 - (cntIdsToEvict + 1)) + 1 := by
          omega
        rw [inductionHypothesis restStores restCovered restSmall next,
          decrease_toPolicySettings, taken, List.take_succ_cons, weight_cons]
        omega
      · have nothing : maxIdsToEvict - 1 - cntIdsToEvict = 0 := by
          omega
        rw [nothing, List.take_zero, weight_nil]
        simp
        omega

end

end EvictLoop

/-! ## The calls -/

section Calls

variable {before : Policy M Q} {cur : ListElement M}

theorem shrinkMemory_ne_endless (balanced : before.Balanced mappings)
    (space : Spacious mappings before.storageRegistry) :
    before.shrinkMemory mappings ≠ .error .endless := by
  intro endless
  have reached := (shrinkMemory_spec balanced space).2 .endless endless
  cases reached

theorem shrinkMemory_eq_reachMaximum_iff (balanced : before.Balanced mappings)
    (space : Spacious mappings before.storageRegistry) :
    before.shrinkMemory mappings = .error (.fatal reachMaximum) ↔
      maxIdsToEvict ≤ before.ring.length ∧
        before.dynamicMaxMemory + weight (elementSize mappings)
          (before.ring.take (maxIdsToEvict - 1)) < before.currentMemory := by
  have counter := balanced.counter
  have small := balanced.currentMemory_lt space
  unfold shrinkMemory
  rw [evictLoop_eq_reachMaximum_iff balanced.stored (by omega)
    (by unfold wordModulus at *; omega) (by decide), Nat.zero_add, Nat.sub_zero]

/-- The ring that the loop of a touch works on. -/
def touchRing (policy : Policy M Q) (cur : ListElement M) :
    List (ListElement M) :=
  match policy.kind with
  | .fifo => policy.ring.erase cur ++ [cur]
  | .lifo => policy.ring.erase cur

/-- The elements that a touch counts but hides from the loop. -/
def touchHidden (policy : Policy M Q) (cur : ListElement M) :
    List (ListElement M) :=
  match policy.kind with
  | .fifo => []
  | .lifo => [cur]

theorem touchRing_parts (policy : Policy M Q) (cur : ListElement M) :
    (policy.touchHidden cur ++ policy.touchRing cur).Perm
      (cur :: policy.ring.erase cur) := by
  unfold touchHidden touchRing
  cases policy.kind with
  | fifo => exact List.perm_append_singleton cur (policy.ring.erase cur)
  | lifo => exact List.Perm.refl _

theorem notifyTouch_eq_error_iff {ndebug : Bool} {stop : Stop}
    (serves : before.Serves cur.1) :
    before.notifyTouch mappings ndebug cur.1 cur.2 = .error stop ↔
      evictLoop mappings 0 (before.touchRing cur)
        (before.counting mappings cur (before.touchRing cur)) =
          .error stop := by
  unfold notifyTouch touchRing
  cases before.kind with
  | fifo =>
      dsimp only
      rw [fifo_notifyTouch_eq serves rfl, Fallible.map_eq_error]
  | lifo =>
      dsimp only
      rw [lifo_notifyTouch_eq serves rfl, Fallible.map_eq_error]

theorem touchRing_loop (balanced : before.Balanced mappings)
    (space : Spacious mappings before.storageRegistry)
    (stores : before.Stores mappings cur) :
    let counted := before.counting mappings cur (before.touchRing cur)
    (∀ element ∈ before.touchRing cur, counted.Stores mappings element) ∧
      counted.dynamicMaxMemory = before.dynamicMaxMemory ∧
      counted.currentMemory =
        weight (elementSize mappings) (before.touchHidden cur) +
          weight (elementSize mappings) (before.touchRing cur) ∧
      counted.currentMemory =
        weight (elementSize mappings) (cur :: before.ring.erase cur) ∧
      counted.currentMemory < wordModulus := by
  obtain ⟨_, _, allStored, _⟩ := balanced.touching stores
  obtain ⟨counter, small⟩ :=
    counting_currentMemory balanced space stores (before.touchRing cur)
  have settings := (counting_settings mappings before cur (before.touchRing cur)).1
  refine ⟨?_, by rw [settings], ?_, counter, small⟩
  · intro element member
    unfold Stores
    rw [settings]
    exact allStored element ((before.touchRing_parts cur).mem_iff.mp
      (List.mem_append_right _ member))
  · rw [counter, ← weight_append]
    exact ((before.touchRing_parts cur).map (elementSize mappings)).sum_eq.symm

section

variable (balanced : before.Balanced mappings)
variable (space : Spacious mappings before.storageRegistry)
variable (serves : before.Serves cur.1) (below : cur.2 < (mappings cur.1).segments)
include balanced space serves below

/-- A touch fails in no other way than its loop. -/
theorem notifyTouch_eq_error {ndebug : Bool} {stop : Stop}
    (fails : before.notifyTouch mappings ndebug cur.1 cur.2 = .error stop) :
    stop = .endless ∨ stop = .fatal reachMaximum := by
  rw [notifyTouch_eq_error_iff serves] at fails
  exact evictLoop_eq_error (touchRing_loop balanced space ⟨serves.1, below⟩).1 fails

/-- When a touch goes on for ever: the LIFO class, a segment above the limit and
fewer other segments than the check allows. -/
theorem notifyTouch_eq_endless_iff {ndebug : Bool} :
    before.notifyTouch mappings ndebug cur.1 cur.2 = .error .endless ↔
      before.kind = .lifo ∧
        before.dynamicMaxMemory < elementSize mappings cur ∧
        (before.ring.erase cur).length < maxIdsToEvict := by
  obtain ⟨allStored, limit, counter, _, small⟩ :=
    touchRing_loop balanced space ⟨serves.1, below⟩
  rw [notifyTouch_eq_error_iff serves,
    evictLoop_eq_endless_iff allStored (by omega) small (by decide), limit,
    counter]
  unfold touchHidden touchRing
  cases before.kind with
  | fifo => simp
  | lifo =>
      simp
      omega

theorem notifyTouch_eq_reachMaximum_iff {ndebug : Bool} :
    before.notifyTouch mappings ndebug cur.1 cur.2 =
        .error (.fatal reachMaximum) ↔
      maxIdsToEvict ≤ (before.touchRing cur).length ∧
        before.dynamicMaxMemory + weight (elementSize mappings)
          ((before.touchRing cur).take (maxIdsToEvict - 1)) <
            weight (elementSize mappings) (cur :: before.ring.erase cur) := by
  obtain ⟨allStored, limit, counter, total, small⟩ :=
    touchRing_loop balanced space ⟨serves.1, below⟩
  rw [notifyTouch_eq_error_iff serves,
    evictLoop_eq_reachMaximum_iff allStored (by omega) small (by decide), limit,
    total, Nat.zero_add, Nat.sub_zero]

end

end Calls

end Policy
end UmmapIo
