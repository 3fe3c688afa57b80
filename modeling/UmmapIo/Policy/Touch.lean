import UmmapIo.Policy.Tracking

/-!
# Touches

What the critical section of `notifyTouch` does, for both policy classes.  The
two differ in whether the eviction loop can see the touched element and in what
they remember of the access; both add the element to the ring, take a list of
segments to evict out of it, and leave the counter within the limit.
-/

namespace UmmapIo
namespace Policy

variable {M Q : Type} [DecidableEq M] {mappings : M → Mapping}

variable {before after : Policy M Q} {touch : Touch M} {ndebug : Bool}

/-- What the critical section of `notifyTouch` does. -/
structure Touched (mappings : M → Mapping) (before : Policy M Q) (cur : ListElement M)
    (touch : Touch M)
    (after : Policy M Q) : Prop extends
    Updated mappings before [cur] touch.idsToEvict after where
  within : after.currentMemory ≤ before.dynamicMaxMemory
  memOrig : touch.memOrig = before.currentMemory
  growth : after.currentMemory ≤ before.currentMemory +
    if cur ∈ before.ring then 0 else elementSize mappings cur
  firstAccess : touch.isFirstAccess = true ↔
    before.kind = .fifo ∧ cur ∉ before.ring
  keeps : elementSize mappings cur ≤ before.dynamicMaxMemory →
    cur ∉ touch.idsToEvict

variable {cur : ListElement M}

/-- The elements that are counted while an element is touched. -/
theorem Balanced.touching (balanced : before.Balanced mappings)
    (stores : before.Stores mappings cur) :
    (∀ element, element ∈ cur :: before.ring.erase cur ↔
      element ∈ [cur] ∨ element ∈ before.ring) ∧
    (cur :: before.ring.erase cur).Nodup ∧
    (∀ element ∈ cur :: before.ring.erase cur,
      before.Stores mappings element) ∧
    weight (elementSize mappings) (cur :: before.ring.erase cur) =
      before.currentMemory +
        if cur ∈ before.ring then 0 else elementSize mappings cur := by
  have members (element : ListElement M) :
      element ∈ cur :: before.ring.erase cur ↔
        element ∈ [cur] ∨ element ∈ before.ring := by
    rw [List.mem_cons, balanced.nodup.mem_erase_iff, List.mem_singleton]
    tauto
  refine ⟨members, ?_, ?_, ?_⟩
  · exact List.nodup_cons.mpr ⟨balanced.nodup.not_mem_erase,
      balanced.nodup.erase cur⟩
  · intro element member
    obtain self | listed := (members element).mp member
    · rw [List.mem_singleton] at self
      rw [self]
      exact stores
    · exact balanced.stored element listed
  · rw [weight_cons, balanced.counter]
    split
    · rename_i listed
      have total := weight_erase (elementSize mappings) listed
      omega
    · rename_i absent
      rw [List.erase_of_not_mem absent]
      omega

/-- The policy that enters the loop when an element is touched: the ring the
loop works on, and the counter with a new element added. -/
def counting (mappings : M → Mapping) (policy : Policy M Q) (cur : ListElement M)
    (ring : List (ListElement M)) : Policy M Q :=
  if decide (cur ∉ policy.ring) then
    (policy.setRing ring).increase (mappings cur.1).segmentSize
  else policy.setRing ring

theorem counting_settings (mappings : M → Mapping) (policy : Policy M Q)
    (cur : ListElement M) (ring : List (ListElement M)) :
    (policy.counting mappings cur ring).toPolicySettings =
        policy.toPolicySettings ∧
      (policy.counting mappings cur ring).trace = policy.trace ∧
      (policy.counting mappings cur ring).ring = ring := by
  unfold counting
  split <;> exact ⟨rfl, rfl, rfl⟩

variable {ring : List (ListElement M)}

/-- The FIFO policy lets the loop see the touched element, at the end. -/
theorem fifo_notifyTouch_eq (serves : before.Serves cur.1)
    (inserted : ring = before.ring.erase cur ++ [cur]) :
    FifoPolicy.notifyTouch mappings ndebug before cur.1 cur.2 =
      (evictLoop mappings 0 ring (before.counting mappings cur ring)).map
        fun result =>
          (⟨result.1, decide (cur ∉ before.ring), before.currentMemory⟩,
            result.2) := by
  have same : (before.counting mappings cur ring).ring = ring :=
    (counting_settings mappings before cur ring).2.2
  subst inserted
  unfold FifoPolicy.notifyTouch
  rw [getStorageInfo_of_serves serves]
  change (evictLoop mappings 0
      (before.counting mappings cur (before.ring.erase cur ++ [cur])).ring
      (before.counting mappings cur (before.ring.erase cur ++ [cur])) >>=
    fun result => _) = _
  rw [same]
  cases evictLoop mappings 0 (before.ring.erase cur ++ [cur])
    (before.counting mappings cur (before.ring.erase cur ++ [cur])) <;> rfl

/-- The LIFO policy hides the touched element from the loop. -/
theorem lifo_notifyTouch_eq (serves : before.Serves cur.1)
    (removed : ring = before.ring.erase cur) :
    LifoPolicy.notifyTouch mappings ndebug before cur.1 cur.2 =
      (evictLoop mappings 0 ring (before.counting mappings cur ring)).map
        fun result =>
          (⟨result.1, false, before.currentMemory⟩,
            result.2.setRing (cur :: result.2.ring)) := by
  have same : (before.counting mappings cur ring).ring = ring :=
    (counting_settings mappings before cur ring).2.2
  subst removed
  unfold LifoPolicy.notifyTouch
  rw [getStorageInfo_of_serves serves]
  change (evictLoop mappings 0
      (before.counting mappings cur (before.ring.erase cur)).ring
      (before.counting mappings cur (before.ring.erase cur)) >>=
    fun result => _) = _
  rw [same]
  cases evictLoop mappings 0 (before.ring.erase cur)
    (before.counting mappings cur (before.ring.erase cur)) <;> rfl

theorem counting_currentMemory (balanced : before.Balanced mappings)
    (space : Spacious mappings before.storageRegistry)
    (stores : before.Stores mappings cur) (ring : List (ListElement M)) :
    (before.counting mappings cur ring).currentMemory =
        weight (elementSize mappings) (cur :: before.ring.erase cur) ∧
      (before.counting mappings cur ring).currentMemory < wordModulus := by
  have small := balanced.currentMemory_add_lt space stores.1
  have total := (balanced.touching stores).2.2.2
  rw [total]
  unfold counting
  by_cases listed : cur ∈ before.ring
  · rw [if_pos listed, if_neg (by simpa using listed), setRing_currentMemory]
    exact ⟨rfl, by omega⟩
  · rw [if_neg listed, if_pos (by simpa using listed), increase_currentMemory,
      setRing_currentMemory, wordAdd_of_lt small]
    exact ⟨rfl, small⟩

section

variable (balanced : before.Balanced mappings)
variable (space : Spacious mappings before.storageRegistry)
variable (serves : before.Serves cur.1) (below : cur.2 < (mappings cur.1).segments)
include balanced space serves below

/-- The loop that runs when an element is touched.  `extra` are the elements
hidden from it. -/
theorem counting_loop {extra : List (ListElement M)}
    (parts : (extra ++ ring).Perm (cur :: before.ring.erase cur)) :
    (∀ idsToEvict looped,
      evictLoop mappings 0 ring (before.counting mappings cur ring) =
          .ok (idsToEvict, looped) →
        Looped mappings (before.counting mappings cur ring) ring idsToEvict looped ∧
          Updated mappings before [cur] idsToEvict
            (looped.setRing (extra ++ looped.ring)) ∧
          looped.currentMemory ≤ before.dynamicMaxMemory ∧
          looped.currentMemory ≤ before.currentMemory +
            if cur ∈ before.ring then 0 else elementSize mappings cur) ∧
    (∀ stop,
      evictLoop mappings 0 ring (before.counting mappings cur ring) =
          .error stop →
        weight (elementSize mappings) extra ≤ before.dynamicMaxMemory →
        stop = .fatal reachMaximum) := by
  have stores : before.Stores mappings cur := ⟨serves.1, below⟩
  have served : ∀ element ∈ [cur], before.Serves element.1 :=
    List.forall_mem_singleton.mpr serves
  obtain ⟨members, nodup, allStored, total⟩ := balanced.touching stores
  obtain ⟨counter, small⟩ := counting_currentMemory balanced space stores ring
  obtain ⟨settings, trace, _⟩ :=
    counting_settings mappings before cur ring
  have cover : weight (elementSize mappings) extra +
      weight (elementSize mappings) ring =
        (before.counting mappings cur ring).currentMemory := by
    rw [counter, ← weight_append]
    exact (parts.map (elementSize mappings)).sum_eq
  have ringStored : ∀ element ∈ ring,
      (before.counting mappings cur ring).Stores mappings element := by
    intro element member
    unfold Stores
    rw [settings]
    exact allStored element (parts.mem_iff.mp (List.mem_append_right extra member))
  obtain ⟨ends, fails⟩ := evictLoop_spec 0 ringStored (by omega) small
  constructor
  · intro idsToEvict looped looping
    have done := ends idsToEvict looped looping
    refine ⟨done, ?_, ?_, ?_⟩
    · exact done.updated settings trace members nodup allStored served parts
        counter
    · rw [← settings]
      exact done.within
    · have decreased := done.counter
      omega
  · intro stop looping room
    apply fails stop looping
    rw [settings]
    omega

/-- The critical section of the FIFO class: the loop runs on the ring with the
touched element at the end, and leaves it exactly if it fits in the limit. -/
theorem fifo_notifyTouch_ok (kind : before.kind = .fifo)
    (ends : before.notifyTouch mappings ndebug cur.1 cur.2 =
      .ok (touch, after)) :
    Touched mappings before cur touch after ∧
      (cur ∉ touch.idsToEvict ↔
        elementSize mappings cur ≤ before.dynamicMaxMemory) := by
  have stores : before.Stores mappings cur := ⟨serves.1, below⟩
  have parts : ([] ++ (before.ring.erase cur ++ [cur])).Perm
      (cur :: before.ring.erase cur) :=
    List.perm_append_singleton cur (before.ring.erase cur)
  unfold notifyTouch at ends
  simp only [kind] at ends
  rw [fifo_notifyTouch_eq serves rfl] at ends
  obtain ⟨⟨idsToEvict, looped⟩, looping, same⟩ := Fallible.map_eq_ok.mp ends
  cases same
  obtain ⟨done, updated, within, growth⟩ :=
    (counting_loop balanced space serves below parts).1 idsToEvict looped looping
  have kept : cur ∉ idsToEvict ↔
      elementSize mappings cur ≤ before.dynamicMaxMemory := by
    rw [done.not_mem_iff (parts.nodup_iff.mpr (balanced.touching stores).2.1)
      ((counting_currentMemory balanced space stores _).1.trans
        (parts.map (elementSize mappings)).sum_eq.symm),
      (counting_settings mappings before cur _).1, weight_cons, weight_nil]
    rfl
  exact ⟨⟨updated, within, rfl, growth, by simp [kind], kept.mpr⟩, kept⟩

/-- The critical section of the LIFO class: the touched element is put back in
front of the ring after the loop. -/
theorem lifo_notifyTouch_ok (kind : before.kind = .lifo)
    (ends : before.notifyTouch mappings ndebug cur.1 cur.2 =
      .ok (touch, after)) :
    Touched mappings before cur touch after ∧
      ∃ kept, after.ring = cur :: kept := by
  have parts : ([cur] ++ before.ring.erase cur).Perm
      (cur :: before.ring.erase cur) := List.Perm.refl _
  unfold notifyTouch at ends
  simp only [kind] at ends
  rw [lifo_notifyTouch_eq serves rfl] at ends
  obtain ⟨⟨idsToEvict, looped⟩, looping, same⟩ := Fallible.map_eq_ok.mp ends
  cases same
  obtain ⟨done, updated, within, growth⟩ :=
    (counting_loop balanced space serves below parts).1 idsToEvict looped looping
  refine ⟨⟨updated, within, rfl, growth, by simp [kind], ?_⟩, _, rfl⟩
  intro _ evicted
  exact updated.unlisted cur evicted List.mem_cons_self

/-- The critical section of either class, when it ends normally. -/
theorem notifyTouch_ok
    (ends : before.notifyTouch mappings ndebug cur.1 cur.2 =
      .ok (touch, after)) :
    Touched mappings before cur touch after := by
  cases kind : before.kind with
  | fifo =>
      exact (fifo_notifyTouch_ok balanced space serves below kind ends).1
  | lifo =>
      exact (lifo_notifyTouch_ok balanced space serves below kind ends).1

/-- A touch of a segment that fits in the limit only fails at the check on the
number of evictions. -/
theorem notifyTouch_error {stop : Stop}
    (fits : elementSize mappings cur ≤ before.dynamicMaxMemory)
    (ends : before.notifyTouch mappings ndebug cur.1 cur.2 = .error stop) :
    stop = .fatal reachMaximum := by
  unfold notifyTouch at ends
  cases kind : before.kind with
  | fifo =>
      have parts : ([] ++ (before.ring.erase cur ++ [cur])).Perm
          (cur :: before.ring.erase cur) :=
        List.perm_append_singleton cur (before.ring.erase cur)
      simp only [kind] at ends
      rw [fifo_notifyTouch_eq serves rfl, Fallible.map_eq_error] at ends
      exact (counting_loop balanced space serves below parts).2 stop ends
        (Nat.zero_le _)
  | lifo =>
      have parts : ([cur] ++ before.ring.erase cur).Perm
          (cur :: before.ring.erase cur) := List.Perm.refl _
      simp only [kind] at ends
      rw [lifo_notifyTouch_eq serves rfl, Fallible.map_eq_error] at ends
      exact (counting_loop balanced space serves below parts).2 stop ends
        (by simpa using fits)

end

end Policy
end UmmapIo
