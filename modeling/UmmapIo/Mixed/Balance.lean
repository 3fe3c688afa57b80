import UmmapIo.Mixed.Window
import Mathlib.Data.List.TakeWhile

/-!
# Accounts of the fifo-window policy

Each window of a fifo-window policy is balanced as a FIFO policy is, and the flag
of a listed element tells its window.  Touches, notices and evictions keep this.

A policy spares an element if shrinking cannot take it: the element is not in the
list that is shrunk, or it is the newest one there and fits in the limit.
-/

namespace UmmapIo

/-! ## Balanced lists -/

namespace Policy

variable {M Q : Type} {mappings : M → Mapping}

/-- Limits, quotas and records do not matter for the balance. -/
theorem Balanced.congr {policy other : Policy M Q} (balanced : policy.Balanced mappings)
    (registry : other.storageRegistry = policy.storageRegistry)
    (ring : other.ring = policy.ring)
    (memory : other.currentMemory = policy.currentMemory) :
    other.Balanced mappings where
  nodup := by
    rw [ring]
    exact balanced.nodup
  stored := by
    unfold Stores
    rw [ring, registry]
    exact balanced.stored
  counter := by
    rw [ring, memory]
    exact balanced.counter

variable [DecidableEq M]

theorem Balanced.append {policy : Policy M Q} {cur : ListElement M}
    (balanced : policy.Balanced mappings)
    (space : Spacious mappings policy.storageRegistry)
    (stores : policy.Stores mappings cur) (absent : cur ∉ policy.ring) :
    ((policy.setRing (policy.ring ++ [cur])).increase
      (mappings cur.1).segmentSize).Balanced mappings where
  nodup := by
    refine List.nodup_append.mpr ⟨balanced.nodup, List.nodup_singleton cur, ?_⟩
    rintro element listed last single rfl
    rw [List.mem_singleton] at single
    exact absent (single ▸ listed)
  stored := by
    intro element member
    obtain listed | single := List.mem_append.mp member
    · exact balanced.stored element listed
    · rw [List.mem_singleton] at single
      rw [single]
      exact stores
  counter := by
    have small := balanced.currentMemory_add_lt space stores.1
    rw [increase_currentMemory, setRing_currentMemory, wordAdd_of_lt small,
      increase_ring, setRing_ring, weight_append, weight_cons, weight_nil,
      balanced.counter]
    rfl

/-! ## Elements that are kept -/

/-- The elements from this one on fit in the limit, so that shrinking the policy
leaves it. -/
def Keeps (mappings : M → Mapping) (element : ListElement M)
    (policy : Policy M Q) : Prop :=
  weight (elementSize mappings) (policy.ring.dropWhile (· ≠ element)) ≤
    policy.dynamicMaxMemory

variable {element : ListElement M}

theorem dropWhile_ne_append {older newer : List (ListElement M)}
    (fresh : element ∉ older) :
    (older ++ element :: newer).dropWhile (· ≠ element) = element :: newer := by
  rw [List.dropWhile_append_of_pos, List.dropWhile_cons_of_neg (by simp)]
  exact fun _ member => decide_eq_true (ne_of_mem_of_not_mem member fresh)

theorem dropWhile_ne_of_not_mem {ring : List (ListElement M)}
    (absent : element ∉ ring) :
    ring.dropWhile (· ≠ element) = [] :=
  List.dropWhile_eq_nil_iff.mpr fun _ member =>
    decide_eq_true (ne_of_mem_of_not_mem member absent)

theorem not_mem_shrinkMemory_iff {before after : Policy M Q}
    {idsToEvict : List (ListElement M)} (balanced : before.Balanced mappings)
    (space : Spacious mappings before.storageRegistry)
    (shrinks : before.shrinkMemory mappings = .ok (idsToEvict, after)) :
    element ∉ idsToEvict ↔ before.Keeps mappings element := by
  obtain ⟨done, updated⟩ :=
    (shrinkMemory_spec balanced space).1 idsToEvict after shrinks
  unfold Keeps
  by_cases listed : element ∈ before.ring
  · obtain ⟨older, newer, split, fresh⟩ := List.eq_append_cons_of_mem listed
    have nodup := balanced.nodup
    have counter := balanced.counter
    rw [split] at done nodup counter
    rw [split, dropWhile_ne_append fresh]
    exact done.not_mem_iff nodup counter
  · have nowhere := (updated.listed element).not.mpr (by simpa using listed)
    rw [not_or] at nowhere
    rw [dropWhile_ne_of_not_mem listed]
    exact iff_of_true nowhere.2 (Nat.zero_le _)

end Policy

/-! ## Fifo-window policies -/

namespace FifoWindowPolicy

variable {M Q : Type} {mappings : M → Mapping}

/-- Both windows are balanced, and the flags tell them apart. -/
structure Balanced (mappings : M → Mapping)
    (policy : FifoWindowPolicy M Q) : Prop where
  sliding : policy.slidingWindow.Balanced mappings
  fixed : policy.fixedWindow.Balanced mappings
  slidingFlag : ∀ element ∈ policy.rootSlidingWindow,
    policy.isFixedMemory element = false
  fixedFlag : ∀ element ∈ policy.rootFixedWindow,
    policy.isFixedMemory element = true

/-- The policy differs only in its lists, their counters and the flags. -/
structure SameSettings (before after : FifoWindowPolicy M Q) : Prop where
  view : after.view = before.view
  dynamicMaxMemory : after.dynamicMaxMemory = before.dynamicMaxMemory
  maxSlidingMemory : after.maxSlidingMemory = before.maxSlidingMemory
  maxFixedMemory : after.maxFixedMemory = before.maxFixedMemory

variable {policy before after : FifoWindowPolicy M Q}

theorem SameSettings.storageRegistry (same : SameSettings before after) :
    after.storageRegistry = before.storageRegistry :=
  congrArg (fun view => (view 0 0 []).storageRegistry) same.view

theorem SameSettings.policyQuota (same : SameSettings before after) :
    after.policyQuota = before.policyQuota :=
  congrArg (fun view => (view 0 0 []).policyQuota) same.view

theorem SameSettings.isLocal (same : SameSettings before after) :
    after.isLocal = before.isLocal :=
  congrArg (fun view => (view 0 0 []).isLocal) same.view

theorem discount_sameSettings (policy : FifoWindowPolicy M Q) (segmentSize : Nat)
    (cur : ListElement M) :
    SameSettings policy (policy.discount segmentSize cur) := by
  unfold discount
  split <;> exact ⟨rfl, rfl, rfl, rfl⟩

theorem SameSettings.trans {third : FifoWindowPolicy M Q}
    (head : SameSettings before after) (tail : SameSettings after third) :
    SameSettings before third where
  view := tail.view.trans head.view
  dynamicMaxMemory := tail.dynamicMaxMemory.trans head.dynamicMaxMemory
  maxSlidingMemory := tail.maxSlidingMemory.trans head.maxSlidingMemory
  maxFixedMemory := tail.maxFixedMemory.trans head.maxFixedMemory

variable [DecidableEq M]

theorem SameSettings.spacious (same : SameSettings before after)
    (space : Spacious mappings before.storageRegistry) :
    Spacious mappings after.storageRegistry :=
  same.storageRegistry ▸ space

theorem isInList_iff {cur : ListElement M} :
    policy.isInList cur = true ↔
      cur ∈ policy.rootFixedWindow ∨ cur ∈ policy.rootSlidingWindow :=
  decide_eq_true_iff

theorem freeElement_sameSettings (policy : FifoWindowPolicy M Q) (segmentSize : Nat)
    (cur : ListElement M) :
    SameSettings policy (policy.freeElement segmentSize cur) := by
  unfold freeElement
  split
  · obtain ⟨view, limit, sliding, fixed⟩ :=
      policy.discount_sameSettings segmentSize cur
    exact ⟨view, limit, sliding, fixed⟩
  · exact ⟨rfl, rfl, rfl, rfl⟩

theorem insertAfter_sameSettings (policy : FifoWindowPolicy M Q) (isFixed : Bool)
    (segmentSize : Nat) (cur : ListElement M) :
    SameSettings policy (policy.insertAfter isFixed segmentSize cur) := by
  unfold insertAfter
  split <;> exact ⟨rfl, rfl, rfl, rfl⟩

theorem freeElement_rootSlidingWindow (policy : FifoWindowPolicy M Q)
    (segmentSize : Nat) (cur : ListElement M) :
    (policy.freeElement segmentSize cur).rootSlidingWindow =
      policy.rootSlidingWindow.erase cur := by
  unfold freeElement discount
  split
  · split <;> rfl
  · rfl

theorem freeElement_rootFixedWindow (policy : FifoWindowPolicy M Q) (segmentSize : Nat)
    (cur : ListElement M) :
    (policy.freeElement segmentSize cur).rootFixedWindow =
      policy.rootFixedWindow.erase cur := by
  unfold freeElement discount
  split
  · split <;> rfl
  · rfl

theorem freeElement_isFixedMemory (policy : FifoWindowPolicy M Q) (segmentSize : Nat)
    (cur : ListElement M) :
    (policy.freeElement segmentSize cur).isFixedMemory =
      policy.isFixedMemory := by
  unfold freeElement discount
  split
  · split <;> rfl
  · rfl

/-- Taking an element out of a list and off the counter does not depend on the
order of the two. -/
theorem discount_removeFromList (policy : FifoWindowPolicy M Q) (segmentSize : Nat)
    (cur : ListElement M) :
    (policy.removeFromList cur).discount segmentSize cur =
      (policy.discount segmentSize cur).removeFromList cur := by
  unfold discount
  cases flag : policy.isFixedMemory cur <;> simp [flag, removeFromList]

section Release

/-- A window without one of its elements. -/
theorem Balanced.release {window released : Policy M Q} {cur : ListElement M}
    (balanced : window.Balanced mappings)
    (space : Spacious mappings window.storageRegistry)
    (listed : cur ∈ window.ring)
    (registry : released.storageRegistry = window.storageRegistry)
    (ring : released.ring = window.ring.erase cur)
    (memory : released.currentMemory =
      wordSub window.currentMemory (mappings cur.1).segmentSize) :
    released.Balanced mappings :=
  (Policy.Balanced.remove balanced space listed rfl rfl id).balanced.congr
    registry ring memory

/-- The counter of a window without one of its elements. -/
theorem Balanced.release_le {window : Policy M Q} {cur : ListElement M}
    (balanced : window.Balanced mappings)
    (space : Spacious mappings window.storageRegistry)
    (listed : cur ∈ window.ring) :
    wordSub window.currentMemory (mappings cur.1).segmentSize ≤
      window.currentMemory :=
  (Policy.Balanced.remove balanced space listed rfl rfl id).currentMemory_le balanced

theorem Balanced.freeElement (balanced : policy.Balanced mappings)
    (space : Spacious mappings policy.storageRegistry)
    (cur : ListElement M) :
    (policy.freeElement (mappings cur.1).segmentSize cur).Balanced mappings ∧
      (policy.freeElement (mappings cur.1).segmentSize cur).currentFixedMemory ≤
        policy.currentFixedMemory := by
  obtain ⟨sliding, fixed, slidingFlag, fixedFlag⟩ := balanced
  have flags (kept : FifoWindowPolicy M Q)
      (slidingKept : kept.rootSlidingWindow =
        policy.rootSlidingWindow.erase cur)
      (fixedKept : kept.rootFixedWindow = policy.rootFixedWindow.erase cur)
      (flagsKept : kept.isFixedMemory = policy.isFixedMemory) :
      (∀ element ∈ kept.rootSlidingWindow,
        kept.isFixedMemory element = false) ∧
      ∀ element ∈ kept.rootFixedWindow, kept.isFixedMemory element = true := by
    rw [slidingKept, fixedKept, flagsKept]
    exact ⟨fun element member =>
        slidingFlag element (List.mem_of_mem_erase member),
      fun element member => fixedFlag element (List.mem_of_mem_erase member)⟩
  obtain ⟨slidingFlags, fixedFlags⟩ := flags _
    (policy.freeElement_rootSlidingWindow _ cur)
    (policy.freeElement_rootFixedWindow _ cur)
    (policy.freeElement_isFixedMemory _ cur)
  suffices windows :
      (policy.freeElement (mappings cur.1).segmentSize
        cur).slidingWindow.Balanced mappings ∧
      (policy.freeElement (mappings cur.1).segmentSize
        cur).fixedWindow.Balanced mappings ∧
      (policy.freeElement (mappings cur.1).segmentSize cur).currentFixedMemory ≤
        policy.currentFixedMemory from
    ⟨⟨windows.1, windows.2.1, slidingFlags, fixedFlags⟩, windows.2.2⟩
  by_cases inFixed : cur ∈ policy.rootFixedWindow
  · have flag := fixedFlag cur inFixed
    have notSliding : cur ∉ policy.rootSlidingWindow := by
      intro inSliding
      rw [slidingFlag cur inSliding] at flag
      cases flag
    unfold FifoWindowPolicy.freeElement discount
    rw [if_pos (isInList_iff.mpr (Or.inl inFixed)), if_pos flag]
    refine ⟨sliding.congr rfl ?_ rfl,
      Balanced.release fixed space inFixed rfl rfl rfl,
      Balanced.release_le fixed space inFixed⟩
    exact List.erase_of_not_mem notSliding
  · by_cases inSliding : cur ∈ policy.rootSlidingWindow
    · have flag := slidingFlag cur inSliding
      unfold FifoWindowPolicy.freeElement discount
      rw [if_pos (isInList_iff.mpr (Or.inr inSliding)),
        if_neg (by rw [flag]; exact Bool.false_ne_true)]
      refine ⟨Balanced.release sliding space inSliding rfl rfl rfl,
        fixed.congr rfl ?_ rfl, Nat.le_refl _⟩
      exact List.erase_of_not_mem inFixed
    · unfold FifoWindowPolicy.freeElement
      rw [if_neg (isInList_iff.not.mpr (by tauto))]
      refine ⟨sliding.congr rfl ?_ rfl, fixed.congr rfl ?_ rfl,
        Nat.le_refl _⟩
      · exact List.erase_of_not_mem inSliding
      · exact List.erase_of_not_mem inFixed

end Release

/-! ## Critical sections -/

/-- There is room for the element, in the fixed window without it or in the sliding
window alone. -/
def Room (mappings : M → Mapping) (element : ListElement M)
    (policy : FifoWindowPolicy M Q) : Prop :=
  (policy.freeElement (mappings element.1).segmentSize
      element).currentFixedMemory < policy.maxFixedMemory ∨
    Policy.elementSize mappings element ≤ policy.maxSlidingMemory

/-- The policy when the loop of a touch begins. -/
def touching (mappings : M → Mapping) (policy : FifoWindowPolicy M Q)
    (cur : ListElement M) : FifoWindowPolicy M Q :=
  let released := policy.freeElement (mappings cur.1).segmentSize cur
  released.insertAfter (decide (released.currentFixedMemory < released.maxFixedMemory))
    (mappings cur.1).segmentSize cur

theorem notifyTouch_eq {cur : ListElement M} (serves : policy.base.Serves cur.1)
    (ndebug : Bool) :
    policy.notifyTouch mappings ndebug cur.1 cur.2 =
      ((policy.touching mappings cur).shrinkMemory mappings).map fun result =>
        (⟨result.1, !policy.isInList cur, policy.getCurrentMemory⟩,
          result.2) := by
  have released : (if (!policy.isInList cur) = true then
        policy.removeFromList cur
      else (policy.removeFromList cur).discount (mappings cur.1).segmentSize
        cur) = policy.freeElement (mappings cur.1).segmentSize cur := by
    unfold freeElement
    rw [discount_removeFromList]
    cases policy.isInList cur <;> rfl
  unfold notifyTouch touching
  rw [Policy.getStorageInfo_of_serves serves]
  dsimp only [bind, Except.bind]
  rw [released]
  cases ((policy.freeElement (mappings cur.1).segmentSize cur).insertAfter _
    (mappings cur.1).segmentSize cur).shrinkMemory mappings <;> rfl

theorem touching_sameSettings (mappings : M → Mapping) (policy : FifoWindowPolicy M Q)
    (cur : ListElement M) :
    SameSettings policy (policy.touching mappings cur) :=
  (policy.freeElement_sameSettings (mappings cur.1).segmentSize cur).trans
    (insertAfter_sameSettings ..)

/-- What a notice does to a policy that lists the element. -/
theorem notifyEvict_eq {cur : ListElement M} (serves : policy.base.Serves cur.1)
    (listed : policy.isInList cur = true) (ndebug : Bool) :
    policy.notifyEvict mappings ndebug cur.1 cur.2 =
      .ok (policy.freeElement (mappings cur.1).segmentSize cur) := by
  unfold notifyEvict freeElement
  rw [Policy.getStorageInfo_of_serves serves, if_pos listed]
  simp only [bind, Except.bind, listed, Bool.true_or, if_true]

section Sections

variable {cur : ListElement M}

theorem Balanced.insertAfter (balanced : policy.Balanced mappings)
    (space : Spacious mappings policy.storageRegistry)
    (stores : policy.slidingWindow.Stores mappings cur)
    (notSliding : cur ∉ policy.rootSlidingWindow)
    (notFixed : cur ∉ policy.rootFixedWindow)
    (isFixed : Bool) :
    (policy.insertAfter isFixed (mappings cur.1).segmentSize cur).Balanced
      mappings := by
  obtain ⟨sliding, fixed, slidingFlag, fixedFlag⟩ := balanced
  have others (flag : Bool) (element : ListElement M) (different : element ≠ cur) :
      Function.update policy.isFixedMemory cur flag element =
        policy.isFixedMemory element :=
    Function.update_of_ne different _ _
  have kept (flag : Bool) {window : List (ListElement M)} (absent : cur ∉ window)
      (flags : ∀ element ∈ window, policy.isFixedMemory element = !flag) :
      ∀ element ∈ window,
        Function.update policy.isFixedMemory cur flag element = !flag := by
    intro element member
    rw [others flag element fun same => absent (same ▸ member)]
    exact flags element member
  have extended (flag : Bool) {window : List (ListElement M)} (absent : cur ∉ window)
      (flags : ∀ element ∈ window, policy.isFixedMemory element = flag) :
      ∀ element ∈ window ++ [cur],
        Function.update policy.isFixedMemory cur flag element = flag := by
    intro element member
    obtain listed | single := List.mem_append.mp member
    · rw [others flag element fun same => absent (same ▸ listed)]
      exact flags element listed
    · rw [List.mem_singleton.mp single, Function.update_self]
  unfold FifoWindowPolicy.insertAfter
  cases isFixed with
  | true =>
      exact ⟨sliding.congr rfl rfl rfl,
        (fixed.append space stores notFixed).congr rfl rfl rfl,
        kept true notSliding slidingFlag, extended true notFixed fixedFlag⟩
  | false =>
      exact ⟨(sliding.append space stores notSliding).congr rfl rfl rfl,
        fixed.congr rfl rfl rfl,
        extended false notSliding slidingFlag, kept false notFixed fixedFlag⟩

/-- What the critical section of `shrinkMemory` does. -/
theorem shrinkMemory_ok {idsToEvict : List (ListElement M)}
    (balanced : before.Balanced mappings)
    (space : Spacious mappings before.storageRegistry)
    (shrinks : before.shrinkMemory mappings = .ok (idsToEvict, after)) :
    SameSettings before after ∧ after.Balanced mappings ∧
      ∀ element,
        element ∉ idsToEvict ↔ before.slidingWindow.Keeps mappings element := by
  obtain ⟨⟨value, looped⟩, looping, same⟩ := Fallible.map_eq_ok.mp shrinks
  cases same
  have updated :=
    ((Policy.shrinkMemory_spec balanced.sliding space).1 _ looped looping).2
  have fewer (element : ListElement M) (member : element ∈ looped.ring) :
      element ∈ before.rootSlidingWindow := by
    simpa using (updated.listed element).mp (Or.inl member)
  refine ⟨⟨rfl, rfl, rfl, rfl⟩,
    ⟨?_, balanced.fixed.congr rfl rfl rfl, ?_, balanced.fixedFlag⟩, ?_⟩
  · refine updated.balanced.congr ?_ rfl rfl
    rw [updated.settings]
    rfl
  · exact fun element member =>
      balanced.slidingFlag element (fewer element member)
  · exact fun _ => Policy.not_mem_shrinkMemory_iff balanced.sliding space looping

/-- The policy is balanced when the loop begins, and the loop leaves the touched
element exactly if there is room for it. -/
theorem Balanced.touching (balanced : policy.Balanced mappings)
    (space : Spacious mappings policy.storageRegistry)
    (stores : policy.slidingWindow.Stores mappings cur) :
    (policy.touching mappings cur).Balanced mappings ∧
      ((policy.touching mappings cur).slidingWindow.Keeps mappings cur ↔
        policy.Room mappings cur) := by
  obtain ⟨released, fewer⟩ := balanced.freeElement space cur
  have same := policy.freeElement_sameSettings (mappings cur.1).segmentSize cur
  have freedSpace := same.spacious space
  obtain ⟨view, _, sliding, fixed⟩ := same
  have notSliding : cur ∉ (policy.freeElement (mappings cur.1).segmentSize
      cur).rootSlidingWindow := by
    rw [freeElement_rootSlidingWindow]
    exact balanced.sliding.nodup.not_mem_erase
  have notFixed : cur ∉ (policy.freeElement (mappings cur.1).segmentSize
      cur).rootFixedWindow := by
    rw [freeElement_rootFixedWindow]
    exact balanced.fixed.nodup.not_mem_erase
  unfold FifoWindowPolicy.touching Room
  generalize policy.freeElement (mappings cur.1).segmentSize cur = freed at *
  have stores : freed.slidingWindow.Stores mappings cur := by
    unfold slidingWindow
    rw [view]
    exact stores
  refine ⟨released.insertAfter freedSpace stores notSliding notFixed _, ?_⟩
  unfold FifoWindowPolicy.insertAfter Policy.Keeps
  rw [← fixed, ← sliding]
  by_cases isFixed : freed.currentFixedMemory < freed.maxFixedMemory
  · rw [if_pos (decide_eq_true isFixed)]
    refine iff_of_true ?_ (Or.inl isFixed)
    rw [view_ring, Policy.dropWhile_ne_of_not_mem notSliding]
    exact Nat.zero_le _
  · rw [if_neg (by simpa using isFixed), or_iff_right isFixed, view_ring,
      Policy.dropWhile_ne_append notSliding, weight_cons, weight_nil]
    rfl

/-- What the critical section of `notifyTouch` does. -/
theorem notifyTouch_ok {touch : Touch M} {ndebug : Bool}
    (balanced : before.Balanced mappings)
    (space : Spacious mappings before.storageRegistry)
    (serves : before.base.Serves cur.1)
    (below : cur.2 < (mappings cur.1).segments)
    (ends : before.notifyTouch mappings ndebug cur.1 cur.2 =
      .ok (touch, after)) :
    SameSettings before after ∧ after.Balanced mappings ∧
      (cur ∉ touch.idsToEvict ↔ before.Room mappings cur) := by
  rw [notifyTouch_eq serves] at ends
  obtain ⟨⟨idsToEvict, looped⟩, shrinks, same⟩ := Fallible.map_eq_ok.mp ends
  cases same
  obtain ⟨entered, keeps⟩ := balanced.touching space ⟨serves.1, below⟩
  have same := touching_sameSettings mappings before cur
  obtain ⟨settings, kept, left⟩ :=
    shrinkMemory_ok entered (same.spacious space) shrinks
  exact ⟨same.trans settings, kept, (left cur).trans keeps⟩

/-- The loop of `freeElementStorage`. -/
theorem Balanced.freeElements (balanced : policy.Balanced mappings)
    (space : Spacious mappings policy.storageRegistry)
    (mapping : M) (indices : List Nat) :
    let freed := indices.foldl (fun current index =>
      current.freeElement (mappings mapping).segmentSize (mapping, index)) policy
    SameSettings policy freed ∧ freed.Balanced mappings ∧
      (∀ element ∈ freed.rootFixedWindow, element ∈ policy.rootFixedWindow ∧
        ∀ index ∈ indices, element ≠ (mapping, index)) ∧
      ∀ element ∈ freed.rootSlidingWindow,
        element ∈ policy.rootSlidingWindow ∧
          ∀ index ∈ indices, element ≠ (mapping, index) := by
  induction indices generalizing policy with
  | nil =>
      refine ⟨⟨rfl, rfl, rfl, rfl⟩, balanced, ?_, ?_⟩
      · exact fun _ member => ⟨member, fun _ absurdity => nomatch absurdity⟩
      · exact fun _ member => ⟨member, fun _ absurdity => nomatch absurdity⟩
  | cons index rest inductionHypothesis =>
      obtain ⟨released, _⟩ := balanced.freeElement space (mapping, index)
      have same := policy.freeElement_sameSettings (mappings mapping).segmentSize
        (mapping, index)
      obtain ⟨settings, kept, fixed, sliding⟩ :=
        inductionHypothesis released (same.spacious space)
      have erased {window : List (ListElement M)} (nodup : window.Nodup)
          {element : ListElement M}
          (member : element ∈ window.erase (mapping, index))
          (others : ∀ other ∈ rest, element ≠ (mapping, other)) :
          element ∈ window ∧
            ∀ other ∈ index :: rest, element ≠ (mapping, other) := by
        obtain ⟨different, listed⟩ := nodup.mem_erase_iff.mp member
        refine ⟨listed, ?_⟩
        intro other position
        obtain rfl | later := List.mem_cons.mp position
        · exact different
        · exact others other later
      refine ⟨same.trans settings, kept, ?_, ?_⟩
      · intro element member
        obtain ⟨listed, others⟩ := fixed element member
        rw [freeElement_rootFixedWindow] at listed
        exact erased balanced.fixed.nodup listed others
      · intro element member
        obtain ⟨listed, others⟩ := sliding element member
        rw [freeElement_rootSlidingWindow] at listed
        exact erased balanced.sliding.nodup listed others

/-- What `freeElementStorage` does. -/
theorem freeElementStorage_ok {mapping : M} {ndebug : Bool}
    (balanced : before.Balanced mappings)
    (space : Spacious mappings before.storageRegistry)
    (serves : before.base.Serves mapping) (nodup : before.storageRegistry.Nodup)
    (ends : before.freeElementStorage mappings ndebug mapping = .ok after) :
    after.storageRegistry = before.storageRegistry.erase mapping ∧
      after.isLocal = before.isLocal ∧ after.Balanced mappings := by
  obtain ⟨settings, freed, fixed, sliding⟩ := balanced.freeElements space mapping
    (List.range (mappings mapping).segments)
  unfold freeElementStorage at ends
  rw [Policy.getStorageInfo_of_serves serves] at ends
  cases ends
  generalize (List.range (mappings mapping).segments).foldl
    (fun current index =>
      current.freeElement (mappings mapping).segmentSize (mapping, index))
    before = loop at *
  have registry : Policy.unregisterMapping mapping loop.storageRegistry =
      loop.storageRegistry.erase mapping := by
    rw [settings.storageRegistry, Policy.unregisterMapping_eq_erase nodup]
  have gone {element : ListElement M}
      (stored : element.2 < (mappings element.1).segments)
      (others : ∀ index ∈ List.range (mappings mapping).segments,
        element ≠ (mapping, index)) : element.1 ≠ mapping := by
    rintro rfl
    exact others element.2 (List.mem_range.mpr stored) rfl
  have nodupLoop : loop.storageRegistry.Nodup := by
    rw [settings.storageRegistry]
    exact nodup
  refine ⟨?_, settings.isLocal, ⟨?_, ?_, freed.slidingFlag, freed.fixedFlag⟩⟩
  · rw [registry, settings.storageRegistry]
  · refine freed.sliding.unregister nodupLoop ?_ registry rfl rfl
    intro element member
    exact gone (freed.sliding.stored element member).2 (sliding element member).2
  · refine freed.fixed.unregister nodupLoop ?_ registry rfl rfl
    intro element member
    exact gone (freed.fixed.stored element member).2 (fixed element member).2

end Sections

end FifoWindowPolicy

end UmmapIo
