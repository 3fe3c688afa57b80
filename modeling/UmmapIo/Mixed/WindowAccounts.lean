import UmmapIo.Mixed.FixedWindow

/-!
# Accounts of the fifo-window policy along runs

What holds of a fifo-window policy after any sequence of calls: its counters are
the memory of its windows, no decrement of a counter wraps around, and the
sliding window keeps to its maximum.  Both windows together may exceed the
maximum of the policy, unless the segments divide it.
-/

namespace UmmapIo

namespace FifoWindowPolicy

variable {M Q : Type} [DecidableEq M] {mappings : M → Mapping}
variable {policy : FifoWindowPolicy M Q}

/-! ## Decrements -/

/-- The counter that `discount` decrements, and the amount. -/
def discountOperands (policy : FifoWindowPolicy M Q) (segmentSize : Nat)
    (cur : ListElement M) : Nat × Nat :=
  (if policy.isFixedMemory cur then policy.currentFixedMemory
    else policy.currentSlidingWindowMemory, segmentSize)

/-- The decrements of the eviction loop, also of a loop that does not end
normally. -/
def loopDecrements (mappings : M → Mapping) :
    Nat → List (ListElement M) → Policy M Q → List (Nat × Nat)
  | _, [], _ => []
  | cntIdsToEvict, toEvict :: rest, window =>
      if window.currentMemory ≤ window.dynamicMaxMemory then []
      else
        match window.getStorageInfoOfEntry mappings toEvict with
        | .error _ => []
        | .ok mapping =>
            if cntIdsToEvict + 1 < maxIdsToEvict then
              (window.currentMemory, (mappings mapping).segmentSize) ::
                loopDecrements mappings (cntIdsToEvict + 1) rest
                  (window.decrease (mappings mapping).segmentSize)
            else []

/-- The decrements of the loop of `freeElementStorage`. -/
def freeDecrements (segmentSize : Nat) :
    List (ListElement M) → FifoWindowPolicy M Q → List (Nat × Nat)
  | [], _ => []
  | cur :: rest, policy =>
      (if policy.isInList cur then [policy.discountOperands segmentSize cur]
        else []) ++
        freeDecrements segmentSize rest (policy.freeElement segmentSize cur)

/-- Nothing happens if the storage of the mapping is not found. -/
def whenFound (policy : FifoWindowPolicy M Q) (ndebug : Bool) (mapping : M)
    (found : M → List (Nat × Nat)) : List (Nat × Nat) :=
  match policy.base.getStorageInfo ndebug mapping with
  | .error _ => []
  | .ok storage => found storage

/-- The decrements that a call does: the value of the counter and the amount
taken off it. -/
def decrements (mappings : M → Mapping) (ndebug : Bool)
    (policy : FifoWindowPolicy M Q) : PolicyCall M Q → List (Nat × Nat)
  | .allocateElementStorage _ => []
  | .notifyTouch mapping index =>
      policy.whenFound ndebug mapping fun storage =>
        let cur : ListElement M := (storage, index)
        let inserted := policy.touching mappings cur
        (if policy.isInList cur then
          [policy.discountOperands (mappings mapping).segmentSize cur]
          else []) ++
          loopDecrements mappings 0 inserted.rootSlidingWindow inserted.slidingWindow
  | .notifyEvict mapping index =>
      policy.whenFound ndebug mapping fun storage =>
        [policy.discountOperands (mappings mapping).segmentSize (storage, index)]
  | .setDynamicMaxMemory _ => []
  | .setQuota _ => []
  | .shrinkMemory =>
      loopDecrements mappings 0 policy.rootSlidingWindow policy.slidingWindow
  | .freeElementStorage mapping =>
      policy.whenFound ndebug mapping fun storage =>
        freeDecrements (mappings mapping).segmentSize
          ((List.range (mappings storage).segments).map (Prod.mk storage)) policy

/-- The record of decrements, the latest first. -/
def recorded (decrements : List (Nat × Nat)) : List (PolicyEvent M) :=
  (decrements.map fun decrement => .decrease decrement.1 decrement.2).reverse

omit [DecidableEq M] in
theorem recorded_append (first second : List (Nat × Nat)) :
    (recorded (first ++ second) : List (PolicyEvent M)) =
      recorded second ++ recorded first := by
  unfold recorded
  rw [List.map_append, List.reverse_append]

omit [DecidableEq M] in
theorem discount_trace (segmentSize : Nat) (cur : ListElement M) :
    (policy.discount segmentSize cur).trace =
      recorded [policy.discountOperands segmentSize cur] ++ policy.trace := by
  unfold discount discountOperands
  split <;> rfl

theorem freeElement_trace (segmentSize : Nat) (cur : ListElement M) :
    (policy.freeElement segmentSize cur).trace =
      recorded (if policy.isInList cur then [policy.discountOperands segmentSize cur]
        else []) ++ policy.trace := by
  unfold freeElement
  split
  · exact discount_trace segmentSize cur
  · rfl

variable {ring idsToEvict : List (ListElement M)} {window : Policy M Q}
variable {cntIdsToEvict : Nat}

theorem evictLoop_trace {looped : Policy M Q}
    (ends : window.evictLoop mappings cntIdsToEvict ring = .ok (idsToEvict, looped)) :
    looped.trace =
      recorded (loopDecrements mappings cntIdsToEvict ring window) ++ window.trace := by
  induction ring generalizing cntIdsToEvict window idsToEvict with
  | nil =>
      unfold Policy.evictLoop at ends
      split at ends
      · cases ends
        rfl
      · cases ends
  | cons toEvict rest inductionHypothesis =>
      unfold Policy.evictLoop at ends
      unfold loopDecrements
      split at ends
      · rename_i within
        cases ends
        rw [if_pos within]
        rfl
      · rename_i above
        obtain ⟨mapping, found, ends⟩ := Fallible.bind_eq_ok.mp ends
        rw [if_neg above, found]
        split at ends
        · rename_i few
          obtain ⟨⟨_, last⟩, loops, same⟩ := Fallible.bind_eq_ok.mp ends
          cases same
          dsimp only
          rw [if_pos few, inductionHypothesis loops, ← List.singleton_append,
            recorded_append, List.append_assoc]
          rfl
        · cases ends

theorem shrinkMemory_trace {after : FifoWindowPolicy M Q}
    (ends : policy.shrinkMemory mappings = .ok (idsToEvict, after)) :
    after.trace = recorded (loopDecrements mappings 0 policy.rootSlidingWindow
      policy.slidingWindow) ++ policy.trace := by
  obtain ⟨⟨_, looped⟩, loops, same⟩ := Fallible.map_eq_ok.mp ends
  cases same
  have traced := evictLoop_trace loops
  rw [view_trace, List.append_nil, view_ring] at traced
  rw [setSlidingWindow_trace, traced]

/-- The loop of `freeElementStorage` records its decrements. -/
theorem freeElements_trace (segmentSize : Nat) (mapping : M) (indices : List Nat) :
    (indices.foldl (fun current index =>
        current.freeElement segmentSize (mapping, index)) policy).trace =
      recorded (freeDecrements segmentSize (indices.map (Prod.mk mapping)) policy) ++
        policy.trace := by
  induction indices generalizing policy with
  | nil => rfl
  | cons index rest inductionHypothesis =>
      rw [List.foldl_cons, inductionHypothesis, freeElement_trace, List.map_cons,
        freeDecrements, recorded_append, List.append_assoc]

variable {ndebug : Bool} {mapping : M}

theorem whenFound_of_found {storage : M}
    (finds : policy.base.getStorageInfo ndebug mapping = .ok storage)
    (found : M → List (Nat × Nat)) :
    policy.whenFound ndebug mapping found = found storage := by
  unfold whenFound
  rw [finds]

/-- What happens for a registered mapping happens in its own storage. -/
theorem mem_whenFound {found : M → List (Nat × Nat)} {decrement : Nat × Nat}
    (registered : mapping ∈ policy.storageRegistry)
    (member : decrement ∈ policy.whenFound ndebug mapping found) :
    policy.base.Serves mapping ∧ decrement ∈ found mapping := by
  unfold whenFound at member
  cases finds : policy.base.getStorageInfo ndebug mapping with
  | error stop =>
      rw [finds] at member
      cases member
  | ok storage =>
      have serves := Policy.serves_of_getStorageInfo registered finds
      rw [Policy.getStorageInfo_of_serves serves] at member
      exact ⟨serves, member⟩

/-- The decrements of the loop do not wrap around. -/
theorem loopDecrements_le
    (found : ∀ element ∈ ring,
      window.getStorageInfoOfEntry mappings element = .ok element.1)
    (covered : weight (Policy.elementSize mappings) ring ≤ window.currentMemory)
    (small : window.currentMemory < wordModulus) :
    ∀ decrement ∈ loopDecrements mappings cntIdsToEvict ring window,
      decrement.2 ≤ decrement.1 := by
  induction ring generalizing cntIdsToEvict window with
  | nil => exact fun _ absurdity => nomatch absurdity
  | cons element rest inductionHypothesis =>
      rw [weight_cons] at covered
      have enough : (mappings element.1).segmentSize ≤ window.currentMemory := by
        unfold Policy.elementSize at covered
        omega
      have decreased := wordSub_of_le enough small
      unfold loopDecrements
      rw [found element List.mem_cons_self]
      split
      · exact fun _ absurdity => nomatch absurdity
      · dsimp only
        split
        · intro decrement member
          obtain rfl | later := List.mem_cons.mp member
          · exact enough
          · refine inductionHypothesis ?_ ?_ ?_ decrement later
            · exact fun other member => found other (List.mem_cons_of_mem _ member)
            · rw [Policy.decrease_currentMemory, decreased]
              unfold Policy.elementSize at *
              omega
            · rw [Policy.decrease_currentMemory, decreased]
              omega
        · exact fun _ absurdity => nomatch absurdity

/-- The amount of a listed element is in its counter. -/
theorem Balanced.discountOperands_le (balanced : policy.Balanced mappings)
    {cur : ListElement M} (listed : policy.isInList cur = true) :
    (policy.discountOperands (mappings cur.1).segmentSize cur).2 ≤
      (policy.discountOperands (mappings cur.1).segmentSize cur).1 := by
  have part {window : Policy M Q} (accounts : window.Balanced mappings)
      (member : cur ∈ window.ring) :
      (mappings cur.1).segmentSize ≤ window.currentMemory := by
    have total := weight_erase (Policy.elementSize mappings) member
    rw [accounts.counter]
    unfold Policy.elementSize at *
    omega
  unfold discountOperands
  obtain inFixed | inSliding := isInList_iff.mp listed
  · have flag : policy.isFixedMemory cur = true := balanced.fixedFlag cur inFixed
    rw [flag, if_pos rfl]
    exact part balanced.fixed inFixed
  · have flag : policy.isFixedMemory cur = false :=
      balanced.slidingFlag cur inSliding
    rw [flag, if_neg Bool.false_ne_true]
    exact part balanced.sliding inSliding

/-- The decrements of `freeElementStorage`. -/
theorem Balanced.freeDecrements_le (balanced : policy.Balanced mappings)
    (space : Spacious mappings policy.storageRegistry)
    (mapping : M) (indices : List Nat) :
    ∀ decrement ∈ freeDecrements (mappings mapping).segmentSize
        (indices.map (Prod.mk mapping)) policy,
      decrement.2 ≤ decrement.1 := by
  induction indices generalizing policy with
  | nil => exact fun _ absurdity => nomatch absurdity
  | cons index rest inductionHypothesis =>
      intro decrement member
      have same := policy.freeElement_sameSettings (mappings mapping).segmentSize
        (mapping, index)
      have freed := (balanced.freeElement space (mapping, index)).1
      obtain own | later := List.mem_append.mp member
      · split at own
        · rename_i listed
          rw [List.mem_singleton.mp own]
          exact balanced.discountOperands_le listed
        · cases own
      · exact inductionHypothesis freed (same.spacious space) decrement later

/-- The decrements of the loop of a balanced policy. -/
theorem Balanced.loopDecrements_le (balanced : policy.Balanced mappings)
    (space : Spacious mappings policy.storageRegistry) :
    ∀ decrement ∈ loopDecrements mappings 0 policy.rootSlidingWindow
        policy.slidingWindow,
      decrement.2 ≤ decrement.1 := by
  have small := balanced.sliding.currentMemory_lt space
  refine FifoWindowPolicy.loopDecrements_le ?_ ?_ ?_
  · intro element member
    exact Policy.getStorageInfoOfEntry_of_stores
      (balanced.sliding.stored element member)
  · exact balanced.sliding.counter.symm.le
  · exact Nat.lt_of_lt_of_le small (Nat.div_le_self _ _)

end FifoWindowPolicy

namespace PolicyObject

variable {M Q : Type} [DecidableEq M] {mappings : M → Mapping}
variable {policy : FifoWindowPolicy M Q} {ndebug : Bool} {size : Nat}
variable {request : PolicyCall M Q} {idsToEvict : List (ListElement M)}

/-! ## Calls -/

/-- The amounts of all decrements of a call are in the counters. -/
theorem Settled.decrements_le
    (settled : (window policy).Settled mappings)
    (admitted : (window policy).Admits mappings request) :
    ∀ decrement ∈ policy.decrements mappings ndebug request,
      decrement.2 ≤ decrement.1 := by
  have balanced : policy.Balanced mappings := settled.balanced
  have space : Spacious mappings policy.storageRegistry := settled.space
  intro decrement member
  cases request with
  | allocateElementStorage mapping => cases member
  | notifyTouch mapping index =>
      obtain ⟨serves, member⟩ :=
        FifoWindowPolicy.mem_whenFound admitted.1 member
      obtain own | later := List.mem_append.mp member
      · split at own
        · rename_i listed
          rw [List.mem_singleton.mp own]
          exact balanced.discountOperands_le listed
        · cases own
      · have stores : policy.slidingWindow.Stores mappings (mapping, index) :=
          ⟨serves.1, admitted.2⟩
        have entered := (balanced.touching space stores).1
        have same := FifoWindowPolicy.touching_sameSettings mappings policy
          (mapping, index)
        exact entered.loopDecrements_le (same.spacious space) decrement later
  | notifyEvict mapping index =>
      obtain ⟨_, member⟩ :=
        FifoWindowPolicy.mem_whenFound (settled.balanced.stored admitted) member
      rw [List.mem_singleton.mp member]
      exact balanced.discountOperands_le
        (FifoWindowPolicy.isInList_iff.mpr (List.mem_append.mp admitted))
  | setDynamicMaxMemory limit => cases member
  | setQuota quota => cases member
  | shrinkMemory => exact balanced.loopDecrements_le space decrement member
  | freeElementStorage mapping =>
      obtain ⟨_, member⟩ := FifoWindowPolicy.mem_whenFound admitted member
      exact balanced.freeDecrements_le space mapping _ decrement member

variable {state : FifoWindowPolicy M Q}

/-- A call that returns has recorded its decrements. -/
theorem call_trace
    (admitted : (window policy).Admits mappings request)
    (returns : (window policy).call mappings ndebug request =
      .ok (idsToEvict, .window state)) :
    state.trace = FifoWindowPolicy.recorded
      (policy.decrements mappings ndebug request) ++ policy.trace := by
  cases request with
  | allocateElementStorage mapping =>
      obtain ⟨_, registers, same⟩ := Fallible.map_eq_ok.mp returns
      obtain ⟨_, allocates, rfl⟩ := Fallible.map_eq_ok.mp registers
      obtain ⟨_, _, rfl⟩ := Fallible.map_eq_ok.mp allocates
      cases same
      rfl
  | notifyTouch mapping index =>
      obtain ⟨_, touches, same⟩ := Fallible.map_eq_ok.mp returns
      obtain ⟨⟨touch, _⟩, critical, rfl⟩ := Fallible.map_eq_ok.mp touches
      cases same
      obtain ⟨_, finds, _⟩ := Fallible.bind_eq_ok.mp critical
      have serves : policy.base.Serves (mapping, index).1 :=
        Policy.serves_of_getStorageInfo admitted.1 finds
      have touched : policy.notifyTouch mappings ndebug (mapping, index).1
          (mapping, index).2 = _ := critical
      rw [FifoWindowPolicy.notifyTouch_eq serves] at touched
      obtain ⟨⟨_, looped⟩, shrinks, same⟩ := Fallible.map_eq_ok.mp touched
      cases same
      have released : (policy.touching mappings (mapping, index)).trace =
          (policy.freeElement (mappings mapping).segmentSize (mapping, index)).trace := by
        unfold FifoWindowPolicy.touching FifoWindowPolicy.insertAfter
        dsimp only
        split <;> rfl
      rw [FifoWindowPolicy.decrements, FifoWindowPolicy.whenFound_of_found
          (Policy.getStorageInfo_of_serves serves ndebug),
        FifoWindowPolicy.shrinkMemory_trace shrinks, released,
        FifoWindowPolicy.freeElement_trace, FifoWindowPolicy.recorded_append,
        List.append_assoc]
  | notifyEvict mapping index =>
      obtain ⟨_, notified, same⟩ := Fallible.map_eq_ok.mp returns
      obtain ⟨_, notices, rfl⟩ := Fallible.map_eq_ok.mp notified
      cases same
      obtain ⟨_, finds, ends⟩ := Fallible.bind_eq_ok.mp notices
      rw [FifoWindowPolicy.decrements, FifoWindowPolicy.whenFound_of_found finds]
      dsimp only at ends
      split at ends
      · cases ends
        exact FifoWindowPolicy.discount_trace _ _
      · cases ends
  | setDynamicMaxMemory limit =>
      cases returns
      rfl
  | setQuota quota =>
      obtain ⟨_, links, same⟩ := Fallible.map_eq_ok.mp returns
      obtain ⟨_, sets, rfl⟩ := Fallible.map_eq_ok.mp links
      obtain ⟨_, _, rfl⟩ := Fallible.map_eq_ok.mp sets
      cases same
      rfl
  | shrinkMemory =>
      obtain ⟨_, shrinks, same⟩ := Fallible.map_eq_ok.mp returns
      cases same
      exact FifoWindowPolicy.shrinkMemory_trace shrinks
  | freeElementStorage mapping =>
      obtain ⟨_, freed, same⟩ := Fallible.map_eq_ok.mp returns
      obtain ⟨_, frees, rfl⟩ := Fallible.map_eq_ok.mp freed
      cases same
      obtain ⟨_, finds, ends⟩ := Fallible.bind_eq_ok.mp frees
      cases ends
      rw [FifoWindowPolicy.decrements, FifoWindowPolicy.whenFound_of_found finds]
      exact FifoWindowPolicy.freeElements_trace _ _ _

/-- The sliding window after a touch or after shrinking. -/
theorem Settled.sliding_within
    (settled : (window policy).Settled mappings)
    (admitted : (window policy).Admits mappings request)
    (loops : request = .shrinkMemory ∨
      ∃ mapping index, request = .notifyTouch mapping index)
    (returns : (window policy).call mappings ndebug request =
      .ok (idsToEvict, .window state)) :
    state.currentSlidingWindowMemory ≤ policy.maxSlidingMemory := by
  have balanced : policy.Balanced mappings := settled.balanced
  have space : Spacious mappings policy.storageRegistry := settled.space
  obtain rfl | ⟨mapping, index, rfl⟩ := loops
  · obtain ⟨⟨_, final⟩, shrinks, same⟩ := Fallible.map_eq_ok.mp returns
    cases same
    exact (FifoWindowPolicy.shrinkMemory_fixedKept balanced space shrinks 0).2
  · obtain ⟨⟨touch, _⟩, touches, same⟩ := Fallible.map_eq_ok.mp returns
    cases same
    obtain ⟨⟨_, final⟩, critical, same⟩ := Fallible.map_eq_ok.mp touches
    cases same
    have touched : policy.notifyTouch mappings ndebug (mapping, index).1
        (mapping, index).2 = _ := critical
    obtain ⟨_, found, _⟩ := Fallible.bind_eq_ok.mp critical
    exact (FifoWindowPolicy.notifyTouch_fixedKept balanced space
      (Policy.serves_of_getStorageInfo admitted.1 found) admitted.2 touched).2

end PolicyObject

/-! ## Runs -/

/-- In every state of every run of a fifo-window policy: the counters are the
memory of the two lists; no element is listed twice; the flag of a listed
element tells its list; no decrement of a call wraps around, and a call that
returns has recorded these decrements; the sliding window is within its maximum
after a touch and after shrinking; and when all segments have one size, a segment of
the fixed window stays there along every run without a notice or a free for it. -/
theorem fifo_window_accounting {M Q : Type} [DecidableEq M] {mappings : M → Mapping}
    {ndebug : Bool} {policy : FifoWindowPolicy M Q}
    (reached : (PolicyObject.window policy).Reached mappings ndebug) :
    policy.currentFixedMemory =
        weight (Policy.elementSize mappings) policy.rootFixedWindow ∧
      policy.currentSlidingWindowMemory =
        weight (Policy.elementSize mappings) policy.rootSlidingWindow ∧
      (policy.rootFixedWindow ++ policy.rootSlidingWindow).Nodup ∧
      (∀ element ∈ policy.rootFixedWindow ++ policy.rootSlidingWindow,
        (policy.isFixedMemory element = true ↔
          element ∈ policy.rootFixedWindow)) ∧
      (∀ request, (PolicyObject.window policy).Admits mappings request →
        ∀ decrement ∈ policy.decrements mappings ndebug request,
          decrement.2 ≤ decrement.1) ∧
      (∀ request idsToEvict after,
        (PolicyObject.window policy).Admits mappings request →
        (PolicyObject.window policy).call mappings ndebug request =
          .ok (idsToEvict, .window after) →
        after.trace = FifoWindowPolicy.recorded
          (policy.decrements mappings ndebug request) ++ policy.trace) ∧
      (∀ request idsToEvict after,
        (PolicyObject.window policy).Admits mappings request →
        (request = .shrinkMemory ∨
          ∃ mapping index, request = .notifyTouch mapping index) →
        (PolicyObject.window policy).call mappings ndebug request =
          .ok (idsToEvict, .window after) →
        after.currentSlidingWindowMemory ≤ policy.maxSlidingMemory) ∧
      ∀ size, (∀ mapping, (mappings mapping).segmentSize = size) →
        ∀ element ∈ policy.rootFixedWindow, ∀ object,
          ReachableBy (PolicyObject.step mappings ndebug)
            (fun object request =>
              object.Admits mappings request ∧ ¬request.Releases element)
            (PolicyObject.window policy) object →
          ∃ after, object = .window after ∧ element ∈ after.rootFixedWindow := by
  have settled := reached.settled
  have nodup := settled.balanced.nodup_listed
  have balanced : policy.Balanced mappings := settled.balanced
  obtain ⟨sliding, fixed, slidingFlag, fixedFlag⟩ := balanced
  refine ⟨fixed.counter, sliding.counter, nodup, ?_, ?_, ?_, ?_, ?_⟩
  · intro element member
    refine ⟨fun flag => ?_, fixedFlag element⟩
    obtain inFixed | inSliding := List.mem_append.mp member
    · exact inFixed
    · have unset : policy.isFixedMemory element = false :=
        slidingFlag element inSliding
      rw [unset] at flag
      cases flag
  · exact fun request admitted => settled.decrements_le admitted
  · exact fun request idsToEvict after admitted returns =>
      PolicyObject.call_trace admitted returns
  · exact fun request idsToEvict after admitted loops returns =>
      settled.sliding_within admitted loops returns
  · exact fun size uniform element member object run =>
      (reached.windowRun uniform).fixed_stays uniform member run

/-- A policy of two pages, one of them in the sliding window, and a mapping of two
pages: the first page touched is in the fixed window, also after it is touched
again, and the second one in the sliding window. -/
theorem fifo_window_accounting_of_pages :
    ∃ policy : FifoWindowPolicy Unit Unit,
      (PolicyObject.window policy).Reached (fun _ => twoPages)
          true ∧
        policy.rootFixedWindow = [((), 0)] ∧
        policy.rootSlidingWindow = [((), 1)] ∧
        policy.currentFixedMemory = pageSize ∧
        policy.currentSlidingWindowMemory = pageSize ∧
        ∃ after, (PolicyObject.window policy).step
            (fun _ => twoPages) true (.notifyTouch () 0) =
              some (.window after) ∧
          ((), 0) ∈ after.rootFixedWindow := by
  have fresh : ReachableBy (PolicyObject.step (fun _ => twoPages) true)
      (PolicyObject.Admits fun _ => twoPages)
      (.window (FifoWindowPolicy.create (2 * pageSize) pageSize false) :
        PolicyObject Unit Unit) _ := ReachableBy.initial
  have allocated := fresh.step (.allocateElementStorage ()) (by decide) rfl
  have first := allocated.step (.notifyTouch () 0) (by decide) rfl
  have second := first.step (.notifyTouch () 1) (by decide) rfl
  have reached := PolicyObject.reached_of_createWindow second
  obtain ⟨fixed, sliding, _, _, _, _, _, stays⟩ := fifo_window_accounting reached
  refine ⟨_, reached, rfl, rfl, fixed, sliding, ?_⟩
  obtain ⟨after, same, member⟩ := stays pageSize (fun _ => rfl) ((), 0)
    List.mem_cons_self _
    (ReachableBy.initial.step (PolicyCall.notifyTouch () 0) ⟨by decide, id⟩ rfl)
  exact ⟨after, congrArg some same, member⟩

/-! ## The maximum of both windows -/

/-- The segments of one size that both windows have room for. -/
def FifoWindowPolicy.windowSegments
    (maxMemory maxSlidingMemory size : Nat) : Nat :=
  (maxMemory - maxSlidingMemory + (size - 1)) / size + maxSlidingMemory / size

/-- Segments that divide the maximum fit in it. -/
theorem FifoWindowPolicy.windowSegments_mul_le {maxMemory maxSlidingMemory size : Nat}
    (smaller : maxSlidingMemory ≤ maxMemory) (divides : size ∣ maxMemory) :
    windowSegments maxMemory maxSlidingMemory size * size ≤ maxMemory := by
  obtain ⟨count, rfl⟩ := divides
  rcases Nat.eq_zero_or_pos size with rfl | positive
  · exact Nat.le_of_eq (by rw [Nat.mul_zero, Nat.zero_mul])
  have rest := Nat.mod_lt maxSlidingMemory positive
  have parts := Nat.div_add_mod maxSlidingMemory size
  have fixed : (size * count - maxSlidingMemory + (size - 1)) / size ≤
      count - maxSlidingMemory / size := by
    rw [Nat.div_le_iff_le_mul_add_pred positive, Nat.mul_sub]
    omega
  have sliding : maxSlidingMemory / size ≤ count :=
    Nat.div_le_of_le_mul smaller
  have total : windowSegments (size * count) maxSlidingMemory size ≤ count :=
    Nat.add_le_of_le_sub sliding fixed
  exact (Nat.mul_le_mul_right size total).trans_eq (Nat.mul_comm count size)

/-- A fifo-window policy over segments of one size, whose windows together have no
room for more segments than fit in its maximum, uses at most that maximum after
each touch. -/
theorem fifo_window_within_maximum {M Q : Type} [DecidableEq M] {mappings : M → Mapping}
    {ndebug : Bool} {policy : FifoWindowPolicy M Q} {size : Nat}
    (reached : (PolicyObject.window policy).Reached mappings ndebug)
    (uniform : ∀ mapping, (mappings mapping).segmentSize = size)
    (word : policy.staticMaxMemory < wordModulus)
    (smaller : policy.maxSlidingMemory ≤ policy.staticMaxMemory)
    (fits : FifoWindowPolicy.windowSegments policy.staticMaxMemory
      policy.maxSlidingMemory size * size ≤ policy.staticMaxMemory) :
    ∀ mapping index idsToEvict after,
      (PolicyObject.window policy).Admits mappings (.notifyTouch mapping index) →
      (PolicyObject.window policy).call mappings ndebug
          (.notifyTouch mapping index) = .ok (idsToEvict, .window after) →
      after.staticMaxMemory = policy.staticMaxMemory ∧
        after.getCurrentMemory ≤ policy.staticMaxMemory := by
  intro mapping index idsToEvict after admitted returns
  have windowRun := reached.windowRun uniform
  obtain ⟨_, same, kept⟩ :=
    windowRun.settled.call_fixedKept uniform admitted returns
  cases same
  have called := windowRun.call uniform admitted returns
  obtain ⟨room, maxima⟩ := called.fixed after rfl
  have balanced : after.Balanced mappings := called.settled.balanced
  have within := windowRun.settled.sliding_within admitted
    (Or.inr ⟨mapping, index, rfl⟩) returns
  have positive : 0 < size := uniform mapping ▸ (mappings mapping).segmentSize_pos
  have fixed : after.currentFixedMemory =
      after.rootFixedWindow.length * size := by
    rw [← weight_eq_length_mul (Policy.elementSize mappings)
      fun element _ => uniform element.1]
    exact balanced.fixed.counter
  have sliding : after.currentSlidingWindowMemory =
      after.rootSlidingWindow.length * size := by
    rw [← weight_eq_length_mul (Policy.elementSize mappings)
      fun element _ => uniform element.1]
    exact balanced.sliding.counter
  rw [kept.staticMaxMemory, kept.maxSlidingMemory,
    wordSub_of_le smaller word] at maxima
  have fixedSegments : after.rootFixedWindow.length ≤
      (policy.staticMaxMemory - policy.maxSlidingMemory + (size - 1)) / size := by
    rw [Nat.le_div_iff_mul_le positive, ← fixed]
    by_cases empty : after.rootFixedWindow = []
    · rw [fixed, empty, List.length_nil, Nat.zero_mul]
      exact Nat.zero_le _
    · have bound := room empty
      rw [maxima] at bound
      omega
  have slidingSegments : after.rootSlidingWindow.length ≤
      policy.maxSlidingMemory / size := by
    rw [Nat.le_div_iff_mul_le positive, ← sliding]
    exact within
  have total : after.currentSlidingWindowMemory + after.currentFixedMemory ≤
      policy.staticMaxMemory := by
    rw [fixed, sliding, ← Nat.add_mul]
    refine le_trans (Nat.mul_le_mul_right size ?_) fits
    unfold FifoWindowPolicy.windowSegments
    omega
  refine ⟨kept.staticMaxMemory, ?_⟩
  unfold FifoWindowPolicy.getCurrentMemory
  rw [wordAdd_of_lt (Nat.lt_of_le_of_lt total word)]
  exact total

/-- A policy of two pages, one of them in the sliding window, and a mapping of four
pages: the touch of a third page keeps to the maximum. -/
theorem fifo_window_within_maximum_of_pages :
    ∃ policy after : FifoWindowPolicy Unit Unit,
      ∃ idsToEvict : List (ListElement Unit),
        (PolicyObject.window policy).Reached (fun _ => Mapping.ofPages 3 true)
            true ∧
          policy.getCurrentMemory = 2 * pageSize ∧
          (PolicyObject.window policy).call (fun _ => Mapping.ofPages 3 true)
            true (.notifyTouch () 2) = .ok (idsToEvict, .window after) ∧
          after.getCurrentMemory ≤ policy.staticMaxMemory := by
  have fresh : ReachableBy (PolicyObject.step (fun _ => Mapping.ofPages 3 true) true)
      (PolicyObject.Admits fun _ => Mapping.ofPages 3 true)
      (.window (FifoWindowPolicy.create (2 * pageSize) pageSize false) :
        PolicyObject Unit Unit) _ := ReachableBy.initial
  have allocated := fresh.step (.allocateElementStorage ()) (by decide) rfl
  have first := allocated.step (.notifyTouch () 0) (by decide) rfl
  have second := first.step (.notifyTouch () 1) (by decide) rfl
  have reached := PolicyObject.reached_of_createWindow second
  have limit := fifo_window_within_maximum reached
    (fun _ => rfl) (by decide) (by decide)
    (FifoWindowPolicy.windowSegments_mul_le (by decide) ⟨2, by decide⟩)
    () 2 _ _ (by decide) rfl
  exact ⟨_, _, _, reached, by decide, rfl, limit.2⟩

/-- A policy of three pages, two of them in the sliding window, and a mapping whose
segments have two pages: two touches put a segment in each window, which makes
four pages. -/
theorem page_pairs_exceed_window_maximum :
    ∃ policy after : FifoWindowPolicy Unit Unit,
      ∃ idsToEvict : List (ListElement Unit),
        (PolicyObject.window policy).Reached (fun _ => Mapping.ofPagePairs 3)
            true ∧
          (PolicyObject.window policy).Admits (fun _ => Mapping.ofPagePairs 3)
            (.notifyTouch () 1) ∧
          (PolicyObject.window policy).call (fun _ => Mapping.ofPagePairs 3)
            true (.notifyTouch () 1) = .ok (idsToEvict, .window after) ∧
          policy.staticMaxMemory = 3 * pageSize ∧
          policy.maxSlidingMemory = 2 * pageSize ∧
          after.getCurrentMemory = 4 * pageSize := by
  have fresh : ReachableBy (PolicyObject.step (fun _ => Mapping.ofPagePairs 3) true)
      (PolicyObject.Admits fun _ => Mapping.ofPagePairs 3)
      (.window (FifoWindowPolicy.create (3 * pageSize) (2 * pageSize) false) :
        PolicyObject Unit Unit) _ := ReachableBy.initial
  have allocated := fresh.step (.allocateElementStorage ()) (by decide) rfl
  have first := allocated.step (.notifyTouch () 0) (by decide) rfl
  exact ⟨_, _, _, PolicyObject.reached_of_createWindow first, by decide, rfl,
    rfl, rfl, by decide⟩

end UmmapIo
