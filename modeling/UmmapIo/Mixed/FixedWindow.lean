import UmmapIo.Mixed.Calls

/-!
# The fixed window along runs

The fixed window has no eviction loop.  A touched segment goes there while the
counter is below the maximum, so the window may exceed its maximum by a part of
a segment.  When all segments have one size this is also why a segment that is
touched again finds the room it left, and stays in the fixed window.
-/

namespace UmmapIo

/-- The call takes the element out of the policy. -/
def PolicyCall.Releases {M Q : Type} :
    PolicyCall M Q → ListElement M → Prop
  | .notifyEvict mapping index, element => element = (mapping, index)
  | .freeElementStorage mapping, element => element.1 = mapping
  | _, _ => False

namespace FifoWindowPolicy

variable {M Q : Type} {mappings : M → Mapping}
variable {policy before after : FifoWindowPolicy M Q} {size : Nat}

theorem SameSettings.staticMaxMemory (same : SameSettings before after) :
    after.staticMaxMemory = before.staticMaxMemory :=
  congrArg (fun view => (view 0 0 []).staticMaxMemory) same.view

/-! ## The fixed window -/

/-- The fixed window exceeds its maximum by less than a segment. -/
def FixedRoom (size : Nat) (policy : FifoWindowPolicy M Q) : Prop :=
  policy.rootFixedWindow ≠ [] →
    policy.currentFixedMemory < policy.maxFixedMemory + size

/-- A step kept the maxima and the bound of the fixed window, and in the fixed
window the elements that were not released. -/
structure FixedKept (size : Nat) (released : ListElement M → Prop)
    (before after : FifoWindowPolicy M Q) : Prop where
  staticMaxMemory : after.staticMaxMemory = before.staticMaxMemory
  maxFixedMemory : after.maxFixedMemory = before.maxFixedMemory
  maxSlidingMemory : after.maxSlidingMemory = before.maxSlidingMemory
  room : before.FixedRoom size → after.FixedRoom size
  kept : before.FixedRoom size → ∀ element ∈ before.rootFixedWindow,
    ¬released element → element ∈ after.rootFixedWindow

/-- A step that leaves the fixed window alone. -/
theorem FixedKept.of_same {released : ListElement M → Prop}
    (staticMaxMemory : after.staticMaxMemory = before.staticMaxMemory)
    (maxFixedMemory : after.maxFixedMemory = before.maxFixedMemory)
    (maxSlidingMemory : after.maxSlidingMemory = before.maxSlidingMemory)
    (currentFixedMemory : after.currentFixedMemory = before.currentFixedMemory)
    (rootFixedWindow : after.rootFixedWindow = before.rootFixedWindow) :
    FixedKept size released before after where
  staticMaxMemory := staticMaxMemory
  maxFixedMemory := maxFixedMemory
  maxSlidingMemory := maxSlidingMemory
  room := by
    unfold FixedRoom
    rw [rootFixedWindow, currentFixedMemory, maxFixedMemory]
    exact id
  kept := by
    rw [rootFixedWindow]
    exact fun _ _ member _ => member

theorem FixedKept.trans {third : FifoWindowPolicy M Q}
    {first second : ListElement M → Prop}
    (head : FixedKept size first before after)
    (tail : FixedKept size second after third) :
    FixedKept size (fun element => first element ∨ second element) before
      third where
  staticMaxMemory := tail.staticMaxMemory.trans head.staticMaxMemory
  maxFixedMemory := tail.maxFixedMemory.trans head.maxFixedMemory
  maxSlidingMemory := tail.maxSlidingMemory.trans head.maxSlidingMemory
  room := fun room => tail.room (head.room room)
  kept := fun room element member unreleased =>
    tail.kept (head.room room) element
      (head.kept room element member fun released =>
        unreleased (Or.inl released))
      fun released => unreleased (Or.inr released)

theorem FixedKept.mono {first second : ListElement M → Prop}
    (kept : FixedKept size first before after)
    (weaker : ∀ element, first element → second element) :
    FixedKept size second before after where
  staticMaxMemory := kept.staticMaxMemory
  maxFixedMemory := kept.maxFixedMemory
  maxSlidingMemory := kept.maxSlidingMemory
  room := kept.room
  kept := fun room element member unreleased =>
    kept.kept room element member fun released =>
      unreleased (weaker element released)

variable [DecidableEq M]

theorem Balanced.freeElement_fixedKept (balanced : policy.Balanced mappings)
    (space : Spacious mappings policy.storageRegistry)
    (cur : ListElement M) (size : Nat) :
    FixedKept size (· = cur) policy
      (policy.freeElement (mappings cur.1).segmentSize cur) := by
  have same := policy.freeElement_sameSettings (mappings cur.1).segmentSize cur
  have fewer := (balanced.freeElement space cur).2
  refine ⟨same.staticMaxMemory, same.maxFixedMemory, same.maxSlidingMemory,
    ?_, ?_⟩
  · intro room nonempty
    rw [freeElement_rootFixedWindow] at nonempty
    have listed : policy.rootFixedWindow ≠ [] := by
      intro empty
      rw [empty] at nonempty
      exact nonempty rfl
    rw [same.maxFixedMemory]
    exact Nat.lt_of_le_of_lt fewer (room listed)
  · intro _ element member different
    rw [freeElement_rootFixedWindow]
    exact (List.mem_erase_of_ne different).mpr member

variable {cur : ListElement M}

section

variable (balanced : policy.Balanced mappings)
variable (space : Spacious mappings policy.storageRegistry)
include balanced space

/-- The counter of the fixed window when a touched element has left it. -/
theorem Balanced.freeElement_currentFixedMemory
    (listed : cur ∈ policy.rootFixedWindow) :
    (policy.freeElement (mappings cur.1).segmentSize cur).currentFixedMemory +
      Policy.elementSize mappings cur = policy.currentFixedMemory := by
  have freed := (balanced.freeElement space cur).1.fixed.counter
  have counter := balanced.fixed.counter
  have total := weight_erase (Policy.elementSize mappings) listed
  rw [view_currentMemory, view_ring] at freed counter
  rw [freeElement_rootFixedWindow] at freed
  omega

/-- A touched element that was in the fixed window finds the room it left. -/
theorem Balanced.touching_fixedKept
    (stores : policy.slidingWindow.Stores mappings cur)
    (own : Policy.elementSize mappings cur = size) :
    FixedKept size (fun _ => False) policy (policy.touching mappings cur) := by
  have same := policy.freeElement_sameSettings (mappings cur.1).segmentSize cur
  have freed := balanced.freeElement_fixedKept space cur size
  have left (room : policy.FixedRoom size) (listed : cur ∈ policy.rootFixedWindow) :
      (policy.freeElement (mappings cur.1).segmentSize cur).currentFixedMemory <
        policy.maxFixedMemory := by
    have counter := balanced.freeElement_currentFixedMemory space listed
    have bound := room (List.ne_nil_of_mem listed)
    omega
  have registered : cur.1 ∈ (policy.freeElement (mappings cur.1).segmentSize
      cur).storageRegistry := by
    rw [same.storageRegistry]
    exact stores.1
  have small := (balanced.freeElement space cur).1.fixed.currentMemory_add_lt
    (same.spacious space) registered
  unfold FifoWindowPolicy.touching
  generalize policy.freeElement (mappings cur.1).segmentSize cur = released at *
  unfold FifoWindowPolicy.insertAfter
  by_cases isFixed : released.currentFixedMemory < released.maxFixedMemory
  · rw [if_pos (decide_eq_true isFixed)]
    refine ⟨freed.staticMaxMemory, freed.maxFixedMemory, freed.maxSlidingMemory,
      ?_, ?_⟩
    · intro _ _
      have sum : wordAdd released.currentFixedMemory
          (mappings cur.1).segmentSize = _ := wordAdd_of_lt small
      dsimp only
      rw [sum]
      exact Nat.add_lt_add_of_lt_of_le isFixed own.le
    · intro room element member _
      by_cases touched : element = cur
      · rw [touched]
        exact List.mem_append_right _ (List.mem_singleton_self cur)
      · exact List.mem_append_left _ (freed.kept room element member touched)
  · rw [if_neg (by simpa using isFixed)]
    refine ⟨freed.staticMaxMemory, freed.maxFixedMemory, freed.maxSlidingMemory,
      freed.room, ?_⟩
    intro room element member _
    refine freed.kept room element member ?_
    rintro rfl
    apply isFixed
    rw [freed.maxFixedMemory]
    exact left room member

/-- The loop of `freeElementStorage`. -/
theorem Balanced.freeElements_fixedKept (mapping : M) (indices : List Nat)
    (size : Nat) :
    FixedKept size (fun element => element.1 = mapping) policy
      (indices.foldl (fun current index =>
        current.freeElement (mappings mapping).segmentSize (mapping, index))
        policy) := by
  induction indices generalizing policy with
  | nil => exact .of_same rfl rfl rfl rfl rfl
  | cons index rest inductionHypothesis =>
      have freed := balanced.freeElement_fixedKept space (mapping, index) size
      have same := policy.freeElement_sameSettings (mappings mapping).segmentSize
        (mapping, index)
      have others := inductionHypothesis
        (balanced.freeElement space (mapping, index)).1 (same.spacious space)
      refine (freed.trans others).mono ?_
      rintro element (rfl | later)
      · rfl
      · exact later

end

/-- Shrinking leaves the fixed window alone and brings the sliding window to its
maximum. -/
theorem shrinkMemory_fixedKept {idsToEvict : List (ListElement M)}
    (balanced : before.Balanced mappings)
    (space : Spacious mappings before.storageRegistry)
    (shrinks : before.shrinkMemory mappings = .ok (idsToEvict, after))
    (size : Nat) :
    FixedKept size (fun _ => False) before after ∧
      after.currentSlidingWindowMemory ≤ before.maxSlidingMemory := by
  obtain ⟨⟨value, looped⟩, looping, same⟩ := Fallible.map_eq_ok.mp shrinks
  cases same
  have done :=
    ((Policy.shrinkMemory_spec balanced.sliding space).1 _ looped looping).1
  exact ⟨.of_same rfl rfl rfl rfl rfl, done.within⟩

theorem notifyTouch_fixedKept {touch : Touch M} {ndebug : Bool}
    (balanced : before.Balanced mappings)
    (space : Spacious mappings before.storageRegistry)
    (serves : before.base.Serves cur.1)
    (below : cur.2 < (mappings cur.1).segments)
    (ends : before.notifyTouch mappings ndebug cur.1 cur.2 =
      .ok (touch, after)) :
    FixedKept (Policy.elementSize mappings cur) (fun _ => False) before after ∧
      after.currentSlidingWindowMemory ≤ before.maxSlidingMemory := by
  rw [notifyTouch_eq serves] at ends
  obtain ⟨⟨idsToEvict, looped⟩, shrinks, same⟩ := Fallible.map_eq_ok.mp ends
  cases same
  have stores : before.slidingWindow.Stores mappings cur := ⟨serves.1, below⟩
  have settings := touching_sameSettings mappings before cur
  obtain ⟨kept, within⟩ := shrinkMemory_fixedKept
    (balanced.touching space stores).1 (settings.spacious space) shrinks
    (Policy.elementSize mappings cur)
  rw [settings.maxSlidingMemory] at within
  refine ⟨?_, within⟩
  exact ((balanced.touching_fixedKept space stores rfl).trans kept).mono
    fun _ released => released.elim id id

end FifoWindowPolicy

namespace PolicyObject

variable {M Q : Type} [DecidableEq M] {mappings : M → Mapping}
variable {policy : FifoWindowPolicy M Q} {after : PolicyObject M Q} {ndebug : Bool}
variable {size : Nat} {request : PolicyCall M Q} {idsToEvict : List (ListElement M)}

/-! ## Calls -/

/-- What a call does to the fixed window, when all segments have one size. -/
theorem Settled.call_fixedKept
    (settled : (window policy).Settled mappings)
    (uniform : ∀ mapping, (mappings mapping).segmentSize = size)
    (admitted : (window policy).Admits mappings request)
    (returns : (window policy).call mappings ndebug request =
      .ok (idsToEvict, after)) :
    ∃ state, after = .window state ∧
      FifoWindowPolicy.FixedKept size request.Releases policy state := by
  have balanced : policy.Balanced mappings := settled.balanced
  have space : Spacious mappings policy.storageRegistry := settled.space
  cases request with
  | allocateElementStorage mapping =>
      obtain ⟨rfl, registers⟩ := Fallible.map_pair_eq_ok.mp returns
      obtain ⟨_, inherits, rfl⟩ := Fallible.map_eq_ok.mp registers
      obtain ⟨_, _, rfl⟩ := Fallible.map_eq_ok.mp inherits
      exact ⟨_, rfl, .of_same rfl rfl rfl rfl rfl⟩
  | notifyTouch mapping index =>
      obtain ⟨⟨touch, _⟩, touches, same⟩ := Fallible.map_eq_ok.mp returns
      cases same
      obtain ⟨⟨_, state⟩, critical, same⟩ := Fallible.map_eq_ok.mp touches
      cases same
      have own : Policy.elementSize mappings (mapping, index) = size :=
        uniform mapping
      have touched : policy.notifyTouch mappings ndebug (mapping, index).1
          (mapping, index).2 = _ := critical
      obtain ⟨_, found, _⟩ := Fallible.bind_eq_ok.mp critical
      have kept := (FifoWindowPolicy.notifyTouch_fixedKept balanced space
        (Policy.serves_of_getStorageInfo admitted.1 found) admitted.2 touched).1
      rw [own] at kept
      exact ⟨state, rfl, kept⟩
  | notifyEvict mapping index =>
      obtain ⟨rfl, notifies⟩ := Fallible.map_pair_eq_ok.mp returns
      obtain ⟨state, critical, rfl⟩ := Fallible.map_eq_ok.mp notifies
      have listed : policy.isInList (mapping, index) = true :=
        FifoWindowPolicy.isInList_iff.mpr (List.mem_append.mp admitted)
      have notified : policy.notifyEvict mappings ndebug (mapping, index).1
          (mapping, index).2 = _ := critical
      have serves := serves_of_notifyEvict (settled.balanced.stored admitted) notifies
      rw [FifoWindowPolicy.notifyEvict_eq serves listed] at notified
      cases notified
      exact ⟨_, rfl, balanced.freeElement_fixedKept space (mapping, index) size⟩
  | setDynamicMaxMemory limit =>
      cases returns
      exact ⟨_, rfl, .of_same rfl rfl rfl rfl rfl⟩
  | setQuota quota =>
      obtain ⟨rfl, sets⟩ := Fallible.map_pair_eq_ok.mp returns
      obtain ⟨_, links, rfl⟩ := Fallible.map_eq_ok.mp sets
      obtain ⟨_, _, rfl⟩ := Fallible.map_eq_ok.mp links
      exact ⟨_, rfl, .of_same rfl rfl rfl rfl rfl⟩
  | shrinkMemory =>
      obtain ⟨⟨_, state⟩, shrinks, same⟩ := Fallible.map_eq_ok.mp returns
      cases same
      exact ⟨state, rfl,
        (FifoWindowPolicy.shrinkMemory_fixedKept balanced space shrinks size).1⟩
  | freeElementStorage mapping =>
      obtain ⟨rfl, frees⟩ := Fallible.map_pair_eq_ok.mp returns
      obtain ⟨state, critical, rfl⟩ := Fallible.map_eq_ok.mp frees
      obtain ⟨_, found, _⟩ := Fallible.bind_eq_ok.mp critical
      have serves : policy.base.Serves mapping :=
        Policy.serves_of_getStorageInfo admitted found
      unfold FifoWindowPolicy.freeElementStorage at critical
      rw [Policy.getStorageInfo_of_serves serves] at critical
      cases critical
      have freed := balanced.freeElements_fixedKept space mapping
        (List.range (mappings mapping).segments) size
      exact ⟨_, rfl, freed.staticMaxMemory, freed.maxFixedMemory,
        freed.maxSlidingMemory, freed.room, freed.kept⟩

omit [DecidableEq M] in
/-- A result that was a FIFO or LIFO policy. -/
theorem eq_plain_of_map {result : Except Stop (Policy M Q)}
    (ends : result.map plain = .ok after) :
    ∃ state, after = .plain state := by
  obtain ⟨state, _, rfl⟩ := Fallible.map_eq_ok.mp ends
  exact ⟨state, rfl⟩

/-- A call does not change the class of an object. -/
theorem call_plain {policy : Policy M Q}
    (returns : (plain policy).call mappings ndebug request =
      .ok (idsToEvict, after)) :
    ∃ state, after = .plain state := by
  cases request with
  | setDynamicMaxMemory limit =>
      cases returns
      exact ⟨_, rfl⟩
  | shrinkMemory =>
      obtain ⟨_, _, same⟩ := Fallible.map_eq_ok.mp returns
      cases same
      exact ⟨_, rfl⟩
  | notifyTouch mapping index =>
      obtain ⟨_, touches, same⟩ := Fallible.map_eq_ok.mp returns
      obtain ⟨_, _, rfl⟩ := Fallible.map_eq_ok.mp touches
      cases same
      exact ⟨_, rfl⟩
  | allocateElementStorage mapping | notifyEvict mapping index | setQuota quota
  | freeElementStorage mapping =>
      exact eq_plain_of_map (Fallible.map_pair_eq_ok.mp returns).2

/-- What holds in every state of a run, of a fifo-window policy over segments of
one size. -/
structure WindowRun (mappings : M → Mapping) (size : Nat)
    (object : PolicyObject M Q) : Prop where
  settled : object.Settled mappings
  fixed : ∀ policy, object = .window policy →
    policy.FixedRoom size ∧ policy.maxFixedMemory =
      wordSub policy.staticMaxMemory policy.maxSlidingMemory

variable {object : PolicyObject M Q}

theorem WindowRun.call
    (windowRun : object.WindowRun mappings size)
    (uniform : ∀ mapping, (mappings mapping).segmentSize = size)
    (admitted : object.Admits mappings request)
    (returns : object.call mappings ndebug request = .ok (idsToEvict, after)) :
    after.WindowRun mappings size := by
  refine ⟨windowRun.settled.call admitted returns, ?_⟩
  rintro state rfl
  cases object with
  | plain policy =>
      obtain ⟨_, absurdity⟩ := call_plain returns
      cases absurdity
  | window policy =>
      obtain ⟨room, maxima⟩ := windowRun.fixed policy rfl
      obtain ⟨_, same, kept⟩ :=
        windowRun.settled.call_fixedKept uniform admitted returns
      cases same
      refine ⟨kept.room room, ?_⟩
      rw [kept.maxFixedMemory, kept.staticMaxMemory, kept.maxSlidingMemory]
      exact maxima

theorem Reached.windowRun
    (reached : object.Reached mappings ndebug)
    (uniform : ∀ mapping, (mappings mapping).segmentSize = size) :
    object.WindowRun mappings size := by
  obtain ⟨initial, constructed, run⟩ := reached
  refine run.invariant (fun object => object.WindowRun mappings size) ?_ ?_
  · have fresh : initial.Reached mappings ndebug :=
      ⟨initial, constructed, .initial⟩
    refine ⟨fresh.settled, ?_⟩
    rintro policy rfl
    obtain ⟨maxMemory, maxSlidingMemory, isLocal, rfl⟩ := constructed
    exact ⟨fun absurdity => absurd rfl absurdity, rfl⟩
  · intro before after request windowRun admitted moved
    obtain ⟨idsToEvict, returns⟩ := step_eq_some.mp moved
    exact windowRun.call uniform admitted returns

/-- A segment of the fixed window stays there along every run that does not
release it. -/
theorem WindowRun.fixed_stays {element : ListElement M}
    (windowRun : (window policy).WindowRun mappings size)
    (uniform : ∀ mapping, (mappings mapping).segmentSize = size)
    (member : element ∈ policy.rootFixedWindow)
    (run : ReachableBy (step mappings ndebug)
      (fun object request =>
        object.Admits mappings request ∧ ¬request.Releases element)
      (window policy) object) :
    ∃ state, object = .window state ∧ element ∈ state.rootFixedWindow := by
  have kept := run.invariant
    (fun object => object.WindowRun mappings size ∧
      ∃ state, object = .window state ∧ element ∈ state.rootFixedWindow)
    ⟨windowRun, policy, rfl, member⟩ ?_
  · exact kept.2
  · rintro before after request ⟨windowRun, state, rfl, member⟩
      ⟨admitted, unreleased⟩ moved
    obtain ⟨idsToEvict, returns⟩ := step_eq_some.mp moved
    refine ⟨windowRun.call uniform admitted returns, ?_⟩
    obtain ⟨final, rfl, kept⟩ :=
      windowRun.settled.call_fixedKept uniform admitted returns
    exact ⟨final, rfl,
      kept.kept (windowRun.fixed state rfl).1 element member unreleased⟩

end PolicyObject

end UmmapIo
