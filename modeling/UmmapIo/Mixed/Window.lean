import UmmapIo.Policy.Touch
import UmmapIo.Policy.Sections

/-!
# The fifo-window policy

The data of `policies/FifoWindowPolicy.cpp` and its critical sections.  The
policy keeps two lists: a fixed window, whose segments it never evicts, and a
sliding window, which works like a FIFO policy of its own size.  A touched
segment goes to the fixed window while there is room in it.

What the two windows share with the FIFO policy is expressed by reading each of
them as a FIFO policy.
-/

namespace UmmapIo

/-- A fifo-window policy. -/
structure FifoWindowPolicy (M Q : Type) where
  /-- The policy belongs to one mapping. -/
  isLocal : Bool
  /-- Maximum given to the constructor. -/
  staticMaxMemory : Nat
  /-- Limit a quota may change; the windows do not look at it. -/
  dynamicMaxMemory : Nat
  /-- The mappings with element storage in the policy. -/
  storageRegistry : List M
  /-- The quota the policy is registered to. -/
  policyQuota : Option Q
  /-- Maximum of the sliding window. -/
  maxSlidingMemory : Nat
  /-- Memory from which on nothing is added to the fixed window. -/
  maxFixedMemory : Nat
  /-- Memory of the fixed window, as the policy counts it. -/
  currentFixedMemory : Nat
  /-- Memory of the sliding window, as the policy counts it. -/
  currentSlidingWindowMemory : Nat
  /-- The elements of the fixed window. -/
  rootFixedWindow : List (ListElement M)
  /-- The elements of the sliding window, the next one to evict first. -/
  rootSlidingWindow : List (ListElement M)
  /-- `extraInfos`: the window an element was last put in. -/
  isFixedMemory : ListElement M → Bool
  /-- Recorded decrements, the latest first. -/
  trace : List (PolicyEvent M)

namespace FifoWindowPolicy

variable {M Q : Type}

/-- The constructor. -/
@[simps] def create (maxMemory maxSlidingMemory : Nat)
    (isLocal : Bool) : FifoWindowPolicy M Q where
  isLocal := isLocal
  staticMaxMemory := maxMemory
  dynamicMaxMemory := maxMemory
  storageRegistry := []
  policyQuota := none
  maxSlidingMemory := maxSlidingMemory
  maxFixedMemory := wordSub maxMemory maxSlidingMemory
  currentFixedMemory := 0
  currentSlidingWindowMemory := 0
  rootFixedWindow := []
  rootSlidingWindow := []
  isFixedMemory := fun _ => false
  trace := []

/-- `FifoWindowPolicy::getCurrentMemory`. -/
def getCurrentMemory (policy : FifoWindowPolicy M Q) : Nat :=
  wordAdd policy.currentSlidingWindowMemory policy.currentFixedMemory

/-! ## The inherited part and the windows -/

/-- The inherited fields, with a list, its counter and its limit. -/
@[simps] def view (policy : FifoWindowPolicy M Q) (dynamicMaxMemory currentMemory : Nat)
    (ring : List (ListElement M)) : Policy M Q where
  kind := .fifo
  isLocal := policy.isLocal
  staticMaxMemory := policy.staticMaxMemory
  dynamicMaxMemory := dynamicMaxMemory
  storageRegistry := policy.storageRegistry
  policyQuota := policy.policyQuota
  currentMemory := currentMemory
  ring := ring
  trace := []

/-- The part inherited from `Policy`. -/
abbrev base (policy : FifoWindowPolicy M Q) : Policy M Q :=
  policy.view policy.dynamicMaxMemory 0 []

/-- The sliding window. -/
abbrev slidingWindow (policy : FifoWindowPolicy M Q) : Policy M Q :=
  policy.view policy.maxSlidingMemory policy.currentSlidingWindowMemory
    policy.rootSlidingWindow

/-- The fixed window. -/
abbrev fixedWindow (policy : FifoWindowPolicy M Q) : Policy M Q :=
  policy.view policy.maxFixedMemory policy.currentFixedMemory policy.rootFixedWindow

/-- Store the sliding window back. -/
@[simps] def setSlidingWindow (policy : FifoWindowPolicy M Q)
    (window : Policy M Q) : FifoWindowPolicy M Q :=
  { policy with
    currentSlidingWindowMemory := window.currentMemory
    rootSlidingWindow := window.ring
    trace := window.trace ++ policy.trace }

/-- `Policy::setDynamicMaxMemory`. -/
@[simps] def setDynamicMaxMemory (policy : FifoWindowPolicy M Q)
    (dynamicMaxMemory : Nat) : FifoWindowPolicy M Q :=
  { policy with dynamicMaxMemory := dynamicMaxMemory }

/-- `Policy::setQuota`. -/
def setQuota (policy : FifoWindowPolicy M Q)
    (quota : Option Q) : Except Stop (FifoWindowPolicy M Q) :=
  (policy.base.setQuota quota).map fun linked =>
    { policy with policyQuota := linked.policyQuota }

variable [DecidableEq M] (mappings : M → Mapping)

/-- `FifoWindowPolicy::allocateElementStorage`: the mapping is registered with
elements that are in no list and flags that are not set. -/
def registerMapping (policy : FifoWindowPolicy M Q)
    (mapping : M) : Except Stop (FifoWindowPolicy M Q) :=
  (policy.base.registerMapping mappings mapping).map fun registered =>
    { policy with
      storageRegistry := registered.storageRegistry
      isFixedMemory := fun element =>
        if element.1 = mapping then false else policy.isFixedMemory element }

/-! ## Elements -/

/-- `cur.isInList()`. -/
def isInList (policy : FifoWindowPolicy M Q) (cur : ListElement M) : Bool :=
  decide (cur ∈ policy.rootFixedWindow ∨ cur ∈ policy.rootSlidingWindow)

/-- `cur.removeFromList()`. -/
@[simps] def removeFromList (policy : FifoWindowPolicy M Q)
    (cur : ListElement M) : FifoWindowPolicy M Q :=
  { policy with
    rootFixedWindow := policy.rootFixedWindow.erase cur
    rootSlidingWindow := policy.rootSlidingWindow.erase cur }

/-- Take an element off the counter of the window it was last put in. -/
def discount (policy : FifoWindowPolicy M Q) (segmentSize : Nat)
    (cur : ListElement M) : FifoWindowPolicy M Q :=
  if policy.isFixedMemory cur then
    { policy with
      currentFixedMemory := wordSub policy.currentFixedMemory segmentSize
      trace := .decrease policy.currentFixedMemory segmentSize :: policy.trace }
  else
    { policy with
      currentSlidingWindowMemory :=
        wordSub policy.currentSlidingWindowMemory segmentSize
      trace :=
        .decrease policy.currentSlidingWindowMemory segmentSize :: policy.trace }

/-- Put an element in a window. -/
def insertAfter (policy : FifoWindowPolicy M Q) (isFixed : Bool) (segmentSize : Nat)
    (cur : ListElement M) : FifoWindowPolicy M Q :=
  if isFixed then
    { policy with
      isFixedMemory := Function.update policy.isFixedMemory cur true
      rootFixedWindow := policy.rootFixedWindow ++ [cur]
      currentFixedMemory := wordAdd policy.currentFixedMemory segmentSize }
  else
    { policy with
      isFixedMemory := Function.update policy.isFixedMemory cur false
      rootSlidingWindow := policy.rootSlidingWindow ++ [cur]
      currentSlidingWindowMemory :=
        wordAdd policy.currentSlidingWindowMemory segmentSize }

/-! ## Critical sections -/

/-- The critical section of `FifoWindowPolicy::shrinkMemory`, which is also the
loop of `notifyTouch`. -/
def shrinkMemory (policy : FifoWindowPolicy M Q) :
    Except Stop (List (ListElement M) × FifoWindowPolicy M Q) :=
  (policy.slidingWindow.shrinkMemory mappings).map fun result =>
    (result.1, policy.setSlidingWindow result.2)

/-- The critical section of `FifoWindowPolicy::notifyTouch`. -/
def notifyTouch (ndebug : Bool) (policy : FifoWindowPolicy M Q) (mapping : M)
    (index : Nat) : Except Stop (Touch M × FifoWindowPolicy M Q) := do
  let memOrig := policy.getCurrentMemory
  let storage ← policy.base.getStorageInfo ndebug mapping
  let cur : ListElement M := (storage, index)
  let segmentSize := (mappings mapping).segmentSize
  let isFirstAccess := !policy.isInList cur
  let removed := policy.removeFromList cur
  let discounted :=
    if isFirstAccess then removed else removed.discount segmentSize cur
  let isFixed :=
    decide (discounted.currentFixedMemory < discounted.maxFixedMemory)
  let inserted := discounted.insertAfter isFixed segmentSize cur
  let (idsToEvict, looped) ← inserted.shrinkMemory mappings
  .ok (⟨idsToEvict, isFirstAccess, memOrig⟩, looped)

/-- `FifoWindowPolicy::notifyEvict`. -/
def notifyEvict (ndebug : Bool) (policy : FifoWindowPolicy M Q) (mapping : M)
    (index : Nat) : Except Stop (FifoWindowPolicy M Q) := do
  let storage ← policy.base.getStorageInfo ndebug mapping
  let cur : ListElement M := (storage, index)
  if policy.isInList cur || ndebug then
    .ok ((policy.discount (mappings mapping).segmentSize cur).removeFromList cur)
  else
    .error (.fatal assertIsInList)

/-- The loop body of `FifoWindowPolicy::freeElementStorage`. -/
def freeElement (segmentSize : Nat) (policy : FifoWindowPolicy M Q)
    (cur : ListElement M) : FifoWindowPolicy M Q :=
  let discounted :=
    if policy.isInList cur then policy.discount segmentSize cur else policy
  discounted.removeFromList cur

/-- `FifoWindowPolicy::freeElementStorage`. -/
def freeElementStorage (ndebug : Bool) (policy : FifoWindowPolicy M Q)
    (mapping : M) : Except Stop (FifoWindowPolicy M Q) := do
  let storage ← policy.base.getStorageInfo ndebug mapping
  let freed := (List.range (mappings storage).segments).foldl
    (fun current index =>
      current.freeElement (mappings mapping).segmentSize (storage, index)) policy
  .ok { freed with
    storageRegistry := Policy.unregisterMapping mapping freed.storageRegistry }

end FifoWindowPolicy

end UmmapIo
