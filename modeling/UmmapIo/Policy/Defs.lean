import UmmapIo.Lib.Weight
import UmmapIo.Mapping.Defs

/-!
# The FIFO and LIFO policies

The data of `core/Policy.hpp`, `policies/FifoPolicy.cpp` and
`policies/LifoPolicy.cpp`, and their critical sections.  A policy tracks the
segments that were touched in a ring of list elements, and the memory they take
in a counter.  When the counter is above the limit, the critical section takes
elements out of the ring; the evictions themselves happen later, outside of the
critical section.

The ring is a list that starts with the element `root.popPrev()` takes: the
FIFO policy inserts behind the last element, the LIFO policy before the first
one.
-/

namespace UmmapIo

/-- How a function does not return: the process ends with a message, or a loop
never ends. -/
inductive Stop : Type
  | fatal (message : String)
  | endless
  deriving DecidableEq

/-- A tracked segment: the list element at this index in the element storage of
the mapping. -/
abbrev ListElement (M : Type) : Type := M × Nat

instance ListElement.lawfulBEq {M : Type} [DecidableEq M] : LawfulBEq (ListElement M) :=
  inferInstance

/-- The two policy classes. -/
inductive PolicyKind : Type
  | fifo
  | lifo
  deriving DecidableEq

/-- What a policy records: the notices it receives, with whether the element was
in a list, and the operands of every decrement of its counter. -/
inductive PolicyEvent (M : Type) : Type
  | notifyEvict (element : ListElement M) (isInList : Bool)
  | decrease (currentMemory amount : Nat)
  deriving DecidableEq

/-- A notice for a listed element; a decrement that does not wrap around. -/
def PolicyEvent.Sound {M : Type} : PolicyEvent M → Prop
  | .notifyEvict _ isInList => isInList = true
  | .decrease currentMemory amount => amount ≤ currentMemory

/-- The fields of a policy that touches and evictions leave alone. -/
structure PolicySettings (M Q : Type) where
  /-- The class of the policy. -/
  kind : PolicyKind
  /-- The policy belongs to one mapping. -/
  isLocal : Bool
  /-- Maximum given to the constructor. -/
  staticMaxMemory : Nat
  /-- Limit in force, which a quota may change. -/
  dynamicMaxMemory : Nat
  /-- The mappings with element storage in the policy. -/
  storageRegistry : List M
  /-- The quota the policy is registered to. -/
  policyQuota : Option Q

/-- A FIFO or LIFO policy. -/
structure Policy (M Q : Type) extends PolicySettings M Q where
  /-- Memory of the listed segments, as the policy counts it. -/
  currentMemory : Nat
  /-- The listed elements, the next one to evict first. -/
  ring : List (ListElement M)
  /-- Recorded events, the latest first. -/
  trace : List (PolicyEvent M)

/-- What the critical section of `notifyTouch` leaves for the code after it. -/
structure Touch (M : Type) where
  /-- The segments to evict, in order. -/
  idsToEvict : List (ListElement M)
  /-- The value of `isFirstAccess` after the critical section. -/
  isFirstAccess : Bool
  /-- The counter at the beginning of the critical section. -/
  memOrig : Nat

/-- The size of the arrays that collect the segments to evict. -/
def maxIdsToEvict : Nat := 128

/-- Message of the check on the number of evictions. -/
def reachMaximum : String :=
  "Reach maximum pages to evict due to optimization, cannot continue !"

/-- Message of the assertion of `notifyEvict`. -/
def assertIsInList : String :=
  "Assertion cur.isInList() failed."

namespace Policy

variable {M Q : Type}

/-- The constructors of the policy classes. -/
@[simps toPolicySettings currentMemory ring trace] def create (kind : PolicyKind)
    (maxMemory : Nat)
    (isLocal : Bool) : Policy M Q where
  kind := kind
  isLocal := isLocal
  staticMaxMemory := maxMemory
  dynamicMaxMemory := maxMemory
  storageRegistry := []
  policyQuota := none
  currentMemory := 0
  ring := []
  trace := []

/-- `this->currentMemory += amount`. -/
@[simps toPolicySettings currentMemory ring trace] def increase (policy : Policy M Q)
    (amount : Nat) : Policy M Q :=
  { policy with currentMemory := wordAdd policy.currentMemory amount }

/-- `this->currentMemory -= amount`. -/
@[simps toPolicySettings currentMemory ring trace] def decrease (policy : Policy M Q)
    (amount : Nat) : Policy M Q :=
  { policy with
    currentMemory := wordSub policy.currentMemory amount
    trace := .decrease policy.currentMemory amount :: policy.trace }

/-- Replace the ring. -/
@[simps toPolicySettings currentMemory ring trace] def setRing (policy : Policy M Q)
    (ring : List (ListElement M)) : Policy M Q :=
  { policy with ring := ring }

/-- Add an event to the record. -/
@[simps toPolicySettings currentMemory ring trace] def note (policy : Policy M Q)
    (event : PolicyEvent M) : Policy M Q :=
  { policy with trace := event :: policy.trace }

/-- `Policy::setDynamicMaxMemory`. -/
def setDynamicMaxMemory (policy : Policy M Q)
    (dynamicMaxMemory : Nat) : Policy M Q :=
  { policy with dynamicMaxMemory := dynamicMaxMemory }

/-- `Policy::setQuota`. -/
def setQuota (policy : Policy M Q)
    (quota : Option Q) : Except Stop (Policy M Q) :=
  if quota.isNone || policy.policyQuota.isNone then
    .ok { policy with policyQuota := quota }
  else
    .error (.fatal "Invalid quota state update cannot change !")

variable [DecidableEq M] (mappings : M → Mapping)

/-- Memory of one segment. -/
def elementSize (element : ListElement M) : Nat :=
  (mappings element.1).segmentSize

/-! ## Element storage -/

/-- `Policy::checkHasEnoughMem`. -/
def checkHasEnoughMem (policy : Policy M Q) : Bool :=
  decide ((policy.storageRegistry.foldl
    (fun sum mapping => wordAdd sum (mappings mapping).segmentSize) 0) ≤
      policy.dynamicMaxMemory)

/-- `Policy::registerMapping`, which `allocateElementStorage` calls with fresh
elements that are in no list. -/
def registerMapping (policy : Policy M Q)
    (mapping : M) : Except Stop (Policy M Q) :=
  if (mappings mapping).segmentSize ≤ policy.staticMaxMemory then
    let registered : Policy M Q :=
      { policy with storageRegistry := policy.storageRegistry ++ [mapping] }
    if registered.checkHasEnoughMem mappings then
      .ok registered
    else
      .error (.fatal ("You registry too many mappings to the same policy, " ++
        "it does not allow to have at least one segment per mapping, " ++
        "this can crash the node !"))
  else
    .error (.fatal (s!"Trying to register a mapping using segment size larger " ++
      s!"than the policy maximal size: {(mappings mapping).segmentSize} > " ++
      s!"{policy.staticMaxMemory}"))

/-- `Policy::unregisterMapping`.  Removing an entry advances the iterator once
more than the loop does, so the entry behind the removed one is not looked at.
Behind the last entry this increments the end iterator: the circular list of the
C++ library then begins anew, which removes nothing more without repetitions. -/
def unregisterMapping (mapping : M) : List M → List M
  | [] => []
  | entry :: rest =>
      if entry = mapping then
        match rest with
        | [] => []
        | skipped :: others => skipped :: unregisterMapping mapping others
      else
        entry :: unregisterMapping mapping rest

/-- `Policy::getStorageInfo(Mapping *)`: the mapping whose elements are used.
`ndebug` tells whether assertions are compiled out. -/
def getStorageInfo (ndebug : Bool) (policy : Policy M Q)
    (mapping : M) : Except Stop M :=
  if policy.isLocal then
    match policy.storageRegistry with
    | [owner] =>
        if ndebug || decide (owner = mapping) then .ok owner
        else .error (.fatal "Assertion res.mapping == mapping failed.")
    | _ =>
        .error (.fatal "Invalid local list with multiple mapping registered !")
  else if mapping ∈ policy.storageRegistry then
    .ok mapping
  else
    .error (.fatal "Fail to found policy of given mapping !")

/-- `Policy::getStorageInfo(void *)`: the mapping that registered an element. -/
def getStorageInfoOfEntry (policy : Policy M Q)
    (entry : ListElement M) : Except Stop M :=
  if entry.1 ∈ policy.storageRegistry ∧
      entry.2 < (mappings entry.1).segments then
    .ok entry.1
  else
    .error (.fatal "Fail to found policy storage entry !")

/-! ## Critical sections -/

/-- The loop of `notifyTouch` and `shrinkMemory`: take elements out of the ring
while the counter is above the limit.  With an empty ring it goes on for
ever. -/
def evictLoop :
    Nat → List (ListElement M) → Policy M Q →
      Except Stop (List (ListElement M) × Policy M Q)
  | _, [], policy =>
      if policy.currentMemory ≤ policy.dynamicMaxMemory then
        .ok ([], policy.setRing [])
      else
        .error .endless
  | cntIdsToEvict, toEvict :: rest, policy =>
      if policy.currentMemory ≤ policy.dynamicMaxMemory then
        .ok ([], policy.setRing (toEvict :: rest))
      else do
        let mapping ← policy.getStorageInfoOfEntry mappings toEvict
        if cntIdsToEvict + 1 < maxIdsToEvict then
          let (idsToEvict, looped) ← evictLoop (cntIdsToEvict + 1) rest
            (policy.decrease (mappings mapping).segmentSize)
          .ok ((mapping, toEvict.2) :: idsToEvict, looped)
        else
          .error (.fatal reachMaximum)

end Policy

/-- The critical section of `FifoPolicy::notifyTouch`. -/
def FifoPolicy.notifyTouch {M Q : Type} [DecidableEq M] (mappings : M → Mapping)
    (ndebug : Bool) (policy : Policy M Q) (mapping : M)
    (index : Nat) : Except Stop (Touch M × Policy M Q) := do
  let memOrig := policy.currentMemory
  let storage ← policy.getStorageInfo ndebug mapping
  let cur : ListElement M := (storage, index)
  let isFirstAccess := decide (cur ∉ policy.ring)
  let inserted := policy.setRing (policy.ring.erase cur ++ [cur])
  let counted :=
    if isFirstAccess then inserted.increase (mappings mapping).segmentSize
    else inserted
  let (idsToEvict, looped) ← counted.evictLoop mappings 0 counted.ring
  .ok (⟨idsToEvict, isFirstAccess, memOrig⟩, looped)

/-- The critical section of `LifoPolicy::notifyTouch`.  The element is out of
the ring while the loop runs.  Inside the critical section `isFirstAccess` is a
variable of its own; the one that the code after it reads keeps its first
value. -/
def LifoPolicy.notifyTouch {M Q : Type} [DecidableEq M] (mappings : M → Mapping)
    (ndebug : Bool) (policy : Policy M Q) (mapping : M)
    (index : Nat) : Except Stop (Touch M × Policy M Q) := do
  let memOrig := policy.currentMemory
  let storage ← policy.getStorageInfo ndebug mapping
  let cur : ListElement M := (storage, index)
  let isFirstAccess := decide (cur ∉ policy.ring)
  let removed := policy.setRing (policy.ring.erase cur)
  let counted :=
    if isFirstAccess then removed.increase (mappings mapping).segmentSize
    else removed
  let (idsToEvict, looped) ← counted.evictLoop mappings 0 counted.ring
  .ok (⟨idsToEvict, false, memOrig⟩, looped.setRing (cur :: looped.ring))

namespace Policy

variable {M Q : Type} [DecidableEq M] (mappings : M → Mapping)

/-- The virtual call `notifyTouch`, up to the end of the critical section. -/
def notifyTouch (ndebug : Bool) (policy : Policy M Q) (mapping : M)
    (index : Nat) : Except Stop (Touch M × Policy M Q) :=
  match policy.kind with
  | .fifo => FifoPolicy.notifyTouch mappings ndebug policy mapping index
  | .lifo => LifoPolicy.notifyTouch mappings ndebug policy mapping index

/-- The critical section of `shrinkMemory`: the segments to evict. -/
def shrinkMemory (policy : Policy M Q) :
    Except Stop (List (ListElement M) × Policy M Q) :=
  policy.evictLoop mappings 0 policy.ring

/-- `notifyEvict` of both classes. -/
def notifyEvict (ndebug : Bool) (policy : Policy M Q) (mapping : M)
    (index : Nat) : Except Stop (Policy M Q) := do
  let storage ← policy.getStorageInfo ndebug mapping
  let cur : ListElement M := (storage, index)
  let isInList := decide (cur ∈ policy.ring)
  if isInList || ndebug then
    .ok (((policy.note (.notifyEvict cur isInList)).decrease
      (mappings mapping).segmentSize).setRing (policy.ring.erase cur))
  else
    .error (.fatal assertIsInList)

/-- The loop body of `freeElementStorage`. -/
def freeElement (segmentSize : Nat) (policy : Policy M Q)
    (cur : ListElement M) : Policy M Q :=
  let counted :=
    if cur ∈ policy.ring then policy.decrease segmentSize else policy
  counted.setRing (policy.ring.erase cur)

/-- `freeElementStorage` of both classes. -/
def freeElementStorage (ndebug : Bool) (policy : Policy M Q)
    (mapping : M) : Except Stop (Policy M Q) := do
  let storage ← policy.getStorageInfo ndebug mapping
  let freed := (List.range (mappings storage).segments).foldl
    (fun current index =>
      current.freeElement (mappings mapping).segmentSize (storage, index)) policy
  .ok { freed with
    storageRegistry := unregisterMapping mapping freed.storageRegistry }

end Policy

end UmmapIo
