import UmmapIo.Mixed.Balance

/-!
# Mappings with policies of any class

The calls of a policy are virtual: the object decides between the FIFO, LIFO and
fifo-window classes.  The programs of a thread are the ones for FIFO and LIFO
policies, with the sections of the policies answered by the objects.
-/

namespace UmmapIo

/-- An object of one of the policy classes. -/
inductive PolicyObject (M Q : Type) : Type
  | plain (policy : Policy M Q)
  | window (policy : FifoWindowPolicy M Q)

namespace PolicyObject

variable {M Q : Type}

/-- The part inherited from `Policy`. -/
def base : PolicyObject M Q → Policy M Q
  | .plain policy => policy
  | .window policy => policy.base

/-- `getCurrentMemory`. -/
def getCurrentMemory : PolicyObject M Q → Nat
  | .plain policy => policy.currentMemory
  | .window policy => policy.getCurrentMemory

/-- The elements that are in a list. -/
def listed : PolicyObject M Q → List (ListElement M)
  | .plain policy => policy.ring
  | .window policy => policy.rootFixedWindow ++ policy.rootSlidingWindow

/-- `Policy::setDynamicMaxMemory`. -/
def setDynamicMaxMemory (dynamicMaxMemory : Nat) :
    PolicyObject M Q → PolicyObject M Q
  | .plain policy => .plain (policy.setDynamicMaxMemory dynamicMaxMemory)
  | .window policy => .window (policy.setDynamicMaxMemory dynamicMaxMemory)

/-- `Policy::setQuota`. -/
def setQuota (quota : Option Q) :
    PolicyObject M Q → Except Stop (PolicyObject M Q)
  | .plain policy => (policy.setQuota quota).map .plain
  | .window policy => (policy.setQuota quota).map .window

variable [DecidableEq M] (mappings : M → Mapping)

/-- `allocateElementStorage`. -/
def registerMapping (mapping : M) :
    PolicyObject M Q → Except Stop (PolicyObject M Q)
  | .plain policy => (policy.registerMapping mappings mapping).map .plain
  | .window policy => (policy.registerMapping mappings mapping).map .window

/-- The virtual call `notifyTouch`, up to the end of the critical section. -/
def notifyTouch (ndebug : Bool) (mapping : M) (index : Nat) :
    PolicyObject M Q → Except Stop (Touch M × PolicyObject M Q)
  | .plain policy =>
      (policy.notifyTouch mappings ndebug mapping index).map fun result =>
        (result.1, .plain result.2)
  | .window policy =>
      (policy.notifyTouch mappings ndebug mapping index).map fun result =>
        (result.1, .window result.2)

/-- The critical section of the virtual call `shrinkMemory`. -/
def shrinkMemory :
    PolicyObject M Q → Except Stop (List (ListElement M) × PolicyObject M Q)
  | .plain policy =>
      (policy.shrinkMemory mappings).map fun result =>
        (result.1, .plain result.2)
  | .window policy =>
      (policy.shrinkMemory mappings).map fun result =>
        (result.1, .window result.2)

/-- The virtual call `notifyEvict`. -/
def notifyEvict (ndebug : Bool) (mapping : M) (index : Nat) :
    PolicyObject M Q → Except Stop (PolicyObject M Q)
  | .plain policy =>
      (policy.notifyEvict mappings ndebug mapping index).map .plain
  | .window policy =>
      (policy.notifyEvict mappings ndebug mapping index).map .window

/-- The virtual call `freeElementStorage`. -/
def freeElementStorage (ndebug : Bool) (mapping : M) :
    PolicyObject M Q → Except Stop (PolicyObject M Q)
  | .plain policy =>
      (policy.freeElementStorage mappings ndebug mapping).map .plain
  | .window policy =>
      (policy.freeElementStorage mappings ndebug mapping).map .window

end PolicyObject

/-- The state shared by the threads. -/
abbrev MixedWorld (M P Q : Type) : Type :=
  World M P Q (PolicyObject M Q)

namespace MixedWorld

variable {M P Q : Type} (world : MixedWorld M P Q)

/-- The registered policies of a quota with their memory. -/
def memories (quota : Q) : List (P × Nat) :=
  (world.quota quota).policies.map fun policy =>
    (policy, (world.policy policy).getCurrentMemory)

/-! ## Sections of the quotas -/

variable [DecidableEq P] [DecidableEq Q]

/-- The critical section of `PolicyQuota::registerPolicy`. -/
def addPolicy (quota : Q) (policy : P) : Except Stop (MixedWorld M P Q) := do
  let linked ← (world.policy policy).setQuota (some quota)
  .ok ((world.setPolicy policy linked).setQuota quota
    { world.quota quota with
      policies := (world.quota quota).policies ++ [policy] })

/-- The critical section of `PolicyQuota::unregisterPolicy`. -/
def removePolicy (quota : Q) (policy : P) :
    Except Stop (MixedWorld M P Q) :=
  if policy ∈ (world.quota quota).policies then do
    let unlinked ← (world.policy policy).setQuota none
    .ok ((world.setPolicy policy unlinked).setQuota quota
      { world.quota quota with
        policies := (world.quota quota).policies.erase policy })
  else
    .error (.fatal "Did not found the policy to remove in the registed list !")

/-- `PolicyQuota::updateNotifyLimit`. -/
def updateNotifyLimit (quota : Q) : MixedWorld M P Q :=
  (world.quota quota).policies.foldl
    (fun current policy =>
      current.setPolicy policy ((current.policy policy).setDynamicMaxMemory
        (world.quota quota).staticMaxMemory)) world

end MixedWorld

namespace Setup

variable {M P Q : Type} [Fintype M] (setup : Setup M P) [DecidableEq M] [DecidableEq P]

/-- A notice of an eviction to one policy. -/
def notifyEvictMixed (mapping : M) (segmentId : Nat) (world : MixedWorld M P Q) :
    P → Except Stop (MixedWorld M P Q) :=
  world.stepPolicy fun state =>
    state.notifyEvict setup.mapping setup.ndebug mapping segmentId

/-- The critical section of `Mapping::evict`. -/
def evictSectionMixed (source : P) (mapping : M) (segmentId : Nat)
    (world : MixedWorld M P Q) : Except Stop (MixedWorld M P Q) := do
  let notified ←
    ((setup.policiesOf mapping).filter (· ≠ source)).foldlM
      (setup.notifyEvictMixed mapping segmentId) world
  .ok (notified.setCore mapping ((notified.core mapping).evict
    (setup.mapping mapping) (setup.driver mapping) segmentId))

variable [DecidableEq Q]

/-- How the machine answers. -/
def handleMixed : Handler (policySignature M P Q) (MixedWorld M P Q)
  | .faultSection mapping segmentId isWrite, world =>
      some (Mapping.alreadyDone isWrite ((world.core mapping).status segmentId),
        world.setCore mapping ((world.core mapping).fault
          (setup.mapping mapping) (setup.driver mapping) segmentId isWrite))
  | .notifyTouch policy mapping index, world =>
      world.reply (((world.policy policy).notifyTouch setup.mapping setup.ndebug
        mapping index).map fun result =>
          (result.1, world.setPolicy policy result.2))
  | .shrinkMemory policy, world =>
      world.reply (((world.policy policy).shrinkMemory setup.mapping).map
        fun result => (result.1, world.setPolicy policy result.2))
  | .evict source mapping segmentId, world =>
      world.replyUnit (setup.evictSectionMixed source mapping segmentId world)
  | .flush mapping offset size flags, world =>
      some ((), world.setCore mapping ((world.core mapping).flush
        (setup.mapping mapping) (setup.driver mapping) offset size flags))
  | .dropClean mapping, world =>
      some ((), world.setCore mapping
        ((world.core mapping).dropClean (setup.mapping mapping)))
  | .freeElementStorage policy mapping, world =>
      world.replyUnit (((world.policy policy).freeElementStorage setup.mapping
        setup.ndebug mapping).map fun state => world.setPolicy policy state)
  | .close mapping, world => some ((), world.setLive mapping false)
  | .observe policy, world =>
      some (((world.policy policy).getCurrentMemory,
        (world.policy policy).base.policyQuota), world)
  | .registered quota, world =>
      some (((world.quota quota).staticMaxMemory, world.memories quota), world)
  | .setDynamicMaxMemory policy dynamicMaxMemory, world =>
      some ((), world.setPolicy policy
        ((world.policy policy).setDynamicMaxMemory dynamicMaxMemory))
  | .addPolicy quota policy, world =>
      world.replyUnit (world.addPolicy quota policy)
  | .removePolicy quota policy, world =>
      world.replyUnit (world.removePolicy quota policy)
  | .updateNotifyLimit quota, world =>
      some ((), world.updateNotifyLimit quota)
  | .shareQuota quota, world =>
      world.replyUnit (world.shareQuota quota)
  | .never, _ => none

end Setup

end UmmapIo
