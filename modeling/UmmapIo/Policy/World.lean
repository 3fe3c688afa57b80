import UmmapIo.Lib.RelyGuarantee
import UmmapIo.Mapping.Sequential
import UmmapIo.Policy.Touch
import UmmapIo.Quota.Defs

/-!
# Mappings, policies and quotas together

A set of mappings with their policies, and the quotas that policies are
registered to.  The atomic operations are the critical sections of the code: the
segment-mutex section of a fault, the policy-mutex section of a touch, the
segment-mutex section of an eviction, and so on.  What the section of a mapping
does to its memory is the effect computed by the mapping run alone.

Faults, evictions, quota updates and destructions are programs over these
sections.  Between two sections of a thread, other threads may run theirs.
-/

namespace UmmapIo

/-- What is fixed once the mappings exist.  Drivers report no error, as an error
ends the process, and do not map the storage directly, as such mappings take no
fault. -/
structure Setup (M P : Type) [Fintype M] where
  /-- The mappings. -/
  mapping : M → Mapping
  /-- The driver of each mapping. -/
  driver : M → Driver
  /-- The local policy of each mapping. -/
  localPolicy : M → Option P
  /-- The global policy of each mapping. -/
  globalPolicy : M → Option P
  /-- Assertions are compiled out. -/
  ndebug : Bool
  noError : ∀ mapping, (driver mapping).NoError
  indirect : ∀ mapping, (driver mapping).directMSync = false
  distinct : ∀ mapping policy, localPolicy mapping = some policy →
    globalPolicy mapping ≠ some policy
  space : AddressSpace mapping

/-- The state shared by the threads, with policies of the class `O`. -/
structure World (M P Q : Type) (O : Type := Policy M Q) where
  /-- Memory, statuses and storage of each mapping. -/
  core : M → Core
  /-- The mapping exists. -/
  live : M → Bool
  /-- The policies. -/
  policy : P → O
  /-- The quotas. -/
  quota : Q → Quota P

namespace World

section State

variable {M P Q O : Type} (world : World M P Q O)

/-- Replace the memory of a mapping. -/
@[simps] def setCore [DecidableEq M] (mapping : M) (core : Core) :
    World M P Q O :=
  { world with core := Function.update world.core mapping core }

/-- Create or destroy a mapping. -/
@[simps] def setLive [DecidableEq M] (mapping : M) (live : Bool) :
    World M P Q O :=
  { world with live := Function.update world.live mapping live }

/-- Replace the state of a policy. -/
@[simps] def setPolicy [DecidableEq P] (policy : P) (state : O) :
    World M P Q O :=
  { world with policy := Function.update world.policy policy state }

@[simp] theorem setPolicy_policy_self [DecidableEq P] (policy : P) (state : O) :
    (world.setPolicy policy state).policy policy = state := by
  rw [setPolicy_policy, Function.update_self]

theorem setPolicy_policy_of_ne [DecidableEq P] {policy other : P}
    (different : other ≠ policy) (state : O) :
    (world.setPolicy policy state).policy other = world.policy other := by
  rw [setPolicy_policy, Function.update_of_ne different]

/-- One policy takes a step of its own. -/
def stepPolicy [DecidableEq P] (step : O → Except Stop O) (policy : P) :
    Except Stop (World M P Q O) := do
  let state ← step (world.policy policy)
  .ok (world.setPolicy policy state)

/-- Replace the state of a quota. -/
@[simps] def setQuota [DecidableEq Q] (quota : Q) (state : Quota P) :
    World M P Q O :=
  { world with quota := Function.update world.quota quota state }

/-- The beginning of `PolicyQuotaInterProc::update`; nothing for a local
quota. -/
def shareQuota [DecidableEq Q] (quota : Q) : Except Stop (World M P Q O) :=
  match (world.quota quota).interProc with
  | none => .ok world
  | some interProc =>
      if 0 < interProc.processes then
        .ok (world.setQuota quota
          { world.quota quota with
            staticMaxMemory :=
              interProc.totalAllowed / interProc.processes })
      else
        .error (.fatal "Assertion this->shared->processes > 0 failed.")

/-- The answer of a section that may fail: a message ends the process, and an
endless loop is never answered. -/
def reply {α : Type}
    (result : Except Stop (α × World M P Q O)) :
    Option (Except String α × World M P Q O) :=
  match result with
  | .ok (value, after) => some (.ok value, after)
  | .error (.fatal message) => some (.error message, world)
  | .error .endless => none

/-- The answer of a section that returns nothing. -/
def replyUnit (result : Except Stop (World M P Q O)) :
    Option (Except String Unit × World M P Q O) :=
  world.reply (result.map fun after => ((), after))

end State

variable {M P Q : Type} (world : World M P Q)

/-- The registered policies of a quota with their memory. -/
def memories (quota : Q) : List (P × Nat) :=
  (world.quota quota).policies.map fun policy =>
    (policy, (world.policy policy).currentMemory)

/-- Memory of the mapped segments of all mappings. -/
def mappedMemory [Fintype M] [DecidableEq M] (mappings : M → Mapping) : Nat :=
  ∑ element ∈ (Policy.allElements mappings).filter fun element =>
      ((world.core element.1).status element.2).mapped = true,
    Policy.elementSize mappings element

/-! ## Sections of the quotas -/

variable [DecidableEq P] [DecidableEq Q]

/-- The critical section of `PolicyQuota::registerPolicy`. -/
def addPolicy (quota : Q) (policy : P) : Except Stop (World M P Q) := do
  let linked ← (world.policy policy).setQuota (some quota)
  .ok ((world.setPolicy policy linked).setQuota quota
    { world.quota quota with
      policies := (world.quota quota).policies ++ [policy] })

/-- The critical section of `PolicyQuota::unregisterPolicy`. -/
def removePolicy (quota : Q) (policy : P) : Except Stop (World M P Q) :=
  if policy ∈ (world.quota quota).policies then do
    let unlinked ← (world.policy policy).setQuota none
    .ok ((world.setPolicy policy unlinked).setQuota quota
      { world.quota quota with
        policies := (world.quota quota).policies.erase policy })
  else
    .error (.fatal "Did not found the policy to remove in the registed list !")

/-- `PolicyQuota::updateNotifyLimit`. -/
def updateNotifyLimit (quota : Q) : World M P Q :=
  (world.quota quota).policies.foldl
    (fun current policy =>
      current.setPolicy policy ((current.policy policy).setDynamicMaxMemory
        (world.quota quota).staticMaxMemory)) world

end World

namespace Setup

variable {M P Q : Type} [Fintype M] (setup : Setup M P)

/-- The policies of a mapping: the local one, then the global one. -/
def policiesOf (mapping : M) : List P :=
  (setup.localPolicy mapping).toList ++ (setup.globalPolicy mapping).toList

variable [DecidableEq M] [DecidableEq P]

/-- A notice of an eviction to one policy. -/
def notifyEvict (mapping : M) (segmentId : Nat) (world : World M P Q) :
    P → Except Stop (World M P Q) :=
  world.stepPolicy fun state =>
    state.notifyEvict setup.mapping setup.ndebug mapping segmentId

/-- The critical section of `Mapping::evict`: the policies of the mapping other
than the source are notified, then the segment is written back and withdrawn. -/
def evictSection (source : P) (mapping : M) (segmentId : Nat)
    (world : World M P Q) : Except Stop (World M P Q) := do
  let notified ←
    ((setup.policiesOf mapping).filter (· ≠ source)).foldlM
      (setup.notifyEvict mapping segmentId) world
  .ok (notified.setCore mapping ((notified.core mapping).evict
    (setup.mapping mapping) (setup.driver mapping) segmentId))

end Setup

/-- The atomic operations of a thread. -/
inductive PolicyOp (M P Q : Type) : Type
  | faultSection (mapping : M) (segmentId : Nat) (isWrite : Bool)
  | notifyTouch (policy : P) (mapping : M) (index : Nat)
  | shrinkMemory (policy : P)
  | evict (source : P) (mapping : M) (segmentId : Nat)
  | flush (mapping : M) (offset size : Nat) (flags : FlushFlags)
  | dropClean (mapping : M)
  | freeElementStorage (policy : P) (mapping : M)
  | close (mapping : M)
  | observe (policy : P)
  | registered (quota : Q)
  | setDynamicMaxMemory (policy : P) (dynamicMaxMemory : Nat)
  | addPolicy (quota : Q) (policy : P)
  | removePolicy (quota : Q) (policy : P)
  | updateNotifyLimit (quota : Q)
  | shareQuota (quota : Q)
  | never
  deriving DecidableEq

/-- What the operations answer. -/
def PolicyOp.Result {M P Q : Type} : PolicyOp M P Q → Type
  | .faultSection _ _ _ => Bool
  | .notifyTouch _ _ _ => Except String (Touch M)
  | .shrinkMemory _ => Except String (List (ListElement M))
  | .evict _ _ _ => Except String Unit
  | .flush _ _ _ _ => Unit
  | .dropClean _ => Unit
  | .freeElementStorage _ _ => Except String Unit
  | .close _ => Unit
  | .observe _ => Nat × Option Q
  | .registered _ => Nat × List (P × Nat)
  | .setDynamicMaxMemory _ _ => Unit
  | .addPolicy _ _ => Except String Unit
  | .removePolicy _ _ => Except String Unit
  | .updateNotifyLimit _ => Unit
  | .shareQuota _ => Except String Unit
  | .never => Unit

/-- The signature of the critical sections. -/
def policySignature (M P Q : Type) : Signature where
  Op := PolicyOp M P Q
  Result := PolicyOp.Result

/-- A program of a thread that works on mappings and policies. -/
abbrev PolicyProgram (M P Q α : Type) : Type :=
  Program (policySignature M P Q) α

namespace Setup

variable {M P Q : Type} [Fintype M] (setup : Setup M P)
variable [DecidableEq M] [DecidableEq P] [DecidableEq Q]

/-- How the machine answers. -/
def handle : Handler (policySignature M P Q) (World M P Q)
  | .faultSection mapping segmentId isWrite, world =>
      some (Mapping.alreadyDone isWrite ((world.core mapping).status segmentId),
        world.setCore mapping ((world.core mapping).fault
          (setup.mapping mapping) (setup.driver mapping) segmentId isWrite))
  | .notifyTouch policy mapping index, world =>
      world.reply (((world.policy policy).notifyTouch setup.mapping setup.ndebug
        mapping index).map fun result =>
          (result.1, world.setPolicy policy result.2))
  | .shrinkMemory policy, world =>
      world.reply (((world.policy policy).shrinkMemory setup.mapping).map
        fun result => (result.1, world.setPolicy policy result.2))
  | .evict source mapping segmentId, world =>
      world.replyUnit (setup.evictSection source mapping segmentId world)
  | .flush mapping offset size flags, world =>
      some ((), world.setCore mapping ((world.core mapping).flush
        (setup.mapping mapping) (setup.driver mapping) offset size flags))
  | .dropClean mapping, world =>
      some ((), world.setCore mapping
        ((world.core mapping).dropClean (setup.mapping mapping)))
  | .freeElementStorage policy mapping, world =>
      world.replyUnit (((world.policy policy).freeElementStorage setup.mapping
        setup.ndebug mapping).map fun state => world.setPolicy policy state)
  | .close mapping, world => some ((), world.setLive mapping false)
  | .observe policy, world =>
      some (((world.policy policy).currentMemory,
        (world.policy policy).policyQuota), world)
  | .registered quota, world =>
      some (((world.quota quota).staticMaxMemory, world.memories quota), world)
  | .setDynamicMaxMemory policy dynamicMaxMemory, world =>
      some ((), world.setPolicy policy
        ((world.policy policy).setDynamicMaxMemory dynamicMaxMemory))
  | .addPolicy quota policy, world =>
      world.replyUnit (world.addPolicy quota policy)
  | .removePolicy quota policy, world =>
      world.replyUnit (world.removePolicy quota policy)
  | .updateNotifyLimit quota, world =>
      some ((), world.updateNotifyLimit quota)
  | .shareQuota quota, world =>
      world.replyUnit (world.shareQuota quota)
  | .never, _ => none

end Setup

end UmmapIo
