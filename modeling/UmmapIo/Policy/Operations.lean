import UmmapIo.Policy.World

/-!
# Operations on mappings with policies

The parts of `core/Mapping.cpp`, `policies/`, `core/PolicyQuota.cpp` and
`core/PolicyQuotaLocal.cpp` that call each other, as programs over the critical
sections.  A touch evicts outside of its critical section and may ask the quota
for an update, which shrinks other policies, which evict in turn.
-/

namespace UmmapIo

/-! ## Critical sections as programs -/

namespace Section

open Program (request)

variable {M P Q : Type}

/-- The critical section of `Mapping::onSegmentationFault`; the answer tells
whether the access was already allowed. -/
def faultSection (mapping : M) (segmentId : Nat) (isWrite : Bool) :
    PolicyProgram M P Q Bool :=
  request (E := policySignature M P Q) (.faultSection mapping segmentId isWrite)

/-- The critical section of `notifyTouch`. -/
def notifyTouch (policy : P) (mapping : M) (index : Nat) :
    PolicyProgram M P Q (Except String (Touch M)) :=
  request (E := policySignature M P Q) (.notifyTouch policy mapping index)

/-- The critical section of `shrinkMemory`. -/
def shrinkMemory (policy : P) :
    PolicyProgram M P Q (Except String (List (ListElement M))) :=
  request (E := policySignature M P Q) (.shrinkMemory policy)

/-- The critical section of `Mapping::evict`. -/
def evict (source : P) (mapping : M) (segmentId : Nat) :
    PolicyProgram M P Q (Except String Unit) :=
  request (E := policySignature M P Q) (.evict source mapping segmentId)

/-- The critical section of `Mapping::flush`. -/
def flush (mapping : M) (offset size : Nat) (flags : FlushFlags) :
    PolicyProgram M P Q Unit :=
  request (E := policySignature M P Q) (.flush mapping offset size flags)

/-- The critical section of `Mapping::dropClean`. -/
def dropClean (mapping : M) : PolicyProgram M P Q Unit :=
  request (E := policySignature M P Q) (.dropClean mapping)

/-- `freeElementStorage`. -/
def freeElementStorage (policy : P) (mapping : M) :
    PolicyProgram M P Q (Except String Unit) :=
  request (E := policySignature M P Q) (.freeElementStorage policy mapping)

/-- The mapping is gone. -/
def close (mapping : M) : PolicyProgram M P Q Unit :=
  request (E := policySignature M P Q) (.close mapping)

/-- `getCurrentMemory` and the quota of a policy. -/
def observe (policy : P) : PolicyProgram M P Q (Nat × Option Q) :=
  request (E := policySignature M P Q) (.observe policy)

/-- The maximum of a quota and the policies registered to it with their
memory. -/
def registered (quota : Q) : PolicyProgram M P Q (Nat × List (P × Nat)) :=
  request (E := policySignature M P Q) (.registered quota)

/-- `setDynamicMaxMemory`. -/
def setDynamicMaxMemory (policy : P) (dynamicMaxMemory : Nat) :
    PolicyProgram M P Q Unit :=
  request (E := policySignature M P Q) (.setDynamicMaxMemory policy dynamicMaxMemory)

/-- The critical section of `registerPolicy`. -/
def addPolicy (quota : Q) (policy : P) :
    PolicyProgram M P Q (Except String Unit) :=
  request (E := policySignature M P Q) (.addPolicy quota policy)

/-- The critical section of `unregisterPolicy`. -/
def removePolicy (quota : Q) (policy : P) :
    PolicyProgram M P Q (Except String Unit) :=
  request (E := policySignature M P Q) (.removePolicy quota policy)

/-- `updateNotifyLimit`. -/
def updateNotifyLimit (quota : Q) : PolicyProgram M P Q Unit :=
  request (E := policySignature M P Q) (.updateNotifyLimit quota)

/-- The share of an inter-process quota. -/
def shareQuota (quota : Q) : PolicyProgram M P Q (Except String Unit) :=
  request (E := policySignature M P Q) (.shareQuota quota)

/-- A loop that is not followed any further. -/
def never : PolicyProgram M P Q Unit :=
  request (E := policySignature M P Q) .never

end Section

namespace PolicyProgram

variable {M P Q : Type}

/-! ## Evictions and quota updates -/

/-- `Mapping::evict`. -/
def evict (source : P) (element : ListElement M) : PolicyProgram M P Q Unit := do
  let answer ← Section.evict source element.1 element.2
  Program.ofExcept answer

/-- `shrinkMemory`: the evictions follow the critical section. -/
def shrinkMemory (policy : P) : PolicyProgram M P Q Unit := do
  let answer ← Section.shrinkMemory policy
  let idsToEvict ← Program.ofExcept answer
  Program.each (evict policy) idsToEvict

/-- The loop of `PolicyQuotaLocal::update`, followed for a number of rounds. -/
def updateLoop (quota : Q) (averageMem : Nat) : Nat → PolicyProgram M P Q Unit
  | 0 => Section.never
  | rounds + 1 => do
      let (staticMaxMemory, memories) ← Section.registered quota
      match memories with
      | [] => pure ()
      | first :: _ =>
          if Quota.getUsedMemory memories > staticMaxMemory then
            let largest := Quota.polMax first memories
            Section.setDynamicMaxMemory largest.1
              (Quota.shrunkLimit averageMem largest.2)
            shrinkMemory largest.1
            updateLoop quota averageMem rounds
          else
            pure ()

/-- `PolicyQuotaLocal::update` and `PolicyQuotaInterProc::update`. -/
def update (rounds : Nat) (quota : Q) : PolicyProgram M P Q Unit := do
  let answer ← Section.shareQuota quota
  Program.ofExcept answer
  let (staticMaxMemory, memories) ← Section.registered quota
  Program.when (!memories.isEmpty)
    (updateLoop quota (staticMaxMemory / memories.length) rounds)

/-- `PolicyQuota::registerPolicy`. -/
def registerPolicy (rounds : Nat) (quota : Q) (policy : P) :
    PolicyProgram M P Q Unit := do
  let answer ← Section.addPolicy quota policy
  Program.ofExcept answer
  Section.updateNotifyLimit quota
  update rounds quota

/-- `PolicyQuota::unregisterPolicy`. -/
def unregisterPolicy (rounds : Nat) (quota : Q) (policy : P) :
    PolicyProgram M P Q Unit := do
  let answer ← Section.removePolicy quota policy
  Program.ofExcept answer
  Section.updateNotifyLimit quota
  update rounds quota

/-! ## Touches -/

/-- The end of `notifyTouch`: ask the quota to redistribute if needed. -/
def notifyQuota (rounds : Nat) (policy : P) (touch : Touch M) :
    PolicyProgram M P Q Unit := do
  let (currentMemory, policyQuota) ← Section.observe policy
  match policyQuota with
  | none => pure ()
  | some quota =>
      Program.when (touch.isFirstAccess && wordIncreased currentMemory touch.memOrig)
        (update rounds quota)

/-- `notifyTouch` of both policy classes. -/
def notifyTouch (rounds : Nat) (policy : P) (element : ListElement M) :
    PolicyProgram M P Q Unit := do
  let answer ← Section.notifyTouch policy element.1 element.2
  let touch ← Program.ofExcept answer
  Program.each (evict policy) touch.idsToEvict
  notifyQuota rounds policy touch

/-- `~Policy`: leave the quota. -/
def deletePolicy (rounds : Nat) (policy : P) : PolicyProgram M P Q Unit := do
  let (_, policyQuota) ← Section.observe policy
  match policyQuota with
  | none => pure ()
  | some quota => unregisterPolicy rounds quota policy

end PolicyProgram

namespace Setup

open PolicyProgram

variable {M P Q : Type} [Fintype M] (setup : Setup M P)

/-! ## Operations of a mapping -/

/-- `Mapping::onSegmentationFault`: the local policy is notified before the
global one. -/
def onSegmentationFault (rounds : Nat) (mapping : M) (address : Nat)
    (isWrite : Bool) : PolicyProgram M P Q Unit :=
  (setup.mapping mapping).checkFault address isWrite fun segmentId => do
    let alreadyDone ← Section.faultSection mapping segmentId isWrite
    Program.when (!alreadyDone)
      (Program.each (fun policy => notifyTouch rounds policy (mapping, segmentId))
        (setup.policiesOf mapping))

/-- `Mapping::flush(offset, size, flags)`. -/
def flush (mapping : M) (offset size : Nat) (flags : FlushFlags) :
    PolicyProgram M P Q Unit :=
  (setup.mapping mapping).checkFlush offset size
    (Section.flush mapping offset size flags)

/-- `Mapping::~Mapping`, as far as policies are concerned. -/
def destroy (rounds : Nat) (mapping : M) : PolicyProgram M P Q Unit := do
  Program.each
    (fun policy => do
      let answer ← Section.freeElementStorage policy mapping
      Program.ofExcept answer)
    (setup.policiesOf mapping)
  Program.each (deletePolicy rounds) (setup.localPolicy mapping).toList
  Section.close mapping

end Setup

end UmmapIo
