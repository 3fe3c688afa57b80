import UmmapIo.Lib.LockOrder
import UmmapIo.Policy.Operations

/-!
# The mutexes of mappings, policies and quotas

The operations on mappings, policies and quotas with every mutex that the code
takes and releases.  Between two operations on mutexes a thread works on the
data, which is left open: whatever these steps answer, the mutexes are taken in
the same order.  All three policy classes take their mutexes in the same way.
-/

namespace UmmapIo

/-- The mutexes of the process. -/
inductive Mutex (M P Q : Type) : Type
  /-- `PolicyQuota::mutex`. -/
  | quota (quota : Q)
  /-- An element of `Mapping::segmentMutexes`. -/
  | segment (mapping : M) (index : Nat)
  /-- `Policy::localMutex`. -/
  | policy (policy : P)
  deriving DecidableEq

namespace Mutex

variable {M P Q : Type}

/-- Only `Policy::localMutex` is a `std::recursive_mutex`. -/
def recursive : Mutex M P Q → Bool
  | .policy _ => true
  | _ => false

/-- Quota mutexes come before segment mutexes, which come before policy mutexes.
Among the segment mutexes of one mapping, which has `count` of them, the index
decides; those of different mappings are not taken together. -/
def Precedes (count : M → Nat) : Mutex M P Q → Mutex M P Q → Prop
  | .quota _, .segment _ _ => True
  | .quota _, .policy _ => True
  | .segment mapping index, .segment mapping' index' =>
      mapping = mapping' ∧ index < index' ∧ index' < count mapping
  | .segment _ _, .policy _ => True
  | _, _ => False

/-- The rules that the operations keep to. -/
def rules (count : M → Nat) : LockRules (Mutex M P Q) :=
  ⟨recursive, Precedes count⟩

end Mutex

/-! ## Steps between operations on mutexes -/

/-- What a thread does between operations on mutexes. -/
inductive DataOp (M P Q : Type) : Type
  /-- A critical section without its mutexes, or an access outside of any. -/
  | plain (op : PolicyOp M P Q)
  /-- The body of `notifyEvict`. -/
  | notifyEvict (policy : P) (mapping : M) (segmentId : Nat)
  /-- The loop of `Mapping::markCleanAsDirty`. -/
  | markCleanAsDirty (mapping : M)
  /-- `Driver::pread` into a buffer. -/
  | preadBuffer (mapping : M) (size offset : Nat)
  /-- Store a byte. -/
  | store (mapping : M) (offset : Nat) (value : Byte)
  /-- Read `gblPolicyQuotaInterProc`. -/
  | interProc
  /-- Set `gblPolicyQuotaInterProcAllowSignal`. -/
  | setAllowSignal (allow : Bool)
  /-- Read `gblPolicyQuotaInterProcHasPendingSignal`. -/
  | hasPendingSignal
  /-- Clear `gblPolicyQuotaInterProcHasPendingSignal`. -/
  | clearPendingSignal
  deriving DecidableEq

/-- What the steps answer. -/
def DataOp.Result {M P Q : Type} : DataOp M P Q → Type
  | .plain op => op.Result
  | .notifyEvict _ _ _ => Except String Unit
  | .markCleanAsDirty _ => Unit
  | .preadBuffer _ _ _ => Int × (Nat → Byte)
  | .store _ _ _ => Bool
  | .interProc => Option Q
  | .setAllowSignal _ => Unit
  | .hasPendingSignal => Bool
  | .clearPendingSignal => Unit

/-- The signature of the steps. -/
def dataSignature (M P Q : Type) : Signature where
  Op := DataOp M P Q
  Result := DataOp.Result

/-- A program of a thread that takes mutexes. -/
abbrev LockedProgram (M P Q α : Type) : Type :=
  Program (locking (Mutex M P Q) (dataSignature M P Q)) α

namespace LockedProgram

variable {M P Q : Type}

/-- A step of the data. -/
def step (op : DataOp M P Q) : LockedProgram M P Q op.Result :=
  Locking.other (E := dataSignature M P Q) op

/-- A critical section without its mutexes, or an access outside of any. -/
def plain (op : PolicyOp M P Q) : LockedProgram M P Q op.Result :=
  step (.plain op)

end LockedProgram

/-! ## Operations -/

/-- What decides which mutexes are taken. -/
structure Layout (M P : Type) where
  /-- The mappings. -/
  mapping : M → Mapping
  /-- The driver maps the storage directly. -/
  directMSync : M → Bool
  /-- The local policy of each mapping. -/
  localPolicy : M → Option P
  /-- The global policy of each mapping. -/
  globalPolicy : M → Option P
  /-- The policy was created as a local one. -/
  isLocal : P → Bool
  /-- The policy whose mutex `mutexPtr` points to: the policy itself, or the
  global policy after `forceUsingGroupMutex`. -/
  mutexPtr : P → P

namespace Layout

open LockedProgram (step plain)
open Locking (guarded guardedAll)

variable {M P Q : Type} (layout : Layout M P)

/-- The number of segment mutexes of each mapping. -/
def mutexCount (mapping : M) : Nat :=
  (layout.mapping mapping).segmentMutexesCnt

/-- The policies of a mapping: the local one, then the global one. -/
def policiesOf (mapping : M) : List P :=
  (layout.localPolicy mapping).toList ++ (layout.globalPolicy mapping).toList

/-- `*this->mutexPtr` of a policy. -/
def policyMutex (policy : P) : Mutex M P Q :=
  .policy (layout.mutexPtr policy)

/-- The mutex of a segment. -/
def segmentMutex (mapping : M) (segmentId : Nat) : Mutex M P Q :=
  .segment mapping ((layout.mapping mapping).mutexId segmentId)

/-! ### Policies and evictions -/

/-- `Policy::getStorageInfo(Mapping *)`: a local policy takes no mutex. -/
def getStorageInfo (policy : P) : LockedProgram M P Q Unit :=
  Program.when (!layout.isLocal policy) (guarded (layout.policyMutex policy) (pure ()))

/-- `Policy::getStorageInfo(void *)`. -/
def getStorageInfoOfEntry (policy : P) : LockedProgram M P Q Unit :=
  guarded (layout.policyMutex policy) (pure ())

/-- `notifyEvict`. -/
def notifyEvict (mapping : M) (segmentId : Nat) (policy : P) :
    LockedProgram M P Q Unit :=
  guarded (layout.policyMutex policy) do
    layout.getStorageInfo policy
    let answer ← step (.notifyEvict policy mapping segmentId)
    Program.ofExcept answer

/-- `Mapping::flush(offset, size, flags)`, over a driver whose `sync` of this range is
the given program. -/
def flushWith (sync : LockedProgram M P Q Unit) (mapping : M) (offset size : Nat)
    (flags : FlushFlags) : LockedProgram M P Q Unit :=
  (layout.mapping mapping).checkFlush offset size
    (Program.when (!layout.directMSync mapping)
      (guardedAll (((layout.mapping mapping).flushMutexes offset size flags).map
        (.segment mapping)) do
          plain (.flush mapping offset size flags)
          Program.when flags.sync sync))

/-- A flush whose `sync` takes no mutex. -/
def flush (mapping : M) (offset size : Nat) (flags : FlushFlags) :
    LockedProgram M P Q Unit :=
  layout.flushWith (pure ()) mapping offset size flags

/-- `Mapping::evict`. -/
def evict [DecidableEq P] (source : P) (element : ListElement M) :
    LockedProgram M P Q Unit :=
  guarded (layout.segmentMutex element.1 element.2) do
    Program.each (layout.notifyEvict element.1 element.2)
      ((layout.policiesOf element.1).filter (· ≠ source))
    layout.flush element.1 (element.2 * (layout.mapping element.1).segmentSize)
      (layout.mapping element.1).segmentSize ⟨false, true, true⟩

/-- `Mapping::dropClean`. -/
def dropClean (mapping : M) : LockedProgram M P Q Unit :=
  guardedAll ((List.range (layout.mutexCount mapping)).map (.segment mapping))
    (plain (.dropClean mapping))

/-- `Mapping::markCleanAsDirty`. -/
def markCleanAsDirty (mapping : M) : LockedProgram M P Q Unit :=
  guardedAll ((List.range (layout.mutexCount mapping)).map (.segment mapping))
    (step (.markCleanAsDirty mapping))

variable [DecidableEq P]

/-- `shrinkMemory`. -/
def shrinkMemory (policy : P) : LockedProgram M P Q Unit := do
  let idsToEvict ← guarded (layout.policyMutex policy) do
    let answer ← plain (.shrinkMemory policy)
    let idsToEvict ← Program.ofExcept answer
    Program.each (fun _ => layout.getStorageInfoOfEntry policy) idsToEvict
    pure idsToEvict
  Program.each (layout.evict policy) idsToEvict

/-! ### Quotas -/

/-- The loop of `PolicyQuotaLocal::update`, followed for a number of rounds. -/
def updateLoop (quota : Q) (averageMem : Nat) : Nat → LockedProgram M P Q Unit
  | 0 => plain .never
  | rounds + 1 => do
      let (staticMaxMemory, memories) ← plain (.registered quota)
      match memories with
      | [] => pure ()
      | first :: _ =>
          if Quota.getUsedMemory memories > staticMaxMemory then
            let largest := Quota.polMax first memories
            plain (.setDynamicMaxMemory largest.1
              (Quota.shrunkLimit averageMem largest.2))
            layout.shrinkMemory largest.1
            updateLoop quota averageMem rounds
          else
            pure ()

/-- `PolicyQuotaLocal::update`, with the computation of the share before it for
`PolicyQuotaInterProc::update`. -/
def update (rounds : Nat) (quota : Q) : LockedProgram M P Q Unit := do
  let answer ← plain (.shareQuota quota)
  Program.ofExcept answer
  guarded (.quota quota) do
    let (staticMaxMemory, memories) ← plain (.registered quota)
    Program.when (!memories.isEmpty)
      (layout.updateLoop quota (staticMaxMemory / memories.length) rounds)

/-- `PolicyQuota::registerPolicy`: the new limits are set without a mutex. -/
def registerPolicy (rounds : Nat) (quota : Q) (policy : P) :
    LockedProgram M P Q Unit := do
  guarded (.quota quota) do
    let answer ← plain (.addPolicy quota policy)
    Program.ofExcept answer
  plain (.updateNotifyLimit quota)
  layout.update rounds quota

/-- `PolicyQuota::unregisterPolicy`. -/
def unregisterPolicy (rounds : Nat) (quota : Q) (policy : P) :
    LockedProgram M P Q Unit := do
  guarded (.quota quota) do
    let answer ← plain (.removePolicy quota policy)
    Program.ofExcept answer
  plain (.updateNotifyLimit quota)
  layout.update rounds quota

/-! ### Touches and faults -/

/-- The end of `notifyTouch`: ask the quota to redistribute if needed. -/
def notifyQuota (rounds : Nat) (policy : P) (touch : Touch M) :
    LockedProgram M P Q Unit := do
  let (currentMemory, policyQuota) ← plain (.observe policy)
  match policyQuota with
  | none => pure ()
  | some quota =>
      Program.when (touch.isFirstAccess && wordIncreased currentMemory touch.memOrig)
        (layout.update rounds quota)

/-- `notifyTouch`. -/
def notifyTouch (rounds : Nat) (policy : P) (element : ListElement M) :
    LockedProgram M P Q Unit := do
  let touch ← guarded (layout.policyMutex policy) do
    layout.getStorageInfo policy
    let answer ← plain (.notifyTouch policy element.1 element.2)
    let touch ← Program.ofExcept answer
    Program.each (fun _ => layout.getStorageInfoOfEntry policy) touch.idsToEvict
    pure touch
  Program.each (layout.evict policy) touch.idsToEvict
  layout.notifyQuota rounds policy touch

/-- `Mapping::onSegmentationFault`. -/
def onSegmentationFault (rounds : Nat) (mapping : M) (address : Nat)
    (isWrite : Bool) : LockedProgram M P Q Unit :=
  (layout.mapping mapping).checkFault address isWrite fun segmentId => do
    let alreadyDone ← guarded (layout.segmentMutex mapping segmentId)
      (plain (.faultSection mapping segmentId isWrite))
    Program.when (!alreadyDone)
      (Program.each
        (fun policy => layout.notifyTouch rounds policy (mapping, segmentId))
        (layout.policiesOf mapping))

/-! ### Signals -/

/-- `sigHandler`. -/
def sigHandler (rounds : Nat) : LockedProgram M P Q Unit := do
  let interProc ← step .interProc
  match interProc with
  | none => pure ()
  | some quota => layout.update rounds quota

/-- `PolicyQuotaInterProc::deferSignal`. -/
def deferSignal : LockedProgram M P Q Unit := do
  let interProc ← step .interProc
  match interProc with
  | none => pure ()
  | some _ => step (.setAllowSignal false)

/-- The loop of `PolicyQuotaInterProc::runDeferedSignal`, followed for a number of
rounds. -/
def runDeferedLoop (rounds : Nat) (quota : Q) : Nat → LockedProgram M P Q Unit
  | 0 => plain .never
  | more + 1 => do
      let pending ← step .hasPendingSignal
      match pending with
      | false => pure ()
      | true =>
          step .clearPendingSignal
          layout.update rounds quota
          runDeferedLoop rounds quota more

/-- `PolicyQuotaInterProc::runDeferedSignal`. -/
def runDeferedSignal (rounds : Nat) : LockedProgram M P Q Unit := do
  let interProc ← step .interProc
  match interProc with
  | none => pure ()
  | some quota =>
      layout.runDeferedLoop rounds quota rounds
      step (.setAllowSignal true)

/-- `GlobalHandler::onSegFault` for an address of a mapping. -/
def onSegFault (rounds : Nat) (mapping : M) (address : Nat)
    (isWrite : Bool) : LockedProgram M P Q Unit := do
  deferSignal
  layout.onSegmentationFault rounds mapping address isWrite
  layout.runDeferedSignal rounds

/-! ### Drivers that access the mapping -/

/-- A byte store of a driver to the mapped range: pages that cannot be written raise a
fault. -/
def storeByte (rounds : Nat) (mapping : M) (offset : Nat) (value : Byte) :
    Nat → LockedProgram M P Q Unit
  | 0 => plain .never
  | attempts + 1 => do
      let stored ← step (.store mapping offset value)
      match stored with
      | true => pure ()
      | false =>
          layout.onSegFault rounds mapping
            ((layout.mapping mapping).baseAddress + offset) true
          storeByte rounds mapping offset value attempts

/-- `CDriver::sync`: the `pread` callback of the client copies what it has read to the
base address of the mapping. -/
def cDriverSync (rounds attempts : Nat) (mapping : M) (offset size : Nat) :
    LockedProgram M P Q Unit := do
  let answer ← step (.preadBuffer mapping offset size)
  match answer with
  | (res, buffer) =>
      Program.each (fun position =>
        layout.storeByte rounds mapping position (buffer position) attempts)
        (List.range' 0 (Core.transferred res offset))

end Layout

/-! ## The data -/

/-- Everything but the mutexes. -/
structure SignalState (T : Type) (M P Q : Type) where
  /-- `gblPolicyQuotaInterProcAllowSignal` of each thread. -/
  allowSignal : T → Bool
  /-- `gblPolicyQuotaInterProcHasPendingSignal` of each thread. -/
  hasPendingSignal : T → Bool
  /-- Mappings, policies and quotas. -/
  world : World M P Q

namespace SignalState

variable {T M P Q : Type}

/-- No thread has deferred a signal. -/
def start (world : World M P Q) : SignalState T M P Q :=
  ⟨fun _ => true, fun _ => false, world⟩

/-- The answer of a step on mappings, policies and quotas. -/
def ofWorld {α : Type} (state : SignalState T M P Q)
    (answer : Option (α × World M P Q)) : Option (α × SignalState T M P Q) :=
  answer.map fun pair => (pair.1, { state with world := pair.2 })

end SignalState

namespace Setup

variable {T M P Q : Type} [Fintype M] (setup : Setup M P)

/-- What decides which mutexes are taken in a setup. -/
@[simps] def layout (isLocal : P → Bool) (mutexPtr : P → P) : Layout M P where
  mapping := setup.mapping
  directMSync := fun mapping => (setup.driver mapping).directMSync
  localPolicy := setup.localPolicy
  globalPolicy := setup.globalPolicy
  isLocal := isLocal
  mutexPtr := mutexPtr

variable [DecidableEq T] [DecidableEq M] [DecidableEq P] [DecidableEq Q]

/-- How the steps on the data are answered in a process whose inter-process
quota is `interProc`. -/
def handleData (interProc : Option Q) (thread : T) :
    Handler (dataSignature M P Q) (SignalState T M P Q)
  | .plain op, state => state.ofWorld (setup.handle op state.world)
  | .notifyEvict policy mapping segmentId, state =>
      state.ofWorld (state.world.replyUnit
        (setup.notifyEvict mapping segmentId state.world policy))
  | .markCleanAsDirty mapping, state =>
      state.ofWorld (some ((), state.world.setCore mapping
        ((state.world.core mapping).markCleanAsDirty (setup.mapping mapping))))
  | .preadBuffer mapping size offset, state =>
      let core := state.world.core mapping
      let driver := setup.driver mapping
      state.ofWorld (some ((driver.preadResult core.calls size offset,
        core.preadBuffer driver (fun _ => 0) size offset),
        state.world.setCore mapping core.countCall))
  | .store mapping offset value, state =>
      let core := state.world.core mapping
      if (core.pages (offset / (setup.mapping mapping).segmentSize)).write then
        state.ofWorld (some (true, state.world.setCore mapping { core with
          memory := Function.update core.memory offset value }))
      else some (false, state)
  | .interProc, state => some (interProc, state)
  | .setAllowSignal allow, state =>
      some ((), { state with
        allowSignal := Function.update state.allowSignal thread allow })
  | .hasPendingSignal, state => some (state.hasPendingSignal thread, state)
  | .clearPendingSignal, state =>
      some ((), { state with
        hasPendingSignal :=
          Function.update state.hasPendingSignal thread false })

end Setup

end UmmapIo
