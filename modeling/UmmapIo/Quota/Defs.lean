import UmmapIo.Lib.Weight
import Mathlib.Tactic.Simps.Basic

/-!
# Policy quotas

The data of `core/PolicyQuota.hpp`, `core/PolicyQuotaLocal.cpp` and
`core/PolicyQuotaInterProc.cpp`, and the computations that a quota makes on the
memory of the policies registered to it.
-/

namespace UmmapIo

/-- What an inter-process quota knows beyond a local one. -/
structure InterProc where
  /-- Maximum of all processes together. -/
  totalAllowed : Nat
  /-- `shared->processes`: the number of registered processes. -/
  processes : Nat

/-- A `PolicyQuotaLocal`, or a `PolicyQuotaInterProc` if `interProc` is
present. -/
structure Quota (P : Type) where
  /-- Maximum of the registered policies together. -/
  staticMaxMemory : Nat
  /-- Registered policies, the earliest first. -/
  policies : List P
  /-- The part of the inter-process class. -/
  interProc : Option InterProc

namespace Quota

variable {P : Type}

/-- The constructor of `PolicyQuotaLocal`. -/
@[simps] def create (staticMaxMemory : Nat) : Quota P where
  staticMaxMemory := staticMaxMemory
  policies := []
  interProc := none

/-- `PolicyQuotaLocal::getUsedMemory` for policies with these memories. -/
def getUsedMemory (memories : List (P × Nat)) : Nat :=
  memories.foldl (fun totMem entry => wordAdd totMem entry.2) 0

/-- The policy that `PolicyQuotaLocal::update` shrinks: the first one that uses
the most memory. -/
def polMax (first : P × Nat) (memories : List (P × Nat)) : P × Nat :=
  memories.foldl
    (fun largest entry => if entry.2 > largest.2 then entry else largest) first

/-- The limit that `PolicyQuotaLocal::update` gives to a policy with this
memory. -/
def shrunkLimit (averageMem memory : Nat) : Nat :=
  wordAdd averageMem (wordSub memory averageMem / 2)

end Quota

end UmmapIo
