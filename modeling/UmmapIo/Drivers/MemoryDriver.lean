import Mathlib.Data.Finset.Card
import UmmapIo.Lib.Weight
import UmmapIo.Mapping.Defs

/-!
# Memory drivers that share a buffer

A `MemoryDriver` keeps its data in a buffer that its clones share; a counter of the
clones decides who releases it.  The constructor of a clone does not set the field
`size`, and the range check of an access adds its bounds in 64 bits.  When the field
holds the size of the buffer all the same, and no sum wraps around, the drivers are
one bounded array.
-/

namespace UmmapIo

/-- The memory drivers of one buffer. -/
structure MemoryDrivers (I : Type) where
  /-- The field `size` of every driver that exists. -/
  size : I → Option Nat
  /-- The counter that the field `share` of all drivers points to. -/
  share : BitVec 32
  /-- The buffer, until it is released. -/
  buffer : Option (Nat → Byte)

/-- The calls that use memory drivers. -/
inductive MemoryCall (I : Type)
  /-- The constructor of a clone; the field `size` keeps what was `left` there. -/
  | clone (driver member : I) (left : Nat)
  | destroy (member : I)
  | pwrite (member : I) (buffer : Nat → Byte) (size offset : Nat)
  | pread (member : I) (size offset : Nat)

/-- Make calls one after the other and collect what they return. -/
def runAll {m : Type → Type} [Monad m] {S C A : Type} (perform : S → C → m (A × S)) :
    S → List C → m (List A × S)
  | state, [] => pure ([], state)
  | state, call :: rest => do
      let (answer, state) ← perform state call
      let (answers, state) ← runAll perform state rest
      pure (answer :: answers, state)

namespace MemoryDrivers

variable {I : Type} [DecidableEq I]

/-- The constructor of a driver with a buffer of its own. -/
def create (size : Nat) (defaultValue : Byte) (first : I) : MemoryDrivers I where
  size := Function.update (fun _ => none) first (some size)
  share := 1
  buffer := some fun _ => defaultValue

/-- The checks of an access. -/
def checkRange (limit size offset : Nat) (message : String) : Except String Unit :=
  if offset < limit then
    if wordAdd size offset ≤ limit then .ok ()
    else
      .error (s!"Invalid position, overpass memory limit: size={size}, " ++
        s!"offset={offset}, mem={limit}")
  else
    .error ("Invalid position, offset overpass memory limit: " ++ message)

/-- What a call returns, and the drivers afterwards.  The message of `pwrite` names
its arguments by the wrong numbers. -/
def perform (drivers : MemoryDrivers I) :
    MemoryCall I → Except String (List Byte × MemoryDrivers I)
  | .clone _ member left =>
      .ok ([], { drivers with
        size := Function.update drivers.size member (some left)
        share := drivers.share + 1 })
  | .destroy member =>
      let size := Function.update drivers.size member none
      if drivers.share = 1 then .ok ([], ⟨size, drivers.share, none⟩)
      else .ok ([], ⟨size, drivers.share - 1, drivers.buffer⟩)
  | .pwrite member buffer size offset => do
      let limit := (drivers.size member).getD 0
      checkRange limit size offset s!"offset={limit}, mem=%3"
      .ok ([], { drivers with
        buffer := drivers.buffer.map fun bytes => blit bytes offset size buffer })
  | .pread member size offset => do
      let limit := (drivers.size member).getD 0
      checkRange limit size offset s!"offset={offset}, mem={limit}"
      let bytes := drivers.buffer.getD fun _ => 0
      .ok ((List.range size).map fun index => bytes (offset + index), drivers)

end MemoryDrivers

/-! ## One bounded array -/

/-- An array of bytes and those who may use it. -/
structure SharedArray (I : Type) where
  /-- Those who may use it. -/
  members : Finset I
  /-- The bytes. -/
  bytes : Nat → Byte

namespace SharedArray

variable {I : Type} [DecidableEq I]

/-- What a call means for an array of `length` bytes, unless it is refused. -/
def perform (length : Nat) (array : SharedArray I) :
    MemoryCall I → Option (List Byte × SharedArray I)
  | .clone _ member _ =>
      some ([], { array with members := insert member array.members })
  | .destroy member =>
      some ([], { array with members := array.members.erase member })
  | .pwrite _ buffer size offset =>
      if offset < length ∧ offset + size ≤ length then
        some ([], { array with bytes := blit array.bytes offset size buffer })
      else none
  | .pread _ size offset =>
      if offset < length ∧ offset + size ≤ length then
        some ((List.range size).map fun index => array.bytes (offset + index), array)
      else none

omit [DecidableEq I] in
/-- Calls are made on drivers that exist, and a new driver is none of them. -/
def Admits (array : SharedArray I) : MemoryCall I → Prop
  | .clone driver member _ => driver ∈ array.members ∧ member ∉ array.members
  | .destroy member => member ∈ array.members
  | .pwrite member _ _ _ => member ∈ array.members
  | .pread member _ _ => member ∈ array.members

omit [DecidableEq I] in
/-- A clone finds the size of the buffer in its field and can be counted, and the
bounds of an access can be added. -/
def Exact (length : Nat) (array : SharedArray I) : MemoryCall I → Prop
  | .clone _ _ left => left = length ∧ array.members.card + 1 < 2 ^ 31
  | .destroy _ => True
  | .pwrite _ _ size offset => size + offset < wordModulus
  | .pread _ size offset => size + offset < wordModulus

/-- A condition on all calls, as long as none is refused. -/
def Along (length : Nat)
    (condition : SharedArray I → MemoryCall I → Prop) :
    SharedArray I → List (MemoryCall I) → Prop
  | _, [] => True
  | array, call :: rest => condition array call ∧
      ∀ result, array.perform length call = some result →
        Along length condition result.2 rest

end SharedArray

namespace MemoryDrivers

variable {I : Type} [DecidableEq I] {length : Nat}
variable {drivers : MemoryDrivers I} {array : SharedArray I}

/-- All drivers have the size of the array, their number is counted, and the buffer
holds the array until nobody may use it any more. -/
structure Represents (length : Nat) (drivers : MemoryDrivers I)
    (array : SharedArray I) : Prop where
  size : ∀ member, drivers.size member =
    if member ∈ array.members then some length else none
  share : array.members.Nonempty → drivers.share = BitVec.ofNat 32 array.members.card
  few : array.members.card < 2 ^ 31
  buffer : drivers.buffer = if array.members.Nonempty then some array.bytes else none

/-- The drivers return what the array says, or refuse a call that it refuses. -/
inductive Agrees {A : Type} (length : Nat) :
    Option (A × SharedArray I) → Except String (A × MemoryDrivers I) → Prop
  | refused (message : String) : Agrees length none (.error message)
  | returns {answer : A} {array : SharedArray I} {drivers : MemoryDrivers I}
      (represents : drivers.Represents length array) :
      Agrees length (some (answer, array)) (.ok (answer, drivers))

theorem Agrees.bind {A B : Type} {expected : Option (A × SharedArray I)}
    {actual : Except String (A × MemoryDrivers I)}
    {next : A × SharedArray I → Option (B × SharedArray I)}
    {next' : A × MemoryDrivers I → Except String (B × MemoryDrivers I)}
    (agrees : Agrees length expected actual)
    (step : ∀ answer array drivers, expected = some (answer, array) →
      drivers.Represents length array →
        Agrees length (next (answer, array)) (next' (answer, drivers))) :
    Agrees length (expected >>= next) (actual >>= next') := by
  cases agrees with
  | refused message => exact .refused message
  | returns represents => exact step _ _ _ rfl represents

theorem represents_create (length : Nat) (defaultValue : Byte) (first : I) :
    (create length defaultValue first).Represents length
      ⟨{first}, fun _ => defaultValue⟩ := by
  refine ⟨fun member => ?_, fun _ => rfl, by simp, by simp [create]⟩
  by_cases same : member = first <;> simp [create, same]

/-- Both checks together are one on the range, unless the sum wraps around. -/
theorem checkRange_spec {size offset : Nat} (exact : size + offset < wordModulus)
    (length : Nat) (message : String) :
    if offset < length ∧ offset + size ≤ length then
      checkRange length size offset message = .ok ()
    else ∃ failure, checkRange length size offset message = .error failure := by
  unfold checkRange
  rw [wordAdd_of_lt exact, Nat.add_comm size offset]
  split
  · rename_i inside
    rw [if_pos inside.1, if_pos inside.2]
  · split
    · rw [if_neg (by omega)]
      exact ⟨_, rfl⟩
    · exact ⟨_, rfl⟩

namespace Represents

/-- The range check of a member is the one of the array. -/
theorem access {member : I} {size offset : Nat} {message : String} {answer : List Byte}
    {after : MemoryDrivers I} {expected : SharedArray I}
    (represents : drivers.Represents length array)
    (present : member ∈ array.members) (exact : size + offset < wordModulus)
    (kept : after.Represents length expected) :
    Agrees length
      (if offset < length ∧ offset + size ≤ length then some (answer, expected)
        else none)
      (checkRange ((drivers.size member).getD 0) size offset message >>= fun _ =>
        .ok (answer, after)) := by
  have checked := checkRange_spec exact length message
  rw [represents.size, if_pos present, Option.getD_some]
  split at checked
  · rename_i inside
    rw [checked, if_pos inside]
    exact .returns kept
  · rename_i outside
    obtain ⟨failure, fails⟩ := checked
    rw [fails, if_neg outside]
    exact .refused failure

theorem perform {call : MemoryCall I}
    (represents : drivers.Represents length array)
    (admitted : array.Admits call) (exact : array.Exact length call) :
    Agrees length (array.perform length call) (drivers.perform call) := by
  cases call with
  | clone driver member left =>
      obtain ⟨rfl, few⟩ := exact
      have more : array.members.Nonempty := ⟨driver, admitted.1⟩
      refine .returns ⟨fun other => ?_, fun _ => ?_, ?_, ?_⟩
      · by_cases same : other = member
        · simp [same]
        · simp [same, represents.size]
      · rw [Finset.card_insert_of_notMem admitted.2, represents.share more]
        exact (BitVec.ofNat_add ..).symm
      · rw [Finset.card_insert_of_notMem admitted.2]
        exact few
      · simp [represents.buffer, more]
  | destroy member =>
      have others : ∀ other, Function.update drivers.size member none other =
          if other ∈ array.members.erase member then some length else none := by
        intro other
        by_cases same : other = member
        · simp [same]
        · simp [same, represents.size]
      have count := Finset.card_erase_of_mem admitted
      have few := represents.few
      have share := represents.share ⟨member, admitted⟩
      have alone : drivers.share = 1 ↔ (array.members.erase member).card = 0 := by
        have positive := Finset.card_pos.mpr ⟨member, admitted⟩
        rw [share, ← BitVec.toNat_inj, BitVec.toNat_ofNat, count]
        simp
        omega
      unfold MemoryDrivers.perform
      dsimp only
      split
      · rename_i last
        have gone := Finset.card_eq_zero.mp (alone.mp last)
        refine .returns ⟨others, fun more => ?_, ?_, ?_⟩
        · exact absurd gone more.ne_empty
        · exact (alone.mp last).trans_lt (by decide)
        · simp [gone]
      · rename_i notLast
        have more := Finset.card_ne_zero.mp (mt alone.mpr notLast)
        refine .returns ⟨others, fun _ => ?_, ?_, ?_⟩
        · dsimp only
          rw [share, ← Finset.card_erase_add_one admitted, BitVec.ofNat_add]
          exact BitVec.add_sub_cancel ..
        · dsimp only
          omega
        · dsimp only
          rw [represents.buffer, if_pos ⟨member, admitted⟩, if_pos more]
  | pwrite member buffer size offset =>
      refine represents.access admitted exact
        ⟨represents.size, represents.share, represents.few, ?_⟩
      have more : array.members.Nonempty := ⟨member, admitted⟩
      simp [represents.buffer, more]
  | pread member size offset =>
      have bytes : drivers.buffer.getD (fun _ => 0) = array.bytes := by
        rw [represents.buffer, if_pos ⟨member, admitted⟩, Option.getD_some]
      unfold MemoryDrivers.perform
      rw [bytes]
      exact represents.access admitted exact represents

theorem runAll {calls : List (MemoryCall I)}
    (represents : drivers.Represents length array)
    (admitted : array.Along length SharedArray.Admits calls)
    (exact : array.Along length (SharedArray.Exact length) calls) :
    Agrees length (runAll (SharedArray.perform length) array calls)
      (runAll MemoryDrivers.perform drivers calls) := by
  induction calls generalizing drivers array with
  | nil => exact .returns represents
  | cons call rest inductionHypothesis =>
      refine (represents.perform admitted.1 exact.1).bind ?_
      intro answer after drivers' returned kept
      refine (inductionHypothesis kept (admitted.2 _ returned)
        (exact.2 _ returned)).bind ?_
      exact fun _ _ _ _ final => .returns final

end Represents

end MemoryDrivers

/-- Memory drivers are one bounded array if every clone finds the size of the buffer
in its field, no sum of an offset and a size wraps around and the drivers can be
counted.  Calls are refused exactly when the array refuses them, reads return what was
written last through any driver, and the buffer is released with the last driver. -/
theorem memory_drivers_share_array {I : Type} [DecidableEq I] (length : Nat)
    (defaultValue : Byte) (first : I) (calls : List (MemoryCall I))
    (admitted : SharedArray.Along length SharedArray.Admits
      ⟨{first}, fun _ => defaultValue⟩ calls)
    (exact : SharedArray.Along length (SharedArray.Exact length)
      ⟨{first}, fun _ => defaultValue⟩ calls) :
    MemoryDrivers.Agrees length
      (runAll (SharedArray.perform length) ⟨{first}, fun _ => defaultValue⟩ calls)
      (runAll MemoryDrivers.perform
        (MemoryDrivers.create length defaultValue first) calls) :=
  (MemoryDrivers.represents_create length defaultValue first).runAll admitted exact

/-- A clone reads what was written through the first driver, and releases the buffer. -/
theorem memory_drivers_share_array_of_two :
    ∃ drivers : MemoryDrivers Bool,
      runAll MemoryDrivers.perform (MemoryDrivers.create 2 0 false)
          [.clone false true 2, .pwrite false (fun _ => 7) 1 1, .destroy false,
            .pread true 2 0, .destroy true] =
        .ok ([[], [], [], [0, 7], []], drivers) ∧ drivers.buffer = none := by
  have agrees := memory_drivers_share_array 2 0 false
    [.clone false true 2, .pwrite false (fun _ => 7) 1 1, .destroy false,
      .pread true 2 0, .destroy true]
    (by simp [SharedArray.Along, SharedArray.Admits, SharedArray.perform])
    (by simp [SharedArray.Along, SharedArray.Exact, SharedArray.perform, wordModulus])
  cases agrees with
  | returns represents => exact ⟨_, rfl, represents.buffer⟩

/-- A clone whose field holds zero refuses the first byte, and the first driver
accepts a write of nearly all of the address space. -/
theorem memory_driver_checks_fail :
    (∃ message, runAll MemoryDrivers.perform (MemoryDrivers.create 1 0 false)
      [.clone false true 0, .pread true 1 0] = .error message) ∧
    ∃ result, MemoryDrivers.perform (MemoryDrivers.create 2 0 false)
      (.pwrite false (fun _ => 7) (2 ^ 64 - 1) 1) = .ok result :=
  ⟨⟨_, rfl⟩, _, rfl⟩

end UmmapIo
