import UmmapIo.Mapping.Operations

/-!
# What loads should return

The recorded events determine, for every offset, the byte that a load has to
return: the byte of the last store to that offset, or the initial byte when
there was none.  This is the abstract meaning of a mapping, in terms of the
events alone.
-/

namespace UmmapIo

/-- The byte last stored at an offset, for a record with the latest event
first. -/
def lastStore : List Event → Nat → Option Byte
  | [], _ => none
  | .store _ position value :: earlier, offset =>
      if position = offset then some value else lastStore earlier offset
  | .load _ _ _ :: earlier, offset => lastStore earlier offset
  | .pwrite _ _ :: earlier, offset => lastStore earlier offset
  | .sync _ _ :: earlier, offset => lastStore earlier offset

@[simp] theorem lastStore_nil (offset : Nat) : lastStore [] offset = none := rfl

@[simp] theorem lastStore_load (thread position : Nat) (value : Byte)
    (earlier : List Event) :
    lastStore (.load thread position value :: earlier) = lastStore earlier := by
  funext offset
  rfl

@[simp] theorem lastStore_pwrite (position size : Nat) (earlier : List Event) :
    lastStore (.pwrite position size :: earlier) = lastStore earlier := by
  funext offset
  rfl

@[simp] theorem lastStore_sync (position size : Nat) (earlier : List Event) :
    lastStore (.sync position size :: earlier) = lastStore earlier := by
  funext offset
  rfl

@[simp] theorem lastStore_store (thread position : Nat) (value : Byte)
    (earlier : List Event) (offset : Nat) :
    lastStore (.store thread position value :: earlier) offset =
      if position = offset then some value else lastStore earlier offset := rfl

/-- The byte a load has to return after the recorded events. -/
def expected (initial : Nat → Byte) (trace : List Event)
    (offset : Nat) : Byte :=
  (lastStore trace offset).getD (initial offset)

section

variable (initial : Nat → Byte)
include initial

@[simp] theorem expected_nil (offset : Nat) :
    expected initial [] offset = initial offset := rfl

@[simp] theorem expected_load (thread position : Nat) (value : Byte)
    (earlier : List Event) :
    expected initial (.load thread position value :: earlier) =
      expected initial earlier := by
  funext offset
  simp [expected]

@[simp] theorem expected_pwrite (position size : Nat) (earlier : List Event) :
    expected initial (.pwrite position size :: earlier) =
      expected initial earlier := by
  funext offset
  simp [expected]

@[simp] theorem expected_sync (position size : Nat) (earlier : List Event) :
    expected initial (.sync position size :: earlier) =
      expected initial earlier := by
  funext offset
  simp [expected]

@[simp] theorem expected_store (thread position : Nat) (value : Byte)
    (earlier : List Event) :
    expected initial (.store thread position value :: earlier) =
      Function.update (expected initial earlier) position value := by
  funext offset
  by_cases same : position = offset
  · subst same
    simp [expected]
  · rw [Function.update_of_ne (Ne.symm same)]
    simp [expected, same]

end

/-- Every recorded load below the bound returned the byte it should have. -/
def LoadsCoherent (bound : Nat) (initial : Nat → Byte)
    (trace : List Event) : Prop :=
  ∀ later thread offset value earlier,
    trace = later ++ .load thread offset value :: earlier →
      offset < bound → value = expected initial earlier offset

theorem LoadsCoherent.nil (bound : Nat) (initial : Nat → Byte) :
    LoadsCoherent bound initial [] := by
  intro later thread offset value earlier split
  simp at split

variable {bound : Nat} {initial : Nat → Byte} {trace : List Event}

/-- An event that is not a load keeps the record coherent. -/
theorem LoadsCoherent.cons_other {event : Event}
    (coherent : LoadsCoherent bound initial trace)
    (notLoad : ∀ thread offset value, event ≠ .load thread offset value) :
    LoadsCoherent bound initial (event :: trace) := by
  intro later thread offset value earlier split inside
  cases later with
  | nil =>
      rw [List.nil_append, List.cons.injEq] at split
      exact absurd split.1 (notLoad thread offset value)
  | cons head later =>
      rw [List.cons_append, List.cons.injEq] at split
      exact coherent later thread offset value earlier split.2 inside

/-- A load that returns the expected byte keeps the record coherent. -/
theorem LoadsCoherent.cons_load {thread offset : Nat} {value : Byte}
    (coherent : LoadsCoherent bound initial trace)
    (returned : offset < bound → value = expected initial trace offset) :
    LoadsCoherent bound initial (.load thread offset value :: trace) := by
  intro later thread' offset' value' earlier split inside
  cases later with
  | nil =>
      rw [List.nil_append, List.cons.injEq, Event.load.injEq] at split
      obtain ⟨⟨_, sameOffset, sameValue⟩, sameTrace⟩ := split
      subst sameOffset sameValue sameTrace
      exact returned inside
  | cons head later =>
      rw [List.cons_append, List.cons.injEq] at split
      exact coherent later thread' offset' value' earlier split.2 inside

/-- What the mapped data shows before any store. -/
def Mapping.initialView (mapping : Mapping) (flags : CreationFlags)
    (storage : Nat → Byte)
    (offset : Nat) : Byte :=
  if flags.noFirstRead then 0 else storage (mapping.storageOffset + offset)

section Contents

variable (mapping : Mapping) (initial : Nat → Byte)

/-- The memory of a segment holds what loads should return. -/
def MemoryOk (core : Core) (segmentId : Nat) : Prop :=
  ∀ offset, offset < mapping.size → offset / mapping.segmentSize = segmentId →
    core.memory offset = expected initial core.trace offset

/-- The storage behind a segment holds what loads should return. -/
def StorageOk (core : Core) (segmentId : Nat) : Prop :=
  ∀ offset, offset < mapping.size → offset / mapping.segmentSize = segmentId →
    core.storage (mapping.storageOffset + offset) =
      expected initial core.trace offset

end Contents

end UmmapIo
