import UmmapIo.Mapping.FirstRead

/-!
# Synchronisation over an `IocDriver`

`IocDriver` forwards the offsets it is given to the ioc client.  `Mapping::flush` gives
offsets in the object to `pwrite`, and offsets in the mapping to `sync`.  What a flush has
written is therefore in the range that it synchronises only if the offset of the mapping
in the object does not move it out.
-/

namespace UmmapIo

/-- A range of bytes of an object. -/
structure ByteRange where
  /-- First byte. -/
  offset : Nat
  /-- Number of bytes. -/
  size : Nat
  deriving DecidableEq

/-- The other range lies within this one. -/
def ByteRange.Contains (outer inner : ByteRange) : Prop :=
  outer.offset ≤ inner.offset ∧
    inner.offset + inner.size ≤ outer.offset + outer.size

/-- The calls of the ioc client that write an object or make it durable. -/
inductive IocClientCall : Type
  | objWrite (high low : Int) (range : ByteRange)
  | objFlush (high low : Int) (range : ByteRange)
  deriving DecidableEq

/-- `IocDriver`, with the answers of the client. -/
structure IocDriver where
  /-- High part of the object ID. -/
  high : Int
  /-- Low part of the object ID. -/
  low : Int
  /-- Result of a transfer by `ioc_client_obj_read`. -/
  objRead : Nat → Nat → Nat → Int
  /-- Result of a transfer by `ioc_client_obj_write`. -/
  objWrite : Nat → Nat → Nat → Int
  /-- Whether the kernel is recent enough for the thread-safe mode. -/
  hasRecentKernel : Bool

namespace IocDriver

variable (ioc : IocDriver)

/-- What a mapping sees of the driver.  The zeroes that `IocDriver::pread` stores before
it reads fall on pages that are zero. -/
def driver : Driver where
  preadResult := ioc.objRead
  pwriteResult := ioc.objWrite
  directMSync := false
  checkThreadSafety := ioc.hasRecentKernel

/-- `IocDriver::pwrite`. -/
def pwrite (size offset : Nat) : IocClientCall :=
  .objWrite ioc.high ioc.low ⟨offset, size⟩

/-- `IocDriver::sync`. -/
def sync (offset size : Nat) : IocClientCall :=
  .objFlush ioc.high ioc.low ⟨offset, size⟩

/-- The call of the client for one recorded event. -/
def clientCall : Event → Option IocClientCall
  | .pwrite offset size => some (ioc.pwrite size offset)
  | .sync offset size => some (ioc.sync offset size)
  | .load _ _ _ => none
  | .store _ _ _ => none

/-- The calls of the client for recorded events. -/
def clientCalls (events : List Event) : List IocClientCall :=
  events.filterMap ioc.clientCall

end IocDriver

/-! ## The transfers of a flush -/

section Flush

variable {mapping : Mapping} {driver : Driver} {core : Core}

/-- The range of the object behind a segment. -/
def Mapping.segmentRange (mapping : Mapping) (segmentId : Nat) : ByteRange :=
  ⟨mapping.storageOffset + mapping.segmentSize * segmentId,
    mapping.readWriteSize (mapping.segmentSize * segmentId)⟩

/-- The event of the transfer that writes a segment. -/
def Mapping.pwriteEvent (mapping : Mapping) (segmentId : Nat) : Event :=
  .pwrite (mapping.segmentRange segmentId).offset (mapping.segmentRange segmentId).size

/-- Transfers that write segments are writes of the client. -/
theorem IocDriver.clientCalls_map_pwriteEvent (ioc : IocDriver) (mapping : Mapping)
    (segmentIds : List Nat) :
    ioc.clientCalls (segmentIds.map mapping.pwriteEvent) =
      (segmentIds.map mapping.segmentRange).map (.objWrite ioc.high ioc.low) := by
  induction segmentIds with
  | nil => rfl
  | cons first rest inductionHypothesis =>
      exact congrArg (List.cons _) inductionHypothesis

/-- One turn of a flush records a transfer if the segment is dirty. -/
theorem Core.flushSegment_trace {segmentId : Nat}
    (own : InOrder (core.status segmentId) (core.pages segmentId))
    (unmap : Bool) :
    (core.flushSegment mapping driver unmap segmentId).trace =
      (if (core.status segmentId).dirty then [mapping.pwriteEvent segmentId]
        else []) ++ core.trace := by
  unfold flushSegment
  rw [release_trace]
  cases dirty : (core.status segmentId).dirty with
  | false =>
      rw [writeBack_clean dirty]
      rfl
  | true => exact writeBack_trace dirty (own.mapped_of_dirty dirty)

/-- A loop of write-backs records one transfer for each dirty segment. -/
theorem Core.flushLoop_trace {segmentIds : List Nat} (distinct : segmentIds.Nodup)
    (pages : Segmentwise InOrder core) (mapping : Mapping) (driver : Driver)
    (unmap : Bool) :
    ∃ written : List Nat,
      (segmentIds.foldl (fun current segmentId =>
        current.flushSegment mapping driver unmap segmentId) core).trace =
          written.map mapping.pwriteEvent ++ core.trace ∧
      ∀ segmentId, segmentId ∈ written ↔
        segmentId ∈ segmentIds ∧ (core.status segmentId).dirty = true := by
  induction segmentIds generalizing core with
  | nil => exact ⟨[], rfl, by simp⟩
  | cons first rest inductionHypothesis =>
      rw [List.nodup_cons] at distinct
      have only : OnlySegment mapping (fun _ => 0) first core
          (core.flushSegment mapping driver unmap first) :=
        OnlySegment.flushSegment core first unmap
      have same : ∀ segmentId ∈ rest,
          (core.flushSegment mapping driver unmap first).status segmentId =
            core.status segmentId := fun segmentId member =>
        only.status segmentId fun equal => distinct.1 (equal ▸ member)
      obtain ⟨written, recorded, exactly⟩ := inductionHypothesis distinct.2
        (InOrder.upkeep.preserved.flushSegment unmap first pages)
      refine ⟨written ++ if (core.status first).dirty then [first] else [], ?_, ?_⟩
      · rw [List.foldl_cons, recorded, Core.flushSegment_trace (pages first),
          List.map_append, List.append_assoc]
        cases (core.status first).dirty <;> rfl
      · intro segmentId
        have own : segmentId ∈ (if (core.status first).dirty then [first] else []) ↔
            segmentId = first ∧ (core.status first).dirty = true := by
          cases (core.status first).dirty <;> simp
        rw [List.mem_append, exactly, own, List.mem_cons]
        constructor
        · rintro (⟨member, dirty⟩ | ⟨rfl, dirty⟩)
          · exact ⟨Or.inr member, same segmentId member ▸ dirty⟩
          · exact ⟨Or.inl rfl, dirty⟩
        · rintro ⟨rfl | member, dirty⟩
          · exact Or.inr ⟨rfl, dirty⟩
          · exact Or.inl ⟨member, (same segmentId member).symm ▸ dirty⟩

/-- The segments of an accepted range lie within it. -/
theorem Mapping.segment_within {offset size segmentId : Nat} {flags : FlushFlags}
    (accepted : (Call.flush offset size flags).Accepted mapping)
    (member : segmentId ∈ mapping.flushSegments offset size) :
    offset ≤ mapping.segmentSize * segmentId ∧
      mapping.segmentSize * segmentId + mapping.segmentSize ≤ offset + size := by
  obtain ⟨first, rfl⟩ := Nat.dvd_of_mod_eq_zero accepted.2.2.1
  obtain ⟨count, rfl⟩ := Nat.dvd_of_mod_eq_zero accepted.2.2.2
  have positive := mapping.segmentSize_pos
  have inside := mapping.mem_range_of_mem_flushSegments member
  rw [Nat.mul_div_cancel_left _ positive, Nat.mul_div_cancel_left _ positive,
    List.mem_range'_1] at inside
  refine ⟨Nat.mul_le_mul_left _ inside.1, ?_⟩
  rw [← Nat.mul_add, ← Nat.mul_succ]
  exact Nat.mul_le_mul_left _ inside.2

end Flush

/-- An object whose transfers are full. -/
def IocDriver.whole : IocDriver where
  high := 0
  low := 1
  objRead := fun _ size _ => size
  objWrite := fun _ size _ => size
  hasRecentKernel := true

end UmmapIo
