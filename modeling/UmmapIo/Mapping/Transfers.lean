import UmmapIo.Lib.Simulation
import UmmapIo.Mapping.Calls

/-!
# Which transfers a call asks for

Accesses and faults only read the storage; flushes and the other maintenance
operations only write it.  No call does both.
-/

namespace UmmapIo

/-- The operation does not write the storage. -/
def MappingOp.KeepsStorage : MappingOp → Prop
  | .pwrite _ _ _ => False
  | _ => True

/-- The operation does not read the storage. -/
def MappingOp.LoadsNothing : MappingOp → Prop
  | .pread _ _ _ => False
  | .preadBuffer _ _ _ => False
  | _ => True

/-- The operation neither reads the storage nor synchronises it. -/
def MappingOp.WritesBack : MappingOp → Prop
  | .pread _ _ _ => False
  | .preadBuffer _ _ _ => False
  | .sync _ _ => False
  | _ => True

theorem MappingOp.WritesBack.loadsNothing (op : MappingOp)
    (writesBack : op.WritesBack) :
    op.LoadsNothing := by
  cases op with
  | pread _ _ _ => exact writesBack
  | preadBuffer _ _ _ => exact writesBack
  | _ => trivial

namespace Mapping

open Program (Performs)

variable (mapping : Mapping)

/-! ## Faults and accesses -/

theorem loadAndSwapSegment_performs (segmentId : Nat) (writeAccess : Bool) :
    Performs MappingOp.KeepsStorage
      (mapping.loadAndSwapSegment segmentId writeAccess) := by
  unfold loadAndSwapSegment
  dsimp only
  split
  · refine Performs.bind (.request trivial) fun _ => ?_
    exact Performs.bind (.assume _ _) fun _ => .request trivial
  · refine Performs.bind (.request trivial) fun _ => ?_
    refine Performs.bind (.request trivial) fun _ => ?_
    exact Performs.bind (.assume _ _) fun _ => .when _ (.request trivial)

theorem openSegment_performs (segmentId : Nat) (isWrite : Bool)
    (status : SegmentStatus) :
    Performs MappingOp.KeepsStorage (mapping.openSegment segmentId isWrite status) := by
  unfold openSegment
  split
  · exact (mapping.loadAndSwapSegment_performs segmentId isWrite).bind
      fun _ => .when _ (.request trivial)
  · split
    · exact Performs.bind (.request trivial) fun _ => .request trivial
    · exact .request trivial

theorem onSegmentationFault_performs (address : Nat) (isWrite : Bool) :
    Performs MappingOp.KeepsStorage (mapping.onSegmentationFault address isWrite) := by
  unfold onSegmentationFault faultSection
  refine Performs.bind (.assume _ _) fun _ => ?_
  refine Performs.bind (.assume _ _) fun _ => ?_
  refine Performs.bind (.assume _ _) fun _ => ?_
  refine Performs.bind (.request trivial) fun _ => ?_
  refine Performs.bind (.request trivial) fun status => ?_
  refine Performs.bind (.when _ ?_) fun _ => .request trivial
  exact (mapping.openSegment_performs _ isWrite status).bind
    fun _ => .request trivial

theorem loadByte_performs (offset attempts : Nat) :
    Performs MappingOp.KeepsStorage (mapping.loadByte offset attempts) := by
  induction attempts with
  | zero => trivial
  | succ attempts inductionHypothesis =>
      unfold loadByte
      refine Performs.bind (.request trivial) fun value => ?_
      split
      · trivial
      · exact (mapping.onSegmentationFault_performs _ false).bind
          fun _ => inductionHypothesis

theorem storeByte_performs (offset : Nat) (value : Byte) (attempts : Nat) :
    Performs MappingOp.KeepsStorage (mapping.storeByte offset value attempts) := by
  induction attempts with
  | zero => trivial
  | succ attempts inductionHypothesis =>
      unfold storeByte
      refine Performs.bind (.request trivial) fun written => ?_
      split
      · trivial
      · exact (mapping.onSegmentationFault_performs _ true).bind
          fun _ => inductionHypothesis

/-! ## Maintenance -/

theorem unmapSegment_performs (segmentId : Nat) :
    Performs MappingOp.WritesBack (mapping.unmapSegment segmentId) := by
  refine Performs.bind (.request trivial) fun _ => ?_
  exact Performs.bind (.request trivial) fun _ => .request trivial

theorem flushSegment_performs (unmap : Bool) (segmentId : Nat) :
    Performs MappingOp.WritesBack (mapping.flushSegment unmap segmentId) := by
  unfold flushSegment writeBack release
  dsimp only
  refine Performs.bind (Performs.bind (.request trivial) fun _ => .when _ ?_)
    fun _ => Performs.bind (.request trivial) fun _ => .when _ ?_
  · refine Performs.bind (.when _ (.request trivial)) fun _ => ?_
    refine Performs.bind (.request trivial) fun _ => ?_
    refine Performs.bind (.assume _ _) fun _ => ?_
    refine Performs.bind (.assume _ _) fun _ => ?_
    exact Performs.bind (.request trivial) fun _ => .request trivial
  · split
    · exact mapping.unmapSegment_performs segmentId
    · exact .when _ (.request trivial)

theorem flush_performs (offset size : Nat) (flags : FlushFlags) :
    Performs MappingOp.LoadsNothing (mapping.flush offset size flags) := by
  unfold flush flushSection
  refine Performs.bind (.assume _ _) fun _ => ?_
  refine Performs.bind (.assume _ _) fun _ => ?_
  refine Performs.bind (.assume _ _) fun _ => ?_
  refine Performs.bind (.assume _ _) fun _ => ?_
  refine Performs.bind (.request trivial) fun _ => .when _ ?_
  refine Performs.bind (.each (fun _ => .request trivial) _) fun _ => ?_
  refine Performs.bind (.each (fun segmentId =>
    (mapping.flushSegment_performs flags.unmap segmentId).mono
      MappingOp.WritesBack.loadsNothing) _) fun _ => ?_
  refine Performs.bind (.when _ (.request trivial)) fun _ => ?_
  exact .each (fun _ => .request trivial) _

theorem evict_performs (segmentId : Nat) :
    Performs MappingOp.LoadsNothing (mapping.evict segmentId) := by
  refine Performs.bind (.request trivial) fun _ => ?_
  exact (mapping.flush_performs _ _ _).bind fun _ => .request trivial

theorem withAllLocked_performs {body : Nat → MappingProgram Unit}
    (performs : ∀ segmentId, Performs MappingOp.LoadsNothing (body segmentId)) :
    Performs MappingOp.LoadsNothing (mapping.withAllLocked body) := by
  refine Performs.bind (.each (fun _ => .request trivial) _) fun _ => ?_
  exact Performs.bind (.each performs _) fun _ =>
    .each (fun _ => .request trivial) _

theorem dropClean_performs :
    Performs MappingOp.LoadsNothing mapping.dropClean :=
  mapping.withAllLocked_performs fun segmentId =>
    Performs.bind (.request trivial) fun _ =>
      .when _ ((mapping.unmapSegment_performs segmentId).mono
        MappingOp.WritesBack.loadsNothing)

theorem markCleanAsDirty_performs :
    Performs MappingOp.LoadsNothing mapping.markCleanAsDirty :=
  mapping.withAllLocked_performs fun _ =>
    Performs.bind (.request trivial) fun _ => .when _
      (Performs.bind (.request trivial) fun _ => .request trivial)

/-! ## Calls -/

/-- No call both reads and writes the storage. -/
theorem call_performs (attempts : Nat) (call : Call) :
    Performs MappingOp.KeepsStorage (mapping.call attempts call) ∨
      Performs MappingOp.LoadsNothing (mapping.call attempts call) := by
  cases call with
  | load offset => exact Or.inl (mapping.loadByte_performs offset attempts)
  | store offset value =>
      exact Or.inl ((mapping.storeByte_performs offset value attempts).bind
        fun _ => trivial)
  | fault address isWrite =>
      exact Or.inl ((mapping.onSegmentationFault_performs address isWrite).bind
        fun _ => trivial)
  | flush offset size flags =>
      exact Or.inr ((mapping.flush_performs offset size flags).bind
        fun _ => trivial)
  | evict segmentId =>
      exact Or.inr ((mapping.evict_performs segmentId).bind fun _ => trivial)
  | dropClean => exact Or.inr (mapping.dropClean_performs.bind fun _ => trivial)
  | markCleanAsDirty =>
      exact Or.inr (mapping.markCleanAsDirty_performs.bind fun _ => trivial)

end Mapping

end UmmapIo
