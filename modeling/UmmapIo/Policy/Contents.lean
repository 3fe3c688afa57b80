import UmmapIo.Lib.Transition
import UmmapIo.Mapping.Coherence
import UmmapIo.Mapping.Durability
import UmmapIo.Quota.Accounting

/-!
# Contents of mappings with policies

Policies and quotas decide which segments leave the memory.  Whatever they decide,
and however the critical sections of the threads and their stores follow each
other, no store is lost: what is known of one mapping alone holds of every mapping
of the world.
-/

namespace UmmapIo

variable {M P Q : Type} [DecidableEq M]

/-- What happens in a world: a critical section of some thread, or a store of some
thread to a page that can be written. -/
inductive WorldEvent (M P Q : Type) : Type
  | act (op : PolicyOp M P Q)
  | store (mapping : M) (thread offset : Nat) (value : Byte)

section Kept

variable {world after : World M P Q} {invariant : M → Core → Prop}
variable (holds : ∀ mapping, invariant mapping (world.core mapping))

include holds

theorem World.invariant_setCore {owner : M} {core : Core} (own : invariant owner core)
    (mapping : M) :
    invariant mapping ((world.setCore owner core).core mapping) :=
  (Function.forall_update_iff world.core fun mapping => invariant mapping).mpr
    ⟨own, fun other _ => holds other⟩ mapping

end Kept

namespace Setup

variable [Fintype M] [DecidableEq P] [DecidableEq Q] (setup : Setup M P)

/-- Where an event leads. -/
def follow (world : World M P Q) : WorldEvent M P Q → Option (World M P Q)
  | .act op => (setup.handle op world).map Prod.snd
  | .store mapping thread offset value =>
      if ((world.core mapping).pages
          (offset / (setup.mapping mapping).segmentSize)).write then
        some (world.setCore mapping ((world.core mapping).store thread offset value))
      else none

/-- Faults are on segments that exist: `onSegmentationFault` checks the address.
Flushes do not call `sync`, which may store to the mapping on its own. -/
def InRange (_ : World M P Q) : WorldEvent M P Q → Prop
  | .act (.faultSection mapping segmentId _) =>
      segmentId < (setup.mapping mapping).segments
  | .act (.flush _ _ _ flags) => flags.sync = false
  | _ => True

variable {setup} {world after : World M P Q} {invariant : M → Core → Prop}
variable (kept : ∀ mapping, Preserved (setup.mapping mapping) (setup.driver mapping)
  (fun _ segmentId _ => segmentId < (setup.mapping mapping).segments) (invariant
  mapping))

include kept

/-- What every part of the operations of a mapping keeps, every critical section
keeps. -/
theorem invariant_handle {op : PolicyOp M P Q} {result : op.Result}
    (holds : ∀ mapping, invariant mapping (world.core mapping))
    (inRange : setup.InRange world (.act op))
    (answer : setup.handle op world = some (result, after)) :
    ∀ mapping, invariant mapping (after.core mapping) := by
  cases op with
  | faultSection owner segmentId isWrite =>
      obtain ⟨_, rfl⟩ := answer_inj answer
      exact World.invariant_setCore holds ((kept owner).fault inRange (holds owner))
  | flush owner offset size flags =>
      obtain ⟨_, rfl⟩ := answer_inj answer
      exact World.invariant_setCore holds ((kept owner).flush (holds owner) _ _ _)
  | dropClean owner =>
      obtain ⟨_, rfl⟩ := answer_inj answer
      exact World.invariant_setCore holds ((kept owner).dropClean (holds owner))
  | evict source owner segmentId =>
      obtain ⟨ends, _⟩ | ⟨_, _, _, rfl⟩ := World.replyUnit_eq_some answer
      · obtain ⟨notified, notices, same⟩ := Fallible.bind_eq_ok.mp ends
        cases same
        have same := (World.foldlM_stepPolicy
          ((setup.nodup_policiesOf owner).filter (· ≠ source)) notices).2.2.1
        rw [← same] at holds
        exact World.invariant_setCore holds
          ((kept owner).evict (holds owner) segmentId)
      · exact holds
  | notifyTouch policy | shrinkMemory policy =>
      obtain ⟨_, ends, _⟩ | ⟨_, _, _, rfl⟩ := World.reply_eq_some answer
      · obtain ⟨_, _, same⟩ := Fallible.map_eq_ok.mp ends
        cases same
        exact holds
      · exact holds
  | freeElementStorage policy owner =>
      obtain ⟨ends, _⟩ | ⟨_, _, _, rfl⟩ := World.replyUnit_eq_some answer
      · obtain ⟨_, _, same⟩ := Fallible.map_eq_ok.mp ends
        cases same
        exact holds
      · exact holds
  | addPolicy quota policy =>
      obtain ⟨ends, _⟩ | ⟨_, _, _, rfl⟩ := World.replyUnit_eq_some answer
      · obtain ⟨_, rfl⟩ := World.addPolicy_ok ends
        exact holds
      · exact holds
  | removePolicy quota policy =>
      obtain ⟨ends, _⟩ | ⟨_, _, _, rfl⟩ := World.replyUnit_eq_some answer
      · obtain ⟨_, rfl⟩ := World.removePolicy_ok ends
        exact holds
      · exact holds
  | shareQuota quota =>
      obtain ⟨ends, _⟩ | ⟨_, _, _, rfl⟩ := World.replyUnit_eq_some answer
      · obtain ⟨_, rfl⟩ := World.shareQuota_ok ends
        exact holds
      · exact holds
  | updateNotifyLimit quota =>
      obtain ⟨_, rfl⟩ := answer_inj answer
      exact List.foldlRecOn (motive := fun (world : World M P Q) =>
        ∀ mapping, invariant mapping (world.core mapping)) _ _ holds
          fun _ earlier _ _ => earlier
  | close owner | observe policy | registered quota | setDynamicMaxMemory policy =>
      obtain ⟨_, rfl⟩ := answer_inj answer
      exact holds
  | never => cases answer

/-- It holds of every mapping however the events follow each other. -/
theorem invariant_of_reached {initial : World M P Q}
    (initially : ∀ mapping, invariant mapping (initial.core mapping))
    (reached : ReachableBy setup.follow setup.InRange initial world) :
    ∀ mapping, invariant mapping (world.core mapping) := by
  refine reached.invariant
    (fun world => ∀ mapping, invariant mapping (world.core mapping)) initially ?_
  intro before after event holds inRange moved
  cases event with
  | act op =>
      obtain ⟨⟨result, _⟩, answer, rfl⟩ := Option.map_eq_some_iff.mp moved
      exact invariant_handle kept holds inRange answer
  | store owner thread offset value =>
      obtain ⟨writable, same⟩ := Option.ite_none_right_eq_some.mp moved
      cases same
      exact World.invariant_setCore holds
        ((kept owner).store _ _ _ writable (holds owner))

end Setup

end UmmapIo
