import UmmapIo.Mixed.Calls
import UmmapIo.Policy.Endings
import UmmapIo.Quota.HardLimit

/-!
# Termination of the eviction loops

In every state of a run, shrinking a policy ends, and so does a touch, with one
exception: the LIFO class hides the touched segment from its loop, and when the
segment alone is above the limit the loop empties the list and goes on for ever.
A limit that low never comes from a registration, which compares the segment
size with the maximum of the policy, but a quota sets any limit.
-/

namespace UmmapIo
namespace PolicyObject

variable {M Q : Type} [DecidableEq M] {mappings : M → Mapping}

/-- The touched segment is above the limit and hidden from the loop, which does
not reach the check on the number of evictions. -/
def HidesLarge (mappings : M → Mapping)
    (cur : ListElement M) : PolicyObject M Q → Prop
  | .plain policy => policy.kind = .lifo ∧
      policy.dynamicMaxMemory < Policy.elementSize mappings cur ∧
      (policy.ring.erase cur).length < maxIdsToEvict
  | .window _ => False

variable {object : PolicyObject M Q} {cur : ListElement M} {ndebug : Bool}

section

variable (balanced : object.Balanced mappings)
variable (space : Spacious mappings object.base.storageRegistry)
variable (serves : object.base.Serves cur.1) (below : cur.2 < (mappings cur.1).segments)
include balanced space serves below

/-- How a touch of a balanced object fails. -/
theorem notifyTouch_eq_error {stop : Stop}
    (fails : object.notifyTouch mappings ndebug cur.1 cur.2 = .error stop) :
    stop = .endless ∨ stop = .fatal reachMaximum := by
  cases object with
  | plain policy =>
      exact Policy.notifyTouch_eq_error balanced space serves below
        (Fallible.map_eq_error.mp fails)
  | window policy =>
      have touches := Fallible.map_eq_error.mp fails
      rw [FifoWindowPolicy.notifyTouch_eq serves] at touches
      obtain ⟨entered, _⟩ := FifoWindowPolicy.Balanced.touching balanced space
        ⟨serves.1, below⟩
      have same := FifoWindowPolicy.touching_sameSettings mappings policy cur
      exact Or.inr ((Policy.shrinkMemory_spec entered.sliding
        (same.spacious space)).2 stop
          (Fallible.map_eq_error.mp (Fallible.map_eq_error.mp touches)))

/-- When a touch of a balanced object goes on for ever. -/
theorem notifyTouch_eq_endless_iff :
    object.notifyTouch mappings ndebug cur.1 cur.2 = .error .endless ↔
      object.HidesLarge mappings cur := by
  cases object with
  | plain policy =>
      exact Fallible.map_eq_error.trans
        (Policy.notifyTouch_eq_endless_iff balanced space serves below)
  | window policy =>
      refine ⟨fun endless => ?_, fun absurdity => nomatch absurdity⟩
      have touches := Fallible.map_eq_error.mp endless
      rw [FifoWindowPolicy.notifyTouch_eq serves] at touches
      obtain ⟨entered, _⟩ := FifoWindowPolicy.Balanced.touching balanced space
        ⟨serves.1, below⟩
      have same := FifoWindowPolicy.touching_sameSettings mappings policy cur
      exact absurd (Fallible.map_eq_error.mp (Fallible.map_eq_error.mp touches))
        (Policy.shrinkMemory_ne_endless entered.sliding (same.spacious space))

end

/-- A local policy with several mappings refuses to touch. -/
theorem notifyTouch_of_not_serves (cur : ListElement M)
    (registered : cur.1 ∈ object.base.storageRegistry)
    (unserved : ¬object.base.Serves cur.1) :
    object.notifyTouch mappings ndebug cur.1 cur.2 =
      .error (.fatal "Invalid local list with multiple mapping registered !") := by
  have refused : object.base.getStorageInfo ndebug cur.1 = .error
      (.fatal "Invalid local list with multiple mapping registered !") := by
    have isLocal : object.base.isLocal = true := by
      by_contra flag
      exact unserved ⟨registered, fun isLocal => absurd isLocal flag⟩
    unfold Policy.getStorageInfo
    rw [if_pos isLocal]
    split
    · rename_i owner alone
      rw [alone, List.mem_singleton] at registered
      refine absurd ⟨?_, fun _ => ?_⟩ unserved
      · rw [alone, registered]
        exact List.mem_singleton_self owner
      · rw [alone, registered]
    · rfl
  cases object with
  | plain policy =>
      have found : policy.getStorageInfo ndebug cur.1 = _ := refused
      refine Fallible.map_eq_error.mpr ?_
      unfold Policy.notifyTouch
      cases kind : policy.kind with
      | fifo => exact Fallible.bind_eq_error.mpr (Or.inl found)
      | lifo => exact Fallible.bind_eq_error.mpr (Or.inl found)
  | window policy =>
      exact Fallible.map_eq_error.mpr (Fallible.bind_eq_error.mpr (Or.inl refused))

end PolicyObject

/-- A mapping of two pages whose LIFO policy has room for both, and a quota of
100 bytes. -/
def lowQuotaWorld : World Unit Unit Unit :=
  World.start
    (fun _ => { Policy.create .lifo (2 * pageSize) false with
      storageRegistry := [()] })
    (fun _ => Quota.create 100)

theorem started_lowQuotaWorld : quotaSetup.Started lowQuotaWorld :=
  Setup.started_single .lifo (2 * pageSize) rfl fun _ => rfl

end UmmapIo
