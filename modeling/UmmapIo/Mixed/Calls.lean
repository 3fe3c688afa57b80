import UmmapIo.Lib.Transition
import UmmapIo.Mixed.Runs

/-!
# Calls of one policy object

Seen from a policy object, a run of the process is a sequence of calls, each of
which is one critical section: the mappings allocate and free their element
storage, touch segments and report evictions, and a quota changes the limit,
links the policy and asks it to shrink.  Any sequence of these calls is
considered, so what holds of all of them holds for every number of threads and
for every quota.
-/

namespace UmmapIo

/-! ## Calls -/

/-- A call of a policy object, up to the end of its critical section. -/
inductive PolicyCall (M Q : Type) : Type
  | allocateElementStorage (mapping : M)
  | notifyTouch (mapping : M) (index : Nat)
  | notifyEvict (mapping : M) (index : Nat)
  | setDynamicMaxMemory (dynamicMaxMemory : Nat)
  | setQuota (quota : Option Q)
  | shrinkMemory
  | freeElementStorage (mapping : M)

namespace PolicyObject

variable {M Q : Type}

variable [DecidableEq M] (mappings : M → Mapping)

/-- What a call does: the segments to evict, and the object afterwards. -/
def call (ndebug : Bool) (object : PolicyObject M Q) :
    PolicyCall M Q → Except Stop (List (ListElement M) × PolicyObject M Q)
  | .allocateElementStorage mapping =>
      (object.registerMapping mappings mapping).map fun after => ([], after)
  | .notifyTouch mapping index =>
      (object.notifyTouch mappings ndebug mapping index).map fun result =>
        (result.1.idsToEvict, result.2)
  | .notifyEvict mapping index =>
      (object.notifyEvict mappings ndebug mapping index).map fun after =>
        ([], after)
  | .setDynamicMaxMemory dynamicMaxMemory =>
      .ok ([], object.setDynamicMaxMemory dynamicMaxMemory)
  | .setQuota quota => (object.setQuota quota).map fun after => ([], after)
  | .shrinkMemory => object.shrinkMemory mappings
  | .freeElementStorage mapping =>
      (object.freeElementStorage mappings ndebug mapping).map fun after =>
        ([], after)

/-- The calls the rest of the program makes.  Storage is allocated for a mapping
that has none and that fits in the address space with the others; segments of
mappings with storage are touched; evictions are reported for listed segments;
storage is freed that was allocated. -/
def Admits (object : PolicyObject M Q) : PolicyCall M Q → Prop
  | .allocateElementStorage mapping =>
      mapping ∉ object.base.storageRegistry ∧
        Spacious mappings (object.base.storageRegistry ++ [mapping])
  | .notifyTouch mapping index =>
      mapping ∈ object.base.storageRegistry ∧ index < (mappings mapping).segments
  | .notifyEvict mapping index => (mapping, index) ∈ object.listed
  | .setDynamicMaxMemory _ => True
  | .setQuota _ => True
  | .shrinkMemory => True
  | .freeElementStorage mapping => mapping ∈ object.base.storageRegistry

instance (object : PolicyObject M Q) (request : PolicyCall M Q) :
    Decidable (object.Admits mappings request) := by
  cases request <;> unfold Admits <;> infer_instance

/-- The object after a call that returns. -/
def step (ndebug : Bool) (object : PolicyObject M Q)
    (request : PolicyCall M Q) : Option (PolicyObject M Q) :=
  match object.call mappings ndebug request with
  | .ok (_, after) => some after
  | .error _ => none

/-- The states of a policy object between the calls of a run. -/
def Reached (ndebug : Bool) (object : PolicyObject M Q) : Prop :=
  ∃ initial : PolicyObject M Q, initial.Constructed ∧
    ReachableBy (step mappings ndebug) (Admits mappings) initial object

variable {mappings} {ndebug : Bool} {object after : PolicyObject M Q}
variable {request : PolicyCall M Q} {idsToEvict : List (ListElement M)}

theorem step_eq_some :
    object.step mappings ndebug request = some after ↔
      ∃ idsToEvict, object.call mappings ndebug request =
        .ok (idsToEvict, after) := by
  unfold step
  cases object.call mappings ndebug request with
  | error stop => simp
  | ok result => simp [Prod.ext_iff]

theorem reached_of_create {kind : PolicyKind} {maxMemory : Nat} {isLocal : Bool}
    (run : ReachableBy (step mappings ndebug) (Admits mappings)
      (plain (Policy.create kind maxMemory isLocal)) object) :
    object.Reached mappings ndebug :=
  ⟨plain _, ⟨_, _, _, rfl⟩, run⟩

theorem reached_of_createWindow {maxMemory maxSlidingMemory : Nat} {isLocal : Bool}
    (run : ReachableBy (step mappings ndebug) (Admits mappings)
      (window (FifoWindowPolicy.create maxMemory maxSlidingMemory isLocal))
      object) :
    object.Reached mappings ndebug :=
  ⟨window _, ⟨_, _, _, rfl⟩, run⟩

/-! ## Accounts -/

/-- The accounts of the policy hold. -/
structure Settled (mappings : M → Mapping)
    (object : PolicyObject M Q) : Prop where
  balanced : object.Balanced mappings
  nodup : object.base.storageRegistry.Nodup
  space : Spacious mappings object.base.storageRegistry

/-! ### Steps and runs -/

theorem spacious_erase {registry : List M} (space : Spacious mappings registry)
    (mapping : M) :
    Spacious mappings (registry.erase mapping) := by
  refine Nat.lt_of_le_of_lt (Finset.sum_le_sum_of_subset ?_) space
  intro other member
  rw [List.mem_toFinset] at member ⊢
  exact List.mem_of_mem_erase member

/-- Every call keeps the accounts. -/
theorem Settled.call (settled : object.Settled mappings)
    (admitted : object.Admits mappings request)
    (returns : object.call mappings ndebug request = .ok (idsToEvict, after)) :
    after.Settled mappings := by
  obtain ⟨balanced, nodup, space⟩ := settled
  have advance {final : PolicyObject M Q}
      (advanced : Advanced mappings object final) : final.Settled mappings := by
    have registry := advanced.storageRegistry
    exact ⟨advanced.balanced, registry ▸ nodup, registry ▸ space⟩
  unfold PolicyObject.call at returns
  cases request with
  | allocateElementStorage mapping =>
      obtain ⟨fresh, room⟩ := admitted
      obtain ⟨rfl, registers⟩ := Fallible.map_pair_eq_ok.mp returns
      obtain ⟨extended, _, kept⟩ := registerMapping_ok balanced fresh registers
      refine ⟨kept, ?_, extended ▸ room⟩
      rw [extended, ← List.concat_eq_append]
      exact nodup.concat fresh
  | notifyTouch mapping index =>
      obtain ⟨registered, below⟩ := admitted
      obtain ⟨⟨touch, state⟩, touches, same⟩ := Fallible.map_eq_ok.mp returns
      cases same
      have touched : object.notifyTouch mappings ndebug (mapping, index).1
          (mapping, index).2 = _ := touches
      exact advance (notifyTouch_ok balanced space registered below touched).1
  | notifyEvict mapping index =>
      obtain ⟨rfl, notifies⟩ := Fallible.map_pair_eq_ok.mp returns
      have notified : object.notifyEvict mappings ndebug (mapping, index).1
          (mapping, index).2 = _ := notifies
      exact advance
        (notifyEvict_ok balanced space (fun _ => admitted) notified).toAdvanced
  | setDynamicMaxMemory limit =>
      cases returns
      exact advance (Notified.setDynamicMaxMemory balanced limit).toAdvanced
  | setQuota quota =>
      obtain ⟨rfl, sets⟩ := Fallible.map_pair_eq_ok.mp returns
      obtain ⟨registry, _, kept⟩ := setQuota_ok balanced sets
      exact ⟨kept, registry ▸ nodup, registry ▸ space⟩
  | shrinkMemory =>
      exact advance (shrinkMemory_ok balanced space returns).toAdvanced
  | freeElementStorage mapping =>
      obtain ⟨rfl, frees⟩ := Fallible.map_pair_eq_ok.mp returns
      obtain ⟨erased, _, kept⟩ :=
        freeElementStorage_ok balanced space admitted nodup frees
      exact ⟨kept, erased ▸ nodup.erase mapping,
        erased ▸ spacious_erase space mapping⟩

/-- The accounts hold in every state of a run. -/
theorem Reached.settled
    (reached : object.Reached mappings ndebug) :
    object.Settled mappings := by
  obtain ⟨initial, constructed, run⟩ := reached
  refine run.invariant (fun object => object.Settled mappings) ?_ ?_
  · obtain ⟨empty, balanced⟩ := constructed.fresh mappings
    refine ⟨balanced, ?_, ?_⟩
    · rw [empty]
      exact List.nodup_nil
    · rw [empty]
      unfold Spacious
      rw [List.toFinset_nil, Finset.sum_empty]
      decide
  · intro before after request settled admitted moved
    obtain ⟨idsToEvict, returns⟩ := step_eq_some.mp moved
    exact settled.call admitted returns

end PolicyObject

end UmmapIo
