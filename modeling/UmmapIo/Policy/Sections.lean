import UmmapIo.Mapping.Residency
import UmmapIo.Policy.Operations
import UmmapIo.Policy.Storage

/-!
# Effects of the critical sections on the world

For each critical section, what its answer says about the state it leaves.  The
sections of a mapping change the memory of that mapping only; those of a policy
change that policy only; an eviction takes one element out of the policies it
notifies.
-/

namespace UmmapIo

namespace World

variable {M P Q O α : Type} {world after : World M P Q O}
variable {result : Except Stop (α × World M P Q O)}

/-- An answered section has ended normally or ends the process. -/
theorem reply_eq_some {answer : Except String α}
    (replied : world.reply result = some (answer, after)) :
    (∃ value, result = .ok (value, after) ∧ answer = .ok value) ∨
      ∃ message, result = .error (.fatal message) ∧ answer = .error message ∧
        after = world := by
  unfold reply at replied
  split at replied
  · cases replied
    exact Or.inl ⟨_, rfl, rfl⟩
  · cases replied
    exact Or.inr ⟨_, rfl, rfl, rfl⟩
  · cases replied

/-- A section that is not answered goes on for ever. -/
theorem reply_eq_none (waits : world.reply result = none) :
    result = .error .endless := by
  unfold reply at waits
  split at waits
  · cases waits
  · cases waits
  · rfl

theorem replyUnit_eq_some {result : Except Stop (World M P Q O)}
    {answer : Except String Unit}
    (replied : world.replyUnit result = some (answer, after)) :
    (result = .ok after ∧ answer = .ok ()) ∨
      ∃ message, result = .error (.fatal message) ∧ answer = .error message ∧
        after = world := by
  obtain ⟨value, mapped, rfl⟩ | ⟨message, mapped, rest⟩ :=
    reply_eq_some replied
  · obtain ⟨state, equal, same⟩ := Fallible.map_eq_ok.mp mapped
    cases same
    exact Or.inl ⟨equal, rfl⟩
  · exact Or.inr ⟨message, Fallible.map_eq_error.mp mapped, rest⟩

section Steps

variable [DecidableEq P] {step : O → Except Stop O} {policies : List P}
variable (nodup : policies.Nodup)
include nodup

/-- What steps of different policies do. -/
theorem foldlM_stepPolicy
    (ends : policies.foldlM (fun world => world.stepPolicy step) world = .ok after) :
    (∀ policy ∈ policies, step (world.policy policy) = .ok (after.policy policy)) ∧
      (∀ policy ∉ policies, after.policy policy = world.policy policy) ∧
      after.core = world.core ∧ after.live = world.live ∧
      after.quota = world.quota := by
  induction policies generalizing world with
  | nil =>
      cases ends
      exact ⟨fun _ member => (nomatch member), fun _ _ => rfl, rfl, rfl, rfl⟩
  | cons first rest inductionHypothesis =>
      obtain ⟨fresh, nodup⟩ := List.nodup_cons.mp nodup
      rw [List.foldlM_cons] at ends
      obtain ⟨_, moved, ends⟩ := Fallible.bind_eq_ok.mp ends
      obtain ⟨state, steps, same⟩ := Fallible.bind_eq_ok.mp moved
      cases same
      obtain ⟨inside, outside, unchanged⟩ := inductionHypothesis nodup ends
      refine ⟨fun policy member => ?_, fun policy absent => ?_, unchanged⟩
      · obtain rfl | later := List.mem_cons.mp member
        · rw [outside policy fresh, setPolicy_policy_self]
          exact steps
        · have stays := inside policy later
          rwa [setPolicy_policy_of_ne _ (ne_of_mem_of_not_mem later fresh)] at stays
      · rw [List.mem_cons, not_or] at absent
        rw [outside policy absent.2, setPolicy_policy_of_ne _ absent.1]

theorem exists_foldlM_stepPolicy
    (accepts : ∀ policy ∈ policies, ∃ state, step (world.policy policy) = .ok state) :
    ∃ after, policies.foldlM (fun world => world.stepPolicy step) world = .ok after := by
  induction policies generalizing world with
  | nil => exact ⟨world, rfl⟩
  | cons first rest inductionHypothesis =>
      obtain ⟨fresh, nodup⟩ := List.nodup_cons.mp nodup
      obtain ⟨state, steps⟩ := accepts first List.mem_cons_self
      have later : ∀ policy ∈ rest, ∃ after,
          step ((world.setPolicy first state).policy policy) = .ok after := by
        intro policy member
        rw [setPolicy_policy_of_ne _ (ne_of_mem_of_not_mem member fresh)]
        exact accepts policy (List.mem_cons_of_mem _ member)
      obtain ⟨after, ends⟩ := inductionHypothesis nodup later
      refine ⟨after, ?_⟩
      rw [List.foldlM_cons, stepPolicy, steps]
      exact ends

end Steps

/-- The share of a quota changes its size only. -/
theorem shareQuota_ok [DecidableEq Q] {quota : Q}
    (shared : world.shareQuota quota = .ok after) :
    ∃ staticMaxMemory, after = world.setQuota quota
      { world.quota quota with staticMaxMemory := staticMaxMemory } := by
  unfold shareQuota at shared
  split at shared
  · cases shared
    refine ⟨(world.quota quota).staticMaxMemory, ?_⟩
    unfold setQuota
    rw [Function.update_eq_self]
  · split at shared
    · cases shared
      exact ⟨_, rfl⟩
    · cases shared

end World

namespace Policy

variable {M Q : Type} [DecidableEq M] {mappings : M → Mapping}
variable {policy : Policy M Q} {ndebug : Bool}

/-- A registered mapping that is found is served. -/
theorem serves_of_getStorageInfo {mapping owner : M}
    (registered : mapping ∈ policy.storageRegistry)
    (found : policy.getStorageInfo ndebug mapping = .ok owner) :
    policy.Serves mapping := by
  refine ⟨registered, ?_⟩
  intro isLocal
  unfold getStorageInfo at found
  rw [if_pos isLocal] at found
  split at found
  · rename_i alone
    rw [alone, List.mem_singleton] at registered
    rw [alone, registered]
  · cases found

theorem serves_of_notifyTouch {after : Policy M Q} {touch : Touch M}
    {cur : ListElement M}
    (registered : cur.1 ∈ policy.storageRegistry)
    (ends : policy.notifyTouch mappings ndebug cur.1 cur.2 =
      .ok (touch, after)) :
    policy.Serves cur.1 := by
  unfold notifyTouch at ends
  split at ends
  · unfold FifoPolicy.notifyTouch at ends
    obtain ⟨owner, found, _⟩ := Fallible.bind_eq_ok.mp ends
    exact serves_of_getStorageInfo registered found
  · unfold LifoPolicy.notifyTouch at ends
    obtain ⟨owner, found, _⟩ := Fallible.bind_eq_ok.mp ends
    exact serves_of_getStorageInfo registered found

end Policy

/-! ## The beginning -/

section Started

variable {M P Q : Type} [Fintype M]

/-- The world right after the constructors of policies, quotas and mappings. -/
structure Setup.Started (setup : Setup M P)
    (world : World M P Q) : Prop where
  core : ∀ mapping, ∃ flags storage,
    world.core mapping = Core.initial flags storage
  live : ∀ mapping, world.live mapping = true
  policy : ∀ policy, (world.policy policy).Constructed setup.mapping
    fun mapping => policy ∈ setup.policiesOf mapping
  quota : ∀ quota, (world.quota quota).policies = []

theorem Setup.Started.unmapped {setup : Setup M P} {world : World M P Q}
    (started : setup.Started world) (element : ListElement M) :
    ¬(world.core element.1).Mapped element.2 := by
  obtain ⟨flags, storage, equal⟩ := started.core element.1
  rw [equal]
  exact Bool.false_ne_true

/-- Mappings of whole pages with a driver that transfers everything. -/
def Setup.ofPages (pages : M → UInt16)
    (localPolicy globalPolicy : M → Option P)
    (ndebug : Bool)
    (distinct : ∀ mapping policy, localPolicy mapping = some policy →
      globalPolicy mapping ≠ some policy)
    (space : AddressSpace fun mapping => Mapping.ofPages (pages mapping) true) :
    Setup M P where
  mapping := fun mapping => Mapping.ofPages (pages mapping) true
  driver := fun _ => Driver.whole
  localPolicy := localPolicy
  globalPolicy := globalPolicy
  ndebug := ndebug
  noError := fun _ => Driver.whole_full.noError
  indirect := fun _ => rfl
  distinct := distinct
  space := space

theorem one_mapping_fits (pages : UInt16) :
    AddressSpace fun _ : Unit => Mapping.ofPages pages true := by
  have small := pages.toNat_lt
  have aligned : (Mapping.ofPages pages true).getAlignedSize <
      pageSize * (pages.toNat + 1) + pageSize :=
    Mapping.getAlignedSize_lt _
  unfold AddressSpace
  rw [Fintype.sum_unique]
  refine Nat.lt_trans aligned ?_
  unfold pageSize wordModulus
  omega

/-- One mapping with one policy. -/
def Setup.single (pages : UInt16) (ndebug : Bool) : Setup Unit Unit :=
  Setup.ofPages (fun _ => pages) (fun _ => none) (fun _ => some ()) ndebug
    (fun _ _ absurdity => nomatch absurdity) (one_mapping_fits pages)

theorem two_mappings_fit : AddressSpace fun _ : Bool => twoPages := by
  decide

/-- Two mappings of two pages, each with a policy of its own. -/
def Setup.pair (ndebug : Bool) : Setup Bool Bool :=
  Setup.ofPages (fun _ => 1) (fun _ => none) some ndebug
    (fun _ _ absurdity => nomatch absurdity) two_mappings_fit

/-- The world of mappings that were just created over an empty storage. -/
def World.start (policy : P → Policy M Q) (quota : Q → Quota P) :
    World M P Q where
  core := fun _ => Core.initial ⟨false, false⟩ fun _ => 0
  live := fun _ => true
  policy := policy
  quota := quota

theorem Setup.started_single {pages : UInt16} {ndebug : Bool} {policy : Policy Unit Q}
    {quota : Q → Quota Unit} (kind : PolicyKind) (maxMemory : Nat)
    (registers : (Policy.create kind maxMemory false).registerMapping
      (Setup.single pages ndebug).mapping () = .ok policy)
    (unused : ∀ index, (quota index).policies = []) :
    (Setup.single pages ndebug).Started (World.start (fun _ => policy) quota) where
  core := fun _ => ⟨_, _, rfl⟩
  live := fun _ => rfl
  policy := by
    intro _
    refine ⟨kind, maxMemory, false, [()], by decide, ?_,
      congrArg (· >>= pure) registers⟩
    intro mapping
    simp [Setup.single, Setup.policiesOf, Setup.ofPages]
  quota := unused

end Started

/-! ## Evictions -/

section Eviction

variable {M P Q : Type} [Fintype M]

theorem Setup.nodup_policiesOf (setup : Setup M P) (mapping : M) :
    (setup.policiesOf mapping).Nodup := by
  unfold Setup.policiesOf
  have distinct := setup.distinct mapping
  cases localPolicy : setup.localPolicy mapping with
  | none => cases setup.globalPolicy mapping <;> simp
  | some first =>
      cases globalPolicy : setup.globalPolicy mapping with
      | none => simp
      | some second =>
          have different := distinct first localPolicy
          rw [globalPolicy] at different
          simp only [Option.toList_some, List.singleton_append,
            List.nodup_cons, List.mem_singleton, List.not_mem_nil,
            not_false_eq_true, List.nodup_nil, and_true]
          exact fun same => different (congrArg some same.symm)

/-- A fault maps one segment of one mapping. -/
theorem Setup.mapped_fault_iff [DecidableEq M] (setup : Setup M P) (core : M → Core)
    (element other : ListElement M) (isWrite : Bool) :
    (Function.update core element.1 ((core element.1).fault
      (setup.mapping element.1) (setup.driver element.1) element.2 isWrite)
        other.1).Mapped other.2 ↔
      (core other.1).Mapped other.2 ∨ other = element := by
  by_cases same : other.1 = element.1
  · rw [same, Function.update_self, Core.mapped_fault_iff, Prod.ext_iff]
    simp [same]
  · rw [Function.update_of_ne same]
    have different : other ≠ element := fun equal => same (congrArg _ equal)
    simp [different]

/-- An eviction withdraws one segment of one mapping. -/
theorem Setup.mapped_evict_iff [DecidableEq M] (setup : Setup M P) (core : M → Core)
    (element other : ListElement M) :
    (Function.update core element.1 ((core element.1).evict
      (setup.mapping element.1) (setup.driver element.1) element.2)
        other.1).Mapped other.2 ↔
      (core other.1).Mapped other.2 ∧ other ≠ element := by
  by_cases same : other.1 = element.1
  · rw [same, Function.update_self,
      Core.mapped_evict_iff _ (setup.indirect element.1), Ne, Ne, Prod.ext_iff]
    simp [same]
  · rw [Function.update_of_ne same]
    have different : other ≠ element := fun equal => same (congrArg _ equal)
    simp [different]

variable [DecidableEq M] [DecidableEq P]

/-- What an eviction does: the notified policies drop the element, and the
mapping withdraws the segment. -/
structure Setup.Evicted (setup : Setup M P) (source : P) (element : ListElement M)
    (before after : World M P Q) : Prop where
  notified : ∀ policy ∈ setup.policiesOf element.1, policy ≠ source →
    (before.policy policy).Updated setup.mapping [] [element] (after.policy policy)
  others : ∀ policy, policy ∉ setup.policiesOf element.1 ∨ policy = source →
    after.policy policy = before.policy policy
  core : after.core = Function.update before.core element.1
    ((before.core element.1).evict (setup.mapping element.1)
      (setup.driver element.1) element.2)
  live : after.live = before.live
  quota : after.quota = before.quota

/-- An eviction that only reaches policies listing the element. -/
theorem Setup.evictSection_ok (setup : Setup M P) (source : P) (element : ListElement M)
    (world : World M P Q)
    (balanced : ∀ policy ∈ setup.policiesOf element.1, policy ≠ source →
      (world.policy policy).Balanced setup.mapping)
    (served : ∀ policy ∈ setup.policiesOf element.1, policy ≠ source →
      (world.policy policy).Serves element.1)
    (listed : ∀ policy ∈ setup.policiesOf element.1, policy ≠ source →
      element ∈ (world.policy policy).ring) :
    ∃ after, setup.evictSection source element.1 element.2 world = .ok after ∧
      setup.Evicted source element world after := by
  have accepts (policy : P)
      (member : policy ∈ (setup.policiesOf element.1).filter (· ≠ source)) :
      ∃ notified, (world.policy policy).notifyEvict setup.mapping setup.ndebug element.1
          element.2 = .ok notified ∧
        (world.policy policy).Updated setup.mapping [] [element] notified := by
    rw [List.mem_filter, decide_eq_true_iff] at member
    obtain ⟨notified, ends, _, updated⟩ := Policy.notifyEvict_ok
      (balanced policy member.1 member.2) (setup.space.spacious _)
      (served policy member.1 member.2) (listed policy member.1 member.2) setup.ndebug
    exact ⟨notified, ends, updated⟩
  have nodup := (setup.nodup_policiesOf element.1).filter (· ≠ source)
  obtain ⟨notified, ends⟩ : ∃ notified, List.foldlM
      (setup.notifyEvict element.1 element.2) world _ = .ok notified :=
    World.exists_foldlM_stepPolicy nodup fun policy member =>
      (accepts policy member).imp fun _ => And.left
  obtain ⟨steps, others, core, live, quota⟩ := World.foldlM_stepPolicy nodup ends
  refine ⟨notified.setCore element.1 ((notified.core element.1).evict
    (setup.mapping element.1) (setup.driver element.1) element.2), ?_, ?_⟩
  · unfold Setup.evictSection
    rw [ends]
    rfl
  · refine ⟨?_, fun policy outside => others policy ?_, ?_, live, quota⟩
    · intro policy attached different
      have member : policy ∈ (setup.policiesOf element.1).filter (· ≠ source) :=
        List.mem_filter.mpr ⟨attached, decide_eq_true different⟩
      obtain ⟨_, notifies, updated⟩ := accepts policy member
      cases notifies.symm.trans (steps policy member)
      exact updated
    · rw [List.mem_filter, decide_eq_true_iff]
      tauto
    · rw [← core]
      rfl

/-- An eviction changes no setting of a policy. -/
theorem Setup.Evicted.settings {setup : Setup M P} {source : P}
    {element : ListElement M} {before after : World M P Q}
    (evicted : setup.Evicted source element before after)
    (policy : P) :
    (after.policy policy).toPolicySettings =
      (before.policy policy).toPolicySettings := by
  by_cases notified : policy ∈ setup.policiesOf element.1 ∧ policy ≠ source
  · exact (evicted.notified policy notified.1 notified.2).settings
  · rw [evicted.others policy (by tauto)]

end Eviction

/-! ## Consistency -/

section Consistent

variable {M P Q : Type} [Fintype M]

/-- Every recorded notice was for a listed element, and no decrement of a
counter wrapped around. -/
def World.Sound (world : World M P Q) : Prop :=
  ∀ policy, ∀ event ∈ (world.policy policy).trace, event.Sound

/-- What holds of all policies between any two critical sections, as long as
every notice is for a listed element. -/
structure Setup.Consistent (setup : Setup M P)
    (world : World M P Q) : Prop where
  balanced : ∀ policy, (world.policy policy).Balanced setup.mapping
  sound : world.Sound
  registered : ∀ policy mapping,
    mapping ∈ (world.policy policy).storageRegistry ↔
      policy ∈ setup.policiesOf mapping ∧ world.live mapping = true
  served : ∀ policy, ∀ element ∈ (world.policy policy).ring,
    (world.policy policy).Serves element.1

variable {setup : Setup M P} {world after : World M P Q}

theorem Setup.Started.consistent (started : setup.Started world) :
    setup.Consistent world where
  balanced := fun policy => (started.policy policy).fresh.balanced
  sound := by
    intro policy
    rw [(started.policy policy).fresh.trace]
    exact fun _ member => nomatch member
  registered := by
    intro policy mapping
    rw [(started.policy policy).fresh.registered, started.live mapping]
    simp
  served := by
    intro policy
    rw [(started.policy policy).fresh.ring]
    exact fun _ member => nomatch member

variable {policy : P} {element : ListElement M} {state : Policy M Q}

/-- A touch that ends normally. -/
theorem Setup.Consistent.touched [DecidableEq M] (consistent : setup.Consistent world)
    {touch : Touch M}
    (attached : policy ∈ setup.policiesOf element.1)
    (live : world.live element.1 = true)
    (below : element.2 < (setup.mapping element.1).segments)
    (ends : (world.policy policy).notifyTouch setup.mapping setup.ndebug
      element.1 element.2 = .ok (touch, state)) :
    (world.policy policy).Touched setup.mapping element touch state := by
  have registered :=
    (consistent.registered policy element.1).mpr ⟨attached, live⟩
  exact Policy.notifyTouch_ok (consistent.balanced policy) (setup.space.spacious _)
    (Policy.serves_of_notifyTouch registered ends) below ends

variable [DecidableEq P]

theorem Setup.Consistent.setPolicy (consistent : setup.Consistent world)
    {added removed : List (ListElement M)}
    (updated : (world.policy policy).Updated setup.mapping added removed state) :
    setup.Consistent (world.setPolicy policy state) where
  balanced := by
    intro other
    rw [World.setPolicy_policy]
    by_cases same : other = policy
    · rw [same, Function.update_self]
      exact updated.balanced
    · rw [Function.update_of_ne same]
      exact consistent.balanced other
  sound := by
    intro other
    rw [World.setPolicy_policy]
    by_cases same : other = policy
    · rw [same, Function.update_self]
      exact updated.sound (consistent.sound policy)
    · rw [Function.update_of_ne same]
      exact consistent.sound other
  registered := by
    intro other mapping
    rw [World.setPolicy_policy]
    by_cases same : other = policy
    · rw [same, Function.update_self, updated.settings]
      exact consistent.registered policy mapping
    · rw [Function.update_of_ne same]
      exact consistent.registered other mapping
  served := by
    intro other
    rw [World.setPolicy_policy]
    by_cases same : other = policy
    · rw [same, Function.update_self]
      exact updated.serves (consistent.served policy)
    · rw [Function.update_of_ne same]
      exact consistent.served other

variable {source : P}

/-- An eviction of a segment that the other policies of its mapping list. -/
theorem Setup.Consistent.evictSection_ok [DecidableEq M]
    (consistent : setup.Consistent world)
    (listed : ∀ policy ∈ setup.policiesOf element.1, policy ≠ source →
      element ∈ (world.policy policy).ring) :
    ∃ after, setup.evictSection source element.1 element.2 world = .ok after ∧
      setup.Evicted source element world after :=
  setup.evictSection_ok source element world
    (fun policy _ _ => consistent.balanced policy)
    (fun policy attached different => consistent.served policy element
      (listed policy attached different)) listed

/-- An eviction. -/
theorem Setup.Consistent.evicted [DecidableEq M] (consistent : setup.Consistent world)
    (evicted : setup.Evicted source element world after) :
    setup.Consistent after where
  balanced := by
    intro policy
    by_cases notified : policy ∈ setup.policiesOf element.1 ∧ policy ≠ source
    · exact (evicted.notified policy notified.1 notified.2).balanced
    · rw [evicted.others policy (by tauto)]
      exact consistent.balanced policy
  sound := by
    intro policy
    by_cases notified : policy ∈ setup.policiesOf element.1 ∧ policy ≠ source
    · exact (evicted.notified policy notified.1 notified.2).sound
        (consistent.sound policy)
    · rw [evicted.others policy (by tauto)]
      exact consistent.sound policy
  registered := by
    intro policy mapping
    rw [evicted.settings policy, evicted.live]
    exact consistent.registered policy mapping
  served := by
    intro policy
    by_cases notified : policy ∈ setup.policiesOf element.1 ∧ policy ≠ source
    · exact (evicted.notified policy notified.1 notified.2).serves
        (consistent.served policy)
    · rw [evicted.others policy (by tauto)]
      exact consistent.served policy

end Consistent

end UmmapIo
