import UmmapIo.Mixed.Objects
import UmmapIo.Quota.Update

/-!
# Evictions and updates of policy objects

What holds of the policy objects between any two critical sections: an eviction,
`shrinkMemory` and the update of a quota keep the accounts and the registries.
-/

namespace UmmapIo

/-! ## Policy objects -/

namespace MixedWorld

variable {M P Q : Type} {world : MixedWorld M P Q}

/-- What holds of all policy objects after one of them was replaced. -/
theorem forall_setPolicy [DecidableEq P] {policy : P} {state : PolicyObject M Q}
    (property : P → PolicyObject M Q → Prop) (self : property policy state)
    (others : ∀ other, other ≠ policy → property other (world.policy other)) :
    ∀ other, property other ((world.setPolicy policy state).policy other) :=
  (Function.forall_update_iff world.policy property).mpr ⟨self, others⟩

/-- No local policy has two mappings. -/
def Alone (world : MixedWorld M P Q) : Prop :=
  ∀ policy, (world.policy policy).Alone

end MixedWorld

namespace Setup

variable {M P Q : Type} [Fintype M] {setup : Setup M P}

/-! ## Registries -/

/-- The accounts of all policies are balanced, and a policy has exactly the
mappings that exist and use it, except for a mapping whose destruction has
begun. -/
structure Tracked (setup : Setup M P) (exempt : M → Prop)
    (world : MixedWorld M P Q) : Prop where
  balanced : ∀ policy, (world.policy policy).Balanced setup.mapping
  nodup : ∀ policy, (world.policy policy).base.storageRegistry.Nodup
  attached : ∀ policy, ∀ mapping ∈ (world.policy policy).base.storageRegistry,
    policy ∈ setup.policiesOf mapping ∧ world.live mapping = true
  served : ∀ policy mapping, policy ∈ setup.policiesOf mapping →
    world.live mapping = true → ¬exempt mapping →
      mapping ∈ (world.policy policy).base.storageRegistry
  alone : world.Alone

/-- What holds whenever an update of a quota begins: no policy has a mapping whose
destruction has begun. -/
def Updatable (setup : Setup M P) (world : MixedWorld M P Q) : Prop :=
  ∃ exempt, setup.Tracked exempt world ∧ ∀ policy,
    ∀ mapping ∈ (world.policy policy).base.storageRegistry, ¬exempt mapping

/-- Steps that changed no registry and kept the accounts. -/
structure Kept (setup : Setup M P)
    (before after : MixedWorld M P Q) : Prop where
  live : after.live = before.live
  registries : ∀ policy, (after.policy policy).base.storageRegistry =
    (before.policy policy).base.storageRegistry
  alone : before.Alone → after.Alone
  balanced : ∀ policy, (after.policy policy).Balanced setup.mapping

variable {exempt : M → Prop} {initial world after : MixedWorld M P Q}

theorem Tracked.refl (tracked : setup.Tracked exempt world) :
    setup.Kept world world where
  live := rfl
  registries := fun _ => rfl
  alone := id
  balanced := tracked.balanced

theorem Kept.trans {middle : MixedWorld M P Q} (head : setup.Kept world middle)
    (tail : setup.Kept middle after) :
    setup.Kept world after where
  live := tail.live.trans head.live
  registries := fun policy =>
    (tail.registries policy).trans (head.registries policy)
  alone := fun alone => tail.alone (head.alone alone)
  balanced := tail.balanced

theorem Tracked.keep (tracked : setup.Tracked exempt world)
    (kept : setup.Kept world after) :
    setup.Tracked exempt after where
  balanced := kept.balanced
  nodup := by
    intro policy
    rw [kept.registries]
    exact tracked.nodup policy
  attached := by
    intro policy
    rw [kept.registries, kept.live]
    exact tracked.attached policy
  served := by
    intro policy
    rw [kept.registries, kept.live]
    exact tracked.served policy
  alone := kept.alone tracked.alone

theorem Tracked.updatable
    (tracked : setup.Tracked (fun _ => False) world) :
    setup.Updatable world :=
  ⟨_, tracked, fun _ _ _ => id⟩

theorem Updatable.keep (updatable : setup.Updatable world)
    (kept : setup.Kept world after) :
    setup.Updatable after := by
  obtain ⟨exempt, tracked, used⟩ := updatable
  refine ⟨exempt, tracked.keep kept, fun policy => ?_⟩
  rw [kept.registries]
  exact used policy

section

variable (kept : setup.Kept initial world)
include kept

theorem Kept.setQuota [DecidableEq Q] (quota : Q) (state : Quota P) :
    setup.Kept initial (world.setQuota quota state) :=
  ⟨kept.live, kept.registries, kept.alone, kept.balanced⟩

theorem Kept.setCore [DecidableEq M] (mapping : M) (core : Core) :
    setup.Kept initial (world.setCore mapping core) :=
  ⟨kept.live, kept.registries, kept.alone, kept.balanced⟩

/-- A step of one policy that changes no registry. -/
theorem Kept.setPolicy [DecidableEq P] {policy : P} {state : PolicyObject M Q}
    (registry : state.base.storageRegistry =
      (world.policy policy).base.storageRegistry)
    (alone : (world.policy policy).Alone → state.Alone)
    (balanced : state.Balanced setup.mapping) :
    setup.Kept initial (world.setPolicy policy state) where
  live := kept.live
  registries := MixedWorld.forall_setPolicy
    (fun other state => state.base.storageRegistry =
      (initial.policy other).base.storageRegistry)
    (registry.trans (kept.registries policy))
    fun other _ => kept.registries other
  alone := fun all => MixedWorld.forall_setPolicy (fun _ => PolicyObject.Alone)
    (alone (kept.alone all policy)) fun other _ => kept.alone all other
  balanced := MixedWorld.forall_setPolicy (fun _ => PolicyObject.Balanced _)
    balanced fun other _ => kept.balanced other

/-- A new limit for a policy. -/
theorem Kept.setDynamicMaxMemory [DecidableEq P] (policy : P) (limit : Nat) :
    setup.Kept initial (world.setPolicy policy
      ((world.policy policy).setDynamicMaxMemory limit)) := by
  have advanced := PolicyObject.Notified.setDynamicMaxMemory
    (kept.balanced policy) limit
  exact kept.setPolicy advanced.storageRegistry advanced.alone advanced.balanced

end

theorem Tracked.freed [DecidableEq M] [DecidableEq P] {mapping : M} {policy : P}
    {state : PolicyObject M Q}
    (tracked : setup.Tracked (· = mapping) world)
    (registry : state.base.storageRegistry =
      (world.policy policy).base.storageRegistry.erase mapping)
    (isLocal : state.base.isLocal = (world.policy policy).base.isLocal)
    (balanced : state.Balanced setup.mapping) :
    setup.Tracked (· = mapping) (world.setPolicy policy state) where
  balanced := MixedWorld.forall_setPolicy (fun _ => PolicyObject.Balanced _)
    balanced fun other _ => tracked.balanced other
  nodup := by
    refine MixedWorld.forall_setPolicy
      (fun _ state => state.base.storageRegistry.Nodup) ?_
      fun other _ => tracked.nodup other
    rw [registry]
    exact (tracked.nodup policy).erase mapping
  attached := by
    refine MixedWorld.forall_setPolicy
      (fun other state => ∀ mapping ∈ state.base.storageRegistry,
        other ∈ setup.policiesOf mapping ∧ world.live mapping = true) ?_
      fun other _ => tracked.attached other
    rw [registry]
    exact fun other member =>
      tracked.attached policy other (List.mem_of_mem_erase member)
  served := by
    refine MixedWorld.forall_setPolicy
      (fun other state => ∀ served, other ∈ setup.policiesOf served →
        world.live served = true → ¬served = mapping →
          served ∈ state.base.storageRegistry) ?_
      fun other _ => tracked.served other
    rw [registry]
    intro served attached live different
    exact (tracked.nodup policy).mem_erase_iff.mpr
      ⟨different, tracked.served policy served attached live different⟩
  alone := by
    refine MixedWorld.forall_setPolicy (fun _ => PolicyObject.Alone) ?_
      fun other _ => tracked.alone other
    intro flag other member
    rw [registry] at member ⊢
    have alone := tracked.alone policy (isLocal ▸ flag) other
      (List.mem_of_mem_erase member)
    rw [alone, List.erase_of_not_mem]
    rintro self
    rw [alone, List.mem_singleton.mp self] at member
    simp at member

/-- A mapping that no policy knows any more is gone. -/
theorem Tracked.close [DecidableEq M] {mapping : M}
    (tracked : setup.Tracked (· = mapping) world)
    (forgotten : ∀ policy,
      mapping ∉ (world.policy policy).base.storageRegistry) :
    setup.Tracked (fun _ => False) (world.setLive mapping false) where
  balanced := tracked.balanced
  nodup := tracked.nodup
  attached := by
    intro policy other member
    obtain ⟨attached, live⟩ := tracked.attached policy other member
    refine ⟨attached, ?_⟩
    rw [World.setLive_live, Function.update_of_ne]
    · exact live
    · rintro rfl
      exact forgotten policy member
  served := by
    intro policy other attached live _
    by_cases same : other = mapping
    · rw [same, World.setLive_live, Function.update_self] at live
      cases live
    · rw [World.setLive_live, Function.update_of_ne same] at live
      exact tracked.served policy other attached live same
  alone := tracked.alone

variable [DecidableEq M]

/-! ## Evictions -/

/-- What an eviction does: the other policies of the mapping may have been notified,
and the segment is withdrawn. -/
structure EvictedMixed (setup : Setup M P) (source : P) (element : ListElement M)
    (before after : MixedWorld M P Q) : Prop where
  policy : ∀ policy, PolicyObject.Notified setup.mapping (before.policy policy)
    (after.policy policy)
  others : ∀ policy, policy ∉ setup.policiesOf element.1 ∨ policy = source →
    after.policy policy = before.policy policy
  core : after.core = Function.update before.core element.1
    ((before.core element.1).evict (setup.mapping element.1)
      (setup.driver element.1) element.2)
  live : after.live = before.live
  quota : after.quota = before.quota

variable {source : P} {element : ListElement M}

theorem Kept.evicted (kept : setup.Kept initial world)
    (evicted : setup.EvictedMixed source element world after) :
    setup.Kept initial after where
  live := evicted.live.trans kept.live
  registries := fun policy =>
    (evicted.policy policy).storageRegistry.trans (kept.registries policy)
  alone := fun alone policy =>
    (evicted.policy policy).alone (kept.alone alone policy)
  balanced := fun policy => (evicted.policy policy).balanced

variable [DecidableEq P]

/-- The notices of an operation are for listed segments. -/
def NoticesListedMixed (setup : Setup M P) (op : PolicyOp M P Q)
    (world : MixedWorld M P Q) : Prop :=
  ∀ notice ∈ setup.notices op, notice.2 ∈ (world.policy notice.1).listed

/-- The notices of an operation are for listed segments, if assertions are
compiled out; otherwise a notice for another segment ends the process. -/
def Noticed (setup : Setup M P) (op : PolicyOp M P Q)
    (world : MixedWorld M P Q) : Prop :=
  setup.ndebug = true → setup.NoticesListedMixed op world

/-- The contract of operations that may stop or wait. -/
def mixedContract (setup : Setup M P) :
    Contract (policySignature M P Q) (MixedWorld M P Q) where
  assumes := setup.Noticed
  invariant
    | .shareQuota _, world => setup.Updatable world
    | _, _ => True
  stops _ := True
  blocks := True

theorem evictSectionMixed_ok
    (balanced : ∀ policy, (world.policy policy).Balanced setup.mapping)
    (noticed : setup.Noticed (.evict source element.1 element.2 : PolicyOp M P Q) world)
    (ends : setup.evictSectionMixed source element.1 element.2 world =
      .ok after) :
    setup.EvictedMixed source element world after := by
  obtain ⟨notified, notifies, equal⟩ := Fallible.bind_eq_ok.mp ends
  cases equal
  obtain ⟨steps, others, core, live, quota⟩ := World.foldlM_stepPolicy
    ((setup.nodup_policiesOf element.1).filter (· ≠ source)) notifies
  refine ⟨fun policy => ?_, fun policy spared => others policy ?_, ?_, live, quota⟩
  · by_cases member : policy ∈ (setup.policiesOf element.1).filter (· ≠ source)
    · exact PolicyObject.notifyEvict_ok (balanced policy) (setup.space.spacious _)
        (fun ndebug => noticed ndebug (policy, element) (List.mem_map_of_mem member))
        (steps policy member)
    · rw [World.setCore_policy, others policy member]
      exact .refl (balanced policy)
  · rw [List.mem_filter, decide_eq_true_iff]
    tauto
  · rw [← core]
    rfl

variable [DecidableEq Q]

/-- `Mapping::evict`. -/
theorem meets_evictMixed {post : Unit → MixedWorld M P Q → Prop}
    (balanced : ∀ policy, (world.policy policy).Balanced setup.mapping)
    (holds : ∀ after, setup.EvictedMixed source element world after →
      post () after) :
    (PolicyProgram.evict source element).Meets setup.handleMixed
      setup.mixedContract post world := by
  refine Program.Meets.bind (.request trivial (fun _ _ => trivial) ?_)
  intro noticed answer after replied
  obtain ⟨ends, rfl⟩ | ⟨message, _, rfl, _⟩ := World.replyUnit_eq_some replied
  · exact holds after (evictSectionMixed_ok balanced noticed ends)
  · exact trivial

section

variable (kept : setup.Kept initial world)
include kept

/-- The evictions ordered by one policy withdraw their segments. -/
theorem Kept.meets_evictions (source : P) (idsToEvict : List (ListElement M)) :
    (Program.each (PolicyProgram.evict source) idsToEvict).Meets
      setup.handleMixed setup.mixedContract
      (fun _ after => setup.Kept initial after ∧ ∀ element : ListElement M,
        (after.core element.1).Mapped element.2 ↔
          (world.core element.1).Mapped element.2 ∧ element ∉ idsToEvict)
      world := by
  refine (Program.Meets.each
    (fun rest state => setup.Kept initial state ∧
      ∃ taken, taken ++ rest = idsToEvict ∧ ∀ element : ListElement M,
        (state.core element.1).Mapped element.2 ↔
          (world.core element.1).Mapped element.2 ∧ element ∉ taken)
    ⟨kept, [], rfl, by simp⟩ ?_).mono ?_
  · rintro element rest before ⟨kept, taken, split, mapped⟩
    refine meets_evictMixed kept.balanced fun after evicted => ?_
    refine ⟨kept.evicted evicted, taken ++ [element], by simpa using split, ?_⟩
    intro other
    rw [evicted.core, setup.mapped_evict_iff, mapped]
    simp [and_assoc]
  · rintro _ after ⟨kept, taken, split, mapped⟩
    rw [List.append_nil] at split
    exact ⟨kept, split ▸ mapped⟩

theorem Kept.meets_shrinkMemory (policy : P) :
    (PolicyProgram.shrinkMemory policy).Meets setup.handleMixed
      setup.mixedContract (fun _ after => setup.Kept initial after) world := by
  refine Program.Meets.bind (.request trivial (fun _ _ => trivial) ?_)
  intro _ answer after replied
  obtain ⟨idsToEvict, ends, rfl⟩ | ⟨message, _, rfl, _⟩ :=
    World.reply_eq_some replied
  · obtain ⟨⟨value, state⟩, shrinks, equal⟩ := Fallible.map_eq_ok.mp ends
    cases equal
    have shrunk := PolicyObject.shrinkMemory_ok (kept.balanced policy)
      (setup.space.spacious _) shrinks
    exact ((kept.setPolicy shrunk.storageRegistry shrunk.alone
      shrunk.balanced).meets_evictions policy value).mono fun _ _ ends => ends.1
  · exact trivial

/-- The loop of `PolicyQuotaLocal::update`. -/
theorem Kept.meets_updateLoop (quota : Q) (averageMem rounds : Nat) :
    (PolicyProgram.updateLoop quota averageMem rounds).Meets setup.handleMixed
      setup.mixedContract (fun _ after => setup.Kept initial after) world := by
  induction rounds generalizing world with
  | zero =>
      exact Program.Meets.request trivial (fun _ _ => trivial)
        (fun _ _ _ answer => nomatch answer)
  | succ rounds inductionHypothesis =>
      refine Program.Meets.bind (.request trivial (fun _ _ => trivial) ?_)
      intro _ answer after replied
      obtain ⟨rfl, rfl⟩ := answer_inj replied
      cases world.memories quota with
      | nil => exact kept
      | cons first rest =>
          dsimp only
          split
          · refine Program.Meets.bind (.request trivial (fun _ _ => trivial) ?_)
            intro _ answer after replied
            obtain ⟨_, rfl⟩ := answer_inj replied
            exact ((kept.setDynamicMaxMemory _ _).meets_shrinkMemory _).andThen
              fun _ _ kept => inductionHypothesis kept
          · exact kept

theorem Kept.meets_update (updatable : setup.Updatable initial) (rounds : Nat)
    (quota : Q) :
    (PolicyProgram.update rounds quota).Meets setup.handleMixed
      setup.mixedContract (fun _ after => setup.Kept initial after) world := by
  refine Program.Meets.bind (.request (updatable.keep kept) (fun _ _ => trivial) ?_)
  intro _ answer after replied
  obtain ⟨ends, rfl⟩ | ⟨message, _, rfl, _⟩ := World.replyUnit_eq_some replied
  · have shared : setup.Kept initial after := by
      obtain ⟨_, rfl⟩ := World.shareQuota_ok ends
      exact kept.setQuota quota _
    refine Program.Meets.bind (.request trivial (fun _ _ => trivial) ?_)
    intro _ answer state replied
    obtain ⟨rfl, rfl⟩ := answer_inj replied
    exact Program.Meets.when (fun _ => shared.meets_updateLoop quota _ rounds)
      fun _ => shared
  · exact trivial

end

end Setup

end UmmapIo
