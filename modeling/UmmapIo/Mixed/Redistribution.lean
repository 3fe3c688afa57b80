import UmmapIo.Lib.Tracing
import UmmapIo.Mixed.Runs

/-!
# Rounds of a quota update

One round of `PolicyQuotaLocal::update` gives a limit to the policy that uses the
most memory, shrinks it and evicts what it gave up.  As long as the other policies
of a mapping list the segments that are evicted, a round ends or stops at the check
on the number of evictions.  If the loop of `shrinkMemory` had something to take,
the policy uses less memory than before, which bounds the number of rounds.  With
assertions, an eviction that another policy does not expect ends the process.
-/

namespace UmmapIo

/-! ## Used memory -/

namespace MixedWorld

variable {M P Q : Type} (world : MixedWorld M P Q) (quota : Q)

/-- The sum of `getCurrentMemory` over the policies registered to a quota. -/
def usedMemory : Nat :=
  weight (fun policy => (world.policy policy).getCurrentMemory)
    (world.quota quota).policies

theorem weight_memories :
    weight Prod.snd (world.memories quota) = world.usedMemory quota := by
  unfold memories usedMemory weight
  rw [List.map_map]
  rfl

end MixedWorld

/-- `averageMem` of `PolicyQuotaLocal::update`. -/
def Quota.averageMem {P : Type} (quota : Quota P) : Nat :=
  quota.staticMaxMemory / quota.policies.length

namespace Setup

variable {M P Q : Type} [Fintype M] {setup : Setup M P}

/-! ## What a round does -/

/-- What has happened since a policy was shrunk to a state, up to some of its
evictions: the policies of its mappings may have been notified. -/
structure Drains (setup : Setup M P) (source : P) (object : PolicyObject M Q)
    (start world : MixedWorld M P Q) : Prop where
  live : world.live = start.live
  quota : world.quota = start.quota
  self : world.policy source = object
  notified : ∀ policy, PolicyObject.Notified setup.mapping (start.policy policy)
    (world.policy policy)
  others : ∀ policy, policy ≠ source →
    (∀ mapping ∈ (start.policy source).base.storageRegistry,
      policy ∉ setup.policiesOf mapping) →
    world.policy policy = start.policy policy

/-- A round: the policy uses less memory, and a FIFO or LIFO policy would be above
the limit with one more of its largest segments. -/
structure Shrunk (setup : Setup M P) (policy : P) (limit : Nat)
    (before after : MixedWorld M P Q) : Prop where
  drains : setup.Drains policy (after.policy policy) before after
  less : (after.policy policy).getCurrentMemory <
    (before.policy policy).getCurrentMemory
  needed : (before.policy policy).IsPlain → ∀ largest,
    (∀ mapping ∈ (before.policy policy).base.storageRegistry,
      (setup.mapping mapping).segmentSize ≤ largest) →
    limit < (after.policy policy).getCurrentMemory + largest

variable {world after start : MixedWorld M P Q} {object : PolicyObject M Q}
variable {source policy : P} {element : ListElement M} {limit : Nat} {quota : Q}

theorem Drains.kept
    (drains : setup.Drains source object start world) :
    setup.Kept start world where
  live := drains.live
  registries := fun policy => (drains.notified policy).storageRegistry
  alone := fun alone policy => (drains.notified policy).alone (alone policy)
  balanced := fun policy => (drains.notified policy).balanced

theorem Shrunk.usedMemory_lt [DecidableEq M]
    (balanced : ∀ policy, (world.policy policy).Balanced setup.mapping)
    (shrunk : setup.Shrunk policy limit world after)
    (registered : policy ∈ (world.quota quota).policies) :
    after.usedMemory quota < world.usedMemory quota := by
  unfold MixedWorld.usedMemory weight
  rw [shrunk.drains.quota]
  refine List.sum_lt_sum _ _ (fun other _ => ?_) ⟨policy, registered, shrunk.less⟩
  have notified := shrunk.drains.notified other
  exact (balanced other).getCurrentMemory_le notified.balanced
    (setup.space.spacious _) notified.storageRegistry notified.fewer

/-- A policy that has just given up some segments. -/
theorem Drains.begin [DecidableEq P]
    (balanced : ∀ policy, (world.policy policy).Balanced setup.mapping)
    (notified : PolicyObject.Notified setup.mapping (world.policy source) object) :
    setup.Drains source object world (world.setPolicy source object) where
  live := rfl
  quota := rfl
  self := Function.update_self ..
  notified := MixedWorld.forall_setPolicy
    (fun policy => PolicyObject.Notified _ (world.policy policy)) notified
    fun other _ => .refl (balanced other)
  others := fun _ different _ => Function.update_of_ne different _ _

variable [DecidableEq M]

/-- One of the evictions. -/
theorem Drains.evicted
    (drains : setup.Drains source object start world)
    (registered : element.1 ∈ (start.policy source).base.storageRegistry)
    (evicted : setup.EvictedMixed source element world after) :
    setup.Drains source object start after where
  live := evicted.live.trans drains.live
  quota := evicted.quota.trans drains.quota
  self := (evicted.others source (Or.inr rfl)).trans drains.self
  notified := fun policy =>
    (drains.notified policy).trans (evicted.policy policy)
  others := by
    intro policy different apart
    rw [evicted.others policy (Or.inl (apart element.1 registered)),
      drains.others policy different apart]

variable [DecidableEq P]

/-- An eviction of a segment that all other policies of its mapping list. -/
theorem evictSectionMixed_listed
    (balanced : ∀ policy, (world.policy policy).Balanced setup.mapping)
    (alone : world.Alone)
    (listed : setup.NoticesListedMixed
      (.evict source element.1 element.2 : PolicyOp M P Q) world) :
    ∃ after, setup.evictSectionMixed source element.1 element.2 world =
        .ok after ∧ setup.EvictedMixed source element world after := by
  obtain ⟨notified, ends⟩ : ∃ notified, List.foldlM
      (setup.notifyEvictMixed element.1 element.2) world _ = .ok notified := by
    refine World.exists_foldlM_stepPolicy
      ((setup.nodup_policiesOf element.1).filter (· ≠ source)) fun policy member => ?_
    have inList := listed (policy, element) (List.mem_map_of_mem member)
    have registered := (balanced policy).stored inList
    obtain ⟨state, accepted, _⟩ := PolicyObject.notifyEvict_listed
      (balanced policy) (setup.space.spacious _)
      ⟨registered, fun flag => alone policy flag _ registered⟩ inList setup.ndebug
    exact ⟨state, accepted⟩
  have returns : setup.evictSectionMixed source element.1 element.2 world =
      .ok (notified.setCore element.1 ((notified.core element.1).evict
        (setup.mapping element.1) (setup.driver element.1) element.2)) := by
    unfold evictSectionMixed
    rw [ends]
    rfl
  exact ⟨_, returns, evictSectionMixed_ok balanced (fun _ => listed) returns⟩

/-- With assertions, notices that include one to a policy that does not list the
element are not all accepted. -/
theorem notifyEvictMixed_unlisted {policies : List P} (asserted : setup.ndebug = false)
    (attached : policy ∈ policies)
    (absent : element ∉ (world.policy policy).listed) :
    ∃ stop, stop ≠ .fatal reachMaximum ∧
      policies.foldlM (setup.notifyEvictMixed element.1 element.2) world =
        .error stop := by
  induction policies generalizing world with
  | nil => cases attached
  | cons first rest inductionHypothesis =>
      rw [List.foldlM_cons, notifyEvictMixed, World.stepPolicy]
      cases notifies : (world.policy first).notifyEvict setup.mapping setup.ndebug
          element.1 element.2 with
      | error stop =>
          refine ⟨stop, ?_, rfl⟩
          rintro rfl
          exact PolicyObject.notifyEvict_ne_reachMaximum notifies
      | ok state =>
          rw [asserted] at notifies
          have different : policy ≠ first := by
            rintro rfl
            exact absent (PolicyObject.listed_of_notifyEvict notifies)
          refine inductionHypothesis
            ((List.mem_cons.mp attached).resolve_left different) ?_
          rw [World.setPolicy_policy, Function.update_of_ne different]
          exact absent

/-! ## Rounds -/

variable [DecidableEq Q]

/-- What holds of the operations of an update: the average is subtracted from larger
numbers only, and a policy that is shrunk is balanced and, if it is a FIFO or LIFO
policy, above its limit. -/
def UpdateStep (setup : Setup M P)
    (averageMem : Nat) : PolicyOp M P Q → MixedWorld M P Q → Prop
  | .setDynamicMaxMemory policy _, world =>
      averageMem ≤ (world.policy policy).getCurrentMemory
  | .shrinkMemory policy, world =>
      (world.policy policy).Balanced setup.mapping ∧
        ((world.policy policy).IsPlain → (world.policy policy).AboveLimit)
  | _, _ => True

/-- The contract of an update that ends. -/
def updateContract (setup : Setup M P) (averageMem : Nat)
    (assumes : PolicyOp M P Q → MixedWorld M P Q → Prop) :
    Contract (policySignature M P Q) (MixedWorld M P Q) where
  assumes := assumes
  invariant := setup.UpdateStep averageMem
  stops := (· = reachMaximum)
  blocks := False

variable {averageMem : Nat} {assumes : PolicyOp M P Q → MixedWorld M P Q → Prop}

theorem Drains.meets_evictions {pending : List (ListElement M)} (alone : start.Alone)
    (drains : setup.Drains source object start world)
    (registered : ∀ element ∈ pending,
      element.1 ∈ (start.policy source).base.storageRegistry)
    (listed : ∀ op state, assumes op state → setup.NoticesListedMixed op state) :
    (Program.each (PolicyProgram.evict source) pending).Meets setup.handleMixed
      (setup.updateContract averageMem assumes)
      (fun _ after => setup.Drains source object start after) world := by
  refine (Program.Meets.each
    (fun rest state => (∀ element ∈ rest,
      element.1 ∈ (start.policy source).base.storageRegistry) ∧
        setup.Drains source object start state) ⟨registered, drains⟩ ?_).mono
    fun _ _ drained => drained.2
  rintro element rest before ⟨registered, drains⟩
  refine Program.Meets.bind (.request trivial ?_ ?_)
  · intro allowed waits
    obtain ⟨after, ends, _⟩ := evictSectionMixed_listed drains.kept.balanced
      (drains.kept.alone alone) (listed _ before allowed)
    change before.replyUnit (setup.evictSectionMixed _ _ _ before) = _ at waits
    rw [ends] at waits
    cases waits
  · intro allowed answer final replied
    obtain ⟨after, ends, evicted⟩ := evictSectionMixed_listed drains.kept.balanced
      (drains.kept.alone alone) (listed _ before allowed)
    change before.replyUnit (setup.evictSectionMixed _ _ _ before) = _ at replied
    rw [ends] at replied
    cases replied
    exact ⟨fun other member => registered other (List.mem_cons_of_mem _ member),
      drains.evicted (registered element List.mem_cons_self) evicted⟩

/-- `shrinkMemory` of a policy that was given a limit. -/
theorem meets_shrinkLowered (averageMem : Nat)
    (balanced : ∀ policy, (world.policy policy).Balanced setup.mapping)
    (alone : world.Alone)
    (listed : ∀ op state, assumes op state → setup.NoticesListedMixed op state)
    (lower : limit < (world.policy policy).getCurrentMemory)
    (above : assumes (.shrinkMemory policy) (world.setPolicy policy
        ((world.policy policy).setDynamicMaxMemory limit)) →
      ((world.policy policy).setDynamicMaxMemory limit).AboveLimit) :
    (PolicyProgram.shrinkMemory policy).Meets setup.handleMixed
      (setup.updateContract averageMem assumes)
      (fun _ after => setup.Shrunk policy limit world after)
      (world.setPolicy policy ((world.policy policy).setDynamicMaxMemory limit)) := by
  have lowers := PolicyObject.Notified.setDynamicMaxMemory (balanced policy) limit
  have plain : ((world.policy policy).setDynamicMaxMemory limit).IsPlain →
      ((world.policy policy).setDynamicMaxMemory limit).AboveLimit := fun isPlain =>
    (PolicyObject.isPlain_setDynamicMaxMemory.mp isPlain).aboveLimit lower
  have memory := PolicyObject.getCurrentMemory_setDynamicMaxMemory
    (world.policy policy) limit
  have given := PolicyObject.dynamicMaxMemory_setDynamicMaxMemory
    (world.policy policy) limit
  generalize (world.policy policy).setDynamicMaxMemory limit = lowered at *
  have self : (world.setPolicy policy lowered).policy policy = lowered :=
    Function.update_self ..
  have steps : setup.UpdateStep averageMem (.shrinkMemory policy)
      (world.setPolicy policy lowered) := by
    change ((world.setPolicy policy lowered).policy policy).Balanced _ ∧
      (((world.setPolicy policy lowered).policy policy).IsPlain →
        ((world.setPolicy policy lowered).policy policy).AboveLimit)
    rw [self]
    exact ⟨lowers.balanced, plain⟩
  have answers : setup.handleMixed (.shrinkMemory policy)
      (world.setPolicy policy lowered) =
        (world.setPolicy policy lowered).reply
          ((lowered.shrinkMemory setup.mapping).map fun result =>
            (result.1, world.setPolicy policy result.2)) := by
    change (world.setPolicy policy lowered).reply
      ((((world.setPolicy policy lowered).policy policy).shrinkMemory
        setup.mapping).map fun result =>
          (result.1, (world.setPolicy policy lowered).setPolicy policy result.2)) = _
    rw [self]
    unfold World.setPolicy
    simp only [Function.update_idem]
  cases shrinks : lowered.shrinkMemory setup.mapping with
  | error stop =>
      obtain rfl := PolicyObject.shrinkMemory_eq_error lowers.balanced
        (setup.space.spacious _) shrinks
      rw [shrinks] at answers
      exact Program.Meets.bind (.answer steps answers fun _ => rfl)
  | ok result =>
      obtain ⟨idsToEvict, shrunk⟩ := result
      have effect := PolicyObject.shrinkMemory_ok lowers.balanced
        (setup.space.spacious _) shrinks
      rw [shrinks] at answers
      refine Program.Meets.bind (.answer steps answers fun allowed => ?_)
      have begins := Drains.begin balanced (lowers.trans effect.toNotified)
      refine (begins.meets_evictions alone ?_ listed).mono fun _ after drains => ?_
      · intro element member
        exact (balanced policy).stored
          (lowers.fewer element (effect.taken element member))
      · have final := drains.self
        refine ⟨final.symm ▸ drains, ?_, ?_⟩
        · rw [final, ← memory]
          exact effect.less (above allowed)
        · intro isPlain largest small
          rw [final, ← given]
          refine effect.needed (lowers.isPlain isPlain) (above allowed) largest ?_
          rw [lowers.storageRegistry]
          exact small

/-- A property that the rounds of an update keep, and that lets them end. -/
structure Redistributing (setup : Setup M P) (quota : Q) (averageMem : Nat)
    (assumes : PolicyOp M P Q → MixedWorld M P Q → Prop)
    (kept : MixedWorld M P Q → Prop) : Prop where
  updatable : ∀ state, kept state → setup.Updatable state
  counted : ∀ state, kept state →
    Quota.getUsedMemory (state.memories quota) = state.usedMemory quota
  listed : ∀ op state, assumes op state → setup.NoticesListedMixed op state
  above : ∀ policy limit state, kept state →
    policy ∈ (state.quota quota).policies →
    limit < (state.policy policy).getCurrentMemory →
    assumes (.shrinkMemory policy) (state.setPolicy policy
      ((state.policy policy).setDynamicMaxMemory limit)) →
    ((state.policy policy).setDynamicMaxMemory limit).AboveLimit
  shrunk : ∀ policy limit before after, kept before →
    policy ∈ (before.quota quota).policies →
    averageMem < (before.policy policy).getCurrentMemory →
    averageMem ≤ limit → setup.Shrunk policy limit before after → kept after

variable {kept : MixedWorld M P Q → Prop} {rounds : Nat}

/-- The loop of an update ends within as many rounds as there is memory, with the
quota respected, or at the check on the number of evictions. -/
theorem Redistributing.meets_updateLoop {account : Q → Quota P}
    (redistributing :
      setup.Redistributing quota averageMem assumes kept)
    (average : averageMem * (account quota).policies.length ≤
      (account quota).staticMaxMemory)
    (holds : kept world)
    (unchanged : world.quota = account)
    (enough : world.usedMemory quota < rounds) :
    (PolicyProgram.updateLoop quota averageMem rounds).Meets setup.handleMixed
      (setup.updateContract averageMem assumes)
      (fun _ after => kept after ∧
        after.usedMemory quota ≤ (account quota).staticMaxMemory) world := by
  induction rounds generalizing world with
  | zero => exact absurd enough (Nat.not_lt_zero _)
  | succ rounds inductionHypothesis =>
      refine Program.Meets.bind (.answer trivial rfl fun _ => ?_)
      have used := redistributing.counted world holds
      have total := world.weight_memories quota
      have length : (world.memories quota).length =
          (world.quota quota).policies.length := List.length_map _
      cases memories : world.memories quota with
      | nil =>
          rw [memories] at total
          exact ⟨holds, total ▸ Nat.zero_le _⟩
      | cons first rest =>
          rw [memories] at used total length
          dsimp only
          rw [used, unchanged]
          split
          · rename_i above
            have chosen : Quota.polMax first (first :: rest) ∈
                world.memories quota := by
              rw [memories]
              exact Quota.polMax_mem first rest
            obtain ⟨policy, registered, entry⟩ := List.mem_map.mp chosen
            have larger : averageMem < (Quota.polMax first (first :: rest)).2 := by
              apply Quota.average_lt_polMax
              rw [length, unchanged, total]
              exact Nat.lt_of_le_of_lt average above
            rw [← entry] at larger ⊢
            dsimp only at larger ⊢
            obtain ⟨_, ⟨balanced, _, _, _, alone⟩, _⟩ :=
              redistributing.updatable world holds
            have small := (balanced policy).getCurrentMemory_lt (setup.space.spacious _)
            have limit := Quota.shrunkLimit_eq larger.le small
            have atLeast := (Quota.shrunkLimit_mem larger.le small).1
            have lower : Quota.shrunkLimit averageMem
                (world.policy policy).getCurrentMemory <
                  (world.policy policy).getCurrentMemory := by
              omega
            refine Program.Meets.bind (.answer larger.le rfl fun _ => ?_)
            refine (meets_shrinkLowered averageMem balanced alone
              redistributing.listed lower (redistributing.above policy _ world
                holds registered lower)).andThen fun _ after shrunk => ?_
            have fewer := shrunk.usedMemory_lt balanced registered
            exact inductionHypothesis
              (redistributing.shrunk policy _ world after holds registered larger
                atLeast shrunk)
              (shrunk.drains.quota.trans unchanged) (by omega)
          · rename_i within
            exact ⟨holds, Nat.le_of_not_lt within⟩

section

variable (isLocal : (world.quota quota).interProc = none)
variable (redistributing : setup.Redistributing quota (world.quota quota).averageMem
  assumes kept)
variable (holds : kept world) (enough : world.usedMemory quota < rounds)
include isLocal redistributing holds enough

/-- `PolicyQuotaLocal::update`. -/
theorem Redistributing.meets_update :
    (PolicyProgram.update rounds quota).Meets setup.handleMixed
      (setup.updateContract (world.quota quota).averageMem assumes)
      (fun _ after => kept after ∧
        after.usedMemory quota ≤ (world.quota quota).staticMaxMemory) world := by
  have share : setup.handleMixed (.shareQuota quota) world =
      some (.ok (), world) := by
    change world.replyUnit (world.shareQuota quota) = _
    unfold World.shareQuota
    rw [isLocal]
    rfl
  have average : (world.quota quota).staticMaxMemory /
      (world.memories quota).length = (world.quota quota).averageMem := by
    unfold MixedWorld.memories Quota.averageMem
    rw [List.length_map]
  refine Program.Meets.bind (.answer trivial share fun _ => ?_)
  refine Program.Meets.bind (.answer trivial rfl fun _ => ?_)
  refine Program.Meets.when (fun _ => ?_) fun empty => ?_
  · rw [average]
    exact redistributing.meets_updateLoop (Nat.div_mul_le_self _ _) holds rfl enough
  · have total := world.weight_memories quota
    rw [Bool.not_eq_false', List.isEmpty_iff] at empty
    rw [empty] at total
    exact ⟨holds, total ▸ Nat.zero_le _⟩

/-- What an update does whose operations meet the assumptions. -/
theorem Redistributing.update_ends
    (assumed : ∀ entry ∈
      (PolicyProgram.update rounds quota).performed setup.handleMixed world,
        assumes entry.1 entry.2) :
    (∀ entry ∈
      (PolicyProgram.update rounds quota).performed setup.handleMixed world,
        setup.UpdateStep (world.quota quota).averageMem entry.1 entry.2) ∧
    ((∃ after, (PolicyProgram.update rounds quota).run setup.handleMixed world =
        .aborted reachMaximum after) ∨
      ∃ after, (PolicyProgram.update rounds quota).run setup.handleMixed world =
          .finished () after ∧ kept after ∧
        after.usedMemory quota ≤ (world.quota quota).staticMaxMemory) := by
  obtain ⟨steps, ends⟩ :=
    (redistributing.meets_update isLocal holds enough).run assumed
  refine ⟨steps, ?_⟩
  cases ran : (PolicyProgram.update rounds quota).run setup.handleMixed world with
  | finished _ after =>
      rw [ran] at ends
      exact Or.inr ⟨after, rfl, ends⟩
  | aborted message after =>
      rw [ran] at ends
      obtain rfl : message = reachMaximum := ends
      exact Or.inl ⟨after, rfl⟩
  | blocked after =>
      rw [ran] at ends
      exact ends.elim

end

/-! ## Evictions that are not expected -/

theorem reports_evict (asserted : setup.ndebug = false) (source : P)
    (element : ListElement M) :
    (PolicyProgram.evict source element : PolicyProgram M P Q Unit).Reports
      setup.handleMixed setup.NoticesListedMixed (· ≠ reachMaximum) := by
  rintro world ⟨entry, member, outside⟩
  obtain early | ⟨answer, state, _, late⟩ := Program.mem_performed_bind.mp member
  · obtain rfl := Program.mem_performed_request.mp early
    simp only [NoticesListedMixed, not_forall] at outside
    obtain ⟨notice, sent, absent⟩ := outside
    obtain ⟨policy, attached, rfl⟩ := List.mem_map.mp sent
    obtain ⟨stop, known, fails⟩ :=
      notifyEvictMixed_unlisted asserted attached absent
    have answer : setup.handleMixed (.evict source element.1 element.2) world =
        world.replyUnit (.error stop) := by
      change world.replyUnit (setup.evictSectionMixed _ _ _ world) = _
      unfold evictSectionMixed
      rw [fails]
      rfl
    have runs : (PolicyProgram.evict source element).run setup.handleMixed world =
        ((Section.evict source element.1 element.2).run setup.handleMixed
          world).andThen fun answer state =>
            (Program.ofExcept answer).run setup.handleMixed state :=
      Program.run_bind ..
    rw [runs]
    cases stop with
    | fatal message =>
        have refused : (Section.evict source element.1 element.2).run
            setup.handleMixed world = .finished (.error message) world :=
          Program.run_request answer
        rw [refused]
        exact fun same => known (congrArg Stop.fatal same)
    | endless =>
        have waits : (Section.evict source element.1 element.2).run
            setup.handleMixed world = .blocked world :=
          Program.run_request_blocked answer
        rw [waits]
        trivial
  · cases answer <;> cases late

/-- With assertions, an update that sends a notice for a segment that is not listed
does not return. -/
theorem reports_update (asserted : setup.ndebug = false) (rounds : Nat) (quota : Q) :
    (PolicyProgram.update rounds quota : PolicyProgram M P Q Unit).Reports
      setup.handleMixed setup.NoticesListedMixed (· ≠ reachMaximum) := by
  have shrinks (policy : P) :
      (PolicyProgram.shrinkMemory policy : PolicyProgram M P Q Unit).Reports
        setup.handleMixed setup.NoticesListedMixed (· ≠ reachMaximum) :=
    (Program.Reports.request fun _ _ absurdity => nomatch absurdity).bind
      fun answer => (Program.Reports.ofExcept answer).bind
        fun idsToEvict => .each (reports_evict asserted policy) idsToEvict
  have loops (averageMem : Nat) :
      (PolicyProgram.updateLoop quota averageMem rounds :
        PolicyProgram M P Q Unit).Reports setup.handleMixed
          setup.NoticesListedMixed (· ≠ reachMaximum) := by
    induction rounds with
    | zero => exact .request fun _ _ absurdity => nomatch absurdity
    | succ rounds inductionHypothesis =>
        refine (Program.Reports.request fun _ _ absurdity =>
          nomatch absurdity).bind fun observed => ?_
        obtain ⟨staticMaxMemory, memories⟩ := observed
        cases memories with
        | nil => exact .done ()
        | cons first rest =>
            dsimp only
            split
            · exact (Program.Reports.request fun _ _ absurdity =>
                nomatch absurdity).bind fun _ =>
                  (shrinks _).bind fun _ => inductionHypothesis
            · exact .done ()
  exact (Program.Reports.request fun _ _ absurdity => nomatch absurdity).bind
    fun answer => (Program.Reports.ofExcept answer).bind fun _ =>
      (Program.Reports.request fun _ _ absurdity => nomatch absurdity).bind
        fun _ => (loops _).when _

/-- With assertions, an update that returns or stops at the check on the number of
evictions only evicts segments that all policies of their mapping list. -/
theorem listed_of_update (asserted : setup.ndebug = false)
    (ends : (∃ after, (PolicyProgram.update rounds quota).run setup.handleMixed
        world = .aborted reachMaximum after) ∨
      ∃ after, (PolicyProgram.update rounds quota).run setup.handleMixed world =
        .finished () after) :
    ∀ entry ∈
      (PolicyProgram.update rounds quota).performed setup.handleMixed world,
        setup.NoticesListedMixed entry.1 entry.2 := by
  by_contra outside
  simp only [not_forall] at outside
  obtain ⟨entry, member, unlisted⟩ := outside
  have reported := reports_update asserted rounds quota world ⟨entry, member, unlisted⟩
  obtain ⟨after, ran⟩ | ⟨after, ran⟩ := ends
  · rw [ran] at reported
    exact reported rfl
  · rw [ran] at reported
    exact reported

end Setup

end UmmapIo
