import UmmapIo.Mixed.Redistribution

/-!
# Shares of a local quota

`PolicyQuotaLocal::update` on FIFO and LIFO policies ends with the quota
respected, only takes from policies above the average, and leaves them the average
up to a part of a segment, as long as no policy outside of the quota refuses an
eviction.  With fifo-window policies it ends as long as no round shrinks one whose
sliding window is within its limit.
-/

namespace UmmapIo

/-! ## The sum of the counters -/

/-- Two policies have no mapping in common. -/
def MixedWorld.DisjointMappings {M P Q : Type} (world : MixedWorld M P Q)
    (policy other : P) : Prop :=
  List.Disjoint (world.policy policy).base.storageRegistry
    (world.policy other).base.storageRegistry

instance {M P Q : Type} (world : MixedWorld M P Q) :
    Std.Symm world.DisjointMappings :=
  ⟨fun _ _ => List.Disjoint.symm⟩

namespace Setup

variable {M P Q : Type} [Fintype M] {setup : Setup M P}
variable {initial world after : MixedWorld M P Q} {quota : Q} {exempt : M → Prop}

/-- No segment is counted more than twice by the policies of a quota. -/
def CountedTwice (world : MixedWorld M P Q) (quota : Q) : Prop :=
  ∀ element, ∀ part : List P, part.Sublist (world.quota quota).policies →
    (∀ policy ∈ part, element ∈ (world.policy policy).listed) → part.length ≤ 2

theorem Tracked.getUsedMemory [DecidableEq M] (tracked : setup.Tracked exempt world)
    (few : CountedTwice world quota) :
    Quota.getUsedMemory (world.memories quota) = world.usedMemory quota := by
  have counters : world.usedMemory quota =
      weight (fun policy => weight (Policy.elementSize setup.mapping)
        (world.policy policy).listed) (world.quota quota).policies := by
    unfold MixedWorld.usedMemory
    congr 1
    funext policy
    exact (tracked.balanced policy).getCurrentMemory_eq (setup.space.spacious _)
  have bound := weight_weight_le (Policy.elementSize setup.mapping)
    (fun policy => (world.policy policy).listed)
    (Policy.allElements setup.mapping) 2
    (fun policy _ => (tracked.balanced policy).nodup_listed)
    (fun policy _ element listed =>
      Policy.mem_allElements.mpr ((tracked.balanced policy).below listed))
    (fun element _ => few element _ List.filter_sublist fun policy member => by
      simpa using (List.mem_filter.mp member).2)
  rw [Policy.sum_allElements, ← counters] at bound
  have space := setup.space
  rw [← world.weight_memories] at bound ⊢
  apply Quota.getUsedMemory_eq
  unfold AddressSpace wordModulus at *
  omega

/-- Policies with disjoint mappings count no segment twice. -/
theorem Tracked.countedTwice_of_disjoint (tracked : setup.Tracked exempt world)
    (disjoint : (world.quota quota).policies.Pairwise world.DisjointMappings) :
    CountedTwice world quota := by
  intro element part sublist listed
  have apart := disjoint.sublist sublist
  match part, apart, listed with
  | [], _, _ => exact Nat.zero_le _
  | [_], _, _ => exact Nat.le_succ _
  | first :: second :: rest, apart, listed =>
      have both := (List.pairwise_cons.mp apart).1 second List.mem_cons_self
      have stored (policy : P) (member : policy ∈ first :: second :: rest) :=
        (tracked.balanced policy).stored (listed policy member)
      exact (both (stored first List.mem_cons_self)
        (stored second (List.mem_cons_of_mem _ List.mem_cons_self))).elim

theorem Tracked.countedTwice_of_nodup (tracked : setup.Tracked exempt world)
    (nodup : (world.quota quota).policies.Nodup) :
    CountedTwice world quota := by
  intro element part sublist listed
  refine Nat.le_trans (List.Subperm.length_le ?_) (setup.length_policiesOf element.1)
  apply (nodup.sublist sublist).subperm
  intro policy member
  exact (tracked.attached policy element.1
    ((tracked.balanced policy).stored (listed policy member))).1

/-! ## Policies above the average -/

/-- Since the beginning of an update, the policies were left alone or were above
the average and keep it up to a part of a segment. -/
structure FairShares (setup : Setup M P) (quota : Q) (averageMem : Nat)
    (initial world : MixedWorld M P Q) : Prop where
  kept : setup.Kept initial world
  unchanged : world.quota = initial.quota
  shares : ∀ policy ∈ (initial.quota quota).policies,
    world.policy policy = initial.policy policy ∨
      averageMem < (initial.policy policy).getCurrentMemory ∧
        (world.policy policy).IsPlain ∧
        ∀ largest,
          (∀ mapping ∈ (initial.policy policy).base.storageRegistry,
            (setup.mapping mapping).segmentSize ≤ largest) →
          averageMem < (world.policy policy).getCurrentMemory + largest

/-- A round on policies with disjoint mappings. -/
theorem FairShares.shrunk {averageMem limit : Nat} {policy : P}
    (updatable : setup.Updatable initial)
    (disjoint :
      (initial.quota quota).policies.Pairwise initial.DisjointMappings)
    (fair : setup.FairShares quota averageMem initial world)
    (registered : policy ∈ (initial.quota quota).policies)
    (isPlain : (world.policy policy).IsPlain)
    (above : averageMem < (world.policy policy).getCurrentMemory)
    (atLeast : averageMem ≤ limit)
    (shrunk : setup.Shrunk policy limit world after) :
    setup.FairShares quota averageMem initial after := by
  have drains := shrunk.drains
  obtain ⟨exempt, tracked, used⟩ := updatable
  have registries (other : P) :
      (world.policy other).base.storageRegistry =
        (initial.policy other).base.storageRegistry := fair.kept.registries other
  refine ⟨fair.kept.trans drains.kept, drains.quota.trans fair.unchanged, ?_⟩
  intro other inQuota
  by_cases same : other = policy
  · subst same
    refine Or.inr ⟨?_, (drains.notified other).isPlain isPlain, ?_⟩
    · obtain alone | ⟨larger, _⟩ := fair.shares other inQuota
      · rw [← alone]
        exact above
      · exact larger
    · intro largest small
      rw [← registries] at small
      exact Nat.lt_of_le_of_lt atLeast (shrunk.needed isPlain largest small)
  · have left : after.policy other = world.policy other := by
      refine drains.others other same fun mapping stored attached => ?_
      rw [registries] at stored
      have live := (tracked.attached policy mapping stored).2
      have twice := tracked.served other mapping attached live
        (used policy mapping stored)
      exact disjoint.forall registered inQuota (Ne.symm same) stored twice
    rw [left]
    exact fair.shares other inQuota

variable [DecidableEq M] [DecidableEq P]

/-- FIFO and LIFO policies with disjoint mappings. -/
theorem redistributing_fairShares (averageMem : Nat)
    (updatable : setup.Updatable initial)
    (plain : ∀ policy ∈ (initial.quota quota).policies,
      (initial.policy policy).IsPlain)
    (disjoint :
      (initial.quota quota).policies.Pairwise initial.DisjointMappings) :
    setup.Redistributing quota averageMem setup.NoticesListedMixed
      (setup.FairShares quota averageMem initial) := by
  have isPlain {state : MixedWorld M P Q}
      (fair : setup.FairShares quota averageMem initial state)
      {policy : P} (registered : policy ∈ (state.quota quota).policies) :
      (state.policy policy).IsPlain := by
    rw [fair.unchanged] at registered
    obtain alone | ⟨_, isPlain, _⟩ := fair.shares policy registered
    · rw [alone]
      exact plain policy registered
    · exact isPlain
  refine ⟨fun state fair => updatable.keep fair.kept, ?_, fun _ _ listed => listed,
    ?_, ?_⟩
  · intro state fair
    obtain ⟨exempt, tracked, _⟩ := updatable.keep fair.kept
    have same : state.DisjointMappings = initial.DisjointMappings := by
      funext policy other
      unfold MixedWorld.DisjointMappings
      rw [fair.kept.registries, fair.kept.registries]
    refine tracked.getUsedMemory (tracked.countedTwice_of_disjoint ?_)
    rw [fair.unchanged, same]
    exact disjoint
  · intro policy limit state fair registered above _
    exact (isPlain fair registered).aboveLimit above
  · intro policy limit before after fair registered above atLeast shrunk
    have plainPolicy := isPlain fair registered
    rw [fair.unchanged] at registered
    exact fair.shrunk updatable disjoint registered plainPolicy above atLeast shrunk

/-- A fifo-window policy that is to shrink has a sliding window above its limit. -/
def ShrinksWindow : PolicyOp M P Q → MixedWorld M P Q → Prop
  | .shrinkMemory policy, world => ∀ window,
      world.policy policy = .window window →
        window.maxSlidingMemory < window.currentSlidingWindowMemory
  | _, _ => True

theorem redistributing_windows (averageMem : Nat) (updatable : setup.Updatable initial)
    (nodup : (initial.quota quota).policies.Nodup) :
    setup.Redistributing quota averageMem
      (fun op state => setup.NoticesListedMixed op state ∧ ShrinksWindow op state)
      (fun state => setup.Kept initial state ∧ state.quota = initial.quota) := by
  refine ⟨fun _ keeps => updatable.keep keeps.1, ?_,
    fun _ _ assumed => assumed.1, ?_, ?_⟩
  · rintro state ⟨kept, unchanged⟩
    obtain ⟨exempt, tracked, _⟩ := updatable.keep kept
    refine tracked.getUsedMemory (tracked.countedTwice_of_nodup ?_)
    rw [unchanged]
    exact nodup
  · rintro policy limit state _ _ above ⟨_, windows⟩
    cases object : state.policy policy with
    | plain plain =>
        rw [object] at above
        exact above
    | window window =>
        refine windows (window.setDynamicMaxMemory limit) ?_
        rw [World.setPolicy_policy, Function.update_self, object]
        rfl
  · rintro policy limit before after ⟨kept, unchanged⟩ _ _ _ shrunk
    exact ⟨kept.trans shrunk.drains.kept, shrunk.drains.quota.trans unchanged⟩

omit [DecidableEq P] in
/-- A policy whose segments have one size that divides the average keeps the
average. -/
theorem FairShares.average_le {averageMem size : Nat} {policy : P}
    (fair : setup.FairShares quota averageMem initial world)
    (uniform : ∀ mapping ∈ (initial.policy policy).base.storageRegistry,
      (setup.mapping mapping).segmentSize = size)
    (divides : size ∣ averageMem)
    (needed : averageMem < (world.policy policy).getCurrentMemory + size) :
    averageMem ≤ (world.policy policy).getCurrentMemory := by
  have balanced := fair.kept.balanced policy
  obtain ⟨count, rfl⟩ := divides
  have memory : (world.policy policy).getCurrentMemory =
      (world.policy policy).listed.length * size := by
    rw [balanced.getCurrentMemory_eq (setup.space.spacious _)]
    apply weight_eq_length_mul
    intro element member
    have stored := balanced.stored member
    rw [fair.kept.registries] at stored
    exact uniform element.1 stored
  rw [memory, ← Nat.succ_mul, Nat.mul_comm size] at needed
  rw [memory, Nat.mul_comm size]
  exact Nat.mul_le_mul_right size
    (Nat.le_of_lt_succ (Nat.lt_of_mul_lt_mul_right needed))

end Setup

/-! ## Updates -/

section Updates

variable {M P Q : Type} [Fintype M] [DecidableEq M]

/-- What an update of a local quota leaves: the quota is respected, a policy with at
most the average is left alone, and a policy that was shrunk would be above the
average with one more of its largest segments, so it keeps the average when its
segments have one size that divides it. -/
structure Setup.FairlyShared (setup : Setup M P) (quota : Q)
    (before after : MixedWorld M P Q) : Prop where
  within : after.usedMemory quota ≤ (before.quota quota).staticMaxMemory
  spared : ∀ policy ∈ (before.quota quota).policies,
    (before.policy policy).getCurrentMemory ≤ (before.quota quota).averageMem →
      after.policy policy = before.policy policy
  bounded : ∀ policy ∈ (before.quota quota).policies,
    after.policy policy ≠ before.policy policy → ∀ largest,
      (∀ mapping ∈ (before.policy policy).base.storageRegistry,
        (setup.mapping mapping).segmentSize ≤ largest) →
      (before.quota quota).averageMem <
        (after.policy policy).getCurrentMemory + largest
  uniform : ∀ policy ∈ (before.quota quota).policies,
    after.policy policy ≠ before.policy policy → ∀ size,
      (∀ mapping ∈ (before.policy policy).base.storageRegistry,
        (setup.mapping mapping).segmentSize = size) →
      size ∣ (before.quota quota).averageMem →
        (before.quota quota).averageMem ≤ (after.policy policy).getCurrentMemory

variable [DecidableEq P] [DecidableEq Q]

/-- A fair update: it subtracts the average from larger numbers only, and stops at
the check on the number of evictions or returns with the memory shared fairly. -/
structure Setup.FairUpdate (setup : Setup M P) (rounds : Nat) (quota : Q)
    (world : MixedWorld M P Q) : Prop where
  subtracts : ∀ op state,
    (op, state) ∈ (PolicyProgram.update rounds quota).performed
      setup.handleMixed world →
    ∀ policy limit, op = .setDynamicMaxMemory policy limit →
      (world.quota quota).averageMem ≤ (state.policy policy).getCurrentMemory
  ends : (∃ after, (PolicyProgram.update rounds quota).run setup.handleMixed
      world = .aborted reachMaximum after) ∨
    ∃ after, (PolicyProgram.update rounds quota).run setup.handleMixed world =
      .finished () after ∧ setup.FairlyShared quota world after

/-- An update that ends: each round takes memory from the policy it shrinks, and the
update stops at the check on the number of evictions or returns with the quota
respected. -/
structure Setup.EndingUpdate (setup : Setup M P) (rounds : Nat) (quota : Q)
    (world : MixedWorld M P Q) : Prop where
  decreases : ∀ op state,
    (op, state) ∈ (PolicyProgram.update rounds quota).performed
      setup.handleMixed world →
    ∀ policy, op = .shrinkMemory policy → ∀ idsToEvict shrunk,
      (state.policy policy).shrinkMemory setup.mapping =
          .ok (idsToEvict, shrunk) →
        shrunk.getCurrentMemory < (state.policy policy).getCurrentMemory
  ends : (∃ after, (PolicyProgram.update rounds quota).run setup.handleMixed
      world = .aborted reachMaximum after) ∨
    ∃ after, (PolicyProgram.update rounds quota).run setup.handleMixed world =
      .finished () after ∧
        after.usedMemory quota ≤ (world.quota quota).staticMaxMemory

variable {setup : Setup M P} {initial world : MixedWorld M P Q} {quota : Q}

end Updates

/-! ## Two policies -/

/-- Two mappings of two pages, each with a policy of its own. -/
def sharesSetup : Setup Bool Bool :=
  Setup.pair false

/-- A LIFO policy and another one, which may be a fifo-window policy, each with room
for two pages, and a quota of two pages. -/
def sharesStart (isWindow : Bool) : MixedWorld Bool Bool Unit where
  core := fun _ => Core.initial ⟨false, false⟩ fun _ => 0
  live := fun _ => false
  policy := fun policy =>
    if policy && isWindow then .window (.create (2 * pageSize) pageSize false)
    else .plain (.create .lifo (2 * pageSize) false)
  quota := fun _ => Quota.create (2 * pageSize)

theorem started_sharesStart (isWindow : Bool) :
    Setup.StartedMixed (sharesStart isWindow) where
  live := fun _ => rfl
  policy := by
    intro policy
    cases policy <;> cases isWindow <;> exact ⟨_, _, _, rfl⟩
  quota := fun _ => rfl

/-- With assertions there is no condition on notices. -/
theorem noticed_sharesSetup (op : PolicyOp Bool Bool Unit)
    (world : MixedWorld Bool Bool Unit) :
    sharesSetup.Noticed op world :=
  fun ndebug => nomatch ndebug

/-- A check of the operations of an update that shrinks the LIFO policy only. -/
theorem steps_of_checked
    {entries : List (PolicyOp Bool Bool Unit × MixedWorld Bool Bool Unit)}
    (checked : entries.all (fun entry => (sharesSetup.notices entry.1).isEmpty &&
      decide ((entry.2.policy false).IsPlain ∧
        entry.1 ≠ .shrinkMemory true)) = true) :
    ∀ entry ∈ entries, sharesSetup.NoticesListedMixed entry.1 entry.2 ∧
      Setup.ShrinksWindow entry.1 entry.2 := by
  rintro ⟨op, state⟩ member
  have passed := List.all_eq_true.mp checked _ member
  simp only [Bool.and_eq_true, List.isEmpty_iff, decide_eq_true_eq] at passed
  obtain ⟨silent, isPlain, different⟩ := passed
  constructor
  · unfold Setup.NoticesListedMixed
    rw [silent]
    exact fun _ absurdity => nomatch absurdity
  · cases op with
    | shrinkMemory policy =>
        intro window isWindow
        cases policy with
        | false =>
            rw [isWindow] at isPlain
            exact isPlain.elim
        | true => exact absurd rfl different
    | _ => trivial

/-- The LIFO policy has grown to two pages beside the page of the other one, without
asking the quota. -/
theorem reached_sharesStart (isWindow : Bool) :
    ∃ world after : MixedWorld Bool Bool Unit,
      sharesSetup.ReachedMixed (sharesStart isWindow) world ∧
        world.quota () = ⟨2 * pageSize, [false, true], none⟩ ∧
        (∀ policy, (world.policy policy).base.storageRegistry = [policy]) ∧
        world.usedMemory () = 3 * pageSize ∧
        (∀ policy, (world.policy policy).getCurrentMemory =
          if policy then pageSize else 2 * pageSize) ∧
        (∀ policy, (world.policy policy).IsPlain ↔
          ¬(policy = true ∧ isWindow = true)) ∧
        (PolicyProgram.update (3 * pageSize + 1) ()).run sharesSetup.handleMixed
          world = .finished () after ∧
        (after.policy false).getCurrentMemory = pageSize ∧
        ∀ entry ∈ (PolicyProgram.update (3 * pageSize + 1) ()).performed
          sharesSetup.handleMixed world,
            sharesSetup.NoticesListedMixed entry.1 entry.2 ∧
              Setup.ShrinksWindow entry.1 entry.2 := by
  have shared (policy : Bool) :
      ((sharesStart isWindow).policy policy).base.isLocal = false := by
    cases policy <;> cases isWindow <;> rfl
  cases isWindow
  all_goals
    have created : sharesSetup.ReachedMixed (sharesStart _) _ :=
      DisturbedRun.initial.disturbed
        (.create (show sharesSetup.Creates false _ _ from
          ⟨rfl, fun policy _ isLocal => (nomatch (shared policy).symm.trans isLocal),
            rfl⟩))
    have both := DisturbedRun.disturbed created
      (.create (show sharesSetup.Creates true _ _ from
        ⟨rfl, fun policy _ isLocal => (by cases policy <;> cases isLocal), rfl⟩))
    have first := DisturbedRun.call both
      (PolicyProgram.registerPolicy 1 () false) (.registerPolicy 1 () false)
      (fun _ _ => noticed_sharesSetup _ _) rfl
    have second := first.call
      (PolicyProgram.registerPolicy 1 () true) (.registerPolicy 1 () true)
      (fun _ _ => noticed_sharesSetup _ _) rfl
    have third := second.call (sharesSetup.onSegmentationFault 1 true pageSize true)
      (.fault 1 true pageSize true rfl) (fun _ _ => noticed_sharesSetup _ _) rfl
    have fourth := third.call (sharesSetup.onSegmentationFault 1 false pageSize true)
      (.fault 1 false pageSize true rfl) (fun _ _ => noticed_sharesSetup _ _) rfl
    have fifth := fourth.call
      (sharesSetup.onSegmentationFault 1 false (2 * pageSize) true)
      (.fault 1 false (2 * pageSize) true rfl)
      (fun _ _ => noticed_sharesSetup _ _) rfl
    refine ⟨_, _, fifth, rfl, ?_, rfl, ?_, ?_, rfl, rfl, ?_⟩
    · intro policy
      cases policy <;> rfl
    · intro policy
      cases policy <;> rfl
    · intro policy
      cases policy <;> simp [PolicyObject.IsPlain]
    · exact steps_of_checked (by decide +kernel)

/-- The policies of the mappings are not the same. -/
theorem crossed_policies_distinct : ∀ (mapping : Bool) (policy : Option Bool),
    (if mapping then none else some (some false)) = some policy →
      some (if mapping then some true else none) ≠ some policy := by
  decide

/-- Two mappings of two pages with a policy each; the first mapping also has a global
policy. -/
def crossedSetup : Setup Bool (Option Bool) :=
  Setup.ofPages (fun _ => 1)
    (fun mapping => if mapping then none else some (some false))
    (fun mapping => some (if mapping then some true else none)) false
    crossed_policies_distinct two_mappings_fit

/-- FIFO policies with room for two pages, and a quota of one page. -/
def crossedStart : MixedWorld Bool (Option Bool) Unit where
  core := fun _ => Core.initial ⟨false, false⟩ fun _ => 0
  live := fun _ => false
  policy := fun policy =>
    .plain (.create .fifo (2 * pageSize) (policy == some false))
  quota := fun _ => Quota.create pageSize

end UmmapIo
