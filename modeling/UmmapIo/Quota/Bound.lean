import UmmapIo.Quota.Update

/-!
# The bound of a quota

After each operation the policies registered to a quota together use no more than
its maximum, provided that LIFO policies only grow within it: a FIFO policy that
has grown asks the quota for an update, which a LIFO policy never does, because
the flag it looks at is not the one its critical section sets.
-/

namespace UmmapIo

variable {M P Q : Type} [Fintype M]

/-- By how much the touch of a new segment can make a LIFO policy grow, and the
quota that has to account for it. -/
def Setup.lifoGrowth [DecidableEq M] (setup : Setup M P)
    (world : World M P Q) : PolicyOp M P Q → List (Q × Nat)
  | .notifyTouch policy mapping index =>
      if (world.policy policy).kind = .lifo ∧
          (mapping, index) ∉ (world.policy policy).ring then
        (world.policy policy).policyQuota.toList.map fun quota =>
          (quota, min
            ((world.policy policy).currentMemory + (setup.mapping mapping).segmentSize)
            (world.policy policy).dynamicMaxMemory -
              (world.policy policy).currentMemory)
      else []
  | _ => []

/-- The quota has room for the growth of a LIFO policy, and every notice is for a
listed segment. -/
def Setup.RoomForGrowth [DecidableEq M] [DecidableEq P] (setup : Setup M P)
    (op : PolicyOp M P Q)
    (world : World M P Q) : Prop :=
  setup.NoticesListed op world ∧
    ∀ entry ∈ setup.lifoGrowth world op,
      world.usedMemory entry.1 + entry.2 ≤
        (world.quota entry.1).staticMaxMemory

instance [DecidableEq M] [DecidableEq P]
    (setup : Setup M P)
    (op : (policySignature M P Q).Op)
    (world : World M P Q) :
    Decidable (setup.RoomForGrowth op world) :=
  inferInstanceAs (Decidable ((∀ _ ∈ _, _) ∧ ∀ _ ∈ _, _))

/-- Operations in which LIFO policies only grow within their quota. -/
def Setup.growthContract [DecidableEq M] [DecidableEq P] (setup : Setup M P) :
    Contract (policySignature M P Q) (World M P Q) where
  assumes := setup.RoomForGrowth
  invariant _ _ := True
  stops _ := True
  blocks := True

/-- The invariant: every quota is respected, except for one that is about to be
updated. -/
structure Setup.Bounded (setup : Setup M P) (except : Option Q)
    (world : World M P Q) : Prop where
  accounted : setup.Accounted world
  within : ∀ quota, except ≠ some quota → world.WithinQuota quota

variable {setup : Setup M P} {world after : World M P Q} {except : Option Q}

theorem Setup.Started.bounded (started : setup.Started world) :
    setup.Bounded none world where
  accounted := started.accounted
  within := by
    intro quota _
    unfold World.WithinQuota World.usedMemory
    rw [started.quota]
    exact Nat.zero_le _

variable {quota : Q}

/-- The quota that was updated is respected again. -/
theorem Setup.Bounded.settle
    (bounded : setup.Bounded (some quota) world)
    (within : world.WithinQuota quota) :
    setup.Bounded none world where
  accounted := bounded.accounted
  within := by
    intro other _
    by_cases same : quota = other
    · rw [← same]
      exact within
    · exact bounded.within other (by simpa using same)

theorem Setup.Bounded.weaken (bounded : setup.Bounded none world) (except : Option Q) :
    setup.Bounded except world where
  accounted := bounded.accounted
  within := fun quota _ => bounded.within quota (by simp)

/-- A change of limits and links, except for the quota in hand. -/
theorem Setup.Bounded.reset
    (bounded : setup.Bounded (some quota) world)
    (accounted : setup.Accounted after) (reset : world.Reset after)
    (others : ∀ other, other ≠ quota → after.quota other = world.quota other) :
    setup.Bounded (some quota) after where
  accounted := accounted
  within := by
    intro other different
    have within := bounded.within other different
    unfold World.WithinQuota World.usedMemory at *
    rw [others other (by simpa using Ne.symm different)]
    simpa only [reset.currentMemory] using within

/-- A step that adds no memory. -/
theorem Setup.Bounded.lower (bounded : setup.Bounded except world)
    (accounted : setup.Accounted after) (lowers : world.Lowers after) :
    setup.Bounded except after where
  accounted := accounted
  within := fun quota different =>
    lowers.withinQuota (bounded.within quota different)

theorem Setup.lenient_growthContract [DecidableEq M] [DecidableEq P] :
    setup.Lenient (setup.growthContract :
      Contract (policySignature M P Q) (World M P Q)) where
  stops := fun _ => trivial
  blocks := trivial
  listed := fun _ _ allowed => allowed.1

variable [DecidableEq P] {element : ListElement M}

theorem Setup.Bounded.evicted [DecidableEq M] (bounded : setup.Bounded except world)
    {source : P}
    (evicted : setup.Evicted source element world after) :
    setup.Bounded except after :=
  bounded.lower (bounded.accounted.evicted evicted)
    (.of_evicted bounded.accounted evicted)

variable {policy : P}

/-- A touch.  Only the quota of the policy may be exceeded, and then the policy is
going to ask it for an update. -/
theorem Setup.Bounded.touched [DecidableEq M] (bounded : setup.Bounded none world)
    {touch : Touch M} {state : Policy M Q}
    (touched : (world.policy policy).Touched setup.mapping element touch state)
    (allowed : setup.RoomForGrowth (.notifyTouch policy element.1 element.2) world) :
    setup.Bounded (world.policy policy).policyQuota (world.setPolicy policy state) ∧
      ((touch.isFirstAccess && wordIncreased state.currentMemory touch.memOrig) = true ∨
        setup.Bounded none (world.setPolicy policy state)) := by
  have accounted := bounded.accounted.setPolicy touched.toUpdated
  have exceptOwn : setup.Bounded (world.policy policy).policyQuota
      (world.setPolicy policy state) := by
    refine ⟨accounted, ?_⟩
    intro quota different
    have within := bounded.within quota (by simp)
    unfold World.WithinQuota at *
    rwa [World.usedMemory_setPolicy_of_notMem]
    rw [bounded.accounted.linked]
    exact different
  refine ⟨exceptOwn, ?_⟩
  have notGrown (lower : state.currentMemory ≤
      (world.policy policy).currentMemory) :
      setup.Bounded none (world.setPolicy policy state) := by
    refine bounded.lower accounted ⟨?_, rfl⟩
    intro other
    by_cases same : other = policy
    · rw [same, World.setPolicy_policy_self]
      exact lower
    · rw [World.setPolicy_policy_of_ne _ same]
  have growth := touched.growth
  by_cases listed : element ∈ (world.policy policy).ring
  · rw [if_pos listed] at growth
    exact Or.inr (notGrown growth)
  rw [if_neg listed] at growth
  cases kind : (world.policy policy).kind with
  | fifo =>
      have first : touch.isFirstAccess = true :=
        touched.firstAccess.mpr ⟨kind, listed⟩
      have small := (bounded.accounted.consistent.balanced
        policy).currentMemory_lt (setup.space.spacious _)
      have smallAfter := touched.balanced.currentMemory_lt (setup.space.spacious _)
      rw [first, Bool.true_and, touched.memOrig,
        wordIncreased_iff smallAfter small]
      by_cases grown : (world.policy policy).currentMemory < state.currentMemory
      · exact Or.inl grown
      · exact Or.inr (notGrown (by omega))
  | lifo =>
      refine Or.inr ?_
      cases linked : (world.policy policy).policyQuota with
      | none =>
          rw [linked] at exceptOwn
          exact exceptOwn
      | some quota =>
          rw [linked] at exceptOwn
          refine exceptOwn.settle ?_
          have registered := (bounded.accounted.linked quota policy).mpr linked
          have room := allowed.2 (quota, min
            ((world.policy policy).currentMemory +
              (setup.mapping element.1).segmentSize)
            (world.policy policy).dynamicMaxMemory -
              (world.policy policy).currentMemory) (by
                simp [Setup.lifoGrowth, kind, listed, linked])
          have total := world.usedMemory_setPolicy_of_mem state
            (bounded.accounted.nodup quota) registered
          have within := touched.within
          unfold World.WithinQuota
          unfold Policy.elementSize at growth
          rw [World.setPolicy_quota]
          dsimp only at room
          omega

theorem Setup.Bounded.relink [DecidableEq Q]
    (bounded : setup.Bounded (some quota) world)
    {link : Option Q} {policies : List P}
    (accounted : setup.Accounted (world.relink quota policy link policies)) :
    setup.Bounded (some quota)
      ((world.relink quota policy link policies).updateNotifyLimit quota) := by
  have relinked : setup.Bounded (some quota)
      (world.relink quota policy link policies) := by
    refine bounded.reset accounted (.relink ..) ?_
    intro other different
    rw [World.relink_quota, if_neg different]
  refine relinked.reset (accounted.updateNotifyLimit quota)
    (.updateNotifyLimit _ quota) ?_
  intro other _
  rw [(World.updateNotifyLimit_rest _ quota).2]

variable [DecidableEq M] [DecidableEq Q]

theorem Setup.Bounded.stable (quota : Q) :
    setup.Stable setup.growthContract quota (setup.Bounded (some quota)) where
  accounted := fun _ bounded => bounded.accounted
  invariant := fun _ _ _ => trivial
  evicted := fun _ _ _ _ bounded evicted => bounded.evicted evicted
  shrunk := fun _ _ _ _ bounded updated =>
    bounded.lower (bounded.accounted.setPolicy updated)
      (.of_updated bounded.accounted updated)
  limited := by
    intro policy limit before bounded _
    refine bounded.reset (bounded.accounted.limited policy limit)
      (.setDynamicMaxMemory before policy limit) fun _ _ => rfl
  shared := by
    intro before after bounded ends
    have accounted := bounded.accounted.shareQuota ends
    obtain ⟨staticMaxMemory, rfl⟩ := World.shareQuota_ok ends
    refine bounded.reset accounted ⟨fun _ => ⟨_, _, rfl⟩, rfl⟩ ?_
    intro other different
    rw [World.setQuota_quota, Function.update_of_ne different]

/-- `notifyTouch`. -/
theorem Setup.Bounded.meets_notifyTouch (bounded : setup.Bounded none world)
    (rounds : Nat)
    (attached : policy ∈ setup.policiesOf element.1)
    (below : element.2 < (setup.mapping element.1).segments) :
    (PolicyProgram.notifyTouch rounds policy element).Meets setup.handle
      setup.growthContract (fun _ after => setup.Bounded none after) world := by
  refine lenient_growthContract.meets_touch bounded.accounted (fun _ => trivial)
    attached below ?_
  intro touch state allowed touched
  obtain ⟨exceptOwn, grown⟩ := bounded.touched touched allowed
  rw [← congrArg PolicySettings.policyQuota touched.settings] at exceptOwn
  refine (lenient_growthContract.meets_evictions policy touch.idsToEvict
    (fun current =>
      setup.Bounded state.policyQuota current ∧
        ((touch.isFirstAccess &&
            wordIncreased state.currentMemory touch.memOrig) = true ∨
          setup.Bounded none current) ∧
        current.policy policy = state)
    (fun _ kept => kept.1.accounted) (fun _ _ _ => trivial) ?_
    ⟨exceptOwn, grown, world.setPolicy_policy_self policy state⟩).andThen ?_
  · rintro victim before after ⟨exceptOwn, grown, same⟩ evicted
    refine ⟨exceptOwn.evicted evicted,
      grown.imp_right fun kept => kept.evicted evicted, ?_⟩
    rw [evicted.others policy (Or.inr rfl), same]
  · rintro _ after ⟨exceptOwn, grown, same⟩
    refine Program.Meets.bind (.request trivial (fun _ _ => trivial) ?_)
    intro _ answer current replied
    obtain ⟨rfl, rfl⟩ := answer_inj replied
    rw [same]
    cases linked : state.policyQuota with
    | none =>
        rw [linked] at exceptOwn
        exact exceptOwn
    | some quota =>
        rw [linked] at exceptOwn
        refine Program.Meets.when (fun _ => ?_) fun skipped => ?_
        · exact ((Bounded.stable quota).meets_update lenient_growthContract
            rounds exceptOwn).mono fun _ _ result => result.1.settle result.2
        · refine grown.resolve_left ?_
          rw [skipped]
          exact Bool.false_ne_true

/-! ## Runs -/

theorem Setup.Bounded.meets_operation (bounded : setup.Bounded none world)
    {program : PolicyProgram M P Q Unit} (offered : setup.QuotaOperation program) :
    program.Meets setup.handle setup.growthContract
      (fun _ after => setup.Bounded none after) world := by
  cases offered with
  | fault rounds mapping address isWrite accepted =>
      refine lenient_growthContract.meets_fault rounds (setup.Bounded none)
        accepted (fun _ => trivial) ?_ ?_
      · intro core
        obtain ⟨⟨⟨balanced, sound, registered, served⟩, live, nodup, linked⟩, within⟩ :=
          bounded
        exact ⟨⟨⟨balanced, sound, registered, served⟩, live, nodup, linked⟩, within⟩
      · intro policy element state attached below kept
        exact kept.meets_notifyTouch rounds attached below
  | registerPolicy rounds quota policy =>
      refine ((Bounded.stable quota).meets_registerPolicy
        lenient_growthContract rounds (fun _ => trivial) ?_).mono
          fun _ _ result => result.1.settle result.2
      intro after added
      have accounted := bounded.accounted.addPolicy added
      obtain ⟨_, rfl⟩ := World.addPolicy_ok added
      exact ⟨fun _ => trivial, fun _ => (bounded.weaken _).relink accounted⟩
  | unregisterPolicy rounds quota policy =>
      refine ((Bounded.stable quota).meets_unregisterPolicy
        lenient_growthContract rounds (fun _ => trivial) ?_).mono
          fun _ _ result => result.1.settle result.2
      intro after removed
      have accounted := bounded.accounted.removePolicy removed
      obtain ⟨_, rfl⟩ := World.removePolicy_ok removed
      exact ⟨fun _ => trivial, fun _ => (bounded.weaken _).relink accounted⟩
  | update rounds quota =>
      exact ((Bounded.stable quota).meets_update lenient_growthContract rounds
        (bounded.weaken _)).mono fun _ _ result => result.1.settle result.2

/-- In every run of faults, registrations and updates in which LIFO policies only
grow within their quota: after each operation the policies registered to a quota
together use no more than its maximum. -/
theorem quota_bound_of_lifo_room (setup : Setup M P) (initial world : World M P Q)
    (quota : Q) (started : setup.Started initial)
    (reached : setup.QuotaRun setup.RoomForGrowth initial world) :
    weight (fun policy => (world.policy policy).currentMemory)
        (world.quota quota).policies ≤
      (world.quota quota).staticMaxMemory := by
  have bounded : setup.Bounded none world :=
    SequentialRun.invariant setup.growthContract (setup.Bounded none) started.bounded
      (fun _ kept _ offered => kept.meets_operation offered) reached
  exact bounded.within quota (by simp)

/-- Two mappings of two pages, each with a policy of its own. -/
def pairSetup : Setup Bool Bool :=
  Setup.pair true

/-- Its world at the beginning: each policy has room for two pages, and so has
the quota. -/
def pairWorld (kind : PolicyKind) : World Bool Bool Unit :=
  World.start
    (fun policy => { Policy.create kind (2 * pageSize) false with
      storageRegistry := [policy] })
    (fun _ => Quota.create (2 * pageSize))

theorem started_pairWorld (kind : PolicyKind) :
    pairSetup.Started (pairWorld kind) where
  core := fun _ => ⟨_, _, rfl⟩
  live := fun _ => rfl
  policy := by
    intro policy
    refine ⟨kind, 2 * pageSize, false, [policy], List.nodup_singleton policy,
      ?_, ?_⟩
    · intro mapping
      simp [pairSetup, Setup.pair, Setup.policiesOf, Setup.ofPages, eq_comm]
    · cases policy <;> rfl
  quota := fun _ => rfl

/-- Two FIFO policies: the third fault makes the quota shrink the policy that has
two pages. -/
theorem quota_bound_of_lifo_room_fifo :
    ∃ world : World Bool Bool Unit,
      (world.policy false).ring = [(false, 1)] ∧
        (world.policy true).ring = [(true, 0)] ∧
        weight (fun policy => (world.policy policy).currentMemory)
          (world.quota ()).policies ≤ 2 * pageSize := by
  have first : pairSetup.QuotaRun pairSetup.RoomForGrowth (pairWorld .fifo) _ :=
    SequentialRun.initial.call (PolicyProgram.registerPolicy 1 () false)
      (.registerPolicy 1 () false) (by decide) rfl
  have second := first.call (PolicyProgram.registerPolicy 1 () true)
    (.registerPolicy 1 () true) (by decide) rfl
  have third := second.call (pairSetup.onSegmentationFault 2 false pageSize true)
    (.fault 2 false pageSize true (by decide)) (by decide +kernel) rfl
  have fourth := third.call (pairSetup.onSegmentationFault 2 false (2 * pageSize) true)
    (.fault 2 false (2 * pageSize) true (by decide)) (by decide +kernel) rfl
  have fifth := fourth.call (pairSetup.onSegmentationFault 2 true pageSize true)
    (.fault 2 true pageSize true (by decide)) (by decide +kernel) rfl
  have bound := quota_bound_of_lifo_room pairSetup (pairWorld .fifo) _ ()
    (started_pairWorld .fifo) fifth
  exact ⟨_, rfl, rfl, bound⟩

/-- Two LIFO policies: after the third fault they use three pages under a quota
of two. -/
theorem lifo_policies_exceed_quota :
    ∃ world : World Bool Bool Unit,
      pairSetup.QuotaRun (fun _ _ => True) (pairWorld .lifo) world ∧
        (world.quota ()).staticMaxMemory = 2 * pageSize ∧
        weight (fun policy => (world.policy policy).currentMemory)
          (world.quota ()).policies = 3 * pageSize := by
  have first : pairSetup.QuotaRun (fun _ _ => True) (pairWorld .lifo) _ :=
    SequentialRun.initial.call (PolicyProgram.registerPolicy 1 () false)
      (.registerPolicy 1 () false) (fun _ _ => trivial) rfl
  have second := first.call (PolicyProgram.registerPolicy 1 () true)
    (.registerPolicy 1 () true) (fun _ _ => trivial) rfl
  have third := second.call (pairSetup.onSegmentationFault 2 false pageSize true)
    (.fault 2 false pageSize true (by decide)) (fun _ _ => trivial) rfl
  have fourth := third.call (pairSetup.onSegmentationFault 2 false (2 * pageSize) true)
    (.fault 2 false (2 * pageSize) true (by decide)) (fun _ _ => trivial) rfl
  have fifth := fourth.call (pairSetup.onSegmentationFault 2 true pageSize true)
    (.fault 2 true pageSize true (by decide)) (fun _ _ => trivial) rfl
  exact ⟨_, fifth, rfl, rfl⟩

end UmmapIo
