import UmmapIo.Quota.Update

/-!
# The maximum of a policy under a quota

A registration gives every policy of the quota the maximum of the quota as its
limit, even if the policy was created with less.  As long as the quota is not
larger than its policies whenever this happens, no policy ever gets a limit above
its own maximum, nor uses more.
-/

namespace UmmapIo

variable {M P Q : Type} [Fintype M]

/-- The limits that a registration hands out. -/
def World.handedOut (world : World M P Q) : PolicyOp M P Q → List (P × Nat)
  | .updateNotifyLimit quota =>
      (world.quota quota).policies.map fun policy =>
        (policy, (world.quota quota).staticMaxMemory)
  | _ => []

/-- No limit that the operation hands out is above the maximum of its policy,
and every notice is for a listed segment. -/
def Setup.WithinMaxima [DecidableEq P] (setup : Setup M P) (op : PolicyOp M P Q)
    (world : World M P Q) : Prop :=
  setup.NoticesListed op world ∧
    ∀ entry ∈ world.handedOut op,
      entry.2 ≤ (world.policy entry.1).staticMaxMemory

instance [DecidableEq M] [DecidableEq P]
    (setup : Setup M P)
    (op : (policySignature M P Q).Op)
    (world : World M P Q) :
    Decidable (setup.WithinMaxima op world) :=
  inferInstanceAs (Decidable ((∀ _ ∈ _, _) ∧ ∀ _ ∈ _, _))

/-- No policy has a limit above its maximum or uses more. -/
def World.Capped (maximum : P → Nat) (world : World M P Q) : Prop :=
  ∀ policy, (world.policy policy).dynamicMaxMemory ≤ maximum policy ∧
    (world.policy policy).currentMemory ≤ maximum policy

/-- The invariant: limits and counters are within the maximum given to the
constructor. -/
structure Setup.HardLimit (setup : Setup M P) (maximum : P → Nat)
    (world : World M P Q) : Prop where
  accounted : setup.Accounted world
  created : ∀ policy, (world.policy policy).staticMaxMemory = maximum policy
  capped : world.Capped maximum

/-- Operations that keep the limits, as long as registrations do. -/
def Setup.limitContract [DecidableEq P] (setup : Setup M P) (maximum : P → Nat) :
    Contract (policySignature M P Q) (World M P Q) where
  assumes := setup.WithinMaxima
  invariant _ := World.Capped maximum
  stops _ := True
  blocks := True

variable {setup : Setup M P} {maximum : P → Nat} {world after : World M P Q}

theorem Setup.Started.hardLimit (started : setup.Started world) :
    setup.HardLimit
      (fun policy => (world.policy policy).staticMaxMemory) world where
  accounted := started.accounted
  created := fun _ => rfl
  capped := by
    intro policy
    have fresh := (started.policy policy).fresh
    rw [fresh.dynamicMaxMemory, fresh.currentMemory]
    exact ⟨Nat.le_refl _, Nat.zero_le _⟩

theorem Setup.lenient_limitContract [DecidableEq P] :
    setup.Lenient (setup.limitContract maximum :
      Contract (policySignature M P Q) (World M P Q)) where
  stops := fun _ => trivial
  blocks := trivial
  listed := fun _ _ allowed => allowed.1

variable [DecidableEq P] {policy : P}

/-- A step of one policy within its limit. -/
theorem Setup.HardLimit.setPolicy
    (hardLimit : setup.HardLimit maximum world)
    {added removed : List (ListElement M)} {state : Policy M Q}
    (updated : (world.policy policy).Updated setup.mapping added removed state)
    (within : state.currentMemory ≤ maximum policy) :
    setup.HardLimit maximum (world.setPolicy policy state) := by
  refine ⟨hardLimit.accounted.setPolicy updated, ?_, ?_⟩
  · intro other
    by_cases same : other = policy
    · rw [same, World.setPolicy_policy_self, updated.settings]
      exact hardLimit.created policy
    · rw [World.setPolicy_policy_of_ne _ same]
      exact hardLimit.created other
  · intro other
    by_cases same : other = policy
    · rw [same, World.setPolicy_policy_self, updated.settings]
      exact ⟨(hardLimit.capped policy).1, within⟩
    · rw [World.setPolicy_policy_of_ne _ same]
      exact hardLimit.capped other

variable {quota : Q}

/-- New limits from a quota that is no larger than its policies. -/
theorem Setup.HardLimit.updateNotifyLimit
    (hardLimit : setup.HardLimit maximum world)
    (allowed : setup.WithinMaxima (.updateNotifyLimit quota) world) :
    setup.HardLimit maximum (world.updateNotifyLimit quota) := by
  refine ⟨hardLimit.accounted.updateNotifyLimit quota, ?_, ?_⟩
  · intro policy
    rw [World.updateNotifyLimit_policy]
    split
    · exact hardLimit.created policy
    · exact hardLimit.created policy
  · intro policy
    rw [World.updateNotifyLimit_policy]
    split
    · rename_i registered
      refine ⟨?_, (hardLimit.capped policy).2⟩
      rw [← hardLimit.created policy]
      exact allowed.2 _ (List.mem_map_of_mem registered)
    · exact hardLimit.capped policy

/-- A change of a link between a policy and a quota. -/
theorem Setup.HardLimit.relink [DecidableEq Q]
    (hardLimit : setup.HardLimit maximum world)
    {link : Option Q} {policies : List P}
    (accounted : setup.Accounted (world.relink quota policy link policies)) :
    setup.HardLimit maximum (world.relink quota policy link policies) := by
  refine ⟨accounted, ?_, ?_⟩
  · intro other
    rw [World.relink_policy]
    exact hardLimit.created other
  · intro other
    rw [World.relink_policy]
    exact hardLimit.capped other

variable [DecidableEq M] {element : ListElement M}

/-- An eviction. -/
theorem Setup.HardLimit.evicted
    (hardLimit : setup.HardLimit maximum world)
    {source : P}
    (evicted : setup.Evicted source element world after) :
    setup.HardLimit maximum after := by
  refine ⟨hardLimit.accounted.evicted evicted, ?_, ?_⟩
  · intro policy
    rw [evicted.settings]
    exact hardLimit.created policy
  · intro policy
    have capped := hardLimit.capped policy
    have lower := (World.Lowers.of_evicted hardLimit.accounted evicted).memory policy
    rw [evicted.settings]
    exact ⟨capped.1, Nat.le_trans lower capped.2⟩

variable [DecidableEq Q]

theorem Setup.HardLimit.stable (quota : Q) :
    setup.Stable (setup.limitContract maximum) quota (setup.HardLimit maximum) where
  accounted := fun _ hardLimit => hardLimit.accounted
  invariant := fun _ hardLimit _ => hardLimit.capped
  evicted := fun _ _ _ _ hardLimit evicted => hardLimit.evicted evicted
  shrunk := by
    intro policy removed state before hardLimit updated
    refine hardLimit.setPolicy updated ?_
    exact Nat.le_trans (updated.currentMemory_le
      (hardLimit.accounted.consistent.balanced policy))
      (hardLimit.capped policy).2
  limited := by
    intro policy limit before hardLimit used
    refine ⟨hardLimit.accounted.limited policy limit, ?_, ?_⟩
    · intro other
      by_cases same : other = policy
      · rw [same, World.setPolicy_policy_self]
        exact hardLimit.created policy
      · rw [World.setPolicy_policy_of_ne _ same]
        exact hardLimit.created other
    · intro other
      by_cases same : other = policy
      · have capped := (hardLimit.capped policy).2
        rw [same, World.setPolicy_policy_self]
        exact ⟨Nat.le_trans used capped, capped⟩
      · rw [World.setPolicy_policy_of_ne _ same]
        exact hardLimit.capped other
  shared := by
    intro before after hardLimit ends
    refine ⟨hardLimit.accounted.shareQuota ends, ?_, ?_⟩
    all_goals
      obtain ⟨staticMaxMemory, rfl⟩ := World.shareQuota_ok ends
    · exact hardLimit.created
    · exact hardLimit.capped

/-- `notifyTouch`. -/
theorem Setup.HardLimit.meets_notifyTouch
    (hardLimit : setup.HardLimit maximum world)
    (rounds : Nat)
    (attached : policy ∈ setup.policiesOf element.1)
    (below : element.2 < (setup.mapping element.1).segments) :
    (PolicyProgram.notifyTouch rounds policy element).Meets setup.handle
      (setup.limitContract maximum)
      (fun _ after => setup.HardLimit maximum after) world := by
  refine lenient_limitContract.meets_touch hardLimit.accounted
    (fun _ => hardLimit.capped) attached below ?_
  intro touch state _ touched
  have within := Nat.le_trans touched.within (hardLimit.capped policy).1
  refine (lenient_limitContract.meets_evictions policy touch.idsToEvict
    (setup.HardLimit maximum) (fun _ kept => kept.accounted)
    (fun _ kept _ => kept.capped) (fun _ _ _ kept evicted => kept.evicted evicted)
    (hardLimit.setPolicy touched.toUpdated within)).andThen ?_
  intro _ after kept
  refine Program.Meets.bind (.request kept.capped (fun _ _ => trivial) ?_)
  intro _ answer state replied
  obtain ⟨rfl, rfl⟩ := answer_inj replied
  cases linked : (after.policy policy).policyQuota with
  | none => exact kept
  | some quota =>
      refine Program.Meets.when (fun _ => ?_) fun _ => kept
      exact ((HardLimit.stable quota).meets_update lenient_limitContract rounds
        kept).mono fun _ _ result => result.1

/-! ## Runs -/

theorem Setup.HardLimit.meets_operation
    (hardLimit : setup.HardLimit maximum world)
    {program : PolicyProgram M P Q Unit} (offered : setup.QuotaOperation program) :
    program.Meets setup.handle (setup.limitContract maximum)
      (fun _ after => setup.HardLimit maximum after) world := by
  cases offered with
  | fault rounds mapping address isWrite accepted =>
      refine lenient_limitContract.meets_fault rounds (setup.HardLimit maximum)
        accepted (fun _ => hardLimit.capped) ?_ ?_
      · intro core
        obtain ⟨⟨⟨balanced, sound, registered, served⟩, live, nodup, linked⟩, created,
          capped⟩ := hardLimit
        exact ⟨⟨⟨balanced, sound, registered, served⟩, live, nodup, linked⟩, created,
          capped⟩
      · intro policy element state attached below kept
        exact kept.meets_notifyTouch rounds attached below
  | registerPolicy rounds quota policy =>
      refine ((HardLimit.stable quota).meets_registerPolicy
        lenient_limitContract rounds (fun _ => hardLimit.capped) ?_).mono
          fun _ _ result => result.1
      intro after added
      have accounted := hardLimit.accounted.addPolicy added
      obtain ⟨_, rfl⟩ := World.addPolicy_ok added
      have kept := hardLimit.relink accounted
      exact ⟨fun _ => kept.capped, fun allowed => kept.updateNotifyLimit allowed⟩
  | unregisterPolicy rounds quota policy =>
      refine ((HardLimit.stable quota).meets_unregisterPolicy
        lenient_limitContract rounds (fun _ => hardLimit.capped) ?_).mono
          fun _ _ result => result.1
      intro after removed
      have accounted := hardLimit.accounted.removePolicy removed
      obtain ⟨_, rfl⟩ := World.removePolicy_ok removed
      have kept := hardLimit.relink accounted
      exact ⟨fun _ => kept.capped, fun allowed => kept.updateNotifyLimit allowed⟩
  | update rounds quota =>
      exact ((HardLimit.stable quota).meets_update lenient_limitContract rounds
        hardLimit).mono fun _ _ result => result.1

/-- In every run of faults, registrations and updates in which limits are only
handed out by quotas no larger than their policies, no policy ever has a limit
above the maximum it was created with, or uses more: neither between the
operations nor in the middle of the next one. -/
theorem hard_limit_of_small_quotas (setup : Setup M P) (initial world : World M P Q)
    (started : setup.Started initial)
    (reached : setup.QuotaRun setup.WithinMaxima initial world) :
    world.Capped (fun policy => (initial.policy policy).staticMaxMemory) ∧
    ∀ program, setup.QuotaOperation program →
      (∀ entry ∈ program.performed setup.handle world,
        setup.WithinMaxima entry.1 entry.2) →
      ∀ entry ∈ program.performed setup.handle world,
        entry.2.Capped fun policy =>
          (initial.policy policy).staticMaxMemory := by
  have hardLimit : setup.HardLimit
      (fun policy => (initial.policy policy).staticMaxMemory) world :=
    SequentialRun.invariant (setup.limitContract _)
      (setup.HardLimit fun policy => (initial.policy policy).staticMaxMemory)
      started.hardLimit
      (fun _ kept _ offered => kept.meets_operation offered) reached
  refine ⟨hardLimit.capped, ?_⟩
  intro program offered allowed
  exact ((hardLimit.meets_operation offered).run allowed).1

/-- One mapping of two pages, whose policy was created with one page. -/
def quotaSetup : Setup Unit Unit :=
  Setup.single 1 true

/-- Its world at the beginning, with a quota of some pages. -/
def quotaWorld (pages : Nat) : World Unit Unit Unit :=
  World.start
    (fun _ => { Policy.create .fifo pageSize false with storageRegistry := [()] })
    (fun _ => Quota.create (pages * pageSize))

theorem started_quotaWorld (pages : Nat) :
    quotaSetup.Started (quotaWorld pages) :=
  Setup.started_single .fifo pageSize rfl fun _ => rfl

/-- With a quota of one page the policy keeps to its maximum. -/
theorem hard_limit_of_small_quotas_one_page :
    ∃ world : World Unit Unit Unit,
      (world.policy ()).ring = [((), 1)] ∧
        (world.policy ()).dynamicMaxMemory ≤ pageSize ∧
        (world.policy ()).currentMemory ≤ pageSize := by
  have first : quotaSetup.QuotaRun quotaSetup.WithinMaxima (quotaWorld 1) _ :=
    SequentialRun.initial.call (PolicyProgram.registerPolicy 1 () ())
      (.registerPolicy 1 () ()) (by decide) rfl
  have second := first.call (quotaSetup.onSegmentationFault 1 () pageSize true)
    (.fault 1 () pageSize true (by decide)) (by decide) rfl
  have third := second.call (quotaSetup.onSegmentationFault 1 () (2 * pageSize) true)
    (.fault 1 () (2 * pageSize) true (by decide)) (by decide) rfl
  have capped := (hard_limit_of_small_quotas quotaSetup (quotaWorld 1) _
    (started_quotaWorld 1) third).1 ()
  exact ⟨_, rfl, capped⟩

/-- With a quota of two pages the registration raises the limit of the policy to
two pages, and two faults make it use them. -/
theorem quota_raises_limit :
    ∃ world : World Unit Unit Unit,
      quotaSetup.QuotaRun (fun _ _ => True) (quotaWorld 2) world ∧
        (world.policy ()).staticMaxMemory = pageSize ∧
        (world.policy ()).dynamicMaxMemory = 2 * pageSize ∧
        (world.policy ()).currentMemory = 2 * pageSize := by
  have first : quotaSetup.QuotaRun (fun _ _ => True) (quotaWorld 2) _ :=
    SequentialRun.initial.call (PolicyProgram.registerPolicy 1 () ())
      (.registerPolicy 1 () ()) (fun _ _ => trivial) rfl
  have second := first.call (quotaSetup.onSegmentationFault 1 () pageSize true)
    (.fault 1 () pageSize true (by decide)) (fun _ _ => trivial) rfl
  have third := second.call (quotaSetup.onSegmentationFault 1 () (2 * pageSize) true)
    (.fault 1 () (2 * pageSize) true (by decide)) (fun _ _ => trivial) rfl
  exact ⟨_, third, rfl, rfl, rfl⟩

end UmmapIo
