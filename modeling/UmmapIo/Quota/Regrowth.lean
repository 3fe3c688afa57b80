import UmmapIo.InterProc.Defs
import UmmapIo.Quota.Update

/-!
# The share of a process after others have left

The limit of a policy is set in two places: by a registration, to the maximum of
the quota, and by an update that shrinks the policy, to a value between its
memory and the average.  Nothing raises it when the share of the process grows.
With one policy the average is the share, so the limit is always at least as
large as the share was when the limit was set.
-/

namespace UmmapIo

variable {M P Q : Type}

/-- The quotas that set a limit by this operation. -/
def World.limitedBy (world : World M P Q) : PolicyOp M P Q → List Q
  | .setDynamicMaxMemory policy _ => (world.policy policy).policyQuota.toList
  | .updateNotifyLimit quota =>
      if (world.quota quota).policies.isEmpty then [] else [quota]
  | _ => []

/-- A quota that sets a limit has at least this maximum at that moment. -/
def World.SharesAtLeast (bound : Nat) (op : PolicyOp M P Q)
    (world : World M P Q) : Prop :=
  ∀ quota ∈ world.limitedBy op, bound ≤ (world.quota quota).staticMaxMemory

instance
    (bound : Nat)
    (op : (policySignature M P Q).Op)
    (world : World M P Q) :
    Decidable (World.SharesAtLeast bound op world) :=
  inferInstanceAs (Decidable (∀ _ ∈ _, _))

/-- Other processes join or leave. -/
def World.Regrouped [DecidableEq Q] (before after : World M P Q) : Prop :=
  ∃ quota interProc processes,
    (before.quota quota).interProc = some interProc ∧ 0 < processes ∧
      after = before.setQuota quota
        { before.quota quota with
          interProc := some { interProc with processes := processes } }

/-- What `update` computes in a process is its share in the group of the
processes that are registered. -/
theorem World.shareQuota_eq_perProcQuota [DecidableEq Q] (world : World M P Q)
    (quota : Q) {interProc : InterProc}
    (group : (world.quota quota).interProc = some interProc) :
    world.shareQuota quota =
      match ProcessGroup.Group.perProcQuota ⟨interProc.totalAllowed, false⟩
          interProc.processes with
      | some share =>
          .ok (world.setQuota quota
            { world.quota quota with staticMaxMemory := share })
      | none =>
          .error (.fatal "Assertion this->shared->processes > 0 failed.") := by
  unfold World.shareQuota ProcessGroup.Group.perProcQuota
  rw [group]
  by_cases positive : 0 < interProc.processes
  · simp [positive]
  · simp [positive]

variable [Fintype M]

/-- The invariant: a policy with a quota has at least this limit. -/
structure Setup.Ample (setup : Setup M P) (bound : Nat)
    (world : World M P Q) : Prop where
  accounted : setup.Accounted world
  room : ∀ policy, (world.policy policy).policyQuota.isSome = true →
    bound ≤ (world.policy policy).dynamicMaxMemory

/-- Operations in which limits are only set by large quotas. -/
def shareContract (bound : Nat) :
    Contract (policySignature M P Q) (World M P Q) where
  assumes := World.SharesAtLeast bound
  invariant _ _ := True
  stops _ := True
  blocks := True

/-- Operations about which nothing is assumed. -/
def anyContract : Contract (policySignature M P Q) (World M P Q) where
  assumes _ _ := True
  invariant _ _ := True
  stops _ := True
  blocks := True

variable {setup : Setup M P} {bound : Nat} {world after : World M P Q}

theorem Setup.Started.ample (started : setup.Started world) (bound : Nat) :
    setup.Ample bound world where
  accounted := started.accounted
  room := by
    intro policy linked
    obtain ⟨quota, link⟩ := Option.isSome_iff_exists.mp linked
    have registered := (started.accounted.linked quota policy).mpr link
    rw [started.quota] at registered
    cases registered

theorem Setup.Ample.regrouped [DecidableEq Q] (ample : setup.Ample bound world)
    (regrouped : world.Regrouped after) :
    setup.Ample bound after := by
  obtain ⟨quota, interProc, processes, _, _, rfl⟩ := regrouped
  exact ⟨ample.accounted.setQuota rfl, ample.room⟩

theorem Setup.Accounted.length_policies_le [Subsingleton P]
    (accounted : setup.Accounted world) (quota : Q) :
    (world.quota quota).policies.length ≤ 1 := by
  have nodup := accounted.nodup quota
  cases policies : (world.quota quota).policies with
  | nil => exact Nat.zero_le 1
  | cons first rest =>
      cases rest with
      | nil => exact Nat.le_refl 1
      | cons second rest =>
          simp [policies, Subsingleton.elim first second] at nodup

variable [DecidableEq P]

/-- A step of one policy that keeps its settings. -/
theorem Setup.Ample.setPolicy (ample : setup.Ample bound world) {policy : P}
    {added removed : List (ListElement M)} {state : Policy M Q}
    (updated : (world.policy policy).Updated setup.mapping added removed state) :
    setup.Ample bound (world.setPolicy policy state) := by
  refine ⟨ample.accounted.setPolicy updated, ?_⟩
  intro other linked
  by_cases same : other = policy
  · rw [same, World.setPolicy_policy_self, updated.settings] at linked ⊢
    exact ample.room policy linked
  · rw [World.setPolicy_policy_of_ne _ same] at linked ⊢
    exact ample.room other linked

theorem Setup.Ample.limited (ample : setup.Ample bound world) (policy : P) {limit : Nat}
    (large : bound ≤ limit) :
    setup.Ample bound (world.setPolicy policy
      ((world.policy policy).setDynamicMaxMemory limit)) := by
  refine ⟨ample.accounted.limited policy limit, ?_⟩
  intro other linked
  by_cases same : other = policy
  · rw [same, World.setPolicy_policy_self]
    exact large
  · rw [World.setPolicy_policy_of_ne _ same] at linked ⊢
    exact ample.room other linked

theorem Setup.Ample.evicted [DecidableEq M] (ample : setup.Ample bound world)
    {source : P} {element : ListElement M}
    (evicted : setup.Evicted source element world after) :
    setup.Ample bound after := by
  refine ⟨ample.accounted.evicted evicted, ?_⟩
  intro policy linked
  rw [evicted.settings] at linked ⊢
  exact ample.room policy linked

/-- New limits for all policies of a large quota. -/
theorem Setup.Accounted.ample_updateNotifyLimit (accounted : setup.Accounted world)
    (quota : Q)
    (others : ∀ policy, policy ∉ (world.quota quota).policies →
      (world.policy policy).policyQuota.isSome = true →
        bound ≤ (world.policy policy).dynamicMaxMemory)
    (allowed : World.SharesAtLeast bound (.updateNotifyLimit quota) world) :
    setup.Ample bound (world.updateNotifyLimit quota) := by
  refine ⟨accounted.updateNotifyLimit quota, ?_⟩
  intro policy linked
  rw [World.updateNotifyLimit_policy] at linked ⊢
  split
  · rename_i registered
    have nonempty := List.ne_nil_of_mem registered
    exact allowed quota (by simp [World.limitedBy, nonempty])
  · rename_i absent
    rw [if_neg absent] at linked
    exact others policy absent linked

/-! ## Updates -/

variable [Subsingleton P]

/-- With one policy, no eviction sends a notice. -/
theorem Setup.noticesListed_of_subsingleton (setup : Setup M P) (op : PolicyOp M P Q)
    (world : World M P Q) :
    setup.NoticesListed op world := by
  intro notice member
  unfold Setup.notices at member
  split at member
  · rename_i source _ _
    obtain ⟨policy, other, _⟩ := List.mem_map.mp member
    have different := (List.mem_filter.mp other).2
    simp [Subsingleton.elim policy source] at different
  · cases member

theorem Setup.lenient_shareContract :
    setup.Lenient (shareContract bound :
      Contract (policySignature M P Q) (World M P Q)) where
  stops := fun _ => trivial
  blocks := trivial
  listed := fun op world _ => setup.noticesListed_of_subsingleton op world

theorem Setup.lenient_anyContract :
    setup.Lenient (anyContract :
      Contract (policySignature M P Q) (World M P Q)) where
  stops := fun _ => trivial
  blocks := trivial
  listed := fun op world _ => setup.noticesListed_of_subsingleton op world

variable [DecidableEq M] [DecidableEq Q]
variable {contract : Contract (policySignature M P Q) (World M P Q)}

/-- An update, if the share it computes is large enough whenever it sets a
limit. -/
theorem Setup.Ample.meets_update (ample : setup.Ample bound world)
    (lenient : setup.Lenient contract)
    (invariant : ∀ op state, contract.invariant op state)
    (rounds : Nat) (quota : Q)
    (enough : ∀ shared state policy limit, world.shareQuota quota = .ok shared →
      state.quota = shared.quota → setup.Accounted state →
      policy ∈ (shared.quota quota).policies →
      contract.assumes (.setDynamicMaxMemory policy limit) state →
        bound ≤ (shared.quota quota).staticMaxMemory) :
    (PolicyProgram.update rounds quota).Meets setup.handle contract
      (fun _ after => setup.Ample bound after) world := by
  refine Program.Meets.bind (.request (invariant _ world)
    (fun _ _ => lenient.blocks) ?_)
  intro _ answer shared replied
  obtain ⟨ends, rfl⟩ | ⟨message, _, rfl, _⟩ := World.replyUnit_eq_some replied
  · have accounted := ample.accounted.shareQuota ends
    have kept : setup.Ample bound shared := by
      refine ⟨accounted, ?_⟩
      obtain ⟨staticMaxMemory, rfl⟩ := World.shareQuota_ok ends
      exact ample.room
    refine Program.Meets.bind (.request (invariant _ shared)
      (fun _ _ => lenient.blocks) ?_)
    intro _ answer state replied
    obtain ⟨rfl, rfl⟩ := answer_inj replied
    refine Program.Meets.when (fun some => ?_) fun _ => kept
    have length : (shared.memories quota).length = 1 := by
      have atMost := accounted.length_policies_le quota
      have positive : 0 < (shared.memories quota).length :=
        List.length_pos_iff.mpr (by simpa using some)
      unfold World.memories at positive ⊢
      rw [List.length_map] at positive ⊢
      omega
    rw [length, Nat.div_one]
    refine (lenient.meets_updateLoop shared.quota (setup.Ample bound) ?_
      (fun _ kept => kept.accounted) (fun state _ op => invariant op state)
      (fun _ _ _ _ kept evicted => kept.evicted evicted)
      (fun _ _ _ _ kept updated => kept.setPolicy updated) ?_ rounds
      ⟨kept, rfl⟩).mono fun _ _ result => result.1
    · have atMost := accounted.length_policies_le quota
      calc (shared.quota quota).staticMaxMemory * (shared.quota quota).policies.length
          ≤ (shared.quota quota).staticMaxMemory * 1 :=
            Nat.mul_le_mul_left _ atMost
        _ = (shared.quota quota).staticMaxMemory := Nat.mul_one _
    · intro policy limit before kept limiting
      exact kept.limited policy (Nat.le_trans (enough shared before policy limit
        ends limiting.unchanged kept.accounted limiting.registered
        limiting.allowed) limiting.above)
  · exact lenient.stops message

/-- An update in a run in which limits are only set by large quotas. -/
theorem Setup.Ample.meets_update_of_share (ample : setup.Ample bound world)
    (rounds : Nat) (quota : Q) :
    (PolicyProgram.update rounds quota).Meets setup.handle (shareContract bound)
      (fun _ after => setup.Ample bound after) world := by
  refine ample.meets_update lenient_shareContract (fun _ _ => trivial) rounds
    quota ?_
  intro shared state policy limit _ same accounted registered allowed
  rw [← same] at registered ⊢
  have linked := (accounted.linked quota policy).mp registered
  exact allowed quota (by simp [World.limitedBy, linked])

/-! ## Operations -/

/-- `notifyTouch`. -/
theorem Setup.Ample.meets_notifyTouch (ample : setup.Ample bound world) {policy : P}
    {element : ListElement M} (rounds : Nat)
    (attached : policy ∈ setup.policiesOf element.1)
    (below : element.2 < (setup.mapping element.1).segments) :
    (PolicyProgram.notifyTouch rounds policy element).Meets setup.handle
      (shareContract bound) (fun _ after => setup.Ample bound after) world := by
  refine lenient_shareContract.meets_touch ample.accounted (fun _ => trivial)
    attached below ?_
  intro touch state _ touched
  refine (lenient_shareContract.meets_evictions policy touch.idsToEvict
    (setup.Ample bound) (fun _ kept => kept.accounted) (fun _ _ _ => trivial)
    (fun _ _ _ kept evicted => kept.evicted evicted)
    (ample.setPolicy touched.toUpdated)).andThen ?_
  intro _ after kept
  refine Program.Meets.bind (.request trivial (fun _ _ => trivial) ?_)
  intro _ answer state replied
  obtain ⟨rfl, rfl⟩ := answer_inj replied
  cases linked : (after.policy policy).policyQuota with
  | none => exact kept
  | some quota =>
      exact Program.Meets.when
        (fun _ => kept.meets_update_of_share rounds quota) fun _ => kept

/-- The end of a registration: new limits, then an update. -/
theorem Setup.Accounted.meets_renewal (accounted : setup.Accounted world) (rounds : Nat)
    (quota : Q)
    (others : ∀ policy, policy ∉ (world.quota quota).policies →
      (world.policy policy).policyQuota.isSome = true →
        bound ≤ (world.policy policy).dynamicMaxMemory) :
    (Section.updateNotifyLimit quota >>= fun _ =>
      PolicyProgram.update rounds quota).Meets setup.handle (shareContract bound)
        (fun _ after => setup.Ample bound after) world := by
  refine Program.Meets.bind (.request trivial (fun _ _ => trivial) ?_)
  intro allowed answer after replied
  obtain ⟨_, rfl⟩ := answer_inj replied
  exact (accounted.ample_updateNotifyLimit quota others
    allowed).meets_update_of_share rounds quota

theorem Setup.Ample.meets_operation (ample : setup.Ample bound world)
    {program : PolicyProgram M P Q Unit} (offered : setup.QuotaOperation program) :
    program.Meets setup.handle (shareContract bound)
      (fun _ after => setup.Ample bound after) world := by
  cases offered with
  | fault rounds mapping address isWrite accepted =>
      refine lenient_shareContract.meets_fault rounds (setup.Ample bound)
        accepted (fun _ => trivial) ?_ ?_
      · intro core
        obtain ⟨⟨⟨balanced, sound, registered, served⟩, live, nodup, linked⟩, room⟩ :=
          ample
        exact ⟨⟨⟨balanced, sound, registered, served⟩, live, nodup, linked⟩, room⟩
      · intro policy element state attached below kept
        exact kept.meets_notifyTouch rounds attached below
  | registerPolicy rounds quota policy =>
      refine Program.Meets.bind (.request trivial (fun _ _ => trivial) ?_)
      intro _ answer after replied
      obtain ⟨ends, rfl⟩ | ⟨message, _, rfl, _⟩ :=
        World.replyUnit_eq_some replied
      · refine (ample.accounted.addPolicy ends).meets_renewal rounds quota ?_
        obtain ⟨_, rfl⟩ := World.addPolicy_ok ends
        intro other absent
        rw [World.relink_quota, if_pos rfl] at absent
        exact absurd (Subsingleton.elim policy other ▸ List.mem_concat_self) absent
      · exact trivial
  | unregisterPolicy rounds quota policy =>
      refine Program.Meets.bind (.request trivial (fun _ _ => trivial) ?_)
      intro _ answer after replied
      obtain ⟨ends, rfl⟩ | ⟨message, _, rfl, _⟩ :=
        World.replyUnit_eq_some replied
      · refine (ample.accounted.removePolicy ends).meets_renewal rounds quota ?_
        obtain ⟨_, rfl⟩ := World.removePolicy_ok ends
        intro other _ linked
        rw [World.relink_policy, if_pos (Subsingleton.elim other policy)] at linked
        cases linked
      · exact trivial
  | update rounds quota => exact ample.meets_update_of_share rounds quota

/-! ## Runs -/

/-- The states between the operations, where other processes may come and go. -/
abbrev Setup.RegroupedRun (setup : Setup M P)
    (condition : PolicyOp M P Q → World M P Q → Prop) (initial : World M P Q) :
    World M P Q → Prop :=
  DisturbedRun setup.handle (fun _ => { program | setup.QuotaOperation program })
    condition World.Regrouped initial

/-- In a process with one policy, after any run of faults, registrations and
updates between which other processes join and leave: once `update` has run, the
limit of the policy is at least the smaller of its own maximum and the share of
the process, if the share was at least that large whenever the limit was set. -/
theorem share_within_limit (setup : Setup M P) (policy : P) (quota : Q)
    (initial world after : World M P Q) (interProc : InterProc) (rounds : Nat)
    (started : setup.Started initial)
    (reached : setup.RegroupedRun
      (World.SharesAtLeast (min (initial.policy policy).staticMaxMemory
        (interProc.totalAllowed / interProc.processes))) initial world)
    (group : (world.quota quota).interProc = some interProc)
    (returns : (PolicyProgram.update rounds quota).run setup.handle world =
      .finished () after)
    (registered : policy ∈ (after.quota quota).policies) :
    min (initial.policy policy).staticMaxMemory
        (interProc.totalAllowed / interProc.processes) ≤
      (after.policy policy).dynamicMaxMemory := by
  have ample := DisturbedRun.invariant (shareContract _) (setup.Ample _)
    (started.ample _) (fun _ kept _ offered => kept.meets_operation offered)
    (fun _ _ kept regrouped => kept.regrouped regrouped) reached
  have updates := ample.meets_update Setup.lenient_anyContract
    (fun _ _ => trivial) rounds quota ?_
  · have ends := (updates.run fun _ _ => trivial).2
    rw [returns] at ends
    have kept : setup.Ample _ after := ends
    refine kept.room policy ?_
    rw [(kept.accounted.linked quota policy).mp registered]
    rfl
  · intro shared _ _ _ ends _ _ _ _
    rw [world.shareQuota_eq_perProcQuota quota group] at ends
    unfold ProcessGroup.Group.perProcQuota at ends
    by_cases positive : 0 < interProc.processes
    · simp only [Int.natCast_pos, positive, if_true, Int.toNat_natCast] at ends
      cases ends
      rw [World.setQuota_quota, Function.update_self]
      exact Nat.min_le_right _ _
    · simp [positive] at ends

/-- One mapping of four pages with one policy. -/
def regrowthSetup : Setup Unit Unit :=
  Setup.single 3 true

/-- Its world at the beginning: all processes together may use four pages. -/
def regrowthWorld (maxMemory : Nat) : World Unit Unit Unit :=
  World.start
    (fun _ => { Policy.create .fifo maxMemory false with storageRegistry := [()] })
    (fun _ => { Quota.create (4 * pageSize) with
      interProc := some ⟨4 * pageSize, 1⟩ })

/-- A policy of two pages.  A second process joins, and the update leaves the policy
the share of two pages.  After two faults that process leaves, and the limit is
still what the policy may use. -/
theorem share_within_limit_after_leave :
    ∃ world after : World Unit Unit Unit,
      regrowthSetup.RegroupedRun
          (World.SharesAtLeast (min (2 * pageSize) (4 * pageSize / 1)))
          (regrowthWorld (2 * pageSize)) world ∧
        (world.quota ()).interProc = some ⟨4 * pageSize, 1⟩ ∧
        (world.quota ()).staticMaxMemory = 2 * pageSize ∧
        (PolicyProgram.update 1 ()).run regrowthSetup.handle world =
          .finished () after ∧
        (after.policy ()).currentMemory = 2 * pageSize ∧
        2 * pageSize ≤ (after.policy ()).dynamicMaxMemory := by
  have first : regrowthSetup.RegroupedRun
      (World.SharesAtLeast (min (2 * pageSize) (4 * pageSize / 1)))
      (regrowthWorld (2 * pageSize)) _ :=
    DisturbedRun.initial.call (PolicyProgram.registerPolicy 1 () ())
      (.registerPolicy 1 () ()) (by decide) rfl
  have joined := first.disturbed ⟨(), _, 2, rfl, by decide, rfl⟩
  have second := joined.call (PolicyProgram.update 1 ()) (.update 1 ())
    (by decide +kernel) rfl
  have third := second.call (regrowthSetup.onSegmentationFault 1 () pageSize true)
    (.fault 1 () pageSize true (by decide)) (by decide +kernel) rfl
  have fourth := third.call (regrowthSetup.onSegmentationFault 1 () (2 * pageSize) true)
    (.fault 1 () (2 * pageSize) true (by decide)) (by decide +kernel) rfl
  have left := fourth.disturbed ⟨(), _, 1, rfl, by decide, rfl⟩
  have started : regrowthSetup.Started (regrowthWorld (2 * pageSize)) :=
    Setup.started_single .fifo (2 * pageSize) rfl fun _ => rfl
  have within := share_within_limit regrowthSetup () () _ _ _
    ⟨4 * pageSize, 1⟩ 1 started left rfl rfl List.mem_cons_self
  exact ⟨_, _, left, rfl, rfl, rfl, rfl, within⟩

/-- All four pages are touched, a second process joins and leaves again.  The
update after the join shrinks the policy and leaves it a limit of two and a half
pages, which the update after the leave does not raise. -/
theorem limit_stays_shrunk :
    ∃ world after : World Unit Unit Unit,
      regrowthSetup.RegroupedRun (fun _ _ => True)
          (regrowthWorld (4 * pageSize)) world ∧
        (world.quota ()).interProc = some ⟨4 * pageSize, 1⟩ ∧
        (PolicyProgram.update 1 ()).run regrowthSetup.handle world =
          .finished () after ∧
        (after.policy ()).kind = .fifo ∧
        (after.quota ()).policies = [()] ∧
        (after.policy ()).staticMaxMemory = 4 * pageSize ∧
        (after.policy ()).dynamicMaxMemory = 10240 := by
  have first : regrowthSetup.RegroupedRun (fun _ _ => True)
      (regrowthWorld (4 * pageSize)) _ :=
    DisturbedRun.initial.call (PolicyProgram.registerPolicy 1 () ())
      (.registerPolicy 1 () ()) (fun _ _ => trivial) rfl
  have second := first.call (regrowthSetup.onSegmentationFault 1 () pageSize true)
    (.fault 1 () pageSize true (by decide)) (fun _ _ => trivial) rfl
  have third := second.call (regrowthSetup.onSegmentationFault 1 () (2 * pageSize) true)
    (.fault 1 () (2 * pageSize) true (by decide)) (fun _ _ => trivial) rfl
  have fourth := third.call (regrowthSetup.onSegmentationFault 1 () (3 * pageSize) true)
    (.fault 1 () (3 * pageSize) true (by decide)) (fun _ _ => trivial) rfl
  have fifth := fourth.call (regrowthSetup.onSegmentationFault 1 () (4 * pageSize) true)
    (.fault 1 () (4 * pageSize) true (by decide)) (fun _ _ => trivial) rfl
  have joined := fifth.disturbed ⟨(), _, 2, rfl, by decide, rfl⟩
  have shrunk := joined.call (PolicyProgram.update 3 ()) (.update 3 ())
    (fun _ _ => trivial) rfl
  have left := shrunk.disturbed ⟨(), _, 1, rfl, by decide, rfl⟩
  exact ⟨_, _, left, rfl, rfl, rfl, rfl, rfl, rfl⟩

end UmmapIo
