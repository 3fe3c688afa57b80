import UmmapIo.Quota.Accounting

/-!
# Updates of a quota

`PolicyQuotaLocal::update` halves the distance of the largest policy to the
average until the sum of the counters is within the maximum.  The limit it gives
to a policy is never more than the policy uses.  Any property that evictions,
smaller rings and such limits keep is therefore kept by an update, and when it
returns the quota is respected.
-/

namespace UmmapIo

variable {M P Q : Type} [Fintype M] [DecidableEq M] [DecidableEq P] [DecidableEq Q]

/-- The notices that an operation sends. -/
def Setup.notices (setup : Setup M P) :
    PolicyOp M P Q → List (P × ListElement M)
  | .evict source mapping segmentId =>
      ((setup.policiesOf mapping).filter (· ≠ source)).map fun policy =>
        (policy, (mapping, segmentId))
  | _ => []

/-- Every notice that the operation sends is for a listed segment. -/
def Setup.NoticesListed (setup : Setup M P) (op : PolicyOp M P Q)
    (world : World M P Q) : Prop :=
  ∀ notice ∈ setup.notices op, notice.2 ∈ (world.policy notice.1).ring

/-- The contract of operations that may stop or wait, and in which every notice
of an eviction is for a listed segment. -/
structure Setup.Lenient (setup : Setup M P)
    (contract : Contract (policySignature M P Q) (World M P Q)) : Prop where
  stops : ∀ message, contract.stops message
  blocks : contract.blocks
  listed : ∀ op world, contract.assumes op world →
    setup.NoticesListed op world

variable {setup : Setup M P} {contract : Contract (policySignature M P Q) (World M P Q)}
variable {world : World M P Q}

/-! ## Evictions -/

variable {element : ListElement M} {post : Unit → World M P Q → Prop}

theorem Setup.Lenient.meets_evict (lenient : setup.Lenient contract) {source : P}
    (accounted : setup.Accounted world)
    (invariant : ∀ op, contract.invariant op world)
    (holds : ∀ after, setup.Evicted source element world after →
      post () after) :
    (PolicyProgram.evict source element).Meets setup.handle contract post
      world := by
  refine Program.Meets.bind (.request (invariant _) (fun _ _ => lenient.blocks) ?_)
  intro allowed answer after replied
  have listed (policy : P) (attached : policy ∈ setup.policiesOf element.1)
      (different : policy ≠ source) : element ∈ (world.policy policy).ring :=
    lenient.listed _ world allowed (policy, element)
      (List.mem_map_of_mem (List.mem_filter.mpr ⟨attached, by simpa⟩))
  obtain ⟨after', ends, evicted⟩ := accounted.consistent.evictSection_ok listed
  obtain ⟨returns, rfl⟩ | ⟨message, fails, _, _⟩ :=
    World.replyUnit_eq_some replied
  · rw [ends] at returns
    cases returns
    exact holds after evicted
  · rw [ends] at fails
    cases fails

/-- A list of evictions ordered by one policy. -/
theorem Setup.Lenient.meets_evictions (lenient : setup.Lenient contract) (source : P)
    (idsToEvict : List (ListElement M)) (kept : World M P Q → Prop)
    (accounted : ∀ state, kept state → setup.Accounted state)
    (invariant : ∀ state, kept state → ∀ op, contract.invariant op state)
    (evicted : ∀ element before after, kept before →
      setup.Evicted source element before after → kept after)
    (holds : kept world) :
    (Program.each (PolicyProgram.evict source) idsToEvict).Meets setup.handle
      contract (fun _ after => kept after) world := by
  refine Program.Meets.each (fun _ => kept) holds ?_
  intro element rest before keeps
  exact lenient.meets_evict (accounted before keeps) (invariant before keeps)
    fun after effect => evicted element before after keeps effect

/-- `shrinkMemory` of one policy keeps what its critical section and its
evictions keep. -/
theorem Setup.Lenient.meets_shrinkMemory (lenient : setup.Lenient contract) (policy : P)
    (kept : World M P Q → Prop)
    (accounted : ∀ state, kept state → setup.Accounted state)
    (invariant : ∀ state, kept state → ∀ op, contract.invariant op state)
    (evicted : ∀ element before after, kept before →
      setup.Evicted policy element before after → kept after)
    (shrunk : ∀ removed state before, kept before →
      (before.policy policy).Updated setup.mapping [] removed state →
        kept (before.setPolicy policy state))
    (holds : kept world) :
    (PolicyProgram.shrinkMemory policy).Meets setup.handle contract
      (fun _ after => kept after) world := by
  refine Program.Meets.bind (.request (invariant world holds _)
    (fun _ _ => lenient.blocks) ?_)
  intro _ answer after replied
  obtain ⟨idsToEvict, ends, rfl⟩ | ⟨message, _, rfl, _⟩ :=
    World.reply_eq_some replied
  · obtain ⟨⟨value, state⟩, shrinks, equal⟩ := Fallible.map_eq_ok.mp ends
    cases equal
    have updated := ((Policy.shrinkMemory_spec
      ((accounted world holds).consistent.balanced policy)
      (setup.space.spacious _)).1 value state shrinks).2
    exact lenient.meets_evictions policy value kept accounted invariant evicted
      (shrunk value state world holds updated)
  · exact lenient.stops message

/-! ## Updates -/

/-- The loop of an update sets this limit. -/
structure Setup.Limiting
    (contract : Contract (policySignature M P Q) (World M P Q))
    (quota : Q) (account : Q → Quota P) (averageMem : Nat) (policy : P) (limit : Nat)
    (world : World M P Q) : Prop where
  allowed : contract.assumes (.setDynamicMaxMemory policy limit) world
  unchanged : world.quota = account
  registered : policy ∈ (account quota).policies
  above : averageMem ≤ limit
  below : limit ≤ (world.policy policy).currentMemory

variable {averageMem : Nat}

/-- The loop of an update keeps what its limits, the critical sections of
`shrinkMemory` and its evictions keep, and ends with the quota respected. -/
theorem Setup.Lenient.meets_updateLoop (lenient : setup.Lenient contract) {quota : Q}
    (account : Q → Quota P) (kept : World M P Q → Prop)
    (average : averageMem * (account quota).policies.length ≤
      (account quota).staticMaxMemory)
    (accounted : ∀ state, kept state → setup.Accounted state)
    (invariant : ∀ state, kept state → ∀ op, contract.invariant op state)
    (evicted : ∀ source element before after, kept before →
      setup.Evicted source element before after → kept after)
    (shrunk : ∀ policy removed state before, kept before →
      (before.policy policy).Updated setup.mapping [] removed state →
        kept (before.setPolicy policy state))
    (limited : ∀ policy limit before, kept before →
      Setup.Limiting contract quota account averageMem policy limit before →
        kept (before.setPolicy policy
          ((before.policy policy).setDynamicMaxMemory limit)))
    (rounds : Nat)
    (holds : kept world ∧ world.quota = account) :
    (PolicyProgram.updateLoop quota averageMem rounds).Meets setup.handle
      contract (fun _ after => kept after ∧ after.WithinQuota quota) world := by
  induction rounds generalizing world with
  | zero =>
      exact Program.Meets.request (invariant world holds.1 _)
        (fun _ _ => lenient.blocks) (fun _ _ _ answer => nomatch answer)
  | succ rounds inductionHypothesis =>
      obtain ⟨keeps, rfl⟩ := holds
      refine Program.Meets.bind (.request (invariant world keeps _)
        (fun _ _ => lenient.blocks) ?_)
      intro _ answer after replied
      obtain ⟨rfl, rfl⟩ := answer_inj replied
      cases memories : world.memories quota with
      | nil => exact ⟨keeps, World.withinQuota_of_memories memories⟩
      | cons first rest =>
          have used := (accounted world keeps).getUsedMemory quota
          rw [memories] at used
          dsimp only
          rw [used]
          split
          · rename_i above
            obtain ⟨registered, chosen, larger⟩ :=
              world.largest memories average above
            refine Program.Meets.bind (.request (invariant world keeps _)
              (fun _ _ => lenient.blocks) ?_)
            intro allowed answer after replied
            obtain ⟨_, rfl⟩ := answer_inj replied
            have small := ((accounted world keeps).consistent.balanced
              (Quota.polMax first (first :: rest)).1).currentMemory_lt
                (setup.space.spacious _)
            obtain ⟨atLeast, atMost⟩ := Quota.shrunkLimit_mem larger (by
              rw [chosen]
              unfold wordModulus at *
              omega)
            have keeps := limited _ _ world keeps
              ⟨allowed, rfl, registered, atLeast, chosen ▸ atMost⟩
            refine (lenient.meets_shrinkMemory _
              (fun state => kept state ∧ state.quota = world.quota)
              (fun state kept => accounted state kept.1)
              (fun state kept => invariant state kept.1) ?_ ?_
              ⟨keeps, rfl⟩).andThen fun _ _ kept => inductionHypothesis kept
            · rintro element before after ⟨kept, same⟩ effect
              exact ⟨evicted _ element before after kept effect,
                effect.quota.trans same⟩
            · rintro removed state before ⟨kept, same⟩ updated
              exact ⟨shrunk _ removed state before kept updated, same⟩
          · rename_i within
            exact ⟨keeps, Nat.le_of_not_lt within⟩

/-- The property is kept by the steps of an update of the quota. -/
structure Setup.Stable (setup : Setup M P)
    (contract : Contract (policySignature M P Q) (World M P Q))
    (quota : Q)
    (good : World M P Q → Prop) : Prop where
  accounted : ∀ state, good state → setup.Accounted state
  invariant : ∀ state, good state → ∀ op, contract.invariant op state
  evicted : ∀ source element before after, good before →
    setup.Evicted source element before after → good after
  shrunk : ∀ policy removed state before, good before →
    (before.policy policy).Updated setup.mapping [] removed state →
      good (before.setPolicy policy state)
  limited : ∀ policy limit before, good before →
    limit ≤ (before.policy policy).currentMemory →
      good (before.setPolicy policy ((before.policy policy).setDynamicMaxMemory limit))
  shared : ∀ before after, good before →
    before.shareQuota quota = .ok after → good after

variable {quota : Q} {good : World M P Q → Prop}

theorem Setup.Stable.meets_updateLoop
    (stable : setup.Stable contract quota good)
    (lenient : setup.Lenient contract) (account : Q → Quota P)
    (average : averageMem * (account quota).policies.length ≤
      (account quota).staticMaxMemory)
    (rounds : Nat)
    (holds : good world ∧ world.quota = account) :
    (PolicyProgram.updateLoop quota averageMem rounds).Meets setup.handle
      contract (fun _ after => good after ∧ after.WithinQuota quota) world :=
  lenient.meets_updateLoop account good average stable.accounted
    stable.invariant stable.evicted stable.shrunk
    (fun policy limit before kept limiting =>
      stable.limited policy limit before kept limiting.below)
    rounds holds

/-- An update that returns leaves the quota respected. -/
theorem Setup.Stable.meets_update
    (stable : setup.Stable contract quota good)
    (lenient : setup.Lenient contract) (rounds : Nat) (holds : good world) :
    (PolicyProgram.update rounds quota).Meets setup.handle contract
      (fun _ after => good after ∧ after.WithinQuota quota) world := by
  refine Program.Meets.bind (.request (stable.invariant world holds _)
    (fun _ _ => lenient.blocks) ?_)
  intro _ answer after replied
  obtain ⟨ends, rfl⟩ | ⟨message, _, rfl, _⟩ := World.replyUnit_eq_some replied
  · have keeps := stable.shared world after holds ends
    refine Program.Meets.bind (.request (stable.invariant after keeps _)
      (fun _ _ => lenient.blocks) ?_)
    intro _ answer state replied
    obtain ⟨rfl, rfl⟩ := answer_inj replied
    refine Program.Meets.when (fun _ => ?_) fun empty => ?_
    · refine stable.meets_updateLoop lenient after.quota ?_ rounds ⟨keeps, rfl⟩
      have length : (after.memories quota).length =
          (after.quota quota).policies.length := List.length_map _
      rw [length]
      exact Nat.div_mul_le_self _ _
    · refine ⟨keeps, World.withinQuota_of_memories ?_⟩
      simpa using empty
  · exact lenient.stops message

/-! ## Operations -/

/-- The operations of a thread on mappings, policies and quotas. -/
inductive Setup.QuotaOperation (setup : Setup M P) :
    PolicyProgram M P Q Unit → Prop
  | fault (rounds : Nat) (mapping : M) (address : Nat) (isWrite : Bool)
      (accepted : (Call.fault address isWrite).Accepted (setup.mapping mapping)) :
      setup.QuotaOperation (setup.onSegmentationFault rounds mapping address isWrite)
  | registerPolicy (rounds : Nat) (quota : Q) (policy : P) :
      setup.QuotaOperation (PolicyProgram.registerPolicy rounds quota policy)
  | unregisterPolicy (rounds : Nat) (quota : Q) (policy : P) :
      setup.QuotaOperation (PolicyProgram.unregisterPolicy rounds quota policy)
  | update (rounds : Nat) (quota : Q) :
      setup.QuotaOperation (PolicyProgram.update rounds quota)

/-- The states between the operations of a run that all meet a condition. -/
abbrev Setup.QuotaRun (setup : Setup M P)
    (condition : PolicyOp M P Q → World M P Q → Prop) (initial : World M P Q) :
    World M P Q → Prop :=
  SequentialRun setup.handle (fun _ => { program | setup.QuotaOperation program })
    condition initial

section

variable (stable : setup.Stable contract quota good) (lenient : setup.Lenient contract)
variable (rounds : Nat) (invariant : ∀ op, contract.invariant op world)
include stable lenient rounds invariant

/-- The end of a registration: new limits, then an update. -/
theorem Setup.Stable.meets_renewal
    (renewed : contract.assumes (.updateNotifyLimit quota) world →
      good (world.updateNotifyLimit quota)) :
    (Section.updateNotifyLimit quota >>= fun _ =>
      PolicyProgram.update rounds quota).Meets setup.handle contract
        (fun _ after => good after ∧ after.WithinQuota quota) world := by
  refine Program.Meets.bind (.request (invariant _) (fun _ _ => lenient.blocks) ?_)
  intro allowed answer after replied
  obtain ⟨_, rfl⟩ := answer_inj replied
  exact stable.meets_update lenient rounds (renewed allowed)

variable {policy : P}

/-- `PolicyQuota::registerPolicy`. -/
theorem Setup.Stable.meets_registerPolicy
    (added : ∀ after, world.addPolicy quota policy = .ok after →
      (∀ op, contract.invariant op after) ∧
        (contract.assumes (.updateNotifyLimit quota) after →
          good (after.updateNotifyLimit quota))) :
    (PolicyProgram.registerPolicy rounds quota policy).Meets setup.handle
      contract (fun _ after => good after ∧ after.WithinQuota quota) world := by
  refine Program.Meets.bind (.request (invariant _) (fun _ _ => lenient.blocks) ?_)
  intro _ answer after replied
  obtain ⟨ends, rfl⟩ | ⟨message, _, rfl, _⟩ := World.replyUnit_eq_some replied
  · obtain ⟨kept, renewed⟩ := added after ends
    exact stable.meets_renewal lenient rounds kept renewed
  · exact lenient.stops message

/-- `PolicyQuota::unregisterPolicy`. -/
theorem Setup.Stable.meets_unregisterPolicy
    (removed : ∀ after, world.removePolicy quota policy = .ok after →
      (∀ op, contract.invariant op after) ∧
        (contract.assumes (.updateNotifyLimit quota) after →
          good (after.updateNotifyLimit quota))) :
    (PolicyProgram.unregisterPolicy rounds quota policy).Meets setup.handle
      contract (fun _ after => good after ∧ after.WithinQuota quota) world := by
  refine Program.Meets.bind (.request (invariant _) (fun _ _ => lenient.blocks) ?_)
  intro _ answer after replied
  obtain ⟨ends, rfl⟩ | ⟨message, _, rfl, _⟩ := World.replyUnit_eq_some replied
  · obtain ⟨kept, renewed⟩ := removed after ends
    exact stable.meets_renewal lenient rounds kept renewed
  · exact lenient.stops message

end

/-- The critical section of a touch of an accepted segment. -/
theorem Setup.Lenient.meets_touch (lenient : setup.Lenient contract) {policy : P}
    {next : Touch M → PolicyProgram M P Q Unit} (accounted : setup.Accounted world)
    (invariant : ∀ op, contract.invariant op world)
    (attached : policy ∈ setup.policiesOf element.1)
    (below : element.2 < (setup.mapping element.1).segments)
    (continues : ∀ touch state,
      contract.assumes (.notifyTouch policy element.1 element.2) world →
      (world.policy policy).Touched setup.mapping element touch state →
        (next touch).Meets setup.handle contract post (world.setPolicy policy state)) :
    (Section.notifyTouch policy element.1 element.2 >>= fun answer =>
      Program.ofExcept answer >>= next).Meets setup.handle contract post
        world := by
  refine Program.Meets.bind (.request (invariant _) (fun _ _ => lenient.blocks) ?_)
  intro allowed answer after replied
  obtain ⟨touch, ends, rfl⟩ | ⟨message, _, rfl, _⟩ :=
    World.reply_eq_some replied
  · obtain ⟨⟨value, state⟩, touches, same⟩ := Fallible.map_eq_ok.mp ends
    cases same
    exact continues value state allowed
      (accounted.consistent.touched attached (accounted.live element.1) below touches)
  · exact lenient.stops message

/-- `Mapping::onSegmentationFault`, if every touch keeps a property. -/
theorem Setup.Lenient.meets_fault (lenient : setup.Lenient contract) {mapping : M}
    {address : Nat} {isWrite : Bool} (rounds : Nat) (kept : World M P Q → Prop)
    (accepted : (Call.fault address isWrite).Accepted (setup.mapping mapping))
    (invariant : ∀ op, contract.invariant op world)
    (mapped : ∀ core, kept (world.setCore mapping core))
    (touches : ∀ policy element state, policy ∈ setup.policiesOf element.1 →
      element.2 < (setup.mapping element.1).segments → kept state →
        (PolicyProgram.notifyTouch rounds policy element).Meets setup.handle
          contract (fun _ after => kept after) state) :
    (setup.onSegmentationFault rounds mapping address isWrite).Meets
      setup.handle contract (fun _ after => kept after) world := by
  obtain ⟨segmentId, below, shape⟩ :=
    setup.onSegmentationFault_eq (Q := Q) accepted rounds
  rw [shape]
  refine ⟨invariant _, fun _ => ⟨fun _ => lenient.blocks, ?_⟩⟩
  intro alreadyDone after replied
  obtain ⟨_, rfl⟩ := answer_inj replied
  refine Program.Meets.when (fun _ => ?_) fun _ => mapped _
  unfold Task.agenda Setup.faultTasks
  rw [Program.each_map]
  refine (Program.Meets.each
    (fun rest state => (∀ policy ∈ rest, policy ∈ setup.policiesOf mapping) ∧
      kept state)
    ⟨fun _ member => member, mapped _⟩ ?_).mono fun _ _ holds => holds.2
  rintro policy rest state ⟨attached, holds⟩
  refine (touches policy (mapping, segmentId) state
    (attached policy List.mem_cons_self) below holds).mono ?_
  exact fun _ _ holds =>
    ⟨fun other member => attached other (List.mem_cons_of_mem _ member), holds⟩

end UmmapIo
