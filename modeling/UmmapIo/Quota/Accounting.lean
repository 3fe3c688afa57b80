import UmmapIo.Lib.Hoare
import UmmapIo.Policy.Tasks

/-!
# The memory that a quota accounts for

A quota adds up the counters of the policies registered to it.  A segment is
counted by the policies of its mapping only, which are at most two, so the sum
does not wrap around.  Evictions and changes of limits never add memory.
-/

namespace UmmapIo

/-! ## Computations of a quota -/

namespace Quota

variable {P : Type}

theorem getUsedMemory_eq {memories : List (P × Nat)}
    (small : weight Prod.snd memories < wordModulus) :
    getUsedMemory memories = weight Prod.snd memories := by
  have adding (memories : List (P × Nat)) (total : Nat)
      (small : total + weight Prod.snd memories < wordModulus) :
      memories.foldl (fun totMem entry => wordAdd totMem entry.2) total =
        total + weight Prod.snd memories := by
    induction memories generalizing total with
    | nil => rfl
    | cons entry rest inductionHypothesis =>
        rw [weight_cons] at small ⊢
        have fits : wordAdd total entry.2 = total + entry.2 :=
          wordAdd_of_lt (by omega)
        rw [List.foldl_cons, fits, inductionHypothesis _ (by omega)]
        omega
  unfold getUsedMemory
  rw [adding memories 0 (by omega), Nat.zero_add]

/-- `polMax` is one of the policies, and no other uses more memory. -/
theorem polMax_spec (first : P × Nat) (memories : List (P × Nat)) :
    (polMax first memories = first ∨ polMax first memories ∈ memories) ∧
      first.2 ≤ (polMax first memories).2 ∧
      ∀ entry ∈ memories, entry.2 ≤ (polMax first memories).2 := by
  unfold polMax
  induction memories generalizing first with
  | nil => simp
  | cons entry rest inductionHypothesis =>
      rw [List.foldl_cons]
      obtain ⟨member, least, largest⟩ :=
        inductionHypothesis (if entry.2 > first.2 then entry else first)
      generalize rest.foldl (fun largest entry =>
        if entry.2 > largest.2 then entry else largest)
        (if entry.2 > first.2 then entry else first) = chosen at *
      have both : first.2 ≤ chosen.2 ∧ entry.2 ≤ chosen.2 := by
        split at least <;> omega
      refine ⟨?_, both.1, ?_⟩
      · split at member
        · rw [List.mem_cons]
          tauto
        · rw [List.mem_cons]
          tauto
      · intro other later
        obtain rfl | later := List.mem_cons.mp later
        · exact both.2
        · exact largest other later

theorem polMax_mem (first : P × Nat) (rest : List (P × Nat)) :
    polMax first (first :: rest) ∈ first :: rest := by
  obtain same | member := (polMax_spec first (first :: rest)).1
  · rw [same]
    exact List.mem_cons_self
  · exact member

/-- The largest policy uses more than the average if all together use more than
their number times the average. -/
theorem average_lt_polMax {first : P × Nat} {rest : List (P × Nat)} {averageMem : Nat}
    (above : averageMem * (first :: rest).length <
      weight Prod.snd (first :: rest)) :
    averageMem < (polMax first (first :: rest)).2 := by
  have largest := (polMax_spec first (first :: rest)).2.2
  by_contra below
  have total := weight_le_length_mul Prod.snd largest
  have bound : (first :: rest).length * (polMax first (first :: rest)).2 ≤
      averageMem * (first :: rest).length := by
    rw [Nat.mul_comm averageMem]
    exact Nat.mul_le_mul_left _ (by omega)
  omega

/-- The new limit of a policy above the average. -/
theorem shrunkLimit_eq {averageMem memory : Nat} (above : averageMem ≤ memory)
    (small : memory < wordModulus) :
    shrunkLimit averageMem memory = averageMem + (memory - averageMem) / 2 := by
  unfold shrunkLimit
  rw [wordSub_of_le above small, wordAdd_of_lt (by omega)]

/-- It is between the average and what the policy uses. -/
theorem shrunkLimit_mem {averageMem memory : Nat} (above : averageMem ≤ memory)
    (small : memory < wordModulus) :
    averageMem ≤ shrunkLimit averageMem memory ∧
      shrunkLimit averageMem memory ≤ memory := by
  rw [shrunkLimit_eq above small]
  omega

end Quota

/-! ## Used memory -/

section Used

variable {M P Q : Type}

/-- The sum of `getCurrentMemory` over the policies registered to a quota. -/
def World.usedMemory (world : World M P Q) (quota : Q) : Nat :=
  weight (fun policy => (world.policy policy).currentMemory)
    (world.quota quota).policies

theorem World.weight_memories (world : World M P Q) (quota : Q) :
    weight Prod.snd (world.memories quota) = world.usedMemory quota := by
  unfold World.memories World.usedMemory weight
  rw [List.map_map]
  rfl

/-- The policies registered to a quota together use at most its maximum. -/
def World.WithinQuota (world : World M P Q) (quota : Q) : Prop :=
  world.usedMemory quota ≤ (world.quota quota).staticMaxMemory

variable {world after : World M P Q} {quota : Q} {policy : P}

/-- A quota without policies is respected. -/
theorem World.withinQuota_of_memories (nothing : world.memories quota = []) :
    world.WithinQuota quota := by
  unfold World.WithinQuota
  rw [← World.weight_memories, nothing]
  exact Nat.zero_le _

/-- The largest policy of a quota that is not respected uses at least the
average. -/
theorem World.largest (world : World M P Q) {averageMem : Nat} {first : P × Nat}
    {rest : List (P × Nat)}
    (memories : world.memories quota = first :: rest)
    (average : averageMem * (world.quota quota).policies.length ≤
      (world.quota quota).staticMaxMemory)
    (above : (world.quota quota).staticMaxMemory < world.usedMemory quota) :
    (Quota.polMax first (first :: rest)).1 ∈ (world.quota quota).policies ∧
      (Quota.polMax first (first :: rest)).2 =
        (world.policy (Quota.polMax first (first :: rest)).1).currentMemory ∧
      averageMem ≤ (Quota.polMax first (first :: rest)).2 := by
  have length : (world.memories quota).length =
      (world.quota quota).policies.length := List.length_map _
  have registered : Quota.polMax first (first :: rest) ∈ world.memories quota := by
    rw [memories]
    exact Quota.polMax_mem first rest
  obtain ⟨policy, inQuota, entry⟩ := List.mem_map.mp registered
  refine ⟨?_, ?_, (Quota.average_lt_polMax ?_).le⟩
  · rw [← entry]
    exact inQuota
  · rw [← entry]
  · rw [← memories, length, World.weight_memories]
    exact Nat.lt_of_le_of_lt average above

/-- No counter grew, and the quotas are the same. -/
structure World.Lowers (before after : World M P Q) : Prop where
  memory : ∀ policy, (after.policy policy).currentMemory ≤
    (before.policy policy).currentMemory
  quota : after.quota = before.quota

theorem World.Lowers.withinQuota (lowers : world.Lowers after)
    (within : world.WithinQuota quota) :
    after.WithinQuota quota := by
  have total : after.usedMemory quota ≤ world.usedMemory quota := by
    unfold World.usedMemory
    rw [lowers.quota]
    exact List.sum_le_sum fun policy _ => lowers.memory policy
  unfold World.WithinQuota at *
  rw [lowers.quota]
  exact Nat.le_trans total within

/-- Only limits and quotas of policies changed. -/
structure World.Reset (before after : World M P Q) : Prop where
  policy : ∀ policy, ∃ dynamicMaxMemory policyQuota,
    after.policy policy =
      { before.policy policy with
        dynamicMaxMemory := dynamicMaxMemory
        policyQuota := policyQuota }
  live : after.live = before.live

theorem World.Reset.currentMemory (reset : world.Reset after) (policy : P) :
    (after.policy policy).currentMemory =
      (world.policy policy).currentMemory := by
  obtain ⟨limit, quota, equal⟩ := reset.policy policy
  rw [equal]

variable [DecidableEq P]

/-- A change of a policy that is not registered to the quota. -/
theorem World.usedMemory_setPolicy_of_notMem (world : World M P Q) (state : Policy M Q)
    (absent : policy ∉ (world.quota quota).policies) :
    (world.setPolicy policy state).usedMemory quota =
      world.usedMemory quota := by
  unfold World.usedMemory weight
  rw [World.setPolicy_quota]
  congr 1
  apply List.map_congr_left
  intro other member
  rw [World.setPolicy_policy_of_ne]
  rintro rfl
  exact absent member

/-- A change of a policy that is registered to the quota. -/
theorem World.usedMemory_setPolicy_of_mem (world : World M P Q) (state : Policy M Q)
    (nodup : (world.quota quota).policies.Nodup)
    (registered : policy ∈ (world.quota quota).policies) :
    (world.setPolicy policy state).usedMemory quota +
        (world.policy policy).currentMemory =
      world.usedMemory quota + state.currentMemory := by
  have split (memory : P → Nat) := weight_erase memory registered
  have before := split fun other => (world.policy other).currentMemory
  have after := split fun other =>
    ((world.setPolicy policy state).policy other).currentMemory
  have others : weight
      (fun other => ((world.setPolicy policy state).policy other).currentMemory)
        ((world.quota quota).policies.erase policy) =
      weight (fun other => (world.policy other).currentMemory)
        ((world.quota quota).policies.erase policy) := by
    unfold weight
    congr 1
    apply List.map_congr_left
    intro other member
    rw [World.setPolicy_policy_of_ne]
    exact (nodup.mem_erase_iff.mp member).1
  rw [World.setPolicy_policy_self] at after
  unfold World.usedMemory
  rw [World.setPolicy_quota]
  omega

/-- A new limit of one policy. -/
theorem World.Reset.setDynamicMaxMemory (world : World M P Q) (policy : P)
    (limit : Nat) :
    world.Reset (world.setPolicy policy
      ((world.policy policy).setDynamicMaxMemory limit)) where
  policy := by
    intro other
    by_cases same : other = policy
    · rw [same, World.setPolicy_policy_self]
      exact ⟨limit, _, rfl⟩
    · rw [World.setPolicy_policy_of_ne _ same]
      exact ⟨_, _, rfl⟩
  live := rfl

/-- `updateNotifyLimit` gives the registered policies the maximum of the
quota. -/
theorem World.updateNotifyLimit_policy (world : World M P Q) (quota : Q) (policy : P) :
    (world.updateNotifyLimit quota).policy policy =
      if policy ∈ (world.quota quota).policies then
        (world.policy policy).setDynamicMaxMemory (world.quota quota).staticMaxMemory
      else world.policy policy := by
  have giving (policies : List P) (limit : Nat) (current : World M P Q) :
      (policies.foldl (fun current policy =>
        current.setPolicy policy
          ((current.policy policy).setDynamicMaxMemory limit)) current).policy
        policy =
      if policy ∈ policies then
        (current.policy policy).setDynamicMaxMemory limit
      else current.policy policy := by
    induction policies generalizing current with
    | nil => simp
    | cons first rest inductionHypothesis =>
        rw [List.foldl_cons, inductionHypothesis]
        by_cases same : policy = first
        · subst same
          simp [Policy.setDynamicMaxMemory]
        · rw [World.setPolicy_policy_of_ne _ same]
          simp [same]
  exact giving _ _ world

theorem World.updateNotifyLimit_rest (world : World M P Q) (quota : Q) :
    (world.updateNotifyLimit quota).live = world.live ∧
      (world.updateNotifyLimit quota).quota = world.quota := by
  have giving (policies : List P) (limit : Nat) (current : World M P Q) :
      (policies.foldl (fun current policy =>
        current.setPolicy policy
          ((current.policy policy).setDynamicMaxMemory limit)) current).live =
        current.live ∧
      (policies.foldl (fun current policy =>
        current.setPolicy policy
          ((current.policy policy).setDynamicMaxMemory limit)) current).quota =
        current.quota := by
    induction policies generalizing current with
    | nil => exact ⟨rfl, rfl⟩
    | cons first rest inductionHypothesis =>
        exact inductionHypothesis _
  exact giving _ _ world

theorem World.Reset.updateNotifyLimit (world : World M P Q) (quota : Q) :
    world.Reset (world.updateNotifyLimit quota) where
  policy := by
    intro policy
    rw [World.updateNotifyLimit_policy]
    split
    · exact ⟨_, _, rfl⟩
    · exact ⟨_, _, rfl⟩
  live := (world.updateNotifyLimit_rest quota).1

variable [DecidableEq Q]

/-- Change the link of a policy and the list of a quota. -/
def World.relink (world : World M P Q) (quota : Q) (policy : P) (link : Option Q)
    (policies : List P) : World M P Q :=
  (world.setPolicy policy
    { world.policy policy with policyQuota := link }).setQuota quota
      { world.quota quota with policies := policies }

theorem World.relink_policy (world : World M P Q) (quota : Q) (policy : P)
    (link : Option Q) (policies : List P) (other : P) :
    (world.relink quota policy link policies).policy other =
      { world.policy other with
        policyQuota :=
          if other = policy then link else (world.policy other).policyQuota } := by
  unfold World.relink
  rw [World.setQuota_policy]
  by_cases same : other = policy
  · rw [same, World.setPolicy_policy_self, if_pos rfl]
  · rw [World.setPolicy_policy_of_ne _ same, if_neg same]

theorem World.relink_quota (world : World M P Q) (quota : Q) (policy : P)
    (link : Option Q) (policies : List P) (other : Q) :
    (world.relink quota policy link policies).quota other =
      { world.quota other with
        policies :=
          if other = quota then policies else (world.quota other).policies } := by
  unfold World.relink
  rw [World.setQuota_quota]
  by_cases same : other = quota
  · rw [same, Function.update_self, if_pos rfl]
  · rw [Function.update_of_ne same, if_neg same]
    rfl

theorem World.Reset.relink (world : World M P Q) (quota : Q) (policy : P)
    (link : Option Q) (policies : List P) :
    world.Reset (world.relink quota policy link policies) where
  policy := by
    intro other
    rw [World.relink_policy]
    exact ⟨_, _, rfl⟩
  live := rfl

theorem World.addPolicy_ok
    (added : world.addPolicy quota policy = .ok after) :
    (world.policy policy).policyQuota = none ∧
      after = world.relink quota policy (some quota)
        ((world.quota quota).policies ++ [policy]) := by
  unfold World.addPolicy at added
  obtain ⟨linked, sets, same⟩ := Fallible.bind_eq_ok.mp added
  unfold Policy.setQuota at sets
  split at sets
  · rename_i free
    cases sets
    cases same
    refine ⟨?_, rfl⟩
    simpa using free
  · cases sets

theorem World.removePolicy_ok
    (removed : world.removePolicy quota policy = .ok after) :
    policy ∈ (world.quota quota).policies ∧
      after = world.relink quota policy none
        ((world.quota quota).policies.erase policy) := by
  unfold World.removePolicy at removed
  split at removed
  · rename_i member
    obtain ⟨unlinked, sets, same⟩ := Fallible.bind_eq_ok.mp removed
    cases sets
    cases same
    exact ⟨member, rfl⟩
  · cases removed

end Used

/-! ## Accounts -/

section Accounted

variable {M P Q : Type} [Fintype M]

/-- What holds of policies and quotas between any two critical sections. -/
structure Setup.Accounted (setup : Setup M P) (world : World M P Q) : Prop where
  consistent : setup.Consistent world
  live : ∀ mapping, world.live mapping = true
  nodup : ∀ quota, (world.quota quota).policies.Nodup
  linked : ∀ quota policy, policy ∈ (world.quota quota).policies ↔
    (world.policy policy).policyQuota = some quota

variable {setup : Setup M P} {world after : World M P Q}

theorem Setup.Started.accounted (started : setup.Started world) :
    setup.Accounted world where
  consistent := started.consistent
  live := started.live
  nodup := by
    intro quota
    rw [started.quota]
    exact List.nodup_nil
  linked := by
    intro quota policy
    rw [started.quota, (started.policy policy).fresh.policyQuota]
    simp

theorem Setup.length_policiesOf (setup : Setup M P) (mapping : M) :
    (setup.policiesOf mapping).length ≤ 2 := by
  unfold Setup.policiesOf
  cases setup.localPolicy mapping <;> cases setup.globalPolicy mapping <;> simp

/-- The sum of the counters does not wrap around. -/
theorem Setup.Accounted.usedMemory_lt [DecidableEq M]
    (accounted : setup.Accounted world) (quota : Q) :
    world.usedMemory quota < wordModulus := by
  have balanced := accounted.consistent.balanced
  have counters : world.usedMemory quota =
      weight (fun policy => weight (Policy.elementSize setup.mapping)
        (world.policy policy).ring) (world.quota quota).policies := by
    unfold World.usedMemory weight
    congr 1
    exact List.map_congr_left fun policy _ => (balanced policy).counter
  have bound := weight_weight_le (Policy.elementSize setup.mapping)
    (fun policy => (world.policy policy).ring)
    (Policy.allElements setup.mapping) 2
    (fun policy _ => (balanced policy).nodup)
    (fun policy _ element listed =>
      Policy.mem_allElements.mpr ((balanced policy).stored element listed).2)
    (fun element _ => by
      refine Nat.le_trans (List.Subperm.length_le ?_)
        (setup.length_policiesOf element.1)
      apply ((accounted.nodup quota).filter _).subperm
      intro policy member
      have listed : element ∈ (world.policy policy).ring := by
        simpa using (List.mem_filter.mp member).2
      have registered := ((balanced policy).stored element listed).1
      exact ((accounted.consistent.registered policy element.1).mp registered).1)
  rw [Policy.sum_allElements, ← counters] at bound
  have space := setup.space
  unfold AddressSpace wordModulus at *
  omega

theorem Setup.Accounted.getUsedMemory [DecidableEq M]
    (accounted : setup.Accounted world) (quota : Q) :
    Quota.getUsedMemory (world.memories quota) = world.usedMemory quota := by
  have small := accounted.usedMemory_lt quota
  rw [← World.weight_memories] at small ⊢
  exact Quota.getUsedMemory_eq small

theorem Setup.Consistent.reset (consistent : setup.Consistent world)
    (reset : world.Reset after) :
    setup.Consistent after where
  balanced := by
    intro policy
    obtain ⟨limit, quota, equal⟩ := reset.policy policy
    obtain ⟨nodup, stored, counter⟩ := consistent.balanced policy
    rw [equal]
    exact ⟨nodup, stored, counter⟩
  sound := by
    intro policy
    obtain ⟨limit, quota, equal⟩ := reset.policy policy
    rw [equal]
    exact consistent.sound policy
  registered := by
    intro policy mapping
    obtain ⟨limit, quota, equal⟩ := reset.policy policy
    rw [equal, reset.live]
    exact consistent.registered policy mapping
  served := by
    intro policy
    obtain ⟨limit, quota, equal⟩ := reset.policy policy
    rw [equal]
    exact consistent.served policy

/-- A change of a quota that keeps its list of policies. -/
theorem Setup.Accounted.setQuota [DecidableEq Q] {quota : Q} {state : Quota P}
    (accounted : setup.Accounted world)
    (kept : state.policies = (world.quota quota).policies) :
    setup.Accounted (world.setQuota quota state) := by
  have policies (other : Q) :
      ((world.setQuota quota state).quota other).policies =
        (world.quota other).policies := by
    rw [World.setQuota_quota]
    by_cases same : other = quota
    · rw [same, Function.update_self]
      exact kept
    · rw [Function.update_of_ne same]
  obtain ⟨balanced, sound, registered, served⟩ := accounted.consistent
  refine ⟨⟨balanced, sound, registered, served⟩, accounted.live, ?_, ?_⟩
  · intro other
    rw [policies]
    exact accounted.nodup other
  · intro other member
    rw [policies]
    exact accounted.linked other member

theorem Setup.Accounted.shareQuota [DecidableEq Q] {quota : Q}
    (accounted : setup.Accounted world)
    (shared : world.shareQuota quota = .ok after) :
    setup.Accounted after := by
  obtain ⟨staticMaxMemory, rfl⟩ := World.shareQuota_ok shared
  exact accounted.setQuota rfl

variable [DecidableEq P]

theorem Setup.Accounted.updateNotifyLimit (accounted : setup.Accounted world)
    (quota : Q) :
    setup.Accounted (world.updateNotifyLimit quota) where
  consistent := accounted.consistent.reset (.updateNotifyLimit world quota)
  live := by
    rw [(world.updateNotifyLimit_rest quota).1]
    exact accounted.live
  nodup := by
    rw [(world.updateNotifyLimit_rest quota).2]
    exact accounted.nodup
  linked := by
    intro other policy
    rw [(world.updateNotifyLimit_rest quota).2, accounted.linked,
      World.updateNotifyLimit_policy]
    split
    · rfl
    · rfl

/-- A step of one policy that changes no setting. -/
theorem Setup.Accounted.setPolicy (accounted : setup.Accounted world) {policy : P}
    {added removed : List (ListElement M)} {state : Policy M Q}
    (updated : (world.policy policy).Updated setup.mapping added removed state) :
    setup.Accounted (world.setPolicy policy state) where
  consistent := accounted.consistent.setPolicy updated
  live := accounted.live
  nodup := accounted.nodup
  linked := by
    intro quota other
    rw [World.setPolicy_quota, accounted.linked]
    by_cases same : other = policy
    · rw [same, World.setPolicy_policy_self, updated.settings]
    · rw [World.setPolicy_policy_of_ne _ same]

theorem World.Lowers.of_updated (accounted : setup.Accounted world) {policy : P}
    {removed : List (ListElement M)} {state : Policy M Q}
    (updated : (world.policy policy).Updated setup.mapping [] removed state) :
    world.Lowers (world.setPolicy policy state) where
  memory := by
    intro other
    by_cases same : other = policy
    · rw [same, World.setPolicy_policy_self]
      exact updated.currentMemory_le (accounted.consistent.balanced policy)
    · rw [World.setPolicy_policy_of_ne _ same]
  quota := rfl

theorem Setup.Accounted.limited (accounted : setup.Accounted world) (policy : P)
    (limit : Nat) :
    setup.Accounted (world.setPolicy policy
      ((world.policy policy).setDynamicMaxMemory limit)) where
  consistent :=
    accounted.consistent.reset (.setDynamicMaxMemory world policy limit)
  live := accounted.live
  nodup := accounted.nodup
  linked := by
    intro quota other
    rw [World.setPolicy_quota, accounted.linked]
    by_cases same : other = policy
    · rw [same, World.setPolicy_policy_self]
      rfl
    · rw [World.setPolicy_policy_of_ne _ same]

variable [DecidableEq M]

theorem Setup.Accounted.evicted (accounted : setup.Accounted world) {source : P}
    {element : ListElement M}
    (evicted : setup.Evicted source element world after) :
    setup.Accounted after where
  consistent := accounted.consistent.evicted evicted
  live := by
    rw [evicted.live]
    exact accounted.live
  nodup := by
    rw [evicted.quota]
    exact accounted.nodup
  linked := by
    intro quota policy
    rw [evicted.quota, evicted.settings]
    exact accounted.linked quota policy

theorem World.Lowers.of_evicted (accounted : setup.Accounted world) {source : P}
    {element : ListElement M}
    (evicted : setup.Evicted source element world after) :
    world.Lowers after where
  memory := by
    intro policy
    by_cases notified : policy ∈ setup.policiesOf element.1 ∧ policy ≠ source
    · exact (evicted.notified policy notified.1 notified.2).currentMemory_le
        (accounted.consistent.balanced policy)
    · rw [evicted.others policy (by tauto)]
  quota := evicted.quota

end Accounted

/-! ## Registrations -/

section Registration

variable {M P Q : Type} [Fintype M] [DecidableEq P]
variable {setup : Setup M P} {world after : World M P Q}

variable [DecidableEq Q] {quota : Q} {policy : P}

theorem Setup.Accounted.addPolicy (accounted : setup.Accounted world)
    (added : world.addPolicy quota policy = .ok after) :
    setup.Accounted after := by
  obtain ⟨free, rfl⟩ := World.addPolicy_ok added
  have absent (other : Q) : policy ∉ (world.quota other).policies := by
    rw [accounted.linked, free]
    simp
  refine ⟨accounted.consistent.reset (.relink ..), accounted.live, ?_, ?_⟩
  · intro other
    rw [World.relink_quota]
    split
    · refine List.nodup_append.mpr ⟨accounted.nodup quota,
        List.nodup_singleton policy, ?_⟩
      intro member registered last single
      rw [List.mem_singleton.mp single]
      rintro rfl
      exact absent quota registered
    · exact accounted.nodup other
  · intro other member
    have linked := accounted.linked other member
    rw [World.relink_quota, World.relink_policy]
    by_cases self : other = quota
    · subst self
      by_cases same : member = policy
      · simp [same]
      · simp [same, linked]
    · by_cases same : member = policy
      · simp [same, self, absent other, Ne.symm self]
      · simp [same, self, linked]

theorem Setup.Accounted.removePolicy (accounted : setup.Accounted world)
    (removed : world.removePolicy quota policy = .ok after) :
    setup.Accounted after := by
  obtain ⟨registered, rfl⟩ := World.removePolicy_ok removed
  have only := (accounted.linked quota policy).mp registered
  have nodup := accounted.nodup quota
  refine ⟨accounted.consistent.reset (.relink ..), accounted.live, ?_, ?_⟩
  · intro other
    rw [World.relink_quota]
    split
    · exact nodup.erase policy
    · exact accounted.nodup other
  · intro other member
    have linked := accounted.linked other member
    rw [World.relink_quota, World.relink_policy]
    by_cases self : other = quota
    · subst self
      by_cases same : member = policy
      · simp [same, nodup.mem_erase_iff]
      · simp [same, nodup.mem_erase_iff, linked]
    · by_cases same : member = policy
      · rw [same, only] at linked
        simp [same, self, linked, Ne.symm self]
      · simp [same, self, linked]

end Registration

end UmmapIo
