import UmmapIo.Lib.Hoare
import UmmapIo.Policy.Tasks

/-!
# One global policy and the local policies of mappings

All mappings share one global policy, and some have a local policy of their own.
One thread faults and destroys mappings.  A fault may evict for the local policy,
which edits the global list, and then for the global policy, which edits the
local lists of other mappings; between these steps the lists agree up to the
segments in hand.  After each operation, a local list holds exactly the segments
of its mapping that the global list holds.
-/

namespace UmmapIo

/-! ## The policies of the mappings -/

section Shares

variable {M P Q : Type} [Fintype M]

/-- All mappings share one global policy, and no two share a local one. -/
structure Setup.Shares (setup : Setup M P) (globalPolicy : P) : Prop where
  shared : ∀ mapping, setup.globalPolicy mapping = some globalPolicy
  separate : ∀ first second policy, setup.localPolicy first = some policy →
    setup.localPolicy second = some policy → first = second

variable {setup : Setup M P} {globalPolicy localPolicy policy : P} {mapping : M}

theorem Setup.Shares.local_ne (shares : setup.Shares globalPolicy)
    (attached : setup.localPolicy mapping = some localPolicy) :
    localPolicy ≠ globalPolicy := by
  rintro rfl
  exact setup.distinct mapping localPolicy attached (shares.shared mapping)

theorem Setup.Shares.mem_policiesOf (shares : setup.Shares globalPolicy) :
    policy ∈ setup.policiesOf mapping ↔
      setup.localPolicy mapping = some policy ∨ policy = globalPolicy := by
  unfold Setup.policiesOf
  rw [shares.shared]
  simp [Option.mem_toList]

/-- What holds of the policies between any two sections of a fault. -/
structure Setup.Orderly (setup : Setup M P) (world : World M P Q) : Prop where
  consistent : setup.Consistent world
  noQuota : ∀ policy, (world.policy policy).policyQuota = none
  limit : ∀ policy, (world.policy policy).dynamicMaxMemory =
    (world.policy policy).staticMaxMemory
  within : ∀ policy, (world.policy policy).currentMemory ≤
    (world.policy policy).dynamicMaxMemory
  fits : ∀ policy mapping, policy ∈ setup.policiesOf mapping →
    (setup.mapping mapping).segmentSize ≤
      (world.policy policy).dynamicMaxMemory
  registryNodup : ∀ policy, (world.policy policy).storageRegistry.Nodup
  alone : ∀ policy, (world.policy policy).isLocal = true →
    (world.policy policy).storageRegistry.length ≤ 1

variable {world after : World M P Q}

theorem Setup.Started.orderly (started : setup.Started world)
    (shares : setup.Shares globalPolicy)
    (isGlobal : (world.policy globalPolicy).isLocal = false) :
    setup.Orderly world where
  consistent := started.consistent
  noQuota := fun policy => (started.policy policy).fresh.policyQuota
  limit := fun policy => (started.policy policy).fresh.dynamicMaxMemory
  within := by
    intro policy
    rw [(started.policy policy).fresh.currentMemory]
    exact Nat.zero_le _
  fits := fun policy => (started.policy policy).fresh.fits
  registryNodup := fun policy => (started.policy policy).fresh.registryNodup
  alone := by
    intro policy isLocal
    have nodup := (started.policy policy).fresh.registryNodup
    have owner (mapping : M)
        (member : mapping ∈ (world.policy policy).storageRegistry) :
        setup.localPolicy mapping = some policy := by
      rw [(started.policy policy).fresh.registered, shares.mem_policiesOf] at member
      refine member.resolve_right ?_
      rintro rfl
      rw [isGlobal] at isLocal
      cases isLocal
    match registry : (world.policy policy).storageRegistry with
    | [] => exact Nat.zero_le _
    | [_] => exact Nat.le_refl _
    | first :: second :: _ =>
        rw [registry] at nodup owner
        have same := shares.separate first second policy
          (owner first (by simp)) (owner second (by simp))
        simp [same] at nodup

/-- A policy serves the mappings that use it. -/
theorem Setup.Orderly.serves (orderly : setup.Orderly world)
    (attached : policy ∈ setup.policiesOf mapping)
    (live : world.live mapping = true) :
    (world.policy policy).Serves mapping := by
  have registered := (orderly.consistent.registered policy mapping).mpr ⟨attached, live⟩
  refine ⟨registered, ?_⟩
  intro isLocal
  have alone := orderly.alone policy isLocal
  match registry : (world.policy policy).storageRegistry with
  | [] =>
      rw [registry] at registered
      cases registered
  | [owner] =>
      rw [registry, List.mem_singleton] at registered
      rw [registered]
  | _ :: _ :: _ =>
      rw [registry] at alone
      simp at alone

theorem Setup.Orderly.of_settings (orderly : setup.Orderly world)
    (consistent : setup.Consistent after)
    (settings : ∀ policy, ∃ registry,
      registry.Sublist (world.policy policy).storageRegistry ∧
        (after.policy policy).toPolicySettings =
          { (world.policy policy).toPolicySettings with storageRegistry := registry })
    (within : ∀ policy, (after.policy policy).currentMemory ≤
      (world.policy policy).dynamicMaxMemory) :
    setup.Orderly after := by
  refine ⟨consistent, ?_, ?_, ?_, ?_, ?_, ?_⟩
  all_goals
    intro policy
    obtain ⟨registry, sublist, same⟩ := settings policy
    rw [same]
  · exact orderly.noQuota policy
  · exact orderly.limit policy
  · exact within policy
  · exact orderly.fits policy
  · exact (orderly.registryNodup policy).sublist sublist
  · exact fun isLocal => sublist.length_le.trans (orderly.alone policy isLocal)

variable [DecidableEq M] [DecidableEq P] {element : ListElement M}

/-- An eviction. -/
theorem Setup.Orderly.evicted (orderly : setup.Orderly world) {source : P}
    (evicted : setup.Evicted source element world after) :
    setup.Orderly after := by
  refine orderly.of_settings (orderly.consistent.evicted evicted)
    (fun policy => ⟨_, .refl _, evicted.settings policy⟩) ?_
  intro policy
  refine Nat.le_trans ?_ (orderly.within policy)
  by_cases notified : policy ∈ setup.policiesOf element.1 ∧ policy ≠ source
  · exact (evicted.notified policy notified.1 notified.2).currentMemory_le
      (orderly.consistent.balanced policy)
  · rw [evicted.others policy (by tauto)]

/-- A touch. -/
theorem Setup.Orderly.touched (orderly : setup.Orderly world) {touch : Touch M}
    {state : Policy M Q}
    (touched : (world.policy policy).Touched setup.mapping element touch state) :
    setup.Orderly (world.setPolicy policy state) := by
  refine orderly.of_settings (orderly.consistent.setPolicy touched.toUpdated) ?_ ?_
  · intro other
    refine ⟨_, .refl _, ?_⟩
    by_cases same : other = policy
    · rw [same, World.setPolicy_policy_self, touched.settings]
    · rw [World.setPolicy_policy_of_ne _ same]
  · intro other
    by_cases same : other = policy
    · rw [same, World.setPolicy_policy_self]
      exact touched.within
    · rw [World.setPolicy_policy_of_ne _ same]
      exact orderly.within other

end Shares

/-! ## Agreement of the lists -/

section Matched

variable {M P Q : Type} [Fintype M]

/-- The local lists agree with the global one up to the segments in hand: `half`
was touched in its local policy only, and the pending ones have left a list and
are yet to be evicted. -/
structure Matched (setup : Setup M P) (globalPolicy : P)
    (half localPending globalPending : List (ListElement M))
    (world : World M P Q) : Prop where
  orderly : setup.Orderly world
  agree : ∀ element localPolicy,
    setup.localPolicy element.1 = some localPolicy →
      (element ∈ (world.policy localPolicy).ring ∨ element ∈ localPending ↔
        element ∈ (world.policy globalPolicy).ring ∨
          element ∈ globalPending ∨ element ∈ half)
  localGone : ∀ element ∈ localPending, element ∉ half ∧
    ∀ localPolicy, setup.localPolicy element.1 = some localPolicy →
      element ∉ (world.policy localPolicy).ring
  globalGone : ∀ element ∈ globalPending,
    element ∉ (world.policy globalPolicy).ring
  localNodup : localPending.Nodup
  globalNodup : globalPending.Nodup

variable {setup : Setup M P} {globalPolicy localPolicy : P}
variable {half pending : List (ListElement M)} {world : World M P Q}

theorem Matched.of_started (started : setup.Started world)
    (shares : setup.Shares globalPolicy)
    (isGlobal : (world.policy globalPolicy).isLocal = false) :
    Matched setup globalPolicy [] [] [] world where
  orderly := started.orderly shares isGlobal
  agree := by
    intro element localPolicy _
    rw [(started.policy localPolicy).fresh.ring,
      (started.policy globalPolicy).fresh.ring]
    simp
  localGone := fun _ absurdity => nomatch absurdity
  globalGone := fun _ absurdity => nomatch absurdity
  localNodup := List.nodup_nil
  globalNodup := List.nodup_nil

variable [DecidableEq M]

theorem Matched.setCore {localPending globalPending : List (ListElement M)}
    (matched : Matched setup globalPolicy half localPending globalPending world)
    (mapping : M) (core : Core) :
    Matched setup globalPolicy half localPending globalPending
      (world.setCore mapping core) := by
  obtain ⟨⟨⟨balanced, sound, registered, served⟩, noQuota, limit, within, fits,
    registryNodup, alone⟩, agree, localGone, globalGone, localNodup,
    globalNodup⟩ := matched
  exact ⟨⟨⟨balanced, sound, registered, served⟩, noQuota, limit, within, fits,
    registryNodup, alone⟩, agree, localGone, globalGone, localNodup, globalNodup⟩

variable [DecidableEq P] {touched : ListElement M} {touch : Touch M}
variable {state : Policy M Q}

theorem Matched.touchLocal
    (matched : Matched setup globalPolicy [] [] [] world)
    (shares : setup.Shares globalPolicy)
    (attached : setup.localPolicy touched.1 = some localPolicy)
    (effect : (world.policy localPolicy).Touched setup.mapping touched touch state) :
    (∀ victim ∈ touch.idsToEvict,
      setup.localPolicy victim.1 = some localPolicy) ∧
    Matched setup globalPolicy [touched] touch.idsToEvict []
      (world.setPolicy localPolicy state) := by
  have different := shares.local_ne attached
  have keeps : touched ∉ touch.idsToEvict :=
    effect.keeps (matched.orderly.fits localPolicy touched.1
      (shares.mem_policiesOf.mpr (Or.inl attached)))
  have own (victim : ListElement M) (member : victim ∈ touch.idsToEvict) :
      setup.localPolicy victim.1 = some localPolicy := by
    have listed : victim ∈ (world.policy localPolicy).ring := by
      refine ((effect.listed victim).mp (Or.inr member)).resolve_left ?_
      rw [List.mem_singleton]
      rintro rfl
      exact keeps member
    have registered :=
      ((matched.orderly.consistent.balanced localPolicy).stored victim listed).1
    rw [matched.orderly.consistent.registered, shares.mem_policiesOf] at registered
    exact registered.1.resolve_right different
  refine ⟨own, matched.orderly.touched effect, ?_, ?_,
    (fun _ absurdity => nomatch absurdity), effect.nodup, List.nodup_nil⟩
  · intro element owner attached'
    have before := matched.agree element owner attached'
    simp only [List.not_mem_nil, or_false, false_or] at before ⊢
    rw [World.setPolicy_policy_of_ne _ different.symm]
    by_cases same : owner = localPolicy
    · subst same
      rw [World.setPolicy_policy_self, effect.listed, before]
      exact Or.comm
    · have notVictim : element ∉ touch.idsToEvict := by
        intro member
        rw [own element member] at attached'
        exact same (Option.some.inj attached').symm
      have notTouched : element ∉ [touched] := by
        rw [List.mem_singleton]
        rintro rfl
        rw [attached] at attached'
        exact same (Option.some.inj attached').symm
      rw [World.setPolicy_policy_of_ne _ same, or_iff_left notVictim,
        or_iff_left notTouched]
      exact before
  · intro victim member
    refine ⟨?_, ?_⟩
    · rw [List.mem_singleton]
      rintro rfl
      exact keeps member
    · intro owner attached'
      rw [own victim member] at attached'
      obtain rfl := Option.some.inj attached'
      rw [World.setPolicy_policy_self]
      exact effect.unlisted victim member

/-- A touch of the global policy, after that of the local one if there is
one. -/
theorem Matched.touchGlobal
    (matched : Matched setup globalPolicy half [] [] world)
    (shares : setup.Shares globalPolicy)
    (inHand : ∀ element localPolicy,
      setup.localPolicy element.1 = some localPolicy →
        (element ∈ half ↔ element = touched))
    (effect : (world.policy globalPolicy).Touched setup.mapping touched touch state) :
    Matched setup globalPolicy [] [] touch.idsToEvict
      (world.setPolicy globalPolicy state) := by
  refine ⟨matched.orderly.touched effect, ?_,
    (fun _ absurdity => nomatch absurdity), ?_, List.nodup_nil, effect.nodup⟩
  · intro element owner attached
    have before := matched.agree element owner attached
    have after := effect.listed element
    simp only [List.not_mem_nil, List.mem_singleton, or_false, false_or]
      at before after ⊢
    rw [World.setPolicy_policy_self,
      World.setPolicy_policy_of_ne _ (shares.local_ne attached), before, after,
      inHand element owner attached]
    exact Or.comm
  · intro victim member
    rw [World.setPolicy_policy_self]
    exact effect.unlisted victim member

variable {victim : ListElement M}

/-- An eviction ordered by a local policy. -/
theorem Matched.evictLocal
    (matched : Matched setup globalPolicy half (victim :: pending) [] world)
    (shares : setup.Shares globalPolicy)
    (attached : setup.localPolicy victim.1 = some localPolicy) :
    ∃ after,
      setup.evictSection localPolicy victim.1 victim.2 world = .ok after ∧
        setup.Evicted localPolicy victim world after ∧
        Matched setup globalPolicy half pending [] after := by
  have gone := matched.localGone victim List.mem_cons_self
  have nodup := List.nodup_cons.mp matched.localNodup
  have listed : victim ∈ (world.policy globalPolicy).ring := by
    have before := (matched.agree victim localPolicy attached).mp
      (Or.inr List.mem_cons_self)
    simpa [gone.1] using before
  have only (policy : P) (member : policy ∈ setup.policiesOf victim.1)
      (different : policy ≠ localPolicy) : policy = globalPolicy := by
    refine (shares.mem_policiesOf.mp member).resolve_left ?_
    intro same
    rw [attached] at same
    exact different (Option.some.inj same).symm
  obtain ⟨after, ends, evicted⟩ := matched.orderly.consistent.evictSection_ok
    fun policy member different => only policy member different ▸ listed
  have globalUpdated := evicted.notified globalPolicy
    (shares.mem_policiesOf.mpr (Or.inr rfl)) (shares.local_ne attached).symm
  have others {owner : P} {mapping : M}
      (attached' : setup.localPolicy mapping = some owner) :
      after.policy owner = world.policy owner := by
    apply evicted.others
    by_cases same : owner = localPolicy
    · exact Or.inr same
    · refine Or.inl fun member => ?_
      exact shares.local_ne attached' (only owner member same)
  refine ⟨after, ends, evicted, matched.orderly.evicted evicted, ?_, ?_,
    (fun _ absurdity => nomatch absurdity), nodup.2, List.nodup_nil⟩
  · intro element owner attached'
    have before := matched.agree element owner attached'
    have removed := globalUpdated.listed element
    have unlisted := globalUpdated.unlisted element
    simp only [List.not_mem_nil, List.mem_cons, or_false, false_or]
      at before removed unlisted ⊢
    rw [others attached']
    by_cases same : element = victim
    · subst same
      simp [gone.1, gone.2 owner attached', nodup.1, unlisted rfl]
    · simp only [same, or_false, false_or] at before removed
      rw [before, removed]
  · intro element member
    have pendingGone := matched.localGone element (List.mem_cons_of_mem _ member)
    refine ⟨pendingGone.1, ?_⟩
    intro owner attached'
    rw [others attached']
    exact pendingGone.2 owner attached'

/-- An eviction ordered by the global policy. -/
theorem Matched.evictGlobal
    (matched : Matched setup globalPolicy [] [] (victim :: pending) world)
    (shares : setup.Shares globalPolicy) :
    ∃ after,
      setup.evictSection globalPolicy victim.1 victim.2 world = .ok after ∧
        setup.Evicted globalPolicy victim world after ∧
        Matched setup globalPolicy [] [] pending after := by
  have gone := matched.globalGone victim List.mem_cons_self
  have nodup := List.nodup_cons.mp matched.globalNodup
  have own (policy : P) (member : policy ∈ setup.policiesOf victim.1)
      (different : policy ≠ globalPolicy) :
      setup.localPolicy victim.1 = some policy :=
    (shares.mem_policiesOf.mp member).resolve_right different
  have listed (policy : P) (member : policy ∈ setup.policiesOf victim.1)
      (different : policy ≠ globalPolicy) :
      victim ∈ (world.policy policy).ring := by
    have before := (matched.agree victim policy
      (own policy member different)).mpr (Or.inr (Or.inl List.mem_cons_self))
    simpa using before
  obtain ⟨after, ends, evicted⟩ :=
    matched.orderly.consistent.evictSection_ok listed
  have globalSame : after.policy globalPolicy = world.policy globalPolicy :=
    evicted.others globalPolicy (Or.inr rfl)
  refine ⟨after, ends, evicted, matched.orderly.evicted evicted, ?_,
    (fun _ absurdity => nomatch absurdity), ?_, List.nodup_nil, nodup.2⟩
  · intro element owner attached
    have before := matched.agree element owner attached
    have ownerNe := shares.local_ne attached
    simp only [List.not_mem_nil, List.mem_cons, or_false] at before ⊢
    rw [globalSame]
    by_cases notified : setup.localPolicy victim.1 = some owner
    · have updated := evicted.notified owner
        (shares.mem_policiesOf.mpr (Or.inl notified)) ownerNe
      have removed := updated.listed element
      have unlisted := updated.unlisted element
      simp only [List.not_mem_nil, List.mem_singleton, false_or] at removed unlisted
      by_cases same : element = victim
      · subst same
        simp [gone, nodup.1, unlisted rfl]
      · simp only [same, or_false, false_or] at before removed
        rw [removed, before]
    · have same : element ≠ victim := by
        rintro rfl
        exact notified attached
      have unchanged : after.policy owner = world.policy owner := by
        apply evicted.others
        refine Or.inl fun member => ?_
        exact notified (own owner member ownerNe)
      rw [unchanged, before]
      simp [same]
  · intro element member
    rw [globalSame]
    exact matched.globalGone element (List.mem_cons_of_mem _ member)

end Matched

/-! ## Destruction of a mapping -/

section Freeing

variable {M P Q : Type} [Fintype M] [DecidableEq M]

/-- The policies of a mapping are freed one after the other; those in `rest` are
still to come. -/
structure Setup.Freeing (setup : Setup M P) (mapping : M) (before : World M P Q)
    (rest : List P)
    (world : World M P Q) : Prop where
  unchanged : ∀ policy, policy ∈ rest ∨ policy ∉ setup.policiesOf mapping →
    world.policy policy = before.policy policy
  freed : ∀ policy ∈ setup.policiesOf mapping, policy ∉ rest →
    (before.policy policy).Freed setup.mapping mapping (world.policy policy)
  live : world.live = before.live
  attached : ∀ policy ∈ rest, policy ∈ setup.policiesOf mapping
  nodup : rest.Nodup

variable {setup : Setup M P} {globalPolicy : P} {mapping : M}
variable {before world : World M P Q} {rest : List P}

theorem Setup.Freeing.cases
    (freeing : setup.Freeing mapping before rest world)
    (policy : P) :
    (policy ∈ setup.policiesOf mapping ∧
        (before.policy policy).Freed setup.mapping mapping (world.policy policy)) ∨
      world.policy policy = before.policy policy := by
  by_cases done : policy ∈ setup.policiesOf mapping ∧ policy ∉ rest
  · exact Or.inl ⟨done.1, freeing.freed policy done.1 done.2⟩
  · exact Or.inr (freeing.unchanged policy (by tauto))

theorem Setup.Freeing.sound
    (freeing : setup.Freeing mapping before rest world)
    (sound : before.Sound) :
    world.Sound := by
  intro policy
  obtain ⟨_, freed⟩ | same := freeing.cases policy
  · exact freed.sound (sound policy)
  · rw [same]
    exact sound policy

/-- The policies after the destruction of a mapping. -/
theorem Setup.Freeing.orderly
    (freeing : setup.Freeing mapping before [] world)
    (orderly : setup.Orderly before) :
    setup.Orderly (world.setLive mapping false) := by
  refine orderly.of_settings ⟨?_, freeing.sound orderly.consistent.sound, ?_, ?_⟩ ?_ ?_
  · intro policy
    obtain ⟨_, freed⟩ | same := freeing.cases policy
    · exact freed.balanced
    · rw [World.setLive_policy, same]
      exact orderly.consistent.balanced policy
  · intro policy other
    have registered := orderly.consistent.registered policy other
    rw [World.setLive_policy, World.setLive_live, freeing.live]
    by_cases attached : policy ∈ setup.policiesOf mapping
    · rw [(freeing.freed policy attached (by simp)).settings,
        (orderly.registryNodup policy).mem_erase_iff, registered]
      by_cases same : other = mapping
      · simp [same]
      · simp [same]
    · rw [freeing.unchanged policy (Or.inr attached), registered]
      by_cases same : other = mapping
      · simp [same, attached]
      · simp [same]
  · intro policy
    obtain ⟨_, freed⟩ | same := freeing.cases policy
    · exact freed.serves (orderly.consistent.served policy)
    · rw [World.setLive_policy, same]
      exact orderly.consistent.served policy
  · intro policy
    obtain ⟨_, freed⟩ | same := freeing.cases policy
    · exact ⟨_, List.erase_sublist, freed.settings⟩
    · exact ⟨_, .refl _, congrArg Policy.toPolicySettings same⟩
  · intro policy
    obtain ⟨_, freed⟩ | same := freeing.cases policy
    · refine Nat.le_trans (freed.balanced.currentMemory_le
        (orderly.consistent.balanced policy) ?_) (orderly.within policy)
      exact fun element member => ((freed.listed element).mp member).1
    · rw [World.setLive_policy, same]
      exact orderly.within policy

/-- The lists after the destruction of a mapping. -/
theorem Matched.destroyed
    (matched : Matched setup globalPolicy [] [] [] before)
    (shares : setup.Shares globalPolicy)
    (freeing : setup.Freeing mapping before [] world) :
    Matched setup globalPolicy [] [] [] (world.setLive mapping false) := by
  refine ⟨freeing.orderly matched.orderly, ?_,
    (fun _ absurdity => nomatch absurdity),
    (fun _ absurdity => nomatch absurdity), List.nodup_nil, List.nodup_nil⟩
  intro element owner attached
  have agree := matched.agree element owner attached
  have globalFreed := freeing.freed globalPolicy
    (shares.mem_policiesOf.mpr (Or.inr rfl)) (by simp)
  simp only [List.not_mem_nil, or_false] at agree ⊢
  rw [World.setLive_policy, World.setLive_policy, globalFreed.listed]
  by_cases same : element.1 = mapping
  · have localFreed := freeing.freed owner
      (shares.mem_policiesOf.mpr (Or.inl (same ▸ attached))) (by simp)
    rw [localFreed.listed, agree]
  · have absent : owner ∉ setup.policiesOf mapping := by
      rw [shares.mem_policiesOf, not_or]
      refine ⟨?_, shares.local_ne attached⟩
      intro attached'
      exact same (shares.separate element.1 mapping owner attached attached')
    rw [freeing.unchanged owner (Or.inr absent), agree]
    simp [same]

end Freeing

end UmmapIo
