import UmmapIo.Policy.Tracking

/-!
# Element storage of mappings

Mappings are attached to a policy one after the other when they are created, and
detached when they are destroyed.  Attaching checks the segment size against the
limit; detaching takes the elements of the mapping out of the ring.
-/

namespace UmmapIo
namespace Policy

variable {M Q : Type} {mappings : M → Mapping}

/-! ## Attaching -/

/-- Register mappings one after the other, as their constructors do. -/
def registerMappings (mappings : M → Mapping) (policy : Policy M Q)
    (order : List M) : Except Stop (Policy M Q) :=
  order.foldlM (fun current mapping =>
    current.registerMapping mappings mapping) policy

/-- A policy right after its construction and the creation of the mappings that
use it, in some order. -/
def Constructed (mappings : M → Mapping) (attached : M → Prop)
    (policy : Policy M Q) : Prop :=
  ∃ kind maxMemory isLocal, ∃ order : List M,
    order.Nodup ∧ (∀ mapping, mapping ∈ order ↔ attached mapping) ∧
      (create kind maxMemory isLocal).registerMappings mappings order =
        .ok policy

variable {before after : Policy M Q} {mapping : M}

theorem registerMapping_ok
    (registered : before.registerMapping mappings mapping = .ok after) :
    (mappings mapping).segmentSize ≤ before.staticMaxMemory ∧
      after = { before with
        storageRegistry := before.storageRegistry ++ [mapping] } := by
  unfold registerMapping at registered
  split at registered
  · rename_i fits
    dsimp only at registered
    split at registered
    · cases registered
      exact ⟨fits, rfl⟩
    · cases registered
  · cases registered

/-- Registering mappings one after the other only extends the registry. -/
theorem registerMappings_ok {order : List M}
    (registered : before.registerMappings mappings order = .ok after) :
    (∀ mapping ∈ order,
      (mappings mapping).segmentSize ≤ before.staticMaxMemory) ∧
      after = { before with
        storageRegistry := before.storageRegistry ++ order } := by
  induction order generalizing before with
  | nil =>
      cases registered
      refine ⟨fun _ member => (nomatch member), ?_⟩
      rw [List.append_nil]
  | cons first rest inductionHypothesis =>
      rw [registerMappings, List.foldlM_cons] at registered
      obtain ⟨middle, firstDone, restDone⟩ := Fallible.bind_eq_ok.mp registered
      obtain ⟨firstFits, rfl⟩ := registerMapping_ok firstDone
      obtain ⟨restFits, rfl⟩ := inductionHypothesis restDone
      refine ⟨?_, ?_⟩
      · intro mapping member
        obtain rfl | later := List.mem_cons.mp member
        · exact firstFits
        · exact restFits mapping later
      · rw [List.append_assoc, List.singleton_append]

/-- What holds of a constructed policy. -/
structure Fresh (mappings : M → Mapping) (attached : M → Prop)
    (policy : Policy M Q) : Prop where
  dynamicMaxMemory : policy.dynamicMaxMemory = policy.staticMaxMemory
  policyQuota : policy.policyQuota = none
  currentMemory : policy.currentMemory = 0
  ring : policy.ring = []
  trace : policy.trace = []
  registryNodup : policy.storageRegistry.Nodup
  registered : ∀ mapping, mapping ∈ policy.storageRegistry ↔ attached mapping
  fits : ∀ mapping, attached mapping →
    (mappings mapping).segmentSize ≤ policy.dynamicMaxMemory

variable {policy : Policy M Q}

theorem Constructed.fresh {attached : M → Prop}
    (constructed : policy.Constructed mappings attached) :
    policy.Fresh mappings attached := by
  obtain ⟨kind, maxMemory, isLocal, order, nodup, members, registered⟩ :=
    constructed
  obtain ⟨fits, rfl⟩ := registerMappings_ok registered
  refine ⟨rfl, rfl, rfl, rfl, rfl, nodup, members, ?_⟩
  intro mapping isAttached
  exact fits mapping ((members mapping).mpr isAttached)

theorem Fresh.balanced {attached : M → Prop} (fresh : policy.Fresh mappings attached) :
    policy.Balanced mappings := by
  refine ⟨?_, ?_, ?_⟩
  · rw [fresh.ring]
    exact List.nodup_nil
  · rw [fresh.ring]
    exact fun _ member => nomatch member
  · rw [fresh.ring, fresh.currentMemory]
    rfl

/-! ## Detaching -/

variable [DecidableEq M]

/-- Without repetitions in the registry, skipping the entry behind the removed
one misses nothing. -/
theorem unregisterMapping_eq_erase {registry : List M} (nodup : registry.Nodup)
    (mapping : M) :
    unregisterMapping mapping registry = registry.erase mapping := by
  induction registry with
  | nil => rfl
  | cons entry rest inductionHypothesis =>
      obtain ⟨fresh, restNodup⟩ := List.nodup_cons.mp nodup
      rw [unregisterMapping.eq_def]
      by_cases same : entry = mapping
      · subst same
        have restKept := inductionHypothesis restNodup
        rw [List.erase_of_not_mem fresh] at restKept
        simp only [if_true, List.erase_cons_head]
        cases rest with
        | nil => rfl
        | cons skipped others =>
            have skippedKept : skipped ≠ entry :=
              fun equal => fresh (equal ▸ List.mem_cons_self)
            rw [unregisterMapping.eq_def] at restKept
            simp only [if_neg skippedKept] at restKept
            exact restKept
      · simp only [if_neg same]
        rw [inductionHypothesis restNodup,
          List.erase_cons_tail (by simpa using same)]

/-- The loop body of `freeElementStorage`. -/
theorem Balanced.freeElement (balanced : policy.Balanced mappings)
    (space : Spacious mappings policy.storageRegistry)
    (cur : ListElement M) :
    ∃ removed,
      (∀ element, element ∈ removed ↔
        element = cur ∧ element ∈ policy.ring) ∧
      Updated mappings policy [] removed
        (policy.freeElement (mappings cur.1).segmentSize cur) := by
  unfold Policy.freeElement
  by_cases listed : cur ∈ policy.ring
  · refine ⟨[cur], ?_, ?_⟩
    · intro element
      rw [List.mem_singleton]
      constructor
      · rintro rfl
        exact ⟨rfl, listed⟩
      · exact fun both => both.1
    · rw [if_pos listed]
      exact balanced.remove space listed rfl rfl id
  · refine ⟨[], ?_, ?_⟩
    · intro element
      constructor
      · intro absurdity
        cases absurdity
      · rintro ⟨rfl, member⟩
        exact absurd member listed
    · rw [if_neg listed, List.erase_of_not_mem listed]
      refine ⟨rfl, ?_, fun _ absurdity => (nomatch absurdity),
        List.nodup_nil, balanced, id, fun _ absurdity => nomatch absurdity⟩
      intro element
      simp

/-- The loop of `freeElementStorage`: the elements of these indices are out of
the ring. -/
theorem Balanced.freeElements (balanced : policy.Balanced mappings)
    (space : Spacious mappings policy.storageRegistry)
    (mapping : M) (indices : List Nat) :
    ∃ removed,
      (∀ element, element ∈ removed ↔
        element.1 = mapping ∧ element.2 ∈ indices ∧ element ∈ policy.ring) ∧
      Updated mappings policy [] removed
        (indices.foldl (fun current index =>
          current.freeElement (mappings mapping).segmentSize (mapping, index))
          policy) := by
  induction indices generalizing policy with
  | nil =>
      refine ⟨[], ?_, Updated.refl balanced⟩
      intro element
      simp
  | cons index rest inductionHypothesis =>
      obtain ⟨first, firstMembers, firstUpdated⟩ :=
        balanced.freeElement space (mapping, index)
      obtain ⟨others, otherMembers, othersUpdated⟩ :=
        inductionHypothesis firstUpdated.balanced
          (by rw [firstUpdated.settings]; exact space)
      refine ⟨first ++ others, ?_, firstUpdated.trans othersUpdated⟩
      intro element
      have kept := firstUpdated.listed element
      have gone := firstUpdated.unlisted element
      rw [firstMembers, Prod.ext_iff] at kept gone
      rw [List.mem_append, firstMembers, otherMembers, List.mem_cons,
        Prod.ext_iff]
      tauto

/-- A policy that lists nothing of a mapping can forget the mapping. -/
theorem Balanced.unregister {other : Policy M Q} (balanced : policy.Balanced mappings)
    (nodup : policy.storageRegistry.Nodup)
    (gone : ∀ element ∈ policy.ring, element.1 ≠ mapping)
    (registry : other.storageRegistry = policy.storageRegistry.erase mapping)
    (ring : other.ring = policy.ring)
    (memory : other.currentMemory = policy.currentMemory) :
    other.Balanced mappings where
  nodup := by
    rw [ring]
    exact balanced.nodup
  stored := by
    rw [ring]
    intro element member
    obtain ⟨registered, below⟩ := balanced.stored element member
    unfold Stores
    rw [registry]
    exact ⟨nodup.mem_erase_iff.mpr ⟨gone element member, registered⟩, below⟩
  counter := by
    rw [ring, memory]
    exact balanced.counter

/-- What `freeElementStorage` does. -/
structure Freed (mappings : M → Mapping) (before : Policy M Q) (mapping : M)
    (after : Policy M Q) : Prop where
  settings : after.toPolicySettings =
    { before.toPolicySettings with
      storageRegistry := before.storageRegistry.erase mapping }
  listed : ∀ element, element ∈ after.ring ↔
    element ∈ before.ring ∧ element.1 ≠ mapping
  balanced : after.Balanced mappings
  sound : (∀ event ∈ before.trace, event.Sound) →
    ∀ event ∈ after.trace, event.Sound

theorem Freed.serves
    (freed : Freed mappings before mapping after)
    (served : ∀ element ∈ before.ring, before.Serves element.1) :
    ∀ element ∈ after.ring, after.Serves element.1 := by
  intro element member
  obtain ⟨listed, different⟩ := (freed.listed element).mp member
  refine ⟨(freed.balanced.stored element member).1, ?_⟩
  rw [freed.settings]
  intro isLocal
  have alone := (served element listed).2 isLocal
  simp [alone, different]

theorem freeElementStorage_ok (balanced : before.Balanced mappings)
    (space : Spacious mappings before.storageRegistry)
    (serves : before.Serves mapping) (nodup : before.storageRegistry.Nodup)
    (ndebug : Bool) :
    ∃ after, before.freeElementStorage mappings ndebug mapping = .ok after ∧
      Freed mappings before mapping after := by
  obtain ⟨removed, members, updated⟩ := balanced.freeElements
    space mapping (List.range (mappings mapping).segments)
  generalize loop : (List.range (mappings mapping).segments).foldl
    (fun current index =>
      current.freeElement (mappings mapping).segmentSize (mapping, index))
    before = freed at updated
  have listed (element : ListElement M) : element ∈ freed.ring ↔
      element ∈ before.ring ∧ element.1 ≠ mapping := by
    have kept := updated.listed element
    have gone := updated.unlisted element
    have stored := balanced.stored element
    rw [members, List.mem_range] at kept gone
    constructor
    · intro member
      have inRing : element ∈ before.ring := by
        simpa using kept.mp (Or.inl member)
      refine ⟨inRing, ?_⟩
      intro same
      apply gone _ member
      refine ⟨same, ?_, inRing⟩
      rw [← same]
      exact (stored inRing).2
    · rintro ⟨inRing, different⟩
      exact (kept.mpr (Or.inr inRing)).resolve_right fun freed =>
        different freed.1
  have registry : unregisterMapping mapping freed.storageRegistry =
      before.storageRegistry.erase mapping := by
    rw [updated.settings, unregisterMapping_eq_erase nodup]
  refine ⟨{ freed with
    storageRegistry := before.storageRegistry.erase mapping }, ?_, ?_⟩
  · unfold freeElementStorage
    rw [getStorageInfo_of_serves serves, ← registry, ← loop]
    rfl
  · have sameSettings := updated.settings
    refine ⟨by rw [← sameSettings], listed, ?_, updated.sound⟩
    have gone : ∀ element ∈ freed.ring, element.1 ≠ mapping :=
      fun element member => ((listed element).mp member).2
    refine updated.balanced.unregister ?_ gone ?_ rfl rfl
    · rw [sameSettings]
      exact nodup
    · rw [sameSettings]

end Policy
end UmmapIo
