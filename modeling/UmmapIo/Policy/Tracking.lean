import UmmapIo.Lib.Fallible
import UmmapIo.Policy.Defs
import Mathlib.Data.Fintype.Basic

/-!
# What the critical sections of a policy do

A policy is balanced when its ring has no repetition, holds elements of
registered mappings only, and its counter is the memory of the ring.  Every
critical section keeps a policy balanced; its effect is that of adding some
elements to the ring and taking others out.
-/

namespace UmmapIo

/-- The segments of all mappings together fit in the lower half of the address
space. -/
def AddressSpace {M : Type} [Fintype M] (mappings : M → Mapping) : Prop :=
  ∑ mapping, (mappings mapping).getAlignedSize < wordModulus / 2

instance {M : Type} [Fintype M] (mappings : M → Mapping) :
    Decidable (AddressSpace mappings) :=
  inferInstanceAs (Decidable (_ < _))

/-- The segments of these mappings together do. -/
def Spacious {M : Type} [DecidableEq M] (mappings : M → Mapping)
    (registry : List M) : Prop :=
  ∑ mapping ∈ registry.toFinset, (mappings mapping).getAlignedSize <
    wordModulus / 2

instance {M : Type} [DecidableEq M] (mappings : M → Mapping) (registry : List M) :
    Decidable (Spacious mappings registry) :=
  inferInstanceAs (Decidable (_ < _))

theorem AddressSpace.spacious {M : Type} [DecidableEq M] [Fintype M]
    {mappings : M → Mapping} (space : AddressSpace mappings) (registry : List M) :
    Spacious mappings registry :=
  Nat.lt_of_le_of_lt
    (Finset.sum_le_sum_of_subset (Finset.subset_univ registry.toFinset)) space

namespace Policy

variable {M Q : Type} {mappings : M → Mapping}

/-- The elements of the mapping are found when the policy is asked for it. -/
def Serves (policy : Policy M Q) (mapping : M) : Prop :=
  mapping ∈ policy.storageRegistry ∧
    (policy.isLocal = true → policy.storageRegistry = [mapping])

/-- The element belongs to a registered mapping. -/
def Stores (mappings : M → Mapping) (policy : Policy M Q)
    (element : ListElement M) : Prop :=
  element.1 ∈ policy.storageRegistry ∧
    element.2 < (mappings element.1).segments

/-- The ring and the counter of the policy agree. -/
structure Balanced (mappings : M → Mapping)
    (policy : Policy M Q) : Prop where
  nodup : policy.ring.Nodup
  stored : ∀ element ∈ policy.ring, policy.Stores mappings element
  counter : policy.currentMemory = weight (elementSize mappings) policy.ring

variable {policy : Policy M Q}

/-- A balanced policy that lists less uses less memory. -/
theorem Balanced.currentMemory_le {other : Policy M Q}
    (balanced : policy.Balanced mappings)
    (otherBalanced : other.Balanced mappings)
    (fewer : ∀ element ∈ policy.ring, element ∈ other.ring) :
    policy.currentMemory ≤ other.currentMemory := by
  rw [balanced.counter, otherBalanced.counter]
  exact weight_le_weight _ balanced.nodup otherBalanced.nodup fewer

/-- A step of a policy added some elements to the ring and took others out. -/
structure Updated (mappings : M → Mapping) (before : Policy M Q)
    (added removed : List (ListElement M))
    (after : Policy M Q) : Prop where
  settings : after.toPolicySettings = before.toPolicySettings
  listed : ∀ element, element ∈ after.ring ∨ element ∈ removed ↔
    element ∈ added ∨ element ∈ before.ring
  unlisted : ∀ element ∈ removed, element ∉ after.ring
  nodup : removed.Nodup
  balanced : after.Balanced mappings
  sound : (∀ event ∈ before.trace, event.Sound) →
    ∀ event ∈ after.trace, event.Sound
  served : ∀ element ∈ added, before.Serves element.1

theorem Updated.refl (balanced : policy.Balanced mappings) :
    Updated mappings policy [] [] policy where
  settings := rfl
  listed := by
    intro element
    simp
  unlisted := fun _ absurdity => nomatch absurdity
  nodup := List.nodup_nil
  balanced := balanced
  sound := id
  served := fun _ absurdity => nomatch absurdity

variable {removed : List (ListElement M)}

/-- Two steps that only take elements out. -/
theorem Updated.trans {first second third : Policy M Q} {others : List (ListElement M)}
    (head : Updated mappings first [] removed second)
    (tail : Updated mappings second [] others third) :
    Updated mappings first [] (removed ++ others) third where
  settings := tail.settings.trans head.settings
  listed := by
    intro element
    have before := head.listed element
    have after := tail.listed element
    rw [List.mem_append]
    tauto
  unlisted := by
    intro element member kept
    have inSecond := (tail.listed element).mp (Or.inl kept)
    obtain early | late := List.mem_append.mp member
    · apply head.unlisted element early
      simpa using inSecond
    · exact tail.unlisted element late kept
  nodup := by
    refine List.nodup_append.mpr ⟨head.nodup, tail.nodup, ?_⟩
    rintro element early other late rfl
    apply head.unlisted element early
    simpa using (tail.listed element).mp (Or.inr late)
  balanced := tail.balanced
  sound := fun sound => tail.sound (head.sound sound)
  served := fun _ absurdity => nomatch absurdity

/-- The listed elements stay the ones of served mappings. -/
theorem Updated.serves {before after : Policy M Q} {added : List (ListElement M)}
    (updated : Updated mappings before added removed after)
    (served : ∀ element ∈ before.ring, before.Serves element.1) :
    ∀ element ∈ after.ring, after.Serves element.1 := by
  intro element member
  unfold Serves
  rw [updated.settings]
  obtain new | old := (updated.listed element).mp (Or.inl member)
  · exact updated.served element new
  · exact served element old

/-- A step that only takes elements out frees memory. -/
theorem Updated.currentMemory_le {before after : Policy M Q}
    (updated : Updated mappings before [] removed after)
    (balanced : before.Balanced mappings) :
    after.currentMemory ≤ before.currentMemory := by
  apply updated.balanced.currentMemory_le balanced
  intro element member
  simpa using (updated.listed element).mp (Or.inl member)

/-! ## Results of the eviction loop -/

section Looped

variable {ring idsToEvict : List (ListElement M)} {policy looped : Policy M Q}

/-- What the loop has done when it ends: it took a beginning of the ring out,
no longer than needed, its memory off the counter, and the counter is within the
limit. -/
structure Looped (mappings : M → Mapping) (before : Policy M Q)
    (ring idsToEvict : List (ListElement M))
    (after : Policy M Q) : Prop where
  settings : after.toPolicySettings = before.toPolicySettings
  split : idsToEvict ++ after.ring = ring
  counter : after.currentMemory + weight (elementSize mappings) idsToEvict =
    before.currentMemory
  within : after.currentMemory ≤ before.dynamicMaxMemory
  needed : ∀ first last, idsToEvict = first ++ [last] →
    before.dynamicMaxMemory + weight (elementSize mappings) first <
      before.currentMemory
  sound : (∀ event ∈ before.trace, event.Sound) →
    ∀ event ∈ after.trace, event.Sound

/-- A loop that has nothing to do. -/
theorem Looped.done
    (within : policy.currentMemory ≤ policy.dynamicMaxMemory) :
    Looped mappings policy ring [] (policy.setRing ring) where
  settings := rfl
  split := rfl
  counter := rfl
  within := within
  needed := by
    intro first last equal
    cases first <;> cases equal
  sound := id

/-- A loop that had to take something out took no more than needed. -/
theorem Looped.lt_add {largest : Nat}
    (done : Looped mappings policy ring idsToEvict looped)
    (above : policy.dynamicMaxMemory < policy.currentMemory)
    (small : ∀ element ∈ ring, elementSize mappings element ≤ largest) :
    policy.dynamicMaxMemory < looped.currentMemory + largest := by
  have counter := done.counter
  have within := done.within
  obtain rfl | ⟨first, last, rfl⟩ := idsToEvict.eq_nil_or_concat
  · rw [weight_nil] at counter
    omega
  · have needed := done.needed first last List.concat_eq_append
    have member : last ∈ ring := by
      rw [← done.split]
      simp
    have bound := small last member
    rw [List.concat_eq_append, weight_append, weight_cons, weight_nil] at counter
    omega

theorem Looped.cons {element : ListElement M}
    (above : policy.dynamicMaxMemory < policy.currentMemory)
    (enough : elementSize mappings element ≤ policy.currentMemory)
    (small : policy.currentMemory < wordModulus)
    (tail : Looped mappings (policy.decrease (elementSize mappings element))
      ring idsToEvict looped) :
    Looped mappings policy (element :: ring) (element :: idsToEvict) looped where
  settings := tail.settings
  split := by rw [List.cons_append, tail.split]
  counter := by
    have counter := tail.counter
    rw [decrease_currentMemory, wordSub_of_le enough small] at counter
    rw [weight_cons]
    omega
  within := tail.within
  needed := by
    intro first last equal
    cases first with
    | nil => exact above
    | cons head kept =>
        rw [List.cons_append, List.cons.injEq] at equal
        have needed := tail.needed kept last equal.2
        rw [decrease_currentMemory, wordSub_of_le enough small,
          decrease_toPolicySettings] at needed
        rw [← equal.1, weight_cons]
        omega
  sound := by
    intro sound
    apply tail.sound
    intro event member
    rw [decrease_trace, List.mem_cons] at member
    obtain rfl | earlier := member
    · exact enough
    · exact sound event earlier

/-- The effect of the loop on a policy whose ring and counter were prepared:
`tracked` are the elements that the counter covers, and `extra` those of them
that the loop does not see. -/
theorem Looped.updated {before counted looped : Policy M Q}
    {added tracked extra ring idsToEvict : List (ListElement M)}
    (done : Looped mappings counted ring idsToEvict looped)
    (settings : counted.toPolicySettings = before.toPolicySettings)
    (trace : counted.trace = before.trace)
    (members : ∀ element, element ∈ tracked ↔
      element ∈ added ∨ element ∈ before.ring)
    (nodup : tracked.Nodup)
    (stores : ∀ element ∈ tracked, before.Stores mappings element)
    (served : ∀ element ∈ added, before.Serves element.1)
    (parts : (extra ++ ring).Perm tracked)
    (counter : counted.currentMemory = weight (elementSize mappings) tracked) :
    Updated mappings before added idsToEvict
      (looped.setRing (extra ++ looped.ring)) := by
  have whole : (idsToEvict ++ (extra ++ looped.ring)).Perm tracked := by
    refine List.Perm.trans ?_ parts
    rw [← done.split, ← List.append_assoc, ← List.append_assoc]
    exact List.perm_append_comm.append_right looped.ring
  have split := List.nodup_append.mp (whole.nodup_iff.mpr nodup)
  have same := done.settings.trans settings
  refine ⟨same, ?_, ?_, split.1, ⟨split.2.1, ?_, ?_⟩, ?_, served⟩
  · intro element
    rw [← members, ← whole.mem_iff, List.mem_append, setRing_ring]
    exact Or.comm
  · intro element removed kept
    exact split.2.2 element removed element kept rfl
  · intro element kept
    unfold Stores
    rw [setRing_toPolicySettings, same]
    exact stores element (whole.mem_iff.mp (List.mem_append_right idsToEvict kept))
  · have total : weight (elementSize mappings)
        (idsToEvict ++ (extra ++ looped.ring)) =
          weight (elementSize mappings) tracked :=
      (whole.map (elementSize mappings)).sum_eq
    have remaining := done.counter
    rw [weight_append] at total
    rw [setRing_currentMemory, setRing_ring]
    omega
  · rw [← trace]
    exact done.sound

/-- The loop leaves an element exactly if the elements from it on fit in the
limit. -/
theorem Looped.not_mem_iff {older newer : List (ListElement M)}
    {element : ListElement M}
    (done : Looped mappings policy (older ++ element :: newer) idsToEvict looped)
    (nodup : (older ++ element :: newer).Nodup)
    (counter : policy.currentMemory =
      weight (elementSize mappings) (older ++ element :: newer)) :
    element ∉ idsToEvict ↔
      weight (elementSize mappings) (element :: newer) ≤
        policy.dynamicMaxMemory := by
  have fresh : element ∉ older := fun member =>
    (List.nodup_append.mp nodup).2.2 element member element List.mem_cons_self rfl
  have within := done.within
  have decreased := done.counter
  have total := congrArg (weight (elementSize mappings)) done.split
  rw [weight_append] at total counter
  obtain ⟨kept, rfl, ring⟩ | ⟨taken, rfl, rest⟩ :=
    List.append_eq_append_iff.mp done.split
  · rw [weight_append] at total counter
    refine iff_of_true (fun member => fresh (List.mem_append_left _ member)) ?_
    rw [weight_append] at total
    omega
  · cases taken with
    | nil =>
        rw [List.append_nil] at total decreased ⊢
        refine iff_of_true fresh ?_
        rw [weight_append] at total
        omega
    | cons first taken =>
        obtain rfl : element = first := (List.cons.inj rest).1
        refine iff_of_false (fun absent => absent (by simp)) ?_
        obtain ⟨before, last, equal⟩ :=
          (List.eq_nil_or_concat (element :: taken)).resolve_left (List.cons_ne_nil _ _)
        rw [List.concat_eq_append] at equal
        have needed := done.needed (older ++ before) last
          (by rw [equal, List.append_assoc])
        rw [weight_append] at needed
        omega

end Looped

/-! ## Element storage -/

variable [DecidableEq M]

theorem getStorageInfo_of_serves {mapping : M} (serves : policy.Serves mapping)
    (ndebug : Bool) :
    policy.getStorageInfo ndebug mapping = .ok mapping := by
  obtain ⟨member, alone⟩ := serves
  unfold getStorageInfo
  cases isLocal : policy.isLocal with
  | true => simp [alone isLocal]
  | false => simp [member]

theorem getStorageInfoOfEntry_of_stores {element : ListElement M}
    (stores : policy.Stores mappings element) :
    policy.getStorageInfoOfEntry mappings element = .ok element.1 :=
  if_pos stores

/-! ## Bounds of the counter -/

section Bounds

variable {policy : Policy M Q}

/-- The elements of these mappings. -/
def elementsOf (mappings : M → Mapping)
    (registry : Finset M) : Finset (ListElement M) :=
  registry.biUnion fun mapping =>
    (Finset.range (mappings mapping).segments).image (Prod.mk mapping)

theorem mem_elementsOf {registry : Finset M} {element : ListElement M} :
    element ∈ elementsOf mappings registry ↔
      element.1 ∈ registry ∧ element.2 < (mappings element.1).segments := by
  unfold elementsOf
  simp only [Finset.mem_biUnion, Finset.mem_image, Finset.mem_range]
  constructor
  · rintro ⟨mapping, member, index, below, rfl⟩
    exact ⟨member, below⟩
  · rintro ⟨member, below⟩
    exact ⟨element.1, member, element.2, below, rfl⟩

/-- All segments together take the aligned sizes of the mappings. -/
theorem sum_elementsOf (mappings : M → Mapping) (registry : Finset M) :
    ∑ element ∈ elementsOf mappings registry, elementSize mappings element =
      ∑ mapping ∈ registry, (mappings mapping).getAlignedSize := by
  unfold elementsOf
  rw [Finset.sum_biUnion]
  · apply Finset.sum_congr rfl
    intro mapping _
    rw [Finset.sum_image fun _ _ _ _ equal => (Prod.mk.inj equal).2]
    simp [elementSize, Mapping.getAlignedSize, Nat.mul_comm]
  · intro first _ second _ different
    simp only [Function.onFun, Finset.disjoint_left, Finset.mem_image]
    rintro element ⟨_, _, rfl⟩ ⟨_, _, equal⟩
    exact different (Prod.mk.inj equal).1.symm

/-- The elements of all mappings. -/
def allElements [Fintype M] (mappings : M → Mapping) : Finset (ListElement M) :=
  Finset.univ.biUnion fun mapping =>
    (Finset.range (mappings mapping).segments).image (Prod.mk mapping)

theorem mem_allElements [Fintype M] {element : ListElement M} :
    element ∈ allElements mappings ↔
      element.2 < (mappings element.1).segments :=
  mem_elementsOf.trans (and_iff_right (Finset.mem_univ element.1))

theorem sum_allElements [Fintype M] (mappings : M → Mapping) :
    ∑ element ∈ allElements mappings, elementSize mappings element =
      ∑ mapping, (mappings mapping).getAlignedSize :=
  sum_elementsOf mappings Finset.univ

/-- The counter of a balanced policy is far from wrapping around. -/
theorem Balanced.currentMemory_lt (balanced : policy.Balanced mappings)
    (space : Spacious mappings policy.storageRegistry) :
    policy.currentMemory < wordModulus / 2 := by
  have bound := weight_le_sum (elementSize mappings) balanced.nodup
    (elementsOf mappings policy.storageRegistry.toFinset) fun element member =>
      mem_elementsOf.mpr ⟨List.mem_toFinset.mpr
        (balanced.stored element member).1, (balanced.stored element member).2⟩
  rw [sum_elementsOf] at bound
  rw [balanced.counter]
  exact Nat.lt_of_le_of_lt bound space

/-- Another segment can be counted without overflow. -/
theorem Balanced.currentMemory_add_lt {mapping : M}
    (balanced : policy.Balanced mappings)
    (space : Spacious mappings policy.storageRegistry)
    (registered : mapping ∈ policy.storageRegistry) :
    policy.currentMemory + (mappings mapping).segmentSize < wordModulus := by
  have counter := balanced.currentMemory_lt space
  have one : (mappings mapping).segmentSize ≤
      (mappings mapping).getAlignedSize := by
    have first := ((mappings mapping).lt_segments_iff 0).mpr
      (by simpa using (mappings mapping).size_pos)
    exact Nat.le_mul_of_pos_right _ first
  have all : (mappings mapping).getAlignedSize ≤
      ∑ other ∈ policy.storageRegistry.toFinset,
        (mappings other).getAlignedSize :=
    Finset.single_le_sum (f := fun other => (mappings other).getAlignedSize)
      (fun _ _ => Nat.zero_le _) (List.mem_toFinset.mpr registered)
  unfold Spacious wordModulus at *
  omega

end Bounds

/-! ## The eviction loop -/

section EvictLoop

variable {ring : List (ListElement M)} {policy : Policy M Q}

theorem evictLoop_cons {element : ListElement M} (cntIdsToEvict : Nat)
    (stores : policy.Stores mappings element) :
    evictLoop mappings cntIdsToEvict (element :: ring) policy =
      if policy.currentMemory ≤ policy.dynamicMaxMemory then
        .ok ([], policy.setRing (element :: ring))
      else if cntIdsToEvict + 1 < maxIdsToEvict then
        (evictLoop mappings (cntIdsToEvict + 1) ring
          (policy.decrease (elementSize mappings element))).map
            fun result => (element :: result.1, result.2)
      else .error (.fatal reachMaximum) := by
  rw [evictLoop, getStorageInfoOfEntry_of_stores stores]
  split
  · rfl
  · split
    · unfold elementSize
      cases looping : evictLoop mappings (cntIdsToEvict + 1) ring
          (policy.decrease (mappings element.1).segmentSize) <;>
        simp [looping, Except.map, bind, Except.bind]
    · rfl

/-- The loop ends as described, or at the check on the number of evictions; it
can only go on for ever if emptying the ring is not enough. -/
theorem evictLoop_spec (cntIdsToEvict : Nat)
    (stores : ∀ element ∈ ring, policy.Stores mappings element)
    (covered : weight (elementSize mappings) ring ≤ policy.currentMemory)
    (small : policy.currentMemory < wordModulus) :
    (∀ idsToEvict looped,
      evictLoop mappings cntIdsToEvict ring policy = .ok (idsToEvict, looped) →
        Looped mappings policy ring idsToEvict looped) ∧
    (∀ stop, evictLoop mappings cntIdsToEvict ring policy = .error stop →
      policy.currentMemory ≤
        weight (elementSize mappings) ring + policy.dynamicMaxMemory →
      stop = .fatal reachMaximum) := by
  induction ring generalizing cntIdsToEvict policy with
  | nil =>
      unfold evictLoop
      split
      · rename_i within
        refine ⟨?_, fun _ equal => nomatch equal⟩
        intro idsToEvict looped equal
        cases equal
        exact Looped.done within
      · rename_i above
        refine ⟨fun _ _ equal => (nomatch equal), ?_⟩
        intro stop _ room
        rw [weight_nil, Nat.zero_add] at room
        exact absurd room above
  | cons element rest inductionHypothesis =>
      rw [evictLoop_cons cntIdsToEvict (stores element List.mem_cons_self)]
      rw [weight_cons] at covered ⊢
      split
      · rename_i within
        refine ⟨?_, fun _ equal => nomatch equal⟩
        intro idsToEvict looped equal
        cases equal
        exact Looped.done within
      · rename_i above
        split
        · have enough : elementSize mappings element ≤ policy.currentMemory := by
            omega
          have decreased := wordSub_of_le enough small
          have restStores : ∀ other ∈ rest,
              (policy.decrease (elementSize mappings element)).Stores mappings other :=
            fun other member => stores other (List.mem_cons_of_mem _ member)
          obtain ⟨ends, fails⟩ := inductionHypothesis (cntIdsToEvict + 1) restStores
            (by
              rw [decrease_currentMemory, decreased]
              omega)
            (by
              rw [decrease_currentMemory, decreased]
              omega)
          constructor
          · intro idsToEvict looped equal
            obtain ⟨⟨tailIds, tailLooped⟩, looping, same⟩ :=
              Fallible.map_eq_ok.mp equal
            cases same
            exact (ends tailIds tailLooped looping).cons (by omega) enough small
          · intro stop equal room
            apply fails stop (Fallible.map_eq_error.mp equal)
            rw [decrease_currentMemory, decreased, decrease_toPolicySettings]
            omega
        · refine ⟨fun _ _ equal => (nomatch equal), ?_⟩
          intro stop equal _
          cases equal
          rfl

end EvictLoop

/-! ## Shrinking and notices -/

section Release

variable {before after : Policy M Q}

/-- The critical section of `shrinkMemory`. -/
theorem shrinkMemory_spec (balanced : before.Balanced mappings)
    (space : Spacious mappings before.storageRegistry) :
    (∀ idsToEvict after,
      before.shrinkMemory mappings = .ok (idsToEvict, after) →
        Looped mappings before before.ring idsToEvict after ∧
          Updated mappings before [] idsToEvict after) ∧
    (∀ stop, before.shrinkMemory mappings = .error stop →
      stop = .fatal reachMaximum) := by
  have counter := balanced.counter
  have small := balanced.currentMemory_lt space
  obtain ⟨ends, fails⟩ := evictLoop_spec 0 balanced.stored (by omega)
    (by
      unfold wordModulus at *
      omega)
  constructor
  · intro idsToEvict after looping
    have done := ends idsToEvict after looping
    refine ⟨done, ?_⟩
    have nothing : ∀ element, element ∈ before.ring ↔
        element ∈ [] ∨ element ∈ before.ring := by
      intro element
      simp
    have parts : ([] ++ before.ring).Perm before.ring := List.Perm.refl _
    exact done.updated rfl rfl nothing balanced.nodup balanced.stored
      (fun _ absurdity => nomatch absurdity) parts
      counter
  · intro stop looping
    exact fails stop looping (by omega)

variable {cur : ListElement M}

/-- Taking a listed element out of the ring, with its memory off the counter. -/
theorem Balanced.remove {noted : Policy M Q} (balanced : before.Balanced mappings)
    (space : Spacious mappings before.storageRegistry)
    (listed : cur ∈ before.ring)
    (settings : noted.toPolicySettings = before.toPolicySettings)
    (memory : noted.currentMemory = before.currentMemory)
    (sound : (∀ event ∈ before.trace, event.Sound) →
      ∀ event ∈ noted.trace, event.Sound) :
    Updated mappings before [] [cur]
      ((noted.decrease (mappings cur.1).segmentSize).setRing
        (before.ring.erase cur)) := by
  have counter := balanced.counter
  have small := balanced.currentMemory_lt space
  have total := weight_erase (elementSize mappings) listed
  have enough : (mappings cur.1).segmentSize ≤ before.currentMemory := by
    unfold elementSize at *
    omega
  refine ⟨settings, ?_, ?_, List.nodup_singleton cur,
    ⟨balanced.nodup.erase cur, ?_, ?_⟩, ?_, fun _ absurdity => nomatch absurdity⟩
  · intro element
    simp only [setRing_ring, balanced.nodup.mem_erase_iff, List.mem_singleton,
      List.not_mem_nil, false_or]
    constructor
    · rintro (⟨_, kept⟩ | rfl)
      · exact kept
      · exact listed
    · intro member
      by_cases same : element = cur
      · exact Or.inr same
      · exact Or.inl ⟨same, member⟩
  · intro element removed
    rw [List.mem_singleton] at removed
    rw [removed]
    exact balanced.nodup.not_mem_erase
  · intro element member
    unfold Stores
    rw [setRing_toPolicySettings, decrease_toPolicySettings, settings]
    exact balanced.stored element (List.mem_of_mem_erase member)
  · rw [setRing_currentMemory, decrease_currentMemory, setRing_ring, memory,
      wordSub_of_le enough (by unfold wordModulus at *; omega)]
    unfold elementSize at *
    omega
  · intro before event member
    rw [setRing_trace, decrease_trace, List.mem_cons] at member
    obtain rfl | earlier := member
    · unfold PolicyEvent.Sound
      rw [memory]
      exact enough
    · exact sound before event earlier

/-- A notice for a listed element takes it out of the ring. -/
theorem notifyEvict_eq (serves : before.Serves cur.1) (listed : cur ∈ before.ring)
    (ndebug : Bool) :
    before.notifyEvict mappings ndebug cur.1 cur.2 =
      .ok (((before.note (.notifyEvict cur true)).decrease
        (mappings cur.1).segmentSize).setRing (before.ring.erase cur)) := by
  unfold notifyEvict
  rw [getStorageInfo_of_serves serves]
  simp [bind, Except.bind, listed]

theorem notifyEvict_ok (balanced : before.Balanced mappings)
    (space : Spacious mappings before.storageRegistry)
    (serves : before.Serves cur.1) (listed : cur ∈ before.ring) (ndebug : Bool) :
    ∃ after, before.notifyEvict mappings ndebug cur.1 cur.2 = .ok after ∧
      after.ring = before.ring.erase cur ∧
      Updated mappings before [] [cur] after := by
  refine ⟨_, notifyEvict_eq serves listed ndebug, rfl, ?_⟩
  refine balanced.remove space listed rfl rfl ?_
  intro sound event member
  rw [note_trace, List.mem_cons] at member
  obtain rfl | earlier := member
  · rfl
  · exact sound event earlier

end Release

end Policy

end UmmapIo
