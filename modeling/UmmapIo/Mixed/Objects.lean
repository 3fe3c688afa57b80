import UmmapIo.Mixed.World
import UmmapIo.Policy.Endings

/-!
# What the calls of a policy object do

For each virtual call, what is common to the three classes: the accounts stay
balanced, the registry and the quota stay the same, and comparisons of sizes with
the limits of the object decide which elements its loop takes.
-/

namespace UmmapIo

namespace Policy

variable {M Q : Type} {mappings : M → Mapping}

/-- A mapping is added to a policy that may have it. -/
theorem Balanced.register {policy other : Policy M Q} {mapping : M}
    (balanced : policy.Balanced mappings)
    (registry : other.storageRegistry = policy.storageRegistry ++ [mapping])
    (ring : other.ring = policy.ring)
    (memory : other.currentMemory = policy.currentMemory) :
    other.Balanced mappings where
  nodup := by
    rw [ring]
    exact balanced.nodup
  stored := by
    rw [ring]
    intro element member
    obtain ⟨registered, below⟩ := balanced.stored element member
    refine ⟨?_, below⟩
    rw [registry]
    exact List.mem_append_left _ registered
  counter := by
    rw [ring, memory]
    exact balanced.counter

variable [DecidableEq M]

/-- With assertions, an element storage that is found is the one of the
mapping. -/
theorem getStorageInfo_checked {policy : Policy M Q} {mapping owner : M}
    (found : policy.getStorageInfo false mapping = .ok owner) :
    owner = mapping := by
  unfold getStorageInfo at found
  split at found
  · split at found
    · split at found
      · rename_i owned
        cases found
        simpa using owned
      · cases found
    · cases found
  · split at found
    · cases found
      rfl
    · cases found

end Policy

namespace PolicyObject

variable {M Q : Type}

/-- The lists and the counters of the object agree. -/
def Balanced (mappings : M → Mapping) : PolicyObject M Q → Prop
  | .plain policy => policy.Balanced mappings
  | .window policy => policy.Balanced mappings

/-- The object does not have two mappings if it is local. -/
def Alone (object : PolicyObject M Q) : Prop :=
  object.base.isLocal = true → ∀ mapping ∈ object.base.storageRegistry,
    object.base.storageRegistry = [mapping]

/-- The object is a FIFO or LIFO policy. -/
def IsPlain : PolicyObject M Q → Prop
  | .plain _ => True
  | .window _ => False

instance : DecidablePred (IsPlain : PolicyObject M Q → Prop)
  | .plain _ => .isTrue trivial
  | .window _ => .isFalse id

/-- The counter that the loop of `shrinkMemory` reads is above the limit that it
reads.  The fifo-window class only looks at its sliding window. -/
def AboveLimit : PolicyObject M Q → Prop
  | .plain policy => policy.dynamicMaxMemory < policy.currentMemory
  | .window policy =>
      policy.maxSlidingMemory < policy.currentSlidingWindowMemory

section Kept

variable [DecidableEq M]

/-- There is room for the element when it is touched.  The LIFO class needs none, as
its loop does not see the touched element, and the windows of the fifo-window
class have limits of their own. -/
def Room (mappings : M → Mapping) (element : ListElement M) :
    PolicyObject M Q → Prop
  | .plain policy => policy.kind = .fifo →
      Policy.elementSize mappings element ≤ policy.dynamicMaxMemory
  | .window policy => policy.Room mappings element

/-- The elements that `shrinkMemory` would take after this one fit in the limit
together with it. -/
def Keeps (mappings : M → Mapping) (element : ListElement M) :
    PolicyObject M Q → Prop
  | .plain policy => policy.Keeps mappings element
  | .window policy => policy.slidingWindow.Keeps mappings element

instance (mappings : M → Mapping) (element : ListElement M) :
    DecidablePred (Room mappings element : PolicyObject M Q → Prop)
  | .plain policy => inferInstanceAs (Decidable (policy.kind = .fifo → _))
  | .window _ => inferInstanceAs (Decidable (_ ∨ _))

instance (mappings : M → Mapping) (element : ListElement M) :
    DecidablePred (Keeps mappings element : PolicyObject M Q → Prop)
  | .plain _ => Nat.decLe _ _
  | .window _ => Nat.decLe _ _

end Kept

/-- A call kept the accounts and changed no setting. -/
structure Advanced (mappings : M → Mapping)
    (before after : PolicyObject M Q) : Prop where
  storageRegistry : after.base.storageRegistry = before.base.storageRegistry
  policyQuota : after.base.policyQuota = before.base.policyQuota
  isLocal : after.base.isLocal = before.base.isLocal
  balanced : after.Balanced mappings

/-- A call that only took elements out. -/
structure Notified (mappings : M → Mapping)
    (before after : PolicyObject M Q) : Prop extends
    Advanced mappings before after where
  isPlain : before.IsPlain → after.IsPlain
  fewer : ∀ element ∈ after.listed, element ∈ before.listed

/-- What shrinking does.  A FIFO or LIFO policy that was above its limit would be so
again with one more of its largest segments. -/
structure Shrinks [DecidableEq M] (mappings : M → Mapping) (before : PolicyObject M Q)
    (idsToEvict : List (ListElement M))
    (after : PolicyObject M Q) : Prop extends
    Notified mappings before after where
  taken : ∀ element ∈ idsToEvict, element ∈ before.listed
  keeps : ∀ element, element ∉ idsToEvict ↔ before.Keeps mappings element
  less : before.AboveLimit → after.getCurrentMemory < before.getCurrentMemory
  needed : before.IsPlain → before.AboveLimit → ∀ largest,
    (∀ mapping ∈ before.base.storageRegistry,
      (mappings mapping).segmentSize ≤ largest) →
    before.base.dynamicMaxMemory < after.getCurrentMemory + largest

variable {mappings : M → Mapping} {before after : PolicyObject M Q}

theorem Alone.congr (alone : before.Alone)
    (registry : after.base.storageRegistry = before.base.storageRegistry)
    (isLocal : after.base.isLocal = before.base.isLocal) :
    after.Alone := by
  unfold Alone
  rw [registry, isLocal]
  exact alone

theorem Advanced.alone
    (advanced : Advanced mappings before after)
    (alone : before.Alone) :
    after.Alone :=
  alone.congr advanced.storageRegistry advanced.isLocal

theorem Notified.refl (balanced : before.Balanced mappings) :
    Notified mappings before before :=
  ⟨⟨rfl, rfl, rfl, balanced⟩, id, fun _ member => member⟩

theorem Notified.trans {third : PolicyObject M Q}
    (head : Notified mappings before after) (tail : Notified mappings after third) :
    Notified mappings before third where
  storageRegistry := tail.storageRegistry.trans head.storageRegistry
  policyQuota := tail.policyQuota.trans head.policyQuota
  isLocal := tail.isLocal.trans head.isLocal
  balanced := tail.balanced
  isPlain := fun isPlain => tail.isPlain (head.isPlain isPlain)
  fewer := fun element member =>
    head.fewer element (tail.fewer element member)

theorem Advanced.of_updated {policy state : Policy M Q}
    {added removed : List (ListElement M)}
    (updated : policy.Updated mappings added removed state) :
    Advanced mappings (.plain policy) (.plain state) where
  storageRegistry := congrArg PolicySettings.storageRegistry updated.settings
  policyQuota := congrArg PolicySettings.policyQuota updated.settings
  isLocal := congrArg PolicySettings.isLocal updated.settings
  balanced := updated.balanced

theorem Advanced.of_sameSettings {policy state : FifoWindowPolicy M Q}
    (same : FifoWindowPolicy.SameSettings policy state)
    (balanced : state.Balanced mappings) :
    Advanced mappings (.window policy) (.window state) where
  storageRegistry := same.storageRegistry
  policyQuota := same.policyQuota
  isLocal := same.isLocal
  balanced := balanced

section

variable (balanced : before.Balanced mappings)
include balanced

/-- A listed element belongs to a registered mapping. -/
theorem Balanced.stored {element : ListElement M} (member : element ∈ before.listed) :
    element.1 ∈ before.base.storageRegistry := by
  cases before with
  | plain policy => exact (Policy.Balanced.stored balanced element member).1
  | window policy =>
      obtain ⟨sliding, fixed, _, _⟩ := balanced
      obtain inFixed | inSliding := List.mem_append.mp member
      · exact (fixed.stored element inFixed).1
      · exact (sliding.stored element inSliding).1

/-- A listed element is in range. -/
theorem Balanced.below {element : ListElement M} (member : element ∈ before.listed) :
    element.2 < (mappings element.1).segments := by
  cases before with
  | plain policy => exact (Policy.Balanced.stored balanced element member).2
  | window policy =>
      obtain ⟨sliding, fixed, _, _⟩ := balanced
      obtain inFixed | inSliding := List.mem_append.mp member
      · exact (fixed.stored element inFixed).2
      · exact (sliding.stored element inSliding).2

theorem Balanced.nodup_listed :
    before.listed.Nodup := by
  cases before with
  | plain policy => exact Policy.Balanced.nodup balanced
  | window policy =>
      obtain ⟨sliding, fixed, slidingFlag, fixedFlag⟩ := balanced
      refine List.nodup_append.mpr ⟨fixed.nodup, sliding.nodup, ?_⟩
      rintro element inFixed _ inSliding rfl
      have flag := fixedFlag element inFixed
      rw [slidingFlag element inSliding] at flag
      cases flag

/-- A new limit does not matter to the accounts. -/
theorem Notified.setDynamicMaxMemory (limit : Nat) :
    Notified mappings before (before.setDynamicMaxMemory limit) := by
  cases before with
  | plain policy =>
      exact ⟨⟨rfl, rfl, rfl, Policy.Balanced.congr balanced rfl rfl rfl⟩, id,
        fun _ member => member⟩
  | window policy =>
      obtain ⟨sliding, fixed, slidingFlag, fixedFlag⟩ := balanced
      exact ⟨⟨rfl, rfl, rfl, sliding.congr rfl rfl rfl,
        fixed.congr rfl rfl rfl, slidingFlag, fixedFlag⟩, id,
        fun _ member => member⟩

end

theorem getCurrentMemory_setDynamicMaxMemory (object : PolicyObject M Q) (limit : Nat) :
    (object.setDynamicMaxMemory limit).getCurrentMemory =
      object.getCurrentMemory := by
  cases object <;> rfl

theorem isPlain_setDynamicMaxMemory {limit : Nat} :
    (before.setDynamicMaxMemory limit).IsPlain ↔ before.IsPlain := by
  cases before <;> rfl

/-- A FIFO or LIFO policy is above any limit below its memory. -/
theorem IsPlain.aboveLimit {limit : Nat} (isPlain : before.IsPlain)
    (above : limit < before.getCurrentMemory) :
    (before.setDynamicMaxMemory limit).AboveLimit := by
  cases before with
  | plain policy => exact above
  | window policy => exact isPlain.elim

theorem dynamicMaxMemory_setDynamicMaxMemory (object : PolicyObject M Q) (limit : Nat) :
    (object.setDynamicMaxMemory limit).base.dynamicMaxMemory = limit := by
  cases object <;> rfl

theorem setQuota_ok {quota : Option Q} (balanced : before.Balanced mappings)
    (ends : before.setQuota quota = .ok after) :
    after.base.storageRegistry = before.base.storageRegistry ∧
      after.base.isLocal = before.base.isLocal ∧ after.Balanced mappings := by
  cases before with
  | plain policy =>
      obtain ⟨linked, sets, rfl⟩ := Fallible.map_eq_ok.mp ends
      unfold Policy.setQuota at sets
      split at sets
      · cases sets
        exact ⟨rfl, rfl, Policy.Balanced.congr balanced rfl rfl rfl⟩
      · cases sets
  | window policy =>
      obtain ⟨linked, sets, rfl⟩ := Fallible.map_eq_ok.mp ends
      obtain ⟨_, _, rfl⟩ := Fallible.map_eq_ok.mp sets
      obtain ⟨sliding, fixed, slidingFlag, fixedFlag⟩ := balanced
      exact ⟨rfl, rfl, sliding.congr rfl rfl rfl, fixed.congr rfl rfl rfl,
        slidingFlag, fixedFlag⟩

variable [DecidableEq M] {mapping : M}

section

variable (balanced : before.Balanced mappings)
include balanced

theorem registerMapping_ok
    (fresh : mapping ∉ before.base.storageRegistry)
    (ends : before.registerMapping mappings mapping = .ok after) :
    after.base.storageRegistry = before.base.storageRegistry ++ [mapping] ∧
      after.base.isLocal = before.base.isLocal ∧ after.Balanced mappings := by
  cases before with
  | plain policy =>
      obtain ⟨registered, registers, rfl⟩ := Fallible.map_eq_ok.mp ends
      obtain ⟨_, rfl⟩ := Policy.registerMapping_ok registers
      exact ⟨rfl, rfl, Policy.Balanced.register balanced rfl rfl rfl⟩
  | window policy =>
      obtain ⟨registered, registers, rfl⟩ := Fallible.map_eq_ok.mp ends
      obtain ⟨inherited, inherits, rfl⟩ := Fallible.map_eq_ok.mp registers
      obtain ⟨_, rfl⟩ := Policy.registerMapping_ok inherits
      obtain ⟨sliding, fixed, slidingFlag, fixedFlag⟩ := balanced
      have other {element : ListElement M}
          (stored : element.1 ∈ policy.storageRegistry) :
          element.1 ≠ mapping := fun same => fresh (same ▸ stored)
      refine ⟨rfl, rfl, Policy.Balanced.register sliding rfl rfl rfl,
        Policy.Balanced.register fixed rfl rfl rfl, ?_, ?_⟩
      · intro element member
        exact (if_neg (other (sliding.stored element member).1)).trans
          (slidingFlag element member)
      · intro element member
        exact (if_neg (other (fixed.stored element member).1)).trans
          (fixedFlag element member)

theorem Balanced.getCurrentMemory_lt
    (space : Spacious mappings before.base.storageRegistry) :
    before.getCurrentMemory < wordModulus := by
  cases before with
  | plain policy =>
      have small := Policy.Balanced.currentMemory_lt balanced space
      exact Nat.lt_of_lt_of_le small (Nat.div_le_self _ _)
  | window policy => exact Nat.mod_lt _ (by decide)

/-- The memory of an object is the one of its elements. -/
theorem Balanced.getCurrentMemory_eq
    (space : Spacious mappings before.base.storageRegistry) :
    before.getCurrentMemory =
      weight (Policy.elementSize mappings) before.listed := by
  cases before with
  | plain policy => exact Policy.Balanced.counter balanced
  | window policy =>
      obtain ⟨sliding, fixed, _, _⟩ := balanced
      have slidingSmall : policy.currentSlidingWindowMemory < wordModulus / 2 :=
        sliding.currentMemory_lt space
      have fixedSmall : policy.currentFixedMemory < wordModulus / 2 :=
        fixed.currentMemory_lt space
      have slidingCounter : policy.currentSlidingWindowMemory =
          weight (Policy.elementSize mappings) policy.rootSlidingWindow :=
        sliding.counter
      have fixedCounter : policy.currentFixedMemory =
          weight (Policy.elementSize mappings) policy.rootFixedWindow :=
        fixed.counter
      have total : wordAdd policy.currentSlidingWindowMemory
          policy.currentFixedMemory =
            policy.currentSlidingWindowMemory + policy.currentFixedMemory :=
        wordAdd_of_lt (by omega)
      change wordAdd policy.currentSlidingWindowMemory policy.currentFixedMemory =
        weight _ (policy.rootFixedWindow ++ policy.rootSlidingWindow)
      rw [total, weight_append, slidingCounter, fixedCounter, Nat.add_comm]

/-- An object that lists fewer elements uses no more memory. -/
theorem Balanced.getCurrentMemory_le (keeps : after.Balanced mappings)
    (space : Spacious mappings before.base.storageRegistry)
    (registry : after.base.storageRegistry = before.base.storageRegistry)
    (fewer : ∀ element ∈ after.listed, element ∈ before.listed) :
    after.getCurrentMemory ≤ before.getCurrentMemory := by
  rw [balanced.getCurrentMemory_eq space,
    keeps.getCurrentMemory_eq (registry ▸ space)]
  exact weight_le_weight _ keeps.nodup_listed balanced.nodup_listed fewer

end

variable {cur : ListElement M} {ndebug : Bool}

theorem notifyTouch_ok {touch : Touch M} (balanced : before.Balanced mappings)
    (space : Spacious mappings before.base.storageRegistry)
    (registered : cur.1 ∈ before.base.storageRegistry)
    (below : cur.2 < (mappings cur.1).segments)
    (ends : before.notifyTouch mappings ndebug cur.1 cur.2 =
      .ok (touch, after)) :
    Advanced mappings before after ∧
      (cur ∉ touch.idsToEvict ↔ before.Room mappings cur) := by
  cases before with
  | plain policy =>
      obtain ⟨⟨value, state⟩, touches, same⟩ := Fallible.map_eq_ok.mp ends
      cases same
      have serves := Policy.serves_of_notifyTouch registered touches
      cases kind : policy.kind with
      | fifo =>
          obtain ⟨touched, kept⟩ := Policy.fifo_notifyTouch_ok balanced space
            serves below kind touches
          exact ⟨.of_updated touched.toUpdated,
            kept.trans ⟨fun fits _ => fits, fun room => room kind⟩⟩
      | lifo =>
          obtain ⟨touched, kept, ring⟩ := Policy.lifo_notifyTouch_ok balanced
            space serves below kind touches
          refine ⟨.of_updated touched.toUpdated,
            iff_of_true (fun evicted => ?_) fun isFifo => ?_⟩
          · apply touched.unlisted cur evicted
            rw [ring]
            exact List.mem_cons_self
          · cases kind.symm.trans isFifo
  | window policy =>
      obtain ⟨⟨value, state⟩, touches, same⟩ := Fallible.map_eq_ok.mp ends
      cases same
      obtain ⟨owner, found, _⟩ := Fallible.bind_eq_ok.mp touches
      have serves := Policy.serves_of_getStorageInfo registered found
      obtain ⟨same, kept, room⟩ := FifoWindowPolicy.notifyTouch_ok balanced
        space serves below touches
      exact ⟨.of_sameSettings same kept, room⟩

/-- The critical section of `shrinkMemory`. -/
theorem shrinkMemory_ok {idsToEvict : List (ListElement M)}
    (balanced : before.Balanced mappings)
    (space : Spacious mappings before.base.storageRegistry)
    (ends : before.shrinkMemory mappings = .ok (idsToEvict, after)) :
    Shrinks mappings before idsToEvict after := by
  cases before with
  | plain policy =>
      obtain ⟨⟨value, state⟩, shrinks, same⟩ := Fallible.map_eq_ok.mp ends
      cases same
      obtain ⟨looped, updated⟩ :=
        (Policy.shrinkMemory_spec balanced space).1 value state shrinks
      have parts (element : ListElement M)
          (member : element ∈ state.ring ∨ element ∈ value) :
          element ∈ policy.ring := by
        simpa using (updated.listed element).mp member
      refine ⟨⟨.of_updated updated, id, fun element member =>
          parts element (Or.inl member)⟩,
        fun element member => parts element (Or.inr member),
        fun _ => Policy.not_mem_shrinkMemory_iff balanced space shrinks,
        Nat.lt_of_le_of_lt looped.within, ?_⟩
      intro _ above largest small
      exact looped.lt_add above fun element member =>
        small element.1 (Policy.Balanced.stored balanced element member).1
  | window policy =>
      obtain ⟨⟨value, state⟩, shrinks, same⟩ := Fallible.map_eq_ok.mp ends
      cases same
      obtain ⟨same, kept, keeps⟩ :=
        FifoWindowPolicy.shrinkMemory_ok balanced space shrinks
      obtain ⟨⟨taken, window⟩, loops, equal⟩ := Fallible.map_eq_ok.mp shrinks
      cases equal
      obtain ⟨sliding, fixed, _, _⟩ := balanced
      obtain ⟨looped, updated⟩ :=
        (Policy.shrinkMemory_spec sliding space).1 taken window loops
      have parts (element : ListElement M)
          (member : element ∈ window.ring ∨ element ∈ taken) :
          element ∈ policy.rootSlidingWindow := by
        simpa using (updated.listed element).mp member
      refine ⟨⟨.of_sameSettings same kept, id, ?_⟩, ?_, keeps, ?_,
        fun isPlain => isPlain.elim⟩
      · intro element member
        exact List.mem_append.mpr ((List.mem_append.mp member).imp_right
          fun listed => parts element (Or.inl listed))
      · intro element member
        exact List.mem_append_right _ (parts element (Or.inr member))
      · intro above
        have less : window.currentMemory < policy.currentSlidingWindowMemory :=
          Nat.lt_of_le_of_lt looped.within above
        have slidingSmall : policy.currentSlidingWindowMemory < wordModulus / 2 :=
          sliding.currentMemory_lt space
        have fixedSmall : policy.currentFixedMemory < wordModulus / 2 :=
          fixed.currentMemory_lt space
        change wordAdd window.currentMemory policy.currentFixedMemory <
          wordAdd policy.currentSlidingWindowMemory policy.currentFixedMemory
        rw [wordAdd_of_lt (by omega), wordAdd_of_lt (by omega)]
        omega

/-- An object that is not above its limit has nothing to give up. -/
theorem shrinkMemory_of_within (within : ¬before.AboveLimit) :
    before.shrinkMemory mappings = .ok ([], before) := by
  cases before with
  | plain policy =>
      have loop : policy.shrinkMemory mappings = .ok ([], policy) :=
        Policy.evictLoop_of_within (Nat.le_of_not_lt within)
      exact Fallible.map_eq_ok.mpr ⟨_, loop, rfl⟩
  | window policy =>
      have loop : policy.slidingWindow.shrinkMemory mappings =
          .ok ([], policy.slidingWindow) :=
        Policy.evictLoop_of_within (Nat.le_of_not_lt within)
      exact Fallible.map_eq_ok.mpr ⟨_, Fallible.map_eq_ok.mpr ⟨_, loop, rfl⟩, rfl⟩

/-- Shrinking a balanced object fails at the check on the number of evictions
only. -/
theorem shrinkMemory_eq_error {stop : Stop} (balanced : before.Balanced mappings)
    (space : Spacious mappings before.base.storageRegistry)
    (fails : before.shrinkMemory mappings = .error stop) :
    stop = .fatal reachMaximum := by
  cases before with
  | plain policy =>
      exact (Policy.shrinkMemory_spec balanced space).2 stop
        (Fallible.map_eq_error.mp fails)
  | window policy =>
      obtain ⟨sliding, _, _, _⟩ := balanced
      exact (Policy.shrinkMemory_spec sliding space).2 stop
        (Fallible.map_eq_error.mp (Fallible.map_eq_error.mp fails))

theorem serves_of_notifyEvict {index : Nat}
    (registered : mapping ∈ before.base.storageRegistry)
    (ends : before.notifyEvict mappings ndebug mapping index = .ok after) :
    before.base.Serves mapping := by
  cases before with
  | plain policy | window policy =>
      obtain ⟨state, notifies, _⟩ := Fallible.map_eq_ok.mp ends
      obtain ⟨owner, found, _⟩ := Fallible.bind_eq_ok.mp notifies
      exact Policy.serves_of_getStorageInfo registered found

/-- With assertions, a notice that is accepted is for a listed element. -/
theorem listed_of_notifyEvict
    (ends : before.notifyEvict mappings false cur.1 cur.2 = .ok after) :
    cur ∈ before.listed := by
  cases before with
  | plain policy =>
      obtain ⟨state, notifies, rfl⟩ := Fallible.map_eq_ok.mp ends
      obtain ⟨owner, found, checks⟩ := Fallible.bind_eq_ok.mp notifies
      obtain rfl := Policy.getStorageInfo_checked found
      by_contra absent
      have outside : cur ∉ policy.ring := absent
      simp [outside] at checks
  | window policy =>
      obtain ⟨state, notifies, rfl⟩ := Fallible.map_eq_ok.mp ends
      obtain ⟨owner, found, checks⟩ := Fallible.bind_eq_ok.mp notifies
      obtain rfl := Policy.getStorageInfo_checked found
      refine List.mem_append.mpr (FifoWindowPolicy.isInList_iff.mp ?_)
      by_contra absent
      simp [absent] at checks

/-- A notice is not refused at the check on the number of evictions. -/
theorem notifyEvict_ne_reachMaximum {index : Nat} :
    before.notifyEvict mappings ndebug mapping index ≠
      .error (.fatal reachMaximum) := by
  have known {policy : Policy M Q} :
      policy.getStorageInfo ndebug mapping ≠ .error (.fatal reachMaximum) := by
    unfold Policy.getStorageInfo
    repeat' split
    all_goals simp [reachMaximum]
  intro fails
  cases before with
  | plain policy | window policy =>
      obtain fails | ⟨owner, _, fails⟩ :=
        Fallible.bind_eq_error.mp (Fallible.map_eq_error.mp fails)
      · exact known fails
      · dsimp only at fails
        split at fails
        · cases fails
        · simp [assertIsInList, reachMaximum] at fails

section

variable (balanced : before.Balanced mappings)
variable (space : Spacious mappings before.base.storageRegistry)
include balanced space

/-- A notice for a listed element is accepted. -/
theorem notifyEvict_listed (serves : before.base.Serves cur.1)
    (member : cur ∈ before.listed) (ndebug : Bool) :
    ∃ after, before.notifyEvict mappings ndebug cur.1 cur.2 = .ok after ∧
      Notified mappings before after := by
  cases before with
  | plain policy =>
      obtain ⟨state, notified, ring, updated⟩ :=
        Policy.notifyEvict_ok balanced space serves member ndebug
      refine ⟨.plain state, Fallible.map_eq_ok.mpr ⟨state, notified, rfl⟩,
        .of_updated updated, id, fun element listed => ?_⟩
      change element ∈ policy.ring
      rw [show (PolicyObject.plain state).listed = _ from ring] at listed
      exact List.mem_of_mem_erase listed
  | window policy =>
      have inList : policy.isInList cur = true :=
        FifoWindowPolicy.isInList_iff.mpr (List.mem_append.mp member)
      obtain ⟨kept, _⟩ := FifoWindowPolicy.Balanced.freeElement balanced space cur
      refine ⟨.window (policy.freeElement (mappings cur.1).segmentSize cur),
        Fallible.map_eq_ok.mpr
          ⟨_, FifoWindowPolicy.notifyEvict_eq serves inList ndebug, rfl⟩,
        .of_sameSettings (policy.freeElement_sameSettings _ cur) kept, id, ?_⟩
      intro element remains
      unfold listed at remains ⊢
      rw [List.mem_append, FifoWindowPolicy.freeElement_rootFixedWindow,
        FifoWindowPolicy.freeElement_rootSlidingWindow] at remains
      exact List.mem_append.mpr
        (remains.imp List.mem_of_mem_erase List.mem_of_mem_erase)

/-- A notice, which in a build without assertions is for a listed element. -/
theorem notifyEvict_ok
    (noticed : ndebug = true → cur ∈ before.listed)
    (ends : before.notifyEvict mappings ndebug cur.1 cur.2 = .ok after) :
    Notified mappings before after := by
  have member : cur ∈ before.listed := by
    cases ndebug with
    | true => exact noticed rfl
    | false => exact listed_of_notifyEvict ends
  obtain ⟨state, accepted, notified⟩ :=
    notifyEvict_listed balanced space
      (serves_of_notifyEvict (balanced.stored member) ends) member ndebug
  rw [accepted] at ends
  cases ends
  exact notified

/-- `freeElementStorage` of a registered mapping. -/
theorem freeElementStorage_ok
    (registered : mapping ∈ before.base.storageRegistry)
    (nodup : before.base.storageRegistry.Nodup)
    (ends : before.freeElementStorage mappings ndebug mapping = .ok after) :
    after.base.storageRegistry = before.base.storageRegistry.erase mapping ∧
      after.base.isLocal = before.base.isLocal ∧ after.Balanced mappings := by
  cases before with
  | plain policy =>
      obtain ⟨state, frees, rfl⟩ := Fallible.map_eq_ok.mp ends
      obtain ⟨owner, found, _⟩ := Fallible.bind_eq_ok.mp frees
      obtain ⟨freed, equal, effect⟩ := Policy.freeElementStorage_ok balanced space
        (Policy.serves_of_getStorageInfo registered found) nodup ndebug
      rw [equal] at frees
      cases frees
      exact ⟨congrArg PolicySettings.storageRegistry effect.settings,
        congrArg (·.isLocal) effect.settings, effect.balanced⟩
  | window policy =>
      obtain ⟨state, frees, rfl⟩ := Fallible.map_eq_ok.mp ends
      obtain ⟨owner, found, _⟩ := Fallible.bind_eq_ok.mp frees
      exact FifoWindowPolicy.freeElementStorage_ok balanced space
        (Policy.serves_of_getStorageInfo registered found) nodup frees

end

end PolicyObject

end UmmapIo
