import UmmapIo.Mixed.Termination

/-!
# The number of evictions of one call

A call collects its evictions in an array and stops the process when the array
would be full.  With segments of one size the number of evictions is decided by
how far the memory is above the limit.  Touches alone never bring it far above,
but a quota that lowers the limit does: registering a policy with many segments
to a small quota stops the process.
-/

namespace UmmapIo

variable {M P Q : Type} {mappings : M → Mapping}

/-! ## Segments of one size -/

namespace Policy

/-- The first elements the loop may take, when all have one size. -/
theorem weight_take_uniform {ring : List (ListElement M)} {size : Nat}
    (uniform : ∀ element ∈ ring, elementSize mappings element = size)
    (enough : maxIdsToEvict ≤ ring.length) :
    weight (elementSize mappings) (ring.take (maxIdsToEvict - 1)) =
      (maxIdsToEvict - 1) * size := by
  rw [weight_eq_length_mul _ fun element member =>
    uniform element (List.mem_of_mem_take member), List.length_take,
    Nat.min_eq_left (by omega)]

variable {policy : Policy M Q} {size : Nat}

theorem Balanced.elementSize_eq (balanced : policy.Balanced mappings)
    (uniform : ∀ mapping ∈ policy.storageRegistry,
      (mappings mapping).segmentSize = size) :
    ∀ element ∈ policy.ring, elementSize mappings element = size :=
  fun element member =>
    uniform element.1 (balanced.stored element member).1

variable [DecidableEq M]

/-- Shrinking fails at the check when the memory is more than 127 segments above
the limit. -/
theorem Balanced.shrinkMemory_uniform (balanced : policy.Balanced mappings)
    (space : Spacious mappings policy.storageRegistry)
    (uniform : ∀ mapping ∈ policy.storageRegistry,
      (mappings mapping).segmentSize = size) :
    policy.shrinkMemory mappings = .error (.fatal reachMaximum) ↔
      policy.dynamicMaxMemory + (maxIdsToEvict - 1) * size <
        policy.currentMemory := by
  have sizes := balanced.elementSize_eq uniform
  have counter := balanced.counter
  rw [weight_eq_length_mul _ sizes] at counter
  rw [shrinkMemory_eq_reachMaximum_iff balanced space]
  constructor
  · rintro ⟨many, above⟩
    rw [weight_take_uniform sizes many] at above
    exact above
  · intro above
    have many : maxIdsToEvict ≤ policy.ring.length := by
      by_contra few
      have bound : policy.ring.length * size ≤ (maxIdsToEvict - 1) * size :=
        Nat.mul_le_mul_right size (by omega)
      omega
    rw [weight_take_uniform sizes many]
    exact ⟨many, above⟩

/-- A touch fails at the check when the memory, with the touched segment, is more
than 127 segments above the limit.  The LIFO class needs one segment more, as
the touched one is not taken. -/
theorem Balanced.notifyTouch_uniform {cur : ListElement M} {ndebug : Bool}
    (balanced : policy.Balanced mappings)
    (space : Spacious mappings policy.storageRegistry)
    (serves : policy.Serves cur.1)
    (below : cur.2 < (mappings cur.1).segments)
    (uniform : ∀ mapping ∈ policy.storageRegistry,
      (mappings mapping).segmentSize = size) :
    policy.notifyTouch mappings ndebug cur.1 cur.2 =
        .error (.fatal reachMaximum) ↔
      (policy.kind = .lifo →
        maxIdsToEvict ≤ (policy.ring.erase cur).length) ∧
        policy.dynamicMaxMemory + (maxIdsToEvict - 1) * size <
          policy.currentMemory + if cur ∈ policy.ring then 0 else size := by
  have sizes := balanced.elementSize_eq uniform
  have own : elementSize mappings cur = size := uniform cur.1 serves.1
  obtain ⟨_, _, _, total⟩ := balanced.touching ⟨serves.1, below⟩
  rw [own] at total
  have ringSizes : ∀ element ∈ policy.touchRing cur,
      elementSize mappings element = size := by
    intro element member
    obtain rfl | other := List.mem_cons.mp
      ((policy.touchRing_parts cur).mem_iff.mp (List.mem_append_right _ member))
    · exact own
    · exact sizes element (List.mem_of_mem_erase other)
  have counted : weight (elementSize mappings) (cur :: policy.ring.erase cur) =
      ((policy.ring.erase cur).length + 1) * size := by
    rw [weight_eq_length_mul, List.length_cons]
    intro element member
    obtain rfl | other := List.mem_cons.mp member
    · exact own
    · exact sizes element (List.mem_of_mem_erase other)
  rw [notifyTouch_eq_reachMaximum_iff balanced space serves below]
  constructor
  · rintro ⟨many, above⟩
    rw [weight_take_uniform ringSizes many, total] at above
    refine ⟨fun lifo => ?_, above⟩
    unfold touchRing at many
    rw [lifo] at many
    exact many
  · rintro ⟨hidden, above⟩
    rw [← total] at above
    have many : maxIdsToEvict ≤ (policy.touchRing cur).length := by
      unfold touchRing
      cases kind : policy.kind with
      | fifo =>
          by_contra few
          rw [List.length_append, List.length_singleton] at few
          have bound : ((policy.ring.erase cur).length + 1) * size ≤
              (maxIdsToEvict - 1) * size :=
            Nat.mul_le_mul_right size (by omega)
          omega
      | lifo => exact hidden kind
    rw [weight_take_uniform ringSizes many]
    exact ⟨many, above⟩

end Policy

/-- A mapping of 300 pages with a FIFO policy. -/
def largeSetup : Setup Unit Unit :=
  Setup.single 299 true

/-- Its policy with some pages in the list. -/
def listingPolicy (count : Nat) (ring : List (ListElement Unit)) :
    Policy Unit Unit :=
  { Policy.create .fifo (300 * pageSize) false with
    storageRegistry := [()]
    currentMemory := count * pageSize
    ring := ring }

/-- Its policy after the first pages were touched in order. -/
def filledPolicy (count : Nat) : Policy Unit Unit :=
  listingPolicy count ((List.range count).map (Prod.mk ()))

theorem ring_filledPolicy (count : Nat) :
    (filledPolicy count).ring.erase ((), count) ++ [((), count)] =
      (filledPolicy (count + 1)).ring := by
  have absent : ((), count) ∉ (filledPolicy count).ring := by
    simp [filledPolicy, listingPolicy]
  rw [List.erase_of_not_mem absent]
  simp [filledPolicy, listingPolicy, List.range_succ]

variable {count : Nat}

theorem notifyTouch_filledPolicy (room : count < 300) :
    (filledPolicy count).notifyTouch largeSetup.mapping true () count =
      .ok (⟨[], true, count * pageSize⟩, filledPolicy (count + 1)) := by
  have serves : (filledPolicy count).Serves ((), count).1 :=
    ⟨List.mem_singleton_self (), fun flag => nomatch flag⟩
  have absent : ((), count) ∉ (filledPolicy count).ring := by
    simp [filledPolicy, listingPolicy]
  have counted : (filledPolicy count).counting largeSetup.mapping ((), count)
      (filledPolicy (count + 1)).ring = filledPolicy (count + 1) := by
    have sum : wordAdd (count * pageSize) pageSize = (count + 1) * pageSize := by
      rw [wordAdd_of_lt, Nat.succ_mul]
      unfold pageSize wordModulus
      omega
    unfold Policy.counting
    rw [if_pos (decide_eq_true absent)]
    change ({ filledPolicy (count + 1) with
      currentMemory := wordAdd (count * pageSize) pageSize } :
        Policy Unit Unit) = _
    rw [sum]
    rfl
  have touches : FifoPolicy.notifyTouch largeSetup.mapping true
      (filledPolicy count) ((), count).1 ((), count).2 = _ :=
    Policy.fifo_notifyTouch_eq serves (ring_filledPolicy count).symm
  have within : (filledPolicy (count + 1)).currentMemory ≤
      (filledPolicy (count + 1)).dynamicMaxMemory := by
    change (count + 1) * pageSize ≤ 300 * pageSize
    exact Nat.mul_le_mul_right pageSize room
  rw [counted, Policy.evictLoop_of_within within, decide_eq_true absent] at touches
  exact touches

/-- The states after the first pages were touched are reached. -/
theorem reachableBy_filledPolicy (count : Nat) (room : count ≤ 300) :
    ReachableBy (PolicyObject.step largeSetup.mapping true)
      (PolicyObject.Admits largeSetup.mapping)
      (.plain (Policy.create .fifo (300 * pageSize) false))
      (.plain (filledPolicy count)) := by
  induction count with
  | zero =>
      exact ReachableBy.initial.step (.allocateElementStorage ()) (by decide) rfl
  | succ count inductionHypothesis =>
      have segments : (largeSetup.mapping ()).segments = 300 := by decide
      refine (inductionHypothesis (by omega)).step (.notifyTouch () count)
        ⟨List.mem_singleton_self (), by omega⟩
        (PolicyObject.step_eq_some.mpr ⟨[], ?_⟩)
      simp only [PolicyObject.call, PolicyObject.notifyTouch,
        notifyTouch_filledPolicy room, Except.map]

namespace Setup

variable [Fintype M] [DecidableEq M] [DecidableEq P] [DecidableEq Q]
variable {setup : Setup M P} {world : World M P Q} {policy : P}
variable {contract : Contract (policySignature M P Q) (World M P Q)} {touch : Touch M}
variable {state : Policy M Q}

/-- A touch that evicts nothing, by a policy that belongs to no quota. -/
theorem meets_quietTouch {element : ListElement M}
    (invariant : ∀ op world, contract.invariant op world)
    (touches : (world.policy policy).notifyTouch setup.mapping setup.ndebug
      element.1 element.2 = .ok (touch, state))
    (nothing : touch.idsToEvict = [])
    (unlinked : state.policyQuota = none)
    (rounds : Nat) :
    (PolicyProgram.notifyTouch rounds policy element).Meets setup.handle contract
      (fun _ after => after = world.setPolicy policy state) world := by
  have answer : setup.handle (.notifyTouch policy element.1 element.2) world =
      some (.ok touch, world.setPolicy policy state) := by
    change world.reply (((world.policy policy).notifyTouch setup.mapping
      setup.ndebug element.1 element.2).map _) = _
    rw [touches]
    rfl
  refine Program.Meets.bind (.answer (invariant _ world) answer fun _ => ?_)
  change (Program.each (PolicyProgram.evict policy) touch.idsToEvict >>= fun _ =>
    PolicyProgram.notifyQuota rounds policy touch).Meets _ _ _ _
  rw [nothing]
  refine Program.Meets.bind (.request (invariant _ _) (fun _ waits => nomatch waits) ?_)
  intro _ observed after replied
  obtain ⟨rfl, rfl⟩ := answer_inj replied
  rw [World.setPolicy_policy_self, unlinked]
  exact rfl

/-- A fault on a segment that is not mapped, when the only policy of the mapping
has room for it and belongs to no quota. -/
theorem meets_quietFault {mapping : M} {address segmentId : Nat} {isWrite : Bool}
    (invariant : ∀ op world, contract.invariant op world)
    (accepted : (Call.fault address isWrite).Accepted (setup.mapping mapping))
    (segment : (address - (setup.mapping mapping).baseAddress) /
      (setup.mapping mapping).segmentSize = segmentId)
    (single : setup.policiesOf mapping = [policy])
    (unmapped : ¬(world.core mapping).Mapped segmentId)
    (touches : (world.policy policy).notifyTouch setup.mapping setup.ndebug
      mapping segmentId = .ok (touch, state))
    (nothing : touch.idsToEvict = [])
    (unlinked : state.policyQuota = none)
    (rounds : Nat) :
    (setup.onSegmentationFault rounds mapping address isWrite).Meets setup.handle
      contract
      (fun _ after => after = (world.setCore mapping ((world.core mapping).fault
        (setup.mapping mapping) (setup.driver mapping) segmentId
          isWrite)).setPolicy policy state) world := by
  have first : Mapping.alreadyDone isWrite ((world.core mapping).status
      segmentId) = false := by
    unfold Mapping.alreadyDone
    rw [Bool.eq_false_of_not_eq_true unmapped, Bool.and_false]
  rw [setup.onSegmentationFault_shape accepted rounds, segment]
  refine ⟨invariant _ world, fun _ => ⟨fun waits => (nomatch waits), ?_⟩⟩
  intro alreadyDone after replied
  obtain ⟨rfl, rfl⟩ := answer_inj replied
  rw [first]
  unfold Task.agenda faultTasks
  rw [single]
  exact (meets_quietTouch invariant touches nothing unlinked rounds).andThen
    fun _ _ equal => equal

end Setup

/-- The world after the first pages were touched. -/
def filledWorld (core : Core) (count : Nat) : World Unit Unit Unit where
  core := fun _ => core
  live := fun _ => true
  policy := fun _ => filledPolicy count
  quota := fun _ => Quota.create pageSize

theorem accepted_largeSetup (room : count < 300) :
    (Call.fault (pageSize + count * pageSize) true).Accepted
      (largeSetup.mapping ()) := by
  have whole : (largeSetup.mapping ()).getAlignedSize = 300 * pageSize := by
    decide
  refine ⟨Nat.le_add_right _ _, ?_, by decide, fun _ => rfl⟩
  rw [whole]
  exact Nat.add_lt_add_left (Nat.mul_lt_mul_of_pos_right room (by decide)) _

theorem run_fault_filledWorld {core : Core} (room : count < 300)
    (unmapped : ¬core.Mapped count) :
    (largeSetup.onSegmentationFault 1 () (pageSize + count * pageSize) true).run
        largeSetup.handle (filledWorld core count) =
      .finished () (filledWorld (core.fault (largeSetup.mapping ())
        (largeSetup.driver ()) count true) (count + 1)) := by
  have segment : (pageSize + count * pageSize -
      (largeSetup.mapping ()).baseAddress) /
        (largeSetup.mapping ()).segmentSize = count := by
    change (pageSize + count * pageSize - pageSize) / pageSize = count
    rw [Nat.add_sub_cancel_left, Nat.mul_div_cancel count (by decide)]
  have touches : ((filledWorld core count).policy ()).notifyTouch
      largeSetup.mapping largeSetup.ndebug () count = _ :=
    notifyTouch_filledPolicy room
  have invariant : ∀ op (world : World Unit Unit Unit), (Contract.ending
      (E := policySignature Unit Unit Unit) fun _ => False).invariant op world :=
    fun _ _ => trivial
  have meets := Setup.meets_quietFault invariant (accepted_largeSetup room)
    segment rfl unmapped touches rfl rfl 1
  obtain ⟨_, final, ran, equal⟩ | ⟨_, _, _, absurdity⟩ := meets.ends
  · rw [ran, equal]
    rfl
  · exact absurdity.elim

/-- The states after the first pages were touched are reached. -/
theorem sequentialRun_filledWorld (count : Nat) (room : count ≤ 300) :
    ∃ core : Core, (∀ other, count ≤ other → ¬core.Mapped other) ∧
      largeSetup.QuotaRun (fun _ _ => True)
        (filledWorld (Core.initial ⟨false, false⟩ fun _ => 0) 0)
        (filledWorld core count) := by
  induction count with
  | zero =>
      refine ⟨_, ?_, SequentialRun.initial⟩
      intro other _ mapped
      cases mapped
  | succ count inductionHypothesis =>
      obtain ⟨core, unmapped, reached⟩ := inductionHypothesis (by omega)
      refine ⟨_, ?_, reached.call _
        (.fault 1 () _ true (accepted_largeSetup room)) (fun _ _ => trivial)
        (run_fault_filledWorld room (unmapped count (Nat.le_refl count)))⟩
      intro other above mapped
      obtain before | same := (core.mapped_fault_iff count other true).mp mapped
      · exact unmapped other (by omega) before
      · omega

theorem started_filledWorld :
    largeSetup.Started (filledWorld (Core.initial ⟨false, false⟩ fun _ => 0) 0) :=
  Setup.started_single .fifo (300 * pageSize) rfl fun _ => rfl

theorem balanced_filledPolicy (room : count ≤ 300) :
    (filledPolicy count).Balanced largeSetup.mapping where
  nodup := List.nodup_range.map (fun _ _ equal => (Prod.mk.inj equal).2)
  stored := by
    intro element member
    have segments : (largeSetup.mapping ()).segments = 300 := by decide
    obtain ⟨index, inside, rfl⟩ := List.mem_map.mp member
    refine ⟨List.mem_singleton_self (), ?_⟩
    rw [segments]
    exact Nat.lt_of_lt_of_le (List.mem_range.mp inside) room
  counter := by
    have sizes : ∀ element ∈ (filledPolicy count).ring,
        Policy.elementSize largeSetup.mapping element = pageSize :=
      fun _ _ => rfl
    rw [weight_eq_length_mul _ sizes]
    simp [filledPolicy, listingPolicy]

/-- The policy of 300 pages when it is registered to the quota, with a limit. -/
def linkedPolicy (ring : List (ListElement Unit)) (limit : Nat) :
    Policy Unit Unit :=
  { listingPolicy 300 ring with
    policyQuota := some ()
    dynamicMaxMemory := limit }

/-- The world in which it is registered. -/
def linkedWorld (core : Core) (policy : Policy Unit Unit) :
    World Unit Unit Unit where
  core := fun _ => core
  live := fun _ => true
  policy := fun _ => policy
  quota := fun _ => ⟨pageSize, [()], none⟩

/-- Registering a policy that lists 300 pages to a quota of one page stops the
process if shrinking to the halved limit does. -/
theorem run_registerPolicy_listing {ring : List (ListElement Unit)}
    (fails : (linkedPolicy ring (Quota.shrunkLimit pageSize
      (300 * pageSize))).shrinkMemory largeSetup.mapping =
        .error (.fatal reachMaximum))
    (core : Core) :
    ∃ state, (PolicyProgram.registerPolicy 1 () ()).run largeSetup.handle
      { filledWorld core 0 with policy := fun _ => listingPolicy 300 ring } =
        .aborted reachMaximum state := by
  have added : largeSetup.handle (.addPolicy () ())
      { filledWorld core 0 with policy := fun _ => listingPolicy 300 ring } =
        some (.ok (), linkedWorld core (linkedPolicy ring (300 * pageSize))) :=
    rfl
  have limited : largeSetup.handle (.updateNotifyLimit ())
      (linkedWorld core (linkedPolicy ring (300 * pageSize))) =
        some ((), linkedWorld core (linkedPolicy ring pageSize)) := rfl
  have observed : largeSetup.handle (.registered ())
      (linkedWorld core (linkedPolicy ring pageSize)) =
        some ((pageSize, [((), 300 * pageSize)]),
          linkedWorld core (linkedPolicy ring pageSize)) := rfl
  have lowered : largeSetup.handle (.setDynamicMaxMemory ()
      (Quota.shrunkLimit pageSize (300 * pageSize)))
        (linkedWorld core (linkedPolicy ring pageSize)) =
      some ((), linkedWorld core (linkedPolicy ring
        (Quota.shrunkLimit pageSize (300 * pageSize)))) := rfl
  have stopped (world : World Unit Unit Unit)
      (policy : world.policy () = linkedPolicy ring
        (Quota.shrunkLimit pageSize (300 * pageSize))) :
      largeSetup.handle (.shrinkMemory ()) world =
        some (.error reachMaximum, world) := by
    change world.reply (((world.policy ()).shrinkMemory largeSetup.mapping).map _) = _
    rw [policy, fails]
    rfl
  have meets : (PolicyProgram.registerPolicy 1 () ()).Meets largeSetup.handle
      (.ending (· = reachMaximum)) (fun _ _ => False)
      { filledWorld core 0 with policy := fun _ => listingPolicy 300 ring } := by
    refine Program.Meets.bind (.answer trivial added fun _ => ?_)
    refine Program.Meets.bind (.answer trivial limited fun _ => ?_)
    refine Program.Meets.bind (.answer trivial rfl fun _ => ?_)
    refine Program.Meets.bind (.answer trivial observed fun _ => ?_)
    refine Program.Meets.bind (.answer trivial observed fun _ => ?_)
    refine Program.Meets.bind (.answer trivial lowered fun _ => ?_)
    refine Program.Meets.bind (Program.Meets.bind
      (.answer trivial (stopped _ rfl) fun _ => ?_))
    exact rfl
  obtain ⟨_, _, _, absurdity⟩ | ⟨message, state, ran, rfl⟩ := meets.ends
  · exact absurdity.elim
  · exact ⟨state, ran⟩

end UmmapIo
