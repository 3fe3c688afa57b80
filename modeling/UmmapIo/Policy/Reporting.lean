import UmmapIo.Policy.MemoryLimit
import UmmapIo.Lib.Hoare

/-!
# The memory that a policy reports

All mappings are attached to one policy.  Between the operations of one thread
its list is the list of mapped segments, and its counter their memory, as long as
no segment is withdrawn behind its back: a flush with the evict flag and
`dropClean` do not notify the policy.
-/

namespace UmmapIo

variable {M P Q : Type} [Fintype M] {setup : Setup M P} {policy : P}

/-- Memory of the mapped segments of the mappings that are attached to a
policy. -/
def World.attachedMemory [DecidableEq M] (world : World M P Q) (mappings : M → Mapping)
    (policy : P) : Nat :=
  ∑ element ∈ (Policy.allElements mappings).filter fun element =>
      element.1 ∈ (world.policy policy).storageRegistry ∧
        ((world.core element.1).status element.2).mapped = true,
    Policy.elementSize mappings element

/-- What holds in the middle of an operation: the policy lists the mapped segments
of its mappings, apart from those it is about to evict. -/
structure Reporting (setup : Setup M P) (policy : P) (pending : List (ListElement M))
    (world : World M P Q) : Prop where
  balanced : (world.policy policy).Balanced setup.mapping
  noQuota : (world.policy policy).policyQuota = none
  registered : ∀ mapping, mapping ∈ (world.policy policy).storageRegistry ↔
    world.live mapping = true
  nodup : (world.policy policy).storageRegistry.Nodup
  listed : ∀ element, element ∈ (world.policy policy).ring ∨
      element ∈ pending ↔
    element.1 ∈ (world.policy policy).storageRegistry ∧
      element.2 < (setup.mapping element.1).segments ∧
      (world.core element.1).Mapped element.2
  distinct : pending.Nodup
  apart : ∀ element ∈ pending, element ∉ (world.policy policy).ring

variable {world after : World M P Q} {pending : List (ListElement M)}

theorem Reporting.of_started (started : setup.Started world)
    (single : ∀ mapping, setup.policiesOf mapping = [policy]) :
    Reporting setup policy [] world := by
  have fresh := (started.policy policy).fresh
  have attached (mapping : M) : policy ∈ setup.policiesOf mapping := by
    rw [single]
    exact List.mem_cons_self
  refine ⟨fresh.balanced, fresh.policyQuota, ?_, fresh.registryNodup, ?_,
    List.nodup_nil, fun _ absurdity => nomatch absurdity⟩
  · intro mapping
    rw [fresh.registered]
    exact iff_of_true (attached mapping) (started.live mapping)
  · intro element
    rw [fresh.ring]
    have unmapped := started.unmapped element
    simp [unmapped]

/-- The counter is the memory of the mapped segments. -/
theorem Reporting.currentMemory [DecidableEq M]
    (reporting : Reporting setup policy [] world) :
    (world.policy policy).currentMemory =
      world.attachedMemory setup.mapping policy := by
  have same : (world.policy policy).ring.toFinset =
      (Policy.allElements setup.mapping).filter fun element =>
        element.1 ∈ (world.policy policy).storageRegistry ∧
          ((world.core element.1).status element.2).mapped = true := by
    ext element
    have listed := reporting.listed element
    rw [List.mem_toFinset, Finset.mem_filter, Policy.mem_allElements]
    unfold Core.Mapped at listed
    simp only [List.not_mem_nil, or_false] at listed
    rw [listed]
    tauto
  unfold World.attachedMemory
  rw [reporting.balanced.counter, ← same,
    List.sum_toFinset _ reporting.balanced.nodup]
  rfl

variable {mapping : M}

/-- A change of memory that maps and withdraws nothing. -/
theorem Reporting.setCore [DecidableEq M] {core : Core}
    (reporting : Reporting setup policy pending world)
    (same : ∀ segmentId, core.Mapped segmentId ↔
      (world.core mapping).Mapped segmentId) :
    Reporting setup policy pending (world.setCore mapping core) := by
  obtain ⟨balanced, noQuota, registered, nodup, listed, distinct, apart⟩ :=
    reporting
  refine ⟨balanced, noQuota, registered, nodup, ?_, distinct, apart⟩
  intro element
  rw [World.setCore_core]
  by_cases owned : element.1 = mapping
  · rw [owned, Function.update_self, same, ← owned]
    exact listed element
  · rw [Function.update_of_ne owned]
    exact listed element

variable [DecidableEq M] {element : ListElement M}

/-- An eviction that the policy ordered. -/
theorem Reporting.evicted
    (reporting : Reporting setup policy (element :: pending) world)
    (evicted : setup.Evicted policy element world after) :
    Reporting setup policy pending after := by
  obtain ⟨absent, distinct⟩ := List.nodup_cons.mp reporting.distinct
  have same : after.policy policy = world.policy policy :=
    evicted.others policy (Or.inr rfl)
  refine ⟨?_, ?_, ?_, ?_, ?_, distinct, ?_⟩
  all_goals rw [same]
  · exact reporting.balanced
  · exact reporting.noQuota
  · rw [evicted.live]
    exact reporting.registered
  · exact reporting.nodup
  · intro other
    have listed := reporting.listed other
    have apart := reporting.apart element List.mem_cons_self
    rw [List.mem_cons] at listed
    rw [evicted.core, setup.mapped_evict_iff]
    by_cases taken : other = element
    · subst taken
      simp [apart, absent]
    · simp only [taken, false_or] at listed
      simp only [ne_eq, taken, not_false_eq_true, and_true]
      exact listed
  · exact fun other member =>
      reporting.apart other (List.mem_cons_of_mem _ member)

variable [DecidableEq P] {state : Policy M Q}

/-- The touch of a segment that was just mapped. -/
theorem Reporting.touched {isWrite : Bool} {touch : Touch M}
    (reporting : Reporting setup policy [] world)
    (live : world.live element.1 = true)
    (below : element.2 < (setup.mapping element.1).segments)
    (touches : (world.policy policy).notifyTouch setup.mapping setup.ndebug
      element.1 element.2 = .ok (touch, state)) :
    Reporting setup policy touch.idsToEvict
      ((world.setCore element.1 ((world.core element.1).fault
        (setup.mapping element.1) (setup.driver element.1) element.2
        isWrite)).setPolicy policy state) := by
  have registered := (reporting.registered element.1).mpr live
  have touched := Policy.notifyTouch_ok reporting.balanced (setup.space.spacious _)
    (Policy.serves_of_notifyTouch registered touches) below touches
  refine ⟨?_, ?_, ?_, ?_, ?_, touched.nodup, ?_⟩
  all_goals
    rw [World.setPolicy_policy_self]
    try rw [touched.settings]
  · exact touched.balanced
  · exact reporting.noQuota
  · exact reporting.registered
  · exact reporting.nodup
  · intro other
    have listed := reporting.listed other
    simp only [List.not_mem_nil, or_false] at listed
    rw [touched.listed, List.mem_singleton, listed, World.setPolicy_core,
      World.setCore_core, setup.mapped_fault_iff]
    constructor
    · rintro (rfl | ⟨known, inside, mapped⟩)
      · exact ⟨registered, below, Or.inr rfl⟩
      · exact ⟨known, inside, Or.inl mapped⟩
    · rintro ⟨known, inside, mapped | rfl⟩
      · exact Or.inr ⟨known, inside, mapped⟩
      · exact Or.inl rfl
  · exact touched.unlisted

/-- The policy has given the storage of a mapping free. -/
theorem Reporting.destroyed
    (reporting : Reporting setup policy [] world)
    (freed : (world.policy policy).Freed setup.mapping mapping state) :
    Reporting setup policy [] ((world.setPolicy policy state).setLive mapping false) := by
  refine ⟨?_, ?_, ?_, ?_, ?_, List.nodup_nil,
    fun _ absurdity => nomatch absurdity⟩
  all_goals
    rw [World.setLive_policy, World.setPolicy_policy_self]
    try rw [freed.settings]
  · exact freed.balanced
  · exact reporting.noQuota
  · intro other
    rw [reporting.nodup.mem_erase_iff, reporting.registered, World.setLive_live]
    by_cases same : other = mapping
    · simp [same]
    · simp [same]
  · exact reporting.nodup.erase mapping
  · intro other
    have listed := reporting.listed other
    simp only [List.not_mem_nil, or_false] at listed ⊢
    rw [freed.listed, listed, reporting.nodup.mem_erase_iff]
    constructor
    · rintro ⟨⟨known, inside, mapped⟩, different⟩
      exact ⟨⟨different, known⟩, inside, mapped⟩
    · rintro ⟨⟨different, known⟩, inside, mapped⟩
      exact ⟨⟨known, inside, mapped⟩, different⟩

/-! ## Operations -/

variable [DecidableEq Q]

/-- The operation withdraws no segment without the knowledge of the policy. -/
def Setup.KeepsMapped (setup : Setup M P) :
    PolicyOp M P Q → World M P Q → Prop
  | .flush mapping offset size flags, world => flags.unmap = true →
      ∀ segmentId ∈ (setup.mapping mapping).flushSegments offset size,
        ¬(world.core mapping).Mapped segmentId
  | .dropClean mapping, world =>
      ∀ segmentId < (setup.mapping mapping).segments,
        (world.core mapping).Mapped segmentId →
          ((world.core mapping).status segmentId).dirty = true
  | _, _ => True

instance Setup.decidableKeepsMapped
    (setup : Setup M P)
    (op : (policySignature M P Q).Op)
    (world : World M P Q) :
    Decidable (setup.KeepsMapped op world) := by
  cases op <;> unfold Setup.KeepsMapped <;> infer_instance

/-- The contract of operations that may stop or wait. -/
def Setup.reportContract (setup : Setup M P) :
    Contract (policySignature M P Q) (World M P Q) where
  assumes := setup.KeepsMapped
  invariant _ _ := True
  stops _ := True
  blocks := True

theorem Reporting.meets_evictions
    (single : ∀ mapping, setup.policiesOf mapping = [policy])
    (reporting : Reporting setup policy pending world) :
    (Program.each (PolicyProgram.evict policy) pending).Meets setup.handle
      setup.reportContract (fun _ after => Reporting setup policy [] after)
      world := by
  refine Program.Meets.each (Reporting setup policy) reporting ?_
  intro element rest before reporting
  have others {other : P} (attached : other ∈ setup.policiesOf element.1)
      (different : other ≠ policy) : False := by
    rw [single, List.mem_singleton] at attached
    exact different attached
  obtain ⟨after, ends, evicted⟩ := setup.evictSection_ok policy element before
    (fun _ attached different => (others attached different).elim)
    (fun _ attached different => (others attached different).elim)
    (fun _ attached different => (others attached different).elim)
  refine Program.Meets.bind (.request trivial (fun _ _ => trivial) ?_)
  intro _ answer after' replied
  obtain ⟨returns, rfl⟩ | ⟨message, _, rfl, _⟩ :=
    World.replyUnit_eq_some replied
  · rw [ends] at returns
    cases returns
    exact reporting.evicted evicted
  · exact trivial

section

variable (single : ∀ mapping, setup.policiesOf mapping = [policy])
variable (reporting : Reporting setup policy [] world)
variable (live : world.live mapping = true)
include single reporting live

/-- `Mapping::onSegmentationFault`. -/
theorem Reporting.meets_fault (rounds address : Nat) (isWrite : Bool) :
    (setup.onSegmentationFault rounds mapping address isWrite).Meets
      setup.handle setup.reportContract
      (fun _ after => Reporting setup policy [] after) world := by
  refine Program.Meets.checkFault (fun _ => trivial) fun accepted => ?_
  have below := accepted.fault_lt_segments
  generalize (address - (setup.mapping mapping).baseAddress) /
    (setup.mapping mapping).segmentSize = segmentId at below ⊢
  refine Program.Meets.bind (.request trivial (fun _ _ => trivial) ?_)
  intro _ answer after replied
  obtain ⟨rfl, rfl⟩ := answer_inj replied
  refine Program.Meets.when (fun _ => ?_) fun done => ?_
  · rw [single]
    refine Program.Meets.bind (Program.Meets.bind
      (.request trivial (fun _ _ => trivial) ?_))
    intro _ answer after replied
    obtain ⟨touch, ends, rfl⟩ | ⟨message, _, rfl, _⟩ :=
      World.reply_eq_some replied
    · obtain ⟨⟨value, state⟩, touches, same⟩ := Fallible.map_eq_ok.mp ends
      cases same
      change (Program.each (PolicyProgram.evict policy) value.idsToEvict >>=
        fun _ => PolicyProgram.notifyQuota rounds policy value).Meets _ _ _ _
      refine ((reporting.touched live below touches).meets_evictions single).andThen ?_
      intro _ state' reporting'
      refine Program.Meets.bind (.request trivial (fun _ _ => trivial) ?_)
      intro _ answer after replied
      obtain ⟨rfl, rfl⟩ := answer_inj replied
      rw [reporting'.noQuota]
      exact reporting'
    · exact trivial
  · refine reporting.setCore fun other => ?_
    rw [Core.mapped_fault_iff, or_iff_left_iff_imp]
    rintro rfl
    unfold Mapping.alreadyDone at done
    simp only [Bool.not_eq_eq_eq_not, Bool.not_false, Bool.and_eq_true] at done
    exact done.2

/-- `Mapping::~Mapping`. -/
theorem Reporting.meets_destroy (rounds : Nat) :
    (setup.destroy rounds mapping).Meets setup.handle setup.reportContract
      (fun _ after => Reporting setup policy [] after) world := by
  unfold Setup.destroy
  rw [single]
  refine Program.Meets.bind (Program.Meets.bind (Program.Meets.bind
    (.request trivial (fun _ _ => trivial) ?_)))
  intro _ answer after replied
  obtain ⟨ends, rfl⟩ | ⟨message, _, rfl, _⟩ := World.replyUnit_eq_some replied
  · obtain ⟨state, frees, rfl⟩ := Fallible.map_eq_ok.mp ends
    obtain ⟨owner, found, _⟩ := Fallible.bind_eq_ok.mp frees
    have serves := Policy.serves_of_getStorageInfo
      ((reporting.registered mapping).mpr live) found
    obtain ⟨freed, equal, effect⟩ := Policy.freeElementStorage_ok
      reporting.balanced (setup.space.spacious _) serves reporting.nodup setup.ndebug
    rw [equal] at frees
    cases frees
    have owned : ∀ owner ∈ (setup.localPolicy mapping).toList,
        owner = policy := by
      intro owner member
      have attached : owner ∈ setup.policiesOf mapping :=
        List.mem_append_left _ member
      rw [single] at attached
      exact List.mem_singleton.mp attached
    change (Program.each (PolicyProgram.deletePolicy rounds)
      (setup.localPolicy mapping).toList >>= fun _ =>
        Section.close mapping).Meets _ _ _ (world.setPolicy policy state)
    refine (Program.Meets.each
      (fun rest after => (∀ owner ∈ rest, owner = policy) ∧
        after = world.setPolicy policy state) ⟨owned, rfl⟩ ?_).andThen ?_
    · rintro owner rest before ⟨owned, rfl⟩
      refine Program.Meets.bind (.request trivial (fun _ _ => trivial) ?_)
      intro _ answer after replied
      obtain ⟨rfl, rfl⟩ := answer_inj replied
      obtain rfl := owned owner List.mem_cons_self
      have noQuota := reporting.noQuota
      rw [World.setPolicy_policy_self, effect.settings, noQuota]
      exact ⟨fun other member => owned other (List.mem_cons_of_mem _ member), rfl⟩
    · rintro _ after ⟨_, rfl⟩
      refine .request trivial (fun _ _ => trivial) ?_
      intro _ answer after replied
      obtain ⟨_, rfl⟩ := answer_inj replied
      exact reporting.destroyed effect
  · exact trivial

end

/-! ## Runs -/

/-- The operations of a thread on the mappings that exist. -/
inductive Setup.ReportedOperation (setup : Setup M P)
    (world : World M P Q) : PolicyProgram M P Q Unit → Prop
  | fault (rounds : Nat) (mapping : M) (address : Nat) (isWrite : Bool)
      (live : world.live mapping = true) :
      setup.ReportedOperation world
        (setup.onSegmentationFault rounds mapping address isWrite)
  | flush (mapping : M) (offset size : Nat) (flags : FlushFlags) :
      setup.ReportedOperation world (setup.flush mapping offset size flags)
  | dropClean (mapping : M) :
      setup.ReportedOperation world (Section.dropClean mapping)
  | destroy (rounds : Nat) (mapping : M) (live : world.live mapping = true) :
      setup.ReportedOperation world (setup.destroy rounds mapping)

/-- What concerns no policy: `Mapping::markCleanAsDirty`, and loads and stores of
the application. -/
inductive Setup.MarksOrAccesses (setup : Setup M P) :
    World M P Q → World M P Q → Prop
  | markCleanAsDirty (world : World M P Q) (mapping : M) :
      setup.MarksOrAccesses world (world.setCore mapping
        ((world.core mapping).markCleanAsDirty (setup.mapping mapping)))
  | access (world : World M P Q) (mapping : M) (core : Core)
      (statuses : core.status = (world.core mapping).status) :
      setup.MarksOrAccesses world (world.setCore mapping core)

/-- The states between the operations of a run that all meet a condition. -/
abbrev Setup.ReportedRun (setup : Setup M P)
    (condition : PolicyOp M P Q → World M P Q → Prop) (initial : World M P Q) :
    World M P Q → Prop :=
  DisturbedRun setup.handle
    (fun world => { program | setup.ReportedOperation world program }) condition
    setup.MarksOrAccesses initial

/-- Every operation keeps the list of the policy the list of mapped segments. -/
theorem Reporting.meets_operation {program : PolicyProgram M P Q Unit}
    (single : ∀ mapping, setup.policiesOf mapping = [policy])
    (reporting : Reporting setup policy [] world)
    (operation : setup.ReportedOperation world program) :
    program.Meets setup.handle setup.reportContract
      (fun _ after => Reporting setup policy [] after) world := by
  cases operation with
  | fault rounds mapping address isWrite live =>
      exact reporting.meets_fault single live rounds address isWrite
  | flush mapping offset size flags =>
      refine Program.Meets.assume trivial fun _ => ?_
      refine Program.Meets.assume trivial fun _ => ?_
      refine Program.Meets.assume trivial fun _ => ?_
      refine Program.Meets.assume trivial fun _ => ?_
      refine .request trivial (fun _ _ => trivial) ?_
      intro keeps answer after replied
      obtain ⟨_, rfl⟩ := answer_inj replied
      refine reporting.setCore fun segmentId => ?_
      rw [Core.mapped_flush_iff _ (setup.indirect mapping), and_iff_left_iff_imp]
      exact fun mapped unmap flushed => keeps unmap segmentId flushed mapped
  | dropClean mapping =>
      refine .request trivial (fun _ _ => trivial) ?_
      intro keeps answer after replied
      obtain ⟨_, rfl⟩ := answer_inj replied
      refine reporting.setCore fun segmentId => ?_
      rw [Core.mapped_dropClean_iff, and_iff_left_iff_imp]
      exact fun mapped below => keeps segmentId below mapped
  | destroy rounds mapping live =>
      exact reporting.meets_destroy single live rounds

/-- After every operation of a run in which no segment is withdrawn without the
knowledge of the policy, the policy reports the memory of the mapped segments of
the mappings that are attached to it. -/
theorem reported_memory_is_mapped_memory
    (single : ∀ mapping, setup.policiesOf mapping = [policy])
    {initial : World M P Q} (started : setup.Started initial)
    (reached : setup.ReportedRun setup.KeepsMapped initial world) :
    (world.policy policy).currentMemory =
      world.attachedMemory setup.mapping policy := by
  have reporting : Reporting setup policy [] world := by
    refine DisturbedRun.invariant setup.reportContract
      (Reporting setup policy []) (.of_started started single)
      (fun _ reporting _ operation =>
        reporting.meets_operation single operation) ?_ reached
    intro before after reporting disturbed
    cases disturbed with
    | markCleanAsDirty mapping =>
        exact reporting.setCore (Core.mapped_markCleanAsDirty_iff _)
    | access mapping core statuses =>
        refine reporting.setCore fun segmentId => ?_
        unfold Core.Mapped
        rw [statuses]
  exact reporting.currentMemory

/-- A fault, a flush without the evict flag, `markCleanAsDirty` and a fault that
takes the place of the first page. -/
theorem reported_memory_is_mapped_memory_after_eviction :
    ∃ world : World Unit Unit Empty,
      (world.policy ()).ring = [((), 1)] ∧
        (world.policy ()).currentMemory =
          world.attachedMemory onePageSetup.mapping () := by
  have first : onePageSetup.ReportedRun onePageSetup.KeepsMapped (onePageWorld .fifo) _ :=
    DisturbedRun.initial.call (onePageSetup.onSegmentationFault 0 () pageSize true)
      (.fault 0 () pageSize true rfl) (by decide) rfl
  have flushed := first.call (onePageSetup.flush () 0 pageSize ⟨true, false, false⟩)
    (.flush () 0 pageSize ⟨true, false, false⟩) (by decide) rfl
  have marked := flushed.disturbed (.markCleanAsDirty _ ())
  have second := marked.call (onePageSetup.onSegmentationFault 0 () (2 * pageSize) true)
    (.fault 0 () (2 * pageSize) true rfl) (by decide) rfl
  have reported := reported_memory_is_mapped_memory (fun _ => rfl)
    (started_onePageWorld .fifo) second
  exact ⟨_, rfl, reported⟩

/-- A flush with the evict flag withdraws the only mapped page, and `dropClean` a
page that was only read; the policy goes on to report it. -/
theorem silent_unmap_keeps_reported_memory :
    (∃ world : World Unit Unit Empty,
      onePageSetup.ReportedRun (fun _ _ => True) (onePageWorld .fifo) world ∧
        (world.policy ()).currentMemory = pageSize ∧
        world.attachedMemory onePageSetup.mapping () = 0) ∧
    ∃ world : World Unit Unit Empty,
      onePageSetup.ReportedRun (fun _ _ => True) (onePageWorld .fifo) world ∧
        (world.policy ()).currentMemory = pageSize ∧
        world.attachedMemory onePageSetup.mapping () = 0 := by
  constructor
  · have first : onePageSetup.ReportedRun (fun _ _ => True) (onePageWorld .fifo) _ :=
      DisturbedRun.initial.call (onePageSetup.onSegmentationFault 0 () pageSize true)
        (.fault 0 () pageSize true rfl) (fun _ _ => trivial) rfl
    have flushed := first.call (onePageSetup.flush () 0 pageSize ⟨true, true, false⟩)
      (.flush () 0 pageSize ⟨true, true, false⟩) (fun _ _ => trivial) rfl
    exact ⟨_, flushed, rfl, rfl⟩
  · have first : onePageSetup.ReportedRun (fun _ _ => True) (onePageWorld .fifo) _ :=
      DisturbedRun.initial.call (onePageSetup.onSegmentationFault 0 () pageSize false)
        (.fault 0 () pageSize false rfl) (fun _ _ => trivial) rfl
    have dropped := first.call (Section.dropClean ()) (.dropClean ())
      (fun _ _ => trivial) rfl
    exact ⟨_, dropped, rfl, rfl⟩

end UmmapIo
