import UmmapIo.Policy.Phases

/-!
# Notices of evictions

A mapping has a local and a global policy.  An eviction ordered by one of them
notifies the other.  If another thread acts between the two touches of a fault,
or between an eviction and the touch that ordered it, the notified policy may
not list the segment.  Threads that keep these sections apart only send notices
for listed segments.
-/

namespace UmmapIo

/-! ## Keeping the sections apart -/

namespace PolicyOp

variable {M P Q : Type}

/-- The section of a touch. -/
def isTouch : PolicyOp M P Q → Bool
  | .notifyTouch _ _ _ => true
  | _ => false

/-- The section of an eviction. -/
def isEvict : PolicyOp M P Q → Bool
  | .evict _ _ _ => true
  | _ => false

/-- A section that comes after the touch of the local policy and not after the
touch of the global one. -/
def isBetween [DecidableEq P] (localPolicy globalPolicy : P) :
    PolicyOp M P Q → Bool
  | .observe policy => decide (policy = localPolicy)
  | .notifyTouch policy _ _ => decide (policy = globalPolicy)
  | _ => false

end PolicyOp

section Apart

variable {T M P Q : Type} [Fintype M] [DecidableEq M]

/-- The segments that a section takes out of a list. -/
def Setup.victims (setup : Setup M P)
    (world : World M P Q) : PolicyOp M P Q → List (ListElement M)
  | .notifyTouch policy mapping index =>
      match (world.policy policy).notifyTouch setup.mapping setup.ndebug mapping
        index with
      | .ok (touch, _) => touch.idsToEvict
      | .error _ => []
  | _ => []

/-- When a thread may take its next step: the process has not ended; a touch
waits for the evictions of the other threads; and a touch that orders evictions
waits until no other thread is between its two touches. -/
structure Apart [DecidableEq P] (setup : Setup M P) (localPolicy globalPolicy : P)
    (configuration : Configuration T (policySignature M P Q) (World M P Q))
    (thread : T) : Prop where
  running : ∀ other, (configuration.program other).hasAborted = false
  evicted : (configuration.program thread).nextOp.any PolicyOp.isTouch = true →
    ∀ other, other ≠ thread →
      (configuration.program other).nextOp.any PolicyOp.isEvict = false
  notified : (configuration.program thread).nextOp.any
      (fun op => !(setup.victims configuration.state op).isEmpty) = true →
    ∀ other, other ≠ thread →
      (configuration.program other).nextOp.any
        (PolicyOp.isBetween localPolicy globalPolicy) = false

instance [DecidableEq P] [DecidableEq T] [Fintype T]
    (setup : Setup M P)
    (localPolicy globalPolicy : P)
    (configuration : Configuration T (policySignature M P Q) (World M P Q))
    (thread : T) :
    Decidable (Apart setup localPolicy globalPolicy configuration thread) :=
  decidable_of_iff
    ((∀ other, (configuration.program other).hasAborted = false) ∧
      ((configuration.program thread).nextOp.any PolicyOp.isTouch = true →
        ∀ other, other ≠ thread →
          (configuration.program other).nextOp.any PolicyOp.isEvict = false) ∧
      ((configuration.program thread).nextOp.any
          (fun op => !(setup.victims configuration.state op).isEmpty) = true →
        ∀ other, other ≠ thread →
          (configuration.program other).nextOp.any
            (PolicyOp.isBetween localPolicy globalPolicy) = false))
    ⟨fun holds => ⟨holds.1, holds.2.1, holds.2.2⟩,
      fun apart => ⟨apart.running, apart.evicted, apart.notified⟩⟩

end Apart

/-! ## The invariant -/

section Serving

variable {M P Q : Type} [Fintype M]

/-- What holds of the policies while only one mapping takes faults. -/
structure Setup.Serving (setup : Setup M P) (mapping : M)
    (world : World M P Q) : Prop where
  consistent : setup.Consistent world
  live : world.live mapping = true
  noQuota : ∀ policy, (world.policy policy).policyQuota = none
  fits : ∀ policy ∈ setup.policiesOf mapping,
    (setup.mapping mapping).segmentSize ≤
      (world.policy policy).dynamicMaxMemory
  own : ∀ policy, ∀ element ∈ (world.policy policy).ring, element.1 = mapping

variable {setup : Setup M P} {mapping : M} {world : World M P Q}

theorem Setup.Started.serving (started : setup.Started world) (mapping : M) :
    setup.Serving mapping world where
  consistent := started.consistent
  live := started.live mapping
  noQuota := fun policy => (started.policy policy).fresh.policyQuota
  fits := fun policy attached =>
    (started.policy policy).fresh.fits mapping attached
  own := by
    intro policy
    rw [(started.policy policy).fresh.ring]
    exact fun _ member => nomatch member

variable [DecidableEq P]

theorem Setup.Serving.setPolicy (serving : setup.Serving mapping world) {policy : P}
    {added removed : List (ListElement M)} {state : Policy M Q}
    (updated : (world.policy policy).Updated setup.mapping added removed state)
    (own : ∀ element ∈ added, element.1 = mapping) :
    setup.Serving mapping (world.setPolicy policy state) := by
  have settings (other : P) :
      ((world.setPolicy policy state).policy other).toPolicySettings =
        (world.policy other).toPolicySettings := by
    rw [World.setPolicy_policy]
    by_cases same : other = policy
    · rw [same, Function.update_self, updated.settings]
    · rw [Function.update_of_ne same]
  refine ⟨serving.consistent.setPolicy updated, serving.live, ?_, ?_, ?_⟩
  · intro other
    rw [settings]
    exact serving.noQuota other
  · intro other
    rw [settings]
    exact serving.fits other
  · intro other element member
    rw [World.setPolicy_policy] at member
    by_cases same : other = policy
    · rw [same, Function.update_self] at member
      obtain new | old := (updated.listed element).mp (Or.inl member)
      · exact own element new
      · exact serving.own policy element old
    · rw [Function.update_of_ne same] at member
      exact serving.own other element member

variable [DecidableEq M] {element : ListElement M}

theorem Setup.Serving.evicted (serving : setup.Serving mapping world) {source : P}
    {after : World M P Q}
    (evicted : setup.Evicted source element world after) :
    setup.Serving mapping after := by
  refine ⟨serving.consistent.evicted evicted, ?_, ?_, ?_, ?_⟩
  · rw [evicted.live]
    exact serving.live
  · intro policy
    rw [evicted.settings]
    exact serving.noQuota policy
  · intro policy
    rw [evicted.settings]
    exact serving.fits policy
  · intro policy other member
    by_cases notified : policy ∈ setup.policiesOf element.1 ∧ policy ≠ source
    · have listed := ((evicted.notified policy notified.1 notified.2).listed
        other).mp (Or.inl member)
      exact serving.own policy other (by simpa using listed)
    · rw [evicted.others policy (by tauto)] at member
      exact serving.own policy other member

/-- An eviction on a mapping with two policies, for a segment that the policy to
notify lists. -/
theorem Setup.Serving.evict (serving : setup.Serving mapping world) (source other : P)
    (only : ∀ policy ∈ setup.policiesOf mapping, policy ≠ source →
      policy = other)
    (attached : other ∈ setup.policiesOf mapping)
    (different : other ≠ source)
    (listed : element ∈ (world.policy other).ring) :
    (∀ policy ∈ setup.policiesOf element.1, policy ≠ source →
      element ∈ (world.policy policy).ring) ∧
    ∃ after, setup.evictSection source element.1 element.2 world = .ok after ∧
      setup.Serving mapping after ∧
      after.policy source = world.policy source ∧
      (world.policy other).Updated setup.mapping [] [element] (after.policy other) := by
  have own := serving.own other element listed
  have everywhere (policy : P) (attached : policy ∈ setup.policiesOf element.1)
      (different : policy ≠ source) : element ∈ (world.policy policy).ring := by
    rw [own] at attached
    rw [only policy attached different]
    exact listed
  obtain ⟨after, ends, evicted⟩ := serving.consistent.evictSection_ok everywhere
  refine ⟨everywhere, after, ends, serving.evicted evicted,
    evicted.others source (Or.inr rfl), evicted.notified other ?_ different⟩
  rw [own]
  exact attached

end Serving

section Paired

variable {T M P Q : Type} [Fintype M] {setup : Setup M P} {mapping : M}
variable {world : World M P Q} {localPolicy globalPolicy : P}
variable {tasks : T → List (Task M P)} {phases : T → Phase M} {thread : T}

theorem Setup.ne_of_policiesOf (setup : Setup M P)
    (two : setup.policiesOf mapping = [localPolicy, globalPolicy]) :
    localPolicy ≠ globalPolicy := by
  have nodup := setup.nodup_policiesOf mapping
  rw [two] at nodup
  simpa using nodup

/-- The invariant: every thread is in some phase of a fault, and the lists of
the two policies agree up to these phases. -/
structure Paired (setup : Setup M P) (mapping : M) (localPolicy globalPolicy : P)
    (world : World M P Q) (tasks : T → List (Task M P))
    (phases : T → Phase M) : Prop where
  todo : ∀ thread, tasks thread = (phases thread).tasks localPolicy globalPolicy
  serving : setup.Serving mapping world
  touched : ∀ thread, ∀ element ∈ (phases thread).touched,
    element.1 = mapping ∧ element.2 < (setup.mapping mapping).segments
  agree : Agree (world.policy localPolicy).ring (world.policy globalPolicy).ring phases

theorem Paired.of_started (started : setup.Started world) :
    Paired setup mapping localPolicy globalPolicy world (fun _ : T => [])
      fun _ => .idle where
  todo := fun _ => rfl
  serving := started.serving mapping
  touched := fun _ _ absurdity => nomatch absurdity
  agree := by
    rw [(started.policy localPolicy).fresh.ring,
      (started.policy globalPolicy).fresh.ring]
    exact Agree.initial

theorem Paired.setCore [DecidableEq M]
    (paired : Paired setup mapping localPolicy globalPolicy world tasks phases)
    (owner : M) (core : Core) :
    Paired setup mapping localPolicy globalPolicy (world.setCore owner core)
      tasks phases := by
  obtain ⟨⟨balanced, sound, registered, served⟩, live, noQuota, fits, own⟩ :=
    paired.serving
  exact ⟨paired.todo, ⟨⟨balanced, sound, registered, served⟩, live, noQuota, fits, own⟩,
    paired.touched, paired.agree⟩

variable {policy : P} {element : ListElement M} {rest : List (Task M P)}
variable {touch : Touch M}
variable {configuration : Configuration T (policySignature M P Q) (World M P Q)}
variable {state : Policy M Q}

/-- A thread that may touch a policy has no other thread with evictions to do
beside it, and if it orders evictions, none between its two touches. -/
theorem Apart.alone [DecidableEq M] [DecidableEq P] {on : M → Prop}
    (apart : Apart setup localPolicy globalPolicy configuration thread)
    (doing : ∀ other, setup.Doing on (tasks other) (configuration.program other))
    (todo : ∀ other,
      tasks other = (phases other).tasks localPolicy globalPolicy)
    (head : tasks thread = .notify policy element :: rest)
    (touches : (configuration.state.policy policy).notifyTouch setup.mapping
      setup.ndebug element.1 element.2 = .ok (touch, state)) :
    (∀ other, other ≠ thread → (phases other).victims = []) ∧
      (touch.idsToEvict ≠ [] →
        ∀ other, other ≠ thread → (phases other).halfNotified = []) := by
  have next {other : T} {task : Task M P} {later : List (Task M P)}
      (first : (phases other).tasks localPolicy globalPolicy = task :: later) :
      (configuration.program other).nextOp = some task.op := by
    have does := doing other
    rw [todo, first] at does
    exact does.nextOp (apart.running other)
  have self : (configuration.program thread).nextOp =
      some (.notifyTouch policy element.1 element.2) :=
    next ((todo thread).symm.trans head)
  have noVictims (other : T) (different : other ≠ thread) :
      (phases other).victims = [] := by
    by_contra nonempty
    obtain ⟨source, victim, later, first⟩ := Phase.evicts nonempty
    have quiet := apart.evicted (by rw [self]; rfl) other different
    rw [next first] at quiet
    cases quiet
  refine ⟨noVictims, ?_⟩
  intro nonempty other different
  by_contra half
  have orders : (configuration.program thread).nextOp.any
      (fun op => !(setup.victims configuration.state op).isEmpty) = true := by
    rw [self]
    change (!(setup.victims configuration.state
      (.notifyTouch policy element.1 element.2)).isEmpty) = true
    simp [Setup.victims, touches, nonempty]
  have quiet := apart.notified orders other different
  obtain ⟨_, _, first⟩ | ⟨_, _, first⟩ :=
    Phase.between half (noVictims other different)
  all_goals
    rw [next first] at quiet
    exact of_decide_eq_false quiet rfl

variable [DecidableEq T]

section

variable (paired : Paired setup mapping localPolicy globalPolicy world tasks phases)
include paired

theorem Paired.enter {world' : World M P Q} (phase : Phase M)
    (serving : setup.Serving mapping world')
    (touched : ∀ element ∈ phase.touched,
      element.1 = mapping ∧ element.2 < (setup.mapping mapping).segments)
    (agree : Agree (world'.policy localPolicy).ring
      (world'.policy globalPolicy).ring (Function.update phases thread phase)) :
    Paired setup mapping localPolicy globalPolicy world'
      (Function.update tasks thread (phase.tasks localPolicy globalPolicy))
      (Function.update phases thread phase) := by
  refine ⟨?_, serving, ?_, agree⟩
  · intro other
    by_cases same : other = thread
    · rw [same, Function.update_self, Function.update_self]
    · rw [Function.update_of_ne same, Function.update_of_ne same]
      exact paired.todo other
  · intro other
    by_cases same : other = thread
    · rw [same, Function.update_self]
      exact touched
    · rw [Function.update_of_ne same]
      exact paired.touched other

/-- The status section of a fault. -/
theorem Paired.fault
    (two : setup.policiesOf mapping = [localPolicy, globalPolicy])
    (served : element.1 = mapping)
    (below : element.2 < (setup.mapping element.1).segments)
    (idle : tasks thread = []) :
    ∃ phases', Paired setup mapping localPolicy globalPolicy world
      (Function.update tasks thread (setup.faultTasks element)) phases' := by
  have current : phases thread = .idle :=
    Phase.eq_idle ((paired.todo thread).symm.trans idle)
  have todo : setup.faultTasks element =
      (Phase.beforeLocal element).tasks localPolicy globalPolicy := by
    unfold Setup.faultTasks
    rw [served, two]
    rfl
  rw [todo]
  refine ⟨_, paired.enter (.beforeLocal element) paired.serving ?_
    (paired.agree.change _ ?_ ?_ ?_)⟩
  · intro other member
    obtain rfl := List.mem_singleton.mp member
    rw [served] at below
    exact ⟨served, below⟩
  all_goals
    rw [current]
    rfl

/-- The last part of a touch. -/
theorem Paired.quota
    (head : tasks thread = .quota policy touch :: rest) :
    ∃ phases', Paired setup mapping localPolicy globalPolicy world
      (Function.update tasks thread rest) phases' := by
  have touched := paired.touched thread
  obtain ⟨element, current, rfl⟩ | ⟨current, rfl⟩ :=
    Phase.of_quota ((paired.todo thread).symm.trans head)
  · rw [current] at touched
    refine ⟨_, paired.enter (.beforeGlobal element) paired.serving touched
      (paired.agree.change _ ?_ ?_ ?_)⟩
    all_goals
      rw [current]
      rfl
  · refine ⟨_, paired.enter .idle paired.serving (fun _ absurdity => nomatch absurdity)
      (paired.agree.change _ ?_ ?_ ?_)⟩
    all_goals
      rw [current]
      rfl

end

variable [DecidableEq M] [DecidableEq P]

section

variable (paired : Paired setup mapping localPolicy globalPolicy world tasks phases)
variable (two : setup.policiesOf mapping = [localPolicy, globalPolicy])
include paired two

/-- A touch that is kept apart from the sections of other threads. -/
theorem Paired.notify
    (head : tasks thread = .notify policy element :: rest)
    (touches : (world.policy policy).notifyTouch setup.mapping setup.ndebug
      element.1 element.2 = .ok (touch, state))
    (noVictims : ∀ other, other ≠ thread → (phases other).victims = [])
    (exclusive : touch.idsToEvict ≠ [] →
      ∀ other, other ≠ thread → (phases other).halfNotified = []) :
    ∃ phases', Paired setup mapping localPolicy globalPolicy
      (world.setPolicy policy state)
      (Function.update tasks thread (Task.afterTouch policy touch rest))
      phases' := by
  have different := setup.ne_of_policiesOf two
  have touched := paired.touched thread
  have attached : policy ∈ setup.policiesOf mapping := by
    rw [two]
    obtain ⟨_, rfl, _⟩ | ⟨_, rfl, _⟩ :=
      Phase.of_notify ((paired.todo thread).symm.trans head)
    · exact List.mem_cons_self
    · exact List.mem_cons_of_mem _ List.mem_cons_self
  have valid : element.1 = mapping ∧
      element.2 < (setup.mapping mapping).segments := by
    apply touched
    obtain ⟨current, _⟩ | ⟨current, _⟩ :=
      Phase.of_notify ((paired.todo thread).symm.trans head)
    · rw [current]
      exact List.mem_cons_self
    · rw [current]
      exact List.mem_cons_self
  obtain ⟨rfl, below⟩ := valid
  have effect := paired.serving.consistent.touched attached paired.serving.live
    below touches
  have keeps := effect.keeps (paired.serving.fits policy attached)
  have serving := paired.serving.setPolicy effect.toUpdated (by simp)
  obtain ⟨current, rfl, rfl⟩ | ⟨current, rfl, rfl⟩ :=
    Phase.of_notify ((paired.todo thread).symm.trans head)
  · rw [current] at touched
    refine ⟨_, paired.enter (.evictLocal touch.idsToEvict touch element) serving
      touched ?_⟩
    rw [World.setPolicy_policy_self,
      World.setPolicy_policy_of_ne _ different.symm]
    exact paired.agree.touchLocal current noVictims exclusive effect.listed
      effect.unlisted effect.nodup keeps
  · refine ⟨_, paired.enter (.evictGlobal touch.idsToEvict touch) serving
      (fun _ absurdity => nomatch absurdity) ?_⟩
    rw [World.setPolicy_policy_self, World.setPolicy_policy_of_ne _ different]
    exact paired.agree.touchGlobal current noVictims exclusive effect.listed
      effect.unlisted effect.nodup

/-- An eviction is for a segment that the other policy lists. -/
theorem Paired.evict {source : P}
    (head : tasks thread = .evict source element :: rest) :
    (∀ policy ∈ setup.policiesOf element.1, policy ≠ source →
      element ∈ (world.policy policy).ring) ∧
    ∃ after, setup.evictSection source element.1 element.2 world = .ok after ∧
      ∃ phases', Paired setup mapping localPolicy globalPolicy after
        (Function.update tasks thread rest) phases' := by
  have different := setup.ne_of_policiesOf two
  have touched := paired.touched thread
  obtain ⟨victims, touch, last, current, rfl, rfl⟩ |
      ⟨victims, touch, current, rfl, rfl⟩ :=
    Phase.of_evict ((paired.todo thread).symm.trans head)
  · obtain ⟨listed, kept⟩ := paired.agree.evictLocal current
    obtain ⟨everywhere, after, ends, serving, same, updated⟩ :=
      paired.serving.evict source globalPolicy (by simp [two]) (by simp [two])
        different.symm listed
    rw [current] at touched
    refine ⟨everywhere, after, ends, _,
      paired.enter (.evictLocal victims touch last) serving touched ?_⟩
    rw [same]
    exact kept _ updated.listed updated.unlisted
  · obtain ⟨listed, kept⟩ := paired.agree.evictGlobal current
    obtain ⟨everywhere, after, ends, serving, same, updated⟩ :=
      paired.serving.evict source localPolicy (by simp [two]) (by simp [two])
        different listed
    refine ⟨everywhere, after, ends, _,
      paired.enter (.evictGlobal victims touch) serving
        (fun _ absurdity => nomatch absurdity) ?_⟩
    rw [same]
    exact kept _ updated.listed updated.unlisted

end

/-- One move of a thread that keeps its sections apart. -/
theorem Paired.move {world' : World M P Q} {tasks' : T → List (Task M P)}
    (paired : Paired setup mapping localPolicy globalPolicy configuration.state
      tasks phases)
    (two : setup.policiesOf mapping = [localPolicy, globalPolicy])
    (doing : ∀ other, setup.Doing (fun owner => owner = mapping) (tasks other)
      (configuration.program other))
    (apart : Apart setup localPolicy globalPolicy configuration thread)
    (moved : setup.Move (fun owner => owner = mapping) thread
      configuration.state tasks world' tasks') :
    ∃ phases',
      Paired setup mapping localPolicy globalPolicy world' tasks' phases' := by
  cases moved with
  | stay => exact ⟨phases, paired⟩
  | fault element isWrite served below idle =>
      obtain ⟨phases', entered⟩ := paired.fault two served below idle
      exact ⟨phases', entered.setCore _ _⟩
  | notify policy element rest touch state head touches =>
      obtain ⟨noVictims, exclusive⟩ :=
        apart.alone doing paired.todo head touches
      exact paired.notify two head touches noVictims exclusive
  | evict source element rest after head evicted =>
      obtain ⟨_, after', ends, kept⟩ := paired.evict two head
      rw [ends] at evicted
      cases evicted
      exact kept
  | quota policy touch rest head => exact paired.quota head
  | maintain owner core mapsNothing => exact ⟨phases, paired.setCore owner core⟩

variable [DecidableEq Q]

/-- In every configuration reached by threads that keep their sections apart,
every eviction that a thread is about to make notifies policies that list the
segment and returns, every notice so far was for a listed segment, and no
counter has wrapped around. -/
theorem notices_listed_of_apart (setup : Setup M P) (mapping : M)
    (localPolicy globalPolicy : P) (initial : World M P Q)
    (configuration : Configuration T (policySignature M P Q) (World M P Q))
    (two : setup.policiesOf mapping = [localPolicy, globalPolicy])
    (started : setup.Started initial)
    (reached : ReachableUnder (fun _ => setup.handle)
      { program | setup.ClientProgram (fun owner => owner = mapping) program }
      initial (Apart setup localPolicy globalPolicy) configuration) :
    (∀ thread source owner segmentId,
      (configuration.program thread).nextOp =
          some (.evict source owner segmentId) →
        (∀ policy ∈ setup.policiesOf owner, policy ≠ source →
          (owner, segmentId) ∈ (configuration.state.policy policy).ring) ∧
        ∃ after, setup.evictSection source owner segmentId configuration.state =
          .ok after) ∧
    ∀ policy, ∀ event ∈ (configuration.state.policy policy).trace,
      event.Sound := by
  obtain ⟨tasks, doing, phases, paired⟩ := Setup.Move.invariant
    (fun world tasks => ∃ phases,
      Paired setup mapping localPolicy globalPolicy world tasks phases)
    ⟨fun _ => .idle, Paired.of_started started⟩
    (fun _ _ ⟨_, paired⟩ => paired.serving.noQuota)
    (fun _ _ _ _ _ doing apart ⟨_, paired⟩ moved =>
      paired.move two doing apart moved)
    reached
  refine ⟨?_, paired.serving.consistent.sound⟩
  intro thread source owner segmentId performs
  obtain ⟨task, rest, head, first⟩ := (doing thread).head performs rfl
  cases task with
  | notify policy element => cases first
  | quota policy touch => cases first
  | evict source element =>
      cases first
      obtain ⟨listed, after, ends, _⟩ := paired.evict two head
      exact ⟨listed, after, ends⟩

end Paired

/-! ## Two threads -/

/-- One mapping of two pages; its local policy, `false`, has room for one page
and its global policy, `true`, for two. -/
def twoPolicySetup (ndebug : Bool) : Setup Unit Bool :=
  Setup.ofPages (fun _ => 1) (fun _ => some false) (fun _ => some true) ndebug
    (by decide) (by decide)

/-- Its world at the beginning. -/
def twoPolicyWorld : World Unit Bool Empty :=
  World.start
    (fun policy =>
      { Policy.create .fifo (if policy then 2 * pageSize else pageSize)
          (!policy) with storageRegistry := [()] })
    Empty.elim

theorem started_twoPolicyWorld (ndebug : Bool) :
    (twoPolicySetup ndebug).Started twoPolicyWorld where
  core := fun _ => ⟨_, _, rfl⟩
  live := fun _ => rfl
  policy := by
    intro policy
    refine ⟨.fifo, if policy then 2 * pageSize else pageSize, !policy, [()],
      by decide, ?_, ?_⟩
    · intro mapping
      cases policy <;>
        simp [twoPolicySetup, Setup.policiesOf, Setup.ofPages]
    · cases policy <;> rfl
  quota := fun quota => quota.elim

/-- Each thread is about to handle a fault on a page of its own. -/
def twoFaults (ndebug : Bool) :
    Configuration Bool (policySignature Unit Bool Empty) (World Unit Bool Empty) where
  state := twoPolicyWorld
  program := Function.update
    (Function.update (fun _ => .done ()) false
      ((twoPolicySetup ndebug).onSegmentationFault 0 () pageSize true)) true
    ((twoPolicySetup ndebug).onSegmentationFault 0 () (2 * pageSize) true)

theorem twoFaults_reached (ndebug : Bool)
    (condition : Configuration Bool (policySignature Unit Bool Empty)
      (World Unit Bool Empty) → Bool → Prop) :
    ReachableUnder (fun _ => (twoPolicySetup ndebug).handle)
      { program | (twoPolicySetup ndebug).ClientProgram
        (fun owner => owner = ()) program }
      twoPolicyWorld condition (twoFaults ndebug) := by
  refine .start (.start .initial false
    ((twoPolicySetup ndebug).onSegmentationFault 0 () pageSize true) rfl ?_) true
    ((twoPolicySetup ndebug).onSegmentationFault 0 () (2 * pageSize) true) rfl ?_
  · exact .fault 0 () pageSize true rfl (by cases ndebug <;> decide)
  · exact .fault 0 () (2 * pageSize) true rfl (by cases ndebug <;> decide)

/-- The second thread waits until the first one has touched both policies; its
eviction then notifies a policy that lists the segment. -/
theorem notices_listed_of_apart_two_threads :
    ∃ configuration :
        Configuration Bool (policySignature Unit Bool Empty) (World Unit Bool Empty),
      (configuration.program true).nextOp = some (.evict false () 0) ∧
        ((), 0) ∈ (configuration.state.policy true).ring := by
  have reached := (twoFaults_reached false
    (Apart (twoPolicySetup false) false true)).follow
      [false, true, false, false, false, false, true] rfl
  have result := notices_listed_of_apart (twoPolicySetup false) () false true
    twoPolicyWorld _ rfl (started_twoPolicyWorld false) reached
  have evicts := (result.1 true false () 0 rfl).1
  exact ⟨_, rfl, evicts true (by decide) (by decide)⟩

/-- The second thread touches the local policy between the two touches of the
first one.  Its eviction notifies the global policy of a segment that this
policy does not list: with assertions the process ends, without them the counter
wraps around. -/
theorem notice_for_unlisted_segment :
    (∃ configuration :
        Configuration Bool (policySignature Unit Bool Empty) (World Unit Bool Empty),
      Reachable (fun _ => (twoPolicySetup false).handle)
          { program | (twoPolicySetup false).ClientProgram
            (fun owner => owner = ()) program }
          twoPolicyWorld configuration ∧
        configuration.program true = .abort assertIsInList) ∧
    ∃ configuration :
        Configuration Bool (policySignature Unit Bool Empty) (World Unit Bool Empty),
      Reachable (fun _ => (twoPolicySetup true).handle)
          { program | (twoPolicySetup true).ClientProgram
            (fun owner => owner = ()) program }
          twoPolicyWorld configuration ∧
        PolicyEvent.notifyEvict ((), 0) false ∈
          (configuration.state.policy true).trace ∧
        (configuration.state.policy true).currentMemory =
          wordModulus - pageSize := by
  constructor
  · exact ⟨_, ((twoFaults_reached false fun _ _ => True).follow
      [false, true, false, true, true] rfl).reachable, rfl⟩
  · refine ⟨_, ((twoFaults_reached true fun _ _ => True).follow
      [false, true, false, true, true] rfl).reachable, ?_, rfl⟩
    exact List.mem_cons_of_mem _ List.mem_cons_self

end UmmapIo
