import UmmapIo.Policy.Tasks

/-!
# The memory limit of a single policy

All mappings share one policy.  Mapping a segment, listing it, unlisting it and
withdrawing it are four separate critical sections of up to two threads, so that
lists and statuses disagree in between.  What always holds is that a mapped
segment is listed, or some thread is about to notify the policy of it, or some
thread is about to evict it.
-/

namespace UmmapIo

variable {T M P Q : Type} [Fintype M]

/-- The task of a run in which all mappings use one policy. -/
def Task.Concerns (setup : Setup M P) (policy : P) : Task M P → Prop
  | .notify notified element =>
      notified = policy ∧ element.2 < (setup.mapping element.1).segments
  | .evict source _ => source = policy
  | .quota _ _ => True

/-- What holds between any two critical sections. -/
structure Limited (setup : Setup M P) (policy : P) (world : World M P Q)
    (tasks : T → List (Task M P)) : Prop where
  balanced : (world.policy policy).Balanced setup.mapping
  within : (world.policy policy).currentMemory ≤
    (world.policy policy).dynamicMaxMemory
  registered : ∀ mapping, mapping ∈ (world.policy policy).storageRegistry
  noQuota : ∀ other, (world.policy other).policyQuota = none
  concerns : ∀ task, Task.Pending tasks task → task.Concerns setup policy
  tracked : ∀ element : ListElement M,
    (world.core element.1).Mapped element.2 →
      element ∈ (world.policy policy).ring ∨
        Task.Pending tasks (.notify policy element) ∨
        Task.Pending tasks (.evict policy element)

theorem Limited.of_started {setup : Setup M P} {policy : P} {world : World M P Q}
    (single : ∀ mapping, setup.policiesOf mapping = [policy])
    (started : setup.Started world) :
    Limited setup policy world fun _ : T => [] := by
  have fresh := (started.policy policy).fresh
  refine ⟨fresh.balanced, ?_, ?_, ?_, ?_, ?_⟩
  · rw [fresh.currentMemory]
    exact Nat.zero_le _
  · intro mapping
    rw [fresh.registered, single]
    exact List.mem_cons_self
  · intro other
    exact (started.policy other).fresh.policyQuota
  · rintro task ⟨thread, member⟩
    cases member
  · intro element mapped
    exact absurd mapped (started.unmapped element)

variable {setup : Setup M P} {policy : P} {world : World M P Q}
variable {tasks : T → List (Task M P)} {thread : T}

/-- A flush or a `dropClean`. -/
theorem Limited.maintain [DecidableEq M]
    (limited : Limited setup policy world tasks)
    {mapping : M} {core : Core}
    (mapsNothing : (world.core mapping).MapsNothing core) :
    Limited setup policy (world.setCore mapping core) tasks := by
  refine ⟨limited.balanced, limited.within, limited.registered,
    limited.noQuota, limited.concerns, ?_⟩
  intro element mapped
  apply limited.tracked
  rw [World.setCore_core] at mapped
  by_cases same : element.1 = mapping
  · rw [same, Function.update_self] at mapped
    rw [same]
    exact mapsNothing element.2 mapped
  · rw [Function.update_of_ne same] at mapped
    exact mapped

variable [DecidableEq T] {rest : List (Task M P)}

/-- The last part of a touch. -/
theorem Limited.quota
    (limited : Limited setup policy world tasks)
    {notified : P} {touch : Touch M}
    (head : tasks thread = .quota notified touch :: rest) :
    Limited setup policy world (Function.update tasks thread rest) := by
  refine ⟨limited.balanced, limited.within, limited.registered,
    limited.noQuota, ?_, ?_⟩
  · intro task pending
    obtain later | old := pending.of_update
    · exact limited.concerns task
        ⟨thread, head ▸ List.mem_cons_of_mem _ later⟩
    · exact limited.concerns task old
  · intro element mapped
    refine (limited.tracked element mapped).imp_right (Or.imp ?_ ?_)
    all_goals
      intro pending
      apply pending.update
      rw [head]
      simp

variable [DecidableEq M] {element : ListElement M}

/-- The status section of a fault leaves a notification pending. -/
theorem Limited.fault
    (limited : Limited setup policy world tasks)
    (single : ∀ mapping, setup.policiesOf mapping = [policy])
    (isWrite : Bool)
    (below : element.2 < (setup.mapping element.1).segments)
    (idle : tasks thread = []) :
    Limited setup policy
      (world.setCore element.1 ((world.core element.1).fault
        (setup.mapping element.1) (setup.driver element.1) element.2 isWrite))
      (Function.update tasks thread (setup.faultTasks element)) := by
  have todo : setup.faultTasks element = [.notify policy element] := by
    unfold Setup.faultTasks
    rw [single, List.map_singleton]
  rw [todo]
  have kept {task : Task M P} (pending : Task.Pending tasks task) :
      Task.Pending (Function.update tasks thread [.notify policy element]) task := by
    apply pending.update
    rw [idle]
    exact fun absurdity => nomatch absurdity
  refine ⟨limited.balanced, limited.within, limited.registered,
    limited.noQuota, ?_, ?_⟩
  · intro task pending
    obtain new | old := pending.of_update
    · rw [List.mem_singleton] at new
      rw [new]
      exact ⟨rfl, below⟩
    · exact limited.concerns task old
  · intro other mapped
    obtain earlier | rfl :=
      (setup.mapped_fault_iff world.core element other isWrite).mp mapped
    · exact (limited.tracked other earlier).imp_right
        (Or.imp kept kept)
    · exact Or.inr (Or.inl
        (Task.pending_of_mem tasks thread List.mem_cons_self))

variable [DecidableEq P]

/-- The critical section of a touch lists its segment, and leaves evictions
pending for those it unlists. -/
theorem Limited.notify
    (limited : Limited setup policy world tasks)
    {notified : P} {touch : Touch M} {state : Policy M Q}
    (head : tasks thread = .notify notified element :: rest)
    (touched : (world.policy notified).notifyTouch setup.mapping setup.ndebug
      element.1 element.2 = .ok (touch, state)) :
    Limited setup policy (world.setPolicy notified state)
      (Function.update tasks thread (Task.afterTouch notified touch rest)) := by
  obtain ⟨rfl, below⟩ := limited.concerns (.notify notified element)
    ⟨thread, head ▸ List.mem_cons_self⟩
  have serves := Policy.serves_of_notifyTouch (limited.registered element.1) touched
  have effect := Policy.notifyTouch_ok limited.balanced (setup.space.spacious _) serves
    below touched
  have self : (world.setPolicy notified state).policy notified = state := by
    rw [World.setPolicy_policy, Function.update_self]
  have evicting {other : ListElement M} (victim : other ∈ touch.idsToEvict) :
      Task.Pending (Function.update tasks thread
        (Task.afterTouch notified touch rest)) (.evict notified other) := by
    apply Task.pending_of_mem
    exact List.mem_append_left _ (List.mem_map_of_mem victim)
  have later {task : Task M P} (member : task ∈ rest) :
      task ∈ Task.afterTouch notified touch rest :=
    List.mem_append_right _ (List.mem_cons_of_mem _ member)
  have relisted {other : ListElement M}
      (listed : other = element ∨ other ∈ (world.policy notified).ring) :
      other ∈ ((world.setPolicy notified state).policy notified).ring ∨
        Task.Pending (Function.update tasks thread
          (Task.afterTouch notified touch rest)) (.evict notified other) := by
    rw [self]
    refine ((effect.listed other).mpr ?_).imp_right evicting
    rwa [List.mem_singleton]
  refine ⟨?_, ?_, ?_, ?_, ?_, ?_⟩
  · rw [self]
    exact effect.balanced
  · rw [self, effect.settings]
    exact effect.within
  · rw [self, effect.settings]
    exact limited.registered
  · intro other
    rw [World.setPolicy_policy]
    by_cases same : other = notified
    · rw [same, Function.update_self, effect.settings]
      exact limited.noQuota notified
    · rw [Function.update_of_ne same]
      exact limited.noQuota other
  · intro task pending
    obtain new | old := pending.of_update
    · obtain victim | rest := List.mem_append.mp new
      · obtain ⟨other, _, rfl⟩ := List.mem_map.mp victim
        rfl
      · obtain rfl | old := List.mem_cons.mp rest
        · trivial
        · exact limited.concerns task
            ⟨thread, head ▸ List.mem_cons_of_mem _ old⟩
    · exact limited.concerns task old
  · intro other mapped
    obtain listed | notifying | evicted := limited.tracked other mapped
    · exact (relisted (Or.inr listed)).imp_right Or.inr
    · by_cases same : other = element
      · exact (relisted (Or.inl same)).imp_right Or.inr
      · refine Or.inr (Or.inl (notifying.update ?_))
        rw [head, List.mem_cons]
        rintro (equal | member)
        · cases equal
          exact absurd rfl same
        · exact later member
    · refine Or.inr (Or.inr (evicted.update ?_))
      rw [head, List.mem_cons]
      rintro (equal | member)
      · cases equal
      · exact later member

/-- An eviction withdraws the segment. -/
theorem Limited.evict
    (limited : Limited setup policy world tasks)
    (single : ∀ mapping, setup.policiesOf mapping = [policy])
    {source : P} {after : World M P Q}
    (head : tasks thread = .evict source element :: rest)
    (evicted : setup.evictSection source element.1 element.2 world =
      .ok after) :
    Limited setup policy after (Function.update tasks thread rest) := by
  have own : source = policy := limited.concerns (.evict source element)
    ⟨thread, head ▸ List.mem_cons_self⟩
  subst own
  have alone {other : P} (attached : other ∈ setup.policiesOf element.1) :
      other = source := by
    rwa [single, List.mem_singleton] at attached
  obtain ⟨after', ends, effect⟩ := setup.evictSection_ok source element world
    (fun other attached different => absurd (alone attached) different)
    (fun other attached different => absurd (alone attached) different)
    (fun other attached different => absurd (alone attached) different)
  obtain rfl : after' = after := by
    rw [ends] at evicted
    cases evicted
    rfl
  have same (other : P) : after'.policy other = world.policy other := by
    apply effect.others
    by_cases equal : other = source
    · exact Or.inr equal
    · exact Or.inl fun attached => equal (alone attached)
  refine ⟨?_, ?_, ?_, ?_, ?_, ?_⟩
  · rw [same]
    exact limited.balanced
  · rw [same]
    exact limited.within
  · rw [same]
    exact limited.registered
  · intro other
    rw [same]
    exact limited.noQuota other
  · intro task pending
    obtain later | old := pending.of_update
    · exact limited.concerns task
        ⟨thread, head ▸ List.mem_cons_of_mem _ later⟩
    · exact limited.concerns task old
  · intro other mapped
    have before : other ≠ element ∧ (world.core other.1).Mapped other.2 := by
      rw [effect.core, setup.mapped_evict_iff] at mapped
      exact mapped.symm
    rw [same]
    refine (limited.tracked other before.2).imp_right (Or.imp ?_ ?_)
    · intro pending
      apply pending.update
      rw [head]
      simp
    · intro pending
      apply pending.update
      rw [head, List.mem_cons]
      rintro (equal | member)
      · cases equal
        exact absurd rfl before.1
      · exact member

theorem Limited.move {on : M → Prop} {world' : World M P Q}
    {tasks' : T → List (Task M P)}
    (limited : Limited setup policy world tasks)
    (single : ∀ mapping, setup.policiesOf mapping = [policy])
    (moved : setup.Move on thread world tasks world' tasks') :
    Limited setup policy world' tasks' := by
  cases moved with
  | stay => exact limited
  | fault element isWrite served below idle =>
      exact limited.fault single isWrite below idle
  | notify notified element rest touch state head touched =>
      exact limited.notify head touched
  | evict source element rest after head evicted =>
      exact limited.evict single head evicted
  | quota notified touch rest head => exact limited.quota head
  | maintain mapping core mapsNothing => exact limited.maintain mapsNothing

variable [DecidableEq Q]

/-- With one FIFO or LIFO policy for all mappings, whatever the interleaving of
the critical sections of faults, evictions, flushes and `dropClean`: when no
fault or eviction is in flight, every mapped segment is listed, the counter is
the memory of the list, and the mapped segments together are within the limit. -/
theorem mapped_memory_within_limit (setup : Setup M P) (policy : P)
    (initial : World M P Q)
    (configuration : Configuration T (policySignature M P Q) (World M P Q))
    (single : ∀ mapping, setup.policiesOf mapping = [policy])
    (started : setup.Started initial)
    (reached : Reachable (fun _ => setup.handle)
      { program | setup.ClientProgram (fun _ => True) program } initial
      configuration)
    (quiet : ∀ thread, configuration.program thread = .done () ∨
      setup.ClientProgram (fun _ => True) (configuration.program thread)) :
    (∀ element : ListElement M,
      (configuration.state.core element.1).Mapped element.2 →
        element ∈ (configuration.state.policy policy).ring) ∧
    (configuration.state.policy policy).currentMemory =
      weight (Policy.elementSize setup.mapping)
        (configuration.state.policy policy).ring ∧
    configuration.state.mappedMemory setup.mapping ≤
      (configuration.state.policy policy).dynamicMaxMemory := by
  obtain ⟨tasks, doing, limited⟩ := Setup.Move.invariant
    (Limited setup policy) (Limited.of_started single started)
    (fun _ _ holds => holds.noQuota)
    (fun _ _ _ _ _ _ _ holds moved => holds.move single moved)
    reached.under
  have finished (task : Task M P) : ¬Task.Pending tasks task := by
    rintro ⟨thread, member⟩
    rw [(doing thread).eq_nil (quiet thread)] at member
    cases member
  have listed (element : ListElement M)
      (mapped : (configuration.state.core element.1).Mapped element.2) :
      element ∈ (configuration.state.policy policy).ring := by
    obtain inRing | notifying | evicting := limited.tracked element mapped
    · exact inRing
    · exact absurd notifying (finished _)
    · exact absurd evicting (finished _)
  refine ⟨listed, limited.balanced.counter, ?_⟩
  have total := sum_le_weight (Policy.elementSize setup.mapping) limited.balanced.nodup
    ((Policy.allElements setup.mapping).filter fun element =>
      ((configuration.state.core element.1).status element.2).mapped = true)
    (fun element member => listed element (Finset.mem_filter.mp member).2)
  have counter := limited.balanced.counter
  have within := limited.within
  unfold World.mappedMemory
  omega

/-- One mapping of two pages whose policy has room for one page. -/
def onePageSetup : Setup Unit Unit :=
  Setup.single 1 true

/-- Its world at the beginning. -/
def onePageWorld (kind : PolicyKind) : World Unit Unit Empty :=
  World.start
    (fun _ => { Policy.create kind pageSize false with storageRegistry := [()] })
    Empty.elim

theorem started_onePageWorld (kind : PolicyKind) :
    onePageSetup.Started (onePageWorld kind) :=
  Setup.started_single kind pageSize rfl fun quota => quota.elim

/-- After a fault on each of the two pages only the second one is mapped. -/
theorem mapped_memory_within_limit_after_eviction :
    ∃ configuration :
        Configuration Unit (policySignature Unit Unit Empty) (World Unit Unit Empty),
      (configuration.state.core ()).Mapped 1 ∧
        ((), 1) ∈ (configuration.state.policy ()).ring ∧
        configuration.state.mappedMemory onePageSetup.mapping ≤ pageSize := by
  have first : Reachable (fun _ : Unit => onePageSetup.handle)
      { program | onePageSetup.ClientProgram (fun _ => True) program }
      (onePageWorld .fifo) _ :=
    Reachable.initial.run () (onePageSetup.onSegmentationFault 0 () pageSize true)
      rfl (.fault 0 () pageSize true trivial (by decide)) rfl
  have second := first.run ()
    (onePageSetup.onSegmentationFault 0 () (2 * pageSize) true) rfl
    (.fault 0 () (2 * pageSize) true trivial (by decide)) rfl
  have result := mapped_memory_within_limit onePageSetup () (onePageWorld .fifo)
    _ (fun _ => rfl) (started_onePageWorld .fifo) second fun _ => Or.inl rfl
  refine ⟨_, ?_, result.1 ((), 1) ?_, result.2.2⟩
  · rfl
  · rfl

end UmmapIo
