import UmmapIo.Policy.SharedGlobal

/-!
# Sequential runs of faults and destructions

The operations of one thread on mappings that share a global policy.  Every
operation returns, or stops at the check on the number of evictions; on the way
every notice is for a listed segment and no counter wraps around, and at the end
the local lists agree with the global one again.
-/

namespace UmmapIo

variable {M P Q : Type} [Fintype M] [DecidableEq M] {setup : Setup M P}
variable {globalPolicy localPolicy policy : P} {world after : World M P Q}

/-- An operation keeps all records sound, and only aborts at the check on the
number of evictions. -/
def soundContract : Contract (policySignature M P Q) (World M P Q) where
  assumes _ _ := True
  invariant _ := World.Sound
  stops message := message = reachMaximum
  blocks := False

variable [DecidableEq P] [DecidableEq Q]

/-! ## Faults -/

variable {post : Unit → World M P Q → Prop}

theorem Setup.Orderly.meets_touch (orderly : setup.Orderly world)
    {element : ListElement M} {next : Touch M → PolicyProgram M P Q Unit}
    (attached : policy ∈ setup.policiesOf element.1)
    (live : world.live element.1 = true)
    (below : element.2 < (setup.mapping element.1).segments)
    (continues : ∀ touch state,
      (world.policy policy).Touched setup.mapping element touch state →
        (next touch).Meets setup.handle soundContract post
          (world.setPolicy policy state)) :
    (Section.notifyTouch policy element.1 element.2 >>= fun answer =>
      Program.ofExcept answer >>= next).Meets setup.handle soundContract post
        world := by
  have serves := orderly.serves attached live
  have balanced := orderly.consistent.balanced policy
  have fails {stop : Stop}
      (stopped : (world.policy policy).notifyTouch setup.mapping setup.ndebug
        element.1 element.2 = .error stop) : stop = .fatal reachMaximum :=
    Policy.notifyTouch_error balanced (setup.space.spacious _) serves below
      (orderly.fits policy element.1 attached) stopped
  refine Program.Meets.bind (.request orderly.consistent.sound ?_ ?_)
  · intro _ waits
    have endless := Fallible.map_eq_error.mp (World.reply_eq_none waits)
    cases fails endless
  · intro _ answer after replied
    obtain ⟨touch, ends, rfl⟩ | ⟨message, stopped, rfl, rfl⟩ :=
      World.reply_eq_some replied
    · obtain ⟨⟨value, state⟩, touches, same⟩ := Fallible.map_eq_ok.mp ends
      cases same
      exact continues value state (Policy.notifyTouch_ok balanced (setup.space.spacious _)
        serves below touches)
    · cases fails (Fallible.map_eq_error.mp stopped)
      exact rfl

theorem Setup.meets_evict {source : P} {element : ListElement M} (sound : world.Sound)
    (ends : setup.evictSection source element.1 element.2 world = .ok after)
    (holds : post () after) :
    (PolicyProgram.evict source element).Meets setup.handle soundContract post
      world := by
  have answer : setup.handle (.evict source element.1 element.2) world =
      some (.ok (), after) := by
    change world.replyUnit (setup.evictSection source element.1 element.2 world) =
      _
    rw [ends]
    rfl
  refine Program.Meets.bind (.request sound ?_ ?_)
  · intro _ waits
    rw [answer] at waits
    cases waits
  · intro _ result after' replied
    rw [answer] at replied
    cases replied
    exact holds

/-- Without a quota, the last part of a touch does nothing. -/
theorem Setup.Orderly.meets_notifyQuota (orderly : setup.Orderly world)
    {touch : Touch M} (rounds : Nat) (holds : post () world) :
    (PolicyProgram.notifyQuota rounds policy touch).Meets setup.handle
      soundContract post world := by
  refine Program.Meets.bind (.request orderly.consistent.sound ?_ ?_)
  · intro _ waits
    cases waits
  · intro _ result after' replied
    cases replied
    rw [orderly.noQuota policy]
    exact holds

theorem Matched.meets_notifyLocal
    (matched : Matched setup globalPolicy [] [] [] world)
    (shares : setup.Shares globalPolicy) (touched : ListElement M) (rounds : Nat)
    (attached : setup.localPolicy touched.1 = some localPolicy)
    (live : world.live touched.1 = true)
    (below : touched.2 < (setup.mapping touched.1).segments) :
    (PolicyProgram.notifyTouch rounds localPolicy touched).Meets setup.handle
      soundContract
      (fun _ after => Matched setup globalPolicy [touched] [] [] after ∧
        after.live touched.1 = true) world := by
  refine matched.orderly.meets_touch
    (shares.mem_policiesOf.mpr (Or.inl attached)) live below ?_
  intro touch state effect
  obtain ⟨own, kept⟩ := matched.touchLocal shares attached effect
  refine (Program.Meets.each (fun pending after =>
      (∀ victim ∈ pending, setup.localPolicy victim.1 = some localPolicy) ∧
        Matched setup globalPolicy [touched] pending [] after ∧
        after.live touched.1 = true) ⟨own, kept, live⟩ ?_).andThen ?_
  · rintro victim rest before ⟨own, kept, live⟩
    obtain ⟨after, ends, evicted, remains⟩ := kept.evictLocal shares
      (own victim List.mem_cons_self)
    refine Setup.meets_evict kept.orderly.consistent.sound ends
      ⟨fun other member => own other (List.mem_cons_of_mem _ member), remains, ?_⟩
    rw [evicted.live]
    exact live
  · rintro _ after ⟨_, remains, live⟩
    exact remains.orderly.meets_notifyQuota rounds ⟨remains, live⟩

/-- The notification of the global policy. -/
theorem Matched.meets_notifyGlobal {half : List (ListElement M)}
    (matched : Matched setup globalPolicy half [] [] world)
    (shares : setup.Shares globalPolicy) (touched : ListElement M) (rounds : Nat)
    (inHand : ∀ element localPolicy,
      setup.localPolicy element.1 = some localPolicy →
        (element ∈ half ↔ element = touched))
    (live : world.live touched.1 = true)
    (below : touched.2 < (setup.mapping touched.1).segments) :
    (PolicyProgram.notifyTouch rounds globalPolicy touched).Meets setup.handle
      soundContract
      (fun _ after => Matched setup globalPolicy [] [] [] after) world := by
  refine matched.orderly.meets_touch
    (shares.mem_policiesOf.mpr (Or.inr rfl)) live below ?_
  intro touch state effect
  refine (Program.Meets.each
    (fun pending after => Matched setup globalPolicy [] [] pending after)
    (matched.touchGlobal shares inHand effect) ?_).andThen ?_
  · intro victim rest before kept
    obtain ⟨after, ends, _, remains⟩ := kept.evictGlobal shares
    exact Setup.meets_evict kept.orderly.consistent.sound ends remains
  · intro _ after remains
    exact remains.orderly.meets_notifyQuota rounds remains

/-- `Mapping::onSegmentationFault`. -/
theorem Matched.meets_fault
    (matched : Matched setup globalPolicy [] [] [] world)
    (shares : setup.Shares globalPolicy) {mapping : M} {address : Nat} {isWrite : Bool}
    (rounds : Nat) (live : world.live mapping = true)
    (accepted : (Call.fault address isWrite).Accepted (setup.mapping mapping)) :
    (setup.onSegmentationFault rounds mapping address isWrite).Meets
      setup.handle soundContract
      (fun _ after => Matched setup globalPolicy [] [] [] after) world := by
  obtain ⟨segmentId, below, shape⟩ :=
    setup.onSegmentationFault_eq (Q := Q) accepted rounds
  rw [shape]
  refine ⟨matched.orderly.consistent.sound, fun _ => ⟨(nomatch ·), ?_⟩⟩
  intro alreadyDone after replied
  obtain rfl := (answer_inj replied).2
  have mapped := matched.setCore mapping ((world.core mapping).fault
    (setup.mapping mapping) (setup.driver mapping) segmentId isWrite)
  refine Program.Meets.when (fun _ => ?_) fun _ => mapped
  unfold Task.agenda Setup.faultTasks Setup.policiesOf
  rw [Program.each_map, shares.shared]
  cases attached : setup.localPolicy mapping with
  | none =>
      refine (mapped.meets_notifyGlobal shares (mapping, segmentId) rounds ?_
        live below).andThen fun _ _ kept => kept
      intro element owner attached'
      constructor
      · intro absurdity
        cases absurdity
      · rintro rfl
        rw [attached] at attached'
        cases attached'
  | some localPolicy =>
      refine (mapped.meets_notifyLocal shares (mapping, segmentId) rounds
        attached live below).andThen ?_
      rintro _ after ⟨half, live⟩
      refine (half.meets_notifyGlobal shares (mapping, segmentId) rounds ?_
        live below).andThen fun _ _ kept => kept
      intro element owner _
      exact List.mem_singleton

/-! ## Destructions -/

variable {mapping : M} {before : World M P Q} {rest : List P}

/-- One call of `freeElementStorage`. -/
theorem Setup.Freeing.meets_free
    (freeing : setup.Freeing mapping before (policy :: rest) world)
    (orderly : setup.Orderly before) (live : before.live mapping = true) :
    (Section.freeElementStorage policy mapping >>= fun answer =>
      Program.ofExcept answer).Meets setup.handle soundContract
        (fun _ after => setup.Freeing mapping before rest after) world := by
  have nodup := List.nodup_cons.mp freeing.nodup
  have attached := freeing.attached policy List.mem_cons_self
  have same := freeing.unchanged policy (Or.inl List.mem_cons_self)
  obtain ⟨state, ends, freed⟩ := Policy.freeElementStorage_ok
    (orderly.consistent.balanced policy) (setup.space.spacious _)
    (orderly.serves attached live) (orderly.registryNodup policy) setup.ndebug
  have answer : setup.handle (.freeElementStorage policy mapping) world =
      some (.ok (), world.setPolicy policy state) := by
    change world.replyUnit (((world.policy policy).freeElementStorage
      setup.mapping setup.ndebug mapping).map fun state =>
        world.setPolicy policy state) = _
    rw [same, ends]
    rfl
  refine Program.Meets.bind (.request (freeing.sound orderly.consistent.sound) ?_ ?_)
  · intro _ waits
    rw [answer] at waits
    cases waits
  · intro _ result after replied
    rw [answer] at replied
    cases replied
    refine ⟨?_, ?_, freeing.live, ?_, nodup.2⟩
    · intro other outside
      have different : other ≠ policy := by
        rintro rfl
        exact outside.elim nodup.1 fun absent => absent attached
      rw [World.setPolicy_policy_of_ne _ different]
      exact freeing.unchanged other (outside.imp_left (List.mem_cons_of_mem policy))
    · intro other attached' absent
      by_cases equal : other = policy
      · rw [equal, World.setPolicy_policy_self]
        exact freed
      · rw [World.setPolicy_policy_of_ne _ equal]
        exact freeing.freed other attached' (by simp [equal, absent])
    · exact fun other member =>
        freeing.attached other (List.mem_cons_of_mem policy member)

/-- `Mapping::~Mapping`. -/
theorem Matched.meets_destroy
    (matched : Matched setup globalPolicy [] [] [] world)
    (shares : setup.Shares globalPolicy) (rounds : Nat)
    (live : world.live mapping = true) :
    (setup.destroy rounds mapping).Meets setup.handle soundContract
      (fun _ after => Matched setup globalPolicy [] [] [] after) world := by
  have begins : setup.Freeing mapping world (setup.policiesOf mapping) world :=
    ⟨fun _ _ => rfl, fun _ member absent => absurd member absent, rfl,
      fun _ member => member, setup.nodup_policiesOf mapping⟩
  refine (Program.Meets.each (setup.Freeing mapping world) begins ?_).andThen ?_
  · intro policy rest before freeing
    exact freeing.meets_free matched.orderly live
  intro _ freed freeing
  have sound := freeing.sound matched.orderly.consistent.sound
  have noQuota := (freeing.orderly matched.orderly).noQuota
  refine (Program.Meets.each (fun _ after => after = freed) rfl ?_).andThen ?_
  · rintro policy rest before rfl
    refine Program.Meets.bind (.request sound (fun _ => (nomatch ·)) ?_)
    intro _ result after replied
    cases replied
    rw [show (before.policy policy).policyQuota = none from noQuota policy]
    rfl
  · rintro _ after rfl
    refine Program.Meets.request sound (fun _ => (nomatch ·)) ?_
    intro _ result closed replied
    cases replied
    exact matched.destroyed shares freeing

/-! ## Runs -/

/-- The operations of a thread on the mappings that exist: faults and
destructions. -/
inductive Setup.FaultOrDestroy (setup : Setup M P)
    (world : World M P Q) : PolicyProgram M P Q Unit → Prop
  | fault (rounds : Nat) (mapping : M) (address : Nat) (isWrite : Bool)
      (live : world.live mapping = true)
      (accepted : (Call.fault address isWrite).Accepted (setup.mapping mapping)) :
      setup.FaultOrDestroy world
        (setup.onSegmentationFault rounds mapping address isWrite)
  | destroy (rounds : Nat) (mapping : M) (live : world.live mapping = true) :
      setup.FaultOrDestroy world (setup.destroy rounds mapping)

theorem Matched.meets_operation
    (matched : Matched setup globalPolicy [] [] [] world)
    (shares : setup.Shares globalPolicy) {program : PolicyProgram M P Q Unit}
    (offered : setup.FaultOrDestroy world program) :
    program.Meets setup.handle soundContract
      (fun _ after => Matched setup globalPolicy [] [] [] after) world := by
  cases offered with
  | fault rounds mapping address isWrite live accepted =>
      exact matched.meets_fault shares rounds live accepted
  | destroy rounds mapping live => exact matched.meets_destroy shares rounds live

/-- In every sequential run of faults and destructions, after each operation:
the local list of a mapping holds exactly the segments of this mapping that the
global list holds, and every counter is the memory of its list and within the
maximum of its policy.  Every notice is for a listed segment and no decrement
wraps around, also in the middle of the next operation, which returns or stops at
the check on the number of evictions. -/
theorem local_and_global_lists_agree (setup : Setup M P) (globalPolicy : P)
    (initial world : World M P Q) (shares : setup.Shares globalPolicy)
    (started : setup.Started initial)
    (isGlobal : (initial.policy globalPolicy).isLocal = false)
    (reached : SequentialRun setup.handle
      (fun state => { program | setup.FaultOrDestroy state program })
      (fun _ _ => True) initial world) :
    (∀ mapping localPolicy, setup.localPolicy mapping = some localPolicy →
      ∀ element, element ∈ (world.policy localPolicy).ring ↔
        element ∈ (world.policy globalPolicy).ring ∧ element.1 = mapping) ∧
    (∀ policy,
      (world.policy policy).currentMemory =
          weight (Policy.elementSize setup.mapping) (world.policy policy).ring ∧
        (world.policy policy).currentMemory ≤
          (world.policy policy).staticMaxMemory) ∧
    world.Sound ∧
    ∀ program, setup.FaultOrDestroy world program →
      (∀ entry ∈ program.performed setup.handle world, entry.2.Sound) ∧
        ((∃ after, program.run setup.handle world = .finished () after) ∨
          ∃ stopped, program.run setup.handle world =
            .aborted reachMaximum stopped) := by
  have matched : Matched setup globalPolicy [] [] [] world :=
    SequentialRun.invariant soundContract (Matched setup globalPolicy [] [] [])
      (Matched.of_started started shares isGlobal)
      (fun _ holds _ offered => holds.meets_operation shares offered) reached
  refine ⟨?_, ?_, matched.orderly.consistent.sound, ?_⟩
  · intro mapping localPolicy attached element
    have stored := (matched.orderly.consistent.balanced localPolicy).stored element
    constructor
    · intro member
      have own : element.1 = mapping := by
        have registered := (stored member).1
        rw [matched.orderly.consistent.registered, shares.mem_policiesOf] at registered
        exact shares.separate element.1 mapping localPolicy
          (registered.1.resolve_right (shares.local_ne attached)) attached
      refine ⟨?_, own⟩
      simpa using (matched.agree element localPolicy (own ▸ attached)).mp
        (Or.inl member)
    · rintro ⟨member, rfl⟩
      simpa using (matched.agree element localPolicy attached).mpr (Or.inl member)
  · intro policy
    refine ⟨(matched.orderly.consistent.balanced policy).counter, ?_⟩
    rw [← matched.orderly.limit policy]
    exact matched.orderly.within policy
  · intro program offered
    obtain ⟨sound, ends⟩ :=
      (matched.meets_operation shares offered).run fun _ _ => trivial
    refine ⟨sound, ?_⟩
    cases outcome : program.run setup.handle world with
    | finished value after => exact Or.inl ⟨after, rfl⟩
    | aborted message stopped =>
        rw [outcome] at ends
        exact Or.inr ⟨stopped, by rw [show message = reachMaximum from ends]⟩
    | blocked state =>
        rw [outcome] at ends
        cases ends

/-- Two mappings of two pages that share the global policy `true` with room for
two pages; the first one has the local policy `false` with room for one page. -/
def sharedSetup : Setup Bool Bool :=
  Setup.ofPages (fun _ => 1) (fun mapping => if mapping then none else some false)
    (fun _ => some true) false (by decide) two_mappings_fit

/-- Its world at the beginning. -/
def sharedWorld : World Bool Bool Empty :=
  World.start
    (fun policy =>
      if policy then
        { Policy.create .lifo (2 * pageSize) false with
          storageRegistry := [false, true] }
      else
        { Policy.create .fifo pageSize true with storageRegistry := [false] })
    Empty.elim

theorem started_sharedWorld : sharedSetup.Started sharedWorld where
  core := fun _ => ⟨_, _, rfl⟩
  live := fun _ => rfl
  policy := by
    intro policy
    cases policy with
    | false =>
        refine ⟨.fifo, pageSize, true, [false], by decide, ?_, rfl⟩
        intro mapping
        cases mapping <;> simp [sharedSetup, Setup.policiesOf, Setup.ofPages]
    | true =>
        refine ⟨.lifo, 2 * pageSize, false, [false, true], by decide, ?_, rfl⟩
        intro mapping
        cases mapping <;> simp [sharedSetup, Setup.policiesOf, Setup.ofPages]
  quota := fun quota => quota.elim

/-- After faults on both pages of the first mapping and on a page of the second
one, the page that the local policy kept is in the global list. -/
theorem local_and_global_lists_agree_after_faults :
    ∃ world : World Bool Bool Empty,
      (world.policy false).ring = [(false, 1)] ∧
        (false, 1) ∈ (world.policy true).ring ∧
        (world.policy true).currentMemory ≤ 2 * pageSize := by
  have first : SequentialRun sharedSetup.handle
      (fun state => { program | sharedSetup.FaultOrDestroy state program })
      (fun _ _ => True) sharedWorld _ :=
    SequentialRun.initial.call (sharedSetup.onSegmentationFault 0 false pageSize true)
      (.fault 0 false pageSize true rfl (by decide)) (fun _ _ => trivial) rfl
  have second := first.call
    (sharedSetup.onSegmentationFault 0 false (2 * pageSize) true)
    (.fault 0 false (2 * pageSize) true rfl (by decide)) (fun _ _ => trivial) rfl
  have third := second.call (sharedSetup.onSegmentationFault 0 true pageSize false)
    (.fault 0 true pageSize false rfl (by decide)) (fun _ _ => trivial) rfl
  obtain ⟨agree, counters, _⟩ := local_and_global_lists_agree sharedSetup true
    sharedWorld _ ⟨fun _ => rfl, by decide⟩ started_sharedWorld rfl third
  exact ⟨_, rfl, ((agree false false rfl (false, 1)).mp List.mem_cons_self).1,
    (counters true).2⟩

end UmmapIo
