import UmmapIo.Mixed.Programs

/-!
# Runs with policies of any class

The operations of one thread on mappings, policies of any class and quotas, and
what may happen between them: mappings are created, the application uses its
memory, another process changes the counts of an inter-process quota, and a
policy without mappings gives way to a new one.  The accounts of all policies are
balanced between any two operations.
-/

namespace UmmapIo

namespace Setup

variable {M P Q : Type} [Fintype M] [DecidableEq P] {setup : Setup M P}
variable {exempt : M → Prop} {initial world after : MixedWorld M P Q} {policy : P}
variable {quota : Q}

/-! ## Quotas -/

theorem Kept.updateNotifyLimit (kept : setup.Kept initial world) (quota : Q) :
    setup.Kept initial (world.updateNotifyLimit quota) := by
  unfold MixedWorld.updateNotifyLimit
  generalize (world.quota quota).policies = policies
  generalize (world.quota quota).staticMaxMemory = limit
  induction policies generalizing world with
  | nil => exact kept
  | cons first rest inductionHypothesis =>
      exact inductionHypothesis (kept.setDynamicMaxMemory first limit)

/-- A new link of a policy and a new list of a quota. -/
theorem Kept.relink [DecidableEq Q] {link : Option Q} {linked : PolicyObject M Q}
    (kept : setup.Kept initial world)
    (links : (world.policy policy).setQuota link = .ok linked)
    (quota : Q) (state : Quota P) :
    setup.Kept initial ((world.setPolicy policy linked).setQuota quota state) := by
  obtain ⟨registry, isLocal, balanced⟩ :=
    PolicyObject.setQuota_ok (kept.balanced policy) links
  exact (kept.setPolicy registry (·.congr registry isLocal) balanced).setQuota
    quota state

variable [DecidableEq M] [DecidableEq Q]

section

variable (kept : setup.Kept initial world) (updatable : setup.Updatable initial)
include kept updatable

/-- The end of a registration: new limits, then an update. -/
theorem Kept.meets_renewal (rounds : Nat) (quota : Q) :
    (Section.updateNotifyLimit quota >>= fun _ =>
      PolicyProgram.update rounds quota).Meets setup.handleMixed
        setup.mixedContract (fun _ after => setup.Kept initial after)
        world := by
  refine Program.Meets.bind (.request trivial (fun _ _ => trivial) ?_)
  intro _ answer after replied
  obtain ⟨_, rfl⟩ := answer_inj replied
  exact (kept.updateNotifyLimit quota).meets_update updatable rounds quota

theorem Kept.meets_registerPolicy (rounds : Nat) (quota : Q) (policy : P) :
    (PolicyProgram.registerPolicy rounds quota policy).Meets setup.handleMixed
      setup.mixedContract (fun _ after => setup.Kept initial after)
      world := by
  refine Program.Meets.bind (.request trivial (fun _ _ => trivial) ?_)
  intro _ answer after replied
  obtain ⟨ends, rfl⟩ | ⟨message, _, rfl, _⟩ := World.replyUnit_eq_some replied
  · obtain ⟨linked, links, equal⟩ := Fallible.bind_eq_ok.mp ends
    cases equal
    exact (kept.relink links quota _).meets_renewal updatable rounds quota
  · exact trivial

theorem Kept.meets_unregisterPolicy (rounds : Nat) (quota : Q) (policy : P) :
    (PolicyProgram.unregisterPolicy rounds quota policy).Meets setup.handleMixed
      setup.mixedContract (fun _ after => setup.Kept initial after)
      world := by
  refine Program.Meets.bind (.request trivial (fun _ _ => trivial) ?_)
  intro _ answer after replied
  obtain ⟨ends, rfl⟩ | ⟨message, _, rfl, _⟩ := World.replyUnit_eq_some replied
  · unfold MixedWorld.removePolicy at ends
    split at ends
    · obtain ⟨unlinked, links, equal⟩ := Fallible.bind_eq_ok.mp ends
      cases equal
      exact (kept.relink links quota _).meets_renewal updatable rounds quota
    · cases ends
  · exact trivial

theorem Kept.meets_deletePolicy (rounds : Nat) (policy : P) :
    (PolicyProgram.deletePolicy rounds policy).Meets setup.handleMixed
      setup.mixedContract (fun _ after => setup.Kept initial after)
      world := by
  refine Program.Meets.bind (.request trivial (fun _ _ => trivial) ?_)
  intro _ answer after replied
  obtain ⟨rfl, rfl⟩ := answer_inj replied
  cases linked : (world.policy policy).base.policyQuota with
  | none => exact kept
  | some quota => exact kept.meets_unregisterPolicy updatable rounds quota policy

/-! ## Faults -/

/-- A touch: its critical section, the evictions it orders, and nothing more or
an update of the quota of the policy. -/
theorem Kept.meets_notifyTouch {element : ListElement M}
    (registered : element.1 ∈ (world.policy policy).base.storageRegistry)
    (below : element.2 < (setup.mapping element.1).segments)
    (rounds : Nat) :
    (PolicyProgram.notifyTouch rounds policy element).Meets setup.handleMixed
      setup.mixedContract (fun _ after => setup.Kept initial after) world := by
  refine Program.Meets.bind (.request trivial (fun _ _ => trivial) ?_)
  intro _ answer after replied
  obtain ⟨touch, ends, rfl⟩ | ⟨message, _, rfl, _⟩ :=
    World.reply_eq_some replied
  · obtain ⟨⟨value, state⟩, touches, same⟩ := Fallible.map_eq_ok.mp ends
    cases same
    obtain ⟨advanced, _⟩ := PolicyObject.notifyTouch_ok (kept.balanced policy)
      (setup.space.spacious _) registered below touches
    have touched := kept.setPolicy advanced.storageRegistry advanced.alone
      advanced.balanced
    change (Program.each (PolicyProgram.evict policy) value.idsToEvict >>=
      fun _ => PolicyProgram.notifyQuota rounds policy value).Meets _ _ _ _
    refine (touched.meets_evictions policy _).andThen fun _ state evicted => ?_
    have kept := evicted.1
    refine Program.Meets.bind (.request trivial (fun _ _ => trivial) ?_)
    intro _ answer after replied
    obtain ⟨rfl, rfl⟩ := answer_inj replied
    cases (state.policy policy).base.policyQuota with
    | none => exact kept
    | some quota =>
        exact Program.Meets.when
          (fun _ => kept.meets_update updatable rounds quota) fun _ => kept
  · exact trivial

end

section

variable {mapping : M} (tracked : setup.Tracked (fun _ => False) world)
variable (live : world.live mapping = true)
include tracked live

/-- A fault: the segment is mapped, then every policy of the mapping is touched
in turn. -/
theorem Tracked.meets_fault (rounds address : Nat) (isWrite : Bool) :
    (setup.onSegmentationFault rounds mapping address isWrite).Meets
      setup.handleMixed setup.mixedContract
      (fun _ after => setup.Kept world after) world := by
  refine Program.Meets.checkFault (fun _ => trivial) fun accepted => ?_
  refine Program.Meets.bind (.request trivial (fun _ _ => trivial) ?_)
  intro _ answer after replied
  obtain ⟨_, rfl⟩ := answer_inj replied
  have below := accepted.fault_lt_segments
  have mapped (core : Core) := tracked.refl.setCore mapping core
  refine Program.Meets.when (fun _ => ?_) fun _ => mapped _
  refine (Program.Meets.each
    (fun rest state => (∀ policy ∈ rest, policy ∈ setup.policiesOf mapping) ∧
      setup.Kept world state) ⟨fun _ member => member, mapped _⟩ ?_).mono
    fun _ _ touched => touched.2
  rintro policy rest state ⟨attached, kept⟩
  have registered := (tracked.keep kept).served policy mapping
    (attached policy List.mem_cons_self)
    ((congrFun kept.live mapping).trans live) id
  refine (kept.meets_notifyTouch tracked.updatable registered below rounds).mono
    fun _ _ kept => ⟨?_, kept⟩
  exact fun other member => attached other (List.mem_cons_of_mem _ member)

/-! ## Destructions -/

/-- The part of a destruction that leaves the policies. -/
theorem Tracked.meets_freeElementStorage :
    (Program.each
      (fun policy => do
        let answer ← Section.freeElementStorage policy mapping
        Program.ofExcept answer)
      (setup.policiesOf mapping)).Meets setup.handleMixed setup.mixedContract
      (fun _ after => setup.Tracked (· = mapping) after ∧
        ∀ policy, mapping ∉ (after.policy policy).base.storageRegistry)
      world := by
  refine (Program.Meets.each
    (fun rest state => rest.Nodup ∧ setup.Tracked (· = mapping) state ∧
      ∀ policy, policy ∈ rest ↔
        mapping ∈ (state.policy policy).base.storageRegistry) ⟨?_, ?_, ?_⟩
    ?_).mono ?_
  · exact setup.nodup_policiesOf mapping
  · exact ⟨tracked.balanced, tracked.nodup, tracked.attached,
      fun policy other attached alive _ =>
        tracked.served policy other attached alive id, tracked.alone⟩
  · exact fun policy => ⟨fun attached =>
        tracked.served policy mapping attached live id,
      fun member => (tracked.attached policy mapping member).1⟩
  · rintro policy rest state ⟨nodup, tracked, remaining⟩
    obtain ⟨absent, restNodup⟩ := List.nodup_cons.mp nodup
    refine Program.Meets.bind (.request trivial (fun _ _ => trivial) ?_)
    intro _ answer after replied
    obtain ⟨ends, rfl⟩ | ⟨message, _, rfl, _⟩ := World.replyUnit_eq_some replied
    · obtain ⟨freed, frees, rfl⟩ := Fallible.map_eq_ok.mp ends
      obtain ⟨registry, isLocal, balanced⟩ := PolicyObject.freeElementStorage_ok
        (tracked.balanced policy) (setup.space.spacious _)
        ((remaining policy).mp List.mem_cons_self) (tracked.nodup policy) frees
      refine ⟨restNodup, tracked.freed registry isLocal balanced, ?_⟩
      refine MixedWorld.forall_setPolicy
        (fun other state => other ∈ rest ↔
          mapping ∈ state.base.storageRegistry) ?_ ?_
      · rw [registry, (tracked.nodup policy).mem_erase_iff]
        simp [absent]
      · intro other different
        rw [← remaining other, List.mem_cons]
        simp [different]
    · exact trivial
  · rintro _ state ⟨_, tracked, remaining⟩
    exact ⟨tracked, fun policy member =>
      absurd ((remaining policy).mpr member) List.not_mem_nil⟩

/-- The destruction of an existing mapping. -/
theorem Tracked.meets_destroy (rounds : Nat) :
    (setup.destroy rounds mapping).Meets setup.handleMixed setup.mixedContract
      (fun _ after => setup.Tracked (fun _ => False) after) world := by
  refine (tracked.meets_freeElementStorage live).andThen ?_
  rintro _ freed ⟨tracked, forgotten⟩
  have updatable : setup.Updatable freed :=
    ⟨_, tracked, fun policy other member same => forgotten policy (same ▸ member)⟩
  refine (Program.Meets.each (fun _ => setup.Kept freed) tracked.refl
    fun policy _ _ kept =>
      kept.meets_deletePolicy updatable rounds policy).andThen ?_
  intro _ state kept
  refine .request trivial (fun _ _ => trivial) ?_
  intro _ answer after replied
  obtain ⟨_, rfl⟩ := answer_inj replied
  refine (tracked.keep kept).close fun policy => ?_
  rw [kept.registries]
  exact forgotten policy

end

end Setup

/-! ## Creations -/

/-- A policy object as one of the constructors leaves it. -/
def PolicyObject.Constructed {M Q : Type} : PolicyObject M Q → Prop
  | .plain policy => ∃ kind maxMemory isLocal,
      policy = Policy.create kind maxMemory isLocal
  | .window policy => ∃ maxMemory maxSlidingMemory isLocal,
      policy = FifoWindowPolicy.create maxMemory maxSlidingMemory isLocal

theorem PolicyObject.Constructed.fresh {M Q : Type} {policy : PolicyObject M Q}
    (constructed : policy.Constructed) (mappings : M → Mapping) :
    policy.base.storageRegistry = [] ∧ policy.Balanced mappings := by
  have empty {policy : Policy M Q} (ring : policy.ring = [])
      (memory : policy.currentMemory = 0) : policy.Balanced mappings := by
    refine ⟨?_, ?_, ?_⟩
    · rw [ring]
      exact List.nodup_nil
    · rw [ring]
      exact fun _ member => nomatch member
    · rw [ring, memory]
      rfl
  cases policy with
  | plain policy =>
      obtain ⟨kind, maxMemory, isLocal, rfl⟩ := constructed
      exact ⟨rfl, empty rfl rfl⟩
  | window policy =>
      obtain ⟨maxMemory, maxSlidingMemory, isLocal, rfl⟩ := constructed
      exact ⟨rfl, empty rfl rfl, empty rfl rfl,
        fun _ member => (nomatch member), fun _ member => nomatch member⟩

namespace Setup

variable {M P Q : Type} [Fintype M] [DecidableEq M] [DecidableEq P] {setup : Setup M P}
variable {initial world after : MixedWorld M P Q}

/-- The policies of a mapping allocate its element storage, one after the
other. -/
def registerMapping (setup : Setup M P) (mapping : M) (policies : List P)
    (world : MixedWorld M P Q) : Except Stop (MixedWorld M P Q) :=
  policies.foldlM
    (fun current policy =>
      ((current.policy policy).registerMapping setup.mapping mapping).map
        (current.setPolicy policy)) world

/-- The constructor of a mapping.  A local policy is given to one mapping. -/
structure Creates (setup : Setup M P) (mapping : M)
    (before after : MixedWorld M P Q) : Prop where
  unused : before.live mapping = false
  alone : ∀ policy ∈ setup.policiesOf mapping,
    (before.policy policy).base.isLocal = true →
      (before.policy policy).base.storageRegistry = []
  registers : (setup.registerMapping mapping (setup.policiesOf mapping)
    before).map (fun registered => registered.setLive mapping true) = .ok after

/-- What registering a mapping does to each policy. -/
theorem registerMapping_ok {mapping : M} {policies : List P}
    {world after : MixedWorld M P Q} (nodup : policies.Nodup)
    (balanced : ∀ policy, (world.policy policy).Balanced setup.mapping)
    (fresh : ∀ policy ∈ policies,
      mapping ∉ (world.policy policy).base.storageRegistry)
    (ends : setup.registerMapping mapping policies world = .ok after) :
    after.live = world.live ∧
      ∀ policy, (after.policy policy).Balanced setup.mapping ∧
        (after.policy policy).base.isLocal =
          (world.policy policy).base.isLocal ∧
        (after.policy policy).base.storageRegistry =
          (world.policy policy).base.storageRegistry ++
            if policy ∈ policies then [mapping] else [] := by
  induction policies generalizing world with
  | nil =>
      cases ends
      exact ⟨rfl, fun policy => ⟨balanced policy, rfl, by simp⟩⟩
  | cons first rest inductionHypothesis =>
      obtain ⟨absent, restNodup⟩ := List.nodup_cons.mp nodup
      rw [registerMapping, List.foldlM_cons] at ends
      obtain ⟨middle, registers, restEnds⟩ := Fallible.bind_eq_ok.mp ends
      obtain ⟨registered, calls, rfl⟩ := Fallible.map_eq_ok.mp registers
      obtain ⟨registry, isLocal, kept⟩ := PolicyObject.registerMapping_ok
        (balanced first) (fresh first List.mem_cons_self) calls
      have others (policy : P) (different : policy ≠ first) :
          (world.setPolicy first registered).policy policy =
            world.policy policy := Function.update_of_ne different _ _
      have later (policy : P) (member : policy ∈ rest) : policy ≠ first :=
        fun same => absent (same ▸ member)
      obtain ⟨live, effect⟩ := inductionHypothesis restNodup
        (MixedWorld.forall_setPolicy (fun _ => PolicyObject.Balanced _) kept
          fun other _ => balanced other)
        (fun policy member => by
          rw [others policy (later policy member)]
          exact fresh policy (List.mem_cons_of_mem _ member))
        restEnds
      refine ⟨live, fun policy => ⟨(effect policy).1, ?_⟩⟩
      rw [(effect policy).2.1, (effect policy).2.2]
      by_cases same : policy = first
      · subst same
        rw [World.setPolicy_policy, Function.update_self, registry]
        simp [absent, isLocal]
      · rw [others policy same]
        simp [same]

/-- A new mapping. -/
theorem Tracked.created {mapping : M}
    (tracked : setup.Tracked (fun _ => False) world)
    (creates : setup.Creates mapping world after) :
    setup.Tracked (fun _ => False) after := by
  obtain ⟨registered, registers, rfl⟩ :=
    Fallible.map_eq_ok.mp creates.registers
  have fresh (policy : P) :
      mapping ∉ (world.policy policy).base.storageRegistry := by
    intro member
    have live := (tracked.attached policy mapping member).2
    rw [creates.unused] at live
    cases live
  obtain ⟨live, effect⟩ := registerMapping_ok
    (setup.nodup_policiesOf mapping) tracked.balanced
    (fun policy _ => fresh policy) registers
  have registry (policy : P) (other : M) :
      other ∈ (registered.policy policy).base.storageRegistry ↔
        other ∈ (world.policy policy).base.storageRegistry ∨
          policy ∈ setup.policiesOf mapping ∧ other = mapping := by
    rw [(effect policy).2.2, List.mem_append]
    split <;> simp [*]
  refine ⟨fun policy => (effect policy).1, ?_, ?_, ?_, ?_⟩
  · intro policy
    rw [World.setLive_policy, (effect policy).2.2]
    split
    · refine List.nodup_append.mpr ⟨tracked.nodup policy,
        List.nodup_singleton mapping, ?_⟩
      rintro other member _ single rfl
      exact fresh policy (List.mem_singleton.mp single ▸ member)
    · rw [List.append_nil]
      exact tracked.nodup policy
  · intro policy other member
    rw [World.setLive_live, live]
    by_cases same : other = mapping
    · rw [same] at member ⊢
      obtain old | ⟨attached, _⟩ := (registry policy mapping).mp member
      · exact absurd old (fresh policy)
      · exact ⟨attached, Function.update_self ..⟩
    · rw [Function.update_of_ne same]
      obtain old | ⟨_, equal⟩ := (registry policy other).mp member
      · exact tracked.attached policy other old
      · exact absurd equal same
  · intro policy other attached alive _
    refine (registry policy other).mpr ?_
    by_cases same : other = mapping
    · exact Or.inr ⟨same ▸ attached, same⟩
    · rw [World.setLive_live, live, Function.update_of_ne same] at alive
      exact Or.inl (tracked.served policy other attached alive id)
  · intro policy flag other
    rw [World.setLive_policy, (effect policy).2.1] at flag
    rw [World.setLive_policy, (effect policy).2.2]
    split
    · rename_i attached
      rw [creates.alone policy attached flag, List.nil_append, List.mem_singleton]
      rintro rfl
      rfl
    · rw [List.append_nil]
      exact tracked.alone policy flag other

/-! ## Runs -/

variable [DecidableEq Q]

/-- The operations of a thread. -/
inductive MixedOperation (setup : Setup M P)
    (world : MixedWorld M P Q) : PolicyProgram M P Q Unit → Prop
  | fault (rounds : Nat) (mapping : M) (address : Nat) (isWrite : Bool)
      (live : world.live mapping = true) :
      setup.MixedOperation world
        (setup.onSegmentationFault rounds mapping address isWrite)
  | flush (mapping : M) (offset size : Nat) (flags : FlushFlags) :
      setup.MixedOperation world (setup.flush mapping offset size flags)
  | dropClean (mapping : M) :
      setup.MixedOperation world (Section.dropClean mapping)
  | destroy (rounds : Nat) (mapping : M) (live : world.live mapping = true) :
      setup.MixedOperation world (setup.destroy rounds mapping)
  | registerPolicy (rounds : Nat) (quota : Q) (policy : P) :
      setup.MixedOperation world (PolicyProgram.registerPolicy rounds quota policy)
  | unregisterPolicy (rounds : Nat) (quota : Q) (policy : P) :
      setup.MixedOperation world (PolicyProgram.unregisterPolicy rounds quota policy)
  | update (rounds : Nat) (quota : Q) :
      setup.MixedOperation world (PolicyProgram.update rounds quota)

/-- What may happen between two operations. -/
inductive Disturbs (setup : Setup M P) :
    MixedWorld M P Q → MixedWorld M P Q → Prop
  | memory (world : MixedWorld M P Q) (core : M → Core) :
      setup.Disturbs world { world with core := core }
  | processes (world : MixedWorld M P Q) (interProc : Q → Option InterProc) :
      setup.Disturbs world
        { world with
          quota := fun quota =>
            { world.quota quota with interProc := interProc quota } }
  | create {world after : MixedWorld M P Q} {mapping : M}
      (creates : setup.Creates mapping world after) :
      setup.Disturbs world after
  | renew {world : MixedWorld M P Q} {policy : P} {state : PolicyObject M Q}
      (unused : (world.policy policy).base.storageRegistry = [])
      (constructed : state.Constructed) :
      setup.Disturbs world (world.setPolicy policy state)

/-- No mapping exists yet, and no policy is registered to a quota. -/
structure StartedMixed (initial : MixedWorld M P Q) : Prop where
  live : ∀ mapping, initial.live mapping = false
  policy : ∀ policy, (initial.policy policy).Constructed
  quota : ∀ quota, (initial.quota quota).policies = []

/-- The states between the operations of a run in which every notice is for a
listed segment if assertions are compiled out. -/
def ReachedMixed (setup : Setup M P)
    (initial : MixedWorld M P Q) : MixedWorld M P Q → Prop :=
  DisturbedRun setup.handleMixed
    (fun world => { program | setup.MixedOperation world program })
    setup.Noticed setup.Disturbs initial

theorem Tracked.meets_operation {program : PolicyProgram M P Q Unit}
    (tracked : setup.Tracked (fun _ => False) world)
    (operation : setup.MixedOperation world program) :
    program.Meets setup.handleMixed setup.mixedContract
      (fun _ after => setup.Tracked (fun _ => False) after) world := by
  have flushed (mapping : M) (core : Core) :
      setup.Tracked (fun _ => False) (world.setCore mapping core) :=
    tracked.keep (tracked.refl.setCore mapping core)
  have updatable := tracked.updatable
  cases operation with
  | fault rounds mapping address isWrite live =>
      exact (tracked.meets_fault live rounds address isWrite).mono
        fun _ _ kept => tracked.keep kept
  | flush mapping offset size flags =>
      refine Program.Meets.assume trivial fun _ => ?_
      refine Program.Meets.assume trivial fun _ => ?_
      refine Program.Meets.assume trivial fun _ => ?_
      refine Program.Meets.assume trivial fun _ => ?_
      refine .request trivial (fun _ _ => trivial) ?_
      intro _ answer after replied
      obtain ⟨_, rfl⟩ := answer_inj replied
      exact flushed mapping _
  | dropClean mapping =>
      refine .request trivial (fun _ _ => trivial) ?_
      intro _ answer after replied
      obtain ⟨_, rfl⟩ := answer_inj replied
      exact flushed mapping _
  | destroy rounds mapping live => exact tracked.meets_destroy live rounds
  | registerPolicy rounds quota policy =>
      exact (tracked.refl.meets_registerPolicy updatable rounds quota policy).mono
        fun _ _ kept => tracked.keep kept
  | unregisterPolicy rounds quota policy =>
      exact (tracked.refl.meets_unregisterPolicy updatable rounds quota
        policy).mono fun _ _ kept => tracked.keep kept
  | update rounds quota =>
      exact (tracked.refl.meets_update updatable rounds quota).mono
        fun _ _ kept => tracked.keep kept

/-- The accounts hold between the operations of a run. -/
theorem ReachedMixed.tracked
    (reached : setup.ReachedMixed initial world)
    (started : StartedMixed initial) :
    setup.Tracked (fun _ => False) world := by
  refine DisturbedRun.invariant setup.mixedContract
    (setup.Tracked fun _ => False) ?_ ?_ ?_ reached
  · refine ⟨fun policy => ((started.policy policy).fresh _).2, ?_, ?_, ?_, ?_⟩
    · intro policy
      rw [((started.policy policy).fresh setup.mapping).1]
      exact List.nodup_nil
    · intro policy mapping member
      rw [((started.policy policy).fresh setup.mapping).1] at member
      cases member
    · intro policy mapping _ live
      rw [started.live mapping] at live
      cases live
    · intro policy _ mapping member
      rw [((started.policy policy).fresh setup.mapping).1] at member
      cases member
  · exact fun before tracked program operation => tracked.meets_operation operation
  · rintro before after tracked disturbed
    cases disturbed with
    | memory core | processes interProc =>
        exact tracked.keep ⟨rfl, fun _ => rfl, id, tracked.balanced⟩
    | create creates => exact tracked.created creates
    | renew unused constructed =>
        obtain ⟨registry, balanced⟩ := constructed.fresh setup.mapping
        refine tracked.keep
          (tracked.refl.setPolicy (registry.trans unused.symm) ?_ balanced)
        intro _ _ mapping member
        rw [registry] at member
        cases member

/-- An update of the quota begins in this state: an operation of a run has come to
the first section of `update`. -/
def UpdateBegins (setup : Setup M P) (initial : MixedWorld M P Q) (quota : Q)
    (world : MixedWorld M P Q) : Prop :=
  ∃ before program earlier later, setup.ReachedMixed initial before ∧
    setup.MixedOperation before program ∧
    program.performed setup.handleMixed before =
      earlier ++ (.shareQuota quota, world) :: later ∧
    ∀ entry ∈ earlier, setup.Noticed entry.1 entry.2

/-- An update may begin between any two operations. -/
theorem ReachedMixed.updateBegins
    (reached : setup.ReachedMixed initial world)
    (quota : Q) :
    setup.UpdateBegins initial quota world :=
  ⟨world, _, [], _, reached, .update 0 quota,
    Program.performed_perform setup.handleMixed (.shareQuota quota) _ world,
    fun _ absurdity => nomatch absurdity⟩

theorem UpdateBegins.updatable {quota : Q}
    (begins : setup.UpdateBegins initial quota world)
    (started : StartedMixed initial) :
    setup.Updatable world := by
  obtain ⟨before, program, earlier, later, reached, operation, performs, noticed⟩ :=
    begins
  have meets := (reached.tracked started).meets_operation operation
  exact meets.invariant_at performs noticed

end Setup
end UmmapIo
