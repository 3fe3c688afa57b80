import UmmapIo.Lib.Tracing
import UmmapIo.Mixed.Runs

/-!
# The segment that a fault serves

A fault maps its segment and then touches the policies of the mapping, which may
evict, and may ask their quotas for updates, which evict again.  The segment is
still mapped when the fault returns exactly if none of the loops on the way takes
it, which comparisons of sizes with limits decide when a loop begins.  A fault may
return with its segment evicted again.
-/

namespace UmmapIo
namespace Setup

variable {M P Q : Type} [Fintype M] [DecidableEq M] [DecidableEq P] {setup : Setup M P}

/-- The loop of a touch or of `shrinkMemory` leaves the segment. -/
def Spares (setup : Setup M P)
    (element : ListElement M) : PolicyOp M P Q → MixedWorld M P Q → Prop
  | .notifyTouch policy _ _, world =>
      (world.policy policy).Room setup.mapping element
  | .shrinkMemory policy, world =>
      (world.policy policy).Keeps setup.mapping element
  | _, _ => True

instance (element : ListElement M) (op : PolicyOp M P Q)
    (world : MixedWorld M P Q) : Decidable (setup.Spares element op world) := by
  cases op <;> unfold Spares <;> infer_instance

/-- The loops decide whether the segment stays mapped. -/
def servedVerdict (setup : Setup M P) (initial : MixedWorld M P Q)
    (element : ListElement M) :
    Verdict (policySignature M P Q) (MixedWorld M P Q) where
  assumes := setup.Noticed
  kept := setup.Kept initial
  holds world := (world.core element.1).Mapped element.2
  guard := setup.Spares element

variable {initial world after : MixedWorld M P Q} {element : ListElement M}
variable [DecidableEq Q]

theorem Kept.evictions_finished {source : P} {idsToEvict : List (ListElement M)}
    (kept : setup.Kept initial world) (element : ListElement M)
    (noticed : ∀ entry ∈ (Program.each (PolicyProgram.evict source)
      idsToEvict).performed setup.handleMixed world,
        setup.Noticed entry.1 entry.2)
    (finished : (Program.each (PolicyProgram.evict source) idsToEvict).run
      setup.handleMixed world = .finished () after) :
    setup.Kept initial after ∧
      ((after.core element.1).Mapped element.2 ↔
        (world.core element.1).Mapped element.2 ∧ element ∉ idsToEvict) ∧
      ∀ entry ∈ (Program.each (PolicyProgram.evict source)
        idsToEvict).performed setup.handleMixed world,
          setup.Spares element entry.1 entry.2 := by
  have ends := ((kept.meets_evictions source idsToEvict).run noticed).2
  rw [finished] at ends
  have inside : (Program.each (PolicyProgram.evict source) idsToEvict).Meets
      setup.handleMixed
      { Contract.lenient with invariant := setup.Spares element }
      (fun _ _ => True) world := by
    refine Program.Meets.each (fun _ _ => True) trivial fun other _ _ _ => ?_
    refine Program.Meets.bind (.request trivial (fun _ _ => trivial) ?_)
    intro _ answer _ _
    cases answer <;> exact trivial
  exact ⟨ends.1, ends.2 element, (inside.run fun _ _ => trivial).1⟩

/-- The evictions that follow a critical section, and what comes after them. -/
theorem Kept.decides_evictions (source : P) {idsToEvict : List (ListElement M)}
    {op : PolicyOp M P Q} {state : MixedWorld M P Q}
    {entries : List (PolicyOp M P Q × MixedWorld M P Q)}
    {next : Unit → PolicyProgram M P Q Unit} (kept : setup.Kept initial world)
    (core : world.core = state.core)
    (left : element ∉ idsToEvict ↔ setup.Spares element op state)
    (continues : (next ()).Decides setup.handleMixed
      (setup.servedVerdict initial element))
    (performs : ∀ entry, entry ∈ entries ↔ entry = (op, state) ∨
      entry ∈ (Program.each (PolicyProgram.evict source) idsToEvict >>=
        next).performed setup.handleMixed world)
    (noticed : ∀ entry ∈ entries, setup.Noticed entry.1 entry.2)
    (finished : (Program.each (PolicyProgram.evict source) idsToEvict >>=
      next).run setup.handleMixed world = .finished () after) :
    setup.Kept initial after ∧
      ((after.core element.1).Mapped element.2 ↔
        (state.core element.1).Mapped element.2 ∧
          ∀ entry ∈ entries, setup.Spares element entry.1 entry.2) := by
  rw [Program.run_bind] at finished
  obtain ⟨_, drained, evictions, ends⟩ :=
    Outcome.andThen_eq_finished.mp finished
  have parts (entry) : entry ∈ entries ↔ entry = (op, state) ∨
      entry ∈ (Program.each (PolicyProgram.evict source) idsToEvict).performed
        setup.handleMixed world ∨
      entry ∈ (next ()).performed setup.handleMixed drained :=
    (performs entry).trans
      (or_congr_right (Program.mem_performed_of_finished evictions))
  simp only [parts, or_imp, forall_and, forall_eq] at noticed ⊢
  obtain ⟨keeps, mapped, inside⟩ :=
    kept.evictions_finished element noticed.2.1 evictions
  obtain ⟨keeps, decided⟩ := continues drained _ after keeps noticed.2.2 ends
  refine ⟨keeps, decided.trans ?_⟩
  rw [← left, ← core]
  exact ⟨fun ⟨there, later⟩ => ⟨(mapped.mp there).1, (mapped.mp there).2, inside,
    later⟩, fun ⟨there, absent, _, later⟩ => ⟨mapped.mpr ⟨there, absent⟩, later⟩⟩

theorem decides_shrinkMemory (policy : P) :
    (PolicyProgram.shrinkMemory policy).Decides setup.handleMixed
      (setup.servedVerdict initial element) := by
  intro state _ final kept noticed finished
  obtain ⟨answer, shrunk, replied, ends, performs⟩ :=
    Program.request_bind_finished finished
  obtain ⟨_, answered, rfl⟩ | ⟨message, _, rfl, _⟩ := World.reply_eq_some replied
  · obtain ⟨⟨idsToEvict, object⟩, shrinks, same⟩ := Fallible.map_eq_ok.mp answered
    cases same
    have effect := PolicyObject.shrinkMemory_ok (kept.balanced policy)
      (setup.space.spacious _) shrinks
    have whole : (Program.each (PolicyProgram.evict policy) idsToEvict >>=
        .done : PolicyProgram M P Q Unit) =
          Program.each (PolicyProgram.evict policy) idsToEvict :=
      Program.bind_done _
    have left : element ∉ idsToEvict ↔
        setup.Spares element (.shrinkMemory policy) state := effect.keeps element
    refine (kept.setPolicy effect.storageRegistry effect.alone
      effect.balanced).decides_evictions policy rfl left
        (Program.Decides.done ()) ?_ noticed ?_
    · rw [whole]
      exact performs
    · rw [whole]
      exact ends
  · cases ends

theorem decides_updateLoop (quota : Q) (averageMem rounds : Nat) :
    (PolicyProgram.updateLoop quota averageMem rounds).Decides setup.handleMixed
      (setup.servedVerdict initial element) := by
  induction rounds with
  | zero => exact .request (fun _ => trivial) fun _ _ _ _ answer => nomatch answer
  | succ rounds inductionHypothesis =>
      refine (Program.Decides.request (fun _ => trivial) ?_).bind fun observed => ?_
      · intro state result after kept answer
        obtain ⟨_, rfl⟩ := answer_inj answer
        exact ⟨kept, Iff.rfl⟩
      · obtain ⟨staticMaxMemory, memories⟩ := observed
        cases memories with
        | nil => exact .done ()
        | cons first rest =>
            dsimp only
            split
            · refine (Program.Decides.request (fun _ => trivial) ?_).bind
                fun _ => (decides_shrinkMemory _).bind fun _ => inductionHypothesis
              intro state result after kept answer
              obtain ⟨_, rfl⟩ := answer_inj answer
              exact ⟨Kept.setDynamicMaxMemory kept _ _, Iff.rfl⟩
            · exact .done ()

theorem decides_update (rounds : Nat) (quota : Q) :
    (PolicyProgram.update rounds quota).Decides setup.handleMixed
      (setup.servedVerdict initial element) := by
  refine (Program.Decides.request (fun _ => trivial) ?_).bind fun answer =>
    (Program.Decides.ofExcept answer).bind fun _ =>
      (Program.Decides.request (fun _ => trivial) ?_).bind fun _ =>
        (decides_updateLoop quota _ rounds).when _
  · intro state result after kept answer
    obtain ⟨ends, rfl⟩ | ⟨_, _, rfl, rfl⟩ := World.replyUnit_eq_some answer
    · obtain ⟨_, rfl⟩ := World.shareQuota_ok ends
      exact ⟨Kept.setQuota kept quota _, Iff.rfl⟩
    · exact ⟨kept, Iff.rfl⟩
  · intro state result after kept answer
    obtain ⟨_, rfl⟩ := answer_inj answer
    exact ⟨kept, Iff.rfl⟩

/-- A touch of the segment by a policy that has its mapping. -/
theorem decides_notifyTouch {policy : P}
    (registered : ∀ state, setup.Kept initial state →
      element.1 ∈ (state.policy policy).base.storageRegistry)
    (below : element.2 < (setup.mapping element.1).segments)
    (rounds : Nat) :
    (PolicyProgram.notifyTouch rounds policy element).Decides setup.handleMixed
      (setup.servedVerdict initial element) := by
  have asks (touch : Touch M) :
      (PolicyProgram.notifyQuota rounds policy touch).Decides setup.handleMixed
        (setup.servedVerdict initial element) := by
    refine (Program.Decides.request (fun _ => trivial) ?_).bind fun observed => ?_
    · intro state result after kept answer
      obtain ⟨_, rfl⟩ := answer_inj answer
      exact ⟨kept, Iff.rfl⟩
    · obtain ⟨currentMemory, policyQuota⟩ := observed
      cases policyQuota with
      | none => exact .done ()
      | some quota => exact (decides_update rounds quota).when _
  intro state _ final kept noticed finished
  obtain ⟨answer, touched, replied, ends, performs⟩ :=
    Program.request_bind_finished finished
  obtain ⟨_, answered, rfl⟩ | ⟨message, _, rfl, _⟩ := World.reply_eq_some replied
  · obtain ⟨⟨touch, object⟩, touches, same⟩ := Fallible.map_eq_ok.mp answered
    cases same
    obtain ⟨advanced, room⟩ := PolicyObject.notifyTouch_ok (kept.balanced policy)
      (setup.space.spacious _) (registered state kept) below touches
    have left : element ∉ touch.idsToEvict ↔ setup.Spares element
        (.notifyTouch policy element.1 element.2) state := room
    exact (kept.setPolicy advanced.storageRegistry advanced.alone
      advanced.balanced).decides_evictions policy rfl left (asks touch) performs
        noticed ends
  · cases ends

end Setup

variable {M P Q : Type} [Fintype M] [DecidableEq M] [DecidableEq P] [DecidableEq Q]

/-- One mapping of three pages with a global policy. -/
def servedSetup : Setup Unit Unit :=
  Setup.single 2 false

/-- A policy and a quota before the mapping is created. -/
def servedStart (policy : PolicyObject Unit Unit) (staticMaxMemory : Nat) :
    MixedWorld Unit Unit Unit where
  core := fun _ => Core.initial ⟨false, false⟩ fun _ => 0
  live := fun _ => false
  policy := fun _ => policy
  quota := fun _ => Quota.create staticMaxMemory

theorem started_servedStart (policy : PolicyObject Unit Unit) (staticMaxMemory : Nat)
    (constructed : policy.Constructed) :
    Setup.StartedMixed (servedStart policy staticMaxMemory) where
  live := fun _ => rfl
  policy := fun _ => constructed
  quota := fun _ => rfl

/-- With assertions there is no condition on notices. -/
theorem noticed_servedSetup (op : PolicyOp Unit Unit Unit)
    (world : MixedWorld Unit Unit Unit) :
    servedSetup.Noticed op world :=
  fun ndebug => nomatch ndebug

end UmmapIo
