import UmmapIo.Lib.Simulation
import UmmapIo.Mapping.InOrder
import UmmapIo.Mapping.Vacancy
import UmmapIo.Retarget.Cow

/-!
# Switching the driver to another storage

`ummap_switch_fd` lets the driver use another file without copying anything, and
says what becomes of the clean segments: nothing, they are dropped, or they are
marked as dirty.  Whatever was called before, the protections of the segments are
accounted for by their status, and there is nothing in a segment that is not mapped.
-/

namespace UmmapIo

variable {F : Type}

/-- `ummap_switch_clean_t`, with the other values that a caller can pass. -/
inductive SwitchClean : Type
  | noAction
  | dropClean
  | markCleanDirty
  | other (value : Nat)

/-- What `GlobalHandler::applySwitch` does with the clean segments. -/
def Mapping.cleanAction (mapping : Mapping) : SwitchClean → MappingProgram Unit
  | .noAction => pure ()
  | .dropClean => mapping.dropClean
  | .markCleanDirty => mapping.markCleanAsDirty
  | .other value =>
      .abort s!"Invalid clean action for switch operation, got {value}"

/-- `GlobalHandler::applySwitch` for an `FDDriver`; `Mapping::unregisterRange` has no
effect on such a driver. -/
def GlobalHandler.applySwitch (entries : List MappingRegistryEntry) (addr : Nat)
    (cleanAction : SwitchClean)
    (action : FileProgram F Unit) : FileProgram F Int :=
  match getMapping entries addr with
  | none => .abort "Fail to find the requested mapping for address %p !"
  | some mapping => do
      action
      Mapping.registerRange
      Files.onMapping (mapping.cleanAction cleanAction)
      pure 0

/-- `ummap_switch_fd`. -/
def ummapSwitchFd (entries : List MappingRegistryEntry) (addr : Nat) (fd : F)
    (cleanAction : SwitchClean) : FileProgram F Int :=
  GlobalHandler.applySwitch entries addr cleanAction (Files.setFd fd)

/-- One call of a client on a mapping over files that are copied or switched. -/
inductive SwitchCall (F : Type) : Type
  | file (call : FileCall F)
  | switch (addr : Nat) (fd : F) (cleanAction : SwitchClean)

/-- The program of a call. -/
def Mapping.switchCall (mapping : Mapping) (entries : List MappingRegistryEntry)
    (attempts : Nat) : SwitchCall F → FileProgram F (Option Byte)
  | .file call => mapping.fileCall entries attempts call
  | .switch addr fd cleanAction => do
      let _ ← ummapSwitchFd entries addr fd cleanAction
      pure none

/-- Run calls of threads one after the other and collect their results. -/
def Mapping.runSwitchCalls [DecidableEq F] (mapping : Mapping)
    (entries : List MappingRegistryEntry) (driver : Driver) (clone : CloneAnswer F)
    (attempts : Nat) :
    List (Nat × SwitchCall F) → FileState F →
      Outcome (FileState F) (List (Option Byte))
  | [], state => .finished [] state
  | (thread, call) :: rest, state =>
      ((mapping.switchCall entries attempts call).run
        (mapping.handleFiles driver clone thread) state).andThen
          fun value state' =>
            (mapping.runSwitchCalls entries driver clone attempts rest
              state').andThen
                fun values final => .finished (value :: values) final

/-- The addresses of a call are those of the mapping. -/
def SwitchCall.Concerns (mapping : Mapping)
    (entries : List MappingRegistryEntry) : SwitchCall F → Prop
  | .file (.call _) => True
  | .file (.cow addr _) => getMapping entries addr = some mapping
  | .switch addr _ _ => getMapping entries addr = some mapping

/-! ## Operations of a copy -/

/-- The operation moves bytes between files or changes the file of the driver. -/
def FileOp.MovesBytes : FileOp F → Prop
  | .mapping (.getStatus _) => True
  | .mapping (.preadBuffer _ _ _) => True
  | .mapping _ => False
  | _ => True

namespace Mapping

open Program (Performs)

variable (mapping : Mapping) (target : F)

theorem copySegment_performs (sizeToDump segmentId : Nat) :
    Performs FileOp.MovesBytes (mapping.copySegment target sizeToDump segmentId) := by
  unfold copySegment
  dsimp only
  refine Performs.bind (.request trivial) fun _ => ?_
  split
  · exact Performs.bind (.request trivial) fun _ => .assume _ _
  · refine Performs.bind (.request trivial) fun _ => ?_
    refine Performs.bind (.assume _ _) fun _ => ?_
    exact Performs.bind (.request trivial) fun _ => .assume _ _

theorem cowFd_performs : Performs FileOp.MovesBytes (mapping.cowFd target) := by
  unfold cowFd FDDriver.cloneRange copyToDriver copyMappedPart
  refine Performs.bind ?_ fun _ => ?_
  · refine Performs.bind (.request trivial) fun _ => ?_
    exact Performs.bind (.request trivial) fun _ => trivial
  · refine Performs.bind (.when _ ?_) fun _ => ?_
    · exact Performs.bind (.assume _ _) fun _ =>
        .each (mapping.copySegment_performs target _) _
    · exact Performs.bind (.request trivial) fun _ => trivial

theorem ummapCowFd_performs {entries : List MappingRegistryEntry} {addr : Nat}
    (registered : getMapping entries addr = some mapping) :
    Performs FileOp.MovesBytes (ummapCowFd entries addr target) := by
  unfold ummapCowFd GlobalHandler.applyCow
  rw [registered]
  exact (mapping.cowFd_performs target).bind fun _ => trivial

end Mapping

/-! ## Reachable states -/

/-- The mapping is at rest, its protections are accounted for, there is nothing in
the segments that are not mapped, and every segment has some further property. -/
structure FileState.InOrder (mapping : Mapping)
    (property : SegmentStatus → Protection → Prop)
    (state : FileState F) : Prop where
  idle : state.machine = .idle state.machine.core
  pages : Segmentwise UmmapIo.InOrder state.machine.core
  vacant : AllVacant mapping state.machine.core
  segments : Segmentwise property state.machine.core

/-- Effect of the clean action of a switch. -/
def Core.cleanAction (core : Core) (mapping : Mapping) : SwitchClean → Core
  | .noAction => core
  | .dropClean => core.dropClean mapping
  | .markCleanDirty => core.markCleanAsDirty mapping
  | .other _ => core

/-- The clean action computes its effect if it is one of the three that there
are. -/
theorem ends_cleanAction {mapping : Mapping} {driver : Driver} {thread : Nat}
    {core : Core} (action : SwitchClean) :
    (mapping.cleanAction action).Ends (mapping.handle driver thread)
      (∃ value, action = .other value) (.idle core) ()
      (.idle (core.cleanAction mapping action)) := by
  cases action with
  | noAction => exact .done () _
  | dropClean =>
      exact ends_withAllLocked fun _ _ segmentId => ends_dropSegment segmentId
  | markCleanDirty =>
      exact ends_withAllLocked fun _ _ segmentId => ends_markSegment segmentId
  | other value => exact Or.inr ⟨⟨value, rfl⟩, _, _, rfl⟩

/-- The state after a switch. -/
def FileState.switched [DecidableEq F] (state : FileState F) (mapping : Mapping)
    (target : F)
    (action : SwitchClean) : FileState F :=
  (state.setFd target).setMachine
    (.idle ((state.setFd target).machine.core.cleanAction mapping action))

namespace FileState.InOrder

variable {mapping : Mapping} {property : SegmentStatus → Protection → Prop}
variable {state after : FileState F}

/-- The state right after the constructor. -/
theorem of_constructor {flags : CreationFlags}
    (holds : property ⟨false, false, !flags.noFirstRead⟩ Protection.none)
    (files : F → Nat → Byte) (fd : F) :
    InOrder mapping property (FileState.initial flags files fd) where
  idle := rfl
  pages := UmmapIo.InOrder.initial flags (files fd)
  vacant := AllVacant.of_constructor flags (files fd)
  segments := fun _ => holds

/-- Only the storage, the files, the number of transfers and the record have
changed. -/
theorem of_same
    (inOrder : state.InOrder mapping property)
    (mutex : after.machine.mutex = state.machine.mutex)
    (status : after.machine.core.status = state.machine.core.status)
    (pages : after.machine.core.pages = state.machine.core.pages)
    (memory : after.machine.core.memory = state.machine.core.memory) :
    after.InOrder mapping property := by
  refine ⟨?_, ?_, ?_, ?_⟩
  · have free := congrArg Machine.mutex inOrder.idle
    have same : after.machine = ⟨after.machine.core, after.machine.mutex⟩ := rfl
    rw [same, mutex, free]
    rfl
  · intro segmentId
    rw [status, pages]
    exact inOrder.pages segmentId
  · intro segmentId
    unfold Vacant
    rw [status, pages, memory]
    exact inOrder.vacant segmentId
  · intro segmentId
    rw [status, pages]
    exact inOrder.segments segmentId

variable [DecidableEq F] {driver : Driver} {clone : CloneAnswer F}
variable {entries : List MappingRegistryEntry} {thread attempts : Nat}

section

variable (inOrder : state.InOrder mapping property)
include inOrder

/-- A transfer between files. -/
theorem step {op : FileOp F} {result : (fileSignature F).Result op}
    (moves : op.MovesBytes)
    (answer : mapping.handleFiles driver clone thread op state =
      some (result, after)) :
    after.InOrder mapping property := by
  cases op with
  | mapping op =>
      cases op with
      | getStatus segmentId =>
          obtain ⟨_, rfl⟩ := answer_inj answer
          exact inOrder
      | preadBuffer buffer size offset =>
          obtain ⟨_, rfl⟩ := answer_inj answer
          exact inOrder.of_same rfl rfl rfl rfl
      | _ => exact moves.elim
  | pwrite file buffer size offset | pwriteMemory file start size offset =>
      obtain ⟨_, rfl⟩ := answer_inj answer
      unfold FileState.pwrite FileState.write
      dsimp only
      split <;> exact inOrder.of_same rfl rfl rfl rfl
  | getFd =>
      obtain ⟨_, rfl⟩ := answer_inj answer
      exact inOrder
  | ficloneRange file range =>
      unfold Mapping.handleFiles at answer
      dsimp only at answer
      split at answer
      · obtain ⟨_, rfl⟩ := answer_inj answer
        unfold FileState.write
        split <;> exact inOrder.of_same rfl rfl rfl rfl
      · obtain ⟨_, rfl⟩ := answer_inj answer
        exact inOrder
  | setFd file =>
      obtain ⟨_, rfl⟩ := answer_inj answer
      exact inOrder.of_same rfl rfl rfl rfl

/-- A program of the mapping that ends as predicted does so beside the other
files. -/
theorem ends_onMapping {α : Type} {program : MappingProgram α} {mayAbort : Prop}
    {value : α} {core : Core}
    (ends : program.Ends (mapping.handle driver thread) mayAbort
      (.idle state.machine.core) value (.idle core)) :
    (Files.onMapping program).Ends (mapping.handleFiles driver clone thread)
      mayAbort state value (state.setMachine (.idle core)) := by
  unfold Program.Ends
  rw [run_onMapping, inOrder.idle]
  obtain finished | ⟨allowed, message, final, aborted⟩ := ends
  · rw [finished]
    exact Or.inl rfl
  · rw [aborted]
    exact Or.inr ⟨allowed, message, _, rfl⟩

/-- A call of the mapping that returns. -/
theorem call {plain : Call} {value : Option Byte}
    (upkeep : Upkeep mapping driver property)
    (finished : (Files.onMapping (mapping.call attempts plain)).run
      (mapping.handleFiles driver clone thread) state = .finished value after) :
    after.InOrder mapping property := by
  obtain ⟨_, rfl⟩ := (inOrder.ends_onMapping
    (ends_call (Or.inr trivial) (Or.inr trivial) attempts)).determines finished
  exact ⟨rfl, UmmapIo.InOrder.upkeep.preserved.call inOrder.pages attempts thread plain,
    AllVacant.preserved.call inOrder.vacant attempts thread plain,
    upkeep.preserved.call inOrder.segments attempts thread plain⟩

theorem setFd (target : F) :
    (state.setFd target).InOrder mapping property :=
  inOrder.of_same rfl rfl rfl rfl

/-- `ummap_switch_fd` computes its effect if the action is one of the three that
there are. -/
theorem ends_ummapSwitchFd {addr : Nat}
    (registered : getMapping entries addr = some mapping)
    (target : F) (action : SwitchClean) :
    (ummapSwitchFd entries addr target action).Ends
      (mapping.handleFiles driver clone thread) (∃ value, action = .other value)
      state 0 (state.switched mapping target action) := by
  unfold ummapSwitchFd GlobalHandler.applySwitch
  rw [registered]
  refine Program.Ends.bind (.request rfl) (Program.Ends.bind (.done () _) ?_)
  exact ((inOrder.setFd target).ends_onMapping (ends_cleanAction action)).bind
    (.done 0 _)

theorem switched
    (upkeep : Upkeep mapping driver property)
    (target : F) (action : SwitchClean) :
    (state.switched mapping target action).InOrder mapping property := by
  have turned := inOrder.setFd target
  have pages : Upkeep mapping driver UmmapIo.InOrder := UmmapIo.InOrder.upkeep
  have vacant : Preserved mapping driver _ (AllVacant mapping) := AllVacant.preserved
  cases action with
  | noAction => exact ⟨rfl, turned.pages, turned.vacant, turned.segments⟩
  | other value => exact ⟨rfl, turned.pages, turned.vacant, turned.segments⟩
  | dropClean =>
      exact ⟨rfl, pages.preserved.dropClean turned.pages,
        vacant.dropClean turned.vacant, upkeep.preserved.dropClean turned.segments⟩
  | markCleanDirty =>
      exact ⟨rfl, pages.preserved.markCleanAsDirty turned.pages,
        vacant.markCleanAsDirty turned.vacant,
        upkeep.preserved.markCleanAsDirty turned.segments⟩

theorem switchCall {call : SwitchCall F} {value : Option Byte}
    (upkeep : Upkeep mapping driver property)
    (concerns : call.Concerns mapping entries)
    (finished : (mapping.switchCall entries attempts call).run
      (mapping.handleFiles driver clone thread) state = .finished value after) :
    after.InOrder mapping property := by
  cases call with
  | file call =>
      cases call with
      | call plain => exact inOrder.call upkeep finished
      | cow addr fd =>
          have performs : Program.Performs FileOp.MovesBytes
              (mapping.switchCall entries attempts (.file (.cow addr fd))) :=
            Program.Performs.bind (mapping.ummapCowFd_performs fd concerns)
              fun _ => trivial
          exact performs.invariant
            (fun _ moves _ _ _ answer before => before.step moves answer) inOrder
            finished
  | switch addr fd action =>
      unfold Mapping.switchCall at finished
      rw [Program.run_bind] at finished
      obtain ⟨_, middle, ran, last⟩ := Outcome.andThen_eq_finished.mp finished
      cases last
      obtain ⟨_, rfl⟩ :=
        (inOrder.ends_ummapSwitchFd concerns fd action).determines ran
      exact inOrder.switched upkeep fd action

/-- A sequence of calls that comes to its end. -/
theorem runSwitchCalls {calls : List (Nat × SwitchCall F)} {values : List (Option Byte)}
    (upkeep : Upkeep mapping driver property)
    (concern : ∀ pair ∈ calls, pair.2.Concerns mapping entries)
    (finished : mapping.runSwitchCalls entries driver clone attempts calls state =
      .finished values after) :
    after.InOrder mapping property := by
  induction calls generalizing state values with
  | nil =>
      cases finished
      exact inOrder
  | cons pair rest inductionHypothesis =>
      obtain ⟨thread, call⟩ := pair
      unfold Mapping.runSwitchCalls at finished
      obtain ⟨value, middle, first, more⟩ :=
        Outcome.andThen_eq_finished.mp finished
      obtain ⟨later, final, follows, last⟩ := Outcome.andThen_eq_finished.mp more
      cases last
      exact inductionHypothesis
        (inOrder.switchCall upkeep (concern _ List.mem_cons_self) first)
        (fun other member => concern other (List.mem_cons_of_mem _ member)) follows

end

end FileState.InOrder

end UmmapIo
