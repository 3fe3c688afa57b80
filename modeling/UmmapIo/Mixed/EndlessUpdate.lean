import UmmapIo.Mixed.Redistribution
import UmmapIo.Mixed.Served

/-!
# Updates that never return

`FifoWindowPolicy::shrinkMemory` ignores the limit that an update gives to the
policy, and only looks at the limit of the sliding window.  Once the policy that
uses the most memory is a fifo-window policy whose sliding window is within its
limit, every round of the update chooses it again and changes nothing.
-/

namespace UmmapIo

namespace Setup

variable {M P Q : Type} [Fintype M] [DecidableEq M] [DecidableEq P] [DecidableEq Q]
variable {setup : Setup M P} {quota : Q}

variable {world : MixedWorld M P Q} {policy : P} {window : FifoWindowPolicy M Q}

/-- `shrinkMemory` of a fifo-window policy whose sliding window is within its
limit. -/
theorem run_shrinkMemory_window
    (isWindow : world.policy policy = .window window)
    (within : window.currentSlidingWindowMemory ≤ window.maxSlidingMemory) :
    (PolicyProgram.shrinkMemory policy).run setup.handleMixed world =
      .finished () world := by
  have kept : (PolicyObject.window window).shrinkMemory setup.mapping =
      .ok ([], .window window) :=
    PolicyObject.shrinkMemory_of_within (Nat.not_lt.mpr within)
  have same : world.setPolicy policy (.window window) = world := by
    rw [← isWindow]
    exact congrArg (fun policies => { world with policy := policies })
      (Function.update_eq_self policy world.policy)
  have answer : setup.handleMixed (.shrinkMemory policy) world =
      some (.ok [], world) := by
    change world.reply (((world.policy policy).shrinkMemory setup.mapping).map
      fun result => (result.1, world.setPolicy policy result.2)) = _
    rw [isWindow, kept]
    exact congrArg (fun state => some (Except.ok [], state)) same
  have shrinks : (Section.shrinkMemory policy).run setup.handleMixed world =
      .finished (.ok []) world := Program.run_request answer
  rw [PolicyProgram.shrinkMemory, Program.run_bind, shrinks]
  rfl

/-- The loop of an update goes on for ever when the policy it shrinks is a
fifo-window policy whose sliding window is within its limit. -/
theorem updateLoop_blocked {first : P × Nat} {rest : List (P × Nat)} {averageMem : Nat}
    (memories : world.memories quota = first :: rest)
    (above : (world.quota quota).staticMaxMemory <
      Quota.getUsedMemory (first :: rest))
    (largest : (Quota.polMax first (first :: rest)).1 = policy)
    (isWindow : world.policy policy = .window window)
    (within : window.currentSlidingWindowMemory ≤ window.maxSlidingMemory)
    (rounds : Nat) :
    ∃ final, (PolicyProgram.updateLoop quota averageMem rounds).run
        setup.handleMixed world = .blocked final ∧
      final.quota = world.quota ∧ final.memories quota = first :: rest := by
  induction rounds generalizing world window with
  | zero => exact ⟨world, rfl, rfl, memories⟩
  | succ rounds inductionHypothesis =>
      generalize limit : Quota.shrunkLimit averageMem
        (Quota.polMax first (first :: rest)).2 = lowered
      have limited : world.setPolicy policy
          ((world.policy policy).setDynamicMaxMemory lowered) =
            world.setPolicy policy (.window (window.setDynamicMaxMemory lowered)) := by
        rw [isWindow]
        rfl
      have self : (world.setPolicy policy
          (.window (window.setDynamicMaxMemory lowered))).policy policy =
            .window (window.setDynamicMaxMemory lowered) :=
        Function.update_self ..
      have same : MixedWorld.memories (world.setPolicy policy
          (.window (window.setDynamicMaxMemory lowered))) quota =
            first :: rest := by
        rw [← memories]
        unfold MixedWorld.memories
        refine List.map_congr_left fun other _ => ?_
        by_cases chosen : other = policy
        · rw [chosen, self, isWindow]
          rfl
        · rw [World.setPolicy_policy, Function.update_of_ne chosen]
      obtain ⟨final, blocked, unchanged⟩ :=
        inductionHypothesis same above self within
      refine ⟨final, ?_, unchanged⟩
      have registered : (Section.registered quota).run setup.handleMixed world =
          .finished ((world.quota quota).staticMaxMemory, first :: rest) world := by
        rw [← memories]
        exact Program.run_request rfl
      have sets : (Section.setDynamicMaxMemory policy lowered).run
          setup.handleMixed world = .finished () (world.setPolicy policy
            (.window (window.setDynamicMaxMemory lowered))) := by
        rw [← limited]
        exact Program.run_request rfl
      rw [PolicyProgram.updateLoop, Program.run_bind, registered,
        Outcome.andThen_finished]
      dsimp only
      rw [if_pos above, limit, largest, Program.run_bind, sets,
        Outcome.andThen_finished, Program.run_bind,
        run_shrinkMemory_window self within, Outcome.andThen_finished]
      exact blocked

end Setup

end UmmapIo
