import UmmapIo.Mapping.Coherence

/-!
# Earlier events have no effect

The machine adds to its record and never looks at it.  A call therefore does the same
whatever was recorded before, and the events that it adds can be told apart from the
earlier ones.
-/

namespace UmmapIo

/-- The same contents with more events recorded before. -/
@[simps] def Core.withHistory (core : Core) (earlier : List Event) : Core :=
  { core with trace := core.trace ++ earlier }

/-- The same machine with more events recorded before. -/
def Machine.withHistory (machine : Machine) (earlier : List Event) : Machine :=
  { machine with core := machine.core.withHistory earlier }

/-- The same contents with nothing recorded. -/
@[simps] def Core.forget (core : Core) : Core :=
  { core with trace := [] }

theorem Core.forget_withHistory (core : Core) :
    core.forget.withHistory core.trace = core := rfl

section History

variable {mapping : Mapping} {driver : Driver} {thread attempts : Nat} {core : Core}

theorem Mapping.handle_withHistory (mapping : Mapping) (driver : Driver) (thread : Nat)
    (earlier : List Event) (op : MappingOp) (machine : Machine) :
    mapping.handle driver thread op (machine.withHistory earlier) =
      (mapping.handle driver thread op machine).map
        fun pair => (pair.1, pair.2.withHistory earlier) := by
  cases op with
  | lock mutexId =>
      have same : (machine.withHistory earlier).mutex mutexId =
          machine.mutex mutexId := rfl
      unfold handle
      dsimp only
      rw [same]
      cases machine.mutex mutexId <;> rfl
  | load offset =>
      unfold handle
      dsimp only
      change (if (machine.core.pages (offset / mapping.segmentSize)).read then _
        else _) = _
      split <;> rfl
  | store offset value =>
      unfold handle
      dsimp only
      change (if (machine.core.pages (offset / mapping.segmentSize)).write then _
        else _) = _
      split <;> rfl
  | _ => rfl

theorem Core.call_withHistory {call : Call} (noError : driver.NoError)
    (accepted : call.Accepted mapping) (earlier : List Event) :
    (core.withHistory earlier).call mapping driver attempts thread call =
      ((core.call mapping driver attempts thread call).1,
        (core.call mapping driver attempts thread call).2.withHistory earlier) := by
  have embedded := Program.run_embed
    (mapping.handle_withHistory driver thread earlier) (mapping.call attempts call)
    (Machine.idle core)
  have whole := call_finishes noError accepted attempts thread
    (core.withHistory earlier)
  have part := call_finishes noError accepted attempts thread core
  rw [part] at embedded
  have same := Outcome.finished.inj (whole.symm.trans embedded)
  exact Prod.ext same.1 (congrArg Machine.core same.2)

/-- A sequence of calls does the same whatever was recorded before. -/
theorem Core.callAll_withHistory {calls : List (Nat × Call)} (noError : driver.NoError)
    (accepted : ∀ pair ∈ calls, pair.2.Accepted mapping)
    (core : Core) (earlier : List Event) :
    Core.callAll mapping driver attempts calls (core.withHistory earlier) =
      ((Core.callAll mapping driver attempts calls core).1,
        (Core.callAll mapping driver attempts calls core).2.withHistory earlier) := by
  induction calls generalizing core with
  | nil => rfl
  | cons pair rest inductionHypothesis =>
      obtain ⟨thread, call⟩ := pair
      unfold Core.callAll
      rw [Core.call_withHistory noError (accepted _ List.mem_cons_self)]
      dsimp only
      rw [inductionHypothesis
        fun other member => accepted other (List.mem_cons_of_mem _ member)]

end History

end UmmapIo
