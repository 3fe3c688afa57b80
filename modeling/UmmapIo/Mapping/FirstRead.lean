import UmmapIo.Handler.Defs
import UmmapIo.Lib.Sequence
import UmmapIo.Mapping.History
import UmmapIo.Mapping.Shown

/-!
# Skipping the first read

`ummap_skip_first_read` clears the `needRead` bit of every segment, whatever happened
to the segment before.  A segment that is not mapped then shows zeroes, also if it was
accessed and withdrawn earlier.  A mapped clean segment keeps its bytes in memory
alone, and loses them when it is withdrawn before the next write-back.
-/

namespace UmmapIo

/-- One call of a client of a mapping whose first reads can be skipped. -/
inductive SkipCall : Type
  | call (call : Call)
  | skipFirstRead (ptr : Nat)
  deriving DecidableEq

/-- The program of a call. -/
def Mapping.skipCall (mapping : Mapping) (entries : List MappingRegistryEntry)
    (attempts : Nat) : SkipCall → MappingProgram (Option Byte)
  | .call call => mapping.call attempts call
  | .skipFirstRead ptr => do
      GlobalHandler.skipFirstRead entries ptr
      pure none

/-- Run calls of threads one after the other and collect their results. -/
def Mapping.runSkipCalls (mapping : Mapping) (entries : List MappingRegistryEntry)
    (driver : Driver) (attempts : Nat) :
    List (Nat × SkipCall) → Machine → Outcome Machine (List (Option Byte)) :=
  Outcome.runAll fun pair =>
    (mapping.skipCall entries attempts pair.2).run (mapping.handle driver pair.1)

/-- The checks that a call makes on its arguments before it does anything. -/
def SkipCall.Accepted (mapping : Mapping)
    (entries : List MappingRegistryEntry) : SkipCall → Prop
  | .call plain => plain.Accepted mapping
  | .skipFirstRead ptr => getMapping entries ptr = some mapping

/-- Effect of `Mapping::skipFirstRead`. -/
def Core.skipFirstRead (core : Core) (mapping : Mapping) : Core :=
  (List.range mapping.segments).foldl
    (fun current segmentId => current.setNeedRead segmentId false) core

/-- Result and effect of a call. -/
def Core.skipCall (mapping : Mapping) (driver : Driver)
    (attempts : Nat) : Nat × SkipCall → Core → Option Byte × Core
  | (thread, .call call), core => core.call mapping driver attempts thread call
  | (_, .skipFirstRead _), core => (none, core.skipFirstRead mapping)

/-- Results and effect of a sequence of calls. -/
def Core.skipCallAll (mapping : Mapping) (driver : Driver) (attempts : Nat)
    (calls : List (Nat × SkipCall))
    (core : Core) : List (Option Byte) × Core :=
  Outcome.effectAll (Core.skipCall mapping driver attempts) calls core

/-- The call makes the segment show zeroes whatever it showed before: the first read
of a segment that is not mapped is skipped, or a segment is withdrawn whose contents
are in memory alone. -/
def SkipCall.forgets (mapping : Mapping) (driver : Driver) (core : Core)
    (segmentId : Nat) : SkipCall → Bool
  | .call plain =>
      plain.withdraws mapping driver segmentId && core.exposed segmentId
  | .skipFirstRead _ => !(core.status segmentId).mapped

/-- Whenever one of the calls makes the segment of the offset show zeroes, zero was
shown at the offset before. -/
def Core.Retains (mapping : Mapping) (driver : Driver)
    (attempts offset : Nat) : List (Nat × SkipCall) → Core → Prop
  | [], _ => True
  | pair :: rest, core =>
      (pair.2.forgets mapping driver core (offset / mapping.segmentSize) = true →
        core.shows mapping offset = 0) ∧
      Core.Retains mapping driver attempts offset rest
        (core.skipCall mapping driver attempts pair).2

section FirstRead

variable {mapping : Mapping} {driver : Driver} {core : Core} {offset : Nat}
variable {entries : List MappingRegistryEntry} {attempts : Nat}

/-! ## The effect of a skip -/

theorem onlySegment_setNeedRead (mapping : Mapping) (current : Core) (segmentId : Nat) :
    OnlySegment mapping (fun _ => 0) segmentId current
      (current.setNeedRead segmentId false) :=
  OnlySegment.setStatus current segmentId _

theorem Core.skipFirstRead_trace :
    (core.skipFirstRead mapping).trace = core.trace := by
  unfold skipFirstRead
  induction List.range mapping.segments generalizing core with
  | nil => rfl
  | cons first rest inductionHypothesis => exact inductionHypothesis

/-- Only the mapped segments still show what they showed. -/
theorem Core.shows_skipFirstRead (inside : offset < mapping.size) :
    (core.skipFirstRead mapping).shows mapping offset =
      if (core.status (offset / mapping.segmentSize)).mapped then
        core.shows mapping offset
      else 0 := by
  obtain ⟨middle, before, after⟩ := Untouched.exists_foldl
    (onlySegment_setNeedRead mapping) List.nodup_range
    (List.mem_range.mpr (mapping.div_lt_segments inside)) core
  unfold shows skipFirstRead
  rw [after.status, after.memory offset rfl, after.storage offset inside rfl]
  simp only [setNeedRead_status, Function.update_self, before.status,
    setNeedRead_memory, before.memory offset rfl]
  split <;> rfl

theorem InOrder.skipFirstRead (pages : Segmentwise InOrder core) :
    Segmentwise InOrder (core.skipFirstRead mapping) := by
  refine Untouched.forall_foldl (onlySegment_setNeedRead mapping)
    (fun current segmentId => InOrder (current.status segmentId)
      (current.pages segmentId))
    (fun _ _ _ untouched own => by rwa [untouched.status, untouched.pages]) ?_ pages _
  intro current segmentId own
  rw [Core.setNeedRead_status, Function.update_self, Core.setNeedRead_pages]
  exact ⟨own.closed, own.readable, own.writable⟩

theorem AllVacant.skipFirstRead (vacant : AllVacant mapping core) :
    AllVacant mapping (core.skipFirstRead mapping) := by
  refine Untouched.forall_foldl (onlySegment_setNeedRead mapping) _
    (fun _ _ _ untouched own => own.of_untouched untouched) ?_ vacant _
  intro current segmentId own
  unfold Vacant
  rw [Core.setNeedRead_status, Function.update_self]
  exact own

theorem Steady.skipFirstRead (steady : Steady mapping core) :
    Steady mapping (core.skipFirstRead mapping) where
  pages := InOrder.skipFirstRead steady.pages
  vacant := steady.vacant.skipFirstRead
  synced := by
    refine Untouched.forall_foldl (onlySegment_setNeedRead mapping) _
      (fun _ _ _ untouched own => untouched.synced own) ?_ steady.synced _
    intro current segmentId _ _ _ stored
    rw [Core.setNeedRead_status, Function.update_self] at stored
    cases stored

/-- Earlier events do not matter. -/
theorem Steady.forget (steady : Steady mapping core) :
    Steady mapping core.forget :=
  ⟨steady.pages, steady.vacant, steady.synced⟩

theorem Steady.withHistory (steady : Steady mapping core) (earlier : List Event) :
    Steady mapping (core.withHistory earlier) :=
  ⟨steady.pages, steady.vacant, steady.synced⟩

/-! ## Calls -/

variable {pair : Nat × SkipCall}

/-- An accepted call computes its effect unless the driver reports an error. -/
theorem ends_skipCall {mayAbort : Prop} (errors : driver.NoError ∨ mayAbort)
    (accepted : pair.2.Accepted mapping entries)
    (core : Core) :
    (mapping.skipCall entries attempts pair.2).Ends (mapping.handle driver pair.1)
      mayAbort (.idle core) (core.skipCall mapping driver attempts pair).1
      (.idle (core.skipCall mapping driver attempts pair).2) := by
  obtain ⟨thread, call⟩ := pair
  cases call with
  | call call => exact ends_call errors (Or.inl accepted) attempts
  | skipFirstRead ptr =>
      have found : GlobalHandler.skipFirstRead entries ptr =
          mapping.skipFirstRead := by
        unfold GlobalHandler.skipFirstRead
        rw [show getMapping entries ptr = some mapping from accepted]
      change (GlobalHandler.skipFirstRead entries ptr >>= fun _ =>
        pure none).Ends _ _ _ _ _
      rw [found]
      exact (ends_eachSegment (fun current segmentId => .request rfl) _).bind
        (.done none _)

theorem InOrder.skipCall (pages : Segmentwise InOrder core) (pair : Nat × SkipCall) :
    Segmentwise InOrder (core.skipCall mapping driver attempts pair).2 := by
  obtain ⟨thread, call⟩ := pair
  cases call with
  | call call => exact InOrder.upkeep.preserved.call pages attempts thread call
  | skipFirstRead ptr => exact InOrder.skipFirstRead pages

theorem AllVacant.skipCall (vacant : AllVacant mapping core) (pair : Nat × SkipCall) :
    AllVacant mapping (core.skipCall mapping driver attempts pair).2 := by
  obtain ⟨thread, call⟩ := pair
  cases call with
  | call call => exact AllVacant.preserved.call vacant attempts thread call
  | skipFirstRead ptr => exact vacant.skipFirstRead

theorem Steady.skipCall (full : driver.Full) (steady : Steady mapping core)
    (pair : Nat × SkipCall) :
    Steady mapping (core.skipCall mapping driver attempts pair).2 := by
  obtain ⟨thread, call⟩ := pair
  cases call with
  | call call => exact (Steady.preserved full).call steady attempts thread call
  | skipFirstRead ptr => exact steady.skipFirstRead

/-- A call shows the last stores or, if it forgets a segment, zeroes. -/
theorem Steady.shows_skipCall {initial : Nat → Byte} (full : driver.Full)
    (steady : Steady mapping core) (inside : offset < mapping.size)
    (shown : core.shows mapping offset = expected initial core.trace offset)
    (pair : Nat × SkipCall) :
    (core.skipCall mapping driver attempts pair).2.shows mapping offset =
      if pair.2.forgets mapping driver core (offset / mapping.segmentSize) then 0
      else expected initial
        (core.skipCall mapping driver attempts pair).2.trace offset := by
  obtain ⟨thread, call⟩ := pair
  cases call with
  | call call => exact steady.shows_call full inside shown attempts thread call
  | skipFirstRead ptr =>
      refine (Core.shows_skipFirstRead inside).trans ?_
      unfold SkipCall.forgets Core.skipCall
      rw [Core.skipFirstRead_trace, ← shown]
      cases (core.status (offset / mapping.segmentSize)).mapped <;> rfl

/-- A call that forgets a segment stores nothing. -/
theorem record_of_forgets {segmentId : Nat}
    (forgets : pair.2.forgets mapping driver core segmentId = true)
    (initial : Nat → Byte) :
    expected initial (core.skipCall mapping driver attempts pair).2.trace =
      expected initial core.trace := by
  obtain ⟨thread, call⟩ := pair
  cases call with
  | call call =>
      have withdraws := (Bool.and_eq_true_iff.mp forgets).1
      exact record_of_withdraws initial withdraws attempts thread
  | skipFirstRead ptr => exact congrArg _ Core.skipFirstRead_trace

/-! ## Runs -/

/-- Throughout a run the last stores are shown exactly if no call makes the segment
forget a byte that is not zero. -/
theorem Steady.shows_throughout_iff {initial : Nat → Byte} (full : driver.Full)
    (inside : offset < mapping.size) (calls : List (Nat × SkipCall))
    (steady : Steady mapping core)
    (shown : core.shows mapping offset = expected initial core.trace offset) :
    (∀ part, part <+: calls →
      (core.skipCallAll mapping driver attempts part).2.shows mapping offset =
        expected initial
          (core.skipCallAll mapping driver attempts part).2.trace offset) ↔
      core.Retains mapping driver attempts offset calls := by
  induction calls generalizing core with
  | nil =>
      refine ⟨fun _ => trivial, fun _ part isPart => ?_⟩
      rw [List.prefix_nil.mp isPart]
      exact shown
  | cons pair rest inductionHypothesis =>
      have next : Steady mapping (core.skipCall mapping driver attempts pair).2 :=
        steady.skipCall full pair
      have step : (core.skipCall mapping driver attempts pair).2.shows mapping
          offset = if pair.2.forgets mapping driver core
            (offset / mapping.segmentSize) then 0
          else expected initial
            (core.skipCall mapping driver attempts pair).2.trace offset :=
        steady.shows_skipCall full inside shown pair
      constructor
      · intro always
        have shownNext := always [pair] ⟨rest, rfl⟩
        refine ⟨?_, (inductionHypothesis next shownNext).mp ?_⟩
        · intro forgets
          rw [shown, ← record_of_forgets forgets initial]
          refine shownNext.symm.trans ?_
          exact step.trans (if_pos forgets)
        · intro part isPart
          exact always (pair :: part) (List.cons_prefix_cons.mpr ⟨rfl, isPart⟩)
      · rintro ⟨zero, retains⟩ part isPart
        have shownNext : (core.skipCall mapping driver attempts pair).2.shows mapping
            offset = expected initial
              (core.skipCall mapping driver attempts pair).2.trace offset := by
          rw [step]
          split
          · rename_i forgets
            rw [record_of_forgets forgets initial, ← shown, zero forgets]
          · rfl
        cases part with
        | nil => exact shown
        | cons first part =>
            obtain ⟨rfl, inRest⟩ := List.cons_prefix_cons.mp isPart
            exact (inductionHypothesis next shownNext).mpr retains part inRest

variable {calls : List (Nat × SkipCall)}

/-- Without driver errors, accepted calls all finish. -/
theorem runSkipCalls_finishes (noError : driver.NoError)
    (accepted : ∀ pair ∈ calls, pair.2.Accepted mapping entries)
    (core : Core) :
    mapping.runSkipCalls entries driver attempts calls (.idle core) =
      .finished (core.skipCallAll mapping driver attempts calls).1
        (.idle (core.skipCallAll mapping driver attempts calls).2) :=
  Outcome.runAll_finishes Machine.idle
    (fun pair member start =>
      (ends_skipCall (Or.inl noError) (accepted pair member) start).finishes id) core

/-- A skip does the same whatever was recorded before. -/
theorem Core.skipFirstRead_withHistory (core : Core) (earlier : List Event) :
    (core.withHistory earlier).skipFirstRead mapping =
      (core.skipFirstRead mapping).withHistory earlier := by
  unfold skipFirstRead
  induction List.range mapping.segments generalizing core with
  | nil => rfl
  | cons first rest inductionHypothesis =>
      exact inductionHypothesis (core.setNeedRead first false)

theorem Core.skipCall_withHistory (noError : driver.NoError)
    (accepted : pair.2.Accepted mapping entries)
    (core : Core) (earlier : List Event) :
    (core.withHistory earlier).skipCall mapping driver attempts pair =
      ((core.skipCall mapping driver attempts pair).1,
        (core.skipCall mapping driver attempts pair).2.withHistory earlier) := by
  obtain ⟨thread, call⟩ := pair
  cases call with
  | call call => exact Core.call_withHistory noError accepted earlier
  | skipFirstRead ptr =>
      exact congrArg (Prod.mk none) (core.skipFirstRead_withHistory earlier)

/-- A sequence of calls does the same whatever was recorded before. -/
theorem Core.skipCallAll_withHistory (noError : driver.NoError)
    (accepted : ∀ pair ∈ calls, pair.2.Accepted mapping entries)
    (core : Core) (earlier : List Event) :
    (core.withHistory earlier).skipCallAll mapping driver attempts calls =
      ((core.skipCallAll mapping driver attempts calls).1,
        (core.skipCallAll mapping driver attempts calls).2.withHistory earlier) := by
  unfold skipCallAll
  refine Outcome.effectAll_carry (fun current : Core => current.withHistory earlier)
    ?_ core
  intro pair member start
  exact start.skipCall_withHistory noError (accepted pair member) earlier

theorem Core.retains_withHistory (noError : driver.NoError)
    (accepted : ∀ pair ∈ calls, pair.2.Accepted mapping entries)
    (core : Core) (earlier : List Event) :
    (core.withHistory earlier).Retains mapping driver attempts offset calls ↔
      core.Retains mapping driver attempts offset calls := by
  induction calls generalizing core with
  | nil => exact Iff.rfl
  | cons pair rest inductionHypothesis =>
      unfold Retains
      rw [core.skipCall_withHistory noError (accepted pair List.mem_cons_self),
        inductionHypothesis
          fun other member => accepted other (List.mem_cons_of_mem _ member)]
      obtain ⟨thread, call⟩ := pair
      cases call <;> exact Iff.rfl

/-- What every accepted call keeps holds in every state that calls lead to, over any
driver. -/
theorem runSkipCalls_invariant (property : Core → Prop) {values : List (Option Byte)}
    {state : Machine}
    (accepted : ∀ pair ∈ calls, pair.2.Accepted mapping entries)
    (kept : ∀ core pair, property core →
      property (core.skipCall mapping driver attempts pair).2)
    (holds : property core)
    (reached : mapping.runSkipCalls entries driver attempts calls (.idle core) =
      .finished values state) :
    state = .idle state.core ∧ property state.core := by
  refine Outcome.runAll_invariant
    (fun machine => machine = .idle machine.core ∧ property machine.core)
    ?_ ⟨rfl, holds⟩ reached
  rintro pair member first value second ⟨idle, before⟩ ran
  rw [idle] at ran
  obtain ⟨rfl, rfl⟩ := (ends_skipCall (Or.inr trivial) (accepted pair member)
    first.core).determines ran
  exact ⟨rfl, kept first.core pair before⟩

/-- A load returns what is shown and nothing else. -/
theorem Steady.returns_iff {value : Byte} (full : driver.Full)
    (steady : Steady mapping core)
    (loads : (Call.load offset).Accepted mapping)
    (inside : offset < mapping.size) (loader : Nat) :
    (Machine.idle core).Returns mapping driver (attempts + 2) loader offset value ↔
      core.shows mapping offset = value := by
  have accepts : ∀ pair ∈ [(loader, Call.load offset)],
      pair.2.Accepted mapping := List.forall_mem_singleton.mpr loads
  have shown : (Core.callAll mapping driver (attempts + 2)
      [(loader, .load offset)] core).1 = [some (core.shows mapping offset)] :=
    congrArg (fun value => [value])
      (steady.loadByte_value full inside loader attempts)
  unfold Machine.Returns
  rw [runCalls_finishes full.noError _ accepts, shown]
  constructor
  · rintro ⟨after, same⟩
    injection same with values
    injection values with head
    injection head
  · rintro rfl
    exact ⟨_, rfl⟩

/-- After a sequence of calls a load returns the last stores, recorded since, exactly
if they are shown. -/
theorem Steady.returns_after_iff {view : Nat → Byte} (full : driver.Full)
    (steady : Steady mapping core)
    (accepted : ∀ pair ∈ calls, pair.2.Accepted mapping entries)
    (loads : (Call.load offset).Accepted mapping)
    (inside : offset < mapping.size) (loader : Nat) :
    (∃ values final events,
      mapping.runSkipCalls entries driver (attempts + 2) calls (.idle core) =
        .finished values final ∧
      final.core.trace = events ++ core.trace ∧
      final.Returns mapping driver (attempts + 2) loader offset
        (expected view events offset)) ↔
      (core.forget.skipCallAll mapping driver (attempts + 2) calls).2.shows mapping
          offset =
        expected view (core.forget.skipCallAll mapping driver (attempts + 2)
          calls).2.trace offset := by
  have history : core.skipCallAll mapping driver (attempts + 2) calls =
      ((core.forget.skipCallAll mapping driver (attempts + 2) calls).1,
        (core.forget.skipCallAll mapping driver (attempts + 2)
          calls).2.withHistory core.trace) :=
    core.forget.skipCallAll_withHistory full.noError accepted core.trace
  have ran : mapping.runSkipCalls entries driver (attempts + 2) calls (.idle core) =
      .finished (core.skipCallAll mapping driver (attempts + 2) calls).1
        (.idle (core.skipCallAll mapping driver (attempts + 2) calls).2) :=
    runSkipCalls_finishes full.noError accepted core
  have after : Steady mapping
      (core.forget.skipCallAll mapping driver (attempts + 2) calls).2 :=
    Outcome.effectAll_invariant (Steady mapping)
      (fun pair _ holds => holds.skipCall full pair) calls steady.forget
  rw [history] at ran
  rw [ran]
  constructor
  · rintro ⟨values, final, events, same, recorded, loaded⟩
    cases same
    rw [← List.append_cancel_right recorded] at loaded
    exact ((after.withHistory core.trace).returns_iff full loads inside loader).mp
      loaded
  · intro shown
    exact ⟨_, _, _, rfl, rfl,
      ((after.withHistory core.trace).returns_iff full loads inside loader).mpr shown⟩

end FirstRead

/-- Over a full driver, in every state that calls lead to, skips of the first read
included: a load returns what the status bits tell.  Throughout any later run, loads of
an offset return the byte last stored since or, without a store, the byte shown in
that state, exactly if zero is shown there whenever the first read of its segment is
skipped while it is not mapped, and whenever it is withdrawn while its contents are in
memory alone. -/
theorem skip_first_read_keeps_view_iff (mapping : Mapping) (flags : CreationFlags)
    (driver : Driver) (full : driver.Full) (entries : List MappingRegistryEntry)
    (storage : Nat → Byte) (attempts : Nat) (before : List (Nat × SkipCall))
    (accepted : ∀ pair ∈ before, pair.2.Accepted mapping entries)
    (values : List (Option Byte)) (state : Machine)
    (reached : mapping.runSkipCalls entries driver (attempts + 2) before
      (.initial flags storage) = .finished values state)
    (later : List (Nat × SkipCall))
    (acceptedLater : ∀ pair ∈ later, pair.2.Accepted mapping entries)
    (loader offset : Nat)
    (loads : (Call.load offset).Accepted mapping)
    (inside : offset < mapping.size) :
    state.Returns mapping driver (attempts + 2) loader offset
      (state.core.shows mapping offset) ∧
    ((∀ part, part <+: later → ∃ values final events,
        mapping.runSkipCalls entries driver (attempts + 2) part state =
          .finished values final ∧
        final.core.trace = events ++ state.core.trace ∧
        final.Returns mapping driver (attempts + 2) loader offset
          (expected (state.core.shows mapping) events offset)) ↔
      state.core.Retains mapping driver (attempts + 2) offset later) := by
  obtain ⟨idle, steady⟩ := runSkipCalls_invariant (Steady mapping) accepted
    (fun _ pair holds => holds.skipCall full pair)
    (Steady.of_constructor flags storage) reached
  have shown : state.core.forget.shows mapping offset =
      expected (state.core.shows mapping) state.core.forget.trace offset := rfl
  have same : state.core.Retains mapping driver (attempts + 2) offset later ↔
      state.core.forget.Retains mapping driver (attempts + 2) offset later :=
    state.core.forget.retains_withHistory full.noError acceptedLater state.core.trace
  refine ⟨?_, ?_⟩
  · rw [idle]
    exact (steady.returns_iff full loads inside loader).mpr rfl
  · rw [same, ← steady.forget.shows_throughout_iff full inside later shown]
    refine forall_congr' fun part => imp_congr_right fun isPart => ?_
    have acceptedPart : ∀ pair ∈ part, pair.2.Accepted mapping entries :=
      fun pair member => acceptedLater pair (isPart.subset member)
    rw [idle]
    exact steady.returns_after_iff full acceptedPart loads inside loader

/-- A page of sevens is loaded, the first reads are skipped, and a store makes the page
dirty before it is evicted: nothing is lost. -/
theorem skip_first_read_keeps_view_iff_of_store :
    ∃ state,
      onePage.runSkipCalls [.ofMapping onePage] Driver.whole 2 [(0, .call (.load 3))]
          (.initial ⟨false, false⟩ fun _ => 7) =
        .finished [some 7] state ∧
      state.core.shows onePage 3 = 7 ∧
      ∀ part, part <+: [(0, SkipCall.skipFirstRead pageSize),
          (0, .call (.store 4 9)), (0, .call (.evict 0))] →
        ∃ values final events,
          onePage.runSkipCalls [.ofMapping onePage] Driver.whole 2 part state =
            .finished values final ∧
          final.core.trace = events ++ state.core.trace ∧
          final.Returns onePage Driver.whole 2 0 3
            (expected (state.core.shows onePage) events 3) := by
  obtain ⟨state, reached, shown, retains⟩ : ∃ state,
      onePage.runSkipCalls [.ofMapping onePage] Driver.whole 2 [(0, .call (.load 3))]
          (.initial ⟨false, false⟩ fun _ => 7) =
        .finished [some 7] state ∧
      state.core.shows onePage 3 = 7 ∧
      state.core.Retains onePage Driver.whole 2 3
        [(0, .skipFirstRead pageSize), (0, .call (.store 4 9)),
          (0, .call (.evict 0))] :=
    ⟨_, rfl, by decide, by decide, by decide, by decide, trivial⟩
  have loads : (Call.load 3).Accepted onePage := by
    decide
  have stores : (Call.store 4 9).Accepted onePage := by
    decide
  have evicts : (Call.evict 0).Accepted onePage := by
    decide
  have accepted : ∀ pair ∈ [(0, SkipCall.skipFirstRead pageSize),
      (0, .call (.store 4 9)), (0, .call (.evict 0))],
      pair.2.Accepted onePage [.ofMapping onePage] :=
    List.forall_mem_cons.mpr ⟨rfl, List.forall_mem_cons.mpr ⟨stores,
      List.forall_mem_singleton.mpr evicts⟩⟩
  exact ⟨state, reached, shown, (skip_first_read_keeps_view_iff
    onePage ⟨false, false⟩ Driver.whole Driver.whole_full
    [.ofMapping onePage] (fun _ => 7) 0
    [(0, .call (.load 3))] (List.forall_mem_singleton.mpr loads) [some 7] state
    reached _ accepted 0 3 loads (by decide)).2.mpr retains⟩

/-- A page of sevens is loaded, the first reads are skipped and the page is evicted:
the next load returns zero.  A byte that was stored and written back is lost in the
same way when the first reads are skipped afterwards. -/
theorem skip_first_read_loses_accessed_bytes :
    (∃ state,
      onePage.runSkipCalls [.ofMapping onePage] Driver.whole 2
          [(0, .call (.load 3)), (0, .skipFirstRead pageSize),
            (0, .call (.evict 0)), (0, .call (.load 3))]
          (.initial ⟨false, false⟩ fun _ => 7) =
        .finished [some 7, none, none, some 0] state) ∧
    ∃ state,
      onePage.runSkipCalls [.ofMapping onePage] Driver.whole 2
          [(0, .call (.store 3 9)), (0, .call (.evict 0)),
            (0, .skipFirstRead pageSize), (0, .call (.load 3))]
          (.initial ⟨false, false⟩ fun _ => 7) =
        .finished [none, none, none, some 0] state :=
  ⟨⟨_, rfl⟩, _, rfl⟩

end UmmapIo
