import UmmapIo.Mapping.Agreement
import UmmapIo.Mapping.Coherence
import UmmapIo.Mapping.Syncing

/-!
# A mapping behaves as a plain byte array

A client that makes its calls one after the other cannot tell a mapping from a
plain array of bytes on which only its stores have an effect.  Flushes,
evictions and the other maintenance operations move the contents around but are
never visible, in thread-safe mode as well as in thread-unsafe mode.  The `sync` of
the driver has to leave the mapping alone.
-/

namespace UmmapIo

/-- The specification: only stores change the array. -/
def plainCall (array : Nat → Byte) : Call → (Nat → Byte)
  | .store offset value => Function.update array offset value
  | _ => array

/-- The array after a sequence of calls. -/
def plainArray (array : Nat → Byte) (calls : List (Nat × Call)) : Nat → Byte :=
  calls.foldl (fun current pair => plainCall current pair.2) array

/-- The same mapping in thread-safe or thread-unsafe mode. -/
def Mapping.withMode (mapping : Mapping) (threadSafe : Bool) : Mapping :=
  { mapping with threadSafe := threadSafe }

/-- A call that is not a fault delivered by hand. -/
def Call.Ordinary (call : Call) : Prop :=
  ∀ address isWrite, call ≠ .fault address isWrite

section Transparency

variable {mapping : Mapping} {initial : Nat → Byte} {driver : Driver} {core : Core}

/-! ## What calls do to the expected contents -/

/-- A store that is attempted twice takes place. -/
theorem storeByte_record (agreement : Agreement core) (thread offset : Nat)
    (value : Byte) (attempts : Nat) :
    expected initial
        (core.storeByte mapping driver thread offset value (attempts + 2)).2.trace =
      Function.update (expected initial core.trace) offset value := by
  unfold Core.storeByte
  split
  · exact expected_store initial thread offset value core.trace
  · have opened : ((core.fault mapping driver (offset / mapping.segmentSize)
        true).pages (offset / mapping.segmentSize)).write = true :=
      (agreement (offset / mapping.segmentSize)).allows_fault true
    unfold Core.storeByte
    rw [if_pos opened, Core.store_trace, expected_store, fault_record]

/-- A load that is attempted twice returns what it should, when the fault that it
may raise opens the segment. -/
theorem loadByte_value {offset : Nat} (full : driver.Full)
    (opened : ((core.fault mapping driver (offset / mapping.segmentSize)
      false).pages (offset / mapping.segmentSize)).read = true)
    (coherent : AllCoherent mapping initial core)
    (inside : offset < mapping.size)
    (thread attempts : Nat) :
    (core.loadByte mapping driver thread offset (attempts + 2)).1 =
      some (expected initial core.trace offset) := by
  have readable (current : Core) (contents : AllCoherent mapping initial current)
      (opened : (current.pages (offset / mapping.segmentSize)).read = true) :
      current.memory offset = expected initial current.trace offset := by
    have own := contents (offset / mapping.segmentSize)
    refine own.memory (Or.inl ?_) offset inside rfl
    by_contra unmapped
    rw [Bool.not_eq_true] at unmapped
    rw [(own.closed unmapped).1] at opened
    cases opened
  unfold Core.loadByte
  split
  · rename_i readableNow
    rw [readable core coherent readableNow]
  · unfold Core.loadByte
    rw [if_pos opened,
      readable _ ((AllCoherent.preserved full).fault trivial coherent) opened,
      fault_record]

/-- An ordinary call changes the expected contents as it changes the plain
array. -/
theorem call_record {call : Call} (agreement : Agreement core) (attempts thread : Nat) :
    expected initial (core.call mapping driver (attempts + 2) thread call).2.trace =
      plainCall (expected initial core.trace) call := by
  cases call with
  | load offset => exact loadByte_record thread offset _
  | store offset value =>
      exact storeByte_record agreement thread offset value attempts
  | fault address isWrite => exact fault_record _ isWrite
  | flush offset size flags => exact flush_record offset size flags
  | evict segmentId => exact evict_record segmentId
  | dropClean =>
      exact foldl_record
        (fun current segmentId => OnlySegment.dropSegment current segmentId) _
  | markCleanAsDirty =>
      exact foldl_record
        (fun current segmentId => OnlySegment.markSegment current segmentId) _

/-- Without `UMMAP_FLUSH_SYNC` a call does the same to the plain array. -/
theorem plainCall_unsynced (array : Nat → Byte) (call : Call) :
    plainCall array call.unsynced = plainCall array call := by
  cases call <;> rfl

/-! ## Runs -/

/-- A run whose synchronisations leave the mapping alone finishes, and every load
returns the byte of the plain array. -/
theorem runCallsWith_loads {sync : Nat → Nat → MappingProgram Unit} (full : driver.Full)
    (agreement : Agreement core)
    (coherent : AllCoherent mapping initial core)
    (attempts : Nat) {calls : List (Nat × Call)}
    (accepted : ∀ pair ∈ calls, pair.2.Accepted mapping)
    (ordinary : ∀ pair ∈ calls, pair.2.Ordinary)
    (undisturbed : ∀ pair ∈ calls, pair.2.Undisturbed mapping driver sync) :
    ∃ values final,
      mapping.runCallsWith sync driver (attempts + 2) calls (.idle core) =
          .finished values final ∧
        ∀ index thread offset, calls[index]? = some (thread, .load offset) →
          offset < mapping.size →
            values[index]? = some (some (plainArray
              (expected initial core.trace) (calls.take index) offset)) := by
  induction calls generalizing core with
  | nil => exact ⟨[], _, rfl, fun _ _ _ absurdity => by cases absurdity⟩
  | cons pair rest inductionHypothesis =>
      obtain ⟨caller, call⟩ := pair
      obtain ⟨acceptsFirst, acceptsRest⟩ := List.forall_mem_cons.mp accepted
      obtain ⟨ordinaryFirst, ordinaryRest⟩ := List.forall_mem_cons.mp ordinary
      obtain ⟨first, others⟩ := List.forall_mem_cons.mp undisturbed
      obtain ⟨count, ran⟩ := callWith_finishes full.noError acceptsFirst first
        (attempts + 2) caller core
      have finishes := call_finishes full.noError acceptsFirst.unsynced
        (attempts + 2) caller core
      have fresh : ¬StaleReadFault mapping core call.unsynced := by
        intro stale
        cases call with
        | fault address isWrite => exact ordinaryFirst address isWrite rfl
        | _ => exact stale
      have agrees : Agreement ((core.call mapping driver (attempts + 2) caller
          call.unsynced).2.recount count) := agreement.call fresh finishes
      obtain ⟨values, final, runs, loads⟩ := inductionHypothesis agrees
        (((AllCoherent.preserved full).call coherent (attempts + 2) caller
          call.unsynced).recount count)
        acceptsRest ordinaryRest others
      refine ⟨(core.call mapping driver (attempts + 2) caller call.unsynced).1 ::
        values, final, ?_, ?_⟩
      · unfold Mapping.runCallsWith at runs ⊢
        unfold Outcome.runAll
        rw [ran, Outcome.andThen_finished, runs]
        rfl
      · intro index thread offset isLoad inside
        cases index with
        | zero =>
            rw [List.getElem?_cons_zero, Option.some.injEq,
              Prod.mk.injEq] at isLoad
            obtain ⟨rfl, rfl⟩ := isLoad
            exact congrArg some (loadByte_value full
              ((agreement (offset / mapping.segmentSize)).allows_fault false)
              coherent inside caller attempts)
        | succ index =>
            have later := loads index thread offset isLoad inside
            rw [Core.recount_trace, call_record agreement,
              plainCall_unsynced] at later
            exact later

/-- In both modes, with or without a first read, over a driver whose `sync` leaves the
mapping alone, every load below the size returns the byte of a plain array that starts
with the storage contents (or with zeroes) and that only stores change.  Hence the two
modes return the same. -/
theorem loads_match_plain_array (mapping : Mapping) (flags : CreationFlags)
    (driver : Driver) (full : driver.Full)
    (sync : Mapping → Nat → Nat → MappingProgram Unit)
    (storage : Nat → Byte) (attempts : Nat) (calls : List (Nat × Call))
    (accepted : ∀ pair ∈ calls, pair.2.Accepted mapping)
    (ordinary : ∀ pair ∈ calls, pair.2.Ordinary)
    (undisturbed : ∀ threadSafe, ∀ pair ∈ calls,
      pair.2.Undisturbed (mapping.withMode threadSafe) driver
        (sync (mapping.withMode threadSafe))) :
    ∃ values : Bool → List (Option Byte), ∀ threadSafe : Bool,
      (∃ final, (mapping.withMode threadSafe).runCallsWith
          (sync (mapping.withMode threadSafe)) driver (attempts + 2) calls
          (Machine.initial flags storage) =
        .finished (values threadSafe) final) ∧
      ∀ index thread offset, calls[index]? = some (thread, .load offset) →
        offset < mapping.size →
          (values threadSafe)[index]? =
            some (some (plainArray (mapping.initialView flags storage)
              (calls.take index) offset)) ∧
          (values threadSafe)[index]? = (values !threadSafe)[index]? := by
  have coherent (threadSafe : Bool) : AllCoherent (mapping.withMode threadSafe)
      (mapping.initialView flags storage) (Core.initial flags storage) :=
    AllCoherent.of_constructor flags storage
  have runs (threadSafe : Bool) :=
    runCallsWith_loads full (Agreement.initial flags storage)
      (coherent threadSafe) attempts accepted ordinary (undisturbed threadSafe)
  choose values final finishes loads using runs
  refine ⟨values, fun threadSafe => ⟨⟨_, finishes threadSafe⟩, ?_⟩⟩
  intro index thread offset isLoad inside
  have own := loads threadSafe index thread offset isLoad inside
  exact ⟨own, own.trans (loads (!threadSafe) index thread offset isLoad inside).symm⟩

/-- A store to the second page, its eviction, a synchronised flush and loads of both
pages, over a driver whose `sync` does nothing. -/
theorem loads_match_plain_array_after_evict :
    ∃ values : Bool → List (Option Byte), ∀ threadSafe : Bool,
      (∃ final, (twoPages.withMode threadSafe).runCallsWith
          (fun _ _ => pure ()) Driver.whole 2
          [(0, .store 5000 7), (0, .evict 1), (0, .load 5000),
            (0, .flush pageSize pageSize ⟨true, true, false⟩), (0, .load 5000),
            (0, .load 3)]
          (Machine.initial ⟨false, false⟩ fun _ => 1) =
        .finished (values threadSafe) final) ∧
      (values threadSafe)[4]? = some (some 7) ∧
      (values threadSafe)[5]? = some (some 1) := by
  obtain ⟨values, agree⟩ := loads_match_plain_array twoPages
    ⟨false, false⟩ Driver.whole Driver.whole_full (fun _ _ _ => pure ())
    (fun _ => 1) 0
    [(0, .store 5000 7), (0, .evict 1), (0, .load 5000),
      (0, .flush pageSize pageSize ⟨true, true, false⟩), (0, .load 5000),
      (0, .load 3)]
    (by decide) (by simp [Call.Ordinary])
    (fun _ pair _ => Call.undisturbed_of_pure _ _ pair.2)
  refine ⟨values, fun threadSafe => ⟨(agree threadSafe).1, ?_, ?_⟩⟩
  · exact ((agree threadSafe).2 4 0 5000 rfl (by decide)).1
  · exact ((agree threadSafe).2 5 0 3 rfl (by decide)).1

end Transparency

end UmmapIo
