import UmmapIo.Lib.Simulation
import UmmapIo.Mapping.Durability
import UmmapIo.Mapping.FirstRead
import UmmapIo.Mapping.Transparency

/-!
# Flushes over a `CDriver`

`CDriver::sync` does not call the `sync` callback of the client.  It calls the `pread`
callback with the offset for the size and the size for the offset, and with the base
address of the mapping for the buffer.  A flush of an inner range with
`UMMAP_FLUSH_SYNC` therefore overwrites the beginning of the mapping with bytes of the
storage, by stores that are like those of the application.
-/

namespace UmmapIo

namespace CDriver

variable (mapping : Mapping) (attempts : Nat)

/-- Copy a buffer into the mapped range, one byte after the other. -/
def storeBytes (buffer : Nat → Byte) : List Nat → MappingProgram Unit :=
  Program.each fun position => do
    let _ ← mapping.storeByte position (buffer position) attempts
    pure ()

/-- `CDriver::sync`: `c_driver.pread(driver_data, ptr, offset, size)`.  The callback
copies what it has read to the base address of the mapping. -/
def sync (offset size : Nat) : MappingProgram Unit := do
  let (res, buffer) ← Sys.preadBuffer (fun _ => 0) offset size
  storeBytes mapping attempts buffer (List.range (Core.transferred res offset))

/-- `Mapping::flush` over a `CDriver`. -/
def flush (offset size : Nat) (flags : FlushFlags) : MappingProgram Unit :=
  mapping.flushWith (sync mapping attempts) offset size flags

/-- The program of a call over a `CDriver`. -/
def call
    (entries : List MappingRegistryEntry) : SkipCall → MappingProgram (Option Byte)
  | .call plain => mapping.callWith (sync mapping attempts) attempts plain
  | other => mapping.skipCall entries attempts other

/-- Run calls of threads one after the other and collect their results. -/
def runCalls (entries : List MappingRegistryEntry) (driver : Driver) :
    List (Nat × SkipCall) → Machine → Outcome Machine (List (Option Byte)) :=
  Outcome.runAll fun pair =>
    (call mapping attempts entries pair.2).run (mapping.handle driver pair.1)

end CDriver

/-! ## Effects -/

namespace Core

variable (core : Core) (mapping : Mapping) (driver : Driver)
variable (thread attempts offset size : Nat)

/-- Effect of copying a buffer into the mapped range. -/
def storeBytes (buffer : Nat → Byte) (positions : List Nat) : Core :=
  positions.foldl (fun current position =>
    (current.storeByte mapping driver thread position (buffer position)
      attempts).2) core

/-- Effect of `CDriver::sync`. -/
def cSync : Core :=
  core.countCall.storeBytes mapping driver thread attempts
    (core.preadBuffer driver (fun _ => 0) offset size)
    (List.range (transferred (driver.preadResult core.calls offset size) offset))

/-- Effect of `Mapping::flush` over a `CDriver`. -/
def cFlush (flags : FlushFlags) : Core :=
  let flushed := core.flush mapping driver offset size { flags with sync := false }
  if flags.sync && !driver.directMSync then
    flushed.cSync mapping driver thread attempts offset size
  else flushed

end Core

/-- Effect of a call over a `CDriver`. -/
def Core.cCall (mapping : Mapping) (driver : Driver) (attempts : Nat)
    (core : Core) : Nat × SkipCall → Core
  | (thread, .call (.flush offset size flags)) =>
      core.cFlush mapping driver thread attempts offset size flags
  | pair => (core.skipCall mapping driver attempts pair).2

section CDriver

variable {mapping : Mapping} {driver : Driver} {core : Core}
variable {mutex : Nat → Option Nat} {thread attempts : Nat}

/-! ## Programs -/

/-- A fault that is handled to its end computes its effect, whatever mutexes are
held. -/
theorem leads_onSegmentationFault {address segmentId : Nat}
    (position :
      (address - mapping.baseAddress) / mapping.segmentSize = segmentId)
    (isWrite : Bool) :
    (mapping.onSegmentationFault address isWrite).Leads
      (mapping.handle driver thread) ⟨core, mutex⟩ ()
      ⟨core.fault mapping driver segmentId isWrite, mutex⟩ := by
  unfold Mapping.onSegmentationFault Mapping.checkFault
  rw [position]
  refine Program.Leads.assume fun _ => Program.Leads.assume fun _ =>
    Program.Leads.assume fun _ => ?_
  cases free : mutex (mapping.mutexId segmentId) with
  | none =>
      have ends : (mapping.faultSection segmentId isWrite).Ends
          (mapping.handle driver thread) True ⟨core, mutex⟩ ()
          ⟨core.fault mapping driver segmentId isWrite, mutex⟩ :=
        ends_faultSection_of_free (Or.inr (Or.inr trivial)) free isWrite
      exact ends.leads
  | some owner =>
      refine Program.Leads.of_blocked ?_
      simp only [Mapping.handle, free]

theorem leads_storeByte (position : Nat) (value : Byte) :
    (mapping.storeByte position value attempts).Leads
      (mapping.handle driver thread) ⟨core, mutex⟩
      (core.storeByte mapping driver thread position value attempts).1
      ⟨(core.storeByte mapping driver thread position value attempts).2,
        mutex⟩ := by
  induction attempts generalizing core with
  | zero => exact .done _ _
  | succ attempts inductionHypothesis =>
      unfold Mapping.storeByte Core.storeByte
      cases opened : (core.pages (position / mapping.segmentSize)).write with
      | true =>
          have answers : (Sys.store position value).Leads
              (mapping.handle driver thread) ⟨core, mutex⟩ true
              ⟨core.store thread position value, mutex⟩ := by
            refine .request ?_
            simp [Mapping.handle, opened]
          exact answers.bind (.done _ _)
      | false =>
          have faults : (Sys.store position value).Leads
              (mapping.handle driver thread) ⟨core, mutex⟩ false
              ⟨core, mutex⟩ := by
            refine .request ?_
            simp [Mapping.handle, opened]
          refine faults.bind (.bind (leads_onSegmentationFault ?_ true)
            inductionHypothesis)
          rw [Nat.add_sub_cancel_left]

/-! ## Segments that can be written -/

variable {position : Nat}

theorem Core.storeByte_of_writable
    (writable : (core.pages (position / mapping.segmentSize)).write = true)
    (value : Byte) :
    core.storeByte mapping driver thread position value (attempts + 1) =
      (true, core.store thread position value) :=
  if_pos writable

theorem ends_storeByte_of_writable {mayAbort : Prop}
    (writable : (core.pages (position / mapping.segmentSize)).write = true)
    (value : Byte) :
    (mapping.storeByte position value (attempts + 1)).Ends
      (mapping.handle driver thread) mayAbort ⟨core, mutex⟩ true
      ⟨core.store thread position value, mutex⟩ := by
  have answers : (Sys.store position value).Ends
      (mapping.handle driver thread) mayAbort ⟨core, mutex⟩ true
      ⟨core.store thread position value, mutex⟩ := by
    refine .request ?_
    simp [Mapping.handle, writable]
  exact answers.bind (.done _ _)

theorem Core.storeBytes_cons {first : Nat}
    (writable : (core.pages (first / mapping.segmentSize)).write = true)
    (buffer : Nat → Byte) (rest : List Nat) :
    core.storeBytes mapping driver thread (attempts + 1) buffer (first :: rest) =
      (core.store thread first (buffer first)).storeBytes mapping driver thread
        (attempts + 1) buffer rest := by
  unfold storeBytes
  rw [List.foldl_cons, storeByte_of_writable writable]

theorem Core.storeBytes_status {positions : List Nat}
    (writable : ∀ position ∈ positions,
      (core.pages (position / mapping.segmentSize)).write = true)
    (buffer : Nat → Byte) :
    (core.storeBytes mapping driver thread (attempts + 1) buffer
      positions).status = core.status := by
  induction positions generalizing core with
  | nil => rfl
  | cons first rest inductionHypothesis =>
      obtain ⟨head, tail⟩ := List.forall_mem_cons.mp writable
      rw [storeBytes_cons head, inductionHypothesis]
      · rfl
      · exact tail

/-- With page protections that agree with the status bits, a store goes through, after
a fault if need be. -/
theorem Agreement.storeByte_eq (agreement : Agreement core)
    (thread attempts position : Nat) (value : Byte) :
    ∃ opened : Core,
      (opened = core ∨
        opened = core.fault mapping driver (position / mapping.segmentSize) true) ∧
      (opened.pages (position / mapping.segmentSize)).write = true ∧
      core.storeByte mapping driver thread position value (attempts + 2) =
        (true, opened.store thread position value) := by
  cases writable : (core.pages (position / mapping.segmentSize)).write with
  | true => exact ⟨core, Or.inl rfl, writable, Core.storeByte_of_writable writable value⟩
  | false =>
      have opened : ((core.fault mapping driver (position / mapping.segmentSize)
          true).pages (position / mapping.segmentSize)).write = true :=
        (agreement (position / mapping.segmentSize)).allows_fault true
      refine ⟨_, Or.inr rfl, opened, ?_⟩
      rw [← Core.storeByte_of_writable opened]
      conv_lhs => unfold Core.storeByte
      rw [writable]
      rfl

variable {offset : Nat}

section

variable (full : driver.Full) (steady : Steady mapping core)
variable (agreement : Agreement core)
include full steady agreement

theorem Steady.shows_storeByte_of_agreement (inside : offset < mapping.size)
    (value : Byte) :
    (core.storeByte mapping driver thread position value (attempts + 2)).2.shows
        mapping offset =
      Function.update (core.shows mapping) position value offset := by
  obtain ⟨opened, cause, writable, stored⟩ :=
    agreement.storeByte_eq thread attempts position value
  rw [stored]
  cases cause with
  | inl same =>
      subst same
      exact steady.shows_store writable thread value
  | inr faulted =>
      subst faulted
      refine (((preserved full).fault trivial steady).shows_store writable thread
        value).trans ?_
      simp only [Function.update_apply, Core.shows_fault full steady.vacant inside]

/-- Bytes that are copied into the mapped range are shown afterwards. -/
theorem Steady.shows_storeBytes (inside : offset < mapping.size) (buffer : Nat → Byte)
    (positions : List Nat) :
    (core.storeBytes mapping driver thread (attempts + 2) buffer positions).shows
        mapping offset =
      if offset ∈ positions then buffer offset else core.shows mapping offset := by
  induction positions generalizing core with
  | nil => rfl
  | cons first rest inductionHypothesis =>
      have steadyNext : Steady mapping (core.storeByte mapping driver thread first
          (buffer first) (attempts + 2)).2 :=
        (preserved full).storeByte steady (fun _ _ => trivial) thread _
      have agreementNext : Agreement (core.storeByte mapping driver thread first
          (buffer first) (attempts + 2)).2 :=
        Agreement.preserved.storeByte agreement
          (Agreement.allows (by rintro _ _ ⟨⟩)) thread _
      refine (inductionHypothesis steadyNext agreementNext).trans ?_
      rw [steady.shows_storeByte_of_agreement full agreement inside]
      by_cases later : offset ∈ rest
      · rw [if_pos later, if_pos (List.mem_cons_of_mem _ later)]
      · rw [if_neg later]
        by_cases same : offset = first
        · subst same
          rw [Function.update_self, if_pos List.mem_cons_self]
        · rw [Function.update_of_ne same, if_neg]
          simp [same, later]

/-! ## Synchronisations -/

/-- Before its offset a synchronisation shows the storage behind its size. -/
theorem Steady.shows_cSync {size : Nat} (inside : position < mapping.size)
    (before : position < offset) :
    (core.cSync mapping driver thread (attempts + 2) offset size).shows mapping
        position = core.storage (size + position) := by
  have moved (call : Nat) :
      Core.transferred (driver.preadResult call offset size) offset = offset := by
    rw [(full _ _ _).1, Core.transferred_self]
  have counted : Steady mapping core.countCall :=
    ⟨steady.pages, steady.vacant, steady.synced⟩
  unfold Core.cSync
  rw [counted.shows_storeBytes full agreement inside, moved,
    if_pos (List.mem_range.mpr before)]
  unfold Core.preadBuffer
  rw [moved, blit_inside _ _ (Nat.zero_le _) (by omega), Nat.sub_zero]

end

/-- A synchronisation that returns computes its effect, whatever mutexes are held. -/
theorem leads_cSync (offset size : Nat) :
    (CDriver.sync mapping attempts offset size).Leads
      (mapping.handle driver thread) ⟨core, mutex⟩ ()
      ⟨core.cSync mapping driver thread attempts offset size, mutex⟩ := by
  have copies (buffer : Nat → Byte) (positions : List Nat) (current : Core) :
      (CDriver.storeBytes mapping attempts buffer positions).Leads
        (mapping.handle driver thread) ⟨current, mutex⟩ ()
        ⟨current.storeBytes mapping driver thread attempts buffer positions,
          mutex⟩ := by
    induction positions generalizing current with
    | nil => exact .done () _
    | cons first rest inductionHypothesis =>
        exact Program.Leads.bind
          ((leads_storeByte first (buffer first)).bind (.done () _))
          (inductionHypothesis _)
  exact Program.Leads.bind (.request rfl) (copies _ _ _)

/-- A synchronisation that only overwrites segments that can be written computes its
effect, whatever mutexes are held. -/
theorem ends_cSync_of_writable {mayAbort : Prop}
    (writable : ∀ position, position < offset →
      (core.pages (position / mapping.segmentSize)).write = true)
    (size : Nat) :
    (CDriver.sync mapping (attempts + 1) offset size).Ends
      (mapping.handle driver thread) mayAbort ⟨core, mutex⟩ ()
      ⟨core.cSync mapping driver thread (attempts + 1) offset size, mutex⟩ := by
  have copies (buffer : Nat → Byte) (positions : List Nat) (current : Core)
      (opened : ∀ position ∈ positions,
        (current.pages (position / mapping.segmentSize)).write = true) :
      (CDriver.storeBytes mapping (attempts + 1) buffer positions).Ends
        (mapping.handle driver thread) mayAbort ⟨current, mutex⟩ ()
        ⟨current.storeBytes mapping driver thread (attempts + 1) buffer positions,
          mutex⟩ := by
    induction positions generalizing current with
    | nil => exact .done () _
    | cons first rest inductionHypothesis =>
        obtain ⟨head, tail⟩ := List.forall_mem_cons.mp opened
        refine Program.Ends.bind
          ((ends_storeByte_of_writable head (buffer first)).bind (.done () _)) ?_
        rw [Core.storeBytes_cons head]
        exact inductionHypothesis _ tail
  refine Program.Ends.bind (.request rfl) (copies _ _ _ ?_)
  intro position member
  exact writable position
    (Nat.lt_of_lt_of_le (List.mem_range.mp member) (Nat.min_le_right _ _))

/-! ## Flushes -/

/-- A flush that returns computes its effect. -/
theorem leads_cFlush (offset size : Nat) (flags : FlushFlags) :
    (CDriver.flush mapping attempts offset size flags).Leads
      (mapping.handle driver thread) (.idle core) ()
      (.idle (core.cFlush mapping driver thread attempts offset size flags)) := by
  have locks : (Program.each Sys.lock (mapping.flushMutexes offset size flags)).Ends
      (mapping.handle driver thread) True (.idle core) () ⟨core, fun mutexId =>
        if mutexId ∈ mapping.flushMutexes offset size flags then some thread
        else none⟩ :=
    ends_lockEach (mapping.nodup_flushMutexes offset size flags) fun _ _ => rfl
  have loops (mutex : Nat → Option Nat) : (Program.each
      (mapping.flushSegment flags.unmap) (mapping.flushSegments offset size)).Ends
      (mapping.handle driver thread) True ⟨core, mutex⟩ ()
      ⟨core.flushLoop mapping driver offset size flags.unmap, mutex⟩ :=
    ends_eachSegment
      (fun _ segmentId => ends_flushSegment (Or.inr trivial) flags.unmap segmentId)
      (mapping.flushSegments offset size)
  have unlocks (current : Core) : (Program.each Sys.unlock
      (mapping.flushMutexes offset size flags)).Ends
      (mapping.handle driver thread) True ⟨current, fun mutexId =>
        if mutexId ∈ mapping.flushMutexes offset size flags then some thread
        else none⟩ () (.idle current) :=
    ends_unlockAll fun _ _ => rfl
  unfold CDriver.flush
  rw [mapping.flushWith_eq]
  refine Program.Leads.assume fun _ => Program.Leads.assume fun _ =>
    Program.Leads.assume fun _ => Program.Leads.assume fun _ => ?_
  refine Program.Leads.bind (.request rfl) ?_
  unfold Core.cFlush Core.flush
  cases driver.directMSync with
  | true =>
      rw [Bool.not_true, Bool.and_false]
      exact .done () _
  | false =>
      refine Program.Leads.bind locks.leads (.bind (loops _).leads ?_)
      cases flags.sync with
      | true => exact Program.Leads.bind (leads_cSync offset size) (unlocks _).leads
      | false => exact (unlocks _).leads

/-- A flush behind segments that can be written computes its effect. -/
theorem ends_cFlush_of_writable {size : Nat} {flags : FlushFlags}
    (noError : driver.NoError)
    (accepted : (Call.flush offset size flags).Accepted mapping)
    (writable : ∀ position, position < offset →
      ((core.flushLoop mapping driver offset size flags.unmap).pages
        (position / mapping.segmentSize)).write = true) :
    (CDriver.flush mapping (attempts + 1) offset size flags).Ends
      (mapping.handle driver thread) False (.idle core) ()
      (.idle (core.cFlush mapping driver thread (attempts + 1) offset size flags)) := by
  exact ends_flushWith_of_sync (Or.inl noError) _ (Or.inl accepted)
    fun direct _ _ => by
      unfold Core.flush
      rw [direct]
      exact ends_cSync_of_writable writable size

/-! ## Segments behind the offset -/

variable {initial : Nat → Byte} {segmentId : Nat}

theorem Untouched.forget {before after : Core}
    (untouched : Untouched mapping initial segmentId before after) :
    Untouched mapping initial segmentId before.forget after.forget :=
  ⟨untouched.status, untouched.pages, untouched.memory, untouched.storage, rfl⟩

/-- Apart from the record, a store does not concern other segments. -/
theorem Untouched.storeByte
    (apart : segmentId ≠ position / mapping.segmentSize)
    (value : Byte) (core : Core) :
    Untouched mapping initial segmentId core.forget
      (core.storeByte mapping driver thread position value attempts).2.forget := by
  induction attempts generalizing core with
  | zero => exact .refl core.forget
  | succ attempts inductionHypothesis =>
      unfold Core.storeByte
      split
      · refine ⟨rfl, rfl, ?_, fun _ _ _ => rfl, rfl⟩
        intro offset inSegment
        refine Function.update_of_ne ?_ value core.memory
        rintro rfl
        exact apart inSegment.symm
      · have faults : OnlySegment mapping initial (position / mapping.segmentSize)
            core (core.fault mapping driver (position / mapping.segmentSize) true) :=
          OnlySegment.fault core _ true
        exact (faults.untouched apart).forget.trans (inductionHypothesis _)

/-- Apart from the record, a synchronisation does not concern the segments behind its
offset. -/
theorem Untouched.cSync
    (behind : offset ≤ mapping.segmentSize * segmentId)
    (size : Nat) (core : Core) :
    Untouched mapping initial segmentId core.forget
      (core.cSync mapping driver thread attempts offset size).forget := by
  have copies (buffer : Nat → Byte) (positions : List Nat)
      (below : ∀ position ∈ positions, position < offset) (current : Core) :
      Untouched mapping initial segmentId current.forget
        (current.storeBytes mapping driver thread attempts buffer
          positions).forget := by
    induction positions generalizing current with
    | nil => exact .refl current.forget
    | cons first rest inductionHypothesis =>
        obtain ⟨head, tail⟩ := List.forall_mem_cons.mp below
        have apart : segmentId ≠ first / mapping.segmentSize :=
          Nat.ne_of_gt (Nat.div_lt_of_lt_mul (Nat.lt_of_lt_of_le head behind))
        exact (Untouched.storeByte apart (buffer first) current).trans
          (inductionHypothesis tail _)
  have counted : Untouched mapping initial segmentId core.forget
      core.countCall.forget :=
    ⟨rfl, rfl, fun _ _ => rfl, fun _ _ _ => rfl, rfl⟩
  refine counted.trans (copies _ _ ?_ core.countCall)
  intro position member
  exact Nat.lt_of_lt_of_le (List.mem_range.mp member) (Nat.min_le_right _ _)

/-! ## Runs -/

/-- What the operations of a mapping and transfers keep, flushes over a `CDriver`
keep. -/
theorem Preserved.cFlush {allowed : Core → Nat → Bool → Prop} {property : Core → Prop}
    (preserved : Preserved mapping driver allowed property)
    (allows : ∀ position value,
      (Call.store position value).Allows mapping allowed property)
    (counts : ∀ current, property current → property current.countCall)
    (holds : property core)
    (offset size : Nat)
    (flags : FlushFlags) :
    property (core.cFlush mapping driver thread attempts offset size flags) := by
  have flushed := preserved.flush holds offset size { flags with sync := false }
  unfold Core.cFlush
  split
  · exact List.foldlRecOn _ _ (counts _ flushed) fun _ before _ _ =>
      preserved.storeByte before (allows _ _) thread attempts
  · exact flushed

theorem Steady.cFlush (full : driver.Full) (steady : Steady mapping core)
    (offset size : Nat) (flags : FlushFlags) :
    Steady mapping (core.cFlush mapping driver thread attempts offset size flags) :=
  (preserved full).cFlush (fun _ _ _ _ => trivial)
    (fun _ before => ⟨before.pages, before.vacant, before.synced⟩) steady offset size
    flags

theorem Steady.cCall (full : driver.Full) (steady : Steady mapping core)
    (pair : Nat × SkipCall) :
    Steady mapping (core.cCall mapping driver attempts pair) := by
  have others : Steady mapping (core.skipCall mapping driver attempts pair).2 :=
    steady.skipCall full pair
  obtain ⟨thread, call⟩ := pair
  cases call with
  | call plain =>
      cases plain with
      | flush offset size flags => exact steady.cFlush full offset size flags
      | _ => exact others
  | skipFirstRead ptr => exact others

variable {pair : Nat × SkipCall}

theorem AllCoherent.cCall (full : driver.Full)
    (coherent : AllCoherent mapping initial core)
    (reads : ∀ ptr, pair.2 ≠ .skipFirstRead ptr) :
    AllCoherent mapping initial (core.cCall mapping driver attempts pair) := by
  obtain ⟨thread, call⟩ := pair
  cases call with
  | call plain =>
      have others := (AllCoherent.preserved full).call coherent attempts thread plain
      cases plain with
      | flush offset size flags =>
          refine (AllCoherent.preserved full).cFlush (fun _ _ _ _ => trivial) ?_
            coherent offset size flags
          exact fun _ before segment => (before segment).of_untouched
            ⟨rfl, rfl, fun _ _ => rfl, fun _ _ _ => rfl, rfl⟩
      | _ => exact others
  | skipFirstRead ptr => exact absurd rfl (reads ptr)

theorem Agreement.skipFirstRead (agreement : Agreement core) :
    Agreement (core.skipFirstRead mapping) := by
  refine Untouched.forall_foldl (onlySegment_setNeedRead mapping)
    (fun current segmentId => Agrees (current.status segmentId)
      (current.pages segmentId))
    (fun _ _ _ untouched own => by rwa [untouched.status, untouched.pages]) ?_
    agreement _
  intro current segmentId own
  rw [Core.setNeedRead_status, Function.update_self, Core.setNeedRead_pages]
  exact ⟨own.unmapped, own.clean, own.dirty⟩

theorem Agreement.cCall (agreement : Agreement core)
    (ordinary : ∀ plain, pair.2 = .call plain → plain.Ordinary) :
    Agreement (core.cCall mapping driver attempts pair) := by
  obtain ⟨thread, call⟩ := pair
  cases call with
  | call plain =>
      have others : Agreement (core.call mapping driver attempts thread plain).2 :=
        preserved.call_of_allows agreement (allows (ordinary plain rfl)) attempts thread
      cases plain with
      | flush offset size flags =>
          exact preserved.cFlush (fun _ _ => allows (by rintro _ _ ⟨⟩))
            (fun _ before => before) agreement offset size flags
      | _ => exact others
  | skipFirstRead ptr => exact agreement.skipFirstRead

/-- A call that returns computes its effect. -/
theorem CDriver.leads_call {entries : List MappingRegistryEntry}
    (accepted : pair.2.Accepted mapping entries)
    (core : Core) :
    ∃ value, (CDriver.call mapping attempts entries pair.2).Leads
      (mapping.handle driver pair.1) (.idle core) value
      (.idle (core.cCall mapping driver attempts pair)) := by
  have others : (mapping.skipCall entries attempts pair.2).Ends
      (mapping.handle driver pair.1) True (.idle core)
      (core.skipCall mapping driver attempts pair).1
      (.idle (core.skipCall mapping driver attempts pair).2) :=
    ends_skipCall (Or.inr trivial) accepted core
  obtain ⟨thread, call⟩ := pair
  cases call with
  | call plain =>
      cases plain with
      | flush offset size flags =>
          exact ⟨none, Program.Leads.bind (leads_cFlush offset size flags)
            (.done none _)⟩
      | _ => exact ⟨_, others.leads⟩
  | skipFirstRead ptr => exact ⟨_, others.leads⟩

/-- What every accepted call keeps holds in every state that calls lead to. -/
theorem CDriver.runCalls_invariant (property : Core → Prop)
    {entries : List MappingRegistryEntry} {calls : List (Nat × SkipCall)}
    {values : List (Option Byte)} {state : Machine}
    (accepted : ∀ pair ∈ calls, pair.2.Accepted mapping entries)
    (kept : ∀ core, ∀ pair ∈ calls, property core →
      property (core.cCall mapping driver attempts pair))
    (holds : property core)
    (reached : CDriver.runCalls mapping attempts entries driver calls (.idle core) =
      .finished values state) :
    state = .idle state.core ∧ property state.core := by
  refine Outcome.runAll_invariant
    (fun machine => machine = .idle machine.core ∧ property machine.core)
    ?_ ⟨rfl, holds⟩ reached
  rintro pair member first value second ⟨idle, before⟩ ran
  obtain ⟨_, leads⟩ := CDriver.leads_call (accepted pair member) first.core
  rw [idle] at ran
  obtain ⟨_, rfl⟩ := leads _ _ ran
  exact ⟨rfl, kept first.core pair member before⟩

/-! ## Views -/

section Views

variable {offset size position : Nat} {flags : FlushFlags}

/-- Behind its offset a flush over a `CDriver` does what a flush does, apart from the
record. -/
theorem Untouched.cFlush
    (starts : offset % mapping.segmentSize = 0)
    (behind : offset ≤ position) (core : Core) :
    Untouched mapping initial (position / mapping.segmentSize)
      (core.flush mapping driver offset size { flags with sync := false }).forget
      (core.cFlush mapping driver thread attempts offset size flags).forget := by
  have below : offset ≤
      mapping.segmentSize * (position / mapping.segmentSize) := by
    calc offset = mapping.segmentSize * (offset / mapping.segmentSize) :=
          (Nat.mul_div_cancel' (Nat.dvd_of_mod_eq_zero starts)).symm
      _ ≤ mapping.segmentSize * (position / mapping.segmentSize) :=
          Nat.mul_le_mul_left _ (Nat.div_le_div_right behind)
  unfold Core.cFlush
  split
  · exact Untouched.cSync below size _
  · exact .refl _

/-- Behind its offset a flush over a `CDriver` only changes what is shown if it
withdraws a segment whose contents are in memory alone. -/
theorem Steady.shows_cFlush (full : driver.Full) (steady : Steady mapping core)
    (starts : offset % mapping.segmentSize = 0)
    (behind : offset ≤ position) (inside : position < mapping.size) :
    (core.cFlush mapping driver thread attempts offset size flags).shows mapping
        position =
      if (SkipCall.call (.flush offset size flags)).forgets mapping driver core
          (position / mapping.segmentSize) then 0
      else core.shows mapping position := by
  have untouched : Untouched mapping (fun _ => 0) (position / mapping.segmentSize)
      (core.flush mapping driver offset size { flags with sync := false }).forget
      (core.cFlush mapping driver thread attempts offset size flags).forget :=
    Untouched.cFlush starts behind core
  exact (untouched.shows_eq inside rfl).trans
    (steady.shows_flush full inside offset size { flags with sync := false })

/-- Segments before the range of a flush keep their protection. -/
theorem Core.flushLoop_pages_before
    (starts : offset % mapping.segmentSize = 0)
    (before : position < offset) (unmap : Bool) :
    (core.flushLoop mapping driver offset size unmap).pages
        (position / mapping.segmentSize) =
      core.pages (position / mapping.segmentSize) := by
  have earlier : position / mapping.segmentSize < offset / mapping.segmentSize := by
    refine Nat.div_lt_of_lt_mul ?_
    rwa [Nat.mul_div_cancel' (Nat.dvd_of_mod_eq_zero starts)]
  have absent : position / mapping.segmentSize ∉ mapping.flushSegments offset size := by
    unfold Mapping.flushSegments
    rw [List.mem_range'_1]
    omega
  exact (Untouched.foldl (onlySegment_flushSegment mapping driver unmap) absent
    core).pages

theorem Core.cFlush_of_sync (direct : driver.directMSync = false)
    (sync : flags.sync = true) :
    core.cFlush mapping driver thread attempts offset size flags =
      (core.flush mapping driver offset size { flags with sync := false }).cSync
        mapping driver thread attempts offset size := by
  unfold cFlush
  rw [direct, sync]
  rfl

/-- A flush over a `CDriver` that overwrites segments that can be written keeps the
status bits. -/
theorem Core.cFlush_status (full : driver.Full) (direct : driver.directMSync = false)
    (sync : flags.sync = true)
    (writable : ∀ position, position < offset →
      ((core.flushLoop mapping driver offset size flags.unmap).pages
        (position / mapping.segmentSize)).write = true) :
    (core.cFlush mapping driver thread (attempts + 1) offset size flags).status =
      (core.flushLoop mapping driver offset size flags.unmap).status := by
  rw [cFlush_of_sync direct sync]
  unfold flush
  rw [direct]
  refine storeBytes_status ?_ _
  intro position member
  rw [(full _ _ _).1, transferred_self] at member
  exact writable position (List.mem_range.mp member)

/-- Before its offset a flush over a `CDriver` shows what it leaves in the storage
behind its size. -/
theorem Steady.shows_cFlush_before (full : driver.Full)
    (direct : driver.directMSync = false) (sync : flags.sync = true)
    (steady : Steady mapping core) (agreement : Agreement core)
    (accepted : (Call.flush offset size flags).Accepted mapping)
    (before : position < offset) :
    (core.cFlush mapping driver thread (attempts + 2) offset size flags).shows mapping
        position =
      core.writtenBack mapping offset size (size + position) := by
  have flushed : Steady mapping
      (core.flush mapping driver offset size { flags with sync := false }) :=
    (preserved full).flush steady offset size _
  rw [Core.cFlush_of_sync direct sync,
    flushed.shows_cSync full (Agreement.preserved.flush agreement offset size _)
      (Nat.lt_trans before accepted.1) before]
  exact Core.flush_storage full direct accepted
    (fun segmentId => (steady.pages segmentId).mapped_of_dirty)

/-- Contents shown in two states are the same exactly if loads return the same, and then
memory that stays mapped is the same. -/
theorem Steady.keeps_iff {after : Core} (full : driver.Full)
    (steady : Steady mapping core) (steadyAfter : Steady mapping after)
    (loads : (Call.load position).Accepted mapping)
    (inside : position < mapping.size) :
    (((core.status (position / mapping.segmentSize)).mapped = true →
        (after.status (position / mapping.segmentSize)).mapped = true →
          after.memory position = core.memory position) ∧
      ∀ loader value,
        (Machine.idle after).Returns mapping driver (attempts + 2) loader position
            value ↔
          (Machine.idle core).Returns mapping driver (attempts + 2) loader position
            value) ↔
      after.shows mapping position = core.shows mapping position := by
  simp only [steadyAfter.returns_iff full loads inside,
    steady.returns_iff full loads inside]
  constructor
  · rintro ⟨_, same⟩
    exact (same 0 _).mpr rfl
  · intro same
    refine ⟨?_, fun _ _ => by rw [same]⟩
    intro mapped stays
    unfold Core.shows at same
    rwa [mapped, stays, if_pos rfl, if_pos rfl] at same

/-- A synchronised flush makes loads of a mapped byte before its offset return a byte of
the storage behind its size, if the segments there can be written. -/
theorem Steady.overwritten_of_writable (full : driver.Full)
    (direct : driver.directMSync = false) (sync : flags.sync = true)
    (steady : Steady mapping core) (agreement : Agreement core)
    (accepted : (Call.flush offset size flags).Accepted mapping)
    (writable : ∀ position, position < offset →
      ((core.flushLoop mapping driver offset size flags.unmap).pages
        (position / mapping.segmentSize)).write = true)
    (before : position < offset)
    (mapped : ((core.flushLoop mapping driver offset size flags.unmap).status
      (position / mapping.segmentSize)).mapped = true)
    (loads : (Call.load position).Accepted mapping)
    (loader : Nat) :
    ∃ after,
      (CDriver.flush mapping (attempts + 2) offset size flags).run
          (mapping.handle driver thread) (.idle core) = .finished () after ∧
      (after.core.status (position / mapping.segmentSize)).mapped = true ∧
      after.core.memory position =
        core.writtenBack mapping offset size (size + position) ∧
      after.Returns mapping driver (attempts + 2) loader position
        (after.core.memory position) := by
  have ends : (CDriver.flush mapping (attempts + 2) offset size flags).Ends
      (mapping.handle driver thread) False (.idle core) ()
      (.idle (core.cFlush mapping driver thread (attempts + 2) offset size flags)) :=
    ends_cFlush_of_writable full.noError accepted writable
  have stays : ((core.cFlush mapping driver thread (attempts + 2) offset size
      flags).status (position / mapping.segmentSize)).mapped = true := by
    rw [Core.cFlush_status full direct sync writable]
    exact mapped
  have flushed : Steady mapping
      (core.cFlush mapping driver thread (attempts + 2) offset size flags) :=
    steady.cFlush full offset size flags
  have shown : (core.cFlush mapping driver thread (attempts + 2) offset size
      flags).shows mapping position = _ := if_pos stays
  refine ⟨_, ends.finishes id, stays, ?_, ?_⟩
  · exact shown.symm.trans
      (steady.shows_cFlush_before full direct sync agreement accepted before)
  · exact (flushed.returns_iff full loads (Nat.lt_trans before accepted.1)
      loader).mpr shown

/-- What a synchronised flush over a `CDriver` keeps showing. -/
theorem Steady.shows_cFlush_eq_iff (full : driver.Full) (sync : flags.sync = true)
    (steady : Steady mapping core) (agreement : Agreement core)
    (accepted : (Call.flush offset size flags).Accepted mapping)
    (inside : position < mapping.size) :
    (core.cFlush mapping driver thread (attempts + 2) offset size flags).shows mapping
        position = core.shows mapping position ↔
      driver.directMSync = true ∨
      (position < offset ∧
        core.writtenBack mapping offset size (size + position) =
          core.shows mapping position) ∨
      (offset ≤ position ∧
        core.Retains mapping driver (attempts + 2) position
          [(thread, .call (.flush offset size flags))]) := by
  cases direct : driver.directMSync with
  | true =>
      unfold Core.cFlush Core.flush
      rw [direct, Bool.not_true, Bool.and_false]
      exact ⟨fun _ => Or.inl rfl, fun _ => rfl⟩
  | false =>
      by_cases before : position < offset
      · rw [steady.shows_cFlush_before full direct sync agreement accepted before]
        simp [before, Nat.not_le.mpr before]
      · have behind := Nat.le_of_not_lt before
        rw [steady.shows_cFlush full accepted.2.2.1 behind inside]
        simp only [Bool.false_eq_true, before, behind, false_and, true_and, false_or,
          Core.Retains, and_true]
        split
        · rename_i forgets
          exact ⟨fun zero _ => zero.symm, fun zero => (zero forgets).symm⟩
        · rename_i keeps
          exact ⟨fun _ forgets => absurd forgets keeps, fun _ => rfl⟩

/-- Contents in memory alone of a segment that was never skipped are zeroes. -/
theorem AllCoherent.shows_of_exposed
    (coherent : AllCoherent mapping initial core)
    (inside : position < mapping.size)
    (exposed : core.exposed (position / mapping.segmentSize) = true) :
    core.shows mapping position = 0 := by
  unfold Core.exposed at exposed
  rw [Bool.and_eq_true, Bool.and_eq_true, Bool.not_eq_true',
    Bool.not_eq_true'] at exposed
  obtain ⟨⟨mapped, clean⟩, unread⟩ := exposed
  have own := coherent (position / mapping.segmentSize)
  unfold Core.shows
  rw [mapped, if_pos rfl, own.memory (Or.inl mapped) position inside rfl,
    own.blank clean unread position inside rfl]

end Views

end CDriver

/-- Over a `CDriver`, a byte is stored in two pages of sevens. -/
abbrev CDriver.StoresInSevens (state : Machine) : Prop :=
  CDriver.runCalls twoPages 2 [] Driver.whole [(0, .call (.store 3 9))]
    (.initial ⟨false, false⟩ fun _ => 7) = .finished [none] state

/-- A synchronised flush of the second page finds the first one open, and copies a seven
to its byte 3. -/
abbrev CDriver.ExposesFirstPage (core : Core) : Prop :=
  let flushed := core.flushLoop twoPages Driver.whole pageSize pageSize false
  (flushed.pages 0).write = true ∧ (flushed.status 0).mapped = true ∧
    core.writtenBack twoPages pageSize pageSize (pageSize + 3) = 7

/-- Two pages over a `CDriver`: a synchronised flush of the second one overwrites the
first one, if that can be written. -/
theorem CDriver.overwrites_first_page {before : List (Nat × SkipCall)}
    {values : List (Option Byte)} {state : Machine}
    (reached : CDriver.runCalls twoPages 2 [] Driver.whole before
      (.initial ⟨false, false⟩ fun _ => 7) = .finished values state)
    (accepted : ∀ pair ∈ before, pair.2.Accepted twoPages [])
    (ordinary : ∀ pair ∈ before, ∀ plain, pair.2 = .call plain → plain.Ordinary)
    (exposed : CDriver.ExposesFirstPage state.core) :
    ∃ after,
      (CDriver.flush twoPages 2 pageSize pageSize ⟨true, false, false⟩).run
          (twoPages.handle Driver.whole 0) state =
        .finished () after ∧
      (after.core.status 0).mapped = true ∧
      after.core.memory 3 = 7 ∧
      after.Returns twoPages Driver.whole 2 0 3 7 := by
  obtain ⟨idle, steady, agreement⟩ := CDriver.runCalls_invariant
    (fun core => Steady twoPages core ∧ Agreement core) accepted
    (fun _ pair member holds => ⟨holds.1.cCall Driver.whole_full pair,
      holds.2.cCall (ordinary pair member)⟩)
    ⟨Steady.of_constructor ⟨false, false⟩ fun _ => 7,
      Agreement.initial ⟨false, false⟩ fun _ => 7⟩ reached
  obtain ⟨core, rfl⟩ : ∃ core, state = .idle core := ⟨_, idle⟩
  obtain ⟨opened, mapped, behind⟩ := exposed
  have writable : ∀ position, position < pageSize →
      ((core.flushLoop twoPages Driver.whole pageSize pageSize
        false).pages (position / twoPages.segmentSize)).write =
          true := by
    intro position below
    rw [show position / twoPages.segmentSize = 0 from Nat.div_eq_of_lt below]
    exact opened
  have range : (Call.flush pageSize pageSize ⟨true, false, false⟩).Accepted
      twoPages := by
    decide
  have loads : (Call.load 3).Accepted twoPages := by
    decide
  obtain ⟨after, flushed, stays, moved, returned⟩ :=
    steady.overwritten_of_writable Driver.whole_full rfl rfl agreement range writable
      (by decide) mapped loads 0
  rw [moved, behind] at returned
  exact ⟨after, flushed, stays, moved.trans behind, returned⟩

/-- Two pages of sevens over a `CDriver`, in which the byte 3 is stored and loaded, the
second page is flushed with `UMMAP_FLUSH_SYNC`, and the byte 3 is loaded again: the
second load does not see the store. -/
theorem c_driver_sync_undoes_store :
    ∃ calls : List (Nat × Call), ∃ final,
      (∀ pair ∈ calls, pair.2.Accepted twoPages) ∧
      calls[3]? = some (0, .load 3) ∧
      plainArray (twoPages.initialView ⟨false, false⟩ fun _ => 7)
        (calls.take 3) 3 = 9 ∧
      twoPages.runCallsWith (CDriver.sync twoPages 2) Driver.whole 2 calls
          (.initial ⟨false, false⟩ fun _ => 7) =
        .finished [none, some 9, none, some 7] final := by
  obtain ⟨state, reached, ran, exposed⟩ : ∃ state,
      CDriver.runCalls twoPages 2 [] Driver.whole
          [(0, .call (.store 3 9)), (0, .call (.load 3))]
          (.initial ⟨false, false⟩ fun _ => 7) =
        .finished [none, some 9] state ∧
      twoPages.runCallsWith (CDriver.sync twoPages 2) Driver.whole 2
          [(0, .store 3 9), (0, .load 3)] (.initial ⟨false, false⟩ fun _ => 7) =
        .finished [none, some 9] state ∧
      CDriver.ExposesFirstPage state.core :=
    ⟨_, rfl, rfl, rfl, rfl, rfl⟩
  have stores : (Call.store 3 9).Accepted twoPages := by
    decide
  have loads : (Call.load 3).Accepted twoPages := by
    decide
  obtain ⟨after, flushed, _, _, final, loaded⟩ :=
    CDriver.overwrites_first_page reached
      (List.forall_mem_cons.mpr ⟨stores, List.forall_mem_singleton.mpr loads⟩)
      (List.forall_mem_cons.mpr ⟨by rintro _ ⟨⟩ _ _ ⟨⟩,
        List.forall_mem_singleton.mpr (by rintro _ ⟨⟩ _ _ ⟨⟩)⟩) exposed
  have synced : (twoPages.callWith (CDriver.sync twoPages 2) 2
      (.flush pageSize pageSize ⟨true, false, false⟩)).run
      (twoPages.handle Driver.whole 0) state =
        .finished none after := by
    refine (Program.run_bind _ _ _ _).trans ?_
    unfold CDriver.flush at flushed
    rw [flushed]
    rfl
  have last : twoPages.runCallsWith
      (CDriver.sync twoPages 2) Driver.whole 2 [(0, .load 3)] after =
        .finished [some 7] final :=
    loaded
  refine ⟨[(0, .store 3 9), (0, .load 3)] ++
    [(0, .flush pageSize pageSize ⟨true, false, false⟩), (0, .load 3)], final,
    by decide, rfl, by decide, ?_⟩
  unfold Mapping.runCallsWith at ran last ⊢
  rw [Outcome.runAll_append, ran, Outcome.andThen_finished]
  unfold Outcome.runAll
  rw [synced, Outcome.andThen_finished, last]
  rfl

end UmmapIo
