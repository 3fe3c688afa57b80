import UmmapIo.Locking.Defs
import UmmapIo.Policy.Sections

/-!
# The order of the mutexes

Every operation takes its mutexes in the order quota, segments of one mapping by
increasing index, policy.  A rebalance evicts segments of other mappings while it
holds the mutex of the quota, but never two segment mutexes of different
mappings, and a policy mutex is released before anything is evicted.
-/

namespace UmmapIo

variable {M P Q α : Type}

namespace Mutex

variable {count : M → Nat}

/-- Decreases along the order. -/
def rank (count : M → Nat) : Mutex M P Q → Nat × Nat
  | .quota _ => (2, 0)
  | .segment mapping index => (1, count mapping - index)
  | .policy _ => (0, 0)

theorem rank_lt {first second : Mutex M P Q} (precedes : Precedes count first second) :
    Prod.Lex (· < ·) (· < ·) (rank count second) (rank count first) := by
  cases first with
  | quota quota =>
      cases second with
      | quota other => cases precedes
      | segment mapping index => exact Prod.Lex.left _ _ (by decide)
      | policy policy => exact Prod.Lex.left _ _ (by decide)
  | segment mapping index =>
      cases second with
      | quota other => cases precedes
      | segment mapping' index' =>
          obtain ⟨rfl, later, below⟩ := precedes
          exact Prod.Lex.right _ (by omega)
      | policy policy => exact Prod.Lex.left _ _ (by decide)
  | policy policy => cases second <;> cases precedes

/-- From a mutex on, only finitely many others can be taken one after the
other. -/
theorem founded (count : M → Nat) :
    WellFounded fun first second : Mutex M P Q =>
      Precedes count second first :=
  Subrelation.wf (fun precedes => rank_lt precedes)
    (InvImage.wf (rank count) (Prod.lex ⟨_, wellFounded_lt⟩ ⟨_, wellFounded_lt⟩).wf)

theorem not_precedes_self (count : M → Nat) (mutex : Mutex M P Q) :
    ¬mutex.Precedes count mutex := by
  cases mutex with
  | quota quota => exact id
  | segment mapping index => exact fun precedes => Nat.lt_irrefl _ precedes.2.1
  | policy policy => exact id

/-- Nothing but quota mutexes is held. -/
def OnlyQuotas (held : Mutex M P Q → Nat) : Prop :=
  ∀ mutex, 0 < held mutex → ∃ quota, mutex = .quota quota

variable {held : Mutex M P Q → Nat}

theorem onlyQuotas_zero : OnlyQuotas (fun _ : Mutex M P Q => 0) :=
  fun _ absurdity => nomatch absurdity

theorem OnlyQuotas.allows_segment (only : OnlyQuotas held) (mapping : M) (index : Nat) :
    (rules count).Allows held (.segment mapping index) := by
  intro mutex holds
  obtain ⟨quota, rfl⟩ := only mutex holds
  exact Or.inl trivial

theorem OnlyQuotas.allows_policy (only : OnlyQuotas held) (policy : P) :
    (rules count).Allows held (.policy policy) := by
  intro mutex holds
  obtain ⟨quota, rfl⟩ := only mutex holds
  exact Or.inl trivial

/-- The segment mutexes of a mapping by increasing index. -/
theorem pairwise_segments (count : M → Nat) (mapping : M) (selected : Nat → Bool) :
    (((List.range (count mapping)).filter selected).map
      (Mutex.segment mapping : Nat → Mutex M P Q)).Pairwise (rules count).Precedes := by
  rw [List.pairwise_map]
  refine List.Pairwise.imp_of_mem ?_ (List.pairwise_lt_range.filter selected)
  intro first second _ member less
  have below := List.mem_range.mp (List.mem_filter.mp member).1
  exact ⟨rfl, less, below⟩

variable [DecidableEq M] [DecidableEq P] [DecidableEq Q]

theorem OnlyQuotas.take (only : OnlyQuotas held) (quota : Q) :
    OnlyQuotas (Locking.takeAll held [.quota quota]) := by
  intro mutex holds
  by_cases same : mutex = .quota quota
  · exact ⟨quota, same⟩
  · rw [Locking.takeAll, List.count_cons_of_ne (Ne.symm same), List.count_nil]
      at holds
    exact only mutex holds

/-- A policy mutex may be taken under a segment mutex. -/
theorem OnlyQuotas.allows_policy_under_segment (only : OnlyQuotas held) (mapping : M)
    (index : Nat) (policy : P) :
    (rules count).Allows (Locking.takeAll held [.segment mapping index])
      (.policy policy) := by
  intro mutex holds
  by_cases same : mutex = .segment mapping index
  · subst same
    exact Or.inl trivial
  · rw [Locking.takeAll, List.count_cons_of_ne (Ne.symm same), List.count_nil]
      at holds
    exact only.allows_policy policy mutex holds

end Mutex

/-! ## Operations -/

namespace Layout

open Mutex (OnlyQuotas)

variable {layout : Layout M P} [DecidableEq M] [DecidableEq P] [DecidableEq Q]
variable {held : Mutex M P Q → Nat}

theorem orderly_step (op : DataOp M P Q) :
    (LockedProgram.step op).Orderly (Mutex.rules layout.mutexCount) held held :=
  Locking.orderly_other (E := dataSignature M P Q) op

theorem orderly_plain (op : PolicyOp M P Q) :
    (LockedProgram.plain op).Orderly (Mutex.rules layout.mutexCount) held held :=
  orderly_step (.plain op)

section

variable {policy : P}
variable (allowed : (Mutex.rules layout.mutexCount).Allows held
  (layout.policyMutex policy))
include allowed

theorem orderly_getStorageInfoOfEntry :
    (layout.getStorageInfoOfEntry policy : LockedProgram M P Q Unit).Orderly
      (Mutex.rules layout.mutexCount)
      (Locking.takeAll held [layout.policyMutex policy])
      (Locking.takeAll held [layout.policyMutex policy]) :=
  Locking.orderly_guarded (Locking.allows_again allowed rfl) rfl

theorem orderly_getStorageInfo :
    (layout.getStorageInfo policy : LockedProgram M P Q Unit).Orderly
      (Mutex.rules layout.mutexCount)
      (Locking.takeAll held [layout.policyMutex policy])
      (Locking.takeAll held [layout.policyMutex policy]) :=
  Program.Orderly.when (orderly_getStorageInfoOfEntry allowed)

theorem orderly_notifyEvict {mapping : M} {segmentId : Nat} :
    (layout.notifyEvict mapping segmentId policy :
      LockedProgram M P Q Unit).Orderly (Mutex.rules layout.mutexCount) held held :=
  Locking.orderly_guarded allowed
    ((orderly_getStorageInfo allowed).bind fun _ =>
      (orderly_step _).bind fun answer => Program.Orderly.ofExcept answer)

end

/-- A flush, unless it is one that takes no mutex, starts without a segment
mutex. -/
theorem orderly_flushWith {sync : LockedProgram M P Q Unit} (lockFree : sync.LockFree)
    (mapping : M) (offset size : Nat) (flags : FlushFlags)
    (only : flags.noLock = true ∨ OnlyQuotas held) :
    (layout.flushWith sync mapping offset size flags).Orderly
      (Mutex.rules layout.mutexCount) held held := by
  have body (held : Mutex M P Q → Nat) : (do
      LockedProgram.plain (.flush mapping offset size flags)
      Program.when flags.sync sync : LockedProgram M P Q Unit).Orderly
        (Mutex.rules layout.mutexCount) held held :=
    (orderly_plain (.flush mapping offset size flags)).bind fun _ =>
      Program.Orderly.when lockFree.orderly
  refine (Program.Orderly.assume _ _).bind fun _ =>
    (Program.Orderly.assume _ _).bind fun _ =>
    (Program.Orderly.assume _ _).bind fun _ =>
    (Program.Orderly.assume _ _).bind fun _ => Program.Orderly.when ?_
  unfold Mapping.flushMutexes
  split
  · exact Locking.orderly_guardedAll (fun _ absurdity => nomatch absurdity)
      List.Pairwise.nil (body _)
  · rename_i locks
    have only := only.resolve_left locks
    refine Locking.orderly_guardedAll ?_
      (Mutex.pairwise_segments layout.mutexCount mapping _) (body _)
    intro mutex member
    obtain ⟨index, _, rfl⟩ := List.mem_map.mp member
    exact only.allows_segment mapping index

theorem orderly_flush (mapping : M) (offset size : Nat) (flags : FlushFlags)
    (only : flags.noLock = true ∨ OnlyQuotas held) :
    (layout.flush mapping offset size flags : LockedProgram M P Q Unit).Orderly
      (Mutex.rules layout.mutexCount) held held := by
  have lockFree : (pure () : LockedProgram M P Q Unit).LockFree := trivial
  exact orderly_flushWith lockFree mapping offset size flags only

/-- An operation that takes all segment mutexes of a mapping. -/
theorem orderly_allSegments {body : LockedProgram M P Q α} (mapping : M)
    (only : OnlyQuotas held)
    (inside : ∀ held, body.Orderly (Mutex.rules layout.mutexCount) held held) :
    (Locking.guardedAll ((List.range (layout.mutexCount mapping)).map
      (.segment mapping)) body).Orderly (Mutex.rules layout.mutexCount) held
        held := by
  refine Locking.orderly_guardedAll ?_ ?_ (inside _)
  · intro mutex member
    obtain ⟨index, _, rfl⟩ := List.mem_map.mp member
    exact only.allows_segment mapping index
  · have all := Mutex.pairwise_segments (P := P) (Q := Q) layout.mutexCount
      mapping fun _ => true
    rwa [List.filter_true] at all

theorem orderly_evict (source : P) (element : ListElement M) (only : OnlyQuotas held) :
    (layout.evict source element : LockedProgram M P Q Unit).Orderly
      (Mutex.rules layout.mutexCount) held held := by
  refine Locking.orderly_guarded (only.allows_segment _ _)
    ((Program.Orderly.each ?_).bind fun _ =>
      orderly_flush _ _ _ _ (Or.inl rfl))
  intro policy _
  exact orderly_notifyEvict (only.allows_policy_under_segment _ _ _)

theorem orderly_evictions (source : P) (idsToEvict : List (ListElement M))
    (only : OnlyQuotas held) :
    (Program.each (layout.evict source) idsToEvict :
      LockedProgram M P Q Unit).Orderly (Mutex.rules layout.mutexCount) held held :=
  Program.Orderly.each fun element _ => orderly_evict source element only

theorem orderly_shrinkMemory (policy : P) (only : OnlyQuotas held) :
    (layout.shrinkMemory policy : LockedProgram M P Q Unit).Orderly
      (Mutex.rules layout.mutexCount) held held := by
  have allowed : (Mutex.rules layout.mutexCount).Allows held
      (layout.policyMutex policy) := only.allows_policy _
  refine (Locking.orderly_guarded allowed ?_).bind fun idsToEvict =>
    orderly_evictions policy idsToEvict only
  exact (orderly_plain _).bind fun answer =>
    (Program.Orderly.ofExcept answer).bind fun idsToEvict =>
    (Program.Orderly.each fun _ _ =>
      orderly_getStorageInfoOfEntry allowed).bind fun _ => rfl

theorem orderly_updateLoop (quota : Q) (averageMem rounds : Nat)
    (only : OnlyQuotas held) :
    (layout.updateLoop quota averageMem rounds :
      LockedProgram M P Q Unit).Orderly (Mutex.rules layout.mutexCount) held
        held := by
  induction rounds with
  | zero => exact orderly_plain _
  | succ rounds inductionHypothesis =>
      refine (orderly_plain _).bind ?_
      rintro ⟨staticMaxMemory, memories⟩
      cases memories with
      | nil => exact rfl
      | cons first rest =>
          dsimp only
          split
          · exact (orderly_plain _).bind fun _ =>
              (orderly_shrinkMemory _ only).bind fun _ => inductionHypothesis
          · exact rfl

theorem orderly_update (rounds : Nat) (quota : Q) :
    (layout.update rounds quota : LockedProgram M P Q Unit).Orderly
      (Mutex.rules layout.mutexCount) (fun _ => 0) fun _ => 0 := by
  refine (orderly_plain _).bind fun answer =>
    (Program.Orderly.ofExcept answer).bind fun _ =>
    Locking.orderly_guarded (LockRules.allows_zero _ _) ?_
  refine (orderly_plain _).bind ?_
  rintro ⟨staticMaxMemory, memories⟩
  exact Program.Orderly.when (orderly_updateLoop quota _ rounds
    (Mutex.onlyQuotas_zero.take quota))

theorem orderly_registerPolicy (rounds : Nat) (quota : Q) (policy : P) :
    (layout.registerPolicy rounds quota policy :
      LockedProgram M P Q Unit).Orderly (Mutex.rules layout.mutexCount)
        (fun _ => 0) fun _ => 0 :=
  (Locking.orderly_guarded (LockRules.allows_zero _ _)
    ((orderly_plain (.addPolicy quota policy)).bind
      Program.Orderly.ofExcept)).bind fun _ =>
    (orderly_plain _).bind fun _ => orderly_update rounds quota

theorem orderly_unregisterPolicy (rounds : Nat) (quota : Q) (policy : P) :
    (layout.unregisterPolicy rounds quota policy :
      LockedProgram M P Q Unit).Orderly (Mutex.rules layout.mutexCount)
        (fun _ => 0) fun _ => 0 :=
  (Locking.orderly_guarded (LockRules.allows_zero _ _)
    ((orderly_plain (.removePolicy quota policy)).bind
      Program.Orderly.ofExcept)).bind fun _ =>
    (orderly_plain _).bind fun _ => orderly_update rounds quota

theorem orderly_notifyTouch (rounds : Nat) (policy : P) (element : ListElement M) :
    (layout.notifyTouch rounds policy element :
      LockedProgram M P Q Unit).Orderly (Mutex.rules layout.mutexCount)
        (fun _ => 0) fun _ => 0 := by
  have allowed : (Mutex.rules layout.mutexCount).Allows
      (fun _ : Mutex M P Q => 0) (layout.policyMutex policy) :=
    Mutex.onlyQuotas_zero.allows_policy _
  refine (Locking.orderly_guarded allowed ?_).bind fun touch =>
    (orderly_evictions policy _ Mutex.onlyQuotas_zero).bind fun _ =>
    (orderly_plain _).bind ?_
  · exact (orderly_getStorageInfo allowed).bind fun _ =>
      (orderly_plain _).bind fun answer =>
      (Program.Orderly.ofExcept answer).bind fun touch =>
      (Program.Orderly.each fun _ _ =>
        orderly_getStorageInfoOfEntry allowed).bind fun _ => rfl
  · rintro ⟨currentMemory, policyQuota⟩
    cases policyQuota with
    | none => exact rfl
    | some quota => exact Program.Orderly.when (orderly_update rounds quota)

theorem orderly_onSegmentationFault (rounds : Nat) (mapping : M) (address : Nat)
    (isWrite : Bool) :
    (layout.onSegmentationFault rounds mapping address isWrite :
      LockedProgram M P Q Unit).Orderly (Mutex.rules layout.mutexCount)
        (fun _ => 0) fun _ => 0 :=
  (Program.Orderly.assume _ _).bind fun _ =>
    (Program.Orderly.assume _ _).bind fun _ =>
    (Program.Orderly.assume _ _).bind fun _ =>
    (Locking.orderly_guarded (LockRules.allows_zero _ _)
      (orderly_plain _)).bind fun _ =>
    Program.Orderly.when (Program.Orderly.each fun policy _ =>
      orderly_notifyTouch rounds policy _)

/-! ## Runs -/

/-- The operations that threads run, over drivers whose `sync` takes no mutex. -/
inductive LockedOperation (layout : Layout M P) : LockedProgram M P Q Unit → Prop
  | onSegmentationFault (rounds : Nat) (mapping : M) (address : Nat) (isWrite : Bool) :
      layout.LockedOperation (layout.onSegmentationFault rounds mapping address isWrite)
  | flush (mapping : M) (offset size : Nat) (flags : FlushFlags) :
      layout.LockedOperation (layout.flush mapping offset size flags)
  | dropClean (mapping : M) :
      layout.LockedOperation (layout.dropClean mapping)
  | markCleanAsDirty (mapping : M) :
      layout.LockedOperation (layout.markCleanAsDirty mapping)
  | notifyTouch (rounds : Nat) (policy : P) (element : ListElement M) :
      layout.LockedOperation (layout.notifyTouch rounds policy element)
  | evict (source : P) (element : ListElement M) :
      layout.LockedOperation (layout.evict source element)
  | shrinkMemory (policy : P) :
      layout.LockedOperation (layout.shrinkMemory policy)
  | update (rounds : Nat) (quota : Q) :
      layout.LockedOperation (layout.update rounds quota)
  | registerPolicy (rounds : Nat) (quota : Q) (policy : P) :
      layout.LockedOperation (layout.registerPolicy rounds quota policy)
  | unregisterPolicy (rounds : Nat) (quota : Q) (policy : P) :
      layout.LockedOperation (layout.unregisterPolicy rounds quota policy)

theorem orderly_operation {program : LockedProgram M P Q Unit}
    (operation : layout.LockedOperation program) :
    program.Orderly (Mutex.rules layout.mutexCount) (fun _ => 0) fun _ => 0 := by
  cases operation with
  | onSegmentationFault rounds mapping address isWrite =>
      exact orderly_onSegmentationFault rounds mapping address isWrite
  | flush mapping offset size flags =>
      exact orderly_flush mapping offset size flags (Or.inr Mutex.onlyQuotas_zero)
  | dropClean mapping =>
      exact orderly_allSegments mapping Mutex.onlyQuotas_zero fun _ =>
        orderly_plain _
  | markCleanAsDirty mapping =>
      exact orderly_allSegments mapping Mutex.onlyQuotas_zero fun _ =>
        orderly_step _
  | notifyTouch rounds policy element =>
      exact orderly_notifyTouch rounds policy element
  | evict source element =>
      exact orderly_evict source element Mutex.onlyQuotas_zero
  | shrinkMemory policy =>
      exact orderly_shrinkMemory policy Mutex.onlyQuotas_zero
  | update rounds quota => exact orderly_update rounds quota
  | registerPolicy rounds quota policy =>
      exact orderly_registerPolicy rounds quota policy
  | unregisterPolicy rounds quota policy =>
      exact orderly_unregisterPolicy rounds quota policy

/-- The operations that threads run, with the `sync` of the drivers. -/
inductive DriverOperation (layout : Layout M P)
    (sync : M → Nat → Nat → LockedProgram M P Q Unit) :
    LockedProgram M P Q Unit → Prop
  | locked (program : LockedProgram M P Q Unit)
      (operation : layout.LockedOperation program) :
      layout.DriverOperation sync program
  | flush (mapping : M) (offset size : Nat) (flags : FlushFlags) :
      layout.DriverOperation sync
        (layout.flushWith (sync mapping offset size) mapping offset size flags)

end Layout

/-- In every interleaving of any number of threads, on any number of mappings,
policies and quotas, over drivers whose `sync` takes no mutex and whatever the steps on
the data answer: a thread that is about to take a mutex only holds mutexes that come
before it in the order quota, segments of one mapping by increasing index, policy, or the
recursive mutex of a policy that it takes again; and no set of threads wait for each
other. -/
theorem mutexes_in_order {T S : Type} [DecidableEq T] [DecidableEq M] [DecidableEq P]
    [DecidableEq Q] (layout : Layout M P)
    (sync : M → Nat → Nat → LockedProgram M P Q Unit)
    (lockFree : ∀ mapping offset size, (sync mapping offset size).LockFree)
    (inner : T → Handler (dataSignature M P Q) S)
    (initial : S)
    (configuration : Configuration T (locking (Mutex M P Q)
      (dataSignature M P Q)) (LockState T (Mutex M P Q) S))
    (reached : Reachable (LockState.handle Mutex.recursive inner)
      { program | layout.DriverOperation sync program } (.free initial)
      configuration) :
    (∀ thread held wanted, 0 < configuration.state.held thread held →
      (configuration.program thread).nextOp = some (.lock wanted) →
        held.Precedes layout.mutexCount wanted ∨
          held = wanted ∧ wanted.recursive = true) ∧
    ∀ threads : Set T, threads.Nonempty →
      ¬∀ thread ∈ threads, ∃ mutex,
        configuration.Waits (Mutex.rules layout.mutexCount) thread mutex ∧
          ∃ owner ∈ threads, 0 < configuration.state.held owner mutex := by
  have programs (program : LockedProgram M P Q Unit)
      (operation : layout.DriverOperation sync program) :
      program.Orderly (Mutex.rules layout.mutexCount) (fun _ => 0) fun _ => 0 := by
    cases operation with
    | locked _ operation => exact Layout.orderly_operation operation
    | flush mapping offset size flags =>
        exact Layout.orderly_flushWith (lockFree mapping offset size) mapping offset
          size flags (Or.inr Mutex.onlyQuotas_zero)
  have orderly (thread : T) :
      (configuration.program thread).Orderly (Mutex.rules layout.mutexCount)
        (fun _ => 0) (configuration.state.held thread) :=
    reached.orderly programs thread
  refine ⟨?_, ?_⟩
  · intro thread held wanted holds next
    exact (orderly thread).allows next held holds
  · intro threads nonempty
    exact Configuration.no_circular_wait (Mutex.founded layout.mutexCount)
      orderly threads nonempty

/-- One mapping of two pages with one policy and one quota. -/
def lockedSetup : Setup Unit Unit :=
  Setup.single 1 true

/-- Its world at the beginning: the policy may use two pages, and so may all
processes together. -/
def lockedWorld : World Unit Unit Unit :=
  World.start
    (fun _ => { Policy.create .fifo (2 * pageSize) false with
      storageRegistry := [()] })
    (fun _ => { Quota.create (2 * pageSize) with
      interProc := some ⟨2 * pageSize, 1⟩ })

/-- The mutexes of its mapping, its policy and its quota. -/
abbrev lockedLayout : Layout Unit Unit :=
  lockedSetup.layout (fun _ => false) id

/-- Threads with what is left of their programs, and the mutexes that they hold. -/
abbrev LockedConfiguration (T : Type) : Type :=
  Configuration T (locking (Mutex Unit Unit Unit) (dataSignature Unit Unit Unit))
    (LockState T (Mutex Unit Unit Unit) (SignalState T Unit Unit Unit))

/-- The first thread flushes the mapping and holds its mutex; the second one
waits for it to evict a segment. -/
theorem mutexes_in_order_two_threads :
    ∃ configuration : LockedConfiguration Bool,
      Reachable (LockState.handle Mutex.recursive (lockedSetup.handleData none))
          { program | lockedLayout.DriverOperation (fun _ _ _ => pure ()) program }
          (.free (.start lockedWorld)) configuration ∧
        configuration.Waits (Mutex.rules fun _ => 1) true (.segment () 0) ∧
        configuration.state.held false (.segment () 0) = 1 ∧
        ¬∀ thread ∈ Set.univ, ∃ mutex,
          configuration.Waits (Mutex.rules fun _ => 1) thread mutex ∧
            ∃ owner ∈ Set.univ, 0 < configuration.state.held owner mutex := by
  have flushes : Reachable (LockState.handle Mutex.recursive
      (lockedSetup.handleData none))
      { program | lockedLayout.DriverOperation (fun _ _ _ => pure ()) program }
      (.free (.start lockedWorld)) _ :=
    Reachable.initial.step (.start false
      (lockedLayout.flushWith (pure ()) () 0 pageSize ⟨true, false, false⟩) rfl
      (.flush () 0 pageSize _))
  have holds := flushes.step (.act false rfl rfl)
  have waits := holds.step (.start true (lockedLayout.evict () ((), 0)) rfl
    (.locked _ (.evict () ((), 0))))
  exact ⟨_, waits, ⟨rfl, rfl⟩, rfl,
    (mutexes_in_order lockedLayout (fun _ _ _ => pure ()) (fun _ _ _ => trivial)
      (lockedSetup.handleData none) (.start lockedWorld) _ waits).2 Set.univ
      ⟨true, trivial⟩⟩

/-- The same mapping with a mutex for each of its two pages. -/
def twoMutexSetup : Setup Unit Unit :=
  { lockedSetup with
    mapping := fun mapping => { lockedSetup.mapping mapping with
      segmentMutexesCnt := 2
      segmentMutexesCnt_pos := Nat.succ_pos 1 }
    space := lockedSetup.space }

/-- Over a `CDriver` one thread flushes the second page with `UMMAP_FLUSH_SYNC`, and the
other one the whole mapping.  The first one has the mutex of the second page when
`CDriver::sync` stores to the first page and faults; the second one has the mutex of
the first page. -/
theorem c_driver_sync_waits_in_circle :
    ∃ configuration : LockedConfiguration Bool,
      Reachable (LockState.handle Mutex.recursive (twoMutexSetup.handleData none))
          { program | (twoMutexSetup.layout (fun _ => false) id).DriverOperation
            ((twoMutexSetup.layout (fun _ => false) id).cDriverSync 1 2) program }
          (.free (.start lockedWorld)) configuration ∧
        ∀ thread, ∃ mutex,
          configuration.Waits (Mutex.rules fun _ => 2) thread mutex ∧
            0 < configuration.state.held (!thread) mutex := by
  have synchronises : Reachable (LockState.handle Mutex.recursive
      (twoMutexSetup.handleData none))
      { program | (twoMutexSetup.layout (fun _ => false) id).DriverOperation
        ((twoMutexSetup.layout (fun _ => false) id).cDriverSync 1 2) program }
      (.free (.start lockedWorld)) _ :=
    Reachable.initial.step (.start false _ rfl
      (.flush () pageSize pageSize ⟨true, false, false⟩))
  have faults := ((((synchronises.step (.act false rfl rfl)).step
    (.act false rfl rfl)).step (.act false rfl rfl)).step (.act false rfl rfl)).step
    (.act false rfl rfl)
  have flushes := (faults.step (.start true _ rfl
    (.flush () 0 (2 * pageSize) ⟨false, false, false⟩))).step (.act true rfl rfl)
  refine ⟨_, flushes, ?_⟩
  intro thread
  cases thread with
  | false => exact ⟨.segment () 0, ⟨rfl, rfl⟩, by decide⟩
  | true => exact ⟨.segment () 1, ⟨rfl, rfl⟩, by decide⟩

end UmmapIo
