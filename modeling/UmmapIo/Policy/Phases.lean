import UmmapIo.Policy.Tasks

/-!
# Phases of a fault with two policies

A fault on a mapping with a local and a global policy touches the two in
separate critical sections, and evicts between and after them.  This module
names the phases a thread goes through, and says how the two lists agree while
threads are in the middle of a fault: up to the segments that were touched in
the local policy only, and those that have yet to be evicted.
-/

namespace UmmapIo

/-! ## Phases of a fault -/

/-- Where a thread stands in a fault on a mapping with two policies. -/
inductive Phase (M : Type) : Type
  | idle
  | beforeLocal (element : ListElement M)
  | evictLocal (victims : List (ListElement M)) (touch : Touch M)
      (element : ListElement M)
  | beforeGlobal (element : ListElement M)
  | evictGlobal (victims : List (ListElement M)) (touch : Touch M)

namespace Phase

variable {M P : Type}

/-- What a thread in this phase has yet to do. -/
def tasks (localPolicy globalPolicy : P) : Phase M → List (Task M P)
  | .idle => []
  | .beforeLocal element =>
      [.notify localPolicy element, .notify globalPolicy element]
  | .evictLocal victims touch element =>
      victims.map (.evict localPolicy) ++
        [.quota localPolicy touch, .notify globalPolicy element]
  | .beforeGlobal element => [.notify globalPolicy element]
  | .evictGlobal victims touch =>
      victims.map (.evict globalPolicy) ++ [.quota globalPolicy touch]

/-- Segments that left the local list and have yet to be evicted. -/
def localVictims : Phase M → List (ListElement M)
  | .evictLocal victims _ _ => victims
  | _ => []

/-- Segments that left the global list and have yet to be evicted. -/
def globalVictims : Phase M → List (ListElement M)
  | .evictGlobal victims _ => victims
  | _ => []

/-- The segment that only the local policy was notified of. -/
def halfNotified : Phase M → List (ListElement M)
  | .evictLocal _ _ element => [element]
  | .beforeGlobal element => [element]
  | _ => []

/-- Segments that left a list and have yet to be evicted. -/
def victims (phase : Phase M) : List (ListElement M) :=
  phase.localVictims ++ phase.globalVictims

/-- The segment that some policy has yet to be notified of. -/
def touched : Phase M → List (ListElement M)
  | .beforeLocal element => [element]
  | .evictLocal _ _ element => [element]
  | .beforeGlobal element => [element]
  | _ => []

variable {localPolicy globalPolicy : P} {phase : Phase M} {policy : P}
variable {element : ListElement M} {touch : Touch M} {rest : List (Task M P)}

theorem eq_idle
    (nothing : phase.tasks localPolicy globalPolicy = []) :
    phase = .idle := by
  cases phase with
  | idle => rfl
  | beforeLocal element => cases nothing
  | evictLocal victims touch element => cases victims <;> cases nothing
  | beforeGlobal element => cases nothing
  | evictGlobal victims touch => cases victims <;> cases nothing

theorem of_notify
    (head : phase.tasks localPolicy globalPolicy =
      .notify policy element :: rest) :
    (phase = .beforeLocal element ∧ policy = localPolicy ∧
        rest = [.notify globalPolicy element]) ∨
      phase = .beforeGlobal element ∧ policy = globalPolicy ∧ rest = [] := by
  cases phase with
  | idle => cases head
  | beforeLocal element =>
      cases head
      exact Or.inl ⟨rfl, rfl, rfl⟩
  | evictLocal victims touch element => cases victims <;> cases head
  | beforeGlobal element =>
      cases head
      exact Or.inr ⟨rfl, rfl, rfl⟩
  | evictGlobal victims touch => cases victims <;> cases head

theorem of_evict
    (head : phase.tasks localPolicy globalPolicy =
      .evict policy element :: rest) :
    (∃ victims touch touched,
      phase = .evictLocal (element :: victims) touch touched ∧
        policy = localPolicy ∧
        rest = (evictLocal victims touch touched).tasks localPolicy globalPolicy) ∨
      ∃ victims touch, phase = .evictGlobal (element :: victims) touch ∧
        policy = globalPolicy ∧
        rest = (evictGlobal victims touch).tasks localPolicy globalPolicy := by
  cases phase with
  | idle => cases head
  | beforeLocal element => cases head
  | evictLocal victims touch element =>
      cases victims with
      | nil => cases head
      | cons victim others =>
          cases head
          exact Or.inl ⟨others, touch, element, rfl, rfl, rfl⟩
  | beforeGlobal element => cases head
  | evictGlobal victims touch =>
      cases victims with
      | nil => cases head
      | cons victim others =>
          cases head
          exact Or.inr ⟨others, touch, rfl, rfl, rfl⟩

theorem of_quota
    (head : phase.tasks localPolicy globalPolicy =
      .quota policy touch :: rest) :
    (∃ touched, phase = .evictLocal [] touch touched ∧
        rest = (beforeGlobal touched).tasks localPolicy globalPolicy) ∨
      phase = .evictGlobal [] touch ∧
        rest = idle.tasks localPolicy globalPolicy := by
  cases phase with
  | idle => cases head
  | beforeLocal element => cases head
  | evictLocal victims touch element =>
      cases victims with
      | nil =>
          cases head
          exact Or.inl ⟨element, rfl, rfl⟩
      | cons victim others => cases head
  | beforeGlobal element => cases head
  | evictGlobal victims touch =>
      cases victims with
      | nil =>
          cases head
          exact Or.inr ⟨rfl, rfl⟩
      | cons victim others => cases head

/-- A thread with evictions to do makes one next. -/
theorem evicts (some : phase.victims ≠ []) :
    ∃ source victim rest,
      phase.tasks localPolicy globalPolicy = .evict source victim :: rest := by
  cases phase with
  | idle => exact absurd rfl some
  | beforeLocal element => exact absurd rfl some
  | beforeGlobal element => exact absurd rfl some
  | evictLocal victims touch element | evictGlobal victims touch =>
      cases victims with
      | nil => exact absurd rfl some
      | cons victim others => exact ⟨_, _, _, rfl⟩

/-- A thread that is between its two touches with no eviction to do looks at the
quota of the local policy next, or touches the global one. -/
theorem between (half : phase.halfNotified ≠ []) (none : phase.victims = []) :
    (∃ touch rest, phase.tasks localPolicy globalPolicy =
        .quota localPolicy touch :: rest) ∨
      ∃ element rest, phase.tasks localPolicy globalPolicy =
        .notify globalPolicy element :: rest := by
  cases phase with
  | idle => exact absurd rfl half
  | beforeLocal element => exact absurd rfl half
  | evictLocal victims touch element =>
      cases victims with
      | nil => exact Or.inl ⟨_, _, rfl⟩
      | cons victim others => cases none
  | beforeGlobal element => exact Or.inr ⟨_, _, rfl⟩
  | evictGlobal victims touch => exact absurd rfl half

/-! ### Phases of several threads -/

variable {T : Type} (part : Phase M → List (ListElement M)) (phases : T → Phase M)

/-- Some thread has the segment in this part of its phase. -/
def Somewhere (element : ListElement M) : Prop :=
  ∃ thread, element ∈ part (phases thread)

/-- Some other thread has the segment in this part of its phase. -/
def Elsewhere (thread : T) (element : ListElement M) : Prop :=
  ∃ other, other ≠ thread ∧ element ∈ part (phases other)

theorem somewhere_iff [DecidableEq T] (thread : T) (element : ListElement M) :
    Somewhere part phases element ↔
      element ∈ part (phases thread) ∨
        Elsewhere part phases thread element := by
  constructor
  · rintro ⟨other, member⟩
    by_cases same : other = thread
    · subst same
      exact Or.inl member
    · exact Or.inr ⟨other, same, member⟩
  · rintro (own | ⟨other, _, member⟩)
    · exact ⟨thread, own⟩
    · exact ⟨other, member⟩

theorem somewhere_update [DecidableEq T] (thread : T) (phase : Phase M)
    (element : ListElement M) :
    Somewhere part (Function.update phases thread phase) element ↔
      element ∈ part phase ∨ Elsewhere part phases thread element := by
  rw [somewhere_iff part _ thread, Function.update_self]
  refine or_congr_right (exists_congr fun other => and_congr_right ?_)
  intro different
  rw [Function.update_of_ne different]

variable {phases}

theorem not_elsewhere {thread : T}
    (nothing : ∀ other, other ≠ thread → part (phases other) = [])
    (element : ListElement M) :
    ¬Elsewhere part phases thread element := by
  rintro ⟨other, different, member⟩
  rw [nothing other different] at member
  cases member

end Phase

/-! ## Agreement of two lists -/

section Agree

open Phase (Somewhere Elsewhere)

variable {M T : Type}

/-- The two lists agree up to what the threads have yet to do.  A thread with
evictions to do has no other thread beside it that has some, or that is between
its two touches. -/
structure Agree
    (localRing globalRing : List (ListElement M))
    (phases : T → Phase M) : Prop where
  both : ∀ element,
    element ∈ localRing ∨ Somewhere Phase.localVictims phases element ↔
      element ∈ globalRing ∨ Somewhere Phase.globalVictims phases element ∨
        Somewhere Phase.halfNotified phases element
  exclusive : ∀ thread, (phases thread).victims ≠ [] →
    ∀ other, other ≠ thread →
      (phases other).victims = [] ∧ (phases other).halfNotified = []
  localGone : ∀ thread, ∀ element ∈ (phases thread).localVictims,
    element ∉ localRing ∧ element ∉ (phases thread).halfNotified
  globalGone : ∀ thread, ∀ element ∈ (phases thread).globalVictims,
    element ∉ globalRing
  nodup : ∀ thread, (phases thread).victims.Nodup

variable {localRing globalRing ring : List (ListElement M)} {phases : T → Phase M}
variable {thread : T}

theorem Agree.initial : Agree [] [] fun _ : T => (Phase.idle : Phase M) where
  both := by
    intro element
    simp [Somewhere, Phase.localVictims, Phase.globalVictims,
      Phase.halfNotified]
  exclusive := fun _ some => absurd rfl some
  localGone := fun _ _ absurdity => nomatch absurdity
  globalGone := fun _ _ absurdity => nomatch absurdity
  nodup := fun _ => List.nodup_nil

variable [DecidableEq T]

/-- A thread that changes phase with the same pending evictions and the same
half-notified segment. -/
theorem Agree.change
    (agree : Agree localRing globalRing phases)
    (phase : Phase M)
    (localSame : phase.localVictims = (phases thread).localVictims)
    (globalSame : phase.globalVictims = (phases thread).globalVictims)
    (halfSame : phase.halfNotified = (phases thread).halfNotified) :
    Agree localRing globalRing (Function.update phases thread phase) := by
  have same {part : Phase M → List (ListElement M)}
      (equal : part phase = part (phases thread))
      (other : T) :
      part (Function.update phases thread phase other) =
        part (phases other) := by
    by_cases own : other = thread
    · rw [own, Function.update_self, equal]
    · rw [Function.update_of_ne own]
  have victimsSame : phase.victims = (phases thread).victims := by
    unfold Phase.victims
    rw [localSame, globalSame]
  refine ⟨?_, ?_, ?_, ?_, ?_⟩
  · intro element
    unfold Somewhere
    simp only [same localSame, same globalSame, same halfSame]
    exact agree.both element
  · intro other
    simp only [same victimsSame, same halfSame]
    exact agree.exclusive other
  · intro other
    rw [same localSame, same halfSame]
    exact agree.localGone other
  · intro other
    rw [same globalSame]
    exact agree.globalGone other
  · intro other
    rw [same victimsSame]
    exact agree.nodup other

/-- What the agreement says when at most one thread has evictions to do. -/
theorem Agree.alone
    (agree : Agree localRing globalRing phases)
    (noVictims : ∀ other, other ≠ thread → (phases other).victims = [])
    (element : ListElement M) :
    element ∈ localRing ∨ element ∈ (phases thread).localVictims ↔
      element ∈ globalRing ∨ element ∈ (phases thread).globalVictims ∨
        element ∈ (phases thread).halfNotified ∨
        Elsewhere Phase.halfNotified phases thread element := by
  have noLocal := Phase.not_elsewhere Phase.localVictims
    (fun other different =>
      (List.append_eq_nil_iff.mp (noVictims other different)).1) element
  have noGlobal := Phase.not_elsewhere Phase.globalVictims
    (fun other different =>
      (List.append_eq_nil_iff.mp (noVictims other different)).2) element
  have both := agree.both element
  rw [Phase.somewhere_iff Phase.localVictims phases thread,
    Phase.somewhere_iff Phase.globalVictims phases thread,
    Phase.somewhere_iff Phase.halfNotified phases thread,
    or_iff_left noLocal, or_iff_left noGlobal] at both
  exact both

/-- The agreement after a step of the only thread that has evictions to do. -/
theorem Agree.of_alone (phase : Phase M)
    (noVictims : ∀ other, other ≠ thread → (phases other).victims = [])
    (both : ∀ element,
      element ∈ localRing ∨ element ∈ phase.localVictims ↔
        element ∈ globalRing ∨ element ∈ phase.globalVictims ∨
          element ∈ phase.halfNotified ∨
          Elsewhere Phase.halfNotified phases thread element)
    (exclusive : phase.victims ≠ [] →
      ∀ other, other ≠ thread → (phases other).halfNotified = [])
    (localGone : ∀ element ∈ phase.localVictims,
      element ∉ localRing ∧ element ∉ phase.halfNotified)
    (globalGone : ∀ element ∈ phase.globalVictims, element ∉ globalRing)
    (nodup : phase.victims.Nodup) :
    Agree localRing globalRing (Function.update phases thread phase) := by
  have parts {other : T} (different : other ≠ thread) :=
    List.append_eq_nil_iff.mp (noVictims other different)
  refine ⟨?_, ?_, ?_, ?_, ?_⟩
  · intro element
    have noLocal := Phase.not_elsewhere Phase.localVictims
      (fun other different => (parts different).1) element
    have noGlobal := Phase.not_elsewhere Phase.globalVictims
      (fun other different => (parts different).2) element
    rw [Phase.somewhere_update, Phase.somewhere_update, Phase.somewhere_update,
      or_iff_left noLocal, or_iff_left noGlobal]
    exact both element
  · intro first some other different
    by_cases own : first = thread
    · subst own
      rw [Function.update_self] at some
      rw [Function.update_of_ne different]
      exact ⟨noVictims other different, exclusive some other different⟩
    · rw [Function.update_of_ne own, noVictims first own] at some
      exact absurd rfl some
  · intro other
    by_cases own : other = thread
    · rw [own, Function.update_self]
      exact localGone
    · rw [Function.update_of_ne own, (parts own).1]
      exact fun _ absurdity => nomatch absurdity
  · intro other
    by_cases own : other = thread
    · rw [own, Function.update_self]
      exact globalGone
    · rw [Function.update_of_ne own, (parts own).2]
      exact fun _ absurdity => nomatch absurdity
  · intro other
    by_cases own : other = thread
    · rw [own, Function.update_self]
      exact nodup
    · rw [Function.update_of_ne own, noVictims other own]
      exact List.nodup_nil

variable {touched : ListElement M} {touch : Touch M}

theorem Agree.touchLocal
    (agree : Agree localRing globalRing phases)
    (current : phases thread = .beforeLocal touched)
    (noVictims : ∀ other, other ≠ thread → (phases other).victims = [])
    (exclusive : touch.idsToEvict ≠ [] →
      ∀ other, other ≠ thread → (phases other).halfNotified = [])
    (listed : ∀ element, element ∈ ring ∨ element ∈ touch.idsToEvict ↔
      element ∈ [touched] ∨ element ∈ localRing)
    (unlisted : ∀ element ∈ touch.idsToEvict, element ∉ ring)
    (nodup : touch.idsToEvict.Nodup)
    (keeps : touched ∉ touch.idsToEvict) :
    Agree ring globalRing (Function.update phases thread
      (.evictLocal touch.idsToEvict touch touched)) := by
  have victims : (Phase.evictLocal touch.idsToEvict touch touched).victims =
      touch.idsToEvict := List.append_nil _
  refine Agree.of_alone _ noVictims ?_ ?_ ?_ ?_ ?_
  · intro element
    have before := agree.alone noVictims element
    have after := listed element
    rw [current] at before
    simp only [Phase.localVictims, Phase.globalVictims, Phase.halfNotified,
      List.not_mem_nil, or_false, false_or] at before ⊢
    rw [after, before]
    exact or_left_comm
  · rw [victims]
    exact exclusive
  · intro element member
    refine ⟨unlisted element member, ?_⟩
    intro same
    obtain rfl := List.mem_singleton.mp same
    exact keeps member
  · exact fun _ absurdity => nomatch absurdity
  · rw [victims]
    exact nodup

theorem Agree.touchGlobal
    (agree : Agree localRing globalRing phases)
    (current : phases thread = .beforeGlobal touched)
    (noVictims : ∀ other, other ≠ thread → (phases other).victims = [])
    (exclusive : touch.idsToEvict ≠ [] →
      ∀ other, other ≠ thread → (phases other).halfNotified = [])
    (listed : ∀ element, element ∈ ring ∨ element ∈ touch.idsToEvict ↔
      element ∈ [touched] ∨ element ∈ globalRing)
    (unlisted : ∀ element ∈ touch.idsToEvict, element ∉ ring)
    (nodup : touch.idsToEvict.Nodup) :
    Agree localRing ring (Function.update phases thread
      (.evictGlobal touch.idsToEvict touch)) := by
  refine Agree.of_alone _ noVictims ?_ exclusive ?_ unlisted nodup
  · intro element
    have before := agree.alone noVictims element
    have after := listed element
    rw [current] at before
    simp only [Phase.localVictims, Phase.globalVictims, Phase.halfNotified,
      List.not_mem_nil, or_false, false_or] at before ⊢
    rw [before, ← or_assoc, ← or_assoc, after]
    exact or_congr_left Or.comm
  · exact fun _ absurdity => nomatch absurdity

variable {victim : ListElement M} {others : List (ListElement M)}

/-- An eviction that the local policy ordered: the segment is in the global
list. -/
theorem Agree.evictLocal
    (agree : Agree localRing globalRing phases)
    (current : phases thread = .evictLocal (victim :: others) touch touched) :
    victim ∈ globalRing ∧
      ∀ ring : List (ListElement M),
        (∀ element, element ∈ ring ∨ element ∈ [victim] ↔
          element ∈ [] ∨ element ∈ globalRing) →
        (∀ element ∈ [victim], element ∉ ring) →
        Agree localRing ring (Function.update phases thread
          (.evictLocal others touch touched)) := by
  have exclusive := agree.exclusive thread (by
    rw [current]
    exact List.cons_ne_nil _ _)
  have noVictims (other : T) (different : other ≠ thread) :=
    (exclusive other different).1
  have nobody := Phase.not_elsewhere Phase.halfNotified fun other different =>
    (exclusive other different).2
  have gone := agree.localGone thread
  have nodup := agree.nodup thread
  have before := agree.alone noVictims
  rw [current] at gone nodup before
  simp only [Phase.localVictims, Phase.globalVictims, Phase.halfNotified,
    Phase.victims, List.append_nil, List.nodup_cons, List.not_mem_nil,
    List.mem_singleton, nobody, or_false, false_or] at gone nodup before
  have victimGone := gone victim List.mem_cons_self
  have listed : victim ∈ globalRing :=
    ((before victim).mp (Or.inr List.mem_cons_self)).resolve_right victimGone.2
  refine ⟨listed, ?_⟩
  intro ring removed unlisted
  refine Agree.of_alone _ noVictims ?_ ?_ ?_ ?_ ?_
  · intro element
    have old := before element
    have new := removed element
    simp only [Phase.localVictims, Phase.globalVictims, Phase.halfNotified,
      List.not_mem_nil, nobody, or_false, false_or, List.mem_cons] at old new ⊢
    by_cases same : element = victim
    · subst same
      have out := unlisted element List.mem_cons_self
      simp [victimGone, nodup.1, out]
    · simp only [same, or_false, false_or] at old new
      rw [old, new]
  · exact fun _ other different => (exclusive other different).2
  · intro element member
    have pending := gone element (List.mem_cons_of_mem _ member)
    exact ⟨pending.1, by simpa [Phase.halfNotified] using pending.2⟩
  · exact fun _ absurdity => nomatch absurdity
  · change (others ++ []).Nodup
    rw [List.append_nil]
    exact nodup.2

/-- An eviction that the global policy ordered: the segment is in the local
list. -/
theorem Agree.evictGlobal
    (agree : Agree localRing globalRing phases)
    (current : phases thread = .evictGlobal (victim :: others) touch) :
    victim ∈ localRing ∧
      ∀ ring : List (ListElement M),
        (∀ element, element ∈ ring ∨ element ∈ [victim] ↔
          element ∈ [] ∨ element ∈ localRing) →
        (∀ element ∈ [victim], element ∉ ring) →
        Agree ring globalRing (Function.update phases thread
          (.evictGlobal others touch)) := by
  have exclusive := agree.exclusive thread (by
    rw [current]
    exact List.cons_ne_nil _ _)
  have noVictims (other : T) (different : other ≠ thread) :=
    (exclusive other different).1
  have nobody := Phase.not_elsewhere Phase.halfNotified fun other different =>
    (exclusive other different).2
  have gone := agree.globalGone thread
  have nodup := agree.nodup thread
  have before := agree.alone noVictims
  rw [current] at gone nodup before
  simp only [Phase.localVictims, Phase.globalVictims, Phase.halfNotified,
    Phase.victims, List.nil_append, List.nodup_cons, List.not_mem_nil,
    nobody, or_false] at gone nodup before
  have victimGone := gone victim List.mem_cons_self
  refine ⟨(before victim).mpr (Or.inr List.mem_cons_self), ?_⟩
  intro ring removed unlisted
  refine Agree.of_alone _ noVictims ?_ ?_ ?_ ?_ ?_
  · intro element
    have old := before element
    have new := removed element
    simp only [Phase.localVictims, Phase.globalVictims, Phase.halfNotified,
      List.not_mem_nil, nobody, or_false, false_or, List.mem_cons] at old new ⊢
    by_cases same : element = victim
    · subst same
      have out := unlisted element List.mem_cons_self
      simp [victimGone, nodup.1, out]
    · simp only [same, or_false, false_or] at old new
      rw [new, old]
  · exact fun _ other different => (exclusive other different).2
  · exact fun _ absurdity => nomatch absurdity
  · exact fun element member => gone element (List.mem_cons_of_mem _ member)
  · exact nodup.2

end Agree

end UmmapIo
