import UmmapIo.Lib.Ring
import Mathlib.Data.List.Cycle

/-!
# All rings of a memory

Lists up to rotation say how the cells of a ring follow one another.  When every
cell lies in a ring, the rings are a partition of the cells: two rings with a
common cell are equal.  An operation that only writes to the cells of some rings
replaces these rings and keeps all others.
-/

namespace UmmapIo
namespace Links

variable {A : Type} {links : Links A} {cell element : A} {cells : List A}

/-- The second cell comes after the first one. -/
def Follows (links : Links A) (cell after : A) : Prop :=
  links.next cell = after ∧ links.prev after = cell

/-- The rings, read forwards. -/
def rings (links : Links A) : Set (Cycle A) :=
  {ring | ring ≠ Cycle.nil ∧ ring.Nodup ∧ ring.Chain links.Follows}

/-- Every cell lies in a ring. -/
def Partitioned (links : Links A) : Prop :=
  ∀ cell, ∃ ring ∈ links.rings, cell ∈ ring

theorem coe_cons_mem_rings :
    (↑(cell :: cells) : Cycle A) ∈ links.rings ↔ links.mirror.Ring cell cells := by
  constructor
  · rintro ⟨_, nodup, chain⟩
    exact ⟨nodup, (Cycle.chain_coe_cons ..).mp chain⟩
  · intro ring
    refine ⟨?_, ring.nodup, (Cycle.chain_coe_cons ..).mpr ring.chain⟩
    rw [ne_eq, Cycle.coe_eq_nil]
    exact List.cons_ne_nil cell cells

theorem exists_mem_of_mem_rings {ring : Cycle A} (isRing : ring ∈ links.rings) :
    ∃ cell, cell ∈ ring := by
  induction ring using Quotient.inductionOn' with
  | h list =>
      cases list with
      | nil => exact absurd rfl isRing.1
      | cons cell cells => exact ⟨cell, List.mem_cons_self⟩

theorem exists_coe_cons_of_mem {ring : Cycle A} (member : cell ∈ ring) :
    ∃ cells, ring = ↑(cell :: cells) := by
  induction ring using Quotient.inductionOn' with
  | h list =>
      have listed : cell ∈ list := member
      obtain ⟨left, right, rfl⟩ := List.append_of_mem listed
      refine ⟨right ++ left, Cycle.coe_eq_coe.mpr ?_⟩
      rw [← List.cons_append]
      exact List.isRotated_append

/-- Only one list of cells leads from a cell to another one for the first
time. -/
theorem isChain_unique {start stop : A} {others : List A}
    (chain : (start :: cells ++ [stop]).IsChain links.Linked)
    (otherChain : (start :: others ++ [stop]).IsChain links.Linked)
    (apart : stop ∉ cells) (otherApart : stop ∉ others) :
    cells = others := by
  induction cells generalizing start others with
  | nil =>
      have first := (List.isChain_pair.mp chain).1
      cases others with
      | nil => rfl
      | cons other rest =>
          have second := (List.isChain_cons_cons.mp otherChain).1.1
          rw [first.symm.trans second] at otherApart
          exact absurd List.mem_cons_self otherApart
  | cons head tail inductionHypothesis =>
      obtain ⟨first, chain⟩ := List.isChain_cons_cons.mp chain
      cases others with
      | nil =>
          have second := (List.isChain_pair.mp otherChain).1
          rw [second.symm.trans first.1] at apart
          exact absurd List.mem_cons_self apart
      | cons other rest =>
          obtain ⟨second, otherChain⟩ := List.isChain_cons_cons.mp otherChain
          obtain rfl : head = other := first.1.symm.trans second.1
          rw [inductionHypothesis chain otherChain (List.not_mem_of_not_mem_cons apart)
            (List.not_mem_of_not_mem_cons otherApart)]

theorem Ring.unique {root : A} {others : List A} (ring : links.Ring root cells)
    (other : links.Ring root others) :
    cells = others :=
  isChain_unique ring.chain other.chain (List.nodup_cons.mp ring.nodup).1
    (List.nodup_cons.mp other.nodup).1

/-- Two rings with a common cell are equal. -/
theorem rings_unique {ring other : Cycle A} (isRing : ring ∈ links.rings)
    (otherRing : other ∈ links.rings) (member : cell ∈ ring)
    (otherMember : cell ∈ other) :
    ring = other := by
  obtain ⟨cells, rfl⟩ := exists_coe_cons_of_mem member
  obtain ⟨others, rfl⟩ := exists_coe_cons_of_mem otherMember
  rw [(coe_cons_mem_rings.mp isRing).unique (coe_cons_mem_rings.mp otherRing)]

namespace Partitioned

theorem existsUnique (partitioned : links.Partitioned) (cell : A) :
    ∃! ring, ring ∈ links.rings ∧ cell ∈ ring := by
  obtain ⟨ring, isRing, member⟩ := partitioned cell
  refine ⟨ring, ⟨isRing, member⟩, ?_⟩
  rintro other ⟨otherRing, otherMember⟩
  exact rings_unique otherRing isRing otherMember member

theorem exists_ring (partitioned : links.Partitioned) (cell : A) :
    ∃ cells, links.mirror.Ring cell cells := by
  obtain ⟨ring, isRing, member⟩ := partitioned cell
  obtain ⟨cells, rfl⟩ := exists_coe_cons_of_mem member
  exact ⟨cells, coe_cons_mem_rings.mp isRing⟩

end Partitioned

/-- The pointers of the next cell lead back. -/
theorem Ring.next_prev {root : A} (ring : links.Ring root cells) :
    links.next (links.prev root) = root := by
  have chain := ring.chain
  cases cells with
  | nil =>
      obtain ⟨prev, next⟩ := List.isChain_pair.mp chain
      rw [prev, next]
  | cons first rest =>
      obtain ⟨prev, next⟩ := (List.isChain_cons_cons.mp chain).1
      rw [prev, next]

theorem Partitioned.inverse (partitioned : links.Partitioned) (cell : A) :
    links.next (links.prev cell) = cell ∧ links.prev (links.next cell) = cell := by
  obtain ⟨cells, ring⟩ := partitioned.exists_ring cell
  exact ⟨ring.mirror.next_prev, ring.next_prev⟩

theorem next_of_mem_rings {rest : List A}
    (isRing : (↑(cell :: element :: rest) : Cycle A) ∈ links.rings) :
    links.next cell = element :=
  (List.isChain_cons_cons.mp (coe_cons_mem_rings.mp isRing).chain).1.1

theorem prev_of_mem_rings {rest : List A}
    (isRing : (↑(cell :: element :: rest) : Cycle A) ∈ links.rings) :
    links.prev element = cell :=
  (List.isChain_cons_cons.mp (coe_cons_mem_rings.mp isRing).chain).1.2

/-- Rings that were written to are replaced, all others are kept. -/
theorem Partitioned.replace {after : Links A} {old new : Set (Cycle A)}
    (partitioned : links.Partitioned) (oldRings : old ⊆ links.rings)
    (newRings : new ⊆ after.rings)
    (covers : ∀ cell, (∃ ring ∈ old, cell ∈ ring) → ∃ ring ∈ new, cell ∈ ring)
    (same : ∀ cell, (∀ ring ∈ old, cell ∉ ring) → SameAt links after cell) :
    after.Partitioned ∧ after.rings = links.rings \ old ∪ new := by
  have kept : links.rings \ old ∪ new ⊆ after.rings := by
    rintro ring (⟨isRing, other⟩ | fresh)
    · obtain ⟨cell, member⟩ := exists_mem_of_mem_rings isRing
      obtain ⟨cells, rfl⟩ := exists_coe_cons_of_mem member
      rw [coe_cons_mem_rings] at isRing ⊢
      refine isRing.congr fun cell member => ?_
      have unwritten : ∀ ring ∈ old, cell ∉ ring := by
        intro ring written found
        have equal := rings_unique (oldRings written)
          (coe_cons_mem_rings.mpr isRing) found (Cycle.mem_coe_iff.mpr member)
        exact other (equal ▸ written)
      exact ⟨(same cell unwritten).2, (same cell unwritten).1⟩
    · exact newRings fresh
  have covered (cell : A) : ∃ ring ∈ links.rings \ old ∪ new, cell ∈ ring := by
    obtain ⟨ring, isRing, member⟩ := partitioned cell
    by_cases written : ring ∈ old
    · obtain ⟨fresh, isFresh, member⟩ := covers cell ⟨ring, written, member⟩
      exact ⟨fresh, Or.inr isFresh, member⟩
    · exact ⟨ring, Or.inl ⟨isRing, written⟩, member⟩
  refine ⟨?_, Set.Subset.antisymm ?_ kept⟩
  · intro cell
    obtain ⟨ring, isRing, member⟩ := covered cell
    exact ⟨ring, kept isRing, member⟩
  · intro ring isRing
    obtain ⟨cell, member⟩ := exists_mem_of_mem_rings isRing
    obtain ⟨other, isOther, otherMember⟩ := covered cell
    rw [rings_unique isRing (kept isOther) member otherMember]
    exact isOther

/-! ## Cells that are alone -/

section Operations

variable [DecidableEq A]

theorem isAlone_iff_mem_rings :
    links.isAlone cell = true ↔ (↑[cell] : Cycle A) ∈ links.rings := by
  rw [coe_cons_mem_rings, ← isAlone_mirror]
  constructor
  · intro alone
    obtain ⟨next, prev⟩ := isAlone_iff.mp alone
    exact ⟨List.nodup_singleton cell, List.isChain_pair.mpr ⟨prev, next⟩⟩
  · intro ring
    exact ring.isAlone_root.mpr rfl

theorem Partitioned.isInList_eq (partitioned : links.Partitioned) (cell : A) :
    links.isInList cell = !links.isAlone cell := by
  obtain ⟨back, forth⟩ := partitioned.inverse cell
  have both : links.next cell = cell ↔ links.prev cell = cell := by
    constructor
    · intro next
      rw [next] at forth
      exact forth
    · intro prev
      rw [prev] at back
      exact back
  unfold isInList isAlone
  by_cases next : links.next cell = cell
  · simp [next, both.mp next]
  · have prev : ¬links.prev cell = cell := fun prev => next (both.mpr prev)
    simp [next, prev]

/-- The ring of a cell does not hold another cell that is alone. -/
theorem Ring.notMem_of_isAlone (ring : links.Ring cell cells)
    (alone : links.isAlone element = true) (different : element ≠ cell) :
    element ∉ cell :: cells := by
  intro member
  obtain same | inside := List.mem_cons.mp member
  · exact different same
  · have listed := isInList_iff.mp (ring.isInList inside)
    exact listed.1 (isAlone_iff.mp alone).1

/-! ## Operations on the rings -/

section

variable (partitioned : links.Partitioned)
include partitioned

/-- A cell that is alone joins a ring. -/
theorem Partitioned.join {after : Links A} {rest joined : List A}
    (alone : links.isAlone element = true) (ring : links.mirror.Ring cell rest)
    (inserted : after.mirror.Ring cell joined)
    (members : ∀ other ∈ element :: rest, other ∈ joined)
    (same : ∀ other ∉ element :: cell :: rest,
      SameAt links.mirror after.mirror other) :
    after.Partitioned ∧
      after.rings = links.rings \ {↑[element], ↑(cell :: rest)} ∪
        {↑(cell :: joined)} := by
  refine partitioned.replace ?_ ?_ ?_ ?_
  · rintro written (rfl | rfl)
    · exact isAlone_iff_mem_rings.mp alone
    · exact coe_cons_mem_rings.mpr ring
  · rintro written rfl
    exact coe_cons_mem_rings.mpr inserted
  · rintro other ⟨written, rfl | rfl, member⟩
    · obtain rfl := List.mem_singleton.mp member
      exact ⟨_, rfl, List.mem_cons_of_mem _ (members other List.mem_cons_self)⟩
    · refine ⟨_, rfl, ?_⟩
      obtain rfl | inside := List.mem_cons.mp member
      · exact List.mem_cons_self
      · exact List.mem_cons_of_mem _
          (members other (List.mem_cons_of_mem _ inside))
  · intro other outside
    have apart : other ∉ element :: cell :: rest := by
      rw [List.mem_cons, not_or]
      refine ⟨?_, fun member => outside _ (Or.inr rfl) member⟩
      rintro rfl
      exact outside _ (Or.inl rfl) List.mem_cons_self
    exact ⟨(same other apart).2, (same other apart).1⟩

/-- The cell comes directly after the one it was inserted behind. -/
theorem Partitioned.insertAfter (alone : links.isAlone element = true)
    (different : element ≠ cell) :
    ∃ rest, (↑(cell :: rest) : Cycle A) ∈ links.rings ∧
      (links.insertAfter cell element).Partitioned ∧
      (links.insertAfter cell element).rings =
        links.rings \ {↑[element], ↑(cell :: rest)} ∪
          {↑(cell :: element :: rest)} := by
  obtain ⟨rest, ring⟩ := partitioned.exists_ring cell
  have fresh := ring.notMem_of_isAlone ((isAlone_mirror element).trans alone) different
  obtain ⟨inserted, same⟩ := ring.insertBefore fresh
  exact ⟨rest, coe_cons_mem_rings.mpr ring,
    partitioned.join alone ring inserted (fun _ member => member) same⟩

/-- The cell comes directly before the one it was inserted in front of. -/
theorem Partitioned.insertBefore (alone : links.isAlone element = true)
    (different : element ≠ cell) :
    ∃ rest, (↑(cell :: rest) : Cycle A) ∈ links.rings ∧
      (links.insertBefore cell element).Partitioned ∧
      (links.insertBefore cell element).rings =
        links.rings \ {↑[element], ↑(cell :: rest)} ∪
          {↑(element :: cell :: rest)} := by
  obtain ⟨rest, ring⟩ := partitioned.exists_ring cell
  have fresh := ring.notMem_of_isAlone ((isAlone_mirror element).trans alone) different
  obtain ⟨inserted, same⟩ := ring.insertAfter fresh
  have members : ∀ other ∈ element :: rest, other ∈ rest ++ [element] := by
    intro other member
    simpa [or_comm] using member
  refine ⟨rest, coe_cons_mem_rings.mpr ring, ?_⟩
  rw [Cycle.coe_cons_eq_coe_append (cell :: rest) element]
  exact partitioned.join alone ring inserted members same

/-- The cell is alone, and the order of the others in its ring is as before. -/
theorem Partitioned.remove {left right : List A}
    (isRing : (↑(cell :: (left ++ element :: right)) : Cycle A) ∈ links.rings) :
    (links.removeFromList element).Partitioned ∧
      (links.removeFromList element).rings =
        links.rings \ {↑(cell :: (left ++ element :: right))} ∪
          {↑[element], ↑(cell :: (left ++ right))} := by
  have ring := coe_cons_mem_rings.mp isRing
  obtain ⟨removed, _, same⟩ := ring.remove
  rw [← mirror_removeFromList] at removed same
  refine partitioned.replace ?_ ?_ ?_ ?_
  · rintro written rfl
    exact isRing
  · rintro written (rfl | rfl)
    · exact isAlone_iff_mem_rings.mp (isAlone_removeFromList element)
    · exact coe_cons_mem_rings.mpr removed
  · rintro other ⟨written, rfl, member⟩
    by_cases own : other = element
    · exact ⟨_, Or.inl rfl, List.mem_singleton.mpr own⟩
    · refine ⟨_, Or.inr rfl, ?_⟩
      rw [Cycle.mem_coe_iff] at member ⊢
      simpa [own] using member
  · intro other outside
    have kept := same other (outside _ rfl)
    exact ⟨kept.2, kept.1⟩

/-- The ring of a cell that is not alone has another cell. -/
theorem Partitioned.exists_other (inList : ¬links.isAlone cell = true) :
    ∃ other rest, (↑(cell :: other :: rest) : Cycle A) ∈ links.rings := by
  obtain ⟨cells, ring⟩ := partitioned.exists_ring cell
  cases cells with
  | nil =>
      rw [← coe_cons_mem_rings, ← isAlone_iff_mem_rings] at ring
      exact absurd ring inList
  | cons other rest => exact ⟨other, rest, coe_cons_mem_rings.mpr ring⟩

theorem Partitioned.exists_before (inList : ¬links.isAlone cell = true) :
    ∃ other rest, (↑(other :: cell :: rest) : Cycle A) ∈ links.rings := by
  obtain ⟨other, rest, ring⟩ := partitioned.exists_other inList
  obtain absurdity | ⟨front, last, split⟩ := (other :: rest).eq_nil_or_concat
  · cases absurdity
  · refine ⟨last, front, ?_⟩
    rw [split, List.concat_eq_append] at ring
    rw [Cycle.coe_cons_eq_coe_append (cell :: front) last]
    exact ring

end

end Operations

end Links
end UmmapIo
