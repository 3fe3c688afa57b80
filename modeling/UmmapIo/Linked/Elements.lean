import UmmapIo.Lib.Rings
import UmmapIo.Lib.Transition

/-!
# List elements

The public operations of `common/ListElement.cpp` on any set of elements.  The
elements are constructed alone; afterwards they are inserted beside one another,
removed and popped in any order.  The pointers always form rings, and every
operation changes the rings as its name says.
-/

namespace UmmapIo

/-- A call of an operation of a list element that changes pointers. -/
inductive ElementCall (A : Type) : Type
  | insertAfter (receiver element : A)
  | insertBefore (receiver element : A)
  | removeFromList (receiver : A)
  | popNext (receiver : A)
  | popPrev (receiver : A)
  deriving DecidableEq

namespace ElementCall

variable {A : Type}

/-- The elements after all constructors. -/
def constructed : Links A where
  next := id
  prev := id

variable [DecidableEq A]

omit [DecidableEq A] in
/-- The pointer that a pop returns; nothing is written when it is NULL. -/
def popped (links : Links A) : Option (A × Links A) → Option A × Links A
  | none => (none, links)
  | some (element, after) => (some element, after)

/-- The pointer that a call returns, if it is not NULL, and the pointers of the
elements afterwards. -/
def perform (links : Links A) : ElementCall A → Option A × Links A
  | .insertAfter receiver element => (none, links.insertAfter receiver element)
  | .insertBefore receiver element => (none, links.insertBefore receiver element)
  | .removeFromList receiver => (none, links.removeFromList receiver)
  | .popNext receiver => popped links (links.popNext receiver)
  | .popPrev receiver => popped links (links.popPrev receiver)

/-- The assertion of the insertions. -/
def Asserts (links : Links A) : ElementCall A → Prop
  | .insertAfter _ element => links.isAlone element = true
  | .insertBefore _ element => links.isAlone element = true
  | .removeFromList _ => True
  | .popNext _ => True
  | .popPrev _ => True

/-- The pointers after any sequence of calls. -/
abbrev Reached (links : Links A) : Prop :=
  ReachableBy (fun links call => some (perform links call).2) Asserts constructed
    links

omit [DecidableEq A] in
/-- What a call means for the rings of the elements, and what it returns. -/
inductive Rearranges (rings : Set (Cycle A)) :
    ElementCall A → Option A → Set (Cycle A) → Prop
  | insertAfterItself (receiver : A) :
      Rearranges rings (.insertAfter receiver receiver) none rings
  | insertAfter {receiver element : A} {rest : List A} (different : element ≠ receiver)
      (alone : ↑[element] ∈ rings) (ring : ↑(receiver :: rest) ∈ rings) :
      Rearranges rings (.insertAfter receiver element) none
        (rings \ {↑[element], ↑(receiver :: rest)} ∪
          {↑(receiver :: element :: rest)})
  | insertBeforeItself (receiver : A) :
      Rearranges rings (.insertBefore receiver receiver) none rings
  | insertBefore {receiver element : A} {rest : List A} (different : element ≠ receiver)
      (alone : ↑[element] ∈ rings) (ring : ↑(receiver :: rest) ∈ rings) :
      Rearranges rings (.insertBefore receiver element) none
        (rings \ {↑[element], ↑(receiver :: rest)} ∪
          {↑(element :: receiver :: rest)})
  | removeAlone {receiver : A} (alone : ↑[receiver] ∈ rings) :
      Rearranges rings (.removeFromList receiver) none rings
  | removeFromList {receiver other : A} {rest : List A}
      (ring : ↑(receiver :: other :: rest) ∈ rings) :
      Rearranges rings (.removeFromList receiver) none
        (rings \ {↑(receiver :: other :: rest)} ∪
          {↑[receiver], ↑(other :: rest)})
  | popNextAlone {receiver : A} (alone : ↑[receiver] ∈ rings) :
      Rearranges rings (.popNext receiver) none rings
  | popNext {receiver next : A} {rest : List A}
      (ring : ↑(receiver :: next :: rest) ∈ rings) :
      Rearranges rings (.popNext receiver) (some next)
        (rings \ {↑(receiver :: next :: rest)} ∪
          {↑[next], ↑(receiver :: rest)})
  | popPrevAlone {receiver : A} (alone : ↑[receiver] ∈ rings) :
      Rearranges rings (.popPrev receiver) none rings
  | popPrev {receiver prev : A} {rest : List A}
      (ring : ↑(prev :: receiver :: rest) ∈ rings) :
      Rearranges rings (.popPrev receiver) (some prev)
        (rings \ {↑(prev :: receiver :: rest)} ∪
          {↑[prev], ↑(receiver :: rest)})

variable {links : Links A} {receiver : A}

omit [DecidableEq A] in
/-- The elements are in rings, which have changed as the call says. -/
def Rearranged (links : Links A) (call : ElementCall A)
    (result : Option A × Links A) : Prop :=
  result.2.Partitioned ∧
    Rearranges links.rings call result.1 result.2.rings

section

variable (partitioned : links.Partitioned)
include partitioned

theorem rearranged_insertAfter {element : A} (alone : links.isAlone element = true) :
    Rearranged links (.insertAfter receiver element)
      (none, links.insertAfter receiver element) := by
  by_cases different : element = receiver
  · subst different
    rw [Links.insertAfter_self alone]
    exact ⟨partitioned, .insertAfterItself element⟩
  · obtain ⟨rest, ring, kept, rings⟩ := partitioned.insertAfter alone different
    refine ⟨kept, ?_⟩
    rw [rings]
    exact .insertAfter different (Links.isAlone_iff_mem_rings.mp alone) ring

theorem rearranged_insertBefore {element : A} (alone : links.isAlone element = true) :
    Rearranged links (.insertBefore receiver element)
      (none, links.insertBefore receiver element) := by
  by_cases different : element = receiver
  · subst different
    rw [Links.insertBefore_self alone]
    exact ⟨partitioned, .insertBeforeItself element⟩
  · obtain ⟨rest, ring, kept, rings⟩ := partitioned.insertBefore alone different
    refine ⟨kept, ?_⟩
    rw [rings]
    exact .insertBefore different (Links.isAlone_iff_mem_rings.mp alone) ring

theorem rearranged_removeFromList :
    Rearranged links (.removeFromList receiver)
      (none, links.removeFromList receiver) := by
  by_cases alone : links.isAlone receiver = true
  · rw [Links.removeFromList_of_isAlone alone]
    exact ⟨partitioned, .removeAlone (Links.isAlone_iff_mem_rings.mp alone)⟩
  · obtain ⟨other, rest, ring⟩ := partitioned.exists_other alone
    have step := Rearranges.removeFromList ring
    rw [Cycle.coe_cons_eq_coe_append (other :: rest) receiver] at ring step
    obtain ⟨kept, rings⟩ := partitioned.remove ring
    refine ⟨kept, ?_⟩
    rw [rings, List.append_nil]
    exact step

theorem rearranged_popNext :
    Rearranged links (.popNext receiver) (popped links (links.popNext receiver)) := by
  unfold Links.popNext
  by_cases alone : links.isAlone receiver = true
  · rw [if_pos alone]
    exact ⟨partitioned, .popNextAlone (Links.isAlone_iff_mem_rings.mp alone)⟩
  · obtain ⟨next, rest, ring⟩ := partitioned.exists_other alone
    rw [if_neg alone, Links.next_of_mem_rings ring]
    have split : (↑(receiver :: ([] ++ next :: rest)) : Cycle A) ∈ links.rings :=
      ring
    obtain ⟨kept, rings⟩ := partitioned.remove split
    refine ⟨kept, ?_⟩
    change Rearranges links.rings _ _ (links.removeFromList next).rings
    rw [rings]
    exact .popNext ring

theorem rearranged_popPrev :
    Rearranged links (.popPrev receiver) (popped links (links.popPrev receiver)) := by
  unfold Links.popPrev
  by_cases alone : links.isAlone receiver = true
  · rw [if_pos alone]
    exact ⟨partitioned, .popPrevAlone (Links.isAlone_iff_mem_rings.mp alone)⟩
  · obtain ⟨prev, rest, ring⟩ := partitioned.exists_before alone
    rw [if_neg alone, Links.prev_of_mem_rings ring]
    have step := Rearranges.popPrev ring
    rw [Cycle.coe_cons_eq_coe_append (receiver :: rest) prev] at ring step
    obtain ⟨kept, rings⟩ := partitioned.remove ring
    refine ⟨kept, ?_⟩
    change Rearranges links.rings _ _ (links.removeFromList prev).rings
    rw [rings, List.append_nil]
    exact step

/-- One call keeps the rings and does to them what it should. -/
theorem rearranged_perform (call : ElementCall A) (asserts : Asserts links call) :
    Rearranged links call (perform links call) := by
  cases call with
  | insertAfter receiver element => exact rearranged_insertAfter partitioned asserts
  | insertBefore receiver element =>
      exact rearranged_insertBefore partitioned asserts
  | removeFromList receiver => exact rearranged_removeFromList partitioned
  | popNext receiver => exact rearranged_popNext partitioned
  | popPrev receiver => exact rearranged_popPrev partitioned

end

/-- The elements are in rings after any sequence of calls. -/
theorem Reached.partitioned (reached : Reached links) : links.Partitioned := by
  refine ReachableBy.invariant Links.Partitioned ?_ ?_ reached
  · intro cell
    refine ⟨↑[cell], Links.isAlone_iff_mem_rings.mp ?_, List.mem_cons_self⟩
    exact Links.isAlone_iff.mpr ⟨rfl, rfl⟩
  · intro before after call partitioned asserts moved
    cases moved
    exact (rearranged_perform partitioned call asserts).1

/-- After any sequence of calls the elements are partitioned into rings, in which
the two pointers lead back and forth, and the next call changes the rings as its
name says. -/
theorem list_elements_form_rings (links : Links A) (reached : Reached links) :
    (∀ element, ∃! ring, ring ∈ links.rings ∧ element ∈ ring) ∧
      (∀ element, links.next (links.prev element) = element ∧
        links.prev (links.next element) = element) ∧
      (∀ element, links.isInList element = !links.isAlone element) ∧
      (∀ element, links.isAlone element = true ↔ ↑[element] ∈ links.rings) ∧
      ∀ call, Asserts links call →
        Rearranges links.rings call (perform links call).1
          (perform links call).2.rings := by
  have partitioned := reached.partitioned
  exact ⟨partitioned.existsUnique, partitioned.inverse, partitioned.isInList_eq,
    fun element => Links.isAlone_iff_mem_rings,
    fun call asserts => (rearranged_perform partitioned call asserts).2⟩

/-- Two elements in one ring, from which one is popped. -/
theorem list_elements_form_rings_of_pair :
    let pair : Links Bool := constructed.insertAfter false true
    Reached pair ∧ (∃! ring, ring ∈ pair.rings ∧ true ∈ ring) ∧
      (perform pair (.popNext false)).1 = some true ∧
      Rearranges pair.rings (.popNext false) (some true)
        (perform pair (.popNext false)).2.rings := by
  have reached : Reached (constructed.insertAfter false true) :=
    ReachableBy.initial.step (.insertAfter false true)
      (Links.isAlone_iff.mpr ⟨rfl, rfl⟩) rfl
  have rings := list_elements_form_rings _ reached
  exact ⟨reached, rings.1 true, by decide, rings.2.2.2.2 (.popNext false) trivial⟩

end ElementCall

end UmmapIo
