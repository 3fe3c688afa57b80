import Mathlib.Data.List.Chain
import Mathlib.Data.List.Nodup
import Mathlib.Tactic.Simps.Basic

/-!
# Doubly linked rings

Cells that hold a pointer to the next and one to the previous cell.  A cell that
points to itself in both directions is alone.  A ring is read backwards from a
root: the list of the cells found by following the previous pointers until the
root comes again.  Insertion beside the root and removal of any cell are the
expected operations on that list, and leave all other cells alone.  With the
pointers exchanged, the same ring is read forwards.
-/

namespace UmmapIo

/-- The pointers of all cells. -/
@[ext] structure Links (A : Type) where
  /-- Pointer to the next cell. -/
  next : A → A
  /-- Pointer to the previous cell. -/
  prev : A → A

namespace Links

variable {A : Type} [DecidableEq A] (links : Links A)

/-! ## Operations -/

/-- Write the next pointer of a cell. -/
@[simps] def setNext (cell target : A) : Links A :=
  { links with next := Function.update links.next cell target }

/-- Write the previous pointer of a cell. -/
@[simps] def setPrev (cell target : A) : Links A :=
  { links with prev := Function.update links.prev cell target }

/-- The cell is in no ring. -/
def isAlone (cell : A) : Bool :=
  decide (links.next cell = cell) && decide (links.prev cell = cell)

/-- The cell is in a ring. -/
def isInList (cell : A) : Bool :=
  decide (links.next cell ≠ cell) && decide (links.prev cell ≠ cell)

/-- Take the cell out of its ring. -/
def removeFromList (cell : A) : Links A :=
  let links := links.setPrev (links.next cell) (links.prev cell)
  let links := links.setNext (links.prev cell) (links.next cell)
  (links.setPrev cell cell).setNext cell cell

/-- Put a cell behind another one. -/
def insertAfter (cell element : A) : Links A :=
  let links := links.setNext element (links.next cell)
  let links := links.setPrev element cell
  let links := links.setPrev (links.next cell) element
  links.setNext cell element

/-- Put a cell in front of another one. -/
def insertBefore (cell element : A) : Links A :=
  let links := links.setPrev element (links.prev cell)
  let links := links.setNext element cell
  let links := links.setNext (links.prev cell) element
  links.setPrev cell element

/-- Take the next cell out of the ring. -/
def popNext (cell : A) : Option (A × Links A) :=
  if links.isAlone cell then none
  else some (links.next cell, links.removeFromList (links.next cell))

/-- Take the previous cell out of the ring. -/
def popPrev (cell : A) : Option (A × Links A) :=
  if links.isAlone cell then none
  else some (links.prev cell, links.removeFromList (links.prev cell))

/-! ## Cells that are alone -/

variable {links} {cell other root element : A} {elements : List A}

theorem isAlone_iff :
    links.isAlone cell = true ↔ links.next cell = cell ∧ links.prev cell = cell := by
  unfold isAlone
  rw [Bool.and_eq_true, decide_eq_true_eq, decide_eq_true_eq]

theorem isInList_iff :
    links.isInList cell = true ↔
      links.next cell ≠ cell ∧ links.prev cell ≠ cell := by
  unfold isInList
  rw [Bool.and_eq_true, decide_eq_true_eq, decide_eq_true_eq]

/-- The pointers of a cell are as before. -/
def SameAt (before after : Links A) (cell : A) : Prop :=
  after.next cell = before.next cell ∧ after.prev cell = before.prev cell

theorem removeFromList_prev (cell : A) :
    (links.removeFromList cell).prev =
      Function.update (Function.update links.prev (links.next cell)
        (links.prev cell)) cell cell := rfl

theorem removeFromList_next (cell : A) :
    (links.removeFromList cell).next =
      Function.update (Function.update links.next (links.prev cell)
        (links.next cell)) cell cell := by
  have own : Function.update links.prev (links.next cell) (links.prev cell) cell =
      links.prev cell := by
    rw [Function.update_apply]
    split <;> rfl
  change Function.update (Function.update links.next
    (Function.update links.prev (links.next cell) (links.prev cell) cell)
      (links.next cell)) cell cell = _
  rw [own]

theorem isAlone_removeFromList (cell : A) :
    (links.removeFromList cell).isAlone cell = true := by
  rw [isAlone_iff, removeFromList_prev, removeFromList_next]
  exact ⟨Function.update_self .., Function.update_self ..⟩

/-- Taking out a cell that is alone changes nothing. -/
theorem removeFromList_of_isAlone (alone : links.isAlone cell = true) :
    links.removeFromList cell = links := by
  obtain ⟨next, prev⟩ := isAlone_iff.mp alone
  refine Links.ext ?_ ?_
  · rw [removeFromList_next, prev, next, Function.update_idem,
      Function.update_eq_self_iff]
    exact next.symm
  · rw [removeFromList_prev, prev, next, Function.update_idem,
      Function.update_eq_self_iff]
    exact prev.symm

theorem insertAfter_next (cell element : A) :
    (links.insertAfter cell element).next =
      Function.update (Function.update links.next element (links.next cell))
        cell element := rfl

theorem insertAfter_prev (different : element ≠ cell) :
    (links.insertAfter cell element).prev =
      Function.update (Function.update links.prev element cell)
        (links.next cell) element := by
  change Function.update (Function.update links.prev element cell)
    (Function.update links.next element (links.next cell) cell) element = _
  rw [Function.update_of_ne different.symm]

/-! ## Reading in the other direction -/

/-- The same cells with the two pointers exchanged. -/
@[simps] def mirror (links : Links A) : Links A where
  next := links.prev
  prev := links.next

/-- Nothing changes when a cell that is alone is put behind itself. -/
theorem insertAfter_self (alone : links.isAlone cell = true) :
    links.insertAfter cell cell = links := by
  obtain ⟨next, prev⟩ := isAlone_iff.mp alone
  refine Links.ext ?_ ?_
  · rw [insertAfter_next, next, Function.update_idem,
      Function.update_eq_self_iff]
    exact next.symm
  · change Function.update (Function.update links.prev cell cell)
      (Function.update links.next cell (links.next cell) cell) cell = links.prev
    rw [Function.update_self, next, Function.update_idem,
      Function.update_eq_self_iff]
    exact prev.symm

theorem isAlone_mirror (cell : A) :
    links.mirror.isAlone cell = links.isAlone cell :=
  Bool.and_comm ..

theorem mirror_removeFromList (cell : A) :
    (links.removeFromList cell).mirror = links.mirror.removeFromList cell := by
  refine Links.ext ?_ ?_
  · rw [removeFromList_next]
    rfl
  · rw [removeFromList_prev]
    exact removeFromList_next cell

theorem insertBefore_self (alone : links.isAlone cell = true) :
    links.insertBefore cell cell = links := by
  have mirrored := insertAfter_self ((isAlone_mirror cell).trans alone)
  exact congrArg mirror mirrored

/-! ## Rings -/

/-- The second cell comes before the first one. -/
def Linked (links : Links A) (cell before : A) : Prop :=
  links.prev cell = before ∧ links.next before = cell

/-- The cells met on the way backwards from the root to the root. -/
structure Ring (links : Links A) (root : A) (elements : List A) : Prop where
  nodup : (root :: elements).Nodup
  chain : (root :: elements ++ [root]).IsChain links.Linked

variable {after : Links A} {cells : List A}

omit [DecidableEq A] in
/-- A chain only depends on the previous pointers of all cells but the last one and
on the next pointers of all cells but the first one. -/
theorem isChain_congr (chain : cells.IsChain links.Linked)
    (prevs : ∀ cell ∈ cells.dropLast, after.prev cell = links.prev cell)
    (nexts : ∀ cell ∈ cells.tail, after.next cell = links.next cell) :
    cells.IsChain after.Linked := by
  rw [List.isChain_iff_forall_rel_of_append_cons_cons] at chain ⊢
  intro cell before left right split
  obtain ⟨prev, next⟩ := chain split
  have source : cell ∈ cells.dropLast := by
    rw [split, List.dropLast_append_of_ne_nil (List.cons_ne_nil _ _)]
    simp
  have target : before ∈ cells.tail := by
    rw [split]
    cases left <;> simp
  exact ⟨(prevs cell source).trans prev, (nexts before target).trans next⟩

omit [DecidableEq A] in
/-- A ring only depends on the pointers of its cells. -/
theorem Ring.congr (ring : links.Ring root elements)
    (same : ∀ cell ∈ root :: elements, SameAt links after cell) :
    after.Ring root elements := by
  refine ⟨ring.nodup, isChain_congr ring.chain ?_ ?_⟩
  · intro cell member
    rw [List.dropLast_concat] at member
    exact (same cell member).2
  · intro cell member
    refine (same cell ?_).1
    simpa [or_comm] using member

/-- The root is alone when the ring is empty. -/
theorem Ring.isAlone_root (ring : links.Ring root elements) :
    links.isAlone root = true ↔ elements = [] := by
  cases elements with
  | nil =>
      obtain ⟨prev, next⟩ := List.isChain_pair.mp ring.chain
      exact ⟨fun _ => rfl, fun _ => isAlone_iff.mpr ⟨next, prev⟩⟩
  | cons first rest =>
      have first' := (List.isChain_cons_cons.mp ring.chain).1
      have different : first ≠ root := by
        rintro rfl
        exact (List.nodup_cons.mp ring.nodup).1 List.mem_cons_self
      refine ⟨fun alone => ?_, fun absurdity => nomatch absurdity⟩
      exact absurd (first'.1.symm.trans (isAlone_iff.mp alone).2) different

variable {left right : List A}

omit [DecidableEq A] in
/-- The ring can be read from each of its cells. -/
theorem Ring.rotate
    (ring : links.Ring root (left ++ element :: right)) :
    links.Ring element (right ++ root :: left) := by
  have split (first second : A) (front back : List A) :
      first :: (front ++ second :: back) ++ [first] =
        (first :: front) ++ second :: (back ++ [first]) := by
    simp
  have chain := ring.chain
  rw [split, List.isChain_split] at chain
  have nodup : (root :: left ++ element :: right).Nodup := ring.nodup
  refine ⟨List.nodup_append_comm.mp nodup, ?_⟩
  rw [split, List.isChain_split]
  exact ⟨chain.2, chain.1⟩

variable {init tail : List A}

omit [DecidableEq A] in
/-- A chain without repetitions does not depend on the next pointer of its first cell
and on the previous pointer of its last one. -/
theorem isChain_of_ends {first last : A} (nodup : cells.Nodup)
    (front : cells = first :: tail) (back : cells = init ++ [last])
    (chain : cells.IsChain links.Linked)
    (prevs : ∀ cell ∈ cells, cell ≠ last → after.prev cell = links.prev cell)
    (nexts : ∀ cell ∈ cells, cell ≠ first → after.next cell = links.next cell) :
    cells.IsChain after.Linked := by
  refine isChain_congr chain (fun cell member => prevs cell ?_ ?_)
    fun cell member => nexts cell (List.mem_of_mem_tail member) ?_
  · exact List.dropLast_subset _ member
  · rw [back, List.dropLast_concat] at member
    rw [back] at nodup
    exact (List.nodup_append.mp nodup).2.2 cell member last List.mem_cons_self
  · rintro rfl
    rw [front, List.tail_cons] at member
    rw [front] at nodup
    exact (List.nodup_cons.mp nodup).1 member

/-- Removal of the cell from which the ring is read. -/
theorem Ring.removeRoot {newer older : A}
    (ring : links.Ring element (older :: tail))
    (back : older :: tail = init ++ [newer]) :
    (links.removeFromList element).Ring older tail ∧
      links.isInList element = true ∧
      ∀ other ∉ element :: older :: tail,
        SameAt links (links.removeFromList element) other := by
  obtain ⟨⟨prev, _⟩, chain⟩ := List.isChain_cons_cons.mp ring.chain
  change (older :: tail ++ [element]).IsChain links.Linked at chain
  rw [back, List.append_assoc, List.singleton_append, List.isChain_append_cons_cons,
    ← back] at chain
  obtain ⟨chain, ⟨_, next⟩, _⟩ := chain
  obtain ⟨notListed, nodup⟩ := List.nodup_cons.mp ring.nodup
  have own {cell : A} (member : cell ∈ older :: tail) : cell ≠ element :=
    fun same => notListed (same ▸ member)
  have newerMember : newer ∈ older :: tail := by
    rw [back]
    exact List.mem_append_right _ List.mem_cons_self
  have prevs {cell : A} (own : cell ≠ element) (other : cell ≠ newer) :
      (links.removeFromList element).prev cell = links.prev cell := by
    rw [removeFromList_prev, Function.update_of_ne own, next,
      Function.update_of_ne other]
  have nexts {cell : A} (own : cell ≠ element) (other : cell ≠ older) :
      (links.removeFromList element).next cell = links.next cell := by
    rw [removeFromList_next, Function.update_of_ne own, prev,
      Function.update_of_ne other]
  refine ⟨⟨nodup, ?_⟩, ?_, ?_⟩
  · rw [back, List.append_assoc, List.singleton_append, List.isChain_append_cons_cons,
      ← back]
    refine ⟨isChain_of_ends nodup rfl back chain (fun _ member => prevs (own member))
      fun _ member => nexts (own member), ⟨?_, ?_⟩, .singleton older⟩
    · rw [removeFromList_prev, Function.update_of_ne (own newerMember), next,
        Function.update_self, prev]
    · rw [removeFromList_next, Function.update_of_ne (own List.mem_cons_self), prev,
        Function.update_self, next]
  · rw [isInList_iff, next, prev]
    exact ⟨own newerMember, own List.mem_cons_self⟩
  · intro other outside
    have notElement := List.ne_of_not_mem_cons outside
    have apart := List.not_mem_of_not_mem_cons outside
    exact ⟨nexts notElement (List.ne_of_not_mem_cons apart),
      prevs notElement fun same => apart (same ▸ newerMember)⟩

/-- Removal of a cell between two parts of the ring. -/
theorem Ring.remove
    (ring : links.Ring root (left ++ element :: right)) :
    (links.removeFromList element).Ring root (left ++ right) ∧
      links.isInList element = true ∧
      ∀ other ∉ root :: (left ++ element :: right),
        SameAt links (links.removeFromList element) other := by
  have outside {other : A} (absent : other ∉ root :: (left ++ element :: right)) :
      other ∉ element :: (right ++ root :: left) := by
    simpa [and_comm, and_assoc, and_left_comm] using absent
  obtain absurdity | ⟨init, newer, back⟩ := (right ++ root :: left).eq_nil_or_concat
  · simp at absurdity
  rw [List.concat_eq_append] at back
  cases right with
  | nil =>
      obtain ⟨removed, listed, same⟩ := Ring.removeRoot ring.rotate back
      rw [List.append_nil]
      exact ⟨removed, listed, fun other absent => same other (outside absent)⟩
  | cons older right =>
      obtain ⟨removed, listed, same⟩ := Ring.removeRoot ring.rotate back
      exact ⟨removed.rotate, listed, fun other absent => same other (outside absent)⟩

/-- The cells of the ring other than the root are in a list. -/
theorem Ring.isInList (ring : links.Ring root elements) (member : element ∈ elements) :
    links.isInList element = true := by
  obtain ⟨left, right, rfl⟩ := List.append_of_mem member
  exact ring.remove.2.1

/-- A cell behind the root is the last one on the way backwards. -/
theorem Ring.insertAfter (ring : links.Ring root elements)
    (fresh : element ∉ root :: elements) :
    (links.insertAfter root element).Ring root (elements ++ [element]) ∧
      ∀ other ∉ element :: root :: elements,
        SameAt links (links.insertAfter root element) other := by
  have notRoot := List.ne_of_not_mem_cons fresh
  obtain absurdity | ⟨init, oldest, back⟩ := (root :: elements).eq_nil_or_concat
  · cases absurdity
  rw [List.concat_eq_append] at back
  have oldestMember : oldest ∈ root :: elements := by
    rw [back]
    exact List.mem_append_right _ List.mem_cons_self
  have chain := ring.chain
  rw [back, List.append_assoc, List.singleton_append,
    List.isChain_append_cons_cons, ← back] at chain
  obtain ⟨chain, ⟨_, next⟩, _⟩ := chain
  have own {cell : A} (member : cell ∈ root :: elements) : cell ≠ element :=
    fun same => fresh (same ▸ member)
  have prevs {cell : A} (own : cell ≠ element) (other : cell ≠ oldest) :
      (links.insertAfter root element).prev cell = links.prev cell := by
    rw [insertAfter_prev notRoot, next, Function.update_of_ne other,
      Function.update_of_ne own]
  have nexts {cell : A} (own : cell ≠ element) (other : cell ≠ root) :
      (links.insertAfter root element).next cell = links.next cell := by
    rw [insertAfter_next, Function.update_of_ne other, Function.update_of_ne own]
  have rooted :
      (links.insertAfter root element).Ring element ([] ++ root :: elements) := by
    refine ⟨List.nodup_cons.mpr ⟨fresh, ring.nodup⟩,
      List.isChain_cons_cons.mpr ⟨⟨?_, ?_⟩, ?_⟩⟩
    · rw [insertAfter_prev notRoot, next,
        Function.update_of_ne (own oldestMember).symm, Function.update_self]
    · rw [insertAfter_next, Function.update_self]
    · change (root :: elements ++ [element]).IsChain _
      rw [back, List.append_assoc, List.singleton_append,
        List.isChain_append_cons_cons, ← back]
      refine ⟨isChain_of_ends ring.nodup rfl back chain
        (fun _ member => prevs (own member)) fun _ member => nexts (own member),
        ⟨?_, ?_⟩, .singleton element⟩
      · rw [insertAfter_prev notRoot, next, Function.update_self]
      · rw [insertAfter_next, Function.update_of_ne notRoot, Function.update_self, next]
  refine ⟨rooted.rotate, fun other outside => ?_⟩
  have notElement := List.ne_of_not_mem_cons outside
  have apart := List.not_mem_of_not_mem_cons outside
  exact ⟨nexts notElement (List.ne_of_not_mem_cons apart),
    prevs notElement fun same => apart (same ▸ oldestMember)⟩

omit [DecidableEq A] in
theorem Ring.mirror (ring : links.Ring root elements) :
    links.mirror.Ring root elements.reverse := by
  refine ⟨?_, ?_⟩
  · rw [← List.nodup_reverse, List.reverse_cons, List.reverse_reverse,
      ← List.concat_eq_append]
    have nodup := List.nodup_cons.mp ring.nodup
    exact nodup.2.concat nodup.1
  · have whole : root :: elements.reverse ++ [root] =
        (root :: elements ++ [root]).reverse := by
      simp
    rw [whole, List.isChain_reverse]
    exact ring.chain.imp fun _ _ linked => ⟨linked.2, linked.1⟩

/-- A cell before the root is the first one on the way backwards. -/
theorem Ring.insertBefore (ring : links.Ring root elements)
    (fresh : element ∉ root :: elements) :
    (links.insertBefore root element).Ring root (element :: elements) ∧
      ∀ other ∉ element :: root :: elements,
        SameAt links (links.insertBefore root element) other := by
  have freshMirror : element ∉ root :: elements.reverse := by
    rw [List.mem_cons, List.mem_reverse, ← List.mem_cons]
    exact fresh
  obtain ⟨inserted, same⟩ := ring.mirror.insertAfter freshMirror
  refine ⟨?_, ?_⟩
  · have read := inserted.mirror
    rw [List.reverse_append, List.reverse_reverse] at read
    exact read
  · intro other outside
    have kept := same other (by simpa using outside)
    exact ⟨kept.2, kept.1⟩

/-! ## Rings behind a root -/

/-- Backwards from the root `none` the pointers lead through the elements of the
list; all other elements are alone. -/
structure RingOf {E : Type} [DecidableEq E] (links : Links (Option E))
    (ring : List E) : Prop where
  read : links.Ring none (ring.map some)
  others : ∀ element ∉ ring, links.isAlone (some element) = true

namespace RingOf

variable {E : Type} [DecidableEq E] {links after : Links (Option E)} {ring : List E}
variable {element : E} (ringOf : links.RingOf ring)
include ringOf

theorem nodup : ring.Nodup :=
  (List.nodup_cons.mp ringOf.read.nodup).2.of_map some

theorem isAlone_iff_notMem : links.isAlone (some element) = true ↔ element ∉ ring := by
  refine ⟨fun alone listed => ?_, ringOf.others element⟩
  have inside := ringOf.read.isInList (List.mem_map_of_mem listed)
  exact (isInList_iff.mp inside).1 (isAlone_iff.mp alone).1

theorem alone_of_same (absent : element ∉ ring)
    (same : SameAt links after (some element)) :
    after.isAlone (some element) = true := by
  obtain ⟨next, prev⟩ := isAlone_iff.mp (ringOf.others element absent)
  exact isAlone_iff.mpr ⟨same.1.trans next, same.2.trans prev⟩

theorem removeFromList [BEq E] [LawfulBEq E] (element : E) :
    (links.removeFromList (some element)).RingOf (ring.erase element) := by
  by_cases listed : element ∈ ring
  · obtain ⟨left, right, rfl⟩ := List.append_of_mem listed
    have absent : element ∉ left := fun member =>
      (List.nodup_append.mp ringOf.nodup).2.2 element member element
        List.mem_cons_self rfl
    have read := ringOf.read
    rw [List.map_append, List.map_cons] at read
    obtain ⟨removed, _, same⟩ := read.remove
    rw [List.erase_append_right _ absent, List.erase_cons_head]
    refine ⟨by rwa [List.map_append], fun other outside => ?_⟩
    by_cases own : other = element
    · rw [own]
      exact isAlone_removeFromList _
    · refine ringOf.alone_of_same ?_ (same _ ?_) <;> simpa [own] using outside
  · rw [removeFromList_of_isAlone (ringOf.others element listed),
      List.erase_of_not_mem listed]
    exact ringOf

theorem popPrev {rest : List E} (first : ring = element :: rest) :
    links.popPrev none = some (some element, links.removeFromList (some element)) ∧
      (links.removeFromList (some element)).RingOf rest := by
  subst first
  have removed := ringOf.removeFromList element
  rw [List.erase_cons_head] at removed
  have listed : ¬links.isAlone none = true := by
    rw [ringOf.read.isAlone_root]
    exact List.cons_ne_nil _ _
  unfold Links.popPrev
  rw [if_neg listed, (List.isChain_cons_cons.mp ringOf.read.chain).1.1]
  exact ⟨rfl, removed⟩

variable (absent : element ∉ ring)
include absent

theorem insertAfter :
    (links.insertAfter none (some element)).RingOf (ring ++ [element]) := by
  have fresh : some element ∉ none :: ring.map some := by simpa using absent
  obtain ⟨inserted, same⟩ := ringOf.read.insertAfter fresh
  refine ⟨by rwa [List.map_append], fun other outside => ?_⟩
  refine ringOf.alone_of_same ?_ (same _ ?_) <;> simp_all

theorem insertBefore :
    (links.insertBefore none (some element)).RingOf (element :: ring) := by
  have fresh : some element ∉ none :: ring.map some := by simpa using absent
  obtain ⟨inserted, same⟩ := ringOf.read.insertBefore fresh
  refine ⟨inserted, fun other outside => ?_⟩
  refine ringOf.alone_of_same ?_ (same _ ?_) <;> simp_all

end RingOf

end Links

end UmmapIo
