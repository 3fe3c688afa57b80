import UmmapIo.Linked.Elements
import UmmapIo.Mixed.Calls

/-!
# The rings of the policies

A FIFO or LIFO policy keeps its segments in a ring of list elements behind a root.
What its critical sections do to this ring is a sequence of calls on list elements.
The list in the model of the policy is the one that the pointers form, the tests on
elements are tests on that list, and the elements popped are those to be evicted.
-/

namespace UmmapIo

/-! ## Sequences of calls -/

namespace ElementCall

variable {A : Type} [DecidableEq A]

/-- The calls one after the other, all asserted, with the elements they return. -/
inductive Performs : Links A → List (ElementCall A) → List A → Links A → Prop
  | nil (links : Links A) : Performs links [] [] links
  | cons {links middle after : Links A} {call : ElementCall A} {element : Option A}
      {rest : List (ElementCall A)} {returned : List A}
      (asserts : Asserts links call)
      (performed : perform links call = (element, middle))
      (later : Performs middle rest returned after) :
      Performs links (call :: rest) (element.toList ++ returned) after

variable {links middle after : Links A} {calls others : List (ElementCall A)}
variable {returned returned' : List A}

theorem Performs.single {call : ElementCall A} (asserts : Asserts links call) :
    Performs links [call] (perform links call).1.toList (perform links call).2 := by
  rw [← List.append_nil (perform links call).1.toList]
  exact .cons asserts rfl (.nil _)

theorem Performs.append
    (first : Performs links calls returned middle)
    (second : Performs middle others returned' after) :
    Performs links (calls ++ others) (returned ++ returned') after := by
  induction first with
  | nil => exact second
  | cons asserts performed _ inductionHypothesis =>
      rw [List.append_assoc]
      exact .cons asserts performed (inductionHypothesis second)

theorem Performs.reached (performs : Performs links calls returned after)
    (reached : Reached links) :
    Reached after := by
  induction performs with
  | nil => exact reached
  | cons asserts performed _ inductionHypothesis =>
      refine inductionHypothesis (reached.step _ asserts ?_)
      rw [performed]

end ElementCall

open ElementCall (Performs)

/-! ## Pointers that form a list -/

namespace Links.RingOf

variable {E : Type} [DecidableEq E] {links : Links (Option E)} {ring rest : List E}

theorem constructed : (ElementCall.constructed (A := Option E)).RingOf [] :=
  ⟨⟨List.nodup_singleton none, List.isChain_pair.mpr ⟨rfl, rfl⟩⟩,
    fun _ _ => isAlone_iff.mpr ⟨rfl, rfl⟩⟩

/-- The calls of a loop that takes elements from the front of the list. -/
theorem popAll (taken : List E) (ringOf : links.RingOf (taken ++ rest)) :
    ∃ after, Performs links (List.replicate taken.length (.popPrev none))
        (taken.map some) after ∧ after.RingOf rest := by
  induction taken generalizing links with
  | nil => exact ⟨links, .nil links, ringOf⟩
  | cons first taken inductionHypothesis =>
      obtain ⟨pops, removed⟩ := ringOf.popPrev rfl
      obtain ⟨after, performs, ringOf⟩ := inductionHypothesis removed
      have step : Performs links (.popPrev none :: _)
          ((some (some first)).toList ++ _) after :=
        .cons trivial (congrArg (ElementCall.popped links) pops) performs
      exact ⟨after, step, ringOf⟩

/-- The calls of a loop that takes given elements out of the list. -/
theorem removeAll [BEq E] [LawfulBEq E] (ringOf : links.RingOf ring) (elements : List E) :
    ∃ after, Performs links
        (elements.map fun element => .removeFromList (some element)) [] after ∧
      after.RingOf (elements.foldl List.erase ring) := by
  induction elements generalizing links ring with
  | nil => exact ⟨links, .nil links, ringOf⟩
  | cons first rest inductionHypothesis =>
      obtain ⟨after, performs, removed⟩ :=
        inductionHypothesis (ringOf.removeFromList first)
      have step : Performs links (.removeFromList (some first) :: _)
          (none.toList ++ []) after :=
        .cons trivial rfl performs
      exact ⟨after, step, removed⟩

end Links.RingOf

/-! ## Critical sections -/

variable {M Q : Type}

namespace Policy

variable [DecidableEq M] {mappings : M → Mapping} {ndebug : Bool}
variable {policy after : Policy M Q} {idsToEvict : List (ListElement M)}

/-- The calls on list elements in the critical section of a call that takes so many
segments to evict out of the ring. -/
def elementCalls (mappings : M → Mapping) (kind : PolicyKind) (evictions : Nat) :
    PolicyCall M Q → List (ElementCall (Option (ListElement M)))
  | .notifyTouch mapping index =>
      match kind with
      | .fifo =>
          [.removeFromList (some (mapping, index)),
            .insertAfter none (some (mapping, index))] ++
            List.replicate evictions (.popPrev none)
      | .lifo =>
          [.removeFromList (some (mapping, index))] ++
            List.replicate evictions (.popPrev none) ++
              [.insertBefore none (some (mapping, index))]
  | .notifyEvict mapping index => [.removeFromList (some (mapping, index))]
  | .shrinkMemory => List.replicate evictions (.popPrev none)
  | .freeElementStorage mapping =>
      (List.range (mappings mapping).segments).map fun index =>
        .removeFromList (some (mapping, index))
  | _ => []

theorem storage_eq {mapping storage : M}
    (registered : mapping ∈ policy.storageRegistry)
    (found : policy.getStorageInfo ndebug mapping = .ok storage) :
    storage = mapping := by
  have serves := serves_of_getStorageInfo registered found
  exact Except.ok.inj (found.symm.trans (getStorageInfo_of_serves serves ndebug))

/-- The loop takes the segments to evict from the front of the ring. -/
theorem evictLoop_ring {cntIdsToEvict : Nat} {ring : List (ListElement M)}
    (ends : evictLoop mappings cntIdsToEvict ring policy = .ok (idsToEvict, after)) :
    ring = idsToEvict ++ after.ring := by
  induction ring generalizing cntIdsToEvict policy idsToEvict with
  | nil =>
      unfold evictLoop at ends
      split at ends <;> cases ends
      rfl
  | cons toEvict rest inductionHypothesis =>
      unfold evictLoop at ends
      split at ends
      · cases ends
        rfl
      · obtain ⟨mapping, found, ends⟩ := Fallible.bind_eq_ok.mp ends
        split at ends
        · obtain ⟨⟨later, looped⟩, loops, same⟩ := Fallible.bind_eq_ok.mp ends
          cases same
          unfold getStorageInfoOfEntry at found
          split at found <;> cases found
          rw [List.cons_append, ← inductionHypothesis loops]
        · cases ends

theorem freeElements_ring (segmentSize : Nat) (storage : M) (indices : List Nat)
    (policy : Policy M Q) :
    (indices.foldl (fun current index =>
        current.freeElement segmentSize (storage, index)) policy).ring =
      (indices.map (storage, ·)).foldl List.erase policy.ring := by
  induction indices generalizing policy with
  | nil => rfl
  | cons index rest inductionHypothesis => exact inductionHypothesis _

/-- The critical section of a touch. -/
theorem ringOf_notifyTouch {links : Links (Option (ListElement M))} {cur : ListElement M}
    {touch : Touch M}
    (ringOf : links.RingOf policy.ring)
    (registered : cur.1 ∈ policy.storageRegistry)
    (touches : policy.notifyTouch mappings ndebug cur.1 cur.2 = .ok (touch, after)) :
    ∃ final, Performs links (elementCalls (Q := Q) mappings policy.kind
        touch.idsToEvict.length (.notifyTouch cur.1 cur.2))
        (touch.idsToEvict.map some) final ∧
      final.RingOf after.ring := by
  have serves := serves_of_notifyTouch registered touches
  have removed := ringOf.removeFromList cur
  have absent : cur ∉ policy.ring.erase cur := ringOf.nodup.not_mem_erase
  have removes : Performs links [.removeFromList (some cur)] [] _ := .single trivial
  unfold Policy.notifyTouch at touches
  unfold elementCalls
  cases kind : policy.kind with
  | fifo =>
      rw [kind] at touches
      obtain ⟨⟨_, looped⟩, loops, same⟩ :=
        Fallible.map_eq_ok.mp ((fifo_notifyTouch_eq serves rfl).symm.trans touches)
      cases same
      have inserts : Performs (links.removeFromList (some cur))
          [.insertAfter none (some cur)] [] _ :=
        .single (removed.others cur absent)
      obtain ⟨final, pops, popped⟩ :=
        Links.RingOf.popAll _ (evictLoop_ring loops ▸ removed.insertAfter absent)
      exact ⟨final, (removes.append inserts).append pops, popped⟩
  | lifo =>
      rw [kind] at touches
      obtain ⟨⟨_, looped⟩, loops, same⟩ :=
        Fallible.map_eq_ok.mp ((lifo_notifyTouch_eq serves rfl).symm.trans touches)
      cases same
      obtain ⟨middle, pops, popped⟩ :=
        Links.RingOf.popAll _ (evictLoop_ring loops ▸ removed)
      have gone : cur ∉ looped.ring := by
        rw [evictLoop_ring loops] at absent
        exact fun member => absent (List.mem_append_right _ member)
      have inserts : Performs middle [.insertBefore none (some cur)] [] _ :=
        .single (popped.others cur gone)
      have all := (removes.append pops).append inserts
      rw [List.append_nil] at all
      exact ⟨_, all, popped.insertBefore gone⟩

end Policy

namespace PolicyObject

open Policy

variable [DecidableEq M] {mappings : M → Mapping} {ndebug : Bool}
variable {policy : Policy M Q} {after : PolicyObject M Q}
variable {links : Links (Option (ListElement M))} {idsToEvict : List (ListElement M)}

/-- The list after a call is what the pointers form after the calls of its section. -/
theorem ringOf_call {request : PolicyCall M Q} (ringOf : links.RingOf policy.ring)
    (balanced : policy.Balanced mappings)
    (admitted : (plain policy).Admits mappings request)
    (returns : (plain policy).call mappings ndebug request = .ok (idsToEvict, after)) :
    ∃ final next, after = plain next ∧
      Performs links (elementCalls mappings policy.kind idsToEvict.length request)
        (idsToEvict.map some) final ∧
      final.RingOf next.ring := by
  cases request with
  | allocateElementStorage mapping =>
      obtain ⟨rfl, outer⟩ := Fallible.map_pair_eq_ok.mp returns
      obtain ⟨next, registers, rfl⟩ := Fallible.map_eq_ok.mp outer
      unfold Policy.registerMapping at registers
      dsimp only at registers
      repeat' split at registers
      all_goals cases registers
      exact ⟨links, _, rfl, .nil links, ringOf⟩
  | setDynamicMaxMemory limit =>
      cases returns
      exact ⟨links, _, rfl, .nil links, ringOf⟩
  | setQuota quota =>
      obtain ⟨rfl, outer⟩ := Fallible.map_pair_eq_ok.mp returns
      obtain ⟨next, sets, rfl⟩ := Fallible.map_eq_ok.mp outer
      unfold Policy.setQuota at sets
      split at sets <;> cases sets
      exact ⟨links, _, rfl, .nil links, ringOf⟩
  | shrinkMemory =>
      obtain ⟨⟨_, next⟩, loops, same⟩ := Fallible.map_eq_ok.mp returns
      cases same
      obtain ⟨final, performs, popped⟩ :=
        Links.RingOf.popAll _ (evictLoop_ring loops ▸ ringOf)
      exact ⟨final, next, rfl, performs, popped⟩
  | notifyEvict mapping index =>
      obtain ⟨rfl, outer⟩ := Fallible.map_pair_eq_ok.mp returns
      obtain ⟨next, notifies, rfl⟩ := Fallible.map_eq_ok.mp outer
      obtain ⟨storage, found, ends⟩ := Fallible.bind_eq_ok.mp notifies
      obtain rfl := storage_eq (balanced.stored _ admitted).1 found
      dsimp only at ends
      split at ends <;> cases ends
      obtain ⟨final, performs, removed⟩ := ringOf.removeAll [(storage, index)]
      exact ⟨final, _, rfl, performs, removed⟩
  | freeElementStorage mapping =>
      obtain ⟨rfl, outer⟩ := Fallible.map_pair_eq_ok.mp returns
      obtain ⟨next, frees, rfl⟩ := Fallible.map_eq_ok.mp outer
      obtain ⟨storage, found, ends⟩ := Fallible.bind_eq_ok.mp frees
      obtain rfl := storage_eq admitted found
      cases ends
      obtain ⟨final, performs, removed⟩ := ringOf.removeAll
        ((List.range (mappings storage).segments).map (storage, ·))
      rw [← freeElements_ring (mappings storage).segmentSize] at removed
      rw [List.map_map] at performs
      exact ⟨final, _, rfl, performs, removed⟩
  | notifyTouch mapping index =>
      obtain ⟨_, outer, same⟩ := Fallible.map_eq_ok.mp returns
      cases same
      obtain ⟨⟨touch, next⟩, touches, rfl⟩ := Fallible.map_eq_ok.mp outer
      have touched : policy.notifyTouch mappings ndebug (mapping, index).1
          (mapping, index).2 = _ := touches
      obtain ⟨final, performs, touched⟩ := ringOf_notifyTouch ringOf admitted.1 touched
      exact ⟨final, next, rfl, performs, touched⟩

theorem exists_ringOf {kind : PolicyKind} {maxMemory : Nat} {isLocal : Bool}
    {object : PolicyObject M Q}
    (reached : ReachableBy (step mappings ndebug) (Admits mappings)
      (plain (Policy.create kind maxMemory isLocal)) object) :
    ∃ policy links, object = plain policy ∧ ElementCall.Reached links ∧
      links.RingOf policy.ring := by
  induction reached with
  | initial => exact ⟨_, _, rfl, .initial, .constructed⟩
  | step reached request admitted moved inductionHypothesis =>
      obtain ⟨policy, links, rfl, formed, ringOf⟩ := inductionHypothesis
      obtain ⟨idsToEvict, returns⟩ := step_eq_some.mp moved
      obtain ⟨final, next, rfl, performs, ringOf⟩ := ringOf_call ringOf
        (reached_of_create reached).settled.balanced admitted returns
      exact ⟨next, final, rfl, performs.reached formed, ringOf⟩

end PolicyObject

end UmmapIo
