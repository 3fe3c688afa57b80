import UmmapIo.Handler.Defs
import UmmapIo.Policy.Storage

/-!
# The registry of the mappings

`MappingRegistry` keeps a list of the live mappings with their address ranges.  The
loop that unregisters a mapping advances its iterator in two places.  It removes the
entry of the mapping, and increments the end iterator when that entry is the last one.
-/

namespace UmmapIo

/-- What goes wrong when the iterator is advanced once too often. -/
def endIncremented : String := "the end iterator is incremented"

section Loop

variable {E M : Type} [DecidableEq M] (mappingOf : E → M) (mapping : M)

/-- The loop of `MappingRegistry::unregisterMapping` and of
`Policy::unregisterMapping`.  The iterator stands at the head of the list, and the
end iterator at the empty one.  A match advances the iterator before it removes the
entry, and the loop then advances it again. -/
def unregisterLoop : List E → Except String (List E)
  | [] => .ok []
  | entry :: rest =>
      if mappingOf entry = mapping then
        match rest with
        | [] => .error endIncremented
        | next :: rest => (unregisterLoop rest).map (next :: ·)
      else (unregisterLoop rest).map (entry :: ·)

variable {mappingOf mapping} {entries : List E} {entry : E}

theorem unregisterLoop_skip (other : mappingOf entry ≠ mapping) :
    unregisterLoop mappingOf mapping (entry :: entries) =
      (unregisterLoop mappingOf mapping entries).map (entry :: ·) := by
  rw [unregisterLoop.eq_def]
  simp only [if_neg other]

theorem unregisterLoop_match (found : mappingOf entry = mapping) (next : E) :
    unregisterLoop mappingOf mapping (entry :: next :: entries) =
      (unregisterLoop mappingOf mapping entries).map (next :: ·) := by
  rw [unregisterLoop.eq_def]
  simp only [if_pos found]

theorem unregisterLoop_of_absent
    (absent : mapping ∉ entries.map mappingOf) :
    unregisterLoop mappingOf mapping entries = .ok entries := by
  induction entries with
  | nil => rfl
  | cons entry rest inductionHypothesis =>
      rw [List.map_cons, List.mem_cons, not_or] at absent
      rw [unregisterLoop_skip (Ne.symm absent.1), inductionHypothesis absent.2]
      rfl

/-- Without duplicates the loop removes the entry of the mapping unless it is the last
one. -/
theorem unregisterLoop_eq (nodup : (entries.map mappingOf).Nodup) :
    unregisterLoop mappingOf mapping entries =
      if mapping ∈ (entries.map mappingOf).getLast? then .error endIncremented
      else .ok (entries.filter fun entry => mappingOf entry ≠ mapping) := by
  induction entries with
  | nil => rfl
  | cons entry rest inductionHypothesis =>
      rw [List.map_cons, List.nodup_cons] at nodup
      by_cases found : mappingOf entry = mapping
      · have absent : mapping ∉ rest.map mappingOf := found ▸ nodup.1
        cases rest with
        | nil => simp [unregisterLoop, found]
        | cons next rest =>
            have notLast : mapping ∉ ((entry :: next :: rest).map mappingOf).getLast? := by
              rw [List.map_cons, List.map_cons, List.getLast?_cons_cons]
              exact fun last => absent (List.mem_of_getLast? last)
            have kept : (next :: rest).filter (fun other => mappingOf other ≠ mapping) =
                next :: rest := by
              rw [List.filter_eq_self]
              intro other member
              rw [decide_eq_true_iff]
              rintro rfl
              exact absent (List.mem_map_of_mem member)
            rw [unregisterLoop_match found, if_neg notLast,
              List.filter_cons_of_neg (by simp [found]), kept,
              unregisterLoop_of_absent fun member => absent (List.mem_cons_of_mem _ member)]
            rfl
      · have sameLast : mapping ∈ ((entry :: rest).map mappingOf).getLast? ↔
            mapping ∈ (rest.map mappingOf).getLast? := by
          cases rest with
          | nil => simp [found]
          | cons next rest => rw [List.map_cons, List.map_cons, List.getLast?_cons_cons]
        rw [unregisterLoop_skip found, inductionHypothesis nodup.2,
          List.filter_cons_of_pos (by simpa using found)]
        simp only [sameLast]
        split <;> rfl

end Loop

/-! ## The registry -/

deriving instance DecidableEq for Mapping

/-- The calls that change the registry.  Live mappings have different addresses, so
comparing them compares the pointers. -/
inductive RegistryCall : Type
  | registerMapping (mapping : Mapping)
  | unregisterMapping (mapping : Mapping)

namespace RegistryCall

/-- What a call does to the entries.  A mapping that `contain` finds must not be
registered again. -/
def perform (entries : List MappingRegistryEntry) :
    RegistryCall → Except String (List MappingRegistryEntry)
  | .registerMapping mapping =>
      if mapping ∈ entries.map MappingRegistryEntry.mapping then
        .error "Assertion `!contain(mapping)' failed."
      else .ok (entries ++ [.ofMapping mapping])
  | .unregisterMapping mapping =>
      unregisterLoop MappingRegistryEntry.mapping mapping entries

/-- A sequence of calls. -/
def run (entries : List MappingRegistryEntry) (calls : List RegistryCall) :
    Except String (List MappingRegistryEntry) :=
  calls.foldlM perform entries

/-- The mappings that are registered after a call. -/
def apply (registered : List Mapping) : RegistryCall → List Mapping
  | .registerMapping mapping => registered ++ [mapping]
  | .unregisterMapping mapping => registered.erase mapping

/-- A call that registers a new mapping, or unregisters one that is not the last. -/
def Admitted (registered : List Mapping) : RegistryCall → Prop
  | .registerMapping mapping => mapping ∉ registered
  | .unregisterMapping mapping => mapping ∉ registered.getLast?

/-- All calls of a sequence are admitted. -/
def AllAdmitted : List Mapping → List RegistryCall → Prop
  | _, [] => True
  | registered, call :: rest =>
      call.Admitted registered ∧ AllAdmitted (call.apply registered) rest

variable {registered : List Mapping} {call : RegistryCall}

theorem map_mapping_ofMapping :
    (registered.map MappingRegistryEntry.ofMapping).map MappingRegistryEntry.mapping =
      registered := by
  rw [List.map_map]
  exact List.map_id registered

theorem nodup_apply (nodup : registered.Nodup) (admitted : call.Admitted registered) :
    (call.apply registered).Nodup := by
  cases call with
  | registerMapping mapping =>
      exact List.nodup_append.mpr ⟨nodup, List.nodup_singleton mapping, by
        rintro other member _ (_ | _) rfl
        · exact admitted member
        · contradiction⟩
  | unregisterMapping mapping => exact nodup.erase mapping

theorem perform_eq_ok (nodup : registered.Nodup) {after : List MappingRegistryEntry} :
    call.perform (registered.map .ofMapping) = .ok after ↔
      call.Admitted registered ∧ after = (call.apply registered).map .ofMapping := by
  cases call with
  | registerMapping mapping =>
      simp only [perform, Admitted, apply, map_mapping_ofMapping, List.map_append]
      split <;> simp_all [eq_comm]
  | unregisterMapping mapping =>
      have kept : (registered.map MappingRegistryEntry.ofMapping).filter
          (fun entry => entry.mapping ≠ mapping) =
            (registered.erase mapping).map .ofMapping := by
        rw [List.filter_map, nodup.erase_eq_filter]
        congr 1
        refine List.filter_congr fun other _ => ?_
        exact decide_not
      simp only [perform, Admitted, apply]
      rw [unregisterLoop_eq (by rwa [map_mapping_ofMapping]), map_mapping_ofMapping, kept]
      split <;> simp_all [eq_comm]

theorem run_eq_ok (nodup : registered.Nodup) {calls : List RegistryCall}
    {after : List MappingRegistryEntry} :
    run (registered.map .ofMapping) calls = .ok after ↔
      AllAdmitted registered calls ∧
        after = (calls.foldl apply registered).map .ofMapping := by
  induction calls generalizing registered with
  | nil => simp [run, AllAdmitted, pure, Except.pure, eq_comm]
  | cons call rest inductionHypothesis =>
      unfold run at inductionHypothesis ⊢
      rw [List.foldlM_cons, Fallible.bind_eq_ok, AllAdmitted, List.foldl_cons]
      constructor
      · rintro ⟨middle, performed, remaining⟩
        obtain ⟨admitted, rfl⟩ := (perform_eq_ok nodup).mp performed
        obtain ⟨allAdmitted, rfl⟩ :=
          (inductionHypothesis (nodup_apply nodup admitted)).mp remaining
        exact ⟨⟨admitted, allAdmitted⟩, rfl⟩
      · rintro ⟨⟨admitted, allAdmitted⟩, rfl⟩
        exact ⟨_, (perform_eq_ok nodup).mpr ⟨admitted, rfl⟩,
          (inductionHypothesis (nodup_apply nodup admitted)).mpr ⟨allAdmitted, rfl⟩⟩

end RegistryCall

/-- The data of a mapping holds an address. -/
def Mapping.Holds (mapping : Mapping) (address : Nat) : Prop :=
  mapping.baseAddress ≤ address ∧ address < mapping.baseAddress + mapping.size

/-- The mapping of an address, when no two mappings share one. -/
theorem getMapping_eq_some_iff {registered : List Mapping}
    (apart : ∀ first ∈ registered, ∀ second ∈ registered, ∀ address,
      first.Holds address → second.Holds address → first = second)
    {address : Nat}
    {mapping : Mapping} :
    getMapping (registered.map .ofMapping) address = some mapping ↔
      mapping ∈ registered ∧ mapping.Holds address := by
  have sound {other : Mapping}
      (found : getMapping (registered.map .ofMapping) address = some other) :
      other ∈ registered ∧ other.Holds address := by
    obtain ⟨entry, first, rfl⟩ := Option.map_eq_some_iff.mp found
    obtain ⟨holder, member, rfl⟩ := List.mem_map.mp (List.mem_of_find?_eq_some first)
    have inside := List.find?_some first
    rw [Bool.and_eq_true, decide_eq_true_iff, decide_eq_true_iff] at inside
    exact ⟨member, inside⟩
  refine ⟨sound, ?_⟩
  rintro ⟨member, holds⟩
  cases found : getMapping (registered.map .ofMapping) address with
  | some other =>
      obtain ⟨otherMember, otherHolds⟩ := sound found
      rw [apart other otherMember mapping member address otherHolds holds]
  | none =>
      have nobody := List.find?_eq_none.mp (Option.map_eq_none_iff.mp found) _
        (List.mem_map_of_mem member)
      simp only [MappingRegistryEntry.ofMapping] at nobody
      simp [holds.1, holds.2] at nobody

/-- The policy's list after a walk that does not leave it. -/
theorem unregisterMapping_of_loop {M : Type} [DecidableEq M] {mapping : M}
    {registry result : List M}
    (walked : unregisterLoop id mapping registry = .ok result) :
    Policy.unregisterMapping mapping registry = result := by
  fun_induction unregisterLoop id mapping registry generalizing result with
  | case1 => exact Except.ok.inj walked
  | case2 entry found => cases walked
  | case3 entry found next rest inductionHypothesis =>
      obtain ⟨others, walkedRest, rfl⟩ := Fallible.map_eq_ok.mp walked
      rw [Policy.unregisterMapping.eq_def]
      simp only [show entry = mapping from found, if_true]
      rw [inductionHypothesis walkedRest]
  | case4 entry rest other inductionHypothesis =>
      obtain ⟨others, walkedRest, rfl⟩ := Fallible.map_eq_ok.mp walked
      rw [Policy.unregisterMapping.eq_def]
      simp only [show ¬ entry = mapping from other, if_false]
      rw [inductionHypothesis walkedRest]

/-- Without repetitions, a walk that begins anew behind the end of the policy's list
changes nothing more. -/
theorem unregisterLoop_unregisterMapping {M : Type} [DecidableEq M] {registry : List M}
    (nodup : registry.Nodup) (mapping : M) :
    unregisterLoop id mapping (Policy.unregisterMapping mapping registry) =
      .ok (Policy.unregisterMapping mapping registry) := by
  rw [Policy.unregisterMapping_eq_erase nodup]
  refine unregisterLoop_of_absent ?_
  rw [List.map_id]
  exact nodup.not_mem_erase

/-- When unregistering is safe and exact.  Without duplicates, the loop of the registry
and of the policies removes the entry of a mapping, and increments the end iterator
exactly when that entry is the last one; where the walk of a policy then begins anew,
it changes nothing more.  A sequence of calls works exactly when every registered
mapping is new and no unregistered one is the last; if no two mappings that are
registered at its end share an address, the mapping of an address is then the
registered one that holds it. -/
theorem unregistering_exact_iff_not_last {E M : Type} [DecidableEq M]
    (mappingOf : E → M) (entries : List E) (nodup : (entries.map mappingOf).Nodup)
    (mapping : M) (calls : List RegistryCall) :
    (unregisterLoop mappingOf mapping entries =
      if mapping ∈ (entries.map mappingOf).getLast? then .error endIncremented
      else .ok (entries.filter fun entry => mappingOf entry ≠ mapping)) ∧
    (∀ registry result, unregisterLoop id mapping registry = .ok result →
      Policy.unregisterMapping mapping registry = result) ∧
    (∀ registry : List M, registry.Nodup →
      unregisterLoop id mapping (Policy.unregisterMapping mapping registry) =
        .ok (Policy.unregisterMapping mapping registry)) ∧
    ((∃ after, RegistryCall.run [] calls = .ok after) ↔
      RegistryCall.AllAdmitted [] calls) ∧
    ∀ after, RegistryCall.run [] calls = .ok after →
      (∀ first ∈ calls.foldl RegistryCall.apply [],
        ∀ second ∈ calls.foldl RegistryCall.apply [], ∀ address,
          first.Holds address → second.Holds address → first = second) →
      ∀ mapping address,
        getMapping after address = some mapping ↔
          mapping ∈ calls.foldl RegistryCall.apply [] ∧ mapping.Holds address := by
  have runs (after : List MappingRegistryEntry) :
      RegistryCall.run [] calls = .ok after ↔ RegistryCall.AllAdmitted [] calls ∧
        after = (calls.foldl RegistryCall.apply []).map .ofMapping :=
    RegistryCall.run_eq_ok List.nodup_nil
  refine ⟨unregisterLoop_eq nodup, fun _ _ => unregisterMapping_of_loop,
    fun _ nodup => unregisterLoop_unregisterMapping nodup mapping, ?_, ?_⟩
  · simp [runs]
  · intro after returned apart mapping address
    obtain ⟨_, rfl⟩ := (runs after).mp returned
    exact getMapping_eq_some_iff apart

/-- A mapping of the page behind that of `Mapping.ofPages 0`. -/
def Mapping.nextPage : Mapping :=
  { onePage with baseAddress := 2 * pageSize }

/-- Two mappings are registered, the first one is unregistered, and a mapping at its
address is registered again. -/
def RegistryCall.pageCalls : List RegistryCall :=
  [.registerMapping (.ofPages 0 true), .registerMapping .nextPage,
    .unregisterMapping (.ofPages 0 true), .registerMapping (.ofPages 0 false)]

/-- The mapping that has the address now is found. -/
theorem unregistering_exact_iff_not_last_of_pages :
    unregisterLoop id 1 [1, 2] = .ok [2] ∧
      ∃ after, RegistryCall.run [] RegistryCall.pageCalls = .ok after ∧
        getMapping after pageSize = some (Mapping.ofPages 0 false) := by
  have separate (address : Nat) (first : Mapping.nextPage.Holds address)
      (second : (Mapping.ofPages 0 false).Holds address) : False := by
    have begins : 2 * pageSize ≤ address := first.1
    have ends : address < pageSize + pageSize * (0 + 1) := second.2
    omega
  have registered : RegistryCall.pageCalls.foldl RegistryCall.apply [] =
      [.nextPage, .ofPages 0 false] := by
    decide
  obtain ⟨loop, _, _, works, finds⟩ := unregistering_exact_iff_not_last id [1, 2]
    (by decide) 1 RegistryCall.pageCalls
  obtain ⟨after, returned⟩ := works.mpr (by
    simp only [RegistryCall.pageCalls, RegistryCall.AllAdmitted, RegistryCall.Admitted,
      RegistryCall.apply]
    decide)
  rw [registered] at finds
  refine ⟨loop, after, returned, (finds after returned ?_ _ _).mpr
    ⟨by decide, by unfold Mapping.Holds; decide⟩⟩
  simp only [List.forall_mem_cons, List.not_mem_nil, false_implies, implies_true,
    and_true, true_and]
  exact ⟨fun address first second => (separate address first second).elim,
    fun address first second => (separate address second first).elim⟩

/-- Unregistering the only mapping increments the end iterator. -/
theorem unregistering_last_increments_end :
    unregisterLoop id 1 [1] = .error endIncremented ∧
      RegistryCall.run [] [.registerMapping (.ofPages 0 true),
        .unregisterMapping (.ofPages 0 true)] = .error endIncremented :=
  ⟨rfl, rfl⟩

end UmmapIo
