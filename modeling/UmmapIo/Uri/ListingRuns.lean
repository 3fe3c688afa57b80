import UmmapIo.Uri.ListingFiles

/-!
# Stable object identifiers

Seen from outside, a listing is one map from names to identifiers: the one in
memory if the listing has been loaded, and the one in the file otherwise. A call
of `getObjectId` at most adds its name to this map, and destroying and creating
the object again does not change it. So every name keeps the identifier that it
had in the file or that was returned first.
-/

namespace UmmapIo

/-- The file of a listing: every line holds a name and an identifier, no name
occurs twice, no name is too long and no identifier is negative. -/
structure ListingFile (contents : Text)
    (entries : List (Text × ObjectId)) : Prop where
  lines : (CText.readLines (lineBufferSize - 1) [] contents).map scanLine =
    entries.map some
  distinct : (entries.map Prod.fst).Nodup
  short : ∀ entry ∈ entries, entry.1.length < 4000
  nonneg : ∀ entry ∈ entries, entry.2.NonNegative

/-- The entries of lines that are read are added one after the other. -/
theorem addLines_of_scanned (listing : Text) (store : ObjectMap) {lines : List Text}
    {entries : List (Text × ObjectId)}
    (scanned : lines.map scanLine = entries.map some) :
    addLines listing store lines =
      .ok (entries.foldl (fun store entry => store.insert entry.1 entry.2) store) := by
  induction entries generalizing store lines with
  | nil =>
      obtain rfl : lines = [] := by simpa using scanned
      rfl
  | cons entry entries inductionHypothesis =>
      cases lines with
      | nil => cases scanned
      | cons line lines =>
          obtain ⟨first, rest⟩ := List.cons.inj scanned
          rw [addLines, first]
          exact inductionHypothesis _ rest

namespace ListingFile

variable {contents : Text} {entries : List (Text × ObjectId)}
variable (file : ListingFile contents entries)
include file

theorem nameable {entry : Text × ObjectId} (present : entry ∈ entries) :
    Nameable entry.1 := by
  have scanned : some entry ∈
      (CText.readLines (lineBufferSize - 1) [] contents).map scanLine := by
    rw [file.lines]
    exact List.mem_map_of_mem present
  obtain ⟨line, -, scannedLine⟩ := List.mem_map.mp scanned
  obtain ⟨nonempty, noSpace, noTerminator⟩ := noTerminator_of_scanLine scannedLine
  exact ⟨nonempty, noSpace, noTerminator, file.short entry present⟩

/-- The file of a listing is loaded, and every entry is found. -/
theorem loads (listing : Text) :
    ∃ store : ObjectMap,
      addLines listing ∅ (CText.readLines (lineBufferSize - 1) [] contents) =
          .ok store ∧
        store.Storable ∧ ∀ name id, (name, id) ∈ entries → store[name]? = some id := by
  refine ⟨_, addLines_of_scanned listing ∅ file.lines, ?_, ?_⟩
  · intro name id found
    by_cases listed : name ∈ entries.map Prod.fst
    · obtain ⟨⟨name', id'⟩, present, rfl⟩ := List.mem_map.mp listed
      rw [ObjectMap.getElem?_foldl_insert_of_mem file.distinct _ present] at found
      obtain rfl := Option.some.inj found
      exact ⟨file.nameable present, file.nonneg _ present⟩
    · rw [ObjectMap.getElem?_foldl_insert_of_notMem _ _ listed,
        Std.ExtTreeMap.getElem?_empty] at found
      cases found
  · intro name id present
    exact ObjectMap.getElem?_foldl_insert_of_mem file.distinct _ present

end ListingFile

namespace ListingWorld

variable {F : Type} (system : ListingSystem F)

/-- The map that a listing stands for. -/
def directory (world : ListingWorld F)
    (listing : Text) : ObjectMap :=
  match world.listings[listing]? with
  | some store => store
  | none =>
      match world.files (system.resolve listing) with
      | some contents =>
          (addLines listing ∅
            (CText.readLines (lineBufferSize - 1) [] contents)).toOption.getD ∅
      | none => ∅

/-- The listings in memory and the files of the listings in use can be
stored and loaded. -/
structure Sound (used : Set Text)
    (world : ListingWorld F) : Prop where
  inUse : ∀ (listing : Text) (store : ObjectMap),
    world.listings[listing]? = some store → listing ∈ used
  storable : ∀ (listing : Text) (store : ObjectMap),
    world.listings[listing]? = some store → store.Storable
  loads : ∀ listing ∈ used, ∀ contents,
    world.files (system.resolve listing) = some contents →
      ∃ store : ObjectMap,
        addLines listing ∅ (CText.readLines (lineBufferSize - 1) [] contents) =
          .ok store ∧ store.Storable

/-- A listing of the second world has all names of the first with the same
identifiers. -/
def Extends (used : Set Text)
    (before after : ListingWorld F) : Prop :=
  ∀ listing ∈ used, ∀ (name : Text) (id : ObjectId),
    (before.directory system listing)[name]? = some id →
      (after.directory system listing)[name]? = some id

variable {system} {used : Set Text} {world : ListingWorld F} {listing : Text}
variable {store : ObjectMap}

theorem directory_of_memory
    (inMemory : world.listings[listing]? = some store) :
    world.directory system listing = store := by
  rw [directory, inMemory]

variable {contents : Text}

theorem directory_of_file
    (notInMemory : world.listings[listing]? = none)
    (onDisk : world.files (system.resolve listing) = some contents)
    (loaded : addLines listing ∅ (CText.readLines (lineBufferSize - 1) [] contents) =
      .ok store) :
    world.directory system listing = store := by
  rw [directory, notInMemory]
  simp only [onDisk, loaded]
  rfl

theorem directory_of_absent
    (notInMemory : world.listings[listing]? = none)
    (notOnDisk : world.files (system.resolve listing) = none) :
    world.directory system listing = ∅ := by
  rw [directory, notInMemory]
  simp only [notOnDisk]

variable {before after : ListingWorld F}

/-- The map of a listing depends on its entry in memory and on its file. -/
theorem directory_congr
    (sameMemory : after.listings[listing]? = before.listings[listing]?)
    (sameFile : after.files (system.resolve listing) =
      before.files (system.resolve listing)) :
    after.directory system listing = before.directory system listing := by
  rw [directory, directory, sameMemory, sameFile]

theorem Sound.directory_storable (sound : world.Sound system used)
    (isUsed : listing ∈ used) :
    (world.directory system listing).Storable := by
  cases inMemory : world.listings[listing]? with
  | some store =>
      rw [directory_of_memory inMemory]
      exact sound.storable listing store inMemory
  | none =>
      cases onDisk : world.files (system.resolve listing) with
      | some contents =>
          obtain ⟨store, loaded, storable⟩ := sound.loads listing isUsed contents onDisk
          rw [directory_of_file inMemory onDisk loaded]
          exact storable
      | none =>
          rw [directory_of_absent inMemory onDisk]
          intro name id found
          rw [Std.ExtTreeMap.getElem?_empty] at found
          cases found

theorem Extends.refl (world : ListingWorld F) : Extends system used world world :=
  fun _ _ _ _ found => found

theorem Extends.trans {first second third : ListingWorld F}
    (before : Extends system used first second)
    (after : Extends system used second third) :
    Extends system used first third :=
  fun listing isUsed name id found =>
    after listing isUsed name id (before listing isUsed name id found)

/-! ## Asking for an identifier -/

theorem randLong_nonneg
    (range : ∀ index, system.rand index < 2 ^ 31)
    (drawn : Nat) :
    0 ≤ (randLong system drawn).toInt := by
  have high := range drawn
  have low := range (drawn + 1)
  have value : (randLong system drawn).toNat =
      system.rand drawn * 2 ^ 32 + system.rand (drawn + 1) := by
    simp only [randLong, BitVec.toNat_add, BitVec.toNat_shiftLeft, BitVec.toNat_ofNat,
      Nat.shiftLeft_eq]
    omega
  rw [BitVec.toInt_eq_toNat_cond, value]
  split <;> omega

theorem getElem?_insert_other {listings : ListingMap} {other : Text} (store : ObjectMap)
    (different : other ≠ listing) :
    (listings.insert listing store)[other]? = listings[other]? := by
  rw [Std.ExtTreeMap.getElem?_insert, if_neg]
  rw [Std.LawfulEqCmp.compare_eq_iff_eq]
  exact Ne.symm different

/-- What a call of `getObjectId` does to the world: only the listing of the
call changes in memory, and it at most gains the name of the call. -/
structure Answered (system : ListingSystem F) (before : ListingWorld F)
    (listing name : Text) (id : ObjectId)
    (after : ListingWorld F) : Prop where
  files : after.files = before.files
  others : ∀ other : Text, other ≠ listing →
    after.listings[other]? = before.listings[other]?
  inMemory : after.listings[listing]? = some (after.directory system listing)
  storable : (after.directory system listing).Storable
  found : (after.directory system listing)[name]? = some id
  kept : ∀ (other : Text) (old : ObjectId),
    (before.directory system listing)[other]? = some old →
      (after.directory system listing)[other]? = some old

variable {name : Text} {id : ObjectId}

/-- The name is in the map of the listing, which is now in memory. -/
theorem Answered.of_found (files : after.files = before.files)
    (others : ∀ other : Text, other ≠ listing →
      after.listings[other]? = before.listings[other]?)
    (inMemory : after.listings[listing]? = some (before.directory system listing))
    (storable : (before.directory system listing).Storable)
    (found : (before.directory system listing)[name]? = some id) :
    Answered system before listing name id after := by
  have same : after.directory system listing = before.directory system listing :=
    directory_of_memory inMemory
  exact {
    files := files
    others := others
    inMemory := by rw [same, inMemory]
    storable := by rw [same]; exact storable
    found := by rw [same]; exact found
    kept := fun other old known => by rw [same]; exact known }

/-- The name is added to the map of the listing. -/
theorem Answered.of_created
    (range : ∀ index, system.rand index < 2 ^ 31)
    {loaded : ListingWorld F} (files : loaded.files = before.files)
    (others : ∀ other : Text, other ≠ listing →
      loaded.listings[other]? = before.listings[other]?)
    (storable : (before.directory system listing).Storable)
    (nameable : Nameable name)
    (missing : (before.directory system listing)[name]? = none)
    (created : loaded.createObjectId system listing (before.directory system listing)
      name = (id, after)) :
    Answered system before listing name id after := by
  obtain ⟨sameId, rfl⟩ := Prod.mk.inj created
  have nonneg : id.NonNegative := by
    rw [← sameId]
    exact ⟨randLong_nonneg range _, randLong_nonneg range _⟩
  have same : ListingWorld.directory system { loaded with
      listings := loaded.listings.insert listing
        ((before.directory system listing).insert name id)
      drawn := loaded.drawn + 4 } listing =
        (before.directory system listing).insert name id :=
    directory_of_memory Std.ExtTreeMap.getElem?_insert_self
  subst sameId
  exact {
    files := files
    others := by
      intro other different
      rw [← others other different]
      exact getElem?_insert_other _ different
    inMemory := by
      rw [same]
      exact Std.ExtTreeMap.getElem?_insert_self
    storable := by
      rw [same]
      intro other id known
      rw [Std.ExtTreeMap.getElem?_insert] at known
      split at known
      case isTrue isName =>
        obtain rfl := Std.LawfulEqCmp.compare_eq_iff_eq.mp isName
        obtain rfl := Option.some.inj known
        exact ⟨nameable, nonneg⟩
      case isFalse => exact storable other id known
    found := by rw [same, Std.ExtTreeMap.getElem?_insert_self]
    kept := by
      intro other old known
      rw [same, Std.ExtTreeMap.getElem?_insert, if_neg, known]
      rw [Std.LawfulEqCmp.compare_eq_iff_eq]
      rintro rfl
      rw [missing] at known
      cases known }

/-- The world with a listing in memory. -/
def remember (world : ListingWorld F) (listing : Text)
    (store : ObjectMap) : ListingWorld F :=
  { world with listings := world.listings.insert listing store }

/-- Loading a listing puts the map of its file in memory. -/
theorem loadListing_eq
    (notInMemory : world.listings[listing]? = none)
    (loaded : addLines listing ∅ (CText.readLines (lineBufferSize - 1) [] contents) =
      .ok store) :
    world.loadListing listing contents = .ok (store, world.remember listing store) := by
  rw [loadListing, notInMemory, Option.getD_none, loaded]
  rfl

/-- A name of a listing that is only in its file. -/
theorem createListingAndObjectId_eq
    (notInMemory : world.listings[listing]? = none)
    (onDisk : world.files (system.resolve listing) = some contents)
    (loaded : addLines listing ∅ (CText.readLines (lineBufferSize - 1) [] contents) =
      .ok store)
    (name : Text) :
    world.createListingAndObjectId system listing name =
      match store[name]? with
      | some id => .ok (id, world.remember listing store)
      | none =>
          .ok ((world.remember listing store).createObjectId system listing store
            name) := by
  rw [createListingAndObjectId, onDisk]
  dsimp only
  rw [loadListing_eq notInMemory loaded]
  rfl

/-- A call of `getObjectId` returns, whether the name is in memory, in the file
or nowhere. -/
theorem getObjectId_answered
    (range : ∀ index, system.rand index < 2 ^ 31)
    (sound : world.Sound system used) (isUsed : listing ∈ used) (named : listing ≠ [])
    (nameable : Nameable name) :
    ∃ id after, world.getObjectId system listing name = .ok (id, after) ∧
      Answered system world listing name id after := by
  have storable := sound.directory_storable isUsed
  rw [getObjectId, assumeArg_ok _ named, assumeArg_ok _ nameable.nonempty]
  cases inMemory : world.listings[listing]? with
  | some store =>
      have same : world.directory system listing = store := directory_of_memory inMemory
      rw [← same] at inMemory ⊢
      cases found : (world.directory system listing)[name]? with
      | some id =>
          exact ⟨id, world, by simp [found]; rfl,
            .of_found rfl (fun _ _ => rfl) inMemory storable found⟩
      | none =>
          exact ⟨_, _, by simp [found]; rfl,
            .of_created range rfl (fun _ _ => rfl) storable nameable found rfl⟩
  | none =>
      cases onDisk : world.files (system.resolve listing) with
      | none =>
          have same : world.directory system listing = ∅ :=
            directory_of_absent inMemory onDisk
          have missing : (world.directory system listing)[name]? = none := by
            rw [same, Std.ExtTreeMap.getElem?_empty]
          refine ⟨_, _, ?_,
            .of_created range rfl (fun _ _ => rfl) storable nameable missing rfl⟩
          simp [createListingAndObjectId, onDisk, inMemory, same]
          rfl
      | some contents =>
          obtain ⟨store, loaded, -⟩ := sound.loads listing isUsed contents onDisk
          have same : world.directory system listing = store :=
            directory_of_file inMemory onDisk loaded
          rw [← same] at loaded
          have sameFiles : (world.remember listing
              (world.directory system listing)).files = world.files := rfl
          have others : ∀ other : Text, other ≠ listing →
              (world.remember listing (world.directory system listing)).listings[other]? =
                world.listings[other]? :=
            fun other different => getElem?_insert_other _ different
          have remembered :
              (world.remember listing
                  (world.directory system listing)).listings[listing]? =
                some (world.directory system listing) :=
            Std.ExtTreeMap.getElem?_insert_self
          have returned := createListingAndObjectId_eq inMemory onDisk loaded name
          cases found : (world.directory system listing)[name]? with
          | some id =>
              rw [found] at returned
              exact ⟨id, _, returned, .of_found sameFiles others remembered storable found⟩
          | none =>
              rw [found] at returned
              exact ⟨_, _, returned,
                .of_created range sameFiles others storable nameable found rfl⟩

namespace Answered

variable {before after : ListingWorld F} {listing name : Text} {id : ObjectId}
variable (answered : Answered system before listing name id after)
include answered

theorem directory_other {other : Text} (different : other ≠ listing) :
    after.directory system other = before.directory system other :=
  directory_congr (answered.others other different) (by rw [answered.files])

theorem sound (sound : before.Sound system used) (isUsed : listing ∈ used) :
    after.Sound system used where
  inUse := by
    intro other store inMemory
    by_cases same : other = listing
    · rw [same]
      exact isUsed
    · rw [answered.others other same] at inMemory
      exact sound.inUse other store inMemory
  storable := by
    intro other store inMemory
    by_cases same : other = listing
    · subst same
      rw [answered.inMemory] at inMemory
      obtain rfl := Option.some.inj inMemory
      exact answered.storable
    · rw [answered.others other same] at inMemory
      exact sound.storable other store inMemory
  loads := by
    rw [answered.files]
    exact sound.loads

theorem extends_ : Extends system used before after := by
  intro other isUsed name' id' known
  by_cases same : other = listing
  · subst same
    exact answered.kept name' id' known
  · rw [answered.directory_other same]
    exact known

end Answered

/-! ## Destroying and creating the object again -/

/-- The files of the listings in memory are distinct. -/
theorem Sound.nodup_files
    (distinctFiles : Set.InjOn system.resolve used)
    (sound : world.Sound system used) :
    (world.listings.toList.map fun entry => system.resolve entry.1).Nodup := by
  rw [List.nodup_iff_pairwise_ne, List.pairwise_map]
  refine world.listings.distinct_keys_toList.imp_of_mem ?_
  intro first second firstListed secondListed different same
  apply different
  rw [Std.LawfulEqCmp.compare_eq_iff_eq]
  exact distinctFiles
    (sound.inUse _ _ (Std.ExtTreeMap.mem_toList_iff_getElem?_eq_some.mp firstListed))
    (sound.inUse _ _ (Std.ExtTreeMap.mem_toList_iff_getElem?_eq_some.mp secondListed))
    same

section Saving

variable [DecidableEq F] {before after : ListingWorld F}
variable {entries : List (Text × ObjectMap)}

/-- Writing listings changes only their files. -/
theorem foldlM_saveListing
    (saved : entries.foldlM (saveListing system) before = .ok after) :
    after.listings = before.listings ∧
      (∀ file, (∀ entry ∈ entries, system.resolve entry.1 ≠ file) →
        after.files file = before.files file) ∧
      ((entries.map fun entry => system.resolve entry.1).Nodup →
        ∀ entry ∈ entries,
          after.files (system.resolve entry.1) =
            some (ObjectMap.contents entry.2)) := by
  induction entries generalizing before with
  | nil =>
      obtain rfl : before = after := Except.ok.inj saved
      exact ⟨rfl, fun _ _ => rfl, by simp⟩
  | cons entry entries inductionHypothesis =>
      obtain ⟨middle, savedEntry, savedRest⟩ := Fallible.bind_eq_ok.mp saved
      obtain ⟨_, -, same⟩ := Fallible.bind_eq_ok.mp savedEntry
      obtain rfl := Except.ok.inj same
      obtain ⟨sameListings, others, written⟩ := inductionHypothesis savedRest
      refine ⟨sameListings, ?_, ?_⟩
      · intro file outside
        rw [List.forall_mem_cons] at outside
        rw [others file outside.2]
        exact Function.update_of_ne (Ne.symm outside.1) _ _
      · intro distinct
        rw [List.map_cons, List.nodup_cons] at distinct
        rw [List.forall_mem_cons]
        refine ⟨?_, written distinct.2⟩
        rw [others]
        · exact Function.update_self _ _ _
        · intro later present same
          exact distinct.1 (List.mem_map.mpr ⟨later, present, same⟩)

/-- Writing listings fails only at a file that cannot be written. -/
theorem foldlM_saveListing_error {message : Text}
    (failed : entries.foldlM (saveListing system) before = .error message) :
    ∃ entry ∈ entries, system.canWrite (system.resolve entry.1) = false ∧
      message = failToOpen system entry.1 := by
  induction entries generalizing before with
  | nil => cases failed
  | cons entry entries inductionHypothesis =>
      cases writable : system.canWrite (system.resolve entry.1) with
      | false =>
          refine ⟨entry, List.mem_cons_self .., writable, ?_⟩
          rw [List.foldlM_cons, saveListing, writable] at failed
          exact (Except.error.inj failed).symm
      | true =>
          rw [List.foldlM_cons, saveListing, writable] at failed
          obtain ⟨later, present, reason⟩ := inductionHypothesis failed
          exact ⟨later, List.mem_cons_of_mem entry present, reason⟩

theorem recreate_ok
    (recreated : before.recreate system = .ok after) :
    ∃ saved, before.saveListings system = .ok saved ∧
      after = { saved with listings := ∅ } := by
  obtain ⟨saved, savedOk, same⟩ := Fallible.bind_eq_ok.mp recreated
  exact ⟨saved, savedOk, (Except.ok.inj same).symm⟩

variable (distinctFiles : Set.InjOn system.resolve used)
include distinctFiles

/-- Destroying the object and creating it again keeps every listing in use. -/
theorem directory_recreate (sound : before.Sound system used)
    (recreated : before.recreate system = .ok after)
    {listing : Text} (isUsed : listing ∈ used) :
    after.directory system listing = before.directory system listing := by
  obtain ⟨saved, savedOk, rfl⟩ := recreate_ok recreated
  obtain ⟨-, others, written⟩ := foldlM_saveListing savedOk
  have notInMemory : (∅ : ListingMap)[listing]? = none := Std.ExtTreeMap.getElem?_empty
  cases inMemory : before.listings[listing]? with
  | some store =>
      have listed := Std.ExtTreeMap.mem_toList_iff_getElem?_eq_some.mpr inMemory
      have onDisk := written (sound.nodup_files distinctFiles) _ listed
      rw [directory_of_memory inMemory]
      exact directory_of_file notInMemory onDisk
        (ObjectMap.addLines_contents listing (sound.storable _ _ inMemory))
  | none =>
      refine directory_congr (notInMemory.trans inMemory.symm) (others _ ?_)
      intro entry listed same
      have otherInMemory := Std.ExtTreeMap.mem_toList_iff_getElem?_eq_some.mp listed
      rw [distinctFiles (sound.inUse _ _ otherInMemory) isUsed same, inMemory]
        at otherInMemory
      cases otherInMemory

theorem recreate_sound (sound : before.Sound system used)
    (recreated : before.recreate system = .ok after) :
    after.Sound system used := by
  obtain ⟨saved, savedOk, rfl⟩ := recreate_ok recreated
  obtain ⟨-, others, written⟩ := foldlM_saveListing savedOk
  refine ⟨?_, ?_, ?_⟩
  · intro listing store inMemory
    rw [Std.ExtTreeMap.getElem?_empty] at inMemory
    cases inMemory
  · intro listing store inMemory
    rw [Std.ExtTreeMap.getElem?_empty] at inMemory
    cases inMemory
  · intro listing isUsed contents onDisk
    by_cases held : ∃ entry ∈ before.listings.toList,
        system.resolve entry.1 = system.resolve listing
    · obtain ⟨entry, listed, sameFile⟩ := held
      have inMemory := Std.ExtTreeMap.mem_toList_iff_getElem?_eq_some.mp listed
      have storable := sound.storable _ _ inMemory
      have onDisk' := written (sound.nodup_files distinctFiles) _ listed
      rw [sameFile] at onDisk'
      obtain rfl := Option.some.inj (onDisk.symm.trans onDisk')
      exact ⟨_, ObjectMap.addLines_contents listing storable, storable⟩
    · refine sound.loads listing isUsed contents ?_
      rw [← others]
      · exact onDisk
      · exact fun entry listed same => held ⟨entry, listed, same⟩

end Saving

end ListingWorld

/-! ## Runs -/

/-- The calls on the listings in use, with names of the parameter grammar. -/
def ListingCall.Allowed (used : Set Text) : ListingCall → Prop
  | .getObjectId listing name =>
      listing ∈ used ∧ listing ≠ [] ∧ name ≠ [] ∧
        (∀ c ∈ name, isValueChar c = true) ∧ name.length < 4000
  | .recreate => True

/-- A name of the parameter grammar can be written in a listing. -/
theorem nameable_of_isValueChar {name : Text} (nonempty : name ≠ [])
    (chars : ∀ c ∈ name, isValueChar c = true)
    (short : name.length < 4000) :
    Nameable name := by
  have refuses {c : Char} (refused : isValueChar c = false) : c ∉ name := by
    intro present
    rw [chars c present] at refused
    cases refused
  refine ⟨nonempty, ?_, refuses rfl, short⟩
  intro c present
  rw [← Bool.not_eq_true]
  intro space
  simp only [CText.isSpace, List.mem_cons, List.not_mem_nil, or_false,
    decide_eq_true_eq] at space
  rcases space with rfl | rfl | rfl | rfl | rfl | rfl <;> exact refuses rfl present

namespace ListingWorld

variable {F : Type} [DecidableEq F] {system : ListingSystem F} {used : Set Text}
variable {before after : ListingWorld F} {call : ListingCall}

/-- What one call does: it keeps the invariant and all identifiers, and the
identifier it returns is the one of its name. -/
theorem call_spec
    (distinctFiles : Set.InjOn system.resolve used)
    (range : ∀ index, system.rand index < 2 ^ 31)
    (sound : before.Sound system used) (allowed : call.Allowed used)
    {answer : Option ObjectId}
    (returned : before.call system call = .ok (answer, after)) :
    after.Sound system used ∧ Extends system used before after ∧
      ∀ listing name, call = .getObjectId listing name →
        ∃ id, answer = some id ∧ (after.directory system listing)[name]? = some id := by
  cases call with
  | getObjectId listing name =>
      obtain ⟨isUsed, named, nonempty, chars, short⟩ := allowed
      obtain ⟨id, after', answeredOk, answered⟩ :=
        getObjectId_answered range sound isUsed named
          (nameable_of_isValueChar nonempty chars short)
      have same : (some id, after') = (answer, after) := by
        rw [call, answeredOk] at returned
        exact Except.ok.inj returned
      obtain ⟨rfl, rfl⟩ := Prod.mk.inj same
      refine ⟨answered.sound sound isUsed, answered.extends_, ?_⟩
      rintro _ _ ⟨⟩
      exact ⟨id, rfl, answered.found⟩
  | recreate =>
      obtain ⟨after', recreated, same⟩ := Fallible.bind_eq_ok.mp returned
      obtain ⟨rfl, rfl⟩ := Prod.mk.inj (Except.ok.inj same)
      refine ⟨recreate_sound distinctFiles sound recreated, ?_, by simp⟩
      intro listing isUsed name id known
      rw [directory_recreate distinctFiles sound recreated isUsed]
      exact known

variable {message : Text}

/-- A call fails only at a file that cannot be written. -/
theorem call_error
    (range : ∀ index, system.rand index < 2 ^ 31)
    (sound : before.Sound system used) (allowed : call.Allowed used)
    (failed : before.call system call = .error message) :
    ∃ listing ∈ used, system.canWrite (system.resolve listing) = false ∧
      message = failToOpen system listing := by
  cases call with
  | getObjectId listing name =>
      obtain ⟨isUsed, named, nonempty, chars, short⟩ := allowed
      obtain ⟨id, after, answeredOk, -⟩ :=
        getObjectId_answered range sound isUsed named
          (nameable_of_isValueChar nonempty chars short)
      rw [call, answeredOk] at failed
      cases failed
  | recreate =>
      obtain failed | ⟨_, -, failed⟩ := Fallible.bind_eq_error.mp failed
      · obtain failed | ⟨_, -, failed⟩ := Fallible.bind_eq_error.mp failed
        · obtain ⟨entry, listed, reason⟩ := foldlM_saveListing_error failed
          exact ⟨entry.1, sound.inUse _ _
            (Std.ExtTreeMap.mem_toList_iff_getElem?_eq_some.mp listed), reason⟩
        · cases failed
      · cases failed

section

variable {calls : List ListingCall} {before : ListingWorld F}
variable (distinctFiles : Set.InjOn system.resolve used)
variable (range : ∀ index, system.rand index < 2 ^ 31)
variable (sound : before.Sound system used)
variable (allowed : ∀ call ∈ calls, call.Allowed used)
include distinctFiles range sound allowed

/-- What a run does: every identifier it returns is the one of its name at the
end. -/
theorem run_spec {answers : List (Option ObjectId)}
    (returned : before.run system calls = .ok (answers, after)) :
    after.Sound system used ∧ Extends system used before after ∧
      ∀ (index : Nat) (listing name : Text),
        calls[index]? = some (.getObjectId listing name) →
          ∃ id, answers[index]? = some (some id) ∧
            (after.directory system listing)[name]? = some id := by
  induction calls generalizing before answers with
  | nil =>
      obtain ⟨rfl, rfl⟩ := Prod.mk.inj (Except.ok.inj returned)
      exact ⟨sound, .refl _, by simp⟩
  | cons call calls inductionHypothesis =>
      rw [List.forall_mem_cons] at allowed
      obtain ⟨⟨answer, middle⟩, called, returned⟩ := Fallible.bind_eq_ok.mp returned
      obtain ⟨⟨answers', final⟩, rest, same⟩ := Fallible.bind_eq_ok.mp returned
      obtain ⟨rfl, rfl⟩ := Prod.mk.inj (Except.ok.inj same)
      obtain ⟨soundMiddle, extendsFirst, answersFirst⟩ :=
        call_spec distinctFiles range sound allowed.1 called
      obtain ⟨soundAfter, extendsRest, answersRest⟩ :=
        inductionHypothesis soundMiddle allowed.2 rest
      refine ⟨soundAfter, extendsFirst.trans extendsRest, ?_⟩
      intro index listing name isCall
      cases index with
      | zero =>
          obtain rfl := Option.some.inj isCall
          obtain ⟨id, rfl, found⟩ := answersFirst listing name rfl
          exact ⟨id, rfl, extendsRest listing allowed.1.1 name id found⟩
      | succ index => exact answersRest index listing name isCall

theorem run_error
    (failed : before.run system calls = .error message) :
    ∃ listing ∈ used, system.canWrite (system.resolve listing) = false ∧
      message = failToOpen system listing := by
  induction calls generalizing before with
  | nil => cases failed
  | cons call calls inductionHypothesis =>
      rw [List.forall_mem_cons] at allowed
      obtain failedCall | ⟨⟨answer, middle⟩, called, failed⟩ :=
        Fallible.bind_eq_error.mp failed
      · exact call_error range sound allowed.1 failedCall
      · obtain failedRest | ⟨_, -, failed⟩ := Fallible.bind_eq_error.mp failed
        · exact inductionHypothesis
            (call_spec distinctFiles range sound allowed.1 called).1 allowed.2 failedRest
        · cases failed

end

end ListingWorld

/-- The entries of the file of a listing before a run. -/
def InitialId {F : Type} (system : ListingSystem F) (world : ListingWorld F)
    (listing name : Text)
    (id : ObjectId) : Prop :=
  ∃ contents entries, world.files (system.resolve listing) = some contents ∧
    ListingFile contents entries ∧ (name, id) ∈ entries

/-- Object identifiers are stable. In every sequence of calls of `getObjectId`
and of destructions and creations of the object, all calls for a name of a
listing return the same identifier, the one in the initial file if the name is
there, and every identifier of an initial file is still returned at the end. A
sequence only fails at a listing whose file cannot be written. -/
theorem object_ids_stable {F : Type} [DecidableEq F] (system : ListingSystem F)
    (used : Set Text)
    (distinctFiles : Set.InjOn system.resolve used)
    (range : ∀ index, system.rand index < 2 ^ 31)
    (world : ListingWorld F) (fresh : world.listings = ∅)
    (wellFormed : ∀ listing ∈ used, ∀ contents,
      world.files (system.resolve listing) = some contents →
        ∃ entries, ListingFile contents entries)
    (calls : List ListingCall)
    (allowed : ∀ call ∈ calls, call.Allowed used) :
    (∀ message, world.run system calls = .error message →
      ∃ listing ∈ used, system.canWrite (system.resolve listing) = false ∧
        message = ListingWorld.failToOpen system listing) ∧
    ∀ answers final, world.run system calls = .ok (answers, final) →
      (∀ (index : Nat) (listing name : Text),
        calls[index]? = some (.getObjectId listing name) →
          ∃ id, answers[index]? = some (some id) ∧
            (∀ initial, InitialId system world listing name initial → id = initial) ∧
            ∀ other : Nat, calls[other]? = some (.getObjectId listing name) →
              answers[other]? = some (some id)) ∧
      ∀ listing ∈ used, listing ≠ [] → ∀ name initial,
        InitialId system world listing name initial →
          ∃ after, final.getObjectId system listing name = .ok (initial, after) := by
  have sound : world.Sound system used := by
    refine ⟨?_, ?_, ?_⟩
    · intro listing store inMemory
      rw [fresh, Std.ExtTreeMap.getElem?_empty] at inMemory
      cases inMemory
    · intro listing store inMemory
      rw [fresh, Std.ExtTreeMap.getElem?_empty] at inMemory
      cases inMemory
    · intro listing isUsed contents onDisk
      obtain ⟨entries, file⟩ := wellFormed listing isUsed contents onDisk
      obtain ⟨store, loaded, storable, -⟩ := file.loads listing
      exact ⟨store, loaded, storable⟩
  have known {listing name : Text} {initial : ObjectId}
      (isInitial : InitialId system world listing name initial) :
      (world.directory system listing)[name]? = some initial := by
    obtain ⟨contents, entries, onDisk, file, present⟩ := isInitial
    obtain ⟨store, loaded, -, found⟩ := file.loads listing
    have notInMemory : world.listings[listing]? = none := by
      rw [fresh, Std.ExtTreeMap.getElem?_empty]
    rw [ListingWorld.directory_of_file notInMemory onDisk loaded]
    exact found name initial present
  constructor
  · intro message failed
    exact ListingWorld.run_error distinctFiles range sound allowed failed
  · intro answers final returned
    obtain ⟨soundFinal, extended, answered⟩ :=
      ListingWorld.run_spec distinctFiles range sound allowed returned
    constructor
    · intro index listing name isCall
      obtain ⟨id, isAnswer, found⟩ := answered index listing name isCall
      have isUsed : listing ∈ used :=
        (allowed _ (List.mem_of_getElem? isCall)).1
      refine ⟨id, isAnswer, ?_, ?_⟩
      · intro initial isInitial
        have kept := extended listing isUsed name initial (known isInitial)
        exact Option.some.inj (found.symm.trans kept)
      · intro other isCall'
        obtain ⟨id', isAnswer', found'⟩ := answered other listing name isCall'
        obtain rfl := Option.some.inj (found.symm.trans found')
        exact isAnswer'
    · intro listing isUsed named name initial isInitial
      have nameable : Nameable name := by
        obtain ⟨contents, entries, -, file, present⟩ := isInitial
        exact file.nameable present
      obtain ⟨id, after, returned', answered'⟩ :=
        ListingWorld.getObjectId_answered range soundFinal isUsed named nameable
      have kept := extended listing isUsed name initial (known isInitial)
      obtain rfl : id = initial :=
        Option.some.inj (answered'.found.symm.trans (answered'.kept name initial kept))
      exact ⟨after, returned'⟩

/-- One listing file with one name. -/
def oneNameWorld : ListingWorld Text where
  files := fun file =>
    if file = "l".toList then some "a\t3:4\n".toList else none
  listings := ∅
  drawn := 0

/-- A new name before and after a restart, and the name of the file. -/
def restartCalls : List ListingCall :=
  [.getObjectId "l".toList "b".toList, .recreate,
    .getObjectId "l".toList "b".toList, .getObjectId "l".toList "a".toList]

/-- The new name keeps its identifier over the restart and the old name keeps
the one in the file. -/
theorem object_ids_stable_restart :
    ∃ (answers : List (Option ObjectId)) (final : ListingWorld Text),
      oneNameWorld.run plainSystem restartCalls = .ok (answers, final) ∧
      (∃ id, answers[0]? = some (some id) ∧ answers[2]? = some (some id)) ∧
      answers[3]? = some (some ⟨4, 3⟩) := by
  have file : ListingFile "a\t3:4\n".toList [("a".toList, ⟨4, 3⟩)] :=
    ⟨by decide +kernel, by decide, by decide, by unfold ObjectId.NonNegative; decide⟩
  obtain ⟨noError, stable⟩ := object_ids_stable plainSystem {"l".toList}
    Function.injective_id.injOn
    (fun index => (Nat.mod_lt index (by decide)).trans (by decide))
    oneNameWorld rfl
    (by
      rintro listing rfl contents onDisk
      obtain rfl : "a\t3:4\n".toList = contents := Option.some.inj onDisk
      exact ⟨_, file⟩)
    restartCalls
    (by
      simp only [restartCalls, List.forall_mem_cons, ListingCall.Allowed,
        Set.mem_singleton_iff, List.not_mem_nil, false_implies, implies_true,
        ← List.all_eq_true]
      decide)
  cases result : oneNameWorld.run plainSystem restartCalls with
  | error message =>
      obtain ⟨_, _, unwritable, _⟩ := noError message result
      cases unwritable
  | ok outcome =>
      obtain ⟨answers, final⟩ := outcome
      obtain ⟨answered, -⟩ := stable answers final result
      obtain ⟨first, isFirst, -, sameFirst⟩ := answered 0 _ _ rfl
      obtain ⟨last, isLast, initialLast, -⟩ := answered 3 _ _ rfl
      obtain rfl := initialLast ⟨4, 3⟩ ⟨_, _, rfl, file, by simp⟩
      exact ⟨answers, final, rfl, ⟨first, isFirst, sameFirst 2 rfl⟩, isLast⟩

end UmmapIo
