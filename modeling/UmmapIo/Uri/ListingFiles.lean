import UmmapIo.Uri.Listings

/-!
# Listing files

A listing whose names are words without white space, and whose identifiers are
not negative, is read back from its file as it was written.
-/

namespace UmmapIo

/-- A name that a line of a listing can hold. -/
structure Nameable (name : Text) : Prop where
  nonempty : name ≠ []
  noSpace : ∀ c ∈ name, CText.isSpace c = false
  noTerminator : terminator ∉ name
  short : name.length < 4000

/-- Neither number of an identifier is negative. -/
def ObjectId.NonNegative (id : ObjectId) : Prop :=
  0 ≤ id.low.toInt ∧ 0 ≤ id.high.toInt

/-- All names of a listing can be written and no identifier is negative. -/
def ObjectMap.Storable (store : ObjectMap) : Prop :=
  ∀ name id, store[name]? = some id → Nameable name ∧ id.NonNegative

theorem toNat_lt_of_nonneg {number : BitVec 64} (nonneg : 0 ≤ number.toInt) :
    number.toNat < 2 ^ 63 := by
  rw [BitVec.toInt_eq_toNat_cond] at nonneg
  split at nonneg <;> omega

/-- A number is read as it was written exactly when it is not negative. -/
theorem ofInt_clampLong_toNat_iff {number : BitVec 64} :
    BitVec.ofInt 64 (CText.clampLong number.toNat) = number ↔ 0 ≤ number.toInt := by
  constructor
  · intro same
    rw [← same, BitVec.toInt_ofInt_eq_self (by decide)]
    all_goals
      unfold CText.clampLong
      omega
  · intro nonneg
    rw [CText.clampLong_of_lt (toNat_lt_of_nonneg nonneg), BitVec.ofInt_natCast,
      BitVec.ofNat_toNat, BitVec.setWidth_eq]

/-- The identifier that is read where this one was written. -/
def ObjectId.reread (id : ObjectId) : ObjectId where
  low := BitVec.ofInt 64 (CText.clampLong id.low.toNat)
  high := BitVec.ofInt 64 (CText.clampLong id.high.toNat)

theorem ObjectId.reread_eq_iff (id : ObjectId) :
    id.reread = id ↔ id.NonNegative := by
  rw [NonNegative, ← ofInt_clampLong_toNat_iff, ← ofInt_clampLong_toNat_iff]
  exact Iff.of_eq (ObjectId.mk.injEq ..)

theorem toDigits_notMem (number : Nat) {c : Char} (notDigit : c.isDigit = false) :
    c ∉ Nat.toDigits 10 number := by
  intro present
  rw [Nat.isDigit_of_mem_toDigits (by decide) (by decide) present] at notDigit
  cases notDigit

/-- The text of a line before its end. -/
def ObjectId.lineText (id : ObjectId)
    (name : Text) : Text :=
  name ++ '\t' :: (Nat.toDigits 10 id.high.toNat ++ ':' :: Nat.toDigits 10 id.low.toNat)

/-- A character that is neither in the name nor a digit nor one of the
separators is not in the line. -/
theorem ObjectId.notMem_lineText (id : ObjectId) {name : Text} {c : Char}
    (notName : c ∉ name) (notDigit : c.isDigit = false) (notTab : c ≠ '\t')
    (notColon : c ≠ ':') :
    c ∉ id.lineText name := by
  simp only [lineText, List.mem_append, List.mem_cons, not_or]
  exact ⟨notName, notTab, toDigits_notMem _ notDigit, notColon,
    toDigits_notMem _ notDigit⟩

namespace Nameable

variable {name : Text} (nameable : Nameable name)
include nameable

theorem takeWhile_eq : name.takeWhile (· ≠ terminator) = name := by
  rw [List.takeWhile_eq_self_iff]
  intro c present
  rw [decide_eq_true_iff]
  rintro rfl
  exact nameable.noTerminator present

theorem line_eq (id : ObjectId) :
    id.line name = id.lineText name ++ ['\n'] := by
  rw [ObjectId.line, nameable.takeWhile_eq]
  simp [ObjectId.lineText]

theorem lineText_length_lt (id : ObjectId) :
    (id.lineText name).length < lineBufferSize - 1 := by
  have high := Nat.toDigits_length 10 id.high.toNat 20 (by decide)
    (id.high.isLt.trans (by norm_num))
  have low := Nat.toDigits_length 10 id.low.toNat 20 (by decide)
    (id.low.isLt.trans (by norm_num))
  have short := nameable.short
  simp only [ObjectId.lineText, List.length_append, List.length_cons, lineBufferSize]
  omega

theorem scanLine_line (id : ObjectId) :
    scanLine (id.line name) = some (name, id.reread) := by
  have whole : (id.line name).takeWhile (· ≠ terminator) = id.line name := by
    rw [List.takeWhile_eq_self_iff, nameable.line_eq]
    intro c present
    rw [decide_eq_true_iff]
    rintro rfl
    rcases List.mem_append.mp present with inLine | isEnd
    · exact id.notMem_lineText nameable.noTerminator (by decide) (by decide)
        (by decide) inLine
    · revert isEnd
      decide
  have behindName :
      CText.skipSpaces ('\t' :: (Nat.toDigits 10 id.high.toNat ++
          ':' :: (Nat.toDigits 10 id.low.toNat ++ ['\n']))) =
        Nat.toDigits 10 id.high.toNat ++
          ':' :: (Nat.toDigits 10 id.low.toNat ++ ['\n']) := by
    rw [CText.skipSpaces, List.dropWhile_cons_of_pos (by decide), ← CText.skipSpaces,
      CText.skipSpaces_of_head]
    intro c isHead
    exact CText.isSpace_of_isDigit (Nat.isDigit_of_mem_toDigits (by decide) (by decide)
      (CText.mem_of_head_append Nat.toDigits_ne_nil isHead))
  rw [scanLine, whole, ObjectId.line, nameable.takeWhile_eq,
    CText.scanWord_append nameable.nonempty nameable.noSpace (by simp; decide)]
  simp only [Option.bind_eq_bind, Option.bind_some]
  rw [behindName, CText.scanLong_toDigits _ (by simp)]
  simp only [Option.bind_some]
  rw [CText.scanLong_toDigits _ (by simp)]
  rfl

end Nameable

/-- A name that is read from a line is a word without the terminator. -/
theorem noTerminator_of_scanLine {line name : Text} {id : ObjectId}
    (scanned : scanLine line = some (name, id)) :
    name ≠ [] ∧ (∀ c ∈ name, CText.isSpace c = false) ∧ terminator ∉ name := by
  rw [scanLine] at scanned
  obtain ⟨⟨word, rest⟩, scannedWord, scanned⟩ := Option.bind_eq_some_iff.mp scanned
  obtain ⟨⟨high, rest⟩, -, scanned⟩ := Option.bind_eq_some_iff.mp scanned
  have sameName : word = name := by
    dsimp only at scanned
    split at scanned
    · obtain ⟨⟨low, rest⟩, -, same⟩ := Option.bind_eq_some_iff.mp scanned
      exact (Prod.mk.inj (Option.some.inj same)).1
    · cases scanned
  subst sameName
  obtain ⟨nonempty, within, noSpace⟩ := CText.noSpace_of_scanWord scannedWord
  refine ⟨nonempty, noSpace, fun present => ?_⟩
  simpa using List.mem_takeWhile_imp (within present)

/-! ## Whole files -/

/-- The lines of a file are those that were written. -/
theorem readLines_entries (entries : List (Text × ObjectId))
    (nameable : ∀ entry ∈ entries, Nameable entry.1) :
    CText.readLines (lineBufferSize - 1) []
        (entries.flatMap fun entry => entry.2.line entry.1) =
      entries.map fun entry => entry.2.line entry.1 := by
  induction entries with
  | nil => rfl
  | cons entry entries inductionHypothesis =>
      rw [List.forall_mem_cons] at nameable
      obtain ⟨named, nameable⟩ := nameable
      have oneLine : '\n' ∉ entry.1 := by
        intro present
        have noSpace := named.noSpace _ present
        revert noSpace
        decide
      rw [List.flatMap_cons, List.map_cons, named.line_eq, List.append_assoc,
        List.singleton_append,
        CText.readLines_line _ _ _ (entry.2.notMem_lineText oneLine (by decide)
          (by decide) (by decide)) (by simpa using named.lineText_length_lt entry.2),
        inductionHypothesis nameable]
      simp

/-- The names of written lines are added one after the other. -/
theorem addLines_entries (listing : Text) (store : ObjectMap)
    (entries : List (Text × ObjectId))
    (nameable : ∀ entry ∈ entries, Nameable entry.1) :
    addLines listing store (entries.map fun entry => entry.2.line entry.1) =
      .ok ((entries.map fun entry => (entry.1, entry.2.reread)).foldl
        (fun store entry => store.insert entry.1 entry.2) store) := by
  induction entries generalizing store with
  | nil => rfl
  | cons entry entries inductionHypothesis =>
      rw [List.forall_mem_cons] at nameable
      rw [List.map_cons, addLines, nameable.1.scanLine_line]
      exact inductionHypothesis _ nameable.2

/-- No line adds a name with the terminator. -/
theorem addLines_getElem?_of_terminator {listing name : Text} (cut : terminator ∈ name)
    {store loaded : ObjectMap} {lines : List Text} (absent : store[name]? = none)
    (loads : addLines listing store lines = .ok loaded) :
    loaded[name]? = none := by
  induction lines generalizing store with
  | nil =>
      cases loads
      exact absent
  | cons line rest inductionHypothesis =>
      rw [addLines] at loads
      split at loads
      · rename_i other id scanned
        refine inductionHypothesis ?_ loads
        rw [Std.ExtTreeMap.getElem?_insert, if_neg, absent]
        rw [Std.LawfulEqCmp.compare_eq_iff_eq]
        rintro rfl
        exact (noTerminator_of_scanLine scanned).2.2 cut
      · cases loads

namespace ObjectMap

/-- Looking up a name after some entries have been added. -/
theorem getElem?_foldl_insert_of_notMem (entries : List (Text × ObjectId))
    (store : ObjectMap) {name : Text} (absent : name ∉ entries.map Prod.fst) :
    (entries.foldl (fun store entry => store.insert entry.1 entry.2) store)[name]? =
      store[name]? := by
  induction entries generalizing store with
  | nil => rfl
  | cons entry entries inductionHypothesis =>
      rw [List.map_cons, List.mem_cons, not_or] at absent
      rw [List.foldl_cons, inductionHypothesis _ absent.2,
        Std.ExtTreeMap.getElem?_insert, if_neg]
      rw [Std.LawfulEqCmp.compare_eq_iff_eq]
      exact Ne.symm absent.1

/-- With distinct names every added entry is found. -/
theorem getElem?_foldl_insert_of_mem {entries : List (Text × ObjectId)}
    (distinct : (entries.map Prod.fst).Nodup)
    (store : ObjectMap) {name : Text} {id : ObjectId} (present : (name, id) ∈ entries) :
    (entries.foldl (fun store entry => store.insert entry.1 entry.2) store)[name]? =
      some id := by
  induction entries generalizing store with
  | nil => cases present
  | cons entry entries inductionHypothesis =>
      rw [List.map_cons, List.nodup_cons] at distinct
      rw [List.foldl_cons]
      rcases List.mem_cons.mp present with rfl | later
      · rw [getElem?_foldl_insert_of_notMem _ _ distinct.1,
          Std.ExtTreeMap.getElem?_insert_self]
      · exact inductionHypothesis distinct.2 _ later

theorem nodup_names (store : ObjectMap) : (store.toList.map Prod.fst).Nodup := by
  rw [List.nodup_iff_pairwise_ne, List.pairwise_map]
  refine store.distinct_keys_toList.imp ?_
  intro first second different same
  exact different (Std.LawfulEqCmp.compare_eq_iff_eq.mpr same)

/-- Adding all entries of a listing to an empty one gives the listing. -/
theorem foldl_insert_toList (store : ObjectMap) :
    store.toList.foldl (fun store entry => store.insert entry.1 entry.2)
      (∅ : ObjectMap) = store := by
  apply Std.ExtTreeMap.ext_getElem?
  intro name
  cases found : store[name]? with
  | some id =>
      exact getElem?_foldl_insert_of_mem store.nodup_names _
        (Std.ExtTreeMap.mem_toList_iff_getElem?_eq_some.mpr found)
  | none =>
      rw [getElem?_foldl_insert_of_notMem, Std.ExtTreeMap.getElem?_empty]
      intro present
      obtain ⟨⟨name', id⟩, listed, rfl⟩ := List.mem_map.mp present
      rw [Std.ExtTreeMap.mem_toList_iff_getElem?_eq_some.mp listed] at found
      cases found

/-- The listing that is read where this one was written. -/
def reread (store : ObjectMap) : ObjectMap :=
  (store.toList.map fun entry => (entry.1, entry.2.reread)).foldl
    (fun store entry => store.insert entry.1 entry.2) ∅

theorem reread_getElem? (store : ObjectMap) {name : Text} {id : ObjectId}
    (found : store[name]? = some id) :
    store.reread[name]? = some id.reread := by
  refine getElem?_foldl_insert_of_mem ?_ _ (List.mem_map.mpr ⟨(name, id), ?_, rfl⟩)
  · rw [List.map_map]
    exact store.nodup_names
  · exact Std.ExtTreeMap.mem_toList_iff_getElem?_eq_some.mpr found

/-- A listing is read as it was written exactly when no identifier is negative. -/
theorem reread_eq_iff (store : ObjectMap) :
    store.reread = store ↔
      ∀ (name : Text) (id : ObjectId), store[name]? = some id → id.NonNegative := by
  constructor
  · intro same name id found
    have again := store.reread_getElem? found
    rw [same, found] at again
    exact id.reread_eq_iff.mp (Option.some.inj again).symm
  · intro nonneg
    have unchanged :
        store.toList.map (fun entry => (entry.1, entry.2.reread)) = store.toList := by
      refine (List.map_congr_left fun entry listed => ?_).trans (List.map_id _)
      rw [entry.2.reread_eq_iff.mpr
        (nonneg _ _ (Std.ExtTreeMap.mem_toList_iff_getElem?_eq_some.mp listed))]
      rfl
    rw [reread, unchanged, foldl_insert_toList]

/-- A listing is read from the file it was written to. -/
theorem addLines_contents_eq (listing : Text) (store : ObjectMap)
    (nameable : ∀ (name : Text) (id : ObjectId), store[name]? = some id → Nameable name) :
    addLines listing ∅ (CText.readLines (lineBufferSize - 1) [] store.contents) =
      .ok store.reread := by
  have entries : ∀ entry ∈ store.toList, Nameable entry.1 := fun entry listed =>
    nameable _ _ (Std.ExtTreeMap.mem_toList_iff_getElem?_eq_some.mp listed)
  rw [contents, readLines_entries _ entries, addLines_entries _ _ _ entries, reread]

/-- A storable listing is read back from the file it was written to. -/
theorem addLines_contents (listing : Text) {store : ObjectMap}
    (storable : store.Storable) :
    addLines listing ∅ (CText.readLines (lineBufferSize - 1) [] store.contents) =
      .ok store := by
  rw [addLines_contents_eq listing store fun name id found => (storable name id found).1,
    (reread_eq_iff store).mpr fun name id found => (storable name id found).2]

end ObjectMap

namespace ListingWorld

variable {F : Type}

/-- A listing whose names fit in its lines is read without an error. -/
theorem load_contents (saved : ListingWorld F) (listing : Text) (store : ObjectMap)
    (nameable : ∀ (name : Text) (id : ObjectId), store[name]? = some id → Nameable name) :
    ∃ reloaded, { saved with listings := ∅ }.loadListing listing store.contents =
      .ok (store.reread, reloaded) := by
  rw [loadListing, Std.ExtTreeMap.getElem?_empty, Option.getD_none,
    ObjectMap.addLines_contents_eq listing store nameable]
  exact ⟨_, rfl⟩

theorem saved_contents [DecidableEq F] (system : ListingSystem F)
    (world : ListingWorld F) (listing : Text) (store : ObjectMap)
    (writable : system.canWrite (system.resolve listing) = true) :
    ∃ saved,
      world.saveListing system (listing, store) = .ok saved ∧
        saved.files (system.resolve listing) = some store.contents := by
  rw [saveListing, writable]
  exact ⟨_, rfl, Function.update_self ..⟩

end ListingWorld

/-- When listing files round-trip.  A listing of non-empty names without white space
and shorter than 4000 characters is written.  It is read without an error if no name
contains the terminator, and the same listing is read exactly when also no identifier
is negative. -/
theorem listing_round_trip_iff {F : Type} [DecidableEq F] (system : ListingSystem F)
    (world : ListingWorld F) (listing : Text) (store : ObjectMap)
    (named : ∀ (name : Text) (id : ObjectId), store[name]? = some id →
      name ≠ [] ∧ (∀ c ∈ name, CText.isSpace c = false) ∧ name.length < 4000)
    (writable : system.canWrite (system.resolve listing) = true) :
    ∃ saved contents,
      world.saveListing system (listing, store) = .ok saved ∧
      saved.files (system.resolve listing) = some contents ∧
      ((∀ (name : Text) (id : ObjectId), store[name]? = some id → terminator ∉ name) →
        ∃ loaded reloaded, { saved with listings := ∅ }.loadListing listing contents =
          .ok (loaded, reloaded)) ∧
      ((∃ reloaded, { saved with listings := ∅ }.loadListing listing contents =
          .ok (store, reloaded)) ↔
        ∀ (name : Text) (id : ObjectId), store[name]? = some id →
          terminator ∉ name ∧ id.NonNegative) := by
  obtain ⟨saved, written, onDisk⟩ := world.saved_contents system listing store writable
  have nameable
      (whole : ∀ (name : Text) (id : ObjectId), store[name]? = some id →
        terminator ∉ name) :
      ∀ (name : Text) (id : ObjectId), store[name]? = some id → Nameable name := by
    intro name id found
    obtain ⟨nonempty, noSpace, short⟩ := named name id found
    exact ⟨nonempty, noSpace, whole name id found, short⟩
  refine ⟨saved, store.contents, written, onDisk, ?_, ?_, ?_⟩
  · exact fun whole => ⟨_, saved.load_contents listing store (nameable whole)⟩
  · rintro ⟨reloaded, read⟩
    have whole (name : Text) (id : ObjectId) (found : store[name]? = some id) :
        terminator ∉ name := by
      intro cut
      obtain ⟨loaded, loads, same⟩ := Fallible.bind_eq_ok.mp read
      cases same
      rw [Std.ExtTreeMap.getElem?_empty, Option.getD_none] at loads
      have absent := addLines_getElem?_of_terminator cut
        Std.ExtTreeMap.getElem?_empty loads
      rw [found] at absent
      cases absent
    obtain ⟨_, again⟩ := saved.load_contents listing store (nameable whole)
    obtain ⟨same, _⟩ := Prod.mk.inj (Except.ok.inj (read.symm.trans again))
    intro name id found
    exact ⟨whole name id found,
      (ObjectMap.reread_eq_iff store).mp same.symm name id found⟩
  · intro storable
    obtain ⟨reloaded, read⟩ := saved.load_contents listing store
      (nameable fun name id found => (storable name id found).1)
    rw [(ObjectMap.reread_eq_iff store).mpr fun name id found =>
      (storable name id found).2] at read
    exact ⟨reloaded, read⟩

/-- Listing names that denote files of the same name, all writable. -/
def plainSystem : ListingSystem Text where
  resolve := id
  canWrite := fun _ => true
  strerror := []
  rand := fun index => index % 7

/-- One name with an identifier. -/
def oneName (id : ObjectId) : ObjectMap :=
  (∅ : ObjectMap).insert "a".toList id

theorem oneName_eq_some {id id' : ObjectId} {name : Text}
    (found : (oneName id)[name]? = some id') :
    name = "a".toList ∧ id' = id := by
  rw [oneName, Std.ExtTreeMap.getElem?_insert] at found
  split at found
  · rename_i same
    exact ⟨(Std.LawfulEqCmp.compare_eq_iff_eq.mp same).symm, (Option.some.inj found).symm⟩
  · rw [Std.ExtTreeMap.getElem?_empty] at found
    cases found

theorem nameable_oneName (id : ObjectId) :
    ∀ (name : Text) (id' : ObjectId), (oneName id)[name]? = some id' → Nameable name := by
  intro name id' found
  obtain ⟨rfl, _⟩ := oneName_eq_some found
  exact ⟨by decide, by simpa using (by decide), by decide, by decide⟩

/-- A name with a small identifier. -/
theorem listing_round_trip_iff_one_name :
    ∃ saved contents reloaded,
      (⟨fun _ => none, ∅, 0⟩ : ListingWorld Text).saveListing plainSystem
        ("l".toList, oneName ⟨4, 3⟩) = .ok saved ∧
      saved.files "l".toList = some contents ∧
      { saved with listings := ∅ }.loadListing "l".toList contents =
        .ok (oneName ⟨4, 3⟩, reloaded) := by
  have named (name : Text) (id : ObjectId) (found : (oneName ⟨4, 3⟩)[name]? = some id) :
      Nameable name ∧ id.NonNegative := by
    refine ⟨nameable_oneName _ name id found, ?_⟩
    obtain ⟨_, rfl⟩ := oneName_eq_some found
    unfold ObjectId.NonNegative
    decide
  obtain ⟨saved, contents, written, onDisk, _, same⟩ :=
    listing_round_trip_iff plainSystem ⟨fun _ => none, ∅, 0⟩ "l".toList (oneName ⟨4, 3⟩)
      (fun name id found =>
        have nameable := (named name id found).1
        ⟨nameable.nonempty, nameable.noSpace, nameable.short⟩) rfl
  obtain ⟨reloaded, read⟩ := same.mpr fun name id found =>
    ⟨(named name id found).1.noTerminator, (named name id found).2⟩
  exact ⟨saved, contents, reloaded, written, onDisk, read⟩

/-- A negative number is written as a large one, and the largest `long` is read. -/
theorem negative_identifier_is_not_read_back :
    ∃ saved contents loaded reloaded,
      (⟨fun _ => none, ∅, 0⟩ : ListingWorld Text).saveListing plainSystem
        ("l".toList, oneName ⟨-1, 0⟩) = .ok saved ∧
      saved.files "l".toList = some contents ∧
      { saved with listings := ∅ }.loadListing "l".toList contents =
        .ok (loaded, reloaded) ∧
      loaded["a".toList]? = some ⟨9223372036854775807, 0⟩ := by
  obtain ⟨saved, written, onDisk⟩ := ListingWorld.saved_contents plainSystem
    ⟨fun _ => none, ∅, 0⟩ "l".toList (oneName ⟨-1, 0⟩) rfl
  obtain ⟨reloaded, read⟩ := saved.load_contents "l".toList (oneName ⟨-1, 0⟩)
    (nameable_oneName _)
  refine ⟨saved, _, _, reloaded, written, onDisk, read, ?_⟩
  exact ObjectMap.reread_getElem? _ Std.ExtTreeMap.getElem?_insert_self

end UmmapIo
