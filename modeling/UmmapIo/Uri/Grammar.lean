import UmmapIo.Uri.Defs

/-!
# The strings of the URI grammar

An `Address` is a URI taken apart: its parts are non-empty words over the
classes of `cst_uri_regexp`. The regular expression accepts exactly the texts of
addresses, its first three groups hold the parts of one, and `regexParse` fills
the object with them.

The grammar lets a query begin with the separator of its parameters, or be
empty. `regexParse` then stores an empty value under the empty name.
-/

namespace UmmapIo

/-- A non-empty text of characters of one class. -/
structure Word (allowed : Char → Bool) : Type where
  /-- The characters of the word. -/
  text : Text
  nonempty : text ≠ []
  chars : ∀ c ∈ text, allowed c = true

/-- A character outside the class does not occur in a word. -/
theorem Word.notMem {allowed : Char → Bool} (word : Word allowed) (c : Char)
    (refused : allowed c = false) :
    c ∉ word.text := by
  intro present
  rw [word.chars c present] at refused
  cases refused

/-- A parameter of a URI. -/
structure UriParam : Type where
  /-- The name of the parameter. -/
  key : Word isKeyChar
  /-- The value of the parameter. -/
  value : Word isValueChar

namespace UriParam

/-- A parameter as it is written. -/
def text (param : UriParam) : Text :=
  param.key.text ++ '=' :: param.value.text

/-- A sequence of parameters, each behind its separator. -/
def separated (params : List UriParam) : Text :=
  params.flatMap fun param => '&' :: param.text

@[simp] theorem separated_nil : separated [] = [] := rfl

@[simp] theorem separated_cons (param : UriParam) (params : List UriParam) :
    separated (param :: params) = '&' :: (param.text ++ separated params) := rfl

/-- Store a parameter. -/
def insertInto (params : Params)
    (param : UriParam) : Params :=
  params.insert param.key.text param.value.text

end UriParam

/-- A query: the grammar makes its first parameter optional. -/
structure UriQuery : Type where
  /-- The parameter right behind the question mark. -/
  first : Option UriParam
  /-- The parameters behind a separator. -/
  more : List UriParam

namespace UriQuery

/-- A query as it is written. -/
def text (query : UriQuery) : Text :=
  '?' :: (query.first.elim [] UriParam.text ++ UriParam.separated query.more)

/-- The parameters after `regexParse` has read the query. -/
def insertInto (params : Params)
    (query : UriQuery) : Params :=
  query.more.foldl UriParam.insertInto
    (query.first.elim (params.insert [] []) (UriParam.insertInto params))

end UriQuery

/-- A URI of the grammar. -/
structure Address : Type where
  type : Word isTypeChar
  path : Word isPathChar
  query : Option UriQuery

namespace Address

/-- The query of an address as it is written. -/
def queryText (address : Address) : Text :=
  address.query.elim [] UriQuery.text

/-- An address as it is written. -/
def text (address : Address) : Text :=
  address.type.text ++ (typeEnd ++ (address.path.text ++ address.queryText))

/-- An object that holds the parts of an address. -/
def fill (address : Address)
    (self : Uri) : Uri where
  uri := address.text
  type := address.type.text
  path := address.path.text
  params := address.query.elim self.params (UriQuery.insertInto self.params)

/-- What an address has before its query. -/
def beforeQuery (address : Address) : Text :=
  address.type.text ++ (typeEnd ++ address.path.text)

theorem text_eq (address : Address) :
    address.text = address.beforeQuery ++ address.queryText := by
  simp [text, beforeQuery]

theorem beforeQuery_ne (address : Address) (separator : Char)
    (outside : separator ∉ typeEnd) (notType : isTypeChar separator = false)
    (notPath : isPathChar separator = false) :
    separator ∉ address.beforeQuery := by
  simp only [beforeQuery, List.mem_append, not_or]
  exact ⟨address.type.notMem _ notType, outside, address.path.notMem _ notPath⟩

theorem beforeQuery_notMark (address : Address) :
    ∀ c ∈ address.beforeQuery, decide (c ≠ '?') = true := by
  intro c present
  rw [decide_eq_true_iff]
  rintro rfl
  exact address.beforeQuery_ne '?' (by decide) rfl rfl present

/-- The query of an address begins at its first question mark. -/
theorem dropWhile_text (address : Address) :
    address.text.dropWhile (· ≠ '?') = address.queryText := by
  rw [text_eq, List.dropWhile_append_of_pos address.beforeQuery_notMark, queryText]
  cases address.query with
  | none => rfl
  | some query => rfl

theorem takeWhile_text (address : Address) :
    address.text.takeWhile (· ≠ '?') = address.beforeQuery := by
  rw [text_eq, List.takeWhile_append_of_pos address.beforeQuery_notMark, queryText]
  cases address.query with
  | none => simp
  | some query => simp [UriQuery.text]

/-- A text is the text of one address only. -/
theorem parts_of_text_eq {first second : Address} (same : first.text = second.text) :
    first.type.text = second.type.text ∧ first.path.text = second.path.text ∧
      first.queryText = second.queryText := by
  have sameQuery : first.queryText = second.queryText := by
    rw [← dropWhile_text, ← dropWhile_text, same]
  have sameBefore : first.beforeQuery = second.beforeQuery := by
    rw [← takeWhile_text, ← takeWhile_text, same]
  have typeOf (address : Address) :
      address.beforeQuery.takeWhile (· ≠ ':') = address.type.text := by
    rw [beforeQuery, List.takeWhile_append_of_pos]
    · simp [typeEnd]
    · intro c present
      rw [decide_eq_true_iff]
      rintro rfl
      exact address.type.notMem ':' rfl present
  have sameType : first.type.text = second.type.text := by
    rw [← typeOf, ← typeOf, sameBefore]
  refine ⟨sameType, ?_, sameQuery⟩
  rw [beforeQuery, beforeQuery, sameType] at sameBefore
  exact List.append_cancel_left (List.append_cancel_left sameBefore)

end Address

theorem assumeArg_ok {check : Prop} [Decidable check] (message : Text) (holds : check) :
    assumeArg check message = .ok () := by
  simp [assumeArg, holds]

theorem assumeArg_eq_ok {check : Prop} [Decidable check] {message : Text}
    {result : Unit} :
    assumeArg check message = .ok result ↔ check := by
  unfold assumeArg
  by_cases holds : check <;> simp [holds]

/-! ## The regular expression -/

variable {before after : Regex.Groups Char}

theorem reads_word_iff {allowed : Char → Bool} {word : Text} :
    (Regex.plus (.oneOf allowed)).Reads before word after ↔
      (∃ parsed : Word allowed, word = parsed.text) ∧ after = before := by
  rw [Regex.reads_plus_oneOf_iff]
  constructor
  · rintro ⟨nonempty, chars, same⟩
    exact ⟨⟨⟨word, nonempty, chars⟩, rfl⟩, same⟩
  · rintro ⟨⟨parsed, rfl⟩, same⟩
    exact ⟨parsed.nonempty, parsed.chars, same⟩

theorem reads_paramRegexp_iff {word : Text} :
    paramRegexp.Reads before word after ↔
      (∃ param : UriParam, word = param.text) ∧ after = before := by
  simp only [paramRegexp, Regex.reads_seq_iff, reads_word_iff,
    Regex.reads_literal_iff]
  constructor
  · rintro ⟨_, _, _, rfl, ⟨⟨key, rfl⟩, rfl⟩, _, _, _, rfl, ⟨rfl, rfl⟩,
      ⟨value, rfl⟩, rfl⟩
    exact ⟨⟨⟨key, value⟩, rfl⟩, rfl⟩
  · rintro ⟨⟨param, rfl⟩, rfl⟩
    exact ⟨_, _, _, rfl, ⟨⟨param.key, rfl⟩, rfl⟩, _, _, _, rfl, ⟨rfl, rfl⟩,
      ⟨param.value, rfl⟩, rfl⟩

/-- The parameter with its separator, as the fifth group reads it. -/
theorem reads_separatedParam_iff {word : Text} :
    (Regex.group 5 (.seq (.literal "&".toList) paramRegexp)).Reads before word after ↔
      (∃ param : UriParam, word = '&' :: param.text) ∧
        after = Function.update before 5 word := by
  simp only [Regex.reads_group_iff, Regex.reads_seq_iff, reads_paramRegexp_iff,
    Regex.reads_literal_iff]
  constructor
  · rintro ⟨_, ⟨_, _, _, rfl, ⟨rfl, rfl⟩, ⟨param, rfl⟩, rfl⟩, rfl⟩
    exact ⟨⟨param, rfl⟩, rfl⟩
  · rintro ⟨⟨param, rfl⟩, rfl⟩
    exact ⟨_, ⟨_, _, _, rfl, ⟨rfl, rfl⟩, ⟨param, rfl⟩, rfl⟩, rfl⟩

/-- The words of the repetition at the end of the query. -/
theorem exists_separated_of_parts (parts : List Text)
    (separatedParts : ∀ part ∈ parts, ∃ param : UriParam, part = '&' :: param.text) :
    ∃ params, parts.flatten = UriParam.separated params := by
  induction parts with
  | nil => exact ⟨[], rfl⟩
  | cons part parts inductionHypothesis =>
      rw [List.forall_mem_cons] at separatedParts
      obtain ⟨⟨param, rfl⟩, separatedRest⟩ := separatedParts
      obtain ⟨params, same⟩ := inductionHypothesis separatedRest
      exact ⟨param :: params, by simp [same]⟩

theorem query_of_reads {word : Text}
    (reads : queryRegexp.Reads before word after) :
    (∃ query : UriQuery, word = query.text) ∧ after 3 = word := by
  obtain ⟨middle, readsBody, rfl⟩ := Regex.reads_group_iff.mp reads
  refine ⟨?_, Function.update_self 3 word middle⟩
  obtain ⟨mark, rest, _, rfl, readsMark, readsRest⟩ := Regex.reads_seq_iff.mp readsBody
  obtain ⟨rfl, rfl⟩ := Regex.reads_literal_iff.mp readsMark
  obtain ⟨firstText, moreText, _, rfl, readsFirst, readsMore⟩ :=
    Regex.reads_seq_iff.mp readsRest
  obtain ⟨parts, rfl, readsParts⟩ := readsMore.star_parts
  obtain ⟨more, sameMore⟩ := exists_separated_of_parts parts fun part present => by
    obtain ⟨_, _, readsPart⟩ := readsParts part present
    exact (reads_separatedParam_iff.mp readsPart).1
  rw [sameMore]
  rcases Regex.reads_optional_iff.mp readsFirst with readsParam | ⟨rfl, -⟩
  · obtain ⟨_, readsParam, -⟩ := Regex.reads_group_iff.mp readsParam
    obtain ⟨⟨param, rfl⟩, -⟩ := reads_paramRegexp_iff.mp readsParam
    exact ⟨⟨some param, more⟩, rfl⟩
  · exact ⟨⟨none, more⟩, rfl⟩

theorem exists_reads_query (query : UriQuery) (before : Regex.Groups Char) :
    ∃ after, queryRegexp.Reads before query.text after := by
  obtain ⟨middle, readsFirst⟩ : ∃ middle,
      (Regex.optional (.group 4 paramRegexp)).Reads before
        (query.first.elim [] UriParam.text) middle := by
    cases query.first with
    | none => exact ⟨before, Regex.reads_optional_iff.mpr (.inr ⟨rfl, rfl⟩)⟩
    | some param =>
        exact ⟨_, Regex.reads_optional_iff.mpr
          (.inl (.group (reads_paramRegexp_iff.mpr ⟨⟨param, rfl⟩, rfl⟩)))⟩
  obtain ⟨after, readsMore⟩ :=
    Regex.reads_star_of_parts (.group 5 (.seq (.literal "&".toList) paramRegexp))
      (query.more.map fun param => '&' :: param.text)
      (by simp)
      (by
        intro part present groups
        obtain ⟨param, _, rfl⟩ := List.mem_map.mp present
        exact ⟨_, reads_separatedParam_iff.mpr ⟨⟨param, rfl⟩, rfl⟩⟩)
      middle
  exact ⟨_, .group (.seq (Regex.reads_literal_iff.mpr ⟨rfl, rfl⟩)
    (.seq readsFirst readsMore))⟩

/-- The regular expression reads only addresses, and its groups hold their
parts. -/
theorem address_of_reads {uri : Text} {groups : Regex.Groups Char}
    (reads : cstUriRegexp.Reads (fun _ => []) uri groups) :
    ∃ address : Address, uri = address.text ∧ groups 1 = address.type.text ∧
      groups 2 = address.path.text ∧ groups 3 = address.queryText := by
  obtain ⟨_, _, _, rfl, readsType, readsRest⟩ := Regex.reads_seq_iff.mp reads
  obtain ⟨_, readsTypeWord, rfl⟩ := Regex.reads_group_iff.mp readsType
  obtain ⟨⟨type, rfl⟩, rfl⟩ := reads_word_iff.mp readsTypeWord
  obtain ⟨_, _, _, rfl, readsEnd, readsRest⟩ := Regex.reads_seq_iff.mp readsRest
  obtain ⟨rfl, rfl⟩ := Regex.reads_literal_iff.mp readsEnd
  obtain ⟨_, _, _, rfl, readsPath, readsQuery⟩ := Regex.reads_seq_iff.mp readsRest
  obtain ⟨_, readsPathWord, rfl⟩ := Regex.reads_group_iff.mp readsPath
  obtain ⟨⟨path, rfl⟩, rfl⟩ := reads_word_iff.mp readsPathWord
  have typeGroup := readsQuery.group_eq 1 (by decide)
  have pathGroup := readsQuery.group_eq 2 (by decide)
  rcases Regex.reads_optional_iff.mp readsQuery with readsQuery | ⟨rfl, rfl⟩
  · obtain ⟨⟨query, rfl⟩, queryGroup⟩ := query_of_reads readsQuery
    exact ⟨⟨type, path, some query⟩, rfl, typeGroup, pathGroup, queryGroup⟩
  · exact ⟨⟨type, path, none⟩, rfl, typeGroup, pathGroup, rfl⟩

/-- The regular expression reads every address. -/
theorem exists_reads_address (address : Address) :
    ∃ groups, cstUriRegexp.Reads (fun _ => []) address.text groups := by
  obtain ⟨after, readsQuery⟩ : ∃ after,
      (Regex.optional queryRegexp).Reads
        (Function.update (Function.update (fun _ => []) 1 address.type.text) 2
          address.path.text)
        address.queryText after := by
    simp only [Regex.reads_optional_iff]
    cases query : address.query with
    | none => exact ⟨_, .inr ⟨by rw [Address.queryText, query]; rfl, rfl⟩⟩
    | some query' =>
        obtain ⟨after, reads⟩ := exists_reads_query query' _
        refine ⟨after, .inl ?_⟩
        rw [Address.queryText, query]
        exact reads
  exact ⟨after,
    .seq (.group (reads_word_iff.mpr ⟨⟨address.type, rfl⟩, rfl⟩))
      (.seq (Regex.reads_literal_iff.mpr ⟨rfl, rfl⟩)
        (.seq (.group (reads_word_iff.mpr ⟨⟨address.path, rfl⟩, rfl⟩)) readsQuery))⟩

/-- The grammar accepts exactly the texts of addresses. -/
theorem accepted_iff_address {uri : Text} :
    (cstUriRegexp.matchWhole uri).isSome ↔
      ∃ address : Address, uri = address.text := by
  constructor
  · intro accepted
    obtain ⟨groups, matched⟩ := Option.isSome_iff_exists.mp accepted
    obtain ⟨address, same, -⟩ :=
      address_of_reads (Regex.reads_of_matchWhole matched)
    exact ⟨address, same⟩
  · rintro ⟨address, rfl⟩
    obtain ⟨groups, reads⟩ := exists_reads_address address
    exact Regex.matchWhole_isSome reads

/-! ## Splitting the query -/

/-- A word without separators is appended to the buffer. -/
theorem splitArgs_append (params : Params) (name buf word rest : Text)
    (noAmpersand : '&' ∉ word) (noEquals : '=' ∉ word) :
    splitArgs params name buf (word ++ rest) =
      splitArgs params name (buf ++ word) rest := by
  induction word generalizing buf with
  | nil => simp
  | cons c word inductionHypothesis =>
      rw [List.mem_cons, not_or] at noAmpersand noEquals
      rw [List.cons_append, splitArgs, if_neg (Ne.symm noAmpersand.1),
        if_neg (Ne.symm noEquals.1),
        inductionHypothesis _ noAmpersand.2 noEquals.2]
      simp

/-- A parameter leaves its name and its value in the variables of the loop. -/
theorem splitArgs_param (params : Params) (param : UriParam) (rest : Text) :
    splitArgs params [] [] (param.text ++ rest) =
      splitArgs params param.key.text param.value.text rest := by
  rw [UriParam.text, List.append_assoc,
    splitArgs_append _ _ _ _ _ (param.key.notMem '&' rfl) (param.key.notMem '=' rfl),
    List.cons_append, splitArgs, if_neg (by decide), if_pos rfl,
    splitArgs_append _ _ _ _ _ (param.value.notMem '&' rfl)
      (param.value.notMem '=' rfl)]
  rfl

/-- At a separator the pending parameter is stored, and so are the following
ones. -/
theorem splitArgs_separated (params : Params) (name buf : Text) (more : List UriParam) :
    splitArgs params name buf (UriParam.separated more ++ ['&']) =
      more.foldl UriParam.insertInto (params.insert name buf) := by
  induction more generalizing params name buf with
  | nil => rfl
  | cons param more inductionHypothesis =>
      rw [UriParam.separated_cons, List.cons_append, splitArgs, if_pos rfl,
        List.append_assoc, splitArgs_param, inductionHypothesis]
      rfl

/-- The loop over a query stores all its parameters. -/
theorem splitArgs_query (params : Params) (query : UriQuery) :
    splitArgs params [] [] ((query.text ++ ['&']).drop 1) =
      query.insertInto params := by
  change splitArgs params [] []
    ((query.first.elim [] UriParam.text ++ UriParam.separated query.more) ++ ['&']) = _
  rw [List.append_assoc, UriQuery.insertInto]
  cases query.first with
  | none => exact splitArgs_separated params [] [] query.more
  | some param =>
      rw [Option.elim_some, splitArgs_param, splitArgs_separated]
      rfl

/-- The parameters of a filled object are those that the loop stores. -/
theorem Address.fill_params (address : Address) (self : Uri) :
    (address.fill self).params =
      if address.queryText ≠ [] then
        splitArgs self.params [] [] ((address.queryText ++ ['&']).drop 1)
      else self.params := by
  obtain ⟨type, path, query⟩ := address
  cases query with
  | none => rfl
  | some query =>
      have nonempty : queryText ⟨type, path, some query⟩ ≠ [] := List.cons_ne_nil _ _
      rw [if_pos nonempty]
      exact (splitArgs_query self.params query).symm

namespace Uri

/-- On a string of the grammar `regexParse` fills the object with the parts of
its address. -/
theorem regexParse_text (self : Uri) (address : Address) :
    self.regexParse address.text = .ok (address.fill self) := by
  obtain ⟨groups, matched⟩ :=
    Option.isSome_iff_exists.mp (accepted_iff_address.mpr ⟨address, rfl⟩)
  obtain ⟨read, sameText, typeGroup, pathGroup, queryGroup⟩ :=
    address_of_reads (Regex.reads_of_matchWhole matched)
  obtain ⟨sameType, samePath, sameQuery⟩ := Address.parts_of_text_eq sameText
  rw [← sameType] at typeGroup
  rw [← samePath] at pathGroup
  rw [← sameQuery] at queryGroup
  rw [regexParse, matched]
  simp only [typeGroup, pathGroup, queryGroup, ← Address.fill_params]
  rfl

end Uri
end UmmapIo
