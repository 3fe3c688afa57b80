import UmmapIo.Uri.Scan

/-!
# Where the two parsers agree

On a string of the grammar `noRegexParse` returns what `regexParse` returns
exactly when the path has no second end of the type and a query begins with a
parameter. A string that `noRegexParse` accepts is in the grammar exactly when
its sections are non-empty words over the classes of the grammar and no
separator of parameters stands before the query: these are the checks that the
loop does not make.
-/

namespace UmmapIo

/-- The characters that the grammar allows in a part. -/
def UriPart.allows : UriPart → Char → Bool
  | .type => isTypeChar
  | .path => isPathChar
  | .key => isKeyChar
  | .value => isValueChar

/-- The texts between the separators of a string, each with the part that its
separator opens. -/
def sections (part : UriPart)
    (buf : Text) : Text → List (UriPart × Text)
  | [] => [(part, buf)]
  | ':' :: '/' :: '/' :: rest => (part, buf) :: sections .path [] rest
  | c :: rest =>
      if c = '?' then (part, buf) :: sections .key [] rest
      else if c = '&' then (part, buf) :: sections .key [] rest
      else if c = '=' then (part, buf) :: sections .value [] rest
      else sections part (buf ++ [c]) rest

/-- A section that the grammar allows. -/
def AllowedSection (part : UriPart × Text) : Prop :=
  part.2 ≠ [] ∧ ∀ c ∈ part.2, part.1.allows c = true

instance decidableAllowedSection (part : UriPart × Text) :
    Decidable (AllowedSection part) :=
  inferInstanceAs (Decidable (_ ∧ _))

/-- The sections of a string are words of the grammar, and no separator of
parameters stands before the query. -/
def Sectioned (uri : Text) : Prop :=
  (∀ part ∈ sections .type [] uri, AllowedSection part) ∧
    '&' ∉ uri.takeWhile (· ≠ '?')

instance decidableSectioned (uri : Text) : Decidable (Sectioned uri) :=
  inferInstanceAs (Decidable (_ ∧ _))

/-- The query of a string is absent or begins with something else than a
separator. -/
def QueryBegins (uri : Text) : Prop :=
  uri.dropWhile (· ≠ '?') = [] ∨
    (uri.dropWhile (· ≠ '?'))[1]?.any (· ≠ '&') = true

instance decidableQueryBegins (uri : Text) : Decidable (QueryBegins uri) :=
  inferInstanceAs (Decidable (_ ∨ _))

/-- The end of the type stands only once before the query. -/
def TypeEndsOnce (uri : Text) : Prop :=
  ¬ typeEnd <:+: ((uri.takeWhile (· ≠ '?')).dropWhile (· ≠ ':')).drop 1

instance decidableTypeEndsOnce (uri : Text) : Decidable (TypeEndsOnce uri) :=
  inferInstanceAs (Decidable (¬ _))

/-! ## Addresses -/

namespace Address

theorem typeEndsOnce_text_iff (address : Address) :
    TypeEndsOnce address.text ↔ ¬ typeEnd <:+: address.path.text := by
  have noColon : ∀ c ∈ address.type.text, decide (c ≠ ':') = true := by
    intro c present
    rw [decide_eq_true_iff]
    rintro rfl
    exact address.type.notMem ':' rfl present
  have slash (rest : Text) : typeEnd <:+: '/' :: rest ↔ typeEnd <:+: rest := by
    rw [List.infix_cons_iff, or_iff_right]
    rintro ⟨_, same⟩
    cases same
  rw [TypeEndsOnce, takeWhile_text, beforeQuery,
    List.dropWhile_append_of_pos noColon]
  change ¬ typeEnd <:+: '/' :: '/' :: address.path.text ↔ _
  rw [slash, slash]

theorem queryBegins_text_iff (address : Address) :
    QueryBegins address.text ↔
      ∀ query ∈ address.query, query.first.isSome = true := by
  rw [QueryBegins, dropWhile_text, queryText]
  cases address.query with
  | none => simp
  | some query =>
      obtain ⟨first, more⟩ := query
      cases first with
      | none => cases more <;> simp [UriQuery.text]
      | some first =>
          obtain ⟨c, key, same⟩ := List.exists_cons_of_ne_nil first.key.nonempty
          have different : c ≠ '&' := by
            rintro rfl
            exact first.key.notMem '&' rfl (by simp [same])
          simp [UriQuery.text, UriParam.text, same, different]

end Address

/-! ## The sections of an address -/

theorem sections_cons (part : UriPart) (buf : Text) {c : Char} {rest : Text}
    (clear : ¬ typeEnd <+: c :: rest) :
    sections part buf (c :: rest) =
      if c = '?' then (part, buf) :: sections .key [] rest
      else if c = '&' then (part, buf) :: sections .key [] rest
      else if c = '=' then (part, buf) :: sections .value [] rest
      else sections part (buf ++ [c]) rest := by
  rw [sections]
  rintro rest' rfl rfl
  exact clear ⟨rest', rfl⟩

/-- A word without separators belongs to one section. -/
theorem sections_append (part : UriPart) (buf : Text) {word rest : Text}
    (plain : Plain word) (clear : Clear word rest) :
    sections part buf (word ++ rest) = sections part (buf ++ word) rest := by
  induction word generalizing buf with
  | nil => simp
  | cons c word inductionHypothesis =>
      obtain ⟨notMark, notEnd, notEquals⟩ := plain.head
      rw [not_or] at notEnd
      rw [List.cons_append, sections_cons _ _ clear.head, if_neg notMark,
        if_neg notEnd.1, if_neg notEquals,
        inductionHypothesis _ plain.tail clear.tail]
      simp

theorem allowedSection_word (part : UriPart) (word : Word part.allows) :
    AllowedSection (part, word.text) :=
  ⟨word.nonempty, word.chars⟩

theorem sections_param (param : UriParam) (rest : Text) :
    sections .key [] (param.text ++ rest) =
      (.key, param.key.text) :: sections .value param.value.text rest := by
  have notBegun : ¬ typeEnd <+: '=' :: (param.value.text ++ rest) := by
    rintro ⟨more, same⟩
    cases same
  rw [UriParam.text, List.append_assoc,
    sections_append _ _ (param.key.plain (by decide)) (param.key.clear rfl _),
    List.cons_append, sections_cons _ _ notBegun, if_neg (by decide),
    if_neg (by decide), if_pos rfl,
    sections_append _ _ (param.value.plain (by decide)) (param.value.clear rfl _)]
  rfl

/-- The sections of a sequence of parameters are allowed. -/
theorem allowed_sections_separated (value : Word isValueChar) (more : List UriParam) :
    ∀ part ∈ sections .value value.text (UriParam.separated more),
      AllowedSection part := by
  induction more generalizing value with
  | nil => simpa [sections] using allowedSection_word .value value
  | cons param more inductionHypothesis =>
      have notBegun : ¬ typeEnd <+: '&' :: (param.text ++ UriParam.separated more) := by
        rintro ⟨_, same⟩
        cases same
      rw [UriParam.separated_cons, sections_cons _ _ notBegun, if_neg (by decide),
        if_pos rfl, sections_param, List.forall_mem_cons, List.forall_mem_cons]
      exact ⟨allowedSection_word .value value, allowedSection_word .key param.key,
        inductionHypothesis param.value⟩

/-- An address that both parsers accept has allowed sections. -/
theorem Address.Common.sectioned {address : Address} (common : address.Common) :
    Sectioned address.text := by
  obtain ⟨notInfix, begins⟩ := common
  refine ⟨?_, ?_⟩
  · rw [Address.text,
      sections_append _ _ (address.type.plain (by decide)) (address.type.clear rfl _)]
    change ∀ part ∈ (UriPart.type, address.type.text) ::
      sections .path [] (address.path.text ++ address.queryText), AllowedSection part
    have clearPath : Clear address.path.text (address.queryText ++ []) :=
      address.clear_path notInfix (by simp)
    rw [List.append_nil] at clearPath
    rw [List.forall_mem_cons, sections_append _ _ (address.path.plain (by decide)) clearPath]
    refine ⟨allowedSection_word .type address.type, ?_⟩
    rw [Address.queryText]
    cases present : address.query with
    | none => simpa [sections] using allowedSection_word .path address.path
    | some query =>
        obtain ⟨first, more⟩ := query
        obtain ⟨first, rfl⟩ := Option.isSome_iff_exists.mp (begins _ present)
        change ∀ part ∈ (UriPart.path, address.path.text) ::
          sections .key [] (first.text ++ UriParam.separated more), AllowedSection part
        rw [sections_param, List.forall_mem_cons, List.forall_mem_cons]
        exact ⟨allowedSection_word .path address.path, allowedSection_word .key first.key,
          allowed_sections_separated first.value more⟩
  · rw [Address.takeWhile_text]
    exact address.beforeQuery_ne '&' (by decide) rfl rfl

/-! ## What an accepted string looks like -/

/-- The rest of a string of the grammar, from the beginning of a part on. -/
def Completes : UriPart → Text → Prop
  | .type, text => ∃ address : Address, text = address.text
  | .path, text =>
      ∃ (path : Word isPathChar) (query : Option UriQuery),
        text = path.text ++ query.elim [] UriQuery.text
  | .key, text =>
      ∃ (param : UriParam) (more : List UriParam),
        text = param.text ++ UriParam.separated more
  | .value, text =>
      ∃ (value : Word isValueChar) (more : List UriParam),
        text = value.text ++ UriParam.separated more

namespace Completes

variable {part rest : Text}

theorem type (allowed : AllowedSection (.type, part))
    (completes : Completes .path rest) :
    Completes .type (part ++ (typeEnd ++ rest)) := by
  obtain ⟨path, query, rfl⟩ := completes
  exact ⟨⟨⟨part, allowed.1, allowed.2⟩, path, query⟩, rfl⟩

theorem path (allowed : AllowedSection (.path, part))
    (completes : Completes .key rest) :
    Completes .path (part ++ '?' :: rest) := by
  obtain ⟨first, more, rfl⟩ := completes
  exact ⟨⟨part, allowed.1, allowed.2⟩, some ⟨some first, more⟩, rfl⟩

theorem key (allowed : AllowedSection (.key, part))
    (completes : Completes .value rest) :
    Completes .key (part ++ '=' :: rest) := by
  obtain ⟨value, more, rfl⟩ := completes
  exact ⟨⟨⟨part, allowed.1, allowed.2⟩, value⟩, more, by simp [UriParam.text]⟩

theorem value
    (allowed : AllowedSection (.value, part))
    (completes : Completes .key rest) :
    Completes .value (part ++ '&' :: rest) := by
  obtain ⟨param, more, rfl⟩ := completes
  exact ⟨⟨part, allowed.1, allowed.2⟩, param :: more, rfl⟩

end Completes

/-- What has been read of a section is the beginning of a section. -/
theorem exists_section (part : UriPart) (buf rest : Text) :
    ∃ more, (part, buf ++ more) ∈ sections part buf rest := by
  fun_induction sections part buf rest with
  | case6 part buf c rest _ _ _ _ inductionHypothesis =>
      obtain ⟨more, present⟩ := inductionHypothesis
      exact ⟨c :: more, by simpa using present⟩
  | _ => exact ⟨[], by simp⟩

/-- The end of the type does not reach over the terminator. -/
theorem not_typeEnd_terminated {text : Text} (clear : ¬ typeEnd <+: text) :
    ¬ typeEnd <+: text ++ [terminator] := by
  rw [List.prefix_concat_iff, not_or]
  refine ⟨?_, clear⟩
  intro same
  have : terminator ∈ typeEnd := by simp [same]
  revert this
  decide

/-- No separator of parameters stands before the query of what is left. -/
def Separated (part : UriPart) (rest : Text) : Prop :=
  part = .type ∨ part = .path → '&' ∉ rest.takeWhile (· ≠ '?')

namespace Separated

variable {part : UriPart}

theorem cons {c : Char} {rest : Text} (separated : Separated part (c :: rest))
    (notMark : c ≠ '?') :
    Separated part rest := by
  intro early present
  apply separated early
  rw [List.takeWhile_cons_of_pos (by simpa using notMark)]
  exact List.mem_cons_of_mem c present

theorem notAmpersand {rest : Text}
    (separated : Separated part ('&' :: rest)) :
    part ≠ .path := by
  rintro rfl
  exact separated (.inr rfl) (by simp)

theorem late (rest : Text) (notType : part ≠ .type) (notPath : part ≠ .path) :
    Separated part rest := by
  rintro (isType | isPath)
  · exact absurd isType notType
  · exact absurd isPath notPath

end Separated

namespace UriScan

/-- A string that the loop accepts and whose sections are allowed completes the
part that the loop is in. -/
theorem completes_of_loop (uri : Text) (scan after : UriScan) (part : UriPart)
    (buf rest : Text) (inPart : scan.state = part)
    (accepted : loop uri scan (rest ++ [terminator]) = .ok after)
    (allowed : ∀ parsed ∈ sections part buf rest, AllowedSection parsed)
    (separated : Separated part rest) :
    Completes part (buf ++ rest) := by
  fun_induction sections part buf rest generalizing scan with
  | case1 part buf =>
      rw [List.nil_append, loop_cons _ _ (by decide), if_neg (by decide),
        if_pos (.inr rfl)] at accepted
      obtain ⟨_, checked, -⟩ := Fallible.bind_eq_ok.mp accepted
      have last := allowed _ (List.mem_singleton_self _)
      rcases assumeArg_eq_ok.mp checked with isValue | isPath
      · obtain rfl : part = .value := inPart.symm.trans isValue
        exact ⟨⟨buf, last.1, last.2⟩, [], by simp⟩
      · obtain rfl : part = .path := inPart.symm.trans isPath
        exact ⟨⟨buf, last.1, last.2⟩, none, by simp⟩
  | case2 part buf rest inductionHypothesis =>
      obtain ⟨_, checked, accepted⟩ := Fallible.bind_eq_ok.mp accepted
      obtain rfl : part = .type := inPart.symm.trans (assumeArg_eq_ok.mp checked)
      rw [List.forall_mem_cons] at allowed
      have separatedPath : Separated .path rest := fun _ =>
        ((separated.cons (by decide)).cons (by decide)).cons (by decide) (.inl rfl)
      exact .type allowed.1 (inductionHypothesis _ rfl accepted allowed.2 separatedPath)
  | case3 part buf rest notBegun inductionHypothesis =>
      rw [List.cons_append, loop_cons _ _ (by rintro ⟨_, ⟨⟩⟩), if_pos rfl] at accepted
      obtain ⟨_, checked, accepted⟩ := Fallible.bind_eq_ok.mp accepted
      obtain rfl : part = .path := inPart.symm.trans (assumeArg_eq_ok.mp checked)
      rw [List.forall_mem_cons] at allowed
      exact .path allowed.1
        (inductionHypothesis _ rfl accepted allowed.2 (.late rest (by decide) (by decide)))
  | case4 part buf rest notBegun notMark inductionHypothesis =>
      rw [List.cons_append, loop_cons _ _ (by rintro ⟨_, ⟨⟩⟩), if_neg notMark,
        if_pos (.inl rfl)] at accepted
      obtain ⟨_, checked, accepted⟩ := Fallible.bind_eq_ok.mp accepted
      have isValue : scan.state = .value :=
        (assumeArg_eq_ok.mp checked).resolve_right
          fun isPath => separated.notAmpersand (inPart.symm.trans isPath)
      rw [if_pos isValue] at accepted
      obtain rfl : part = .value := inPart.symm.trans isValue
      rw [List.forall_mem_cons] at allowed
      exact .value allowed.1
        (inductionHypothesis _ rfl accepted allowed.2 (.late rest (by decide) (by decide)))
  | case5 part buf rest notBegun notMark notAmpersand inductionHypothesis =>
      rw [List.cons_append, loop_cons _ _ (by rintro ⟨_, ⟨⟩⟩), if_neg notMark,
        if_neg (by decide), if_pos rfl] at accepted
      obtain ⟨_, checked, accepted⟩ := Fallible.bind_eq_ok.mp accepted
      obtain rfl : part = .key := inPart.symm.trans (assumeArg_eq_ok.mp checked)
      rw [List.forall_mem_cons] at allowed
      exact .key allowed.1
        (inductionHypothesis _ rfl accepted allowed.2 (.late rest (by decide) (by decide)))
  | case6 part buf c rest notBegun notMark notAmpersand notEquals inductionHypothesis =>
      have notTerminator : c ≠ terminator := by
        rintro rfl
        obtain ⟨more, present⟩ := exists_section part (buf ++ [terminator]) rest
        have refused : part.allows terminator = false := by
          cases part <;> rfl
        rw [(allowed _ present).2 terminator (by simp)] at refused
        cases refused
      have clear : ¬ typeEnd <+: c :: rest := by
        rintro ⟨more, same⟩
        obtain ⟨isColon, isRest⟩ := List.cons.inj same
        exact notBegun more isColon.symm isRest.symm
      have clearEnd : ¬ typeEnd <+: c :: (rest ++ [terminator]) :=
        not_typeEnd_terminated clear
      rw [List.cons_append, loop_cons _ _ clearEnd, if_neg notMark,
        if_neg (not_or.mpr ⟨notAmpersand, notTerminator⟩), if_neg notEquals] at accepted
      have completes :=
        inductionHypothesis _ (by simpa using inPart) accepted allowed
          (separated.cons notMark)
      rwa [List.append_assoc] at completes

end UriScan

namespace Uri

/-- A string that `noRegexParse` accepts is in the grammar when its sections
are. -/
theorem accepted_of_noRegexParse (self after : Uri) (uri : Text)
    (parsed : self.noRegexParse uri = .ok after)
    (sectioned : Sectioned uri) :
    (cstUriRegexp.matchWhole uri).isSome := by
  obtain ⟨scan, accepted, -⟩ := Fallible.bind_eq_ok.mp parsed
  exact accepted_iff_address.mpr
    (UriScan.completes_of_loop uri self.startScan scan .type [] uri rfl accepted
      sectioned.1 fun _ => sectioned.2)

end Uri

/-- Where the two parsers agree. On a string of the grammar `noRegexParse`
returns the object that `regexParse` returns exactly when the end of the type does
not stand in the path again and a query begins with a parameter. A string that
`noRegexParse` accepts is in the grammar exactly when its sections are words over
the classes of the grammar and no separator of parameters stands before the
query. -/
theorem parsers_agree_iff (self : Uri) (uri : Text) :
    ((cstUriRegexp.matchWhole uri).isSome →
      ∃ parsed, self.regexParse uri = .ok parsed ∧
        (self.noRegexParse uri = .ok parsed ↔ TypeEndsOnce uri ∧ QueryBegins uri)) ∧
    (∀ parsed, self.noRegexParse uri = .ok parsed →
      ((cstUriRegexp.matchWhole uri).isSome ↔ Sectioned uri)) := by
  constructor
  · intro accepted
    obtain ⟨address, rfl⟩ := accepted_iff_address.mp accepted
    refine ⟨_, self.regexParse_text address, ?_⟩
    rw [address.typeEndsOnce_text_iff, address.queryBegins_text_iff]
    constructor
    · intro same
      by_contra refused
      rw [self.noRegexParse_not_common refused] at same
      cases same
    · exact self.noRegexParse_common
  · intro after parsed
    constructor
    · intro accepted
      obtain ⟨address, rfl⟩ := accepted_iff_address.mp accepted
      by_contra notSectioned
      rw [self.noRegexParse_not_common fun common => notSectioned common.sectioned]
        at parsed
      cases parsed
    · exact self.accepted_of_noRegexParse after uri parsed

/-- Both parsers read a file with two parameters. -/
theorem parsers_agree_iff_file :
    Uri.reset.regexParse "file://f.raw?mode=w+&size=1".toList =
        .ok ⟨"file://f.raw?mode=w+&size=1".toList, "file".toList, "f.raw".toList,
          ((∅ : Params).insert "mode".toList "w+".toList).insert "size".toList
            "1".toList⟩ ∧
      Uri.reset.noRegexParse "file://f.raw?mode=w+&size=1".toList =
        Uri.reset.regexParse "file://f.raw?mode=w+&size=1".toList ∧
      Sectioned "file://f.raw?mode=w+&size=1".toList := by
  have accepted :
      (cstUriRegexp.matchWhole "file://f.raw?mode=w+&size=1".toList).isSome := by
    decide +kernel
  have byRegex :
      Uri.reset.regexParse "file://f.raw?mode=w+&size=1".toList =
        .ok ⟨"file://f.raw?mode=w+&size=1".toList, "file".toList, "f.raw".toList,
          ((∅ : Params).insert "mode".toList "w+".toList).insert "size".toList
            "1".toList⟩ := by
    decide +kernel
  obtain ⟨agree, inGrammar⟩ :=
    parsers_agree_iff Uri.reset "file://f.raw?mode=w+&size=1".toList
  obtain ⟨parsed, byRegex', same⟩ := agree accepted
  obtain rfl := Except.ok.inj (byRegex.symm.trans byRegex')
  have byScan := same.mpr ⟨by decide +kernel, by decide +kernel⟩
  exact ⟨byRegex, byScan.trans byRegex.symm, (inGrammar _ byScan).mp accepted⟩

/-- The grammar accepts an empty query, a query that begins with a separator and
a path with the end of the type in it, and `noRegexParse` rejects them.
`noRegexParse` accepts an empty type, characters of no class and a separator in
the path, which it drops, and the grammar rejects them. -/
theorem parsers_disagree :
    ((cstUriRegexp.matchWhole "file://p?".toList).isSome ∧
      Uri.reset.noRegexParse "file://p?".toList =
        .error (unrecognizedFormat "file://p?".toList)) ∧
    ((cstUriRegexp.matchWhole "file://p?&a=b".toList).isSome ∧
      Uri.reset.noRegexParse "file://p?&a=b".toList =
        .error (unrecognizedFormat "file://p?&a=b".toList)) ∧
    ((cstUriRegexp.matchWhole "file://a://b".toList).isSome ∧
      Uri.reset.noRegexParse "file://a://b".toList =
        .error (unrecognizedFormat "file://a://b".toList)) ∧
    (Uri.reset.noRegexParse "file://a&b".toList =
        .ok ⟨"file://a&b".toList, "file".toList, "ab".toList, ∅⟩ ∧
      (cstUriRegexp.matchWhole "file://a&b".toList).isSome = false) ∧
    (Uri.reset.noRegexParse "://a b".toList =
        .ok ⟨"://a b".toList, [], "a b".toList, ∅⟩ ∧
      (cstUriRegexp.matchWhole "://a b".toList).isSome = false) := by
  refine ⟨⟨?_, ?_⟩, ⟨?_, ?_⟩, ⟨?_, ?_⟩, ⟨?_, ?_⟩, ⟨?_, ?_⟩⟩ <;> decide +kernel

end UmmapIo
