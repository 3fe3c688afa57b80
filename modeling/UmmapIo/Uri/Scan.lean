import UmmapIo.Uri.Grammar
import UmmapIo.Lib.Fallible

/-!
# The parser without regular expressions on the strings of the grammar

The loop of `noRegexParse` appends a word without separators to the text it is
in, wherever the word stands. On the text of an address it therefore reaches the
same object as `regexParse`, unless the path contains the end of the type again
or the query does not begin with a parameter: then it rejects the address.
-/

namespace UmmapIo

/-- The single characters that end a part, and the terminator. -/
def separators : Text := ['?', '&', '=', terminator]

/-- A text without any of the single separators. -/
def Plain (word : Text) : Prop :=
  ∀ c ∈ separators, c ∉ word

/-- The end of the type begins nowhere in a text that is followed by another
one. -/
def Clear (word rest : Text) : Prop :=
  ∀ tail, tail <:+ word → tail ≠ [] → ¬ typeEnd <+: tail ++ rest

variable {allowed : Char → Bool}

theorem Word.plain (word : Word allowed)
    (refused : (separators.all fun c => !allowed c) = true) :
    Plain word.text := by
  intro c separates
  have outside := List.all_eq_true.mp refused c separates
  exact word.notMem c (Bool.not_eq_true' _ |>.mp outside)

/-- A word over a class without the colon is clear. -/
theorem Word.clear (word : Word allowed) (refused : allowed ':' = false) (rest : Text) :
    Clear word.text rest := by
  intro tail isTail nonempty begins
  cases tail with
  | nil => exact nonempty rfl
  | cons c tail =>
      obtain ⟨more, same⟩ := begins
      have isColon : ':' = c := (List.cons.inj same).1
      subst isColon
      exact word.notMem ':' refused (isTail.subset (List.mem_cons_self ..))

variable {word rest : Text}

/-- A text that does not contain the end of the type is clear before a text
that does not begin inside it. -/
theorem clear_of_not_infix (notInfix : ¬ typeEnd <:+: word)
    (outside : ∀ c ∈ rest.head?, c ∉ typeEnd) :
    Clear word rest := by
  intro tail isTail nonempty begins
  by_cases long : typeEnd.length ≤ tail.length
  · have within : typeEnd <+: tail :=
      List.prefix_of_prefix_length_le begins (List.prefix_append _ _) long
    exact notInfix (within.isInfix.trans isTail.isInfix)
  · cases rest with
    | nil =>
        have := begins.length_le
        simp only [List.append_nil] at this
        omega
    | cons c rest =>
        have reaches : tail ++ [c] <+: typeEnd := by
          apply List.prefix_of_prefix_length_le _ begins
          · simp only [List.length_append, List.length_singleton]
            omega
          · exact ⟨rest, by simp⟩
        exact outside c rfl (reaches.subset (by simp))

namespace Plain

variable {c : Char}

theorem head {word : Text} (plain : Plain (c :: word)) :
    c ≠ '?' ∧ ¬ (c = '&' ∨ c = terminator) ∧ c ≠ '=' := by
  refine ⟨?_, ?_, ?_⟩
  · rintro rfl
    exact plain '?' (by decide) (List.mem_cons_self ..)
  · rintro (rfl | rfl)
    · exact plain '&' (by decide) (List.mem_cons_self ..)
    · exact plain terminator (by decide) (List.mem_cons_self ..)
  · rintro rfl
    exact plain '=' (by decide) (List.mem_cons_self ..)

theorem tail {word : Text} (plain : Plain (c :: word)) :
    Plain word :=
  fun separator separates present =>
    plain separator separates (List.mem_cons_of_mem c present)

end Plain

variable {c : Char}

theorem Clear.tail (clear : Clear (c :: word) rest) :
    Clear word rest :=
  fun tail isTail => clear tail (isTail.trans (List.suffix_cons c word))

theorem Clear.head (clear : Clear (c :: word) rest) :
    ¬ typeEnd <+: c :: (word ++ rest) :=
  clear (c :: word) (List.suffix_refl _) (List.cons_ne_nil _ _)

namespace UriScan

@[simp] theorem append_nil (scan : UriScan) : scan.append [] = scan := by
  obtain ⟨type, path, params, key, value, state, cur⟩ := scan
  cases cur <;> simp [append]

@[simp] theorem append_append (scan : UriScan) (first second : Text) :
    (scan.append first).append second = scan.append (first ++ second) := by
  obtain ⟨type, path, params, key, value, state, cur⟩ := scan
  cases cur <;> simp [append]

@[simp] theorem append_state (scan : UriScan) (text : Text) :
    (scan.append text).state = scan.state := by
  unfold append
  cases scan.cur <;> rfl

variable {rest : Text} {c : Char}

/-- A character where the end of the type does not begin. -/
theorem loop_cons (uri : Text) (scan : UriScan) (clear : ¬ typeEnd <+: c :: rest) :
    loop uri scan (c :: rest) =
      if c = '?' then do
        assumeArg (scan.state = .path) (unrecognizedFormat uri)
        loop uri (scan.enter .key) rest
      else if c = '&' ∨ c = terminator then do
        assumeArg (scan.state = .value ∨ scan.state = .path) (unrecognizedFormat uri)
        if scan.state = .value then loop uri (scan.store.enter .key) rest
        else loop uri scan rest
      else if c = '=' then do
        assumeArg (scan.state = .key) (unrecognizedFormat uri)
        loop uri (scan.enter .value) rest
      else loop uri (scan.append [c]) rest := by
  rw [loop]
  rintro rest' rfl rfl
  exact clear ⟨rest', rfl⟩

variable {word : Text}

theorem loop_plain_cons (uri : Text) (scan : UriScan) (plain : Plain (c :: word))
    (clear : ¬ typeEnd <+: c :: rest) :
    loop uri scan (c :: rest) = loop uri (scan.append [c]) rest := by
  obtain ⟨notMark, notEnd, notEquals⟩ := plain.head
  rw [loop_cons uri scan clear, if_neg notMark, if_neg notEnd, if_neg notEquals]

/-- A word without separators is appended to the current text. -/
theorem loop_append (uri : Text) (scan : UriScan) (plain : Plain word)
    (clear : Clear word rest) :
    loop uri scan (word ++ rest) = loop uri (scan.append word) rest := by
  induction word generalizing scan with
  | nil => simp
  | cons c word inductionHypothesis =>
      rw [List.cons_append, loop_plain_cons uri scan plain clear.head,
        inductionHypothesis _ plain.tail clear.tail]
      simp

/-- In the path the end of the type is rejected. -/
theorem loop_infix (uri : Text) (scan : UriScan) (inPath : scan.state = .path)
    (rest : Text) (plain : Plain word) (contains : typeEnd <:+: word) :
    loop uri scan (word ++ rest) = .error (unrecognizedFormat uri) := by
  induction word generalizing scan with
  | nil => exact absurd (List.eq_nil_of_infix_nil contains) (by decide)
  | cons c word inductionHypothesis =>
      by_cases begins : typeEnd <+: c :: (word ++ rest)
      · obtain ⟨more, same⟩ := begins
        rw [List.cons_append, ← same]
        change (assumeArg (scan.state = .type) (unrecognizedFormat uri) >>= fun _ =>
          loop uri (scan.enter .path) more) = _
        rw [inPath]
        rfl
      · rw [List.cons_append, loop_plain_cons uri scan plain begins]
        refine inductionHypothesis _ (by simp [inPath]) plain.tail ?_
        rcases List.infix_cons_iff.mp contains with isPrefix | inside
        · obtain ⟨more, same⟩ := isPrefix
          exact absurd ⟨more ++ rest, by rw [← List.append_assoc, same]; rfl⟩ begins
        · exact inside

/-! ## The states of the loop on an address -/

variable (uri type path : Text) (params : Params)

/-- The variables inside the path. -/
def inPath : UriScan :=
  ⟨type, path, params, [], [], .path, .path⟩

/-- The variables at the beginning of a parameter. -/
def atKey : UriScan :=
  ⟨type, path, params, [], [], .key, .key⟩

/-- The variables inside the value of a parameter. -/
def inValue (key value : Text) : UriScan :=
  ⟨type, path, params, key, value, .value, .value⟩

/-- A parameter leaves its name and its value in the variables of the loop. -/
theorem loop_param (param : UriParam) (rest : Text) :
    loop uri (atKey type path params) (param.text ++ rest) =
      loop uri (inValue type path params param.key.text param.value.text) rest := by
  have notBegun : ¬ typeEnd <+: '=' :: (param.value.text ++ rest) := by
    rintro ⟨more, same⟩
    cases same
  rw [UriParam.text, List.append_assoc,
    loop_append _ _ (param.key.plain (by decide)) (param.key.clear rfl _),
    List.cons_append, loop_cons _ _ notBegun]
  exact loop_append _ _ (param.value.plain (by decide)) (param.value.clear rfl _)

/-- At a separator the pending parameter is stored, and so are the following
ones. -/
theorem loop_separated (key value : Text) (more : List UriParam) :
    loop uri (inValue type path params key value)
        (UriParam.separated more ++ [terminator]) =
      .ok (atKey type path
        (more.foldl UriParam.insertInto (params.insert key value))) := by
  induction more generalizing params key value with
  | nil => rfl
  | cons param more inductionHypothesis =>
      have notBegun :
          ¬ typeEnd <+: '&' :: (param.text ++ (UriParam.separated more ++
            [terminator])) := by
        rintro ⟨_, same⟩
        cases same
      rw [UriParam.separated_cons, List.cons_append, List.append_assoc,
        loop_cons _ _ notBegun]
      change loop uri (atKey type path (params.insert key value)) _ = _
      rw [loop_param, inductionHypothesis]
      rfl

/-- The loop over a query that begins with a parameter. -/
theorem loop_query (first : UriParam) (more : List UriParam) :
    loop uri (inPath type path params)
        (UriQuery.text ⟨some first, more⟩ ++ [terminator]) =
      .ok (atKey type path (UriQuery.insertInto params ⟨some first, more⟩)) := by
  change loop uri (atKey type path params)
    ((first.text ++ UriParam.separated more) ++ [terminator]) = _
  rw [List.append_assoc, loop_param, loop_separated]
  rfl

/-- A query that does not begin with a parameter is rejected. -/
theorem loop_query_none (more : List UriParam) :
    loop uri (inPath type path params) (UriQuery.text ⟨none, more⟩ ++ [terminator]) =
      .error (unrecognizedFormat uri) := by
  cases more with
  | nil => rfl
  | cons param more => rfl

end UriScan

/-- The addresses that both parsers accept: the path does not contain the end
of the type and a query begins with a parameter. -/
def Address.Common (address : Address) : Prop :=
  ¬ typeEnd <:+: address.path.text ∧
    ∀ query ∈ address.query, query.first.isSome = true

/-- A path without the end of the type is clear in its address. -/
theorem Address.clear_path (address : Address)
    (notInfix : ¬ typeEnd <:+: address.path.text)
    {last : Text}
    (outside : ∀ c ∈ last.head?, c ∉ typeEnd) :
    Clear address.path.text (address.queryText ++ last) := by
  refine clear_of_not_infix notInfix ?_
  rw [Address.queryText]
  cases address.query with
  | none => exact outside
  | some query =>
      intro c begins
      obtain rfl : '?' = c := Option.some.inj begins
      decide

namespace Uri

/-- The loop of `noRegexParse` reaches the path of an address. -/
theorem loop_address (self : Uri) (uri : Text) (address : Address) :
    UriScan.loop uri self.startScan (address.text ++ [terminator]) =
      UriScan.loop uri (UriScan.inPath address.type.text [] self.params)
        (address.path.text ++ (address.queryText ++ [terminator])) := by
  rw [Address.text, List.append_assoc, List.append_assoc, List.append_assoc,
    UriScan.loop_append _ _ (address.type.plain (by decide)) (address.type.clear rfl _)]
  rfl

variable {address : Address}

/-- On an address that both accept, the second parser fills the object like the
first. -/
theorem noRegexParse_common (self : Uri) (common : address.Common) :
    self.noRegexParse address.text = .ok (address.fill self) := by
  obtain ⟨notInfix, begins⟩ := common
  have reached : UriScan.loop address.text self.startScan
        (address.text ++ [terminator]) =
      UriScan.loop address.text
        (UriScan.inPath address.type.text address.path.text self.params)
        (address.queryText ++ [terminator]) := by
    rw [loop_address,
      UriScan.loop_append _ _ (address.path.plain (by decide))
        (address.clear_path notInfix (by simp; decide))]
    rfl
  rw [noRegexParse, reached, Address.queryText, Address.fill]
  cases present : address.query with
  | none => rfl
  | some query =>
      obtain ⟨first, more⟩ := query
      obtain ⟨first, rfl⟩ := Option.isSome_iff_exists.mp (begins _ present)
      rw [Option.elim_some, UriScan.loop_query]
      rfl

/-- Every other address is rejected by the second parser. -/
theorem noRegexParse_not_common (self : Uri) (refused : ¬ address.Common) :
    self.noRegexParse address.text = .error (unrecognizedFormat address.text) := by
  have plain := address.path.plain (by decide)
  rw [noRegexParse, loop_address]
  by_cases contains : typeEnd <:+: address.path.text
  · rw [UriScan.loop_infix _ _ rfl _ plain contains]
    rfl
  · rw [UriScan.loop_append _ _ plain (address.clear_path contains (by simp; decide)),
      Address.queryText]
    cases present : address.query with
    | none =>
        refine absurd ⟨contains, ?_⟩ refused
        simp [present]
    | some query =>
        obtain ⟨first, more⟩ := query
        cases first with
        | none =>
            rw [Option.elim_some]
            change (UriScan.loop _
              (UriScan.inPath address.type.text address.path.text self.params) _ >>=
                _) = _
            rw [UriScan.loop_query_none]
            rfl
        | some first =>
            refine absurd ⟨contains, ?_⟩ refused
            simp [present]

end Uri
end UmmapIo
