import UmmapIo.Uri.Grammar

/-!
# Writing a URI and reading it back

A type, a path and a list of parameters over the classes of the grammar are
written in the form of a URI. `regexParse` returns them: the type, the path, and
for every name the value of its last occurrence.
-/

namespace UmmapIo

/-- Write a URI: the query is left out when there is no parameter. -/
def renderUri (type : Word isTypeChar) (path : Word isPathChar)
    (params : List UriParam) : Text :=
  type.text ++ "://".toList ++ path.text ++
    match params with
    | [] => []
    | first :: more =>
        '?' :: (first.text ++ more.flatMap fun param => '&' :: param.text)

/-- The value of the last parameter with a name. -/
def lastValue (params : List UriParam)
    (name : Text) : Option Text :=
  (params.reverse.find? fun param => param.key.text = name).map
    fun param => param.value.text

theorem lastValue_cons (param : UriParam) (params : List UriParam) (name : Text) :
    lastValue (param :: params) name =
      (lastValue params name).or
        (if param.key.text = name then some param.value.text else none) := by
  rw [lastValue, List.reverse_cons, List.find?_append, Option.map_or, ← lastValue]
  congr 1
  by_cases same : param.key.text = name <;> simp [same]

/-- Storing parameters one after the other keeps the last value of each name. -/
theorem lookup_foldl_insertInto (params : List UriParam) (stored : Params)
    (name : Text) :
    (params.foldl UriParam.insertInto stored).lookup name =
      (lastValue params name).or (stored.lookup name) := by
  induction params generalizing stored with
  | nil => rfl
  | cons param params inductionHypothesis =>
      rw [List.foldl_cons, inductionHypothesis, lastValue_cons, Option.or_assoc]
      congr 1
      rw [UriParam.insertInto]
      by_cases same : param.key.text = name
      · subst same
        simp
      · rw [Finmap.lookup_insert_of_ne _ (Ne.symm same)]
        simp [same]

/-- The address that a list of parameters is written as. -/
def Address.ofParams (type : Word isTypeChar) (path : Word isPathChar)
    (params : List UriParam) : Address where
  type := type
  path := path
  query :=
    match params with
    | [] => none
    | first :: more => some ⟨some first, more⟩

theorem renderUri_eq (type : Word isTypeChar) (path : Word isPathChar)
    (params : List UriParam) :
    renderUri type path params = (Address.ofParams type path params).text := by
  cases params <;>
    simp [renderUri, Address.ofParams, Address.text, Address.queryText, UriQuery.text,
      UriParam.separated, typeEnd]

theorem ofParams_fill_params (type : Word isTypeChar) (path : Word isPathChar)
    (params : List UriParam) (self : Uri) :
    ((Address.ofParams type path params).fill self).params =
      params.foldl UriParam.insertInto self.params := by
  cases params <;> rfl

/-- Reading back what was written, into an object without parameters, gives the
type, the path and the last value of every name. -/
theorem uri_round_trip (type : Word isTypeChar) (path : Word isPathChar)
    (params : List UriParam) (self : Uri) (fresh : self.params = ∅) :
    ∃ parsed, self.regexParse (renderUri type path params) = .ok parsed ∧
      parsed.uri = renderUri type path params ∧
      parsed.type = type.text ∧
      parsed.path = path.text ∧
      ∀ name, parsed.params.lookup name = lastValue params name := by
  refine ⟨_, by rw [renderUri_eq, Uri.regexParse_text], (renderUri_eq _ _ _).symm,
    rfl, rfl, ?_⟩
  intro name
  rw [ofParams_fill_params, lookup_foldl_insertInto, fresh, Finmap.lookup_empty,
    Option.or_none]

/-- A path with the end of the type in it, and a name that occurs twice. -/
theorem uri_round_trip_repeated_name :
    ∃ parsed,
      Uri.reset.regexParse "mero://1://2?a=x&b=y&a=z".toList = .ok parsed ∧
        parsed.path = "1://2".toList ∧
        parsed.params.lookup "a".toList = some "z".toList ∧
        parsed.params.lookup "c".toList = none := by
  obtain ⟨parsed, read, -, -, samePath, values⟩ :=
    uri_round_trip ⟨"mero".toList, by decide, List.all_eq_true.mp rfl⟩
      ⟨"1://2".toList, by decide, List.all_eq_true.mp rfl⟩
      [⟨⟨"a".toList, by decide, List.all_eq_true.mp rfl⟩,
          ⟨"x".toList, by decide, List.all_eq_true.mp rfl⟩⟩,
        ⟨⟨"b".toList, by decide, List.all_eq_true.mp rfl⟩,
          ⟨"y".toList, by decide, List.all_eq_true.mp rfl⟩⟩,
        ⟨⟨"a".toList, by decide, List.all_eq_true.mp rfl⟩,
          ⟨"z".toList, by decide, List.all_eq_true.mp rfl⟩⟩]
      Uri.reset rfl
  exact ⟨parsed, read, samePath, values _, values _⟩

end UmmapIo
