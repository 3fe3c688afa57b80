import Mathlib.Data.Nat.Digits.Defs
import Mathlib.Data.List.TakeWhile

/-!
# Reading text with the functions of the C library

The lines that successive calls of `fgets` return, and the conversions of
`sscanf` for a word and for a signed decimal number. A number outside the range
of a 64-bit integer is read as the nearest end of the range.
-/

namespace UmmapIo
namespace CText

/-- White space. -/
def isSpace (c : Char) : Bool :=
  c ∈ [' ', '\t', '\n', '\x0b', '\x0c', '\r']

/-- The text behind leading white space. -/
def skipSpaces (text : List Char) : List Char :=
  text.dropWhile isSpace

/-- The lines that `fgets` returns with a buffer for `limit` characters, from
the characters already in the buffer on. -/
def readLines (limit : Nat)
    (buf : List Char) : List Char → List (List Char)
  | [] => if buf = [] then [] else [buf]
  | c :: rest =>
      if c = '\n' ∨ buf.length + 1 = limit then
        (buf ++ [c]) :: readLines limit [] rest
      else readLines limit (buf ++ [c]) rest

/-- The conversion of a word: it ends at white space. -/
def scanWord (text : List Char) : Option (List Char × List Char) :=
  let word := (skipSpaces text).takeWhile fun c => !isSpace c
  if word = [] then none
  else some (word, (skipSpaces text).dropWhile fun c => !isSpace c)

/-- The nearest number in the range of a 64-bit integer. -/
def clampLong (number : Int) : Int :=
  max (-2 ^ 63) (min number (2 ^ 63 - 1))

/-- The sign of a number, with the text behind it. -/
def scanSign : List Char → Int × List Char
  | '-' :: rest => (-1, rest)
  | '+' :: rest => (1, rest)
  | text => (1, text)

/-- The conversion of a signed decimal number. -/
def scanLong (text : List Char) : Option (Int × List Char) :=
  let (sign, text) := scanSign (skipSpaces text)
  let digits := text.takeWhile Char.isDigit
  if digits = [] then none
  else
    some (clampLong (sign * Nat.ofDigitChars 10 digits 0),
      text.dropWhile Char.isDigit)

/-- The function `atol`. A text that begins with no number is zero. -/
def atol (text : List Char) : Int :=
  ((scanLong text).map Prod.fst).getD 0

/-- A line with its end that fits in the buffer is read at once. -/
theorem readLines_line {limit : Nat} (line rest buf : List Char) (oneLine : '\n' ∉ line)
    (fits : (buf ++ line).length < limit) :
    readLines limit buf (line ++ '\n' :: rest) =
      (buf ++ line ++ ['\n']) :: readLines limit [] rest := by
  induction line generalizing buf with
  | nil => simp [readLines]
  | cons c line inductionHypothesis =>
      rw [List.mem_cons, not_or] at oneLine
      have inside : ¬ (c = '\n' ∨ buf.length + 1 = limit) := by
        rw [not_or]
        refine ⟨Ne.symm oneLine.1, ?_⟩
        simp only [List.length_append, List.length_cons] at fits
        omega
      rw [List.cons_append, readLines, if_neg inside,
        inductionHypothesis _ oneLine.2 (by simpa using fits)]
      simp

theorem takeWhile_append_stop {p : Char → Bool} {word rest : List Char}
    (all : ∀ c ∈ word, p c = true) (stops : ∀ c ∈ rest.head?, p c = false) :
    (word ++ rest).takeWhile p = word := by
  rw [List.takeWhile_append_of_pos all]
  cases rest with
  | nil => simp
  | cons c rest => simp [stops c rfl]

theorem dropWhile_append_stop {p : Char → Bool} {word rest : List Char}
    (all : ∀ c ∈ word, p c = true) (stops : ∀ c ∈ rest.head?, p c = false) :
    (word ++ rest).dropWhile p = rest := by
  rw [List.dropWhile_append_of_pos all]
  cases rest with
  | nil => rfl
  | cons c rest => simp [stops c rfl]

theorem mem_of_head_append {word rest : List Char} (nonempty : word ≠ []) {c : Char}
    (isHead : c ∈ (word ++ rest).head?) :
    c ∈ word := by
  cases word with
  | nil => exact absurd rfl nonempty
  | cons first word =>
      obtain rfl : first = c := Option.some.inj isHead
      exact List.mem_cons_self ..

theorem skipSpaces_of_head {text : List Char}
    (begins : ∀ c ∈ text.head?, isSpace c = false) :
    skipSpaces text = text := by
  cases text with
  | nil => rfl
  | cons c rest => simp [skipSpaces, begins c rfl]

theorem scanWord_append {word rest : List Char} (nonempty : word ≠ [])
    (noSpace : ∀ c ∈ word, isSpace c = false)
    (stops : ∀ c ∈ rest.head?, isSpace c = true) :
    scanWord (word ++ rest) = some (word, rest) := by
  have begins : skipSpaces (word ++ rest) = word ++ rest := by
    apply skipSpaces_of_head
    intro c isHead
    exact noSpace c (mem_of_head_append nonempty isHead)
  rw [scanWord, begins, takeWhile_append_stop, dropWhile_append_stop]
  · simp [nonempty]
  all_goals simpa

/-- Every word that is read is non-empty and has no white space. -/
theorem noSpace_of_scanWord {text word rest : List Char}
    (scanned : scanWord text = some (word, rest)) :
    word ≠ [] ∧ word ⊆ text ∧ ∀ c ∈ word, isSpace c = false := by
  rw [scanWord, Option.ite_none_left_eq_some] at scanned
  obtain ⟨nonempty, same⟩ := scanned
  obtain ⟨rfl, -⟩ := Prod.mk.inj (Option.some.inj same)
  refine ⟨nonempty, ?_, ?_⟩
  · intro c present
    exact (List.dropWhile_sublist _).subset ((List.takeWhile_sublist _).subset present)
  · intro c present
    simpa using List.mem_takeWhile_imp present

theorem scanSign_of_head {text : List Char}
    (begins : ∀ c ∈ text.head?, c.isDigit = true) :
    scanSign text = (1, text) := by
  cases text with
  | nil => rfl
  | cons c rest =>
      have digit : c.isDigit = true := begins c rfl
      unfold scanSign
      split
      · rename_i same
        obtain ⟨rfl, -⟩ := List.cons.inj same
        cases digit
      · rename_i same
        obtain ⟨rfl, -⟩ := List.cons.inj same
        cases digit
      · rfl

theorem isSpace_of_isDigit {c : Char} (digit : c.isDigit = true) :
    isSpace c = false := by
  rw [← Bool.not_eq_true]
  intro space
  simp only [isSpace, List.mem_cons, List.not_mem_nil, or_false, decide_eq_true_eq] at space
  rcases space with rfl | rfl | rfl | rfl | rfl | rfl <;> cases digit

/-- A word of digits is read as the number it denotes. -/
theorem scanLong_digits {digits rest : List Char} (nonempty : digits ≠ [])
    (decimal : ∀ c ∈ digits, c.isDigit = true)
    (stops : ∀ c ∈ rest.head?, c.isDigit = false) :
    scanLong (digits ++ rest) =
      some (clampLong (Nat.ofDigitChars 10 digits 0), rest) := by
  have begins : ∀ c ∈ (digits ++ rest).head?, c.isDigit = true := by
    intro c isHead
    exact decimal c (mem_of_head_append nonempty isHead)
  rw [scanLong, skipSpaces_of_head fun c isHead => isSpace_of_isDigit (begins c isHead),
    scanSign_of_head begins]
  simp only [takeWhile_append_stop decimal stops, dropWhile_append_stop decimal stops,
    one_mul]
  rw [if_neg nonempty]

/-- The decimal digits of a number are read as the number. -/
theorem scanLong_toDigits (number : Nat) {rest : List Char}
    (stops : ∀ c ∈ rest.head?, c.isDigit = false) :
    scanLong (Nat.toDigits 10 number ++ rest) = some (clampLong number, rest) := by
  rw [scanLong_digits Nat.toDigits_ne_nil ?_ stops, Nat.ofDigitChars_ten_toDigits]
  intro c present
  exact Nat.isDigit_of_mem_toDigits (by decide) (by decide) present

/-- The function `atol` on a word of digits. -/
theorem atol_digits {digits : List Char} (nonempty : digits ≠ [])
    (decimal : ∀ c ∈ digits, c.isDigit = true) :
    atol digits = clampLong (Nat.ofDigitChars 10 digits 0) := by
  have scanned := @scanLong_digits digits [] nonempty decimal (by simp)
  rw [List.append_nil] at scanned
  rw [atol, scanned]
  rfl

theorem clampLong_of_lt {number : Nat} (small : number < 2 ^ 63) :
    clampLong number = number := by
  unfold clampLong
  omega

end CText
end UmmapIo
