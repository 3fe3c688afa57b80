import UmmapIo.Lib.CText
import UmmapIo.Lib.Fallible
import UmmapIo.Uri.Grammar

/-!
# Memory sizes with units

The two parsers of memory sizes such as `4096`, `4KB` or `8MB`.
`fromHumanMemSizeRegexp` matches the string against `cstHumanMemSizeRegex`, and
`fromHumanMemSizeNoRegexp` replaces it where regular expressions are not supported.
Both convert the number with `atol`, which stops at the largest `long`, and multiply
it in a word of 64 bits.

A `HumanSize` is a string of the grammar taken apart. Both parsers accept exactly the
texts of sizes whose number is not zero, and they return the same word for them.
-/

namespace UmmapIo

/-- The regular expression `([0-9]+)([KMGT]?B)?`. -/
def cstHumanMemSizeRegex : Regex Char :=
  .seq (.group 1 (.plus (.oneOf Char.isDigit)))
    (.optional (.group 2
      (.seq (.optional (.oneOf (· ∈ "KMGT".toList))) (.literal "B".toList))))

/-- Message of a string that is no memory size. -/
def invalidSizeFormat (value : Text) : Text :=
  "Fail to match human memory size, invalid format : '".toList ++ value ++ "'".toList

/-- Message of a size of zero. -/
def invalidNullSize (value : Text) : Text :=
  "Invalid null size : ".toList ++ value ++ "\n".toList

/-- Message of a unit that is not known. -/
def invalidSizeUnit (value : Text) : Text :=
  "Invalid unit: ".toList ++ value

/-- The loop of `fromHumanMemSizeNoRegexp`, which splits a string into its number and
its unit. -/
def splitSize
    (value number unit : Text) : Text → Except Text (Text × Text)
  | [] => .ok (number, unit)
  | c :: rest =>
      if c.isDigit then do
        assumeArg (unit = []) (invalidSizeFormat value)
        splitSize value (number ++ [c]) unit rest
      else if c = 'K' ∨ c = 'M' ∨ c = 'G' ∨ c = 'T' ∨ c = 'B' then
        splitSize value number (unit ++ [c]) rest
      else .error (invalidSizeFormat value)

/-- `fromHumanMemSizeNoRegexp`. -/
def fromHumanMemSizeNoRegexp (value : Text) : Except Text UInt64 := do
  let (number, unit) ← splitSize value [] [] value
  let res := UInt64.ofInt (CText.atol number)
  assumeArg (res > 0) (invalidNullSize value)
  if unit = [] ∨ unit = "B".toList then .ok res
  else if unit = "KB".toList then .ok (res * 1024)
  else if unit = "MB".toList then .ok (res * (1024 * 1024))
  else if unit = "GB".toList then .ok (res * (1024 * 1024 * 1024))
  else if unit = "TB".toList then .ok (res * (1024 * 1024 * 1024 * 1024))
  else .error (invalidSizeUnit value)

/-- `fromHumanMemSizeRegexp`. -/
def fromHumanMemSizeRegexp (value : Text) : Except Text UInt64 :=
  match cstHumanMemSizeRegex.matchWhole value with
  | none => .error (invalidSizeFormat value)
  | some groups => do
      let unit := groups 2
      let res := UInt64.ofInt (CText.atol (groups 1))
      assumeArg (res > 0) (invalidNullSize value)
      if unit = "KB".toList then .ok (res * 1024)
      else if unit = "MB".toList then .ok (res * (1024 * 1024))
      else if unit = "GB".toList then .ok (res * (1024 * 1024 * 1024))
      else if unit = "TB".toList then .ok (res * (1024 * 1024 * 1024 * 1024))
      else .ok res

/-- `fromHumanMemSize`. Building the regular expression throws an exception where
regular expressions are not supported. -/
def fromHumanMemSize (regexpSupported : Bool)
    (value : Text) : Except Text UInt64 :=
  if regexpSupported then fromHumanMemSizeRegexp value
  else fromHumanMemSizeNoRegexp value

/-! ## Sizes of the grammar -/

/-- The units of the grammar. -/
inductive SizeUnit : Type
  | none
  | bytes
  | kilo
  | mega
  | giga
  | tera
  deriving DecidableEq

namespace SizeUnit

/-- A unit as it is written. -/
def text : SizeUnit → Text
  | .none => []
  | .bytes => "B".toList
  | .kilo => "KB".toList
  | .mega => "MB".toList
  | .giga => "GB".toList
  | .tera => "TB".toList

/-- The number of bytes of a unit. -/
def factor : SizeUnit → Nat
  | .none => 1
  | .bytes => 1
  | .kilo => 1024
  | .mega => 1024 * 1024
  | .giga => 1024 * 1024 * 1024
  | .tera => 1024 * 1024 * 1024 * 1024

theorem text_injective : Function.Injective text := by
  intro first second same
  cases first <;> cases second <;> first | rfl | cases same

theorem text_notDigit (unit : SizeUnit) :
    ∀ c ∈ unit.text.head?, c.isDigit = false := by
  cases unit <;> rintro _ ⟨⟩ <;> rfl

end SizeUnit

/-- A memory size of the grammar. -/
structure HumanSize : Type where
  number : Word Char.isDigit
  unit : SizeUnit

namespace HumanSize

/-- A size as it is written. -/
def text (size : HumanSize) : Text :=
  size.number.text ++ size.unit.text

/-- The number before the unit. -/
def count (size : HumanSize) : Nat :=
  Nat.ofDigitChars 10 size.number.text 0

/-- The number of bytes that a size denotes. -/
def bytes (size : HumanSize) : Nat :=
  size.count * size.unit.factor

/-- The word that the number is converted to. -/
def converted (size : HumanSize) : UInt64 :=
  UInt64.ofInt (CText.clampLong size.count)

/-- The word that the parsers compute. -/
def word (size : HumanSize) : UInt64 :=
  size.converted * UInt64.ofNat size.unit.factor

theorem atol_number (size : HumanSize) :
    CText.atol size.number.text = CText.clampLong size.count :=
  CText.atol_digits size.number.nonempty size.number.chars

/-- The number of a size ends where its unit begins. -/
theorem takeWhile_text (size : HumanSize) :
    size.text.takeWhile Char.isDigit = size.number.text :=
  CText.takeWhile_append_stop size.number.chars size.unit.text_notDigit

theorem parts_of_text_eq {first second : HumanSize} (same : first.text = second.text) :
    first.number.text = second.number.text ∧ first.unit = second.unit := by
  have sameNumber : first.number.text = second.number.text := by
    rw [← takeWhile_text, ← takeWhile_text, same]
  refine ⟨sameNumber, SizeUnit.text_injective ?_⟩
  rw [text, text, sameNumber] at same
  exact List.append_cancel_left same

end HumanSize

/-! ## The regular expression -/

theorem reads_unit_iff {before after : Regex.Groups Char} {word : Text} :
    (Regex.seq (.optional (.oneOf (· ∈ "KMGT".toList))) (.literal "B".toList)).Reads
        before word after ↔
      (∃ unit ≠ SizeUnit.none, word = unit.text) ∧ after = before := by
  simp only [Regex.reads_seq_iff, Regex.reads_optional_iff, Regex.reads_literal_iff,
    Regex.reads_oneOf_iff]
  constructor
  · rintro ⟨_, _, _, rfl, ⟨⟨letter, allowed, rfl⟩, rfl⟩ | ⟨rfl, rfl⟩, rfl, rfl⟩
    · have known : letter = 'K' ∨ letter = 'M' ∨ letter = 'G' ∨ letter = 'T' := by
        simpa using allowed
      refine ⟨?_, rfl⟩
      rcases known with rfl | rfl | rfl | rfl
      · exact ⟨.kilo, by decide, rfl⟩
      · exact ⟨.mega, by decide, rfl⟩
      · exact ⟨.giga, by decide, rfl⟩
      · exact ⟨.tera, by decide, rfl⟩
    · exact ⟨⟨.bytes, by decide, rfl⟩, rfl⟩
  · rintro ⟨⟨unit, present, rfl⟩, rfl⟩
    cases unit with
    | none => exact absurd rfl present
    | bytes => exact ⟨[], _, _, rfl, .inr ⟨rfl, rfl⟩, rfl, rfl⟩
    | kilo => exact ⟨_, _, _, rfl, .inl ⟨⟨'K', by decide, rfl⟩, rfl⟩, rfl, rfl⟩
    | mega => exact ⟨_, _, _, rfl, .inl ⟨⟨'M', by decide, rfl⟩, rfl⟩, rfl, rfl⟩
    | giga => exact ⟨_, _, _, rfl, .inl ⟨⟨'G', by decide, rfl⟩, rfl⟩, rfl, rfl⟩
    | tera => exact ⟨_, _, _, rfl, .inl ⟨⟨'T', by decide, rfl⟩, rfl⟩, rfl, rfl⟩

/-- The regular expression reads only sizes, and its groups hold their parts. -/
theorem humanSize_of_reads {value : Text} {groups : Regex.Groups Char}
    (reads : cstHumanMemSizeRegex.Reads (fun _ => []) value groups) :
    ∃ size : HumanSize, value = size.text ∧ groups 1 = size.number.text ∧
      groups 2 = size.unit.text := by
  obtain ⟨_, _, _, rfl, readsNumber, readsUnit⟩ := Regex.reads_seq_iff.mp reads
  obtain ⟨_, readsWord, rfl⟩ := Regex.reads_group_iff.mp readsNumber
  obtain ⟨⟨number, rfl⟩, rfl⟩ := reads_word_iff.mp readsWord
  have numberGroup := readsUnit.group_eq 1 (by decide)
  rcases Regex.reads_optional_iff.mp readsUnit with readsGroup | ⟨rfl, rfl⟩
  · obtain ⟨_, readsText, rfl⟩ := Regex.reads_group_iff.mp readsGroup
    obtain ⟨⟨unit, _, rfl⟩, rfl⟩ := reads_unit_iff.mp readsText
    exact ⟨⟨number, unit⟩, rfl, numberGroup, rfl⟩
  · exact ⟨⟨number, .none⟩, rfl, numberGroup, rfl⟩

/-- The regular expression reads every size. -/
theorem exists_reads_humanSize (size : HumanSize) :
    ∃ groups, cstHumanMemSizeRegex.Reads (fun _ => []) size.text groups := by
  have readsNumber :
      (Regex.group 1 (.plus (.oneOf Char.isDigit))).Reads (fun _ => [])
        size.number.text (Function.update (fun _ => []) 1 size.number.text) :=
    .group (reads_word_iff.mpr ⟨⟨size.number, rfl⟩, rfl⟩)
  by_cases absent : size.unit = .none
  · exact ⟨_, .seq readsNumber
      (Regex.reads_optional_iff.mpr (.inr ⟨by rw [absent]; rfl, rfl⟩))⟩
  · exact ⟨_, .seq readsNumber
      (Regex.reads_optional_iff.mpr
        (.inl (.group (reads_unit_iff.mpr ⟨⟨_, absent, rfl⟩, rfl⟩))))⟩

theorem HumanSize.matchWhole_text (size : HumanSize) :
    ∃ groups, cstHumanMemSizeRegex.matchWhole size.text = some groups ∧
      groups 1 = size.number.text ∧ groups 2 = size.unit.text := by
  obtain ⟨_, reads⟩ := exists_reads_humanSize size
  obtain ⟨groups, matched⟩ := Option.isSome_iff_exists.mp (Regex.matchWhole_isSome reads)
  obtain ⟨other, sameText, numberGroup, unitGroup⟩ :=
    humanSize_of_reads (Regex.reads_of_matchWhole matched)
  obtain ⟨sameNumber, sameUnit⟩ := HumanSize.parts_of_text_eq sameText
  exact ⟨groups, matched, by rw [numberGroup, sameNumber], by rw [unitGroup, sameUnit]⟩

/-- The multiplications of `fromHumanMemSizeRegexp`. -/
theorem scaled_regexp (res : UInt64) (unit : SizeUnit) :
    (if unit.text = "KB".toList then .ok (res * 1024)
      else if unit.text = "MB".toList then .ok (res * (1024 * 1024))
      else if unit.text = "GB".toList then .ok (res * (1024 * 1024 * 1024))
      else if unit.text = "TB".toList then .ok (res * (1024 * 1024 * 1024 * 1024))
      else .ok res : Except Text UInt64) = .ok (res * UInt64.ofNat unit.factor) := by
  cases unit with
  | none => exact congrArg Except.ok (UInt64.mul_one res).symm
  | bytes => exact congrArg Except.ok (UInt64.mul_one res).symm
  | kilo => rfl
  | mega => rfl
  | giga => rfl
  | tera => rfl

/-- What `fromHumanMemSizeRegexp` accepts. -/
theorem fromHumanMemSizeRegexp_eq_ok {value : Text} {result : UInt64} :
    fromHumanMemSizeRegexp value = .ok result ↔
      ∃ size : HumanSize, value = size.text ∧ 0 < size.converted ∧
        result = size.word := by
  have parsed (size : HumanSize) :
      fromHumanMemSizeRegexp size.text = .ok result ↔
        0 < size.converted ∧ result = size.word := by
    obtain ⟨groups, matched, numberGroup, unitGroup⟩ := size.matchWhole_text
    rw [fromHumanMemSizeRegexp, matched]
    simp only [numberGroup, unitGroup, size.atol_number, Fallible.bind_eq_ok,
      assumeArg_eq_ok]
    rw [scaled_regexp]
    simp [HumanSize.word, HumanSize.converted, eq_comm]
  constructor
  · intro accepted
    cases matched : cstHumanMemSizeRegex.matchWhole value with
    | none =>
        rw [fromHumanMemSizeRegexp, matched] at accepted
        cases accepted
    | some groups =>
        obtain ⟨size, rfl, _, _⟩ :=
          humanSize_of_reads (Regex.reads_of_matchWhole matched)
        exact ⟨size, rfl, (parsed size).mp accepted⟩
  · rintro ⟨size, rfl, accepted⟩
    exact (parsed size).mpr accepted

/-! ## The loop -/

theorem notDigit_of_letter {c : Char} (letter : c ∈ "KMGTB".toList) :
    ¬ c.isDigit = true := by
  have known : c = 'K' ∨ c = 'M' ∨ c = 'G' ∨ c = 'T' ∨ c = 'B' := by
    simpa using letter
  rcases known with rfl | rfl | rfl | rfl | rfl <;> decide

/-- What the loop splits: digits behind which only letters of units stand. -/
theorem splitSize_eq_ok {value number unit rest : Text} {result : Text × Text} :
    splitSize value number unit rest = .ok result ↔
      ∃ digits letters, rest = digits ++ letters ∧
        (∀ c ∈ digits, c.isDigit = true) ∧
        (∀ c ∈ letters, c ∈ "KMGTB".toList) ∧ (unit = [] ∨ digits = []) ∧
        result = (number ++ digits, unit ++ letters) := by
  induction rest generalizing number unit with
  | nil =>
      constructor
      · rintro ⟨⟩
        exact ⟨[], [], rfl, by simp, by simp, .inr rfl, by simp⟩
      · rintro ⟨digits, letters, empty, _, _, _, rfl⟩
        obtain ⟨rfl, rfl⟩ := List.append_eq_nil_iff.mp empty.symm
        simp [splitSize]
  | cons c rest inductionHypothesis =>
      unfold splitSize
      split_ifs with isDigit isLetter
      · rw [Fallible.bind_eq_ok]
        constructor
        · rintro ⟨_, alone, split⟩
          rw [assumeArg_eq_ok] at alone
          obtain ⟨digits, letters, rfl, decimal, known, _, rfl⟩ :=
            inductionHypothesis.mp split
          exact ⟨c :: digits, letters, rfl, by simpa [isDigit] using decimal, known,
            .inl alone, by simp⟩
        · rintro ⟨digits, letters, same, decimal, known, alone, rfl⟩
          obtain ⟨rfl, rfl⟩ | ⟨digits, rfl, rfl⟩ := List.cons_eq_append_iff.mp same
          · exact absurd isDigit (notDigit_of_letter (known c (List.mem_cons_self ..)))
          · obtain rfl : unit = [] := alone.resolve_right (List.cons_ne_nil _ _)
            refine ⟨(), rfl, inductionHypothesis.mpr ⟨digits, letters, rfl, ?_, known,
              .inl rfl, by simp⟩⟩
            exact (List.forall_mem_cons.mp decimal).2
      · rw [inductionHypothesis]
        constructor
        · rintro ⟨digits, letters, rfl, _, known, alone, rfl⟩
          obtain rfl : digits = [] := alone.resolve_left (by simp)
          exact ⟨[], c :: letters, rfl, by simp,
            List.forall_mem_cons.mpr ⟨by simpa using isLetter, known⟩, .inr rfl,
            by simp⟩
        · rintro ⟨digits, letters, same, decimal, known, _, rfl⟩
          obtain ⟨rfl, rfl⟩ | ⟨digits, rfl, rfl⟩ := List.cons_eq_append_iff.mp same
          · exact ⟨[], rest, rfl, by simp, (List.forall_mem_cons.mp known).2, .inr rfl,
              by simp⟩
          · exact absurd (decimal c (List.mem_cons_self ..)) isDigit
      · simp only [false_iff]
        rintro ⟨digits, letters, same, decimal, known, _, _⟩
        obtain ⟨rfl, rfl⟩ | ⟨digits, rfl, rfl⟩ := List.cons_eq_append_iff.mp same
        · exact isLetter (by simpa using known c (List.mem_cons_self ..))
        · exact isDigit (decimal c (List.mem_cons_self ..))

/-- The multiplications of `fromHumanMemSizeNoRegexp`. -/
theorem scaled_noRegexp {value unit : Text} {res result : UInt64} :
    (if unit = [] ∨ unit = "B".toList then .ok res
      else if unit = "KB".toList then .ok (res * 1024)
      else if unit = "MB".toList then .ok (res * (1024 * 1024))
      else if unit = "GB".toList then .ok (res * (1024 * 1024 * 1024))
      else if unit = "TB".toList then .ok (res * (1024 * 1024 * 1024 * 1024))
      else .error (invalidSizeUnit value) : Except Text UInt64) = .ok result ↔
      ∃ known : SizeUnit, unit = known.text ∧
        result = res * UInt64.ofNat known.factor := by
  constructor
  · intro accepted
    split_ifs at accepted with plain kilo mega giga tera
    · obtain rfl := Except.ok.inj accepted
      rcases plain with rfl | rfl
      · exact ⟨.none, rfl, (UInt64.mul_one _).symm⟩
      · exact ⟨.bytes, rfl, (UInt64.mul_one _).symm⟩
    · exact ⟨.kilo, kilo, (Except.ok.inj accepted).symm⟩
    · exact ⟨.mega, mega, (Except.ok.inj accepted).symm⟩
    · exact ⟨.giga, giga, (Except.ok.inj accepted).symm⟩
    · exact ⟨.tera, tera, (Except.ok.inj accepted).symm⟩
  · rintro ⟨known, rfl, rfl⟩
    cases known with
    | none => exact congrArg Except.ok (UInt64.mul_one res).symm
    | bytes => exact congrArg Except.ok (UInt64.mul_one res).symm
    | kilo => rfl
    | mega => rfl
    | giga => rfl
    | tera => rfl

/-- What `fromHumanMemSizeNoRegexp` accepts. -/
theorem fromHumanMemSizeNoRegexp_eq_ok {value : Text} {result : UInt64} :
    fromHumanMemSizeNoRegexp value = .ok result ↔
      ∃ size : HumanSize, value = size.text ∧ 0 < size.converted ∧
        result = size.word := by
  simp only [fromHumanMemSizeNoRegexp, Fallible.bind_eq_ok, splitSize_eq_ok,
    assumeArg_eq_ok, scaled_noRegexp]
  constructor
  · rintro ⟨_, ⟨digits, letters, rfl, decimal, _, _, rfl⟩, _, positive, unit, same, rfl⟩
    obtain rfl : letters = unit.text := same
    have nonempty : digits ≠ [] := by
      rintro rfl
      cases positive
    have converted := HumanSize.atol_number ⟨⟨digits, nonempty, decimal⟩, unit⟩
    rw [List.nil_append, converted] at positive
    rw [List.nil_append, converted]
    exact ⟨⟨⟨digits, nonempty, decimal⟩, unit⟩, rfl, positive, rfl⟩
  · rintro ⟨size, rfl, positive, rfl⟩
    refine ⟨_, ⟨size.number.text, size.unit.text, rfl, size.number.chars, ?_,
      .inl trivial, rfl⟩, (), ?_, size.unit, rfl, ?_⟩
    · cases size.unit <;> simp [SizeUnit.text]
    · rw [List.nil_append, size.atol_number]
      exact positive
    · rw [List.nil_append, size.atol_number]
      rfl

/-- The two parsers of memory sizes agree. -/
theorem memory_size_parsers_agree (value : Text) :
    (fromHumanMemSizeNoRegexp value).toOption =
      (fromHumanMemSizeRegexp value).toOption := by
  have same (result : UInt64) :
      fromHumanMemSizeNoRegexp value = .ok result ↔
        fromHumanMemSizeRegexp value = .ok result := by
    rw [fromHumanMemSizeNoRegexp_eq_ok, fromHumanMemSizeRegexp_eq_ok]
  cases accepted : fromHumanMemSizeRegexp value with
  | ok result => rw [(same result).mpr accepted]
  | error message =>
      cases accepted' : fromHumanMemSizeNoRegexp value with
      | ok result =>
          rw [same, accepted] at accepted'
          cases accepted'
      | error message' => rfl

/-! ## Exact sizes -/

/-- What `fromHumanMemSize` accepts, whether regular expressions are supported or
not. -/
theorem fromHumanMemSize_text_eq_ok {regexpSupported : Bool} {size : HumanSize}
    {result : UInt64} :
    fromHumanMemSize regexpSupported size.text = .ok result ↔
      0 < size.converted ∧ result = size.word := by
  have accepted : fromHumanMemSize regexpSupported size.text = .ok result ↔
      ∃ other : HumanSize, size.text = other.text ∧ 0 < other.converted ∧
        result = other.word := by
    unfold fromHumanMemSize
    split
    · exact fromHumanMemSizeRegexp_eq_ok
    · exact fromHumanMemSizeNoRegexp_eq_ok
  rw [accepted]
  constructor
  · rintro ⟨other, same, positive, rfl⟩
    obtain ⟨sameNumber, sameUnit⟩ := HumanSize.parts_of_text_eq same
    have sameConverted : size.converted = other.converted := by
      rw [HumanSize.converted, HumanSize.converted, HumanSize.count, HumanSize.count,
        sameNumber]
    rw [HumanSize.word, HumanSize.word, sameConverted, sameUnit]
    exact ⟨positive, rfl⟩
  · intro parsed
    exact ⟨size, rfl, parsed⟩

namespace HumanSize

/-- The number is converted to the nearest `long`. -/
theorem converted_toNat (size : HumanSize) :
    size.converted.toNat = min size.count (2 ^ 63 - 1) := by
  have clamped :
      CText.clampLong size.count = (min size.count (2 ^ 63 - 1) : Nat) := by
    unfold CText.clampLong
    omega
  rw [converted, clamped, UInt64.ofInt, UInt64.toNat_ofNat']
  omega

theorem word_toNat (size : HumanSize) :
    size.word.toNat = min size.count (2 ^ 63 - 1) * size.unit.factor % 2 ^ 64 := by
  rw [word, UInt64.toNat_mul, converted_toNat, UInt64.toNat_ofNat']
  simp

/-- The word is exact when neither the conversion nor the multiplication leaves its
range. -/
theorem word_toNat_eq_bytes_iff (size : HumanSize) :
    size.word.toNat = size.bytes ↔ size.count < 2 ^ 63 ∧ size.bytes < 2 ^ 64 := by
  rw [word_toNat, bytes]
  cases size.unit <;> simp only [SizeUnit.factor] <;> omega

end HumanSize

/-- When memory sizes are exact. A size of zero is rejected. Any other size is
accepted, and the result is the exact product of the number and the unit when the number
fits in a `long` and the product in a word, and only then. -/
theorem memory_size_exact_iff (regexpSupported : Bool) (size : HumanSize) :
    (size.count = 0 →
      ∃ message, fromHumanMemSize regexpSupported size.text = .error message) ∧
    (0 < size.count →
      ∃ result, fromHumanMemSize regexpSupported size.text = .ok result ∧
        (result.toNat = size.bytes ↔ size.count < 2 ^ 63 ∧ size.bytes < 2 ^ 64)) := by
  have converted := size.converted_toNat
  constructor
  · intro zero
    cases parsed : fromHumanMemSize regexpSupported size.text with
    | error message => exact ⟨message, rfl⟩
    | ok result =>
        obtain ⟨positive, _⟩ := fromHumanMemSize_text_eq_ok.mp parsed
        rw [UInt64.lt_iff_toNat_lt, converted, zero] at positive
        simp at positive
  · intro positive
    refine ⟨size.word, fromHumanMemSize_text_eq_ok.mpr ⟨?_, rfl⟩,
      size.word_toNat_eq_bytes_iff⟩
    rw [UInt64.lt_iff_toNat_lt, converted]
    simpa using positive

/-- Eight megabytes. -/
theorem memory_size_exact_iff_megabytes :
    ∃ result, fromHumanMemSize true "8MB".toList = .ok result ∧
      result.toNat = 8 * 1024 * 1024 := by
  obtain ⟨result, parsed, exact⟩ := (memory_size_exact_iff true
    ⟨⟨"8".toList, by decide, List.all_eq_true.mp rfl⟩, .mega⟩).2 (by decide)
  exact ⟨result, parsed, exact.mpr (by decide)⟩

/-- A product of `2 ^ 64` bytes is returned as zero, and a number of `2 ^ 63` as one
less. -/
theorem memory_size_inexact :
    (∃ size : HumanSize, size.text = "16777216TB".toList ∧ size.bytes = 2 ^ 64 ∧
      ∀ regexpSupported, fromHumanMemSize regexpSupported size.text = .ok 0) ∧
    ∃ size : HumanSize, size.text = "9223372036854775808".toList ∧
      size.bytes = 2 ^ 63 ∧ ∀ regexpSupported,
        fromHumanMemSize regexpSupported size.text = .ok 9223372036854775807 := by
  refine ⟨⟨⟨⟨"16777216".toList, by decide, List.all_eq_true.mp rfl⟩, .tera⟩, rfl, ?_, ?_⟩,
    ⟨⟨"9223372036854775808".toList, by decide, List.all_eq_true.mp rfl⟩, .none⟩, rfl,
      ?_, ?_⟩
  · decide +kernel
  · decide +kernel
  · decide +kernel
  · decide +kernel

end UmmapIo
