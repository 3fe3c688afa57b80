import Mathlib.Data.List.Basic
import Mathlib.Logic.Function.Basic

/-!
# Regular expressions with groups

Regular expressions with numbered groups over an alphabet. `Reads` says which
words an expression describes and what its groups then hold. `attempt` is the
matcher that tries the alternatives in order and repeats as often as it can,
going back when the rest of the expression does not match.

The matcher finds a reading of the whole word exactly when there is one, and
the groups it returns are those of a reading.
-/

namespace UmmapIo

/-- Regular expressions with numbered groups. -/
inductive Regex (α : Type) : Type
  | empty
  | oneOf (allowed : α → Bool)
  | seq (first second : Regex α)
  | orElse (first second : Regex α)
  | star (body : Regex α)
  | group (number : Nat) (body : Regex α)

namespace Regex

variable {α β : Type}

/-- The word each group holds. A group that took no part holds the empty
word. -/
abbrev Groups (α : Type) : Type := Nat → List α

/-- One or more repetitions. -/
def plus (body : Regex α) : Regex α :=
  .seq body (.star body)

/-- At most one occurrence. -/
def optional (body : Regex α) : Regex α :=
  .orElse body .empty

/-- A fixed word. -/
def literal [BEq α] : List α → Regex α
  | [] => .empty
  | letter :: rest => .seq (.oneOf (· == letter)) (literal rest)

/-- The numbers of the groups of an expression. -/
def groupNumbers : Regex α → List Nat
  | .empty => []
  | .oneOf _ => []
  | .seq first second => first.groupNumbers ++ second.groupNumbers
  | .orElse first second => first.groupNumbers ++ second.groupNumbers
  | .star body => body.groupNumbers
  | .group number body => number :: body.groupNumbers

/-- The words an expression describes, with the groups before and after it. -/
inductive Reads : Regex α → Groups α → List α → Groups α → Prop
  | empty {groups : Groups α} :
      Reads .empty groups [] groups
  | oneOf {allowed : α → Bool} {letter : α} {groups : Groups α}
      (holds : allowed letter = true) :
      Reads (.oneOf allowed) groups [letter] groups
  | seq {first second : Regex α} {before middle after : Groups α} {left right : List α}
      (readsFirst : Reads first before left middle)
      (readsSecond : Reads second middle right after) :
      Reads (.seq first second) before (left ++ right) after
  | orFirst {first second : Regex α} {before after : Groups α} {word : List α}
      (reads : Reads first before word after) :
      Reads (.orElse first second) before word after
  | orSecond {first second : Regex α} {before after : Groups α} {word : List α}
      (reads : Reads second before word after) :
      Reads (.orElse first second) before word after
  | starDone {body : Regex α} {groups : Groups α} :
      Reads (.star body) groups [] groups
  | starMore {body : Regex α} {before middle after : Groups α} {left right : List α}
      (readsBody : Reads body before left middle)
      (progress : left ≠ [])
      (readsStar : Reads (.star body) middle right after) :
      Reads (.star body) before (left ++ right) after
  | group {number : Nat} {body : Regex α} {before after : Groups α} {word : List α}
      (reads : Reads body before word after) :
      Reads (.group number body) before word (Function.update after number word)

/-- What remains to be matched: the rest of the word and the groups so far. -/
abbrev Continuation (α β : Type) : Type :=
  List α → Groups α → Option β

/-- Repeat as often as possible, then continue. A repetition has to make
progress, so the length of the word bounds their number. -/
def repeatBody
    (body : Continuation α β → Continuation α β)
    (next : Continuation α β) : Nat → Continuation α β
  | 0 => next
  | fuel + 1 => fun word groups =>
      (body
        (fun rest groups' =>
          if rest.length < word.length then
            repeatBody body next fuel rest groups'
          else none)
        word groups).or (next word groups)

/-- Match an expression at the beginning of a word, then continue. -/
def attempt : Regex α → Continuation α β → Continuation α β
  | .empty, next => next
  | .oneOf allowed, next => fun word groups =>
      match word with
      | [] => none
      | letter :: rest => if allowed letter then next rest groups else none
  | .seq first second, next => first.attempt (second.attempt next)
  | .orElse first second, next => fun word groups =>
      (first.attempt next word groups).or (second.attempt next word groups)
  | .star body, next => fun word groups =>
      repeatBody body.attempt next word.length word groups
  | .group number body, next => fun word groups =>
      body.attempt
        (fun rest groups' =>
          next rest
            (Function.update groups' number (word.take (word.length - rest.length))))
        word groups

/-- The continuation that accepts at the end of the word. -/
def atEnd : Continuation α (Groups α)
  | [], groups => some groups
  | _ :: _, _ => none

/-- Match a whole word. -/
def matchWhole (regex : Regex α)
    (word : List α) : Option (Groups α) :=
  regex.attempt atEnd word fun _ => []

/-! ## The matcher finds only readings -/

/-- What a matcher may answer: it read a beginning of the word and the
continuation answered on the rest. -/
def Finds
    (reads : Groups α → List α → Groups α → Prop)
    (next : Continuation α β) (word : List α) (groups : Groups α)
    (answer : β) : Prop :=
  ∃ consumed rest after, word = consumed ++ rest ∧
    reads groups consumed after ∧ next rest after = some answer

private theorem take_consumed (consumed rest : List α) :
    (consumed ++ rest).take ((consumed ++ rest).length - rest.length) =
      consumed := by
  simp

variable {body : Regex α}

/-- The repetitions of a sound matcher are sound. -/
theorem repeatBody_finds
    (sound : ∀ (next : Continuation α β) word groups answer,
      body.attempt next word groups = some answer →
        Finds body.Reads next word groups answer)
    (next : Continuation α β)
    (fuel : Nat)
    (word : List α)
    (groups : Groups α)
    (answer : β)
    (found : repeatBody body.attempt next fuel word groups = some answer) :
    Finds (star body).Reads next word groups answer := by
  induction fuel generalizing word groups with
  | zero => exact ⟨[], word, groups, rfl, .starDone, found⟩
  | succ fuel inductionHypothesis =>
      rw [repeatBody, Option.or_eq_some_iff] at found
      rcases found with again | ⟨_, stop⟩
      · obtain ⟨left, rest, middle, rfl, readsBody, continued⟩ :=
          sound _ _ _ _ again
        obtain ⟨shorter, repeated⟩ := Option.ite_none_right_eq_some.mp continued
        obtain ⟨right, rest', after, rfl, readsStar, answered⟩ :=
          inductionHypothesis _ _ repeated
        have progress : left ≠ [] := by
          rintro rfl
          exact Nat.lt_irrefl _ shorter
        exact ⟨left ++ right, rest', after, by simp,
          .starMore readsBody progress readsStar, answered⟩
      · exact ⟨[], word, groups, rfl, .starDone, stop⟩

/-- Every answer of the matcher comes from a reading. -/
theorem attempt_finds (regex : Regex α) (next : Continuation α β) (word : List α)
    (groups : Groups α) (answer : β)
    (found : regex.attempt next word groups = some answer) :
    Finds regex.Reads next word groups answer := by
  induction regex generalizing next word groups answer with
  | empty => exact ⟨[], word, groups, rfl, .empty, found⟩
  | oneOf allowed =>
      cases word with
      | nil => cases found
      | cons letter rest =>
          simp only [attempt, Option.ite_none_right_eq_some] at found
          exact ⟨[letter], rest, groups, rfl, .oneOf found.1, found.2⟩
  | seq first second soundFirst soundSecond =>
      obtain ⟨left, rest, middle, rfl, readsFirst, continued⟩ :=
        soundFirst _ _ _ _ found
      obtain ⟨right, rest', after, rfl, readsSecond, answered⟩ :=
        soundSecond _ _ _ _ continued
      exact ⟨left ++ right, rest', after, by simp,
        .seq readsFirst readsSecond, answered⟩
  | orElse first second soundFirst soundSecond =>
      rw [attempt, Option.or_eq_some_iff] at found
      rcases found with inFirst | ⟨_, inSecond⟩
      · obtain ⟨consumed, rest, after, same, reads, answered⟩ :=
          soundFirst _ _ _ _ inFirst
        exact ⟨consumed, rest, after, same, .orFirst reads, answered⟩
      · obtain ⟨consumed, rest, after, same, reads, answered⟩ :=
          soundSecond _ _ _ _ inSecond
        exact ⟨consumed, rest, after, same, .orSecond reads, answered⟩
  | star body sound =>
      exact repeatBody_finds sound next word.length word groups answer found
  | group number body sound =>
      obtain ⟨consumed, rest, after, rfl, reads, answered⟩ :=
        sound _ _ _ _ found
      beta_reduce at answered
      rw [take_consumed] at answered
      exact ⟨consumed, rest, _, rfl, .group reads, answered⟩

/-! ## The matcher finds every reading -/

variable {before after : Groups α}

/-- The repetitions find what the fuel allows, once one repetition finds what
the body reads. -/
theorem repeatBody_isSome
    (complete : ∀ (next : Continuation α β) before consumed after rest,
      body.Reads before consumed after →
        (next rest after).isSome →
          (body.attempt next (consumed ++ rest) before).isSome)
    {next : Continuation α β}
    {consumed : List α}
    (rest : List α)
    (reads : (star body).Reads before consumed after)
    (continues : (next rest after).isSome)
    (fuel : Nat)
    (enough : (consumed ++ rest).length ≤ fuel) :
    (repeatBody body.attempt next fuel (consumed ++ rest) before).isSome := by
  generalize isStar : star body = starred at reads
  induction reads generalizing fuel with
  | starDone =>
      cases fuel with
      | zero => exact continues
      | succ fuel =>
          rw [repeatBody, Option.isSome_or]
          exact Bool.or_eq_true_iff.mpr (.inr continues)
  | @starMore _ _ _ _ left right readsBody progress readsStar _
      inductionHypothesis =>
      cases isStar
      have shorter : (right ++ rest).length < (left ++ (right ++ rest)).length := by
        have := List.length_pos_of_ne_nil progress
        simp only [List.length_append] at this ⊢
        omega
      rw [List.append_assoc] at enough ⊢
      cases fuel with
      | zero => omega
      | succ fuel =>
          rw [repeatBody, Option.isSome_or, Bool.or_eq_true_iff]
          left
          refine complete _ _ _ _ _ readsBody ?_
          rw [if_pos shorter]
          exact inductionHypothesis continues fuel (by omega) rfl
  | _ => cases isStar

/-- The matcher answers whenever there is a reading after which the
continuation answers. -/
theorem attempt_isSome (regex : Regex α) (next : Continuation α β) (before : Groups α)
    (consumed : List α) (after : Groups α) (rest : List α)
    (reads : regex.Reads before consumed after)
    (continues : (next rest after).isSome) :
    (regex.attempt next (consumed ++ rest) before).isSome := by
  induction regex generalizing next before consumed after rest with
  | empty =>
      cases reads
      exact continues
  | oneOf allowed =>
      cases reads with
      | oneOf holds => simpa [attempt, holds] using continues
  | seq first second completeFirst completeSecond =>
      cases reads with
      | seq readsFirst readsSecond =>
          rw [List.append_assoc, attempt]
          exact completeFirst _ _ _ _ _ readsFirst
            (completeSecond _ _ _ _ _ readsSecond continues)
  | orElse first second completeFirst completeSecond =>
      rw [attempt, Option.isSome_or, Bool.or_eq_true_iff]
      cases reads with
      | orFirst reads => exact .inl (completeFirst _ _ _ _ _ reads continues)
      | orSecond reads => exact .inr (completeSecond _ _ _ _ _ reads continues)
  | star body complete =>
      exact repeatBody_isSome complete rest reads continues _ (Nat.le_refl _)
  | group number body complete =>
      cases reads with
      | group reads =>
          refine complete _ _ _ _ _ reads ?_
          rw [take_consumed]
          exact continues

/-! ## Whole words -/

variable {word : List α}

/-- The groups of a match of a whole word are those of a reading. -/
theorem reads_of_matchWhole {regex : Regex α} {groups : Groups α}
    (matched : regex.matchWhole word = some groups) :
    regex.Reads (fun _ => []) word groups := by
  obtain ⟨consumed, rest, after, rfl, reads, answered⟩ :=
    attempt_finds _ _ _ _ _ matched
  cases rest with
  | nil =>
      cases answered
      rw [List.append_nil]
      exact reads
  | cons letter rest => cases answered

theorem matchWhole_isSome {regex : Regex α} {groups : Groups α}
    (reads : regex.Reads (fun _ => []) word groups) :
    (regex.matchWhole word).isSome := by
  have matched :=
    attempt_isSome regex atEnd (fun _ => []) word groups [] reads rfl
  rwa [List.append_nil] at matched

/-! ## Readings of the derived forms -/

namespace Reads

/-- A reading changes only the groups of the expression. -/
theorem group_eq {regex : Regex α} {before after : Groups α} {word : List α}
    (reads : regex.Reads before word after) (number : Nat)
    (other : number ∉ regex.groupNumbers) :
    after number = before number := by
  induction reads with
  | empty => rfl
  | oneOf holds => rfl
  | seq readsFirst readsSecond framedFirst framedSecond =>
      rw [groupNumbers, List.mem_append, not_or] at other
      rw [framedSecond other.2, framedFirst other.1]
  | orFirst reads framed =>
      rw [groupNumbers, List.mem_append, not_or] at other
      exact framed other.1
  | orSecond reads framed =>
      rw [groupNumbers, List.mem_append, not_or] at other
      exact framed other.2
  | starDone => rfl
  | starMore readsBody progress readsStar framedBody framedStar =>
      rw [framedStar other, framedBody other]
  | group reads framed =>
      rw [groupNumbers, List.mem_cons, not_or] at other
      rw [Function.update_of_ne other.1, framed other.2]

end Reads

@[simp] theorem reads_empty_iff {word : List α} :
    (empty : Regex α).Reads before word after ↔ word = [] ∧ after = before := by
  constructor
  · rintro ⟨⟩
    exact ⟨rfl, rfl⟩
  · rintro ⟨rfl, rfl⟩
    exact .empty

variable {allowed : α → Bool}

@[simp] theorem reads_oneOf_iff {word : List α} :
    (oneOf allowed).Reads before word after ↔
      (∃ letter, allowed letter = true ∧ word = [letter]) ∧ after = before := by
  constructor
  · rintro ⟨⟩
    exact ⟨⟨_, ‹_›, rfl⟩, rfl⟩
  · rintro ⟨⟨letter, holds, rfl⟩, rfl⟩
    exact .oneOf holds

theorem reads_seq_iff {first second : Regex α} {word : List α} :
    (seq first second).Reads before word after ↔
      ∃ left right middle, word = left ++ right ∧
        first.Reads before left middle ∧ second.Reads middle right after := by
  constructor
  · rintro ⟨⟩
    exact ⟨_, _, _, rfl, ‹_›, ‹_›⟩
  · rintro ⟨left, right, middle, rfl, readsFirst, readsSecond⟩
    exact .seq readsFirst readsSecond

theorem reads_optional_iff {word : List α} :
    (optional body).Reads before word after ↔
      body.Reads before word after ∨ word = [] ∧ after = before := by
  constructor
  · intro reads
    cases reads with
    | orFirst reads => exact .inl reads
    | orSecond reads => exact .inr (reads_empty_iff.mp reads)
  · rintro (reads | absent)
    · exact .orFirst reads
    · exact .orSecond (reads_empty_iff.mpr absent)

theorem reads_group_iff {number : Nat} {word : List α} :
    (group number body).Reads before word after ↔
      ∃ middle, body.Reads before word middle ∧
        after = Function.update middle number word := by
  constructor
  · rintro ⟨⟩
    exact ⟨_, ‹_›, rfl⟩
  · rintro ⟨middle, reads, rfl⟩
    exact .group reads

theorem reads_literal_iff [BEq α] [LawfulBEq α] {fixed : List α} {word : List α} :
    (literal fixed).Reads before word after ↔ word = fixed ∧ after = before := by
  induction fixed generalizing word with
  | nil => exact reads_empty_iff
  | cons letter fixed inductionHypothesis =>
      rw [literal, reads_seq_iff]
      constructor
      · rintro ⟨left, right, middle, rfl, readsLetter, readsRest⟩
        obtain ⟨⟨letter', equal, rfl⟩, rfl⟩ := reads_oneOf_iff.mp readsLetter
        obtain ⟨rfl, rfl⟩ := inductionHypothesis.mp readsRest
        rw [beq_iff_eq.mp equal]
        exact ⟨rfl, rfl⟩
      · rintro ⟨rfl, rfl⟩
        exact ⟨[letter], fixed, after, rfl, .oneOf (beq_self_eq_true letter),
          inductionHypothesis.mpr ⟨rfl, rfl⟩⟩

theorem reads_star_oneOf_iff {word : List α} :
    (star (oneOf allowed)).Reads before word after ↔
      (∀ letter ∈ word, allowed letter = true) ∧ after = before := by
  constructor
  · intro reads
    generalize isStar : star (oneOf allowed) = starred at reads
    induction reads with
    | starDone => simp
    | starMore readsBody _ _ _ inductionHypothesis =>
        cases isStar
        obtain ⟨⟨letter, holds, rfl⟩, rfl⟩ := reads_oneOf_iff.mp readsBody
        obtain ⟨allowedRest, rfl⟩ := inductionHypothesis rfl
        exact ⟨by simpa [holds] using allowedRest, rfl⟩
    | _ => cases isStar
  · rintro ⟨letters, rfl⟩
    induction word with
    | nil => exact .starDone
    | cons letter rest inductionHypothesis =>
        rw [List.forall_mem_cons] at letters
        exact .starMore (.oneOf letters.1) (List.cons_ne_nil _ _)
          (inductionHypothesis letters.2)

theorem reads_plus_oneOf_iff {word : List α} :
    (plus (oneOf allowed)).Reads before word after ↔
      word ≠ [] ∧ (∀ letter ∈ word, allowed letter = true) ∧ after = before := by
  rw [plus, reads_seq_iff]
  constructor
  · rintro ⟨left, right, middle, rfl, readsFirst, readsRest⟩
    obtain ⟨⟨letter, holds, rfl⟩, rfl⟩ := reads_oneOf_iff.mp readsFirst
    obtain ⟨letters, rfl⟩ := reads_star_oneOf_iff.mp readsRest
    exact ⟨by simp, by simpa [holds] using letters, rfl⟩
  · rintro ⟨nonempty, letters, rfl⟩
    cases word with
    | nil => exact absurd rfl nonempty
    | cons letter rest =>
        rw [List.forall_mem_cons] at letters
        exact ⟨[letter], rest, after, rfl, .oneOf letters.1,
          reads_star_oneOf_iff.mpr ⟨letters.2, rfl⟩⟩

/-- What a repetition read splits into readings of its body. -/
theorem Reads.star_parts
    (reads : (star body).Reads before word after) :
    ∃ parts : List (List α), word = parts.flatten ∧
      ∀ part ∈ parts, ∃ before' after', body.Reads before' part after' := by
  generalize isStar : star body = starred at reads
  induction reads with
  | starDone => exact ⟨[], rfl, by simp⟩
  | @starMore _ _ _ _ left right readsBody _ _ _ inductionHypothesis =>
      cases isStar
      obtain ⟨parts, rfl, readsParts⟩ := inductionHypothesis rfl
      refine ⟨left :: parts, rfl, ?_⟩
      rw [List.forall_mem_cons]
      exact ⟨⟨_, _, readsBody⟩, readsParts⟩
  | _ => cases isStar

/-- A sequence of words that the body reads from any groups is a repetition. -/
theorem reads_star_of_parts (body : Regex α) (parts : List (List α))
    (nonempty : ∀ part ∈ parts, part ≠ [])
    (readsParts : ∀ part ∈ parts, ∀ before, ∃ after, body.Reads before part after)
    (before : Groups α) :
    ∃ after, (star body).Reads before parts.flatten after := by
  induction parts generalizing before with
  | nil => exact ⟨before, .starDone⟩
  | cons part parts inductionHypothesis =>
      rw [List.forall_mem_cons] at nonempty readsParts
      obtain ⟨middle, readsBody⟩ := readsParts.1 before
      obtain ⟨after, readsStar⟩ :=
        inductionHypothesis nonempty.2 readsParts.2 middle
      exact ⟨after, .starMore readsBody nonempty.1 readsStar⟩

end Regex
end UmmapIo
