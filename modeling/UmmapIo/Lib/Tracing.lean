import UmmapIo.Lib.Hoare

/-!
# What the end of a run tells about its operations

A program reports a guard if no run that leaves the guard goes unnoticed: it does
not finish, and aborts with certain messages only.  A program decides a property
if the runs that finish with the property are exactly those that began with it and
stayed inside of the guard.  Both have a rule for each way to build a program.
-/

namespace UmmapIo

variable {E : Signature} {S α β : Type}

/-- What a program is to decide, and between which states. -/
structure Verdict (E : Signature) (S : Type) where
  /-- What may be assumed of an operation and the state it is performed in. -/
  assumes : E.Op → S → Prop
  /-- What holds between the parts of the program. -/
  kept : S → Prop
  /-- The property. -/
  holds : S → Prop
  /-- What each operation has to meet for the property to survive. -/
  guard : E.Op → S → Prop

namespace Program

/-! ## Reports -/

/-- A run that performs an operation outside of the guard does not finish, and
aborts with certain messages only. -/
def Reports (handle : Handler E S) (guard : E.Op → S → Prop) (stops : String → Prop)
    (program : Program E α) : Prop :=
  ∀ state, (∃ entry ∈ program.performed handle state, ¬guard entry.1 entry.2) →
    match program.run handle state with
    | .finished _ _ => False
    | .aborted message _ => stops message
    | .blocked _ => True

variable {handle : Handler E S} {guard : E.Op → S → Prop} {stops : String → Prop}
variable {program : Program E α} {next : α → Program E β}

theorem Reports.bind
    (first : program.Reports handle guard stops)
    (second : ∀ value, (next value).Reports handle guard stops) :
    (program >>= next).Reports handle guard stops := by
  rintro state ⟨entry, member, outside⟩
  rw [run_bind]
  obtain early | ⟨value, state', finished, late⟩ := mem_performed_bind.mp member
  · have reported := first state ⟨entry, early, outside⟩
    cases ran : program.run handle state with
    | finished value state' =>
        rw [ran] at reported
        exact reported.elim
    | aborted message state' =>
        rw [ran] at reported
        exact reported
    | blocked state' => trivial
  · rw [finished]
    exact second value state' ⟨entry, late, outside⟩

theorem Reports.done (value : α) :
    (Program.done value : Program E α).Reports handle guard stops :=
  fun _ outside => nomatch outside.choose_spec.1

theorem Reports.ofExcept (result : Except String α) :
    (Program.ofExcept result).Reports handle guard stops := by
  cases result <;> exact fun _ outside => nomatch outside.choose_spec.1

variable {op : E.Op}

/-- An operation that is always inside of the guard. -/
theorem Reports.request (inside : ∀ state, guard op state) :
    (Program.request op).Reports handle guard stops := by
  rintro state ⟨entry, member, outside⟩
  obtain rfl := mem_performed_request.mp member
  exact absurd (inside state) outside

theorem Reports.when {program : Program E Unit}
    (taken : program.Reports handle guard stops)
    (condition : Bool) :
    (Program.when condition program).Reports handle guard stops := by
  cases condition with
  | true => exact taken
  | false => exact .done ()

variable {body : β → Program E Unit}

theorem Reports.each
    (steps : ∀ item, (body item).Reports handle guard stops)
    (items : List β) :
    (Program.each body items).Reports handle guard stops := by
  induction items with
  | nil => exact .done ()
  | cons item rest inductionHypothesis =>
      rw [each_cons]
      exact (steps item).bind fun _ => inductionHypothesis

/-! ## Decisions -/

/-- In every run that finishes, the property holds at the end exactly if it held at
the beginning and every operation was inside of the guard. -/
def Decides (handle : Handler E S) (verdict : Verdict E S)
    (program : Program E α) : Prop :=
  ∀ state value final, verdict.kept state →
    (∀ entry ∈ program.performed handle state,
      verdict.assumes entry.1 entry.2) →
    program.run handle state = .finished value final →
      verdict.kept final ∧
        (verdict.holds final ↔ verdict.holds state ∧
          ∀ entry ∈ program.performed handle state,
            verdict.guard entry.1 entry.2)

variable {verdict : Verdict E S}

theorem Decides.done (value : α) :
    (Program.done value : Program E α).Decides handle verdict := by
  intro state _ final kept _ finished
  cases finished
  exact ⟨kept, (and_iff_left fun _ absurdity => nomatch absurdity).symm⟩

theorem Decides.bind (first : program.Decides handle verdict)
    (second : ∀ value, (next value).Decides handle verdict) :
    (program >>= next).Decides handle verdict := by
  intro state value final kept assumed finished
  rw [run_bind] at finished
  obtain ⟨middle, state', ran, ends⟩ := Outcome.andThen_eq_finished.mp finished
  simp only [mem_performed_of_finished ran, or_imp, forall_and] at assumed ⊢
  obtain ⟨keeps, halfway⟩ := first state middle state' kept assumed.1 ran
  obtain ⟨keeps, whole⟩ := second middle state' value final keeps assumed.2 ends
  refine ⟨keeps, whole.trans ?_⟩
  rw [halfway, and_assoc]

theorem Decides.ofExcept (result : Except String α) :
    (Program.ofExcept result).Decides handle verdict := by
  cases result with
  | ok value => exact .done value
  | error message => exact fun _ _ _ _ _ absurdity => nomatch absurdity

/-- An operation with no effect on the property. -/
theorem Decides.request
    (inside : ∀ state, verdict.guard op state)
    (effect : ∀ state result after, verdict.kept state →
      handle op state = some (result, after) →
        verdict.kept after ∧ (verdict.holds after ↔ verdict.holds state)) :
    (Program.request op).Decides handle verdict := by
  intro state result final kept _ finished
  simp only [mem_performed_request, forall_eq]
  rw [Program.request, run_perform] at finished
  cases answer : handle op state with
  | none =>
      rw [answer] at finished
      cases finished
  | some pair =>
      rw [answer] at finished
      cases finished
      obtain ⟨keeps, same⟩ := effect state _ _ kept answer
      exact ⟨keeps, same.trans (and_iff_left (inside state)).symm⟩

/-- A run that begins with an operation and finishes. -/
theorem request_bind_finished {next : E.Result op → Program E α} {state final : S}
    {value : α}
    (finished : (Program.request op >>= next).run handle state =
      .finished value final) :
    ∃ result after, handle op state = some (result, after) ∧
      (next result).run handle after = .finished value final ∧
      ∀ entry, entry ∈ (Program.request op >>= next).performed handle state ↔
        entry = (op, state) ∨ entry ∈ (next result).performed handle after := by
  cases answer : handle op state with
  | none =>
      rw [run_bind, run_request_blocked answer] at finished
      cases finished
  | some pair =>
      obtain ⟨result, after⟩ := pair
      have ran := run_request answer
      rw [run_bind, ran] at finished
      refine ⟨result, after, rfl, finished, fun entry => ?_⟩
      rw [mem_performed_of_finished ran, mem_performed_request]

theorem Decides.when {program : Program E Unit} (taken : program.Decides handle verdict)
    (condition : Bool) :
    (Program.when condition program).Decides handle verdict := by
  cases condition with
  | true => exact taken
  | false => exact .done ()

theorem Decides.each {items : List β}
    (steps : ∀ item ∈ items, (body item).Decides handle verdict) :
    (Program.each body items).Decides handle verdict := by
  induction items with
  | nil => exact .done ()
  | cons item rest inductionHypothesis =>
      rw [each_cons]
      exact (steps item List.mem_cons_self).bind fun _ =>
        inductionHypothesis fun other member =>
          steps other (List.mem_cons_of_mem _ member)

end Program

end UmmapIo
