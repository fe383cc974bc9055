import Mathlib.Data.List.Basic
import Mathlib.Tactic.Basic

/-!
# Backtracking parser combinators

A grammar reads tokens from the front of its input. It accepts with a value and the
tokens left, refuses, or dies while it computes the value of what it has read. A choice
gives every alternative the same input; a repetition hands the tokens of its last,
refused round on to what follows.
-/

/-- A grammar over tokens `τ` for values `α` whose folds may die with `ε`. -/
structure Grammar (ε τ α : Type) where
  run : List τ → Except ε (Option (α × List τ))

namespace Grammar

variable {ε τ α β : Type}

/-- Accept without reading. -/
protected def pure (value : α) : Grammar ε τ α := ⟨fun input => .ok (some (value, input))⟩

/-- A grammar followed by one that depends on its value. -/
protected def bind (first : Grammar ε τ α) (next : α → Grammar ε τ β) : Grammar ε τ β :=
  ⟨fun input =>
    match first.run input with
    | .ok (some (value, rest)) => (next value).run rest
    | .ok none => .ok none
    | .error abort => .error abort⟩

instance : Monad (Grammar ε τ) where
  pure := Grammar.pure
  bind := Grammar.bind

/-- Die. -/
def abort (reason : ε) : Grammar ε τ α := ⟨fun _ => .error reason⟩

/-- One token that meets a condition. -/
def satisfy (accepts : τ → Bool) : Grammar ε τ τ :=
  ⟨fun
    | [] => .ok none
    | token :: rest => .ok (if accepts token then some (token, rest) else none)⟩

/-- The first alternative to accept, each on the same input. -/
def or (first second : Grammar ε τ α) : Grammar ε τ α :=
  ⟨fun input =>
    match first.run input with
    | .ok none => second.run input
    | other => other⟩

/-- A grammar that may be left out. -/
def maybe (body : Grammar ε τ α) : Grammar ε τ (Option α) :=
  (do let value ← body; pure (some value)).or (pure none)

/-- The end of the input. -/
def eoi : Grammar ε τ Unit := ⟨fun input => .ok (if input = [] then some ((), input) else none)⟩

/-- At most so many rounds of a body. -/
def rounds (body : Grammar ε τ α) : Nat → Grammar ε τ (List α)
  | 0 => pure []
  | count + 1 =>
      (do
        let value ← body
        let values ← rounds body count
        pure (value :: values)).or (pure [])

/-- A body repeated until it refuses; one that reads a token in every round has at most as many
rounds as there are tokens. -/
def many (body : Grammar ε τ α) : Grammar ε τ (List α) :=
  ⟨fun input => (rounds body input.length).run input⟩

/-- A body repeated at least once. -/
def many1 (body : Grammar ε τ α) : Grammar ε τ (List α) := do
  let value ← body
  let values ← many body
  pure (value :: values)

/-! ## What an accepting grammar has read -/

/-- The grammar accepts a prefix of the input. -/
def Accepts (grammar : Grammar ε τ α) (input : List τ) (value : α) (rest : List τ) : Prop :=
  grammar.run input = .ok (some (value, rest))

theorem accepts_pure_iff {value other : α} {input rest : List τ} :
    Accepts (ε := ε) (pure value) input other rest ↔ value = other ∧ input = rest := by
  simp [Accepts, pure, Grammar.pure]

theorem accepts_bind_iff {first : Grammar ε τ α} {next : α → Grammar ε τ β} {input rest : List τ}
    {value : β} : Accepts (first >>= next) input value rest ↔
      ∃ middle behind,
        Accepts first input middle behind ∧ Accepts (next middle) behind value rest := by
  simp only [Accepts, bind, Grammar.bind]
  cases ran : first.run input with
  | error reason => simp
  | ok accepted =>
      cases accepted with
      | none => simp
      | some pair =>
          obtain ⟨middle, behind⟩ := pair
          simp

theorem accepts_satisfy_iff {accepts : τ → Bool} {input rest : List τ} {token : τ} :
    Accepts (ε := ε) (satisfy accepts) input token rest ↔
      accepts token = true ∧ input = token :: rest := by
  cases input with
  | nil => simp [Accepts, satisfy]
  | cons first others =>
      simp only [Accepts, satisfy, Except.ok.injEq, Option.ite_none_right_eq_some,
        Option.some.injEq, Prod.mk.injEq, List.cons.injEq]
      constructor
      · rintro ⟨accepted, rfl, rfl⟩
        exact ⟨accepted, rfl, rfl⟩
      · rintro ⟨accepted, rfl, rfl⟩
        exact ⟨accepted, rfl, rfl⟩

theorem accepts_eoi_iff {input rest : List τ} :
    Accepts (ε := ε) (eoi : Grammar ε τ Unit) input () rest ↔ input = [] ∧ rest = [] := by
  simp only [Accepts, eoi, Except.ok.injEq, Option.ite_none_right_eq_some, Option.some.injEq,
    Prod.mk.injEq, true_and]
  constructor
  · rintro ⟨rfl, rfl⟩
    exact ⟨rfl, rfl⟩
  · rintro ⟨rfl, rfl⟩
    exact ⟨rfl, rfl⟩

theorem Accepts.unique {grammar : Grammar ε τ α} {input rest rest' : List τ} {value value' : α}
    (accepts : Accepts grammar input value rest) (accepts' : Accepts grammar input value' rest') :
    value = value' ∧ rest = rest' := by
  simp only [Accepts] at accepts accepts'
  rw [accepts] at accepts'
  simpa using accepts'

/-- What a choice accepts, one of its alternatives accepts. -/
theorem accepts_of_or {first second : Grammar ε τ α} {input rest : List τ} {value : α}
    (accepted : Accepts (first.or second) input value rest) :
    Accepts first input value rest ∨
      first.run input = .ok none ∧ Accepts second input value rest := by
  simp only [Accepts, or] at accepted ⊢
  cases ran : first.run input with
  | error reason =>
      rw [ran] at accepted
      cases accepted
  | ok found =>
      cases found with
      | none =>
          rw [ran] at accepted
          exact .inr ⟨rfl, accepted⟩
      | some pair =>
          rw [ran] at accepted
          exact .inl accepted

/-! ## Refusals -/

/-- The grammar refuses the input. -/
def Refuses (grammar : Grammar ε τ α) (input : List τ) : Prop := grammar.run input = .ok none

theorem Refuses.bind {first : Grammar ε τ α} {input : List τ} (refuses : Refuses first input)
    (next : α → Grammar ε τ β) : Refuses (first >>= next) input := by
  simp only [Refuses] at refuses
  simp only [Refuses, Bind.bind, Grammar.bind, refuses]

theorem Accepts.refuses_bind {first : Grammar ε τ α} {next : α → Grammar ε τ β}
    {input rest : List τ} {value : α} (accepts : Accepts first input value rest)
    (refuses : Refuses (next value) rest) : Refuses (first >>= next) input := by
  simp only [Accepts] at accepts
  simp only [Refuses, Bind.bind, Grammar.bind, accepts]
  exact refuses

theorem Refuses.or {first second : Grammar ε τ α} {input : List τ}
    (refuses : Refuses first input) (refuses' : Refuses second input) :
    Refuses (first.or second) input := by
  simp only [Refuses] at refuses refuses'
  simp only [Refuses, Grammar.or, refuses, refuses']

theorem refuses_satisfy {accepts : τ → Bool} {input : List τ}
    (refused : ∀ token ∈ input.head?, accepts token = false) :
    Refuses (ε := ε) (satisfy accepts) input := by
  cases input with
  | nil => rfl
  | cons token rest => simp [Refuses, satisfy, refused token rfl]

theorem Refuses.many1 {body : Grammar ε τ α} {input : List τ} (refuses : Refuses body input) :
    Refuses (Grammar.many1 body) input := refuses.bind _

/-- What may be left out is left out. -/
theorem Refuses.maybe {body : Grammar ε τ α} {input : List τ} (refuses : Refuses body input) :
    Accepts (Grammar.maybe body) input none input := by
  have inner : Refuses (do let value ← body; pure (some value)) input := refuses.bind _
  simp only [Refuses] at inner
  simp only [Accepts, Grammar.maybe, Grammar.or, inner]
  rfl

theorem refuses_satisfy_bind {accepts : τ → Bool} {next : τ → Grammar ε τ β} {input : List τ}
    (refuses : ∀ token rest, input = token :: rest → accepts token = true →
      Refuses (next token) rest) : Refuses (satisfy accepts >>= next) input := by
  cases input with
  | nil => rfl
  | cons token rest =>
      by_cases accepted : accepts token = true
      · have read : Accepts (ε := ε) (satisfy accepts) (token :: rest) token rest :=
          accepts_satisfy_iff.mpr ⟨accepted, rfl⟩
        exact read.refuses_bind (refuses token rest rfl accepted)
      · exact Refuses.bind (by simp [Refuses, satisfy, accepted]) _

theorem Accepts.or {first : Grammar ε τ α} {input rest : List τ} {value : α}
    (accepts : Accepts first input value rest) (second : Grammar ε τ α) :
    Accepts (first.or second) input value rest := by
  simp only [Accepts] at accepts
  simp only [Accepts, Grammar.or, accepts]

theorem Refuses.accepts_or {first second : Grammar ε τ α} {input rest : List τ} {value : α}
    (refuses : Refuses first input) (accepts : Accepts second input value rest) :
    Accepts (first.or second) input value rest := by
  simp only [Refuses] at refuses
  simp only [Accepts, Grammar.or, refuses]
  exact accepts

/-- A repetition of arbitrary tokens reads the whole input. -/
theorem accepts_rounds_satisfy (input : List τ) :
    Accepts (ε := ε) (rounds (satisfy fun _ => true) input.length) input input [] := by
  induction input with
  | nil => exact accepts_pure_iff.mpr ⟨rfl, rfl⟩
  | cons token rest step =>
      refine Accepts.or ?_ _
      refine accepts_bind_iff.mpr ⟨token, rest, accepts_satisfy_iff.mpr ⟨rfl, rfl⟩, ?_⟩
      exact accepts_bind_iff.mpr ⟨rest, [], step, accepts_pure_iff.mpr ⟨rfl, rfl⟩⟩

theorem accepts_many1_satisfy {input : List τ} (nonempty : input ≠ []) :
    Accepts (ε := ε) (many1 (satisfy fun _ => true)) input input [] := by
  cases input with
  | nil => exact absurd rfl nonempty
  | cons token rest =>
      refine accepts_bind_iff.mpr ⟨token, rest, accepts_satisfy_iff.mpr ⟨rfl, rfl⟩, ?_⟩
      exact accepts_bind_iff.mpr
        ⟨rest, [], accepts_rounds_satisfy rest, accepts_pure_iff.mpr ⟨rfl, rfl⟩⟩

theorem Refuses.or_bind {first second : Grammar ε τ α} {next : α → Grammar ε τ β}
    {input : List τ} (refuses : Refuses (first >>= next) input)
    (refuses' : Refuses (second >>= next) input) : Refuses (first.or second >>= next) input := by
  simp only [Refuses, Bind.bind, Grammar.bind, Grammar.or] at refuses refuses' ⊢
  cases ran : first.run input with
  | error reason =>
      rw [ran] at refuses
      cases refuses
  | ok found =>
      cases found with
      | none => exact refuses'
      | some pair =>
          rw [ran] at refuses
          exact refuses

/-! ## Grammars that never die -/

/-- On every input the grammar accepts or refuses. -/
def Survives (grammar : Grammar ε τ α) : Prop := ∀ input reason, grammar.run input ≠ .error reason

theorem survives_pure (value : α) : Survives (pure value : Grammar ε τ α) := by
  rintro input reason ⟨⟩

theorem survives_satisfy (accepts : τ → Bool) : Survives (satisfy accepts : Grammar ε τ τ) := by
  intro input reason
  cases input with
  | nil => rintro ⟨⟩
  | cons token rest => rintro ⟨⟩

theorem Survives.bind {first : Grammar ε τ α} {next : α → Grammar ε τ β} (survives : Survives first)
    (follow : ∀ value, Survives (next value)) : Survives (first >>= next) := by
  intro input reason died
  simp only [Bind.bind, Grammar.bind] at died
  cases ran : first.run input with
  | error other => exact survives input other ran
  | ok found =>
      rw [ran] at died
      cases found with
      | none => cases died
      | some pair => exact follow _ _ _ died

theorem Survives.or {first second : Grammar ε τ α} (survives : Survives first)
    (survives' : Survives second) : Survives (first.or second) := by
  intro input reason died
  simp only [Grammar.or] at died
  cases ran : first.run input with
  | error other => exact survives input other ran
  | ok found =>
      rw [ran] at died
      cases found with
      | none => exact survives' _ _ died
      | some pair => cases died

theorem Survives.maybe {body : Grammar ε τ α} (survives : Survives body) :
    Survives (Grammar.maybe body) :=
  (survives.bind fun _ => survives_pure _).or (survives_pure _)

theorem Survives.rounds {body : Grammar ε τ α} (survives : Survives body) (count : Nat) :
    Survives (Grammar.rounds body count) := by
  induction count with
  | zero => exact survives_pure _
  | succ count step =>
      exact (survives.bind fun _ => step.bind fun _ => survives_pure _).or (survives_pure _)

theorem Survives.many1 {body : Grammar ε τ α} (survives : Survives body) :
    Survives (Grammar.many1 body) :=
  survives.bind fun _ => Survives.bind (fun input => survives.rounds input.length input)
    fun _ => survives_pure _

/-- A grammar that does not die refuses what it does not accept. -/
theorem Survives.refuses_or_accepts {grammar : Grammar ε τ α} (survives : Survives grammar)
    (input : List τ) : Refuses grammar input ∨ ∃ value rest, Accepts grammar input value rest := by
  cases ran : grammar.run input with
  | error reason => exact absurd ran (survives input reason)
  | ok found =>
      cases found with
      | none => exact .inl ran
      | some pair => exact .inr ⟨pair.1, pair.2, ran⟩

/-! ## Inputs a grammar dies on -/

/-- The grammar neither accepts nor refuses the input. -/
def Dies (grammar : Grammar ε τ α) (input : List τ) : Prop :=
  ∃ reason, grammar.run input = .error reason

theorem Survives.not_dies {grammar : Grammar ε τ α} (survives : Survives grammar)
    (input : List τ) : ¬Dies grammar input := fun ⟨reason, died⟩ => survives input reason died

theorem dies_abort (reason : ε) (input : List τ) : Dies (abort reason : Grammar ε τ α) input :=
  ⟨reason, rfl⟩

theorem Refuses.not_dies {grammar : Grammar ε τ α} {input : List τ}
    (refuses : Refuses grammar input) : ¬Dies grammar input := by
  rintro ⟨reason, died⟩
  rw [Refuses, died] at refuses
  cases refuses

theorem dies_bind_iff {first : Grammar ε τ α} {next : α → Grammar ε τ β} {input : List τ} :
    Dies (first >>= next) input ↔
      Dies first input ∨ ∃ value rest, Accepts first input value rest ∧ Dies (next value) rest := by
  simp only [Dies, Accepts, bind, Grammar.bind]
  cases ran : first.run input with
  | error reason => simp
  | ok found =>
      cases found with
      | none => simp
      | some pair =>
          obtain ⟨value, rest⟩ := pair
          simp

theorem dies_or_iff {first second : Grammar ε τ α} {input : List τ} :
    Dies (first.or second) input ↔
      Dies first input ∨ Refuses first input ∧ Dies second input := by
  simp only [Dies, Refuses, or]
  cases ran : first.run input with
  | error reason => simp
  | ok found =>
      cases found with
      | none => simp
      | some pair => simp

/-- Where only the first part of a grammar can die, it alone decides. -/
theorem dies_bind_of_survives {first : Grammar ε τ α} {next : α → Grammar ε τ β} {input : List τ}
    (survives : ∀ value, Survives (next value)) :
    Dies (first >>= next) input ↔ Dies first input := by
  rw [dies_bind_iff]
  constructor
  · rintro (died | ⟨value, rest, -, died⟩)
    · exact died
    · exact absurd died ((survives value).not_dies rest)
  · exact .inl

theorem dies_or_of_survives {first second : Grammar ε τ α} {input : List τ}
    (survives : Survives second) : Dies (first.or second) input ↔ Dies first input := by
  rw [dies_or_iff]
  exact or_iff_left fun both => survives.not_dies input both.2

theorem Survives.dies_or_iff {first second : Grammar ε τ α} {input : List τ}
    (survives : Survives first) :
    Dies (first.or second) input ↔ Refuses first input ∧ Dies second input := by
  rw [Grammar.dies_or_iff]
  exact or_iff_right (survives.not_dies input)

theorem Survives.dies_bind_iff {first : Grammar ε τ α} {next : α → Grammar ε τ β} {input : List τ}
    (survives : Survives first) : Dies (first >>= next) input ↔
      ∃ value rest, Accepts first input value rest ∧ Dies (next value) rest := by
  rw [Grammar.dies_bind_iff]
  exact or_iff_right (survives.not_dies input)

theorem survives_eoi : Survives (eoi : Grammar ε τ Unit) := by
  rintro input reason ⟨⟩

/-- What may be left out is accepted, read or not. -/
theorem Survives.maybe_accepts {body : Grammar ε τ α} (survives : Survives body)
    (input : List τ) : ∃ value rest, Accepts (Grammar.maybe body) input value rest := by
  rcases survives.refuses_or_accepts input with refuses | ⟨value, rest, accepts⟩
  · exact ⟨none, input, refuses.maybe⟩
  · refine ⟨some value, rest, Accepts.or ?_ _⟩
    exact accepts_bind_iff.mpr ⟨value, rest, accepts, accepts_pure_iff.mpr ⟨rfl, rfl⟩⟩

/-- A condition on the input holds behind some rounds that a grammar accepts. -/
inductive Behind (body : Grammar ε τ α) (condition : List τ → Prop) : List τ → Prop
  | here {input : List τ} (met : condition input) : Behind body condition input
  | later {input rest : List τ} {value : α} (accepted : Accepts body input value rest)
      (behind : Behind body condition rest) : Behind body condition input

theorem behind_iff {body : Grammar ε τ α} {condition : List τ → Prop} {input : List τ} :
    Behind body condition input ↔ condition input ∨
      ∃ value rest, Accepts body input value rest ∧ Behind body condition rest := by
  constructor
  · rintro (met | ⟨accepted, behind⟩)
    · exact .inl met
    · exact .inr ⟨_, _, accepted, behind⟩
  · rintro (met | ⟨value, rest, accepted, behind⟩)
    · exact .here met
    · exact .later accepted behind

section Rounds

variable {body : Grammar ε τ α} {input : List τ}

theorem dies_rounds_iff
    (shortens : ∀ {input rest : List τ} {value : α}, Accepts body input value rest →
      rest.length < input.length)
    (alive : ¬Dies body []) {count : Nat} (enough : input.length ≤ count) :
    Dies (rounds body count) input ↔ Behind body (Dies body) input := by
  induction count generalizing input with
  | zero =>
      obtain rfl := List.length_eq_zero_iff.mp (Nat.le_zero.mp enough)
      refine iff_of_false ((survives_pure _).not_dies _) ?_
      rintro (died | ⟨accepted, -⟩)
      · exact alive died
      · exact absurd (shortens accepted) (Nat.not_lt_zero _)
  | succ count inductionHypothesis =>
      rw [rounds, dies_or_of_survives (survives_pure _), behind_iff, dies_bind_iff]
      refine or_congr_right (exists_congr fun value => exists_congr fun rest => ?_)
      refine and_congr_right fun accepted => ?_
      rw [dies_bind_of_survives fun _ => survives_pure _]
      have shorter := Nat.lt_of_lt_of_le (shortens accepted) enough
      exact inductionHypothesis (Nat.le_of_lt_succ shorter)

/-- A repetition dies where its body does, behind rounds that are accepted. -/
theorem dies_many1_iff
    (shortens : ∀ {input rest : List τ} {value : α}, Accepts body input value rest →
      rest.length < input.length)
    (alive : ¬Dies body []) : Dies (many1 body) input ↔ Behind body (Dies body) input := by
  rw [many1, dies_bind_iff, behind_iff]
  refine or_congr_right (exists_congr fun value => exists_congr fun rest => ?_)
  refine and_congr_right fun _ => ?_
  rw [dies_bind_of_survives fun _ => survives_pure _]
  exact dies_rounds_iff shortens alive (Nat.le_refl _)

end Rounds

/-! ## What is left is the end of the input -/

/-- What the grammar leaves is a suffix of its input. -/
def LeavesSuffix (grammar : Grammar ε τ α) : Prop :=
  ∀ (input rest : List τ) (value : α), Accepts grammar input value rest → rest <:+ input

theorem leavesSuffix_pure (value : α) : LeavesSuffix (pure value : Grammar ε τ α) := by
  intro input rest other accepted
  obtain ⟨-, rfl⟩ := accepts_pure_iff.mp accepted
  exact List.suffix_refl input

theorem leavesSuffix_satisfy (accepts : τ → Bool) :
    LeavesSuffix (satisfy accepts : Grammar ε τ τ) := by
  intro input rest token accepted
  rw [(accepts_satisfy_iff.mp accepted).2]
  exact List.suffix_cons token rest

theorem leavesSuffix_abort (reason : ε) : LeavesSuffix (abort reason : Grammar ε τ α) := nofun

theorem LeavesSuffix.bind {first : Grammar ε τ α} {next : α → Grammar ε τ β}
    (leaves : LeavesSuffix first) (follow : ∀ value, LeavesSuffix (next value)) :
    LeavesSuffix (first >>= next) := by
  intro input rest value accepted
  obtain ⟨middle, behind, read, continued⟩ := accepts_bind_iff.mp accepted
  exact (follow middle _ _ _ continued).trans (leaves _ _ _ read)

theorem LeavesSuffix.or {first second : Grammar ε τ α} (leaves : LeavesSuffix first)
    (leaves' : LeavesSuffix second) : LeavesSuffix (first.or second) := by
  intro input rest value accepted
  rcases accepts_of_or accepted with accepted | ⟨-, accepted⟩
  · exact leaves _ _ _ accepted
  · exact leaves' _ _ _ accepted

theorem LeavesSuffix.maybe {body : Grammar ε τ α} (leaves : LeavesSuffix body) :
    LeavesSuffix (Grammar.maybe body) :=
  (leaves.bind fun _ => leavesSuffix_pure _).or (leavesSuffix_pure _)

theorem LeavesSuffix.rounds {body : Grammar ε τ α} (leaves : LeavesSuffix body) (count : Nat) :
    LeavesSuffix (Grammar.rounds body count) := by
  induction count with
  | zero => exact leavesSuffix_pure _
  | succ count inductionHypothesis =>
      exact (leaves.bind fun _ => inductionHypothesis.bind fun _ => leavesSuffix_pure _).or
        (leavesSuffix_pure _)

theorem LeavesSuffix.many1 {body : Grammar ε τ α} (leaves : LeavesSuffix body) :
    LeavesSuffix (Grammar.many1 body) :=
  leaves.bind fun _ => LeavesSuffix.bind
    (fun input rest values accepted => leaves.rounds input.length input rest values accepted)
    fun _ => leavesSuffix_pure _

/-! ## Repeated tokens -/

/-- Tokens are read as long as they meet the condition. -/
theorem accepts_rounds_takeWhile (accepts : τ → Bool) {input : List τ} {count : Nat}
    (enough : input.length ≤ count) :
    Accepts (ε := ε) (rounds (satisfy accepts) count) input (input.takeWhile accepts)
      (input.dropWhile accepts) := by
  induction count generalizing input with
  | zero =>
      obtain rfl := List.length_eq_zero_iff.mp (Nat.le_zero.mp enough)
      exact accepts_pure_iff.mpr ⟨rfl, rfl⟩
  | succ count inductionHypothesis =>
      cases input with
      | nil =>
          refine Refuses.accepts_or (Refuses.bind ?_ _) (accepts_pure_iff.mpr ⟨rfl, rfl⟩)
          exact refuses_satisfy nofun
      | cons token rest =>
          by_cases accepted : accepts token = true
          · rw [List.takeWhile_cons_of_pos accepted, List.dropWhile_cons_of_pos accepted]
            refine Accepts.or ?_ _
            have read : Accepts (ε := ε) (satisfy accepts) (token :: rest) token rest :=
              accepts_satisfy_iff.mpr ⟨accepted, rfl⟩
            have others := inductionHypothesis (Nat.le_of_succ_le_succ enough)
            exact accepts_bind_iff.mpr ⟨token, rest, read, accepts_bind_iff.mpr
              ⟨_, _, others, accepts_pure_iff.mpr ⟨rfl, rfl⟩⟩⟩
          · rw [List.takeWhile_cons_of_neg accepted, List.dropWhile_cons_of_neg accepted]
            refine Refuses.accepts_or (Refuses.bind ?_ _) (accepts_pure_iff.mpr ⟨rfl, rfl⟩)
            simp [Refuses, satisfy, accepted]

theorem accepts_many1_takeWhile_iff {accepts : τ → Bool} {input rest tokens : List τ} :
    Accepts (ε := ε) (many1 (satisfy accepts)) input tokens rest ↔
      tokens = input.takeWhile accepts ∧ rest = input.dropWhile accepts ∧ tokens ≠ [] := by
  cases input with
  | nil =>
      refine iff_of_false nofun ?_
      rintro ⟨rfl, -, some_⟩
      exact some_ rfl
  | cons token others =>
      have many : Accepts (ε := ε) (many (satisfy accepts)) others (others.takeWhile accepts)
          (others.dropWhile accepts) := accepts_rounds_takeWhile accepts (Nat.le_refl _)
      rw [many1, accepts_bind_iff]
      constructor
      · rintro ⟨first, behind, read, continued⟩
        obtain ⟨accepted, split⟩ := accepts_satisfy_iff.mp read
        cases split
        obtain ⟨values, left, repeated, returned⟩ := accepts_bind_iff.mp continued
        obtain ⟨rfl, rfl⟩ := accepts_pure_iff.mp returned
        obtain ⟨rfl, rfl⟩ := repeated.unique many
        rw [List.takeWhile_cons_of_pos accepted, List.dropWhile_cons_of_pos accepted]
        exact ⟨rfl, rfl, List.cons_ne_nil _ _⟩
      · rintro ⟨rfl, rfl, some_⟩
        by_cases accepted : accepts token = true
        · rw [List.takeWhile_cons_of_pos accepted, List.dropWhile_cons_of_pos accepted]
          refine ⟨token, others, accepts_satisfy_iff.mpr ⟨accepted, rfl⟩, ?_⟩
          exact accepts_bind_iff.mpr ⟨_, _, many, accepts_pure_iff.mpr ⟨rfl, rfl⟩⟩
        · rw [List.takeWhile_cons_of_neg accepted] at some_
          exact absurd rfl some_

end Grammar
