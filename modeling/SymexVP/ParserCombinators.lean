import Mathlib.Data.List.Basic

/-!
# Predictive parser combinators

A predictive parser never rewinds: it reads tokens from the front of its input, and
whether it succeeds or fails, what it has not read is left for whatever runs next. A
choice is therefore decided by the first token as long as its alternatives start with
different ones, and a repetition ends at the first token its body refuses.
-/

/-- A parser over tokens `τ`: a value, unless it fails, and the tokens it has left. -/
structure Parser (τ α : Type) where
  run : List τ → Option α × List τ

namespace Parser

variable {τ α β γ δ : Type}

/-- One token that meets a condition; any other token is not consumed. -/
def satisfy (accepts : τ → Bool) : Parser τ τ :=
  ⟨fun
    | [] => (none, [])
    | token :: rest => if accepts token then (some token, rest) else (none, token :: rest)⟩

def map (f : α → β) (parser : Parser τ α) : Parser τ β :=
  ⟨fun input => ((parser.run input).1.map f, (parser.run input).2)⟩

/-- Two parsers in a row, their values combined. -/
def and2 (combine : α → β → γ) (first : Parser τ α) (second : Parser τ β) : Parser τ γ :=
  ⟨fun input =>
    match first.run input with
    | (none, rest) => (none, rest)
    | (some value, rest) => (second.map (combine value)).run rest⟩

/-- Three parsers in a row, their values combined. -/
def and3 (combine : α → β → γ → δ) (first : Parser τ α) (second : Parser τ β)
    (third : Parser τ γ) : Parser τ δ :=
  and2 id (and2 combine first second) third

/-- The first alternative to succeed. One that fails after consuming tokens leaves the
next one to start behind them. -/
def or (first second : Parser τ α) : Parser τ α :=
  ⟨fun input =>
    match first.run input with
    | (some value, rest) => (some value, rest)
    | (none, rest) => second.run rest⟩

/-- The rounds of a repetition; a body that consumes a token in every round it
succeeds in has at most as many as there are tokens. -/
def rounds (body : Parser τ α) : Nat → List τ → List α × List τ
  | 0, input => ([], input)
  | fuel + 1, input =>
      match body.run input with
      | (some value, rest) => (value :: (rounds body fuel rest).1, (rounds body fuel rest).2)
      | (none, rest) => ([], rest)

/-- A body repeated until it fails, the values combined. -/
def many (combine : List α → β) (body : Parser τ α) : Parser τ β :=
  ⟨fun input =>
    (some (combine (rounds body (input.length + 1) input).1),
      (rounds body (input.length + 1) input).2)⟩

/-! ## What a parser does with the text it accepts -/

@[simp] theorem satisfy_accepted {accepts : τ → Bool} {token : τ} (rest : List τ)
    (accepted : accepts token = true) :
    (satisfy accepts).run (token :: rest) = (some token, rest) := by
  simp [satisfy, accepted]

@[simp] theorem satisfy_refused {accepts : τ → Bool} {token : τ} (rest : List τ)
    (refused : accepts token = false) :
    (satisfy accepts).run (token :: rest) = (none, token :: rest) := by
  simp [satisfy, refused]

theorem map_of_run {parser : Parser τ α} {input rest : List τ} {value : Option α}
    (ran : parser.run input = (value, rest)) (f : α → β) :
    (parser.map f).run input = (value.map f, rest) := by
  simp [map, ran]

theorem and2_of_run {first : Parser τ α} {second : Parser τ β} {input middle rest : List τ}
    {left : α} {right : β} (combine : α → β → γ)
    (ranFirst : first.run input = (some left, middle))
    (ranSecond : second.run middle = (some right, rest)) :
    (and2 combine first second).run input = (some (combine left right), rest) := by
  simp [and2, map, ranFirst, ranSecond]

theorem and2_of_refused {first : Parser τ α} {input rest : List τ} (combine : α → β → γ)
    (second : Parser τ β) (refused : first.run input = (none, rest)) :
    (and2 combine first second).run input = (none, rest) := by
  simp [and2, refused]

theorem and3_of_run {first : Parser τ α} {second : Parser τ β} {third : Parser τ γ}
    {input behindFirst behindSecond rest : List τ} {left : α} {middle : β} {right : γ}
    (combine : α → β → γ → δ) (ranFirst : first.run input = (some left, behindFirst))
    (ranSecond : second.run behindFirst = (some middle, behindSecond))
    (ranThird : third.run behindSecond = (some right, rest)) :
    (and3 combine first second third).run input = (some (combine left middle right), rest) :=
  and2_of_run id (and2_of_run combine ranFirst ranSecond) ranThird

theorem and3_of_refused {first : Parser τ α} {input rest : List τ} (combine : α → β → γ → δ)
    (second : Parser τ β) (third : Parser τ γ) (refused : first.run input = (none, rest)) :
    (and3 combine first second third).run input = (none, rest) :=
  and2_of_refused id third (and2_of_refused combine second refused)

theorem or_of_left {first : Parser τ α} {input rest : List τ} {value : α}
    (second : Parser τ α) (ran : first.run input = (some value, rest)) :
    (first.or second).run input = (some value, rest) := by
  simp [Parser.or, ran]

theorem or_of_refused {first : Parser τ α} {input rest : List τ} (second : Parser τ α)
    (refused : first.run input = (none, rest)) :
    (first.or second).run input = second.run rest := by
  simp [Parser.or, refused]

/-- A repetition of accepted tokens stops in front of the first one that is refused. -/
theorem rounds_satisfy {accepts : τ → Bool} (f : τ → α) {text : List τ} {stop : τ}
    (rest : List τ) (accepted : ∀ token ∈ text, accepts token = true)
    (refused : accepts stop = false) :
    ∀ fuel : Nat, text.length < fuel →
      rounds ((satisfy accepts).map f) fuel (text ++ stop :: rest) =
        (text.map f, stop :: rest) := by
  induction text with
  | nil =>
      intro fuel enough
      obtain ⟨fuel, rfl⟩ := Nat.exists_eq_add_of_lt enough
      simp [rounds, map, refused]
  | cons token text step =>
      intro fuel enough
      obtain ⟨fuel, rfl⟩ := Nat.exists_eq_add_of_lt enough
      have later := step (fun other member => accepted other (List.mem_cons_of_mem _ member))
        ((token :: text).length + fuel) (by simp only [List.length_cons]; omega)
      have now : accepts token = true := accepted token List.mem_cons_self
      simp only [List.cons_append, rounds, map, satisfy_accepted _ now, Option.map_some]
      simp only [map] at later
      rw [later, List.map_cons]

theorem many_satisfy {accepts : τ → Bool} (combine : List α → β) (f : τ → α)
    {text : List τ} {stop : τ} (rest : List τ)
    (accepted : ∀ token ∈ text, accepts token = true) (refused : accepts stop = false) :
    (many combine ((satisfy accepts).map f)).run (text ++ stop :: rest) =
      (some (combine (text.map f)), stop :: rest) := by
  have stops := rounds_satisfy f rest accepted refused
    ((text ++ stop :: rest).length + 1) (by simp only [List.length_append]; omega)
  simp only [many, stops]

end Parser
