import SymexVP.SerialLines

/-!
# The terminal on the serial port

`UART` connects the port with the terminal of the simulator. It forwards the keys to the guest, but
for the one behind Ctrl-a, which is a command: Ctrl-x ends the simulator, a second Ctrl-a is
forwarded, and every other key is lost.
-/

namespace SymexVP.Terminal

open ActionRun SerialLine
open AbstractUart (Byte)

/-! ## Keys -/

def CTRL (key : Char) : Byte := BitVec.ofNat 8 key.toNat &&& 0x1f

/-- The key that enters the command mode, and the one that ends the simulator there. -/
def KEY_ESC : Byte := CTRL 'a'
def KEY_EXIT : Byte := CTRL 'x'

/-- `uart_state`. -/
inductive State
  | command | normal
  deriving DecidableEq, Repr

/-- The bytes pushed for a command. -/
def handleCmd (cmd : Byte) : Option (List Byte) :=
  if cmd = KEY_ESC then some [cmd] else if cmd = KEY_EXIT then none else some []

def handleInput (state : State) (buf : Byte) : Option (State × List Byte) := do
  let pushed ← match state with
    | .normal => some [buf]
    | .command => handleCmd buf
  some (if buf = KEY_ESC ∧ state ≠ .command then .command else .normal, pushed)

/-- `UART`, with what it has written to the terminal. -/
@[reducible] def port : Subclass Byte where
  Input := State
  Output := List Byte
  opened := .normal
  created := []
  handleInput := handleInput
  writeData output data := output ++ [data]

/-! ## What is forwarded -/

/-- The next key is a command. -/
def commanded (typed : List Byte) : Bool :=
  (typed.reverse.takeWhile (· = KEY_ESC)).length % 2 = 1

/-- The keys that are no commands, or commands that are forwarded. -/
def delivered (typed : List Byte) : List Byte :=
  (List.range typed.length).filterMap fun index =>
    typed[index]?.filter fun key => key = KEY_ESC || !commanded (typed.take index)

theorem commanded_concat (typed : List Byte) (key : Byte) :
    commanded (typed ++ [key]) = (decide (key = KEY_ESC) && !commanded typed) := by
  unfold commanded
  rw [List.reverse_append, List.reverse_singleton, List.singleton_append]
  by_cases escapes : key = KEY_ESC
  · rw [List.takeWhile_cons_of_pos (by simpa using escapes), List.length_cons]
    generalize (typed.reverse.takeWhile _).length = count
    rw [decide_eq_true escapes, Bool.true_and, ← decide_not]
    exact decide_eq_decide.mpr (by omega)
  · rw [List.takeWhile_cons_of_neg (by simpa using escapes), decide_eq_false escapes]
    rfl

theorem delivered_concat (typed : List Byte) (key : Byte) :
    delivered (typed ++ [key]) =
      delivered typed ++ if key = KEY_ESC ∨ commanded typed = false then [key] else [] := by
  unfold delivered
  rw [List.length_append, List.length_singleton, List.range_succ, List.filterMap_append]
  congr 1
  · refine List.filterMap_congr fun index inside => ?_
    have bound := List.mem_range.mp inside
    rw [List.getElem?_append_left bound, List.take_append_of_le_length bound.le]
  · have earlier : (typed ++ [key]).take typed.length = typed := List.take_left
    by_cases forwards : key = KEY_ESC ∨ commanded typed = false
    · simp [earlier, Option.filter, forwards]
    · rw [if_neg forwards]
      rw [not_or] at forwards
      simp [earlier, Option.filter, forwards.1, forwards.2]

theorem eq_normal_iff (state : State) : state = .normal ↔ ¬state = .command := by
  cases state <;> simp

theorem exit_ne_esc : KEY_EXIT ≠ KEY_ESC := by decide

/-- A key ends the simulator if it is the one for it and a command. -/
theorem handleInput_eq_none {state : State} {key : Byte} :
    handleInput state key = none ↔ state = .command ∧ key = KEY_EXIT := by
  cases state with
  | normal => simp [handleInput]
  | command =>
      by_cases escapes : key = KEY_ESC
      · subst escapes
        simp [handleInput, handleCmd, exit_ne_esc.symm]
      · by_cases exit : key = KEY_EXIT
        · simp [handleInput, handleCmd, exit, exit_ne_esc]
        · simp [handleInput, handleCmd, escapes, exit]

/-- Every other key goes on to the next state, and is forwarded unless it is a command. -/
theorem handleInput_eq_some {state next : State} {key : Byte} {pushed : List Byte}
    (handled : handleInput state key = some (next, pushed)) :
    (next = .command ↔ key = KEY_ESC ∧ state = .normal) ∧
      (pushed = if key = KEY_ESC ∨ state = .normal then [key] else []) ∧
      ¬(state = .command ∧ key = KEY_EXIT) := by
  have goesOn : ¬(state = .command ∧ key = KEY_EXIT) := by
    rw [← handleInput_eq_none, handled]
    rintro ⟨⟩
  refine and_assoc.mp ⟨?_, goesOn⟩
  cases state with
  | normal =>
      simp only [handleInput, Option.bind_eq_bind, Option.bind_some, Option.some.injEq,
        Prod.mk.injEq] at handled
      obtain ⟨rfl, rfl⟩ := handled
      simp
  | command =>
      by_cases escapes : key = KEY_ESC
      · simp only [handleInput, handleCmd, escapes, if_true, Option.bind_eq_bind, Option.bind_some,
          Option.some.injEq, Prod.mk.injEq] at handled
        obtain ⟨rfl, rfl⟩ := handled
        simp [escapes]
      · have other : key ≠ KEY_EXIT := fun exit => goesOn ⟨rfl, exit⟩
        simp only [handleInput, handleCmd, escapes, other, if_false, Option.bind_eq_bind,
          Option.bind_some, Option.some.injEq, Prod.mk.injEq] at handled
        obtain ⟨rfl, rfl⟩ := handled
        simp [escapes]

/-- The state that some keys leave and the bytes they have pushed, if none of them has ended the
simulator. -/
theorem feed_port {typed : List Byte} {state : port.Input} {bytes : List Byte}
    (fed : port.feed port.opened typed = some (state, bytes)) :
    (state = State.command ↔ commanded typed = true) ∧ bytes = delivered typed ∧
      ∀ before after, typed = before ++ KEY_EXIT :: after → commanded before = false := by
  induction typed using List.reverseRecOn generalizing state bytes with
  | nil =>
      cases fed
      refine ⟨by simp [commanded, port], rfl, ?_⟩
      intro before after same
      simp at same
  | append_singleton typed key inductionHypothesis =>
      rw [Subclass.feed_concat] at fed
      obtain ⟨⟨middle, early⟩, before, last⟩ := Option.bind_eq_some_iff.mp fed
      obtain ⟨⟨next, pushed⟩, handled, same⟩ := Option.map_eq_some_iff.mp last
      cases same
      obtain ⟨mode, rfl, alive⟩ := inductionHypothesis before
      obtain ⟨after, rfl, goesOn⟩ := handleInput_eq_some handled
      have normal : middle = State.normal ↔ commanded typed = false := by
        rw [← Bool.not_eq_true, ← mode]
        exact eq_normal_iff middle
      refine ⟨?_, ?_, ?_⟩
      · rw [commanded_concat, after, normal]
        simp
      · simp only [delivered_concat, normal]
      · intro first others same
        rcases List.eq_nil_or_concat others with rfl | ⟨rest, final, rfl⟩
        · obtain ⟨rfl, single⟩ := List.append_inj' same rfl
          cases single
          rw [← normal, show middle = State.normal ↔ _ from eq_normal_iff middle]
          exact fun command => goesOn ⟨command, rfl⟩
        · rw [List.concat_eq_append, ← List.cons_append, ← List.append_assoc] at same
          exact alive first rest (List.append_inj' same rfl).1

theorem foldl_writeData (output written : List Byte) :
    written.foldl port.writeData output = output ++ written := by
  induction written generalizing output with
  | nil => exact (List.append_nil output).symm
  | cons data rest inductionHypothesis =>
      rw [List.foldl_cons, inductionHypothesis, List.append_assoc]
      rfl

/-! ## Runs -/

variable {actions : List (SerialLine.Action Byte)} {line : Line port}
  {log : List (SerialLine.Event Byte)}

/-- What follows three times Ctrl-a is lost, and what follows it once ends the simulator. -/
def goodbye : List (SerialLine.Action Byte) :=
  [.input 0x68, .push, .uart .pushRx, .uart .notifyRx, .input KEY_ESC, .push, .uart .pushRx,
    .uart .notifyRx, .input KEY_ESC, .push, .uart .pushRx, .uart (.read 4 4), .uart .notifyRx,
    .uart .resume, .input KEY_ESC, .push, .uart .pushRx, .uart .notifyRx, .input 0x71,
    .uart (.write 0 [0x21]), .uart .resume, .input KEY_ESC, .push, .uart .swaitTxfull,
    .uart .pushRx, .uart .popTx, .uart .notifyRx, .uart .notifyTx, .uart .writeData,
    .input KEY_EXIT]

end SymexVP.Terminal
