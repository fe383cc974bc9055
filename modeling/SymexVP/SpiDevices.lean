import SymexVP.CanMailboxes
import SymexVP.Oled
import SymexVP.SpiTransfers

/-!
# The devices behind the second SPI controller

A CAN controller and a display share `spi1`. The guest goes to and fro between them, frames arrive
at the one and the pin that tells data from commands changes at the other. What the guest reads of
the CAN controller is not affected by any of this.
-/

namespace SymexVP.Spi

open ActionRun RoutedSystem

/-- The answer of the CAN controller among what can be seen of it. -/
def canReplies (log : List Can.Event) : List Byte :=
  log.filterMap fun
    | .replied reply => some reply
    | .sent _ => none

/-- A CAN controller, or a display with the level of its pin. -/
abbrev Device := Can.CAN ⊕ (Oled.SS1106 × Bool)

/-- A frame that arrives, or a new level of the pin. -/
abbrev Arrival := Can.ReceivedFrame ⊕ Bool

def Device.write : Device → Byte → Option (Device × Byte)
  | .inl can, byte =>
      match Can.takes can (.byte byte) with
      | some (can, events) => (canReplies events).getLast?.map fun reply => (.inl can, reply)
      | none => none
  | .inr (oled, dc), byte =>
      match Oled.takes oled ⟨dc, byte⟩ with
      | some (oled, replies) => replies.getLast?.map fun reply => (.inr (oled, dc), reply)
      | none => none

def Device.receive : Device → Arrival → Option Device
  | .inl can, .inl frame => (Can.takes can (.frame frame)).map fun (can, _) => .inl can
  | .inr (oled, _), .inr level => some (.inr (oled, level))
  | _, _ => none

def devices : SpiInterface where
  State := Device
  Input := Arrival
  write := Device.write
  receive := Device.receive

/-- `spi1`, with the pins of its devices. -/
def spi1 (can : Can.CAN) (oled : Oled.SS1106) (dc : Bool) : State devices :=
  @assembled devices [(0, .inl can), (2, .inr (oled, dc))]

/-! ## Answers of the CAN controller -/

section Answers

open Exec

/-- A step of the CAN controller that answers nothing yet. -/
def Sends (_ : Can.CAN) (log : List Can.Event) (_ : Can.CAN) : Prop := canReplies log = []

variable {α : Type}

theorem sends_element {size : Nat} (array : Vector α size) (index : Nat) (fault : Can.OutOfRange) :
    Takes Sends (element array index fault : Exec Can.OutOfRange Can.CAN Can.Event α) := by
  unfold element
  split
  · exact .pure _
  · exact .throw _

theorem sends_replace {size : Nat} (array : Vector α size) (index : Nat) (value : α)
    (fault : Can.OutOfRange) :
    Takes Sends
      (replace array index value fault : Exec Can.OutOfRange Can.CAN Can.Event (Vector α size)) := by
  unfold replace
  split
  · exact .pure _
  · exact .throw _

theorem sends_copy {size length : Nat} (source : Vector α size)
    (reads writes : Nat → Can.OutOfRange) (count : Nat) (target : Vector α length) :
    Takes Sends (copy source reads writes count target :
      Exec Can.OutOfRange Can.CAN Can.Event (Vector α length)) := by
  induction count with
  | zero => exact .pure _
  | succ count inductionHypothesis =>
      exact .bind inductionHypothesis fun target =>
        .bind (sends_element source count _) fun value => sends_replace target count value _

theorem sends_modify (change : Can.CAN → Can.CAN) :
    Takes Sends (modify change : Can.CanM Unit) := .modify fun _ => rfl

theorem sends_command (byte : Byte) : Takes Sends (Can.command byte) := sends_modify _

theorem sends_readRegister (byte : Byte) : Takes Sends (Can.readRegister byte) := by
  refine .bind .get fun can => .ite ?_ (.ite ?_ ?_)
  · exact .bind (sends_modify _) fun _ => .pure _
  · exact .bind (sends_modify _) fun _ => .bind (sends_command byte) fun _ => .pure _
  · have value : Takes Sends (Can.registerValue can) := by
      unfold Can.registerValue
      exact .ite (.pure _) (sends_element _ _ _)
    exact .bind value fun _ => .bind (sends_modify _) fun _ => .pure _

theorem sends_writeRegister (byte : Byte) : Takes Sends (Can.writeRegister byte) := by
  refine .bind .get fun can => .ite ?_ (.ite (.pure _) ?_)
  · exact .bind (sends_modify _) fun _ => .pure _
  · exact .bind (sends_replace _ _ _ _) fun _ => .bind (sends_modify _) fun _ => .pure _

theorem sends_modifyRegister (byte : Byte) : Takes Sends (Can.modifyRegister byte) := by
  refine .bind .get fun can => ?_
  cases can.modReg.state with
  | address | mask => exact .bind (sends_modify _) fun _ => .pure _
  | data =>
      refine .bind (sends_modify _) fun _ => .bind (sends_element _ _ _) fun _ => ?_
      exact .bind (sends_replace _ _ _ _) fun _ => .bind (sends_modify _) fun _ => .pure _

theorem sends_loadTxBuf (no : Nat) (byte : Byte) : Takes Sends (Can.loadTxBuf no byte) := by
  refine .bind .get fun can => .bind (sends_element _ _ _) fun buffer => ?_
  cases can.loadTX.state with
  | id | payload =>
      refine .bind (sends_replace _ _ _ _) fun _ => .bind (sends_replace _ _ _ _) fun _ => ?_
      exact .bind (sends_modify _) fun _ => .pure _
  | length =>
      exact .bind (sends_replace _ _ _ _) fun _ => .bind (sends_modify _) fun _ => .pure _

theorem sends_sendTxBuf (no : Nat) (byte : Byte) : Takes Sends (Can.sendTxBuf no byte) := by
  refine .bind .get fun can => .bind (sends_element _ _ _) fun buffer => ?_
  refine .bind (sends_copy _ _ _ _ _) fun _ => .bind (.emit fun _ => rfl) fun _ => ?_
  exact .bind (sends_replace _ _ _ _) fun _ => .bind (sends_modify _) fun _ => .pure _

theorem sends_readRxBuf (no : Nat) (byte : Byte) : Takes Sends (Can.readRxBuf no byte) := by
  refine .bind .get fun can => .bind (sends_element _ _ _) fun buffer => ?_
  refine .bind (sends_element _ _ _) fun _ => .bind (sends_modify _) fun _ => ?_
  exact .bind (.when (sends_modify _)) fun _ => .pure _

/-- A byte has one answer, and that is seen last. -/
theorem sends_write (byte : Byte) : Takes Sends (Can.write byte) := by
  refine .bind .get fun can => ?_
  cases can.state with
  | init => exact .bind (sends_command byte) fun _ => .pure _
  | readRegister => exact sends_readRegister byte
  | writeRegister => exact sends_writeRegister byte
  | bitmod => exact sends_modifyRegister byte
  | loadTX0 | loadTX1 | loadTX2 => exact sends_loadTxBuf _ byte
  | sendTX0 | sendTX1 | sendTX2 | sendALL => exact sends_sendTxBuf _ byte
  | readRX0 | readRX1 => exact sends_readRxBuf _ byte
  | getStatus => exact .bind (sends_modify _) fun _ => .pure _

theorem canReplies_append (log more : List Can.Event) :
    canReplies (log ++ more) = canReplies log ++ canReplies more := List.filterMap_append

theorem canReplies_write (can : Can.CAN) (byte : Byte) :
    canReplies ((Can.write byte).run can).log = [] := by
  have joined : ∀ {before middle last : Can.CAN} {log more : List Can.Event},
      Sends before log middle → Sends middle more last → Sends before (log ++ more) last := by
    intro _ _ _ log more first second
    rw [Sends, canReplies_append, show canReplies log = [] from first]
    exact second
  exact (sends_write byte can).fold (fun _ => rfl) joined id

end Answers

/-! ## The CAN controller by itself -/

/-- An input of the CAN controller as the bus has it. -/
def ofCan : Can.Input → Byte ⊕ Arrival
  | .byte byte => .inl byte
  | .frame frame => .inr (.inl frame)

section Can

variable {can : Can.CAN} {after : Device} {answers : List Byte}

/-- What a byte is answered with is the last thing seen. -/
theorem canReplies_takes {next : Can.CAN} {byte : Byte} {events : List Can.Event}
    (taken : Can.takes can (.byte byte) = some (next, events)) :
    ∃ reply, canReplies events = [reply] := by
  unfold Can.takes Can.handle at taken
  rw [Exec.bind_run] at taken
  have none := canReplies_write can byte
  generalize (Can.write byte).run can = outcome at taken none
  obtain ⟨result, after, log⟩ := outcome
  cases result with
  | error fault => cases taken
  | ok reply =>
      cases taken
      refine ⟨reply, (canReplies_append log _).trans ?_⟩
      rw [show canReplies log = [] from none]
      rfl

theorem exchange_can {input : Byte ⊕ Arrival}
    (exchanged : @exchange devices (.inl can) input = some (after, answers)) :
    ∃ (own : Can.Input) (next : Can.CAN) (events : List Can.Event), input = ofCan own ∧
      after = .inl next ∧ Can.takes can own = some (next, events) ∧ answers = canReplies events := by
  obtain byte | frame | level := input
  · obtain ⟨⟨reached, reply⟩, written, same⟩ := Option.map_eq_some_iff.mp exchanged
    obtain ⟨rfl, rfl⟩ := Prod.mk.inj same
    cases taken : Can.takes can (.byte byte) with
    | none =>
        simp only [devices, Device.write, taken] at written
        cases written
    | some next =>
        obtain ⟨next, events⟩ := next
        obtain ⟨only, replies⟩ := canReplies_takes taken
        simp only [devices, Device.write, taken, replies] at written
        cases written
        exact ⟨.byte byte, next, events, rfl, rfl, taken, replies.symm⟩
  · obtain ⟨reached, received, same⟩ := Option.map_eq_some_iff.mp exchanged
    obtain ⟨rfl, rfl⟩ := Prod.mk.inj same
    obtain ⟨⟨next, events⟩, taken, rfl⟩ := Option.map_eq_some_iff.mp received
    obtain ⟨rxBuf, status, stored, -⟩ := @Can.takes_frame can frame
    rw [stored] at taken
    cases taken
    exact ⟨.frame frame, _, [], rfl, rfl, stored, rfl⟩
  · cases exchanged

/-- Behind the bus, the CAN controller does what it does by itself. -/
theorem serve_can {inputs : List (Byte ⊕ Arrival)}
    (served : serve (@exchange devices) (.inl can) inputs = some (after, answers)) :
    ∃ (own : List Can.Input) (last : Can.CAN) (log : List Can.Event), inputs = own.map ofCan ∧
      after = .inl last ∧ perform Can.takes can own = some (last, log) ∧
      answers = canReplies log := by
  induction inputs generalizing can answers with
  | nil =>
      cases served
      exact ⟨[], can, [], rfl, rfl, rfl, rfl⟩
  | cons input rest inductionHypothesis =>
      obtain ⟨middle, first, more, exchanged, continued, rfl⟩ := serve_eq_some served
      obtain ⟨own, next, events, rfl, rfl, taken, rfl⟩ := exchange_can exchanged
      obtain ⟨others, last, log, rfl, rfl, ran, rfl⟩ := inductionHypothesis continued
      exact ⟨own :: others, last, events ++ log, rfl, rfl, perform_of_step taken ran,
        (canReplies_append events log).symm⟩

end Can

/-- The bytes among the inputs of a target. -/
def bytesOf (inputs : List (Byte ⊕ Arrival)) : List Byte := inputs.filterMap Sum.getLeft?

theorem bytesOf_ofCan (own : List Can.Input) :
    (own.filter Can.Input.isByte) = (bytesOf (own.map ofCan)).map .byte := by
  induction own with
  | nil => rfl
  | cons input rest inductionHypothesis =>
      cases input with
      | byte byte => exact congrArg (Can.Input.byte byte :: ·) inductionHypothesis
      | frame frame => exact inductionHypothesis

/-- The exchanges of a run: for each answer, the pin of its target. -/
def exchangesIn (log : List Event) : List (Pin × Byte) := log.filterMap answered

theorem exchangesIn_snd (log : List Event) : (exchangesIn log).map Prod.snd = repliesOf log := by
  unfold exchangesIn repliesOf
  rw [List.map_filterMap]
  refine congrArg (List.filterMap · log) (funext fun event => ?_)
  cases event <;> rfl

theorem exchangesIn_of_pin (log : List Event) (pin : Pin) :
    ((exchangesIn log).filter fun exchanged => exchanged.1 = pin).map Prod.snd =
      answersOf answered pin log := by
  unfold exchangesIn answersOf
  rw [List.filter_filterMap, List.map_filterMap]
  refine congrArg (List.filterMap · log) (funext fun event => ?_)
  cases answered event with
  | none => rfl
  | some exchanged =>
      obtain ⟨source, answer⟩ := exchanged
      by_cases same : source = pin
      · simp [same]
      · simp [same]

/-- Nothing leaves the queue but for the guest, where nothing gives way. -/
theorem removedIn_eq {log : List Event} (kept : ∀ reply, .dropped reply ∉ log) :
    removedIn log = poppedIn log := by
  unfold removedIn poppedIn
  refine List.filterMap_congr fun event member => ?_
  cases event with
  | dropped reply => exact absurd member (kept reply)
  | _ => rfl

theorem canReplies_replied (bytes : List Byte) : canReplies (bytes.map .replied) = bytes := by
  unfold canReplies
  rw [List.filterMap_map]
  exact List.filterMap_some

/-- A byte to the selected device, and its answer. -/
def transfer (byte : Byte) : List (Action devices) := [.write 0x48 [byte], .read 0x4C 4]

/-- The display is written to, and a frame arrives, while a frame is read. -/
def busyRead : List (Action devices) :=
  transfer 0x90 ++ transfer 0 ++ transfer 0 ++
    [.other 0 (.inl Can.strayFrame), .write 0x10 [2, 0, 0, 0]] ++ transfer 0xAB ++
    [.other 2 (.inr false)] ++ transfer 0xB3 ++ [.write 0x10 [0, 0, 0, 0]] ++
    (List.replicate 5 0).flatMap transfer

end SymexVP.Spi
