import SymexVP.ActionRuns

/-!
# General-purpose pins

`GPIO` shows the guest the levels of its pins in registers. The levels themselves are in
the state of a server whose clients change them at any time; `synchronousChange` compares
the two, raises the interrupts of the edges it finds and takes the levels over. Changes
that arrive meanwhile make it start again.

An edge is recorded in a register for pending interrupts, with a 0 for a pin that is
pending. The guest acknowledges pins by writing that register.
-/

namespace SymexVP.GPIO

/-- The variables in the register bank of the constructor, in its order. -/
inductive Register
  | value
  | inputEn
  | outputEn
  | port
  | pullupEn
  | pinDriveStrength
  | riseIntrEn
  | riseIntrPending
  | fallIntrEn
  | fallIntrPending
  | highIntrEn
  | highIntrPending
  | lowIntrEn
  | lowIntrPending
  | iofEn
  | iofSel
  | outXor
  deriving DecidableEq, Repr

/-- The registers, and `server.state`. -/
structure State where
  registers : Register → BitVec 32
  server : BitVec 64

/-- After the constructor: the registers for pending interrupts are all ones, the other ones zero,
and the server has no level. -/
def initial : State where
  registers
    | .riseIntrPending | .fallIntrPending | .highIntrPending | .lowIntrPending => BitVec.allOnes 32
    | _ => 0
  server := 0

def State.assign (gpio : State) (register : Register) (new : BitVec 32) : State :=
  { gpio with registers := Function.update gpio.registers register new }

@[simp] theorem State.assign_server (gpio : State) (register : Register) (new : BitVec 32) :
    (gpio.assign register new).server = gpio.server := rfl

@[simp] theorem State.assign_self (gpio : State) (register : Register) (new : BitVec 32) :
    (gpio.assign register new).registers register = new := Function.update_self ..

@[simp] theorem State.assign_other (gpio : State) {register other : Register} (new : BitVec 32)
    (different : other ≠ register) :
    (gpio.assign register new).registers other = gpio.registers other :=
  Function.update_of_ne different ..

/-! ## Accesses of the guest -/

/-- `register_access_callback` for a write that gives a register the word `new`: the written bytes,
between the register's own. Arithmetic with `server.state` zero-extends a register, its complement
included. -/
def registerAccessCallback (gpio : State) (register : Register) (new : BitVec 32) : State :=
  match register with
  | .value => gpio
  | .port =>
      let gpio := gpio.assign .port new
      let outputEn := gpio.registers .outputEn
      let driven := new &&& outputEn
      let gpio := gpio.assign .value ((gpio.registers .value &&& ~~~outputEn) ||| driven)
      { gpio with server := (gpio.server &&& (~~~outputEn).setWidth 64) ||| driven.setWidth 64 }
  | .pullupEn =>
      let changed := gpio.registers .pullupEn ^^^ new
      let gpio := gpio.assign .pullupEn new
      let gpio := gpio.assign .value (gpio.registers .value ||| changed)
      { gpio with server := gpio.server ||| changed.setWidth 64 }
  | register => gpio.assign register new

/-! ## Changes at the pins -/

/-- The two levels, and the third state that is ignored. -/
inductive Tristate
  | low
  | high
  | unset
  deriving DecidableEq, Repr

/-- A request of a client to set a bit. -/
structure PinChange where
  bit : Fin 64
  val : Tristate
  deriving DecidableEq, Repr

/-- The level of a bit, as it is compared with the request. -/
def level (state : BitVec 64) (bit : Fin 64) : Tristate :=
  if state.getLsbD bit then .high else .low

/-- `asyncOnchange`. -/
def asyncOnchange (gpio : State) (change : PinChange) : State :=
  if level gpio.server change.bit = change.val then gpio
  else
    match change.val with
    | .low => { gpio with server := gpio.server &&& ~~~(1#64 <<< change.bit.val) }
    | .high => { gpio with server := gpio.server ||| 1#64 <<< change.bit.val }
    | .unset => gpio

/-! ## Edges -/

inductive Edge
  | rise
  | fall
  deriving DecidableEq, Repr

/-- The register that enables the interrupts of an edge, and the one that keeps them. -/
def Edge.enable : Edge → Register
  | .rise => .riseIntrEn
  | .fall => .fallIntrEn

def Edge.pending : Edge → Register
  | .rise => .riseIntrPending
  | .fall => .fallIntrPending

theorem Edge.pending_injective : Function.Injective Edge.pending := by
  rintro (_ | _) (_ | _) same
  · rfl
  · cases same
  · cases same
  · rfl

/-- What can be seen of a run: an enabled edge on an input pin with the interrupt it triggers at the
PLIC, if it triggers one, and a write to a register for pending interrupts. -/
inductive Event
  | edge (edge : Edge) (pin : Fin 32) (fired : Option Nat)
  | acknowledge (edge : Edge) (mask : BitVec 32)
  deriving DecidableEq, Repr

variable (intGpioBase : Nat)

/-- The case of `synchronousChange` for an edge at a pin. -/
def observe (edge : Edge) (gpio : State) (pin : Fin 32) : State × List Event :=
  if (gpio.registers edge.enable).getLsbD pin then
    -- interrupt pending is inverted
    if (~~~gpio.registers edge.pending).getLsbD pin then (gpio, [.edge edge pin none])
    else
      (gpio.assign edge.pending (gpio.registers edge.pending &&& ~~~(1#32 <<< pin.val)),
        [.edge edge pin (some (intGpioBase + pin))])
  else (gpio, [])

/-- The body of the loop over the pins. -/
def changePin (serverSnapshot : BitVec 64) (diff : BitVec 32) (gpio : State) (pin : Fin 32) :
    State × List Event :=
  if diff.getLsbD pin then
    if serverSnapshot.getLsbD pin then observe intGpioBase .rise gpio pin
    else observe intGpioBase .fall gpio pin
  else (gpio, [])

/-- The loop over the pins. -/
def changePins (serverSnapshot : BitVec 64) (diff : BitVec 32) :
    State → List (Fin 32) → State × List Event
  | gpio, [] => (gpio, [])
  | gpio, pin :: rest =>
      let (next, events) := changePin intGpioBase serverSnapshot diff gpio pin
      let (last, more) := changePins serverSnapshot diff next rest
      (last, events ++ more)

/-- The input pins whose level differs from the one shown. -/
def difference (gpio : State) : BitVec 32 :=
  (gpio.server.setWidth 32 ^^^ gpio.registers .value) &&& gpio.registers .inputEn

/-- `synchronousChange` between the snapshot and its comparison with the server at the end. -/
def takeOver (gpio : State) : State × List Event :=
  let (changed, events) :=
    changePins intGpioBase gpio.server (difference gpio) gpio (List.finRange 32)
  (changed.assign .value ((gpio.server.setWidth 32 &&& changed.registers .inputEn) |||
    (changed.registers .port &&& changed.registers .outputEn)), events)

/-- `synchronousChange`; `arrivals` are the changes at the pins that arrive while it runs, for each
time it has started again. -/
def synchronousChange (gpio : State) (arrivals : List (List PinChange)) : State × List Event :=
  if difference gpio = 0 then (gpio, [])
  else
    let (taken, events) := takeOver intGpioBase gpio
    match arrivals with
    | [] => (taken, events)
    | arriving :: rest =>
        let reached := arriving.foldl asyncOnchange taken
        if gpio.server ≠ reached.server then
          let (last, more) := synchronousChange reached rest
          (last, events ++ more)
        else (reached, events)

/-! ## Runs -/

inductive Action
  | write (register : Register) (new : BitVec 32)
  | asyncOnchange (change : PinChange)
  | synchronousChange (arrivals : List (List PinChange))

/-- The edge whose pending interrupts a register keeps. -/
def Register.keeps : Register → Option Edge
  | .riseIntrPending => some .rise
  | .fallIntrPending => some .fall
  | _ => none

/-- What is seen of a write. -/
def writeEvents (register : Register) (new : BitVec 32) : List Event :=
  match register.keeps with
  | some edge => [.acknowledge edge new]
  | none => []

def step (gpio : State) : Action → Option (State × List Event)
  | .write register new => some (registerAccessCallback gpio register new, writeEvents register new)
  | .asyncOnchange change => some (asyncOnchange gpio change, [])
  | .synchronousChange arrivals => some (synchronousChange intGpioBase gpio arrivals)

end SymexVP.GPIO
