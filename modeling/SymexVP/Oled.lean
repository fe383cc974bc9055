import SymexVP.ActionRuns
import SymexVP.CheckedArrays

/-!
# The OLED display

`SS1106` models the controller of a display behind the SPI bus. A pin tells whether a
byte is data or a command. Commands select a column and a page, the two halves of the
column one at a time; a data byte is stored in the frame at the selected place and moves
the column on.

The frame is the last member of a structure in shared memory and its rows follow one
another, so an access past the end of a row is one to the next row. Only an access past
the end of the frame is a fault here. The source checks neither.
-/

namespace SymexVP.Oled

open Exec

abbrev Byte := BitVec 8

def width : Nat := 132
def height : Nat := 64

/-- `Operator`, in the source order. -/
inductive Operator
  | colLow | colHigh | pumpVoltage | displayStartLine | contrastModeSet | segmentRemap
  | entireDisplay | normalInverse | multiplexRatio | dcDcVoltage | displayOn | pageAddr
  | commonOutputDir | displayOffset | displayDivideRatio | disPreChargePeriod | commonPadsStuff
  | vcomDeselect | rmw | rmwEnd | nop
  deriving DecidableEq, Repr

def operators : List Operator :=
  [.colLow, .colHigh, .pumpVoltage, .displayStartLine, .contrastModeSet, .segmentRemap,
    .entireDisplay, .normalInverse, .multiplexRatio, .dcDcVoltage, .displayOn, .pageAddr,
    .commonOutputDir, .displayOffset, .displayDivideRatio, .disPreChargePeriod, .commonPadsStuff,
    .vcomDeselect, .rmw, .rmwEnd, .nop]

def opcode : Operator → Byte
  | .colLow => 0x00
  | .colHigh => 0x10
  | .pumpVoltage => 0b00110000
  | .displayStartLine => 0b01000000
  | .contrastModeSet => 0b10000001
  | .segmentRemap => 0xA0
  | .entireDisplay => 0xA4
  | .normalInverse => 0xA6
  | .multiplexRatio => 0b10101000
  | .dcDcVoltage => 0x8B
  | .displayOn => 0xAE
  | .pageAddr => 0xB0
  | .commonOutputDir => 0xC0
  | .displayOffset => 0b11010011
  | .displayDivideRatio => 0b11010101
  | .disPreChargePeriod => 0b11011001
  | .commonPadsStuff => 0b11011010
  | .vcomDeselect => 0b11011011
  | .rmw => 0b11100000
  | .rmwEnd => 0b11101110
  | .nop => 0b11100011

def mask : Operator → Byte
  | .displayStartLine => 0b11000000
  | .colLow | .colHigh | .pageAddr | .commonOutputDir => 0b11110000
  | .pumpVoltage => 0b11111100
  | .segmentRemap | .entireDisplay | .normalInverse | .displayOn => 0b11111110
  | .contrastModeSet | .multiplexRatio | .dcDcVoltage | .displayOffset | .displayDivideRatio
  | .disPreChargePeriod | .commonPadsStuff | .vcomDeselect | .rmw | .rmwEnd | .nop => 0b11111111

structure Command where
  op : Operator
  payload : Byte
  deriving DecidableEq

/-- `match`: the first operator whose opcode the byte has under its mask. -/
def matchCommand (cmd : Byte) : Command :=
  match operators.find? fun op => (cmd ^^^ opcode op) &&& mask op == 0 with
  | some op => ⟨op, cmd &&& ~~~mask op⟩
  | none => ⟨.nop, 0⟩

inductive Mode
  | normal | secondArg
  deriving DecidableEq

/-- The members of `State` that are used. -/
structure State where
  changed : BitVec 1
  column : Byte
  page : Byte
  pumpVoltage : BitVec 2
  contrast : Byte
  invertColor : BitVec 1
  displayOn : BitVec 1
  frame : Vector Byte (height / 8 * width)
  deriving DecidableEq

structure SS1106 where
  mode : Mode
  lastCmd : Command
  state : State
  deriving DecidableEq

/-- A display as its constructor leaves it. -/
def reset : SS1106 :=
  ⟨.normal, ⟨.nop, 0⟩, ⟨0, 0, 0, 0, 0, 0, 0, Vector.replicate _ 0⟩⟩

/-- An access past the end of the frame. -/
structure PastFrame where
  index : Nat

abbrev OledM := Exec PastFrame SS1106 Byte

/-- A byte for the frame. The answer `-1` is "not in spec". -/
def writeData (byte : Byte) : OledM Byte := do
  let oled ← get
  let state := oled.state
  if width < state.column.toNat then pure (-1)
  else if height / 8 < state.page.toNat then pure (-1)
  else do
    let index := width * state.page.toNat + state.column.toNat
    let frame ← replace state.frame index byte ⟨index⟩
    modify fun oled =>
      { oled with
        state := { state with frame := frame, changed := 1, column := state.column + 1 } }
    pure 0

/-- The first byte of a command. -/
def commandFirst (byte : Byte) : OledM Unit :=
  let cmd := matchCommand byte
  modify fun oled =>
    let oled := { oled with lastCmd := cmd }
    let state := oled.state
    match cmd.op with
    | .colLow =>
        let column : Byte := (state.column &&& (0xf0 : Byte)) ||| cmd.payload
        { oled with state := { state with column := column } }
    | .colHigh =>
        let column : Byte := (state.column &&& (0x0f : Byte)) ||| (cmd.payload <<< 4)
        { oled with state := { state with column := column } }
    | .pumpVoltage => { oled with state := { state with pumpVoltage := cmd.payload.setWidth 2 } }
    | .contrastModeSet => { oled with mode := .secondArg }
    | .normalInverse => { oled with state := { state with invertColor := cmd.payload.setWidth 1 } }
    | .displayOn => { oled with state := { state with displayOn := cmd.payload.setWidth 1 } }
    | .pageAddr => { oled with state := { state with page := cmd.payload } }
    | _ => oled

/-- The second byte of a command that has two. -/
def commandSecond (byte : Byte) : OledM Unit :=
  modify fun oled =>
    let oled := { oled with mode := .normal }
    match oled.lastCmd.op with
    | .contrastModeSet => { oled with state := { oled.state with contrast := byte, changed := 1 } }
    | _ => oled

/-- `write`, with what `getDCPin` answers. -/
def write (dc : Bool) (byte : Byte) : OledM Byte := do
  let oled ← get
  if dc then writeData byte
  else do
    match oled.mode with
    | .normal => commandFirst byte
    | .secondArg => commandSecond byte
    pure 0

/-! ## Runs -/

/-- A byte from the bus and the level of the pin. -/
structure Input where
  dc : Bool
  byte : Byte

def handle (input : Input) : OledM Unit := do
  let reply ← write input.dc input.byte
  emit reply

/-- What the display does with a byte; nothing if it leaves the frame. -/
def takes (oled : SS1106) (input : Input) : Option (SS1106 × List Byte) :=
  match (handle input).run oled with
  | ⟨.ok _, after, log⟩ => some (after, log)
  | ⟨.error _, _, _⟩ => none

/-! ## Data -/

/-- A cell of the frame. -/
def SS1106.cell (oled : SS1106) (page column : Nat) : Option Byte :=
  oled.state.frame[width * page + column]?

/-- The selected place lies in the frame. -/
def SS1106.Inside (oled : SS1106) : Prop :=
  oled.state.page.toNat < height / 8 ∧ oled.state.column.toNat < width

instance (oled : SS1106) : Decidable oled.Inside := inferInstanceAs (Decidable (_ ∧ _))

/-- A byte has been stored at the selected place and nowhere else. -/
structure Stored (before : SS1106) (byte : Byte) (after : SS1106) : Prop where
  cells : ∀ page column, page < height / 8 → column < width →
    after.cell page column =
      if page = before.state.page.toNat ∧ column = before.state.column.toNat then some byte
      else before.cell page column
  advanced : after.state.column.toNat = before.state.column.toNat + 1
  others : after =
    { before with
      state := { before.state with
        frame := after.state.frame, changed := 1, column := after.state.column } }

/-- A data byte is stored if its place lies in the frame, and rejected if not. -/
def Framed (oled : SS1106) (byte : Byte) : Prop :=
  if oled.Inside then
    ∃ after, takes oled ⟨true, byte⟩ = some (after, [0]) ∧ Stored oled byte after
  else takes oled ⟨true, byte⟩ = some (oled, [-1])

/-- The place is not one right behind the last column or the last page. -/
def Clear (oled : SS1106) : Prop :=
  ¬(oled.state.column.toNat = width ∧ oled.state.page.toNat ≤ height / 8) ∧
    ¬(oled.state.page.toNat = height / 8 ∧ oled.state.column.toNat ≤ width)

instance (oled : SS1106) : Decidable (Clear oled) := inferInstanceAs (Decidable (_ ∧ _))

section Data

variable {oled : SS1106} {byte : Byte}

theorem takes_rejected
    (past : width < oled.state.column.toNat ∨ height / 8 < oled.state.page.toNat) :
    takes oled ⟨true, byte⟩ = some (oled, [-1]) := by
  have answer : (writeData byte).run oled = ⟨.ok (-1), oled, []⟩ := by
    rw [writeData, bind_run, get_run, Outcome.andThen_ok]
    dsimp only
    by_cases wide : width < oled.state.column.toNat
    · rw [if_pos wide]
      rfl
    · rw [if_neg wide, if_pos (past.resolve_left wide)]
      rfl
  have handled : (handle ⟨true, byte⟩).run oled = ⟨.ok (), oled, [-1]⟩ := by
    rw [handle, write, bind_run, bind_run, get_run, Outcome.andThen_ok, if_pos rfl, answer]
    rfl
  rw [takes, handled]

/-- The display behind a byte that both comparisons let through. -/
def stored (oled : SS1106) (byte : Byte)
    (inside : width * oled.state.page.toNat + oled.state.column.toNat < height / 8 * width) :
    SS1106 :=
  { oled with
    state := { oled.state with
      frame := oled.state.frame.set (width * oled.state.page.toNat + oled.state.column.toNat) byte
      changed := 1
      column := oled.state.column + 1 } }

theorem takes_accepted
    (accepted : oled.state.column.toNat ≤ width ∧ oled.state.page.toNat ≤ height / 8) :
    takes oled ⟨true, byte⟩ =
      if inside : width * oled.state.page.toNat + oled.state.column.toNat < height / 8 * width then
        some (stored oled byte inside, [0])
      else none := by
  rw [takes, handle, write, bind_run, bind_run, get_run, Outcome.andThen_ok, if_pos rfl, writeData,
    bind_run, get_run, Outcome.andThen_ok]
  dsimp only
  rw [if_neg (Nat.not_lt.mpr accepted.1), if_neg (Nat.not_lt.mpr accepted.2), bind_run]
  split_ifs with inside
  · rw [replace_of_lt inside]
    rfl
  · rw [replace_of_le (Nat.not_lt.mp inside)]
    rfl

/-- Two places of the frame are the same if they have the same index. -/
theorem index_eq_iff {page column page' column' : Nat} (narrow : column < width)
    (narrow' : column' < width) :
    width * page + column = width * page' + column' ↔ page = page' ∧ column = column' := by
  unfold width at *
  omega

theorem stored_stored (inside : oled.Inside)
    (index : width * oled.state.page.toNat + oled.state.column.toNat < height / 8 * width) :
    Stored oled byte (stored oled byte index) where
  cells page column _ narrow := by
    simp only [SS1106.cell, stored, Vector.getElem?_set, index_eq_iff inside.2 narrow]
    simp only [eq_comm]
  advanced := by
    have narrow := inside.2
    have one : (1 : Byte).toNat = 1 := rfl
    unfold width at narrow
    simp only [stored, BitVec.toNat_add, one]
    omega
  others := rfl

/-- A data byte does what it should exactly where its place is not right behind the last column or
the last page. -/
theorem framed_iff_clear : Framed oled byte ↔ Clear oled := by
  unfold Framed Clear
  by_cases past : width < oled.state.column.toNat ∨ height / 8 < oled.state.page.toNat
  · have outside : ¬oled.Inside := by
      unfold SS1106.Inside
      omega
    rw [if_neg outside]
    exact iff_of_true (takes_rejected past) (by omega)
  · have accepted : oled.state.column.toNat ≤ width ∧ oled.state.page.toNat ≤ height / 8 := by omega
    rw [takes_accepted accepted]
    by_cases inside : oled.Inside
    · have index :
          width * oled.state.page.toNat + oled.state.column.toNat < height / 8 * width := by
        have place := inside
        unfold SS1106.Inside width height at place
        unfold width height
        omega
      rw [if_pos inside, dif_pos index]
      refine iff_of_true ⟨_, rfl, stored_stored inside index⟩ ?_
      unfold SS1106.Inside at inside
      omega
    · rw [if_neg inside]
      refine iff_of_false ?_ ?_
      · split_ifs
        · simp
        · simp
      · unfold SS1106.Inside at inside
        omega

end Data

/-! ## Selection -/

/-- What the bytes so far have selected, and whether a command waits for its second byte. -/
structure Cursor where
  column : Nat
  page : Nat
  waits : Bool
  deriving DecidableEq

namespace Cursor

def start : Cursor := ⟨0, 0, false⟩

/-- The first byte of a command selects half a column or a page, or has a second one. -/
def command (cursor : Cursor) (byte : Nat) : Cursor :=
  if byte / 16 = 0x0 then { cursor with column := cursor.column / 16 * 16 + byte % 16 }
  else if byte / 16 = 0x1 then { cursor with column := byte % 16 * 16 + cursor.column % 16 }
  else if byte / 16 = 0xB then { cursor with page := byte % 16 }
  else if byte = 0x81 then { cursor with waits := true }
  else cursor

def next (cursor : Cursor) (input : Input) : Cursor :=
  if input.dc then
    if cursor.page < height / 8 ∧ cursor.column < width then
      { cursor with column := cursor.column + 1 }
    else cursor
  else if cursor.waits then { cursor with waits := false }
  else cursor.command input.byte.toNat

end Cursor

/-- The selection of a display. -/
def SS1106.cursor (oled : SS1106) : Cursor :=
  ⟨oled.state.column.toNat, oled.state.page.toNat, oled.mode == .secondArg⟩

/-! The halves of a column are bit fields of it. -/

theorem toNat_nibbles (high low : BitVec 4) :
    (high ++ low).toNat = high.toNat * 16 + low.toNat := by
  rw [BitVec.toNat_append, ← Nat.shiftLeft_add_eq_or_of_lt low.isLt, Nat.shiftLeft_eq]

theorem toNat_lowNibble (byte : Byte) : (byte.extractLsb' 0 4).toNat = byte.toNat % 16 := by
  rw [BitVec.extractLsb'_toNat, Nat.shiftRight_zero]

theorem toNat_highNibble (byte : Byte) : (byte.extractLsb' 4 4).toNat = byte.toNat / 16 := by
  have bound := byte.isLt
  rw [BitVec.extractLsb'_toNat, Nat.shiftRight_eq_div_pow]
  omega

theorem toNat_setLow (column byte : Byte) :
    ((column &&& 0xf0) ||| (byte &&& 0x0f)).toNat = column.toNat / 16 * 16 + byte.toNat % 16 := by
  have halves : (column &&& 0xf0) ||| (byte &&& 0x0f) =
      column.extractLsb' 4 4 ++ byte.extractLsb' 0 4 := by
    apply BitVec.eq_of_getLsbD_eq
    intro index inside
    rw [BitVec.getLsbD_append]
    interval_cases index <;> simp
  rw [halves, toNat_nibbles, toNat_highNibble, toNat_lowNibble]

theorem toNat_setHigh (column byte : Byte) :
    ((column &&& (0x0f : Byte)) ||| ((byte &&& (0x0f : Byte)) <<< 4)).toNat =
      byte.toNat % 16 * 16 + column.toNat % 16 := by
  have halves : (column &&& (0x0f : Byte)) ||| ((byte &&& (0x0f : Byte)) <<< 4) =
      byte.extractLsb' 0 4 ++ column.extractLsb' 0 4 := by
    apply BitVec.eq_of_getLsbD_eq
    intro index inside
    rw [BitVec.getLsbD_append]
    interval_cases index <;> simp
  rw [halves, toNat_nibbles, toNat_lowNibble, toNat_lowNibble]

theorem toNat_payload (byte : Byte) : (byte &&& (0x0f : Byte)).toNat = byte.toNat % 16 := by
  rw [BitVec.toNat_and]
  exact Nat.and_two_pow_sub_one_eq_mod _ 4

/-- The operators that select something, and their bytes. -/
theorem matchCommand_spec (byte : Byte) :
    (byte.toNat / 16 = 0x0 → matchCommand byte = ⟨.colLow, byte &&& 0x0f⟩) ∧
      (byte.toNat / 16 = 0x1 → matchCommand byte = ⟨.colHigh, byte &&& 0x0f⟩) ∧
      (byte.toNat / 16 = 0xB → matchCommand byte = ⟨.pageAddr, byte &&& 0x0f⟩) ∧
      (byte.toNat = 0x81 → matchCommand byte = ⟨.contrastModeSet, 0⟩) := by
  revert byte
  decide +kernel

theorem op_of_other (byte : Byte) :
    byte.toNat / 16 = 0x0 ∨ byte.toNat / 16 = 0x1 ∨ byte.toNat / 16 = 0xB ∨ byte.toNat = 0x81 ∨
      (matchCommand byte).op ∉ [Operator.colLow, .colHigh, .pageAddr, .contrastModeSet] := by
  revert byte
  decide +kernel

section Steps

variable {oled : SS1106} {byte : Byte}

theorem commandFirst_cursor (normal : oled.mode = .normal) :
    ((commandFirst byte).run oled).state.cursor = oled.cursor.command byte.toNat := by
  obtain ⟨low, high, page, contrast⟩ := matchCommand_spec byte
  unfold commandFirst Cursor.command
  rw [modify_run]
  dsimp only
  split_ifs with first second third fourth
  · rw [low first]
    simp only [SS1106.cursor, toNat_setLow]
  · rw [high second]
    simp only [SS1106.cursor, toNat_setHigh]
  · rw [page third]
    simp only [SS1106.cursor, toNat_payload]
  · rw [contrast fourth]
    simp [SS1106.cursor]
  · have other := (op_of_other byte).resolve_left first |>.resolve_left second
      |>.resolve_left third |>.resolve_left fourth
    cases selected : (matchCommand byte).op with
    | colLow | colHigh | pageAddr | contrastModeSet => simp [selected] at other
    | _ => simp [SS1106.cursor, normal]

theorem commandSecond_cursor :
    ((commandSecond byte).run oled).state.cursor = { oled.cursor with waits := false } := by
  unfold commandSecond
  rw [modify_run]
  dsimp only
  cases oled.lastCmd.op with
  | _ => simp [SS1106.cursor]

theorem takes_command (byte : Byte) :
    ∃ after, takes oled ⟨false, byte⟩ = some (after, [0]) ∧
      after.cursor = oled.cursor.next ⟨false, byte⟩ := by
  cases mode : oled.mode with
  | normal =>
      refine ⟨((commandFirst byte).run oled).state, ?_, ?_⟩
      · simp only [takes, handle, write, bind_run, get_run, Outcome.andThen_ok, mode]
        rfl
      · rw [commandFirst_cursor mode]
        simp [Cursor.next, SS1106.cursor, mode]
  | secondArg =>
      refine ⟨((commandSecond byte).run oled).state, ?_, ?_⟩
      · simp only [takes, handle, write, bind_run, get_run, Outcome.andThen_ok, mode]
        rfl
      · rw [commandSecond_cursor]
        simp [Cursor.next, SS1106.cursor, mode]

theorem takes_data (framed : Framed oled byte) :
    ∃ after events, takes oled ⟨true, byte⟩ = some (after, events) ∧
      after.cursor = oled.cursor.next ⟨true, byte⟩ := by
  unfold Framed at framed
  by_cases inside : oled.Inside
  · rw [if_pos inside] at framed
    obtain ⟨after, taken, stored⟩ := framed
    refine ⟨after, _, taken, ?_⟩
    have place : oled.cursor.page < height / 8 ∧ oled.cursor.column < width := inside
    rw [Cursor.next, if_pos rfl, if_pos place, stored.others]
    simp [SS1106.cursor, stored.advanced]
  · rw [if_neg inside] at framed
    have place : ¬(oled.cursor.page < height / 8 ∧ oled.cursor.column < width) := inside
    refine ⟨oled, _, framed, ?_⟩
    rw [Cursor.next, if_pos rfl, if_neg place]

end Steps

/-! ## Runs -/

/-- A data byte does what it should. -/
def Proper (oled : SS1106) (input : Input) : Prop := input.dc = true → Framed oled input.byte

/-- A data byte comes where its place is clear. -/
def Selects (oled : SS1106) (input : Input) : Prop := input.dc = true → Clear oled

instance (oled : SS1106) (input : Input) : Decidable (Selects oled input) :=
  inferInstanceAs (Decidable (_ → _))

theorem takes_of_proper {oled : SS1106} {input : Input} (proper : Proper oled input) :
    ∃ after events, takes oled input = some (after, events) ∧
      after.cursor = oled.cursor.next input := by
  obtain ⟨dc, byte⟩ := input
  cases dc with
  | true => exact takes_data (proper rfl)
  | false =>
      obtain ⟨after, taken, moved⟩ := takes_command byte
      exact ⟨after, _, taken, moved⟩

theorem perform_of_proper {oled : SS1106} {inputs : List Input}
    (proper : ActionRun.Meets takes Proper oled inputs) :
    ∃ last log, ActionRun.perform takes oled inputs = some (last, log) ∧
      last.cursor = inputs.foldl Cursor.next oled.cursor := by
  induction inputs generalizing oled with
  | nil => exact ⟨oled, [], rfl, rfl⟩
  | cons input rest inductionHypothesis =>
      obtain ⟨after, events, taken, moved⟩ := takes_of_proper proper.1
      obtain ⟨last, log, continued, selected⟩ := inductionHypothesis (proper.2 after events taken)
      refine ⟨last, events ++ log, ActionRun.perform_of_step taken continued, ?_⟩
      rw [selected, moved, List.foldl_cons]

theorem proper_eq_selects : Proper = Selects := by
  funext oled input
  exact propext (forall_congr' fun _ => framed_iff_clear)

/-- In a run from reset every data byte is stored at the selected place or rejected if and only if
each comes where its place is clear; the run then stays in the frame, and what is selected is what
its bytes have selected. -/
theorem data_framed_iff (inputs : List Input) :
    (ActionRun.Meets takes Proper reset inputs ↔ ActionRun.Meets takes Selects reset inputs) ∧
      (ActionRun.Meets takes Selects reset inputs →
        ∃ last log, ActionRun.perform takes reset inputs = some (last, log) ∧
          last.cursor = inputs.foldl Cursor.next .start) := by
  rw [proper_eq_selects]
  exact ⟨Iff.rfl, fun meets => perform_of_proper (proper_eq_selects ▸ meets)⟩

/-- The last cell of the frame is written. -/
theorem data_framed_corner :
    ∃ last log,
      ActionRun.perform takes reset [⟨false, 0x03⟩, ⟨false, 0x18⟩, ⟨false, 0xB7⟩, ⟨true, 0x55⟩] =
          some (last, log) ∧ last.cursor = ⟨132, 7, false⟩ :=
  (data_framed_iff [⟨false, 0x03⟩, ⟨false, 0x18⟩, ⟨false, 0xB7⟩, ⟨true, 0x55⟩]).2
    (by decide +kernel)

/-- Column 132 is the first one of the next row, and page 8 is behind the frame. -/
theorem not_framed :
    (ActionRun.perform takes reset [⟨false, 0x04⟩, ⟨false, 0x18⟩, ⟨true, 0xAA⟩]).map
        (fun run => (run.1.cell 0 0, run.1.cell 1 0, run.2)) =
      some (some 0, some 0xAA, [0, 0, 0]) ∧
    ¬ ActionRun.Meets takes Proper reset [⟨false, 0x04⟩, ⟨false, 0x18⟩, ⟨true, 0xAA⟩] ∧
    ActionRun.perform takes reset [⟨false, 0xB8⟩, ⟨true, 0xAA⟩] = none := by
  rw [proper_eq_selects]
  refine ⟨?_, ?_, ?_⟩ <;> decide +kernel

end SymexVP.Oled
