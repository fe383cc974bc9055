import SymexVP.BitFields
import SymexVP.CanBounds

/-!
# The register file of the CAN controller

A command on registers takes several bytes. What has been seen of it is kept between
them in variables of the functions, and a read goes on until a byte comes that is the
first one of the next command. Sequences of such commands are compared here with a plain
array of registers.
-/

namespace SymexVP.Can

open Exec ActionRun

variable {can after : CAN} {byte reply : Byte}

/-! ## Single bytes -/

theorem takes_byte {log : List Event}
    (written : (write byte).run can = ⟨.ok reply, after, log⟩) :
    takes can (.byte byte) = some (after, log ++ [.replied reply]) := by
  rw [takes, handle, bind_run, written]
  rfl

/-- A byte by which nothing is sent. -/
theorem takes_quiet (written : (write byte).run can = ⟨.ok reply, after, []⟩) :
    takes can (.byte byte) = some (after, [.replied reply]) := takes_byte written

theorem takes_init (state : can.state = .init) :
    takes can (.byte byte) =
      some ({ can with state := (commanded byte).getD .init }, [.replied 0]) := by
  apply takes_quiet
  rw [write, bind_run, get_run, Outcome.andThen_ok, state]
  dsimp only
  rw [bind_run, command, modify_run, state]
  rfl

section Read

variable (state : can.state = .readRegister)

include state

theorem write_of_readRegister : (write byte).run can = (readRegister byte).run can := by
  rw [write, bind_run, get_run, Outcome.andThen_ok, state]
  rfl

theorem takes_readSelect (unselected : can.readSelected.toInt < 0) :
    takes can (.byte byte) =
      some ({ can with readSelected := byte.setWidth 16 }, [.replied 0]) := by
  apply takes_quiet
  rw [write_of_readRegister state, readRegister, bind_run, get_run, Outcome.andThen_ok,
    if_pos unselected]
  rfl

theorem takes_readEnd (selected : 0 ≤ can.readSelected.toInt) (ends : byte ≠ 0) :
    takes can (.byte byte) =
      some ({ can with
        readSelected := -1, state := (commanded byte).getD .readRegister }, [.replied 0]) := by
  apply takes_quiet
  rw [write_of_readRegister state, readRegister, bind_run, get_run, Outcome.andThen_ok,
    if_neg (Int.not_lt.mpr selected), if_pos ends]
  simp only [command, bind_run, modify_run, Outcome.andThen_ok, state]
  rfl

theorem takes_readNext (selected : 0 ≤ can.readSelected.toInt)
    (inside : can.readSelected.toInt.toNat < MCP_RXB1SIDH + 1) :
    takes can (.byte 0) =
      some ({ can with readSelected := can.readSelected + 1 },
        [.replied can.registers[can.readSelected.toInt.toNat]]) := by
  have low : ¬(MCP_RXB1SIDH : Int) < can.readSelected.toInt := by omega
  apply takes_quiet
  rw [write_of_readRegister state, readRegister, bind_run, get_run, Outcome.andThen_ok,
    if_neg (Int.not_lt.mpr selected), if_neg (not_not_intro rfl), bind_run, registerValue,
    if_neg low, element_of_lt inside]
  rfl

theorem takes_readHigh (high : MCP_RXB1SIDH < can.readSelected.toInt) :
    takes can (.byte 0) =
      some ({ can with readSelected := can.readSelected + 1 }, [.replied 0]) := by
  apply takes_quiet
  rw [write_of_readRegister state, readRegister, bind_run, get_run, Outcome.andThen_ok,
    if_neg (by omega), if_neg (not_not_intro rfl), bind_run, registerValue, if_pos high]
  rfl

end Read

section Write

variable (state : can.state = .writeRegister)

include state

theorem write_of_writeRegister : (write byte).run can = (writeRegister byte).run can := by
  rw [write, bind_run, get_run, Outcome.andThen_ok, state]
  rfl

theorem takes_writeSelect (unselected : can.writeSelected.toInt < 0) :
    takes can (.byte byte) =
      some ({ can with writeSelected := byte.setWidth 16 }, [.replied 0]) := by
  apply takes_quiet
  rw [write_of_writeRegister state, writeRegister, bind_run, get_run, Outcome.andThen_ok,
    if_pos unselected]
  rfl

theorem takes_writeHigh (high : MCP_RXB1SIDH < can.writeSelected.toInt) :
    takes can (.byte byte) = some (can, [.replied 0]) := by
  apply takes_quiet
  rw [write_of_writeRegister state, writeRegister, bind_run, get_run, Outcome.andThen_ok,
    if_neg (by omega), if_pos high]
  rfl

theorem takes_writeValue (selected : 0 ≤ can.writeSelected.toInt)
    (inside : can.writeSelected.toInt.toNat < MCP_RXB1SIDH + 1) :
    takes can (.byte byte) =
      some ({ can with
        registers := can.registers.set can.writeSelected.toInt.toNat byte
        writeSelected := -1
        state := .init }, [.replied 0]) := by
  have low : ¬(MCP_RXB1SIDH : Int) < can.writeSelected.toInt := by omega
  apply takes_quiet
  rw [write_of_writeRegister state, writeRegister, bind_run, get_run, Outcome.andThen_ok,
    if_neg (Int.not_lt.mpr selected), if_neg low]
  dsimp only
  rw [bind_run, replace_of_lt inside]
  rfl

end Write

section Modify

variable (state : can.state = .bitmod)

include state

theorem write_of_bitmod : (write byte).run can = (modifyRegister byte).run can := by
  rw [write, bind_run, get_run, Outcome.andThen_ok, state]
  rfl

theorem takes_modifyAddress (begun : can.modReg.state = .address) :
    takes can (.byte byte) =
      some ({ can with modReg := { can.modReg with address := byte, state := .mask } },
        [.replied 0]) := by
  apply takes_quiet
  rw [write_of_bitmod state, modifyRegister, bind_run, get_run, Outcome.andThen_ok, begun]
  rfl

theorem takes_modifyMask (begun : can.modReg.state = .mask) :
    takes can (.byte byte) =
      some ({ can with modReg := { can.modReg with mask := byte, state := .data } },
        [.replied 0]) := by
  apply takes_quiet
  rw [write_of_bitmod state, modifyRegister, bind_run, get_run, Outcome.andThen_ok, begun]
  rfl

theorem takes_modifyData (begun : can.modReg.state = .data)
    (inside : can.modReg.address.toNat < MCP_RXB1SIDH + 1) :
    takes can (.byte byte) =
      some ({ can with
        registers := can.registers.set can.modReg.address.toNat
          ((can.registers[can.modReg.address.toNat] &&& ~~~can.modReg.mask) ||| byte)
        modReg := { can.modReg with data := byte, state := .address }
        state := .init }, [.replied 0]) := by
  apply takes_quiet
  rw [write_of_bitmod state, modifyRegister, bind_run, get_run, Outcome.andThen_ok, begun]
  simp only [bind_run, modify_run, Outcome.andThen_ok, element_of_lt inside, replace_of_lt inside,
    pure_run]
  rfl

end Modify

/-! ## Commands -/

/-- A command on registers: a write of a value, a read of registers in a row, or a write of some
bits. -/
inductive RegisterCommand
  | write (address value : Byte)
  | read (address : Byte) (count : Nat)
  | bitmod (address mask data : Byte)

/-- The registers by their addresses. -/
abbrev Contents := Nat → Byte

def CAN.contents (can : CAN) : Contents := fun address => (can.registers[address]?).getD 0

namespace RegisterCommand

/-- A read is ended by the next command. -/
def bytes : RegisterCommand → List Byte
  | write address value => [BitVec.ofNat 8 MCP_WRITE, address, value]
  | read address count => [BitVec.ofNat 8 MCP_READ, address] ++ List.replicate count 0
  | bitmod address mask data => [BitVec.ofNat 8 MCP_BITMOD, address, mask, data]

/-- The registers that are touched exist. -/
def InRange : RegisterCommand → Prop
  | write address _ => address.toNat ≤ MCP_RXB1SIDH
  | read address count => ∀ index < count, address.toNat + index ≤ MCP_RXB1SIDH
  | bitmod address _ _ => address.toNat ≤ MCP_RXB1SIDH

instance : (command : RegisterCommand) → Decidable command.InRange
  | write address _ => inferInstanceAs (Decidable (address.toNat ≤ MCP_RXB1SIDH))
  | read address count =>
      inferInstanceAs (Decidable (∀ index < count, address.toNat + index ≤ MCP_RXB1SIDH))
  | bitmod address _ _ => inferInstanceAs (Decidable (address.toNat ≤ MCP_RXB1SIDH))

/-- A plain array of registers. -/
def plain (registers : Contents) : RegisterCommand → Contents
  | write address value => Function.update registers address.toNat value
  | read _ _ => registers
  | bitmod address mask data =>
      Function.update registers address.toNat
        ((registers address.toNat &&& ~~~mask) ||| (data &&& mask))

/-- What the controller makes of its registers. -/
def made (registers : Contents) : RegisterCommand → Contents
  | bitmod address mask data =>
      Function.update registers address.toNat ((registers address.toNat &&& ~~~mask) ||| data)
  | other => plain registers other

/-- The answers to the bytes; those to the zero bytes of a read are registers. -/
def replies (registers : Contents) : RegisterCommand → List Byte
  | write _ _ => [0, 0, 0]
  | read address count => [0, 0] ++ (List.range count).map fun index =>
      registers (address.toNat + index)
  | bitmod _ _ _ => [0, 0, 0, 0]

end RegisterCommand

/-- The answers to a sequence of commands, and the registers behind it. -/
def replay (step : Contents → RegisterCommand → Contents) :
    Contents → List RegisterCommand → List Byte × Contents
  | registers, [] => ([], registers)
  | registers, command :: rest =>
      let (more, last) := replay step (step registers command) rest
      (command.replies registers ++ more, last)

/-! ## Between commands -/

/-- A command may come: none has begun, or a read that the command ends. -/
structure Ready (can : CAN) : Prop where
  waits : (can.state = .init ∧ can.readSelected = -1) ∨
    (can.state = .readRegister ∧ 0 ≤ can.readSelected.toInt)
  writeSelected : can.writeSelected = -1
  modReg : can.modReg.state = .address

theorem Ready.takes_command (ready : Ready can) {state : State}
    (commands : commanded byte = some state) (nonzero : byte ≠ 0) :
    takes can (.byte byte) =
      some ({ can with readSelected := -1, state := state }, [.replied 0]) := by
  obtain ⟨init, unselected⟩ | ⟨reading, selected⟩ := ready.waits
  · rw [takes_init init, commands, ← unselected]
    rfl
  · rw [takes_readEnd reading selected nonzero, commands]
    rfl

/-! ## One command -/

theorem toInt_address (address : Byte) : (address.setWidth 16).toInt = address.toNat := by
  have bound := address.isLt
  rw [BitVec.toInt_eq_toNat_of_lt] <;> rw [BitVec.toNat_setWidth_of_le (by decide)]
  omega

theorem contents_eq {index : Nat} (inside : index < MCP_RXB1SIDH + 1) :
    can.contents index = can.registers[index] := by
  simp [CAN.contents, inside]

theorem contents_set {index : Nat} (inside : index < MCP_RXB1SIDH + 1) (value : Byte)
    (same : after.registers = can.registers.set index value) :
    after.contents = Function.update can.contents index value := by
  funext other
  rw [CAN.contents, same, Vector.getElem?_set, Function.update_apply]
  by_cases here : index = other
  · subst here
    rw [if_pos rfl, if_pos rfl, Option.getD_some]
  · rw [if_neg here, if_neg (Ne.symm here)]
    rfl

/-- The zero bytes of a read. -/
theorem perform_zeros (count : Nat) (state : can.state = .readRegister)
    (selected : 0 ≤ can.readSelected.toInt)
    (inside : can.readSelected.toInt.toNat + count ≤ MCP_RXB1SIDH + 1) :
    ∃ after, perform takes can (List.replicate count (.byte 0)) =
        some (after, ((List.range count).map fun index =>
          can.contents (can.readSelected.toInt.toNat + index)).map .replied) ∧
      after.contents = can.contents ∧ after.state = .readRegister ∧
      0 ≤ after.readSelected.toInt ∧ after.writeSelected = can.writeSelected ∧
      after.modReg = can.modReg := by
  induction count generalizing can with
  | zero => exact ⟨can, rfl, rfl, state, selected, rfl, rfl⟩
  | succ count inductionHypothesis =>
      have first := takes_readNext state selected (by omega)
      have up : (can.readSelected + 1).toInt = can.readSelected.toInt + 1 := by
        unfold MCP_RXB1SIDH at inside
        have one : (1 : BitVec 16).toInt = 1 := rfl
        rw [BitVec.toInt_add, one]
        apply Int.bmod_eq_of_le <;> omega
      obtain ⟨after, performed, contents, rest⟩ :=
        @inductionHypothesis { can with readSelected := can.readSelected + 1 } state
          (by dsimp only; omega) (by dsimp only; omega)
      have listed : ((List.range (count + 1)).map fun index =>
            can.contents (can.readSelected.toInt.toNat + index)) =
          can.contents can.readSelected.toInt.toNat ::
            (List.range count).map fun index =>
              can.contents ((can.readSelected + 1).toInt.toNat + index) := by
        rw [List.range_succ_eq_map, List.map_cons, List.map_map]
        refine congrArg _ (List.map_congr_left fun index _ => congrArg can.contents ?_)
        omega
      refine ⟨after, (perform_of_step first performed).trans ?_, contents, rest⟩
      rw [listed, contents_eq (by omega)]
      rfl

/-- The bytes of a command, one after the other. -/
theorem perform_command (ready : Ready can) (command : RegisterCommand)
    (inRange : command.InRange) :
    ∃ after, perform takes can (command.bytes.map .byte) =
        some (after, (command.replies can.contents).map .replied) ∧
      after.contents = command.made can.contents ∧ Ready after := by
  cases command with
  | write address value =>
      have place := toInt_address address
      have inside : (address.setWidth 16).toInt.toNat < MCP_RXB1SIDH + 1 := by
        rw [place]
        exact Nat.lt_succ_of_le inRange
      have first := @Ready.takes_command _ (BitVec.ofNat 8 MCP_WRITE) ready .writeRegister rfl
        (by decide)
      have second := @takes_writeSelect { can with readSelected := -1, state := .writeRegister }
        address rfl (by rw [ready.writeSelected]; decide)
      have third := @takes_writeValue
        { can with
          readSelected := -1, state := .writeRegister, writeSelected := address.setWidth 16 }
        value rfl (by dsimp only; omega) inside
      refine ⟨_, perform_of_step first (perform_of_step second (perform_of_step third rfl)), ?_, ?_⟩
      · refine (contents_set inside value rfl).trans ?_
        rw [place]
        rfl
      · exact ⟨.inl ⟨rfl, rfl⟩, rfl, ready.modReg⟩
  | read address count =>
      have place := toInt_address address
      have first := @Ready.takes_command _ (BitVec.ofNat 8 MCP_READ) ready .readRegister rfl
        (by decide)
      have second := @takes_readSelect { can with readSelected := -1, state := .readRegister }
        address rfl (show (-1 : BitVec 16).toInt < 0 by decide)
      rw [RegisterCommand.bytes, List.map_append, List.map_replicate]
      cases count with
      | zero =>
          refine ⟨_, perform_of_step first (perform_of_step second rfl), rfl, ?_⟩
          exact ⟨.inr ⟨rfl, by dsimp only; omega⟩, ready.writeSelected, ready.modReg⟩
      | succ count =>
          have last := inRange count (Nat.lt_succ_self count)
          obtain ⟨after, performed, contents, state, selected, writeSelected, modReg⟩ :=
            @perform_zeros { can with readSelected := address.setWidth 16, state := .readRegister }
              (count + 1) rfl (by dsimp only; omega) (by dsimp only; omega)
          refine ⟨after, (perform_of_step first (perform_of_step second performed)).trans ?_,
            contents, .inr ⟨state, selected⟩, ?_, ?_⟩
          · dsimp only
            rw [place]
            rfl
          · rw [writeSelected]
            exact ready.writeSelected
          · rw [modReg]
            exact ready.modReg
  | bitmod address mask data =>
      have inside := Nat.lt_succ_of_le inRange
      have first := @Ready.takes_command _ (BitVec.ofNat 8 MCP_BITMOD) ready .bitmod rfl (by decide)
      have second := @takes_modifyAddress { can with readSelected := -1, state := .bitmod }
        address rfl ready.modReg
      have third := @takes_modifyMask
        { can with
          readSelected := -1, state := .bitmod
          modReg := { can.modReg with address := address, state := .mask } } mask rfl rfl
      have fourth := @takes_modifyData
        { can with
          readSelected := -1, state := .bitmod
          modReg := { can.modReg with address := address, mask := mask, state := .data } }
        data rfl rfl inside
      refine ⟨_, perform_of_step first (perform_of_step second (perform_of_step third
        (perform_of_step fourth rfl))), ?_, ?_⟩
      · refine (contents_set inside _ rfl).trans ?_
        rw [RegisterCommand.made, contents_eq inside]
        rfl
      · exact ⟨.inl ⟨rfl, rfl⟩, ready.writeSelected, rfl⟩

/-! ## Sequences -/

/-- The bytes of a sequence of commands. -/
def inputs (commands : List RegisterCommand) : List Input :=
  commands.flatMap fun command => command.bytes.map .byte

theorem perform_commands (ready : Ready can) (commands : List RegisterCommand)
    (inRange : ∀ command ∈ commands, command.InRange) :
    ∃ after, perform takes can (inputs commands) =
        some (after, (replay RegisterCommand.made can.contents commands).1.map .replied) ∧
      after.contents = (replay RegisterCommand.made can.contents commands).2 := by
  induction commands generalizing can with
  | nil => exact ⟨can, rfl, rfl⟩
  | cons command rest inductionHypothesis =>
      obtain ⟨middle, first, contents, again⟩ :=
        perform_command ready command (inRange _ List.mem_cons_self)
      obtain ⟨after, second, last⟩ := inductionHypothesis again fun other member =>
        inRange other (List.mem_cons_of_mem _ member)
      rw [contents] at second last
      refine ⟨after, (perform_append first second).trans ?_, last⟩
      rw [← List.map_append]
      rfl

/-- A BITMOD sets no bit outside its mask that is not set already. -/
def RegisterCommand.Masked (registers : Contents) : RegisterCommand → Prop
  | bitmod address mask data => data &&& ~~~mask &&& ~~~registers address.toNat = 0
  | _ => True

instance (registers : Contents) :
    (command : RegisterCommand) → Decidable (command.Masked registers)
  | .write _ _ | .read _ _ => isTrue trivial
  | .bitmod address mask data =>
      inferInstanceAs (Decidable (data &&& ~~~mask &&& ~~~registers address.toNat = 0))

/-- Each BITMOD of a sequence, where it comes. -/
def AllMasked : Contents → List RegisterCommand → Prop
  | _, [] => True
  | registers, command :: rest =>
      command.Masked registers ∧ AllMasked (command.plain registers) rest

/-- Data that is not masked makes no difference if all its bits are there already. -/
theorem or_eq_merge_iff (mask old data : Byte) :
    (old &&& ~~~mask) ||| data = (old &&& ~~~mask) ||| (data &&& mask) ↔
      data &&& ~~~mask &&& ~~~old = 0 := by
  constructor
  · intro same
    apply BitVec.eq_of_getLsbD_eq
    intro index inside
    have bit := congrArg (BitVec.getLsbD · index) same
    simp only [BitVec.getLsbD_or, BitVec.getLsbD_and, BitVec.getLsbD_not, inside, decide_true,
      Bool.true_and] at bit ⊢
    revert bit
    cases mask.getLsbD index <;> cases old.getLsbD index <;> cases data.getLsbD index <;> simp
  · intro none
    apply BitVec.eq_of_getLsbD_eq
    intro index inside
    have bit := congrArg (BitVec.getLsbD · index) none
    simp only [BitVec.getLsbD_or, BitVec.getLsbD_and, BitVec.getLsbD_not, inside, decide_true,
      Bool.true_and] at bit ⊢
    revert bit
    cases mask.getLsbD index <;> cases old.getLsbD index <;> cases data.getLsbD index <;> simp

theorem made_eq_plain_iff (registers : Contents) (command : RegisterCommand) :
    command.made registers = command.plain registers ↔ command.Masked registers := by
  cases command with
  | write | read => exact iff_of_true rfl trivial
  | bitmod address mask data =>
      exact (Function.update_injective registers address.toNat).eq_iff.trans (or_eq_merge_iff _ _ _)

/-- Two arrays give the same answers and end alike after every part of a sequence exactly if they
agree at each of its commands. -/
theorem replay_eq_iff (registers : Contents) (commands : List RegisterCommand) :
    (∀ before, before <+: commands →
        replay RegisterCommand.made registers before =
          replay RegisterCommand.plain registers before) ↔
      AllMasked registers commands := by
  induction commands generalizing registers with
  | nil =>
      refine iff_of_true (fun before shorter => ?_) trivial
      rw [List.prefix_nil.mp shorter]
      rfl
  | cons command rest inductionHypothesis =>
      rw [AllMasked, ← made_eq_plain_iff, ← inductionHypothesis]
      constructor
      · intro same
        have step : command.made registers = command.plain registers :=
          (Prod.ext_iff.mp (same [command] ⟨rest, rfl⟩)).2
        refine ⟨step, fun before shorter => ?_⟩
        have longer : command :: before <+: command :: rest :=
          List.cons_prefix_cons.mpr ⟨rfl, shorter⟩
        have later := Prod.ext_iff.mp (same (command :: before) longer)
        simp only [replay, step] at later
        exact Prod.ext (List.append_cancel_left later.1) later.2
      · rintro ⟨step, same⟩ before shorter
        cases before with
        | nil => rfl
        | cons first others =>
            obtain ⟨rfl, sooner⟩ := List.cons_prefix_cons.mp shorter
            simp only [replay, step, same others sooner]

/-- The answers to a sequence, and the registers behind it, are those of a plain array. -/
def Behaves (can : CAN) (commands : List RegisterCommand) : Prop :=
  ∃ after, perform takes can (inputs commands) =
      some (after, (replay RegisterCommand.plain can.contents commands).1.map .replied) ∧
    after.contents = (replay RegisterCommand.plain can.contents commands).2

theorem behaves_iff (ready : Ready can) (commands : List RegisterCommand)
    (inRange : ∀ command ∈ commands, command.InRange) :
    Behaves can commands ↔ replay RegisterCommand.made can.contents commands =
      replay RegisterCommand.plain can.contents commands := by
  obtain ⟨after, performed, contents⟩ := perform_commands ready commands inRange
  have injective : Function.Injective Event.replied := fun _ _ same => Event.replied.inj same
  constructor
  · rintro ⟨other, performed', contents'⟩
    rw [performed] at performed'
    obtain ⟨rfl, answers⟩ := Prod.mk.inj (Option.some.inj performed')
    exact Prod.ext (List.map_injective_iff.mpr injective answers) (contents.symm.trans contents')
  · intro same
    exact ⟨after, same ▸ performed, same ▸ contents⟩

/-- A controller in which no command has begun. -/
structure Idle (can : CAN) : Prop where
  state : can.state = .init
  readSelected : can.readSelected = -1
  writeSelected : can.writeSelected = -1
  modReg : can.modReg.state = .address

theorem Idle.ready (idle : Idle can) : Ready can :=
  ⟨.inl ⟨idle.state, idle.readSelected⟩, idle.writeSelected, idle.modReg⟩

/-- After every part of a sequence of commands the controller is a plain array of registers, exactly
where each BITMOD sets no bits outside its mask. -/
theorem registers_plain_iff (idle : Idle can) (commands : List RegisterCommand)
    (inRange : ∀ command ∈ commands, command.InRange) :
    (∀ before, before <+: commands → Behaves can before) ↔ AllMasked can.contents commands := by
  rw [← replay_eq_iff]
  refine forall_congr' fun before => forall_congr' fun shorter => ?_
  exact behaves_iff idle.ready before fun command member => inRange command (shorter.subset member)

theorem idle_blank : Idle blank := ⟨rfl, rfl, rfl, rfl⟩

/-- A register is written, modified and read together with the next one. -/
theorem registers_plain_session :
    Behaves blank [.write 0x0F 0x80, .bitmod 0x0F 0xE0 0x40, .read 0x0F 2] :=
  (registers_plain_iff idle_blank [.write 0x0F 0x80, .bitmod 0x0F 0xE0 0x40, .read 0x0F 2]
    (by decide)).mpr ⟨trivial, by decide, trivial, trivial⟩ _ (List.prefix_refl _)

/-- A BITMOD with the mask `0xE0` sets all bits of a register. -/
theorem not_behaves_bitmod : ¬ Behaves blank [.bitmod 0x0F 0xE0 0xFF] := by
  rw [behaves_iff idle_blank.ready _ (by decide)]
  intro same
  have register := congrFun (Prod.ext_iff.mp same).2 0x0F
  revert register
  decide

end SymexVP.Can
