import SymexVP.Devices

/-!
# Register banks

`RegisterMapping` gives a device the accesses to its registers of four bytes, wherever the
variables behind them are. The handler of the device is called with the access and with
`fn`, which does the copying; it is taken to call `fn` once, with anything before and after
it. The new value it is shown for a write is the word at the data pointer, for an access
of any length and offset.
-/

namespace SymexVP.RegisterMapping

/-- `access_mode`. -/
structure AccessMode where
  allowRead : Bool
  allowWrite : Bool
  deriving DecidableEq, Repr

/-- `reg_mapping_t`; `vptr` names the variable behind the register. -/
structure RegMapping where
  addr : Nat
  vptr : Nat
  mode : AccessMode
  mask : BitVec 32
  deriving DecidableEq, Repr

inductive TlmCommand
  | read
  | write
  | ignore
  deriving DecidableEq, Repr

/-- A transaction, with the bytes from its data pointer on: those of its length, and the ones
that happen to be behind them. -/
structure Transaction where
  command : TlmCommand
  address : Nat
  data : Nat → BitVec 8
  length : Nat

def Transaction.offset (trans : Transaction) : Nat := trans.address % 4

/-- The variables behind registers, and the rest of a device. -/
structure State (δ : Type) where
  registers : Nat → BitVec 32
  device : δ

inductive Fault
  | assertion (text : String)
  | runtimeError (text : String)
  deriving DecidableEq, Repr

/-- `register_access_t`, besides what it takes from the transaction. -/
structure RegisterAccess where
  read : Bool
  write : Bool
  vptr : Nat
  nv : BitVec 32
  addr : Nat

/-- A handler that calls `fn` once: what it does before and after that. -/
structure Handler (δ : Type) where
  before : RegisterAccess → State δ → State δ
  after : RegisterAccess → State δ → State δ

variable {δ : Type}

def assert (condition : Prop) [Decidable condition] (text : String) : Except Fault Unit :=
  if condition then .ok () else .error (.assertion text)

/-- The word at the data pointer. -/
def Transaction.word (trans : Transaction) : BitVec 32 :=
  BitVec.ofNat 32 (Clover.littleEndian ((List.range 4).map trans.data))

/-- `bus_write`. -/
def busWrite (r : RegMapping) (newValue : BitVec 32) (state : State δ) :
    Except Fault (State δ) := do
  assert (r.mode.allowWrite = true) "mode.can_write()"
  .ok { state with registers := Function.update state.registers r.vptr (newValue &&& r.mask) }

/-- `bus_read`. -/
def busRead (r : RegMapping) (state : State δ) : Except Fault (BitVec 32) := do
  assert (r.mode.allowRead = true) "mode.can_read()"
  .ok (state.registers r.vptr)

/-- `fn` of an access. -/
def fn (r : RegMapping) (trans : Transaction) (state : State δ) :
    Except Fault (Transaction × State δ) :=
  match trans.command with
  | .read => do
      let n ← busRead r state
      let bytes := readBytes n trans.offset trans.length
      .ok ({ trans with data := fun k => bytes.getD k (trans.data k) }, state)
  | .write => do
      let n := writeBytes (state.registers r.vptr) trans.offset
        ((List.range trans.length).map trans.data)
      let state ← busWrite r n state
      .ok (trans, state)
  | .ignore => .error (.runtimeError "unsupported TLM command detected")

/-- What the handler is called with. -/
def accessOf (r : RegMapping) (trans : Transaction) : RegisterAccess where
  read := trans.command = .read
  write := trans.command = .write
  vptr := r.vptr
  nv := if trans.command = .write then trans.word else 0
  addr := trans.address

/-- `addr_to_reg.find`, with the address of the nearest register. -/
def findRegister (bank : List RegMapping) (address : Nat) : Option RegMapping :=
  bank.find? fun r => r.addr = address - address % 4

/-- `try_handle`; nothing if no register of the bank is at the address. -/
def tryHandle (bank : List RegMapping) (handler : Handler δ) (trans : Transaction)
    (state : State δ) : Except Fault (Option (Transaction × State δ)) :=
  match findRegister bank trans.address with
  | none => .ok none
  | some r => do
      assert (trans.length + trans.offset ≤ 4) "len + (addr % 4) <= 4"
      assert (trans.command = .read ∨ trans.command = .write)
        "cmd == tlm::TLM_READ_COMMAND || cmd == tlm::TLM_WRITE_COMMAND"
      assert (r.mode.allowRead = true ∨ trans.command ≠ .read)
        "r.mode.can_read() || cmd != tlm::TLM_READ_COMMAND"
      assert (r.mode.allowWrite = true ∨ trans.command ≠ .write)
        "r.mode.can_write() || cmd != tlm::TLM_WRITE_COMMAND"
      let access := accessOf r trans
      let (trans, state) ← fn r trans (handler.before access state)
      .ok (some (trans, handler.after access state))

/-! ## Bytes of a register -/

open Clover (byteOf)

theorem byteOf_setField (value : BitVec 32) (byte : BitVec 8) {offset k : Nat} (inside : offset < 4)
    (low : k < 4) :
    byteOf k (BitFields.setField (8 * offset) 8 value (byte.setWidth 32)) =
      if k = offset then byte else byteOf k value := by
  apply BitVec.eq_of_getLsbD_eq
  intro bit inByte
  rw [byteOf, BitVec.getLsbD_extractLsb', BitFields.setField, BitFields.getLsbD_merge,
    BitFields.getLsbD_fieldMask _ _ _ (by omega), BitVec.getLsbD_shiftLeft, BitVec.getLsbD_setWidth]
  by_cases same : k = offset
  · subst same
    have position : 8 * k + bit - 8 * k = bit := by omega
    rw [if_pos rfl, position]
    simp [inByte, show 8 * k + bit < 32 by omega, show bit < 32 by omega]
  · have outside : ¬(8 * offset ≤ 8 * k + bit ∧ 8 * k + bit < 8 * offset + 8) := by omega
    rw [if_neg same, byteOf, BitVec.getLsbD_extractLsb']
    simp [inByte, outside]

/-- The byte of a register behind a copy into it. -/
theorem byteOf_writeBytes (value : BitVec 32) {offset k : Nat} {data : List (BitVec 8)}
    (fits : data.length + offset ≤ 4) (low : k < 4) :
    byteOf k (writeBytes value offset data) =
      if offset ≤ k ∧ k < offset + data.length then data.getD (k - offset) 0
      else byteOf k value := by
  induction data generalizing value offset with
  | nil =>
      rw [writeBytes, if_neg]
      simp
  | cons byte rest inductionHypothesis =>
      rw [List.length_cons] at fits
      rw [writeBytes, inductionHypothesis _ (by omega), byteOf_setField _ _ (by omega) low,
        List.length_cons]
      by_cases first : k = offset
      · subst first
        rw [if_neg (by omega), if_pos rfl, if_pos (by omega), Nat.sub_self]
        rfl
      · by_cases later : offset + 1 ≤ k ∧ k < offset + 1 + rest.length
        · obtain ⟨index, position⟩ : ∃ index, k - offset = index + 1 := ⟨k - offset - 1, by omega⟩
          rw [if_pos later, if_pos (by omega), position, List.getD_cons_succ]
          congr 1
          omega
        · rw [if_neg later, if_neg first, if_neg (by omega)]

theorem byteOf_and (first second : BitVec 32) (k : Nat) :
    byteOf k (first &&& second) = byteOf k first &&& byteOf k second := by
  apply BitVec.eq_of_getLsbD_eq
  intro bit inByte
  simp [byteOf, inByte]

theorem byteOf_word (trans : Transaction) {k : Nat} (low : k < 4) :
    byteOf k trans.word = trans.data k := by
  rw [Transaction.word, Clover.byteOf_littleEndian _ k (by simpa using low) (by simp)]
  simp

/-! ## What an access does -/

/-- A byte of the register behind a write: those of the access are the written ones. -/
def writtenByte (trans : Transaction) (old : BitVec 32) (k : Nat) : BitVec 8 :=
  if trans.offset ≤ k ∧ k < trans.offset + trans.length then trans.data (k - trans.offset)
  else byteOf k old

/-- A write with `fn` from one state to another changes the bytes of the access under the mask,
and no other register; the handler was shown what the register then holds. -/
structure WriteLaw (r : RegMapping) (trans : Transaction) (access : RegisterAccess)
    (entered left : State δ) : Prop where
  bytes : ∀ k < 4, byteOf k (left.registers r.vptr) =
    writtenByte trans (entered.registers r.vptr) k &&& byteOf k r.mask
  others : ∀ other, other ≠ r.vptr → left.registers other = entered.registers other
  newValue : access.nv = left.registers r.vptr

/-- A read returns the bytes of the access, and changes nothing. -/
structure ReadLaw (r : RegMapping) (trans answer : Transaction) (entered left : State δ) :
    Prop where
  bytes : ∀ k < trans.length, answer.data k = byteOf (trans.offset + k) (entered.registers r.vptr)
  behind : ∀ k, trans.length ≤ k → answer.data k = trans.data k
  unchanged : left = entered

/-- The access is handled, and `fn` does what the law says between what the handler does. -/
def AccessLaw (bank : List RegMapping) (handler : Handler δ) (trans : Transaction)
    (state : State δ) (r : RegMapping) : Prop :=
  ∃ answer left, fn r trans (handler.before (accessOf r trans) state) = .ok (answer, left) ∧
    tryHandle bank handler trans state =
      .ok (some (answer, handler.after (accessOf r trans) left)) ∧
    (trans.command = .write → WriteLaw r trans (accessOf r trans)
      (handler.before (accessOf r trans) state) left) ∧
    (trans.command = .read → ReadLaw r trans answer
      (handler.before (accessOf r trans) state) left)

section Laws

variable {bank : List RegMapping} {handler : Handler δ} {trans : Transaction} {state : State δ}
  {r : RegMapping}

/-- The register after a write. -/
def writtenTo (r : RegMapping) (trans : Transaction) (state : State δ) : State δ :=
  { state with
    registers := Function.update state.registers r.vptr
      (writeBytes (state.registers r.vptr) trans.offset ((List.range trans.length).map trans.data)
        &&& r.mask) }

theorem fn_write (writable : r.mode.allowWrite = true) (command : trans.command = .write)
    (state : State δ) : fn r trans state = .ok (trans, writtenTo r trans state) := by
  unfold fn busWrite assert
  rw [command, if_pos writable]
  rfl

theorem fn_read (readable : r.mode.allowRead = true) (command : trans.command = .read)
    (state : State δ) :
    fn r trans state = .ok ({ trans with data := fun k =>
      (readBytes (state.registers r.vptr) trans.offset trans.length).getD k (trans.data k) },
      state) := by
  unfold fn busRead assert
  rw [command, if_pos readable]
  rfl

theorem tryHandle_of_fn (found : findRegister bank trans.address = some r)
    (mode : r.mode.allowRead = true ∧ r.mode.allowWrite = true)
    (inside : trans.length + trans.offset ≤ 4)
    (known : trans.command = .read ∨ trans.command = .write) {answer : Transaction}
    {left : State δ}
    (ran : fn r trans (handler.before (accessOf r trans) state) = .ok (answer, left)) :
    tryHandle bank handler trans state =
      .ok (some (answer, handler.after (accessOf r trans) left)) := by
  unfold tryHandle assert
  rw [found]
  dsimp only
  rw [if_pos inside, if_pos known, if_pos (.inl mode.1), if_pos (.inl mode.2), ran]
  rfl

theorem byteOf_writtenTo (state : State δ) (inside : trans.length + trans.offset ≤ 4) {k : Nat}
    (low : k < 4) :
    byteOf k ((writtenTo r trans state).registers r.vptr) =
      writtenByte trans (state.registers r.vptr) k &&& byteOf k r.mask := by
  have fits : ((List.range trans.length).map trans.data).length + trans.offset ≤ 4 := by
    simpa using inside
  have stored : (writtenTo r trans state).registers r.vptr = _ := Function.update_self ..
  rw [stored, byteOf_and, byteOf_writeBytes _ fits low, writtenByte, List.length_map,
    List.length_range]
  split_ifs with covered
  · rw [List.getD_eq_getElem?_getD, List.getElem?_map, List.getElem?_range (by omega)]
    rfl
  · rfl

theorem readLaw (state : State δ) :
    ReadLaw r trans { trans with data := fun k =>
      (readBytes (state.registers r.vptr) trans.offset trans.length).getD k (trans.data k) }
      state state where
  bytes k less := by
    dsimp only
    rw [readBytes, List.getD_eq_getElem?_getD, List.getElem?_map, List.getElem?_range less]
    rfl
  behind k beyond := by
    dsimp only
    rw [readBytes, List.getD_eq_getElem?_getD, List.getElem?_eq_none (by simpa using beyond)]
    rfl
  unchanged := rfl

/-- A byte is what a mask leaves of another one if it has no bit outside the mask and they agree
under it. -/
theorem eq_and_iff (byte other mask : BitVec 8) :
    byte = other &&& mask ↔ byte &&& ~~~mask = 0 ∧ byte &&& mask = other &&& mask := by
  constructor
  · rintro rfl
    constructor
    · rw [BitVec.and_assoc, BitVec.and_not_self]
      exact BitVec.and_zero
    · rw [BitVec.and_assoc, BitVec.and_self]
  · rintro ⟨outside, under⟩
    rw [← under]
    apply BitVec.eq_of_getLsbD_eq
    intro bit inside
    have cleared := congrArg (·.getLsbD bit) outside
    simp only [BitVec.getLsbD_and, BitVec.getLsbD_not, inside, decide_true, Bool.true_and]
      at cleared ⊢
    cases selected : mask.getLsbD bit with
    | true => simp
    | false => simpa [selected] using cleared

/-- The word at the pointer is what the register holds when its bytes have no bit outside the
mask and are, under it, those the write leaves. -/
theorem word_eq_writtenTo_iff (state : State δ) (inside : trans.length + trans.offset ≤ 4) :
    trans.word = (writtenTo r trans state).registers r.vptr ↔
      ∀ k < 4, trans.data k &&& ~~~byteOf k r.mask = 0 ∧
        trans.data k &&& byteOf k r.mask =
          writtenByte trans (state.registers r.vptr) k &&& byteOf k r.mask := by
  constructor
  · intro same k low
    have byte := byteOf_writtenTo (r := r) state inside low
    rw [← same, byteOf_word trans low] at byte
    exact (eq_and_iff _ _ _).mp byte
  · intro bytes
    have same : ∀ k < 4, byteOf k trans.word =
        byteOf k ((writtenTo r trans state).registers r.vptr) := by
      intro k low
      rw [byteOf_word trans low, byteOf_writtenTo state inside low]
      exact (eq_and_iff _ _ _).mpr (bytes k low)
    exact @Clover.eq_of_byteOf_eq 4 _ _ same

/-- For a whole word it is so unless the word has bits outside the mask. -/
theorem whole_word_eq_iff (state : State δ) (aligned : trans.offset = 0)
    (whole : trans.length = 4) :
    trans.word = (writtenTo r trans state).registers r.vptr ↔
      ∀ k < 4, trans.data k &&& ~~~byteOf k r.mask = 0 := by
  rw [word_eq_writtenTo_iff state (by omega)]
  refine forall₂_congr fun k low => and_iff_left ?_
  rw [writtenByte, aligned, whole, if_pos (by omega), Nat.sub_zero]

end Laws

/-- Accesses do what the law says except for the value shown to the handler of a write. That one
is right when the four bytes at the data pointer have no bit outside the mask of the register
and agree under it with the bytes the write leaves: at the offset of the access those of its
data, elsewhere those of the register. -/
theorem register_access_law_iff (bank : List RegMapping) (handler : Handler δ)
    (trans : Transaction) (state : State δ) (r : RegMapping)
    (found : findRegister bank trans.address = some r)
    (mode : r.mode.allowRead = true ∧ r.mode.allowWrite = true)
    (inside : trans.length + trans.offset ≤ 4)
    (known : trans.command = .read ∨ trans.command = .write) :
    AccessLaw bank handler trans state r ↔
      (trans.command = .write → ∀ k < 4, trans.data k &&& ~~~byteOf k r.mask = 0 ∧
        trans.data k &&& byteOf k r.mask =
          writtenByte trans ((handler.before (accessOf r trans) state).registers r.vptr) k &&&
            byteOf k r.mask) := by
  rcases known with read | write
  · have notWrite : trans.command ≠ .write := by
      rw [read]
      decide
    refine iff_of_true ?_ fun write => absurd write notWrite
    have ran := fn_read mode.1 read (handler.before (accessOf r trans) state)
    exact ⟨_, _, ran, tryHandle_of_fn found mode inside (.inl read) ran,
      fun write => absurd write notWrite, fun _ => readLaw _⟩
  · have ran := fn_write mode.2 write (handler.before (accessOf r trans) state)
    have notRead : trans.command ≠ .read := by
      rw [write]
      decide
    have shown : (accessOf r trans).nv = trans.word := if_pos write
    rw [forall_prop_of_true write, ← word_eq_writtenTo_iff _ inside]
    constructor
    · rintro ⟨answer, left, ran', _, law, _⟩
      cases ran.symm.trans ran'
      exact shown.symm.trans (law write).newValue
    · intro same
      refine ⟨_, _, ran, tryHandle_of_fn found mode inside (.inr write) ran, fun _ => ?_,
        fun read => absurd read notRead⟩
      exact ⟨fun k low => byteOf_writtenTo _ inside low,
        fun other different => Function.update_of_ne different .., shown.trans same⟩

/-- A register without a mask. -/
def plainRegister : RegMapping := ⟨0x8, 0, ⟨true, true⟩, 0xffffffff⟩

/-- A handler that only calls `fn`. -/
def plainHandler : Handler Unit := ⟨fun _ state => state, fun _ state => state⟩

/-- A write of so many bytes, with zeros behind them. -/
def writeOf (address : Nat) (bytes : List (BitVec 8)) : Transaction :=
  ⟨.write, address, fun k => bytes.getD k 0, bytes.length⟩

theorem whole_word_law :
    AccessLaw [plainRegister] plainHandler (writeOf 0x8 [0x11, 0x22, 0x33, 0x44])
      ⟨fun _ => 0xaabbccdd, ()⟩ plainRegister := by
  refine (register_access_law_iff [plainRegister] plainHandler
    (writeOf 0x8 [0x11, 0x22, 0x33, 0x44]) ⟨fun _ => 0xaabbccdd, ()⟩ plainRegister (by decide)
    (by decide) (by decide) (by decide)).mpr fun _ => ?_
  decide

/-- The handler of a write of one byte to the second byte of the register is shown that byte,
and the register holds a word. -/
theorem single_byte_not_law :
    ¬AccessLaw [plainRegister] plainHandler (writeOf 0x9 [0x11]) ⟨fun _ => 0xaabbccdd, ()⟩
      plainRegister := by
  rintro ⟨answer, left, ran, _, law, _⟩
  have ran' : fn plainRegister (writeOf 0x9 [0x11]) (⟨fun _ => 0xaabbccdd, ()⟩ : State Unit) = _ :=
    fn_write rfl rfl _
  cases ran'.symm.trans ran
  exact absurd (law rfl).newValue (by decide)

end SymexVP.RegisterMapping
