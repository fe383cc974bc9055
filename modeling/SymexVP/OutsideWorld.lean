import SymexVP.Iss
import Mathlib.Logic.Relation

/-!
# What reaches the world around a hart

The world moves on when the hart waits or synchronises, when it reads the time, and when
an access reaches one of the world's devices; each time its devices may call into the hart.
Software writes some of the pending interrupts. Nothing else changes the world or the
pending interrupts, so an invariant of both that survives these steps holds in every
reachable state.
-/

namespace SymexVP

open Exec Board MemoryInterface

/-- An operation of the world with the calls into the hart that it makes. -/
inductive World.Does (world : World) : world.State → List Signal → world.State → Prop
  | sync (state : world.State) (time : Nat) :
      Does world state (world.sync state time).2 (world.sync state time).1
  | waitWfi {state after : world.State} {signals : List Signal}
      (woken : world.waitWfi state = some (after, signals)) : Does world state signals after
  | waitUnlocked {state after : world.State} {signals : List Signal}
      (woken : world.waitUnlocked state = some (after, signals)) : Does world state signals after
  | updateAndGetMtime (state : world.State) :
      Does world state [] (world.updateAndGetMtime state).2
  | notifyUart (state : world.State) (delay : Option Nat) (triggers : Bool) :
      Does world state [] (world.notifyUart state delay triggers)
  | transport {device : Nat} {state after : world.State} {command : Command}
      {address : BitVec 64} {bytes : List (BitVec 8)} {delay : Nat}
      {answer : Response × List (BitVec 8) × Nat} {signals : List Signal}
      (answered : world.transport device state command address bytes delay =
        some (answer, after, signals)) : Does world state signals after

variable {P : Platform}

/-- What the hart shares with the world. -/
structure Surface (P : Platform) where
  world : P.world.State
  mip : BitVec 32

/-- One step of the world, or one write of the pending interrupts by software. -/
inductive Surface.Step : Surface P → Surface P → Prop
  | does {before : Surface P} {signals : List Signal} {world : P.world.State}
      (does : P.world.Does before.world signals world) :
      Step before ⟨world, signals.foldl Signal.apply before.mip⟩
  | written (before : Surface P) (mask value : BitVec 32)
      (software : mask &&& ~~~CsrMask.MIP_WRITE = 0) :
      Step before ⟨before.world, BitFields.merge mask before.mip value⟩

def Board.surface (board : Board P) : Surface P := ⟨board.world, board.mip⟩

def State.surface (state : State P) : Surface P := state.board.surface

/-- Any number of such steps. -/
def Evolves {σ : Type} (surface : σ → Surface P) (before after : σ) : Prop :=
  Relation.ReflTransGen Surface.Step (surface before) (surface after)

namespace Evolves

variable {σ : Type} {surface : σ → Surface P} {before after : σ}

instance (surface : σ → Surface P) : Std.Refl (Evolves surface) := ⟨fun _ => .refl⟩

instance (surface : σ → Surface P) : IsTrans σ (Evolves surface) :=
  ⟨fun _ _ _ earlier later => Relation.ReflTransGen.trans earlier later⟩

theorem of_same (same : surface after = surface before) : Evolves surface before after := by
  rw [Evolves, same]

/-- What every step keeps is kept. -/
theorem keeps {property : Surface P → Prop}
    (kept : ∀ {before after : Surface P}, before.Step after → property before → property after)
    (evolves : Evolves surface before after) (holds : property (surface before)) :
    property (surface after) := by
  unfold Evolves at evolves
  generalize surface after = last at evolves
  induction evolves with
  | refl => exact holds
  | tail _ step inductionHypothesis => exact kept step inductionHypothesis

end Evolves

/-! ## The board -/

abbrev BoardEvolves {α : Type} (body : MemM P α) : Prop := Steps (Evolves Board.surface) body

/-- A change behind the surface. -/
theorem evolves_inside {change : Board P → Board P}
    (same : ∀ board, (change board).surface = board.surface) :
    BoardEvolves (Exec.modify change : MemM P Unit) :=
  Steps.modify fun board => .of_same (same board)

theorem Board.evolves_signalled {board : Board P} {world : P.world.State} {signals : List Signal}
    (does : P.world.Does board.world signals world) :
    Evolves Board.surface board (board.signalled world signals) :=
  .single (@Surface.Step.does P board.surface signals world does)

namespace Board

theorem evolves_waitFor {wait : P.world.State → Option (P.world.State × List Signal)}
    (does : ∀ {before after : P.world.State} {signals : List Signal},
      wait before = some (after, signals) → P.world.Does before signals after) :
    BoardEvolves (waitFor wait : MemM P Unit) := by
  intro board
  rw [waitFor, bind_run, get_run, Outcome.andThen_ok]
  dsimp only
  split
  · next world signals woken => exact evolves_signalled (does woken)
  · exact .refl

theorem evolves_synchronise : BoardEvolves (synchronise : MemM P Unit) :=
  fun board => evolves_signalled (.sync board.world board.localTime)

theorem evolves_waitForAccessRights (hart : BitVec 32) :
    BoardEvolves (waitForAccessRights hart : MemM P Unit) := by
  refine Steps.bind Steps.get fun board => Steps.when fun _ => ?_
  exact Steps.bind (evolves_waitFor .waitUnlocked) fun _ => evolves_inside fun _ => rfl

theorem evolves_takeLock (hart : BitVec 32) : BoardEvolves (takeLock hart : MemM P Unit) :=
  Steps.bind (evolves_waitForAccessRights hart) fun _ => evolves_inside fun _ => rfl

theorem evolves_unlock (hart : BitVec 32) : BoardEvolves (unlock hart : MemM P Unit) := by
  refine evolves_inside fun board => ?_
  split <;> rfl

theorem evolves_getValue {width : Nat} (use : Use) (value : ConcolicValue P.clover.terms width) :
    BoardEvolves (getValue use value : MemM P (BitVec width)) :=
  Steps.bind (Steps.emit _) fun _ => Steps.pure _

end Board

/-! ## The memory interface -/

section Interface

variable {isock : Socket P} {core : Core}
  (behaves : ∀ trans delay, BoardEvolves (isock trans delay))

include behaves

theorem evolves_doTransaction (trans : Payload P.clover.terms) :
    BoardEvolves (doTransaction isock trans) := by
  refine Steps.bind Steps.get fun before => Steps.bind (behaves trans _) fun ⟨answer, delay⟩ => ?_
  refine Steps.bind Steps.get fun after => Steps.bind (Steps.require _ _) fun _ => ?_
  refine Steps.bind (evolves_inside fun _ => rfl) fun _ => ?_
  split
  · exact Steps.pure _
  · exact Steps.throw _
  · exact Steps.throw _

theorem evolves_writeTransaction (address : BitVec 64) (data : Concolic P.clover.terms)
    (numBytes : Nat) : BoardEvolves (writeTransaction isock address data numBytes) :=
  Steps.bind (evolves_doTransaction behaves _) fun _ => Steps.pure _

theorem evolves_readTransaction (address : BitVec 64) (numBytes : Nat) :
    BoardEvolves (readTransaction isock address numBytes) := by
  refine Steps.bind (evolves_doTransaction behaves _) fun trans => ?_
  split <;> exact Steps.pure _

theorem evolves_concreteLoadData (use : Use) (address : BitVec 64) (numBytes : Nat) :
    BoardEvolves (concreteLoadData isock core use address numBytes) := by
  refine Steps.bind (evolves_waitForAccessRights _) fun _ => ?_
  refine Steps.bind (evolves_doTransaction behaves _) fun trans => ?_
  exact Steps.bind (Steps.emit _) fun _ => Steps.pure _

theorem evolves_mmuStorePte32 (address value : BitVec 64) :
    BoardEvolves (mmuStorePte32 isock core address value) := by
  refine Steps.bind (evolves_waitForAccessRights _) fun _ => ?_
  exact Steps.bind (evolves_doTransaction behaves _) fun _ => evolves_unlock _

theorem evolves_walkLevels (vm : Mmu.VmInfo) (vaddr : BitVec 64) (type : MemoryAccessType)
    (mode : PrivilegeLevel) (level : Nat) :
    ∀ base, BoardEvolves (Mmu.walkLevels isock core vm vaddr type mode level base) := by
  induction level with
  | zero => exact fun _ => Steps.pure _
  | succ level inductionHypothesis =>
      intro base
      refine Steps.bind (Steps.require _ _) fun _ => ?_
      refine Steps.bind (Steps.bind (evolves_concreteLoadData behaves _ _ _) fun _ =>
        Steps.pure _) fun pte => ?_
      refine Steps.ite (Steps.pure _) (Steps.ite (inductionHypothesis _) ?_)
      refine Steps.ite (Steps.pure _) (Steps.ite (Steps.pure _) (Steps.ite (Steps.pure _) ?_))
      refine Steps.bind (Steps.when fun _ => evolves_mmuStorePte32 behaves _ _) fun _ => ?_
      exact Steps.pure _

theorem evolves_walk (vaddr : BitVec 64) (type : MemoryAccessType) (mode : PrivilegeLevel) :
    BoardEvolves (Mmu.walk isock core vaddr type mode) := by
  have decoded : BoardEvolves (Mmu.decodeVmInfo core mode : MemM P Mmu.VmInfo) :=
    Steps.bind (Steps.require _ _) fun _ => Steps.ite (Steps.pure _) (Steps.throw _)
  refine Steps.bind decoded fun vm => ?_
  refine Steps.bind (evolves_walkLevels behaves _ _ _ _ _ _) fun found => ?_
  split
  · exact Steps.pure _
  · split <;> exact Steps.throw _

theorem evolves_v2p (vaddr : BitVec 64) (type : MemoryAccessType) :
    BoardEvolves (v2p isock core vaddr type) := by
  refine Steps.ite (Steps.ite (Steps.pure _) ?_) (Steps.pure _)
  refine Steps.bind (evolves_inside fun _ => rfl) fun _ => ?_
  refine Steps.bind (Steps.require _ _) fun _ => Steps.bind Steps.get fun board => ?_
  refine Steps.ite (Steps.pure _) ?_
  refine Steps.bind (evolves_walk behaves _ _ _) fun paddr => ?_
  exact Steps.bind (evolves_inside fun _ => rfl) fun _ => Steps.pure _

theorem evolves_loadInstr (pc : BitVec 32) : BoardEvolves (loadInstr isock core pc) := by
  refine Steps.bind (evolves_v2p behaves _ _) fun paddr => ?_
  exact Steps.bind (evolves_concreteLoadData behaves _ _ _) fun _ => Steps.pure _

theorem evolves_symbolicStoreData (addr : ConcolicValue P.clover.terms 32)
    (data : Concolic P.clover.terms) (numBytes : Nat) :
    BoardEvolves (symbolicStoreData isock core addr data numBytes) := by
  refine Steps.bind (evolves_waitForAccessRights _) fun _ => ?_
  refine Steps.bind (evolves_getValue _ _) fun caddr => ?_
  refine Steps.bind (evolves_v2p behaves _ _) fun paddr => ?_
  exact Steps.bind (evolves_writeTransaction behaves _ _ _) fun _ => evolves_unlock _

theorem evolves_symbolicLoadData (addr : ConcolicValue P.clover.terms 32) (numBytes : Nat) :
    BoardEvolves (symbolicLoadData isock core addr numBytes) := by
  refine Steps.bind (evolves_waitForAccessRights _) fun _ => ?_
  refine Steps.bind (evolves_getValue _ _) fun caddr => ?_
  exact Steps.bind (evolves_v2p behaves _ _) fun paddr => evolves_readTransaction behaves _ _

theorem evolves_loadSigned (addr : ConcolicValue P.clover.terms 32) (numBytes : Nat) :
    BoardEvolves (loadSigned isock core addr numBytes) :=
  Steps.bind (evolves_symbolicLoadData behaves _ _) fun _ => Steps.pure _

theorem evolves_loadUnsigned (addr : ConcolicValue P.clover.terms 32) (numBytes : Nat) :
    BoardEvolves (loadUnsigned isock core addr numBytes) :=
  Steps.bind (evolves_symbolicLoadData behaves _ _) fun _ =>
    Steps.ite (Steps.pure _) (Steps.pure _)

theorem evolves_atomicLoadWord (addr : ConcolicValue P.clover.terms 32) :
    BoardEvolves (atomicLoadWord isock core addr) :=
  Steps.bind (evolves_takeLock _) fun _ => evolves_loadSigned behaves _ _

theorem evolves_atomicStoreWord (addr value : ConcolicValue P.clover.terms 32) :
    BoardEvolves (atomicStoreWord isock core addr value) := by
  refine Steps.bind Steps.get fun board => Steps.bind (Steps.require _ _) fun _ => ?_
  exact evolves_symbolicStoreData behaves _ _ _

theorem evolves_atomicLoadReservedWord (object : Nat) (addr : ConcolicValue P.clover.terms 32) :
    BoardEvolves (atomicLoadReservedWord isock core object addr) := by
  refine Steps.bind (evolves_takeLock _) fun _ => ?_
  exact Steps.bind (evolves_inside fun _ => rfl) fun _ => evolves_loadSigned behaves _ _

theorem evolves_atomicStoreConditionalWord (object : Nat)
    (addr value : ConcolicValue P.clover.terms 32) :
    BoardEvolves (atomicStoreConditionalWord isock core object addr value) := by
  refine Steps.bind Steps.get fun board => Steps.ite (Steps.ite ?_ ?_) (Steps.pure _)
  · exact Steps.bind (evolves_symbolicStoreData behaves _ _ _) fun _ => Steps.pure _
  · exact Steps.bind (evolves_unlock _) fun _ => Steps.pure _

theorem evolves_makeSymbolic (input : P.clover.terms.Assignment) (addr size : BitVec 32) :
    BoardEvolves (makeSymbolic isock core input addr size) :=
  Steps.bind (Steps.emit _) fun _ => evolves_symbolicStoreData behaves _ _ _

end Interface

/-! ## Devices -/

theorem evolves_symbolicMemory (trans : Payload P.clover.terms) (delay : Nat) :
    BoardEvolves (SymbolicMemory.transport trans delay : MemM P _) := by
  refine Steps.bind Steps.get fun board => Steps.ite (Steps.pure _) ?_
  cases trans.command with
  | read => exact Steps.pure _
  | write => exact Steps.bind (evolves_inside fun _ => rfl) fun _ => Steps.pure _

theorem evolves_symbolicCtrl {makeSymbolic : BitVec 32 → BitVec 32 → MemM P Unit}
    (callback : ∀ addr size, BoardEvolves (makeSymbolic addr size))
    (trans : Payload P.clover.terms) (delay : Nat) :
    BoardEvolves (SymbolicCtrl.transport makeSymbolic trans delay) := by
  have written : BoardEvolves (SymbolicCtrl.writeCtrl : MemM P Unit) := by
    refine Steps.bind Steps.get fun board => Steps.bind (Steps.when fun _ => ?_) fun _ => ?_
    · exact Steps.bind (Steps.emit _) fun _ => evolves_inside fun _ => rfl
    · exact Steps.bind (Steps.when fun _ => evolves_inside fun _ => rfl) fun _ =>
        evolves_inside fun _ => rfl
  unfold SymbolicCtrl.transport
  split
  · exact Steps.throw _
  · next register routed =>
      refine Steps.bind (Steps.require _ _) fun _ => ?_
      cases trans.command with
      | read => exact Steps.bind Steps.get fun _ => Steps.pure _
      | write =>
          have called : BoardEvolves (SymbolicCtrl.postWrite makeSymbolic register) := by
            cases register with
            | addr => exact Steps.pure _
            | size => exact Steps.bind Steps.get fun board => callback _ _
            | ctrl => exact written
          refine Steps.bind (evolves_inside fun _ => rfl) fun _ => ?_
          exact Steps.bind called fun _ => Steps.pure _

theorem evolves_symbolicSensor (input : P.clover.terms.Assignment)
    (trans : Payload P.clover.terms) (delay : Nat) :
    BoardEvolves (SymbolicSensor.transport input trans delay) := by
  refine Steps.bind Steps.get fun board => Steps.ite (Steps.pure _) ?_
  cases trans.command with
  | read =>
      dsimp only
      split
      · exact Steps.pure _
      · exact Steps.bind (Steps.emit _) fun _ => Steps.bind (evolves_inside fun _ => rfl) fun _ =>
          Steps.pure _
  | write =>
      dsimp only
      split
      · exact Steps.pure _
      · exact Steps.bind (evolves_inside fun _ => rfl) fun _ => Steps.pure _

theorem evolves_symbolicUart (trans : Payload P.clover.terms) (delay : Nat) :
    BoardEvolves (SymbolicUart.transport trans delay : MemM P _) := by
  have notified : ∀ afterWrite register notify,
      BoardEvolves (SymbolicUart.notify afterWrite register notify : MemM P Unit) :=
    fun _ _ _ board => .single (@Surface.Step.does P board.surface [] _ (.notifyUart board.world _ _))
  unfold SymbolicUart.transport
  dsimp only
  split
  · exact Steps.throw _
  · refine Steps.bind (Steps.require _ _) fun _ => Steps.bind Steps.get fun board => ?_
    cases trans.command with
    | read =>
        refine Steps.bind (evolves_inside fun _ => rfl) fun _ => ?_
        exact Steps.bind (notified _ _ _) fun _ => Steps.pure _
    | write =>
        refine Steps.bind (evolves_inside fun _ => rfl) fun _ => ?_
        exact Steps.bind (notified _ _ _) fun _ => Steps.pure _

theorem evolves_externalTransport (device : Nat) (trans : Payload P.clover.terms) (delay : Nat) :
    BoardEvolves (externalTransport device trans delay : MemM P _) := by
  intro board
  rw [externalTransport, bind_run, get_run, Outcome.andThen_ok]
  dsimp only
  split
  · exact .refl
  · next response data after world signals answered =>
      exact evolves_signalled (.transport answered)

theorem evolves_bus (core : Core) (input : P.clover.terms.Assignment)
    (trans : Payload P.clover.terms) (delay : Nat) :
    BoardEvolves (bus core input trans delay : MemM P _) := by
  show BoardEvolves (SimpleBus.nested core input P.depth trans delay)
  generalize P.depth = depth
  induction depth generalizing trans delay with
  | zero => exact Steps.throw _
  | succ depth inductionHypothesis =>
      show BoardEvolves (SimpleBus.transport _ input trans delay)
      unfold SimpleBus.transport
      split
      · exact Steps.pure _
      · next port decoded =>
          refine Steps.bind (Steps.when fun _ => Steps.emit _) fun _ => ?_
          cases port.target with
          | memory => exact evolves_symbolicMemory _ delay
          | ctrl =>
              exact evolves_symbolicCtrl (fun _ _ =>
                evolves_makeSymbolic inductionHypothesis input _ _) _ delay
          | sensor => exact evolves_symbolicSensor input _ delay
          | uart => exact evolves_symbolicUart _ delay
          | external device => exact evolves_externalTransport device _ delay

end SymexVP
