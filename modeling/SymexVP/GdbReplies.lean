import SymexVP.GdbHandlers

/-!
# Which handlers reply

The exceptions below a handler are caught by it, or they end the simulation. A thread
that was selected by one command is looked up by the ones after it, and not all of these
expect that it may not exist. The memory may refuse an access by an error response, but
not by transferring too few bytes.
-/

namespace SymexVP.Gdb.Handlers

open Exec

variable {machine : Machine} {server : Server machine}

/-! ## Answers -/

/-- The handler returns and has sent one packet. -/
def Replies (outcome : Outcome Fault (Server machine) Event Unit) : Prop :=
  ∃ after reply, outcome = ⟨.ok (), after, [.packet reply]⟩

/-- Nothing is sent. -/
def Quiet {α : Type} (body : ServerM machine α) : Prop := Takes (fun _ log _ => log = []) body

theorem quiet_log {α : Type} {body : ServerM machine α} (quiet : Quiet body)
    (server : Server machine) : (body.run server).log = [] := by
  have chain := quiet server
  generalize (body.run server).log = log, (body.run server).state = after at chain
  induction chain with
  | nothing => rfl
  | append head _ inductionHypothesis => rw [head, inductionHypothesis, List.append_nil]

/-- The computation returns, or throws the exception that is caught. -/
def Caught {α : Type} (caught : Fault) (result : Except Fault α) : Prop :=
  (∃ value, result = .ok value) ∨ result = .error caught

section Caught

variable {α β : Type} {caught fault : Fault} {first : ServerM machine α} {next : α → ServerM machine β}

theorem caught_of_error {result : Except Fault α} (left : result = .error fault) :
    Caught caught result ↔ fault = caught := by
  rw [left]
  constructor
  · rintro (⟨_, ⟨⟩⟩ | ⟨⟨⟩⟩)
    rfl
  · rintro rfl
    exact .inr rfl

theorem caught_bind_of_error (left : (first.run server).result = .error fault) :
    Caught caught ((first >>= next).run server).result ↔ fault = caught :=
  caught_of_error (bind_eq_error.mpr (.inl left))

theorem caught_bind_of_ok {value : α} (returned : (first.run server).result = .ok value) :
    Caught caught ((first >>= next).run server).result ↔
      Caught caught ((next value).run (first.run server).state).result := by
  rw [(bind_of_ok returned next).1]

theorem caught_bind_pure {f : α → β} :
    Caught caught ((first >>= fun value => pure (f value)).run server).result ↔
      Caught caught (first.run server).result := by
  cases result : (first.run server).result with
  | ok value =>
      rw [caught_bind_of_ok result]
      exact iff_of_true (.inl ⟨_, rfl⟩) (.inl ⟨_, rfl⟩)
  | error fault => exact (caught_bind_of_error result).trans (caught_of_error rfl).symm

end Caught

/-- A reply is sent if what it is made of returns, or throws the exception that is caught. -/
theorem replies_replyOrE01 {caught : Fault} {body : ServerM machine (List Byte)}
    (quiet : Quiet body) :
    Replies ((replyOrE01 caught body).run server) ↔ Caught caught (body.run server).result := by
  have silent := quiet_log quiet server
  unfold Replies replyOrE01
  rw [bind_run, tryCatch_run]
  generalize body.run server = outcome at silent ⊢
  obtain ⟨result, after, log⟩ := outcome
  cases silent
  cases result with
  | ok reply => exact iff_of_true ⟨after, reply, rfl⟩ (.inl ⟨reply, rfl⟩)
  | error fault =>
      rw [Outcome.recover_error, caught_of_error rfl]
      by_cases same : fault = caught
      · rw [if_pos same]
        exact iff_of_true ⟨after, str "E01", rfl⟩ same
      · rw [if_neg same]
        exact iff_of_false (fun ⟨_, _, impossible⟩ => nomatch impossible) same

theorem quiet_ofExcept {α : Type} (result : Except Fault α) :
    Quiet (ofExcept result : ServerM machine α) := by
  cases result with
  | ok value => exact Takes.pure value
  | error fault => exact Takes.throw fault

theorem quiet_forThreads {fn : Fin machine.count → ServerM machine (List Byte)}
    (quiet : ∀ hart, Quiet (fn hart)) (threads : List (Fin machine.count)) :
    Quiet (forThreads fn threads) := by
  induction threads with
  | nil => exact Takes.pure _
  | cons thread rest inductionHypothesis =>
      exact Takes.bind (quiet thread) fun _ => Takes.bind inductionHypothesis fun _ => Takes.pure _

theorem quiet_execThread {fn : Fin machine.count → ServerM machine (List Byte)}
    (quiet : ∀ hart, Quiet (fn hart)) : Quiet (execThread fn) :=
  Takes.bind Takes.get fun _ => Takes.bind (quiet_ofExcept _) fun threads =>
    quiet_forThreads quiet threads

/-- What is executed for the selected threads. -/
theorem execThread_run (fn : Fin machine.count → ServerM machine (List Byte)) :
    ((execThread fn).run server).result =
      match getThreads machine server.selected with
      | .ok threads => ((forThreads fn threads).run server).result
      | .error fault => .error fault := by
  unfold execThread
  rw [bind_run, get_run, Outcome.andThen_ok, bind_run]
  cases getThreads machine server.selected with
  | ok threads => rfl
  | error fault => rfl

theorem getThreads_error {id : Int} {fault : Fault} (failed : getThreads machine id = .error fault) :
    fault = .outOfRange := by
  unfold getThreads at failed
  generalize (if id = GDB_THREAD_ANY then 1 else id) = id at failed
  dsimp only at failed
  split_ifs at failed <;> cases failed <;> rfl

theorem getThreads_nonempty {id : Int} {threads : List (Fin machine.count)}
    (found : getThreads machine id = .ok threads) : threads ≠ [] := by
  unfold getThreads at found
  generalize (if id = GDB_THREAD_ANY then 1 else id) = id at found
  dsimp only at found
  split_ifs at found with all small inside
  · cases found
    exact List.ne_nil_of_mem (List.mem_finRange ⟨0, machine.positive⟩)
  · cases found
    exact List.cons_ne_nil _ _

/-! ## Memory -/

section Memory

variable {hart : Fin machine.count} {addr : BitVec 64} {type : MemoryAccessType}

/-- The address behind the MMU of a hart, and the machine after the walk. -/
def translated (machine : Machine) (world : machine.World) (hart : Fin machine.count)
    (addr : BitVec 64) (type : MemoryAccessType) : Except Fault (BitVec 64) × machine.World :=
  match machine.mmu hart with
  | none => (.ok addr, world)
  | some v2p => v2p world addr type

theorem translateAddr_run :
    (translateAddr hart addr type).run server =
      ⟨(translated machine server.world hart addr type).1,
        { server with world := (translated machine server.world hart addr type).2 }, []⟩ := by
  unfold translateAddr translated
  rw [bind_run, get_run, Outcome.andThen_ok]
  cases machine.mmu hart with
  | none => rfl
  | some v2p =>
      dsimp only
      rw [bind_run, modify_run, Outcome.andThen_ok]
      cases (v2p server.world addr type).1 <;> rfl

/-- The accesses of the threads in a row can be answered: what fails, fails by a `runtime_error` or
by an error response, and every other access transfers all its bytes. -/
def Transferable (type : MemoryAccessType) (cmd : TlmCommand) (addr : BitVec 64) (data : List Byte)
    (nbytes : Nat) (accepted : Prop) : machine.World → List (Fin machine.count) → Prop
  | _, [] => True
  | world, hart :: rest =>
      match translated machine world hart addr type with
      | (.error fault, _) => fault = .runtimeError
      | (.ok paddr, world) =>
          accepted ∧
            ((machine.transportDbg world cmd paddr data).isResponseError = true ∨
              (machine.transportDbg world cmd paddr data).nbytes = nbytes ∧
                Transferable type cmd addr data nbytes accepted
                  (machine.transportDbg world cmd paddr data).world rest)

/-- How one access to the memory ends. -/
structure TransfersAs (cmd : TlmCommand) (data : List Byte) (nbytes : Nat) (accepted : Prop)
    (transfer : BitVec 64 → ServerM machine (List Byte)) : Prop where
  refused : ∀ (server : Server machine) paddr, ¬accepted →
    ((transfer paddr).run server).result = .error .assertion
  failed : ∀ (server : Server machine) paddr, accepted →
    (machine.transportDbg server.world cmd paddr data).isResponseError = true →
      ((transfer paddr).run server).result = .error .runtimeError
  short : ∀ (server : Server machine) paddr, accepted →
    (machine.transportDbg server.world cmd paddr data).isResponseError = false →
      (machine.transportDbg server.world cmd paddr data).nbytes ≠ nbytes →
        ((transfer paddr).run server).result = .error .assertion
  whole : ∀ (server : Server machine) paddr, accepted →
    (machine.transportDbg server.world cmd paddr data).isResponseError = false →
      (machine.transportDbg server.world cmd paddr data).nbytes = nbytes →
        ∃ text, (transfer paddr).run server = ⟨.ok text,
          { server with world := (machine.transportDbg server.world cmd paddr data).world }, []⟩

section Transaction

variable {cmd : TlmCommand} {data : List Byte}

theorem doDbgTransaction_of_error
    (failed : (machine.transportDbg server.world cmd addr data).isResponseError = true) :
    ((doDbgTransaction cmd addr data).run server).result = .error .runtimeError := by
  unfold doDbgTransaction
  rw [bind_run, get_run, Outcome.andThen_ok]
  dsimp only
  rw [bind_run, modify_run, Outcome.andThen_ok, if_pos failed]
  rfl

theorem doDbgTransaction_of_ok
    (served : (machine.transportDbg server.world cmd addr data).isResponseError = false) :
    (doDbgTransaction cmd addr data).run server =
      ⟨.ok ((machine.transportDbg server.world cmd addr data).data,
          (machine.transportDbg server.world cmd addr data).nbytes),
        { server with world := (machine.transportDbg server.world cmd addr data).world }, []⟩ := by
  unfold doDbgTransaction
  rw [bind_run, get_run, Outcome.andThen_ok]
  dsimp only
  rw [bind_run, modify_run, Outcome.andThen_ok, if_neg (by simp [served])]
  rfl

end Transaction

theorem readDebugMemory_transfers (nbytes : Nat) :
    TransfersAs .read (List.replicate nbytes 0) nbytes True
      (@readDebugMemory machine · nbytes) where
  refused := fun _ _ impossible => absurd trivial impossible
  failed := fun server paddr _ failed => by
    exact bind_eq_error.mpr (.inl (doDbgTransaction_of_error failed))
  short := fun server paddr _ served short => by
    rw [readDebugMemory, bind_run, doDbgTransaction_of_ok served, Outcome.andThen_ok]
    dsimp only
    rw [bind_run, require_of_not short]
    rfl
  whole := fun server paddr _ served whole => by
    rw [readDebugMemory, bind_run, doDbgTransaction_of_ok served, Outcome.andThen_ok]
    dsimp only
    rw [bind_run, require_of whole]
    exact ⟨_, rfl⟩

theorem writeDebugMemory_transfers (nbytes : Nat) (data : List Byte) :
    TransfersAs .write (decodeData nbytes data) nbytes (data.length = 2 * nbytes)
      (@writeDebugMemory machine · nbytes data) := by
  have run (even : data.length % 2 = 0) (half : data.length / 2 = nbytes) (paddr : BitVec 64) :
      @writeDebugMemory machine paddr nbytes data =
        doDbgTransaction .write paddr (decodeData nbytes data) >>= fun answer =>
          require (answer.2 = nbytes) .assertion >>= fun _ => pure [] := by
    rw [writeDebugMemory, require_of even, require_of half]
    rfl
  refine ⟨?_, ?_, ?_, ?_⟩
  · intro server paddr other
    by_cases even : data.length % 2 = 0
    · rw [writeDebugMemory, require_of even, require_of_not (by omega)]
      rfl
    · rw [writeDebugMemory, require_of_not even]
      rfl
  · intro server paddr accepted failed
    rw [run (by omega) (by omega)]
    exact bind_eq_error.mpr (.inl (doDbgTransaction_of_error failed))
  · intro server paddr accepted served short
    rw [run (by omega) (by omega), bind_run, doDbgTransaction_of_ok served, Outcome.andThen_ok]
    dsimp only
    rw [bind_run, require_of_not short]
    rfl
  · intro server paddr accepted served whole
    rw [run (by omega) (by omega), bind_run, doDbgTransaction_of_ok served, Outcome.andThen_ok]
    dsimp only
    rw [bind_run, require_of whole]
    exact ⟨_, rfl⟩

/-- The accesses of the threads in a row return, or throw a `runtime_error`, if they are transferable,
and else are left in another way. -/
theorem caught_forThreads {cmd : TlmCommand} {data : List Byte} {nbytes : Nat} {accepted : Prop}
    {transfer : BitVec 64 → ServerM machine (List Byte)}
    (transfers : TransfersAs cmd data nbytes accepted transfer)
    (threads : List (Fin machine.count)) (server : Server machine) :
    Caught .runtimeError ((forThreads (fun hart => translateAddr hart addr type >>= transfer)
        threads).run server).result ↔
      Transferable type cmd addr data nbytes accepted server.world threads := by
  induction threads generalizing server with
  | nil => exact iff_of_true (.inl ⟨[], rfl⟩) trivial
  | cons hart rest inductionHypothesis =>
      rw [forThreads, Transferable]
      have walked := @translateAddr_run machine server hart addr type
      generalize translated machine server.world hart addr type = translation at walked ⊢
      obtain ⟨result, world⟩ := translation
      cases result with
      | error fault =>
          have thrown : ((translateAddr hart addr type).run server).result = .error fault := by
            rw [walked]
          exact caught_bind_of_error (bind_eq_error.mpr (.inl thrown))
      | ok paddr =>
          have moved : ((translateAddr hart addr type).run server).result = .ok paddr := by
            rw [walked]
          obtain ⟨result, reached⟩ := bind_of_ok moved transfer
          rw [walked] at result reached
          dsimp only at result reached ⊢
          by_cases accepts : accepted
          · rw [and_iff_right accepts]
            cases error : (machine.transportDbg world cmd paddr data).isResponseError with
            | true =>
                have failed := transfers.failed { server with world := world } paddr accepts error
                rw [caught_bind_of_error (result.trans failed)]
                exact iff_of_true rfl (.inl rfl)
            | false =>
                by_cases whole : (machine.transportDbg world cmd paddr data).nbytes = nbytes
                · obtain ⟨text, transferred⟩ :=
                    transfers.whole { server with world := world } paddr accepts error whole
                  rw [transferred] at result reached
                  rw [caught_bind_of_ok result, reached, caught_bind_pure, inductionHypothesis]
                  simp [whole]
                · have short := transfers.short { server with world := world } paddr accepts error whole
                  rw [caught_bind_of_error (result.trans short)]
                  simp [whole]
          · have refused := transfers.refused { server with world := world } paddr accepts
            rw [caught_bind_of_error (result.trans refused)]
            simp [accepts]

end Memory

theorem caught_execThread {caught : Fault} {fn : Fin machine.count → ServerM machine (List Byte)} :
    Caught caught ((execThread fn).run server).result ↔
      match getThreads machine server.selected with
      | .ok threads => Caught caught ((forThreads fn threads).run server).result
      | .error fault => fault = caught := by
  rw [execThread_run]
  cases getThreads machine server.selected with
  | ok threads => rfl
  | error fault => exact caught_of_error rfl

theorem quiet_translateAddr (hart : Fin machine.count) (addr : BitVec 64)
    (type : MemoryAccessType) : Quiet (translateAddr hart addr type) := by
  unfold translateAddr
  refine Takes.bind Takes.get fun server => ?_
  split
  · exact Takes.pure _
  · exact Takes.bind (Takes.modify fun _ => rfl) fun _ => quiet_ofExcept _

theorem quiet_doDbgTransaction (cmd : TlmCommand) (addr : BitVec 64) (data : List Byte) :
    Quiet (doDbgTransaction cmd addr data : ServerM machine _) := by
  refine Takes.bind Takes.get fun server => Takes.bind (Takes.modify fun _ => rfl) fun _ => ?_
  exact Takes.ite (Takes.throw _) (Takes.pure _)

/-- The threads of an access exist, and all of them can make it. -/
def Accesses (server : Server machine) (type : MemoryAccessType) (cmd : TlmCommand)
    (addr : BitVec 64) (data : List Byte) (nbytes : Nat) (accepted : Prop) : Prop :=
  nbytes ≤ UINT_MAX ∧ ∃ threads, getThreads machine server.selected = .ok threads ∧
    Transferable type cmd addr data nbytes accepted server.world threads

theorem accesses_iff {type : MemoryAccessType} {cmd : TlmCommand} {addr : BitVec 64}
    {data : List Byte} {nbytes : Nat} {accepted : Prop}
    {transfer : BitVec 64 → ServerM machine (List Byte)} (small : nbytes ≤ UINT_MAX)
    (transfers : TransfersAs cmd data nbytes accepted transfer) :
    Caught .runtimeError ((execThread fun hart => translateAddr hart addr type >>= transfer).run
        server).result ↔
      Accesses server type cmd addr data nbytes accepted := by
  rw [caught_execThread, Accesses, and_iff_right small]
  cases found : getThreads machine server.selected with
  | error fault =>
      cases getThreads_error found
      exact iff_of_false nofun (fun ⟨_, impossible, _⟩ => nomatch impossible)
  | ok threads =>
      dsimp only
      rw [caught_forThreads transfers]
      simp

theorem replies_readMemory (addr length : BitVec 64) :
    Replies ((readMemory addr length).run server) ↔
      Accesses server .load .read addr (List.replicate length.toNat 0) length.toNat True := by
  by_cases small : length.toNat ≤ UINT_MAX
  · rw [readMemory, require_of small]
    change Replies ((replyOrE01 .runtimeError (execThread fun hart =>
      translateAddr hart addr .load >>= fun addr => readDebugMemory addr length.toNat)).run server) ↔ _
    rw [replies_replyOrE01 (quiet_execThread fun hart => ?_)]
    · exact accesses_iff small (readDebugMemory_transfers _)
    · refine Takes.bind (quiet_translateAddr _ _ _) fun _ => ?_
      refine Takes.bind (quiet_doDbgTransaction _ _ _) fun _ => ?_
      exact Takes.bind (Takes.require _ _) fun _ => Takes.pure _
  · rw [readMemory, require_of_not small]
    exact iff_of_false (fun ⟨_, _, impossible⟩ => nomatch impossible) fun accesses => small accesses.1

theorem replies_writeMemory (addr length : BitVec 64) (data : List Byte) :
    Replies ((writeMemory addr length data).run server) ↔
      Accesses server .store .write addr (decodeData length.toNat data) length.toNat
        (data.length = 2 * length.toNat) := by
  by_cases small : length.toNat ≤ UINT_MAX
  · rw [writeMemory, require_of small]
    change Replies ((replyOrE01 .runtimeError (execThread (fun hart =>
      translateAddr hart addr .store >>= fun addr => writeDebugMemory addr length.toNat data) >>=
        fun _ => pure (str "OK"))).run server) ↔ _
    rw [replies_replyOrE01 (Takes.bind (quiet_execThread fun hart => ?_) fun _ => Takes.pure _)]
    · rw [caught_bind_pure]
      exact accesses_iff small (writeDebugMemory_transfers _ _)
    · refine Takes.bind (quiet_translateAddr _ _ _) fun _ => ?_
      refine Takes.bind (Takes.require _ _) fun _ => Takes.bind (Takes.require _ _) fun _ => ?_
      refine Takes.bind (quiet_doDbgTransaction _ _ _) fun _ => ?_
      exact Takes.bind (Takes.require _ _) fun _ => Takes.pure _
  · rw [writeMemory, require_of_not small]
    exact iff_of_false (fun ⟨_, _, impossible⟩ => nomatch impossible) fun accesses => small accesses.1

/-! ## Registers -/

theorem formatRegister_eq (value : BitVec 64) :
    ∃ text, (formatRegister value : ServerM machine (List Byte)) = pure text := by
  unfold formatRegister
  cases arch : machine.arch with
  | RV32 | RV64 => exact ⟨_, rfl⟩
  | RV128 => exact absurd arch machine.supported

theorem formatRegisters_eq (values : List (BitVec 64)) :
    ∃ text, (formatRegisters values : ServerM machine (List Byte)) = pure text := by
  induction values with
  | nil => exact ⟨[], rfl⟩
  | cons value rest inductionHypothesis =>
      obtain ⟨first, formatted⟩ := @formatRegister_eq machine value
      obtain ⟨others, formatted'⟩ := inductionHypothesis
      rw [formatRegisters, formatted, formatted']
      exact ⟨first ++ others, rfl⟩

/-- What returns for each thread, and does nothing else, returns for all. -/
theorem forThreads_run {fn : Fin machine.count → ServerM machine (List Byte)}
    (returns : ∀ hart, ∃ text, (fn hart).run server = ⟨.ok text, server, []⟩)
    (threads : List (Fin machine.count)) :
    ∃ text, (forThreads fn threads).run server = ⟨.ok text, server, []⟩ := by
  induction threads with
  | nil => exact ⟨[], rfl⟩
  | cons thread rest inductionHypothesis =>
      obtain ⟨first, returned⟩ := returns thread
      obtain ⟨others, returned'⟩ := inductionHypothesis
      rw [forThreads, bind_run, returned, Outcome.andThen_ok, bind_run, returned']
      exact ⟨first ++ others, rfl⟩

theorem printRegisters_run (hart : Fin machine.count) :
    ∃ text, (printRegisters hart).run server = ⟨.ok text, server, []⟩ := by
  obtain ⟨text, formatted⟩ :=
    @formatRegisters_eq machine (machine.getRegisters server.world hart).toList
  rw [printRegisters, bind_run, get_run, Outcome.andThen_ok, formatted]
  exact ⟨text, rfl⟩

theorem replies_getRegisters :
    Replies (getRegisters.run server) ↔
      ∃ threads, getThreads machine server.selected = .ok threads := by
  unfold getRegisters execThread Replies
  rw [bind_run, bind_run, get_run, Outcome.andThen_ok, bind_run]
  cases getThreads machine server.selected with
  | error fault =>
      exact iff_of_false (fun ⟨_, _, impossible⟩ => nomatch impossible)
        (fun ⟨_, impossible⟩ => nomatch impossible)
  | ok threads =>
      obtain ⟨text, printed⟩ := @forThreads_run machine server _ printRegisters_run threads
      refine iff_of_true ⟨server, text, ?_⟩ ⟨threads, rfl⟩
      simp [ofExcept, printed, sendPacket]

/-- Reading a register throws nothing but what is caught: neither for a thread that does not exist,
nor for a register that does not. -/
theorem replies_readRegister (reg : BitVec 32) : Replies ((readRegister reg).run server) := by
  have value (hart : Fin machine.count) : Meets (fun _ => True) (fun _ => True) (· = .outOfRange)
      (readValue hart reg) := by
    refine Meets.bind Meets.get fun server _ => Meets.ite (fun _ => Meets.pure trivial) fun _ => ?_
    refine Meets.bind Meets.get fun server _ => ?_
    split
    · exact Meets.pure trivial
    · exact Meets.throw rfl
  have printed (hart : Fin machine.count) : Meets (fun _ => True) (fun _ => True) (· = .outOfRange)
      (readValue hart reg >>= formatRegister) := by
    refine Meets.bind (value hart) fun regval _ => ?_
    obtain ⟨text, formatted⟩ := @formatRegister_eq machine regval
    rw [formatted]
    exact Meets.pure trivial
  have threads (list : List (Fin machine.count)) :
      Meets (fun _ => True) (fun _ => True) (· = .outOfRange)
        (forThreads (fun hart => readValue hart reg >>= formatRegister) list) := by
    induction list with
    | nil => exact Meets.pure trivial
    | cons hart rest inductionHypothesis =>
        refine Meets.bind (printed hart) fun _ _ => ?_
        exact Meets.bind inductionHypothesis fun _ _ => Meets.pure trivial
  rw [readRegister, replies_replyOrE01, caught_execThread]
  · cases found : getThreads machine server.selected with
    | error fault => exact getThreads_error found
    | ok list =>
        have thrown := (threads list server trivial).2.2
        dsimp only
        cases result : ((forThreads (fun hart => readValue hart reg >>= formatRegister) list).run
            server).result with
        | ok reply => exact .inl ⟨reply, rfl⟩
        | error fault => exact .inr (congrArg Except.error (thrown fault result))
  · refine quiet_execThread fun hart => Takes.bind ?_ fun regval => ?_
    · refine Takes.bind Takes.get fun server => Takes.ite (Takes.pure _) ?_
      refine Takes.bind Takes.get fun server => ?_
      split
      · exact Takes.pure _
      · exact Takes.throw _
    · obtain ⟨text, formatted⟩ := @formatRegister_eq machine regval
      rw [formatted]
      exact Takes.pure _

end SymexVP.Gdb.Handlers
