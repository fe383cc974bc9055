import SymexVP.GdbVcont

/-!
# The list of threads

`threadInfo` lists the harts that have not terminated, and the debugger selects a hart by
an item of that list. The items are hexadecimal where the debugger reads them and where
`gdb_hexid` does.

`threadInfo` prints a comma behind every item but that of the last hart of the machine,
whether or not another item follows, and it prints in decimal. What it prints is the id
of the hart, while `get_threads` counts the harts.
-/

namespace SymexVP.Gdb.Handlers

open Exec

variable {machine : Machine} {count : Nat}

/-! ## The text and its format -/

/-- The loop of `threadInfo` over harts with these ids and statuses. -/
def threadListOf (ids : Fin count → BitVec 64) (status : Fin count → CoreExecStatus) : List Byte :=
  (List.finRange count).flatMap fun hart =>
    if status hart = .terminated then []
    else printInt ((ids hart + 1).toNat : Int) ++ if hart.val + 1 < count then str "," else []

/-- The harts that have not terminated, in order. -/
def alive (status : Fin count → CoreExecStatus) : List (Fin count) :=
  (List.finRange count).filter fun hart => status hart ≠ .terminated

/-- The thread of a hart as the protocol writes it. -/
def idText (id : BitVec 64) : List Byte := (Nat.toDigits 16 (id.toNat + 1)).map byte

/-- The format of the list, with items that `get_threads` takes back to their harts. -/
structure WellFormed (machine : Machine) (ids : Fin machine.count → BitVec 64)
    (status : Fin machine.count → CoreExecStatus) (reply : List Byte) : Prop where
  format : reply =
    byte 'm' :: [byte ','].intercalate ((alive status).map fun hart => idText (ids hart))
  selects : ∀ hart ∈ alive status, ∃ id,
    Stage2.gdbHexid.run (idText (ids hart)) = .ok (some (id, [])) ∧
      getThreads machine id = .ok [hart]

theorem threadInfo_run (server : Server machine) :
    threadInfo.run server = ⟨.ok (), server,
      [.packet (str "m" ++ threadListOf (fun hart => (machine.hartId hart).value)
        fun hart => (server.harts hart).status)]⟩ := rfl

theorem mem_alive {status : Fin count → CoreExecStatus} {hart : Fin count} :
    hart ∈ alive status ↔ status hart ≠ .terminated := by
  rw [alive, List.mem_filter, decide_eq_true_iff]
  exact and_iff_right (List.mem_finRange hart)

/-! ## Separators -/

theorem intercalate_concat {α : Type} (sep : α) (items : List (List α)) (last : List α) :
    [sep].intercalate (items ++ [last]) = items.flatMap (· ++ [sep]) ++ last := by
  induction items with
  | nil => exact List.intercalate_singleton
  | cons first items inductionHypothesis =>
      rw [List.cons_append, List.intercalate_cons_of_ne_nil (by simp), inductionHypothesis,
        List.flatMap_cons, List.append_assoc, List.append_assoc, List.append_assoc]

/-- Lists of items without the separator are told apart by what they are joined to. -/
theorem intercalate_inj {α : Type} [DecidableEq α] {sep : α} {items items' : List (List α)}
    (plain : ∀ item ∈ items, sep ∉ item) (plain' : ∀ item ∈ items', sep ∉ item)
    (some_ : items ≠ []) (some_' : items' ≠ []) :
    [sep].intercalate items = [sep].intercalate items' ↔ items = items' := by
  constructor
  · intro same
    rw [← List.splitOn_intercalate sep plain some_, same,
      List.splitOn_intercalate sep plain' some_']
  · rintro rfl
    rfl

theorem flatMap_alive {α : Type} (harts : List (Fin count)) (status : Fin count → CoreExecStatus)
    (text : Fin count → List α) :
    (harts.flatMap fun hart => if status hart = .terminated then [] else text hart) =
      (harts.filter fun hart => status hart ≠ .terminated).flatMap text := by
  induction harts with
  | nil => rfl
  | cons hart harts inductionHypothesis =>
      rw [List.flatMap_cons, inductionHypothesis]
      by_cases gone : status hart = .terminated
      · rw [if_pos gone, List.filter_cons_of_neg (by simpa using gone), List.nil_append]
      · rw [if_neg gone, List.filter_cons_of_pos (by simpa using gone), List.flatMap_cons]

/-- What `threadInfo` prints for a hart. -/
def printedId (id : BitVec 64) : List Byte := printInt ((id + 1).toNat : Int)

/-- The list joins the ids of the harts, and one empty item more if the last hart of the machine
has terminated. -/
theorem threadListOf_eq (positive : 0 < count) (ids : Fin count → BitVec 64)
    (status : Fin count → CoreExecStatus) :
    threadListOf ids status = [byte ','].intercalate
      (((alive status).map fun hart => printedId (ids hart)) ++
        if status ⟨count - 1, by omega⟩ = .terminated then [[]] else []) := by
  obtain ⟨n, rfl⟩ := Nat.exists_eq_add_one_of_ne_zero positive.ne'
  have last : (⟨n + 1 - 1, by omega⟩ : Fin (n + 1)) = Fin.last n := rfl
  rw [last, threadListOf, alive, flatMap_alive, List.finRange_succ_last, List.filter_append]
  have inner (hart : Fin (n + 1))
      (member : hart ∈ ((List.finRange n).map Fin.castSucc).filter
        fun hart => decide (status hart ≠ .terminated)) :
      (printInt ((ids hart + 1).toNat : Int) ++ if hart.val + 1 < n + 1 then str "," else []) =
        printedId (ids hart) ++ [byte ','] := by
    obtain ⟨index, -, rfl⟩ := List.mem_map.mp (List.mem_filter.mp member).1
    rw [if_pos (by simp)]
    rfl
  generalize ((List.finRange n).map Fin.castSucc).filter
    (fun hart => decide (status hart ≠ .terminated)) = others at inner
  rw [List.flatMap_append, List.flatMap_congr inner]
  by_cases gone : status (Fin.last n) = .terminated
  · rw [if_pos gone, List.filter_cons_of_neg (by simpa using gone), List.filter_nil,
      List.append_nil, intercalate_concat, List.flatMap_map, List.flatMap_nil]
  · rw [if_neg gone, List.filter_cons_of_pos (by simpa using gone), List.filter_nil,
      List.append_nil, List.map_append, List.map_singleton, intercalate_concat, List.flatMap_map,
      List.flatMap_singleton, if_neg (by simp), List.append_nil]
    rfl

/-! ## Number bases -/

theorem byte_digitChar_inj :
    ∀ d < 16, ∀ e < 16, byte (Nat.digitChar d) = byte (Nat.digitChar e) → d = e := by
  decide

/-- Decimal digits that are hexadecimal ones too: one digit, or the last ones agree and so do
those in front. -/
theorem digits_cases {m k : Nat}
    (same : (Nat.toDigits 10 m).map byte = (Nat.toDigits 16 k).map byte) :
    m = k ∧ m < 10 ∨ 10 ≤ m ∧ 16 ≤ k ∧ m % 10 = k % 16 ∧
      (Nat.toDigits 10 (m / 10)).map byte = (Nat.toDigits 16 (k / 16)).map byte := by
  by_cases one : m < 10
  · rw [Nat.toDigits_of_lt_base one] at same
    by_cases one' : k < 16
    · rw [Nat.toDigits_of_lt_base one'] at same
      have digit := byte_digitChar_inj m (by omega) k one' (List.cons.inj same).1
      exact .inl ⟨digit, one⟩
    · rw [Nat.toDigits_of_base_le (by decide) (by omega), List.map_append] at same
      have lengths := congrArg List.length same
      have more := @Nat.length_toDigits_pos 16 (k / 16)
      simp only [List.map_singleton, List.length_append, List.length_map,
        List.length_singleton] at lengths
      omega
  · rw [Nat.toDigits_of_base_le (by decide) (by omega), List.map_append] at same
    by_cases one' : k < 16
    · rw [Nat.toDigits_of_lt_base one'] at same
      have lengths := congrArg List.length same
      have more := @Nat.length_toDigits_pos 10 (m / 10)
      simp only [List.map_singleton, List.length_append, List.length_map,
        List.length_singleton] at lengths
      omega
    · rw [Nat.toDigits_of_base_le (by decide) (not_lt.mp one'), List.map_append] at same
      obtain ⟨front, last⟩ := List.append_inj' same rfl
      have digit := byte_digitChar_inj (m % 10) (by omega) (k % 16) (by omega)
        (List.cons.inj last).1
      exact .inr ⟨by omega, by omega, digit, front⟩

/-- Read in hexadecimal, decimal digits stand for no smaller number. -/
theorem decimal_le_hexadecimal {m k : Nat}
    (same : (Nat.toDigits 10 m).map byte = (Nat.toDigits 16 k).map byte) : m ≤ k := by
  induction m using Nat.strong_induction_on generalizing k with
  | _ m inductionHypothesis =>
      rcases digits_cases same with ⟨equal, -⟩ | ⟨large, -, last, front⟩
      · exact equal.le
      · have smaller := inductionHypothesis (m / 10) (by omega) front
        omega

theorem printInt_natCast (n : Nat) : printInt (n : Int) = (Nat.toDigits 10 n).map byte := by
  have text : toString (n : Int) = String.ofList (Nat.toDigits 10 n) := rfl
  rw [printInt, str, text, String.toList_ofList]

/-- The two numbers of a hart are printed alike as long as they have one decimal digit. -/
theorem printedId_eq_idText_iff (id : BitVec 64) : printedId id = idText id ↔ id.toNat < 9 := by
  have value : (id + 1).toNat = (id.toNat + 1) % 2 ^ 64 := by simp
  have bound := id.isLt
  rw [printedId, printInt_natCast, idText, value]
  constructor
  · intro same
    rcases digits_cases same with ⟨equal, one⟩ | ⟨large, large', last, front⟩
    · omega
    · have le := decimal_le_hexadecimal front
      omega
  · intro small
    rw [Nat.mod_eq_of_lt (by omega), Nat.toDigits_of_lt_base (by omega),
      Nat.toDigits_of_lt_base (by omega)]

theorem mem_toDigits {base n : Nat} (large : 1 < base) {digit : Char}
    (member : digit ∈ Nat.toDigits base n) : ∃ d < base, digit = Nat.digitChar d := by
  induction n using Nat.strong_induction_on with
  | _ n inductionHypothesis =>
      rw [Nat.toDigits_eq_if large] at member
      split_ifs at member with one
      · exact ⟨n, one, List.mem_singleton.mp member⟩
      · rcases List.mem_append.mp member with front | last
        · exact inductionHypothesis (n / base) (Nat.div_lt_self (by omega) large) front
        · exact ⟨n % base, Nat.mod_lt n (by omega), List.mem_singleton.mp last⟩

/-- No item has a comma. -/
theorem comma_not_mem {base n : Nat} (large : 1 < base) (small : base ≤ 16) :
    byte ',' ∉ (Nat.toDigits base n).map byte := by
  intro member
  obtain ⟨digit, inside, comma⟩ := List.mem_map.mp member
  obtain ⟨d, bound, rfl⟩ := mem_toDigits large inside
  have digits : ∀ d < 16, byte (Nat.digitChar d) ≠ byte ',' := by decide
  exact digits d (bound.trans_le small) comma

/-! ## The format -/

section Format

variable {ids : Fin count → BitVec 64} {status : Fin count → CoreExecStatus}

/-- The list has the format of the protocol if and only if the last hart of the machine has not
terminated and the threads that are listed have one decimal digit. -/
theorem threadListOf_format_iff (positive : 0 < count)
    (running : ∃ hart, status hart ≠ .terminated) :
    threadListOf ids status =
        [byte ','].intercalate ((alive status).map fun hart => idText (ids hart)) ↔
      status ⟨count - 1, by omega⟩ ≠ .terminated ∧
        ∀ hart ∈ alive status, (ids hart).toNat < 9 := by
  obtain ⟨some_, runs⟩ := running
  have listed : alive status ≠ [] := List.ne_nil_of_mem (mem_alive.mpr runs)
  rw [threadListOf_eq positive, intercalate_inj]
  · by_cases gone : status ⟨count - 1, by omega⟩ = .terminated
    · rw [if_pos gone]
      refine iff_of_false ?_ fun both => both.1 gone
      intro same
      have lengths := congrArg List.length same
      simp only [List.length_append, List.length_map, List.length_singleton] at lengths
      omega
    · rw [if_neg gone, List.append_nil, List.map_inj_left, and_iff_right gone]
      exact forall₂_congr fun hart _ => printedId_eq_idText_iff (ids hart)
  · intro item member
    rcases List.mem_append.mp member with printed | empty
    · obtain ⟨hart, -, rfl⟩ := List.mem_map.mp printed
      rw [printedId, printInt_natCast]
      exact comma_not_mem (by decide) (by decide)
    · split_ifs at empty
      · rw [List.mem_singleton.mp empty]
        exact List.not_mem_nil
      · exact absurd empty List.not_mem_nil
  · intro item member
    obtain ⟨hart, -, rfl⟩ := List.mem_map.mp member
    exact comma_not_mem (by decide) (by decide)
  · exact List.append_ne_nil_of_left_ne_nil (by simpa using listed) _
  · simpa using listed

theorem gdbHexid_digit :
    ∀ d < 16, Stage2.gdbHexid.run [byte (Nat.digitChar d)] = .ok (some ((d : Int), [])) := by
  decide

theorem getThreads_of_hart (hart : Fin machine.count) :
    getThreads machine (hart.val + 1) = .ok [hart] := by
  have inside : (((hart.val : Int) + 1) - 1).toNat < machine.count := by
    have bound := hart.isLt
    omega
  have same : (⟨(((hart.val : Int) + 1) - 1).toNat, inside⟩ : Fin machine.count) = hart := by
    apply Fin.ext
    dsimp only
    omega
  unfold getThreads GDB_THREAD_ANY GDB_THREAD_ALL
  dsimp only
  rw [if_neg (by omega), if_neg (by omega), if_neg (by omega), dif_pos inside, same]

/-- An item of one digit selects its hart if and only if the hart stands where its id says. -/
theorem selects_iff {id : BitVec 64} (small : id.toNat < 9) (hart : Fin machine.count) :
    (∃ tid, Stage2.gdbHexid.run (idText id) = .ok (some (tid, [])) ∧
      getThreads machine tid = .ok [hart]) ↔ id.toNat = hart.val := by
  rw [idText, Nat.toDigits_of_lt_base (by omega), List.map_singleton,
    gdbHexid_digit (id.toNat + 1) (by omega)]
  constructor
  · rintro ⟨tid, parsed, found⟩
    cases parsed
    have names : Action.Matches ⟨byte 'c', ((id.toNat + 1 : Nat) : Int)⟩ hart :=
      (mem_getThreads found hart).mp (List.mem_singleton_self hart)
    have positive : 0 < ((id.toNat + 1 : Nat) : Int) := by omega
    have same : ((id.toNat + 1 : Nat) : Int) = hart.val + 1 :=
      (@named_matches_iff machine ⟨byte 'c', _⟩ hart).mp ⟨positive, names⟩
    omega
  · intro same
    refine ⟨_, rfl, ?_⟩
    rw [same]
    exact getThreads_of_hart hart

end Format

/-- The reply of `threadInfo` lists the threads so that the debugger can select each of them if
and only if the last hart has not terminated and every hart that has not is one of the first nine
and stands where its id says. -/
theorem threadInfo_wellFormed_iff (machine : Machine) (ids : Fin machine.count → BitVec 64)
    (status : Fin machine.count → CoreExecStatus) (running : ∃ hart, status hart ≠ .terminated) :
    (∀ server : Server machine, (∀ hart, (machine.hartId hart).value = ids hart) →
        (∀ hart, (server.harts hart).status = status hart) →
        threadInfo.run server =
          ⟨.ok (), server, [.packet (str "m" ++ threadListOf ids status)]⟩) ∧
      (WellFormed machine ids status (str "m" ++ threadListOf ids status) ↔
        status ⟨machine.count - 1, Nat.sub_lt machine.positive Nat.one_pos⟩ ≠ .terminated ∧
          ∀ hart, status hart ≠ .terminated →
            (ids hart).toNat = hart.val ∧ (ids hart).toNat < 9) := by
  constructor
  · intro server sameIds sameStatus
    rw [threadInfo_run, funext sameIds, funext sameStatus]
  · have format := @threadListOf_format_iff machine.count ids status machine.positive running
    constructor
    · rintro ⟨written, selects⟩
      obtain ⟨last, small⟩ := format.mp (List.cons.inj written).2
      refine ⟨last, ?_⟩
      intro hart runs
      have listed := mem_alive.mpr runs
      exact ⟨(selects_iff (small hart listed) hart).mp (selects hart listed), small hart listed⟩
    · rintro ⟨last, inOrder⟩
      constructor
      · refine congrArg (byte 'm' :: ·) (format.mpr ⟨last, ?_⟩)
        intro hart listed
        exact (inOrder hart (mem_alive.mp listed)).2
      · intro hart listed
        obtain ⟨same, small⟩ := inOrder hart (mem_alive.mp listed)
        exact (selects_iff small hart).mpr same

/-- A machine of the same kind with two harts. -/
def pair : Machine :=
  { lone with
    count := 2
    positive := Nat.two_pos
    hartId := fun hart => ⟨BitVec.ofNat 64 hart.val, by revert hart; decide⟩
    getRegisters := fun _ _ => Vector.replicate 32 0
    getProgamCounter := fun _ _ => 0
    mmu := fun _ => none
    resume := fun _ _ woken _ => if woken = [] then none else some ((), fun _ => .hitBreakpoint)
    stops := by
      intro world harts woken single after status resumed
      split_ifs at resumed with none_
      cases resumed
      exact ⟨_, List.head_mem none_, nofun⟩
    halt := fun _ _ _ => ((), fun _ => .hitBreakpoint) }

/-- Two harts, of which the first has terminated. -/
theorem threadInfo_second_runs : WellFormed pair (fun hart => BitVec.ofNat 64 hart.val)
    (fun hart => if hart.val = 0 then .terminated else .runnable) (str "m2") := by
  have wellFormed := (threadInfo_wellFormed_iff pair (fun hart => BitVec.ofNat 64 hart.val)
    (fun hart => if hart.val = 0 then .terminated else .runnable) ⟨⟨1, by decide⟩, by decide⟩).2.mpr
    (by decide)
  exact wellFormed

/-- Two harts, of which the second has terminated: the reply is `m1,`. -/
theorem not_wellFormed_second_terminated :
    ¬∀ (machine : Machine) (ids : Fin machine.count → BitVec 64)
      (status : Fin machine.count → CoreExecStatus), Function.Injective ids →
      (∃ hart, status hart ≠ .terminated) →
      WellFormed machine ids status (str "m" ++ threadListOf ids status) := by
  intro claim
  have wellFormed := claim pair (fun hart => BitVec.ofNat 64 hart.val)
    (fun hart => if hart.val = 1 then .terminated else .runnable) (by decide)
    ⟨⟨0, by decide⟩, by decide⟩
  exact absurd wellFormed.format (by decide +kernel)

end SymexVP.Gdb.Handlers
