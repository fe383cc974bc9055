import SymexVP.StateSteps
import SymexVP.SymbolicFormat

/-!
# Whether symbolic inputs are independent

The execution context knows a symbolic variable by its name alone, and three components
make up names on their own: a marked memory range is named after its address, a read of
the sensor after a counter, and a field of the input format by the user. Two requests
for the same name yield the same input.

The counter keeps the reads of the sensor apart for as long as it does not wrap. Marked
ranges and fields are kept apart by nothing, so that whether the inputs of a run are
fresh depends on which ranges the software marks and on the names in the format.
-/

namespace SymexVP.Iss

open Exec

variable {P : Platform} (input : P.clover.terms.Assignment)

/-! ## Requests -/

/-- The requests for symbolic data among what was observed. -/
def injections {terms : Terms} (log : List (Event terms)) : List Injection :=
  log.filterMap fun
    | .injected injection => some injection
    | _ => none

/-- The address of a marked memory range. -/
def markedAddress : Injection → Option (BitVec 32)
  | .memory addr => some addr
  | _ => none

/-- The counter at a read of the sensor. -/
def sampleIndex : Injection → Option (BitVec 64)
  | .sensor nread => some nread
  | _ => none

@[simp] theorem injections_nil {terms : Terms} :
    injections ([] : List (Event terms)) = [] := rfl

theorem injections_append {terms : Terms} (log more : List (Event terms)) :
    injections (log ++ more) = injections log ++ injections more := List.filterMap_append

/-- Two requests have different names, unless both are fields of one name. -/
def Distinct (one other : Injection) : Prop :=
  (∀ name, ¬(one = .field name ∧ other = .field name)) → one.name ≠ other.name

/-- Any two of the requests ask for different variables. -/
def Fresh (requests : List Injection) : Prop := requests.Pairwise Distinct

/-- No range was marked twice, the counter did not wrap, and no field has the name of
another component's variable. -/
structure Separate (requests : List Injection) : Prop where
  ranges : (requests.filterMap markedAddress).Nodup
  samples : (requests.filterMap sampleIndex).length ≤ 2 ^ 64
  fields : ∀ name, .field name ∈ requests → ∀ other ∈ requests, other.name = name →
    other = .field name

/-! ## Names -/

theorem name_field (name : String) : (Injection.field name).name = name := rfl

theorem toList_memory_name (addr : BitVec 32) :
    (Injection.memory addr).name.toList =
      "memory<".toList ++ Nat.toDigits 10 addr.toNat ++ ">".toList := by
  have name : (Injection.memory addr).name = "memory<" ++ toString addr.toNat ++ ">" := rfl
  rw [name, String.toList_append, String.toList_append, Nat.toString_eq_repr, Nat.toList_repr]

theorem toList_sensor_name (nread : BitVec 64) :
    (Injection.sensor nread).name.toList =
      "SymbolicSensorValue".toList ++ Nat.toDigits 10 nread.toNat := by
  have name : (Injection.sensor nread).name = "SymbolicSensorValue" ++ toString nread.toNat := rfl
  rw [name, String.toList_append, Nat.toString_eq_repr, Nat.toList_repr]

/-- A number is read back from its decimal digits. -/
theorem eq_of_toDigits_eq {first second : Nat}
    (same : Nat.toDigits 10 first = Nat.toDigits 10 second) : first = second := by
  rw [← @Nat.ofDigitChars_ten_toDigits first, ← @Nat.ofDigitChars_ten_toDigits second, same]

theorem memory_name_injective {first second : BitVec 32}
    (same : (Injection.memory first).name = (Injection.memory second).name) : first = second := by
  have letters := congrArg String.toList same
  rw [toList_memory_name, toList_memory_name] at letters
  have digits := List.append_cancel_left (List.append_cancel_right letters)
  exact BitVec.eq_of_toNat_eq (eq_of_toDigits_eq digits)

theorem sensor_name_injective {first second : BitVec 64}
    (same : (Injection.sensor first).name = (Injection.sensor second).name) : first = second := by
  have letters := congrArg String.toList same
  rw [toList_sensor_name, toList_sensor_name] at letters
  exact BitVec.eq_of_toNat_eq (eq_of_toDigits_eq (List.append_cancel_left letters))

/-- The two kinds of names made up by the simulator differ in their first letter. -/
theorem memory_name_ne_sensor_name (addr : BitVec 32) (nread : BitVec 64) :
    (Injection.memory addr).name ≠ (Injection.sensor nread).name := by
  intro same
  have letters := congrArg String.toList same
  rw [toList_memory_name, toList_sensor_name] at letters
  have first := congrArg List.head? letters
  simp at first

/-! ## Requests in a row -/

instance : Std.Symm Distinct :=
  ⟨fun _ _ distinct apart same =>
    distinct (fun name ⟨left, right⟩ => apart name ⟨right, left⟩) same.symm⟩

theorem distinct_iff (one other : Injection) :
    Distinct one other ↔
      (∀ addr, markedAddress one = some addr → ∀ addr', markedAddress other = some addr' →
        addr ≠ addr') ∧
      (∀ nread, sampleIndex one = some nread → ∀ nread', sampleIndex other = some nread' →
        nread ≠ nread') ∧
      (∀ name, one = .field name → other.name = name → other = .field name) ∧
      ∀ name, other = .field name → one.name = name → one = .field name := by
  cases one with
  | memory addr =>
      cases other with
      | memory addr' =>
          have names : (Injection.memory addr).name = (Injection.memory addr').name ↔
              addr = addr' := ⟨memory_name_injective, fun same => by rw [same]⟩
          simp [Distinct, markedAddress, sampleIndex, names]
      | sensor nread =>
          simp [Distinct, markedAddress, sampleIndex, memory_name_ne_sensor_name]
      | field name => simp [Distinct, markedAddress, sampleIndex, name_field]
  | sensor nread =>
      cases other with
      | memory addr =>
          simp [Distinct, markedAddress, sampleIndex, (memory_name_ne_sensor_name _ _).symm]
      | sensor nread' =>
          have names : (Injection.sensor nread).name = (Injection.sensor nread').name ↔
              nread = nread' := ⟨sensor_name_injective, fun same => by rw [same]⟩
          simp [Distinct, markedAddress, sampleIndex, names]
      | field name => simp [Distinct, markedAddress, sampleIndex, name_field]
  | field name =>
      cases other with
      | memory addr => simp [Distinct, markedAddress, sampleIndex, name_field, eq_comm]
      | sensor nread => simp [Distinct, markedAddress, sampleIndex, name_field, eq_comm]
      | field name' => simp [Distinct, markedAddress, sampleIndex, name_field, eq_comm]

/-- Consecutive values of the counter are all different until it wraps. -/
theorem nodup_consecutive (count : Nat) :
    ((List.range count).map (BitVec.ofNat 64)).Nodup ↔ count ≤ 2 ^ 64 := by
  constructor
  · intro nodup
    by_contra wrapped
    have first : 0 ∈ List.range count := List.mem_range.mpr (by omega)
    have again : 2 ^ 64 ∈ List.range count := List.mem_range.mpr (by omega)
    have same := List.inj_on_of_nodup_map nodup first again (by simp)
    omega
  · intro small
    refine List.Nodup.map_on ?_ List.nodup_range
    intro one member other member' same
    have numbers := congrArg BitVec.toNat same
    rw [List.mem_range] at member member'
    rwa [BitVec.toNat_ofNat, BitVec.toNat_ofNat, Nat.mod_eq_of_lt (by omega),
      Nat.mod_eq_of_lt (by omega)] at numbers

/-- Requests whose sensor reads count up from zero are fresh exactly if they are separate. -/
theorem fresh_iff_of_consecutive {requests : List Injection} {count : Nat}
    (consecutive : requests.filterMap sampleIndex = (List.range count).map (BitVec.ofNat 64)) :
    Fresh requests ↔ Separate requests := by
  have counted : (requests.filterMap sampleIndex).Nodup ↔
      (requests.filterMap sampleIndex).length ≤ 2 ^ 64 := by
    rw [consecutive, nodup_consecutive, List.length_map, List.length_range]
  constructor
  · intro fresh
    have parts := List.Pairwise.imp (fun {one other} => (distinct_iff one other).mp) fresh
    refine ⟨?_, counted.mp ?_, ?_⟩
    · exact List.pairwise_filterMap.mpr (List.Pairwise.imp (fun part => part.1) parts)
    · exact List.pairwise_filterMap.mpr (List.Pairwise.imp (fun part => part.2.1) parts)
    · intro name member other member' named
      by_contra different
      have distinct := List.Pairwise.forall fresh member member' (Ne.symm different)
      refine distinct (fun text ⟨left, right⟩ => ?_) (by rw [name_field, named])
      cases left
      exact different right
  · intro ⟨ranges, samples, fields⟩
    have apart := List.pairwise_filterMap.mp ranges
    have counts := List.pairwise_filterMap.mp (counted.mpr samples)
    have named : requests.Pairwise fun one other =>
        (∀ name, one = .field name → other.name = name → other = .field name) ∧
        ∀ name, other = .field name → one.name = name → one = .field name := by
      refine List.pairwise_of_forall_mem_list fun one member other member' => ⟨?_, ?_⟩
      · rintro name rfl same
        exact fields name member other member' same
      · rintro name rfl same
        exact fields name member' one member same
    refine List.Pairwise.imp ?_ ((apart.and counts).and named)
    intro one other ⟨⟨left, right⟩, rest⟩
    exact (distinct_iff one other).mpr ⟨left, right, rest⟩

/-! ## Runs -/

/-- Between two states the sensor was read a number of times, and the counter was that far on. -/
def Counted (before : State P) (log : List (Event P.clover.terms)) (after : State P) : Prop :=
  ∃ count : Nat,
    (injections log).filterMap sampleIndex =
      (List.range count).map (fun index => before.board.sensor.nread + BitVec.ofNat 64 index) ∧
    after.board.sensor.nread = before.board.sensor.nread + BitVec.ofNat 64 count

theorem Counted.of_silent {before after : State P} {log : List (Event P.clover.terms)}
    (silent : (injections log).filterMap sampleIndex = [])
    (same : after.board.sensor.nread = before.board.sensor.nread) : Counted before log after :=
  ⟨0, silent, by rw [same]; exact (BitVec.add_zero _).symm⟩

theorem Counted.append {before middle after : State P} {log more : List (Event P.clover.terms)}
    (earlier : Counted before log middle) (later : Counted middle more after) :
    Counted before (log ++ more) after := by
  obtain ⟨count, seen, counter⟩ := earlier
  obtain ⟨count', seen', counter'⟩ := later
  refine ⟨count + count', ?_, ?_⟩
  · rw [injections_append, List.filterMap_append, seen, seen', List.range_add, List.map_append,
      List.map_map]
    congr 1
    refine List.map_congr_left fun index _ => ?_
    rw [counter, Function.comp_apply, BitVec.ofNat_add, BitVec.add_assoc]
  · rw [counter', counter, BitVec.ofNat_add, BitVec.add_assoc]

/-- Only a read of the sensor's value register counts. -/
theorem counted_of_stateStep {before after : State P} {log : List (Event P.clover.terms)}
    (step : StateStep before log after) : Counted before log after := by
  cases step with
  | board step =>
      cases step with
      | sampled => exact ⟨1, by simp [injections, sampleIndex], rfl⟩
      | bounded sensor counts => exact .of_silent rfl counts
      | _ => exact .of_silent rfl rfl
  | _ => exact .of_silent rfl rfl

theorem counted_of_times (count : Nat) (start : State P) :
    Counted start ((Exec.times (runStep input) count).run start).log
      ((Exec.times (runStep input) count).run start).state :=
  (takes_runStep input).times count start |>.fold (fun _ => .of_silent rfl rfl) Counted.append
    counted_of_stateStep

/-! ## The input format -/

/-- Parsing the format asks for fields only. -/
inductive FormatStep {clover : Clover} : SymbolicFormat clover.terms → List (Event clover.terms) →
    SymbolicFormat clover.terms → Prop
  | field (format : SymbolicFormat clover.terms) (name : String) :
      FormatStep format [.injected (.field name)] format
  | change (before after : SymbolicFormat clover.terms) : FormatStep before [] after

open SymbolicFormat in
theorem takes_getBytes {clover : Clover} (input : clover.terms.Assignment) :
    Takes FormatStep (getBytes input : FormatM clover _) := by
  have value : ∀ list name bitsize,
      Takes FormatStep (SymbolicFormat.getValue input list name bitsize : FormatM clover _) := by
    intro list name bitsize
    unfold SymbolicFormat.getValue
    dsimp only
    split
    · exact Takes.throw _
    · exact Takes.pure _
    · refine Takes.ite ?_ (Takes.ite (Takes.pure _) (Takes.pure _))
      exact Takes.bind (Takes.emit fun format => .field format name) fun _ => Takes.pure _
  have field : ∀ elem, Takes FormatStep (parseField input elem : FormatM clover _) := by
    intro elem
    unfold parseField
    split
    · refine Takes.bind (value _ _ _) fun found => ?_
      split
      · exact Takes.modify fun format => .change format _
      · exact Takes.throw _
    · exact Takes.ite (Takes.throw _) (Takes.throw _)
    · exact Takes.throw _
  have fields : ∀ elems, Takes FormatStep (parseFields input elems : FormatM clover _) := by
    intro elems
    induction elems with
    | nil => exact Takes.pure _
    | cons elem rest inductionHypothesis =>
        exact Takes.bind (field elem) fun _ => inductionHypothesis
  have values : Takes FormatStep (getValues input : FormatM clover _) := by
    refine Takes.bind Takes.get fun format => Takes.ite (Takes.pure _) ?_
    split
    · refine Takes.bind (fields _) fun _ => ?_
      refine Takes.bind (Takes.modify fun format => .change format _) fun _ => ?_
      exact Takes.bind Takes.get fun _ => Takes.pure _
    · exact Takes.throw _
  refine Takes.bind values fun found => ?_
  split
  · exact Takes.pure _
  · exact Takes.bind (Takes.require _ _) fun _ => Takes.bind (Takes.require _ _) fun _ =>
      Takes.bind (Takes.require _ _) fun _ => Takes.pure _

/-- The sensor was not read between two states. -/
def Unsampled {terms : Terms} {σ : Type} (_ : σ) (log : List (Event terms)) (_ : σ) : Prop :=
  (injections log).filterMap sampleIndex = []

theorem unsampled_getBytes {clover : Clover} (input : clover.terms.Assignment)
    (format : SymbolicFormat clover.terms) :
    Unsampled format ((SymbolicFormat.getBytes input).run format).log
      ((SymbolicFormat.getBytes input).run format).state := by
  refine (takes_getBytes input format).fold (fun _ => rfl) ?_ ?_
  · intro before middle after log more earlier later
    rw [Unsampled, injections_append, List.filterMap_append, earlier, later, List.append_nil]
  · intro before log after step
    cases step <;> rfl

/-- A simulation is started: the UART takes its bytes out of the format, which asks for the
symbolic fields, and the hart is reset. -/
inductive Launched : List Injection → State P → Prop
  | intro (misa : Misa) (hartId entrypoint sp : BitVec 32) (memory : P.clover.Memory)
      (world : P.world.State) (format : SymbolicFormat P.clover.terms)
      (rxFifo : List (ConcolicValue P.clover.terms 8))
      (read : ((SymbolicFormat.getBytes input).run format).result = .ok rxFifo) :
      Launched (injections ((SymbolicFormat.getBytes input).run format).log)
        ⟨initialHart misa hartId entrypoint sp, initialBoard memory rxFifo world⟩

/-- The symbolic data a simulation of so many steps asks for, oldest request first. -/
def requests (launch : List Injection) (start : State P) (count : Nat) : List Injection :=
  launch ++ injections ((Exec.times (runStep input) count).run start).log

/-- The inputs of a run are fresh exactly if the software marks no range twice, reads the
sensor no more often than its counter can tell apart, and no field of the format is
named like another input of the run. -/
theorem fresh_iff_separate {launch : List Injection} {start : State P}
    (launched : Launched input launch start) (count : Nat) :
    Fresh (requests input launch start count) ↔ Separate (requests input launch start count) := by
  obtain ⟨misa, hartId, entrypoint, sp, memory, world, format, rxFifo, read⟩ := launched
  obtain ⟨samples, seen, -⟩ := counted_of_times input count
    ⟨initialHart misa hartId entrypoint sp, initialBoard memory rxFifo world⟩
  have parsed := unsampled_getBytes input format
  rw [Unsampled] at parsed
  have consecutive : (requests input (injections ((SymbolicFormat.getBytes input).run format).log)
      ⟨initialHart misa hartId entrypoint sp, initialBoard memory rxFifo world⟩
      count).filterMap sampleIndex = (List.range samples).map (BitVec.ofNat 64) := by
    rw [requests, List.filterMap_append, parsed, List.nil_append, seen]
    exact List.map_congr_left fun index _ => BitVec.zero_add _
  exact fresh_iff_of_consecutive consecutive

/-- A program started without an input format. -/
theorem launched_programStart (words : List (BitVec 32)) :
    Launched zeroInput [] (programStart words) :=
  .intro ⟨false⟩ 0 0 0 (programMemory words) () .withoutFile [] rfl

/-- Mark the four bytes at 0x100 symbolic, then the four bytes behind them. -/
def marksTwoRanges : List (BitVec 32) :=
  [0x020200b7, 0x10000113, 0x0020a023, 0x00400193, 0x0030a223, 0x00410113, 0x0020a023, 0x0030a223]

theorem fresh_marksTwoRanges : Fresh (requests zeroInput [] (programStart marksTwoRanges) 8) := by
  have asked : requests zeroInput [] (programStart marksTwoRanges) 8 =
      [.memory 0x100, .memory 0x104] := by decide +kernel
  refine (fresh_iff_separate zeroInput (launched_programStart marksTwoRanges) 8).mpr ?_
  rw [asked]
  exact ⟨by decide, by decide, by simp⟩

/-- Mark the four bytes at 0x100 symbolic twice. -/
def marksOneRangeTwice : List (BitVec 32) :=
  [0x020200b7, 0x10000113, 0x0020a023, 0x00400193, 0x0030a223, 0x0030a223]

/-- Both requests are for the variable `memory<256>`. -/
theorem not_fresh_marksOneRangeTwice :
    Launched zeroInput [] (programStart marksOneRangeTwice) ∧
      ¬Fresh (requests zeroInput [] (programStart marksOneRangeTwice) 6) := by
  have asked : requests zeroInput [] (programStart marksOneRangeTwice) 6 =
      [.memory 0x100, .memory 0x100] := by decide +kernel
  refine ⟨launched_programStart marksOneRangeTwice, ?_⟩
  rw [asked]
  intro fresh
  have distinct : Distinct (.memory 0x100) (.memory 0x100) :=
    List.rel_of_pairwise_cons fresh (List.mem_singleton_self _)
  exact distinct (by simp) rfl

end SymexVP.Iss
