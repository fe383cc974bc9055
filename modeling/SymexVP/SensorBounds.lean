import SymexVP.Iss

/-!
# The bounds of the symbolic sensor

The software sets a lower and an upper bound in any order, and a read of the value register
brings a fresh symbolic word between them by a remainder and an addition. Whatever the
accesses before have left in the registers, the values a read may deliver are those from the
lower bound on and below the upper one, and a read without such a value is refused.
-/

namespace SymexVP.SymbolicSensor

open Exec

variable {P : Platform}

/-- The remainder by the distance of two bounds, moved up, does not wrap. -/
theorem toNat_between {lower upper : BitVec 32} (below : lower < upper) (word : BitVec 32) :
    (word % (upper - lower) + lower).toNat =
      lower.toNat + word.toNat % (upper.toNat - lower.toNat) := by
  have ordered : lower.toNat < upper.toNat := BitVec.lt_def.mp below
  have distance : (upper - lower).toNat = upper.toNat - lower.toNat :=
    BitVec.toNat_sub_of_le (BitVec.le_def.mpr ordered.le)
  have inside : word.toNat % (upper.toNat - lower.toNat) < upper.toNat - lower.toNat :=
    Nat.mod_lt _ (Nat.sub_pos_of_lt ordered)
  have bound := upper.isLt
  rw [BitVec.toNat_add, BitVec.toNat_umod, distance, Nat.add_comm]
  exact Nat.mod_eq_of_lt (by omega)

/-- Each value between the bounds is the one a word at that distance is brought to. -/
theorem between_of_distance {lower upper value : BitVec 32} (low : lower ≤ value)
    (high : value < upper) : (value - lower) % (upper - lower) + lower = value := by
  have ordered : lower.toNat ≤ value.toNat := BitVec.le_def.mp low
  have less : value.toNat < upper.toNat := BitVec.lt_def.mp high
  have below : lower < upper := BitVec.lt_def.mpr (ordered.trans_lt less)
  apply BitVec.eq_of_toNat_eq
  rw [toNat_between below, BitVec.toNat_sub_of_le low, Nat.mod_eq_of_lt (by omega)]
  omega

/-- The fresh word of the next read. -/
def freshWord (P : Platform) (assignment : P.clover.terms.Assignment) (sensor : SensorRegisters) :
    BitVec 32 :=
  P.clover.terms.eval assignment (P.clover.symbolicWord (Injection.sensor sensor.nread).name)

variable {input : P.clover.terms.Assignment} {sensor : SensorRegisters}

/-- The distance of the bounds is a divisor the remainder is relied upon for. -/
theorem distance_ne_zero (below : sensor.lowerBound < sensor.upperBound) :
    sensor.upperBound - sensor.lowerBound ≠ 0 := by
  have ordered := BitVec.lt_def.mp below
  intro same
  have equal : sensor.upperBound = sensor.lowerBound := by
    rw [← BitVec.sub_add_cancel sensor.upperBound sensor.lowerBound, same]
    exact BitVec.zero_add _
  rw [equal] at ordered
  exact Nat.lt_irrefl _ ordered

theorem under_sample (lawful : P.clover.Lawful) (below : sensor.lowerBound < sensor.upperBound)
    (assignment : P.clover.terms.Assignment) :
    (sample input sensor).under assignment =
      freshWord P assignment sensor % (sensor.upperBound - sensor.lowerBound) +
        sensor.lowerBound := by
  have remainder := (lawful.binary .urem 32).under assignment
    (P.clover.getSymbolicWord input (Injection.sensor sensor.nread).name)
    (.BVC (sensor.upperBound - sensor.lowerBound)) (distance_ne_zero below)
  refine ((lawful.binary .add 32).under _ _ _ trivial).trans ?_
  exact congrArg (· + sensor.lowerBound) remainder

theorem concrete_sample (lawful : P.clover.Lawful)
    (below : sensor.lowerBound < sensor.upperBound) :
    (sample input sensor).concrete = (sample input sensor).under input := by
  have remainder := (lawful.binary .urem 32).concrete
    (P.clover.getSymbolicWord input (Injection.sensor sensor.nread).name)
    (.BVC (sensor.upperBound - sensor.lowerBound)) (distance_ne_zero below)
  rw [under_sample lawful below]
  refine ((lawful.binary .add 32).concrete _ _ trivial).trans ?_
  exact congrArg (· + sensor.lowerBound) remainder

/-- What a read of the value register leaves. -/
def sampled (input : P.clover.terms.Assignment) (trans : Payload P.clover.terms)
    (sensor : SensorRegisters) : Payload P.clover.terms :=
  { trans with
    data := (Concolic.mk 32 (sample input sensor)).toBytes 4
    extension := some ⟨32, sample input sensor⟩
    response := .ok }

variable {trans : Payload P.clover.terms} {delay : Nat} {board : Board P}

theorem transport_sampled (reads : trans.command = .read) (word : trans.data.length = 4)
    (value : trans.address = 0x8) (below : board.sensor.lowerBound < board.sensor.upperBound) :
    Returns (transport input trans delay) board (sampled input trans board.sensor, delay)
      { board with sensor := { board.sensor with nread := board.sensor.nread + 1 } }
      [.injected (.sensor board.sensor.nread)] := by
  have inside : ¬board.sensor.upperBound ≤ board.sensor.lowerBound := BitVec.not_le.mpr below
  simp [Returns, transport, reads, word, value, inside, sampled]

theorem transport_refused (reads : trans.command = .read) (word : trans.data.length = 4)
    (value : trans.address = 0x8) (none_ : ¬board.sensor.lowerBound < board.sensor.upperBound) :
    Returns (transport input trans delay) board ({ trans with response := .addressError }, delay)
      board [] := by
  have outside : board.sensor.upperBound ≤ board.sensor.lowerBound := BitVec.not_lt.mp none_
  simp [Returns, transport, reads, word, value, outside]

/-- An access that is answered by an error has not touched the registers. -/
theorem sensor_of_refused {answer : Payload P.clover.terms} {delay' : Nat} {after : Board P}
    {log : List (Event P.clover.terms)}
    (answered : Returns (transport input trans delay) board (answer, delay') after log)
    (refused : answer.response ≠ .ok) : after.sensor = board.sensor := by
  unfold Returns transport at answered
  rw [bind_run, get_run, Outcome.andThen_ok] at answered
  dsimp only at answered
  split at answered
  · cases answered
    rfl
  · cases command : trans.command with
    | read =>
        rw [command] at answered
        dsimp only at answered
        split at answered
        · cases answered
          rfl
        · cases answered
          exact absurd rfl refused
    | write =>
        rw [command] at answered
        dsimp only at answered
        split at answered
        · cases answered
          rfl
        · cases answered
          exact absurd rfl refused

/-- In every state, a read of the value register succeeds exactly if the lower bound is below
the upper one. It then delivers, with the bytes it has under the assignment of this run, a value
that is between the bounds for every value of its fresh word, and each value between them for
one. An access that is answered by an error leaves the bounds and the counter alone. -/
theorem reads_between_bounds (lawful : P.clover.Lawful) (input : P.clover.terms.Assignment)
    (board : Board P) :
    (∀ trans delay, trans.command = .read → trans.data.length = 4 → trans.address = 0x8 →
      ∃ answer after log,
        Returns (transport input trans delay) board (answer, delay) after log ∧
        (answer.response = .ok ↔ board.sensor.lowerBound < board.sensor.upperBound) ∧
        (answer.response = .ok → ∃ value : ConcolicValue P.clover.terms 32,
          answer.extension = some ⟨32, value⟩ ∧
          answer.data = (List.range 4).map (fun index => Clover.byteOf index (value.under input)) ∧
          (∀ assignment, board.sensor.lowerBound.toNat ≤ (value.under assignment).toNat ∧
            (value.under assignment).toNat < board.sensor.upperBound.toNat ∧
            (value.under assignment).toNat = board.sensor.lowerBound.toNat +
              (freshWord P assignment board.sensor).toNat %
                (board.sensor.upperBound.toNat - board.sensor.lowerBound.toNat)) ∧
          ∀ wanted, board.sensor.lowerBound ≤ wanted → wanted < board.sensor.upperBound →
            ∃ word, ∀ assignment, freshWord P assignment board.sensor = word →
              value.under assignment = wanted)) ∧
    ∀ trans delay answer delay' after log,
      Returns (transport input trans delay) board (answer, delay') after log →
        answer.response ≠ .ok → after.sensor = board.sensor := by
  refine ⟨?_, fun trans delay answer delay' after log => sensor_of_refused⟩
  intro trans delay reads word value
  by_cases below : board.sensor.lowerBound < board.sensor.upperBound
  · refine ⟨_, _, _, transport_sampled reads word value below, iff_of_true rfl below, fun _ => ?_⟩
    refine ⟨sample input board.sensor, rfl, ?_, ?_, ?_⟩
    · rw [← concrete_sample lawful below]
      rfl
    · intro assignment
      have ordered := BitVec.lt_def.mp below
      have exact_ := toNat_between below (freshWord P assignment board.sensor)
      have inside := Nat.mod_lt (freshWord P assignment board.sensor).toNat
        (Nat.sub_pos_of_lt ordered)
      rw [under_sample lawful below]
      refine ⟨?_, ?_, exact_⟩ <;> omega
    · intro wanted low high
      refine ⟨wanted - board.sensor.lowerBound, fun assignment given => ?_⟩
      rw [under_sample lawful below, given, between_of_distance low high]
  · refine ⟨_, _, _, transport_refused reads word value below, iff_of_false nofun below, nofun⟩

/-- The sensor as the example program sets it up. -/
def setUp : Board Iss.tryoutPlatform :=
  { Iss.initialBoard (Iss.programMemory []) [] () with sensor := ⟨23, 42, 0⟩ }

/-- The lower bound itself is delivered too. -/
theorem reads_between_23_and_42 : ∃ answer after log,
    Returns (transport Iss.zeroInput ⟨.read, 0x8, [0, 0, 0, 0], .ok, none⟩ 0) setUp (answer, 0)
      after log ∧
    ∃ value : ConcolicValue Clover.reference.terms 32, answer.extension = some ⟨32, value⟩ ∧
      (∀ assignment, 23 ≤ (value.under assignment).toNat ∧ (value.under assignment).toNat < 42) ∧
      ∃ assignment, value.under assignment = 23 := by
  obtain ⟨reads, -⟩ := reads_between_bounds (P := Iss.tryoutPlatform) Clover.reference_lawful
    Iss.zeroInput setUp
  obtain ⟨answer, after, log, returned, succeeds, delivers⟩ :=
    reads ⟨.read, 0x8, [0, 0, 0, 0], .ok, none⟩ 0 rfl rfl rfl
  obtain ⟨value, attached, -, between, every⟩ := delivers (succeeds.mpr (by decide))
  obtain ⟨word, found⟩ := every 23 (by decide) (by decide)
  refine ⟨answer, after, log, returned, value, attached, ?_, fun _ => word.toNat, ?_⟩
  · exact fun assignment => ⟨(between assignment).1, (between assignment).2.1⟩
  · exact found _ (BitVec.ofNat_toNat 32 word)

end SymexVP.SymbolicSensor
