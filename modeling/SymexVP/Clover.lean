import Mathlib.Tactic

/-!
# The concolic evaluation library

The simulator computes with concolic values of the `clover` library, which is not
part of this repository: a concrete bit vector together with, optionally, a
symbolic expression for it. The library is a parameter of the development. What
the simulator relies on is stated in `Clover.Lawful`: every operation computes the
bit-vector function of its name, on the concrete part and on the symbolic part
alike, and a concolic memory is a little-endian map from addresses to bytes.

A value without a symbolic part is the same under every assignment of the symbolic
variables. A value with one has its expression's value there. `Replays` says that a
value of one run is what another run's value becomes under another assignment; every
lawful operation preserves it.
-/

namespace SymexVP

/-- Symbolic expressions of each width and their value under an assignment of the
symbolic variables. -/
structure Terms where
  Assignment : Type
  Expr : Nat → Type
  eval : {width : Nat} → Assignment → Expr width → BitVec width

/-- A concrete bit vector and, when it depends on symbolic input, an expression for it. -/
structure ConcolicValue (terms : Terms) (width : Nat) where
  concrete : BitVec width
  symbolic : Option (terms.Expr width)

/-- The two-operand operations on values of one width. -/
inductive BinaryOp
  | add | sub | mul | udiv | sdiv | urem | srem | band | bor | bxor | lshl | lshr | ashr
  deriving DecidableEq, Repr

/-- The comparisons; their result is a single bit. -/
inductive CompareOp
  | eq | ne | slt | ult | sge | uge
  deriving DecidableEq, Repr

namespace BinaryOp

/-- The bit-vector function an operation is named after. -/
def apply {width : Nat} : BinaryOp → BitVec width → BitVec width → BitVec width
  | .add, first, second => first + second
  | .sub, first, second => first - second
  | .mul, first, second => first * second
  | .udiv, first, second => first / second
  | .sdiv, first, second => first.sdiv second
  | .urem, first, second => first % second
  | .srem, first, second => first.srem second
  | .band, first, second => first &&& second
  | .bor, first, second => first ||| second
  | .bxor, first, second => first ^^^ second
  | .lshl, first, second => first <<< second
  | .lshr, first, second => first >>> second
  | .ashr, first, second => first.sshiftRight' second

/-- Division and remainder are only relied upon for a divisor other than zero. -/
def Defined {width : Nat} : BinaryOp → BitVec width → BitVec width → Prop
  | .udiv, _, second | .sdiv, _, second | .urem, _, second | .srem, _, second => second ≠ 0
  | _, _, _ => True

end BinaryOp

/-- The comparison a `CompareOp` is named after. -/
def CompareOp.apply {width : Nat} : CompareOp → BitVec width → BitVec width → BitVec 1
  | .eq, first, second => .ofBool (first == second)
  | .ne, first, second => .ofBool (first != second)
  | .slt, first, second => .ofBool (first.slt second)
  | .ult, first, second => .ofBool (first.ult second)
  | .sge, first, second => .ofBool (second.sle first)
  | .uge, first, second => .ofBool (second.ule first)

/-- The operations of the library the simulator calls. -/
structure Clover where
  terms : Terms
  binary {width : Nat} : BinaryOp → ConcolicValue terms width → ConcolicValue terms width →
    ConcolicValue terms width
  compare {width : Nat} : CompareOp → ConcolicValue terms width → ConcolicValue terms width →
    ConcolicValue terms 1
  select {width : Nat} : ConcolicValue terms 1 → ConcolicValue terms width →
    ConcolicValue terms width → ConcolicValue terms width
  sext {width : Nat} (target : Nat) : ConcolicValue terms width → ConcolicValue terms target
  zext {width : Nat} (target : Nat) : ConcolicValue terms width → ConcolicValue terms target
  extract {width : Nat} (offset target : Nat) : ConcolicValue terms width →
    ConcolicValue terms target
  concat {high low : Nat} : ConcolicValue terms high → ConcolicValue terms low →
    ConcolicValue terms (high + low)
  /-- `clover::ConcolicMemory`. -/
  Memory : Type
  load : Memory → Nat → (bytes : Nat) → ConcolicValue terms (8 * bytes)
  store {width : Nat} : Memory → Nat → ConcolicValue terms width → Nat → Memory
  /-- The variable behind `ExecutionContext::getSymbolicBytes`. -/
  symbolicBytes : String → (bytes : Nat) → terms.Expr (8 * bytes)
  /-- The variable behind `ExecutionContext::getSymbolicWord`. -/
  symbolicWord : String → terms.Expr 32

namespace ConcolicValue

variable {terms : Terms} {width : Nat}

/-- `Solver::BVC`: a constant, without symbolic part. -/
def BVC (value : BitVec width) : ConcolicValue terms width := ⟨value, none⟩

@[simp] theorem BVC_concrete (value : BitVec width) :
    (BVC value : ConcolicValue terms width).concrete = value := rfl

@[simp] theorem BVC_symbolic (value : BitVec width) :
    (BVC value : ConcolicValue terms width).symbolic = none := rfl

/-- Whether the value depends on symbolic input. -/
def isSymbolic (value : ConcolicValue terms width) : Bool := value.symbolic.isSome

/-- The value under an assignment: that of the expression, if there is one. -/
def under (assignment : terms.Assignment) (value : ConcolicValue terms width) : BitVec width :=
  match value.symbolic with
  | some expression => terms.eval assignment expression
  | none => value.concrete

@[simp] theorem under_BVC (assignment : terms.Assignment) (value : BitVec width) :
    (BVC value : ConcolicValue terms width).under assignment = value := rfl

theorem under_of_not_isSymbolic {value : ConcolicValue terms width}
    (plain : value.isSymbolic = false) (assignment : terms.Assignment) :
    value.under assignment = value.concrete := by
  obtain ⟨concrete, symbolic⟩ := value
  cases symbolic with
  | none => rfl
  | some expression => cases plain

/-- The part of two values an operation's symbolic result may depend on: the same
expression, or the same constant. -/
def SameView (first second : ConcolicValue terms width) : Prop :=
  first.symbolic = second.symbolic ∧ (first.symbolic = none → first.concrete = second.concrete)

/-- The second value is the first one evaluated under `assignment`, with the same
expression. -/
structure Replays (assignment : terms.Assignment) (first second : ConcolicValue terms width) :
    Prop where
  symbolic : second.symbolic = first.symbolic
  concrete : second.concrete = first.under assignment

namespace Replays

variable {assignment : terms.Assignment} {first second : ConcolicValue terms width}

/-- Constants are the same in every run. -/
theorem BVC (value : BitVec width) :
    Replays assignment (ConcolicValue.BVC value) (ConcolicValue.BVC value) := ⟨rfl, rfl⟩

theorem isSymbolic (replays : Replays assignment first second) :
    second.isSymbolic = first.isSymbolic := by
  rw [ConcolicValue.isSymbolic, ConcolicValue.isSymbolic, replays.symbolic]

/-- Without a symbolic part the two runs hold the same bits. -/
theorem concrete_eq (replays : Replays assignment first second)
    (plain : first.isSymbolic = false) : second.concrete = first.concrete :=
  replays.concrete.trans (under_of_not_isSymbolic plain assignment)

theorem sameView (replays : Replays assignment first second) : SameView first second := by
  refine ⟨replays.symbolic.symm, fun plain => ?_⟩
  have constant : first.isSymbolic = false := by rw [ConcolicValue.isSymbolic, plain]; rfl
  exact (replays.concrete_eq constant).symm

/-- A replayed value evaluates as the original one. -/
theorem under (replays : Replays assignment first second) :
    second.under assignment = first.under assignment := by
  obtain ⟨symbolic, concrete⟩ := replays
  unfold ConcolicValue.under at concrete ⊢
  rw [symbolic]
  split
  · rfl
  · next plain =>
      rw [plain] at concrete
      exact concrete

end Replays

end ConcolicValue

namespace Clover

open ConcolicValue

variable {terms : Terms} {first second third result : Nat}

/-- An operation on one value computes a function of its bits, on both parts, and its
expression depends only on the operand's expression or constant. -/
structure Computes₁ (operation : ConcolicValue terms first → ConcolicValue terms result)
    (function : BitVec first → BitVec result) : Prop where
  concrete : ∀ value, (operation value).concrete = function value.concrete
  under : ∀ assignment value,
    (operation value).under assignment = function (value.under assignment)
  symbolic : ∀ value value', SameView value value' →
    (operation value').symbolic = (operation value).symbolic

/-- The same for two operands, where the function is only relied upon on the operands in
its domain. -/
structure Computes₂ (defined : BitVec first → BitVec second → Prop)
    (operation : ConcolicValue terms first → ConcolicValue terms second →
      ConcolicValue terms result)
    (function : BitVec first → BitVec second → BitVec result) : Prop where
  concrete : ∀ left right, defined left.concrete right.concrete →
    (operation left right).concrete = function left.concrete right.concrete
  under : ∀ assignment left right, defined (left.under assignment) (right.under assignment) →
    (operation left right).under assignment =
      function (left.under assignment) (right.under assignment)
  symbolic : ∀ left left' right right', SameView left left' → SameView right right' →
    (operation left' right').symbolic = (operation left right).symbolic

/-- The same for three operands. -/
structure Computes₃
    (operation : ConcolicValue terms first → ConcolicValue terms second →
      ConcolicValue terms third → ConcolicValue terms result)
    (function : BitVec first → BitVec second → BitVec third → BitVec result) : Prop where
  concrete : ∀ one two three,
    (operation one two three).concrete = function one.concrete two.concrete three.concrete
  under : ∀ assignment one two three,
    (operation one two three).under assignment =
      function (one.under assignment) (two.under assignment) (three.under assignment)
  symbolic : ∀ one one' two two' three three', SameView one one' → SameView two two' →
    SameView three three' → (operation one' two' three').symbolic =
      (operation one two three).symbolic

theorem Computes₁.replays {operation : ConcolicValue terms first → ConcolicValue terms result}
    {function : BitVec first → BitVec result} (law : Computes₁ operation function)
    {assignment : terms.Assignment} {value value' : ConcolicValue terms first}
    (operand : Replays assignment value value') :
    Replays assignment (operation value) (operation value') where
  symbolic := law.symbolic _ _ operand.sameView
  concrete := by rw [law.concrete, law.under, operand.concrete]

theorem Computes₂.replays {defined : BitVec first → BitVec second → Prop}
    {operation : ConcolicValue terms first → ConcolicValue terms second →
      ConcolicValue terms result}
    {function : BitVec first → BitVec second → BitVec result}
    (law : Computes₂ defined operation function) {assignment : terms.Assignment}
    {left left' : ConcolicValue terms first} {right right' : ConcolicValue terms second}
    (one : Replays assignment left left') (other : Replays assignment right right')
    (domain : defined (left.under assignment) (right.under assignment)) :
    Replays assignment (operation left right) (operation left' right') where
  symbolic := law.symbolic _ _ _ _ one.sameView other.sameView
  concrete := by
    rw [law.concrete _ _ (by rwa [one.concrete, other.concrete]), law.under _ _ _ domain,
      one.concrete, other.concrete]

theorem Computes₃.replays
    {operation : ConcolicValue terms first → ConcolicValue terms second →
      ConcolicValue terms third → ConcolicValue terms result}
    {function : BitVec first → BitVec second → BitVec third → BitVec result}
    (law : Computes₃ operation function) {assignment : terms.Assignment}
    {one one' : ConcolicValue terms first} {two two' : ConcolicValue terms second}
    {three three' : ConcolicValue terms third} (head : Replays assignment one one')
    (middle : Replays assignment two two') (last : Replays assignment three three') :
    Replays assignment (operation one two three) (operation one' two' three') where
  symbolic := law.symbolic _ _ _ _ _ _ head.sameView middle.sameView last.sameView
  concrete := by rw [law.concrete, law.under, head.concrete, middle.concrete, last.concrete]

/-- One byte of a memory. -/
def byte (clover : Clover) (memory : clover.Memory) (address : Nat) :
    ConcolicValue clover.terms 8 := clover.load memory address 1

/-- `ExecutionContext::getSymbolicBytes`: a fresh input, whose concrete part is what the
assignment of this run gives it. -/
def getSymbolicBytes (clover : Clover) (assignment : clover.terms.Assignment) (name : String)
    (bytes : Nat) : ConcolicValue clover.terms (8 * bytes) :=
  ⟨clover.terms.eval assignment (clover.symbolicBytes name bytes),
    some (clover.symbolicBytes name bytes)⟩

/-- `ExecutionContext::getSymbolicWord`. -/
def getSymbolicWord (clover : Clover) (assignment : clover.terms.Assignment) (name : String) :
    ConcolicValue clover.terms 32 :=
  ⟨clover.terms.eval assignment (clover.symbolicWord name), some (clover.symbolicWord name)⟩

/-- A symbolic input under another assignment is the input that assignment gives. -/
theorem getSymbolicBytes_replays (clover : Clover) (one other : clover.terms.Assignment)
    (name : String) (bytes : Nat) :
    Replays other (clover.getSymbolicBytes one name bytes)
      (clover.getSymbolicBytes other name bytes) := ⟨rfl, rfl⟩

theorem getSymbolicWord_replays (clover : Clover) (one other : clover.terms.Assignment)
    (name : String) :
    Replays other (clover.getSymbolicWord one name) (clover.getSymbolicWord other name) :=
  ⟨rfl, rfl⟩

/-- Byte `index` of a word, counted from the least significant one. -/
def byteOf {width : Nat} (index : Nat) (word : BitVec width) : BitVec 8 :=
  word.extractLsb' (8 * index) 8

/-- A word is determined by its bytes. -/
theorem eq_of_byteOf_eq {bytes : Nat} {first second : BitVec (8 * bytes)}
    (same : ∀ index < bytes, byteOf index first = byteOf index second) : first = second := by
  apply BitVec.eq_of_getLsbD_eq
  intro index inside
  have bits := congrArg (·.getLsbD (index % 8)) (same (index / 8) (by omega))
  simpa [byteOf, Nat.mod_lt index (by norm_num : 8 > 0), Nat.div_add_mod] using bits

/-- The number a byte sequence stands for, the first byte least significant. -/
def littleEndian : List (BitVec 8) → Nat
  | [] => 0
  | first :: rest => 2 ^ 8 * littleEndian rest + first.toNat

theorem littleEndian_lt (bytes : List (BitVec 8)) :
    littleEndian bytes < 2 ^ (8 * bytes.length) := by
  induction bytes with
  | nil => decide
  | cons first rest bound =>
      have byte := first.isLt
      rw [littleEndian, List.length_cons, Nat.mul_succ, Nat.pow_add]
      nlinarith

theorem testBit_littleEndian (bytes : List (BitVec 8)) (index bit : Nat)
    (inside : index < bytes.length) (low : bit < 8) :
    (littleEndian bytes).testBit (8 * index + bit) = bytes[index].getLsbD bit := by
  induction bytes generalizing index with
  | nil => simp at inside
  | cons first rest inductionHypothesis =>
      rw [littleEndian, Nat.testBit_two_pow_mul_add _ first.isLt]
      cases index with
      | zero =>
          rw [if_pos (by omega), Nat.mul_zero, Nat.zero_add]
          rfl
      | succ index =>
          rw [if_neg (by omega), show 8 * (index + 1) + bit - 8 = 8 * index + bit by omega]
          exact inductionHypothesis index (by simpa using inside)

/-- Each byte can be read back from the word put together from them. -/
theorem byteOf_littleEndian {width : Nat} (bytes : List (BitVec 8)) (index : Nat)
    (inside : index < bytes.length) (fits : 8 * bytes.length ≤ width) :
    byteOf index (BitVec.ofNat width (littleEndian bytes)) = bytes[index] := by
  apply BitVec.eq_of_getLsbD_eq
  intro bit low
  rw [byteOf, BitVec.getLsbD_extractLsb', BitVec.getLsbD_ofNat,
    testBit_littleEndian bytes index bit inside low]
  simp only [low, decide_true, Bool.true_and, show 8 * index + bit < width by omega]

/-- The documented behaviour of the library. -/
structure Lawful (clover : Clover) : Prop where
  binary : ∀ (operation : BinaryOp) (width : Nat),
    Computes₂ operation.Defined (@Clover.binary clover width operation) operation.apply
  compare : ∀ (operation : CompareOp) (width : Nat),
    Computes₂ (fun _ _ => True) (@Clover.compare clover width operation) operation.apply
  select : ∀ width : Nat,
    Computes₃ (@Clover.select clover width) fun condition one other =>
      if condition = 1#1 then one else other
  sext : ∀ width target : Nat, Computes₁ (@Clover.sext clover width target) (·.signExtend target)
  zext : ∀ width target : Nat, Computes₁ (@Clover.zext clover width target) (·.setWidth target)
  extract : ∀ width offset target : Nat,
    Computes₁ (@Clover.extract clover width offset target) (·.extractLsb' offset target)
  concat : ∀ high low : Nat,
    Computes₂ (fun _ _ => True) (@Clover.concat clover high low) (· ++ ·)
  /-- A load puts the bytes together, the lowest address least significant. -/
  load_concrete : ∀ memory address bytes index, index < bytes →
    byteOf index (clover.load memory address bytes).concrete =
      (clover.byte memory (address + index)).concrete
  load_under : ∀ memory address bytes index assignment, index < bytes →
    byteOf index ((clover.load memory address bytes).under assignment) =
      (clover.byte memory (address + index)).under assignment
  load_symbolic : ∀ memory memory' address bytes,
    (∀ index < bytes, SameView (clover.byte memory (address + index))
      (clover.byte memory' (address + index))) →
    (clover.load memory' address bytes).symbolic = (clover.load memory address bytes).symbolic
  /-- A store replaces exactly the given number of bytes by the low bytes of the value. -/
  store_inside : ∀ memory address (width : Nat) (value : ConcolicValue clover.terms width) bytes
    index, 8 * bytes ≤ width → index < bytes →
    (clover.byte (clover.store memory address value bytes) (address + index)).concrete =
      byteOf index value.concrete
  store_under : ∀ memory address (width : Nat) (value : ConcolicValue clover.terms width) bytes
    index assignment, 8 * bytes ≤ width → index < bytes →
    (clover.byte (clover.store memory address value bytes) (address + index)).under assignment =
      byteOf index (value.under assignment)
  store_symbolic : ∀ memory memory' address (width : Nat)
    (value value' : ConcolicValue clover.terms width) bytes index,
    SameView value value' → 8 * bytes ≤ width → index < bytes →
    (clover.byte (clover.store memory' address value' bytes) (address + index)).symbolic =
      (clover.byte (clover.store memory address value bytes) (address + index)).symbolic
  store_outside : ∀ memory address (width : Nat) (value : ConcolicValue clover.terms width) bytes
    other, other < address ∨ address + bytes ≤ other →
    clover.byte (clover.store memory address value bytes) other = clover.byte memory other

/-! ## Memories of two runs -/

/-- Every byte of the second memory replays the byte of the first one. -/
def MemoryReplays (clover : Clover) (assignment : clover.terms.Assignment)
    (first second : clover.Memory) : Prop :=
  ∀ address, Replays assignment (clover.byte first address) (clover.byte second address)

namespace Lawful

variable {clover : Clover} {assignment : clover.terms.Assignment} {memory memory' : clover.Memory}

theorem load_replays (lawful : clover.Lawful)
    (replays : clover.MemoryReplays assignment memory memory') (address bytes : Nat) :
    Replays assignment (clover.load memory address bytes) (clover.load memory' address bytes) where
  symbolic := lawful.load_symbolic _ _ _ _ fun index _ => (replays (address + index)).sameView
  concrete := by
    refine eq_of_byteOf_eq fun index inside => ?_
    rw [lawful.load_concrete _ _ _ _ inside, lawful.load_under _ _ _ _ _ inside,
      (replays (address + index)).concrete]

theorem store_replays (lawful : clover.Lawful)
    (replays : clover.MemoryReplays assignment memory memory') (address : Nat) {width : Nat}
    {value value' : ConcolicValue clover.terms width} (data : Replays assignment value value')
    {bytes : Nat} (fits : 8 * bytes ≤ width) :
    clover.MemoryReplays assignment (clover.store memory address value bytes)
      (clover.store memory' address value' bytes) := by
  intro other
  by_cases outside : other < address ∨ address + bytes ≤ other
  · rw [lawful.store_outside _ _ _ _ _ _ outside, lawful.store_outside _ _ _ _ _ _ outside]
    exact replays other
  · obtain ⟨index, rfl⟩ : ∃ index, other = address + index := ⟨other - address, by omega⟩
    have inside : index < bytes := by omega
    constructor
    · exact lawful.store_symbolic _ _ _ _ _ _ _ _ data.sameView fits inside
    · rw [lawful.store_inside _ _ _ _ _ _ fits inside,
        lawful.store_under _ _ _ _ _ _ _ fits inside, data.concrete]

end Lawful

/-! ## A reference implementation

Expressions are functions of the assignment and a memory is a map from addresses to
byte values. It shows that the laws can be met and lets concrete programs be run. -/

namespace Reference

/-- Assignments give every variable name a number; expressions are what they mean. -/
def denotations : Terms where
  Assignment := String → Nat
  Expr width := (String → Nat) → BitVec width
  eval assignment expression := expression assignment

/-- Two values that look the same to an operation evaluate the same. -/
theorem under_congr {width : Nat} {value value' : ConcolicValue denotations width}
    (same : SameView value value') (assignment : denotations.Assignment) :
    value'.under assignment = value.under assignment := by
  obtain ⟨symbolic, constant⟩ := same
  unfold ConcolicValue.under
  rw [← symbolic]
  split
  · rfl
  · next plain => exact (constant plain).symm

/-- Compute a function of some operands: without symbolic operands the result is constant,
else its expression evaluates the operands. -/
def lift {width : Nat} (plain : Bool) (concrete : BitVec width)
    (expression : denotations.Assignment → BitVec width) : ConcolicValue denotations width :=
  ⟨concrete, if plain then none else some expression⟩

theorem lift_under {width : Nat} {plain : Bool} {concrete : BitVec width}
    {expression : denotations.Assignment → BitVec width} (assignment : denotations.Assignment)
    (constant : plain = true → expression assignment = concrete) :
    (lift plain concrete expression).under assignment = expression assignment := by
  cases plain with
  | true => exact (constant rfl).symm
  | false => rfl

/-- Whether a value has no symbolic part. -/
def plain {width : Nat} (value : ConcolicValue denotations width) : Bool := value.symbolic.isNone

theorem under_of_plain {width : Nat} {value : ConcolicValue denotations width}
    (constant : plain value = true) (assignment : denotations.Assignment) :
    value.under assignment = value.concrete := by
  refine under_of_not_isSymbolic ?_ assignment
  rw [plain, Option.isNone_iff_eq_none] at constant
  rw [isSymbolic, constant]
  rfl

theorem plain_congr {width : Nat} {value value' : ConcolicValue denotations width}
    (same : SameView value value') : plain value' = plain value := by
  rw [plain, plain, same.1]

def lift₁ (function : BitVec first → BitVec result) (value : ConcolicValue denotations first) :
    ConcolicValue denotations result :=
  lift (plain value) (function value.concrete) fun assignment =>
    function (value.under assignment)

def lift₂ (function : BitVec first → BitVec second → BitVec result)
    (left : ConcolicValue denotations first) (right : ConcolicValue denotations second) :
    ConcolicValue denotations result :=
  lift (plain left && plain right) (function left.concrete right.concrete) fun assignment =>
    function (left.under assignment) (right.under assignment)

def lift₃ (function : BitVec first → BitVec second → BitVec third → BitVec result)
    (one : ConcolicValue denotations first) (two : ConcolicValue denotations second)
    (three : ConcolicValue denotations third) : ConcolicValue denotations result :=
  lift (plain one && plain two && plain three)
    (function one.concrete two.concrete three.concrete) fun assignment =>
    function (one.under assignment) (two.under assignment) (three.under assignment)

theorem computes_lift₁ (function : BitVec first → BitVec result) :
    Computes₁ (lift₁ function) function where
  concrete _ := rfl
  under assignment value :=
    lift_under assignment fun constant => by rw [under_of_plain constant]
  symbolic value value' same := by
    simp only [lift₁, lift, plain_congr same, under_congr same]

theorem sameView_lift₁ (function : BitVec first → BitVec result)
    {value value' : ConcolicValue denotations first} (same : SameView value value') :
    SameView (lift₁ function value) (lift₁ function value') := by
  refine ⟨((computes_lift₁ function).symbolic _ _ same).symm, fun constant => ?_⟩
  have plain : value.symbolic = none := by
    cases symbolic : value.symbolic with
    | none => rfl
    | some expression => simp [lift₁, lift, Reference.plain, symbolic] at constant
  exact congrArg function (same.2 plain)

theorem computes_lift₂ (defined : BitVec first → BitVec second → Prop)
    (function : BitVec first → BitVec second → BitVec result) :
    Computes₂ defined (lift₂ function) function where
  concrete _ _ _ := rfl
  under assignment left right _ := lift_under assignment fun constant => by
    obtain ⟨one, other⟩ := (Bool.and_eq_true _ _).mp constant
    rw [under_of_plain one, under_of_plain other]
  symbolic left left' right right' one other := by
    simp only [lift₂, lift, plain_congr one, plain_congr other, under_congr one,
      under_congr other]

theorem computes_lift₃ (function : BitVec first → BitVec second → BitVec third → BitVec result) :
    Computes₃ (lift₃ function) function where
  concrete _ _ _ := rfl
  under assignment one two three := lift_under assignment fun constant => by
    obtain ⟨both, last⟩ := (Bool.and_eq_true _ _).mp constant
    obtain ⟨head, middle⟩ := (Bool.and_eq_true _ _).mp both
    rw [under_of_plain head, under_of_plain middle, under_of_plain last]
  symbolic one one' two two' three three' head middle last := by
    simp only [lift₃, lift, plain_congr head, plain_congr middle, plain_congr last,
      under_congr head, under_congr middle, under_congr last]

/-- A memory gives every address a byte value. -/
def Memory : Type := Nat → ConcolicValue denotations 8

def load (memory : Memory) (address bytes : Nat) : ConcolicValue denotations (8 * bytes) :=
  let cells := (List.range bytes).map fun index => memory (address + index)
  lift (cells.all plain) (BitVec.ofNat _ (littleEndian (cells.map (·.concrete))))
    fun assignment => BitVec.ofNat _ (littleEndian (cells.map (·.under assignment)))

def store {width : Nat} (memory : Memory) (address : Nat) (value : ConcolicValue denotations width)
    (bytes : Nat) : Memory := fun other =>
  if address ≤ other ∧ other < address + bytes then lift₁ (byteOf (other - address)) value
  else memory other

theorem byteOf_zero (value : BitVec 8) : byteOf 0 value = value := by
  simp [byteOf]

theorem byteOf_load (memory : Memory) (address bytes index : Nat) (inside : index < bytes) :
    byteOf index (load memory address bytes).concrete = (memory (address + index)).concrete := by
  simp only [load, lift]
  rw [byteOf_littleEndian _ index (by simpa using inside) (by simp)]
  simp

theorem load_under_eq (memory : Memory) (address bytes : Nat)
    (assignment : denotations.Assignment) :
    (load memory address bytes).under assignment = BitVec.ofNat _ (littleEndian
      (((List.range bytes).map fun index => memory (address + index)).map
        (·.under assignment))) := by
  refine lift_under assignment fun constant => ?_
  congr 2
  refine List.map_congr_left fun value member => ?_
  exact under_of_plain (List.all_eq_true.mp constant value member) assignment

theorem byteOf_load_under (memory : Memory) (address bytes index : Nat)
    (assignment : denotations.Assignment) (inside : index < bytes) :
    byteOf index ((load memory address bytes).under assignment) =
      (memory (address + index)).under assignment := by
  rw [load_under_eq, byteOf_littleEndian _ index (by simpa using inside) (by simp)]
  simp

theorem byte_concrete (memory : Memory) (address : Nat) :
    (load memory address 1).concrete = (memory address).concrete := by
  rw [← byteOf_zero (load memory address 1).concrete]
  exact byteOf_load memory address 1 0 Nat.zero_lt_one

theorem byte_under (memory : Memory) (address : Nat) (assignment : denotations.Assignment) :
    (load memory address 1).under assignment = (memory address).under assignment := by
  rw [← byteOf_zero ((load memory address 1).under assignment)]
  exact byteOf_load_under memory address 1 0 assignment Nat.zero_lt_one

theorem plain_byte (memory : Memory) (address : Nat) :
    plain (load memory address 1) = plain (memory address) := by
  have cells : ((List.range 1).map fun index => memory (address + index)) = [memory address] := rfl
  simp only [load, lift, cells, List.all_cons, List.all_nil, Bool.and_true]
  cases plain (memory address) <;> rfl

theorem load_symbolic (memory memory' : Memory) (address bytes : Nat)
    (same : ∀ index < bytes, SameView (load memory (address + index) 1)
      (load memory' (address + index) 1)) :
    (load memory' address bytes).symbolic = (load memory address bytes).symbolic := by
  have plains : ∀ index < bytes,
      plain (memory' (address + index)) = plain (memory (address + index)) := by
    intro index inside
    rw [← plain_byte memory', ← plain_byte memory]
    exact plain_congr (same index inside)
  have values : ∀ index < bytes, ∀ assignment, (memory' (address + index)).under assignment =
      (memory (address + index)).under assignment := by
    intro index inside assignment
    rw [← byte_under memory', ← byte_under memory]
    exact under_congr (same index inside) assignment
  have constant : (((List.range bytes).map fun index => memory' (address + index)).all plain) =
      ((List.range bytes).map fun index => memory (address + index)).all plain := by
    rw [Bool.eq_iff_iff]
    simp only [List.all_map, List.all_eq_true, List.mem_range, Function.comp_apply]
    exact forall₂_congr fun index inside => by rw [plains index inside]
  have expression : ∀ assignment,
      ((List.range bytes).map fun index => memory' (address + index)).map (under assignment) =
        ((List.range bytes).map fun index => memory (address + index)).map
          (under assignment) := by
    intro assignment
    rw [List.map_map, List.map_map]
    exact List.map_congr_left fun index member =>
      values index (List.mem_range.mp member) assignment
  simp only [load, lift, constant, expression]

theorem store_inside {width : Nat} (memory : Memory) (address : Nat)
    (value : ConcolicValue denotations width) (bytes index : Nat) (inside : index < bytes) :
    store memory address value bytes (address + index) = lift₁ (byteOf index) value := by
  rw [store, if_pos ⟨by omega, by omega⟩, Nat.add_sub_cancel_left]

theorem store_symbolic {width : Nat} (memory memory' : Memory) (address : Nat)
    (value value' : ConcolicValue denotations width) (bytes index : Nat)
    (same : SameView value value') (inside : index < bytes) :
    (load (store memory' address value' bytes) (address + index) 1).symbolic =
      (load (store memory address value bytes) (address + index) 1).symbolic := by
  have cells : ∀ (memory : Memory) (address : Nat),
      ((List.range 1).map fun index => memory (address + index)) = [memory address] :=
    fun _ _ => rfl
  have stored := sameView_lift₁ (byteOf index) same
  simp only [load, lift, cells, store_inside _ _ _ _ _ inside, List.map_cons, List.map_nil,
    List.all_cons, List.all_nil, plain_congr stored, under_congr stored]

theorem store_outside {width : Nat} (memory : Memory) (address : Nat)
    (value : ConcolicValue denotations width) (bytes other : Nat)
    (outside : other < address ∨ address + bytes ≤ other) :
    load (store memory address value bytes) other 1 = load memory other 1 := by
  have kept : store memory address value bytes (other + 0) = memory (other + 0) := by
    rw [store, if_neg (by omega)]
  simp only [load, List.range_one, List.map_cons, List.map_nil, kept]

end Reference

/-- The reference implementation. -/
def reference : Clover where
  terms := Reference.denotations
  binary operation := Reference.lift₂ operation.apply
  compare operation := Reference.lift₂ operation.apply
  select := Reference.lift₃ fun condition one other => if condition = 1#1 then one else other
  sext target := Reference.lift₁ (·.signExtend target)
  zext target := Reference.lift₁ (·.setWidth target)
  extract offset target := Reference.lift₁ (·.extractLsb' offset target)
  concat := Reference.lift₂ (· ++ ·)
  Memory := Reference.Memory
  load := Reference.load
  store := Reference.store
  symbolicBytes name bytes := fun assignment => BitVec.ofNat (8 * bytes) (assignment name)
  symbolicWord name := fun assignment => BitVec.ofNat 32 (assignment name)

/-- The reference implementation meets the laws. -/
theorem reference_lawful : reference.Lawful where
  binary operation _ := Reference.computes_lift₂ operation.Defined operation.apply
  compare operation _ := Reference.computes_lift₂ _ operation.apply
  select _ := Reference.computes_lift₃ fun condition one other =>
    if condition = 1#1 then one else other
  sext _ target := Reference.computes_lift₁ (·.signExtend target)
  zext _ target := Reference.computes_lift₁ (·.setWidth target)
  extract _ offset target := Reference.computes_lift₁ (·.extractLsb' offset target)
  concat _ _ := Reference.computes_lift₂ _ (· ++ ·)
  load_concrete memory address bytes index inside :=
    (Reference.byteOf_load memory address bytes index inside).trans
      (Reference.byte_concrete _ _).symm
  load_under memory address bytes index assignment inside :=
    (Reference.byteOf_load_under memory address bytes index assignment inside).trans
      (Reference.byte_under _ _ _).symm
  load_symbolic := Reference.load_symbolic
  store_inside memory address _ value bytes index _ inside := by
    refine (Reference.byte_concrete _ _).trans ?_
    exact congrArg _ (Reference.store_inside memory address value bytes index inside)
  store_under memory address _ value bytes index assignment _ inside := by
    refine (Reference.byte_under _ _ _).trans ?_
    refine (congrArg _ (Reference.store_inside memory address value bytes index inside)).trans ?_
    exact (Reference.computes_lift₁ (byteOf index)).under assignment value
  store_symbolic memory memory' address _ value value' bytes index same _ inside :=
    Reference.store_symbolic memory memory' address value value' bytes index same inside
  store_outside memory address _ value bytes other outside :=
    Reference.store_outside memory address value bytes other outside

end Clover

end SymexVP
