import Mathlib.Data.BitVec
import SymexVP.BitStrings
import SymexVP.SymbolicFormat

/-!
# The fields of the input format

What `get_values` hands out for a list of fields, and what `get_bytes` makes of it. A field
denotes a bit string of its size: the low bits of its bytes, the first one most significant,
or those of the symbolic variable of its name. The bytes handed out, put in a row, are the
fields in a row.
-/

namespace SymexVP.SymbolicFormat

open Exec

variable {clover : Clover}

/-- A name, a size in bits, and the list of the bytes. -/
structure Field where
  name : String
  size : BitVec 64
  list : List Bencode

def Field.encoded (field : Field) : Bencode :=
  .list [.string field.name, .integer field.size, .list field.list]

/-- The size in bytes, rounded up. -/
def Field.byteSize (field : Field) : Nat := (field.size.toNat + 7) / 8

def Bencode.IsByte (elem : Bencode) : Prop :=
  ∃ value : BitVec 64, elem = .integer value ∧ 0 ≤ value.toInt ∧ value.toInt ≤ 255

/-- The list is empty, or gives as many bytes as the size asks for. -/
def Field.Acceptable (field : Field) : Prop :=
  field.list = [] ∨ field.list.length = field.byteSize ∧ ∀ elem ∈ field.list, Bencode.IsByte elem

/-- The byte an element stands for. -/
def byteElement : Bencode → Option (BitVec 8)
  | .integer value => some (value.setWidth 8)
  | _ => none

def Field.bytes (field : Field) : List (BitVec 8) := field.list.filterMap byteElement

/-- The low bits of the bytes in a row, or of the variable of the field's name. -/
def Field.denoted (clover : Clover) (assignment : clover.terms.Assignment) (field : Field) :
    BitString :=
  if field.list = [] then
    ⟨field.size.toNat, (clover.terms.eval assignment
      (clover.symbolicBytes field.name field.byteSize)).setWidth field.size.toNat⟩
  else
    ⟨field.size.toNat, (BitString.joined (field.bytes.map (BitString.mk 8))).bits.setWidth
      field.size.toNat⟩

theorem width_denoted (assignment : clover.terms.Assignment) (field : Field) :
    (field.denoted clover assignment).width = field.size.toNat := by
  unfold Field.denoted
  split_ifs <;> rfl

/-- The bits seen of a value: its concrete part, or what it is under an assignment. -/
def seen (see : ∀ width, ConcolicValue clover.terms width → BitVec width)
    (value : Concolic clover.terms) : BitString :=
  ⟨value.width, see value.width value.value⟩

def current (clover : Clover) (width : Nat) (value : ConcolicValue clover.terms width) :
    BitVec width := value.concrete

def under (clover : Clover) (assignment : clover.terms.Assignment) (width : Nat)
    (value : ConcolicValue clover.terms width) : BitVec width :=
  value.under assignment

/-- The value `get_value` hands out. -/
def Field.value (clover : Clover) (input : clover.terms.Assignment) (field : Field) :
    Concolic clover.terms :=
  unpadded field.size
    (if field.list = [] then
      ⟨_, clover.getSymbolicBytes input field.name (toByteSize field.size)⟩
    else Concolic.ofBytes field.bytes.reverse)

theorem length_bytes {field : Field} (all : ∀ elem ∈ field.list, Bencode.IsByte elem) :
    field.bytes.length = field.list.length := by
  refine List.filterMap_length_eq_length.mpr ?_
  intro elem member
  obtain ⟨value, rfl, -⟩ := all elem member
  rfl

/-! ## Parsing -/

/-- The bytes are read exactly if every element is a byte. -/
theorem concreteBytes_eq_iff (list : List Bencode) (bytes : List (BitVec 8)) :
    concreteBytes list = .ok (some bytes) ↔
      (∀ elem ∈ list, Bencode.IsByte elem) ∧ bytes = list.filterMap byteElement := by
  induction list generalizing bytes with
  | nil => simp [concreteBytes, eq_comm]
  | cons elem rest inductionHypothesis =>
      cases elem with
      | integer value =>
          rw [concreteBytes]
          by_cases outside : value.toInt < 0 ∨ 255 < value.toInt
          · rw [if_pos outside]
            constructor
            · nofun
            · rintro ⟨all, -⟩
              obtain ⟨same, equal, low, high⟩ := all _ List.mem_cons_self
              cases equal
              omega
          · rw [if_neg outside]
            have inside : Bencode.IsByte (.integer value) := ⟨value, rfl, by omega, by omega⟩
            by_cases all : ∀ elem ∈ rest, Bencode.IsByte elem
            · rw [(inductionHypothesis _).mpr ⟨all, rfl⟩]
              simp only [Except.map, Option.map_some, Except.ok.injEq, Option.some.injEq,
                List.forall_mem_cons, List.filterMap_cons, byteElement, eq_comm (b := bytes)]
              exact ⟨fun same => ⟨⟨inside, all⟩, same⟩, fun ⟨_, same⟩ => same⟩
            · constructor
              · cases read : concreteBytes rest with
                | error fault => nofun
                | ok found =>
                    cases found with
                    | none => nofun
                    | some found => exact absurd ((inductionHypothesis _).mp read).1 all
              · exact fun ⟨every, _⟩ =>
                  absurd (fun elem member => every elem (List.mem_cons_of_mem _ member)) all
      | string text | list elements | dict entries =>
          constructor
          · nofun
          · rintro ⟨all, -⟩
            obtain ⟨value, equal, -⟩ := all _ List.mem_cons_self
            cases equal

/-- `to_byte_size` rounds up, for every size but those next to the largest. -/
theorem toByteSize_eq {size : BitVec 64} (positive : 1 ≤ size.toInt) :
    toByteSize size = (size.toNat + 7) / 8 := by
  have bound : size.toNat < 2 ^ 63 := by
    rw [BitVec.toInt_eq_toNat_cond] at positive
    split at positive <;> omega
  have rem : (size % 8).toNat = size.toNat % 8 := BitVec.toNat_umod
  have div : (size / 8).toNat = size.toNat / 8 := BitVec.toNat_udiv
  unfold toByteSize
  dsimp only
  split_ifs with whole
  · rw [whole] at rem
    have zero : size.toNat % 8 = 0 := rem.symm
    rw [div]
    omega
  · have nonzero : size.toNat % 8 ≠ 0 := by
      intro zero
      exact whole (BitVec.eq_of_toNat_eq (rem.trans zero))
    have down : (size - size % 8).toNat = size.toNat - size.toNat % 8 := by
      rw [BitVec.toNat_sub_of_le, rem]
      rw [BitVec.le_def, rem]
      exact Nat.mod_le _ _
    have up : (size - size % 8 + 8).toNat = size.toNat - size.toNat % 8 + 8 := by
      rw [BitVec.toNat_add, down]
      exact Nat.mod_eq_of_lt (by simp; omega)
    rw [BitVec.toNat_udiv, up]
    simp
    omega

/-- An acceptable field is added to the values. -/
theorem parseField_acceptable (input : clover.terms.Assignment) {field : Field}
    (positive : 1 ≤ field.size.toInt) (acceptable : field.Acceptable)
    (format : SymbolicFormat clover.terms) :
    ∃ log, Returns (parseField input field.encoded) format ()
      { format with values := format.values ++ [field.value clover input] } log := by
  by_cases empty : field.list = []
  · refine ⟨[.injected (.field field.name)], ?_⟩
    simp [Returns, parseField, Field.encoded, getValue, empty, concreteBytes, Field.value]
  · obtain ⟨count, all⟩ := acceptable.resolve_left empty
    have read := (concreteBytes_eq_iff field.list field.bytes).mpr ⟨all, rfl⟩
    have whole : field.bytes.length = toByteSize field.size := by
      rw [toByteSize_eq positive, length_bytes all, count]
      rfl
    refine ⟨[], ?_⟩
    simp [Returns, parseField, Field.encoded, getValue, read, whole, Field.value, empty]

/-- A field is added to the values only if it is acceptable. -/
theorem acceptable_of_returns {input : clover.terms.Assignment} {field : Field}
    (positive : 1 ≤ field.size.toInt) {format after : SymbolicFormat clover.terms}
    {log : List (Event clover.terms)}
    (returned : Returns (parseField input field.encoded) format () after log) :
    field.Acceptable := by
  by_cases empty : field.list = []
  · exact .inl empty
  · right
    obtain ⟨value, _, _, _, got, rest, -⟩ := returns_bind_iff.mp returned
    cases value with
    | none => exact (returns_throw_iff.mp rest).elim
    | some value =>
        unfold getValue at got
        dsimp only at got
        cases read : concreteBytes field.list with
        | error fault =>
            rw [read] at got
            exact (returns_throw_iff.mp got).elim
        | ok found =>
            rw [read] at got
            cases found with
            | none =>
                obtain ⟨impossible, -⟩ := returns_pure_iff.mp got
                cases impossible
            | some bytes =>
                obtain ⟨all, same⟩ := (concreteBytes_eq_iff _ _).mp read
                have isEmpty : field.list.isEmpty = false := by simpa using empty
                rw [isEmpty] at got
                by_cases count : bytes.length ≠ toByteSize field.size
                · simp [count, Returns] at got
                · have whole : bytes.length = field.byteSize := by
                    rw [toByteSize_eq positive, not_not] at count
                    exact count
                  refine ⟨?_, all⟩
                  rw [← whole, same]
                  exact (length_bytes all).symm

theorem parseFields_acceptable (input : clover.terms.Assignment) (fields : List Field)
    (positive : ∀ field ∈ fields, 1 ≤ field.size.toInt)
    (acceptable : ∀ field ∈ fields, field.Acceptable) (format : SymbolicFormat clover.terms) :
    ∃ log, Returns (parseFields input (fields.map Field.encoded)) format ()
      { format with values := format.values ++ fields.map (Field.value clover input) } log := by
  induction fields generalizing format with
  | nil => exact ⟨[], by simp [Returns, parseFields]⟩
  | cons field rest inductionHypothesis =>
      obtain ⟨positive, others⟩ := List.forall_mem_cons.mp positive
      obtain ⟨acceptable, further⟩ := List.forall_mem_cons.mp acceptable
      obtain ⟨first, added⟩ := parseField_acceptable input positive acceptable format
      obtain ⟨log, parsed⟩ := inductionHypothesis others further
        { format with values := format.values ++ [field.value clover input] }
      refine ⟨first ++ log, returns_bind_iff.mpr ⟨(), _, first, log, added, ?_, rfl⟩⟩
      simpa only [List.append_assoc, List.singleton_append, List.map_cons] using parsed

theorem acceptable_of_parseFields {input : clover.terms.Assignment} {fields : List Field}
    (positive : ∀ field ∈ fields, 1 ≤ field.size.toInt)
    {format after : SymbolicFormat clover.terms} {log : List (Event clover.terms)}
    (returned : Returns (parseFields input (fields.map Field.encoded)) format () after log) :
    ∀ field ∈ fields, field.Acceptable := by
  induction fields generalizing format log with
  | nil => nofun
  | cons field rest inductionHypothesis =>
      obtain ⟨one, others⟩ := List.forall_mem_cons.mp positive
      obtain ⟨_, _, _, _, first, further, -⟩ := returns_bind_iff.mp returned
      exact List.forall_mem_cons.mpr
        ⟨acceptable_of_returns one first, inductionHypothesis others further⟩

/-- A file that holds the fields. -/
def ofFields (clover : Clover) (fields : List Field) : SymbolicFormat clover.terms :=
  decoded (.list (fields.map Field.encoded))

/-- The format after the fields have been gone through. -/
def parsedFields (clover : Clover) (input : clover.terms.Assignment) (fields : List Field) :
    SymbolicFormat clover.terms :=
  ⟨.list (fields.map Field.encoded), true, fields.map (Field.value clover input)⟩

theorem getValues_acceptable (clover : Clover) (input : clover.terms.Assignment)
    {fields : List Field} (positive : ∀ field ∈ fields, 1 ≤ field.size.toInt)
    (acceptable : ∀ field ∈ fields, field.Acceptable) :
    ∃ log, Returns (getValues input) (ofFields clover fields)
      (fields.map (Field.value clover input)) (parsedFields clover input fields) log := by
  obtain ⟨log, parsed⟩ := parseFields_acceptable input fields positive acceptable
    (ofFields clover fields)
  refine ⟨log, ?_⟩
  unfold Returns at parsed ⊢
  simp only [getValues, bind_run, get_run, Outcome.andThen_ok, ofFields, decoded] at parsed ⊢
  simp [parsed, parsedFields]

theorem acceptable_of_getValues {input : clover.terms.Assignment} {fields : List Field}
    (positive : ∀ field ∈ fields, 1 ≤ field.size.toInt) {values : List (Concolic clover.terms)}
    {after : SymbolicFormat clover.terms} {log : List (Event clover.terms)}
    (returned : Returns (getValues input) (ofFields clover fields) values after log) :
    ∀ field ∈ fields, field.Acceptable := by
  obtain ⟨_, _, _, _, got, rest, -⟩ := returns_bind_iff.mp returned
  obtain ⟨rfl, rfl, -⟩ := returns_get_iff.mp got
  obtain ⟨_, _, _, _, parsed, -, -⟩ := returns_bind_iff.mp rest
  exact acceptable_of_parseFields positive parsed

/-- A format that has been gone through keeps its values. -/
theorem getValues_parsed (input : clover.terms.Assignment) (fields : List Field) :
    Returns (getValues input) (parsedFields clover input fields)
      (fields.map (Field.value clover input))
      (parsedFields clover input fields) [] := rfl

/-! ## What the values denote -/

/-- A buffer taken in the other order is its bytes in a row. -/
theorem toNat_joined_bytes (bytes : List (BitVec 8)) :
    (BitString.joined (bytes.map (BitString.mk 8))).bits.toNat =
      Clover.littleEndian bytes.reverse := by
  induction bytes using List.reverseRecOn with
  | nil => rfl
  | append_singleton bytes last inductionHypothesis =>
      rw [List.map_append, List.map_singleton, BitString.joined_concat, BitString.toNat_append,
        inductionHypothesis, List.reverse_concat]
      rfl

theorem width_unpadded {size : BitVec 64} (positive : 1 ≤ size.toInt)
    {value : Concolic clover.terms} (wide : value.width = 8 * toByteSize size) :
    (unpadded size value).width = size.toNat := by
  unfold unpadded
  split_ifs with padded
  · rfl
  · have whole : size % 8 = 0 := by simpa [hasPadding] using padded
    have rem := congrArg BitVec.toNat whole
    rw [BitVec.toNat_umod] at rem
    have divides : size.toNat % 8 = 0 := rem
    rw [wide, toByteSize_eq positive]
    omega

/-- The library's operations on what is seen of their operands. -/
structure Faithful (see : ∀ width, ConcolicValue clover.terms width → BitVec width) : Prop where
  constant : ∀ width (value : BitVec width), see width (.BVC value) = value
  extract : ∀ width offset target (value : ConcolicValue clover.terms width),
    see target (clover.extract offset target value) = (see width value).extractLsb' offset target
  concat : ∀ high low (first : ConcolicValue clover.terms high)
    (second : ConcolicValue clover.terms low),
    see (high + low) (clover.concat first second) = see high first ++ see low second

theorem faithful_current (lawful : clover.Lawful) : Faithful (current clover) where
  constant _ _ := rfl
  extract width offset target := (lawful.extract width offset target).concrete
  concat high low first second := (lawful.concat high low).concrete first second trivial

theorem faithful_under (lawful : clover.Lawful) (assignment : clover.terms.Assignment) :
    Faithful (under clover assignment) where
  constant _ _ := rfl
  extract width offset target := (lawful.extract width offset target).under assignment
  concat high low first second := (lawful.concat high low).under assignment first second trivial

variable {see : ∀ width, ConcolicValue clover.terms width → BitVec width}

/-- Cutting a value down takes its low bits. -/
theorem seen_unpadded (faithful : Faithful see) {size : BitVec 64} (positive : 1 ≤ size.toInt)
    {value : Concolic clover.terms} (wide : value.width = 8 * toByteSize size) :
    seen see (unpadded size value) = ⟨size.toNat, (seen see value).bits.setWidth size.toNat⟩ := by
  apply BitString.eq_of_toNat_eq (width_unpadded positive wide)
  have width := width_unpadded positive wide
  by_cases padded : hasPadding size = true
  · rw [unpadded, if_pos padded]
    dsimp only [seen]
    rw [faithful.extract, BitVec.extractLsb'_toNat, Nat.shiftRight_zero, BitVec.toNat_setWidth]
  · rw [unpadded, if_neg padded] at width ⊢
    have bound := (seen see value).bits.isLt
    dsimp only
    rw [BitVec.toNat_setWidth, ← width]
    exact (Nat.mod_eq_of_lt bound).symm

/-- The bytes of a field in a row. -/
theorem seen_ofBytes (faithful : Faithful see) (bytes : List (BitVec 8)) :
    seen see (Concolic.ofBytes bytes.reverse) =
      BitString.joined (bytes.map (BitString.mk 8)) := by
  apply BitString.eq_of_toNat_eq
  · rw [BitString.width_joined]
    simp [seen, Concolic.ofBytes, Function.comp_def, Nat.mul_comm]
  · rw [toNat_joined_bytes]
    dsimp only [seen, Concolic.ofBytes]
    rw [faithful.constant, BitVec.toNat_ofNat,
      Nat.mod_eq_of_lt (Clover.littleEndian_lt bytes.reverse)]

/-- The value of a field is what it denotes, as long as its variable is seen as it is under an
assignment. -/
theorem seen_value (faithful : Faithful see) {input assignment : clover.terms.Assignment}
    (fresh : ∀ name bytes, see _ (clover.getSymbolicBytes input name bytes) =
      clover.terms.eval assignment (clover.symbolicBytes name bytes))
    {field : Field} (positive : 1 ≤ field.size.toInt) (acceptable : field.Acceptable) :
    seen see (field.value clover input) = field.denoted clover assignment := by
  have size := toByteSize_eq positive
  rw [Field.value, Field.denoted]
  by_cases empty : field.list = []
  · rw [if_pos empty, if_pos empty, seen_unpadded faithful positive rfl]
    dsimp only [seen]
    rw [fresh, size]
    rfl
  · obtain ⟨count, all⟩ := acceptable.resolve_left empty
    have wide : (Concolic.ofBytes field.bytes.reverse : Concolic clover.terms).width =
        8 * toByteSize field.size := by
      change 8 * field.bytes.reverse.length = _
      rw [List.length_reverse, size, length_bytes all, count]
      rfl
    rw [if_neg empty, if_neg empty, seen_unpadded faithful positive wide, seen_ofBytes faithful]

/-! ## The bytes of all fields -/

/-- The width of the values together. -/
def total (values : List (Concolic clover.terms)) : Nat := (values.map Concolic.width).sum

theorem seen_concat (faithful : Faithful see) (high low : Concolic clover.terms) :
    seen see (concat high low) = (seen see high).append (seen see low) := by
  dsimp only [seen, concat]
  rw [faithful.concat]
  rfl

theorem seen_foldl_concat (faithful : Faithful see) (first : Concolic clover.terms)
    (rest : List (Concolic clover.terms)) :
    seen see (rest.foldl concat first) = BitString.joined ((first :: rest).map (seen see)) := by
  induction rest using List.reverseRecOn with
  | nil => exact (BitString.append_empty _).symm.trans (BitString.joined_cons _ []).symm
  | append_singleton rest last inductionHypothesis =>
      rw [List.foldl_concat, seen_concat faithful, inductionHypothesis, ← List.cons_append,
        List.map_append, List.map_singleton, BitString.joined_concat]

theorem width_foldl_concat (first : Concolic clover.terms) (rest : List (Concolic clover.terms)) :
    (rest.foldl concat first).width = total (first :: rest) := by
  induction rest generalizing first with
  | nil => rfl
  | cons second rest inductionHypothesis =>
      rw [List.foldl_cons, inductionHypothesis]
      simp only [total, List.map_cons, List.sum_cons, concat, Nat.add_assoc]

/-- Values that fill whole bytes are cut into these bytes. -/
theorem exists_bytes (input : clover.terms.Assignment) {values : List (Concolic clover.terms)}
    (positive : ∀ value ∈ values, 0 < value.width) (whole : total values % 8 = 0)
    (bound : total values < 2 ^ 32) :
    ∃ bytes, (∀ format after log, Returns (getValues input) format values after log →
        Returns (getBytes input) format bytes after log) ∧
      bytes.length = total values / 8 ∧
      ∀ see, Faithful see → BitString.joined (bytes.map fun byte => ⟨8, see 8 byte⟩) =
        BitString.joined (values.map (seen see)) := by
  cases values with
  | nil =>
      refine ⟨[], ?_, (Nat.zero_div 8).symm, fun _ _ => rfl⟩
      intro format after log returned
      exact returns_bind_iff.mpr ⟨[], after, log, [], returned, rfl, List.append_nil log⟩
  | cons first rest =>
      have width := width_foldl_concat first rest
      generalize concated : rest.foldl concat first = row at width
      have off : (BitVec.ofNat 32 row.width).toNat = row.width := by
        rw [width, BitVec.toNat_ofNat, Nat.mod_eq_of_lt bound]
      have inside : 0 < row.width := by
        have least := positive first List.mem_cons_self
        rw [width]
        exact least.trans_le (Nat.le_add_right _ _)
      have eight : 8 ≤ BitVec.ofNat 32 row.width := by
        rw [BitVec.le_def, off]
        rw [width] at inside ⊢
        exact Nat.le_of_dvd inside (Nat.dvd_of_mod_eq_zero whole)
      have aligned : BitVec.ofNat 32 row.width % 8 = 0 := by
        apply BitVec.eq_of_toNat_eq
        rw [BitVec.toNat_umod, off, width]
        exact whole
      refine ⟨(List.range (row.width / 8)).map fun index =>
        clover.extract (row.width - 8 * (index + 1)) 8 row.value, ?_, ?_, ?_⟩
      · intro format after log returned
        refine returns_bind_iff.mpr ⟨_, after, log, [], returned, ?_, List.append_nil log⟩
        rw [← width] at whole
        dsimp only
        rw [concated, require_of whole, require_of eight, require_of aligned, off]
        rfl
      · rw [List.length_map, List.length_range, width]
      · intro see faithful
        have count : row.width = 8 * (row.width / 8) := by
          rw [width]
          omega
        have pieces := BitString.joined_pieces 8 (row.width / 8) (seen see row) count
        rw [← seen_foldl_concat faithful, concated, ← pieces, List.map_map]
        congr 1
        refine List.map_congr_left fun index _ => ?_
        rw [Function.comp_apply, faithful.extract, BitString.piece, ← count]
        rfl

/-- The bits all fields ask for. -/
def bitCount (fields : List Field) : Nat := (fields.map fun field => field.size.toNat).sum

/-- The format is accepted exactly if each field gives no bytes or as many as its size asks for.
The values then have the sizes of the fields and denote what these do, and they stay the same;
and where all sizes together fill whole bytes and an `unsigned` holds them, the bytes in a row
are the fields in a row. -/
theorem fields_in_a_row (lawful : clover.Lawful) (input : clover.terms.Assignment)
    (fields : List Field) (positive : ∀ field ∈ fields, 1 ≤ field.size.toInt) :
    ((∃ values after log, Returns (getValues input) (ofFields clover fields) values after log) ↔
      ∀ field ∈ fields, field.Acceptable) ∧
    ∀ values after log, Returns (getValues input) (ofFields clover fields) values after log →
      values.map Concolic.width = fields.map (fun field => field.size.toNat) ∧
      values.map (seen (current clover)) = fields.map (Field.denoted clover input) ∧
      (∀ assignment, values.map (seen (under clover assignment)) =
        fields.map (Field.denoted clover assignment)) ∧
      Returns (getValues input) after values after [] ∧
      (bitCount fields % 8 = 0 → bitCount fields < 2 ^ 32 → ∃ bytes,
        Returns (getBytes input) (ofFields clover fields) bytes after log ∧
        Returns (getBytes input) after bytes after [] ∧
        bytes.length = bitCount fields / 8 ∧
        BitString.joined (bytes.map fun byte => ⟨8, current clover 8 byte⟩) =
          BitString.joined (values.map (seen (current clover))) ∧
        ∀ assignment, BitString.joined (bytes.map fun byte => ⟨8, under clover assignment 8 byte⟩) =
          BitString.joined (values.map (seen (under clover assignment)))) := by
  refine ⟨⟨?_, ?_⟩, ?_⟩
  · rintro ⟨values, after, log, returned⟩
    exact acceptable_of_getValues positive returned
  · intro acceptable
    obtain ⟨log, returned⟩ := getValues_acceptable clover input positive acceptable
    exact ⟨_, _, log, returned⟩
  · intro values after log returned
    have acceptable := acceptable_of_getValues positive returned
    obtain ⟨log', parsed⟩ := getValues_acceptable clover input positive acceptable
    cases returned.symm.trans parsed
    have denotes : ∀ see, Faithful see → ∀ assignment, (∀ name bytes,
        see _ (clover.getSymbolicBytes input name bytes) =
          clover.terms.eval assignment (clover.symbolicBytes name bytes)) →
        (fields.map (Field.value clover input)).map (seen see) =
          fields.map (Field.denoted clover assignment) := by
      intro see faithful assignment fresh
      rw [List.map_map]
      exact List.map_congr_left fun field member =>
        seen_value faithful fresh (positive field member) (acceptable field member)
    have widths : (fields.map (Field.value clover input)).map Concolic.width =
        fields.map fun field => field.size.toNat := by
      have same := congrArg (List.map BitString.width)
        (denotes (current clover) (faithful_current lawful) input fun _ _ => rfl)
      rw [List.map_map] at same
      refine Eq.trans same ?_
      rw [List.map_map]
      exact List.map_congr_left fun field _ => width_denoted input field
    refine ⟨widths, denotes _ (faithful_current lawful) input fun _ _ => rfl,
      fun assignment => denotes _ (faithful_under lawful assignment) assignment fun _ _ => rfl,
      getValues_parsed input fields, ?_⟩
    intro whole bound
    have count : total (fields.map (Field.value clover input)) = bitCount fields :=
      congrArg List.sum widths
    rw [← count] at whole bound
    have wide : ∀ value ∈ fields.map (Field.value clover input), 0 < value.width := by
      intro value member
      have size := List.mem_map_of_mem (f := Concolic.width) member
      rw [widths] at size
      obtain ⟨field, inside, same⟩ := List.mem_map.mp size
      have least := positive field inside
      rw [← same]
      by_contra none_
      rw [BitVec.toInt_eq_toNat_cond] at least
      split at least <;> omega
    obtain ⟨bytes, got, length, joined⟩ := exists_bytes input wide whole bound
    refine ⟨bytes, got _ _ _ parsed, got _ _ _ (getValues_parsed input fields), ?_,
      joined _ (faithful_current lawful), fun assignment =>
        joined _ (faithful_under lawful assignment)⟩
    rw [length, count]

/-- Three fields with seams inside of a byte: five bits of a byte, a variable of ten bits, and one
bit. -/
def straddling : List Field :=
  [⟨"first", 5, [.integer 0xF3]⟩, ⟨"second", 10, []⟩, ⟨"third", 1, [.integer 1]⟩]

def zeroes : Clover.reference.terms.Assignment := fun _ => 0

theorem straddling_in_a_row : ∃ values after log bytes,
    Returns (getValues zeroes) (ofFields Clover.reference straddling) values after log ∧
      Returns (getBytes zeroes) after bytes after [] ∧ bytes.length = 2 ∧
      BitString.joined (bytes.map fun byte => ⟨8, current Clover.reference 8 byte⟩) =
        BitString.joined (values.map (seen (current Clover.reference))) := by
  have positive : ∀ field ∈ straddling, 1 ≤ field.size.toInt := by decide
  have acceptable : ∀ field ∈ straddling, field.Acceptable := by
    simp [straddling, Field.Acceptable, Field.byteSize, Bencode.IsByte]
  obtain ⟨accepted, denotes⟩ :=
    fields_in_a_row Clover.reference_lawful zeroes straddling positive
  obtain ⟨values, after, log, returned⟩ := accepted.mpr acceptable
  obtain ⟨-, -, -, -, bytes⟩ := denotes values after log returned
  obtain ⟨bytes, -, again, length, row, -⟩ := bytes (by decide) (by decide)
  exact ⟨values, after, log, bytes, returned, again, length, row⟩

/-- One symbolic field of 512 MiB. -/
def oneLargeField : List Field := [⟨"large", 2 ^ 32, []⟩]

/-- The width of the field is a multiple of 2³², of which an `unsigned` keeps nothing. -/
theorem not_in_a_row_large :
    (∀ field ∈ oneLargeField, 1 ≤ field.size.toInt) ∧ bitCount oneLargeField % 8 = 0 ∧
      (∃ values after log,
        Returns (getValues zeroes) (ofFields Clover.reference oneLargeField) values after log) ∧
      ∀ bytes after log,
        ¬Returns (getBytes zeroes) (ofFields Clover.reference oneLargeField) bytes after log := by
  have positive : ∀ field ∈ oneLargeField, 1 ≤ field.size.toInt := by decide
  obtain ⟨log, returned⟩ := getValues_acceptable Clover.reference zeroes positive
    (by simp [oneLargeField, Field.Acceptable])
  refine ⟨positive, by decide, ⟨_, _, log, returned⟩, ?_⟩
  intro bytes after log' got
  obtain ⟨values, reached, earlier, later, parsed, rest, -⟩ := returns_bind_iff.mp got
  cases parsed.symm.trans returned
  obtain ⟨_, _, _, _, -, rest, -⟩ := returns_bind_iff.mp rest
  obtain ⟨_, _, _, _, large, -, -⟩ := returns_bind_iff.mp rest
  obtain ⟨eight, -, -⟩ := returns_require_iff.mp large
  have width : (Field.value Clover.reference zeroes ⟨"large", 2 ^ 32, []⟩).width =
      2 ^ 32 := width_unpadded (by decide) rfl
  change 8 ≤ BitVec.ofNat 32 (Field.value Clover.reference zeroes _).width at eight
  rw [width] at eight
  exact absurd eight (by decide)

end SymexVP.SymbolicFormat
