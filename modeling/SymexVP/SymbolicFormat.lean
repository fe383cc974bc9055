import SymexVP.Board

/-!
# The input format of the symbolic UART

`SymbolicFormat` reads a list of bit fields from a Bencode file, each with a name, a size
in bits and either the bytes of its value or nothing, and hands out the bytes of all
fields in a row. A field without bytes is symbolic input under the field's name.
-/

namespace SymexVP

/-- `bencode::data`. -/
inductive Bencode
  | integer (value : BitVec 64)
  | string (value : String)
  | list (elements : List Bencode)
  | dict (entries : List (String × Bencode))

/-- The exceptions that leave `SymbolicFormat`, and its assertions. -/
inductive FormatFault
  /-- A thrown `std::bad_variant_access`. -/
  | badVariantAccess
  | logicError (message : String)
  | invalidArgument (message : String)
  | assertion (text : String)
  deriving DecidableEq

/-- The fields of `SymbolicFormat` that change. -/
structure SymbolicFormat (terms : Terms) where
  data : Bencode
  /-- The list was parsed already. -/
  parsed : Bool
  values : List (Concolic terms)

namespace SymbolicFormat

variable {clover : Clover}

/-- Computations on a format. -/
abbrev FormatM (clover : Clover) (α : Type) :=
  Exec FormatFault (SymbolicFormat clover.terms) (Event clover.terms) α

/-- A format without a file: there is nothing to parse. -/
def withoutFile : SymbolicFormat clover.terms := ⟨.list [], true, []⟩

/-- A format whose file was decoded. -/
def decoded (data : Bencode) : SymbolicFormat clover.terms := ⟨data, false, []⟩

/-- `HAS_PADDING`. -/
def hasPadding (bitsize : BitVec 64) : Bool := bitsize % 8 != 0

/-- `to_byte_size`: the size in bytes, rounded up. -/
def toByteSize (bitsize : BitVec 64) : Nat :=
  let rem := bitsize % 8
  (if rem = 0 then bitsize / 8 else (bitsize - rem + 8) / 8).toNat

/-- The loop of `get_value` over the elements: the bytes of a concrete value, or `none` where
it returns a null pointer. -/
def concreteBytes : List Bencode → Except FormatFault (Option (List (BitVec 8)))
  | [] => .ok (some [])
  | .string _ :: _ =>
      .error (.logicError "constrained symbolic fields not supported at the moment")
  | .integer value :: rest =>
      if value.toInt < 0 ∨ 255 < value.toInt then .ok none
      else (concreteBytes rest).map fun bytes => bytes.map (value.setWidth 8 :: ·)
  | .list _ :: _ | .dict _ :: _ => .ok none

/-- Cut a value down to its size in bits. -/
def unpadded (bitsize : BitVec 64) (value : Concolic clover.terms) : Concolic clover.terms :=
  if hasPadding bitsize then ⟨bitsize.toNat, clover.extract 0 bitsize.toNat value.value⟩ else value

/-- `get_value`. -/
def getValue (input : clover.terms.Assignment) (list : List Bencode) (name : String)
    (bitsize : BitVec 64) : FormatM clover (Option (Concolic clover.terms)) :=
  let bytesize := toByteSize bitsize
  match concreteBytes list with
  | .error fault => Exec.throw fault
  | .ok none => pure none
  | .ok (some bytes) =>
      if list.isEmpty then do
        Exec.emit (.injected (.field name))
        pure (some (unpadded bitsize ⟨_, clover.getSymbolicBytes input name bytesize⟩))
      else if bytes.length ≠ bytesize then pure none
      -- the first byte of the list is the most significant one
      else pure (some (unpadded bitsize (Concolic.ofBytes bytes.reverse)))

/-- The body of the loop of `get_values`. -/
def parseField (input : clover.terms.Assignment) (elem : Bencode) : FormatM clover Unit :=
  match elem with
  | .list [.string name, .integer size, .list list] => do
      match ← getValue input list name size with
      | some value => Exec.modify fun format => { format with values := format.values ++ [value] }
      | none => Exec.throw (.invalidArgument "invalid bencode value format")
  | .list field =>
      if field.length ≠ 3 then Exec.throw (.invalidArgument "invalid bencode field")
      else Exec.throw .badVariantAccess
  | _ => Exec.throw .badVariantAccess

def parseFields (input : clover.terms.Assignment) : List Bencode → FormatM clover Unit
  | [] => pure ()
  | elem :: rest => do
      parseField input elem
      parseFields input rest

/-- `get_values`: the file is only gone through once. -/
def getValues (input : clover.terms.Assignment) : FormatM clover (List (Concolic clover.terms)) := do
  let format ← Exec.get
  if format.parsed then pure format.values
  else
    match format.data with
    | .list fields => do
        parseFields input fields
        Exec.modify fun format => { format with parsed := true }
        let parsed ← Exec.get
        pure parsed.values
    | _ => Exec.throw .badVariantAccess

/-- `ConcolicValue::concat`; the first value is the high part. -/
def concat (high low : Concolic clover.terms) : Concolic clover.terms :=
  ⟨_, clover.concat high.value low.value⟩

/-- `get_bytes`: the fields in a row, cut into bytes from the most significant end. -/
def getBytes (input : clover.terms.Assignment) :
    FormatM clover (List (ConcolicValue clover.terms 8)) := do
  match ← getValues input with
  | [] => pure []
  | first :: rest => do
      let concated := rest.foldl concat first
      Exec.require (concated.width % 8 = 0) (.assertion "concated->getWidth() % CHAR_BIT == 0")
      -- The offset is an `unsigned`.
      let off := BitVec.ofNat 32 concated.width
      Exec.require (8 ≤ off) (.assertion "off >= CHAR_BIT")
      Exec.require (off % 8 = 0) (.assertion "off % CHAR_BIT == 0")
      pure ((List.range (off.toNat / 8)).map fun index =>
        clover.extract (off.toNat - 8 * (index + 1)) 8 concated.value)

end SymbolicFormat

end SymexVP
