import SuperScaler.Proto
import Mathlib.Algebra.Group.Nat.Basic

/-! Python values as the adapter and the graph passes hold them, with the TensorFlow Python
helpers that make and take them apart. A Python `float` read from a `float` field is that
single-precision value exactly, so it is kept as its bit pattern. CPython quiets a signalling
NaN on the way to a double and back, which the model does not follow: there the bit pattern it
keeps differs from the one Python writes back. -/

namespace SuperScaler.Py
open SuperScaler.TF

/-- The exceptions the modelled code raises or lets through. -/
inductive PyError
  | typeError
  | valueError
  | keyError
  | indexError
  | attributeError
  | assertionError
  | runtimeError
  | overflowError
  /-- `tf.errors.NotFoundError`, for an op missing from the registry. -/
  | notFoundError
  deriving DecidableEq, Repr

/-- A `tf.TensorShape`: `none` for an unknown rank, `none` entries for unknown dimensions. -/
abbrev TensorShape := Option (List (Option Nat))

inductive PyValue
  | none
  | bool (value : Bool)
  | int (value : Int)
  | float (value : Float32)
  | str (value : String)
  | bytes (value : Bytes)
  /-- A `tf.DType`, by its `as_datatype_enum`. -/
  | dtype (value : Int)
  | shape (value : TensorShape)
  | tensor (value : TensorProto)
  | nameAttrList (value : NameAttrList)
  | list (items : List PyValue)
  | dict (entries : List (String × PyValue))
  deriving Repr

/-- A Python `dict` with string keys, in insertion order. -/
abbrev PyDict := List (String × PyValue)

namespace PyDict

def get? : PyDict → String → Option PyValue
  | [], _ => none
  | (name, value) :: rest, key => if name = key then some value else get? rest key

/-- `dict[key]`. -/
def getItem (dict : PyDict) (key : String) : Except PyError PyValue :=
  match dict.get? key with
  | some value => .ok value
  | none => .error .keyError

/-- `dict[key] = value`: an existing key keeps its place, a new one goes last. -/
def setItem : PyDict → String → PyValue → PyDict
  | [], key, value => [(key, value)]
  | (name, old) :: rest, key, value =>
    if name = key then (key, value) :: rest else (name, old) :: setItem rest key value

@[simp] theorem get?_setItem_self (dict : PyDict) (key : String) (value : PyValue) :
    (dict.setItem key value).get? key = some value := by
  induction dict with
  | nil => simp [setItem, get?]
  | cons entry rest ih =>
    by_cases same : entry.1 = key <;> simp [setItem, get?, same, ih]

theorem get?_setItem_other (dict : PyDict) {key other : String} (value : PyValue) (different : key ≠ other) :
    (dict.setItem key value).get? other = dict.get? other := by
  induction dict with
  | nil => simp [setItem, get?, different]
  | cons entry rest ih =>
    by_cases same : entry.1 = key
    · simp [setItem, get?, same, different]
    · by_cases found : entry.1 = other <;> simp [setItem, get?, same, found, ih, different.symm]

end PyDict

/-- `value[key]` for a string key: a `dict` looks it up, any other value raises `TypeError`. -/
def getItemOf : PyValue → String → Except PyError PyValue
  | .dict entries, key => PyDict.getItem entries key
  | _, _ => .error .typeError

/-- `bool(value)`. A `tf.TensorShape` is true when its rank is known; a `DType` and a protobuf
message are true. -/
def pyTruth : PyValue → Bool
  | .none => false
  | .bool flag => flag
  | .int value => value ≠ 0
  | .float bits => bits.toNat % 2 ^ 31 ≠ 0
  | .str text => text ≠ ""
  | .bytes text => text ≠ []
  | .shape shape => shape.isSome
  | .list items => !items.isEmpty
  | .dict entries => !entries.isEmpty
  | .dtype _ | .tensor _ | .nameAttrList _ => true

/-- The position `xs[index]` reads on a Python list of length `length`: a negative index counts
from the end, and one out of range gives `length`, where there is no item. -/
def pyPosition (length : Nat) (index : Int) : Nat :=
  if index < 0 then (if 0 ≤ index + length then (index + length).toNat else length) else index.toNat

/-- `xs[index]` on a Python list. -/
def pyIndex {α : Type} (xs : List α) (index : Int) : Except PyError α :=
  match xs.get? (pyPosition xs.length index) with
  | some item => .ok item
  | none => .error .indexError

theorem pyIndex_ok {α : Type} {xs : List α} {index : Int} {item : α} (found : pyIndex xs index = .ok item) :
    item ∈ xs := by
  unfold pyIndex at found
  split at found
  next found' => cases found; exact List.get?_mem found'
  next => cases found

theorem pyPosition_lt_iff (length : Nat) (index : Int) :
    pyPosition length index < length ↔ -(length : Int) ≤ index ∧ index < length := by
  unfold pyPosition
  split
  · split <;> omega
  · omega

/-- An index in `[-len, len)` reads the item at its position. -/
theorem pyIndex_inside {α : Type} {xs : List α} {index : Int} (inside : -(xs.length : Int) ≤ index ∧ index < xs.length)
    (fallback : α) : pyIndex xs index = .ok (xs.getD (pyPosition xs.length index) fallback) := by
  have found := (pyPosition_lt_iff _ _).mpr inside
  simp [pyIndex, List.getElem?_eq_getElem found, List.getD_eq_getElem?_getD]

/-- Any other index raises `IndexError`. -/
theorem pyIndex_outside {α : Type} {xs : List α} {index : Int} (outside : ¬(-(xs.length : Int) ≤ index ∧ index < xs.length)) :
    pyIndex xs index = .error .indexError := by
  have missing := mt (pyPosition_lt_iff xs.length index).mp outside
  simp [pyIndex, List.getElem?_eq_none (Nat.le_of_not_lt missing)]

section Steps
variable {α β : Type} {f : α → Except PyError β}

@[simp] theorem ok_bind (value : α) : (Except.ok value >>= f) = f value := rfl

@[simp] theorem error_bind (error : PyError) : (Except.error error >>= f) = .error error := rfl

@[simp] theorem pure_eq_ok (value : α) : (pure value : Except PyError α) = .ok value := rfl

/-- A computation followed by `f` that returns got a value from the computation, on which `f`
returned. -/
theorem bind_eq_ok {x : Except PyError α} {result : β} (bound : (x >>= f) = .ok result) :
    ∃ value, x = .ok value ∧ f value = .ok result := by
  cases x with
  | error => cases bound
  | ok value => exact ⟨value, rfl, bound⟩

end Steps

theorem mapM_ok {α β : Type} {f : α → Except PyError β} {g : α → β} :
    ∀ {items : List α}, (∀ item ∈ items, f item = .ok (g item)) → items.mapM f = .ok (items.map g)
  | [], _ => rfl
  | item :: rest, each => by
    rw [List.mapM_cons, each item (List.mem_cons_self _ _), mapM_ok fun other member => each other (List.mem_cons_of_mem _ member)]
    rfl

theorem mapM_map_ok {α β γ : Type} {f : β → Except PyError γ} {h : α → β} {g : α → γ} :
    ∀ {items : List α}, (∀ item ∈ items, f (h item) = .ok (g item)) → (items.map h).mapM f = .ok (items.map g)
  | [], _ => rfl
  | item :: rest, each => by
    rw [List.map_cons, List.mapM_cons, each item (List.mem_cons_self _ _),
      mapM_map_ok fun other member => each other (List.mem_cons_of_mem _ member)]
    rfl

theorem forM_ok {α : Type} {f : α → Except PyError PUnit} :
    ∀ {items : List α}, (∀ item ∈ items, f item = .ok ()) → items.forM f = .ok ()
  | [], _ => rfl
  | item :: rest, each => by
    rw [List.forM_cons', each item (List.mem_cons_self _ _), forM_ok fun other member => each other (List.mem_cons_of_mem _ member)]
    rfl

theorem length_of_mapM_ok {α β : Type} {f : α → Except PyError β} :
    ∀ {items : List α} {results : List β}, items.mapM f = .ok results → results.length = items.length
  | [], _, mapped => by cases mapped; rfl
  | item :: rest, _, mapped => by
    rw [List.mapM_cons] at mapped
    obtain ⟨_, -, mapped⟩ := bind_eq_ok mapped
    obtain ⟨others, mappedRest, mapped⟩ := bind_eq_ok mapped
    cases mapped
    exact congrArg Nat.succ (length_of_mapM_ok mappedRest)

/-- A loop over items that each succeed or raise one error raises it when one of them does. -/
theorem mapM_error {α β : Type} {f : α → Except PyError β} {error : PyError} :
    ∀ {items : List α}, (∀ item ∈ items, (∃ value, f item = .ok value) ∨ f item = .error error) →
      (∃ item ∈ items, f item = .error error) → items.mapM f = .error error
  | [], _, ⟨_, absent, _⟩ => absurd absent (List.not_mem_nil _)
  | item :: rest, each, ⟨failing, member, raised⟩ => by
    rw [List.mapM_cons]
    rcases each item (List.mem_cons_self _ _) with ⟨value, ok⟩ | first
    · have later : ∃ other ∈ rest, f other = .error error := by
        rcases List.mem_cons.mp member with rfl | member
        · rw [ok] at raised; cases raised
        · exact ⟨failing, member, raised⟩
      rw [ok, mapM_error (fun other member => each other (List.mem_cons_of_mem _ member)) later]
      rfl
    · rw [first]
      rfl

/-- Number of binary digits of `m`. -/
def bitLength (m : Nat) : Nat := go m m
where
  go : Nat → Nat → Nat
    | 0, _ => 0
    | fuel + 1, m => if m = 0 then 0 else go fuel (m / 2) + 1

/-- `m` rounded to `precision` significant bits, ties to even. -/
def roundSignificant (precision m : Nat) : Nat :=
  let shift := bitLength m - precision
  let quotient := m / 2 ^ shift
  let remainder := m % 2 ^ shift
  let half := 2 ^ shift / 2
  let rounded := if half < remainder ∨ (remainder = half ∧ 0 < shift ∧ quotient % 2 = 1) then quotient + 1 else quotient
  rounded * 2 ^ shift

/-- The single-precision bit pattern of a non-negative integer that is already rounded to 24
significant bits, with `negative` its sign; too large a value is infinite. -/
def singleBits (negative : Bool) (value : Nat) : Float32 :=
  let sign : Nat := if negative then 2 ^ 31 else 0
  let exponent := bitLength value - 1
  if value = 0 then UInt32.ofNat sign
  else if 128 ≤ exponent then UInt32.ofNat (sign + 0xFF * 2 ^ 23)
  else
    let significand := if 23 ≤ exponent then value / 2 ^ (exponent - 23) else value * 2 ^ (23 - exponent)
    UInt32.ofNat (sign + (exponent + 127) * 2 ^ 23 + (significand - 2 ^ 23))

/-- `float(n)` stored in a `float` field: Python rounds to double precision, raising on
overflow, and the field rounds that double to single precision. -/
def float32OfInt (n : Int) : Except PyError Float32 :=
  let double := roundSignificant 53 n.natAbs
  if 2 ^ 1024 ≤ double then .error .overflowError
  else .ok (singleBits (n < 0) (roundSignificant 24 double))

/-- `int(x)` of a single-precision float: truncation toward zero. -/
def float32Trunc (bits : Float32) : Except PyError Int :=
  let exponent := (bits.toNat / 2 ^ 23) % 2 ^ 8
  let fraction := bits.toNat % 2 ^ 23
  let negative := 2 ^ 31 ≤ bits.toNat
  let magnitude : Nat :=
    if exponent = 0 then 0
    else if 150 ≤ exponent then (fraction + 2 ^ 23) * 2 ^ (exponent - 150)
    else (fraction + 2 ^ 23) / 2 ^ (150 - exponent)
  if exponent = 255 then .error (if fraction = 0 then .overflowError else .valueError)
  else .ok (if negative then -(magnitude : Int) else magnitude)

def isSpaceByte (byte : UInt8) : Bool :=
  byte = 32 || (9 ≤ byte && byte ≤ 13)

def isDigitByte (byte : UInt8) : Bool := 48 ≤ byte && byte ≤ 57

/-- Decimal digits in which single underscores may stand between digits. -/
def parseDigits : Bytes → Nat → Option Nat
  | [], value => some value
  | [byte], value => if isDigitByte byte then some (10 * value + (byte.toNat - 48)) else none
  | byte :: next :: rest, value =>
    if isDigitByte byte then
      if next = 95 then
        match rest with
        | following :: _ => if isDigitByte following then parseDigits rest (10 * value + (byte.toNat - 48)) else none
        | [] => none
      else parseDigits (next :: rest) (10 * value + (byte.toNat - 48))
    else none

/-- The optional sign in front of the digits of `int(b)`: whether it is `-`, and the rest. -/
def splitSign : Bytes → Bool × Bytes
  | 45 :: rest => (true, rest)
  | 43 :: rest => (false, rest)
  | other => (false, other)

/-- `int(b)` for a bytes object `b`, in base 10: surrounding whitespace, then an optional
sign, then digits. CPython's limit of 4300 digits on the conversion (`ValueError` past it) is
not modelled. -/
def parseInt (text : Bytes) : Except PyError Int :=
  let core := ((text.dropWhile isSpaceByte).reverse.dropWhile isSpaceByte).reverse
  let (negative, digits) := splitSign core
  match digits, parseDigits digits 0 with
  | _ :: _, some value => .ok (if negative then -(value : Int) else value)
  | _, _ => .error .valueError

/-- `split(sep)` of a `str` or `bytes` with a one-item separator: the pieces between
separators, empty ones included. -/
def pySplit {α : Type} [DecidableEq α] (separator : α) : List α → List (List α)
  | [] => [[]]
  | item :: rest =>
    if item = separator then [] :: pySplit separator rest
    else match pySplit separator rest with
      | first :: others => (item :: first) :: others
      | [] => [[item]]

/-- `str.split(sep)` for a one-character separator. -/
def strSplit (text : String) (separator : Char) : List String := (pySplit separator text.data).map String.mk

/-- `str.startswith(prefix)`. -/
def startswith (text pre : String) : Bool := pre.data.isPrefixOf text.data

/-- `int(text)` for a `str` of ASCII characters. -/
def parseIntStr (text : String) : Except PyError Int := parseInt (encodeUtf8 text)

/-- The enum numbers `tf.as_dtype` knows: the 23 types of `types.proto` and their references. -/
def registeredDataType (enum : Int) : Bool :=
  (1 ≤ enum && enum ≤ 23) || (101 ≤ enum && enum ≤ 123)

/-- `DType.base_dtype`: a reference type's referenced type. -/
def baseDtype (enum : Int) : Int := if 100 < enum then enum - 100 else enum

/-- `tf.as_dtype` on the values it can meet here; a `bool` is looked up as the integer it
hashes as. Dtype names given as strings are not resolved. -/
def asDtype : PyValue → Except PyError Int
  | .dtype enum => .ok enum
  | .int enum => if registeredDataType enum then .ok enum else .error .typeError
  | .bool flag => if flag then .ok 1 else .error .typeError
  | _ => .error .typeError

theorem asDtype_int {enum : Int} (registered : registeredDataType enum) : asDtype (.int enum) = .ok enum := by
  simp [asDtype, registered]

/-- `tensor_shape.as_shape` of a `TensorShapeProto`. -/
def shapeOfProto (proto : TensorShapeProto) : Except PyError TensorShape :=
  if proto.unknownRank then .ok none
  else (proto.dim.mapM fun (dim : Dim) =>
    (if dim.size = -1 then .ok none
    else if 0 ≤ dim.size then .ok (some dim.size.toNat) else .error .valueError : Except PyError (Option Nat))).map some

/-- `tensor_shape.as_shape` of a Python value. -/
def asShape : PyValue → Except PyError TensorShape
  | .shape shape => .ok shape
  | .none => .ok none
  | .list items => (items.mapM dimension).map some
  | _ => .error .typeError
where
  dimension : PyValue → Except PyError (Option Nat)
    | .int size => if 0 ≤ size then .ok (some size.toNat) else .error .valueError
    | .none => .ok none
    | _ => .error .typeError

/-- `TensorShape.as_proto`. -/
def shapeAsProto : TensorShape → TensorShapeProto
  | none => ⟨[], true⟩
  | some dims => ⟨dims.map fun dim => ⟨(dim.map Int.ofNat).getD (-1), ""⟩, false⟩

end SuperScaler.Py
