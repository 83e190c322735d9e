/-! The TensorFlow protocol buffers that the adapter reads and writes. Each message keeps the
fields some modelled function reads; a repeated field is a list and a singular submessage
with presence is an `Option`. Strings that protobuf stores as raw bytes are `Bytes`. -/

namespace SuperScaler.TF

/-- A protobuf `bytes` value, and the value of a TensorFlow `string` attribute. -/
abbrev Bytes := List UInt8

/-- A `float` field, kept as its IEEE single-precision bit pattern. -/
abbrev Float32 := UInt32

/-- Python's `str.encode("utf-8")`. -/
def encodeUtf8 (text : String) : Bytes := text.data.flatMap String.utf8EncodeChar

structure Dim where
  size : Int
  name : String
  deriving DecidableEq, Repr

structure TensorShapeProto where
  dim : List Dim
  unknownRank : Bool
  deriving DecidableEq, Repr

/-- Of a `TensorProto` only `string_val` is read (by `set_dataset_paths`); the other fields
travel together, serialized, in `rest`. -/
structure TensorProto where
  stringVal : List Bytes
  rest : Bytes
  deriving DecidableEq, Repr

/-- Of a `NameAttrList` only the function name is read; the attribute map travels
serialized. -/
structure NameAttrList where
  name : String
  attr : Bytes
  deriving DecidableEq, Repr

structure ListValue where
  s : List Bytes := []
  i : List Int := []
  f : List Float32 := []
  b : List Bool := []
  type : List Int := []
  shape : List TensorShapeProto := []
  tensor : List TensorProto := []
  func : List NameAttrList := []
  deriving DecidableEq, Repr

/-- `AttrValue` is one `oneof value`; `unset` is the message with no field of it set. Data types
are the raw enum numbers of `types.proto`. -/
inductive AttrValue
  | unset
  | s (value : Bytes)
  | i (value : Int)
  | f (value : Float32)
  | b (value : Bool)
  | type (value : Int)
  | shape (value : TensorShapeProto)
  | tensor (value : TensorProto)
  | list (value : ListValue)
  | func (value : NameAttrList)
  | placeholder (value : String)
  deriving DecidableEq, Repr

namespace AttrValue

/-- Reading `attr_value.type`: the enum number, `DT_INVALID` when another field is set. -/
def typeField : AttrValue → Int
  | .type value => value
  | _ => 0

def iField : AttrValue → Int
  | .i value => value
  | _ => 0

def listField : AttrValue → ListValue
  | .list value => value
  | _ => {}

def tensorField : AttrValue → TensorProto
  | .tensor value => value
  | _ => ⟨[], []⟩

end AttrValue

/-- `OpDef.AttrDef`. The attribute type is the string of the op registry, such as `"int"` or
`"list(type)"`. -/
structure AttrDef where
  name : String
  type : String
  defaultValue : Option AttrValue := none
  hasMinimum : Bool := false
  minimum : Int := 0
  allowedValues : Option AttrValue := none
  deriving DecidableEq, Repr

/-- `OpDef.ArgDef`: an output argument has a fixed `type`, or takes its type from a `type`
attribute, or its types from a `list(type)` attribute; `numberAttr` repeats it. An empty
string is an unset field. -/
structure ArgDef where
  name : String
  type : Int := 0
  typeAttr : String := ""
  numberAttr : String := ""
  typeListAttr : String := ""
  deriving DecidableEq, Repr

structure OpDef where
  name : String
  outputArg : List ArgDef
  attr : List AttrDef
  deriving DecidableEq, Repr

structure NodeDef where
  name : String
  op : String
  input : List String
  attr : List (String × AttrValue)
  experimentalDebugInfo : Option (List String) := none
  deriving DecidableEq, Repr

/-- `node_def.attr[key]`: a protobuf map read at a missing key gives the empty message. -/
def NodeDef.attrAt (node : NodeDef) (key : String) : AttrValue :=
  ((node.attr.find? (·.1 == key)).map (·.2)).getD .unset

structure GraphDef where
  node : List NodeDef
  deriving DecidableEq, Repr

/-- A node of a `GraphDef` with its `device` field, which only `__set_device_info` reads and
writes; the other functions see the `NodeDef` alone. -/
structure PlacedNode where
  node : NodeDef
  device : String
  deriving DecidableEq, Repr

/-- `KernelDef.AttrConstraint`: `allowed_values` when the field is set. -/
structure AttrConstraint where
  name : String
  allowedValues : Option AttrValue
  deriving DecidableEq, Repr

/-- `KernelDef`: the device type a kernel is for and its constraints on type attributes. -/
structure KernelDef where
  deviceType : String
  constraint : List AttrConstraint
  deriving DecidableEq, Repr

end SuperScaler.TF
