import SuperScaler.TfAdapter

/-! A node's attributes are decoded into Python values by `__from_attr_proto` on import and
encoded again by `__sc_attrs_to_tf_attrs_proto` on export, under the op's attribute definition
or, for a key the op does not declare, under the type inferred from the Python value. For a
value of a kind the encoder has a branch for, within what TensorFlow's validation of the node
allows, the two give the value back up to what the Python objects forget: a reference dtype
comes back as its base dtype, and a shape without its dimension names. -/

namespace SuperScaler.Proofs.Attributes
open SuperScaler.TF SuperScaler.Py SuperScaler.TfAdapter

/-- The `tf.TensorShape` that `as_shape` makes of a shape whose dimensions are known or `-1`. -/
def readShape (shape : TensorShapeProto) : TensorShape :=
  if shape.unknownRank then none
  else some (shape.dim.map fun dim => if dim.size = -1 then none else some dim.size.toNat)

/-- `as_shape(shape).as_proto()`: the dimension names cleared, and no dimensions when the rank
is unknown. -/
def canonicalShape (shape : TensorShapeProto) : TensorShapeProto :=
  if shape.unknownRank then ⟨[], true⟩ else ⟨shape.dim.map fun dim => ⟨dim.size, ""⟩, false⟩

def canonical : AttrValue → AttrValue
  | .type enum => .type (baseDtype enum)
  | .shape shape => .shape (canonicalShape shape)
  | .list value => .list { value with type := value.type.map baseDtype, shape := value.shape.map canonicalShape }
  | other => other

/-- A shape that `as_shape` reads: of unknown rank, or with every dimension known or `-1`. -/
def ShapeReadable (shape : TensorShapeProto) : Prop :=
  shape.unknownRank = true ∨ ∀ dim ∈ shape.dim, -1 ≤ dim.size

/-- A string among the definition's allowed values, if it has them. -/
def AllowedString (attrDef : AttrDef) (text : Bytes) : Prop :=
  ∀ allowed ∈ attrDef.allowedValues, text ∈ allowed.listField.s

/-- A dtype that `tf.as_dtype` knows, with its base dtype among the definition's allowed
values, if it has them. -/
def AllowedType (attrDef : AttrDef) (enum : Int) : Prop :=
  registeredDataType enum = true ∧ ∀ allowed ∈ attrDef.allowedValues, baseDtype enum ∈ allowed.listField.type

/-- A list length of at least the definition's minimum, if it has one. -/
def LongEnough (attrDef : AttrDef) (length : Nat) : Prop :=
  attrDef.hasMinimum = true → attrDef.minimum ≤ length

/-- A value of the kind its attribute definition declares, within the definition's allowed
values and minimum: what TensorFlow's validation of a node lets through, for the types the
encoder has a branch for. A list value sets one field. -/
inductive Conforms (attrDef : AttrDef) : AttrValue → Prop
  | string {text : Bytes} : attrDef.type = "string" → AllowedString attrDef text → Conforms attrDef (.s text)
  | strings {texts : List Bytes} : attrDef.type = "list(string)" → (∀ text ∈ texts, AllowedString attrDef text) →
      LongEnough attrDef texts.length → Conforms attrDef (.list { s := texts })
  | int {value : Int} : attrDef.type = "int" → (attrDef.hasMinimum = true → attrDef.minimum ≤ value) →
      Conforms attrDef (.i value)
  | ints {values : List Int} : attrDef.type = "list(int)" → LongEnough attrDef values.length →
      Conforms attrDef (.list { i := values })
  | float {value : Float32} : attrDef.type = "float" → Conforms attrDef (.f value)
  | floats {values : List Float32} : attrDef.type = "list(float)" → LongEnough attrDef values.length →
      Conforms attrDef (.list { f := values })
  | bool {value : Bool} : attrDef.type = "bool" → Conforms attrDef (.b value)
  | bools {values : List Bool} : attrDef.type = "list(bool)" → LongEnough attrDef values.length →
      Conforms attrDef (.list { b := values })
  | type {enum : Int} : attrDef.type = "type" → AllowedType attrDef enum → Conforms attrDef (.type enum)
  | types {enums : List Int} : attrDef.type = "list(type)" → (∀ enum ∈ enums, AllowedType attrDef enum) →
      LongEnough attrDef enums.length → Conforms attrDef (.list { type := enums })
  | shape {shape : TensorShapeProto} : attrDef.type = "shape" → ShapeReadable shape → Conforms attrDef (.shape shape)
  | shapes {shapes : List TensorShapeProto} : attrDef.type = "list(shape)" → (∀ shape ∈ shapes, ShapeReadable shape) →
      LongEnough attrDef shapes.length → Conforms attrDef (.list { shape := shapes })
  | tensor {tensor : TensorProto} : attrDef.type = "tensor" → Conforms attrDef (.tensor tensor)
  | tensors {tensors : List TensorProto} : attrDef.type = "list(tensor)" → LongEnough attrDef tensors.length →
      Conforms attrDef (.list { tensor := tensors })
  | func {func : NameAttrList} : attrDef.type = "func" → Conforms attrDef (.func func)

/-- An attribute the export takes back: of its declared kind when the op declares the key, and
otherwise of a kind the encoder infers, which it encodes under a definition with that type and
nothing else. -/
def Admissible (opDef : OpDef) (key : String) (value : AttrValue) : Prop :=
  match lookupAttrDef opDef key with
  | some attrDef => Conforms attrDef value
  | none => ∃ type, Conforms { name := "", type } value

private theorem shapeOfProto_readable {shape : TensorShapeProto} (readable : ShapeReadable shape) :
    shapeOfProto shape = .ok (readShape shape) := by
  unfold shapeOfProto readShape
  split
  · rfl
  next known =>
    show Except.map some _ = Except.map some (.ok _)
    refine congrArg _ (mapM_ok fun dim member => ?_)
    have bounded := readable.resolve_left known dim member
    by_cases unknown : dim.size = -1
    · simp [unknown]
    · simp [unknown, show 0 ≤ dim.size by omega]

private theorem shapeAsProto_readShape {shape : TensorShapeProto} (readable : ShapeReadable shape) :
    shapeAsProto (readShape shape) = canonicalShape shape := by
  unfold readShape canonicalShape
  split
  · rfl
  next known =>
    simp only [shapeAsProto, List.map_map, TensorShapeProto.mk.injEq, and_true]
    refine List.map_congr_left fun dim member => ?_
    have bounded := readable.resolve_left known dim member
    by_cases unknown : dim.size = -1
    · simp [unknown]
    · simp [unknown, Int.toNat_of_nonneg (show 0 ≤ dim.size by omega)]

section Encoding
variable {attrDef : AttrDef}

private theorem checkListValue_map {α : Type} {items : List α} (long : LongEnough attrDef items.length) (wrap : α → PyValue) :
    checkListValue attrDef (.list (items.map wrap)) = .ok () := by
  rw [checkListValue, List.length_map, if_neg]
  exact fun ⟨has, short⟩ => absurd (long has) (not_le.mpr short)

private theorem checkAllowedString_ok {text : Bytes} (allowed : AllowedString attrDef text) :
    checkAllowedString attrDef text = .ok () := by
  unfold checkAllowedString
  split
  next values found => simp [allowed values found]
  next => rfl

private theorem makeType_allowed {enum : Int} (allowed : AllowedType attrDef enum) :
    makeType (.dtype enum) attrDef = .ok (baseDtype enum) := by
  unfold makeType
  cases found : attrDef.allowedValues with
  | none => rfl
  | some values => simp [asDtype, allowed.2 values found]

private theorem encodeAttr_of_ne_none {value : PyValue} (set : value ≠ .none) : encodeAttr attrDef value = encodeValue attrDef value := by
  unfold encodeAttr
  split
  · exact absurd rfl set
  · rfl

end Encoding

private theorem list_kind {α : Type} {items : List α} {wrap : α → PyValue} {value : AttrValue} {type : String}
    (empty : items = [] → canonical value = .list {}) (listed : ∀ item, listItemType (wrap item) = some type) :
    PyValue.list (items.map wrap) = .list [] ∧ canonical value = .list {} ∨
      inferredType (.list (items.map wrap)) = some type := by
  cases items with
  | nil => exact .inl ⟨rfl, empty rfl⟩
  | cons item _ => exact .inr (listed item)

private theorem Conforms.roundTrip {attrDef : AttrDef} {value : AttrValue} (conforms : Conforms attrDef value) :
    ∃ decoded, fromAttrProto value = .ok decoded ∧ decoded ≠ .none ∧ encodeValue attrDef decoded = .ok (canonical value) ∧
      (decoded = .list [] ∧ canonical value = .list {} ∨ inferredType decoded = some attrDef.type) := by
  cases conforms with
  | string typed allowed =>
    refine ⟨_, rfl, nofun, ?_, .inr (typed ▸ rfl)⟩
    simp [encodeValue, typed, startswith, List.isPrefixOf, makeStr, checkAllowedString_ok allowed, canonical]
  | @strings texts typed allowed long =>
    have made : (texts.map PyValue.bytes).mapM makeStr = .ok (texts.map fun text => text) := mapM_map_ok fun _ _ => rfl
    refine ⟨.list (texts.map .bytes), by cases texts <;> rfl, nofun, ?_,
      list_kind (by rintro rfl; rfl) fun _ => typed ▸ rfl⟩
    simp [encodeValue, typed, startswith, List.isPrefixOf, checkListValue_map long, listItems, made,
      forM_ok fun text member => checkAllowedString_ok (allowed text member), canonical, -List.mapM]
  | @int value typed above =>
    have inRange : ¬(value < attrDef.minimum ∧ attrDef.hasMinimum = true) := fun ⟨low, has⟩ =>
      absurd (above has) (not_le.mpr low)
    refine ⟨_, rfl, nofun, ?_, .inr (typed ▸ rfl)⟩
    simp [encodeValue, typed, startswith, List.isPrefixOf, makeInt, inRange, canonical]
  | @ints values typed long =>
    have made : (values.map PyValue.int).mapM makeInt = .ok (values.map fun value => value) := mapM_map_ok fun _ _ => rfl
    refine ⟨.list (values.map .int), by cases values <;> rfl, nofun, ?_,
      list_kind (by rintro rfl; rfl) fun _ => typed ▸ rfl⟩
    simp [encodeValue, typed, startswith, List.isPrefixOf, checkListValue_map long, listItems, made, canonical,
      -List.mapM]
  | float typed =>
    refine ⟨_, rfl, nofun, ?_, .inr (typed ▸ rfl)⟩
    simp [encodeValue, typed, startswith, List.isPrefixOf, makeFloat, canonical]
  | @floats values typed long =>
    have made : (values.map PyValue.float).mapM makeFloat = .ok (values.map fun value => value) :=
      mapM_map_ok fun _ _ => rfl
    refine ⟨.list (values.map .float), by cases values <;> rfl, nofun, ?_,
      list_kind (by rintro rfl; rfl) fun _ => typed ▸ rfl⟩
    simp [encodeValue, typed, startswith, List.isPrefixOf, checkListValue_map long, listItems, made, canonical,
      -List.mapM]
  | bool typed =>
    refine ⟨_, rfl, nofun, ?_, .inr (typed ▸ rfl)⟩
    simp [encodeValue, typed, startswith, List.isPrefixOf, makeBool, canonical]
  | @bools values typed long =>
    have made : (values.map PyValue.bool).mapM makeBool = .ok (values.map fun value => value) := mapM_map_ok fun _ _ => rfl
    refine ⟨.list (values.map .bool), by cases values <;> rfl, nofun, ?_,
      list_kind (by rintro rfl; rfl) fun _ => typed ▸ rfl⟩
    simp [encodeValue, typed, startswith, List.isPrefixOf, checkListValue_map long, listItems, made, canonical,
      -List.mapM]
  | @type enum typed allowed =>
    refine ⟨.dtype enum, by rw [fromAttrProto, asDtype_int allowed.1]; rfl, nofun, ?_, .inr (typed ▸ rfl)⟩
    simp [encodeValue, typed, startswith, List.isPrefixOf, makeType_allowed allowed, canonical]
  | @types enums typed allowed long =>
    have made : (enums.map PyValue.dtype).mapM (fun item => makeType item attrDef) = .ok (enums.map baseDtype) :=
      mapM_map_ok fun enum member => makeType_allowed (allowed enum member)
    have decodes : enums.mapM (fun enum => PyValue.dtype <$> asDtype (.int enum)) = .ok (enums.map .dtype) :=
      mapM_ok fun enum member => by rw [asDtype_int (allowed enum member).1]; rfl
    refine ⟨.list (enums.map .dtype), ?_, nofun, ?_, list_kind (by rintro rfl; rfl) fun _ => typed ▸ rfl⟩
    · cases enums with
      | nil => rfl
      | cons enum rest => simp [fromAttrProto, decodes, -List.mapM]
    · simp [encodeValue, typed, startswith, List.isPrefixOf, checkListValue_map long, listItems, made, canonical,
        -List.mapM]
  | @shape shape typed readable =>
    refine ⟨.shape (readShape shape), by rw [fromAttrProto, shapeOfProto_readable readable]; rfl, nofun, ?_,
      .inr (typed ▸ rfl)⟩
    simp [encodeValue, typed, startswith, List.isPrefixOf, makeShape, asShape, shapeAsProto_readShape readable, canonical]
  | @shapes shapes typed readable long =>
    have made : (shapes.map fun shape => PyValue.shape (readShape shape)).mapM makeShape = .ok (shapes.map canonicalShape) :=
      mapM_map_ok fun shape member => by
        show Except.ok (shapeAsProto (readShape shape)) = _
        rw [shapeAsProto_readShape (readable shape member)]
    have decodes : shapes.mapM (fun shape => PyValue.shape <$> shapeOfProto shape) =
        .ok (shapes.map fun shape => .shape (readShape shape)) :=
      mapM_ok fun shape member => by rw [shapeOfProto_readable (readable shape member)]; rfl
    refine ⟨.list (shapes.map fun shape => .shape (readShape shape)), ?_, nofun, ?_,
      list_kind (by rintro rfl; rfl) fun _ => typed ▸ rfl⟩
    · cases shapes with
      | nil => rfl
      | cons shape rest => simp [fromAttrProto, decodes, -List.mapM]
    · simp [encodeValue, typed, startswith, List.isPrefixOf, checkListValue_map long, listItems, made, canonical,
        -List.mapM]
  | tensor typed =>
    refine ⟨_, rfl, nofun, ?_, .inr (typed ▸ rfl)⟩
    simp [encodeValue, typed, startswith, List.isPrefixOf, makeTensor, canonical]
  | @tensors tensors typed long =>
    have made : (tensors.map PyValue.tensor).mapM makeTensor = .ok (tensors.map fun tensor => tensor) :=
      mapM_map_ok fun _ _ => rfl
    refine ⟨.list (tensors.map .tensor), by cases tensors <;> rfl, nofun, ?_,
      list_kind (by rintro rfl; rfl) fun _ => typed ▸ rfl⟩
    simp [encodeValue, typed, startswith, List.isPrefixOf, checkListValue_map long, listItems, made, canonical,
      -List.mapM]
  | func typed =>
    refine ⟨_, rfl, nofun, ?_, .inr (typed ▸ rfl)⟩
    simp [encodeValue, typed, startswith, List.isPrefixOf, canonical]

private theorem attrProto_inferred {opDef : OpDef} {key : String} (undeclared : lookupAttrDef opDef key = none) {value : PyValue}
    {type : String} (inferred : inferredType value = some type) :
    attrProto opDef key value = encodeAttr { name := "", type } value := by
  unfold attrProto
  rw [undeclared]
  split
  · contradiction
  · simp [inferredType] at inferred
  · simp [inferredType] at inferred
  · rw [inferred]

private theorem attrProto_admissible {opDef : OpDef} {key : String} {value : AttrValue} (admissible : Admissible opDef key value) :
    ∃ decoded, fromAttrProto value = .ok decoded ∧ attrProto opDef key decoded = .ok (canonical value) := by
  unfold Admissible at admissible
  split at admissible
  next attrDef declared =>
    obtain ⟨decoded, decodes, set, encodes, _⟩ := admissible.roundTrip
    refine ⟨decoded, decodes, ?_⟩
    simp only [attrProto, declared]
    rw [encodeAttr_of_ne_none set, encodes]
  next undeclared =>
    obtain ⟨type, conforms⟩ := admissible
    obtain ⟨decoded, decodes, set, encodes, kind⟩ := conforms.roundTrip
    refine ⟨decoded, decodes, ?_⟩
    rcases kind with ⟨rfl, empty⟩ | inferred
    · simp only [attrProto, undeclared, empty]
    · rw [attrProto_inferred undeclared inferred, encodeAttr_of_ne_none set, encodes]

theorem decodeAttrs_admissible {opDef : OpDef} : ∀ {attrs : List (String × AttrValue)},
    (∀ entry ∈ attrs, Admissible opDef entry.1 entry.2) → ∃ decoded, decodeAttrs attrs = .ok decoded ∧
      scAttrsToTfAttrsProto opDef decoded = .ok (attrs.map fun entry => (entry.1, canonical entry.2))
  | [], _ => ⟨[], rfl, rfl⟩
  | (key, value) :: rest, admissible => by
    obtain ⟨decoded, decodes, encodes⟩ := attrProto_admissible (admissible (key, value) (List.mem_cons_self _ _))
    obtain ⟨others, decodesRest, encodesRest⟩ :=
      decodeAttrs_admissible fun entry member => admissible entry (List.mem_cons_of_mem _ member)
    exact ⟨(key, decoded) :: others, by simp [decodeAttrs, decodes, decodesRest],
      by simp [scAttrsToTfAttrsProto, encodes, encodesRest]⟩

/-- An attribute of a kind the encoder has a branch for, within what TensorFlow's validation
allows when the op declares it, comes back from `__from_attr_proto` and
`__sc_attrs_to_tf_attrs_proto` in canonical form: base dtypes in place of reference dtypes,
and shapes without dimension names. -/
theorem attr_round_trip_canonical (opDef : OpDef) (key : String) (value : AttrValue)
    (admissible : Admissible opDef key value) :
    (fromAttrProto value >>= fun decoded => scAttrsToTfAttrsProto opDef [(key, decoded)]) = .ok [(key, canonical value)] := by
  obtain ⟨decoded, decodes, encodes⟩ := attrProto_admissible admissible
  simp [decodes, scAttrsToTfAttrsProto, encodes]

def castOp : OpDef :=
  ⟨"Cast", [{ name := "y", typeAttr := "DstT" }],
    [{ name := "SrcT", type := "type" }, { name := "DstT", type := "type" },
      { name := "Truncate", type := "bool", defaultValue := some (.b false) }]⟩

def outputShapes : AttrValue := .list { shape := [⟨[⟨2, ""⟩, ⟨-1, ""⟩], false⟩] }

theorem attr_round_trip_output_shapes :
    Admissible castOp "_output_shapes" outputShapes ∧
    (fromAttrProto outputShapes >>= fun decoded => scAttrsToTfAttrsProto castOp [("_output_shapes", decoded)]) =
      .ok [("_output_shapes", canonical outputShapes)] :=
  have readable : ∀ shape ∈ [(⟨[⟨2, ""⟩, ⟨-1, ""⟩], false⟩ : TensorShapeProto)], ShapeReadable shape := fun shape member => by
    rw [List.mem_singleton.mp member]
    exact .inr (by decide)
  have admissible : Admissible castOp "_output_shapes" outputShapes :=
    ⟨"list(shape)", .shapes rfl readable nofun⟩
  ⟨admissible, attr_round_trip_canonical castOp "_output_shapes" outputShapes admissible⟩

def caseOp : OpDef := ⟨"Case", [], [{ name := "branches", type := "list(func)", hasMinimum := true, minimum := 1 }]⟩

/-- Attributes that do not come back: a reference dtype under an undeclared key comes back as
its base dtype, a placeholder as a string, and a shape without its dimension names; a list of
functions raises `TypeError` under a declared `list(func)` and `RuntimeError` under an
undeclared key. -/
theorem attr_round_trip_changes_or_raises :
    (fromAttrProto (.type 101) >>= fun decoded => scAttrsToTfAttrsProto castOp [("_ref", decoded)]) =
      .ok [("_ref", .type 1)] ∧
    (fromAttrProto (.placeholder "T") >>= fun decoded => scAttrsToTfAttrsProto castOp [("_T", decoded)]) =
      .ok [("_T", .s (encodeUtf8 "T"))] ∧
    (fromAttrProto (.shape ⟨[⟨2, "batch"⟩], false⟩) >>= fun decoded => scAttrsToTfAttrsProto castOp [("_shape", decoded)]) =
      .ok [("_shape", .shape ⟨[⟨2, ""⟩], false⟩)] ∧
    (fromAttrProto (.list { func := [⟨"then", []⟩] }) >>= fun decoded =>
      scAttrsToTfAttrsProto caseOp [("branches", decoded)]) = .error .typeError ∧
    (fromAttrProto (.list { func := [⟨"then", []⟩] }) >>= fun decoded =>
      scAttrsToTfAttrsProto castOp [("_branches", decoded)]) = .error .runtimeError :=
  ⟨rfl, rfl, rfl, rfl, rfl⟩

/-- The attributes of a node, each admissible, come back from the import's decoding and the
export's encoding in canonical form and in order. -/
theorem node_attrs_round_trip_canonical (opDef : OpDef) (attrs : List (String × AttrValue))
    (admissible : ∀ entry ∈ attrs, Admissible opDef entry.1 entry.2) :
    (decodeAttrs attrs >>= scAttrsToTfAttrsProto opDef) = .ok (attrs.map fun entry => (entry.1, canonical entry.2)) := by
  obtain ⟨decoded, decodes, encodes⟩ := decodeAttrs_admissible admissible
  rw [decodes, ok_bind, encodes]

def castAttrs : List (String × AttrValue) := [("SrcT", .type 1), ("DstT", .type 3), ("Truncate", .b false)]

theorem node_attrs_round_trip_cast :
    (∀ entry ∈ castAttrs, Admissible castOp entry.1 entry.2) ∧
    (decodeAttrs castAttrs >>= scAttrsToTfAttrsProto castOp) =
      .ok (castAttrs.map fun entry => (entry.1, canonical entry.2)) :=
  have admissible : ∀ entry ∈ castAttrs, Admissible castOp entry.1 entry.2 := by
    intro entry member
    simp only [castAttrs, List.mem_cons, List.mem_singleton, List.not_mem_nil, or_false] at member
    rcases member with rfl | rfl | rfl
    · exact (.type rfl ⟨rfl, nofun⟩ : Conforms { name := "SrcT", type := "type" } (.type 1))
    · exact (.type rfl ⟨rfl, nofun⟩ : Conforms { name := "DstT", type := "type" } (.type 3))
    · exact (.bool rfl : Conforms { name := "Truncate", type := "bool", defaultValue := some (.b false) } (.b false))
  ⟨admissible, node_attrs_round_trip_canonical castOp castAttrs admissible⟩

end SuperScaler.Proofs.Attributes
