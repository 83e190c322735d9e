import SuperScaler.GraphUtil

/-! `scaler_graph/IR/conversion/tf_adapter.py`: TensorFlow `GraphDef`s into sc graphs and back.
Attribute values are decoded into Python values and encoded again under the op's attribute
definitions with TensorFlow's `_Make*` helpers; output dtypes come from the op's output
arguments; the runtime configuration is stored on the nodes it names. The op registry and the
mapping of ops to sc operators belong to TensorFlow and to a module that is not among the
sources, so they are parameters. Errors are logged before they are raised; the model keeps
the exception raised. -/

namespace SuperScaler.TfAdapter
open SuperScaler.TF SuperScaler.Py SuperScaler.IR SuperScaler.GraphUtil

/-- `__from_attr_proto(attr_value)`: the Python value of the field that is set; a list value
gives the items of its first non-empty field. An unset value falls through every branch and
gives `None`. -/
def fromAttrProto : AttrValue → Except PyError PyValue
  | .unset => .ok .none
  | .s value => .ok (.bytes value)
  | .i value => .ok (.int value)
  | .f value => .ok (.float value)
  | .b value => .ok (.bool value)
  | .type value => .dtype <$> asDtype (.int value)
  | .shape value => .shape <$> shapeOfProto value
  | .tensor value => .ok (.tensor value)
  | .func value => .ok (.nameAttrList value)
  | .placeholder value => .ok (.str value)
  | .list value =>
    if value.s ≠ [] then .ok (.list (value.s.map .bytes))
    else if value.i ≠ [] then .ok (.list (value.i.map .int))
    else if value.f ≠ [] then .ok (.list (value.f.map .float))
    else if value.b ≠ [] then .ok (.list (value.b.map .bool))
    else if value.type ≠ [] then .list <$> value.type.mapM fun enum => .dtype <$> asDtype (.int enum)
    else if value.shape ≠ [] then .list <$> value.shape.mapM fun shape => .shape <$> shapeOfProto shape
    else if value.tensor ≠ [] then .ok (.list (value.tensor.map .tensor))
    else if value.func ≠ [] then .ok (.list (value.func.map .nameAttrList))
    else .ok (.list [])

/-- `{attr_name: __from_attr_proto(tf_node.attr[attr_name]) for attr_name in tf_node.attr}`. -/
def decodeAttrs : List (String × AttrValue) → Except PyError PyDict
  | [] => .ok []
  | (key, value) :: rest => do
    let decoded ← fromAttrProto value
    let others ← decodeAttrs rest
    pure ((key, decoded) :: others)

/-- `_MakeStr`: a `str` is encoded as UTF-8, `bytes` are kept. -/
def makeStr : PyValue → Except PyError Bytes
  | .bytes value => .ok value
  | .str value => .ok (encodeUtf8 value)
  | _ => .error .typeError

/-- `_MakeInt`: `int(v)`, refused for a `str`; a `ValueError` of `int` becomes `TypeError`. -/
def makeInt : PyValue → Except PyError Int
  | .int value => .ok value
  | .bool flag => .ok (if flag then 1 else 0)
  | .float bits => (float32Trunc bits).mapError fun error => if error = .valueError then .typeError else error
  | .bytes text => (parseInt text).mapError fun _ => .typeError
  | .dtype enum => .ok enum
  | _ => .error .typeError

/-- `_MakeFloat`: `float(v)` of a real number, stored in a `float` field. A float read from a
`float` field goes back with its bit pattern; that CPython quiets a signalling NaN on the way
is not modelled. -/
def makeFloat : PyValue → Except PyError Float32
  | .float bits => .ok bits
  | .int value => float32OfInt value
  | .bool flag => .ok (if flag then 0x3F800000 else 0)
  | _ => .error .typeError

/-- `_MakeBool`. -/
def makeBool : PyValue → Except PyError Bool
  | .bool flag => .ok flag
  | _ => .error .typeError

/-- `_MakeType`: the base dtype of `tf.as_dtype(v)`, which must be among the allowed values
when the attribute definition has them. -/
def makeType (value : PyValue) (attrDef : AttrDef) : Except PyError Int := do
  let base := baseDtype (← asDtype value)
  match attrDef.allowedValues with
  | some allowed => if base ∈ allowed.listField.type then pure base else throw .typeError
  | none => pure base

/-- `_MakeShape`: `tensor_shape.as_shape(v).as_proto()`. -/
def makeShape (value : PyValue) : Except PyError TensorShapeProto := shapeAsProto <$> asShape value

/-- `_MakeTensor`. -/
def makeTensor : PyValue → Except PyError TensorProto
  | .tensor value => .ok value
  | _ => .error .typeError

/-- The items of a Python list; other values have none. -/
def listItems : PyValue → List PyValue
  | .list items => items
  | _ => []

/-- A `list(...)` attribute takes a list (`_IsListValue`) of at least `minimum` items. -/
def checkListValue (attrDef : AttrDef) : PyValue → Except PyError Unit
  | .list items => if attrDef.hasMinimum ∧ (items.length : Int) < attrDef.minimum then .error .valueError else .ok ()
  | _ => .error .typeError

/-- A string attribute with allowed values takes only those. -/
def checkAllowedString (attrDef : AttrDef) (value : Bytes) : Except PyError Unit :=
  match attrDef.allowedValues with
  | some allowed => if value ∈ allowed.listField.s then .ok () else .error .valueError
  | none => .ok ()

/-- The conversion of `value` under `attr_def` after the `default_value` check: the list
check, then one branch per attribute type. -/
def encodeValue (attrDef : AttrDef) (value : PyValue) : Except PyError AttrValue := do
  if startswith attrDef.type "list(" then checkListValue attrDef value
  let items := listItems value
  if attrDef.type = "string" then
    let text ← makeStr value
    checkAllowedString attrDef text
    pure (.s text)
  else if attrDef.type = "list(string)" then
    let texts ← items.mapM makeStr
    texts.forM (checkAllowedString attrDef)
    pure (.list { s := texts })
  else if attrDef.type = "int" then
    let number ← makeInt value
    if number < attrDef.minimum ∧ attrDef.hasMinimum then throw .valueError
    pure (.i number)
  else if attrDef.type = "list(int)" then return .list { i := ← items.mapM makeInt }
  else if attrDef.type = "float" then return .f (← makeFloat value)
  else if attrDef.type = "list(float)" then return .list { f := ← items.mapM makeFloat }
  else if attrDef.type = "bool" then return .b (← makeBool value)
  else if attrDef.type = "list(bool)" then return .list { b := ← items.mapM makeBool }
  else if attrDef.type = "type" then return .type (← makeType value attrDef)
  else if attrDef.type = "list(type)" then return .list { type := ← items.mapM fun item => makeType item attrDef }
  else if attrDef.type = "shape" then return .shape (← makeShape value)
  else if attrDef.type = "list(shape)" then return .list { shape := ← items.mapM makeShape }
  else if attrDef.type = "tensor" then return .tensor (← makeTensor value)
  else if attrDef.type = "list(tensor)" then return .list { tensor := ← items.mapM makeTensor }
  else if attrDef.type = "func" then
    match value with
    | .nameAttrList func => pure (.func func)
    | .str name => pure (.func ⟨name, []⟩)
    | .bytes name =>
      match String.fromUTF8? ⟨name.toArray⟩ with
      | some text => pure (.func ⟨text, []⟩)
      | none => throw .valueError
    | _ => throw .attributeError
  else throw .typeError

/-- The body of the loop of `__sc_attrs_to_tf_attrs_proto` from the `default_value` check
on: the `AttrValue` of `value` under `attr_def`. -/
def encodeAttr (attrDef : AttrDef) (value : PyValue) : Except PyError AttrValue :=
  match attrDef.defaultValue, value with
  | some default, .none => .ok default
  | _, _ => encodeValue attrDef value

/-- The attribute type inferred for a list value of an undeclared key, from its first item. -/
def listItemType : PyValue → Option String
  | .str _ | .bytes _ => some "list(string)"
  | .bool _ => some "list(bool)"
  | .int _ => some "list(int)"
  | .float _ => some "list(float)"
  | .dtype _ => some "list(type)"
  | .shape _ => some "list(shape)"
  | .tensor _ => some "list(tensor)"
  | _ => none

/-- The attribute type inferred for a value of an undeclared key by the `isinstance` chain. -/
def inferredType : PyValue → Option String
  | .str _ | .bytes _ => some "string"
  | .float _ => some "float"
  | .bool _ => some "bool"
  | .int _ => some "int"
  | .dtype _ => some "type"
  | .shape _ => some "shape"
  | .tensor _ => some "tensor"
  | .nameAttrList _ => some "func"
  | .list (first :: _) => listItemType first
  | _ => none

/-- The `attr_defs` dict of the op: the last definition of a name wins. -/
def lookupAttrDef (opDef : OpDef) (key : String) : Option AttrDef :=
  opDef.attr.reverse.find? (·.name == key)

/-- One attribute of `__sc_attrs_to_tf_attrs_proto`: under its declared definition; an
undeclared `None` is the empty `AttrValue` and an undeclared empty list the empty list value;
any other undeclared value goes under the type inferred from it, and raises `RuntimeError`
when none is. -/
def attrProto (opDef : OpDef) (key : String) (value : PyValue) : Except PyError AttrValue :=
  match lookupAttrDef opDef key, value with
  | some attrDef, value => encodeAttr attrDef value
  | none, .none => .ok .unset
  | none, .list [] => .ok (.list {})
  | none, value =>
    match inferredType value with
    | some type => encodeAttr { name := "", type } value
    | none => .error .runtimeError

/-- `__sc_attrs_to_tf_attrs_proto(op_def, op_type_name, attrs)`; the op type name only appears
in log messages. -/
def scAttrsToTfAttrsProto (opDef : OpDef) : PyDict → Except PyError (List (String × AttrValue))
  | [] => .ok []
  | (key, value) :: rest => do
    let proto ← attrProto opDef key value
    let others ← scAttrsToTfAttrsProto opDef rest
    pure ((key, proto) :: others)

/-- `op_def.attr` searched in order for the attribute of a name. -/
def findAttr (opDef : OpDef) (name : String) : Option AttrDef := opDef.attr.find? (·.name == name)

/-- `with_number_attr(dtype)` inside `__get_dtype_proto`: `N` copies of the dtype when the
output argument has a `number_attr`. -/
def withNumberAttr (nodeDef : NodeDef) (opDef : OpDef) (outputArg : ArgDef) (dtype : PyValue) :
    Except PyError PyValue :=
  if outputArg.numberAttr.length ≠ 0 then
    match findAttr opDef outputArg.numberAttr with
    | some attr => .ok (.list (List.replicate (nodeDef.attrAt attr.name).iField.toNat dtype))
    | none => .error .assertionError
  else .ok dtype

/-- `__get_dtype_proto(node_def, op_def, output_arg)`: one dtype enum, or a list of them. -/
def getDtypeProto (nodeDef : NodeDef) (opDef : OpDef) (outputArg : ArgDef) : Except PyError PyValue :=
  if outputArg.typeAttr.length ≠ 0 then
    match findAttr opDef outputArg.typeAttr with
    | some attr => withNumberAttr nodeDef opDef outputArg (.int (nodeDef.attrAt attr.name).typeField)
    | none => .error .assertionError
  else if outputArg.typeListAttr.length ≠ 0 then
    match findAttr opDef outputArg.typeListAttr with
    | some attr => .ok (.list ((nodeDef.attrAt attr.name).listField.type.map .int))
    | none => .error .assertionError
  else if outputArg.type = 0 then .error .assertionError
  else withNumberAttr nodeDef opDef outputArg (.int outputArg.type)

/-- The op registry of `tf.Graph()`. -/
abbrev OpRegistry := String → Option OpDef

/-- `tf_graph._get_op_def(op)`. -/
def getOpDef (registry : OpRegistry) (op : String) : Except PyError OpDef :=
  match registry op with
  | some opDef => .ok opDef
  | none => .error .notFoundError

/-- `if len(dtypes) == 1 and isinstance(dtypes[0], list): dtypes = dtypes[0]`. -/
def flattenSingleList : List PyValue → List PyValue
  | [.list items] => items
  | other => other

theorem flattenSingleList_cons_cons (first second : PyValue) (rest : List PyValue) :
    flattenSingleList (first :: second :: rest) = first :: second :: rest := by
  cases first <;> rfl

/-- `__get_dtypes(tf_graph, node_def)`: the dtype of every output argument; a single list is
flattened, and `tf.as_dtype` is applied to each entry. -/
def getDtypes (registry : OpRegistry) (nodeDef : NodeDef) : Except PyError (List Int) := do
  let opDef ← getOpDef registry nodeDef.op
  let dtypes ← opDef.outputArg.mapM (getDtypeProto nodeDef opDef)
  (flattenSingleList dtypes).mapM asDtype

/-- The runtime configuration: the names `tf.Session.run` initializes, feeds, fetches (as
`name` or `name:k`) and runs as targets. -/
structure RuntimeConfig where
  inits : List String
  feeds : List String
  fetches : List String
  targets : List String
  deriving DecidableEq, Repr

/-- Whether `re.match("^_.*$", name)` matches: a leading underscore, and no line break but
possibly a final one. -/
def startsWithUnderscore (name : String) : Bool :=
  match name.data with
  | '_' :: rest => !(if rest.getLast? = some '\n' then rest.dropLast else rest).contains '\n'
  | _ => false

/-- `add_sc_before_underscore(name)`. -/
def addScBeforeUnderscore (name : String) : String :=
  if startsWithUnderscore name then "sc" ++ name else name

/-- `curr.split(":")[0]`: the node a fetch entry names. -/
def fetchName (entry : String) : String := (strSplit entry ':').headD ""

/-- The output a fetch entry reads: `-1` for a bare name, else `int(curr.split(":")[1])`. -/
def fetchIndex (entry : String) : Except PyError Int :=
  let parts := strSplit entry ':'
  if parts.length = 1 then .ok (-1) else parseIntStr (parts.getD 1 "")

/-- The loop of `mark_runtime_info` over `tf_runtime_config["fetches"]`, which removes the
entries it matches while it iterates: Python's list iterator reads the item at the next
index of the shortened list, so the entry after a removed one is skipped. Each round moves
the index up and the list never grows, so its length is enough fuel. -/
def markFetches (name : String) : Nat → Nat → List String → List Int → Except PyError (List Int × List String)
  | 0, _, fetches, found => .ok (found, fetches)
  | fuel + 1, index, fetches, found =>
    match fetches[index]? with
    | none => .ok (found, fetches)
    | some curr =>
      if name = fetchName curr then do
        let outputIndex ← fetchIndex curr
        markFetches name fuel (index + 1) (fetches.erase curr) (found ++ [outputIndex])
      else markFetches name fuel (index + 1) fetches found

/-- `name in entries`, and the entries with it removed. -/
def takeEntry (name : String) (entries : List String) : Bool × List String :=
  if name ∈ entries then (true, entries.erase name) else (false, entries)

/-- A value read as a dict that must be one: absent is a new empty dict, any other value
raises `TypeError` when it is used as a dict. -/
def dictOrEmpty : Option PyValue → Except PyError PyDict
  | none => .ok []
  | some (.dict entries) => .ok entries
  | some _ => .error .typeError

/-- `mark_runtime_info(sc_node, tf_runtime_config)`: records in
`attrs["sc_metadata"]["runtime_config"]` which entries name the node, and removes them from
the configuration. -/
def markRuntimeInfo (name : String) (attrs : PyDict) (config : RuntimeConfig) :
    Except PyError (PyDict × RuntimeConfig) := do
  let metadata ← dictOrEmpty (attrs.get? "sc_metadata")
  let runtime ← dictOrEmpty (metadata.get? "runtime_config")
  let (init, inits) := takeEntry name config.inits
  let (feed, feeds) := takeEntry name config.feeds
  let (fetch, fetches) ← markFetches name config.fetches.length 0 config.fetches []
  let (target, targets) := takeEntry name config.targets
  let runtime := (((runtime.setItem "init" (.bool init)).setItem "feed" (.bool feed)).setItem "fetch"
    (.list (fetch.map .int))).setItem "target" (.bool target)
  pure (attrs.setItem "sc_metadata" (.dict (metadata.setItem "runtime_config" (.dict runtime))),
    ⟨inits, feeds, fetches, targets⟩)

/-- The node an input of `add_sc_node` names, when it is already in the graph. Otherwise the
code looks it up in `name_to_node` (a `KeyError` if it is not there) and calls
`add_sc_node(name_to_node[name])` with one argument where three are required, which raises
`TypeError`. -/
def inputNode (graph : Graph) (names : List String) (name : String) : Except PyError Nat :=
  match graph.getNodeByName name with
  | some position => .ok position
  | none => if name ∈ names then .error .typeError else .error .keyError

/-- One input of `add_sc_node`: `^name` is a control edge from output `-1`, `name:k` reads
output `k`, and a bare name output `0`. -/
def inputEdge (graph : Graph) (names : List String) (input : String) : Except PyError (Nat × Int) :=
  if startswith input "^" then do
    let position ← inputNode graph names (addScBeforeUnderscore ⟨input.data.drop 1⟩)
    pure (position, -1)
  else do
    let parts := strSplit input ':'
    if parts.length ≠ 1 ∧ parts.length ≠ 2 then throw .assertionError
    let position ← inputNode graph names (addScBeforeUnderscore (parts.headD ""))
    let index ← if parts.length = 1 then pure 0 else parseIntStr (parts.getD 1 "")
    pure (position, index)

/-- What the import takes as given: the op registry, and `tf_op_map_to_sc_op` of the module
`tensorflow_ops`, which is not among the sources. -/
structure Tf where
  registry : OpRegistry
  toScOp : OpDef → Operator

/-- `add_sc_node(sc_graph, tf_node, name_to_node)`. Its guard reads `node`, the variable of
the enclosing function's first loop, which holds the last node of the `GraphDef` by then; so
does the copy of `experimental_debug_info`. -/
def addScNode (tf : Tf) (last : NodeDef) (names : List String) (state : Graph × RuntimeConfig)
    (tfNode : NodeDef) : Except PyError (Graph × RuntimeConfig) := do
  let (graph, config) := state
  if (graph.getNodeByName last.name).isSome then return state
  let inputs ← tfNode.input.mapM (inputEdge graph names)
  let attrs ← decodeAttrs tfNode.attr
  let dtypes ← getDtypes tf.registry tfNode
  let opDef ← getOpDef tf.registry tfNode.op
  let debugInfo : PyDict := match tfNode.experimentalDebugInfo with
    | some _ => [("experimental_debug_info", .list ((last.experimentalDebugInfo.getD []).map .str))]
    | none => []
  let tfInfo : PyDict := [("device", .str ""), ("dtypes", .list (dtypes.map .dtype))] ++ debugInfo
  let (attrs, config) ← markRuntimeInfo tfNode.name (attrs.setItem "tf" (.dict tfInfo)) config
  pure ((graph.addNodeAndEdge tfNode.name (tf.toScOp opDef) inputs dtypes.length attrs).1, config)

/-- The leftover check: an entry that named no node raises `RuntimeError`. -/
def checkLeftover (config : RuntimeConfig) : Except PyError Unit :=
  if config.inits = [] ∧ config.feeds = [] ∧ config.fetches = [] ∧ config.targets = [] then .ok ()
  else .error .runtimeError

/-- The first loop of `__import_graph_from_tf_graph_def`: names with a leading underscore get
an `sc` prefix. -/
def renameNodes (graphDef : GraphDef) : List NodeDef :=
  graphDef.node.map fun node => { node with name := addScBeforeUnderscore node.name }

/-- `__import_graph_from_tf_graph_def(tf_graph_def, tf_runtime_config)`. The graph attributes
it sets afterwards (versions, library, meta graph) are not modelled. -/
def importGraphFromTfGraphDef (tf : Tf) (graphDef : GraphDef) (config : RuntimeConfig) : Except PyError Graph := do
  let nodes := renameNodes graphDef
  match nodes.getLast? with
  | none => do
    checkLeftover config
    pure ⟨[]⟩
  | some last =>
    let (graph, config) ← nodes.foldlM (addScNode tf last (nodes.map (·.name))) (⟨[]⟩, config)
    checkLeftover config
    pure graph

/-- The input string `export_graph_to_tf_file` writes for an in-edge from output `srcIdx` of
the node named `srcName`: `^name` for a control edge, the bare name for output 0, and
`name:k` otherwise. -/
def inEdgeStr (srcName : String) (srcIdx : Int) : String :=
  if srcIdx = -1 then "^" ++ srcName
  else if srcIdx = 0 then srcName
  else srcName ++ ":" ++ toString srcIdx

/-- The inputs `export_graph_to_tf_file` writes for a node of the sc graph: one per in-edge,
in order. -/
def exportInputs (graph : Graph) (node : Node) : List String :=
  node.inEdges.map fun edge => inEdgeStr (graph.node edge.srcNode).name edge.srcIdx

/-- `kernels.get_registered_kernels_for_op(op).kernel`: the kernels registered for an op. -/
abbrev KernelRegistry := String → List KernelDef

/-- `tf_node.attr[name]` on the message map: the value, and the node with an empty value added
at `name` when the key was missing, since reading a missing key of a message map adds it. -/
def attrEntry (node : NodeDef) (name : String) : AttrValue × NodeDef :=
  match node.attr.find? (·.1 == name) with
  | some (_, value) => (value, node)
  | none => (.unset, { node with attr := node.attr ++ [(name, .unset)] })

/-- The constraint loop of `support_GPU` for one kernel: it stops at the first constraint with
allowed values that do not hold the node's `type` attribute. -/
def kernelSuitable : List AttrConstraint → NodeDef → Bool × NodeDef
  | [], node => (true, node)
  | constraint :: rest, node =>
    match constraint.allowedValues with
    | none => kernelSuitable rest node
    | some allowed =>
      let (value, node) := attrEntry node constraint.name
      if value.typeField ∈ allowed.listField.type then kernelSuitable rest node else (false, node)

/-- `support_GPU(tf_node)`: whether some kernel for the GPU accepts the node, and the node with
the attributes the constraints read. An op with no kernel raises `RuntimeError`. -/
def supportGPU (kernels : KernelRegistry) (node : NodeDef) : Except PyError (Bool × NodeDef) :=
  if node.op ∈ ["MakeIterator", "IteratorV2", "IteratorGetNext"] then .ok (false, node)
  else if node.op ∈ ["NoOp"] then .ok (true, node)
  else if (kernels node.op).length < 1 then .error .runtimeError
  else .ok ((kernels node.op).foldl (fun (found, node) kernel =>
    let (suitable, node) := kernelSuitable kernel.constraint node
    (found || suitable && kernel.deviceType == "GPU", node)) (false, node))

/-- Rule 1 of `__set_device_info` for one node: a node no GPU kernel accepts goes on the CPU. -/
def placeOnCpu (kernels : KernelRegistry) (tfNode : PlacedNode) : Except PyError PlacedNode := do
  let (gpu, node) ← supportGPU kernels tfNode.node
  pure ⟨node, if gpu then tfNode.device else "/device:CPU:0"⟩

/-- `name_to_node[name]` after the first loop of `__set_device_info`: the position of the last
node of the name. -/
def nameToNode (nodes : List PlacedNode) (name : String) : Option Nat :=
  nodes.enum.foldl (fun found (position, tfNode) => if tfNode.node.name = name then some position else found) none

/-- `input[1:] if input.startswith("^") else input.split(":")[0]`: the node an input names. -/
def inputName (input : String) : String :=
  if startswith input "^" then ⟨input.data.drop 1⟩ else (strSplit input ':').headD ""

/-- Heuristic A for one input of the node at `consumer`: the node the input names takes the
consumer's device when it has no input (`name_to_node[name] in no_input_nodes`: the first loop
lists the nodes with no input, and a node with an input equals none of them). A name of no
node raises `KeyError`. -/
def placeGenerator (lookup : String → Option Nat) (consumer : Nat) (nodes : List PlacedNode) (input : String) :
    Except PyError (List PlacedNode) :=
  match lookup (inputName input) with
  | none => .error .keyError
  | some generator =>
    match nodes[generator]?, nodes[consumer]? with
    | some source, some reader =>
      .ok (if source.node.input = [] then nodes.set generator { source with device := reader.device } else nodes)
    | _, _ => .ok nodes

/-- `__set_device_info(graph_def)` on the nodes of the `GraphDef` that `export_graph_to_tf_file`
builds: rule 1 over every node, then heuristic A over every input of every node. -/
def setDeviceInfo (kernels : KernelRegistry) (nodes : List PlacedNode) : Except PyError (List PlacedNode) := do
  let nodes ← nodes.mapM (placeOnCpu kernels)
  nodes.enum.foldlM (fun placed (consumer, tfNode) =>
    tfNode.node.input.foldlM (placeGenerator (nameToNode nodes) consumer) placed) nodes

/-- What the export takes as given: `convert_to_tf_node` of `tensorflow_ops`, which prepares an
sc node for TensorFlow in place, and the `original_name` of an `AllreduceOp`; neither module is
among the sources. -/
structure TfOps where
  convertToTfNode : Node → Node
  allreduceName : String

/-- `sc_node.op.original_name`. -/
def originalName (ops : TfOps) : Operator → String
  | .applyOp name _ => name
  | .other name => name
  | .allreduceOp => ops.allreduceName

/-- A value assigned to a `string` field of a protobuf message: a `str`, or `bytes` that decode
as UTF-8 (`ValueError` otherwise); any other value raises `TypeError`. -/
def stringField : PyValue → Except PyError String
  | .str text => .ok text
  | .bytes raw =>
    match String.fromUTF8? ⟨raw.toArray⟩ with
    | some text => .ok text
    | none => .error .valueError
  | _ => .error .typeError

/-- The attributes of an sc node that the export leaves out of its `NodeDef`. -/
def internalKeys : List String := ["tf", "sc_metadata"]

/-- One round of the loop of `export_graph_to_tf_file` over `sc_graph.nodes`:
`convert_to_tf_node` changes the node at `position` in place, and its `NodeDef` goes last, on
the device `attrs["tf"]["device"]`. When `attrs["tf"]` has an `experimental_debug_info`, the
code copies `attrs["experimental_debug_info"]` instead, which raises `KeyError` when absent and
`TypeError` otherwise: no Python value of the model is a `DebugInfo` message. -/
def exportNode (ops : TfOps) (registry : OpRegistry) (state : Graph × List PlacedNode) (position : Nat) :
    Except PyError (Graph × List PlacedNode) := do
  let graph := state.1.updateNode position ops.convertToTfNode
  let scNode := graph.node position
  let attrs := scNode.attrs.filter fun entry => entry.1 ∉ internalKeys
  let tfInfo ← match ← scNode.attrs.getItem "tf" with
    | .dict entries => pure entries
    | _ => throw .typeError
  let device ← stringField (← PyDict.getItem tfInfo "device")
  if (PyDict.get? tfInfo "experimental_debug_info").isSome then
    match scNode.attrs.get? "experimental_debug_info" with
    | none => throw .keyError
    | some _ => throw .typeError
  let op := originalName ops scNode.op
  let attr ← scAttrsToTfAttrsProto (← getOpDef registry op) attrs
  pure (graph, state.2 ++ [⟨⟨scNode.name, op, exportInputs graph scNode, attr, none⟩, device⟩])

/-- `export_graph_to_tf_file(sc_graph)` up to `__set_device_info`: the nodes of the `GraphDef`
it builds, placed. The check for the custom-op library, the graph attributes `versions` and
`library`, the round through `tf.import_graph_def` that adds output shapes, and the text it
prints are not modelled. -/
def exportGraphToTfFile (ops : TfOps) (registry : OpRegistry) (kernels : KernelRegistry) (graph : Graph) :
    Except PyError (List PlacedNode) := do
  let (_, nodes) ← (List.range graph.nodes.length).foldlM (exportNode ops registry) (graph, [])
  setDeviceInfo kernels nodes

/-- `"%d" % idx`, and whether `idx == -1`, for the integers and booleans the list holds. -/
def fetchEntry (name : String) : PyValue → Except PyError String
  | .int index => .ok (if index = -1 then name else name ++ ":" ++ toString index)
  | .bool flag => .ok (name ++ ":" ++ if flag then "1" else "0")
  | _ => .error .typeError

/-- One output node's contribution to `get_tf_runtime_config`. -/
def collectRuntimeConfig (config : RuntimeConfig) (node : Node) : Except PyError RuntimeConfig := do
  let runtime ← getItemOf (← node.attrs.getItem "sc_metadata") "runtime_config"
  let init := pyTruth (← getItemOf runtime "init")
  let feed := pyTruth (← getItemOf runtime "feed")
  let target := pyTruth (← getItemOf runtime "target")
  let fetched ← match ← getItemOf runtime "fetch" with
    | .list items => items.mapM (fetchEntry node.name)
    | _ => throw .typeError
  pure ⟨config.inits ++ (if init then [node.name] else []), config.feeds ++ (if feed then [node.name] else []),
    config.fetches ++ fetched, config.targets ++ (if target then [node.name] else [])⟩

/-- `get_tf_runtime_config(sc_graph)`: the entries recorded on the output nodes, in the order
Python iterates the set of output nodes. -/
def getTfRuntimeConfig (order : SetOrder) (graph : Graph) : Except PyError RuntimeConfig := do
  let outputs ← getOutputNodes graph
  (order.enum outputs).foldlM (fun config position => collectRuntimeConfig config (graph.node position)) ⟨[], [], [], []⟩

/-- `DATASET_PATH` in ASCII. -/
def datasetPathTag : Bytes := [68, 65, 84, 65, 83, 69, 84, 95, 80, 65, 84, 72]

/-- The text after `DATASET_PATH:` of a node that `set_dataset_paths` treats as a placeholder:
a `Const` node with a `value` attribute whose tensor holds one string, which splits at `:`
into more than one part, the first `DATASET_PATH`. -/
def datasetPathFlag (tfNode : NodeDef) : Option Bytes :=
  if tfNode.op = "Const" ∧ (tfNode.attr.find? (·.1 == "value")).isSome then
    match (tfNode.attrAt "value").tensorField.stringVal with
    | [flag] =>
      let parts := pySplit 58 flag
      if 1 < parts.length ∧ parts.headD [] = datasetPathTag then some (parts.getD 1 []) else none
    | _ => none
  else none

/-- `tf_node.attr["value"].tensor.string_val[0] = path`. -/
def replaceStringVal (tfNode : NodeDef) (path : Bytes) : NodeDef :=
  let value : AttrValue := .tensor { (tfNode.attrAt "value").tensorField with stringVal := [path] }
  { tfNode with attr := tfNode.attr.map fun entry => if entry.1 = "value" then ("value", value) else entry }

/-- The loop body of `set_dataset_paths` for one node: a placeholder `DATASET_PATH:i` gets
`paths[i]` in its place. The result tells whether the node counted. -/
def setDatasetPath (paths : List PyValue) (tfNode : NodeDef) : Except PyError (NodeDef × Bool) :=
  match datasetPathFlag tfNode with
  | some text => do
    let index ← parseInt text
    let path ← makeStr (← pyIndex paths index)
    pure (replaceStringVal tfNode path, true)
  | none => .ok (tfNode, false)

/-- `set_dataset_paths(graph, paths)` on the parsed `GraphDef`; the text format that the
function parses and prints is not modelled. The count of replaced placeholders must be
`len(paths)`. -/
def setDatasetPaths (graphDef : GraphDef) (paths : List PyValue) : Except PyError GraphDef := do
  let replaced ← graphDef.node.mapM (setDatasetPath paths)
  if (replaced.filter (·.2)).length = paths.length then pure ⟨replaced.map (·.1)⟩
  else throw .assertionError

end SuperScaler.TfAdapter
