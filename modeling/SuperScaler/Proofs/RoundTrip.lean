import SuperScaler.Proofs.Import
import SuperScaler.Proofs.Attributes

/-! A `GraphDef` imported by `__import_graph_from_tf_graph_def` and exported again by
`export_graph_to_tf_file`. The import keeps on each sc node the decoded attributes with two
entries of its own after them, `tf` and `sc_metadata`; the export drops those two, reads the
device from `tf`, encodes the other attributes under the op's definition, and prints each
in-edge as an input. So the export gives back the `GraphDef` in canonical form, placed by
`__set_device_info`. Debug info does not come back: the import keeps it under `tf`, where the
export looks for it, but the export copies it from the attributes, where it is not.
`convert_to_tf_node` and `tf_op_map_to_sc_op` are not among the sources; what the round trip
needs of them is a hypothesis. -/

namespace SuperScaler.Proofs.RoundTrip
open SuperScaler.TF SuperScaler.Py SuperScaler.IR SuperScaler.TfAdapter
open SuperScaler.Proofs.Import SuperScaler.Proofs.Attributes

private theorem filter_setItem {dict : PyDict} {key : String} {keys : List String} (value : PyValue) (dropped : key ∈ keys) :
    (dict.setItem key value).filter (fun entry => entry.1 ∉ keys) = dict.filter fun entry => entry.1 ∉ keys := by
  induction dict with
  | nil => simp [PyDict.setItem, dropped]
  | cons entry rest ih =>
    by_cases same : entry.1 = key
    · simp [PyDict.setItem, same, dropped]
    · simp only [PyDict.setItem, same, if_false, List.filter_cons, ih]

private theorem markRuntimeInfo_attrs {name : String} {attrs after : PyDict} {config next : RuntimeConfig}
    (marked : markRuntimeInfo name attrs config = .ok (after, next)) :
    ∃ metadata, after = attrs.setItem "sc_metadata" metadata := by
  simp only [markRuntimeInfo] at marked
  obtain ⟨_, -, marked⟩ := bind_eq_ok marked
  obtain ⟨_, -, marked⟩ := bind_eq_ok marked
  obtain ⟨_, -, marked⟩ := bind_eq_ok marked
  simp only [pure_eq_ok, Except.ok.injEq, Prod.mk.injEq] at marked
  exact ⟨_, marked.1.symm⟩

section Import
variable (tf : Tf) (graphDef : GraphDef)

/-- What the import leaves on the sc node of `node` that the export reads: the operator
`tf_op_map_to_sc_op` gives for the node's op def, and the decoded attributes with `tf` and
`sc_metadata` set after them, where `tf` holds the device `""`, and debug info just when the
node has some. -/
structure Translated (node : NodeDef) (scNode : Node) : Prop where
  op : ∃ opDef, tf.registry node.op = some opDef ∧ scNode.op = tf.toScOp opDef
  attrs : ∃ decoded tfInfo metadata, decodeAttrs node.attr = .ok decoded ∧
    scNode.attrs = (decoded.setItem "tf" (.dict tfInfo)).setItem "sc_metadata" metadata ∧
    PyDict.getItem tfInfo "device" = .ok (.str "") ∧
    (PyDict.get? tfInfo "experimental_debug_info").isSome = node.experimentalDebugInfo.isSome

/-- The sc graph the import builds, as the export reads it: one node per node, named as
`nodeNames` lists them, with the in-edges of its inputs, and translated. -/
structure Imported (graph : Graph) : Prop where
  names : graph.nodes.map (·.name) = nodeNames graphDef
  edges : ∀ position node, (renameNodes graphDef)[position]? = some node →
    (graph.node position).inEdges = expectedEdges graphDef position node
  translated : ∀ position node, (renameNodes graphDef)[position]? = some node → Translated tf node (graph.node position)

variable {tf graphDef}

private theorem addScNode_translated {count : Nat} {state next : Graph × RuntimeConfig} {last node : NodeDef}
    (length : state.1.nodes.length = count) (grows : next.1.nodes.length = count + 1)
    (current : (renameNodes graphDef)[count]? = some node)
    (stepped : addScNode tf last (nodeNames graphDef) state node = .ok next)
    (translated : ∀ position other, position < count → (renameNodes graphDef)[position]? = some other →
      Translated tf other (state.1.node position)) :
    ∀ position other, position < count + 1 → (renameNodes graphDef)[position]? = some other →
      Translated tf other (next.1.node position) := by
  obtain ⟨graph, pending⟩ := state
  simp only [addScNode] at stepped
  split at stepped
  · cases stepped
    omega
  obtain ⟨_, -, stepped⟩ := bind_eq_ok stepped
  obtain ⟨_, -, stepped⟩ := bind_eq_ok stepped
  obtain ⟨decoded, decodes, stepped⟩ := bind_eq_ok stepped
  obtain ⟨_, -, stepped⟩ := bind_eq_ok stepped
  obtain ⟨opDef, found, stepped⟩ := bind_eq_ok stepped
  obtain ⟨⟨_, _⟩, marked, stepped⟩ := bind_eq_ok stepped
  cases stepped
  obtain ⟨metadata, rfl⟩ := markRuntimeInfo_attrs marked
  intro position other before listedAt
  rcases Nat.lt_succ_iff_lt_or_eq.mp before with before | rfl
  · rw [Graph.node_addNodeAndEdge_old _ _ _ _ _ _ (length ▸ before)]
    exact translated position other before listedAt
  · rw [current] at listedAt
    cases listedAt
    rw [← length, Graph.node_addNodeAndEdge_new]
    have registered : tf.registry node.op = some opDef := by
      unfold getOpDef at found
      split at found <;> cases found
      assumption
    refine ⟨⟨opDef, registered, rfl⟩, ⟨decoded, _, metadata, decodes, rfl, by simp [PyDict.getItem, PyDict.get?], ?_⟩⟩
    cases node.experimentalDebugInfo <;> simp [PyDict.get?]

private theorem loaded_length_eq {config : RuntimeConfig} {count : Nat} {state : Graph × RuntimeConfig}
    (loaded : Loaded graphDef config count state) (within : count ≤ (renameNodes graphDef).length) :
    state.1.nodes.length = count := by
  have lengths := congrArg List.length loaded.names
  simp only [List.length_map, List.length_take, nodeNames] at lengths
  omega

private theorem foldlM_translated (listed : Listed tf graphDef) {config : RuntimeConfig} (parsable : Parsable config)
    {last : NodeDef} (isLast : (renameNodes graphDef).getLast? = some last) :
    ∀ left count state final, count + left = (renameNodes graphDef).length → Loaded graphDef config count state →
      (∀ position node, position < count → (renameNodes graphDef)[position]? = some node →
        Translated tf node (state.1.node position)) →
      ((renameNodes graphDef).drop count).foldlM (addScNode tf last (nodeNames graphDef)) state = .ok final →
      ∀ position node, (renameNodes graphDef)[position]? = some node → Translated tf node (final.1.node position) := by
  intro left
  induction left with
  | zero =>
    intro count state final ended _ translated ran position node listedAt
    rw [Nat.add_zero] at ended
    subst ended
    rw [List.drop_length] at ran
    cases ran
    exact translated position node (List.getElem?_eq_some_iff.mp listedAt).1 listedAt
  | succ left ih =>
    intro count state final ended loaded translated ran
    have inside : count < (renameNodes graphDef).length := by omega
    rw [List.drop_eq_getElem_cons inside, List.foldlM_cons] at ran
    obtain ⟨next, stepped, ran⟩ := bind_eq_ok ran
    obtain ⟨_, stepped', loadedNext⟩ := addScNode_loaded listed parsable loaded (List.getElem?_eq_getElem inside) isLast
    rw [stepped] at stepped'
    cases stepped'
    exact ih (count + 1) next final (by omega) loadedNext
      (addScNode_translated (loaded_length_eq loaded inside.le) (loaded_length_eq loadedNext inside)
        (List.getElem?_eq_getElem inside) stepped translated) ran

private theorem import_imported (listed : Listed tf graphDef) {config : RuntimeConfig} (parsable : Parsable config)
    (covered : Covered graphDef config) :
    ∃ graph, importGraphFromTfGraphDef tf graphDef config = .ok graph ∧ Imported tf graphDef graph := by
  obtain ⟨graph, imported, loaded⟩ := import_loaded listed parsable covered
  refine ⟨graph, imported, ⟨?_, fun position node listedAt => ?_, fun position node listedAt => ?_⟩⟩
  · rw [loaded.names, List.take_of_length_le (by simp [nodeNames])]
  · exact loaded.edges position node (List.getElem?_eq_some_iff.mp listedAt).1 listedAt
  · cases isLast : (renameNodes graphDef).getLast? with
    | none => simp [List.getLast?_eq_none_iff.mp isLast] at listedAt
    | some last =>
      simp only [importGraphFromTfGraphDef, isLast] at imported
      obtain ⟨⟨final, _⟩, ran, checked⟩ := bind_eq_ok imported
      obtain ⟨_, -, checked⟩ := bind_eq_ok checked
      cases checked
      exact foldlM_translated listed parsable isLast _ 0 _ _ (Nat.zero_add _) (loaded_start graphDef config)
        (fun _ _ before => absurd before (Nat.not_lt_zero _)) ran position node listedAt

end Import

/-- What the export reads of an sc node: its name, operator, attributes and in-edges. -/
def exportView (node : Node) : String × Operator × PyDict × List Edge := (node.name, node.op, node.attrs, node.inEdges)

/-- A `convert_to_tf_node` that leaves what the export reads of a node as it is. -/
def KeepsExportView (ops : TfOps) : Prop := ∀ node, exportView (ops.convertToTfNode node) = exportView node

/-- An op registry and a `tf_op_map_to_sc_op` whose operators keep the name of the op their
definition is registered under. -/
def KeepsOpName (tf : Tf) (ops : TfOps) : Prop :=
  ∀ op opDef, tf.registry op = some opDef → originalName ops (tf.toScOp opDef) = op

/-- A `GraphDef` whose attributes the export gives back: none is called `tf`, and each is
admissible under the op's definition. -/
def Exportable (tf : Tf) (graphDef : GraphDef) : Prop :=
  ∀ node ∈ graphDef.node, (∀ entry ∈ node.attr, entry.1 ≠ "tf") ∧
    ∀ opDef, tf.registry node.op = some opDef → ∀ entry ∈ node.attr, Admissible opDef entry.1 entry.2

/-- The input the export prints for an input of a listed node: the node it names, after the
`sc` prefix, and the output it reads. -/
def canonicalInput (input : String) : String :=
  match inputSource input with
  | some (name, index) => inEdgeStr name index
  | none => input

/-- A node of a `GraphDef` as the import and the export give it back: inputs as the export
prints them, attributes in canonical form, and no debug info. -/
def canonicalNode (node : NodeDef) : NodeDef :=
  ⟨node.name, node.op, node.input.map canonicalInput, node.attr.map fun entry => (entry.1, canonical entry.2), none⟩

/-- A graph the export reads as it reads `graph`: the nodes of `graph`, some of them converted. -/
def SameView (current graph : Graph) : Prop :=
  current.nodes.length = graph.nodes.length ∧ ∀ position, exportView (current.node position) = exportView (graph.node position)

section Export
variable {tf : Tf} {ops : TfOps} {graphDef : GraphDef} {graph : Graph}

private theorem SameView.convert (keeps : KeepsExportView ops) {current : Graph} (same : SameView current graph)
    {position : Nat} (inside : position < graph.nodes.length) :
    SameView (current.updateNode position ops.convertToTfNode) graph := by
  refine ⟨by rw [Graph.length_updateNode, same.1], fun other => ?_⟩
  rw [Graph.node_updateNode _ _ _ _ (same.1 ▸ inside)]
  split
  next here => rw [keeps, same.2, here]
  next => exact same.2 other

private theorem renamed_mem {position : Nat} {node : NodeDef} (listedAt : (renameNodes graphDef)[position]? = some node) :
    ∃ original ∈ graphDef.node, node = { original with name := addScBeforeUnderscore original.name } := by
  simp only [renameNodes, List.getElem?_map, Option.map_eq_some'] at listedAt
  obtain ⟨original, found, rfl⟩ := listedAt
  exact ⟨original, List.getElem?_mem found, rfl⟩

theorem Imported.nodeName (imported : Imported tf graphDef graph) {source : Nat} {name : String}
    (found : (nodeNames graphDef)[source]? = some name) : (graph.node source).name = name := by
  rw [← imported.names, List.getElem?_map, Option.map_eq_some'] at found
  obtain ⟨scNode, located, rfl⟩ := found
  simp [Graph.node, List.getD_eq_getElem?_getD, located]

theorem Imported.length (imported : Imported tf graphDef graph) : graph.nodes.length = (renameNodes graphDef).length := by
  simpa only [List.length_map, nodeNames] using congrArg List.length imported.names

theorem Imported.inside (imported : Imported tf graphDef graph) {position : Nat} {node : NodeDef}
    (listedAt : (renameNodes graphDef)[position]? = some node) : position < graph.nodes.length :=
  imported.length ▸ (List.getElem?_eq_some_iff.mp listedAt).1

private theorem exportInputs_imported (listed : Listed tf graphDef) (imported : Imported tf graphDef graph) {current : Graph}
    (same : SameView current graph) {scNode : Node} {position : Nat} {node : NodeDef}
    (listedAt : (renameNodes graphDef)[position]? = some node)
    (edges : scNode.inEdges = expectedEdges graphDef position node) :
    exportInputs current scNode = node.input.map canonicalInput := by
  have forget : (fun (edge : Edge) => inEdgeStr (current.node edge.srcNode).name edge.srcIdx) ∘
      (fun (pair : Nat × Nat × Int) => Edge.mk pair.2.1 pair.2.2 position pair.1) =
      (fun (source : Nat × Int) => inEdgeStr (current.node source.1).name source.2) ∘ Prod.snd := rfl
  rw [exportInputs, edges, expectedEdges, List.map_map, forget, ← List.map_map, List.enum_map_snd, List.map_map]
  refine List.map_congr_left fun input member => ?_
  obtain ⟨source, -, name, index, named, parsed⟩ := listed.inputs position node listedAt input member
  have sameName := congrArg Prod.fst (same.2 source)
  simp only [exportView] at sameName
  simp only [Function.comp, expectedInput, canonicalInput, parsed, indexOf_of_getElem? listed.distinct named, sameName,
    imported.nodeName named]

private theorem filter_internalKeys {decoded : PyDict} (tfInfo metadata : PyValue)
    (plain : ∀ entry ∈ decoded, entry.1 ∉ internalKeys) :
    ((decoded.setItem "tf" tfInfo).setItem "sc_metadata" metadata).filter (fun entry => entry.1 ∉ internalKeys) =
      decoded := by
  rw [filter_setItem _ (by decide), filter_setItem _ (by decide), List.filter_eq_self]
  exact fun entry member => decide_eq_true (plain entry member)

private theorem exportNode_imported (listed : Listed tf graphDef) (imported : Imported tf graphDef graph)
    (exportable : Exportable tf graphDef) (keeps : KeepsExportView ops) (named : KeepsOpName tf ops)
    {current : Graph} (same : SameView current graph) (done : List PlacedNode) {position : Nat} {node : NodeDef}
    (listedAt : (renameNodes graphDef)[position]? = some node)
    (unnamed : node.experimentalDebugInfo.isSome → ∀ entry ∈ node.attr, entry.1 ≠ "experimental_debug_info") :
    exportNode ops tf.registry (current, done) position =
      if node.experimentalDebugInfo.isSome then .error .keyError
      else .ok (current.updateNode position ops.convertToTfNode, done ++ [⟨canonicalNode node, ""⟩]) := by
  have inside := imported.inside listedAt
  obtain ⟨⟨opDef, registered, opIs⟩, ⟨decoded, tfInfo, metadata, decodes, attrsIs, device, debug⟩⟩ :=
    imported.translated position node listedAt
  have view : exportView ((current.updateNode position ops.convertToTfNode).node position) =
      exportView (graph.node position) := by
    rw [Graph.node_updateNode_self _ _ _ (same.1 ▸ inside), keeps, same.2]
  simp only [exportView, Prod.mk.injEq] at view
  obtain ⟨nameIs, opIs', attrsIs', edgesIs⟩ := view
  have inputs := exportInputs_imported listed imported (same.convert keeps inside) listedAt
    ((edgesIs.trans (imported.edges position node listedAt)))
  obtain ⟨original, member, rfl⟩ := renamed_mem listedAt
  dsimp only at registered decodes debug unnamed inputs ⊢
  obtain ⟨notTf, admissible⟩ := exportable original member
  have keys := decodeAttrs_keys decodes
  have plain : ∀ entry ∈ decoded, entry.1 ∉ internalKeys := fun entry found => by
    have listedKey : entry.1 ∈ original.attr.map (·.1) := keys ▸ List.mem_map_of_mem _ found
    obtain ⟨attrEntry, attrMember, sameKey⟩ := List.mem_map.mp listedKey
    simp only [internalKeys, List.mem_cons, List.mem_singleton, List.not_mem_nil, or_false, not_or, ← sameKey]
    exact ⟨notTf _ attrMember, listed.noMetadata _ member _ attrMember⟩
  have tfEntry : PyDict.getItem ((current.updateNode position ops.convertToTfNode).node position).attrs "tf" =
      .ok (.dict tfInfo) := by
    rw [attrsIs', attrsIs, PyDict.getItem, PyDict.get?_setItem_other _ _ (by decide), PyDict.get?_setItem_self]
  have noDebugEntry : original.experimentalDebugInfo.isSome →
      ((current.updateNode position ops.convertToTfNode).node position).attrs.get? "experimental_debug_info" = none :=
    fun debugged => by
      rw [attrsIs', attrsIs, PyDict.get?_setItem_other _ _ (by decide), PyDict.get?_setItem_other _ _ (by decide)]
      exact get?_eq_none (keys ▸ fun named => absurd rfl (by
        obtain ⟨entry, found, sameKey⟩ := List.mem_map.mp named
        exact sameKey ▸ unnamed debugged entry found))
  simp only [exportNode, tfEntry, pure_eq_ok, ok_bind, device, stringField, debug]
  cases hasDebug : original.experimentalDebugInfo with
  | some info =>
    simp only [Option.isSome_some, if_true, noDebugEntry (by rw [hasDebug]; rfl)]
    rfl
  | none =>
    obtain ⟨decoded', decodes', encodes⟩ := decodeAttrs_admissible (admissible opDef registered)
    obtain rfl : decoded = decoded' := Except.ok.inj (decodes.symm.trans decodes')
    have nameIs' := imported.nodeName (by rw [nodeNames, List.getElem?_map, listedAt]; rfl)
    simp only [Option.isSome_none, if_false, Bool.false_eq_true, opIs', opIs, named _ _ registered, getOpDef,
      registered, attrsIs', attrsIs, filter_internalKeys _ _ plain, encodes, ok_bind, nameIs, nameIs', inputs]
    rfl

/-- The `NodeDef`s the export builds for the first `count` nodes of an imported graph. -/
def exported (graphDef : GraphDef) (count : Nat) : List PlacedNode :=
  ((renameNodes graphDef).take count).map fun node => ⟨canonicalNode node, ""⟩

private theorem exported_succ {count : Nat} {node : NodeDef} (listedAt : (renameNodes graphDef)[count]? = some node) :
    exported graphDef (count + 1) = exported graphDef count ++ [⟨canonicalNode node, ""⟩] := by
  rw [exported, exported, List.take_succ, listedAt, Option.toList_some, List.map_append, List.map_singleton]

private theorem renamed_debugInfo {position : Nat} {node : NodeDef} (noDebug : ∀ node ∈ graphDef.node, node.experimentalDebugInfo = none)
    (listedAt : (renameNodes graphDef)[position]? = some node) : node.experimentalDebugInfo = none := by
  obtain ⟨original, member, rfl⟩ := renamed_mem listedAt
  exact noDebug original member

section Loop
variable (listed : Listed tf graphDef) (imported : Imported tf graphDef graph) (exportable : Exportable tf graphDef)
  (keeps : KeepsExportView ops) (named : KeepsOpName tf ops)
include listed imported exportable keeps named

private theorem foldlM_exportNode_ok : ∀ count, count ≤ graph.nodes.length →
    (∀ position node, position < count → (renameNodes graphDef)[position]? = some node →
      node.experimentalDebugInfo = none) →
    ∃ current, SameView current graph ∧
      (List.range count).foldlM (exportNode ops tf.registry) (graph, []) = .ok (current, exported graphDef count)
  | 0, _, _ => ⟨graph, ⟨rfl, fun _ => rfl⟩, rfl⟩
  | count + 1, within, plain => by
    obtain ⟨current, same, ran⟩ :=
      foldlM_exportNode_ok count (by omega) fun position node before => plain position node (by omega)
    obtain ⟨node, listedAt⟩ : ∃ node, (renameNodes graphDef)[count]? = some node :=
      ⟨_, List.getElem?_eq_getElem (imported.length ▸ (by omega : count < graph.nodes.length))⟩
    have noDebug := plain count node (by omega) listedAt
    have stepped := exportNode_imported listed imported exportable keeps named same (exported graphDef count) listedAt
      (by simp [noDebug])
    rw [noDebug, Option.isSome_none, if_neg Bool.false_ne_true] at stepped
    refine ⟨_, same.convert keeps (imported.inside listedAt), ?_⟩
    rw [List.range_succ, List.foldlM_append, ran, ok_bind, List.foldlM_cons, stepped, ok_bind, List.foldlM_nil,
      exported_succ listedAt, pure_eq_ok]

end Loop

end Export

section RoundTrip
variable (tf : Tf) (ops : TfOps) (kernels : KernelRegistry) (graphDef : GraphDef) (config : RuntimeConfig)

/-- A `GraphDef` without debug info, imported and exported again, gives back its nodes in order
in canonical form, with the names the import gave them: each input printed from the in-edge
the import made of it, each attribute encoded as its canonical form, and no other attribute.
`__set_device_info` then places them from device `""`. -/
theorem export_of_import_canonical (listed : Listed tf graphDef) (parsable : Parsable config)
    (covered : Covered graphDef config) (exportable : Exportable tf graphDef)
    (noDebug : ∀ node ∈ graphDef.node, node.experimentalDebugInfo = none)
    (keeps : KeepsExportView ops) (named : KeepsOpName tf ops) :
    ∃ graph, importGraphFromTfGraphDef tf graphDef config = .ok graph ∧
      exportGraphToTfFile ops tf.registry kernels graph =
        setDeviceInfo kernels ((renameNodes graphDef).map fun node => ⟨canonicalNode node, ""⟩) := by
  obtain ⟨graph, imports, imported⟩ := import_imported listed parsable covered
  refine ⟨graph, imports, ?_⟩
  obtain ⟨_, -, ran⟩ := foldlM_exportNode_ok listed imported exportable keeps named graph.nodes.length le_rfl
    fun _ _ _ listedAt => renamed_debugInfo noDebug listedAt
  rw [exportGraphToTfFile, ran, ok_bind, exported, imported.length, List.take_length]

def plainOps : TfOps := ⟨id, "Allreduce"⟩

def cpuKernels : KernelRegistry := fun op => if op ∈ ["Const", "Identity"] then [⟨"CPU", []⟩] else []

private theorem plainOps_keeps : KeepsExportView plainOps := fun _ => rfl

private theorem constIdentity_keepsOpName : KeepsOpName constIdentity plainOps := by
  intro op opDef registered
  simp only [constIdentity] at registered
  split at registered
  next isConst => cases registered; exact isConst.symm
  next => split at registered <;> cases registered; next isIdentity => exact isIdentity.symm

private theorem chainDef_exportable : Exportable constIdentity chainDef := by
  intro node member
  rcases List.mem_pair.mp member with rfl | rfl
  · refine ⟨by decide, fun opDef registered entry attr => ?_⟩
    cases registered
    rcases List.mem_pair.mp attr with rfl | rfl
    · exact (.type rfl ⟨rfl, nofun⟩ : Conforms { name := "dtype", type := "type" } (.type 1))
    · exact (.tensor rfl : Conforms { name := "value", type := "tensor" } (.tensor ⟨[], []⟩))
  · refine ⟨by decide, fun opDef registered entry attr => ?_⟩
    cases registered
    rw [List.mem_singleton.mp attr]
    exact (.type rfl ⟨rfl, nofun⟩ : Conforms { name := "T", type := "type" } (.type 1))

theorem export_of_import_chain :
    Exportable constIdentity chainDef ∧ (∃ graph, importGraphFromTfGraphDef constIdentity chainDef chainConfig = .ok graph ∧
      exportGraphToTfFile plainOps constIdentity.registry cpuKernels graph =
        setDeviceInfo cpuKernels ((renameNodes chainDef).map fun node => ⟨canonicalNode node, ""⟩)) ∧
    setDeviceInfo cpuKernels ((renameNodes chainDef).map fun node => ⟨canonicalNode node, ""⟩) =
      .ok [⟨canonicalNode constA, "/device:CPU:0"⟩, ⟨canonicalNode identityB, "/device:CPU:0"⟩] :=
  have covered : Covered chainDef chainConfig := by unfold Covered; decide
  ⟨chainDef_exportable, export_of_import_canonical constIdentity plainOps cpuKernels chainDef chainConfig chainDef_listed
    chainConfig_distinct.parsable covered chainDef_exportable (by decide) plainOps_keeps constIdentity_keepsOpName, rfl⟩

end RoundTrip

end SuperScaler.Proofs.RoundTrip
