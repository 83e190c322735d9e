import SuperScaler.Value

/-! The scaler graph IR: nodes that read tensors from other nodes through in-edges. The graph
is a list of nodes and a node is known by its position in it, which stays fixed because the
modelled code only ever appends nodes. -/

namespace SuperScaler.IR
open SuperScaler.Py

/-- Modelled from the spec: `superscaler.scaler_graph.IR.operator` is not among the sources,
and the spec puts the graph IR out of scope. The passes only ask whether an operator is an
`ApplyOp`, which names the input holding its gradient (`info["gradient_index"]`), or the
`AllreduceOp` that data parallelism inserts. -/
inductive Operator
  | applyOp (originalName : String) (gradientIndex : Int)
  | allreduceOp
  | other (originalName : String)
  deriving DecidableEq, Repr

def Operator.isApply : Operator → Bool
  | .applyOp .. => true
  | _ => false

/-- An edge from output `srcIdx` of node `srcNode` into input `destIdx` of node `destNode`;
output `-1` is a control dependency. -/
structure Edge where
  srcNode : Nat
  srcIdx : Int
  destNode : Nat
  destIdx : Int
  deriving DecidableEq, Repr

/-- Modelled from the spec: `superscaler.scaler_graph.IR.node` is not among the sources. A
node keeps what the sources read of it; `composite` marks a `CompositeNode`. -/
structure Node where
  name : String
  op : Operator
  attrs : PyDict
  inEdges : List Edge
  outputSize : Nat
  composite : Bool := false
  deriving Repr

instance : Inhabited Node := ⟨⟨"", .other "", [], [], 0, false⟩⟩

@[simp] theorem Node.default_inEdges : (default : Node).inEdges = [] := rfl

/-- Modelled from the spec: `superscaler.scaler_graph.IR.graph` is not among the sources. The
methods below do what their callers in the sources rely on: nodes are appended, an edge is
recorded at its destination, and a copy is an equal graph. -/
structure Graph where
  nodes : List Node
  deriving Repr

namespace Graph

/-- The node at a position; a position past the end reads as a node with no inputs. -/
def node (graph : Graph) (position : Nat) : Node := graph.nodes.getD position default

/-- `get_node_by_name`: the first node of that name. -/
def getNodeByName (graph : Graph) (name : String) : Option Nat :=
  graph.nodes.findIdx? (·.name == name)

def updateNode (graph : Graph) (position : Nat) (update : Node → Node) : Graph :=
  ⟨graph.nodes.modify update position⟩

/-- `add_edge(src_node, src_idx, dest_node, dest_idx)`. -/
def addEdge (graph : Graph) (srcNode : Nat) (srcIdx : Int) (destNode : Nat) (destIdx : Int) : Graph :=
  graph.updateNode destNode fun node => { node with inEdges := node.inEdges ++ [⟨srcNode, srcIdx, destNode, destIdx⟩] }

/-- `remove_edge(edge)`. -/
def removeEdge (graph : Graph) (edge : Edge) : Graph :=
  graph.updateNode edge.destNode fun node => { node with inEdges := node.inEdges.erase edge }

/-- `add_node_and_edge(name, op, input_node_idxes, output_size, attrs)`: a new last node, with
one in-edge per `(src_node, src_idx)` pair, into the inputs in order. -/
def addNodeAndEdge (graph : Graph) (name : String) (op : Operator) (inputs : List (Nat × Int))
    (outputSize : Nat) (attrs : PyDict) : Graph × Nat :=
  let position := graph.nodes.length
  let edges := inputs.enum.map fun (destIdx, srcNode, srcIdx) => Edge.mk srcNode srcIdx position destIdx
  (⟨graph.nodes ++ [⟨name, op, attrs, edges, outputSize, false⟩]⟩, position)

/-- The graph's own consistency: an in-edge is stored at its destination and comes from a node
of the graph. -/
def WellFormed (graph : Graph) : Prop :=
  ∀ position < graph.nodes.length, ∀ edge ∈ (graph.node position).inEdges,
    edge.destNode = position ∧ edge.srcNode < graph.nodes.length

theorem ext_node {graph other : Graph} (length : graph.nodes.length = other.nodes.length)
    (same : ∀ position < graph.nodes.length, graph.node position = other.node position) : graph = other := by
  obtain ⟨nodes⟩ := graph
  obtain ⟨others⟩ := other
  congr
  refine List.ext_getElem length fun position inside inside' => ?_
  simpa [node, List.getD_eq_getElem?_getD, List.getElem?_eq_getElem inside,
    List.getElem?_eq_getElem inside'] using same position inside

@[simp] theorem length_updateNode (graph : Graph) (position : Nat) (update : Node → Node) :
    (graph.updateNode position update).nodes.length = graph.nodes.length := by
  simp [updateNode]

@[simp] theorem length_addEdge (graph : Graph) (srcNode : Nat) (srcIdx : Int) (destNode : Nat) (destIdx : Int) :
    (graph.addEdge srcNode srcIdx destNode destIdx).nodes.length = graph.nodes.length := by
  simp [addEdge]

@[simp] theorem length_removeEdge (graph : Graph) (edge : Edge) :
    (graph.removeEdge edge).nodes.length = graph.nodes.length := by
  simp [removeEdge]

@[simp] theorem length_addNodeAndEdge (graph : Graph) (name : String) (op : Operator) (inputs : List (Nat × Int))
    (outputSize : Nat) (attrs : PyDict) :
    (graph.addNodeAndEdge name op inputs outputSize attrs).1.nodes.length = graph.nodes.length + 1 := by
  simp [addNodeAndEdge]

@[simp] theorem addNodeAndEdge_position (graph : Graph) (name : String) (op : Operator) (inputs : List (Nat × Int))
    (outputSize : Nat) (attrs : PyDict) :
    (graph.addNodeAndEdge name op inputs outputSize attrs).2 = graph.nodes.length := rfl

theorem node_updateNode (graph : Graph) (position other : Nat) (update : Node → Node)
    (inside : position < graph.nodes.length) :
    (graph.updateNode position update).node other =
      if position = other then update (graph.node position) else graph.node other := by
  simp only [node, updateNode, List.getD_eq_getElem?_getD, List.getElem?_modify]
  split
  next same => subst same; simp [List.getElem?_eq_getElem inside]
  next => cases graph.nodes[other]? <;> rfl

@[simp] theorem node_updateNode_self (graph : Graph) (position : Nat) (update : Node → Node)
    (inside : position < graph.nodes.length) :
    (graph.updateNode position update).node position = update (graph.node position) := by
  simp [node_updateNode _ _ _ _ inside]

theorem node_updateNode_other (graph : Graph) {position other : Nat} (update : Node → Node)
    (different : position ≠ other) :
    (graph.updateNode position update).node other = graph.node other := by
  simp only [node, updateNode, List.getD_eq_getElem?_getD, List.getElem?_modify, different, ite_false]
  cases graph.nodes[other]? <;> rfl

theorem node_append_old (nodes extra : List Node) {position : Nat} (inside : position < nodes.length) :
    Graph.node ⟨nodes ++ extra⟩ position = Graph.node ⟨nodes⟩ position := by
  simp [node, List.getD_eq_getElem?_getD, List.getElem?_append_left inside]

@[simp] theorem node_append_new (nodes : List Node) (new : Node) :
    Graph.node ⟨nodes ++ [new]⟩ nodes.length = new := by
  simp [node, List.getD_eq_getElem?_getD]

theorem node_addNodeAndEdge_old (graph : Graph) (name : String) (op : Operator) (inputs : List (Nat × Int))
    (outputSize : Nat) (attrs : PyDict) {position : Nat} (inside : position < graph.nodes.length) :
    (graph.addNodeAndEdge name op inputs outputSize attrs).1.node position = graph.node position :=
  node_append_old _ _ inside

theorem node_addNodeAndEdge_new (graph : Graph) (name : String) (op : Operator) (inputs : List (Nat × Int))
    (outputSize : Nat) (attrs : PyDict) :
    (graph.addNodeAndEdge name op inputs outputSize attrs).1.node graph.nodes.length =
      ⟨name, op, attrs, inputs.enum.map fun (destIdx, srcNode, srcIdx) => Edge.mk srcNode srcIdx graph.nodes.length destIdx,
        outputSize, false⟩ :=
  node_append_new _ _

end Graph

end SuperScaler.IR
