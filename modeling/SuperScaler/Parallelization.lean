import SuperScaler.Graph

/-! Data parallelism and the parallelizer that runs it (`scaler_graph/parallelization`). A
strategy rewrites each graph in place and keeps the copies it makes in `parallel_graphs`. -/

namespace SuperScaler.Parallelization
open SuperScaler.Py SuperScaler.IR

/-- A `DataParallelism` strategy: its devices, and `parallel_graphs` once it has run. -/
structure DataParallelism where
  devices : List String
  parallelGraphs : Option (List Graph) := none
  deriving Repr

namespace DataParallelism

/-- The attributes of the `AllreduceOp` node put on the gradient edge of an `ApplyOp` node. -/
def allreduceAttrs (parallelism : DataParallelism) (source : Node) (t : PyValue) : PyDict :=
  [("tensor_name", .str (source.name ++ "_allreduce")), ("T", t), ("reduction", .str "sum"),
    ("num_devices", .str (toString parallelism.devices.length))]

/-- The loop body of `run_on_graph` at one node: an `ApplyOp` node's gradient edge is cut and
routed through a new `AllreduceOp` node; any other node is left alone. -/
def rewriteNode (parallelism : DataParallelism) (graph : Graph) (position : Nat) : Except PyError Graph :=
  let node := graph.node position
  match node.op with
  | .applyOp _ gradientIndex => do
    let edge ← pyIndex node.inEdges gradientIndex
    let source := graph.node edge.srcNode
    let t ← source.attrs.getItem "T"
    let attrs := parallelism.allreduceAttrs source t
    let (graph, allreduce) := (graph.removeEdge edge).addNodeAndEdge (source.name ++ "_allreduce")
      .allreduceOp [(edge.srcNode, edge.srcIdx)] 1 attrs
    pure (graph.addEdge allreduce 0 edge.destNode edge.destIdx)
  | _ => pure graph

/-- `for node in graph.nodes`: Python walks the list by position while the body appends to it,
so the nodes the body adds are visited as well. `none` is the fuel running out. -/
def walk (parallelism : DataParallelism) : Nat → Nat → Graph → Option (Except PyError Graph)
  | 0, _, _ => none
  | fuel + 1, position, graph =>
    if position < graph.nodes.length then
      match parallelism.rewriteNode graph position with
      | .ok graph => parallelism.walk fuel (position + 1) graph
      | .error error => some (.error error)
    else some (.ok graph)

/-- `run_on_graph(graph)`: it returns `True`, the rewritten graph, and the strategy holding
`len(devices)` copies of that graph. Each node is visited once, and each `ApplyOp` adds one,
so twice the node count bounds the loop. -/
def runOnGraph (parallelism : DataParallelism) (graph : Graph) :
    Option (Except PyError (Bool × DataParallelism × Graph)) :=
  (parallelism.walk (2 * graph.nodes.length + 1) 0 graph).map fun result => result.map fun graph =>
    (true, { parallelism with parallelGraphs := some (List.replicate parallelism.devices.length graph) }, graph)

end DataParallelism

/-- A `Parallelizer`: the registered strategies and the graphs of the current stage. -/
structure Parallelizer where
  parallelisms : List DataParallelism
  graphs : List Graph
  deriving Repr

namespace Parallelizer

/-- `Parallelizer(sc_graph)`. -/
def init (graph : Graph) : Parallelizer := ⟨[], [graph]⟩

/-- `register_parallelism(parallelism)`. -/
def registerParallelism (parallelizer : Parallelizer) (parallelism : DataParallelism) : Parallelizer :=
  { parallelizer with parallelisms := parallelizer.parallelisms ++ [parallelism] }

/-- `for graph in self.graphs: parallelism.run_on_graph(graph)`, raising `RuntimeError` on a
`False`; the strategy's state is what the last run left. -/
def runStage (parallelism : DataParallelism) : List Graph → Option (Except PyError DataParallelism)
  | [] => some (.ok parallelism)
  | graph :: rest =>
    match parallelism.runOnGraph graph with
    | some (.ok (succeeded, parallelism, _)) =>
      if succeeded then runStage parallelism rest else some (.error .runtimeError)
    | some (.error error) => some (.error error)
    | none => none

/-- The loop of `run_parallelisms` over the strategies still to run, from the current graphs:
after each stage `self.graphs = parallelism.parallel_graphs`, an `AttributeError` when the
strategy never ran. It returns the strategies as they end up and the last stage's graphs. -/
def runFrom : List DataParallelism → List Graph → Option (Except PyError (List DataParallelism × List Graph))
  | [], graphs => some (.ok ([], graphs))
  | parallelism :: rest, graphs =>
    match runStage parallelism graphs with
    | some (.ok parallelism) =>
      match parallelism.parallelGraphs with
      | some graphs =>
        (runFrom rest graphs).map fun result => result.map fun (done, graphs) => (parallelism :: done, graphs)
      | none => some (.error .attributeError)
    | some (.error error) => some (.error error)
    | none => none

/-- `run_parallelisms()`; `finalize` does nothing. -/
def runParallelisms (parallelizer : Parallelizer) : Option (Except PyError Parallelizer) :=
  (runFrom parallelizer.parallelisms parallelizer.graphs).map fun result =>
    result.map fun (parallelisms, graphs) => ⟨parallelisms, graphs⟩

end Parallelizer

end SuperScaler.Parallelization
