import SuperScaler.Graph
import Mathlib.Data.List.Dedup

/-! `scaler_graph/IR/util/graph_util.py`: upstream and output nodes, and the reverse depth-first
search that orders a graph. The search recurses without a visible measure, so the model gives it
fuel; `none` is the fuel running out. -/

namespace SuperScaler.GraphUtil
open SuperScaler.Py SuperScaler.IR

/-- Python iterates a `set` in an order fixed by its members' hashes. The model leaves that
order open: `enum` lists the members of the set built from a list, each once, in some order. -/
structure SetOrder where
  enum : List Nat → List Nat
  mem_enum : ∀ items item, item ∈ enum items ↔ item ∈ items
  nodup_enum : ∀ items, (enum items).Nodup

/-- Sets enumerated in list order, each member at its last place in the list. -/
def SetOrder.listed : SetOrder := ⟨List.dedup, fun _ _ => List.mem_dedup, List.nodup_dedup⟩

/-- `get_upstream_nodes(node)`: the sources of the node's in-edges, as the list the set is built
from; a `CompositeNode` raises `RuntimeError`. -/
def getUpstreamNodes (graph : Graph) (position : Nat) : Except PyError (List Nat) :=
  if (graph.node position).composite then .error .runtimeError
  else .ok ((graph.node position).inEdges.map (·.srcNode))

/-- `chain.from_iterable(map(get_upstream_nodes, nodes))`, drawn in node order. -/
def upstreamOfAll (graph : Graph) : List Nat → Except PyError (List Nat)
  | [] => .ok []
  | position :: rest => do
    let upstream ← getUpstreamNodes graph position
    let others ← upstreamOfAll graph rest
    pure (upstream ++ others)

/-- `get_output_nodes(graph)`: `set(graph.nodes) - upstream_nodes`, the nodes no node reads. -/
def getOutputNodes (graph : Graph) : Except PyError (List Nat) := do
  let upstream ← upstreamOfAll graph (List.range graph.nodes.length)
  pure ((List.range graph.nodes.length).filter fun position => decide (position ∉ upstream))

/-- The state `reverse_DFS` shares with `visit`: the set `temp_nodes` and the list
`ordered_nodes`. -/
structure DfsState where
  temp : List Nat
  ordered : List Nat
  deriving DecidableEq, Repr

/-- `for input_node in nodes: visit(input_node)`, stopping at the first exception. -/
def visitEach (visitOne : DfsState → Nat → Option (Except PyError DfsState)) :
    List Nat → DfsState → Option (Except PyError DfsState)
  | [], state => some (.ok state)
  | node :: rest, state =>
    match visitOne state node with
    | some (.ok state) => visitEach visitOne rest state
    | other => other

/-- `visit(current_node)` inside `reverse_DFS`, with fuel for its recursion. CPython's recursion
limit, which raises `RecursionError` on a deep enough chain of calls, is not modelled. -/
def visit (graph : Graph) (order : SetOrder) : Nat → DfsState → Nat → Option (Except PyError DfsState)
  | 0, _, _ => none
  | fuel + 1, state, node =>
    if node ∈ state.ordered then some (.ok state)
    else if node ∈ state.temp then some (.error .runtimeError)
    else
      match getUpstreamNodes graph node with
      | .error error => some (.error error)
      | .ok upstream =>
        match visitEach (visit graph order fuel) (order.enum upstream) ⟨node :: state.temp, state.ordered⟩ with
        | some (.ok after) =>
          if node ∈ after.temp then some (.ok ⟨after.temp.erase node, after.ordered ++ [node]⟩)
          else some (.error .keyError)
        | other => other

/-- `reverse_DFS(graph)`. A call chain of `visit` adds a new node to `temp_nodes` at each
level, so one more level than there are nodes is enough fuel. -/
def reverseDFS (graph : Graph) (order : SetOrder) : Option (Except PyError (List Nat)) :=
  match getOutputNodes graph with
  | .error error => some (.error error)
  | .ok outputs =>
    (visitEach (visit graph order (graph.nodes.length + 1)) (order.enum outputs) ⟨[], []⟩).map
      (·.map (·.ordered))

end SuperScaler.GraphUtil
