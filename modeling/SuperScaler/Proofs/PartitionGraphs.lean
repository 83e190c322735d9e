import SuperScaler.Proofs.DataParallelism
import SuperScaler.Proofs.VisitTermination
import SuperScaler.Proofs.Import
import SuperScaler.Runtime

/-! `_init_partition_graphs` reads the runtime configuration of the merged graph after
`run_parallelisms` has rewritten that graph in place. Data parallelism only reroutes gradient
edges through new `AllreduceOp` nodes: a gradient's source still feeds a node, each new node
feeds its `ApplyOp` node, and no node changes its name or attributes. So the rewritten graph
has the output nodes of the imported one, and `get_tf_runtime_config` reads the same
configuration from both. With one strategy over `len(devices)` devices, `_init_partition_graphs`
then exports one copy of the rerouted graph per device. -/

namespace SuperScaler.Proofs.PartitionGraphs
open SuperScaler.Py SuperScaler.IR SuperScaler.GraphUtil SuperScaler.TfAdapter SuperScaler.Parallelization
open SuperScaler.Proofs.DataParallelism SuperScaler.Proofs.ReverseDFS SuperScaler.Proofs.VisitTermination

theorem target_lt_of_feeds {graph : Graph} {source target : Nat} (feeds : Feeds graph source target) :
    target < graph.nodes.length := by
  obtain ⟨edge, incoming, -⟩ := feeds
  by_contra outside
  rw [Graph.node, List.getD_eq_getElem?_getD, List.getElem?_eq_none (Nat.le_of_not_lt outside), Option.getD_none,
    Node.default_inEdges] at incoming
  exact List.not_mem_nil _ incoming

section Rerouted
variable {parallelism : DataParallelism} {graph rewritten : Graph} (rerouted : Rerouted parallelism graph rewritten)
  (ready : Proofs.DataParallelism.Ready graph)
include rerouted ready

theorem rerouted_at {j : Nat} (listed : j < (applyPositions graph).length) :
    ∃ edge t, gradientEdge graph (applyPositions graph)[j] = some edge ∧
      rewritten.node (applyPositions graph)[j] = { graph.node (applyPositions graph)[j] with
        inEdges := (graph.node (applyPositions graph)[j]).inEdges.erase edge ++
          [⟨graph.nodes.length + j, 0, (applyPositions graph)[j], edge.destIdx⟩] } ∧
      rewritten.node (graph.nodes.length + j) =
        ⟨(graph.node edge.srcNode).name ++ "_allreduce", .allreduceOp, parallelism.allreduceAttrs (graph.node edge.srcNode) t,
          [⟨edge.srcNode, edge.srcIdx, graph.nodes.length + j, 0⟩], 1, false⟩ := by
  have member := mem_applyBefore.mp (List.getElem_mem listed)
  obtain ⟨edge, t, found, typed⟩ := ready _ member.1 member.2
  exact ⟨edge, t, found, rerouted.rerouted j listed edge t found typed⟩

theorem feeds_rewritten {source target : Nat} (feeds : Feeds rewritten source target) :
    Feeds graph source target ∨ ∃ j, ∃ listed : j < (applyPositions graph).length, ∃ edge,
      gradientEdge graph (applyPositions graph)[j] = some edge ∧
      (source = edge.srcNode ∧ target = graph.nodes.length + j ∨
        source = graph.nodes.length + j ∧ target = (applyPositions graph)[j]) := by
  have inside := target_lt_of_feeds feeds
  obtain ⟨edge, incoming, rfl⟩ := feeds
  by_cases original : target < graph.nodes.length
  · by_cases apply : target ∈ applyPositions graph
    · obtain ⟨j, listed, rfl⟩ := List.mem_iff_getElem.mp apply
      obtain ⟨gradient, _, found, rewired, _⟩ := rerouted_at rerouted ready listed
      rw [rewired] at incoming
      rcases List.mem_append.mp incoming with erased | added
      · exact .inl ⟨edge, List.mem_of_mem_erase erased, rfl⟩
      · exact .inr ⟨j, listed, gradient, found, .inr ⟨by rw [List.mem_singleton.mp added], rfl⟩⟩
    · exact .inl ⟨edge, rerouted.unchanged target original apply ▸ incoming, rfl⟩
  · obtain ⟨j, rfl⟩ := Nat.exists_eq_add_of_le (Nat.le_of_not_lt original)
    have listed : j < (applyPositions graph).length := by rw [rerouted.length] at inside; omega
    obtain ⟨gradient, _, found, _, insertedNode⟩ := rerouted_at rerouted ready listed
    rw [insertedNode, List.mem_singleton] at incoming
    exact .inr ⟨j, listed, gradient, found, .inl ⟨by rw [incoming], rfl⟩⟩

end Rerouted

end SuperScaler.Proofs.PartitionGraphs
