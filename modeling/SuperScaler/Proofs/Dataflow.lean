import SuperScaler.Proofs.PartitionGraphs

/-! The dataflow of the graphs the passes build. The import of a `GraphDef` listed producer
first gives a well-formed graph whose edges all go from a node to a later one, so it has no
cycle. Data parallelism keeps the dataflow of the graph it rewrites: each gradient edge
`source → apply` becomes the path `source → allreduce → apply` through a node of its own, and
no other edge changes. So the rewritten graph is well formed again, a node of the graph reaches
another in the rewritten graph just when it does in the graph, and the rewrite neither adds a
cycle nor breaks one. -/

namespace SuperScaler.Proofs.Dataflow
open Relation SuperScaler.IR SuperScaler.Parallelization SuperScaler.TfAdapter
open SuperScaler.Proofs.DataParallelism SuperScaler.Proofs.ReverseDFS SuperScaler.Proofs.PartitionGraphs
open SuperScaler.TF SuperScaler.Proofs.Import

private theorem source_lt_of_feeds {graph : Graph} (wellFormed : graph.WellFormed) {source target : Nat}
    (feeds : Feeds graph source target) : source < graph.nodes.length := by
  have inside := target_lt_of_feeds feeds
  obtain ⟨edge, incoming, rfl⟩ := feeds
  exact (wellFormed target inside edge incoming).2

private theorem forward_of_loaded {tf : Tf} {graphDef : GraphDef} {config pending : RuntimeConfig} {graph : Graph}
    (listed : Listed tf graphDef) (loaded : Loaded graphDef config (renameNodes graphDef).length (graph, pending))
    {reader : Nat} (inside : reader < graph.nodes.length) {edge : Edge} (incoming : edge ∈ (graph.node reader).inEdges) :
    edge.destNode = reader ∧ edge.srcNode < reader := by
  have current := List.getElem?_eq_getElem (loaded.length ▸ inside)
  obtain ⟨node, current', input, member, name, index, parsed, named⟩ :=
    loaded.feeds listed ⟨edge, incoming, rfl⟩ (loaded.length ▸ inside)
  obtain ⟨source, before, name', index', named', parsed'⟩ := listed.inputs reader node current' input member
  obtain ⟨rfl, -⟩ := Prod.mk.inj (Option.some.inj (parsed'.symm.trans parsed))
  have inside' : source < (nodeNames graphDef).length := by
    simp only [nodeNames, List.length_map]; rw [← loaded.length]; omega
  obtain rfl := List.getElem?_inj inside' listed.distinct (named'.trans named.symm)
  rw [loaded.edges reader _ (loaded.length ▸ inside) current, expectedEdges] at incoming
  obtain ⟨_, _, rfl⟩ := List.mem_map.mp incoming
  exact ⟨rfl, before⟩

/-- The import of a `GraphDef` listed producer first, whose configuration names only its
nodes, returns a well-formed graph without composite nodes in which every edge goes from a node
to a later one: a graph without cycles, as `reverse_DFS` and data parallelism take it. -/
theorem import_builds_forward_graph (tf : Tf) (graphDef : GraphDef) (config : RuntimeConfig)
    (listed : Listed tf graphDef) (parsable : Parsable config) (covered : Covered graphDef config) :
    ∃ graph, importGraphFromTfGraphDef tf graphDef config = .ok graph ∧ graph.WellFormed ∧ NoComposite graph ∧
      (∀ source reader, Feeds graph source reader → source < reader) ∧
      ∀ node, ¬ TransGen (Feeds graph) node node := by
  obtain ⟨graph, imported, loaded⟩ := import_loaded listed parsable covered
  have rises : ∀ source reader, Feeds graph source reader → source < reader := by
    rintro source reader ⟨edge, incoming, rfl⟩
    exact (forward_of_loaded listed loaded (target_lt_of_feeds ⟨edge, incoming, rfl⟩) incoming).2
  refine ⟨graph, imported, fun reader inside edge incoming => ?_,
    fun position inside => loaded.plain position (loaded.length ▸ inside), rises, acyclic_of_rank id rises⟩
  have stored := forward_of_loaded listed loaded inside incoming
  exact ⟨stored.1, by omega⟩

theorem import_builds_forward_chain :
    Listed constIdentity chainDef ∧ Parsable chainConfig ∧ Covered chainDef chainConfig ∧
    ∃ graph, importGraphFromTfGraphDef constIdentity chainDef chainConfig = .ok graph ∧ graph.WellFormed ∧
      NoComposite graph ∧ (∀ source reader, Feeds graph source reader → source < reader) ∧
      ∀ node, ¬ TransGen (Feeds graph) node node :=
  have covered : Covered chainDef chainConfig := by unfold Covered; decide
  ⟨chainDef_listed, chainConfig_distinct.parsable, covered,
    import_builds_forward_graph constIdentity chainDef chainConfig chainDef_listed chainConfig_distinct.parsable covered⟩

private theorem gradient_source_lt {graph : Graph} (wellFormed : graph.WellFormed) {apply : Nat} {edge : Edge}
    (found : gradientEdge graph apply = some edge) : edge.srcNode < graph.nodes.length :=
  source_lt_of_feeds wellFormed ⟨edge, gradientEdge_mem found, rfl⟩

section Rerouted
variable {parallelism : DataParallelism} {graph rewritten : Graph} (wellFormed : graph.WellFormed)
  (rerouted : Rerouted parallelism graph rewritten) (ready : Proofs.DataParallelism.Ready graph)
include wellFormed rerouted ready

private theorem rewritten_wellFormed : rewritten.WellFormed := by
  intro position inside edge incoming
  rw [rerouted.length] at inside
  by_cases original : position < graph.nodes.length
  · by_cases apply : position ∈ applyPositions graph
    · obtain ⟨j, listed, rfl⟩ := List.mem_iff_getElem.mp apply
      obtain ⟨_, _, _, rewired, _⟩ := rerouted_at rerouted ready listed
      rw [rewired] at incoming
      rcases List.mem_append.mp incoming with erased | added
      · have kept := wellFormed _ original edge (List.mem_of_mem_erase erased)
        exact ⟨kept.1, by rw [rerouted.length]; omega⟩
      · rw [List.mem_singleton.mp added, rerouted.length]
        exact ⟨rfl, by dsimp only; omega⟩
    · have kept := wellFormed position original edge (rerouted.unchanged position original apply ▸ incoming)
      exact ⟨kept.1, by rw [rerouted.length]; omega⟩
  · obtain ⟨j, rfl⟩ := Nat.exists_eq_add_of_le (Nat.le_of_not_lt original)
    have listed : j < (applyPositions graph).length := by omega
    obtain ⟨_, _, found, _, insertedNode⟩ := rerouted_at rerouted ready listed
    rw [insertedNode, List.mem_singleton] at incoming
    subst incoming
    have := gradient_source_lt wellFormed found
    exact ⟨rfl, by rw [rerouted.length]; dsimp only; omega⟩

omit wellFormed in
private theorem feeds_lifted {source target : Nat} (feeds : Feeds graph source target) :
    TransGen (Feeds rewritten) source target := by
  have original := target_lt_of_feeds feeds
  obtain ⟨edge, incoming, rfl⟩ := feeds
  by_cases apply : target ∈ applyPositions graph
  · obtain ⟨j, listed, rfl⟩ := List.mem_iff_getElem.mp apply
    obtain ⟨gradient, _, _, rewired, insertedNode⟩ := rerouted_at rerouted ready listed
    by_cases same : edge = gradient
    · subst same
      have intoAllreduce : Feeds rewritten edge.srcNode (graph.nodes.length + j) :=
        ⟨⟨edge.srcNode, edge.srcIdx, _, 0⟩, by rw [insertedNode]; exact List.mem_singleton_self _, rfl⟩
      exact .tail (.single intoAllreduce) ⟨_, by rw [rewired]; exact List.mem_append_right _ (List.mem_singleton_self _), rfl⟩
    · exact .single ⟨edge, by rw [rewired]; exact List.mem_append_left _ ((List.mem_erase_of_ne same).mpr incoming), rfl⟩
  · exact .single ⟨edge, (rerouted.unchanged target original apply).symm ▸ incoming, rfl⟩

private theorem path_projected {start target : Nat} (original : start < graph.nodes.length)
    (path : TransGen (Feeds rewritten) start target) :
    (target < graph.nodes.length → TransGen (Feeds graph) start target) ∧
      ∀ (j : Nat) (listed : j < (applyPositions graph).length) (edge : Edge),
        gradientEdge graph (applyPositions graph)[j] = some edge → target = graph.nodes.length + j →
          ReflTransGen (Feeds graph) start edge.srcNode := by
  induction path with
  | single feeds =>
    rcases feeds_rewritten rerouted ready feeds with kept | ⟨j, listed, gradient, found, ⟨rfl, rfl⟩ | ⟨rfl, -⟩⟩
    · exact ⟨fun _ => .single kept, fun _ _ _ _ inserted => absurd (target_lt_of_feeds kept) (by omega)⟩
    · refine ⟨fun inside => absurd inside (by omega), fun j' _ edge found' inserted => ?_⟩
      obtain rfl : j' = j := by omega
      obtain rfl : edge = gradient := Option.some.inj (found'.symm.trans found)
      exact .refl
    · omega
  | @tail middle last _ feeds ih =>
    rcases feeds_rewritten rerouted ready feeds with kept | ⟨j, listed, gradient, found, ⟨rfl, rfl⟩ | ⟨rfl, rfl⟩⟩
    · refine ⟨fun _ => (ih.1 (source_lt_of_feeds wellFormed kept)).tail kept, fun _ _ _ _ inserted => ?_⟩
      exact absurd (target_lt_of_feeds kept) (by omega)
    · refine ⟨fun inside => absurd inside (by omega), fun j' _ edge found' inserted => ?_⟩
      obtain rfl : j' = j := by omega
      obtain rfl : edge = gradient := Option.some.inj (found'.symm.trans found)
      exact (ih.1 (gradient_source_lt wellFormed found)).to_reflTransGen
    · exact ⟨fun _ => TransGen.tail' (ih.2 j listed gradient found rfl) ⟨gradient, gradientEdge_mem found, rfl⟩,
        fun _ _ _ _ inserted => absurd (mem_applyBefore.mp (List.getElem_mem listed)).1 (by omega)⟩

private theorem feeds_from_inserted {source target : Nat} (outside : ¬ source < graph.nodes.length)
    (feeds : Feeds rewritten source target) : target < graph.nodes.length := by
  rcases feeds_rewritten rerouted ready feeds with kept | ⟨j, listed, gradient, found, ⟨rfl, -⟩ | ⟨-, rfl⟩⟩
  · exact absurd (source_lt_of_feeds wellFormed kept) outside
  · exact absurd (gradient_source_lt wellFormed found) outside
  · exact (mem_applyBefore.mp (List.getElem_mem listed)).1

end Rerouted

/-- On a well-formed graph whose `ApplyOp` nodes all read their gradient from a node with
`"T"`, `run_on_graph` returns a graph that is well formed again, in which a node of the graph
reaches another just when it does in the graph, and which has a cycle just when the graph has
one. -/
theorem run_on_graph_keeps_dataflow (parallelism : DataParallelism) (graph : Graph) (wellFormed : graph.WellFormed)
    (ready : Proofs.DataParallelism.Ready graph) :
    ∃ rewritten : Graph,
      parallelism.runOnGraph graph = some (.ok (true,
        { parallelism with parallelGraphs := some (List.replicate parallelism.devices.length rewritten) }, rewritten)) ∧
      rewritten.WellFormed ∧
      (∀ source < graph.nodes.length, ∀ target < graph.nodes.length,
        TransGen (Feeds rewritten) source target ↔ TransGen (Feeds graph) source target) ∧
      ((∃ node, TransGen (Feeds rewritten) node node) ↔ ∃ node, TransGen (Feeds graph) node node) := by
  have rerouted : Rerouted parallelism graph (stage parallelism graph graph.nodes.length) := stage_rerouted wellFormed
  have projected {node : Nat} (inside : node < graph.nodes.length) (cycle : TransGen (Feeds (stage parallelism graph graph.nodes.length)) node node) :
      TransGen (Feeds graph) node node := (path_projected wellFormed rerouted ready inside cycle).1 inside
  refine ⟨_, runOnGraph_stage wellFormed ready, rewritten_wellFormed wellFormed rerouted ready,
    fun source original target inside => ⟨fun path => (path_projected wellFormed rerouted ready original path).1 inside,
      TransGen.closed fun _ _ => feeds_lifted rerouted ready⟩, ⟨?_, ?_⟩⟩
  · rintro ⟨node, cycle⟩
    by_cases inside : node < graph.nodes.length
    · exact ⟨node, projected inside cycle⟩
    · obtain ⟨next, first, rest⟩ := TransGen.head'_iff.mp cycle
      exact ⟨next, projected (feeds_from_inserted wellFormed rerouted ready inside first) (TransGen.tail' rest first)⟩
  · rintro ⟨node, cycle⟩
    exact ⟨node, TransGen.closed (fun _ _ => feeds_lifted rerouted ready) cycle⟩

theorem run_on_graph_keeps_descent_dataflow :
    descentGraph.WellFormed ∧ Proofs.DataParallelism.Ready descentGraph ∧
    ∃ rewritten : Graph,
      DataParallelism.runOnGraph ⟨["gpu0", "gpu1"], none⟩ descentGraph = some (.ok (true,
        ⟨["gpu0", "gpu1"], some (List.replicate 2 rewritten)⟩, rewritten)) ∧
      rewritten.WellFormed ∧
      (∀ source < descentGraph.nodes.length, ∀ target < descentGraph.nodes.length,
        TransGen (Feeds rewritten) source target ↔ TransGen (Feeds descentGraph) source target) ∧
      ((∃ node, TransGen (Feeds rewritten) node node) ↔ ∃ node, TransGen (Feeds descentGraph) node node) :=
  ⟨descentGraph_wellFormed, descentGraph_ready,
    run_on_graph_keeps_dataflow ⟨["gpu0", "gpu1"], none⟩ descentGraph descentGraph_wellFormed descentGraph_ready⟩

end SuperScaler.Proofs.Dataflow
