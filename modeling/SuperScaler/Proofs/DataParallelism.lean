import SuperScaler.Parallelization
import Mathlib.Data.Nat.Defs

/-! What `run_on_graph` does to a graph. The loop visits the original nodes in order, so after
the first `k` of them the graph has a closed form, `stage`: each `ApplyOp` node before `k` has
its gradient edge routed through a new `AllreduceOp` node, appended in the same order. -/

namespace SuperScaler.Proofs.DataParallelism
open SuperScaler.Py SuperScaler.IR SuperScaler.Parallelization DataParallelism

variable (parallelism : DataParallelism) (graph : Graph)

/-- The `ApplyOp` nodes among the first `count` positions, in order. -/
def applyBefore (count : Nat) : List Nat :=
  (List.range count).filter fun position => (graph.node position).op.isApply

def applyPositions : List Nat := applyBefore graph graph.nodes.length

/-- `node.in_edges[node.op.info["gradient_index"]]` of an `ApplyOp` node. -/
def gradientEdge (position : Nat) : Option Edge :=
  match (graph.node position).op with
  | .applyOp _ gradientIndex => (pyIndex (graph.node position).inEdges gradientIndex).toOption
  | _ => none

/-- The loop body can run at an `ApplyOp` node: the gradient edge exists and its source has a
`"T"` attribute. -/
def GradientReady (position : Nat) : Prop :=
  ∃ edge t, gradientEdge graph position = some edge ∧ (graph.node edge.srcNode).attrs.get? "T" = some t

def edgeOf (position : Nat) : Edge := (gradientEdge graph position).getD ⟨0, 0, 0, 0⟩

/-- An `ApplyOp` node once its gradient edge comes from output 0 of the node at `allreduce`. -/
def rewired (position allreduce : Nat) : Node :=
  let node := graph.node position
  let edge := edgeOf graph position
  { node with inEdges := node.inEdges.erase edge ++ [⟨allreduce, 0, edge.destNode, edge.destIdx⟩] }

/-- The `AllreduceOp` node inserted for the `ApplyOp` node at `position`. -/
def inserted (position allreduce : Nat) : Node :=
  let edge := edgeOf graph position
  let source := graph.node edge.srcNode
  ⟨source.name ++ "_allreduce", .allreduceOp, parallelism.allreduceAttrs source ((source.attrs.get? "T").getD .none),
    [⟨edge.srcNode, edge.srcIdx, allreduce, 0⟩], 1, false⟩

/-- The node at `position` once the loop has passed the first `count` original nodes. -/
def stageNode (count position : Nat) : Node :=
  if position < graph.nodes.length then
    if position < count ∧ (graph.node position).op.isApply then
      rewired graph position (graph.nodes.length + (applyBefore graph position).length)
    else graph.node position
  else
    let apply := (applyPositions graph).getD (position - graph.nodes.length) 0
    inserted parallelism graph apply position

def stage (count : Nat) : Graph :=
  ⟨(List.range (graph.nodes.length + (applyBefore graph count).length)).map (stageNode parallelism graph count)⟩

variable {parallelism graph}

private theorem applyBefore_succ (count : Nat) :
    applyBefore graph (count + 1) =
      applyBefore graph count ++ if (graph.node count).op.isApply then [count] else [] := by
  simp only [applyBefore, List.range_succ, List.filter_append, List.filter_cons, List.filter_nil]

theorem mem_applyBefore {count position : Nat} :
    position ∈ applyBefore graph count ↔ position < count ∧ (graph.node position).op.isApply := by
  simp [applyBefore]

private theorem applyBefore_getElem? {count position : Nat} (before : position < count)
    (apply : (graph.node position).op.isApply) :
    (applyBefore graph count)[(applyBefore graph position).length]? = some position := by
  induction count with
  | zero => omega
  | succ count ih =>
    rw [applyBefore_succ]
    rcases Nat.lt_succ_iff_lt_or_eq.mp before with earlier | rfl
    · have inside : (applyBefore graph position).length < (applyBefore graph count).length := by
        have := ih earlier
        exact (List.getElem?_eq_some_iff.mp this).1
      rw [List.getElem?_append_left inside, ih earlier]
    · simp [apply]

@[simp] theorem stage_length (count : Nat) :
    (stage parallelism graph count).nodes.length = graph.nodes.length + (applyBefore graph count).length := by
  simp [stage]

private theorem stage_node {count position : Nat}
    (inside : position < graph.nodes.length + (applyBefore graph count).length) :
    (stage parallelism graph count).node position = stageNode parallelism graph count position := by
  simp [stage, Graph.node, List.getD_eq_getElem?_getD, List.getElem?_range inside]

private theorem stage_zero : stage parallelism graph 0 = graph := by
  refine Graph.ext_node (by simp [applyBefore]) fun position inside => ?_
  have original : position < graph.nodes.length := by simpa [applyBefore] using inside
  rw [stage_node (by simpa using inside)]
  simp [stageNode, original]

private theorem node_reroute (current : Graph) (edge : Edge) (name : String) (attrs : PyDict) (position : Nat)
    (inside : edge.destNode < current.nodes.length) :
    ((((current.removeEdge edge).addNodeAndEdge name .allreduceOp [(edge.srcNode, edge.srcIdx)] 1 attrs).1).addEdge
        current.nodes.length 0 edge.destNode edge.destIdx).node position =
      if position = edge.destNode then
        { current.node position with
          inEdges := (current.node position).inEdges.erase edge ++ [⟨current.nodes.length, 0, edge.destNode, edge.destIdx⟩] }
      else if position = current.nodes.length then
        ⟨name, .allreduceOp, attrs, [⟨edge.srcNode, edge.srcIdx, current.nodes.length, 0⟩], 1, false⟩
      else current.node position := by
  have removed := (current.removeEdge edge).nodes.length
  simp only [Graph.addNodeAndEdge, Graph.addEdge, Graph.removeEdge]
  rw [Graph.node_updateNode _ _ _ _ (by simp; omega)]
  split
  next same =>
    subst same
    rw [if_pos rfl, Graph.node_append_old _ _ (by simpa using inside), Graph.node_updateNode_self _ _ _ inside]
  next different =>
    rw [if_neg (Ne.symm different)]
    split
    next last =>
      subst last
      simpa using Graph.node_append_new (current.updateNode edge.destNode _).nodes _
    next earlier =>
      by_cases old : position < current.nodes.length
      · rw [Graph.node_append_old _ _ (by simpa using old)]
        exact Graph.node_updateNode_other _ _ different
      · simp only [Graph.node, List.getD_eq_getElem?_getD]
        rw [List.getElem?_eq_none (by simp; omega), List.getElem?_eq_none (by omega)]

private theorem rewriteNode_skip {current : Graph} {position : Nat} (skip : (current.node position).op.isApply = false) :
    parallelism.rewriteNode current position = .ok current := by
  simp only [rewriteNode]
  split
  next apply => simp [apply, Operator.isApply] at skip
  next => rfl

private theorem rewriteNode_apply {current : Graph} {position : Nat} {name : String} {gradientIndex : Int}
    {edge : Edge} {t : PyValue} (apply : (current.node position).op = .applyOp name gradientIndex)
    (found : pyIndex (current.node position).inEdges gradientIndex = .ok edge)
    (typed : (current.node edge.srcNode).attrs.get? "T" = some t) :
    parallelism.rewriteNode current position =
      .ok ((((current.removeEdge edge).addNodeAndEdge ((current.node edge.srcNode).name ++ "_allreduce")
        .allreduceOp [(edge.srcNode, edge.srcIdx)] 1 (parallelism.allreduceAttrs (current.node edge.srcNode) t)).1).addEdge
          current.nodes.length 0 edge.destNode edge.destIdx) := by
  simp [rewriteNode, apply, found, PyDict.getItem, typed, Graph.addNodeAndEdge, Graph.removeEdge]

private theorem applyBefore_length_le (count : Nat) : (applyBefore graph count).length ≤ count := by
  simpa [applyBefore] using List.length_filter_le _ (List.range count)

private theorem stageNode_succ_other {count position : Nat} (different : position ≠ count) :
    stageNode parallelism graph (count + 1) position = stageNode parallelism graph count position := by
  have earlier : position < count + 1 ↔ position < count := by omega
  simp only [stageNode, earlier]

private theorem stageNode_source {count position : Nat} (inside : position < graph.nodes.length) :
    (stageNode parallelism graph count position).name = (graph.node position).name ∧
      (stageNode parallelism graph count position).attrs = (graph.node position).attrs := by
  simp only [stageNode, rewired, inside, if_true]
  split <;> simp

private theorem gradientEdge_ok {position : Nat} {name : String} {gradientIndex : Int} {edge : Edge}
    (apply : (graph.node position).op = .applyOp name gradientIndex)
    (found : gradientEdge graph position = some edge) :
    pyIndex (graph.node position).inEdges gradientIndex = .ok edge := by
  simp only [gradientEdge, apply] at found
  cases lookup : pyIndex (graph.node position).inEdges gradientIndex <;> simp_all [Except.toOption]

theorem gradientEdge_mem {position : Nat} {edge : Edge} (found : gradientEdge graph position = some edge) :
    edge ∈ (graph.node position).inEdges := by
  unfold gradientEdge at found
  split at found
  next _ _ gradientIndex _ =>
    cases lookup : pyIndex (graph.node position).inEdges gradientIndex with
    | error => simp [lookup, Except.toOption] at found
    | ok item =>
      simp only [lookup, Except.toOption, Option.some.injEq] at found
      exact found ▸ pyIndex_ok lookup
  next => cases found

section Loop

variable (wellFormed : graph.WellFormed)
  (ready : ∀ position < graph.nodes.length, (graph.node position).op.isApply → GradientReady graph position)
include wellFormed ready

private theorem rewriteNode_stage {count : Nat} (inside : count < graph.nodes.length) :
    parallelism.rewriteNode (stage parallelism graph count) count = .ok (stage parallelism graph (count + 1)) := by
  have current : (stage parallelism graph count).node count = graph.node count := by
    rw [stage_node (by omega)]
    simp [stageNode, inside]
  by_cases apply : (graph.node count).op.isApply
  case neg =>
    rw [rewriteNode_skip (by simpa [current] using apply)]
    have same : stageNode parallelism graph (count + 1) = stageNode parallelism graph count := by
      funext position
      by_cases here : position = count
      · subst here
        simp [stageNode, apply]
      · exact stageNode_succ_other here
    simp [stage, applyBefore_succ, apply, same]
  case pos =>
    obtain ⟨edge, t, found, typed⟩ := ready count inside apply
    obtain ⟨name, gradientIndex, op⟩ : ∃ name gradientIndex, (graph.node count).op = .applyOp name gradientIndex := by
      cases h : (graph.node count).op <;> simp_all [Operator.isApply]
    have lookup := gradientEdge_ok op found
    obtain ⟨destination, fromGraph⟩ := wellFormed count inside edge (pyIndex_ok lookup)
    have source : (stageNode parallelism graph count edge.srcNode).name = (graph.node edge.srcNode).name ∧
        (stageNode parallelism graph count edge.srcNode).attrs = (graph.node edge.srcNode).attrs :=
      stageNode_source fromGraph
    have sourceNode : (stage parallelism graph count).node edge.srcNode = stageNode parallelism graph count edge.srcNode :=
      stage_node (by omega)
    rw [rewriteNode_apply (by rw [current, op]) (by rw [current]; exact lookup)
      (by rw [sourceNode, source.2, typed])]
    congr 1
    refine Graph.ext_node (by simp [applyBefore_succ, apply, Nat.add_assoc]) fun position within => ?_
    have within' : position < graph.nodes.length + (applyBefore graph count).length + 1 := by simpa using within
    have next : (stage parallelism graph (count + 1)).node position = stageNode parallelism graph (count + 1) position :=
      stage_node (by simp [applyBefore_succ, apply]; omega)
    rw [node_reroute _ _ _ _ _ (by simp; omega), next]
    split
    next here =>
      subst here
      rw [destination, current]
      simp [stageNode, inside, apply, rewired, edgeOf, found, destination]
    next elsewhere =>
      split
      next last =>
        subst last
        have placed : (applyBefore graph graph.nodes.length)[(applyBefore graph count).length]? = some count :=
          applyBefore_getElem? inside apply
        simp only [stage_length, stageNode, show ¬ graph.nodes.length + (applyBefore graph count).length < graph.nodes.length by omega,
          if_false, Nat.add_sub_cancel_left, applyPositions, List.getD_eq_getElem?_getD, placed, Option.getD_some]
        simp [inserted, edgeOf, found, typed, sourceNode, source.1, source.2, allreduceAttrs]
      next notLast =>
        rw [stage_length] at notLast
        rw [stage_node (by omega), stageNode_succ_other (by omega)]

private theorem walk_stage (fuel position : Nat)
    (within : position ≤ graph.nodes.length + (applyPositions graph).length)
    (enough : graph.nodes.length + (applyPositions graph).length - position < fuel) :
    parallelism.walk fuel position (stage parallelism graph (min position graph.nodes.length)) =
      some (.ok (stage parallelism graph graph.nodes.length)) := by
  have listed : (applyPositions graph).length = (applyBefore graph graph.nodes.length).length := rfl
  induction fuel generalizing position with
  | zero => omega
  | succ fuel ih =>
    simp only [walk, stage_length]
    by_cases original : position < graph.nodes.length
    · have before : (applyBefore graph position).length ≤ position := applyBefore_length_le position
      rw [if_pos (by omega), Nat.min_eq_left (Nat.le_of_lt original), rewriteNode_stage wellFormed ready original]
      simpa [Nat.min_eq_left original] using ih (position + 1) (by omega) (by omega)
    · rw [Nat.min_eq_right (by omega)]
      split
      next inside =>
        have appended : (stage parallelism graph graph.nodes.length).node position =
            stageNode parallelism graph graph.nodes.length position := stage_node inside
        rw [rewriteNode_skip (by simp [appended, stageNode, original, inserted, Operator.isApply])]
        simpa [Nat.min_eq_right (show graph.nodes.length ≤ position + 1 by omega)] using
          ih (position + 1) (by omega) (by omega)
      next => rfl

theorem runOnGraph_stage :
    parallelism.runOnGraph graph = some (.ok (true,
      { parallelism with parallelGraphs := some (List.replicate parallelism.devices.length (stage parallelism graph graph.nodes.length)) },
      stage parallelism graph graph.nodes.length)) := by
  have bound : (applyBefore graph graph.nodes.length).length ≤ graph.nodes.length := applyBefore_length_le _
  have run : parallelism.walk (2 * graph.nodes.length + 1) 0 (stage parallelism graph (min 0 graph.nodes.length)) =
      some (.ok (stage parallelism graph graph.nodes.length)) :=
    walk_stage wellFormed ready _ 0 (by omega) (by simp only [applyPositions]; omega)
  simp only [Nat.zero_min, stage_zero] at run
  simp [runOnGraph, run, Except.map]

end Loop

private theorem applyPositions_nodup : (applyPositions graph).Nodup := (List.nodup_range _).filter _

private theorem applyBefore_length_getElem {j : Nat} (listed : j < (applyPositions graph).length) :
    (applyBefore graph (applyPositions graph)[j]).length = j := by
  have member : (applyPositions graph)[j] < graph.nodes.length ∧ (graph.node (applyPositions graph)[j]).op.isApply :=
    mem_applyBefore.mp (List.getElem_mem listed)
  have placed := applyBefore_getElem? member.1 member.2
  exact (List.getElem?_inj listed applyPositions_nodup (by rw [List.getElem?_eq_getElem listed]; exact placed.symm)).symm

private theorem stage_node_inserted {j : Nat} (listed : j < (applyPositions graph).length) :
    (stage parallelism graph graph.nodes.length).node (graph.nodes.length + j) =
      inserted parallelism graph (applyPositions graph)[j] (graph.nodes.length + j) := by
  rw [stage_node (by simpa [applyPositions] using listed)]
  simp only [stageNode, if_neg (show ¬ graph.nodes.length + j < graph.nodes.length by omega),
    Nat.add_sub_cancel_left, List.getD_eq_getElem?_getD, List.getElem?_eq_getElem listed, Option.getD_some]

private theorem stage_node_apply (wellFormed : graph.WellFormed) {j : Nat} (listed : j < (applyPositions graph).length)
    {edge : Edge} {t : PyValue} (found : gradientEdge graph (applyPositions graph)[j] = some edge)
    (typed : (graph.node edge.srcNode).attrs.get? "T" = some t) :
    let apply := (applyPositions graph)[j]
    (stage parallelism graph graph.nodes.length).node apply = { graph.node apply with
        inEdges := (graph.node apply).inEdges.erase edge ++ [⟨graph.nodes.length + j, 0, apply, edge.destIdx⟩] } ∧
    (stage parallelism graph graph.nodes.length).node (graph.nodes.length + j) =
      ⟨(graph.node edge.srcNode).name ++ "_allreduce", .allreduceOp, parallelism.allreduceAttrs (graph.node edge.srcNode) t,
        [⟨edge.srcNode, edge.srcIdx, graph.nodes.length + j, 0⟩], 1, false⟩ := by
  intro apply
  have member : (applyPositions graph)[j] < graph.nodes.length ∧ (graph.node (applyPositions graph)[j]).op.isApply :=
    mem_applyBefore.mp (List.getElem_mem listed)
  have rank := applyBefore_length_getElem listed
  have destination := (wellFormed apply member.1 edge (gradientEdge_mem found)).1
  constructor
  · rw [stage_node (by omega)]
    simp [stageNode, member.1, member.2, rewired, edgeOf, found, rank, destination]
  · rw [stage_node_inserted listed]
    simp [inserted, edgeOf, found, typed]

/-- Every `ApplyOp` node can take the loop body. -/
def Ready (graph : Graph) : Prop :=
  ∀ position < graph.nodes.length, (graph.node position).op.isApply → GradientReady graph position

/-- What `rewritten` must be for `graph`: the `j`-th `ApplyOp` node reads its gradient from
output 0 of a new `AllreduceOp` node at position `n + j`, which reads the old gradient edge's
source; every other node is unchanged and nothing else is added. -/
structure Rerouted (parallelism : DataParallelism) (graph rewritten : Graph) : Prop where
  length : rewritten.nodes.length = graph.nodes.length + (applyPositions graph).length
  unchanged : ∀ position < graph.nodes.length, position ∉ applyPositions graph →
    rewritten.node position = graph.node position
  rerouted : ∀ (j : Nat) (listed : j < (applyPositions graph).length) (edge : Edge) (t : PyValue),
    let apply := (applyPositions graph)[j]
    gradientEdge graph apply = some edge → (graph.node edge.srcNode).attrs.get? "T" = some t →
      rewritten.node apply = { graph.node apply with
        inEdges := (graph.node apply).inEdges.erase edge ++ [⟨graph.nodes.length + j, 0, apply, edge.destIdx⟩] } ∧
      rewritten.node (graph.nodes.length + j) =
        ⟨(graph.node edge.srcNode).name ++ "_allreduce", .allreduceOp, parallelism.allreduceAttrs (graph.node edge.srcNode) t,
          [⟨edge.srcNode, edge.srcIdx, graph.nodes.length + j, 0⟩], 1, false⟩

theorem stage_rerouted (wellFormed : graph.WellFormed) :
    Rerouted parallelism graph (stage parallelism graph graph.nodes.length) := by
  refine ⟨by simp [applyPositions], fun position inside other => ?_,
    fun j listed edge t found typed => stage_node_apply wellFormed listed found typed⟩
  rw [stage_node (by omega)]
  simp_all [stageNode, applyPositions, mem_applyBefore]

/-- On a well-formed graph whose gradient sources carry `"T"`, `run_on_graph` returns `True`,
leaves `len(devices)` copies of its result in the strategy, and the result is the graph with
every gradient rerouted through its own `AllreduceOp` node. -/
theorem run_on_graph_reroutes_gradients (parallelism : DataParallelism) (graph : Graph)
    (wellFormed : graph.WellFormed) (ready : Ready graph) :
    ∃ rewritten : Graph,
      parallelism.runOnGraph graph = some (.ok (true,
        { parallelism with parallelGraphs := some (List.replicate parallelism.devices.length rewritten) }, rewritten)) ∧
      Rerouted parallelism graph rewritten :=
  ⟨_, runOnGraph_stage wellFormed ready, stage_rerouted wellFormed⟩

def descentGraph : Graph :=
  ⟨[⟨"w", .other "VariableV2", [("dtype", .dtype 1)], [], 1, false⟩,
    ⟨"lr", .other "Const", [("dtype", .dtype 1)], [], 1, false⟩,
    ⟨"grad", .other "Identity", [("T", .dtype 1)], [], 1, false⟩,
    ⟨"apply", .applyOp "ApplyGradientDescent" 2, [("T", .dtype 1)], [⟨0, 0, 3, 0⟩, ⟨1, 0, 3, 1⟩, ⟨2, 0, 3, 2⟩], 1, false⟩]⟩

theorem descentGraph_wellFormed : descentGraph.WellFormed := by
  unfold Graph.WellFormed; decide

theorem descentGraph_ready : Ready descentGraph := by
  intro position inside apply
  have third : position = 3 := by
    have : position < 4 := inside
    rcases position with _ | _ | _ | _ | _ <;> simp_all [descentGraph, Graph.node, Operator.isApply]
    omega
  subst third
  exact ⟨⟨2, 0, 3, 2⟩, .dtype 1, rfl, rfl⟩

theorem run_on_graph_reroutes_descent :
    descentGraph.WellFormed ∧ Ready descentGraph ∧
    ∃ rewritten : Graph,
      DataParallelism.runOnGraph ⟨["gpu0", "gpu1"], none⟩ descentGraph = some (.ok (true,
        ⟨["gpu0", "gpu1"], some (List.replicate 2 rewritten)⟩, rewritten)) ∧
      Rerouted ⟨["gpu0", "gpu1"], none⟩ descentGraph rewritten :=
  ⟨descentGraph_wellFormed, descentGraph_ready,
    run_on_graph_reroutes_gradients ⟨["gpu0", "gpu1"], none⟩ descentGraph descentGraph_wellFormed descentGraph_ready⟩

/-- A gradient edge whose source has no `"T"` attribute, here a `Cast` node (it has `SrcT` and
`DstT`): the loop body raises `KeyError` and no graph comes back. -/
theorem run_on_graph_raises_without_T :
    DataParallelism.runOnGraph ⟨["gpu0", "gpu1"], none⟩
      ⟨[⟨"cast_grad", .other "Cast", [("DstT", .dtype 1)], [], 1, false⟩,
        ⟨"apply", .applyOp "ApplyGradientDescent" 0, [], [⟨0, 0, 1, 0⟩], 1, false⟩]⟩ =
      some (.error .keyError) := rfl

/-- The node the gradient edge of the `ApplyOp` node at `apply` comes from. -/
def gradientSource (graph : Graph) (apply : Nat) : Node := graph.node (edgeOf graph apply).srcNode

private theorem allreduce_name_injective {first second : String}
    (same : first ++ "_allreduce" = second ++ "_allreduce") : first = second :=
  String.ext (by simpa using congrArg String.data same)

private theorem inserted_name (apply position : Nat) :
    (inserted parallelism graph apply position).name = (gradientSource graph apply).name ++ "_allreduce" := rfl

private theorem inserted_tensor_name (apply position : Nat) :
    (inserted parallelism graph apply position).attrs.get? "tensor_name" =
      some (.str ((gradientSource graph apply).name ++ "_allreduce")) := by
  simp [inserted, allreduceAttrs, PyDict.get?, gradientSource]

private theorem inserted_names_differ {j k : Nat} (first : j < (applyPositions graph).length)
    (second : k < (applyPositions graph).length) (different : j ≠ k)
    (distinctSources : ((applyPositions graph).map fun apply => (gradientSource graph apply).name).Nodup) :
    (gradientSource graph (applyPositions graph)[j]).name ++ "_allreduce" ≠
      (gradientSource graph (applyPositions graph)[k]).name ++ "_allreduce" := by
  intro same
  apply different
  apply List.getElem?_inj (by simpa using first) distinctSources
  simp [List.getElem?_eq_getElem first, List.getElem?_eq_getElem second, allreduce_name_injective same]

/-- When the `ApplyOp` nodes take their gradients from sources of different names, and no node
is already named after a source with `_allreduce`, the inserted `AllreduceOp` nodes have
pairwise different `tensor_name` attributes, and names that no other node of the result has. -/
theorem run_on_graph_allreduce_names_unique (parallelism : DataParallelism) (graph : Graph)
    (wellFormed : graph.WellFormed) (ready : Ready graph)
    (distinctSources : ((applyPositions graph).map fun apply => (gradientSource graph apply).name).Nodup)
    (fresh : ∀ apply ∈ applyPositions graph, ∀ position < graph.nodes.length,
      (graph.node position).name ≠ (gradientSource graph apply).name ++ "_allreduce") :
    ∃ rewritten strategy, parallelism.runOnGraph graph = some (.ok (true, strategy, rewritten)) ∧
      (∀ j < (applyPositions graph).length, ∀ k < (applyPositions graph).length, j ≠ k →
        (rewritten.node (graph.nodes.length + j)).attrs.get? "tensor_name" ≠
          (rewritten.node (graph.nodes.length + k)).attrs.get? "tensor_name") ∧
      (∀ j < (applyPositions graph).length, ∀ position < rewritten.nodes.length, position ≠ graph.nodes.length + j →
        (rewritten.node position).name ≠ (rewritten.node (graph.nodes.length + j)).name) := by
  refine ⟨_, _, runOnGraph_stage wellFormed ready, fun j first k second different => ?_,
    fun j first position inside other => ?_⟩
  · simpa [stage_node_inserted first, stage_node_inserted second, inserted_tensor_name] using
      inserted_names_differ first second different distinctSources
  · rw [stage_node_inserted first, inserted_name]
    by_cases original : position < graph.nodes.length
    · rw [stage_node (by omega), (stageNode_source original).1]
      exact fresh _ (List.getElem_mem first) position original
    · obtain ⟨k, rfl⟩ : ∃ k, position = graph.nodes.length + k := ⟨position - graph.nodes.length, by omega⟩
      have second : k < (applyPositions graph).length := by simp [applyPositions] at inside ⊢; omega
      rw [stage_node_inserted second, inserted_name]
      exact inserted_names_differ second first (by omega) distinctSources

theorem run_on_graph_names_descent :
    descentGraph.WellFormed ∧ Ready descentGraph ∧
    ((applyPositions descentGraph).map fun apply => (gradientSource descentGraph apply).name).Nodup ∧
    (∀ apply ∈ applyPositions descentGraph, ∀ position < descentGraph.nodes.length,
      (descentGraph.node position).name ≠ (gradientSource descentGraph apply).name ++ "_allreduce") ∧
    ∃ rewritten strategy, DataParallelism.runOnGraph ⟨["gpu0", "gpu1"], none⟩ descentGraph = some (.ok (true, strategy, rewritten)) ∧
      (∀ j < (applyPositions descentGraph).length, ∀ k < (applyPositions descentGraph).length, j ≠ k →
        (rewritten.node (descentGraph.nodes.length + j)).attrs.get? "tensor_name" ≠
          (rewritten.node (descentGraph.nodes.length + k)).attrs.get? "tensor_name") ∧
      (∀ j < (applyPositions descentGraph).length, ∀ position < rewritten.nodes.length,
        position ≠ descentGraph.nodes.length + j →
        (rewritten.node position).name ≠ (rewritten.node (descentGraph.nodes.length + j)).name) := by
  have distinctSources : ((applyPositions descentGraph).map fun apply => (gradientSource descentGraph apply).name).Nodup := by
    decide
  have fresh : ∀ apply ∈ applyPositions descentGraph, ∀ position < descentGraph.nodes.length,
      (descentGraph.node position).name ≠ (gradientSource descentGraph apply).name ++ "_allreduce" := by
    decide
  exact ⟨descentGraph_wellFormed, descentGraph_ready, distinctSources, fresh,
    run_on_graph_allreduce_names_unique _ descentGraph descentGraph_wellFormed descentGraph_ready distinctSources fresh⟩

/-- Batch normalization's gradient node feeds the gradients of scale and offset from outputs 1
and 2: both inserted `AllreduceOp` nodes are named `bn_grad_allreduce`. -/
theorem run_on_graph_shared_source_names :
    (DataParallelism.runOnGraph ⟨["gpu0", "gpu1"], none⟩
      ⟨[⟨"bn_grad", .other "FusedBatchNormGrad", [("T", .dtype 1)], [], 5, false⟩,
        ⟨"apply_gamma", .applyOp "ApplyGradientDescent" 0, [], [⟨0, 1, 1, 0⟩], 1, false⟩,
        ⟨"apply_beta", .applyOp "ApplyGradientDescent" 0, [], [⟨0, 2, 2, 0⟩], 1, false⟩]⟩).map
      (·.map fun (_, _, rewritten) =>
        ((rewritten.node 3).op, (rewritten.node 3).name, (rewritten.node 4).op, (rewritten.node 4).name)) =
      some (.ok (.allreduceOp, "bn_grad_allreduce", .allreduceOp, "bn_grad_allreduce")) := rfl

end SuperScaler.Proofs.DataParallelism
