import SuperScaler.Proofs.ReverseDFS
import Mathlib.Data.Set.Card

/-! Termination of `visit` inside `reverse_DFS`, on any graph. A call recurses only on a node
that is on neither list, after putting it on `temp_nodes`, and only into the nodes that feed
it. So along a chain of nested calls `temp_nodes` grows within the finitely many nodes that
feed the first one, and the number of those nodes off `temp_nodes` drops at each level: one
more unit of fuel than that number is enough for `visit` to return or raise. -/

namespace SuperScaler.Proofs.VisitTermination
open SuperScaler.Py SuperScaler.IR SuperScaler.GraphUtil SuperScaler.Proofs.ReverseDFS Relation

/-- The sources of the graph's in-edges. -/
def sources (graph : Graph) : List Nat := graph.nodes.flatMap fun node => node.inEdges.map (·.srcNode)

/-- The nodes that feed `start` through zero or more edges and are off the call path `temp`. -/
def reachOff (graph : Graph) (start : Nat) (temp : List Nat) : Set Nat :=
  {node | ReflTransGen (Feeds graph) node start ∧ node ∉ temp}

variable {graph : Graph}

private theorem feeds_source {source target : Nat} (feeds : Feeds graph source target) : source ∈ sources graph := by
  obtain ⟨edge, incoming, rfl⟩ := feeds
  cases found : graph.nodes[target]? with
  | none => simp [Graph.node, List.getD_eq_getElem?_getD, found] at incoming
  | some node =>
    rw [Graph.node, List.getD_eq_getElem?_getD, found, Option.getD_some] at incoming
    exact List.mem_flatMap.mpr ⟨node, List.getElem?_mem found, List.mem_map_of_mem _ incoming⟩

private theorem reach_finite (start : Nat) : {node | ReflTransGen (Feeds graph) node start}.Finite :=
  (List.finite_toSet (start :: sources graph)).subset fun node reaches => by
    rcases reaches.cases_head with rfl | ⟨_, feeds, _⟩
    · exact List.mem_cons_self _ _
    · exact List.mem_cons_of_mem _ (feeds_source feeds)

private theorem reachOff_finite {start : Nat} {temp : List Nat} : (reachOff graph start temp).Finite :=
  (reach_finite start).subset fun _ => And.left

private theorem reachOff_ncard_lt {start source : Nat} {temp : List Nat} (fresh : start ∉ temp)
    (feeds : Feeds graph source start) :
    (reachOff graph source (start :: temp)).ncard < (reachOff graph start temp).ncard := by
  have sub : reachOff graph source (start :: temp) ⊆ reachOff graph start temp \ {start} :=
    fun node ⟨reaches, off⟩ => ⟨⟨reaches.tail feeds, fun onPath => off (List.mem_cons_of_mem _ onPath)⟩,
      fun same => off (List.mem_cons.mpr (.inl same))⟩
  calc (reachOff graph source (start :: temp)).ncard
      ≤ (reachOff graph start temp \ {start}).ncard := Set.ncard_le_ncard sub (reachOff_finite.diff _)
    _ < (reachOff graph start temp).ncard := Set.ncard_diff_singleton_lt_of_mem ⟨.refl, fresh⟩ reachOff_finite

private theorem getUpstreamNodes_feeds {node : Nat} {upstream : List Nat} (found : getUpstreamNodes graph node = .ok upstream) :
    ∀ source ∈ upstream, Feeds graph source node := by
  unfold getUpstreamNodes at found
  split at found <;> cases found
  exact fun _ member => List.mem_map.mp member

/-- What a call may give: never a run out of fuel, and on return `temp_nodes` as the call
found it. -/
def Returns (temp : List Nat) : Option (Except PyError DfsState) → Prop
  | none => False
  | some (.error _) => True
  | some (.ok after) => after.temp = temp

theorem Returns.isSome {temp : List Nat} {outcome : Option (Except PyError DfsState)} (returns : Returns temp outcome) :
    ∃ result, outcome = some result := by
  cases outcome with
  | none => exact returns.elim
  | some result => exact ⟨result, rfl⟩

private theorem visitEach_returns {visitOne : DfsState → Nat → Option (Except PyError DfsState)} {temp : List Nat} :
    ∀ {roots : List Nat}, (∀ state root, root ∈ roots → state.temp = temp → Returns temp (visitOne state root)) →
      ∀ state : DfsState, state.temp = temp → Returns temp (visitEach visitOne roots state)
  | [], _, _, onPath => onPath
  | root :: _, single, state, onPath =>
    resume (single state root (List.mem_cons_self _ _) onPath) id (fun _ _ => trivial)
      (visitEach_returns fun state root member => single state root (List.mem_cons_of_mem _ member))

private theorem visit_returns (order : SetOrder) : ∀ (fuel : Nat) (state : DfsState) (start : Nat),
    (reachOff graph start state.temp).ncard < fuel → Returns state.temp (visit graph order fuel state start)
  | 0, _, _, enough => absurd enough (Nat.not_lt_zero _)
  | fuel + 1, state, start, enough => by
    simp only [visit]
    split
    · rfl
    split
    · trivial
    next fresh =>
    cases found : getUpstreamNodes graph start with
    | error => trivial
    | ok upstream =>
      have below := visitEach_returns (fun inner root member onPath => by
          dsimp only at onPath ⊢
          have smaller := reachOff_ncard_lt fresh (getUpstreamNodes_feeds found root ((order.mem_enum _ _).mp member))
          rw [← onPath] at smaller ⊢
          exact visit_returns order fuel inner root (by omega)) ⟨start :: state.temp, state.ordered⟩ rfl
      exact resume below id (fun _ _ => trivial) fun after (onPath : after.temp = start :: state.temp) => by
        simp only [onPath, List.mem_cons_self, if_true, List.erase_cons_head]
        rfl

/-- `visit` terminates on every graph. The nodes that feed a start node are finitely many; a
nested call, made on a node that feeds the current one after putting the current one on
`temp_nodes`, counts fewer of them off `temp_nodes`; and a call with more fuel than that count
returns or raises. -/
theorem visit_terminates (graph : Graph) (order : SetOrder) (start : Nat) :
    {node | ReflTransGen (Feeds graph) node start}.Finite ∧
    (∀ (temp : List Nat) (source : Nat), start ∉ temp → Feeds graph source start →
      (reachOff graph source (start :: temp)).ncard < (reachOff graph start temp).ncard) ∧
    ∀ (state : DfsState) (fuel : Nat), (reachOff graph start state.temp).ncard < fuel →
      ∃ result, visit graph order fuel state start = some result :=
  ⟨reach_finite start, fun _ _ fresh feeds => reachOff_ncard_lt fresh feeds,
    fun state fuel enough => (visit_returns order fuel state start enough).isSome⟩

theorem visit_terminates_on_self_loop :
    (reachOff selfLoop 0 []).ncard < 2 ∧
    (∃ result, visit selfLoop .listed 2 ⟨[], []⟩ 0 = some result) ∧
    visit selfLoop .listed 2 ⟨[], []⟩ 0 = some (.error .runtimeError) :=
  have single : reachOff selfLoop 0 [] ⊆ {0} := fun node ⟨reaches, _⟩ => by
    rcases reaches.cases_head with rfl | ⟨_, feeds, _⟩
    · rfl
    · simpa [sources, selfLoop] using feeds_source feeds
  have small : (reachOff selfLoop 0 []).ncard < 2 :=
    (Set.ncard_le_ncard single (Set.finite_singleton 0)).trans_lt (by rw [Set.ncard_singleton]; decide)
  ⟨small, (visit_terminates selfLoop .listed 0).2.2 ⟨[], []⟩ 2 small, rfl⟩

private theorem sources_lt (closed : Closed graph) : ∀ source ∈ sources graph, source < graph.nodes.length := by
  intro source member
  obtain ⟨node, present, incoming⟩ := List.mem_flatMap.mp member
  obtain ⟨edge, inEdge, rfl⟩ := List.mem_map.mp incoming
  obtain ⟨position, found⟩ := List.mem_iff_getElem?.mp present
  have inside : position < graph.nodes.length := (List.getElem?_eq_some_iff.mp found).1
  refine closed position inside edge ?_
  rwa [Graph.node, List.getD_eq_getElem?_getD, found, Option.getD_some]

theorem getOutputNodes_lt {outputs : List Nat} (found : getOutputNodes graph = .ok outputs) :
    ∀ output ∈ outputs, output < graph.nodes.length := by
  unfold getOutputNodes at found
  cases upstream : upstreamOfAll graph (List.range graph.nodes.length) with
  | error => simp [upstream] at found
  | ok upstreamNodes =>
    simp only [upstream, ok_bind, pure_eq_ok, Except.ok.injEq] at found
    subst found
    intro output member
    exact List.mem_range.mp (List.mem_filter.mp member).1

/-- On a graph whose in-edges come from its own nodes, `reverse_DFS` returns or raises: every
call it makes from the empty path counts at most the graph's nodes, so one more unit of fuel
than there are nodes never runs out, composite nodes and cycles included. -/
theorem reverse_DFS_returns_on_closed_graph (graph : Graph) (order : SetOrder) (closed : Closed graph) :
    ∃ result, reverseDFS graph order = some result := by
  unfold reverseDFS
  split
  · exact ⟨_, rfl⟩
  next outputs found =>
  have bounded : ∀ root ∈ order.enum outputs,
      (reachOff graph root []).ncard < graph.nodes.length + 1 := by
    intro root member
    have inside := getOutputNodes_lt found root ((order.mem_enum _ _).mp member)
    have sub : reachOff graph root [] ⊆ ↑(Finset.range graph.nodes.length) := fun node ⟨reaches, _⟩ => by
      rw [Finset.coe_range]
      rcases reaches.cases_head with rfl | ⟨_, feeds, _⟩
      exacts [inside, sources_lt closed _ (feeds_source feeds)]
    calc (reachOff graph root []).ncard ≤ (↑(Finset.range graph.nodes.length) : Set Nat).ncard :=
          Set.ncard_le_ncard sub (Finset.finite_toSet _)
      _ < graph.nodes.length + 1 := by rw [Set.ncard_coe_Finset, Finset.card_range]; exact Nat.lt_succ_self _
  have returns := visitEach_returns (fun state root member onPath => by
      dsimp only at onPath ⊢
      rw [← onPath] at bounded ⊢
      exact visit_returns order _ state root (bounded root member)) ⟨[], []⟩ rfl
  obtain ⟨result, ran⟩ := returns.isSome
  exact ⟨_, by rw [ran]; rfl⟩

def cycleRead : Graph :=
  ⟨[⟨"a", .other "Identity", [], [⟨1, 0, 0, 0⟩], 1, false⟩, ⟨"b", .other "Identity", [], [⟨0, 0, 1, 0⟩], 1, false⟩,
    ⟨"c", .other "Identity", [], [⟨0, 0, 2, 0⟩], 1, false⟩]⟩

theorem reverse_DFS_returns_on_cycle_read :
    Closed cycleRead ∧ (∃ result, reverseDFS cycleRead .listed = some result) ∧
    reverseDFS cycleRead .listed = some (.error .runtimeError) :=
  have closed : Closed cycleRead := by unfold Closed; decide
  ⟨closed, reverse_DFS_returns_on_closed_graph cycleRead .listed closed, rfl⟩

end SuperScaler.Proofs.VisitTermination
