import SuperScaler.GraphUtil
import Mathlib.Logic.Relation
import Mathlib.Data.Finset.Card

/-! `reverse_DFS` orders a graph from its output nodes. Each `visit` either finds its node
already ordered, finds it on the current call path (a cycle), or orders all it reaches and then
the node itself. One outcome predicate, `Settles`, says what a call may return, and one
induction over the fuel proves it for `visit` and for the loops that call it. -/

namespace SuperScaler.Proofs.ReverseDFS
open SuperScaler.Py SuperScaler.IR SuperScaler.GraphUtil Relation

variable (graph : Graph)

/-- `source` is an upstream node of `target`: an in-edge of `target` comes from it. -/
def Feeds (source target : Nat) : Prop := ∃ edge ∈ (graph.node target).inEdges, edge.srcNode = source

def Closed : Prop := ∀ position < graph.nodes.length, ∀ edge ∈ (graph.node position).inEdges,
  edge.srcNode < graph.nodes.length

def NoComposite : Prop := ∀ position < graph.nodes.length, (graph.node position).composite = false

/-- An output node: a node of the graph that no node of the graph reads. -/
def IsOutput (node : Nat) : Prop :=
  node < graph.nodes.length ∧ ∀ reader < graph.nodes.length, ¬ Feeds graph node reader

/-- Every node comes after all the nodes that feed it. -/
def Topological (ordered : List Nat) : Prop :=
  ∀ (index : Nat) (inside : index < ordered.length), ∀ source, Feeds graph source ordered[index] →
    source ∈ ordered.take index

/-- What holds of the search state between calls. -/
structure Invariant (state : DfsState) : Prop where
  nodup : state.ordered.Nodup
  topological : Topological graph state.ordered
  apart : ∀ node ∈ state.temp, node ∉ state.ordered
  tempNodup : state.temp.Nodup
  tempInGraph : ∀ node ∈ state.temp, node < graph.nodes.length

variable {graph}

private theorem topological_nil : Topological graph [] := fun _ inside => absurd inside (Nat.not_lt_zero _)

private theorem topological_append {ordered : List Nat} {node : Nat} (earlier : Topological graph ordered)
    (fed : ∀ source, Feeds graph source node → source ∈ ordered) : Topological graph (ordered ++ [node]) := by
  intro index inside source feeds
  simp only [List.length_append, List.length_singleton] at inside
  rcases Nat.lt_succ_iff_lt_or_eq.mp inside with old | rfl
  · rw [List.getElem_append_left old] at feeds
    rw [List.take_append_of_le_length (Nat.le_of_lt old)]
    exact earlier index old source feeds
  · simp only [List.getElem_append_right (Nat.le_refl _), Nat.sub_self, List.getElem_singleton] at feeds
    simpa using fed source feeds

theorem Topological.feeds {ordered : List Nat} (sorted : Topological graph ordered) {source node : Nat}
    (member : node ∈ ordered) (feeds : Feeds graph source node) :
    source ∈ ordered ∧ ordered.indexOf source < ordered.indexOf node := by
  have inside := List.indexOf_lt_length.mpr member
  have earlier := sorted _ inside source (by rwa [List.getElem_indexOf inside])
  refine ⟨List.mem_of_mem_take earlier, ?_⟩
  have found := List.indexOf_lt_length.mpr earlier
  rw [← List.take_append_drop (ordered.indexOf node) ordered, List.indexOf_append_of_mem earlier]
  exact (by simpa using found : _ ∧ _).1

theorem Topological.closed {ordered : List Nat} (sorted : Topological graph ordered) {source node : Nat}
    (member : node ∈ ordered) (reaches : ReflTransGen (Feeds graph) source node) : source ∈ ordered := by
  induction reaches using ReflTransGen.head_induction_on with
  | refl => exact member
  | head feeds _ later => exact (sorted.feeds later feeds).1

private theorem Topological.acyclic {ordered : List Nat} (sorted : Topological graph ordered) {node : Nat}
    (member : node ∈ ordered) : ¬ TransGen (Feeds graph) node node := by
  have descends : ∀ {source target}, TransGen (Feeds graph) source target → target ∈ ordered →
      source ∈ ordered ∧ ordered.indexOf source < ordered.indexOf target := by
    intro source target path
    induction path using TransGen.head_induction_on with
    | base feeds => exact fun present => sorted.feeds present feeds
    | ih feeds _ later =>
      intro present
      obtain ⟨middle, lower⟩ := later present
      obtain ⟨first, lowest⟩ := sorted.feeds middle feeds
      exact ⟨first, Nat.lt_trans lowest lower⟩
  exact fun cycle => Nat.lt_irrefl _ (descends cycle member).2

private theorem getUpstreamNodes_ok (noComposite : NoComposite graph) {node : Nat} (inside : node < graph.nodes.length) :
    ∃ upstream, getUpstreamNodes graph node = .ok upstream ∧ ∀ source, source ∈ upstream ↔ Feeds graph source node := by
  refine ⟨(graph.node node).inEdges.map (·.srcNode), by simp [getUpstreamNodes, noComposite node inside],
    fun source => ?_⟩
  simp [Feeds]

theorem upstreamOfAll_ok (noComposite : NoComposite graph) (positions : List Nat)
    (inside : ∀ position ∈ positions, position < graph.nodes.length) :
    ∃ upstream, upstreamOfAll graph positions = .ok upstream ∧
      ∀ source, source ∈ upstream ↔ ∃ reader ∈ positions, Feeds graph source reader := by
  induction positions with
  | nil => exact ⟨[], rfl, by simp⟩
  | cons position rest ih =>
    obtain ⟨first, found, spec⟩ := getUpstreamNodes_ok noComposite (inside position (List.mem_cons_self _ _))
    obtain ⟨others, foundRest, specRest⟩ := ih fun other member => inside other (List.mem_cons_of_mem _ member)
    refine ⟨first ++ others, by simp [upstreamOfAll, found, foundRest], ?_⟩
    intro source
    simp [spec, specRest]

theorem getOutputNodes_ok (noComposite : NoComposite graph) :
    ∃ outputs, getOutputNodes graph = .ok outputs ∧ ∀ node, node ∈ outputs ↔ IsOutput graph node := by
  obtain ⟨upstream, found, spec⟩ := upstreamOfAll_ok noComposite (List.range graph.nodes.length) (by simp)
  refine ⟨(List.range graph.nodes.length).filter fun position => decide (position ∉ upstream),
    by simp [getOutputNodes, found], fun node => ?_⟩
  simp [spec, IsOutput]

variable (graph)

/-- What a call from `roots` may return, starting from `state`. It never runs out of fuel. It
raises only `RuntimeError`, and only when a cycle is reached from a root. Otherwise it leaves
`temp_nodes` as it found it, keeps the invariant, orders every root, and adds only nodes reached
from the roots. -/
def Settles (roots : List Nat) (state : DfsState) : Option (Except PyError DfsState) → Prop
  | none => False
  | some (.error error) => error = .runtimeError ∧
      ∃ root ∈ roots, ∃ cyclic, ReflTransGen (Feeds graph) cyclic root ∧ TransGen (Feeds graph) cyclic cyclic
  | some (.ok after) => after.temp = state.temp ∧ Invariant graph after ∧ (∀ root ∈ roots, root ∈ after.ordered) ∧
      ∃ added, after.ordered = state.ordered ++ added ∧
        ∀ node ∈ added, ∃ root ∈ roots, ReflTransGen (Feeds graph) node root

/-- What a call from `roots` needs: the invariant, roots in the graph that feed every node on the
current call path, and one more unit of fuel than there are nodes off the path. -/
structure Ready (roots : List Nat) (state : DfsState) (fuel : Nat) : Prop where
  invariant : Invariant graph state
  rootsInGraph : ∀ root ∈ roots, root < graph.nodes.length
  below : ∀ root ∈ roots, ∀ node ∈ state.temp, TransGen (Feeds graph) root node
  enough : graph.nodes.length < state.temp.length + fuel

variable {graph}

theorem Ready.sub {roots others : List Nat} {state : DfsState} {fuel : Nat} (ready : Ready graph roots state fuel)
    (sub : ∀ root ∈ others, root ∈ roots) : Ready graph others state fuel :=
  ⟨ready.invariant, fun root member => ready.rootsInGraph root (sub root member),
    fun root member => ready.below root (sub root member), ready.enough⟩

private theorem Invariant.temp_length_le {state : DfsState} (invariant : Invariant graph state) :
    state.temp.length ≤ graph.nodes.length := by
  rw [← List.toFinset_card_of_nodup invariant.tempNodup, ← Finset.card_range graph.nodes.length]
  exact Finset.card_le_card fun node member =>
    Finset.mem_range.mpr (invariant.tempInGraph node (List.mem_toFinset.mp member))

theorem resume {before after : Option (Except PyError DfsState) → Prop} {outcome : Option (Except PyError DfsState)}
    {next : DfsState → Option (Except PyError DfsState)} (holds : before outcome) (fueled : ¬ before none)
    (raised : ∀ error, before (some (.error error)) → after (some (.error error)))
    (continues : ∀ state, before (some (.ok state)) → after (next state)) :
    after (match (motive := Option (Except PyError DfsState) → Option (Except PyError DfsState)) outcome with
      | some (.ok state) => next state
      | other => other) :=
  match outcome, holds with
  | none, holds => absurd holds fueled
  | some (.error error), holds => raised error holds
  | some (.ok state), holds => continues state holds

theorem Settles.cons {root : Nat} {rest : List Nat} {state middle : DfsState} {outcome : Option (Except PyError DfsState)}
    (first : Settles graph [root] state (some (.ok middle))) (later : Settles graph rest middle outcome) :
    Settles graph (root :: rest) state outcome := by
  obtain ⟨sameTemp, -, ordered, added, extends_, reached⟩ := first
  match outcome, later with
  | some (.error _), ⟨runtime, top, member, cyclic, reaches, cycle⟩ =>
    exact ⟨runtime, top, List.mem_cons_of_mem _ member, cyclic, reaches, cycle⟩
  | some (.ok final), ⟨sameTemp', invariant', ordered', added', extends', reached'⟩ =>
    refine ⟨sameTemp'.trans sameTemp, invariant', ?_, added ++ added', by simp [extends', extends_], ?_⟩
    · intro other member
      rcases List.mem_cons.mp member with rfl | member
      · rw [extends']
        exact List.mem_append_left _ (ordered other (List.mem_singleton_self _))
      · exact ordered' other member
    · intro node member
      rcases List.mem_append.mp member with member | member
      · obtain ⟨top, top_member, path⟩ := reached node member
        exact ⟨top, List.mem_singleton.mp top_member ▸ List.mem_cons_self root rest, path⟩
      · obtain ⟨top, top_member, path⟩ := reached' node member
        exact ⟨top, List.mem_cons_of_mem _ top_member, path⟩

private theorem visitEach_settles {visitOne : DfsState → Nat → Option (Except PyError DfsState)} {fuel : Nat}
    (single : ∀ state node, Ready graph [node] state fuel → Settles graph [node] state (visitOne state node))
    (roots : List Nat) (state : DfsState) (ready : Ready graph roots state fuel) :
    Settles graph roots state (visitEach visitOne roots state) := by
  induction roots generalizing state with
  | nil => exact ⟨rfl, ready.invariant, by simp, [], by simp, by simp⟩
  | cons root rest ih =>
    refine resume (single state root (ready.sub (by simp))) id
      (fun _ ⟨runtime, top, member, cyclic, reaches, cycle⟩ =>
        ⟨runtime, top, List.mem_singleton.mp member ▸ List.mem_cons_self root rest, cyclic, reaches, cycle⟩)
      fun middle first => first.cons (ih middle ⟨first.2.1,
        fun other member => ready.rootsInGraph other (List.mem_cons_of_mem _ member),
        fun other member node path => ready.below other (List.mem_cons_of_mem _ member) node (first.1 ▸ path),
        first.1 ▸ ready.enough⟩)

section Visit
variable (order : SetOrder) (closed : Closed graph) (noComposite : NoComposite graph)

include closed in
theorem Ready.upstream {state : DfsState} {node fuel : Nat} (ready : Ready graph [node] state (fuel + 1))
    (unordered : node ∉ state.ordered) (fresh : node ∉ state.temp) {upstream : List Nat}
    (spec : ∀ source, source ∈ upstream ↔ Feeds graph source node) :
    Ready graph (order.enum upstream) ⟨node :: state.temp, state.ordered⟩ fuel := by
  have inside := ready.rootsInGraph node (List.mem_singleton_self _)
  have feeds : ∀ root ∈ order.enum upstream, Feeds graph root node := fun root member =>
    (spec root).mp ((order.mem_enum _ _).mp member)
  obtain ⟨nodup, topological, apart, tempNodup, tempInGraph⟩ := ready.invariant
  refine ⟨⟨nodup, topological, ?_, List.nodup_cons.mpr ⟨fresh, tempNodup⟩, ?_⟩, ?_, ?_, ?_⟩
  · simpa [unordered] using apart
  · simpa [inside] using tempInGraph
  · intro root member
    obtain ⟨edge, incoming, rfl⟩ := feeds root member
    exact closed node inside edge incoming
  · intro root member other onPath
    rcases List.mem_cons.mp onPath with rfl | onPath
    · exact .single (feeds root member)
    · exact .head (feeds root member) (ready.below node (List.mem_singleton_self _) other onPath)
  · simpa [Nat.add_right_comm] using ready.enough

include closed noComposite in
private theorem visit_settles (fuel : Nat) (state : DfsState) (node : Nat) (ready : Ready graph [node] state fuel) :
    Settles graph [node] state (visit graph order fuel state node) := by
  induction fuel generalizing state node with
  | zero => exact absurd ready.enough (Nat.not_lt.mpr ready.invariant.temp_length_le)
  | succ fuel ih =>
    have inside := ready.rootsInGraph node (List.mem_singleton_self _)
    simp only [visit]
    split
    next ordered => exact ⟨rfl, ready.invariant, by simpa using ordered, [], by simp, by simp⟩
    next unordered =>
    split
    next onPath =>
      exact ⟨rfl, node, List.mem_singleton_self _, node, .refl, ready.below node (List.mem_singleton_self _) node onPath⟩
    next fresh =>
    obtain ⟨upstream, found, spec⟩ := getUpstreamNodes_ok noComposite inside
    rw [found]
    have feeds : ∀ root ∈ order.enum upstream, Feeds graph root node := fun root member =>
      (spec root).mp ((order.mem_enum _ _).mp member)
    have below := visitEach_settles (fun state node ready => ih state node ready) _ _
      (ready.upstream order closed unordered fresh spec)
    refine resume below id (fun _ ⟨runtime, root, member, cyclic, reaches, cycle⟩ =>
      ⟨runtime, node, List.mem_singleton_self _, cyclic, reaches.tail (feeds root member), cycle⟩) fun after settled => ?_
    obtain ⟨sameTemp, ⟨nodup, topological, apart, -, -⟩, ordered, added, extends_, reached⟩ := settled
    simp only at sameTemp
    have present : node ∈ after.temp := sameTemp ▸ List.mem_cons_self _ _
    simp only [sameTemp, List.mem_cons_self, ↓reduceIte, List.erase_cons_head]
    refine ⟨rfl, ⟨?_, topological_append topological fun source fed => ordered source ?_, ?_,
      ready.invariant.tempNodup, ready.invariant.tempInGraph⟩, by simp, added ++ [node], by simp [extends_], ?_⟩
    · exact List.nodup_append.mpr ⟨nodup, List.nodup_singleton _, by simpa using apart node present⟩
    · exact (order.mem_enum _ _).mpr ((spec source).mpr fed)
    · intro other onPath
      have distinct : other ≠ node := fun same => fresh (same ▸ onPath)
      simpa [distinct] using apart other (sameTemp ▸ List.mem_cons_of_mem _ onPath)
    · intro other member
      rcases List.mem_append.mp member with member | member
      · obtain ⟨root, top, path⟩ := reached other member
        exact ⟨node, List.mem_singleton_self _, path.tail (feeds root top)⟩
      · exact ⟨node, List.mem_singleton_self _, by simp at member; exact member ▸ .refl⟩

include closed noComposite in
private theorem reverseDFS_settles : ∃ outputs result, (∀ node, node ∈ outputs ↔ IsOutput graph node) ∧
    reverseDFS graph order = result.map (·.map (·.ordered)) ∧ Settles graph (order.enum outputs) ⟨[], []⟩ result := by
  obtain ⟨outputs, found, spec⟩ := getOutputNodes_ok noComposite
  refine ⟨outputs, visitEach (visit graph order (graph.nodes.length + 1)) (order.enum outputs) ⟨[], []⟩, spec,
    by simp [reverseDFS, found], visitEach_settles (visit_settles order closed noComposite _) _ _ ?_⟩
  exact ⟨⟨List.nodup_nil, topological_nil, by simp, List.nodup_nil, by simp⟩,
    fun root member => ((spec root).mp ((order.mem_enum _ _).mp member)).1, by simp, by simp⟩

end Visit

variable (graph)

/-- `node` feeds an output node, through zero or more edges. -/
def ReachesOutput (node : Nat) : Prop := ∃ output, IsOutput graph output ∧ ReflTransGen (Feeds graph) node output

def CycleReachesOutput : Prop := ∃ cyclic, TransGen (Feeds graph) cyclic cyclic ∧ ReachesOutput graph cyclic

variable {graph}

private theorem reverseDFS_spec (order : SetOrder) (closed : Closed graph) (noComposite : NoComposite graph) :
    (reverseDFS graph order = some (.error .runtimeError) ∧ CycleReachesOutput graph) ∨
    (¬ CycleReachesOutput graph ∧ ∃ ordered, reverseDFS graph order = some (.ok ordered) ∧ ordered.Nodup ∧
      Topological graph ordered ∧ ∀ node, node ∈ ordered ↔ ReachesOutput graph node) := by
  obtain ⟨outputs, result, spec, ran, settles⟩ := reverseDFS_settles order closed noComposite
  have listed : ∀ output, output ∈ order.enum outputs ↔ IsOutput graph output := fun output =>
    (order.mem_enum _ _).trans (spec output)
  rw [ran]
  match result, settles with
  | none, impossible => exact impossible.elim
  | some (.error _), ⟨runtime, root, member, cyclic, path, cycle⟩ =>
    exact .inl ⟨by rw [runtime]; rfl, cyclic, cycle, root, (listed root).mp member, path⟩
  | some (.ok after), ⟨_, invariant, roots, added, extends_, reached⟩ =>
    have ordersReaching : ∀ node, ReachesOutput graph node → node ∈ after.ordered :=
      fun node ⟨output, isOutput, path⟩ => invariant.topological.closed (roots output ((listed output).mpr isOutput)) path
    refine .inr ⟨fun ⟨cyclic, cycle, reaches⟩ => invariant.topological.acyclic (ordersReaching cyclic reaches) cycle,
      after.ordered, rfl, invariant.nodup, invariant.topological, fun node => ⟨fun member => ?_, ordersReaching node⟩⟩
    simp only [List.nil_append] at extends_
    obtain ⟨root, top, path⟩ := reached node (extends_ ▸ member)
    exact ⟨root, (listed root).mp top, path⟩

private theorem reaches_output (acyclic : ∀ node, ¬ TransGen (Feeds graph) node node) (node : Nat)
    (inside : node < graph.nodes.length) : ReachesOutput graph node := by
  classical
  suffices ∀ count node, ((Finset.range graph.nodes.length).filter (TransGen (Feeds graph) node ·)).card = count →
      node < graph.nodes.length → ReachesOutput graph node from this _ node rfl inside
  intro count
  induction count using Nat.strong_induction_on with
  | _ count ih =>
    intro node counted inside
    by_cases read : ∃ reader < graph.nodes.length, Feeds graph node reader
    · obtain ⟨reader, readerInside, feeds⟩ := read
      have sub : (Finset.range graph.nodes.length).filter (TransGen (Feeds graph) reader ·) ⊆
          (Finset.range graph.nodes.length).filter (TransGen (Feeds graph) node ·) := fun later member => by
        simp only [Finset.mem_filter] at member ⊢
        exact ⟨member.1, .head feeds member.2⟩
      have fewer := Finset.card_lt_card ((Finset.ssubset_iff_of_subset sub).mpr
        ⟨reader, by simpa using ⟨readerInside, .single feeds⟩, by simp [acyclic reader]⟩)
      obtain ⟨output, isOutput, path⟩ := ih _ (counted ▸ fewer) reader rfl readerInside
      exact ⟨output, isOutput, .head feeds path⟩
    · exact ⟨node, ⟨inside, fun reader readerInside feeds => read ⟨reader, readerInside, feeds⟩⟩, .refl⟩

theorem Closed.inside (closed : Closed graph) {source target : Nat} (path : ReflTransGen (Feeds graph) source target)
    (inside : target < graph.nodes.length) : source < graph.nodes.length := by
  induction path using ReflTransGen.head_induction_on with
  | refl => exact inside
  | head feeds _ later =>
    obtain ⟨edge, incoming, rfl⟩ := feeds
    exact closed _ later edge incoming

theorem acyclic_of_rank (rank : Nat → Nat) (rises : ∀ source target, Feeds graph source target → rank source < rank target)
    (node : Nat) : ¬ TransGen (Feeds graph) node node := by
  have climbs : ∀ {source target}, TransGen (Feeds graph) source target → rank source < rank target := by
    intro source target path
    induction path with
    | single feeds => exact rises _ _ feeds
    | tail _ feeds below => exact Nat.lt_trans below (rises _ _ feeds)
  exact fun cycle => Nat.lt_irrefl _ (climbs cycle)

variable (graph)

/-- On a closed, acyclic graph of plain nodes `reverse_DFS` returns every node of the graph once,
each after the nodes that feed it, for every order Python may iterate its sets in. -/
theorem reverse_DFS_orders_acyclic_graph (order : SetOrder) (closed : Closed graph) (noComposite : NoComposite graph)
    (acyclic : ∀ node, ¬ TransGen (Feeds graph) node node) :
    ∃ ordered, reverseDFS graph order = some (.ok ordered) ∧ ordered.Nodup ∧
      (∀ node, node ∈ ordered ↔ node < graph.nodes.length) ∧ Topological graph ordered := by
  rcases reverseDFS_spec order closed noComposite with ⟨_, cyclic, cycle, _⟩ | ⟨_, ordered, ran, nodup, sorted, members⟩
  · exact absurd cycle (acyclic cyclic)
  · refine ⟨ordered, ran, nodup, fun node => (members node).trans ⟨?_, reaches_output acyclic node⟩, sorted⟩
    exact fun ⟨_, isOutput, path⟩ => closed.inside path isOutput.1

def chain : Graph :=
  ⟨[⟨"a", .other "Const", [], [], 1, false⟩, ⟨"b", .other "Identity", [], [⟨0, 0, 1, 0⟩], 1, false⟩,
    ⟨"c", .other "Identity", [], [⟨1, 0, 2, 0⟩], 1, false⟩]⟩

theorem reverse_DFS_orders_chain :
    Closed chain ∧ NoComposite chain ∧ (∀ node, ¬ TransGen (Feeds chain) node node) ∧
    ∃ ordered, reverseDFS chain .listed = some (.ok ordered) ∧ ordered.Nodup ∧
      (∀ node, node ∈ ordered ↔ node < chain.nodes.length) ∧ Topological chain ordered := by
  have closed : Closed chain := by unfold Closed; decide
  have noComposite : NoComposite chain := by unfold NoComposite; decide
  have acyclic : ∀ node, ¬ TransGen (Feeds chain) node node := by
    refine acyclic_of_rank id fun source target ⟨edge, incoming, named⟩ => ?_
    rcases target with _ | _ | _ | target <;> simp [chain, Graph.node] at incoming <;> simp [← named, incoming]
  exact ⟨closed, noComposite, acyclic, reverse_DFS_orders_acyclic_graph chain .listed closed noComposite acyclic⟩

/-- On a closed graph of plain nodes `reverse_DFS` raises `RuntimeError` exactly when some cycle
feeds an output node, and otherwise returns an ordering: without repeats, in topological order,
of the nodes that feed an output node. -/
theorem reverse_DFS_raises_iff_cycle_reaches_output (order : SetOrder) (closed : Closed graph)
    (noComposite : NoComposite graph) :
    (reverseDFS graph order = some (.error .runtimeError) ↔ CycleReachesOutput graph) ∧
      (¬ CycleReachesOutput graph → ∃ ordered, reverseDFS graph order = some (.ok ordered) ∧ ordered.Nodup ∧
        Topological graph ordered ∧ ∀ node, node ∈ ordered ↔ ReachesOutput graph node) := by
  rcases reverseDFS_spec order closed noComposite with ⟨raised, cycle⟩ | ⟨noCycle, ordered, ran, sorted⟩
  · exact ⟨iff_of_true raised cycle, fun noCycle => absurd cycle noCycle⟩
  · exact ⟨iff_of_false (by simp [ran]) noCycle, fun _ => ⟨ordered, ran, sorted⟩⟩

def feedback : Graph :=
  ⟨[⟨"a", .other "Add", [], [⟨1, 0, 0, 0⟩], 1, false⟩, ⟨"b", .other "Identity", [], [⟨0, 0, 1, 0⟩], 1, false⟩,
    ⟨"c", .other "Identity", [], [⟨0, 0, 2, 0⟩], 1, false⟩]⟩

theorem reverse_DFS_raises_on_feedback :
    Closed feedback ∧ NoComposite feedback ∧
      (reverseDFS feedback .listed = some (.error .runtimeError) ↔ CycleReachesOutput feedback) ∧
      (¬ CycleReachesOutput feedback → ∃ ordered, reverseDFS feedback .listed = some (.ok ordered) ∧ ordered.Nodup ∧
        Topological feedback ordered ∧ ∀ node, node ∈ ordered ↔ ReachesOutput feedback node) := by
  have closed : Closed feedback := by unfold Closed; decide
  have noComposite : NoComposite feedback := by unfold NoComposite; decide
  exact ⟨closed, noComposite, reverse_DFS_raises_iff_cycle_reaches_output feedback .listed closed noComposite⟩

def selfLoop : Graph := ⟨[⟨"next", .other "NextIteration", [], [⟨0, 0, 0, 0⟩], 1, false⟩]⟩

/-- The cycle of `selfLoop` goes unreported: whatever order Python iterates its sets in,
`reverse_DFS` returns an empty ordering. -/
theorem reverse_DFS_misses_unread_cycle :
    Closed selfLoop ∧ NoComposite selfLoop ∧ TransGen (Feeds selfLoop) 0 0 ∧
      ∀ order : SetOrder, reverseDFS selfLoop order = some (.ok []) := by
  refine ⟨by unfold Closed; decide, by unfold NoComposite; decide, .single ⟨⟨0, 0, 0, 0⟩, by simp [selfLoop, Graph.node], rfl⟩,
    fun order => ?_⟩
  have noOutputs : order.enum [] = [] := List.eq_nil_iff_forall_not_mem.mpr fun item member =>
    List.not_mem_nil item ((order.mem_enum [] item).mp member)
  have outputs : getOutputNodes selfLoop = .ok [] := rfl
  simp only [reverseDFS, outputs, noOutputs]
  rfl

end SuperScaler.Proofs.ReverseDFS
