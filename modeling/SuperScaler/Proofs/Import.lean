import SuperScaler.TfAdapter
import SuperScaler.Proofs.ReverseDFS

/-! Importing a `GraphDef` and reading its runtime configuration back. For a `GraphDef` listed
producer before consumer, the import adds one sc node per node, wires each input to the node
it names, and stores on every node which configuration entries name it.
`get_tf_runtime_config` reads these back from the output nodes only. -/

namespace SuperScaler.Proofs.Import
open SuperScaler.TF SuperScaler.Py SuperScaler.IR SuperScaler.GraphUtil SuperScaler.TfAdapter
open SuperScaler.Proofs.ReverseDFS

/-- The node an input names and the output it reads, when the input is well formed: `^name`
reads output `-1`, `name:k` output `k`, and a bare name output `0`. -/
def inputSource (input : String) : Option (String × Int) :=
  if startswith input "^" then some (addScBeforeUnderscore ⟨input.data.drop 1⟩, -1)
  else match strSplit input ':' with
    | [name] => some (addScBeforeUnderscore name, 0)
    | [name, index] =>
      match parseIntStr index with
      | .ok value => some (addScBeforeUnderscore name, value)
      | .error _ => none
    | _ => none

private theorem getNodeByName_eq (graph : Graph) (name : String) :
    graph.getNodeByName name =
      if name ∈ graph.nodes.map (·.name) then some ((graph.nodes.map (·.name)).indexOf name) else none := by
  obtain ⟨nodes⟩ := graph
  simp only [Graph.getNodeByName]
  induction nodes with
  | nil => rfl
  | cons node rest ih =>
    rw [List.findIdx?_cons, List.findIdx?_succ, ih]
    by_cases named : node.name = name
    · simp [named, List.indexOf_cons_self]
    · simp only [List.map_cons, List.mem_cons, named, beq_iff_eq, if_false, Ne.symm named, false_or]
      split <;> simp [List.indexOf_cons_ne _ named]

private theorem inputEdge_source {graph : Graph} {names : List String} {input name : String} {index : Int} {position : Nat}
    (source : inputSource input = some (name, index)) (found : graph.getNodeByName name = some position) :
    inputEdge graph names input = .ok (position, index) := by
  unfold inputSource at source
  unfold inputEdge
  split at source
  next control =>
    cases source
    simp only [List.drop_one] at found
    simp [control, inputNode, found]
  next data =>
    simp only [data, if_false]
    split at source
    next parts single =>
      cases source
      simp [single, inputNode, found]
    next parts name' text pair =>
      split at source
      next value parsed =>
        cases source
        simp [pair, inputNode, found, parsed]
      next => cases source
    next => cases source

/-- The fetch entries that name a node. -/
def fetchesOf (config : RuntimeConfig) (name : String) : List String := config.fetches.filter (fetchName · = name)

/-- The configuration with the entries that name a node of `done` removed. -/
def remaining (config : RuntimeConfig) (done : List String) : RuntimeConfig :=
  ⟨config.inits.filter (· ∉ done), config.feeds.filter (· ∉ done), config.fetches.filter (fetchName · ∉ done),
    config.targets.filter (· ∉ done)⟩

/-- A fetch entry that `get_tf_runtime_config` writes back as it was given: `name`, or
`name:k` with `k` as `"%d"` prints it. -/
def PrintsBack (entry : String) : Prop :=
  ∃ index, fetchIndex entry = .ok index ∧ fetchEntry (fetchName entry) (.int index) = .ok entry

/-- Entries without repeats, at most one fetch entry per node, and fetch entries that print
back. -/
structure Distinct (config : RuntimeConfig) : Prop where
  inits : config.inits.Nodup
  feeds : config.feeds.Nodup
  fetches : (config.fetches.map fetchName).Nodup
  targets : config.targets.Nodup
  printsBack : ∀ entry ∈ config.fetches, PrintsBack entry

/-- What the import needs of a configuration: entries without repeats, at most one fetch entry
per node, and fetch entries whose output `int` reads. -/
structure Parsable (config : RuntimeConfig) : Prop where
  inits : config.inits.Nodup
  feeds : config.feeds.Nodup
  fetches : (config.fetches.map fetchName).Nodup
  targets : config.targets.Nodup
  parses : ∀ entry ∈ config.fetches, ∃ index, fetchIndex entry = .ok index

theorem Distinct.parsable {config : RuntimeConfig} (distinct : Distinct config) : Parsable config :=
  ⟨distinct.inits, distinct.feeds, distinct.fetches, distinct.targets,
    fun entry member => (distinct.printsBack entry member).imp fun _ => And.left⟩

/-- The outputs the fetch entries of a node read. -/
def fetchIndices (config : RuntimeConfig) (name : String) : List Int :=
  (fetchesOf config name).filterMap fun entry => (fetchIndex entry).toOption

/-- What `mark_runtime_info` stores in `attrs["sc_metadata"]` for a node. -/
def record (config : RuntimeConfig) (name : String) (indices : List Int) : PyValue :=
  .dict [("runtime_config", .dict [("init", .bool (name ∈ config.inits)), ("feed", .bool (name ∈ config.feeds)),
    ("fetch", .list (indices.map .int)), ("target", .bool (name ∈ config.targets))])]

private theorem takeEntry_remaining {entries done : List String} {name : String} (nodup : entries.Nodup) (fresh : name ∉ done) :
    takeEntry name (entries.filter (· ∉ done)) = (decide (name ∈ entries), entries.filter (· ∉ done ++ [name])) := by
  have erased := (nodup.filter (· ∉ done)).erase_eq_filter name
  by_cases member : name ∈ entries
  · have present : name ∈ entries.filter (· ∉ done) := by simp [member, fresh]
    rw [takeEntry, if_pos present, erased, List.filter_filter]
    refine Prod.ext (by simp [member]) (List.filter_congr fun entry _ => ?_)
    by_cases same : entry = name <;> simp [same, fresh]
  · have absent : name ∉ entries.filter (· ∉ done) := by simp [member]
    rw [takeEntry, if_neg absent]
    refine Prod.ext (by simp [member]) (List.filter_congr fun entry inside => ?_)
    have different : entry ≠ name := fun same => member (same ▸ inside)
    simp [different]

private theorem markFetches_skip {name : String} {fetches : List String} (unnamed : ∀ entry ∈ fetches, fetchName entry ≠ name) :
    ∀ fuel index found, markFetches name fuel index fetches found = .ok (found, fetches) := by
  intro fuel
  induction fuel with
  | zero => intro _ _; rfl
  | succ fuel ih =>
    intro index found
    simp only [markFetches]
    split
    next => rfl
    next entry found' =>
      rw [if_neg (Ne.symm (unnamed entry (List.mem_iff_getElem?.mpr ⟨_, found'⟩)))]
      exact ih _ _

private theorem markFetches_one {name entry : String} {fetches : List String} {position : Nat} {index : Int}
    (nodup : fetches.Nodup) (only : ∀ other ∈ fetches, fetchName other = name → other = entry)
    (found : fetches[position]? = some entry) (named : fetchName entry = name) (parsed : fetchIndex entry = .ok index) :
    ∀ fuel start outputs, start ≤ position → position < start + fuel →
      markFetches name fuel start fetches outputs = .ok (outputs ++ [index], fetches.erase entry) := by
  intro fuel
  induction fuel with
  | zero => intro _ _ before after; omega
  | succ fuel ih =>
    intro start outputs before after
    simp only [markFetches]
    by_cases here : start = position
    · subst here
      simp only [found, named, if_true, parsed, ok_bind]
      refine markFetches_skip (fun other member => ?_) _ _ _
      obtain ⟨different, present⟩ := (List.Nodup.mem_erase_iff nodup).mp member
      exact fun same => different (only other present same)
    · have inside : start < fetches.length := Nat.lt_of_lt_of_le (by omega) (List.getElem?_eq_some_iff.mp found).1
      rw [List.getElem?_eq_getElem inside]
      have unnamed : name ≠ fetchName fetches[start] := fun same => here <| List.getElem?_inj inside nodup
        (by rw [List.getElem?_eq_getElem inside, only _ (List.getElem_mem inside) same.symm, found])
      simp only [unnamed, if_false]
      exact ih _ _ (by omega) (by omega)

private theorem eq_singleton_of_nodup {entries : List String} {entry : String} (nodup : entries.Nodup)
    (member : entry ∈ entries) (only : ∀ other ∈ entries, other = entry) : entries = [entry] := by
  match entries, nodup with
  | [], _ => cases member
  | [first], _ => rw [only first (List.mem_singleton_self _)]
  | first :: second :: rest, nodup =>
    have same := (only first (List.mem_cons_self _ _)).trans (only second (by simp)).symm
    exact absurd (same ▸ List.mem_cons_self _ _) (List.nodup_cons.mp nodup).1

private theorem markFetches_remaining {config : RuntimeConfig} {done : List String} {name : String}
    (parsable : Parsable config) (fresh : name ∉ done) :
    markFetches name (config.fetches.filter (fetchName · ∉ done)).length 0 (config.fetches.filter (fetchName · ∉ done)) [] =
      .ok (fetchIndices config name, config.fetches.filter (fetchName · ∉ done ++ [name])) := by
  have nodup : (config.fetches.filter (fetchName · ∉ done)).Nodup :=
    (List.Nodup.of_map fetchName parsable.fetches).filter _
  by_cases named : ∃ entry ∈ config.fetches, fetchName entry = name
  · obtain ⟨entry, member, named⟩ := named
    have only : ∀ other ∈ config.fetches, fetchName other = name → other = entry := fun other inside same =>
      List.inj_on_of_nodup_map parsable.fetches inside member (same.trans named.symm)
    obtain ⟨index, parsed⟩ := parsable.parses entry member
    have pending : entry ∈ config.fetches.filter (fetchName · ∉ done) := by simp [member, named, fresh]
    obtain ⟨position, found⟩ := List.mem_iff_getElem?.mp pending
    have taken := markFetches_one nodup (fun other inside => only other (List.mem_of_mem_filter inside)) found named
      parsed (config.fetches.filter (fetchName · ∉ done)).length 0 [] (Nat.zero_le _)
      (by rw [Nat.zero_add]; exact (List.getElem?_eq_some_iff.mp found).1)
    have single : fetchesOf config name = [entry] :=
      eq_singleton_of_nodup ((List.Nodup.of_map fetchName parsable.fetches).filter _) (by simp [fetchesOf, member, named])
        fun other inside => only other (List.mem_of_mem_filter inside) (by simpa using (List.mem_filter.mp inside).2)
    rw [taken, fetchIndices, single, nodup.erase_eq_filter, List.filter_filter]
    simp only [List.filterMap_cons, parsed, Except.toOption, List.filterMap_nil, List.nil_append]
    congr 2
    apply List.filter_congr
    intro other inside
    by_cases same : other = entry
    · simp [same, named]
    · have unnamed : fetchName other ≠ name := fun sameName => same (only other inside sameName)
      simp [same, unnamed]
  · have unnamed : ∀ other ∈ config.fetches, fetchName other ≠ name := fun other inside same => named ⟨other, inside, same⟩
    have none : fetchesOf config name = [] :=
      List.filter_eq_nil_iff.mpr fun other inside => by simpa using unnamed other inside
    rw [markFetches_skip (fun other inside => unnamed other (List.mem_of_mem_filter inside)), fetchIndices, none]
    congr 2
    apply List.filter_congr
    intro other inside
    simp [unnamed other inside]

private theorem fetchIndices_printed {config : RuntimeConfig} (distinct : Distinct config) (name : String) :
    ((fetchIndices config name).map PyValue.int).mapM (fetchEntry name) = .ok (fetchesOf config name) := by
  have each : ∀ entry ∈ fetchesOf config name, ∃ index, fetchIndex entry = .ok index ∧ fetchEntry name (.int index) = .ok entry :=
    fun entry member => by
      obtain ⟨inside, named⟩ := List.mem_filter.mp member
      rw [← of_decide_eq_true named]
      exact distinct.printsBack entry inside
  unfold fetchIndices
  generalize fetchesOf config name = entries at each ⊢
  induction entries with
  | nil => rfl
  | cons entry rest ih =>
    obtain ⟨index, parsed, printed⟩ := each entry (List.mem_cons_self _ _)
    have read : (fetchIndex entry).toOption = some index := by rw [parsed]; rfl
    simp only [List.filterMap_cons, read, List.map_cons, List.mapM_cons, printed, ok_bind,
      ih fun other member => each other (List.mem_cons_of_mem _ member)]
    rfl

private theorem markRuntimeInfo_remaining {config : RuntimeConfig} {done : List String} {name : String}
    (parsable : Parsable config) (fresh : name ∉ done) (attrs : PyDict) (noMetadata : attrs.get? "sc_metadata" = none) :
    markRuntimeInfo name attrs (remaining config done) =
      .ok (attrs.setItem "sc_metadata" (record config name (fetchIndices config name)), remaining config (done ++ [name])) := by
  simp only [markRuntimeInfo, noMetadata, dictOrEmpty, remaining, takeEntry_remaining parsable.inits fresh,
    takeEntry_remaining parsable.feeds fresh, takeEntry_remaining parsable.targets fresh,
    markFetches_remaining parsable fresh, ok_bind, pure_eq_ok, record, PyDict.get?, PyDict.setItem]
  rfl

section Names
variable {names : List String} {name : String} {position : Nat}

theorem indexOf_of_getElem? (nodup : names.Nodup) (found : names[position]? = some name) :
    names.indexOf name = position := by
  obtain ⟨inside, rfl⟩ := List.getElem?_eq_some_iff.mp found
  exact List.indexOf_getElem nodup _ inside

private theorem indexOf_take (nodup : names.Nodup) (found : names[position]? = some name) {count : Nat} (before : position < count) :
    (names.take count).indexOf name = position :=
  indexOf_of_getElem? (nodup.sublist (List.take_sublist _ _)) (by rw [List.getElem?_take_of_lt before, found])

private theorem mem_take_iff (nodup : names.Nodup) (found : names[position]? = some name) {count : Nat} :
    name ∈ names.take count ↔ position < count := by
  constructor
  · intro member
    obtain ⟨other, inTake⟩ := List.mem_iff_getElem?.mp member
    rw [List.getElem?_take] at inTake
    split at inTake
    next before =>
      have inside := (List.getElem?_eq_some_iff.mp found).1
      exact List.getElem?_inj inside nodup (found.trans inTake.symm) ▸ before
    next => cases inTake
  · exact fun before => List.mem_iff_getElem?.mpr ⟨position, by rw [List.getElem?_take_of_lt before, found]⟩

end Names

theorem remaining_nil (config : RuntimeConfig) : remaining config [] = config := by
  simp [remaining]

theorem decodeAttrs_keys : ∀ {entries : List (String × AttrValue)} {attrs : PyDict},
    decodeAttrs entries = .ok attrs → attrs.map (·.1) = entries.map (·.1)
  | [], _, decoded => by cases decoded; rfl
  | (key, value) :: rest, attrs, decoded => by
    simp only [decodeAttrs, bind, Except.bind] at decoded
    split at decoded
    next => cases decoded
    next =>
      split at decoded
      next => cases decoded
      next others found =>
        cases decoded
        simp [decodeAttrs_keys found]

theorem get?_eq_none {dict : PyDict} {key : String} (absent : key ∉ dict.map (·.1)) : dict.get? key = none := by
  induction dict with
  | nil => rfl
  | cons entry rest ih =>
    simp only [List.map_cons, List.mem_cons, not_or] at absent
    simp [PyDict.get?, Ne.symm absent.1, ih absent.2]

section Loop
variable (tf : Tf) (graphDef : GraphDef)

def nodeNames : List String := (renameNodes graphDef).map (·.name)

/-- The `(src_node, src_idx)` pair of an input: the position of the node it names. -/
def expectedInput (input : String) : Nat × Int :=
  match inputSource input with
  | some (name, index) => ((nodeNames graphDef).indexOf name, index)
  | none => (0, 0)

/-- The in-edges of the sc node of `node` at `reader`, one per input, in input order. -/
def expectedEdges (reader : Nat) (node : NodeDef) : List Edge :=
  (node.input.map (expectedInput graphDef)).enum.map fun (destIdx, srcNode, srcIdx) => Edge.mk srcNode srcIdx reader destIdx

/-- A `GraphDef` the import can take: distinct names after the `sc` prefix, every input well
formed and naming a node listed before its reader, and attribute and dtype translation that
succeed, with no attribute called `sc_metadata`. -/
structure Listed : Prop where
  distinct : (nodeNames graphDef).Nodup
  inputs : ∀ (reader : Nat) (node : NodeDef), (renameNodes graphDef)[reader]? = some node → ∀ input ∈ node.input,
    ∃ source < reader, ∃ name index, (nodeNames graphDef)[source]? = some name ∧ inputSource input = some (name, index)
  attrs : ∀ node ∈ graphDef.node, ∃ attrs, decodeAttrs node.attr = .ok attrs
  noMetadata : ∀ node ∈ graphDef.node, ∀ entry ∈ node.attr, entry.1 ≠ "sc_metadata"
  dtypes : ∀ node ∈ graphDef.node, ∃ dtypes, getDtypes tf.registry node = .ok dtypes

/-- The state of the loop after the first `count` nodes: their sc nodes in order, with their
in-edges and runtime records, and the configuration without the entries that named them. -/
structure Loaded (config : RuntimeConfig) (count : Nat) (state : Graph × RuntimeConfig) : Prop where
  names : state.1.nodes.map (·.name) = (nodeNames graphDef).take count
  edges : ∀ (reader : Nat) (node : NodeDef), reader < count → (renameNodes graphDef)[reader]? = some node →
    (state.1.node reader).inEdges = expectedEdges graphDef reader node
  plain : ∀ position < count, (state.1.node position).composite = false
  recorded : ∀ position name, position < count → (nodeNames graphDef)[position]? = some name →
    (state.1.node position).attrs.get? "sc_metadata" = some (record config name (fetchIndices config name))
  rest : state.2 = remaining config ((nodeNames graphDef).take count)

theorem loaded_start (config : RuntimeConfig) : Loaded graphDef config 0 (⟨[]⟩, config) :=
  ⟨rfl, fun _ _ before => absurd before (Nat.not_lt_zero _), fun _ before => absurd before (Nat.not_lt_zero _),
    fun _ _ before => absurd before (Nat.not_lt_zero _), (remaining_nil config).symm⟩

variable {tf graphDef}

private theorem Loaded.append {config : RuntimeConfig} {count : Nat} {graph : Graph}
    (loaded : Loaded graphDef config count (graph, remaining config ((nodeNames graphDef).take count)))
    (graphLength : graph.nodes.length = count) {node : NodeDef} (current : (renameNodes graphDef)[count]? = some node)
    (op : Operator) (outputSize : Nat) {attrs : PyDict}
    (recorded : attrs.get? "sc_metadata" = some (record config node.name (fetchIndices config node.name))) :
    Loaded graphDef config (count + 1) ((graph.addNodeAndEdge node.name op (node.input.map (expectedInput graphDef))
      outputSize attrs).1, remaining config ((nodeNames graphDef).take count ++ [node.name])) := by
  have named : (nodeNames graphDef)[count]? = some node.name := by simp [nodeNames, current]
  have extended : (nodeNames graphDef).take (count + 1) = (nodeNames graphDef).take count ++ [node.name] := by
    rw [List.take_succ, named]
    rfl
  have old : ∀ position < count, (graph.addNodeAndEdge node.name op (node.input.map (expectedInput graphDef)) outputSize
      attrs).1.node position = graph.node position := fun position before =>
    Graph.node_addNodeAndEdge_old _ _ _ _ _ _ (graphLength ▸ before)
  have new := Graph.node_addNodeAndEdge_new graph node.name op (node.input.map (expectedInput graphDef)) outputSize attrs
  rw [graphLength] at new
  refine ⟨?_, fun reader other before listedAt => ?_, fun position before => ?_, fun position name before listedAt => ?_, ?_⟩
  · simp [Graph.addNodeAndEdge, loaded.names, extended]
  · rcases Nat.lt_succ_iff_lt_or_eq.mp before with before | rfl
    · rw [old reader before]
      exact loaded.edges reader other before listedAt
    · rw [current] at listedAt
      cases listedAt
      rw [new]
      rfl
  · rcases Nat.lt_succ_iff_lt_or_eq.mp before with before | rfl
    · rw [old position before]
      exact loaded.plain position before
    · rw [new]
  · rcases Nat.lt_succ_iff_lt_or_eq.mp before with before | rfl
    · rw [old position before]
      exact loaded.recorded position name before listedAt
    · rw [named] at listedAt
      cases listedAt
      rw [new]
      exact recorded
  · rw [extended]

theorem addScNode_loaded (listed : Listed tf graphDef) {config : RuntimeConfig} (parsable : Parsable config)
    {count : Nat} {state : Graph × RuntimeConfig} (loaded : Loaded graphDef config count state)
    {node : NodeDef} (current : (renameNodes graphDef)[count]? = some node)
    {last : NodeDef} (isLast : (renameNodes graphDef).getLast? = some last) :
    ∃ next, addScNode tf last (nodeNames graphDef) state node = .ok next ∧ Loaded graphDef config (count + 1) next := by
  obtain ⟨graph, pending⟩ := state
  have nodup := listed.distinct
  have named : (nodeNames graphDef)[count]? = some node.name := by simp [nodeNames, current]
  have inside : count < (renameNodes graphDef).length := (List.getElem?_eq_some_iff.mp current).1
  have graphLength : graph.nodes.length = count := by
    simpa [nodeNames, Nat.min_eq_left (Nat.le_of_lt inside)] using congrArg List.length loaded.names
  have absent : graph.getNodeByName last.name = none := by
    have lastNamed : (nodeNames graphDef)[(renameNodes graphDef).length - 1]? = some last.name := by
      rw [List.getLast?_eq_getElem?] at isLast
      simp [nodeNames, isLast]
    rw [getNodeByName_eq, loaded.names, if_neg (by rw [mem_take_iff nodup lastNamed]; omega)]
  have fresh : node.name ∉ (nodeNames graphDef).take count := fun inTake =>
    Nat.lt_irrefl _ ((mem_take_iff nodup named).mp inTake)
  have inputs : node.input.mapM (inputEdge graph (nodeNames graphDef)) = .ok (node.input.map (expectedInput graphDef)) :=
    mapM_ok fun input member => by
      obtain ⟨source, before, name, index, sourceNamed, parsed⟩ := listed.inputs count node current input member
      have position : graph.getNodeByName name = some source := by
        rw [getNodeByName_eq, loaded.names, if_pos ((mem_take_iff nodup sourceNamed).mpr before),
          indexOf_take nodup sourceNamed before]
      rw [inputEdge_source parsed position, expectedInput, parsed]
      simp only [indexOf_of_getElem? nodup sourceNamed]
  have original := current
  simp only [renameNodes, List.getElem?_map, Option.map_eq_some'] at original
  obtain ⟨original, found, rfl⟩ := original
  have member := List.mem_iff_getElem?.mpr ⟨count, found⟩
  obtain ⟨attrs, decoded⟩ := listed.attrs original member
  obtain ⟨dtypes, typed⟩ := listed.dtypes original member
  obtain ⟨opDef, registered⟩ : ∃ opDef, getOpDef tf.registry original.op = .ok opDef := by
    unfold getDtypes at typed
    cases lookup : getOpDef tf.registry original.op with
    | error => simp [lookup] at typed
    | ok opDef => exact ⟨opDef, rfl⟩
  have noMetadata : ∀ value, (attrs.setItem "tf" value).get? "sc_metadata" = none := fun value => by
    rw [PyDict.get?_setItem_other _ _ (by decide)]
    refine get?_eq_none fun keyed => ?_
    obtain ⟨entry, inside, named⟩ := List.mem_map.mp (decodeAttrs_keys decoded ▸ keyed)
    exact listed.noMetadata original member entry inside named
  have typedRenamed : getDtypes tf.registry { original with name := addScBeforeUnderscore original.name } = .ok dtypes :=
    typed
  have rest : pending = remaining config ((nodeNames graphDef).take count) := loaded.rest
  subst rest
  simp only [addScNode, absent, Option.isSome_none, Bool.false_eq_true, if_false, inputs, decoded, typedRenamed,
    registered, ok_bind, pure_eq_ok, markRuntimeInfo_remaining parsable fresh _ (noMetadata _)]
  exact ⟨_, rfl, loaded.append graphLength current _ _ (PyDict.get?_setItem_self _ _ _)⟩

private theorem foldlM_loaded (listed : Listed tf graphDef) {config : RuntimeConfig} (parsable : Parsable config)
    {last : NodeDef} (isLast : (renameNodes graphDef).getLast? = some last) :
    ∀ left count state, count + left = (renameNodes graphDef).length → Loaded graphDef config count state →
      ∃ final, ((renameNodes graphDef).drop count).foldlM (addScNode tf last (nodeNames graphDef)) state = .ok final ∧
        Loaded graphDef config (renameNodes graphDef).length final := by
  intro left
  induction left with
  | zero =>
    intro count state ended loaded
    rw [Nat.add_zero] at ended
    subst ended
    exact ⟨state, by rw [List.drop_length]; rfl, loaded⟩
  | succ left ih =>
    intro count state ended loaded
    have inside : count < (renameNodes graphDef).length := by omega
    obtain ⟨next, stepped, loaded'⟩ :=
      addScNode_loaded listed parsable loaded (List.getElem?_eq_getElem inside) isLast
    obtain ⟨final, ran, loadedFinal⟩ := ih (count + 1) next (by omega) loaded'
    refine ⟨final, ?_, loadedFinal⟩
    rw [List.drop_eq_getElem_cons inside, List.foldlM_cons, stepped]
    exact ran

variable (graphDef) in
/-- Every entry of the configuration names a node. -/
def Covered (config : RuntimeConfig) : Prop :=
  ∀ name ∈ config.inits ++ config.feeds ++ config.targets ++ config.fetches.map fetchName, name ∈ nodeNames graphDef

private theorem checkLeftover_remaining {config : RuntimeConfig} (covered : Covered graphDef config) :
    checkLeftover (remaining config (nodeNames graphDef)) = .ok () := by
  have gone : ∀ name ∈ config.inits ++ config.feeds ++ config.targets ++ config.fetches.map fetchName,
      ¬ (name ∉ nodeNames graphDef) := fun name member => not_not.mpr (covered name member)
  simp only [List.mem_append, List.mem_map] at gone
  simp only [checkLeftover, remaining, List.filter_eq_nil_iff, decide_eq_true_eq]
  rw [if_pos]
  exact ⟨fun name member => gone name (.inl (.inl (.inl member))), fun name member => gone name (.inl (.inl (.inr member))),
    fun entry member => gone _ (.inr ⟨entry, member, rfl⟩), fun name member => gone name (.inl (.inr member))⟩

theorem import_loaded (listed : Listed tf graphDef) {config : RuntimeConfig} (parsable : Parsable config)
    (covered : Covered graphDef config) :
    ∃ graph, importGraphFromTfGraphDef tf graphDef config = .ok graph ∧
      Loaded graphDef config (renameNodes graphDef).length (graph, remaining config (nodeNames graphDef)) := by
  cases isLast : (renameNodes graphDef).getLast? with
  | none =>
    have empty : renameNodes graphDef = [] := List.getLast?_eq_none_iff.mp isLast
    have noNames : nodeNames graphDef = [] := by simp [nodeNames, empty]
    refine ⟨⟨[]⟩, ?_, by rw [empty, noNames, remaining_nil]; exact loaded_start graphDef config⟩
    have checked := checkLeftover_remaining covered
    rw [noNames, remaining_nil] at checked
    simp [importGraphFromTfGraphDef, isLast, checked]
  | some last =>
    obtain ⟨final, ran, loaded⟩ := foldlM_loaded listed parsable isLast _ 0 _ (Nat.zero_add _) (loaded_start graphDef config)
    obtain ⟨graph, pending⟩ := final
    have rest : pending = remaining config (nodeNames graphDef) := by
      rw [show pending = (graph, pending).2 from rfl, loaded.rest, nodeNames, List.take_of_length_le (by simp)]
    subst rest
    refine ⟨graph, ?_, loaded⟩
    have checked := checkLeftover_remaining covered
    simp only [List.drop_zero, nodeNames] at ran checked
    simp [importGraphFromTfGraphDef, isLast, ran, checked]

end Loop

section Readback
variable {tf : Tf} {graphDef : GraphDef} {config : RuntimeConfig} {graph : Graph} {pending : RuntimeConfig}

theorem Loaded.nodeName (loaded : Loaded graphDef config (renameNodes graphDef).length (graph, pending))
    {position : Nat} (inside : position < (renameNodes graphDef).length) :
    (nodeNames graphDef)[position]? = some (graph.node position).name := by
  have names : graph.nodes.map (·.name) = nodeNames graphDef := by
    rw [loaded.names, List.take_of_length_le (by simp [nodeNames])]
  have length : graph.nodes.length = (renameNodes graphDef).length := by
    simpa [nodeNames] using congrArg List.length names
  rw [← names, List.getElem?_map, List.getElem?_eq_getElem (length ▸ inside)]
  simp [Graph.node, List.getD_eq_getElem?_getD, List.getElem?_eq_getElem (length ▸ inside)]

theorem Loaded.length (loaded : Loaded graphDef config (renameNodes graphDef).length (graph, pending)) :
    graph.nodes.length = (renameNodes graphDef).length := by
  simpa [nodeNames] using congrArg List.length loaded.names

theorem Loaded.feeds (listed : Listed tf graphDef)
    (loaded : Loaded graphDef config (renameNodes graphDef).length (graph, pending)) {source reader : Nat}
    (feeds : Feeds graph source reader) (inside : reader < (renameNodes graphDef).length) :
    ∃ node, (renameNodes graphDef)[reader]? = some node ∧ ∃ input ∈ node.input, ∃ name index,
      inputSource input = some (name, index) ∧ (nodeNames graphDef)[source]? = some name := by
  obtain ⟨edge, incoming, rfl⟩ := feeds
  have current := List.getElem?_eq_getElem inside
  rw [loaded.edges reader _ inside current, expectedEdges] at incoming
  obtain ⟨⟨destIdx, srcNode, srcIdx⟩, listedEdge, rfl⟩ := List.mem_map.mp incoming
  obtain ⟨input, member, expected⟩ := List.mem_map.mp (List.snd_mem_of_mem_enum listedEdge)
  obtain ⟨position, _, name, index, named, parsed⟩ := listed.inputs reader _ current input member
  rw [expectedInput, parsed] at expected
  simp only [indexOf_of_getElem? listed.distinct named, Prod.mk.injEq] at expected
  obtain ⟨rfl, rfl⟩ := expected
  exact ⟨_, current, input, member, name, index, parsed, named⟩

variable (graphDef) in
/-- A name of the `GraphDef` that no input reads. -/
def OutputName (name : String) : Prop :=
  name ∈ nodeNames graphDef ∧
    ∀ node ∈ renameNodes graphDef, ∀ input ∈ node.input, ∀ source ∈ inputSource input, source.1 ≠ name

theorem Loaded.isOutput (listed : Listed tf graphDef)
    (loaded : Loaded graphDef config (renameNodes graphDef).length (graph, pending)) {name : String}
    (output : OutputName graphDef name) {position : Nat} (named : (nodeNames graphDef)[position]? = some name) :
    IsOutput graph position := by
  have inside : position < (renameNodes graphDef).length := by
    simpa [nodeNames] using (List.getElem?_eq_some_iff.mp named).1
  refine ⟨loaded.length ▸ inside, fun reader before feeds => ?_⟩
  obtain ⟨node, current, input, member, source, index, parsed, sourceNamed⟩ :=
    loaded.feeds listed feeds (loaded.length ▸ before)
  rw [named, Option.some_inj] at sourceNamed
  subst sourceNamed
  exact output.2 node (List.mem_iff_getElem?.mpr ⟨_, current⟩) input member _ parsed rfl

variable (config) in
/-- The entries that name the nodes of `names`, node by node, as `get_tf_runtime_config`
collects them from the nodes' records. -/
def collected (names : List String) : RuntimeConfig :=
  ⟨names.flatMap fun name => if name ∈ config.inits then [name] else [],
    names.flatMap fun name => if name ∈ config.feeds then [name] else [], names.flatMap (fetchesOf config),
    names.flatMap fun name => if name ∈ config.targets then [name] else []⟩

private theorem collectRuntimeConfig_record {names : List String} {node : Node} {indices : List Int}
    (printed : (indices.map PyValue.int).mapM (fetchEntry node.name) = .ok (fetchesOf config node.name))
    (stored : node.attrs.get? "sc_metadata" = some (record config node.name indices)) :
    collectRuntimeConfig (collected config names) node = .ok (collected config (names ++ [node.name])) := by
  simp [collectRuntimeConfig, PyDict.getItem, stored, record, getItemOf, PyDict.get?, pyTruth, collected, printed,
    bind, Except.bind, -List.mapM]

private theorem foldlM_collect (positions : List Nat)
    (each : ∀ position ∈ positions, ∃ indices : List Int,
      (indices.map PyValue.int).mapM (fetchEntry (graph.node position).name) =
        .ok (fetchesOf config (graph.node position).name) ∧
      (graph.node position).attrs.get? "sc_metadata" = some (record config (graph.node position).name indices)) :
    positions.foldlM (fun acc position => collectRuntimeConfig acc (graph.node position)) ⟨[], [], [], []⟩ =
      .ok (collected config (positions.map fun position => (graph.node position).name)) := by
  induction positions using List.reverseRecOn with
  | nil => rfl
  | append_singleton positions position ih =>
    obtain ⟨indices, printed, stored⟩ := each position (by simp)
    rw [List.foldlM_append, ih fun other member => each other (by simp [member]), List.map_append, List.map_singleton]
    simp only [ok_bind, List.foldlM_cons, List.foldlM_nil, collectRuntimeConfig_record printed stored]
    rfl

private theorem ite_mem_eq_filter {entries : List String} {name : String} (nodup : entries.Nodup) :
    (if name ∈ entries then [name] else []) = entries.filter (· = name) := by
  rw [List.filter_eq]
  split
  next member => rw [List.count_eq_one_of_mem nodup member]; rfl
  next absent => rw [List.count_eq_zero_of_not_mem absent]; rfl

private theorem flatMap_filter_perm {entries names : List String} (key : String → String) (nodup : entries.Nodup)
    (distinctNames : names.Nodup) (covered : ∀ entry ∈ entries, key entry ∈ names) :
    (names.flatMap fun name => entries.filter (key · = name)).Perm entries := by
  refine (List.perm_ext_iff_of_nodup ?_ nodup).mpr fun entry => ?_
  · refine List.nodup_flatMap.mpr ⟨fun name _ => nodup.filter _, distinctNames.imp fun different entry first second => ?_⟩
    simp only [List.mem_filter, decide_eq_true_eq] at first second
    exact different (first.2.symm.trans second.2)
  · simp only [List.mem_flatMap, List.mem_filter, decide_eq_true_eq]
    exact ⟨fun ⟨_, _, member, _⟩ => member, fun member => ⟨key entry, covered entry member, member, rfl⟩⟩

private theorem flatMap_mem_perm {entries names : List String} (nodup : entries.Nodup) (distinctNames : names.Nodup)
    (covered : ∀ entry ∈ entries, entry ∈ names) :
    (names.flatMap fun name => if name ∈ entries then [name] else []).Perm entries := by
  simp only [ite_mem_eq_filter nodup]
  exact flatMap_filter_perm (fun entry => entry) nodup distinctNames covered

private theorem Loaded.outputNames (listed : Listed tf graphDef)
    (loaded : Loaded graphDef config (renameNodes graphDef).length (graph, pending)) {outputs : List Nat}
    (spec : ∀ node, node ∈ outputs ↔ IsOutput graph node) (order : SetOrder) :
    ((order.enum outputs).map fun position => (graph.node position).name).Nodup ∧
      ∀ name, OutputName graphDef name → name ∈ (order.enum outputs).map fun position => (graph.node position).name := by
  have inside : ∀ position ∈ order.enum outputs, position < (renameNodes graphDef).length := fun position member =>
    loaded.length ▸ ((spec position).mp ((order.mem_enum _ _).mp member)).1
  refine ⟨(order.nodup_enum outputs).map_on fun first inFirst second inSecond same => ?_, fun name output => ?_⟩
  · have firstNamed := loaded.nodeName (inside first inFirst)
    rw [same, ← loaded.nodeName (inside second inSecond)] at firstNamed
    exact List.getElem?_inj (by simpa [nodeNames] using inside first inFirst) listed.distinct firstNamed
  · obtain ⟨position, named⟩ := List.mem_iff_getElem?.mp output.1
    have member : position ∈ order.enum outputs :=
      (order.mem_enum _ _).mpr ((spec position).mpr (loaded.isOutput listed output named))
    have inRange : position < (renameNodes graphDef).length := by
      simpa [nodeNames] using (List.getElem?_eq_some_iff.mp named).1
    have sameName := loaded.nodeName inRange
    rw [named, Option.some_inj] at sameName
    exact List.mem_map.mpr ⟨position, member, sameName.symm⟩

end Readback

variable (graphDef) in
/-- Every entry of the configuration names a node that no input reads. -/
def OnOutputs (config : RuntimeConfig) : Prop :=
  ∀ name ∈ config.inits ++ config.feeds ++ config.targets ++ config.fetches.map fetchName, OutputName graphDef name

/-- For a listed `GraphDef` and a configuration without repeats, with at most one fetch entry
per node, fetch entries that print back, and every entry naming a node that no input reads,
the import returns, and `get_tf_runtime_config` of the imported graph gives back each list of
the configuration, in whatever order Python enumerates the output nodes. -/
theorem get_tf_runtime_config_returns_output_entries (tf : Tf) (graphDef : GraphDef) (config : RuntimeConfig)
    (listed : Listed tf graphDef) (distinct : Distinct config) (onOutputs : OnOutputs graphDef config) :
    ∃ graph, importGraphFromTfGraphDef tf graphDef config = .ok graph ∧ ∀ order : SetOrder, ∃ result,
      getTfRuntimeConfig order graph = .ok result ∧ result.inits.Perm config.inits ∧ result.feeds.Perm config.feeds ∧
        result.fetches.Perm config.fetches ∧ result.targets.Perm config.targets := by
  obtain ⟨graph, imported, loaded⟩ := import_loaded listed distinct.parsable fun name member => (onOutputs name member).1
  refine ⟨graph, imported, fun order => ?_⟩
  obtain ⟨outputs, found, spec⟩ :=
    getOutputNodes_ok fun position inside => loaded.plain position (loaded.length ▸ inside)
  obtain ⟨distinctNames, covers⟩ := loaded.outputNames listed spec order
  have collectedAll := foldlM_collect (order.enum outputs) fun position member => by
    have inside := loaded.length ▸ ((spec position).mp ((order.mem_enum _ _).mp member)).1
    exact ⟨_, fetchIndices_printed distinct _, loaded.recorded position _ inside (loaded.nodeName inside)⟩
  have covered : ∀ entry, entry ∈ config.inits ∨ entry ∈ config.feeds ∨ entry ∈ config.targets ∨
      entry ∈ config.fetches.map fetchName → entry ∈ (order.enum outputs).map fun position => (graph.node position).name :=
    fun entry member => covers entry (onOutputs entry (by simpa [or_assoc] using member))
  refine ⟨_, by simp only [getTfRuntimeConfig, found, ok_bind]; exact collectedAll, ?_, ?_, ?_, ?_⟩
  · exact flatMap_mem_perm distinct.inits distinctNames fun entry member => covered entry (.inl member)
  · exact flatMap_mem_perm distinct.feeds distinctNames fun entry member => covered entry (.inr (.inl member))
  · exact flatMap_filter_perm fetchName (List.Nodup.of_map fetchName distinct.fetches) distinctNames
      fun entry member => covered _ (.inr (.inr (.inr (List.mem_map_of_mem _ member))))
  · exact flatMap_mem_perm distinct.targets distinctNames fun entry member => covered entry (.inr (.inr (.inl member)))

def constOp : OpDef :=
  ⟨"Const", [{ name := "output", typeAttr := "dtype" }], [{ name := "value", type := "tensor" }, { name := "dtype", type := "type" }]⟩

def identityOp : OpDef := ⟨"Identity", [{ name := "output", typeAttr := "T" }], [{ name := "T", type := "type" }]⟩

def constIdentity : Tf :=
  ⟨fun op => if op = "Const" then some constOp else if op = "Identity" then some identityOp else none,
    fun opDef => .other opDef.name⟩

def constA : NodeDef := ⟨"a", "Const", [], [("dtype", .type 1), ("value", .tensor ⟨[], []⟩)], none⟩

def identityB : NodeDef := ⟨"b", "Identity", ["a"], [("T", .type 1)], none⟩

def chainDef : GraphDef := ⟨[constA, identityB]⟩

def chainConfig : RuntimeConfig := ⟨["b"], ["b"], ["b:0"], ["b"]⟩

theorem chainDef_listed : Listed constIdentity chainDef where
  distinct := by decide
  inputs := by
    intro reader node current input member
    match reader, current with
    | 0, rfl => cases member
    | 1, rfl =>
      rw [List.mem_singleton.mp member]
      exact ⟨0, by decide, "a", 0, rfl, rfl⟩
  attrs := by
    intro node member
    rcases List.mem_pair.mp member with rfl | rfl <;> exact ⟨_, rfl⟩
  noMetadata := by decide
  dtypes := by
    intro node member
    rcases List.mem_pair.mp member with rfl | rfl <;> exact ⟨_, rfl⟩

theorem chainConfig_distinct : Distinct chainConfig where
  inits := by decide
  feeds := by decide
  fetches := by decide
  targets := by decide
  printsBack := fun entry member => by
    rw [List.mem_singleton.mp member]
    exact ⟨0, rfl, rfl⟩

theorem get_tf_runtime_config_returns_chain_entries :
    Listed constIdentity chainDef ∧ Distinct chainConfig ∧ OnOutputs chainDef chainConfig ∧
    ∃ graph, importGraphFromTfGraphDef constIdentity chainDef chainConfig = .ok graph ∧ ∀ order : SetOrder, ∃ result,
      getTfRuntimeConfig order graph = .ok result ∧ result.inits.Perm chainConfig.inits ∧
        result.feeds.Perm chainConfig.feeds ∧ result.fetches.Perm chainConfig.fetches ∧
        result.targets.Perm chainConfig.targets :=
  have onOutputs : OnOutputs chainDef chainConfig := by unfold OnOutputs OutputName; decide
  ⟨chainDef_listed, chainConfig_distinct, onOutputs, get_tf_runtime_config_returns_output_entries constIdentity chainDef
    chainConfig chainDef_listed chainConfig_distinct onOutputs⟩

/-- The constant `a` has no input, which is what the docstring of `get_tf_runtime_config`
calls a feed, but `b` reads it, so `get_tf_runtime_config` never looks at it and its `feed`
entry is lost. Of the two fetch entries that name `b`, the loop of `mark_runtime_info` removes
the first and so skips the second, which the leftover check reports. -/
theorem get_tf_runtime_config_drops_read_node :
    (∃ graph, importGraphFromTfGraphDef constIdentity chainDef ⟨[], ["a"], [], []⟩ = .ok graph ∧
      getTfRuntimeConfig SetOrder.listed graph = .ok ⟨[], [], [], []⟩) ∧
    importGraphFromTfGraphDef constIdentity chainDef ⟨[], [], ["b", "b:0"], []⟩ = .error .runtimeError :=
  ⟨⟨_, rfl, rfl⟩, rfl⟩

/-- A listed `GraphDef` imports to one sc node per node, in order, and the in-edges of each
are its inputs in order, each from the node the input names: output `-1` for `^name`, `k` for
`name:k` and `0` for a bare name. -/
theorem import_wires_listed_inputs (tf : Tf) (graphDef : GraphDef) (config : RuntimeConfig)
    (listed : Listed tf graphDef) (distinct : Distinct config) (covered : Covered graphDef config) :
    ∃ graph, importGraphFromTfGraphDef tf graphDef config = .ok graph ∧ graph.nodes.map (·.name) = nodeNames graphDef ∧
      ∀ reader node, (renameNodes graphDef)[reader]? = some node →
        (graph.node reader).inEdges = expectedEdges graphDef reader node := by
  obtain ⟨graph, imported, loaded⟩ := import_loaded listed distinct.parsable covered
  refine ⟨graph, imported, by rw [loaded.names, List.take_of_length_le (by simp [nodeNames])], ?_⟩
  exact fun reader node current => loaded.edges reader node (List.getElem?_eq_some_iff.mp current).1 current

theorem import_wires_chain_inputs :
    Listed constIdentity chainDef ∧ Distinct chainConfig ∧ Covered chainDef chainConfig ∧
    ∃ graph, importGraphFromTfGraphDef constIdentity chainDef chainConfig = .ok graph ∧
      graph.nodes.map (·.name) = nodeNames chainDef ∧ ∀ reader node, (renameNodes chainDef)[reader]? = some node →
        (graph.node reader).inEdges = expectedEdges chainDef reader node :=
  have covered : Covered chainDef chainConfig := by unfold Covered; decide
  ⟨chainDef_listed, chainConfig_distinct, covered,
    import_wires_listed_inputs constIdentity chainDef chainConfig chainDef_listed chainConfig_distinct covered⟩

/-- Listed consumer first, the input of `b` names `a`, which is not in the graph yet:
`add_sc_node` calls itself with one argument where three are required and raises `TypeError`.
The same nodes listed producer first import, with the edge from `a` into `b`. -/
theorem import_raises_on_consumer_first :
    importGraphFromTfGraphDef constIdentity ⟨[identityB, constA]⟩ ⟨[], [], [], []⟩ = .error .typeError ∧
    ∃ graph, importGraphFromTfGraphDef constIdentity chainDef ⟨[], [], [], []⟩ = .ok graph ∧
      graph.nodes.map (·.name) = ["a", "b"] ∧ (graph.node 1).inEdges = [⟨0, 0, 1, 0⟩] :=
  ⟨rfl, _, rfl, rfl, rfl⟩

end SuperScaler.Proofs.Import
