import SuperScaler.Runtime
import SuperScaler.Proofs.DatasetPaths

/-! What each worker gets from the front end: its dataset paths and its place in the `mpirun`
command.

`_set_dataset_paths` pops, for each graph in turn, the last path list of the list its
worker's ip refers to. Two ips may refer to one list, so what a graph gets depends only on how
many graphs before it take from the same list: the first takes the list's last path list, the
next the one before it, and a graph with none left raises `IndexError`. This module states
that rule without the dict being popped (`assignPaths`) and shows the loop computes it,
together with what it leaves of the caller's lists.

The `TFRecordDataset` wrapper leaves `DATASET_PATH:0` for every dataset, so on a graph of its
datasets `set_dataset_paths` wants one path per dataset and hands every dataset the first.

`run` builds one runner command per rank and `launch` gives each an app context on its host,
declaring the slots `parse_host_args` counts. -/

namespace SuperScaler.Proofs.Workers
open SuperScaler.TF SuperScaler.Py SuperScaler.Tensorflow

/-- The list object a plan's ip refers to, when the ip is a string key. -/
def planList (datasetPaths : DatasetPaths) (plan : PyDict) : Option Nat :=
  match PyDict.get? plan "ip" with
  | some (.str ip) => datasetPaths.keys ip
  | _ => none

/-- How many of `plans` take their paths from the list object `list`. -/
def runsOn (datasetPaths : DatasetPaths) (list : Nat) (plans : List PyDict) : Nat :=
  plans.countP fun plan => planList datasetPaths plan = some list

/-- `datasetPaths` after the graphs of `plans` took their path lists: the last
`runsOn list plans` of each list object are gone. -/
def remaining (datasetPaths : DatasetPaths) (plans : List PyDict) : DatasetPaths :=
  { datasetPaths with lists := fun list =>
      (datasetPaths.lists list).take ((datasetPaths.lists list).length - runsOn datasetPaths list plans) }

/-- What a graph becomes when `earlier` are the plans of the graphs before it: a graph whose ip
is a key takes the path list `runsOn list earlier` places from the end of the list object its ip
refers to, and raises `IndexError` when there is none. -/
def assignPaths (datasetPaths : DatasetPaths) (earlier : List PyDict) (graph : GraphDef) (plan : PyDict) :
    Except PyError GraphDef := do
  match ← ipKey datasetPaths (← PyDict.getItem plan "ip") with
  | none => pure graph
  | some list =>
    match (datasetPaths.lists list).reverse[runsOn datasetPaths list earlier]? with
    | some paths => TfAdapter.setDatasetPaths graph paths
    | none => throw .indexError

section Stacks
variable {α : Type} (stack : List α) (used : Nat)

private theorem getLast?_take_sub : (stack.take (stack.length - used)).getLast? = stack.reverse[used]? := by
  by_cases left : used < stack.length
  · rw [List.getLast?_eq_getElem?, List.length_take, List.getElem?_reverse left,
      List.getElem?_take_of_lt (by omega)]
    congr 1
    omega
  · rw [Nat.sub_eq_zero_of_le (by omega), List.take_zero, List.getElem?_eq_none (by simpa using left)]
    rfl

private theorem dropLast_take_sub :
    (stack.take (stack.length - used)).dropLast = stack.take (stack.length - (used + 1)) := by
  rw [List.dropLast_eq_take, List.length_take, List.take_take]
  congr 1
  omega

end Stacks

section Remaining
variable {datasetPaths : DatasetPaths} {earlier : List PyDict} {plan : PyDict}

private theorem runsOn_append_singleton (list : Nat) :
    runsOn datasetPaths list (earlier ++ [plan]) =
      runsOn datasetPaths list earlier + if planList datasetPaths plan = some list then 1 else 0 := by
  simp [runsOn, List.countP_append, List.countP_singleton]

private theorem ipKey_remaining : ipKey (remaining datasetPaths earlier) = ipKey datasetPaths := rfl

private theorem lists_remaining (list : Nat) : (remaining datasetPaths earlier).lists list =
    (datasetPaths.lists list).take ((datasetPaths.lists list).length - runsOn datasetPaths list earlier) := rfl

private theorem planList_of_ipKey {value : PyValue} {key : Option Nat} (named : PyDict.get? plan "ip" = some value)
    (keyed : ipKey datasetPaths value = .ok key) : planList datasetPaths plan = key := by
  cases value <;> simp only [ipKey, hashable, if_true, if_false, Bool.false_eq_true, Except.ok.injEq, reduceCtorEq] at keyed <;>
    subst keyed <;> simp [planList, named]

private theorem remaining_append_unkeyed (unkeyed : planList datasetPaths plan = none) :
    remaining datasetPaths (earlier ++ [plan]) = remaining datasetPaths earlier := by
  simp [remaining, runsOn_append_singleton, unkeyed]

private theorem remaining_append_keyed {list : Nat} (keyed : planList datasetPaths plan = some list) :
    remaining datasetPaths (earlier ++ [plan]) = ⟨datasetPaths.keys, Function.update (remaining datasetPaths earlier).lists
      list ((datasetPaths.lists list).take ((datasetPaths.lists list).length - (runsOn datasetPaths list earlier + 1)))⟩ := by
  simp only [remaining, DatasetPaths.mk.injEq, true_and]
  funext other
  by_cases same : other = list
  · subst same
    simp [runsOn_append_singleton, keyed]
  · simp [runsOn_append_singleton, keyed, same, Ne.symm same]

end Remaining

private theorem setGraphDatasetPaths_assign (datasetPaths : DatasetPaths) (earlier : List PyDict) {pre : List GraphDef}
    (post : List GraphDef) (graph : GraphDef) (plan : PyDict) {position : Nat} (placed : pre.length = position) :
    setGraphDatasetPaths (pre ++ graph :: post, remaining datasetPaths earlier) (position, graph, plan) =
      (assignPaths datasetPaths earlier graph plan).map fun newGraph =>
        (pre ++ newGraph :: post, remaining datasetPaths (earlier ++ [plan])) := by
  subst placed
  simp only [setGraphDatasetPaths, assignPaths, PyDict.getItem, ipKey_remaining]
  cases named : PyDict.get? plan "ip" with
  | none => rfl
  | some value =>
    simp only [ok_bind]
    cases keyed : ipKey datasetPaths value with
    | error => rfl
    | ok key =>
      have listed := planList_of_ipKey named keyed
      simp only [ok_bind]
      cases key with
      | none => simp only [remaining_append_unkeyed listed]; rfl
      | some list =>
        simp only [pop, lists_remaining, getLast?_take_sub]
        cases (datasetPaths.lists list).reverse[runsOn datasetPaths list earlier]? with
        | none => rfl
        | some paths =>
          simp only [ok_bind]
          cases TfAdapter.setDatasetPaths graph paths with
          | error => rfl
          | ok newGraph =>
            simp only [ok_bind, List.set_append_right _ _ (Nat.le_refl _), Nat.sub_self, List.set_cons_zero,
              dropLast_take_sub, remaining_append_keyed listed]
            rfl

section Run
variable (graphs : List GraphDef) (plans : List PyDict) (datasetPaths : DatasetPaths)

/-- The rule for the graph of `entry`, with the plans before it. -/
def assignEntry (entry : Nat × GraphDef × PyDict) : Except PyError GraphDef :=
  assignPaths datasetPaths (plans.take entry.1) entry.2.1 entry.2.2

private theorem remaining_nil : remaining datasetPaths [] = datasetPaths := by
  simp [remaining, runsOn]

private theorem foldlM_take : ∀ count, count ≤ (graphs.zip plans).length →
    ((graphs.zip plans).enum.take count).foldlM setGraphDatasetPaths (graphs, datasetPaths) =
      (do
        let assigned ← ((graphs.zip plans).enum.take count).mapM (assignEntry plans datasetPaths)
        pure (assigned ++ graphs.drop count, remaining datasetPaths (plans.take count)))
  | 0, _ => by rw [List.take_zero, List.take_zero, remaining_nil]; rfl
  | count + 1, within => by
    have inside : count < graphs.length ∧ count < plans.length := by
      have zipped := List.length_zip graphs plans
      constructor <;> omega
    have entryAt : (graphs.zip plans).enum[count]? = some (count, graphs[count], plans[count]) := by
      simp [List.getElem?_enum, List.getElem?_zip_eq_some, inside.1, inside.2]
    rw [List.take_succ, entryAt, Option.toList_some, List.foldlM_append, List.mapM_append,
      foldlM_take count (by omega)]
    cases started : ((graphs.zip plans).enum.take count).mapM (assignEntry plans datasetPaths) with
    | error => rfl
    | ok assigned =>
      have length : assigned.length = count := by
        rw [length_of_mapM_ok started, List.length_take, List.enum_length]
        omega
      have step := setGraphDatasetPaths_assign datasetPaths (plans.take count) (graphs.drop (count + 1))
        graphs[count] plans[count] length
      simp only [ok_bind, pure_eq_ok, List.foldlM_cons, List.foldlM_nil, List.mapM_cons, List.mapM_nil]
      rw [List.drop_eq_getElem_cons inside.1, step, assignEntry]
      cases assignPaths datasetPaths (plans.take count) graphs[count] plans[count] with
      | error => rfl
      | ok newGraph =>
        simp only [List.take_succ, List.getElem?_eq_getElem inside.2, Option.toList_some, Except.map, ok_bind,
          pure_eq_ok, List.append_assoc, List.singleton_append]

/-- `_set_dataset_paths` assigns the partition graphs by the rule: the graph at `i` becomes what
`assignPaths` makes of it given the plans before `i`, so the graphs of one worker take its path
lists from the last back, and the first error of the rule is the one raised. Graphs past the
last plan stay as they were, and the caller's dict loses, for each ip, the path lists its
graphs took. -/
theorem set_dataset_paths_assigns_by_rank :
    Tensorflow.setDatasetPaths graphs plans datasetPaths =
      (do
        let assigned ← (graphs.zip plans).enum.mapM (assignEntry plans datasetPaths)
        pure (assigned ++ graphs.drop plans.length, remaining datasetPaths (plans.take graphs.length))) := by
  have whole := foldlM_take graphs plans datasetPaths _ le_rfl
  rw [List.take_of_length_le (by rw [List.enum_length])] at whole
  have zipped := List.length_zip graphs plans
  have dropped : graphs.drop (graphs.zip plans).length = graphs.drop plans.length := by
    rcases le_total graphs.length plans.length with fewer | more
    · rw [List.drop_eq_nil_of_le (by omega), List.drop_eq_nil_of_le fewer]
    · rw [zipped, Nat.min_eq_right more]
  have taken : plans.take (graphs.zip plans).length = plans.take graphs.length := by
    rcases le_total graphs.length plans.length with fewer | more
    · rw [zipped, Nat.min_eq_left fewer]
    · rw [List.take_of_length_le (by omega), List.take_of_length_le more]
  rw [Tensorflow.setDatasetPaths, whole, dropped, taken]

/-- Two workers whose ips share one list, as `dict.fromkeys` builds it: the graph on the first
takes the list's last path list, and the graph on the second the one before it. -/
example :
    (Tensorflow.setDatasetPaths [DatasetPaths.lastPathGraph, DatasetPaths.lastPathGraph]
      [[("ip", .str "10.0.0.1")], [("ip", .str "10.0.0.2")]]
      ⟨fun ip => if ip = "10.0.0.1" ∨ ip = "10.0.0.2" then some 0 else none,
        fun _ => [[.str "first.tfrecord"], [.str "second.tfrecord"]]⟩).map Prod.fst =
      .ok [⟨[DatasetPaths.fileNames "second.tfrecord"]⟩, ⟨[DatasetPaths.fileNames "first.tfrecord"]⟩] := by
  rfl

end Run

section FirstPath
open SuperScaler.TfAdapter SuperScaler.Proofs.DatasetPaths
variable {graphDef : GraphDef} {paths : List String}

private theorem substitutePath_zero (zeros : ∀ node ∈ graphDef.node, ∀ text ∈ datasetPathFlag node, parseInt text = .ok 0) :
    ∀ node ∈ graphDef.node, substitutePath paths node =
      if (datasetPathFlag node).isSome then replaceStringVal node (encodeUtf8 (paths.headD "")) else node := by
  intro node member
  cases flag : datasetPathFlag node with
  | none => simp [substitutePath, flag]
  | some text =>
    have parsed := zeros node member text flag
    cases paths <;> simp [substitutePath, flag, parsed, Except.toOption, pyPosition]

private theorem indicesInRange_zero (zeros : ∀ node ∈ graphDef.node, ∀ text ∈ datasetPathFlag node, parseInt text = .ok 0) :
    IndicesInRange graphDef paths.length ∨ paths = [] := by
  cases paths with
  | nil => exact .inr rfl
  | cons =>
    refine .inl fun node member text flag index parsed => ?_
    simp only [zeros node member text flag, Except.toOption, Option.mem_def, Option.some.injEq] at parsed
    subst parsed
    simp only [List.length_cons]
    omega

/-- The `TFRecordDataset` wrapper leaves the placeholder `DATASET_PATH:0` for every dataset,
whatever file names it was given. On a graph whose placeholders all read index `0`,
`set_dataset_paths` returns just when it is given one path per placeholder, and then every
placeholder reads the first path: the other paths are required, and never read. -/
theorem set_dataset_paths_first_path_only (graphDef : GraphDef) (paths : List String)
    (zeros : ∀ node ∈ graphDef.node, ∀ text ∈ datasetPathFlag node, parseInt text = .ok 0) :
    ((∃ result, TfAdapter.setDatasetPaths graphDef (paths.map .str) = .ok result) ↔
      placeholderCount graphDef = paths.length) ∧
    ∀ result, TfAdapter.setDatasetPaths graphDef (paths.map .str) = .ok result →
      result = ⟨graphDef.node.map fun node =>
        if (datasetPathFlag node).isSome then replaceStringVal node (encodeUtf8 (paths.headD "")) else node⟩ := by
  have numerals : Numerals graphDef := fun node member text flag => by
    rw [zeros node member text flag]
    rfl
  simp only [TfAdapter.setDatasetPaths]
  by_cases inRange : IndicesInRange graphDef paths.length
  · have counted : ((graphDef.node.map fun node => (substitutePath paths node, (datasetPathFlag node).isSome)).filter
        (·.2)).length = placeholderCount graphDef := by
      simp [placeholderCount, List.filter_map, Function.comp_def]
    rw [mapM_setDatasetPath_inside numerals inRange]
    simp only [ok_bind, counted, List.map_map, Function.comp_def, List.map_congr_left (substitutePath_zero zeros)]
    by_cases count : placeholderCount graphDef = paths.length
    · simp [count]
    · simp [count, throw, throwThe, MonadExceptOf.throw]
  · rw [mapM_setDatasetPath_outside numerals inRange]
    have empty : paths = [] := (indicesInRange_zero zeros).resolve_left inRange
    obtain ⟨node, member, text, flag, -⟩ : ∃ node ∈ graphDef.node, ∃ text, datasetPathFlag node = some text ∧ _ := by
      simpa only [IndicesInRange, not_forall, exists_prop, Option.mem_def] using inRange
    have positive : 0 < placeholderCount graphDef :=
      List.length_pos.mpr (List.ne_nil_of_mem (List.mem_filter.mpr ⟨member, by simp [flag]⟩))
    simp only [error_bind, reduceCtorEq, exists_false, false_iff, empty, List.length_nil, IsEmpty.forall_iff]
    exact ⟨Nat.pos_iff_ne_zero.mp positive, fun _ => trivial⟩

def twoDatasets : GraphDef := ⟨[fileNames "DATASET_PATH:0", fileNames "DATASET_PATH:0"]⟩

theorem set_dataset_paths_two_datasets_read_first :
    (∀ node ∈ twoDatasets.node, ∀ text ∈ datasetPathFlag node, parseInt text = .ok 0) ∧
    TfAdapter.setDatasetPaths twoDatasets (["a.tfrecord", "b.tfrecord"].map .str) =
      .ok ⟨[fileNames "a.tfrecord", fileNames "a.tfrecord"]⟩ :=
  have zeros : ∀ node ∈ twoDatasets.node, ∀ text ∈ datasetPathFlag node, parseInt text = .ok 0 := by
    intro node member text flag
    rw [List.mem_pair.mp member |>.elim id id] at flag
    cases (show datasetPathFlag (fileNames "DATASET_PATH:0") = some (encodeUtf8 "0") from rfl) ▸ flag
    rfl
  have first := set_dataset_paths_first_path_only twoDatasets ["a.tfrecord", "b.tfrecord"] zeros
  have ⟨result, ran⟩ := first.1.mpr rfl
  ⟨zeros, ran.trans (congrArg Except.ok ((first.2 result ran).trans rfl))⟩

end FirstPath

private theorem foldl_hostsAndSlots (ip : String) : ∀ (rank2ip : List String) (hostsAndSlots : String → Nat),
    rank2ip.foldl (fun hostsAndSlots x => Function.update hostsAndSlots x (hostsAndSlots x + 1)) hostsAndSlots ip =
      hostsAndSlots ip + rank2ip.count ip
  | [], _ => rfl
  | x :: rest, hostsAndSlots => by
    rw [List.foldl_cons, foldl_hostsAndSlots ip rest, List.count_cons]
    by_cases same : x = ip
    · subst same
      simp only [Function.update_same, beq_self_eq_true, if_true]
      omega
    · simp only [Function.update_noteq (Ne.symm same), beq_iff_eq, same, if_false]
      omega

@[simp] theorem parseHostArgs_eq_count (rank2ip : List String) (ip : String) :
    Runtime.parseHostArgs rank2ip ip = rank2ip.count ip :=
  (foldl_hostsAndSlots ip rank2ip _).trans (Nat.zero_add _)

private theorem zip_range'_map {α β : Type} (f : Nat → β) : ∀ (items : List α) (start : Nat),
    items.zip ((List.range' start items.length).map f) = (items.enumFrom start).map fun entry => (entry.2, f entry.1)
  | [], _ => rfl
  | item :: rest, start => by
    rw [List.length_cons, List.range'_succ, List.map_cons, List.zip_cons_cons, zip_range'_map f rest, List.enumFrom_cons,
      List.map_cons]

/-- With arguments of the right types, `run` launches the ranks in rank order, rank `g` on host
`rank2ip[g]` running the runner on its own folder `{remote_resource_dir}/{g}`, and each app
context gives its host as many slots as `rank2ip` lists that host: the number of processes
the command starts there. -/
theorem run_launches_each_rank_on_its_host (args : RunArgs) (remoteResourceDir : String) (rank2ip : List String)
    {steps interval printInfo printFetchesTargets : String} (stepsInt : intText args.steps = some steps)
    (intervalInt : intText args.interval = some interval) (infoBool : boolField args.printInfo = some printInfo)
    (targetsBool : boolField args.printFetchesTargets = some printFetchesTargets) :
    Tensorflow.run args remoteResourceDir rank2ip = some ("mpirun --allow-run-as-root --tag-output " ++
      " : ".intercalate (rank2ip.enum.map fun entry => "-np 1 -host " ++ entry.2 ++ ":" ++
        toString (rank2ip.count entry.2) ++ " " ++
        runnerCommand remoteResourceDir steps interval printInfo printFetchesTargets entry.1) ++ " ") := by
  simp only [Tensorflow.run, stepsInt, intervalInt, infoBool, targetsBool, Option.bind_eq_bind, Option.some_bind,
    Runtime.launch, List.range_eq_range', zip_range'_map, List.map_map, Function.comp_def, Runtime.appContext,
    parseHostArgs_eq_count]
  rfl

theorem run_launches_two_hosts :
    Tensorflow.run ⟨.int 100, .int 10, .bool true, .bool false⟩ "/tmp/superscaler" ["10.0.0.1", "10.0.0.1", "10.0.0.2"] =
      some ("mpirun --allow-run-as-root --tag-output " ++ " : ".intercalate
        ["-np 1 -host 10.0.0.1:2 " ++ runnerCommand "/tmp/superscaler" "100" "10" "True" "False" 0,
          "-np 1 -host 10.0.0.1:2 " ++ runnerCommand "/tmp/superscaler" "100" "10" "True" "False" 1,
          "-np 1 -host 10.0.0.2:1 " ++ runnerCommand "/tmp/superscaler" "100" "10" "True" "False" 2] ++ " ") :=
  (run_launches_each_rank_on_its_host ⟨.int 100, .int 10, .bool true, .bool false⟩ "/tmp/superscaler"
    ["10.0.0.1", "10.0.0.1", "10.0.0.2"] rfl rfl rfl rfl).trans rfl

end SuperScaler.Proofs.Workers
