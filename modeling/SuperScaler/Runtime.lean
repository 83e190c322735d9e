import SuperScaler.TfAdapter
import SuperScaler.Parallelization

/-! The `tensorflow` front end. `_init_partition_graphs` runs the one strategy on the merged
graph and exports each partition graph it leaves. `_set_dataset_paths` hands each partition
graph the dataset paths of the worker its plan runs on: `dataset_paths` maps a worker ip to a
list of path lists, one per graph on that worker, and each graph pops the last of them from
the list its ip refers to.
`run` launches the runner of every rank under `mpirun` (`launch`), each on its host with as
many slots as the host has ranks. -/

namespace SuperScaler.Tensorflow
open SuperScaler.TF SuperScaler.Py

section PartitionGraphs
open SuperScaler.IR SuperScaler.TfAdapter SuperScaler.Parallelization SuperScaler.GraphUtil

end PartitionGraphs

/-- `dataset_paths`: each ip key refers to a list object holding the path lists left for the
graphs on that worker, and the objects are kept apart from the keys, so that two ips may refer
to one list (as `dict.fromkeys` builds them) and a `pop()` through one shows through the other.
The keys are the ips `keys` maps to `some`. -/
structure DatasetPaths where
  keys : String → Option Nat
  lists : Nat → List (List PyValue)

/-- Whether Python can hash the value: lists, dicts and protobuf messages it cannot. -/
def hashable : PyValue → Bool
  | .list _ | .dict _ | .tensor _ | .nameAttrList _ => false
  | _ => true

/-- `plan['ip'] in dataset_paths.keys()`: the list object a string ip refers to, when it is a
key. The lookup hashes the ip, so an unhashable one raises `TypeError`; any other value that is
not a string equals none of the keys. -/
def ipKey (datasetPaths : DatasetPaths) (value : PyValue) : Except PyError (Option Nat) :=
  match value with
  | .str ip => .ok (datasetPaths.keys ip)
  | _ => if hashable value then .ok none else .error .typeError

/-- `list.pop()`: the last item, or `IndexError` on an empty list. -/
def pop {α : Type} (items : List α) : Except PyError α :=
  match items.getLast? with
  | some item => .ok item
  | none => .error .indexError

/-- One round of the loop of `_set_dataset_paths`, on the graph at `i` and its plan: when the
plan's worker ip is a key of `dataset_paths`, the last path list leaves the list object the ip
refers to and the graph at `i` is replaced by `set_dataset_paths(graph, paths)`. `plan['ip']`
raises `KeyError` on a plan without an ip. -/
def setGraphDatasetPaths (state : List GraphDef × DatasetPaths) (entry : Nat × GraphDef × PyDict) :
    Except PyError (List GraphDef × DatasetPaths) := do
  let (graphs, datasetPaths) := state
  let (i, graph, plan) := entry
  match ← ipKey datasetPaths (← PyDict.getItem plan "ip") with
  | none => pure state
  | some list =>
    let stack := datasetPaths.lists list
    let paths ← pop stack
    let newGraph ← TfAdapter.setDatasetPaths graph paths
    pure (graphs.set i newGraph, { datasetPaths with lists := Function.update datasetPaths.lists list stack.dropLast })

/-- `_set_dataset_paths(dataset_paths)` over `zip(self._partition_graphs, self._assigned_plan)`:
the partition graphs after it, and what it leaves of the caller's `dataset_paths`, whose lists
it pops in place. The graphs are the parsed `GraphDef`s; the text format they are kept in is
not modelled. -/
def setDatasetPaths (graphs : List GraphDef) (plans : List PyDict) (datasetPaths : DatasetPaths) :
    Except PyError (List GraphDef × DatasetPaths) :=
  (graphs.zip plans).enum.foldlM setGraphDatasetPaths (graphs, datasetPaths)

end SuperScaler.Tensorflow

namespace SuperScaler.Runtime

/-- `parse_host_args(rank2ip)`: a `defaultdict(int)` counting the ranks of each ip. -/
def parseHostArgs (rank2ip : List String) : String → Nat :=
  rank2ip.foldl (fun hostsAndSlots x => Function.update hostsAndSlots x (hostsAndSlots x + 1)) fun _ => 0

/-- One app context of the `mpirun` command: `-np 1 -host {ip}:{slots} {cmd}`. -/
def appContext (hostsAndSlots : String → Nat) (ip cmd : String) : String :=
  "-np 1 -host " ++ ip ++ ":" ++ toString (hostsAndSlots ip) ++ " " ++ cmd

/-- The command `launch(rank2ip, rank2cmd)` hands to the shell: an app context for each rank
that has a command (`zip` stops at the shorter list), in rank order, with the slots of its
host counted over all of `rank2ip`. -/
def launch (rank2ip rank2cmd : List String) : String :=
  let hostsAndSlots := parseHostArgs rank2ip
  "mpirun --allow-run-as-root --tag-output " ++
    " : ".intercalate ((rank2ip.zip rank2cmd).map fun (ip, cmd) => appContext hostsAndSlots ip cmd) ++ " "

end SuperScaler.Runtime

namespace SuperScaler.Tensorflow
open SuperScaler.Py

/-- The fields of `args` that `run` reads. -/
structure RunArgs where
  steps : PyValue
  interval : PyValue
  printInfo : PyValue
  printFetchesTargets : PyValue

/-- `'{}'.format(value)` of a `bool`. -/
def boolText (value : Bool) : String := if value then "True" else "False"

/-- `isinstance(value, int)`, and `'{}'.format(value)` of a value that passes it: a `bool` is an
`int` as well. `none` is a value that fails it. -/
def intText : PyValue → Option String
  | .int value => some (toString value)
  | .bool value => some (boolText value)
  | _ => none

/-- `isinstance(value, bool)`, and `'{}'.format(value)` of a value that passes it. -/
def boolField : PyValue → Option String
  | .bool value => some (boolText value)
  | _ => none

/-- The command of rank `grank` in `cmd_per_worker`. -/
def runnerCommand (resourceDir steps interval printInfo printFetchesTargets : String) (grank : Nat) : String :=
  "python -m superscaler.runtime.tensorflow.runner " ++ "--model_dir_prefix " ++ resourceDir ++ "/" ++
    toString grank ++ " " ++ "--steps " ++ steps ++ " " ++ "--interval " ++ interval ++ " " ++
    "--print_info " ++ printInfo ++ " " ++ "--print_fetches_targets " ++ printFetchesTargets ++ " "

/-- `run(args)` once initialized, from the `rank2ip` the plan assigner gives and the directory
`distribute_resources` returns: the `mpirun` command it launches, or `none` for the
`SuperscalerError` it raises when an argument has the wrong type. -/
def run (args : RunArgs) (remoteResourceDir : String) (rank2ip : List String) : Option String := do
  let steps ← intText args.steps
  let interval ← intText args.interval
  let printInfo ← boolField args.printInfo
  let printFetchesTargets ← boolField args.printFetchesTargets
  let cmdPerWorker := (List.range rank2ip.length).map
    (runnerCommand remoteResourceDir steps interval printInfo printFetchesTargets)
  pure (Runtime.launch rank2ip cmdPerWorker)

end SuperScaler.Tensorflow
