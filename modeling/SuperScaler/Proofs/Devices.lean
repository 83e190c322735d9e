import SuperScaler.TfAdapter

/-! `__set_device_info`, which `export_graph_to_tf_file` runs on the `GraphDef` it builds.
Rule 1 puts a node on the CPU when no GPU kernel accepts it; heuristic A then gives each node
with no input the device of the last node that reads it. So a generator follows its consumer,
also off the CPU where rule 1 put it. -/

namespace SuperScaler.Proofs.Devices
open SuperScaler.TF SuperScaler.Py SuperScaler.TfAdapter

/-- What heuristic A reads of a node: its name and its inputs. -/
def wiring (node : NodeDef) : String × List String := (node.name, node.input)

/-- An op that `support_GPU` answers for without raising: one of the ops it names, or one with
a registered kernel. -/
def Registered (kernels : KernelRegistry) (op : String) : Prop :=
  op ∈ ["MakeIterator", "IteratorV2", "IteratorGetNext", "NoOp"] ∨ kernels op ≠ []

instance (kernels : KernelRegistry) (op : String) : Decidable (Registered kernels op) :=
  inferInstanceAs (Decidable (_ ∨ _))

private theorem attrEntry_wiring (node : NodeDef) (name : String) : wiring (attrEntry node name).2 = wiring node := by
  unfold attrEntry
  split <;> rfl

private theorem kernelSuitable_wiring : ∀ (constraints : List AttrConstraint) (node : NodeDef),
    wiring (kernelSuitable constraints node).2 = wiring node
  | [], _ => rfl
  | constraint :: rest, node => by
    simp only [kernelSuitable]
    split
    · exact kernelSuitable_wiring rest node
    · split
      · rw [kernelSuitable_wiring, attrEntry_wiring]
      · exact attrEntry_wiring node constraint.name

private theorem foldl_keeps_wiring {α : Type} (step : Bool × NodeDef → α → Bool × NodeDef)
    (keeps : ∀ state item, wiring (step state item).2 = wiring state.2) :
    ∀ (items : List α) (state : Bool × NodeDef), wiring (items.foldl step state).2 = wiring state.2
  | [], _ => rfl
  | item :: rest, state => (foldl_keeps_wiring step keeps rest _).trans (keeps state item)

private theorem supportGPU_ok {kernels : KernelRegistry} {node : NodeDef} (registered : Registered kernels node.op) :
    ∃ gpu changed, supportGPU kernels node = .ok (gpu, changed) ∧ wiring changed = wiring node := by
  unfold supportGPU
  split
  · exact ⟨_, _, rfl, rfl⟩
  split
  · exact ⟨_, _, rfl, rfl⟩
  split
  next special noOp none =>
    rcases registered with named | hasKernel
    · simp only [List.mem_cons, List.mem_singleton, List.not_mem_nil, or_false] at named special noOp
      tauto
    · exact absurd (List.length_eq_zero.mp (Nat.lt_one_iff.mp none)) hasKernel
  · exact ⟨_, _, rfl, foldl_keeps_wiring _ (fun ⟨_, node⟩ kernel => kernelSuitable_wiring kernel.constraint node) _ _⟩

private theorem supportGPU_error {kernels : KernelRegistry} {node : NodeDef} (unregistered : ¬ Registered kernels node.op) :
    supportGPU kernels node = .error .runtimeError := by
  simp only [Registered, List.mem_cons, List.mem_singleton, List.not_mem_nil, or_false, not_or, ne_eq,
    not_not] at unregistered
  simp [supportGPU, unregistered]

private theorem placeOnCpu_ok {kernels : KernelRegistry} {tfNode : PlacedNode} (registered : Registered kernels tfNode.node.op) :
    ∃ placed, placeOnCpu kernels tfNode = .ok placed ∧ wiring placed.node = wiring tfNode.node := by
  obtain ⟨gpu, changed, supported, same⟩ := supportGPU_ok registered
  exact ⟨⟨changed, if gpu then tfNode.device else "/device:CPU:0"⟩,
    by simp only [placeOnCpu, supported, ok_bind, pure_eq_ok], same⟩

private theorem placeOnCpu_error {kernels : KernelRegistry} {tfNode : PlacedNode} (unregistered : ¬ Registered kernels tfNode.node.op) :
    placeOnCpu kernels tfNode = .error .runtimeError := by
  simp only [placeOnCpu, supportGPU_error unregistered, error_bind]

private theorem mapM_placeOnCpu {kernels : KernelRegistry} :
    ∀ {nodes : List PlacedNode}, (∀ tfNode ∈ nodes, Registered kernels tfNode.node.op) →
      ∃ placed, nodes.mapM (placeOnCpu kernels) = .ok placed ∧
        placed.map (wiring ·.node) = nodes.map (wiring ·.node)
  | [], _ => ⟨[], rfl, rfl⟩
  | tfNode :: rest, registered => by
    obtain ⟨first, placedFirst, same⟩ := placeOnCpu_ok (registered tfNode (List.mem_cons_self _ _))
    obtain ⟨placed, mapped, sameRest⟩ := mapM_placeOnCpu fun other member => registered other (List.mem_cons_of_mem _ member)
    exact ⟨first :: placed, by simp only [List.mapM_cons, placedFirst, mapped, ok_bind, pure_eq_ok],
      by simp only [List.map_cons, same, sameRest]⟩

private theorem placeOnCpu_ok_or_error (kernels : KernelRegistry) (tfNode : PlacedNode) :
    (∃ placed, placeOnCpu kernels tfNode = .ok placed) ∨ placeOnCpu kernels tfNode = .error .runtimeError := by
  by_cases registered : Registered kernels tfNode.node.op
  · obtain ⟨placed, ok, _⟩ := placeOnCpu_ok registered
    exact .inl ⟨placed, ok⟩
  · exact .inr (placeOnCpu_error registered)

section Wiring
variable {placed nodes : List PlacedNode} (same : placed.map (wiring ·.node) = nodes.map (wiring ·.node))
include same

private theorem names_of_wiring : placed.map (·.node.name) = nodes.map (·.node.name) := by
  simpa [wiring, Function.comp_def] using congrArg (List.map Prod.fst) same

private theorem wiring_counterpart {reader : PlacedNode} (member : reader ∈ nodes) :
    ∃ counterpart ∈ placed, counterpart.node.input = reader.node.input := by
  have wired : wiring reader.node ∈ placed.map (wiring ·.node) := same ▸ List.mem_map_of_mem (wiring ·.node) member
  obtain ⟨counterpart, placedMember, sameWiring⟩ := List.mem_map.mp wired
  exact ⟨counterpart, placedMember, congrArg Prod.snd sameWiring⟩

end Wiring

section Lookup
variable {nodes : List PlacedNode} {name : String}

private theorem foldl_lookup_some {position : Nat} : ∀ (pairs : List (Nat × PlacedNode)) (found : Option Nat),
    pairs.foldl (fun found (position, tfNode) => if tfNode.node.name = name then some position else found) found =
      some position → found = some position ∨ ∃ tfNode, (position, tfNode) ∈ pairs ∧ tfNode.node.name = name
  | [], _, result => .inl result
  | (other, tfNode) :: rest, found, result => by
    rw [List.foldl_cons] at result
    rcases foldl_lookup_some rest _ result with first | ⟨later, member, named⟩
    · by_cases named : tfNode.node.name = name
      · simp only [named, if_true, Option.some_inj] at first
        exact .inr ⟨tfNode, first ▸ List.mem_cons_self _ _, named⟩
      · simp only [named, if_false] at first
        exact .inl first
    · exact .inr ⟨later, List.mem_cons_of_mem _ member, named⟩

private theorem foldl_lookup_isSome : ∀ (pairs : List (Nat × PlacedNode)) (found : Option Nat),
    (found.isSome ∨ ∃ pair ∈ pairs, pair.2.node.name = name) →
      (pairs.foldl (fun found (position, tfNode) => if tfNode.node.name = name then some position else found)
        found).isSome
  | [], _, present => present.resolve_right fun ⟨_, absent, _⟩ => absurd absent (List.not_mem_nil _)
  | (other, tfNode) :: rest, found, present => by
    rw [List.foldl_cons]
    refine foldl_lookup_isSome rest _ ?_
    dsimp only
    by_cases named : tfNode.node.name = name
    · exact .inl (by rw [if_pos named]; rfl)
    · rw [if_neg named]
      exact present.imp_right fun ⟨pair, member, pairNamed⟩ =>
        ⟨pair, (List.mem_cons.mp member).resolve_left (by rintro rfl; exact named pairNamed), pairNamed⟩

private theorem nameToNode_some {position : Nat} (found : nameToNode nodes name = some position) :
    ∃ tfNode, nodes[position]? = some tfNode ∧ tfNode.node.name = name := by
  rcases foldl_lookup_some nodes.enum none found with impossible | ⟨tfNode, member, named⟩
  · cases impossible
  · exact ⟨tfNode, List.mem_enum_iff_getElem?.mp member, named⟩

private theorem nameToNode_isSome (present : name ∈ nodes.map (·.node.name)) : (nameToNode nodes name).isSome := by
  obtain ⟨tfNode, member, named⟩ := List.mem_map.mp present
  obtain ⟨position, found⟩ := List.mem_iff_getElem?.mp member
  exact foldl_lookup_isSome nodes.enum none (.inr ⟨(position, tfNode), List.mem_enum_iff_getElem?.mpr found, named⟩)

end Lookup

/-- The device of the last of `readers` with an input that names the node at `generator`. -/
def lastReaderDevice (lookup : String → Option Nat) (readers : List PlacedNode) (generator : Nat) : Option String :=
  readers.foldl (fun found reader =>
    if ∃ input ∈ reader.node.input, lookup (inputName input) = some generator then some reader.device else found) none

/-- `placed` with each node that has no input moved to the device `device` gives its position,
when it gives one. -/
def override (placed : List PlacedNode) (device : Nat → Option String) : List PlacedNode :=
  placed.enum.map fun (position, tfNode) =>
    if tfNode.node.input = [] then { tfNode with device := (device position).getD tfNode.device } else tfNode

/-- What `__set_device_info` makes of the nodes as rule 1 leaves them: each node with no input
on the device of the last node that reads it, when one does. -/
def settle (placed : List PlacedNode) : List PlacedNode :=
  override placed (lastReaderDevice (nameToNode placed) placed)

section HeuristicA
variable {lookup : String → Option Nat} {placed : List PlacedNode}

private theorem lastReaderDevice_append (readers : List PlacedNode) (reader : PlacedNode) (generator : Nat) :
    lastReaderDevice lookup (readers ++ [reader]) generator =
      if ∃ input ∈ reader.node.input, lookup (inputName input) = some generator then some reader.device
      else lastReaderDevice lookup readers generator := by
  simp only [lastReaderDevice, List.foldl_append, List.foldl_cons, List.foldl_nil]

@[simp] theorem length_override (device : Nat → Option String) : (override placed device).length = placed.length := by
  simp [override]

private theorem getElem?_override (device : Nat → Option String) (position : Nat) :
    (override placed device)[position]? = placed[position]?.map fun tfNode =>
      if tfNode.node.input = [] then { tfNode with device := (device position).getD tfNode.device } else tfNode := by
  simp only [override, List.getElem?_map, List.getElem?_enum, Option.map_map]
  rfl

private theorem override_none : override placed (fun _ => none) = placed := by
  refine List.ext_getElem? fun position => ?_
  rw [getElem?_override]
  cases placed[position]? with
  | none => rfl
  | some tfNode => simp only [Option.getD_none, Option.map_some', ite_self]

private theorem override_congr {device other : Nat → Option String}
    (same : ∀ position tfNode, placed[position]? = some tfNode → tfNode.node.input = [] → device position = other position) :
    override placed device = override placed other := by
  refine List.ext_getElem? fun position => ?_
  rw [getElem?_override, getElem?_override]
  cases found : placed[position]? with
  | none => rfl
  | some tfNode =>
    by_cases generator : tfNode.node.input = []
    · simp only [Option.map_some', generator, if_true, same position tfNode found generator]
    · simp only [Option.map_some', generator, if_false]

private theorem placeGenerator_override {device : Nat → Option String} {consumer generator : Nat} {reader : PlacedNode}
    {input : String} (reading : placed[consumer]? = some reader) (hasInput : reader.node.input ≠ [])
    (named : lookup (inputName input) = some generator) (inside : generator < placed.length) :
    placeGenerator lookup consumer (override placed device) input =
      .ok (override placed fun position => if position = generator then some reader.device else device position) := by
  obtain ⟨source, found⟩ : ∃ source, placed[generator]? = some source := ⟨_, List.getElem?_eq_getElem inside⟩
  have current : (override placed device)[consumer]? = some reader := by
    simp [getElem?_override, reading, hasInput]
  have old : (override placed device)[generator]? = some
      (if source.node.input = [] then { source with device := (device generator).getD source.device } else source) := by
    simp [getElem?_override, found]
  simp only [placeGenerator, named, current, old]
  congr 1
  by_cases generating : source.node.input = []
  · simp only [generating, if_true]
    refine List.ext_getElem? fun position => ?_
    rw [List.getElem?_set, getElem?_override, getElem?_override]
    by_cases here : generator = position
    · subst here
      simp [found, generating, inside]
    · simp [here, Ne.symm here]
  · simp only [generating, if_false]
    refine override_congr fun position tfNode located generatorNode => ?_
    by_cases here : position = generator
    · subst here
      rw [found, Option.some_inj] at located
      exact absurd (located ▸ generatorNode) generating
    · simp [here]

private theorem foldlM_placeGenerator {consumer : Nat} {reader : PlacedNode} (reading : placed[consumer]? = some reader)
    (resolved : ∀ input ∈ reader.node.input, ∃ generator < placed.length, lookup (inputName input) = some generator) :
    ∀ (inputs : List String), (∀ input ∈ inputs, input ∈ reader.node.input) → ∀ device : Nat → Option String,
      inputs.foldlM (placeGenerator lookup consumer) (override placed device) =
        .ok (override placed fun position =>
          if ∃ input ∈ inputs, lookup (inputName input) = some position then some reader.device else device position)
  | [], _, device => by
    simp only [List.foldlM_nil, List.not_mem_nil, false_and, exists_false, if_false]
    rfl
  | input :: rest, within, device => by
    obtain ⟨generator, inside, named⟩ := resolved input (within input (List.mem_cons_self _ _))
    have hasInput : reader.node.input ≠ [] := List.ne_nil_of_mem (within input (List.mem_cons_self _ _))
    rw [List.foldlM_cons, placeGenerator_override reading hasInput named inside, ok_bind,
      foldlM_placeGenerator reading resolved rest (fun other member => within other (List.mem_cons_of_mem _ member))]
    congr 2
    funext position
    by_cases here : position = generator
    · simp [here, named]
    · have different : lookup (inputName input) ≠ some position := by
        rw [named]
        exact fun same => here (Option.some_inj.mp same).symm
      simp [here, different]

private theorem foldlM_heuristicA
    (resolved : ∀ reader ∈ placed, ∀ input ∈ reader.node.input, ∃ generator < placed.length,
      lookup (inputName input) = some generator) :
    ∀ (pairs : List (Nat × PlacedNode)), (∀ pair ∈ pairs, placed[pair.1]? = some pair.2) →
      ∀ readers : List PlacedNode,
        pairs.foldlM (fun nodes (consumer, tfNode) => tfNode.node.input.foldlM (placeGenerator lookup consumer) nodes)
          (override placed (lastReaderDevice lookup readers)) =
        .ok (override placed (lastReaderDevice lookup (readers ++ pairs.map Prod.snd)))
  | [], _, readers => by rw [List.map_nil, List.append_nil]; rfl
  | (consumer, reader) :: rest, listed, readers => by
    have reading : placed[consumer]? = some reader := listed _ (List.mem_cons_self _ _)
    have inputs := foldlM_placeGenerator reading (resolved reader (List.getElem?_mem reading)) reader.node.input
      (fun _ => id) (lastReaderDevice lookup readers)
    simp only [List.foldlM_cons] at inputs ⊢
    rw [inputs, ok_bind]
    have appended : (fun position => if ∃ input ∈ reader.node.input, lookup (inputName input) = some position
        then some reader.device else lastReaderDevice lookup readers position) = lastReaderDevice lookup (readers ++ [reader]) :=
      funext fun position => (lastReaderDevice_append readers reader position).symm
    rw [appended, foldlM_heuristicA resolved rest (fun pair member => listed pair (List.mem_cons_of_mem _ member)),
      List.map_cons, List.append_assoc, List.singleton_append]

end HeuristicA

section Failures
variable {lookup : String → Option Nat} (consumer : Nat)

private theorem placeGenerator_resolved (nodes : List PlacedNode) {input : String} (named : (lookup (inputName input)).isSome) :
    ∃ placed, placeGenerator lookup consumer nodes input = .ok placed := by
  obtain ⟨generator, found⟩ := Option.isSome_iff_exists.mp named
  simp only [placeGenerator, found]
  split <;> exact ⟨_, rfl⟩

private theorem foldlM_inputs_resolved : ∀ {inputs : List String} (nodes : List PlacedNode),
    (∀ input ∈ inputs, (lookup (inputName input)).isSome) →
      ∃ placed, inputs.foldlM (placeGenerator lookup consumer) nodes = .ok placed
  | [], nodes, _ => ⟨nodes, rfl⟩
  | input :: rest, nodes, named => by
    obtain ⟨placed, step⟩ := placeGenerator_resolved consumer nodes (named input (List.mem_cons_self _ _))
    rw [List.foldlM_cons, step, ok_bind]
    exact foldlM_inputs_resolved placed fun other member => named other (List.mem_cons_of_mem _ member)

private theorem foldlM_inputs_unresolved : ∀ {inputs : List String} (nodes : List PlacedNode),
    (∃ input ∈ inputs, lookup (inputName input) = none) →
      inputs.foldlM (placeGenerator lookup consumer) nodes = .error .keyError
  | [], _, ⟨_, absent, _⟩ => absurd absent (List.not_mem_nil _)
  | input :: rest, nodes, ⟨missing, member, unnamed⟩ => by
    rw [List.foldlM_cons]
    cases named : lookup (inputName input) with
    | none => simp only [placeGenerator, named, error_bind]
    | some generator =>
      obtain ⟨placed, step⟩ := placeGenerator_resolved consumer nodes (show (lookup (inputName input)).isSome by
        simp [named])
      have later : missing ∈ rest := by
        rcases List.mem_cons.mp member with rfl | later
        · rw [named] at unnamed; cases unnamed
        · exact later
      rw [step, ok_bind]
      exact foldlM_inputs_unresolved placed ⟨missing, later, unnamed⟩

private theorem foldlM_heuristicA_unresolved : ∀ {pairs : List (Nat × PlacedNode)} (nodes : List PlacedNode),
    (∃ pair ∈ pairs, ∃ input ∈ pair.2.node.input, lookup (inputName input) = none) →
      pairs.foldlM (fun nodes (consumer, tfNode) => tfNode.node.input.foldlM (placeGenerator lookup consumer) nodes)
        nodes = .error .keyError
  | [], _, ⟨_, absent, _⟩ => absurd absent (List.not_mem_nil _)
  | (consumer, reader) :: rest, nodes, ⟨pair, member, missing⟩ => by
    rw [List.foldlM_cons]
    by_cases resolved : ∀ input ∈ reader.node.input, (lookup (inputName input)).isSome
    · obtain ⟨placed, inputs⟩ := foldlM_inputs_resolved consumer nodes resolved
      have later : pair ∈ rest := by
        rcases List.mem_cons.mp member with rfl | later
        · obtain ⟨input, reads, unnamed⟩ := missing
          simpa [unnamed] using resolved input reads
        · exact later
      simp only [inputs, ok_bind]
      exact foldlM_heuristicA_unresolved placed ⟨pair, later, missing⟩
    · push_neg at resolved
      simp only [Option.not_isSome_iff_eq_none] at resolved
      simp only [foldlM_inputs_unresolved consumer nodes resolved, error_bind]

end Failures

private theorem nameToNode_none {nodes : List PlacedNode} {name : String} (absent : name ∉ nodes.map (·.node.name)) :
    nameToNode nodes name = none := by
  cases found : nameToNode nodes name with
  | none => rfl
  | some position =>
    obtain ⟨tfNode, located, named⟩ := nameToNode_some found
    exact absurd (List.mem_map.mpr ⟨tfNode, List.getElem?_mem located, named⟩) absent

/-- On nodes whose ops all have kernels and whose inputs all name nodes, `__set_device_info`
returns the nodes as rule 1 leaves them, with each node that has no input on the device of
the last node that reads it, when one does. -/
theorem set_device_info_follows_last_reader (kernels : KernelRegistry) (nodes : List PlacedNode)
    (registered : ∀ tfNode ∈ nodes, Registered kernels tfNode.node.op)
    (resolved : ∀ reader ∈ nodes, ∀ input ∈ reader.node.input, inputName input ∈ nodes.map (·.node.name)) :
    ∃ placed, nodes.mapM (placeOnCpu kernels) = .ok placed ∧ setDeviceInfo kernels nodes = .ok (settle placed) := by
  obtain ⟨placed, ruled, same⟩ := mapM_placeOnCpu registered
  have placedResolved : ∀ reader ∈ placed, ∀ input ∈ reader.node.input, ∃ generator < placed.length,
      nameToNode placed (inputName input) = some generator := by
    intro reader member input reads
    obtain ⟨original, originalMember, sameInputs⟩ := wiring_counterpart same.symm member
    have present : inputName input ∈ placed.map (·.node.name) :=
      names_of_wiring same ▸ resolved original originalMember input (sameInputs ▸ reads)
    obtain ⟨generator, found⟩ := Option.isSome_iff_exists.mp (nameToNode_isSome present)
    obtain ⟨_, located, _⟩ := nameToNode_some found
    exact ⟨generator, (List.getElem?_eq_some_iff.mp located).1, found⟩
  refine ⟨placed, ruled, ?_⟩
  have loop := foldlM_heuristicA placedResolved placed.enum (fun pair => List.mem_enum_iff_getElem?.mp) []
  rw [List.nil_append, List.enum_map_snd, show override placed (lastReaderDevice (nameToNode placed) []) = placed
    from override_none] at loop
  simp only [setDeviceInfo, ruled, ok_bind]
  exact loop

def trainingKernels : KernelRegistry := fun op =>
  if op = "Const" then [⟨"CPU", []⟩, ⟨"GPU", [⟨"dtype", some (.list { type := [1] })⟩]⟩]
  else if op = "ApplyGradientDescent" then [⟨"GPU", [⟨"T", some (.list { type := [1] })⟩]⟩]
  else []

def stepConst : NodeDef := ⟨"step", "Const", [], [("dtype", .type 9)], none⟩

def applyStep : NodeDef := ⟨"apply", "ApplyGradientDescent", ["step"], [("T", .type 1)], none⟩

def trainingStep : List PlacedNode := [⟨stepConst, ""⟩, ⟨applyStep, ""⟩]

theorem set_device_info_moves_step_off_cpu :
    (∀ tfNode ∈ trainingStep, Registered trainingKernels tfNode.node.op) ∧
    (∀ reader ∈ trainingStep, ∀ input ∈ reader.node.input, inputName input ∈ trainingStep.map (·.node.name)) ∧
    (∃ placed, trainingStep.mapM (placeOnCpu trainingKernels) = .ok placed ∧
      setDeviceInfo trainingKernels trainingStep = .ok (settle placed)) ∧
    trainingStep.mapM (placeOnCpu trainingKernels) = .ok [⟨stepConst, "/device:CPU:0"⟩, ⟨applyStep, ""⟩] ∧
    setDeviceInfo trainingKernels trainingStep = .ok [⟨stepConst, ""⟩, ⟨applyStep, ""⟩] :=
  have registered : ∀ tfNode ∈ trainingStep, Registered trainingKernels tfNode.node.op := by decide
  have resolved : ∀ reader ∈ trainingStep, ∀ input ∈ reader.node.input,
      inputName input ∈ trainingStep.map (·.node.name) := by decide
  ⟨registered, resolved, set_device_info_follows_last_reader trainingKernels trainingStep registered resolved, rfl, rfl⟩

/-- `__set_device_info` raises `RuntimeError` when an op has no kernel and is none of the ops
`support_GPU` names, and otherwise `KeyError` when an input names no node. -/
theorem set_device_info_raises (kernels : KernelRegistry) (nodes : List PlacedNode)
    (failing : (∃ tfNode ∈ nodes, ¬ Registered kernels tfNode.node.op) ∨
      ∃ reader ∈ nodes, ∃ input ∈ reader.node.input, inputName input ∉ nodes.map (·.node.name)) :
    setDeviceInfo kernels nodes =
      .error (if ∀ tfNode ∈ nodes, Registered kernels tfNode.node.op then .keyError else .runtimeError) := by
  by_cases registered : ∀ tfNode ∈ nodes, Registered kernels tfNode.node.op
  · obtain ⟨reader, member, input, reads, absent⟩ := failing.resolve_left (by simpa using registered)
    obtain ⟨placed, ruled, same⟩ := mapM_placeOnCpu registered
    obtain ⟨placedReader, placedMember, sameInputs⟩ := wiring_counterpart same member
    obtain ⟨position, located⟩ := List.mem_iff_getElem?.mp placedMember
    rw [if_pos registered]
    simp only [setDeviceInfo, ruled, ok_bind]
    exact foldlM_heuristicA_unresolved placed ⟨(position, placedReader), List.mem_enum_iff_getElem?.mpr located,
      input, sameInputs ▸ reads, nameToNode_none (names_of_wiring same ▸ absent)⟩
  · rw [if_neg registered]
    push_neg at registered
    obtain ⟨tfNode, member, unregistered⟩ := registered
    simp only [setDeviceInfo]
    rw [mapM_error (fun other _ => placeOnCpu_ok_or_error kernels other) ⟨tfNode, member, placeOnCpu_error unregistered⟩,
      error_bind]

def castStep : NodeDef := ⟨"cast", "Cast", ["step"], [("SrcT", .type 9), ("DstT", .type 1)], none⟩

theorem set_device_info_raises_on_dangling_or_unknown :
    setDeviceInfo trainingKernels [⟨applyStep, ""⟩] = .error .keyError ∧
    setDeviceInfo trainingKernels [⟨stepConst, ""⟩, ⟨castStep, ""⟩] = .error .runtimeError :=
  ⟨(set_device_info_raises trainingKernels [⟨applyStep, ""⟩] (.inr (by decide))).trans (congrArg _ (if_pos (by decide))),
    (set_device_info_raises trainingKernels [⟨stepConst, ""⟩, ⟨castStep, ""⟩] (.inl (by decide))).trans
      (congrArg _ (if_neg (by decide)))⟩

end SuperScaler.Proofs.Devices
