import SuperScaler.TfAdapter

/-! The dtypes of a node's outputs. `__get_dtype_proto` gives one dtype per output argument, or
a list for an argument that stands for several tensors. `__get_dtypes` flattens only a single
list: next to another argument a list reaches `tf.as_dtype`, which raises `TypeError`. -/

namespace SuperScaler.Proofs.Dtypes
open SuperScaler.TF SuperScaler.Py SuperScaler.TfAdapter

/-- An output argument that stands for several tensors: it repeats by a `number_attr`, or takes
its types from a `type_list_attr`. -/
def listArg (arg : ArgDef) : Bool :=
  arg.numberAttr.length ≠ 0 || (arg.typeAttr.length = 0 && arg.typeListAttr.length ≠ 0)

/-- The dtypes an output argument stands for: `N` copies of its type for a `number_attr`, the
listed types for a `type_list_attr`, and otherwise its one type. -/
def argDtypes (nodeDef : NodeDef) (arg : ArgDef) : List Int :=
  if arg.typeAttr.length = 0 ∧ arg.typeListAttr.length ≠ 0 then (nodeDef.attrAt arg.typeListAttr).listField.type
  else
    let single := if arg.typeAttr.length ≠ 0 then (nodeDef.attrAt arg.typeAttr).typeField else arg.type
    if arg.numberAttr.length ≠ 0 then List.replicate (nodeDef.attrAt arg.numberAttr).iField.toNat single
    else [single]

/-- The attributes an output argument refers to are declared by the op, and an argument with
neither a `type_attr` nor a `type_list_attr` has a type. -/
structure Declared (opDef : OpDef) (arg : ArgDef) : Prop where
  typeAttr : arg.typeAttr.length ≠ 0 → (findAttr opDef arg.typeAttr).isSome
  typeListAttr : arg.typeAttr.length = 0 → arg.typeListAttr.length ≠ 0 → (findAttr opDef arg.typeListAttr).isSome
  type : arg.typeAttr.length = 0 → arg.typeListAttr.length = 0 → arg.type ≠ 0
  numberAttr : arg.typeAttr.length ≠ 0 ∨ arg.typeListAttr.length = 0 → arg.numberAttr.length ≠ 0 →
    (findAttr opDef arg.numberAttr).isSome

private theorem findAttr_name {opDef : OpDef} {name : String} {attr : AttrDef} (found : findAttr opDef name = some attr) :
    attr.name = name := by
  simpa using List.find?_some found

private theorem argDtypes_single {nodeDef : NodeDef} {arg : ArgDef} (single : listArg arg = false) :
    argDtypes nodeDef arg = [(argDtypes nodeDef arg).headD 0] := by
  simp only [listArg, Bool.or_eq_false_iff, decide_eq_false_iff_not, Bool.and_eq_false_iff, Decidable.not_not] at single
  by_cases typed : arg.typeAttr.length = 0 <;> simp_all [argDtypes]

/-- The value `__get_dtype_proto` gives for a declared output argument. -/
def dtypeProto (nodeDef : NodeDef) (arg : ArgDef) : PyValue :=
  if listArg arg then .list ((argDtypes nodeDef arg).map .int) else .int ((argDtypes nodeDef arg).headD 0)

variable {opDef : OpDef} {nodeDef : NodeDef} {arg : ArgDef}

private theorem getDtypeProto_eq (declared : Declared opDef arg) :
    getDtypeProto nodeDef opDef arg = .ok (dtypeProto nodeDef arg) := by
  have repeated : ∀ dtype : Int, arg.typeAttr.length ≠ 0 ∨ arg.typeListAttr.length = 0 →
      withNumberAttr nodeDef opDef arg (.int dtype) = .ok (if arg.numberAttr.length ≠ 0 then
        .list ((List.replicate (nodeDef.attrAt arg.numberAttr).iField.toNat dtype).map .int) else .int dtype) := by
    intro dtype plain
    by_cases numbered : arg.numberAttr.length = 0
    · simp [withNumberAttr, numbered]
    · obtain ⟨attr, found⟩ := Option.isSome_iff_exists.mp (declared.numberAttr plain numbered)
      simp [withNumberAttr, numbered, found, findAttr_name found, List.map_replicate]
  by_cases typed : arg.typeAttr.length = 0
  · by_cases listed : arg.typeListAttr.length = 0
    · simp only [getDtypeProto, typed, listed, ne_eq, not_true_eq_false, if_false, declared.type typed listed,
        repeated _ (.inr listed)]
      by_cases numbered : arg.numberAttr.length = 0 <;> simp [dtypeProto, listArg, argDtypes, typed, listed, numbered]
    · obtain ⟨attr, found⟩ := Option.isSome_iff_exists.mp (declared.typeListAttr typed listed)
      simp [getDtypeProto, typed, listed, found, findAttr_name found, dtypeProto, listArg, argDtypes]
  · obtain ⟨attr, found⟩ := Option.isSome_iff_exists.mp (declared.typeAttr typed)
    simp only [getDtypeProto, typed, ne_eq, not_false_eq_true, if_true, found, findAttr_name found, repeated _ (.inl typed)]
    by_cases numbered : arg.numberAttr.length = 0 <;> simp [dtypeProto, listArg, argDtypes, typed, numbered]

private theorem asDtype_ints {dtypes : List Int} (registered : ∀ dtype ∈ dtypes, registeredDataType dtype) :
    (dtypes.map PyValue.int).mapM asDtype = .ok dtypes := by
  induction dtypes with
  | nil => rfl
  | cons dtype rest ih =>
    rw [List.map_cons, List.mapM_cons, asDtype_int (registered dtype (List.mem_cons_self _ _)),
      ih fun other member => registered other (List.mem_cons_of_mem _ member)]
    rfl

private theorem asDtype_single (single : listArg arg = false)
    (registered : ∀ dtype ∈ argDtypes nodeDef arg, registeredDataType dtype) :
    asDtype (dtypeProto nodeDef arg) = .ok ((argDtypes nodeDef arg).headD 0) := by
  rw [dtypeProto, if_neg (by simp [single]), asDtype_int (registered _ (argDtypes_single single ▸ List.mem_singleton_self _))]

private theorem asDtype_list (several : listArg arg = true) : asDtype (dtypeProto nodeDef arg) = .error .typeError := by
  simp [dtypeProto, several, asDtype]

private theorem asDtype_singles {args : List ArgDef} (single : ∀ arg ∈ args, listArg arg = false)
    (registered : ∀ arg ∈ args, ∀ dtype ∈ argDtypes nodeDef arg, registeredDataType dtype) :
    (args.map (dtypeProto nodeDef)).mapM asDtype = .ok (args.flatMap (argDtypes nodeDef)) := by
  induction args with
  | nil => rfl
  | cons arg rest ih =>
    have first := single arg (List.mem_cons_self _ _)
    rw [List.map_cons, List.mapM_cons, asDtype_single first (registered arg (List.mem_cons_self _ _)),
      ih (fun other member => single other (List.mem_cons_of_mem _ member))
        (fun other member => registered other (List.mem_cons_of_mem _ member)), List.flatMap_cons,
      argDtypes_single first]
    rfl

/-- `__get_dtypes` gives the flat list of the dtypes of the output arguments, unless the op has
several output arguments and one of them stands for several tensors: that list then reaches
`tf.as_dtype`, which raises `TypeError`. -/
theorem get_dtypes_flat_unless_list_among_several (registry : OpRegistry) (found : registry nodeDef.op = some opDef)
    (declared : ∀ arg ∈ opDef.outputArg, Declared opDef arg)
    (registered : ∀ arg ∈ opDef.outputArg, ∀ dtype ∈ argDtypes nodeDef arg, registeredDataType dtype) :
    getDtypes registry nodeDef =
      if 2 ≤ opDef.outputArg.length ∧ ∃ arg ∈ opDef.outputArg, listArg arg then .error .typeError
      else .ok (opDef.outputArg.flatMap (argDtypes nodeDef)) := by
  have protos := mapM_ok fun arg member =>
    (getDtypeProto_eq (declared arg member) : getDtypeProto nodeDef opDef arg = _)
  simp only [getDtypes, getOpDef, found, ok_bind, protos]
  match args : opDef.outputArg with
  | [] => rfl
  | [arg] =>
    have each := registered arg (by simp [args])
    by_cases several : listArg arg
    · simpa [dtypeProto, several, flattenSingleList] using asDtype_ints each
    · have single : ([arg].map (dtypeProto nodeDef)).mapM asDtype = .ok ([arg].flatMap (argDtypes nodeDef)) :=
        asDtype_singles (by simpa using several) (by simpa using each)
      simpa [several, dtypeProto, flattenSingleList] using single
  | first :: second :: rest =>
    rw [args] at registered
    rw [List.map_cons, List.map_cons, flattenSingleList_cons_cons, ← List.map_cons, ← List.map_cons,
      if_congr (and_iff_right (by simp)) rfl rfl]
    generalize first :: second :: rest = all at registered ⊢
    by_cases several : ∃ arg ∈ all, listArg arg
    · rw [if_pos several]
      apply mapM_error
      · intro item member
        obtain ⟨arg, inside, rfl⟩ := List.mem_map.mp member
        cases isList : listArg arg
        · exact .inl ⟨_, asDtype_single isList (registered arg inside)⟩
        · exact .inr (asDtype_list isList)
      · obtain ⟨arg, inside, isList⟩ := several
        exact ⟨dtypeProto nodeDef arg, List.mem_map_of_mem _ inside, asDtype_list isList⟩
    · rw [if_neg several]
      exact asDtype_singles (fun arg inside => by simpa using fun isList => several ⟨arg, inside, isList⟩) registered

def sparseSplit : OpDef :=
  ⟨"SparseSplit", [{ name := "output_indices", type := 9, numberAttr := "num_split" },
      { name := "output_values", typeAttr := "T", numberAttr := "num_split" },
      { name := "output_shape", type := 9, numberAttr := "num_split" }],
    [{ name := "num_split", type := "int", hasMinimum := true, minimum := 1 }, { name := "T", type := "type" }]⟩

def sparseSplitRegistry : OpRegistry := fun op => if op = "SparseSplit" then some sparseSplit else none

def splitNode : NodeDef :=
  ⟨"split", "SparseSplit", ["split_dim", "indices", "values", "shape"], [("num_split", .i 2), ("T", .type 1)], none⟩

theorem get_dtypes_flat_split_node :
    sparseSplitRegistry splitNode.op = some sparseSplit ∧ (∀ arg ∈ sparseSplit.outputArg, Declared sparseSplit arg) ∧
    (∀ arg ∈ sparseSplit.outputArg, ∀ dtype ∈ argDtypes splitNode arg, registeredDataType dtype) ∧
    getDtypes sparseSplitRegistry splitNode =
      if 2 ≤ sparseSplit.outputArg.length ∧ ∃ arg ∈ sparseSplit.outputArg, listArg arg then .error .typeError
      else .ok (sparseSplit.outputArg.flatMap (argDtypes splitNode)) := by
  have declared : ∀ arg ∈ sparseSplit.outputArg, Declared sparseSplit arg := by
    intro arg member
    simp only [sparseSplit, List.mem_cons, List.mem_singleton, List.not_mem_nil, or_false] at member
    rcases member with rfl | rfl | rfl <;> exact ⟨by decide, by decide, by decide, by decide⟩
  have registered : ∀ arg ∈ sparseSplit.outputArg, ∀ dtype ∈ argDtypes splitNode arg, registeredDataType dtype := by
    decide
  exact ⟨rfl, declared, registered, get_dtypes_flat_unless_list_among_several sparseSplitRegistry rfl declared registered⟩

/-- The six outputs of `splitNode` have the dtypes int64, int64, float, float, int64, int64,
but `__get_dtypes` raises `TypeError`. -/
theorem get_dtypes_sparse_split_raises :
    sparseSplit.outputArg.flatMap (argDtypes splitNode) = [9, 9, 1, 1, 9, 9] ∧
      getDtypes sparseSplitRegistry splitNode = .error .typeError :=
  ⟨rfl, rfl⟩

end SuperScaler.Proofs.Dtypes
