import SuperScaler.TfAdapter

/-! `set_dataset_paths` puts the dataset paths of a worker into the placeholders
`DATASET_PATH:i` that the `TFRecordDataset` wrapper leaves in the graph. It reads each index
with `int` and each path with Python indexing, so negative indices count from the end, and it
checks only how many placeholders it replaced. -/

namespace SuperScaler.Proofs.DatasetPaths
open SuperScaler.TF SuperScaler.Py SuperScaler.TfAdapter

/-- Every placeholder's index is an integer numeral. -/
def Numerals (graphDef : GraphDef) : Prop :=
  ∀ node ∈ graphDef.node, ∀ text ∈ datasetPathFlag node, (parseInt text).isOk

/-- Every placeholder's index can index a list of `count` items, a negative one from the end. -/
def IndicesInRange (graphDef : GraphDef) (count : Nat) : Prop :=
  ∀ node ∈ graphDef.node, ∀ text ∈ datasetPathFlag node, ∀ index ∈ (parseInt text).toOption,
    -(count : Int) ≤ index ∧ index < count

/-- The number of placeholders. -/
def placeholderCount (graphDef : GraphDef) : Nat :=
  (graphDef.node.filter fun node => (datasetPathFlag node).isSome).length

/-- A placeholder of index `i` with `paths[i]` in its place, encoded as UTF-8. -/
def substitutePath (paths : List String) (node : NodeDef) : NodeDef :=
  match datasetPathFlag node, (datasetPathFlag node).bind fun text => (parseInt text).toOption with
  | some _, some index => replaceStringVal node (encodeUtf8 (paths.getD (pyPosition paths.length index) ""))
  | _, _ => node

variable {paths : List String} {node : NodeDef}

private theorem setDatasetPath_other (other : datasetPathFlag node = none) :
    setDatasetPath (paths.map .str) node = .ok (substitutePath paths node, false) := by
  simp [setDatasetPath, substitutePath, other]

private theorem setDatasetPath_inside {text : Bytes} {index : Int} (flag : datasetPathFlag node = some text)
    (parsed : parseInt text = .ok index) (inside : -(paths.length : Int) ≤ index ∧ index < paths.length) :
    setDatasetPath (paths.map .str) node = .ok (substitutePath paths node, true) := by
  have position := (pyPosition_lt_iff paths.length index).mpr inside
  have read : pyIndex (paths.map PyValue.str) index = .ok (.str (paths.getD (pyPosition paths.length index) "")) := by
    rw [pyIndex_inside (by simpa using inside) (.str "")]
    simp [List.getD_eq_getElem?_getD, List.getElem?_eq_getElem position]
  simp [setDatasetPath, substitutePath, flag, parsed, read, makeStr, Except.toOption]

private theorem setDatasetPath_outside {text : Bytes} {index : Int} (flag : datasetPathFlag node = some text)
    (parsed : parseInt text = .ok index) (outside : ¬(-(paths.length : Int) ≤ index ∧ index < paths.length)) :
    setDatasetPath (paths.map .str) node = .error .indexError := by
  have read : pyIndex (paths.map PyValue.str) index = .error .indexError := pyIndex_outside (by simpa using outside)
  simp [setDatasetPath, flag, parsed, read]

private theorem parsed_of_numerals {graphDef : GraphDef} (numerals : Numerals graphDef) (member : node ∈ graphDef.node)
    {text : Bytes} (flag : datasetPathFlag node = some text) : ∃ index, parseInt text = .ok index := by
  have numeral := numerals node member text flag
  cases parsed : parseInt text with
  | ok index => exact ⟨index, rfl⟩
  | error _ => rw [parsed] at numeral; cases numeral

theorem mapM_setDatasetPath_inside {graphDef : GraphDef} (numerals : Numerals graphDef)
    (inRange : IndicesInRange graphDef paths.length) :
    graphDef.node.mapM (setDatasetPath (paths.map .str)) =
      .ok (graphDef.node.map fun node => (substitutePath paths node, (datasetPathFlag node).isSome)) := by
  refine mapM_ok fun node member => ?_
  cases flag : datasetPathFlag node with
  | none => exact setDatasetPath_other flag
  | some text =>
    obtain ⟨index, parsed⟩ := parsed_of_numerals numerals member flag
    exact setDatasetPath_inside flag parsed (inRange node member text flag index (by simp [parsed, Except.toOption]))

theorem mapM_setDatasetPath_outside {graphDef : GraphDef} (numerals : Numerals graphDef)
    (outOfRange : ¬ IndicesInRange graphDef paths.length) :
    graphDef.node.mapM (setDatasetPath (paths.map .str)) = .error .indexError := by
  apply mapM_error
  · intro node member
    cases flag : datasetPathFlag node with
    | none => exact .inl ⟨_, setDatasetPath_other flag⟩
    | some text =>
      obtain ⟨index, parsed⟩ := parsed_of_numerals numerals member flag
      by_cases inside : -(paths.length : Int) ≤ index ∧ index < paths.length
      · exact .inl ⟨_, setDatasetPath_inside flag parsed inside⟩
      · exact .inr (setDatasetPath_outside flag parsed inside)
  · simp only [IndicesInRange, not_forall] at outOfRange
    obtain ⟨node, member, text, flag, index, parsed, outside⟩ := outOfRange
    have parsed' : parseInt text = .ok index := by
      cases found : parseInt text <;> simp_all [Except.toOption]
    exact ⟨node, member, setDatasetPath_outside flag parsed' outside⟩

/-- `set_dataset_paths` on a list of strings returns exactly when every placeholder index is in
`[-len(paths), len(paths))` and there are `len(paths)` placeholders; it then replaces each
placeholder of index `i` by `paths[i]` and leaves everything else as it was. -/
theorem set_dataset_paths_returns_iff (graphDef : GraphDef) (paths : List String) (numerals : Numerals graphDef) :
    ((∃ result, setDatasetPaths graphDef (paths.map .str) = .ok result) ↔
      IndicesInRange graphDef paths.length ∧ placeholderCount graphDef = paths.length) ∧
    ∀ result, setDatasetPaths graphDef (paths.map .str) = .ok result → result = ⟨graphDef.node.map (substitutePath paths)⟩ := by
  by_cases inRange : IndicesInRange graphDef paths.length
  · have counted : ((graphDef.node.map fun node => (substitutePath paths node, (datasetPathFlag node).isSome)).filter
        (·.2)).length = placeholderCount graphDef := by
      simp [placeholderCount, List.filter_map, Function.comp_def]
    simp only [setDatasetPaths]
    rw [mapM_setDatasetPath_inside numerals inRange]
    simp only [ok_bind, counted, List.map_map, Function.comp_def, inRange, true_and]
    by_cases count : placeholderCount graphDef = paths.length
    · simp [count]
    · simp [count, throw, throwThe, MonadExceptOf.throw]
  · simp only [setDatasetPaths]
    rw [mapM_setDatasetPath_outside numerals inRange]
    simp [inRange]

/-- The `Const` node that holds the file names of a `TFRecordDataset`. -/
def fileNames (text : String) : NodeDef :=
  ⟨"dataset/filenames", "Const", [], [("dtype", .type 7), ("value", .tensor ⟨[encodeUtf8 text], []⟩)], none⟩

def lastPathGraph : GraphDef := ⟨[fileNames "DATASET_PATH:-1"]⟩

theorem set_dataset_paths_last_path :
    Numerals lastPathGraph ∧
    (((∃ result, setDatasetPaths lastPathGraph (["train.tfrecord"].map .str) = .ok result) ↔
      IndicesInRange lastPathGraph 1 ∧ placeholderCount lastPathGraph = 1) ∧
    ∀ result, setDatasetPaths lastPathGraph (["train.tfrecord"].map .str) = .ok result →
      result = ⟨lastPathGraph.node.map (substitutePath ["train.tfrecord"])⟩) :=
  have numerals : Numerals lastPathGraph := by unfold Numerals; decide
  ⟨numerals, set_dataset_paths_returns_iff lastPathGraph ["train.tfrecord"] numerals⟩

/-- The placeholder of index `-1` is not among `0, …, len(paths) - 1`, yet `set_dataset_paths`
returns and puts the last path in its place. -/
theorem set_dataset_paths_accepts_negative_index :
    datasetPathFlag (fileNames "DATASET_PATH:-1") = some (encodeUtf8 "-1") ∧ parseInt (encodeUtf8 "-1") = .ok (-1) ∧
      setDatasetPaths lastPathGraph [.str "train.tfrecord"] = .ok ⟨[fileNames "train.tfrecord"]⟩ :=
  ⟨rfl, rfl, rfl⟩

end SuperScaler.Proofs.DatasetPaths
