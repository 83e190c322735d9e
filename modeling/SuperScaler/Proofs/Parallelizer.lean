import SuperScaler.Parallelization

/-! How many graphs the parallelizer ends with. Every call of `run_on_graph` starts
`parallel_graphs` afresh, so a stage keeps only the copies made from its last graph. -/

namespace SuperScaler.Proofs.Parallelizer
open SuperScaler.Py SuperScaler.IR SuperScaler.Parallelization DataParallelism Parallelizer

private theorem runOnGraph_ok {parallelism : DataParallelism} {graph : Graph} {result : Bool × DataParallelism × Graph}
    (ran : parallelism.runOnGraph graph = some (.ok result)) :
    result.1 = true ∧ result.2.1.devices = parallelism.devices ∧
      ∃ rewritten, result.2.1.parallelGraphs = some (List.replicate parallelism.devices.length rewritten) := by
  simp only [runOnGraph, Option.map_eq_some'] at ran
  obtain ⟨walked, _, mapped⟩ := ran
  cases walked with
  | error => cases mapped
  | ok rewritten =>
    cases mapped
    exact ⟨rfl, rfl, rewritten, rfl⟩

private theorem runStage_ok {parallelism after : DataParallelism} {graphs : List Graph}
    (ran : runStage parallelism graphs = some (.ok after)) :
    after.devices = parallelism.devices ∧
      (graphs = [] → after = parallelism) ∧
      (graphs ≠ [] → ∃ copies, after.parallelGraphs = some copies ∧ copies.length = parallelism.devices.length) := by
  induction graphs generalizing parallelism with
  | nil =>
    cases ran
    exact ⟨rfl, fun _ => rfl, fun nonempty => absurd rfl nonempty⟩
  | cons graph rest ih =>
    simp only [runStage] at ran
    split at ran
    next succeeded strategy rewritten once =>
      obtain ⟨accepted, devices, rewritten', copies⟩ := runOnGraph_ok once
      simp only at accepted devices copies
      subst accepted
      obtain ⟨sameDevices, emptyRest, nonemptyRest⟩ := ih ran
      refine ⟨sameDevices.trans devices, fun impossible => absurd impossible (List.cons_ne_nil _ _), fun _ => ?_⟩
      by_cases more : rest = []
      · subst more
        cases ran
        exact ⟨_, copies, by simp [devices]⟩
      · obtain ⟨later, stored, length⟩ := nonemptyRest more
        exact ⟨later, stored, length.trans (by rw [devices])⟩
    all_goals cases ran

private theorem runFrom_length (strategies : List DataParallelism) (graphs : List Graph)
    (fresh : ∀ strategy ∈ strategies, strategy.parallelGraphs = none) (nonempty : strategies ≠ [])
    {done : List DataParallelism} {final : List Graph}
    (ran : runFrom strategies graphs = some (.ok (done, final))) :
    final.length = (strategies.getLast nonempty).devices.length := by
  induction strategies generalizing graphs done with
  | nil => exact absurd rfl nonempty
  | cons strategy rest ih =>
    simp only [runFrom] at ran
    split at ran
    next after stage =>
      obtain ⟨devices, emptyStage, nonemptyStage⟩ := runStage_ok stage
      split at ran
      next copies stored =>
        by_cases noGraphs : graphs = []
        · rw [emptyStage noGraphs, fresh strategy (List.mem_cons_self _ _)] at stored
          cases stored
        obtain ⟨copies', stored', length⟩ := nonemptyStage noGraphs
        rw [stored] at stored'
        cases stored'
        by_cases last : rest = []
        · subst last
          simp only [runFrom, Option.map_some', Except.map, Option.some.injEq, Except.ok.injEq, Prod.mk.injEq] at ran
          rw [← ran.2, length]
          simp
        · simp only [Option.map_eq_some'] at ran
          obtain ⟨result, later, mapped⟩ := ran
          cases result with
          | error => cases mapped
          | ok pair =>
            obtain ⟨done', final'⟩ := pair
            cases mapped
            rw [List.getLast_cons last]
            exact ih copies (fun other member => fresh other (List.mem_cons_of_mem _ member)) last later
      next => cases ran
    all_goals cases ran

/-- For freshly registered strategies, a run of `run_parallelisms` that returns ends with as
many graphs as the last strategy has devices, whatever the earlier device counts. -/
theorem run_parallelisms_keeps_last_stage (parallelizer : Parallelizer)
    (fresh : ∀ strategy ∈ parallelizer.parallelisms, strategy.parallelGraphs = none)
    (nonempty : parallelizer.parallelisms ≠ []) {result : Parallelizer}
    (ran : parallelizer.runParallelisms = some (.ok result)) :
    result.graphs.length = (parallelizer.parallelisms.getLast nonempty).devices.length := by
  simp only [runParallelisms, Option.map_eq_some'] at ran
  obtain ⟨outcome, ran, mapped⟩ := ran
  cases outcome with
  | error => cases mapped
  | ok pair =>
    cases mapped
    exact runFrom_length _ _ fresh nonempty ran

def twoStages : Parallelizer :=
  ((Parallelizer.init ⟨[]⟩).registerParallelism ⟨["gpu0", "gpu1"], none⟩).registerParallelism ⟨["gpu0", "gpu1"], none⟩

theorem run_parallelisms_two_stages_keep_two :
    (∀ strategy ∈ twoStages.parallelisms, strategy.parallelGraphs = none) ∧
    twoStages.runParallelisms =
      some (.ok ⟨[⟨["gpu0", "gpu1"], some [⟨[]⟩, ⟨[]⟩]⟩, ⟨["gpu0", "gpu1"], some [⟨[]⟩, ⟨[]⟩]⟩], [⟨[]⟩, ⟨[]⟩]⟩) ∧
    ([⟨[]⟩, ⟨[]⟩] : List Graph).length = (twoStages.parallelisms.getLast (by simp [twoStages, registerParallelism])).devices.length := by
  have fresh : ∀ strategy ∈ twoStages.parallelisms, strategy.parallelGraphs = none := by
    simp [twoStages, registerParallelism, init]
  have ran : twoStages.runParallelisms =
      some (.ok ⟨[⟨["gpu0", "gpu1"], some [⟨[]⟩, ⟨[]⟩]⟩, ⟨["gpu0", "gpu1"], some [⟨[]⟩, ⟨[]⟩]⟩], [⟨[]⟩, ⟨[]⟩]⟩) := rfl
  exact ⟨fresh, ran, run_parallelisms_keeps_last_stage twoStages fresh _ ran⟩

/-- On `twoStages` the run ends with two graphs, not four. -/
theorem run_parallelisms_two_stages :
    twoStages.runParallelisms.map (·.map (·.graphs.length)) = some (.ok 2) := rfl

end SuperScaler.Proofs.Parallelizer
