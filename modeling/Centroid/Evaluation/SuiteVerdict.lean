import Centroid.Evaluation.Harness
import Centroid.Lib.WeightedMean
import Mathlib.Algebra.BigOperators.Ring.Finset
import Mathlib.Tactic.Linarith

namespace Centroid

open Raises Rounding

/-- A probe under its name in a fixture, with the name of its metric and the
score at which it passes. -/
structure ProbeRow where
  probeName : String
  metric : String
  minimum : ℚ

def expandedProbeNames : List String := [
  "memory_append_tail_compat", "memory_search_returns_results", "memory_search_relevance_ordering",
  "memory_pyramid_tier_assignment", "memory_compact_evicts_lowest", "memory_index_rebuilds_on_init",
  "self_model_health_ratio_bounds", "self_model_status_reflects_ratio", "self_model_tick_produces_snapshot",
  "self_model_anomaly_detection_fires", "self_model_fault_tolerant_collect",
  "self_model_backward_compat_no_sources", "coherence_graph_loads_yaml", "coherence_propagation_clamped",
  "coherence_suppresses_edge", "coherence_index_scalar_bounds", "coherence_tick_writes_snapshot",
  "coherence_simulate_no_disk_write", "planner_forecast_three_horizons", "planner_forecast_ids_unique",
  "planner_calibration_updates_mae", "planner_calibration_persists", "planner_thread_lifecycle",
  "planner_feedback_resolves", "simulation_fork_isolated", "simulation_intervention_applies",
  "simulation_divergence_zero", "simulation_preflight_escalates", "simulation_preflight_no_disk_write",
  "sensory_code_encoder_extracts", "sensory_telemetry_qualifiers", "sensory_encoder_truncates",
  "sensory_projector_similarity_self", "sensory_pipeline_startup_scan", "fusion_concept_graph_builds",
  "fusion_stopwords_filtered", "fusion_bridge_detector_finds", "fusion_bridge_score_bounds",
  "fusion_synthesis_fallback"]

/-- The probes that count cases. -/
def caseProbes : List ProbeRow := [
  ⟨"action_correction", "action_correction_timing", 1⟩,
  ⟨"config_audit_provenance", "config_audit_provenance", 1⟩,
  ⟨"configured_agent_cli_execution", "configured_agent_cli_execution", 1⟩,
  ⟨"configured_memory_retention_variation", "configured_memory_retention_variation", 1⟩,
  ⟨"configured_priority_route_variation", "configured_priority_route_variation", 1⟩,
  ⟨"configured_safety_outcome_variation", "configured_safety_outcome_variation", 1⟩,
  ⟨"continuity", "identity_continuity", 4 / 5⟩,
  ⟨"distributed_coordination", "distributed_coordination", 1⟩,
  ⟨"holly_config_load", "holly_config_load", 1⟩,
  ⟨"holly_backward_compatibility", "holly_backward_compatibility", 1⟩,
  ⟨"holly_identity_drift_stability", "holly_identity_drift_stability", 1⟩,
  ⟨"holly_project_state_restore", "holly_project_state_restore", 1⟩,
  ⟨"holly_safety_gate_enforcement", "holly_safety_gate_enforcement", 1⟩,
  ⟨"holly_template_customization", "holly_template_customization", 1⟩,
  ⟨"holly_temporal_reconciliation", "holly_temporal_reconciliation", 1⟩,
  ⟨"provider_cli_mock_execution", "provider_cli_mock_execution", 1⟩,
  ⟨"memory", "memory_store_roundtrip", 1⟩,
  ⟨"memory_drift", "memory_drift", 1⟩,
  ⟨"mock_provider_runtime_execution", "mock_provider_runtime_execution", 1⟩,
  ⟨"model_adapter_contract_normalization", "model_adapter_contract_normalization", 1⟩,
  ⟨"model_tool_proposal_safety_gate", "model_tool_proposal_safety_gate", 1⟩,
  ⟨"priority", "priority_scoring_bounds", 1⟩,
  ⟨"provider_audit_secret_redaction", "provider_audit_secret_redaction", 1⟩,
  ⟨"provider_capability_enforcement", "provider_capability_enforcement", 1⟩,
  ⟨"reconciliation", "narrative_reconciliation_delay", 1⟩,
  ⟨"routing", "routing_decision_accuracy", 1⟩,
  ⟨"safety", "safety_policy_accuracy", 1⟩,
  ⟨"self_model", "self_model_status_accuracy", 1⟩,
  ⟨"temporal", "temporal_stratification_latency", 4 / 5⟩]

/-- `PROBES`. -/
def probeRows : List ProbeRow := caseProbes ++ expandedProbeNames.map fun name => ⟨name, name, 1⟩

/-- What a probe has found when it comes to its score. An expanded probe has one
case. -/
structure ProbeCount where
  passing : ℕ
  total : ℕ
  details : String

section

variable (find : String → Json → Except EvaluationError ProbeCount)

/-- A probe, from what it finds. -/
def ProbeRow.probe (self : ProbeRow) : Probe := fun cases => do
  let found ← find self.probeName cases
  let score : ℚ := if found.total ≠ 0 then found.passing / found.total else 0
  return passAt self.metric score self.minimum found.details

def probeTable : Key JsonNumber → Option Probe
  | .str name => (probeRows.find? fun row => row.probeName = name).map (ProbeRow.probe find)
  | _ => none

end

/-- What `safety_probe` finds. -/
def safetyCount (secret : String → Bool) (lower : String → String) (cases : Json) : Except EvaluationError ProbeCount :=
  if cases.iterable then do
    let total := cases.items.length
    let correct ← countCorrect secret lower cases.items
    return ⟨correct, total, s!"{correct}/{total} cases correct"⟩
  else .error .typeError

theorem probe_safetyCount (secret : String → Bool) (lower : String → String) :
    ProbeRow.probe (fun _ => safetyCount secret lower) ⟨"safety", "safety_policy_accuracy", 1⟩ =
      safetyProbe secret lower := by
  funext cases
  unfold ProbeRow.probe safetyProbe
  dsimp only [safetyCount]
  split
  · cases countCorrect secret lower (Value.items cases) <;> rfl
  · rfl

/-- How `main` raises. -/
inductive SuiteError where
  | unknownSuite (suite : String)
  | unreadable (path : String)
  | evaluation (error : EvaluationError)

def suiteFixtures : List (String × String) := [
  ("baseline", "evaluation/fixtures/baseline.json"),
  ("memory", "evaluation/fixtures/memory.json"),
  ("self_model", "evaluation/fixtures/self_model.json"),
  ("coherence", "evaluation/fixtures/coherence.json"),
  ("planner", "evaluation/fixtures/planner.json"),
  ("simulation", "evaluation/fixtures/simulation.json"),
  ("sensory", "evaluation/fixtures/sensory.json"),
  ("fusion", "evaluation/fixtures/fusion.json")]

/-- The names and the paths of the fixtures to run. A fixture that is named itself
comes with the stem of its path. -/
def resolveSuiteFixtures (suite : String) : Option (String × String) → Except SuiteError (List (String × String))
  | some fixture => .ok [fixture]
  | none =>
    if suite = "all" then .ok suiteFixtures
    else
      match Assoc.get? suiteFixtures suite with
      | some path => .ok [(suite, path)]
      | none => .error (.unknownSuite suite)

/-- What is parsed of the command line. -/
structure SuiteArguments where
  fixture : Option (String × String) := none
  suite : String := "baseline"
  minimumScore : ℚ := 17 / 20

structure SuiteTotal where
  passed : Bool
  score : ℚ
  probes : ℕ

/-- The reports of the suites, what is printed of them together, and the exit
code. -/
structure SuiteOutcome where
  reports : List (String × EvaluationReport)
  total : SuiteTotal
  exitCode : ℕ

def probeCount (report : EvaluationReport) : ℕ := report.results.length

def suiteTotal (reports : List EvaluationReport) : SuiteTotal where
  passed := reports.all EvaluationReport.passed
  score := roundTo 4 ((reports.map fun report => report.score * probeCount report).sum /
    max 1 ((reports.map probeCount).sum : ℕ))
  probes := (reports.map probeCount).sum

section

variable (find : String → Json → Except EvaluationError ProbeCount) (load : String → Option Json)

/-- `run_file`; `load` is the parsed text of a resource or file. -/
def EvaluationHarness.runFile (self : EvaluationHarness) (fixturePath : String) : Except SuiteError EvaluationReport :=
  match load fixturePath with
  | none => .error (.unreadable fixturePath)
  | some (.dict fixture) => (self.runFixture (probeTable find) fixture).mapError .evaluation
  | some _ => .error (.evaluation .attributeError)

def suiteMain (args : SuiteArguments) : Except SuiteError SuiteOutcome := do
  let harness : EvaluationHarness := ⟨args.minimumScore⟩
  let specs ← resolveSuiteFixtures args.suite args.fixture
  let reports ← specs.mapM fun spec => do return (spec.1, ← harness.runFile find load spec.2)
  let evaluated := reports.map Prod.snd
  return ⟨reports, suiteTotal evaluated, if evaluated.all EvaluationReport.passed then 0 else 1⟩

end

/-- The metrics that four of five cases are enough for. -/
def isLenient (metric : String) : Bool := metric = "identity_continuity" || metric = "temporal_stratification_latency"

theorem probeRows_minimum : ∀ row ∈ probeRows,
    row.minimum = (if isLenient row.metric then 4 / 5 else 1) ∧
      (isLenient row.metric = true → row.probeName ∈ ["continuity", "temporal"]) := by
  decide +kernel

theorem clampScore_mono {x y : ℚ} (le : x ≤ y) : clampScore x ≤ clampScore y := roundTo_mono 4 (clamp01_mono le)

/-- The names of a fixture that may come with a lenient metric. -/
def mayBeLenient (probeName : Key JsonNumber) : Bool := probeName = .str "continuity" || probeName = .str "temporal"

section

variable {find : String → Json → Except EvaluationError ProbeCount}

/-- A probe that passes has the minimum of its row. -/
theorem runProbe_spec {entry : Key JsonNumber × Json} {result : MetricResult}
    (run : EvaluationHarness.runProbe (probeTable find) entry = .ok result) :
    (isLenient result.name = true → mayBeLenient entry.1 = true) ∧
      (result.passed = true → (if isLenient result.name then 4 / 5 else 1) ≤ result.score) := by
  obtain ⟨probeName, cases⟩ := entry
  unfold EvaluationHarness.runProbe at run
  split at run
  · cases run
  · rename_i probe found
    cases probeName with
    | str name =>
      obtain ⟨row, at_, rfl⟩ := Option.map_eq_some_iff.mp found
      have member := List.mem_of_find?_eq_some at_
      have named : row.probeName = name := by simpa using List.find?_some at_
      obtain ⟨minimum, lenient⟩ := probeRows_minimum row member
      obtain ⟨count, _, returned⟩ := bind_eq_ok run
      cases returned
      refine ⟨?_, ?_⟩
      · intro isLenient
        have known := lenient isLenient
        rw [named] at known
        rcases List.mem_cons.mp known with rfl | known
        · rfl
        · rw [List.mem_singleton.mp known]
          rfl
      · intro passes
        have reached := of_decide_eq_true passes
        rw [minimum] at reached
        exact reached
    | _ => cases found

/-- No more than two of the results have a lenient metric. -/
theorem countP_isLenient_le {entries : List (Key JsonNumber × Json)} {results : List MetricResult}
    (distinct : (entries.map Prod.fst).Nodup)
    (run : List.Forall₂ (fun entry result => EvaluationHarness.runProbe (probeTable find) entry = .ok result)
      entries results) :
    results.countP (fun result => isLenient result.name) ≤ 2 := by
  have fewer : results.countP (fun result => isLenient result.name) ≤ (entries.map Prod.fst).countP mayBeLenient := by
    clear distinct
    induction run with
    | nil => exact le_rfl
    | @cons entry result entries results head tail ih =>
      rw [List.countP_cons, List.map_cons, List.countP_cons]
      refine Nat.add_le_add ih ?_
      split
      · rename_i lenient
        rw [if_pos ((runProbe_spec head).1 lenient)]
      · exact Nat.zero_le _
  have names : ((entries.map Prod.fst).filter mayBeLenient) ⊆ [.str "continuity", .str "temporal"] := by
    intro probeName member
    have may := (List.mem_filter.mp member).2
    simpa [mayBeLenient] using may
  have two := (List.subperm_of_subset (distinct.filter _) names).length_le
  rw [← List.countP_eq_length_filter] at two
  exact fewer.trans two

end

/-- Where all pass, the sum of the scores falls short of their number by no more
than a fifth for each lenient metric. -/
theorem sum_scores_of_passed {results : List MetricResult}
    (reached : ∀ result ∈ results, (if isLenient result.name then 4 / 5 else 1) ≤ result.score) :
    (results.length : ℚ) - results.countP (fun result => isLenient result.name) / 5 ≤
      (results.map MetricResult.score).sum := by
  induction results with
  | nil => simp
  | cons result results ih =>
    have rest := ih fun later member => reached later (List.mem_cons_of_mem _ member)
    have head := reached result List.mem_cons_self
    rw [List.map_cons, List.sum_cons, List.length_cons, List.countP_cons]
    split at head
    · rename_i lenient
      rw [if_pos lenient]
      push_cast
      linarith
    · rename_i strict
      rw [if_neg strict]
      push_cast
      linarith

/-- Where all pass and one is not lenient, the score of the suite is at least
thirteen of fifteen. -/
theorem le_weightedScore {results : List MetricResult}
    (reached : ∀ result ∈ results, (if isLenient result.name then 4 / 5 else 1) ≤ result.score)
    (few : results.countP (fun result => isLenient result.name) ≤ 2)
    (mixed : ¬ ∀ result ∈ results, isLenient result.name = true) :
    13 / 15 ≤ EvaluationHarness.weightedScore results := by
  have below : results.countP (fun result => isLenient result.name) < results.length := by
    refine lt_of_le_of_ne List.countP_le_length ?_
    intro all
    exact mixed (List.countP_eq_length.mp all)
  have some : results.isEmpty = false := by
    cases results with
    | nil => exact absurd below (Nat.lt_irrefl 0)
    | cons result results => rfl
  have count : (0 : ℚ) < results.length := by exact_mod_cast (Nat.zero_le _).trans_lt below
  have share : (13 : ℚ) / 15 ≤ (results.map MetricResult.score).sum / results.length := by
    rw [le_div_iff₀ count]
    have sum := sum_scores_of_passed reached
    have room : (3 * results.countP (fun result => isLenient result.name) : ℚ) ≤ 2 * results.length := by
      exact_mod_cast (by omega : 3 * results.countP (fun result => isLenient result.name) ≤ 2 * results.length)
    linarith
  have rounded : (13 : ℚ) / 15 ≤ clampScore (13 / 15) := by decide +kernel
  unfold EvaluationHarness.weightedScore
  rw [some]
  exact rounded.trans (clampScore_mono share)

/-- What a suite must do to pass. Its score counts only where it has no other
than lenient metrics. -/
def EvaluationReport.Passes (minimumScore : ℚ) (report : EvaluationReport) : Prop :=
  report.results ≠ [] ∧ (∀ result ∈ report.results, result.passed = true) ∧
    ((∀ result ∈ report.results, isLenient result.name = true) → minimumScore ≤ report.score)

theorem runFixture_passed_iff {find : String → Json → Except EvaluationError ProbeCount} {self : EvaluationHarness}
    (low : 0 < self.minimumScore) (high : self.minimumScore ≤ 13 / 15) {fixture : JsonObject}
    {report : EvaluationReport}
    (distinct : ∀ entries, JsonObject.getD fixture "probes" (.dict []) = .dict entries → (entries.map Prod.fst).Nodup)
    (run : self.runFixture (probeTable find) fixture = .ok report) :
    report.passed = true ↔ report.Passes self.minimumScore := by
  unfold EvaluationHarness.runFixture at run
  split at run
  · rename_i entries listed
    obtain ⟨results, ran, rest⟩ := bind_eq_ok run
    cases rest
    have each := forall₂_of_mapM ran
    have few := countP_isLenient_le (distinct entries listed) each
    unfold EvaluationReport.Passes
    dsimp only
    rw [Bool.and_eq_true, decide_eq_true_eq, List.all_eq_true]
    constructor
    · rintro ⟨score, all⟩
      refine ⟨?_, all, fun _ => score⟩
      rintro rfl
      exact absurd score (not_le.mpr low)
    · rintro ⟨some, all, lenient⟩
      refine ⟨?_, all⟩
      by_cases only : ∀ result ∈ results, isLenient result.name = true
      · exact lenient only
      · refine high.trans (le_weightedScore ?_ few only)
        intro result member
        obtain ⟨entry, _, returned⟩ := exists_of_mem_mapM ran member
        exact (runProbe_spec returned).2 (all result member)
  · cases run

theorem minimumScore_le_of_passed {probes : Key JsonNumber → Option Probe} {self : EvaluationHarness}
    {fixture : JsonObject} {report : EvaluationReport} (run : self.runFixture probes fixture = .ok report)
    (passes : report.passed = true) : self.minimumScore ≤ report.score := by
  unfold EvaluationHarness.runFixture at run
  split at run
  · obtain ⟨results, _, rest⟩ := bind_eq_ok run
    cases rest
    exact of_decide_eq_true (Bool.and_eq_true_iff.mp passes).1
  · cases run

theorem le_suiteTotal_score {reports : List EvaluationReport} (some : reports ≠ []) {minimumScore : ℚ}
    (nonempty : ∀ report ∈ reports, report.results ≠ []) (reached : ∀ report ∈ reports, minimumScore ≤ report.score) :
    roundTo 4 minimumScore ≤ (suiteTotal reports).score := by
  have positive : ∀ report ∈ reports, (0 : ℚ) < probeCount report := by
    intro report member
    exact_mod_cast List.length_pos_iff.mpr (nonempty report member)
  have mean := WeightedMean.le_mean positive some reached
  have whole : ((reports.map probeCount).sum : ℕ) =
      WeightedMean.total (fun report => (probeCount report : ℚ)) reports := by
    rw [WeightedMean.total, Nat.cast_list_sum, List.map_map]
    rfl
  have one : 1 ≤ (reports.map probeCount).sum := by
    have large := WeightedMean.total_pos positive some
    rw [← whole] at large
    exact_mod_cast large
  refine roundTo_mono 4 ?_
  rw [max_eq_right one, whole]
  exact mean

theorem resolveSuiteFixtures_ne_nil {suite : String} {fixture : Option (String × String)}
    {specs : List (String × String)} (resolved : resolveSuiteFixtures suite fixture = .ok specs) : specs ≠ [] := by
  unfold resolveSuiteFixtures at resolved
  split at resolved
  · cases resolved
    exact List.cons_ne_nil _ _
  · split at resolved
    · cases resolved
      exact List.cons_ne_nil _ _
    · split at resolved
      · cases resolved
        exact List.cons_ne_nil _ _
      · cases resolved

/-- For a minimum up to thirteen of fifteen, the exit code is zero exactly when
every suite has a probe, has none that fails, and, if it has none but
`continuity` and `temporal`, reaches the minimum. Then the total reaches it as
well. -/
theorem suiteMain_exitCode_iff (find : String → Json → Except EvaluationError ProbeCount) (load : String → Option Json)
    (args : SuiteArguments) (low : 0 < args.minimumScore) (high : args.minimumScore ≤ 13 / 15)
    (distinct : ∀ path fixture entries, load path = some (.dict fixture) →
      JsonObject.getD fixture "probes" (.dict []) = .dict entries → (entries.map Prod.fst).Nodup)
    {outcome : SuiteOutcome} (ran : suiteMain find load args = .ok outcome) :
    (outcome.exitCode = 0 ↔ ∀ suite ∈ outcome.reports, suite.2.Passes args.minimumScore) ∧
      (outcome.exitCode = 0 →
        outcome.total.passed = true ∧ roundTo 4 args.minimumScore ≤ outcome.total.score) := by
  obtain ⟨specs, resolved, rest⟩ := bind_eq_ok ran
  obtain ⟨reports, evaluated, same⟩ := bind_eq_ok rest
  cases same
  have each : ∀ suite ∈ reports, (suite.2.passed = true ↔ suite.2.Passes args.minimumScore) ∧
      (suite.2.passed = true → args.minimumScore ≤ suite.2.score) := by
    intro suite member
    obtain ⟨spec, _, returned⟩ := exists_of_mem_mapM evaluated member
    obtain ⟨report, file, isSuite⟩ := bind_eq_ok returned
    cases isSuite
    unfold EvaluationHarness.runFile at file
    split at file
    · cases file
    · rename_i fixture loaded
      cases outcome : EvaluationHarness.runFixture ⟨args.minimumScore⟩ (probeTable find) fixture with
      | error error =>
        rw [outcome] at file
        cases file
      | ok made =>
        rw [outcome] at file
        cases file
        refine ⟨?_, minimumScore_le_of_passed outcome⟩
        exact runFixture_passed_iff low high (fun entries => distinct spec.2 fixture entries loaded) outcome
    · cases file
  have zero : (if (reports.map Prod.snd).all EvaluationReport.passed then 0 else 1) = 0 ↔
      ∀ suite ∈ reports, suite.2.passed = true := by
    rw [List.all_map]
    constructor
    · intro code
      split at code
      · rename_i all
        exact List.all_eq_true.mp all
      · cases code
    · intro all
      exact if_pos (List.all_eq_true.mpr all)
  dsimp only
  refine ⟨?_, ?_⟩
  · rw [zero]
    exact forall₂_congr fun suite member => (each suite member).1
  · intro code
    have all := zero.mp code
    have passes : ∀ report ∈ reports.map Prod.snd, report.passed = true := List.forall_mem_map.mpr all
    refine ⟨List.all_eq_true.mpr passes, ?_⟩
    refine le_suiteTotal_score ?_ ?_ ?_
    · have some := resolveSuiteFixtures_ne_nil resolved
      have length := (forall₂_of_mapM evaluated).length_eq
      intro none
      rw [List.map_eq_nil_iff] at none
      rw [none] at length
      exact some (List.length_eq_zero_iff.mp length)
    · refine List.forall_mem_map.mpr ?_
      intro suite member
      exact ((each suite member).1.mp (all suite member)).1
    · refine List.forall_mem_map.mpr ?_
      intro suite member
      exact (each suite member).2 (all suite member)

/-- Four of five cases of `continuity`, and the case of `safety`. -/
def fourOfFive : String → Json → Except EvaluationError ProbeCount
  | "continuity", _ => .ok ⟨4, 5, "4/5 cases within drift limit"⟩
  | _, _ => .ok ⟨1, 1, "1/1 cases correct"⟩

def twoProbes : JsonObject := [(.str "probes", .dict [(.str "continuity", .list []), (.str "safety", .list [])])]

theorem suiteMain_exitCode_iff_fourOfFive :
    ∃ outcome, suiteMain fourOfFive (fun _ => some (.dict twoProbes)) {} = .ok outcome ∧
    (outcome.exitCode = 0 ↔ ∀ suite ∈ outcome.reports, suite.2.Passes (17 / 20)) ∧
      (outcome.exitCode = 0 → outcome.total.passed = true ∧ roundTo 4 (17 / 20) ≤ outcome.total.score) := by
  refine ⟨_, rfl, suiteMain_exitCode_iff fourOfFive (fun _ => some (.dict twoProbes)) {} (by decide +kernel)
    (by decide +kernel) ?_ rfl⟩
  intro path fixture entries loaded listed
  cases loaded
  cases listed
  decide

end Centroid
