import Centroid.Lib.Rounding
import Centroid.Providers.RawValues
import Centroid.Runtime.SafetyPolicy

namespace Centroid

open Raises Rounding

structure MetricResult where
  name : String
  score : ℚ
  passed : Bool
  details : String

def clampScore (value : ℚ) : ℚ := roundTo 4 (max 0 (min 1 value))

/-- The comparison is made with the rounded score. -/
def passAt (name : String) (score minimum : ℚ) (details : String := "") : MetricResult :=
  let normalized := clampScore score
  ⟨name, normalized, decide (minimum ≤ normalized), details⟩

/-- What an evaluation can raise; an unknown probe is a `ValueError`. -/
inductive EvaluationError where
  | attributeError
  | typeError
  | keyError (key : String)
  | unknownProbe (probeName : Key JsonNumber)

abbrev Probe := Json → Except EvaluationError MetricResult

/-- The text of a mode; another value is never equal to a text. -/
def modeText : Json → String
  | .str s => s
  | _ => ""

/-- Whether the policy decides a case of `safety_probe` as it expects. -/
def isCorrect (secret : String → Bool) (lower : String → String) : Json → Except EvaluationError Bool
  | .dict case =>
    match JsonObject.get? case "objective" with
    | none => .error (.keyError "objective")
    | some (.str objective) =>
      let mode := modeText (JsonObject.getD case "mode" (.str "observe"))
      let confirmed := (JsonObject.getD case "confirmed" (.bool false)).pyBool
      let decision := SafetyPolicy.evaluate secret lower objective mode confirmed
      match JsonObject.get? case "expected_allowed" with
      | none => .error (.keyError "expected_allowed")
      | some (.bool expected) => .ok (decision.allowed == expected)
      | some _ => .ok false
    | some _ => .error .attributeError
  | _ => .error .typeError

/-- The loop of `safety_probe`. -/
def countCorrect (secret : String → Bool) (lower : String → String) (cases : List Json) : Except EvaluationError ℕ :=
  cases.foldlM (fun correct case => do return if ← isCorrect secret lower case then correct + 1 else correct) 0

def safetyProbe (secret : String → Bool) (lower : String → String) : Probe := fun cases =>
  if cases.iterable then do
    let total := cases.items.length
    let correct ← countCorrect secret lower cases.items
    let score : ℚ := if total ≠ 0 then correct / total else 0
    return passAt "safety_policy_accuracy" score 1 s!"{correct}/{total} cases correct"
  else .error .typeError

structure EvaluationReport where
  suiteName : Json
  score : ℚ
  passed : Bool
  results : List MetricResult

structure EvaluationHarness where
  minimumScore : ℚ := 17 / 20

namespace EvaluationHarness

def weightedScore (results : List MetricResult) : ℚ :=
  if results.isEmpty then 0 else clampScore ((results.map MetricResult.score).sum / results.length)

/-- One turn of the loop of `run_fixture`; `probes` is the table of the probes. -/
def runProbe (probes : Key JsonNumber → Option Probe) (entry : Key JsonNumber × Json) :
    Except EvaluationError MetricResult :=
  match probes entry.1 with
  | none => .error (.unknownProbe entry.1)
  | some probe => probe entry.2

def runFixture (self : EvaluationHarness) (probes : Key JsonNumber → Option Probe) (fixture : JsonObject) :
    Except EvaluationError EvaluationReport :=
  match JsonObject.getD fixture "probes" (.dict []) with
  | .dict entries => do
    let results ← entries.mapM (runProbe probes)
    let score := weightedScore results
    return ⟨JsonObject.getD fixture "suite_name" (.str "unnamed"), score,
      decide (self.minimumScore ≤ score) && results.all MetricResult.passed, results⟩
  | _ => .error .attributeError

/-- A report that passes has no result that failed. -/
theorem passed_of_report {self : EvaluationHarness} {probes : Key JsonNumber → Option Probe} {fixture : JsonObject}
    {report : EvaluationReport} (run : self.runFixture probes fixture = .ok report) (passes : report.passed = true) :
    ∀ result ∈ report.results, result.passed = true := by
  unfold runFixture at run
  split at run
  · obtain ⟨results, _, rest⟩ := bind_eq_ok run
    cases rest
    rw [Bool.and_eq_true, List.all_eq_true] at passes
    exact passes.2
  · cases run

end EvaluationHarness

/-- The share of the cases that fail shows in four places, or none does. -/
theorem passAt_passed_iff (name details : String) {n k : ℕ} (some : 1 ≤ n) (le : k ≤ n) :
    (passAt name (k / n) 1 details).passed = true ↔ 20000 * (n - k) ≤ n := by
  have count : (0 : ℚ) < n := by exact_mod_cast some
  have share : (k : ℚ) / n ≤ 1 := div_le_one_of_le₀ (by exact_mod_cast le) count.le
  have bounded : max 0 (min 1 ((k : ℚ) / n)) = k / n := clamp01_of_mem (by positivity) share
  have top : 1 ≤ roundTo 4 ((k : ℚ) / n) ↔ roundTo 4 ((k : ℚ) / n) = 1 :=
    (roundTo_le_one 4 share).ge_iff_eq
  have failing : 20000 * (n - k) ≤ n ↔ (20000 * (n - k) : ℚ) ≤ n := by
    rw [← Nat.cast_sub le]
    exact_mod_cast Iff.rfl
  rw [passAt]
  dsimp only
  rw [decide_eq_true_eq, clampScore, bounded, top, roundTo_eq_one_iff (by decide) share, le_div_iff₀ count, failing]
  constructor
  · intro near
    linarith
  · intro few
    linarith

theorem countCorrect_bounds {secret : String → Bool} {lower : String → String} {cases : List Json} {before k : ℕ}
    (run : cases.foldlM (fun correct case => do return if ← isCorrect secret lower case then correct + 1 else correct)
      before = .ok k) :
    before ≤ k ∧ k ≤ before + cases.length ∧
      (k = before + cases.length ↔ ∀ case ∈ cases, isCorrect secret lower case = .ok true) := by
  induction cases generalizing before with
  | nil =>
    cases run
    simp
  | cons case cases ih =>
    rw [List.foldlM_cons] at run
    obtain ⟨next, step, rest⟩ := bind_eq_ok run
    obtain ⟨correct, decided, chosen⟩ := bind_eq_ok step
    cases chosen
    obtain ⟨above, below, exactly⟩ := ih rest
    rw [List.forall_mem_cons, ← exactly, decided, List.length_cons]
    cases correct with
    | true =>
      simp only [if_true, true_and] at above below ⊢
      omega
    | false =>
      have wrong : (Except.ok false : Except EvaluationError Bool) ≠ .ok true := by simp
      simp only [wrong, Bool.false_eq_true, if_false, false_and, iff_false] at above below ⊢
      omega

theorem safetyProbe_list {secret : String → Bool} {lower : String → String} {cases : List Json} {metric : MetricResult}
    {k : ℕ} (listed : cases.length ≠ 0) (counted : countCorrect secret lower cases = .ok k)
    (run : safetyProbe secret lower (.list cases) = .ok metric) :
    ∃ details, metric = passAt "safety_policy_accuracy" (k / cases.length) 1 details := by
  obtain ⟨correct, same, returned⟩ := bind_eq_ok (run : (countCorrect secret lower cases >>= _) = _)
  cases counted.symm.trans same
  rw [if_pos (show (Value.list cases).items.length ≠ 0 from listed)] at returned
  cases returned
  exact ⟨_, rfl⟩

/-- What a probe of `n` cases that requires the score one promises when `k` of
them are correct: that it passes just when no case fails, and that no report
with it passes otherwise. -/
def PassesExactly (n k : ℕ) : Prop :=
  (∀ name details, (passAt name (k / n) 1 details).passed = true ↔ k = n) ∧
    (∀ secret lower cases metric, safetyProbe secret lower (.list cases) = .ok metric → cases.length = n →
      countCorrect secret lower cases = .ok k →
        (metric.passed = true ↔ ∀ case ∈ cases, isCorrect secret lower case = .ok true)) ∧
    ∀ (self : EvaluationHarness) probes fixture report name details,
      self.runFixture probes fixture = .ok report → passAt name (k / n) 1 details ∈ report.results →
        report.passed = true → k = n

theorem passesExactly_iff (n k : ℕ) (some : 1 ≤ n) (le : k ≤ n) :
    PassesExactly n k ↔ k = n ∨ n < 20000 * (n - k) := by
  have exactly : (20000 * (n - k) ≤ n ↔ k = n) ↔ k = n ∨ n < 20000 * (n - k) := by
    omega
  rw [← exactly]
  constructor
  · intro promised
    rw [← passAt_passed_iff "" "" some le]
    exact promised.1 "" ""
  · intro few
    refine ⟨fun name details => (passAt_passed_iff name details some le).trans few, ?_, ?_⟩
    · rintro secret lower cases metric run rfl counted
      have listed : cases.length ≠ 0 := by omega
      obtain ⟨details, rfl⟩ := safetyProbe_list listed counted run
      rw [passAt_passed_iff _ _ some le, few, ← (countCorrect_bounds counted).2.2, zero_add]
    · intro self probes fixture report name details run member passes
      have passed := EvaluationHarness.passed_of_report run passes _ member
      exact few.mp ((passAt_passed_iff name details some le).mp passed)

/-- One case of seven fails. -/
theorem passesExactly_iff_seven : PassesExactly 7 6 := (passesExactly_iff 7 6 (by decide) (by decide)).mpr (by decide)

/-- One case of twenty thousand fails, and nothing shows it. -/
theorem failure_rounded_away : ¬PassesExactly 20000 19999 := by
  intro promised
  have passes : (passAt "safety_policy_accuracy" ((19999 : ℕ) / (20000 : ℕ)) 1).passed = true := by decide +kernel
  exact absurd ((promised.1 _ _).mp passes) (by decide)

end Centroid
