import Centroid.Simulation.SafetyPreflight
import Mathlib.Tactic.NormNum

namespace Centroid

open Rounding

/-- Sampling an unchanging file records the same divergence in every cycle. -/
theorem sampleCycles_constant {twinBuffer : TwinBuffer} {disk : Disk ℚ} {snapshot : List (Key ℚ × Value ℚ)}
    (atPath : disk twinBuffer.path = .object snapshot) (twin : TwinState) {d : ℚ}
    (divergence : roundTo 6 (pointDivergence (floatsOf snapshot) (floatsOf twin.snapshot)) = d)
    (left i : ℕ) (calculator : DivergenceCalculator)
    (constant : ∀ s ∈ (calculator.samples.get? twin.forkId).getD [], s.pointDivergence = d)
    (bounded : ((calculator.samples.get? twin.forkId).getD []).length ≤ calculator.maxSamples) :
    ∃ calculator', sampleCycles twinBuffer disk twin left i calculator = (calculator', .ok ()) ∧
      calculator'.lambda_ = calculator.lambda_ ∧
      (∀ s ∈ (calculator'.samples.get? twin.forkId).getD [], s.pointDivergence = d) ∧
      ((calculator'.samples.get? twin.forkId).getD []).length =
        min (((calculator.samples.get? twin.forkId).getD []).length + left) calculator.maxSamples := by
  induction left generalizing i calculator with
  | zero => exact ⟨calculator, rfl, rfl, constant, by omega⟩
  | succ left ih =>
    have readable : twinBuffer.actualSnapshot disk = .ok snapshot := by simp only [TwinBuffer.actualSnapshot, atPath]
    let sampled := calculator.sample twin.forkId snapshot twin.snapshot i
    have queue : (sampled.1.samples.get? twin.forkId).getD [] =
        Window.push calculator.maxSamples ((calculator.samples.get? twin.forkId).getD []) sampled.2 := by
      simp [sampled, DivergenceCalculator.sample]
    have sameMax : sampled.1.maxSamples = calculator.maxSamples := rfl
    have length := Window.length_push calculator.maxSamples ((calculator.samples.get? twin.forkId).getD []) sampled.2
    obtain ⟨calculator', run, sameLambda, constant', length'⟩ := ih (i + 1) sampled.1
      (by
        intro s member
        rw [queue] at member
        rcases Window.mem_push member with old | new
        · exact constant s old
        · rw [new]
          exact divergence)
      (by rw [queue, length, sameMax]; omega)
    refine ⟨calculator', by simpa only [sampleCycles, readable] using run, sameLambda, constant', ?_⟩
    rw [length', queue, length, sameMax]
    omega

section Target

variable {snapshot : List (Key ℚ × Value ℚ)} (distinct : (snapshot.map Prod.fst).Nodup)

include distinct

theorem get?_floatsOf_set {part : String} {old new : Value ℚ} (found : Assoc.get? snapshot (.str part) = some old)
    (key : Key ℚ) :
    (floatsOf (Assoc.set snapshot (.str part) new)).get? key =
      if .str part = key then new.num? else (floatsOf snapshot).get? key := by
  have present : Key.str part ∈ snapshot.map Prod.fst := (Assoc.mem_keys_iff _ _).mpr ⟨old, found⟩
  have sameKeys : (Assoc.set snapshot (.str part) new).map Prod.fst = snapshot.map Prod.fst := by
    rw [Assoc.keys_set, if_pos present]
  rw [get?_floatsOf (sameKeys ▸ distinct), get?_floatsOf distinct, Assoc.get?_set]
  split <;> simp_all

/-- The sampler does not descend: exchanging one nested dictionary for another
changes nothing that it compares. -/
theorem pointDivergence_nested {part : String} {inner new : List (Key ℚ × Value ℚ)}
    (found : Assoc.get? snapshot (.str part) = some (.dict inner)) :
    pointDivergence (floatsOf snapshot) (floatsOf (Assoc.set snapshot (.str part) (.dict new))) = 0 := by
  refine pointDivergence_eq_zero fun key _ => ?_
  rw [get?_floatsOf_set distinct found]
  split
  · rename_i here
    rw [← here, get?_floatsOf distinct, found]
    rfl
  · rfl

/-- A number exchanged at the top level shows in the mean over at most all
numeric leaves. -/
theorem le_pointDivergence_flat {part : String} {c p : ℚ} (found : Assoc.get? snapshot (.str part) = some (.num c)) :
    |p - c| / Value.entriesLeaves snapshot ≤
      pointDivergence (floatsOf snapshot) (floatsOf (Assoc.set snapshot (.str part) (.num p))) := by
  have atActual : (floatsOf snapshot).get? (.str part) = some c := by
    rw [get?_floatsOf distinct, found]
    rfl
  have atTwin : (floatsOf (Assoc.set snapshot (.str part) (.num p))).get? (.str part) = some p := by
    rw [get?_floatsOf_set distinct found, if_pos rfl]
    rfl
  rw [abs_sub_comm]
  exact le_pointDivergence atActual atTwin (size_floatsOf_le snapshot)

end Target

namespace SafetyPreflight

open DivergenceCalculator

variable {self : SafetyPreflight} {disk : Disk ℚ} {snapshot : List (Key ℚ × Value ℚ)}

/-- The divergence that a preflight without a coherence graph reports: that of
one comparison of the snapshot with its changed copy. -/
theorem evaluate_divergence (floatOfText : String → Option ℚ) (atPath : disk self.twinBuffer.path = .object snapshot)
    (noGraph : self.coherenceGraph = none) {intervention : Intervention} {v : Value ℚ}
    (target : valueAt snapshot (splitDots intervention.targetField) = some v) {forkId : String}
    (fresh : self.calculator.samples.get? forkId = none) (originalDecision : Decision) (now : ℚ) :
    ∃ part rest new, splitDots intervention.targetField = part :: rest ∧
      (rest = [] ∧ new = intervention.proposedValue ∨
        rest ≠ [] ∧ (∃ inner, Assoc.get? snapshot (.str part) = some (.dict inner)) ∧ ∃ inner, new = .dict inner) ∧
      ∃ verdict, (self.evaluate floatOfText disk intervention originalDecision forkId now).outcome = .ok verdict ∧
        verdict.divergence =
          if 0 < recencyWeight self.calculator.lambda_ (min self.simulationCycles self.calculator.maxSamples) then
            roundTo 6 (pointDivergence (floatsOf snapshot) (floatsOf (Assoc.set snapshot (.str part) new)))
          else 0 := by
  have forked : self.twinBuffer.fork disk forkId now = .ok ⟨snapshot, now, forkId, self.twinBuffer.cycle⟩ := by
    simp only [TwinBuffer.fork, atPath]
  rcases InterventionApplicator.apply_cases ⟨snapshot, now, forkId, self.twinBuffer.cycle⟩ intervention now with
    ⟨e, absent, _⟩ | ⟨_, part, rest, new, result, parts, _, applied, change⟩
  · rw [target] at absent
    cases absent
  · have simulated : self.simulatedTwin floatOfText disk intervention forkId now =
        .ok ⟨Assoc.set snapshot (.str part) new, now, forkId, self.twinBuffer.cycle⟩ := by
      simp only [simulatedTwin, forked, applied, noGraph]
    obtain ⟨calculator, run, _, result⟩ := evaluate_of_twin atPath simulated originalDecision
    obtain ⟨calculator', run', sameLambda, constant, length⟩ := sampleCycles_constant atPath
      ⟨Assoc.set snapshot (.str part) new, now, forkId, self.twinBuffer.cycle⟩ rfl self.simulationCycles 0
      self.calculator (by simp [fresh]) (by simp [fresh])
    rw [run] at run'
    cases run'
    refine ⟨part, rest, new, parts, change, _, by rw [result], ?_⟩
    obtain ⟨_, isDivergence, _⟩ := self.verdict_decision forkId intervention.actionType
      (calculator.compute forkId).weightedDivergence originalDecision
    rw [isDivergence, compute_of_constant constant, length, sameLambda]
    simp only [fresh, Option.getD_none, List.length_nil, Nat.zero_add, roundTo_idem]

/-- A change of a number is reported exactly when the number stands at the top
level, and the weights of the samples kept sum to something positive. -/
theorem evaluate_divergence_pos_iff (floatOfText : String → Option ℚ) (self : SafetyPreflight) (disk : Disk ℚ)
    (snapshot : List (Key ℚ × Value ℚ)) (intervention : Intervention) (c p : ℚ) (forkId : String)
    (originalDecision : Decision) (now : ℚ) (atPath : disk self.twinBuffer.path = .object snapshot)
    (distinct : (snapshot.map Prod.fst).Nodup) (noGraph : self.coherenceGraph = none)
    (cycles : 1 ≤ self.simulationCycles) (fresh : self.calculator.samples.get? forkId = none)
    (target : valueAt snapshot (splitDots intervention.targetField) = some (.num c))
    (proposed : intervention.proposedValue = .num p)
    (changes : 1 / 10 ^ 6 ≤ |p - c| / Value.entriesLeaves snapshot) :
    ∃ verdict, (self.evaluate floatOfText disk intervention originalDecision forkId now).outcome = .ok verdict ∧
      (0 < verdict.divergence ↔ (splitDots intervention.targetField).length = 1 ∧ 1 ≤ self.calculator.maxSamples ∧
        0 < recencyWeight self.calculator.lambda_ (min self.simulationCycles self.calculator.maxSamples)) := by
  obtain ⟨part, rest, new, parts, change, verdict, returned, divergence⟩ :=
    evaluate_divergence floatOfText atPath noGraph target fresh originalDecision now
  refine ⟨verdict, returned, ?_⟩
  have keeps : 0 < recencyWeight self.calculator.lambda_ (min self.simulationCycles self.calculator.maxSamples) →
      1 ≤ self.calculator.maxSamples := by
    intro positive
    by_contra none
    have empty : min self.simulationCycles self.calculator.maxSamples = 0 := by omega
    rw [empty] at positive
    exact absurd positive (by simp [recencyWeight])
  rw [divergence, parts]
  rcases change with ⟨flat, same⟩ | ⟨nested, ⟨inner, found⟩, changed, isDict⟩
  · subst flat
    rw [parts] at target
    have large := le_trans changes (le_pointDivergence_flat (p := p) distinct target)
    rw [same, proposed]
    constructor
    · intro reported
      split at reported
      · rename_i positive
        exact ⟨rfl, keeps positive, positive⟩
      · exact absurd reported (lt_irrefl 0)
    · rintro ⟨_, _, positive⟩
      rw [if_pos positive]
      exact roundTo_pos 6 large
  · subst isDict
    rw [pointDivergence_nested distinct found, roundTo_zero, ite_self]
    constructor
    · intro reported
      exact absurd reported (lt_irrefl 0)
    · rintro ⟨single, _⟩
      rw [List.length_cons] at single
      exact absurd (List.length_eq_zero_iff.mp (by omega)) nested

theorem evaluate_divergence_pos_iff_flat :
    ∃ verdict, (defaultPreflight.evaluate (fun _ => none) (fun _ => .object nestedWorld)
        ⟨"plan_step", "system_health_ratio", .num 0, "zero the ratio"⟩ .allow "f0" 0).outcome = .ok verdict ∧
      (0 < verdict.divergence ↔ (splitDots "system_health_ratio").length = 1 ∧ 1 ≤ defaultPreflight.calculator.maxSamples ∧
        0 < recencyWeight defaultPreflight.calculator.lambda_
          (min defaultPreflight.simulationCycles defaultPreflight.calculator.maxSamples)) :=
  evaluate_divergence_pos_iff _ _ _ nestedWorld _ (9 / 10) 0 _ _ _ rfl (by decide) rfl (by decide) rfl rfl rfl
    (by norm_num [nestedWorld, Value.entriesLeaves, Value.numericLeaves])

/-- The safety score of the nested world set to zero is a change that the
preflight lets through without divergence. -/
theorem nested_change_unseen :
    valueAt nestedWorld (splitDots "node_health.safety") = some (.num (9 / 10)) ∧
    1 / 10 ^ 6 ≤ |(0 : ℚ) - 9 / 10| / Value.entriesLeaves nestedWorld ∧
    ∃ verdict, (defaultPreflight.evaluate (fun _ => none) (fun _ => .object nestedWorld)
        ⟨"plan_step", "node_health.safety", .num 0, "zero the safety score"⟩ .allow "f0" 0).outcome = .ok verdict ∧
      verdict.divergence = 0 ∧ verdict.finalDecision = .allow :=
  ⟨rfl, by norm_num [nestedWorld, Value.entriesLeaves, Value.numericLeaves], _, rfl, by decide +kernel, by decide +kernel⟩

end SafetyPreflight

end Centroid
