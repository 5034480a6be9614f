import Centroid.Coherence.IndexBounds

namespace Centroid

open Rounding

section Pass

variable {ν : Type} [DecidableEq ν]

omit [DecidableEq ν] in
/-- Without suppression an edge makes more of more. -/
theorem EdgeDef.result_mono {e : EdgeDef ν ℚ} (plain : e.edgeType ≠ .suppresses) (weight : 0 ≤ e.weight)
    {upstream upstream' downstream downstream' : ℚ} (up : upstream ≤ upstream') (down : downstream ≤ downstream') :
    e.result upstream downstream ≤ e.result upstream' downstream' := by
  have scaled : upstream * e.weight ≤ upstream' * e.weight := mul_le_mul_of_nonneg_right up weight
  unfold result applyEdge applyFeedback
  cases type : e.edgeType with
  | suppresses => exact absurd type plain
  | feedback =>
    rw [if_pos rfl, if_pos rfl, literal_rat, literal_rat]
    linarith
  | multiplicativeFactor => simpa using scaled
  | proportional => simpa using scaled
  | modulates => simpa using scaled
  | additiveFactor => simpa using add_le_add down scaled
  | reinforces => simpa using add_le_add down scaled

theorem storeStep_mono {e : EdgeDef ν ℚ} (plain : e.edgeType ≠ .suppresses) (weight : 0 ≤ e.weight) {values values' : ν → ℚ}
    (le : values ≤ values') : storeStep id values e ≤ storeStep id values' e :=
  update_le_update_iff.mpr ⟨e.result_mono plain weight (le _) (le _), fun n _ => le n⟩

/-- Edges that are applied one after the other, each to what the others left, keep the
order of two valuations. -/
theorem foldl_storeStep_mono {edges : List (EdgeDef ν ℚ)} (plain : ∀ e ∈ edges, e.edgeType ≠ .suppresses)
    (weight : ∀ e ∈ edges, 0 ≤ e.weight) {values values' : ν → ℚ} (le : values ≤ values') :
    edges.foldl (storeStep id) values ≤ edges.foldl (storeStep id) values' := by
  induction edges generalizing values values' with
  | nil => exact le
  | cons e edges ih =>
    rw [List.foldl_cons, List.foldl_cons]
    exact ih (fun e' member => plain e' (List.mem_cons_of_mem _ member))
      (fun e' member => weight e' (List.mem_cons_of_mem _ member))
      (storeStep_mono (plain e List.mem_cons_self) (weight e List.mem_cons_self) le)

/-- Seeds over the same keys that are nowhere smaller start the nodes nowhere lower. -/
theorem seedValue_mono {seedValues seedValues' : Dict ν ℚ} (sameKeys : ∀ n, n ∈ seedValues.keys ↔ n ∈ seedValues'.keys)
    (le : ∀ n v v', seedValues.get? n = some v → seedValues'.get? n = some v' → v ≤ v') :
    seedValue seedValues ≤ seedValue seedValues' := by
  intro n
  unfold seedValue
  by_cases seeded : n ∈ seedValues.keys
  · obtain ⟨v, found⟩ := (seedValues.mem_keys_iff n).mp seeded
    obtain ⟨v', found'⟩ := (seedValues'.mem_keys_iff n).mp ((sameKeys n).mp seeded)
    rw [found, found']
    exact le n v v' found found'
  · rw [(seedValues.get?_eq_none_iff n).mpr seeded, (seedValues'.get?_eq_none_iff n).mpr (mt (sameKeys n).mpr seeded)]

end Pass

/-- Scores that are nowhere higher over the same nodes have no higher index. -/
theorem CoherenceIndexCalculator.compute_mono {self : CoherenceIndexCalculator} (positive : ∀ n, 0 < self.weightOf n)
    {propagated propagated' : Dict (Key ℚ) ℚ} (some : propagated.entries ≠ []) (sameKeys : propagated.keys = propagated'.keys)
    (le : ∀ n ∈ propagated.keys, (propagated.get? n).getD 0 ≤ (propagated'.get? n).getD 0) (now now' : ℚ) :
    (self.compute propagated now).coherenceIndex ≤ (self.compute propagated' now').coherenceIndex := by
  have some' : propagated'.entries ≠ [] := by
    intro none
    rw [Dict.keys, Dict.keys, none, List.map_nil, List.map_eq_nil_iff] at sameKeys
    exact some sameKeys
  rw [compute_mean now positive some, compute_mean now' positive some', ← sameKeys]
  exact roundTo_mono 6 (clamp01_mono (WeightedMean.mean_mono (fun n _ => positive n) le))

/-- On a loaded graph without suppressing edges, cyclic or not, seeds that are nowhere
lower give no node a lower score, and no lower index. -/
theorem propagate_mono {file : Option (Value ℚ)} {g : CoherenceGraphDef (Key ℚ) ℚ} (ok : loadGraph file = .ok g)
    (plain : ∀ e ∈ g.edges, e.edgeType ≠ .suppresses) (nodeIds : SetOrder g.nodeIds) :
    ∃ self, TopologicalPropagator.init g nodeIds = .ok self ∧ ∀ seedValues seedValues' : Dict (Key ℚ) ℚ,
      (∀ n, n ∈ seedValues.keys ↔ n ∈ seedValues'.keys) →
      (∀ n v v', seedValues.get? n = some v → seedValues'.get? n = some v' → v ≤ v') →
      (∀ n ∈ g.nodeIds, ∃ v v', (self.propagate seedValues).get? n = some v ∧
        (self.propagate seedValues').get? n = some v' ∧ v ≤ v') ∧
      ∀ now now', (CoherenceIndexCalculator.compute ⟨self.inboundWeightSum⟩ (self.propagate seedValues) now).coherenceIndex ≤
        (CoherenceIndexCalculator.compute ⟨self.inboundWeightSum⟩ (self.propagate seedValues') now').coherenceIndex := by
  have valid := loadGraph_valid ok
  obtain ⟨order, built, perm, -, -⟩ := valid.init_spec nodeIds
  refine ⟨_, built, fun seedValues seedValues' sameKeys le => ?_⟩
  have higher : ∀ n, clampOutput ((g.applications order).foldl (storeStep id) (seedValue seedValues) n) ≤
      clampOutput ((g.applications order).foldl (storeStep id) (seedValue seedValues') n) := by
    refine fun n => clampOutput_mono ?_
    exact foldl_storeStep_mono (fun e applied => plain e (mem_edges_of_mem_applications applied))
      (fun e applied => valid.weight_nonneg e (mem_edges_of_mem_applications applied)) (seedValue_mono sameKeys le) n
  have values := fun seeds n => valid.propagate_get?_applications nodeIds perm.subset seeds n
  refine ⟨fun n declared => ⟨_, _, ?_, ?_, higher n⟩, fun now now' => ?_⟩
  · rw [values, if_pos declared]
  · rw [values, if_pos declared]
  · refine CoherenceIndexCalculator.compute_mono (TopologicalPropagator.weightOf_pos _)
      (TopologicalPropagator.entries_propagate_ne_nil _ (loadGraph_nodeIds_ne_nil ok) seedValues)
      ((keys_propagate _ _).trans (keys_propagate _ _).symm) (fun n listed => ?_) now now'
    rw [keys_propagate] at listed
    have declared : n ∈ g.nodeIds := (nodeIds.mem_iff n).mp listed
    rw [values, values, if_pos declared, if_pos declared]
    exact higher n

theorem propagate_mono_chain :
    ∃ self, TopologicalPropagator.init chainGraph chainOrder = .ok self ∧
      ∃ v v', (self.propagate ((∅ : Dict (Key ℚ) ℚ).set (.str "a") 0)).get? (.str "b") = some v ∧
        (self.propagate ((∅ : Dict (Key ℚ) ℚ).set (.str "a") 1)).get? (.str "b") = some v' ∧ v ≤ v' := by
  obtain ⟨self, built, higher⟩ := propagate_mono loadGraph_chainDoc (by decide) chainOrder
  refine ⟨self, built, (higher ((∅ : Dict (Key ℚ) ℚ).set (.str "a") 0) ((∅ : Dict (Key ℚ) ℚ).set (.str "a") 1)
    (fun n => Iff.rfl) ?_).1 (.str "b") (by decide)⟩
  intro n v v' found found'
  rw [Dict.get?_set] at found found'
  by_cases here : Key.str "a" = n
  · rw [if_pos here] at found found'
    cases found
    cases found'
    exact zero_le_one
  · rw [if_neg here] at found
    cases found

end Centroid
