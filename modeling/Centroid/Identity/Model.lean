import Centroid.Lib.Jaccard

namespace Centroid

/-- Persistent agent identity as versioned operational state. -/
structure IdentityState where
  agentId : String
  version : ℤ := 1
  goals : List String := []
  invariants : List String := []
  lastUpdated : String
  deriving DecidableEq

namespace IdentityState

/-- A list that is not given is taken over from the present state. -/
def evolve (self : IdentityState) (goals invariants : Option (List String)) (now : String) : IdentityState where
  agentId := self.agentId
  version := self.version + 1
  goals := goals.getD self.goals
  invariants := invariants.getD self.invariants
  lastUpdated := now

def driftScore (self other : IdentityState) : ℚ :=
  if self.agentId ≠ other.agentId then 1
  else
    let base := (self.goals ++ self.invariants).toFinset
    let new := (other.goals ++ other.invariants).toFinset
    if base = ∅ ∧ new = ∅ then 0
    else 1 - ((base ∩ new).card : ℚ) / (base ∪ new).card

/-- Goals and invariants together, as the score sees them. -/
def entries (state : IdentityState) : Finset String := (state.goals ++ state.invariants).toFinset

@[simp] theorem mem_entries {state : IdentityState} {entry : String} :
    entry ∈ state.entries ↔ entry ∈ state.goals ∨ entry ∈ state.invariants := by
  simp [entries]

theorem driftScore_of_other {a b : IdentityState} (other : a.agentId ≠ b.agentId) : a.driftScore b = 1 := if_pos other

/-- Within one agent the score is a distance of finite sets. -/
theorem driftScore_of_same {a b : IdentityState} (same : a.agentId = b.agentId) :
    a.driftScore b = Jaccard.distance a.entries b.entries := by
  rw [driftScore, if_neg (not_not.mpr same)]
  by_cases nothing : a.entries = ∅ ∧ b.entries = ∅
  · rw [nothing.1, nothing.2, Jaccard.distance_self]
    exact if_pos nothing
  · have some : a.entries ∪ b.entries ≠ ∅ := fun empty => nothing (Finset.union_eq_empty.mp empty)
    rw [Jaccard.distance_eq_one_sub some]
    exact if_neg nothing

theorem driftScore_nonneg (a b : IdentityState) : 0 ≤ a.driftScore b := by
  by_cases same : a.agentId = b.agentId
  · rw [driftScore_of_same same]
    exact Jaccard.distance_nonneg _ _
  · rw [driftScore_of_other same]
    exact zero_le_one

theorem driftScore_le_one (a b : IdentityState) : a.driftScore b ≤ 1 := by
  by_cases same : a.agentId = b.agentId
  · rw [driftScore_of_same same]
    exact Jaccard.distance_le_one _ _
  · rw [driftScore_of_other same]

theorem driftScore_self (a : IdentityState) : a.driftScore a = 0 := by
  rw [driftScore_of_same rfl, Jaccard.distance_self]

theorem driftScore_comm (a b : IdentityState) : a.driftScore b = b.driftScore a := by
  by_cases same : a.agentId = b.agentId
  · rw [driftScore_of_same same, driftScore_of_same same.symm, Jaccard.distance_comm]
  · rw [driftScore_of_other same, driftScore_of_other (Ne.symm same)]

/-- A change of the agent on the way already costs all that a score can be. -/
theorem driftScore_triangle (a b c : IdentityState) : a.driftScore c ≤ a.driftScore b + b.driftScore c := by
  by_cases first : a.agentId = b.agentId
  · by_cases second : b.agentId = c.agentId
    · rw [driftScore_of_same first, driftScore_of_same second, driftScore_of_same (first.trans second)]
      exact Jaccard.distance_triangle _ _ _
    · rw [driftScore_of_other second]
      linarith [driftScore_le_one a c, driftScore_nonneg a b]
  · rw [driftScore_of_other first]
    linarith [driftScore_le_one a c, driftScore_nonneg b c]

/-- The drift summed up from session to session. -/
def accumulatedDrift : IdentityState → List IdentityState → ℚ
  | _, [] => 0
  | state, next :: later => state.driftScore next + accumulatedDrift next later

theorem driftScore_le_accumulatedDrift (first : IdentityState) (later : List IdentityState) :
    first.driftScore (later.getLastD first) ≤ accumulatedDrift first later := by
  induction later generalizing first with
  | nil => exact (driftScore_self first).le
  | cons next later ih =>
    rw [List.getLastD_cons, accumulatedDrift]
    exact le_trans (driftScore_triangle first next _) (by linarith [ih next])

theorem driftScore_pseudometric :
    (∀ a b : IdentityState, 0 ≤ a.driftScore b ∧ a.driftScore b ≤ 1) ∧
    (∀ a : IdentityState, a.driftScore a = 0) ∧
    (∀ a b : IdentityState, a.driftScore b = b.driftScore a) ∧
    (∀ a b c : IdentityState, a.driftScore c ≤ a.driftScore b + b.driftScore c) ∧
    ∀ (first : IdentityState) (later : List IdentityState),
      first.driftScore (later.getLastD first) ≤ accumulatedDrift first later :=
  ⟨fun a b => ⟨driftScore_nonneg a b, driftScore_le_one a b⟩, driftScore_self, driftScore_comm, driftScore_triangle,
    driftScore_le_accumulatedDrift⟩

theorem driftScore_eq_zero {a b : IdentityState} :
    a.driftScore b = 0 ↔ a.agentId = b.agentId ∧ a.entries = b.entries := by
  by_cases same : a.agentId = b.agentId
  · rw [driftScore_of_same same, Jaccard.distance_eq_zero_iff]
    exact ⟨fun equal => ⟨same, equal⟩, And.right⟩
  · rw [driftScore_of_other same]
    exact ⟨fun one => (one_ne_zero one).elim, fun both => (same both.1).elim⟩

/-- Which of the two lists an entry stands in is not part of the score. -/
theorem driftScore_zero_iff :
    (∀ a b : IdentityState, a.driftScore b = 0 ↔ a.agentId = b.agentId ∧
      ∀ entry, entry ∈ a.goals ∨ entry ∈ a.invariants ↔ entry ∈ b.goals ∨ entry ∈ b.invariants) ∧
    ∀ (a : IdentityState) (goals invariants : Option (List String)) (now : String),
      0 < a.driftScore (a.evolve goals invariants now) ↔
        ∃ entry, ¬(entry ∈ a.goals ∨ entry ∈ a.invariants ↔
          entry ∈ goals.getD a.goals ∨ entry ∈ invariants.getD a.invariants) := by
  have zero : ∀ a b : IdentityState, a.driftScore b = 0 ↔ a.agentId = b.agentId ∧
      ∀ entry, entry ∈ a.goals ∨ entry ∈ a.invariants ↔ entry ∈ b.goals ∨ entry ∈ b.invariants := by
    intro a b
    simp only [driftScore_eq_zero, Finset.ext_iff, mem_entries]
  refine ⟨zero, fun a goals invariants now => ?_⟩
  rw [(driftScore_nonneg _ _).lt_iff_ne', ne_eq, zero, ← not_forall, not_iff_not]
  exact ⟨And.right, fun agree => ⟨rfl, agree⟩⟩

/-- An agent that promises to stay local, and the same agent to which this has
become a goal. -/
def promising : IdentityState where
  agentId := "centroid"
  goals := ["answer"]
  invariants := ["stay local"]
  lastUpdated := "2026-01-01"

theorem dropped_invariant_unseen :
    promising.driftScore (promising.evolve (some ["answer", "stay local"]) (some []) "2026-01-02") = 0 ∧
      "stay local" ∈ promising.invariants ∧
      (promising.evolve (some ["answer", "stay local"]) (some []) "2026-01-02").invariants = [] := by
  decide +kernel

end IdentityState

end Centroid
