import Centroid.Coherence.Propagation

namespace Centroid

/-- A coherence snapshot of one tick. -/
structure CoherenceReport (F : Type := ℚ) where
  timestamp : F
  nodeScores : Dict (Key F) F
  coherenceIndex : F
  weakestNode : Key F
  strongestNode : Key F

structure CoherenceIndexCalculator (F : Type := ℚ) where
  weights : Dict (Key F) F

namespace CoherenceIndexCalculator

variable {F : Type} [DecidableEq F] [Zero F] [One F] [Add F] [Mul F] [Div F] [Max F] [Min F] [LE F] [DecidableLE F] [LT F]
  [DecidableLT F] [FloatLike F]

/-- The two sums of the loop over the propagated values. -/
def sums (self : CoherenceIndexCalculator F) (propagated : Dict (Key F) F) : F × F :=
  propagated.entries.foldl
    (fun acc entry =>
      let w := (self.weights.get? entry.1).getD 1
      (acc.1 + entry.2 * w, acc.2 + w))
    (0, 0)

/-- The nodes by score; equal scores stay in the order of the dictionary. -/
def sortedNodes (propagated : Dict (Key F) F) : List (Key F × F) :=
  propagated.entries.mergeSort (fun a b => a.2 ≤ b.2)

def compute (self : CoherenceIndexCalculator F) (propagated : Dict (Key F) F) (now : F) : CoherenceReport F :=
  match sortedNodes propagated with
  | [] => ⟨now, ∅, 0, .str "", .str ""⟩
  | weakest :: rest =>
    let (weightedSum, totalWeight) := self.sums propagated
    let coherenceIndex := if 0 < totalWeight then weightedSum / totalWeight else 0
    { timestamp := now
      nodeScores := propagated
      coherenceIndex := FloatLike.roundTo 6 (max 0 (min 1 coherenceIndex))
      weakestNode := weakest.1
      strongestNode := ((weakest :: rest).getLast (List.cons_ne_nil _ _)).1 }

section Lemmas

variable (self : CoherenceIndexCalculator F) (propagated : Dict (Key F) F) (now : F)

omit [DecidableEq F] [Zero F] [One F] [Add F] [Mul F] [Div F] [Max F] [Min F] [LT F] [DecidableLT F] [FloatLike F] in
theorem sortedNodes_eq_nil_iff : sortedNodes propagated = [] ↔ propagated.entries = [] := by
  rw [sortedNodes, ← List.length_eq_zero_iff, List.length_mergeSort, List.length_eq_zero_iff]

theorem compute_nodeScores : (self.compute propagated now).nodeScores = propagated := by
  unfold compute
  split
  · rename_i nothing
    have empty := (sortedNodes_eq_nil_iff propagated).mp nothing
    obtain ⟨entries, distinct⟩ := propagated
    cases empty
    rfl
  · rfl

/-- The weakest and the strongest node are those at the ends of the sorted nodes. -/
theorem compute_ends (some : propagated.entries ≠ []) : ∃ weakest rest front strongest,
    sortedNodes propagated = weakest :: rest ∧ sortedNodes propagated = front ++ [strongest] ∧
      (self.compute propagated now).weakestNode = weakest.1 ∧ (self.compute propagated now).strongestNode = strongest.1 := by
  unfold compute
  split
  · rename_i nothing
    exact absurd ((sortedNodes_eq_nil_iff propagated).mp nothing) some
  · rename_i weakest rest sorted
    have last := List.dropLast_append_getLast (List.cons_ne_nil weakest rest)
    exact ⟨weakest, rest, _, _, sorted, sorted.trans last.symm, rfl, rfl⟩

/-- The index of a report that is not empty. -/
theorem compute_coherenceIndex (some : propagated.entries ≠ []) : (self.compute propagated now).coherenceIndex =
    FloatLike.roundTo 6 (max 0 (min 1
      (if 0 < (self.sums propagated).2 then (self.sums propagated).1 / (self.sums propagated).2 else 0))) := by
  unfold compute
  split
  · rename_i nothing
    exact absurd ((sortedNodes_eq_nil_iff propagated).mp nothing) some
  · rfl

end Lemmas

end CoherenceIndexCalculator

end Centroid
