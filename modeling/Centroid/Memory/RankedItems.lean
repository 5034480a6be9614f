import Centroid.Lib.StableSort
import Centroid.Memory.TfidfIndex

namespace Centroid.TfidfIndex

open Rounding

variable {K : Type} [Field K] [LinearOrder K] [FloorRing K] {α β : Type} (score : α → K) (items : List α)

/-- The items with a positive score, by the rounded score. -/
def ordering : List α :=
  (items.filter fun item => 0 < score item).mergeSort fun a b => decide (roundTo 6 (score b) ≤ roundTo 6 (score a))

theorem ranked_eq (topK : ℤ) :
    ranked score topK items = (sliceTo topK (ordering score items)).map fun item => (item, roundTo 6 (score item)) := by
  have scored : (items.filterMap fun item => if 0 < score item then some (item, roundTo 6 (score item)) else none) =
      (items.filter fun item => 0 < score item).map fun item => (item, roundTo 6 (score item)) := by
    rw [← List.filterMap_eq_map, List.filterMap_filter]
    simp only [decide_eq_true_eq, Function.comp_def]
  rw [ranked, scored, ordering, ← sliceTo_map]
  refine congrArg (sliceTo topK) (List.map_mergeSort ?_).symm
  exact fun _ _ _ _ => rfl

theorem ordering_perm : (ordering score items).Perm (items.filter fun item => 0 < score item) :=
  List.mergeSort_perm _ _

theorem ordering_map (f : β → α) (items : List β) :
    ordering score (items.map f) = (ordering (score ∘ f) items).map f := by
  rw [ordering, ordering, List.filter_map]
  exact (List.map_mergeSort (f := f) fun _ _ _ _ => rfl).symm

/-- A ranking of images is the image of a ranking. -/
theorem ranked_map (f : β → α) (items : List β) (topK : ℤ) :
    ranked score topK (items.map f) = (ranked (score ∘ f) topK items).map fun pair => (f pair.1, pair.2) := by
  rw [ranked_eq, ranked_eq, ordering_map, sliceTo_map, List.map_map, List.map_map]
  rfl

theorem score_trans (a b c : α) (first : decide (roundTo 6 (score b) ≤ roundTo 6 (score a)) = true)
    (second : decide (roundTo 6 (score c) ≤ roundTo 6 (score b)) = true) :
    decide (roundTo 6 (score c) ≤ roundTo 6 (score a)) = true :=
  decide_eq_true ((of_decide_eq_true second).trans (of_decide_eq_true first))

theorem score_total (a b : α) : (decide (roundTo 6 (score b) ≤ roundTo 6 (score a)) ||
    decide (roundTo 6 (score a) ≤ roundTo 6 (score b))) = true := by
  rw [Bool.or_eq_true, decide_eq_true_iff, decide_eq_true_iff]
  exact le_total _ _

/-- A higher score comes first, and of equal scores what comes first in the
list. -/
theorem ordering_sorted (distinct : items.Nodup) : (ordering score items).Pairwise fun a b =>
    roundTo 6 (score b) < roundTo 6 (score a) ∨
      roundTo 6 (score a) = roundTo 6 (score b) ∧ [a, b].Sublist items := by
  have inOrder : (items.filter fun item => 0 < score item).Pairwise fun a b => [a, b].Sublist items :=
    List.pairwise_iff_forall_sublist.mpr fun pair => pair.trans List.filter_sublist
  have stable := StableSort.pairwise_mergeSort_of_pairwise (score_trans score) (score_total score)
    (distinct.filter _) inOrder
  refine stable.imp fun {a b} order => ?_
  rcases (of_decide_eq_true order.1).lt_or_eq with above | same
  · exact Or.inl above
  · exact Or.inr ⟨same.symm, order.2 (decide_eq_true same.ge)⟩

theorem ranked_descending (topK : ℤ) : (ranked score topK items).Pairwise fun a b => b.2 ≤ a.2 := by
  have sorted : (ordering score items).Pairwise fun a b => decide (roundTo 6 (score b) ≤ roundTo 6 (score a)) = true :=
    List.pairwise_mergeSort (score_trans score) (score_total score) _
  rw [ranked_eq, List.pairwise_map]
  exact (sorted.sublist (List.take_sublist _ _)).imp fun le => of_decide_eq_true le

theorem mem_ranked {topK : ℤ} {pair : α × K} (found : pair ∈ ranked score topK items) :
    pair.1 ∈ items ∧ pair.2 = roundTo 6 (score pair.1) := by
  rw [ranked_eq] at found
  obtain ⟨item, kept, rfl⟩ := List.mem_map.mp found
  have member := (ordering_perm score items).subset (List.mem_of_mem_take kept)
  exact ⟨(List.mem_filter.mp member).1, rfl⟩

/-- With room for all the items none is cut off. -/
theorem ranked_perm {topK : ℤ} (room : (items.length : ℤ) ≤ topK) :
    (ranked score topK items).Perm
      ((items.filter fun item => 0 < score item).map fun item => (item, roundTo 6 (score item))) := by
  have few : (ordering score items).length ≤ items.length :=
    (ordering_perm score items).length_eq.trans_le (List.length_filter_le _ _)
  have whole : sliceTo topK (ordering score items) = ordering score items := by
    rw [sliceTo, if_pos (by omega)]
    exact List.take_of_length_le (by omega)
  rw [ranked_eq, whole]
  exact (ordering_perm score items).map _

end Centroid.TfidfIndex
