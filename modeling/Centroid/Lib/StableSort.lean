import Mathlib.Data.List.Nodup

universe u

namespace StableSort

theorem pair_sublist_or {α : Type u} {items : List α} (distinct : items.Nodup) {a b : α} (apart : a ≠ b)
    (memberA : a ∈ items) (memberB : b ∈ items) : [a, b].Sublist items ∨ [b, a].Sublist items := by
  induction items with
  | nil => cases memberA
  | cons c items ih =>
    rcases List.mem_cons.mp memberA with rfl | laterA
    · left
      exact (List.singleton_sublist.mpr (List.mem_of_ne_of_mem apart.symm memberB)).cons_cons a
    rcases List.mem_cons.mp memberB with rfl | laterB
    · right
      exact (List.singleton_sublist.mpr laterA).cons_cons b
    · exact (ih distinct.of_cons laterA laterB).imp (List.Sublist.cons c) (List.Sublist.cons c)

theorem pair_sublist_asymm {α : Type u} {items : List α} (distinct : items.Nodup) {a b : α}
    (pair : [a, b].Sublist items) : ¬[b, a].Sublist items := by
  intro reversed
  induction items with
  | nil => cases pair
  | cons c items ih =>
    rw [List.nodup_cons] at distinct
    cases pair with
    | cons _ pair =>
      cases reversed with
      | cons _ reversed => exact ih distinct.2 pair reversed
      | cons_cons _ _ => exact distinct.1 (pair.subset (List.mem_cons_of_mem _ List.mem_cons_self))
    | cons_cons _ later =>
      cases reversed with
      | cons _ reversed => exact distinct.1 (reversed.subset (List.mem_cons_of_mem _ List.mem_cons_self))
      | cons_cons _ _ => exact distinct.1 (later.subset List.mem_cons_self)

variable {α : Type u} {le : α → α → Bool} (trans : ∀ a b c, le a b = true → le b c = true → le a c = true)
  (total : ∀ a b, (le a b || le b a) = true)

include total in
theorem le_refl (a : α) : le a a = true := by
  simpa using total a a

include trans total

theorem head_le {items sorted : List α} {first : α} (run : items.mergeSort le = first :: sorted) {a : α}
    (member : a ∈ items) : le first a = true := by
  have ordered := List.pairwise_mergeSort trans total items
  have listed : a ∈ items.mergeSort le := List.mem_mergeSort.mpr member
  rw [run] at ordered listed
  rcases List.mem_cons.mp listed with rfl | later
  · exact le_refl total a
  · exact (List.pairwise_cons.mp ordered).1 a later

theorem le_last {items front : List α} {last : α} (run : items.mergeSort le = front ++ [last]) {a : α}
    (member : a ∈ items) : le a last = true := by
  have ordered := List.pairwise_mergeSort trans total items
  have listed : a ∈ items.mergeSort le := List.mem_mergeSort.mpr member
  rw [run] at ordered listed
  rcases List.mem_append.mp listed with earlier | same
  · exact (List.pairwise_append.mp ordered).2.2 a earlier last List.mem_cons_self
  · rw [List.mem_singleton.mp same]
    exact le_refl total last

/-- A least item that comes first stays first. -/
theorem mergeSort_cons_of_least {a : α} {items : List α} (least : ∀ b ∈ items, le a b = true) :
    (a :: items).mergeSort le = a :: items.mergeSort le := by
  obtain ⟨before, after, run, rest, strict⟩ := List.mergeSort_cons trans total a items
  cases before with
  | nil => rw [run, rest, List.nil_append, List.nil_append]
  | cons b before =>
    have listed : b ∈ items.mergeSort le := by simp [rest]
    have below := strict b List.mem_cons_self
    rw [least b (List.mem_mergeSort.mp listed)] at below
    cases below

/-- A greatest item that comes last stays last. -/
theorem last_of_greatest {a last : α} {items front : List α} (distinct : (items ++ [a]).Nodup)
    (greatest : ∀ b ∈ items, le b a = true) (run : (items ++ [a]).mergeSort le = front ++ [last]) : last = a := by
  by_contra other
  have perm := List.mergeSort_perm (items ++ [a]) le
  rw [run] at perm
  have member : last ∈ items ++ [a] := perm.subset (List.mem_append_right _ List.mem_cons_self)
  have earlier : last ∈ items := (List.mem_append.mp member).resolve_right fun same => other (List.mem_singleton.mp same)
  have early : a ∈ front := by
    have listed : a ∈ front ++ [last] := perm.symm.subset (List.mem_append_right _ List.mem_cons_self)
    exact (List.mem_append.mp listed).resolve_right fun same => other (List.mem_singleton.mp same).symm
  have reversed : [a, last].Sublist (front ++ [last]) := (List.singleton_sublist.mpr early).append (List.Sublist.refl [last])
  -- in a stable sort the last one would stay before the greatest one
  have pair : [last, a].Sublist (items ++ [a]) := (List.singleton_sublist.mpr earlier).append (List.Sublist.refl [a])
  have stable := List.pair_sublist_mergeSort trans total (greatest last earlier) pair
  rw [run] at stable
  exact pair_sublist_asymm (perm.nodup_iff.mpr distinct) reversed stable

/-- Members that the sort does not tell apart keep the order that they had. -/
theorem pairwise_mergeSort_of_pairwise {R : α → α → Prop} {items : List α} (distinct : items.Nodup)
    (ordered : items.Pairwise R) :
    (items.mergeSort le).Pairwise fun a b => le a b = true ∧ (le b a = true → R a b) := by
  have perm := List.mergeSort_perm items le
  rw [List.pairwise_iff_forall_sublist]
  intro a b pair
  refine ⟨List.pairwise_iff_forall_sublist.mp (List.pairwise_mergeSort trans total items) pair, fun back => ?_⟩
  have apart : a ≠ b := by
    have twice := (perm.nodup_iff.mpr distinct).sublist pair
    simpa using twice
  have memberA := perm.subset (pair.subset List.mem_cons_self)
  have memberB := perm.subset (pair.subset (List.mem_cons_of_mem _ List.mem_cons_self))
  by_contra unordered
  have reversed : [b, a].Sublist items := by
    refine (pair_sublist_or distinct apart memberA memberB).resolve_left fun kept => ?_
    exact unordered (List.pairwise_iff_forall_sublist.mp ordered kept)
  have stable := List.pair_sublist_mergeSort trans total back reversed
  exact pair_sublist_asymm (perm.nodup_iff.mpr distinct) pair stable

end StableSort
