import Mathlib.Data.Fintype.Pigeonhole
import Mathlib.Data.Set.Finite.List

universe u v w

namespace Chase

variable {α : Type u} {μ : Type v} {β : Type w}

/-- The chain of a partial successor. -/
def chain (next : α → Option α) (start : α) : ℕ → Option α
  | 0 => some start
  | n + 1 => (chain next start n).bind next

inductive Outcome (α : Type u) where
  | ended
  | repeated (place : α)

/-- Follow the successor for at most `fuel` steps, until there is none or its
mark has been seen. -/
def chase [DecidableEq μ] (next : α → Option α) (mark : α → μ) : ℕ → α → List μ → Option (Outcome α)
  | 0, _, _ => none
  | fuel + 1, a, seen =>
    match next a with
    | none => some .ended
    | some b => if mark b ∈ seen then some (.repeated b) else chase next mark fuel b (mark b :: seen)

/-- Two members of the chain have the same value under `f`. -/
def Meets (next : α → Option α) (start : α) (f : α → β) : Prop :=
  ∃ i j a b, i < j ∧ chain next start i = some a ∧ chain next start j = some b ∧ f a = f b

section Chain

variable {next : α → Option α}

theorem chain_add {start a : α} {i : ℕ} (here : chain next start i = some a) (n : ℕ) :
    chain next start (i + n) = chain next a n := by
  induction n with
  | zero => exact here
  | succ n ih => rw [← Nat.add_assoc, chain, ih, chain]

theorem chain_cons {start a : α} (first : next start = some a) (n : ℕ) :
    chain next start (n + 1) = chain next a n := by
  rw [Nat.add_comm]
  exact chain_add (by simpa [chain] using first) n

theorem chain_shift {start : α} {i j : ℕ} (same : chain next start i = chain next start j) (n : ℕ) :
    chain next start (i + n) = chain next start (j + n) := by
  induction n with
  | zero => exact same
  | succ n ih => rw [← Nat.add_assoc, ← Nat.add_assoc, chain, chain, ih]

theorem chain_of_le {start a : α} {i j : ℕ} (before : i ≤ j) (found : chain next start j = some a) :
    ∃ b, chain next start i = some b := by
  induction j, before using Nat.le_induction generalizing a with
  | base => exact ⟨a, found⟩
  | succ j _ ih =>
    obtain ⟨b, earlier, -⟩ := Option.bind_eq_some_iff.mp found
    exact ih earlier

theorem chain_step {start a : α} {i j : ℕ} (before : i < j) (found : chain next start j = some a) :
    ∃ b c, chain next start i = some b ∧ next b = some c ∧ chain next start (i + 1) = some c := by
  obtain ⟨c, after⟩ := chain_of_le (Nat.succ_le_of_lt before) found
  obtain ⟨b, here, stepped⟩ := Option.bind_eq_some_iff.mp after
  exact ⟨b, c, here, stepped, after⟩

/-- A chain without an end meets a value twice, if there are finitely many. -/
theorem meets_of_endless {start : α} (f : α → β) (values : List β)
    (endless : ∀ n, ∃ a, chain next start n = some a ∧ f a ∈ values) : Meets next start f := by
  choose a found member using endless
  have finite : Finite {b // b ∈ values} := (List.finite_toSet values).to_subtype
  obtain ⟨i, j, other, same⟩ := Finite.exists_ne_map_eq_of_infinite fun n => (⟨f (a n), member n⟩ : {b // b ∈ values})
  have same := congrArg Subtype.val same
  rcases Nat.lt_or_gt_of_ne other with before | after
  · exact ⟨i, j, a i, a j, before, found i, found j, same⟩
  · exact ⟨j, i, a j, a i, after, found j, found i, same.symm⟩

end Chain

section Chase

variable [DecidableEq μ] {next : α → Option α} {mark : α → μ}

variable (mark) in
theorem chase_of_end {n : ℕ} {a : α} (ending : chain next a n = none) (seen : List μ) :
    ∃ fuel outcome, chase next mark fuel a seen = some outcome := by
  induction n generalizing a seen with
  | zero => cases ending
  | succ n ih =>
    cases first : next a with
    | none => exact ⟨1, .ended, by simp [chase, first]⟩
    | some b =>
      rw [chain_cons first] at ending
      obtain ⟨fuel, outcome, run⟩ := ih ending (mark b :: seen)
      by_cases again : mark b ∈ seen
      · exact ⟨1, .repeated b, by simp [chase, first, again]⟩
      · exact ⟨fuel + 1, outcome, by simp [chase, first, again, run]⟩

theorem chase_of_seen {n : ℕ} {a b : α} {seen : List μ} (found : chain next a (n + 1) = some b)
    (marked : mark b ∈ seen) : ∃ fuel c, chase next mark fuel a seen = some (.repeated c) := by
  induction n generalizing a seen with
  | zero =>
    have first : next a = some b := by simpa [chain] using found
    exact ⟨1, b, by simp [chase, first, marked]⟩
  | succ n ih =>
    obtain ⟨_, c, here, first, -⟩ := chain_step (Nat.succ_pos _) found
    cases here
    by_cases again : mark c ∈ seen
    · exact ⟨1, c, by simp [chase, first, again]⟩
    · rw [chain_cons first] at found
      obtain ⟨fuel, d, run⟩ := ih found (List.mem_cons_of_mem (mark c) marked)
      exact ⟨fuel + 1, d, by simp [chase, first, again, run]⟩

theorem chase_of_meets {i n : ℕ} {a b c : α} {seen : List μ} (here : chain next a i = some b)
    (later : chain next b (n + 1) = some c) (same : mark b = mark c) (started : mark a ∈ seen) :
    ∃ fuel d, chase next mark fuel a seen = some (.repeated d) := by
  induction i generalizing a seen with
  | zero =>
    cases here
    exact chase_of_seen later (same ▸ started)
  | succ i ih =>
    obtain ⟨_, d, start, first, -⟩ := chain_step (Nat.succ_pos _) here
    cases start
    by_cases again : mark d ∈ seen
    · exact ⟨1, d, by simp [chase, first, again]⟩
    · rw [chain_cons first] at here
      obtain ⟨fuel, e, run⟩ := ih here (List.mem_cons_self : mark d ∈ mark d :: seen)
      exact ⟨fuel + 1, e, by simp [chase, first, again, run]⟩

theorem chain_of_repeated {fuel : ℕ} {a b : α} {seen : List μ}
    (run : chase next mark fuel a seen = some (.repeated b)) :
    ∃ n, chain next a (n + 1) = some b ∧
      (mark b ∈ seen ∨ ∃ i c, 0 < i ∧ i ≤ n ∧ chain next a i = some c ∧ mark c = mark b) := by
  induction fuel generalizing a seen with
  | zero => cases run
  | succ fuel ih =>
    rw [chase] at run
    split at run
    · cases run
    · rename_i c first
      split at run
      · rename_i again
        cases run
        exact ⟨0, by simpa [chain] using first, .inl again⟩
      · obtain ⟨n, found, marked⟩ := ih run
        refine ⟨n + 1, by rwa [chain_cons first], ?_⟩
        rcases marked with marked | ⟨i, d, positive, before, here, same⟩
        · rcases List.mem_cons.mp marked with same | earlier
          · exact .inr ⟨1, c, by omega, by omega, by simpa [chain] using first, same.symm⟩
          · exact .inl earlier
        · exact .inr ⟨i + 1, d, by omega, by omega, by rwa [chain_cons first], same⟩

/-- The chase from a start whose mark is seen finds exactly the chains on
which a mark comes back. -/
theorem chase_repeated_iff (start : α) :
    (∃ fuel b, chase next mark fuel start [mark start] = some (.repeated b)) ↔ Meets next start mark := by
  constructor
  · rintro ⟨fuel, b, run⟩
    obtain ⟨n, found, marked⟩ := chain_of_repeated run
    rcases marked with first | ⟨i, c, -, before, here, same⟩
    · exact ⟨0, n + 1, start, b, by omega, rfl, found, (List.mem_singleton.mp first).symm⟩
    · exact ⟨i, n + 1, c, b, by omega, here, found, same⟩
  · rintro ⟨i, j, b, c, before, here, later, same⟩
    obtain ⟨n, rfl⟩ : ∃ n, j = i + (n + 1) := ⟨j - i - 1, by omega⟩
    rw [chain_add here] at later
    exact chase_of_meets here later same (List.mem_singleton_self _)

end Chase

end Chase
