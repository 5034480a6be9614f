import Mathlib.Logic.Basic
import Mathlib.Data.List.Forall2

namespace Raises

variable {ε α β : Type}

theorem bind_eq_ok {x : Except ε α} {f : α → Except ε β} {r : β} (ok : x >>= f = .ok r) : ∃ a, x = .ok a ∧ f a = .ok r := by
  cases x with
  | error e => cases ok
  | ok a => exact ⟨a, rfl, ok⟩

theorem returns_bind_iff {x : Except ε α} {f : α → Except ε β} :
    (∃ r, x >>= f = .ok r) ↔ ∃ a, x = .ok a ∧ ∃ r, f a = .ok r := by
  constructor
  · rintro ⟨r, ok⟩
    obtain ⟨a, first, later⟩ := bind_eq_ok ok
    exact ⟨a, first, r, later⟩
  · rintro ⟨a, rfl, r, later⟩
    exact ⟨r, later⟩

/-- A loop that returns has returned for each item, in the order of the items. -/
theorem forall₂_of_mapM {f : α → Except ε β} {items : List α} {results : List β} (ok : items.mapM f = .ok results) :
    List.Forall₂ (fun item result => f item = .ok result) items results := by
  induction items generalizing results with
  | nil =>
    cases ok
    exact .nil
  | cons item items ih =>
    rw [List.mapM_cons] at ok
    obtain ⟨result, first, later⟩ := bind_eq_ok ok
    obtain ⟨rest, others, same⟩ := bind_eq_ok later
    cases same
    exact .cons first (ih others)

theorem exists_of_mem_mapM {f : α → Except ε β} {items : List α} {results : List β} (ok : items.mapM f = .ok results)
    {result : β} (member : result ∈ results) : ∃ item ∈ items, f item = .ok result := by
  have each := forall₂_of_mapM ok
  clear ok
  induction each with
  | nil => cases member
  | @cons item first items rest head tail ih =>
    rcases List.mem_cons.mp member with rfl | later
    · exact ⟨item, List.mem_cons_self, head⟩
    · obtain ⟨item, listed, returned⟩ := ih later
      exact ⟨item, List.mem_cons_of_mem _ listed, returned⟩

/-- Whatever a computation raises is one of the allowed errors. -/
def RaisesOnly (allowed : ε → Prop) (x : Except ε α) : Prop := ∀ e, x = .error e → allowed e

variable {allowed : ε → Prop}

theorem raisesOnly_ok (a : α) : RaisesOnly allowed (.ok a) := by
  intro e raised
  cases raised

theorem raisesOnly_error_iff {e : ε} : RaisesOnly allowed (.error e : Except ε α) ↔ allowed e := by
  constructor
  · intro only
    exact only e rfl
  · intro isAllowed e' raised
    cases raised
    exact isAllowed

/-- A sequence raises what its parts raise, the second part only after the first returned. -/
theorem raisesOnly_bind_iff (x : Except ε α) (f : α → Except ε β) :
    RaisesOnly allowed (x >>= f) ↔ RaisesOnly allowed x ∧ ∀ a, x = .ok a → RaisesOnly allowed (f a) := by
  cases x with
  | error e =>
    constructor
    · intro only
      refine ⟨raisesOnly_error_iff.mpr (raisesOnly_error_iff.mp only), ?_⟩
      intro a impossible
      cases impossible
    · intro both
      exact raisesOnly_error_iff.mpr (raisesOnly_error_iff.mp both.1)
  | ok a =>
    constructor
    · intro only
      refine ⟨raisesOnly_ok a, ?_⟩
      intro a' same
      cases same
      exact only
    · intro both
      exact both.2 a rfl

/-- What a computation does is settled by two conditions: it returns if it is
sound, and otherwise it raises, with an allowed error if it fails. -/
def Meets (allowed : ε → Prop) (x : Except ε α) (sound fails : Prop) : Prop :=
  (sound ∧ ∃ a, x = .ok a) ∨ (¬sound ∧ ∃ e, x = .error e ∧ (allowed e ↔ fails))

section Meets

variable {x : Except ε α} {f : α → Except ε β} {sound fails laterSound laterFails : Prop}

theorem Meets.ok (a : α) (isSound : sound) : Meets allowed (.ok a) sound fails :=
  Or.inl ⟨isSound, a, rfl⟩

theorem Meets.error {e : ε} (unsound : ¬sound) (isAllowed : allowed e ↔ fails) :
    Meets allowed (.error e : Except ε α) sound fails :=
  Or.inr ⟨unsound, e, rfl, isAllowed⟩

theorem Meets.raisesOnly_iff (meets : Meets allowed x sound fails) : RaisesOnly allowed x ↔ sound ∨ fails := by
  rcases meets with ⟨isSound, a, rfl⟩ | ⟨unsound, e, rfl, isAllowed⟩
  · exact ⟨fun _ => Or.inl isSound, fun _ => raisesOnly_ok a⟩
  · rw [raisesOnly_error_iff, isAllowed, or_iff_right unsound]

theorem Meets.returns_iff (meets : Meets allowed x sound fails) : (∃ a, x = .ok a) ↔ sound := by
  rcases meets with ⟨isSound, a, returned⟩ | ⟨unsound, e, raised, -⟩
  · exact iff_of_true ⟨a, returned⟩ isSound
  · refine iff_of_false ?_ unsound
    rintro ⟨a, returned⟩
    rw [raised] at returned
    cases returned

theorem Meets.congr (meets : Meets allowed x sound fails) (sameSound : sound ↔ laterSound)
    (sameFails : ¬sound → (fails ↔ laterFails)) : Meets allowed x laterSound laterFails := by
  rcases meets with ⟨isSound, returned⟩ | ⟨unsound, e, raised, isAllowed⟩
  · exact Or.inl ⟨sameSound.mp isSound, returned⟩
  · exact Or.inr ⟨fun isSound => unsound (sameSound.mpr isSound), e, raised, isAllowed.trans (sameFails unsound)⟩

theorem Meets.bind (first : Meets allowed x sound fails)
    (later : ∀ a, x = .ok a → Meets allowed (f a) laterSound laterFails) :
    Meets allowed (x >>= f) (sound ∧ laterSound) ((¬sound ∧ fails) ∨ (sound ∧ laterFails)) := by
  rcases first with ⟨isSound, a, rfl⟩ | ⟨unsound, e, rfl, isAllowed⟩
  · refine (later a rfl).congr (and_iff_right isSound).symm fun _ => ?_
    simp only [isSound, not_true_eq_false, false_and, true_and, false_or]
  · refine Meets.error (fun both => unsound both.1) ?_
    simp only [isAllowed, unsound, not_false_eq_true, true_and, false_and, or_false]

/-- A first part that raises no allowed error leaves it to the second to fail. -/
theorem Meets.bind_of_never (first : Meets allowed x sound False)
    (later : ∀ a, x = .ok a → Meets allowed (f a) laterSound laterFails) :
    Meets allowed (x >>= f) (sound ∧ laterSound) (sound ∧ laterFails) :=
  (first.bind later).congr Iff.rfl fun _ => by rw [and_false, false_or]

/-- What follows a computation and always returns changes neither condition. -/
theorem Meets.bind_total (meets : Meets allowed x sound fails) (total : ∀ a, ∃ r, f a = .ok r) :
    Meets allowed (x >>= f) sound fails := by
  rcases meets with ⟨isSound, a, rfl⟩ | ⟨unsound, e, rfl, isAllowed⟩
  · exact Or.inl ⟨isSound, total a⟩
  · exact Or.inr ⟨unsound, e, rfl, isAllowed⟩

theorem Meets.ite {b : Bool} (a : α) (meets : b = true → Meets allowed x sound fails) :
    Meets allowed (if b then x else .ok a) (b = true → sound) (b = true ∧ fails) := by
  cases b with
  | true => exact (meets rfl).congr ⟨fun isSound _ => isSound, fun given => given rfl⟩ fun _ => (and_iff_right rfl).symm
  | false => exact Meets.ok a fun impossible => nomatch impossible

end Meets

section Loops

variable {σ : Type} {step : σ → α → Except ε σ} {sound fails : α → Prop}

/-- The first item that is not sound fails. -/
def StopsAt (sound fails : α → Prop) (items : List α) : Prop :=
  ∃ before item after, items = before ++ item :: after ∧ (∀ earlier ∈ before, sound earlier) ∧ ¬sound item ∧ fails item

theorem StopsAt.not_all {items : List α} (stops : StopsAt sound fails items) : ¬∀ item ∈ items, sound item := by
  rintro all
  obtain ⟨before, item, after, rfl, -, unsound, -⟩ := stops
  exact unsound (all item (List.mem_append_right before List.mem_cons_self))

theorem stopsAt_cons_iff {item : α} {items : List α} :
    StopsAt sound fails (item :: items) ↔ (¬sound item ∧ fails item) ∨ (sound item ∧ StopsAt sound fails items) := by
  constructor
  · rintro ⟨before, other, after, split, earlier, stops⟩
    cases before with
    | nil =>
      obtain ⟨rfl, _⟩ := List.cons.inj split
      exact Or.inl stops
    | cons b before =>
      obtain ⟨rfl, rest⟩ := List.cons.inj split
      refine Or.inr ⟨earlier _ List.mem_cons_self, before, other, after, rest, ?_, stops⟩
      exact fun c member => earlier c (List.mem_cons_of_mem _ member)
  · rintro (here | ⟨isSound, before, other, after, rfl, earlier, stops⟩)
    · exact ⟨[], item, items, rfl, fun _ member => absurd member List.not_mem_nil, here⟩
    · exact ⟨item :: before, other, after, rfl, List.forall_mem_cons.mpr ⟨isSound, earlier⟩, stops⟩

/-- A loop whose turns are settled by their items returns when all items are
sound, and is stopped by the first that is not. -/
theorem meets_foldlM (turn : ∀ s item, Meets allowed (step s item) (sound item) (fails item)) (items : List α) (s : σ) :
    Meets allowed (items.foldlM step s) (∀ item ∈ items, sound item) (StopsAt sound fails items) := by
  induction items generalizing s with
  | nil => exact Meets.ok s fun _ member => absurd member List.not_mem_nil
  | cons item items ih =>
    rw [List.foldlM_cons]
    exact ((turn s item).bind fun s' _ => ih s').congr List.forall_mem_cons.symm fun _ => stopsAt_cons_iff.symm

/-- What a turn preserves, a loop that returns preserves. -/
theorem foldlM_invariant {P : List α → σ → Prop}
    (turn : ∀ done item s s', P done s → step s item = .ok s' → P (done ++ [item]) s') {items done : List α} {s s' : σ}
    (start : P done s) (ran : items.foldlM step s = .ok s') : P (done ++ items) s' := by
  induction items generalizing done s with
  | nil =>
    cases ran
    rw [List.append_nil]
    exact start
  | cons item items ih =>
    rw [List.foldlM_cons] at ran
    obtain ⟨next, stepped, rest⟩ := bind_eq_ok ran
    have whole := ih (turn done item s next start stepped) rest
    rwa [List.append_assoc, List.singleton_append] at whole

end Loops

end Raises
