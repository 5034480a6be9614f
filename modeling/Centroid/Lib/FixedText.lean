import Centroid.Lib.Rounding
import Mathlib.Data.List.Basic

/-! Numbers printed with a fixed number of decimals. -/

namespace FixedText

open Rounding

variable (places : ℕ)

/-- The size of a number in units of its last printed digit. -/
def scaled (x : ℚ) : ℕ := (halfEven (|x| * 10 ^ places)).toNat

/-- The digits of a number with zeros in front of them. -/
def pad (n : ℕ) : List Char := (Nat.toDigits 10 n).leftpad places '0'

/-- The sign is that of the number, also where nothing else of it is left. -/
def fixedText (x : ℚ) : List Char :=
  (if x < 0 then ['-'] else []) ++ (Nat.toDigits 10 (scaled places x / 10 ^ places) ++
    '.' :: pad places (scaled places x % 10 ^ places))

theorem ofDigitChars_pad (n : ℕ) : Nat.ofDigitChars 10 (pad places n) 0 = n := by
  rw [pad, List.leftpad, Nat.ofDigitChars_append, Nat.ofDigitChars_replicate_zero, Nat.mul_zero,
    Nat.ofDigitChars_ten_toDigits]

variable {places}

theorem length_pad (positive : 0 < places) {n : ℕ} (small : n < 10 ^ places) : (pad places n).length = places := by
  have fits := (Nat.length_toDigits_le_iff (by decide) positive).mpr small
  rw [pad, List.leftpad, List.length_append, List.length_replicate, Nat.sub_add_cancel fits]

theorem halfEven_nonneg {x : ℚ} (nonneg : 0 ≤ x) : 0 ≤ halfEven x := by
  have mono := halfEven_mono nonneg
  rwa [show halfEven (0 : ℚ) = 0 from halfEven_intCast 0] at mono

theorem scaled_cast (x : ℚ) : (scaled places x : ℤ) = halfEven (|x| * 10 ^ places) :=
  Int.toNat_of_nonneg (halfEven_nonneg (by positivity))

/-- The printed digits are those of the rounded number. -/
theorem roundTo_eq (x : ℚ) :
    roundTo places x = (if x < 0 then -(scaled places x : ℚ) else scaled places x) / 10 ^ places := by
  have whole : (scaled places x : ℚ) = halfEven (|x| * 10 ^ places) := by exact_mod_cast scaled_cast x
  rw [whole, roundTo]
  split
  · rename_i negative
    rw [abs_of_neg negative, neg_mul, halfEven_neg]
    push_cast
    rw [neg_neg]
  · rename_i nonneg
    rw [abs_of_nonneg (not_lt.mp nonneg)]

theorem scaled_eq_iff {x y : ℚ} (sign : x < 0 ↔ y < 0) :
    scaled places x = scaled places y ↔ roundTo places x = roundTo places y := by
  have unit : (10 : ℚ) ^ places ≠ 0 := by positivity
  rw [roundTo_eq, roundTo_eq, div_left_inj' unit]
  by_cases negative : x < 0
  · rw [if_pos negative, if_pos (sign.mp negative), neg_inj, Nat.cast_inj]
  · rw [if_neg negative, if_neg (sign.not.mp negative), Nat.cast_inj]

theorem mem_toDigits_ne {n : ℕ} {c d : Char} (member : c ∈ Nat.toDigits 10 n) (other : d.isDigit = false) : c ≠ d := by
  rintro rfl
  rw [Nat.isDigit_of_mem_toDigits (by decide) (by decide) member] at other
  cases other

/-- A printed number has no character but its digits, the sign and the point. -/
theorem not_mem_fixedText {c : Char} (noDigit : c.isDigit = false) (noSign : c ≠ '-') (noPoint : c ≠ '.') (x : ℚ) :
    c ∉ fixedText places x := by
  have inDigits (n : ℕ) : c ∉ Nat.toDigits 10 n := fun member => mem_toDigits_ne member noDigit rfl
  have inSign : c ∉ (if x < 0 then ['-'] else []) := by
    split
    · simpa using noSign
    · exact List.not_mem_nil
  have inPad (n : ℕ) : c ∉ pad places n := by
    rw [pad, List.leftpad, List.mem_append, not_or]
    refine ⟨?_, inDigits n⟩
    intro member
    rw [(List.mem_replicate.mp member).2] at noDigit
    cases noDigit
  unfold fixedText
  rw [List.mem_append, List.mem_append, List.mem_cons]
  rintro (sign | digits | point | decimals)
  · exact inSign sign
  · exact inDigits _ digits
  · exact noPoint point
  · exact inPad _ decimals

/-- What is printed before and after the point tells how many units there are. -/
theorem unsigned_inj (positive : 0 < places) {m n : ℕ}
    (same : Nat.toDigits 10 (m / 10 ^ places) ++ '.' :: pad places (m % 10 ^ places) =
      Nat.toDigits 10 (n / 10 ^ places) ++ '.' :: pad places (n % 10 ^ places)) : m = n := by
  have unit : 0 < 10 ^ places := Nat.pow_pos (by decide)
  have lengths : ('.' :: pad places (m % 10 ^ places)).length = ('.' :: pad places (n % 10 ^ places)).length := by
    rw [List.length_cons, List.length_cons, length_pad positive (Nat.mod_lt m unit),
      length_pad positive (Nat.mod_lt n unit)]
  obtain ⟨before, after⟩ := List.append_inj' same lengths
  have quotient := congrArg (Nat.ofDigitChars 10 · 0) before
  simp only [Nat.ofDigitChars_ten_toDigits] at quotient
  have rest := congrArg (Nat.ofDigitChars 10 · 0) (List.cons.inj after).2
  simp only [ofDigitChars_pad] at rest
  rw [← Nat.div_add_mod m (10 ^ places), ← Nat.div_add_mod n (10 ^ places), quotient, rest]

/-- A number in print starts with the sign just when it is negative. -/
theorem head?_fixedText (x : ℚ) : (fixedText places x).head? = some '-' ↔ x < 0 := by
  unfold fixedText
  split
  · rename_i negative
    exact ⟨fun _ => negative, fun _ => rfl⟩
  · rename_i nonneg
    refine ⟨?_, fun negative => absurd negative nonneg⟩
    cases digits : Nat.toDigits 10 (scaled places x / 10 ^ places) with
    | nil => exact absurd digits Nat.toDigits_ne_nil
    | cons first rest =>
      intro sign
      have isDigit := mem_toDigits_ne (digits ▸ List.mem_cons_self : first ∈ _) (show '-'.isDigit = false by decide)
      exact absurd (Option.some.inj sign) isDigit

/-- Two numbers look the same in print just when they have the same sign and are
rounded to the same number. -/
theorem fixedText_eq_iff (positive : 0 < places) (x y : ℚ) :
    fixedText places x = fixedText places y ↔ (x < 0 ↔ y < 0) ∧ roundTo places x = roundTo places y := by
  constructor
  · intro same
    have sign : x < 0 ↔ y < 0 := by
      rw [← @head?_fixedText places x, ← @head?_fixedText places y, same]
    refine ⟨sign, (scaled_eq_iff sign).mp (unsigned_inj positive ?_)⟩
    unfold fixedText at same
    by_cases negative : x < 0
    · rw [if_pos negative, if_pos (sign.mp negative)] at same
      exact List.append_cancel_left same
    · rw [if_neg negative, if_neg (sign.not.mp negative)] at same
      exact same
  · rintro ⟨sign, rounded⟩
    have units := (scaled_eq_iff sign).mpr rounded
    unfold fixedText
    rw [units]
    by_cases negative : x < 0
    · rw [if_pos negative, if_pos (sign.mp negative)]
    · rw [if_neg negative, if_neg (sign.not.mp negative)]

end FixedText
