import Centroid.Lib.RewriteTwice
import Centroid.Runtime.SecretPatterns

namespace Centroid

open Redaction
open TextLines (isSpace)

/-- The codes of the spaces. -/
def blankCodes : List ℕ := [9, 10, 11, 12, 13, 28, 29, 30, 31, 32, 133, 160, 5760, 8192, 8193, 8194, 8195, 8196, 8197, 8198,
  8199, 8200, 8201, 8202, 8232, 8233, 8239, 8287, 12288]

theorem mem_blankCodes {c : Char} (blank : isSpace c = true) : c.toNat ∈ blankCodes := by
  simp only [isSpace, decide_eq_true_eq, List.mem_cons, List.not_mem_nil, or_false] at blank
  simp only [blankCodes, List.mem_cons, List.not_mem_nil, or_false]
  omega

/-- A class of characters has no space if it has none of their codes. -/
theorem spaceless_of_codes {inside : Char → Bool} (outside : ∀ n ∈ blankCodes, inside (Char.ofNat n) = false) (c : Char)
    (member : inside c = true) : isSpace c = false := by
  by_contra blank
  have absent := outside c.toNat (mem_blankCodes (eq_true_of_ne_false blank))
  rw [Char.ofNat_toNat, member] at absent
  cases absent

/-- `sk-` and at least eight characters of a key. -/
def secretKeyPattern : Rule where
  words := [['s', 'k', '-']]
  fold := id
  gap := .none
  inValue c := c.isAlphanum || c = '_' || c = '-'
  minimum := 8
  keepsWord := false
  inserted := "[redacted]".toList
  nonempty := by decide
  prefixFree := by decide
  positive := by decide
  spaceless := spaceless_of_codes (by decide)

/-- `Bearer`, spaces and a token. -/
def bearerPattern : Rule where
  words := ["bearer".toList]
  fold := foldCase
  gap := .spaces
  inValue c := (foldCase c).isAlphanum || c = '.' || c = '_' || c = '-'
  minimum := 1
  keepsWord := false
  inserted := "[redacted]".toList
  nonempty := by decide
  prefixFree := by decide
  positive := by decide
  spaceless := spaceless_of_codes (by decide)

/-- A name, a sign and a value up to the next space, comma or semicolon. -/
def assignmentPattern : Rule where
  words := ["api_key".toList, "api-key".toList, "apikey".toList, "authorization".toList, "token".toList,
    "password".toList, "secret".toList]
  fold := foldCase
  gap := .sign
  inValue c := !(isSpace c || c = ',' || c = ';')
  minimum := 1
  keepsWord := true
  inserted := "=[redacted]".toList
  nonempty := by decide
  prefixFree := by decide
  positive := by decide
  spaceless c inside := by
    rw [Bool.not_eq_true', Bool.or_eq_false_iff, Bool.or_eq_false_iff] at inside
    exact inside.1.1

def secretValuePatterns : List Rule := [secretKeyPattern, bearerPattern, assignmentPattern]

/-- One pattern after the other on the text that the last one left. -/
def rewriteAll {α : Type} [Spelled α] (patterns : List Rule) (text : List α) : List α :=
  patterns.foldl (fun redacted pattern => pattern.sub redacted) text

def sanitizeError (message : String) : String := String.ofList (rewriteAll secretValuePatterns message.toList)

theorem rewriteAll_eq {α : Type} [Spelled α] (text : List α) : rewriteAll secretValuePatterns text =
    assignmentPattern.sub (bearerPattern.sub (secretKeyPattern.sub text)) := rfl

theorem secretKeyPattern_within : secretKeyPattern.Within secretKeyPattern.inValue := by
  intro name gap value rest reads c member
  have word : name = ['s', 'k', '-'] := by simpa [secretKeyPattern] using reads.word
  have noGap : gap = [] := by
    cases reads.gap
    rfl
  rw [word, noGap, List.nil_append] at member
  rcases List.mem_append.mp member with named | valued
  · have inside : ∀ d ∈ ['s', 'k', '-'], secretKeyPattern.inValue d = true := forall_mem_of_all (by decide)
    exact inside c named
  · exact reads.inValue c valued

/-- The characters of a match of the second pattern. -/
def inBearer (c : Char) : Bool := bearerPattern.inValue c || isSpace c

theorem bearerPattern_within : bearerPattern.Within inBearer := by
  intro name gap value rest reads c member
  have word : name.map foldCase = "bearer".toList := by simpa [bearerPattern] using reads.word
  have blank : ∀ d ∈ gap, isSpace d = true := by
    cases reads.gap with
    | spaces _ blank => exact blank
  rw [inBearer, Bool.or_eq_true]
  rcases List.mem_append.mp member with named | later
  · left
    have folded : foldCase c ∈ "bearer".toList := word ▸ List.mem_map_of_mem named
    have letters : ∀ d ∈ "bearer".toList, d.isAlphanum = true := forall_mem_of_all (by decide)
    simp only [bearerPattern, letters _ folded, Bool.true_or]
  · rcases List.mem_append.mp later with between | valued
    · exact Or.inr (blank c between)
    · exact Or.inl (reads.inValue c valued)

/-- A character of a name is no space and none of the signs around a value. -/
theorem plain_of_mem_word {c : Char} {word : List Char} (listed : word ∈ assignmentPattern.words)
    (member : foldCase c ∈ word) :
    isSpace c = false ∧ c ∉ ['=', ':', ',', ';'] := by
  constructor
  · by_contra blank
    have codes : ∀ n ∈ blankCodes, ∀ word ∈ assignmentPattern.words, foldCase (Char.ofNat n) ∉ word := by decide
    have absent := codes c.toNat (mem_blankCodes (eq_true_of_ne_false blank)) word listed
    rw [Char.ofNat_toNat] at absent
    exact absent member
  · intro isSign
    have signs : ∀ d ∈ ['=', ':', ',', ';'], ∀ word ∈ assignmentPattern.words, foldCase d ∉ word :=
      forall_mem_of_all (by decide)
    exact signs c isSign word listed member

theorem assignmentPattern_restores : assignmentPattern.Restores '=' "[redacted]".toList where
  keeps := rfl
  inserted := rfl
  gap := by
    have isGap : Gap.Is .sign ([] ++ '=' :: []) := Gap.Is.sign (List.forall_mem_nil _) (Or.inl rfl) (List.forall_mem_nil _)
    exact isGap
  inValue := forall_mem_of_all (by decide)
  nonempty := by decide
  minimum := rfl
  apart name gap word isGap c named inGap := by
    obtain ⟨blank, signs⟩ := plain_of_mem_word word (List.mem_map_of_mem named)
    cases isGap with
    | sign beforeBlank isSign afterBlank =>
      rcases List.mem_append.mp inGap with before | later
      · rw [beforeBlank c before] at blank
        cases blank
      · rcases List.mem_cons.mp later with rfl | after
        · rcases isSign with rfl | rfl
          all_goals exact signs (by decide)
        · rw [afterBlank c after] at blank
          cases blank
  begins name word c first := by
    obtain ⟨blank, signs⟩ := plain_of_mem_word word (List.mem_map_of_mem (List.mem_of_mem_head? first))
    have comma : c ≠ ',' := fun same => signs (by simp [same])
    have semicolon : c ≠ ';' := fun same => signs (by simp [same])
    simp only [assignmentPattern, blank, comma, semicolon, decide_false, Bool.or_false, Bool.not_false]

theorem free_secretKey (text : List Char) : Free secretKeyPattern (secretKeyPattern.sub text) :=
  free_sub secretKeyPattern_within rfl (by decide) (forall_mem_of_all (by decide)) fun _ _ or => or.resolve_right Bool.false_ne_true

theorem free_bearer (text : List Char) : Free bearerPattern (bearerPattern.sub text) :=
  free_sub bearerPattern_within rfl (by decide) (forall_mem_of_all (by decide)) fun _ _ or => or.resolve_right Bool.false_ne_true

/-- No later pattern brings back a match of an earlier one. -/
theorem sanitize_idempotent (text : List Char) :
    rewriteAll secretValuePatterns (rewriteAll secretValuePatterns text) = rewriteAll secretValuePatterns text := by
  have keyFree : Free secretKeyPattern (rewriteAll secretValuePatterns text) :=
    free_sub secretKeyPattern_within rfl (by decide) (forall_mem_of_all (by decide)) fun v suffix _ =>
      free_sub secretKeyPattern_within rfl (by decide) (forall_mem_of_all (by decide))
        (fun v suffix _ => free_secretKey text v suffix) v suffix
  have bearerFree : Free bearerPattern (rewriteAll secretValuePatterns text) :=
    free_sub bearerPattern_within rfl (by decide) (forall_mem_of_all (by decide)) fun v suffix _ => free_bearer _ v suffix
  rw [rewriteAll_eq (rewriteAll secretValuePatterns text), sub_eq_self keyFree, sub_eq_self bearerFree, rewriteAll_eq,
    sub_sub assignmentPattern_restores]

theorem sanitizeError_idempotent (message : String) : sanitizeError (sanitizeError message) = sanitizeError message := by
  rw [sanitizeError, sanitizeError, String.toList_ofList, sanitize_idempotent]

end Centroid
