import Mathlib.Data.List.Infix

namespace Centroid

/-- A character that `\s` matches. -/
def isSpaceChar (c : Char) : Bool :=
  let n := c.toNat
  (9 ≤ n ∧ n ≤ 13) ∨ (28 ≤ n ∧ n ≤ 32) ∨ (0x2000 ≤ n ∧ n ≤ 0x200A) ∨
    n ∈ [0x85, 0xA0, 0x1680, 0x2028, 0x2029, 0x202F, 0x205F, 0x3000]

/-- The letter that a character stands for where case is ignored: besides the
capital letters there are two more spellings of i and one each of s and k. -/
def foldCase (c : Char) : Char :=
  if c.toNat ∈ [0x130, 0x131] then 'i'
  else if c.toNat = 0x17F then 's'
  else if c.toNat = 0x212A then 'k'
  else c.toLower

/-- What follows a word in lower case at the beginning of a text. -/
def afterWord? : List Char → List Char → Option (List Char)
  | [], text => some text
  | _ :: _, [] => none
  | c :: word, d :: text => if foldCase d = c then afterWord? word text else none

/-- The names that the first pattern reads before the sign. -/
def secretNames : List String :=
  ["apikey", "api_key", "api-key", "token", "password", "passwd", "secret", "privatekey", "private_key",
    "private-key"]

/-- A name, a colon or an equals sign and a value, with spaces between them. -/
def secretAssignmentAt (text : List Char) : Bool :=
  secretNames.any fun name =>
    match afterWord? name.toList text with
    | none => false
    | some rest =>
      match rest.dropWhile isSpaceChar with
      | [] => false
      | sign :: value => (sign = ':' ∨ sign = '=') && !(value.dropWhile isSpaceChar).isEmpty

def isKeyChar (c : Char) : Bool :=
  (foldCase c).isAlphanum || c = '_' || c = '-'

/-- The letters `sk`, a dash and at least eight characters of a key. -/
def secretKeyAt (text : List Char) : Bool :=
  match afterWord? ['s', 'k', '-'] text with
  | none => false
  | some rest => 8 ≤ (rest.takeWhile isKeyChar).length

/-- `pattern.search(text)`, for a pattern given by where it matches. -/
def search (matchesAt : List Char → Bool) (text : String) : Bool :=
  text.toList.tails.any matchesAt

def secretPatterns : List (String → Bool) := [search secretAssignmentAt, search secretKeyAt]

def matchesSecret (text : String) : Bool :=
  secretPatterns.any fun pattern => pattern text

/-- A pattern that goes on matching when text is added behind. -/
def Extensible (matchesAt : List Char → Bool) : Prop :=
  ∀ text more, matchesAt text = true → matchesAt (text ++ more) = true

theorem search_of_part {matchesAt : List Char → Bool} (extensible : Extensible matchesAt) {part text : String}
    (inside : part.toList <:+: text.toList) (found : search matchesAt part = true) : search matchesAt text = true := by
  obtain ⟨here, tail, hit⟩ := List.any_eq_true.mp found
  obtain ⟨before, after, split⟩ := inside
  have suffix : here <:+ part.toList := (List.mem_tails _ _).mp tail
  obtain ⟨skipped, whole⟩ := suffix
  refine List.any_eq_true.mpr ⟨here ++ after, (List.mem_tails _ _).mpr ⟨before ++ skipped, ?_⟩, extensible here after hit⟩
  rw [← split, ← whole]
  simp only [List.append_assoc]

theorem afterWord?_append {word text rest : List Char} (found : afterWord? word text = some rest) (more : List Char) :
    afterWord? word (text ++ more) = some (rest ++ more) := by
  induction word generalizing text with
  | nil =>
    rw [afterWord?, Option.some.injEq] at found
    rw [found, afterWord?]
  | cons c word ih =>
    cases text with
    | nil => cases found
    | cons d text =>
      rw [afterWord?] at found
      split at found
      · rename_i same
        rw [List.cons_append, afterWord?, if_pos same]
        exact ih found
      · cases found

theorem dropWhile_append_of_cons {p : Char → Bool} {text rest : List Char} {c : Char}
    (found : text.dropWhile p = c :: rest) (more : List Char) : (text ++ more).dropWhile p = c :: (rest ++ more) := by
  rw [List.dropWhile_append, found, List.isEmpty_cons, if_neg Bool.false_ne_true, List.cons_append]

theorem secretAssignmentAt_extensible : Extensible secretAssignmentAt := by
  intro text more hit
  obtain ⟨name, listed, hit⟩ := List.any_eq_true.mp hit
  refine List.any_eq_true.mpr ⟨name, listed, ?_⟩
  cases found : afterWord? name.toList text with
  | none => simp [found] at hit
  | some rest =>
    simp only [found] at hit
    simp only [afterWord?_append found]
    cases signed : rest.dropWhile isSpaceChar with
    | nil => simp [signed] at hit
    | cons sign value =>
      simp only [signed, Bool.and_eq_true, Bool.not_eq_true'] at hit
      obtain ⟨isSign, present⟩ := hit
      simp only [dropWhile_append_of_cons signed, isSign, Bool.true_and, Bool.not_eq_true']
      cases valued : value.dropWhile isSpaceChar with
      | nil => simp [valued] at present
      | cons c remaining => rw [dropWhile_append_of_cons valued, List.isEmpty_cons]

theorem secretKeyAt_extensible : Extensible secretKeyAt := by
  intro text more hit
  unfold secretKeyAt at hit ⊢
  cases found : afterWord? ['s', 'k', '-'] text with
  | none => simp [found] at hit
  | some rest =>
    simp only [found, decide_eq_true_eq] at hit
    simp only [afterWord?_append found, decide_eq_true_eq, List.takeWhile_append]
    split
    · rw [List.length_append]
      omega
    · exact hit

/-- A text that holds a secret anywhere is secret. -/
theorem matchesSecret_of_infix {part text : String} (inside : part.toList <:+: text.toList)
    (found : matchesSecret part = true) : matchesSecret text = true := by
  simp only [matchesSecret, secretPatterns, List.any_cons, List.any_nil, Bool.or_false, Bool.or_eq_true] at found ⊢
  rcases found with assignment | key
  · exact Or.inl (search_of_part secretAssignmentAt_extensible inside assignment)
  · exact Or.inr (search_of_part secretKeyAt_extensible inside key)

end Centroid
