import Centroid.Lib.TextLines
import Mathlib.Data.List.Infix
import Mathlib.Data.List.TakeWhile

/-- Things that are read as characters. -/
class Spelled (α : Type) where
  char : α → Char
  write : Char → α
  char_write (c : Char) : char (write c) = c

instance : Spelled Char := ⟨id, id, fun _ => rfl⟩

namespace Redaction

open TextLines (isSpace)

variable {α : Type} [Spelled α]

def spell (text : List α) : List Char := text.map Spelled.char

@[simp] theorem spell_nil : spell ([] : List α) = [] := rfl

@[simp] theorem spell_cons (g : α) (rest : List α) : spell (g :: rest) = Spelled.char g :: spell rest := rfl

@[simp] theorem spell_append (u v : List α) : spell (u ++ v) = spell u ++ spell v := List.map_append

@[simp] theorem length_spell (text : List α) : (spell text).length = text.length := List.length_map _

theorem spell_write (text : List Char) : spell (text.map (Spelled.write : Char → α)) = text := by
  rw [spell, List.map_map]
  exact (List.map_congr_left fun c _ => Spelled.char_write c).trans (List.map_id text)

/-- A property of each character of a word, looked at one by one. -/
theorem forall_mem_of_all {p : Char → Prop} [DecidablePred p] {word : List Char}
    (each : word.all (fun c => p c) = true) : ∀ c ∈ word, p c :=
  fun c member => of_decide_eq_true (List.all_eq_true.mp each c member)

/-- What stands between a word and a value: nothing, spaces, or an equals sign
or a colon with spaces around it. -/
inductive Gap where
  | none
  | spaces
  | sign

namespace Gap

/-- How long the gap at the beginning of a text is. -/
def length? : Gap → List Char → Option ℕ
  | .none, _ => some 0
  | .spaces, text => if text.takeWhile isSpace = [] then Option.none else some (text.takeWhile isSpace).length
  | .sign, text =>
    match text.dropWhile isSpace with
    | [] => Option.none
    | c :: after =>
      if c = '=' ∨ c = ':' then some ((text.takeWhile isSpace).length + 1 + (after.takeWhile isSpace).length)
      else Option.none

inductive Is : Gap → List Char → Prop
  | none : Is .none []
  | spaces {blank : List Char} : blank ≠ [] → (∀ c ∈ blank, isSpace c) → Is .spaces blank
  | sign {before after : List Char} {c : Char} : (∀ c ∈ before, isSpace c) → c = '=' ∨ c = ':' →
      (∀ c ∈ after, isSpace c) → Is .sign (before ++ c :: after)

end Gap

/-- A pattern of a word, a gap and a value as long as possible, with what is put
in the place of a match. -/
structure Rule where
  words : List (List Char)
  fold : Char → Char
  gap : Gap
  inValue : Char → Bool
  minimum : ℕ
  keepsWord : Bool
  inserted : List Char
  nonempty : [] ∉ words
  prefixFree : ∀ u ∈ words, ∀ v ∈ words, u <+: v → u = v
  positive : 0 < minimum
  spaceless : ∀ c, inValue c = true → isSpace c = false

/-- The lengths of the parts of a match. -/
structure Found where
  name : ℕ
  gap : ℕ
  value : ℕ
  deriving DecidableEq

namespace Rule

variable (r : Rule)

/-- One alternative of a pattern, at the beginning of a text. -/
def matchWord (text : List Char) (word : List Char) : Option Found :=
  if (text.take word.length).map r.fold = word then
    match r.gap.length? (text.drop word.length) with
    | none => none
    | some gap =>
      let value := ((text.drop word.length).drop gap).takeWhile r.inValue
      if r.minimum ≤ value.length then some ⟨word.length, gap, value.length⟩ else none
  else none

/-- `pattern.match`: the first alternative that leads to a match. -/
def matchAt (text : List Char) : Option Found := r.words.findSome? (r.matchWord text)

/-- A match, given by its parts, before the rest of a text. -/
structure Reads (name between value rest : List Char) : Prop where
  word : name.map r.fold ∈ r.words
  gap : r.gap.Is between
  long : r.minimum ≤ value.length
  inValue : ∀ c ∈ value, r.inValue c = true
  stops : ∀ c ∈ rest.head?, r.inValue c = false

end Rule

theorem takeWhile_append_stop {p : Char → Bool} {u v : List Char} (inside : ∀ c ∈ u, p c = true)
    (stops : ∀ c ∈ v.head?, p c = false) : (u ++ v).takeWhile p = u := by
  rw [List.takeWhile_append_of_pos inside]
  cases v with
  | nil => simp
  | cons c v => rw [List.takeWhile_cons_of_neg (by simp [stops c rfl]), List.append_nil]

theorem dropWhile_append_stop {p : Char → Bool} {u v : List Char} (inside : ∀ c ∈ u, p c = true)
    (stops : ∀ c ∈ v.head?, p c = false) : (u ++ v).dropWhile p = v := by
  rw [List.dropWhile_append_of_pos inside]
  cases v with
  | nil => rfl
  | cons c v => rw [List.dropWhile_cons_of_neg (by simp [stops c rfl])]

theorem Gap.length?_append {gap : Gap} {u v : List Char} (isGap : gap.Is u) (stops : ∀ c ∈ v.head?, isSpace c = false) :
    gap.length? (u ++ v) = some u.length := by
  cases isGap with
  | none => rfl
  | spaces nonempty blank =>
    rw [Gap.length?, takeWhile_append_stop blank stops, if_neg nonempty]
  | @sign before after c beforeBlank isSign afterBlank =>
    have plain : isSpace c = false := by
      rcases isSign with rfl | rfl <;> rfl
    have signStops : ∀ d ∈ (c :: (after ++ v)).head?, isSpace d = false := by
      intro d same
      cases same
      exact plain
    rw [List.append_assoc, List.cons_append, Gap.length?, takeWhile_append_stop beforeBlank signStops,
      dropWhile_append_stop beforeBlank signStops]
    simp only [isSign, if_true, takeWhile_append_stop afterBlank stops, List.length_append, List.length_cons,
      Option.some.injEq]
    omega

theorem Gap.exists_of_length? {gap : Gap} {text : List Char} {n : ℕ} (found : gap.length? text = some n) :
    ∃ u v, text = u ++ v ∧ u.length = n ∧ gap.Is u := by
  have blank (text : List Char) : ∀ c ∈ text.takeWhile isSpace, isSpace c = true :=
    fun c member => List.mem_takeWhile_imp member
  cases gap with
  | none =>
    cases found
    exact ⟨[], text, rfl, rfl, Is.none⟩
  | spaces =>
    rw [Gap.length?] at found
    by_cases nonempty : text.takeWhile isSpace = []
    · rw [if_pos nonempty] at found
      cases found
    · rw [if_neg nonempty] at found
      cases found
      exact ⟨_, _, List.takeWhile_append_dropWhile.symm, rfl, Is.spaces nonempty (blank text)⟩
  | sign =>
    rw [Gap.length?] at found
    cases rest : text.dropWhile isSpace with
    | nil =>
      rw [rest] at found
      cases found
    | cons c after =>
      rw [rest] at found
      by_cases isSign : c = '=' ∨ c = ':'
      · simp only [isSign, if_true, Option.some.injEq] at found
        refine ⟨text.takeWhile isSpace ++ c :: after.takeWhile isSpace, after.dropWhile isSpace, ?_, ?_,
          Is.sign (blank text) isSign (blank after)⟩
        · rw [List.append_assoc, List.cons_append, List.takeWhile_append_dropWhile, ← rest,
            List.takeWhile_append_dropWhile]
        · rw [List.length_append, List.length_cons, ← found]
          omega
      · simp only [isSign, if_false] at found
        cases found

namespace Rule

variable {r : Rule} {name gap value rest text : List Char}

theorem Reads.value_ne_nil (reads : r.Reads name gap value rest) : value ≠ [] := by
  have long := reads.long
  have positive := r.positive
  intro empty
  rw [empty, List.length_nil] at long
  omega

theorem Reads.spaceless_value (reads : r.Reads name gap value rest) : ∀ c ∈ (value ++ rest).head?, isSpace c = false := by
  intro c first
  cases value with
  | nil => exact absurd rfl reads.value_ne_nil
  | cons d value =>
    cases first
    exact r.spaceless _ (reads.inValue _ List.mem_cons_self)

theorem matchWord_of_reads (reads : r.Reads name gap value rest) :
    r.matchWord (name ++ (gap ++ (value ++ rest))) (name.map r.fold) = some ⟨name.length, gap.length, value.length⟩ := by
  rw [matchWord, List.length_map, List.take_left, if_pos rfl, List.drop_left,
    Gap.length?_append reads.gap reads.spaceless_value]
  simp only [List.drop_left, takeWhile_append_stop reads.inValue reads.stops, reads.long, if_true]

/-- No two alternatives are at the beginning of one text. -/
theorem word_unique {u v : List Char} (uListed : u ∈ r.words) (vListed : v ∈ r.words)
    (uHere : (text.take u.length).map r.fold = u) (vHere : (text.take v.length).map r.fold = v) : u = v := by
  rcases Nat.le_total u.length v.length with shorter | longer
  · have isPrefix := (List.take_prefix_take_left (l := text) shorter).map r.fold
    rw [uHere, vHere] at isPrefix
    exact r.prefixFree u uListed v vListed isPrefix
  · have isPrefix := (List.take_prefix_take_left (l := text) longer).map r.fold
    rw [uHere, vHere] at isPrefix
    exact (r.prefixFree v vListed u uListed isPrefix).symm

theorem word_of_matchWord {word : List Char} {found : Found} (matched : r.matchWord text word = some found) :
    (text.take word.length).map r.fold = word := by
  by_contra other
  rw [matchWord, if_neg other] at matched
  cases matched

theorem matchAt_of_reads (reads : r.Reads name gap value rest) :
    r.matchAt (name ++ (gap ++ (value ++ rest))) = some ⟨name.length, gap.length, value.length⟩ := by
  have here := matchWord_of_reads reads
  have some : (r.matchAt (name ++ (gap ++ (value ++ rest)))).isSome = true :=
    List.findSome?_isSome_iff.mpr ⟨_, reads.word, by rw [here, Option.isSome_some]⟩
  obtain ⟨found, matched⟩ := Option.isSome_iff_exists.mp some
  obtain ⟨word, listed, there⟩ := List.exists_of_findSome?_eq_some matched
  have same := word_unique listed reads.word (word_of_matchWord there) (word_of_matchWord here)
  rw [matched, ← there, same, here]

theorem not_inValue_of_dropWhile {c : Char} (first : c ∈ (text.dropWhile r.inValue).head?) : r.inValue c = false := by
  have stops := List.head?_dropWhile_not r.inValue text
  rw [Option.mem_def.mp first] at stops
  exact stops

theorem reads_of_matchAt {found : Found} (matched : r.matchAt text = some found) :
    ∃ name gap value rest, text = name ++ (gap ++ (value ++ rest)) ∧ r.Reads name gap value rest := by
  obtain ⟨word, listed, there⟩ := List.exists_of_findSome?_eq_some matched
  have here := word_of_matchWord there
  rw [matchWord, if_pos here] at there
  cases between : r.gap.length? (text.drop word.length) with
  | none =>
    rw [between] at there
    cases there
  | some n =>
    obtain ⟨gap, after, split, length, isGap⟩ := Gap.exists_of_length? between
    have drop : (text.drop word.length).drop n = after := by
      rw [split, ← length, List.drop_left]
    simp only [between, drop] at there
    by_cases long : r.minimum ≤ (after.takeWhile r.inValue).length
    · refine ⟨text.take word.length, gap, after.takeWhile r.inValue, after.dropWhile r.inValue, ?_, ?_⟩
      · rw [List.takeWhile_append_dropWhile, ← split, List.take_append_drop]
      · refine ⟨?_, isGap, long, fun c member => List.mem_takeWhile_imp member, fun c first => ?_⟩
        · rw [here]
          exact listed
        · exact not_inValue_of_dropWhile first
    · rw [if_neg long] at there
      cases there

theorem matchAt_eq_none_iff : r.matchAt text = none ↔
    ∀ name gap value rest, text = name ++ (gap ++ (value ++ rest)) → ¬r.Reads name gap value rest := by
  constructor
  · rintro unmatched name gap value rest rfl reads
    rw [matchAt_of_reads reads] at unmatched
    cases unmatched
  · intro never
    cases matched : r.matchAt text with
    | none => rfl
    | some found =>
      obtain ⟨name, gap, value, rest, split, reads⟩ := reads_of_matchAt matched
      exact (never name gap value rest split reads).elim

/-- A value can be longer where the text goes on differently. -/
theorem Reads.extend (reads : r.Reads name gap value rest) (more : List Char) :
    r.Reads name gap (value ++ more.takeWhile r.inValue) (more.dropWhile r.inValue) := by
  refine ⟨reads.word, reads.gap, ?_, ?_, ?_⟩
  · have long := reads.long
    rw [List.length_append]
    omega
  · intro c member
    rcases List.mem_append.mp member with inside | inside
    · exact reads.inValue c inside
    · exact List.mem_takeWhile_imp inside
  · intro c first
    exact not_inValue_of_dropWhile first

/-- A text that begins with a match has one there. -/
theorem matchAt_ne_none_of_isPrefix (reads : r.Reads name gap value rest) (isPrefix : name ++ (gap ++ value) <+: text) :
    r.matchAt text ≠ none := by
  obtain ⟨more, rfl⟩ := isPrefix
  intro unmatched
  refine matchAt_eq_none_iff.mp unmatched name gap _ _ ?_ (reads.extend more)
  simp only [List.append_assoc, List.takeWhile_append_dropWhile]

end Rule

end Redaction
