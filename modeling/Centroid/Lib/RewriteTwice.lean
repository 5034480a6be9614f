import Centroid.Lib.RewriteScan

namespace Redaction

variable {p q r : Rule} {inner : Char → Bool} {text : List Char}

/-- All characters of a match are of one class. -/
def Rule.Within (r : Rule) (inner : Char → Bool) : Prop :=
  ∀ name gap value rest, r.Reads name gap value rest → ∀ c ∈ name ++ (gap ++ value), inner c = true

/-- A text that a pattern matches nowhere. -/
def Free (r : Rule) (text : List Char) : Prop := ∀ v, v <:+ text → r.matchAt v = none

theorem sub_eq_self (free : Free r text) : r.sub text = text := by
  induction text with
  | nil => rfl
  | cons c rest ih =>
    rw [sub_cons (by rw [spell_chars]; exact free _ (List.suffix_refl _)),
      ih fun v suffix => free v (suffix.trans (List.suffix_cons c rest))]

theorem free_cons (here : r.matchAt (c :: text) = none) (later : Free r text) : Free r (c :: text) := by
  intro v suffix
  rcases List.suffix_cons_iff.mp suffix with rfl | inside
  · exact here
  · exact later v inside

/-- Where a pattern matches depends only on the characters of its class. -/
theorem matchAt_none_of_isPrefix (within : p.Within inner) {other : List Char} (isPrefix : other.takeWhile inner <+: text)
    (unmatched : p.matchAt text = none) : p.matchAt other = none := by
  by_contra matched
  obtain ⟨found, matched⟩ := Option.ne_none_iff_exists'.mp matched
  obtain ⟨name, gap, value, rest, rfl, reads⟩ := Rule.reads_of_matchAt matched
  refine Rule.matchAt_ne_none_of_isPrefix reads (List.IsPrefix.trans ?_ isPrefix) unmatched
  have whole : name ++ (gap ++ (value ++ rest)) = name ++ (gap ++ value) ++ rest := by simp only [List.append_assoc]
  rw [whole, List.takeWhile_append_of_pos (within name gap value rest reads)]
  exact List.prefix_append _ _

/-- A character outside of a class ends what is taken. -/
theorem takeWhile_append_isPrefix {c : Char} (outside : inner c = false) (u v : List Char) :
    (u ++ c :: v).takeWhile inner <+: u := by
  induction u with
  | nil => rw [List.nil_append, List.takeWhile_cons_of_neg (by rw [outside]; exact Bool.false_ne_true)]
  | cons d u ih =>
    rw [List.cons_append, List.takeWhile_cons]
    split
    · exact (List.prefix_cons_inj d).mpr ih
    · exact List.nil_prefix

/-- A rewritten text agrees with the text before it up to the first character
outside of a class, if what is put in begins with one. -/
theorem takeWhile_sub_isPrefix {c : Char} {w : List Char} (inserted : q.inserted = c :: w) (outside : inner c = false) :
    (q.sub text).takeWhile inner <+: text := by
  induction text using @scan_induction Char _ q with
  | nil => exact List.nil_prefix
  | cons d rest unmatched ih =>
    rw [sub_cons unmatched, List.takeWhile_cons]
    split
    · exact (List.prefix_cons_inj d).mpr ih
    · exact List.nil_prefix
  | hit name gap value rest reads ih =>
    rw [sub_of_reads reads, inserted]
    refine (takeWhile_append_isPrefix outside _ _).trans ?_
    split
    · exact List.prefix_append _ _
    · exact List.nil_prefix

theorem matchAt_nil : r.matchAt [] = none := by
  refine Rule.matchAt_eq_none_iff.mpr ?_
  intro name gap value rest split reads
  exact reads.name_ne_nil (List.append_eq_nil_iff.mp split.symm).1

/-- There is no match where no word begins. -/
theorem matchAt_none_of_head {c : Char} (fresh : ∀ word ∈ r.words, word.head? ≠ some (r.fold c)) :
    r.matchAt (c :: text) = none := by
  refine Rule.matchAt_eq_none_iff.mpr ?_
  intro name gap value rest split reads
  cases name with
  | nil => exact reads.name_ne_nil rfl
  | cons d name =>
    cases (List.cons.inj split).1
    exact fresh _ reads.word rfl

theorem free_append {u v : List Char} (clear : Clear r v u) (free : Free r v) : Free r (u ++ v) := by
  induction u with
  | nil => exact free
  | cons c u ih =>
    have here := clear.1
    rw [spell_chars] at here
    exact free_cons here (ih clear.2)

theorem clear_of_heads {u v : List Char} (fresh : ∀ c ∈ u, ∀ word ∈ r.words, word.head? ≠ some (r.fold c)) : Clear r v u := by
  induction u with
  | nil => trivial
  | cons c u ih =>
    refine ⟨?_, ih fun d member => fresh d (List.mem_cons_of_mem c member)⟩
    rw [spell_chars]
    exact matchAt_none_of_head (fresh c List.mem_cons_self)

/-- A text is clear of a pattern if no word goes together with any end of it. -/
theorem clear_of_tails {u v : List Char}
    (apart : ∀ y ∈ u.tails, y ≠ [] → ∀ word ∈ r.words, ¬(word <+: y.map r.fold ∨ y.map r.fold <+: word)) : Clear r v u := by
  induction u with
  | nil => trivial
  | cons c u ih =>
    refine ⟨?_, ih fun y member => apart y (by rw [List.tails]; exact List.mem_cons_of_mem _ member)⟩
    rw [spell_chars]
    refine Rule.matchAt_eq_none_iff.mpr ?_
    intro name gap value rest split reads
    have here := apart (c :: u) (by rw [List.tails]; exact List.mem_cons_self) (List.cons_ne_nil c u) _ reads.word
    have named : name <+: c :: (u ++ v) := by
      rw [split]
      exact List.prefix_append _ _
    have marked : c :: u <+: c :: (u ++ v) := List.prefix_append _ _
    rcases List.prefix_or_prefix_of_prefix named marked with inside | longer
    · exact here (Or.inl (inside.map r.fold))
    · exact here (Or.inr (longer.map r.fold))

/-- A word that is kept stays clear of a pattern when what follows it changes. -/
theorem clear_of_kept {c : Char} {u v more : List Char} (within : p.Within inner) (outside : inner c = false)
    (never : ∀ t, t <:+ u ++ v → p.matchAt t = none) : Clear p (c :: more) u := by
  induction u with
  | nil => trivial
  | cons d u ih =>
    refine ⟨?_, ih fun t suffix => never t (suffix.trans (List.suffix_cons d _))⟩
    rw [spell_chars]
    refine matchAt_none_of_isPrefix within ?_ (never _ (List.suffix_refl _))
    exact (takeWhile_append_isPrefix outside (d :: u) more).trans (List.prefix_append _ _)

/-- What a pattern matches nowhere, or leaves behind itself, stays so when the
text is rewritten with a pattern that puts in none of its first characters. -/
theorem free_sub {c : Char} {w : List Char} (within : p.Within inner) (inserted : q.inserted = c :: w)
    (outside : inner c = false) (fresh : ∀ d ∈ q.inserted, ∀ word ∈ p.words, word.head? ≠ some (p.fold d))
    (never : ∀ v, v <:+ text → q.matchAt v = none ∨ q.keepsWord = true → p.matchAt v = none) : Free p (q.sub text) := by
  induction text using @scan_induction Char _ q with
  | nil =>
    intro v suffix
    rw [List.suffix_nil.mp suffix]
    exact matchAt_nil
  | cons d rest unmatched ih =>
    have plain := unmatched
    rw [spell_chars] at plain
    have agrees : (q.sub (d :: rest)).takeWhile inner <+: d :: rest := takeWhile_sub_isPrefix inserted outside
    rw [sub_cons unmatched] at agrees ⊢
    refine free_cons (matchAt_none_of_isPrefix within agrees ?_) ?_
    · exact never _ (List.suffix_refl _) (Or.inl plain)
    · exact ih fun v suffix => never v (suffix.trans (List.suffix_cons d rest))
  | hit name gap value rest reads ih =>
    rw [sub_of_reads reads, inserted]
    have later : Free p (q.sub rest) := ih fun v suffix => never v (suffix.trans (List.suffix_append_of_suffix
      (List.suffix_append_of_suffix (List.suffix_append _ _))))
    have whole : (c :: w).map Spelled.write ++ q.sub rest = c :: (w ++ q.sub rest) := congrArg (· ++ _) (List.map_id _)
    refine free_append ?_ ?_
    · split
      · rename_i keeps
        rw [whole]
        exact clear_of_kept within outside fun t suffix => never t suffix (Or.inr keeps)
      · trivial
    · refine free_append (clear_of_heads ?_) later
      rw [← inserted]
      intro d member
      exact fresh d ((List.map_id q.inserted) ▸ member)

section Kept

/-- The first match of a text, if there is one. -/
theorem sub_first (text : List Char) : r.sub text = text ∨
    ∃ u name gap value rest, text = u ++ (name ++ (gap ++ (value ++ rest))) ∧ r.Reads name gap value rest ∧
      r.sub text = u ++ ((if r.keepsWord then name else []) ++ (r.inserted ++ r.sub rest)) := by
  induction text using @scan_induction Char _ r with
  | nil => exact Or.inl rfl
  | cons c rest unmatched ih =>
    rw [sub_cons unmatched]
    rcases ih with same | ⟨u, name, gap, value, after, split, reads, rewritten⟩
    · exact Or.inl (congrArg _ same)
    · right
      refine ⟨c :: u, name, gap, value, after, by rw [split, List.cons_append], reads, ?_⟩
      rw [rewritten, List.cons_append]
  | hit name gap value rest reads =>
    right
    refine ⟨[], name, gap, value, rest, rfl, by simpa only [spell_chars] using reads, ?_⟩
    rw [sub_of_reads reads]
    exact congrArg (_ ++ ·) (congrArg (· ++ _) (List.map_id _))

/-- A pattern whose words share no character with its gaps and begin like a
value, and that puts in a sign and a value. -/
structure Rule.Restores (r : Rule) (sign : Char) (value : List Char) : Prop where
  keeps : r.keepsWord = true
  inserted : r.inserted = sign :: value
  gap : r.gap.Is [sign]
  inValue : ∀ c ∈ value, r.inValue c = true
  nonempty : value ≠ []
  minimum : r.minimum = 1
  apart : ∀ name gap : List Char, name.map r.fold ∈ r.words → r.gap.Is gap → ∀ c ∈ name, c ∉ gap
  begins : ∀ name : List Char, name.map r.fold ∈ r.words → ∀ c ∈ name.head?, r.inValue c = true

variable {sign c : Char} {w : List Char}

/-- A match is read off its word, its gap and one character of its value. -/
theorem matchAt_ne_none_of_start (restores : r.Restores sign w) {name gap : List Char} (word : name.map r.fold ∈ r.words)
    (isGap : r.gap.Is gap) (value : r.inValue c = true) (isPrefix : name ++ (gap ++ [c]) <+: text) :
    r.matchAt text ≠ none := by
  have reads : r.Reads name gap [c] [] := by
    refine ⟨word, isGap, ?_, ?_, ?_⟩
    · rw [restores.minimum, List.length_singleton]
    · intro d member
      rwa [List.mem_singleton.mp member]
    · intro d impossible
      cases impossible
  exact Rule.matchAt_ne_none_of_isPrefix reads isPrefix

theorem matchAt_none_of_stops (restores : r.Restores sign w) (stops : ∀ c ∈ text.head?, r.inValue c = false) :
    r.matchAt text = none := by
  refine Rule.matchAt_eq_none_iff.mpr ?_
  intro name gap value after split reads
  cases name with
  | nil => exact reads.name_ne_nil rfl
  | cons c name =>
    have inside := restores.begins _ reads.word c rfl
    rw [stops c (by rw [split]; rfl)] at inside
    cases inside

theorem head?_sub (restores : r.Restores sign w) (stops : ∀ c ∈ text.head?, r.inValue c = false) :
    (r.sub text).head? = text.head? := by
  have unmatched := matchAt_none_of_stops restores stops
  cases text with
  | nil => rfl
  | cons c rest => rw [sub_cons (by rwa [spell_chars]), List.head?_cons, List.head?_cons]

/-- Two lists that end a common one share their last element. -/
theorem exists_mem_last {front name n left : List Char} (named : name ≠ []) (leftOver : left ≠ [])
    (same : front ++ name = n ++ left) : ∃ l, l ∈ name ∧ l ∈ left := by
  refine ⟨name.getLast named, List.getLast_mem named, ?_⟩
  have last : (front ++ name).getLast? = (n ++ left).getLast? := congrArg _ same
  rw [List.getLast?_append_of_ne_nil _ named, List.getLast?_append_of_ne_nil _ leftOver, List.getLast?_eq_some_getLast named,
    List.getLast?_eq_some_getLast leftOver, Option.some.injEq] at last
  rw [last]
  exact List.getLast_mem leftOver

/-- No match comes into being where the first match of a text was rewritten. -/
theorem matchAt_sub_none (restores : r.Restores sign w) (unmatched : r.matchAt (c :: text) = none) :
    r.matchAt (c :: r.sub text) = none := by
  rcases sub_first (r := r) text with same | ⟨u, name, gap, value, rest, rfl, reads, rewritten⟩
  · rwa [same]
  · by_contra matched
    obtain ⟨found, matched⟩ := Option.ne_none_iff_exists'.mp matched
    obtain ⟨n, g, v, z, split, there⟩ := Rule.reads_of_matchAt matched
    -- The match found now ends its word at or before the word kept.
    rw [rewritten, if_pos restores.keeps, restores.inserted] at split
    have kept : (c :: u ++ name) ++ (sign :: (w ++ r.sub rest)) = n ++ (g ++ (v ++ z)) := by
      rw [← split]
      simp only [List.cons_append, List.append_assoc]
    have whole : c :: (u ++ (name ++ (gap ++ (value ++ rest)))) = (c :: u ++ name) ++ (gap ++ (value ++ rest)) := by
      simp only [List.cons_append, List.append_assoc]
    rw [whole] at unmatched
    have ends : n ≠ c :: u ++ name := by
      intro same
      rw [← same] at unmatched
      exact Rule.matchAt_eq_none_iff.mp unmatched n gap value rest rfl
        ⟨there.word, reads.gap, reads.long, reads.inValue, reads.stops⟩
    rcases List.append_eq_append_iff.mp kept with ⟨more, longer, after⟩ | ⟨left, shorter, after⟩
    · cases more with
      | nil => exact ends (by rw [longer, List.append_nil])
      | cons d more =>
        cases (List.cons.inj after).1
        exact restores.apart n [sign] there.word restores.gap sign (by rw [longer]; simp) (List.mem_singleton_self _)
    · have leftOver : left ≠ [] := by
        rintro rfl
        exact ends (by rw [shorter, List.append_nil])
      obtain ⟨l, inName, inLeft⟩ := exists_mem_last reads.name_ne_nil leftOver shorter
      rcases List.append_eq_append_iff.mp after with ⟨e, isLeft, value'⟩ | ⟨e, isGap, _⟩
      · cases e with
        | nil =>
          rw [isLeft, List.append_nil] at inLeft
          exact restores.apart name g reads.word there.gap l inName inLeft
        | cons x e =>
          have inside : r.inValue x = true := by
            cases v with
            | nil => exact absurd rfl there.value_ne_nil
            | cons y v =>
              cases (List.cons.inj value').1
              exact there.inValue x List.mem_cons_self
          refine matchAt_ne_none_of_start restores there.word there.gap inside ?_ unmatched
          rw [shorter, isLeft]
          exact ⟨e ++ (gap ++ (value ++ rest)), by simp⟩
      · refine restores.apart name g reads.word there.gap l inName ?_
        rw [isGap]
        exact List.mem_append_left _ inLeft

/-- Rewriting again with such a pattern changes nothing. -/
theorem sub_sub (restores : r.Restores sign w) (text : List Char) : r.sub (r.sub text) = r.sub text := by
  induction text using @scan_induction Char _ r with
  | nil => rfl
  | cons c rest unmatched ih =>
    rw [sub_cons unmatched]
    rw [spell_chars] at unmatched
    rw [sub_cons (by rw [spell_chars]; exact matchAt_sub_none restores unmatched), ih]
  | hit name gap value rest reads ih =>
    have plain : r.inserted.map Spelled.write = [sign] ++ w := by
      rw [restores.inserted]
      exact List.map_id _
    have again : r.Reads (spell name) (spell [sign]) (spell w) (spell (r.sub rest)) := by
      simp only [spell_chars] at reads ⊢
      refine ⟨reads.word, restores.gap, ?_, restores.inValue, ?_⟩
      · rw [restores.minimum]
        exact List.length_pos_of_ne_nil restores.nonempty
      · rw [head?_sub restores reads.stops]
        exact reads.stops
    rw [sub_of_reads reads, restores.keeps, if_pos rfl, plain, List.append_assoc, sub_of_reads again, restores.keeps,
      if_pos rfl, plain, ih, List.append_assoc]

end Kept

end Redaction
