import Centroid.Lib.RewriteOrigins
import Centroid.Providers.ErrorSanitization

namespace Centroid

open Redaction
open TextLines (isSpace)

/-- Within a text from a place on, each key that shares a character with a bearer
token is a proper end of it. -/
def KeysAtEnd (pos : ℕ) (text : List Char) : Prop :=
  ∀ b ∈ bearerPattern.spans pos text, ∀ a ∈ secretKeyPattern.spans pos text,
    a.start < b.stop → b.start < a.stop → b.value < a.start ∧ a.stop = b.stop

/-- The text begins like a key or a bearer token. -/
def Secretive : List Char → Prop
  | [] => False
  | c :: rest => foldCase c = 'b' ∨ (c = 's' ∧ rest.head? = some 'k')

/-- The first characters of a text become redacted, whatever comes before and
after, and no bearer token among them is hidden. -/
structure Stretch (pos : ℕ) (body rest : List Char) (keys bearers : List Span) (markers : List Char) : Prop where
  begins : Secretive (body ++ rest)
  nonempty : body ≠ []
  keySpans : secretKeyPattern.spans pos (body ++ rest) = keys ++ secretKeyPattern.spans (pos + body.length) rest
  bearerSpans : bearerPattern.spans pos (body ++ rest) = bearers ++ bearerPattern.spans (pos + body.length) rest
  within : ∀ span ∈ keys ++ bearers, pos ≤ span.start ∧ span.stop ≤ pos + body.length
  whole : ∃ span ∈ keys ++ bearers, span.start = pos ∧ span.stop = pos + body.length
  atEnd : ∀ b ∈ bearers, ∀ a ∈ keys, b.value < a.start ∧ a.stop = b.stop
  found : ∀ b ∈ bearers, bearerPattern.Finds (secretKeyPattern.sub (mark pos (body ++ rest))) b
  later : ∀ span : Span, pos + body.length ≤ span.start → span.start < span.value →
    (bearerPattern.Finds (secretKeyPattern.sub (mark pos (body ++ rest))) span ↔
      bearerPattern.Finds (secretKeyPattern.sub (mark (pos + body.length) rest)) span)
  marked : markers = "[redacted]".toList ∨ markers = "[redacted][redacted]".toList
  rewritten : bearerPattern.sub (secretKeyPattern.sub (mark pos (body ++ rest))) =
    markers.map Spelled.write ++ bearerPattern.sub (secretKeyPattern.sub (mark (pos + body.length) rest))

/-- The first character of a text stays. -/
structure Plain (pos : ℕ) (c : Char) (rest : List Char) : Prop where
  keys : secretKeyPattern.spans pos (c :: rest) = secretKeyPattern.spans (pos + 1) rest
  bearers : bearerPattern.spans pos (c :: rest) = bearerPattern.spans (pos + 1) rest
  later : ∀ span : Span, pos + 1 ≤ span.start → span.start < span.value →
    (bearerPattern.Finds (secretKeyPattern.sub (mark pos (c :: rest))) span ↔
      bearerPattern.Finds (secretKeyPattern.sub (mark (pos + 1) rest)) span)
  rewritten : bearerPattern.sub (secretKeyPattern.sub (mark pos (c :: rest))) =
    ⟨c, some pos⟩ :: bearerPattern.sub (secretKeyPattern.sub (mark (pos + 1) rest))

/-- A key hides a bearer token. -/
structure Clash (pos : ℕ) (text : List Char) : Prop where
  overlap : ¬KeysAtEnd pos text
  hidden : ¬∀ b ∈ bearerPattern.spans pos text, bearerPattern.Finds (secretKeyPattern.sub (mark pos text)) b

section Characters

variable {c : Char}

theorem lt_of_isAlphanum (letter : c.isAlphanum = true) : c.toNat < 128 := by
  have value : c.val.toNat = c.toNat := rfl
  change (decide (c.val ≥ 'A'.val ∧ c.val ≤ 'Z'.val) || (c.val ≥ 'a'.val && c.val ≤ 'z'.val) ||
    (c.val ≥ '0'.val && c.val ≤ '9'.val)) = true at letter
  simp only [Bool.or_eq_true, Bool.and_eq_true, decide_eq_true_eq, ge_iff_le, UInt32.le_iff_toNat_le, value,
    Char.reduceVal, UInt32.reduceToNat] at letter
  omega

theorem toLower_of_le (big : 128 ≤ c.toNat) : c.toLower = c := by
  have value : c.val.toNat = c.toNat := rfl
  have notUpper : ¬(c.val ≥ 'A'.val ∧ c.val ≤ 'Z'.val) := by
    simp only [ge_iff_le, UInt32.le_iff_toNat_le, value, Char.reduceVal, UInt32.reduceToNat]
    omega
  exact dif_neg notUpper

theorem lt_of_inKey (inside : secretKeyPattern.inValue c = true) : c.toNat < 128 := by
  simp only [secretKeyPattern, Bool.or_eq_true, decide_eq_true_eq] at inside
  rcases inside with (letter | rfl) | rfl
  · exact lt_of_isAlphanum letter
  · decide
  · decide

/-- A statement about the characters of keys is checked on the first 128 characters. -/
theorem of_inKey {P : Char → Prop} (small : ∀ n < 128, secretKeyPattern.inValue (Char.ofNat n) = true → P (Char.ofNat n))
    (inside : secretKeyPattern.inValue c = true) : P c := by
  have here := small c.toNat (lt_of_inKey inside)
  rw [Char.ofNat_toNat] at here
  exact here inside

theorem inBearer_of_inKey (inside : secretKeyPattern.inValue c = true) : bearerPattern.inValue c = true :=
  of_inKey (P := fun c => bearerPattern.inValue c = true) (by decide) inside

theorem inAssignment_of_inKey (inside : secretKeyPattern.inValue c = true) : assignmentPattern.inValue c = true :=
  of_inKey (P := fun c => assignmentPattern.inValue c = true) (by decide) inside

/-- The first character of a bearer token may stand in a key. -/
theorem inKey_of_foldCase (first : foldCase c = 'b') : secretKeyPattern.inValue c = true := by
  rcases Nat.lt_or_ge c.toNat 128 with small | big
  · have checked : ∀ n < 128, foldCase (Char.ofNat n) = 'b' → secretKeyPattern.inValue (Char.ofNat n) = true := by decide
    have here := checked c.toNat small
    rw [Char.ofNat_toNat] at here
    exact here first
  · rw [foldCase, toLower_of_le big] at first
    split at first
    · cases first
    · split at first
      · cases first
      · split at first
        · cases first
        · subst first
          revert big
          decide

end Characters

section Steps

variable {pos : ℕ} {text name gap value rest : List Char}

theorem secretKey_word (reads : secretKeyPattern.Reads name gap value rest) : name = ['s', 'k', '-'] ∧ gap = [] := by
  constructor
  · simpa [secretKeyPattern] using reads.word
  · cases reads.gap
    rfl

theorem bearer_blank (reads : bearerPattern.Reads name gap value rest) : ∀ c ∈ gap, isSpace c = true := by
  cases reads.gap with
  | spaces _ blank => exact blank

theorem mem_bearer (reads : bearerPattern.Reads name gap value rest) {c : Char} (member : c ∈ name) :
    foldCase c ∈ "bearer".toList := by
  have word : name.map foldCase = "bearer".toList := by simpa [bearerPattern] using reads.word
  exact word ▸ List.mem_map_of_mem member

/-- No key begins in the word of a bearer token or behind it. -/
theorem clear_head (reads : bearerPattern.Reads name gap value rest) (v : List Char) :
    Clear secretKeyPattern v (name ++ gap) := by
  refine clear_of_heads fun c member word listed => ?_
  have other : c ≠ 's' := by
    rintro rfl
    rcases List.mem_append.mp member with named | between
    · exact absurd (mem_bearer reads named) (by decide)
    · exact absurd (bearer_blank reads 's' between) (by decide)
  rw [List.mem_singleton.mp listed]
  exact fun same => other (Option.some.inj same).symm

/-- The keys are taken out of a bearer token behind its word. -/
theorem sub_head (reads : bearerPattern.Reads name gap value rest) (pos : ℕ) (v : List Char) :
    secretKeyPattern.sub (mark pos (name ++ (gap ++ v))) =
      mark pos name ++ (mark (pos + name.length) gap ++ secretKeyPattern.sub (mark (pos + name.length + gap.length) v)) := by
  rw [← List.append_assoc, sub_mark_append (clear_head reads v), List.length_append, ← Nat.add_assoc, mark_append,
    List.append_assoc]

theorem spans_head (reads : bearerPattern.Reads name gap value rest) (pos : ℕ) (v : List Char) :
    secretKeyPattern.spans pos (name ++ (gap ++ v)) = secretKeyPattern.spans (pos + name.length + gap.length) v := by
  rw [← List.append_assoc, spans_append (clear_head reads v), List.length_append, ← Nat.add_assoc]

/-- A key is taken out as a whole. -/
theorem sub_key (reads : secretKeyPattern.Reads name gap value rest) (pos : ℕ) :
    secretKeyPattern.sub (mark pos (name ++ (gap ++ (value ++ rest)))) = "[redacted]".toList.map Spelled.write ++
      secretKeyPattern.sub (mark (pos + name.length + gap.length + value.length) rest) :=
  sub_mark_of_reads reads pos

/-- The text after the keys are taken out goes on with the old first character
or with a marker. -/
theorem head?_secretKey_sub (text : List Char) :
    ∀ c ∈ (secretKeyPattern.sub text).head?, c ∈ text.head? ∨ c = '[' := by
  cases text with
  | nil =>
    intro c impossible
    cases impossible
  | cons d rest =>
    intro c first
    by_cases unmatched : secretKeyPattern.matchAt (spell (d :: rest)) = none
    · rw [sub_cons unmatched] at first
      exact Or.inl first
    · obtain ⟨name, gap, value, after, split, reads⟩ := exists_reads unmatched
      rw [split, sub_of_reads reads] at first
      cases first
      exact Or.inr rfl

theorem stops_after_keys (stops : ∀ c ∈ text.head?, bearerPattern.inValue c = false) :
    ∀ c ∈ (spell (secretKeyPattern.sub (mark pos text))).head?, bearerPattern.inValue c = false := by
  intro c first
  rw [spell_sub, spell_mark] at first
  rcases head?_secretKey_sub text c first with before | rfl
  · exact stops c before
  · rfl

theorem clear_redacted (t : List Glyph) : Clear bearerPattern t ("[redacted]".toList.map Spelled.write) := by
  exact clear_of_spell (clear_of_heads (forall_mem_of_all (by decide)))

theorem secretive_of_bearer (reads : bearerPattern.Reads name gap value rest) (v : List Char) : Secretive (name ++ v) := by
  have word : name.map foldCase = "bearer".toList := by simpa [bearerPattern] using reads.word
  cases name with
  | nil => cases word
  | cons c name => exact Or.inl (List.cons.inj word).1

/-- A bearer token of which the scan for keys leaves the first characters, with
or without a marker behind them. -/
theorem stretch_of_left {x left : List Char} {keys : List Span} {pos stop : ℕ}
    (reads : bearerPattern.Reads name gap value rest) (stopEq : stop = pos + name.length + gap.length + value.length)
    (keySpans : secretKeyPattern.spans pos (name ++ (gap ++ (value ++ rest))) =
      keys ++ secretKeyPattern.spans stop rest)
    (keysEnd : ∀ a ∈ keys, pos + name.length + gap.length < a.start ∧ a.stop = stop)
    (removed : secretKeyPattern.sub (mark pos (name ++ (gap ++ (value ++ rest)))) =
      mark pos name ++ (mark (pos + name.length) gap ++ (mark (pos + name.length + gap.length) x ++
        (left.map Spelled.write ++ secretKeyPattern.sub (mark stop rest)))))
    (nonempty : x ≠ []) (kept : ∀ c ∈ x, c ∈ value) (marker : left = [] ∨ left = "[redacted]".toList) :
    Stretch pos (name ++ (gap ++ value)) rest keys [⟨pos, pos + name.length + gap.length, stop⟩]
      ("[redacted]".toList ++ left) := by
  have valued := List.length_pos_of_ne_nil reads.value_ne_nil
  have length : pos + (name ++ (gap ++ value)).length = stop := by
    simp only [List.length_append]
    omega
  have split : name ++ (gap ++ value) ++ rest = name ++ (gap ++ (value ++ rest)) := by simp only [List.append_assoc]
  have clearLeft : Clear bearerPattern (secretKeyPattern.sub (mark stop rest)) (left.map Spelled.write) := by
    rcases marker with rfl | rfl
    · trivial
    · exact clear_redacted _
  have again : bearerPattern.Reads (spell (mark pos name)) (spell (mark (pos + name.length) gap))
      (spell (mark (pos + name.length + gap.length) x))
      (spell (left.map Spelled.write ++ secretKeyPattern.sub (mark stop rest))) := by
    simp only [spell_mark]
    refine ⟨reads.word, reads.gap, List.length_pos_of_ne_nil nonempty, fun c member => reads.inValue c (kept c member), ?_⟩
    rcases marker with rfl | rfl
    · exact stops_after_keys reads.stops
    · intro c first
      cases first
      rfl
  constructor
  · rw [split]
    exact secretive_of_bearer reads _
  · exact fun nothing => reads.name_ne_nil (List.append_eq_nil_iff.mp nothing).1
  · rw [split, keySpans, length]
  · rw [split, spans_of_reads reads, ← stopEq, length]
    rfl
  · intro span member
    rcases List.mem_append.mp member with key | bearer
    · have inside := keysEnd span key
      omega
    · cases List.mem_singleton.mp bearer
      exact ⟨Nat.le_refl _, length.ge⟩
  · exact ⟨_, List.mem_append_right _ (List.mem_singleton_self _), rfl, length.symm⟩
  · intro b bMember a aMember
    cases List.mem_singleton.mp bMember
    exact keysEnd a aMember
  · intro b member
    cases List.mem_singleton.mp member
    rw [split, removed]
    refine finds_here again (survives_first reads.name_ne_nil) (fun keeps => Bool.noConfusion keeps) fun i survives => ?_
    rcases survives_append.mp survives with inserted | late
    · exact (not_survives_write _ inserted).elim
    · exact (survives_mark.mp late.of_sub).1
  · intro span late bounds
    rw [length] at late ⊢
    rw [split, removed]
    refine (finds_of_reads again bounds fun i survives => ?_).trans (finds_append clearLeft bounds fun i survives => ?_)
    · have range := survives_mark.mp survives
      omega
    · exact (not_survives_write _ survives).elim
  · rcases marker with rfl | rfl
    · exact Or.inl rfl
    · exact Or.inr rfl
  · rw [split, removed, sub_of_reads again, sub_append clearLeft, length, List.map_append, List.append_assoc]
    rfl

/-- A bearer token without a key in it. -/
theorem stretch_of_bearer (reads : bearerPattern.Reads name gap value rest) (pos : ℕ)
    (clear : Clear secretKeyPattern rest value) :
    ∃ keys bearers markers, Stretch pos (name ++ (gap ++ value)) rest keys bearers markers := by
  have keySpans : secretKeyPattern.spans pos (name ++ (gap ++ (value ++ rest))) =
      [] ++ secretKeyPattern.spans (pos + name.length + gap.length + value.length) rest := by
    rw [spans_head reads, spans_append clear, List.nil_append]
  have removed : secretKeyPattern.sub (mark pos (name ++ (gap ++ (value ++ rest)))) =
      mark pos name ++ (mark (pos + name.length) gap ++ (mark (pos + name.length + gap.length) value ++
        (List.map Spelled.write [] ++
          secretKeyPattern.sub (mark (pos + name.length + gap.length + value.length) rest)))) := by
    rw [sub_head reads, sub_mark_append clear, List.map_nil, List.nil_append]
  have noKeys : ∀ a ∈ ([] : List Span), pos + name.length + gap.length < a.start ∧
      a.stop = pos + name.length + gap.length + value.length := fun a impossible => absurd impossible List.not_mem_nil
  exact ⟨_, _, _, stretch_of_left reads rfl keySpans noKeys removed reads.value_ne_nil (fun c member => member) (Or.inl rfl)⟩

/-- A bearer token with a key behind other characters, up to its end. -/
theorem stretch_of_bearer_key {x word empty key : List Char}
    (reads : bearerPattern.Reads name gap (x ++ (word ++ (empty ++ key))) rest)
    (inside : secretKeyPattern.Reads word empty key rest) (nonempty : x ≠ [])
    (clear : Clear secretKeyPattern (word ++ (empty ++ (key ++ rest))) x) (pos : ℕ) :
    ∃ keys bearers markers, Stretch pos (name ++ (gap ++ (x ++ (word ++ (empty ++ key))))) rest keys bearers markers := by
  have filled := List.length_pos_of_ne_nil nonempty
  obtain ⟨value, valueEq⟩ : ∃ value, value = pos + name.length + gap.length := ⟨_, rfl⟩
  obtain ⟨start, startEq⟩ : ∃ start, start = value + x.length := ⟨_, rfl⟩
  obtain ⟨stop, stopEq⟩ : ∃ stop, stop = start + word.length + empty.length + key.length := ⟨_, rfl⟩
  have bearerStop : stop = pos + name.length + gap.length + (x ++ (word ++ (empty ++ key))).length := by
    simp only [List.length_append]
    omega
  have split : x ++ (word ++ (empty ++ key)) ++ rest = x ++ (word ++ (empty ++ (key ++ rest))) := by
    simp only [List.append_assoc]
  have keySpans : secretKeyPattern.spans pos (name ++ (gap ++ (x ++ (word ++ (empty ++ key)) ++ rest))) =
      [⟨start, start + word.length + empty.length, stop⟩] ++ secretKeyPattern.spans stop rest := by
    rw [split, spans_head reads, ← valueEq, spans_append clear, ← startEq, spans_of_reads inside, ← stopEq]
    rfl
  have removed : secretKeyPattern.sub (mark pos (name ++ (gap ++ (x ++ (word ++ (empty ++ key)) ++ rest)))) =
      mark pos name ++ (mark (pos + name.length) gap ++ (mark (pos + name.length + gap.length) x ++
        ("[redacted]".toList.map Spelled.write ++ secretKeyPattern.sub (mark stop rest)))) := by
    rw [split, sub_head reads, ← valueEq, sub_mark_append clear, ← startEq, sub_key inside, ← stopEq]
  refine ⟨_, _, _, stretch_of_left reads bearerStop keySpans ?_ removed nonempty (fun c member => ?_) (Or.inr rfl)⟩
  · intro a member
    cases List.mem_singleton.mp member
    dsimp only
    omega
  · exact List.mem_append_left _ member

/-- A key in which no bearer token begins. -/
theorem stretch_of_key (reads : secretKeyPattern.Reads name gap value rest)
    (clear : Clear bearerPattern rest (name ++ (gap ++ value)))
    (pos : ℕ) : ∃ keys bearers markers, Stretch pos (name ++ (gap ++ value)) rest keys bearers markers := by
  obtain ⟨stop, stopEq⟩ : ∃ stop, stop = pos + name.length + gap.length + value.length := ⟨_, rfl⟩
  have length : pos + (name ++ (gap ++ value)).length = stop := by
    simp only [List.length_append]
    omega
  have split : name ++ (gap ++ value) ++ rest = name ++ (gap ++ (value ++ rest)) := by simp only [List.append_assoc]
  have removed : secretKeyPattern.sub (mark pos (name ++ (gap ++ (value ++ rest)))) =
      "[redacted]".toList.map Spelled.write ++ secretKeyPattern.sub (mark stop rest) := by
    rw [sub_key reads, stopEq]
  have clearMarker := clear_redacted (secretKeyPattern.sub (mark stop rest))
  refine ⟨[⟨pos, pos + name.length + gap.length, stop⟩], [], "[redacted]".toList, ?_⟩
  constructor
  · rw [(secretKey_word reads).1]
    exact Or.inr ⟨rfl, rfl⟩
  · exact fun nothing => reads.name_ne_nil (List.append_eq_nil_iff.mp nothing).1
  · rw [split, spans_of_reads reads, ← stopEq, length]
    rfl
  · rw [spans_append clear]
    rfl
  · intro span member
    cases List.mem_singleton.mp member
    exact ⟨Nat.le_refl _, length.ge⟩
  · exact ⟨_, List.mem_singleton_self _, rfl, length.symm⟩
  · intro b impossible
    cases impossible
  · intro b impossible
    cases impossible
  · intro span late bounds
    rw [length, split, removed]
    exact finds_append clearMarker bounds fun i survives => (not_survives_write _ survives).elim
  · exact Or.inl rfl
  · rw [split, removed, sub_append clearMarker, length]

theorem plain_of_none {c : Char} (noKey : secretKeyPattern.matchAt (c :: rest) = none)
    (noBearer : bearerPattern.matchAt (c :: rest) = none) (pos : ℕ) : Plain pos c rest := by
  have removed : secretKeyPattern.sub (mark pos (c :: rest)) =
      ⟨c, some pos⟩ :: secretKeyPattern.sub (mark (pos + 1) rest) := by
    rw [mark, sub_cons]
    rw [spell_cons, spell_mark]
    exact noKey
  have still : bearerPattern.matchAt (spell (⟨c, some pos⟩ :: secretKeyPattern.sub (mark (pos + 1) rest))) = none := by
    rw [← removed, spell_sub, spell_mark]
    exact matchAt_none_of_isPrefix bearerPattern_within (takeWhile_sub_isPrefix rfl (by decide)) noBearer
  constructor
  · exact spans_cons noKey
  · exact spans_cons noBearer
  · intro span late bounds
    rw [removed]
    refine finds_append (s := [⟨c, some pos⟩]) ⟨still, trivial⟩ bounds fun i survives => ?_
    have same := survives_singleton.mp survives
    omega
  · rw [removed, sub_cons still]

theorem no_token (reads : bearerPattern.Reads name gap value rest) : bearerPattern.matchAt (name ++ gap) = none := by
  refine Rule.matchAt_eq_none_iff.mpr ?_
  intro n g v z split there
  have sixLetters : ∀ word : List Char, word.map bearerPattern.fold ∈ bearerPattern.words → word.length = 6 := by
    intro word listed
    rw [← List.length_map, List.mem_singleton.mp listed]
    rfl
  obtain ⟨_, between⟩ := List.append_inj split ((sixLetters _ reads.word).trans (sixLetters _ there.word).symm)
  cases v with
  | nil => exact there.value_ne_nil rfl
  | cons c v =>
    have blank := bearer_blank reads c (by rw [between]; simp)
    rw [bearerPattern.spaceless c (there.inValue c List.mem_cons_self)] at blank
    cases blank

theorem clash_of {pos : ℕ} {b a : Span} (bMember : b ∈ bearerPattern.spans pos text)
    (aMember : a ∈ secretKeyPattern.spans pos text)
    (first : a.start < b.stop) (second : b.start < a.stop) (apart : ¬(b.value < a.start ∧ a.stop = b.stop))
    (hidden : ¬bearerPattern.Finds (secretKeyPattern.sub (mark pos text)) b) : Clash pos text :=
  ⟨fun atEnd => apart (atEnd b bMember a aMember first second), fun found => hidden (found b bMember)⟩

/-- A key right behind the word of a bearer token hides the token. -/
theorem clash_at_start {word empty key z : List Char} (reads : bearerPattern.Reads name gap value rest)
    (split : value ++ rest = word ++ (empty ++ (key ++ z))) (inside : secretKeyPattern.Reads word empty key z) (pos : ℕ) :
    Clash pos (name ++ (gap ++ (value ++ rest))) := by
  have worded := List.length_pos_of_ne_nil inside.name_ne_nil
  have keyed := List.length_pos_of_ne_nil inside.value_ne_nil
  have valued := List.length_pos_of_ne_nil reads.value_ne_nil
  obtain ⟨start, startEq⟩ : ∃ start, start = pos + name.length + gap.length := ⟨_, rfl⟩
  obtain ⟨stop, stopEq⟩ : ∃ stop, stop = start + word.length + empty.length + key.length := ⟨_, rfl⟩
  have bearerThere : (⟨pos, start, start + value.length⟩ : Span) ∈
      bearerPattern.spans pos (name ++ (gap ++ (value ++ rest))) := by
    rw [spans_of_reads reads, ← startEq]
    exact List.mem_cons_self
  have keyThere : (⟨start, start + word.length + empty.length, stop⟩ : Span) ∈
      secretKeyPattern.spans pos (name ++ (gap ++ (value ++ rest))) := by
    rw [spans_head reads, ← startEq, split, spans_of_reads inside, ← stopEq]
    exact List.mem_cons_self
  have removed : secretKeyPattern.sub (mark pos (name ++ (gap ++ (value ++ rest)))) =
      mark pos name ++ (mark (pos + name.length) gap ++
        ("[redacted]".toList.map Spelled.write ++ secretKeyPattern.sub (mark stop z))) := by
    rw [sub_head reads, ← startEq, split, sub_key inside, stopEq]
  refine clash_of bearerThere keyThere (by dsimp only; omega) (by dsimp only; omega) (fun both => Nat.lt_irrefl _ both.1) ?_
  rw [removed]
  cases name with
  | nil => exact absurd rfl reads.name_ne_nil
  | cons c name =>
    rw [mark, List.cons_append]
    refine not_finds_of_unmatched ?_ ?_
    · have spelled : spell (mark (pos + 1) name ++ (mark (pos + (c :: name).length) gap ++
          ("[redacted]".toList.map Spelled.write ++ secretKeyPattern.sub (mark stop z)))) =
          name ++ (gap ++ '[' :: ("redacted]".toList ++ spell (secretKeyPattern.sub (mark stop z)))) := by
        simp only [spell_append, spell_mark]
        rfl
      rw [spell_cons, spelled]
      refine matchAt_none_of_isPrefix bearerPattern_within ?_ (no_token reads)
      have isPrefix : (c :: name ++ gap ++ '[' :: ("redacted]".toList ++
          spell (secretKeyPattern.sub (mark stop z)))).takeWhile inBearer <+: c :: name ++ gap :=
        takeWhile_append_isPrefix (by decide) _ _
      rw [List.append_assoc] at isPrefix
      exact isPrefix
    · intro survives
      simp only [survives_append, survives_mark] at survives
      rcases survives with named | between | marker | later
      · omega
      · rw [List.length_cons] at between
        omega
      · exact not_survives_write _ marker
      · have range := survives_mark.mp later.of_sub
        rw [List.length_cons] at startEq
        omega

/-- A key that ends before the bearer token leaves the end of the token. -/
theorem clash_before_end {x word empty key w : List Char} {c : Char}
    (reads : bearerPattern.Reads name gap (x ++ (word ++ (empty ++ (key ++ c :: w)))) rest)
    (inside : secretKeyPattern.Reads word empty key (c :: (w ++ rest))) (nonempty : x ≠ [])
    (clear : Clear secretKeyPattern (word ++ (empty ++ (key ++ c :: (w ++ rest)))) x) (pos : ℕ) :
    Clash pos (name ++ (gap ++ (x ++ (word ++ (empty ++ (key ++ c :: (w ++ rest))))))) := by
  have named := List.length_pos_of_ne_nil reads.name_ne_nil
  have worded := List.length_pos_of_ne_nil inside.name_ne_nil
  have filled := List.length_pos_of_ne_nil nonempty
  obtain ⟨value, valueEq⟩ : ∃ value, value = pos + name.length + gap.length := ⟨_, rfl⟩
  obtain ⟨start, startEq⟩ : ∃ start, start = value + x.length := ⟨_, rfl⟩
  obtain ⟨stop, stopEq⟩ : ∃ stop, stop = start + word.length + empty.length + key.length := ⟨_, rfl⟩
  have bearerThere : (⟨pos, value, stop + (w.length + 1)⟩ : Span) ∈
      bearerPattern.spans pos (name ++ (gap ++ (x ++ (word ++ (empty ++ (key ++ c :: (w ++ rest))))))) := by
    have length : value + (x ++ (word ++ (empty ++ (key ++ c :: w)))).length = stop + (w.length + 1) := by
      simp only [List.length_append, List.length_cons]
      omega
    have split : name ++ (gap ++ (x ++ (word ++ (empty ++ (key ++ c :: (w ++ rest)))))) =
        name ++ (gap ++ ((x ++ (word ++ (empty ++ (key ++ c :: w)))) ++ rest)) := by
      simp only [List.append_assoc, List.cons_append]
    rw [split, spans_of_reads reads, ← valueEq, length]
    exact List.mem_cons_self
  have keyThere : (⟨start, start + word.length + empty.length, stop⟩ : Span) ∈
      secretKeyPattern.spans pos (name ++ (gap ++ (x ++ (word ++ (empty ++ (key ++ c :: (w ++ rest))))))) := by
    rw [spans_head reads, ← valueEq, spans_append clear, ← startEq, spans_of_reads inside, ← stopEq]
    exact List.mem_cons_self
  have outside : secretKeyPattern.inValue c = false := inside.stops c rfl
  have noKey : secretKeyPattern.matchAt (spell (mark stop (c :: (w ++ rest)))) = none := by
    rw [spell_mark]
    refine matchAt_none_of_head fun listed member same => ?_
    rw [List.mem_singleton.mp member] at same
    cases same
    cases outside
  have removed : secretKeyPattern.sub (mark pos (name ++ (gap ++ (x ++ (word ++ (empty ++ (key ++ c :: (w ++ rest)))))))) =
      mark pos name ++ (mark (pos + name.length) gap ++ (mark value x ++
        ("[redacted]".toList.map Spelled.write ++ ⟨c, some stop⟩ :: secretKeyPattern.sub (mark (stop + 1) (w ++ rest))))) := by
    rw [sub_head reads, ← valueEq, sub_mark_append clear, ← startEq, sub_key inside, ← stopEq, mark, sub_cons noKey]
  have again : bearerPattern.Reads (spell (mark pos name)) (spell (mark (pos + name.length) gap))
      (spell (mark value x)) (spell ("[redacted]".toList.map Spelled.write ++
        (⟨c, some stop⟩ :: secretKeyPattern.sub (mark (stop + 1) (w ++ rest)) : List Glyph))) := by
    simp only [spell_mark]
    refine ⟨reads.word, reads.gap, filled, fun d member => reads.inValue d (List.mem_append_left _ member), ?_⟩
    intro d first
    cases first
    rfl
  have noBearer :
      bearerPattern.matchAt (spell (⟨c, some stop⟩ :: secretKeyPattern.sub (mark (stop + 1) (w ++ rest)))) = none := by
    refine matchAt_none_of_head fun listed member same => ?_
    rw [List.mem_singleton.mp member] at same
    have letter : secretKeyPattern.inValue c = true := inKey_of_foldCase (Option.some.inj same).symm
    rw [letter] at outside
    cases outside
  refine clash_of bearerThere keyThere (by dsimp only; omega) (by dsimp only; omega) ?_ ?_
  · rintro ⟨-, ends⟩
    dsimp only at ends
    omega
  · intro found
    refine found.2 stop ⟨?_, ?_⟩ ?_
    · rw [if_neg (by decide)]
      dsimp only
      omega
    · dsimp only
      omega
    · rw [removed, sub_of_reads again, sub_append (clear_redacted _), sub_cons noBearer]
      refine survives_append.mpr (Or.inr (survives_append.mpr (Or.inr (survives_append.mpr (Or.inr ?_)))))
      exact ⟨_, List.mem_cons_self, rfl⟩

/-- A bearer token that begins within a key is hidden. -/
theorem clash_of_key (reads : secretKeyPattern.Reads name gap value rest) (pos : ℕ) {span : Span}
    (member : span ∈ bearerPattern.spans pos (name ++ (gap ++ (value ++ rest))))
    (early : span.start < pos + name.length + gap.length + value.length) :
    Clash pos (name ++ (gap ++ (value ++ rest))) := by
  have bounds := span_bounds member
  obtain ⟨stop, stopEq⟩ : ∃ stop, stop = pos + name.length + gap.length + value.length := ⟨_, rfl⟩
  have keyThere : (⟨pos, pos + name.length + gap.length, stop⟩ : Span) ∈
      secretKeyPattern.spans pos (name ++ (gap ++ (value ++ rest))) := by
    rw [spans_of_reads reads, ← stopEq]
    exact List.mem_cons_self
  refine clash_of member keyThere (by dsimp only; omega) (by dsimp only; omega) ?_ (not_finds ?_)
  · rintro ⟨ends, -⟩
    dsimp only at ends
    omega
  · rw [sub_key reads, ← stopEq]
    intro survives
    rcases survives_append.mp survives with marker | later
    · exact not_survives_write _ marker
    · have range := survives_mark.mp later.of_sub
      omega

theorem inKey_of_reads (reads : secretKeyPattern.Reads name gap value rest) {c : Char} (member : c ∈ name ++ (gap ++ value)) :
    secretKeyPattern.inValue c = true := secretKeyPattern_within name gap value rest reads c member

theorem cases_of_key (reads : secretKeyPattern.Reads name gap value rest) (pos : ℕ) :
    (∃ keys bearers markers, Stretch pos (name ++ (gap ++ value)) rest keys bearers markers) ∨
      Clash pos (name ++ (gap ++ (value ++ rest))) := by
  by_cases early : ∃ span ∈ bearerPattern.spans pos (name ++ (gap ++ (value ++ rest))),
      span.start < pos + name.length + gap.length + value.length
  · obtain ⟨span, member, before⟩ := early
    exact Or.inr (clash_of_key reads pos member before)
  · left
    refine stretch_of_key reads (clear_of_spans pos fun span member => ?_) pos
    simp only [List.append_assoc] at member
    have late := not_lt.mp fun before => early ⟨span, member, before⟩
    simp only [List.length_append]
    omega

/-- A key that begins in a token ends in it. -/
theorem key_in_token {y word empty key z : List Char} (stops : ∀ c ∈ rest.head?, bearerPattern.inValue c = false)
    (split : y ++ rest = word ++ (empty ++ (key ++ z))) (inside : secretKeyPattern.Reads word empty key z) :
    ∃ left, y = word ++ (empty ++ key) ++ left ∧ z = left ++ rest := by
  have grouped : y ++ rest = word ++ (empty ++ key) ++ z := by
    rw [split]
    simp only [List.append_assoc]
  rcases List.append_eq_append_iff.mp grouped with ⟨more, longer, after⟩ | ⟨left, shorter, after⟩
  · cases more with
    | nil => exact ⟨[], by rw [longer, List.append_nil, List.append_nil], after.symm⟩
    | cons e more =>
      have outside := stops e (by rw [after]; rfl)
      rw [inBearer_of_inKey (inKey_of_reads inside (by rw [longer]; simp))] at outside
      cases outside
  · exact ⟨left, shorter, after⟩

theorem cases_of_bearer (reads : bearerPattern.Reads name gap value rest) (pos : ℕ) :
    (∃ keys bearers markers, Stretch pos (name ++ (gap ++ value)) rest keys bearers markers) ∨
      Clash pos (name ++ (gap ++ (value ++ rest))) := by
  rcases clear_or_first (r := secretKeyPattern) value rest with clear | ⟨x, y, rfl, nonempty, clear, matched⟩
  · exact Or.inl (stretch_of_bearer reads pos clear)
  · obtain ⟨found, matched⟩ := Option.ne_none_iff_exists'.mp matched
    obtain ⟨word, empty, key, z, split, inside⟩ := Rule.reads_of_matchAt matched
    cases x with
    | nil => exact Or.inr (clash_at_start reads split inside pos)
    | cons d x =>
      obtain ⟨left, rfl, rfl⟩ := key_in_token reads.stops split inside
      cases left with
      | nil =>
        rw [List.append_nil] at reads clear ⊢
        exact Or.inl (stretch_of_bearer_key reads inside (List.cons_ne_nil d x)
          (by simpa only [List.append_assoc] using clear) pos)
      | cons e w =>
        right
        have clash := clash_before_end (x := d :: x) (by simpa only [List.append_assoc] using reads) inside
          (List.cons_ne_nil d x) (by simpa only [List.append_assoc, List.cons_append] using clear) pos
        simpa only [List.append_assoc, List.cons_append] using clash

/-- What both scans do where they come to the same place. -/
theorem text_cases (pos : ℕ) (text : List Char) : text = [] ∨
    (∃ body rest keys bearers markers, text = body ++ rest ∧ Stretch pos body rest keys bearers markers) ∨
      (∃ c rest, text = c :: rest ∧ Plain pos c rest) ∨ Clash pos text := by
  cases text with
  | nil => exact Or.inl rfl
  | cons d tail =>
    right
    by_cases noBearer : bearerPattern.matchAt (d :: tail) = none
    · by_cases noKey : secretKeyPattern.matchAt (d :: tail) = none
      · exact Or.inr (Or.inl ⟨d, tail, rfl, plain_of_none noKey noBearer pos⟩)
      · obtain ⟨found, matched⟩ := Option.ne_none_iff_exists'.mp noKey
        obtain ⟨name, gap, value, rest, split, reads⟩ := Rule.reads_of_matchAt matched
        rw [split]
        rcases cases_of_key reads pos with ⟨keys, bearers, markers, stretch⟩ | clash
        · exact Or.inl ⟨_, rest, keys, bearers, markers, by simp only [List.append_assoc], stretch⟩
        · exact Or.inr (Or.inr clash)
    · obtain ⟨found, matched⟩ := Option.ne_none_iff_exists'.mp noBearer
      obtain ⟨name, gap, value, rest, split, reads⟩ := Rule.reads_of_matchAt matched
      rw [split]
      rcases cases_of_bearer reads pos with ⟨keys, bearers, markers, stretch⟩ | clash
      · exact Or.inl ⟨_, rest, keys, bearers, markers, by simp only [List.append_assoc], stretch⟩
      · exact Or.inr (Or.inr clash)

end Steps

/-- The bearer tokens of a text are found after the keys are taken out exactly
where each key in a token is a proper end of it. -/
theorem bearers_found_iff (pos : ℕ) (text : List Char) :
    (∀ b ∈ bearerPattern.spans pos text, bearerPattern.Finds (secretKeyPattern.sub (mark pos text)) b) ↔
      KeysAtEnd pos text := by
  induction length : text.length using Nat.strong_induction_on generalizing pos text with
  | _ n ih =>
    rcases text_cases pos text with rfl | ⟨body, rest, keys, bearers, markers, rfl, stretch⟩ | ⟨c, rest, rfl, plain⟩ | clash
    · exact ⟨fun _ b impossible => absurd impossible List.not_mem_nil,
        fun _ b impossible => absurd impossible List.not_mem_nil⟩
    · have shorter := List.length_pos_of_ne_nil stretch.nonempty
      rw [List.length_append] at length
      have rest' := ih rest.length (by omega) (pos + body.length) rest rfl
      rw [KeysAtEnd, stretch.bearerSpans, stretch.keySpans]
      have bound {span : Span} (member : span ∈ keys ++ bearers) := (stretch.within span member).2
      constructor
      · intro found b bMember a aMember first second
        rcases List.mem_append.mp bMember with bHere | bLater
        · rcases List.mem_append.mp aMember with aHere | aLater
          · exact stretch.atEnd b bHere a aHere
          · have lower := (span_bounds aLater).1
            have upper := bound (List.mem_append_right keys bHere)
            omega
        · rcases List.mem_append.mp aMember with aHere | aLater
          · have lower := (span_bounds bLater).1
            have upper := bound (List.mem_append_left bearers aHere)
            omega
          · refine rest'.mp (fun later member => ?_) b bLater a aLater first second
            have bounds := span_bounds member
            exact (stretch.later later bounds.1 bounds.2.1).mp (found later (List.mem_append_right bearers member))
      · intro atEnd b bMember
        rcases List.mem_append.mp bMember with bHere | bLater
        · exact stretch.found b bHere
        · have bounds := span_bounds bLater
          refine (stretch.later b bounds.1 bounds.2.1).mpr (rest'.mpr (fun later member a aMember => ?_) b bLater)
          exact atEnd later (List.mem_append_right bearers member) a (List.mem_append_right keys aMember)
    · rw [List.length_cons] at length
      have rest' := ih rest.length (by omega) (pos + 1) rest rfl
      rw [KeysAtEnd, plain.bearers, plain.keys]
      rw [KeysAtEnd] at rest'
      refine Iff.trans (forall₂_congr fun b member => ?_) rest'
      have bounds := span_bounds member
      exact plain.later b bounds.1 bounds.2.1
    · exact ⟨fun found => absurd found clash.hidden, fun atEnd => absurd atEnd clash.overlap⟩

end Centroid
