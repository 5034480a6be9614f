import Centroid.Lib.RewriteScan

namespace Redaction

/-- A character with its place in the text before all rewriting, or one that was
put in. -/
structure Glyph where
  char : Char
  origin : Option ℕ
  deriving DecidableEq

instance : Spelled Glyph := ⟨Glyph.char, fun c => ⟨c, none⟩, fun _ => rfl⟩

/-- The characters of a text with their places. -/
def mark (pos : ℕ) : List Char → List Glyph
  | [] => []
  | c :: rest => ⟨c, some pos⟩ :: mark (pos + 1) rest

/-- The character at a place is still there. -/
def Survives (i : ℕ) (text : List Glyph) : Prop := ∃ g ∈ text, g.origin = some i

/-- The places that a match keeps secret: all of it, or its value. -/
def Rule.Secret (r : Rule) (span : Span) (i : ℕ) : Prop :=
  (if r.keepsWord then span.value else span.start) ≤ i ∧ i < span.stop

/-- A match that is not hidden in a rewritten text: one begins where it began,
and nothing secret of it is left after the pattern's turn. -/
def Rule.Finds (r : Rule) (text : List Glyph) (span : Span) : Prop :=
  Survives span.start (r.starts text) ∧ ∀ i, r.Secret span i → ¬Survives i (r.sub text)

variable {r : Rule} {pos i : ℕ} {text u v : List Char} {s t : List Glyph} {span : Span}

@[simp] theorem spell_mark (pos : ℕ) (text : List Char) : spell (mark pos text) = text := by
  induction text generalizing pos with
  | nil => rfl
  | cons c rest ih => rw [mark, spell_cons, ih]; rfl

@[simp] theorem length_mark (pos : ℕ) (text : List Char) : (mark pos text).length = text.length := by
  rw [← length_spell, spell_mark]

theorem mark_append (pos : ℕ) (u v : List Char) : mark pos (u ++ v) = mark pos u ++ mark (pos + u.length) v := by
  induction u generalizing pos with
  | nil => rfl
  | cons c u ih => rw [List.cons_append, mark, mark, ih, List.cons_append, List.length_cons, Nat.add_right_comm, Nat.add_assoc]

/-- The scan of marked characters in which no match begins. -/
theorem sub_mark_append (clear : Clear r v u) (pos : ℕ) :
    r.sub (mark pos (u ++ v)) = mark pos u ++ r.sub (mark (pos + u.length) v) := by
  rw [mark_append]
  refine sub_append (clear_of_spell ?_)
  rwa [spell_mark, spell_mark]

theorem reads_mark {name gap value rest : List Char} (reads : r.Reads name gap value rest) (pos : ℕ) :
    r.Reads (spell (mark pos name)) (spell (mark (pos + name.length) gap))
      (spell (mark (pos + name.length + gap.length) value))
      (spell (mark (pos + name.length + gap.length + value.length) rest)) := by
  simpa only [spell_mark] using reads

/-- The scan of a marked match. -/
theorem sub_mark_of_reads {name gap value rest : List Char} (reads : r.Reads name gap value rest) (pos : ℕ) :
    r.sub (mark pos (name ++ (gap ++ (value ++ rest)))) = (if r.keepsWord then mark pos name else []) ++
      (r.inserted.map Spelled.write ++ r.sub (mark (pos + name.length + gap.length + value.length) rest)) := by
  rw [mark_append, mark_append, mark_append, sub_of_reads (reads_mark reads pos)]

theorem survives_append : Survives i (s ++ t) ↔ Survives i s ∨ Survives i t := by
  simp only [Survives, List.mem_append, or_and_right, exists_or]

theorem survives_mark : Survives i (mark pos text) ↔ pos ≤ i ∧ i < pos + text.length := by
  induction text generalizing pos with
  | nil =>
    constructor
    · rintro ⟨_, member, _⟩
      cases member
    · rintro ⟨lower, upper⟩
      rw [List.length_nil] at upper
      omega
  | cons c rest ih =>
    have split : Survives i (mark pos (c :: rest)) ↔ pos = i ∨ Survives i (mark (pos + 1) rest) := by
      simp only [Survives, mark, List.mem_cons, or_and_right, exists_or, exists_eq_left, Option.some.injEq]
    rw [split, ih, List.length_cons]
    omega

theorem survives_singleton {c : Char} : Survives i [⟨c, some pos⟩] ↔ pos = i := by
  simp only [Survives, List.mem_singleton, exists_eq_left, Option.some.injEq]

theorem survives_first (nonempty : text ≠ []) : Survives pos ((mark pos text).take 1) := by
  cases text with
  | nil => exact absurd rfl nonempty
  | cons c rest => exact ⟨⟨c, some pos⟩, List.mem_cons_self, rfl⟩

theorem not_survives_write (w : List Char) : ¬Survives i (w.map Spelled.write) := by
  rintro ⟨g, member, origin⟩
  obtain ⟨c, _, rfl⟩ := List.mem_map.mp member
  cases origin

theorem Survives.of_sub (survives : Survives i (r.sub t)) : Survives i t := by
  obtain ⟨g, member, origin⟩ := survives
  rcases mem_sub member with before | inserted
  · exact ⟨g, before, origin⟩
  · exact (not_survives_write r.inserted ⟨g, inserted, origin⟩).elim

theorem Survives.of_starts (survives : Survives i (r.starts t)) : Survives i t := by
  obtain ⟨g, member, origin⟩ := survives
  exact ⟨g, mem_of_mem_starts member, origin⟩

theorem start_le_of_secret (bounds : span.start < span.value) (secret : r.Secret span i) : span.start ≤ i := by
  unfold Rule.Secret at secret
  split at secret
  all_goals omega

/-- What a scan passes before a match does not matter to whether it is found. -/
theorem finds_append (clear : Clear r t s) (bounds : span.start < span.value) (before : ∀ i, Survives i s → i < span.start) :
    r.Finds (s ++ t) span ↔ r.Finds t span := by
  unfold Rule.Finds
  rw [starts_append clear, sub_append clear]
  refine and_congr_right fun _ => forall₂_congr fun i secret => not_congr ?_
  rw [survives_append, or_iff_right]
  intro early
  have lower := start_le_of_secret bounds secret
  have upper := before i early
  omega

/-- Nor does an earlier match. -/
theorem finds_of_reads {name gap value rest : List Glyph}
    (reads : r.Reads (spell name) (spell gap) (spell value) (spell rest)) (bounds : span.start < span.value)
    (before : ∀ i, Survives i name → i < span.start) :
    r.Finds (name ++ (gap ++ (value ++ rest))) span ↔ r.Finds rest span := by
  unfold Rule.Finds
  rw [starts_of_reads reads, sub_of_reads reads]
  refine and_congr ?_ (forall₂_congr fun i secret => not_congr ?_)
  · rw [survives_append, or_iff_right]
    rintro ⟨g, member, origin⟩
    have upper := before _ ⟨g, List.mem_of_mem_take member, origin⟩
    omega
  · have lower := start_le_of_secret bounds secret
    rw [survives_append, survives_append, or_iff_right, or_iff_right (not_survives_write r.inserted)]
    intro early
    split at early
    · have upper := before i early
      omega
    · obtain ⟨_, impossible, _⟩ := early
      cases impossible

/-- A match is found where it is read, if nothing secret of it stands behind. -/
theorem finds_here {name gap value rest : List Glyph}
    (reads : r.Reads (spell name) (spell gap) (spell value) (spell rest)) (start : Survives span.start (name.take 1))
    (kept : r.keepsWord = true → ∀ i, Survives i name → i < span.value)
    (after : ∀ i, Survives i rest → span.stop ≤ i) : r.Finds (name ++ (gap ++ (value ++ rest))) span := by
  unfold Rule.Finds
  rw [starts_of_reads reads, sub_of_reads reads]
  refine ⟨survives_append.mpr (Or.inl start), fun i secret => ?_⟩
  rw [survives_append, survives_append]
  rintro (early | inserted | late)
  · split at early
    · rename_i keeps
      have upper := kept keeps i early
      rw [Rule.Secret, if_pos keeps] at secret
      omega
    · obtain ⟨_, impossible, _⟩ := early
      cases impossible
  · exact not_survives_write r.inserted inserted
  · have lower := after i late.of_sub
    exact absurd secret.2 (Nat.not_lt.mpr lower)

/-- A match whose first character is gone is hidden. -/
theorem not_finds (gone : ¬Survives span.start t) : ¬r.Finds t span := fun found => gone found.1.of_starts

/-- A match is hidden where the text goes on without it. -/
theorem not_finds_of_unmatched {g : Glyph} (unmatched : r.matchAt (spell (g :: t)) = none) (gone : ¬Survives span.start t) :
    ¬r.Finds (g :: t) span := by
  intro found
  have first := found.1
  rw [starts_cons unmatched] at first
  exact gone first.of_starts

/-- A pattern finds its matches in the text itself. -/
theorem finds_own (member : span ∈ r.spans pos text) : r.Finds (mark pos text) span := by
  induction text using @scan_induction Char _ r generalizing pos with
  | nil => cases member
  | cons c rest unmatched ih =>
    rw [spell_chars] at unmatched
    rw [spans_cons unmatched] at member
    have bounds := span_bounds member
    refine (finds_append (s := [⟨c, some pos⟩]) ⟨?_, trivial⟩ bounds.2.1 ?_).mpr (ih member)
    · rw [List.nil_append, spell_cons, spell_mark]
      exact unmatched
    · intro i survives
      have same := survives_singleton.mp survives
      omega
  | hit name gap value rest reads ih =>
    simp only [spell_chars] at reads
    rw [spans_of_reads reads] at member
    have marked := reads_mark reads pos
    rw [mark_append, mark_append, mark_append]
    have named := List.length_pos_of_ne_nil reads.name_ne_nil
    rcases List.mem_cons.mp member with rfl | later
    · refine finds_here marked ?_ (fun _ i survives => ?_) fun i survives => ?_
      · exact survives_first reads.name_ne_nil
      · have range := survives_mark.mp survives
        dsimp only
        omega
      · exact (survives_mark.mp survives).1
    · have bounds := span_bounds later
      refine (finds_of_reads marked bounds.2.1 fun i survives => ?_).mpr (ih later)
      have range := survives_mark.mp survives
      omega

theorem spell_sub {α : Type} [Spelled α] (text : List α) : spell (r.sub text) = r.sub (spell text) := by
  induction text using @scan_induction α _ r with
  | nil => rfl
  | cons g rest unmatched ih =>
    rw [sub_cons unmatched, spell_cons, ih, spell_cons, sub_cons (by rwa [spell_chars, ← spell_cons])]
  | hit name gap value rest reads ih =>
    have written : spell (r.inserted.map (Spelled.write : Char → α)) = r.inserted.map Spelled.write :=
      (spell_write _).trans (List.map_id _).symm
    have plain : r.Reads (spell (spell name)) (spell (spell gap)) (spell (spell value)) (spell (spell rest)) := by
      simpa only [spell_chars] using reads
    rw [sub_of_reads reads, spell_append, spell_append, written, ih, spell_append, spell_append, spell_append,
      sub_of_reads plain]
    split <;> rfl

end Redaction
