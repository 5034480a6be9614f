import Centroid.Lib.Redaction

namespace Redaction

variable {α : Type} [Spelled α]

/-- What a scan from left to right finds: a thing outside of all matches, or a
match. -/
inductive Piece (α : Type) where
  | kept (g : α)
  | hit (name gap value : List α)

namespace Rule

variable (r : Rule)

/-- The scan, behind as many things as belong to the last match. -/
def piecesFrom : ℕ → List α → List (Piece α)
  | _, [] => []
  | skip + 1, _ :: rest => piecesFrom skip rest
  | 0, g :: rest =>
    match r.matchAt (spell (g :: rest)) with
    | none => .kept g :: piecesFrom 0 rest
    | some found =>
      let body := (g :: rest).take (found.name + found.gap + found.value)
      .hit (body.take found.name) ((body.drop found.name).take found.gap) (body.drop (found.name + found.gap)) ::
        piecesFrom (found.name + found.gap + found.value - 1) rest

def pieces (text : List α) : List (Piece α) := r.piecesFrom 0 text

/-- What is put in the place of a piece. -/
def rewrite : Piece α → List α
  | .kept g => [g]
  | .hit name _ _ => (if r.keepsWord then name else []) ++ r.inserted.map Spelled.write

/-- `pattern.sub`. -/
def sub (text : List α) : List α := (r.pieces text).flatMap r.rewrite

/-- The things at which the matches begin. -/
def starts (text : List α) : List α :=
  (r.pieces text).flatMap fun
    | .kept _ => []
    | .hit name _ _ => name.take 1

end Rule

/-- Where a match begins, where its value begins and where it ends. -/
structure Span where
  start : ℕ
  value : ℕ
  stop : ℕ
  deriving DecidableEq

def spansOf (pos : ℕ) : List (Piece α) → List Span
  | [] => []
  | .kept _ :: rest => spansOf (pos + 1) rest
  | .hit name gap value :: rest =>
    ⟨pos, pos + name.length + gap.length, pos + name.length + gap.length + value.length⟩ ::
      spansOf (pos + name.length + gap.length + value.length) rest

namespace Rule

variable (r : Rule)

def spans (pos : ℕ) (text : List Char) : List Span := spansOf pos (r.pieces text)

/-- `pattern.finditer`. -/
def finditer (text : List Char) : List Span := r.spans 0 text

end Rule

section Scan

variable {r : Rule}

theorem piecesFrom_eq (skip : ℕ) (text : List α) : r.piecesFrom skip text = r.pieces (text.drop skip) := by
  induction text generalizing skip with
  | nil => cases skip <;> rfl
  | cons g rest ih =>
    cases skip with
    | zero => rfl
    | succ skip => rw [Rule.piecesFrom, ih, List.drop_succ_cons]

@[simp] theorem pieces_nil : r.pieces ([] : List α) = [] := rfl

theorem pieces_cons {g : α} {rest : List α} (unmatched : r.matchAt (spell (g :: rest)) = none) :
    r.pieces (g :: rest) = .kept g :: r.pieces rest := by
  rw [Rule.pieces, Rule.piecesFrom, unmatched]
  rfl

theorem Rule.Reads.name_ne_nil {name gap value rest : List Char} (reads : r.Reads name gap value rest) : name ≠ [] := by
  rintro rfl
  exact r.nonempty reads.word

theorem pieces_of_reads {name gap value rest : List α}
    (reads : r.Reads (spell name) (spell gap) (spell value) (spell rest)) :
    r.pieces (name ++ (gap ++ (value ++ rest))) = .hit name gap value :: r.pieces rest := by
  have matched : r.matchAt (spell (name ++ (gap ++ (value ++ rest)))) =
      some ⟨name.length, gap.length, value.length⟩ := by
    simpa only [spell_append, length_spell] using Rule.matchAt_of_reads reads
  have body : (name ++ (gap ++ (value ++ rest))).take (name.length + gap.length + value.length) =
      name ++ (gap ++ value) := by
    rw [← List.append_assoc gap, ← List.append_assoc name, List.take_left']
    simp only [List.length_append, Nat.add_assoc]
  have later : (name ++ (gap ++ (value ++ rest))).drop (name.length + gap.length + value.length) = rest := by
    rw [← List.append_assoc gap, ← List.append_assoc name, List.drop_left']
    simp only [List.length_append, Nat.add_assoc]
  cases name with
  | nil => exact absurd rfl reads.name_ne_nil
  | cons g name =>
    have skipped : (g :: name).length + gap.length + value.length - 1 = name.length + gap.length + value.length := by
      rw [List.length_cons]
      omega
    rw [List.cons_append, List.length_cons, Nat.add_right_comm _ 1, Nat.add_right_comm _ 1, List.drop_succ_cons] at later
    rw [Rule.pieces, List.cons_append, Rule.piecesFrom]
    rw [List.cons_append] at matched body
    simp only [matched, body, piecesFrom_eq, skipped, later]
    congr 2
    · exact List.take_left
    · rw [List.drop_left, List.take_left]
    · rw [← List.append_assoc, ← List.length_append, List.drop_left]

omit [Spelled α] in
/-- Parts of what a text is read as are parts of the text. -/
theorem exists_parts {f : α → Char} {text : List α} {name gap value rest : List Char}
    (split : text.map f = name ++ (gap ++ (value ++ rest))) :
    ∃ n g v t, text = n ++ (g ++ (v ++ t)) ∧ n.map f = name ∧ g.map f = gap ∧ v.map f = value ∧ t.map f = rest := by
  obtain ⟨n, x, rfl, atName, split⟩ := List.map_eq_append_iff.mp split
  obtain ⟨g, x, rfl, atGap, split⟩ := List.map_eq_append_iff.mp split
  obtain ⟨v, t, rfl, atValue, atRest⟩ := List.map_eq_append_iff.mp split
  exact ⟨n, g, v, t, rfl, atName, atGap, atValue, atRest⟩

theorem exists_reads {text : List α} (matched : r.matchAt (spell text) ≠ none) :
    ∃ name gap value rest, text = name ++ (gap ++ (value ++ rest)) ∧
      r.Reads (spell name) (spell gap) (spell value) (spell rest) := by
  obtain ⟨found, matched⟩ := Option.ne_none_iff_exists'.mp matched
  obtain ⟨name, gap, value, rest, split, reads⟩ := Rule.reads_of_matchAt matched
  obtain ⟨n, g, v, t, whole, rfl, rfl, rfl, rfl⟩ := exists_parts split
  exact ⟨n, g, v, t, whole, reads⟩

/-- A proof about a scan: it comes to the end, passes a thing or passes a match. -/
theorem scan_induction {P : List α → Prop} (nil : P [])
    (cons : ∀ g rest, r.matchAt (spell (g :: rest)) = none → P rest → P (g :: rest))
    (hit : ∀ name gap value rest, r.Reads (spell name) (spell gap) (spell value) (spell rest) → P rest →
      P (name ++ (gap ++ (value ++ rest)))) (text : List α) : P text := by
  induction length : text.length using Nat.strong_induction_on generalizing text with
  | _ n ih =>
    cases text with
    | nil => exact nil
    | cons g rest =>
      by_cases unmatched : r.matchAt (spell (g :: rest)) = none
      · exact cons g rest unmatched (ih rest.length (by simp [← length]) rest rfl)
      · obtain ⟨name, gap, value, after, split, reads⟩ := exists_reads unmatched
        rw [split]
        refine hit name gap value after reads (ih after.length ?_ after rfl)
        have nonempty := List.length_pos_of_ne_nil reads.name_ne_nil
        rw [length_spell] at nonempty
        rw [← length, split]
        simp only [List.length_append]
        omega

section Equations

variable {g : α} {name gap value rest : List α}

@[simp] theorem sub_nil : r.sub ([] : List α) = [] := rfl

theorem sub_cons (unmatched : r.matchAt (spell (g :: rest)) = none) : r.sub (g :: rest) = g :: r.sub rest := by
  rw [Rule.sub, pieces_cons unmatched]
  rfl

theorem sub_of_reads (reads : r.Reads (spell name) (spell gap) (spell value) (spell rest)) :
    r.sub (name ++ (gap ++ (value ++ rest))) =
      (if r.keepsWord then name else []) ++ (r.inserted.map Spelled.write ++ r.sub rest) := by
  rw [Rule.sub, pieces_of_reads reads, List.flatMap_cons, Rule.rewrite, List.append_assoc]
  rfl

@[simp] theorem starts_nil : r.starts ([] : List α) = [] := rfl

theorem starts_cons (unmatched : r.matchAt (spell (g :: rest)) = none) : r.starts (g :: rest) = r.starts rest := by
  rw [Rule.starts, pieces_cons unmatched]
  rfl

theorem starts_of_reads (reads : r.Reads (spell name) (spell gap) (spell value) (spell rest)) :
    r.starts (name ++ (gap ++ (value ++ rest))) = name.take 1 ++ r.starts rest := by
  rw [Rule.starts, pieces_of_reads reads]
  rfl

end Equations

section Spans

variable {c : Char} {name gap value rest : List Char} {pos : ℕ}

theorem spell_chars (text : List Char) : spell text = text := List.map_id text

@[simp] theorem spans_nil : r.spans pos [] = [] := rfl

theorem spans_cons (unmatched : r.matchAt (c :: rest) = none) : r.spans pos (c :: rest) = r.spans (pos + 1) rest := by
  rw [Rule.spans, pieces_cons (by rwa [spell_chars])]
  rfl

theorem spans_of_reads (reads : r.Reads name gap value rest) :
    r.spans pos (name ++ (gap ++ (value ++ rest))) =
      ⟨pos, pos + name.length + gap.length, pos + name.length + gap.length + value.length⟩ ::
        r.spans (pos + name.length + gap.length + value.length) rest := by
  rw [Rule.spans, pieces_of_reads (by simpa only [spell_chars] using reads)]
  rfl

end Spans

section Frames

variable {text u v : List α} {g : α}

/-- A rewritten text has only what it had before and what is put in. -/
theorem mem_sub (member : g ∈ r.sub text) : g ∈ text ∨ g ∈ r.inserted.map Spelled.write := by
  induction text using @scan_induction α _ r with
  | nil => exact Or.inl member
  | cons h rest unmatched ih =>
    rw [sub_cons unmatched] at member
    rcases List.mem_cons.mp member with rfl | later
    · exact Or.inl List.mem_cons_self
    · exact (ih later).imp_left (List.mem_cons_of_mem h)
  | hit name gap value rest reads ih =>
    rw [sub_of_reads reads, List.mem_append, List.mem_append] at member
    rcases member with kept | inserted | later
    · left
      split at kept
      · exact List.mem_append_left _ kept
      · cases kept
    · exact Or.inr inserted
    · refine (ih later).imp_left fun inRest => ?_
      exact List.mem_append_right _ (List.mem_append_right _ (List.mem_append_right _ inRest))

theorem mem_of_mem_starts (member : g ∈ r.starts text) : g ∈ text := by
  induction text using @scan_induction α _ r with
  | nil => cases member
  | cons h rest unmatched ih =>
    rw [starts_cons unmatched] at member
    exact List.mem_cons_of_mem h (ih member)
  | hit name gap value rest reads ih =>
    rw [starts_of_reads reads, List.mem_append] at member
    rcases member with first | later
    · exact List.mem_append_left _ (List.mem_of_mem_take first)
    · exact List.mem_append_right _ (List.mem_append_right _ (List.mem_append_right _ (ih later)))

/-- No match begins within the first part of a text. -/
def Clear (r : Rule) (v : List α) : List α → Prop
  | [] => True
  | g :: u => r.matchAt (spell (g :: (u ++ v))) = none ∧ Clear r v u

theorem sub_append (clear : Clear r v u) : r.sub (u ++ v) = u ++ r.sub v := by
  induction u with
  | nil => rfl
  | cons g u ih => rw [List.cons_append, sub_cons clear.1, ih clear.2, List.cons_append]

theorem starts_append (clear : Clear r v u) : r.starts (u ++ v) = r.starts v := by
  induction u with
  | nil => rfl
  | cons g u ih => rw [List.cons_append, starts_cons clear.1, ih clear.2]

/-- What is read of a text decides where its matches are. -/
theorem clear_of_spell (clear : Clear r (spell v) (spell u)) : Clear r v u := by
  induction u with
  | nil => trivial
  | cons g u ih =>
    refine ⟨?_, ih clear.2⟩
    have here : r.matchAt (spell (spell (g :: u) ++ spell v)) = none := clear.1
    rwa [← spell_append, spell_chars, List.cons_append] at here

end Frames

section SpanFrames

variable {text u v : List Char} {pos : ℕ} {span : Span}

theorem spans_append (clear : Clear r v u) : r.spans pos (u ++ v) = r.spans (pos + u.length) v := by
  induction u generalizing pos with
  | nil => rfl
  | cons c u ih =>
    have unmatched := clear.1
    rw [spell_chars] at unmatched
    rw [List.cons_append, spans_cons unmatched, ih clear.2, List.length_cons, Nat.add_right_comm, Nat.add_assoc]

theorem span_bounds (member : span ∈ r.spans pos text) :
    pos ≤ span.start ∧ span.start < span.value ∧ span.value < span.stop ∧ span.stop ≤ pos + text.length := by
  induction text using @scan_induction Char _ r generalizing pos with
  | nil => cases member
  | cons c rest unmatched ih =>
    rw [spell_chars] at unmatched
    rw [spans_cons unmatched] at member
    have later := ih member
    rw [List.length_cons]
    omega
  | hit name gap value rest reads ih =>
    simp only [spell_chars] at reads
    rw [spans_of_reads reads] at member
    have named := List.length_pos_of_ne_nil reads.name_ne_nil
    have valued := List.length_pos_of_ne_nil reads.value_ne_nil
    simp only [List.length_append]
    rcases List.mem_cons.mp member with rfl | later
    · refine ⟨Nat.le_refl _, ?_, ?_, ?_⟩
      all_goals dsimp only; omega
    · have after := ih later
      omega

/-- A scan whose first match comes later arrives there. -/
theorem clear_of_spans (pos : ℕ) (late : ∀ span ∈ r.spans pos (u ++ v), pos + u.length ≤ span.start) : Clear r v u := by
  induction u generalizing pos with
  | nil => trivial
  | cons c u ih =>
    have unmatched : r.matchAt (c :: (u ++ v)) = none := by
      by_contra matched
      rw [← spell_chars (c :: (u ++ v))] at matched
      obtain ⟨name, gap, value, rest, split, reads⟩ := exists_reads matched
      simp only [spell_chars] at reads
      rw [List.cons_append, split, spans_of_reads reads] at late
      have here := late _ List.mem_cons_self
      rw [List.length_cons] at here
      dsimp only at here
      omega
    refine ⟨by rwa [spell_chars], ih (pos + 1) fun span member => ?_⟩
    have bound := late span (by rwa [List.cons_append, spans_cons unmatched])
    rw [List.length_cons] at bound
    omega

theorem clear_or_first (u v : List Char) : Clear r v u ∨
    ∃ x y, u = x ++ y ∧ y ≠ [] ∧ Clear r (y ++ v) x ∧ r.matchAt (y ++ v) ≠ none := by
  induction u with
  | nil => exact Or.inl trivial
  | cons c u ih =>
    by_cases unmatched : r.matchAt (c :: (u ++ v)) = none
    · rcases ih with clear | ⟨x, y, rfl, nonempty, clear, matched⟩
      · exact Or.inl ⟨by rwa [spell_chars], clear⟩
      · refine Or.inr ⟨c :: x, y, rfl, nonempty, ⟨?_, clear⟩, matched⟩
        rwa [spell_chars, ← List.append_assoc]
    · exact Or.inr ⟨[], c :: u, rfl, List.cons_ne_nil c u, trivial, unmatched⟩

end SpanFrames

end Scan

end Redaction
