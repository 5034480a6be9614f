import Centroid.Providers.BearerScan

namespace Centroid

open Redaction
open TextLines (isSpace)

/-- What is left of a text when markers stand in the places that are covered. A
value ends where there is a break. -/
inductive Blanked (covered breaks : ℕ → Prop) : ℕ → List Char → List Glyph → Prop
  | nil {pos : ℕ} : Blanked covered breaks pos [] []
  | keep {pos : ℕ} {c : Char} {rest : List Char} {t : List Glyph} (uncovered : ¬covered pos)
      (ends : breaks pos ↔ assignmentPattern.inValue c = false) (later : Blanked covered breaks (pos + 1) rest t) :
      Blanked covered breaks pos (c :: rest) (⟨c, some pos⟩ :: t)
  | stretch {pos : ℕ} {text body rest markers : List Char} {t later : List Glyph} (split : text = body ++ rest)
      (shown : t = markers.map Spelled.write ++ later) (begins : Secretive text) (nonempty : body ≠ [])
      (hidden : ∀ i, pos ≤ i → i < pos + body.length → covered i ∧ ¬breaks i)
      (marked : markers = "[redacted]".toList ∨ markers = "[redacted][redacted]".toList)
      (rest : Blanked covered breaks (pos + body.length) rest later) : Blanked covered breaks pos text t

section Letters

variable {c : Char} {name gap value rest : List Char}

theorem inKey_of_secretive {text : List Char} (begins : Secretive (c :: text)) : secretKeyPattern.inValue c = true := by
  rcases begins with letter | ⟨rfl, _⟩
  · exact inKey_of_foldCase letter
  · rfl

/-- A gap has no letter of a key. -/
theorem not_inKey_of_mem_gap (reads : assignmentPattern.Reads name gap value rest) (member : c ∈ gap) :
    secretKeyPattern.inValue c = false := by
  by_contra inside
  have letter := eq_true_of_ne_false inside
  have noBlank := secretKeyPattern.spaceless c letter
  cases reads.gap with
  | sign before isSign after =>
    rcases List.mem_append.mp member with blank | later
    · rw [before c blank] at noBlank
      cases noBlank
    · rcases List.mem_cons.mp later with rfl | blank
      · rcases isSign with rfl | rfl
        all_goals cases letter
      · rw [after c blank] at noBlank
        cases noBlank

/-- No key and no bearer token begins between a name and its value. -/
theorem not_secretive (reads : assignmentPattern.Reads name gap value rest) {x y : List Char} (split : name ++ gap = x ++ y)
    (nonempty : y ≠ []) (v : List Char) : ¬Secretive (y ++ v) := by
  cases y with
  | nil => exact absurd rfl nonempty
  | cons c y =>
    intro begins
    have letter := inKey_of_secretive begins
    have outside : c ∉ gap := by
      intro member
      rw [not_inKey_of_mem_gap reads member] at letter
      cases letter
    rcases List.append_eq_append_iff.mp split with ⟨more, _, between⟩ | ⟨left, named, later⟩
    · exact outside (by rw [between]; simp)
    · cases left with
      | nil => exact outside (by rw [← List.nil_append gap, ← later]; exact List.mem_cons_self)
      | cons d left =>
        obtain ⟨rfl, rfl⟩ := List.cons.inj later
        have word : name.map foldCase ∈ assignmentPattern.words := reads.word
        rw [named, List.map_append, List.map_cons] at word
        rcases begins with isB | ⟨rfl, isK⟩
        · have noB : ∀ word ∈ assignmentPattern.words, 'b' ∉ word := by decide
          exact noB _ word (by rw [isB]; simp)
        · have noK : ∀ word ∈ assignmentPattern.words, ¬['s', 'k'] <:+: word := by decide
          cases left with
          | nil =>
            have filled : gap ≠ [] := by
              cases reads.gap with
              | sign => exact List.append_ne_nil_of_right_ne_nil _ (List.cons_ne_nil _ _)
            cases gap with
            | nil => exact absurd rfl filled
            | cons e gap =>
              cases isK
              exact absurd (not_inKey_of_mem_gap reads List.mem_cons_self) (by decide)
          | cons e left =>
            cases isK
            exact noK _ word ⟨x.map foldCase, left.map foldCase, by simp; decide⟩

end Letters

section Frames

variable {covered breaks : ℕ → Prop} {pos i : ℕ} {text u v : List Char} {t : List Glyph}

theorem Blanked.le_of_survives (blanked : Blanked covered breaks pos text t) (survives : Survives i t) : pos ≤ i := by
  induction blanked with
  | nil =>
    obtain ⟨_, impossible, _⟩ := survives
    cases impossible
  | keep _ _ _ ih =>
    obtain ⟨g, member, origin⟩ := survives
    rcases List.mem_cons.mp member with rfl | later
    · exact (Option.some.inj origin).le
    · have lower := ih ⟨g, later, origin⟩
      omega
  | stretch _ shown _ _ _ _ _ ih =>
    rw [shown] at survives
    rcases survives_append.mp survives with marker | later
    · exact (not_survives_write _ marker).elim
    · have lower := ih later
      omega

/-- Where no key and no bearer token begins, all stays. -/
theorem Blanked.intact (blanked : Blanked covered breaks pos (u ++ v) t)
    (open' : ∀ x y, u = x ++ y → y ≠ [] → ¬Secretive (y ++ v)) :
    ∃ later, t = mark pos u ++ later ∧ Blanked covered breaks (pos + u.length) v later ∧
      ∀ i, pos ≤ i → i < pos + u.length → ¬covered i := by
  induction u generalizing pos t with
  | nil => exact ⟨t, rfl, blanked, fun i lower upper => absurd upper (Nat.not_lt.mpr lower)⟩
  | cons c u ih =>
    rw [List.cons_append] at blanked
    cases blanked with
    | keep uncovered _ later =>
      obtain ⟨after, shown, rest, free⟩ := ih later fun x y split => open' (c :: x) y (congrArg _ split)
      rw [List.length_cons, Nat.add_comm u.length, ← Nat.add_assoc]
      refine ⟨after, by rw [shown, mark, List.cons_append], rest, fun i lower upper => ?_⟩
      rcases Nat.eq_or_lt_of_le lower with rfl | beyond
      · exact uncovered
      · exact free i beyond upper
    | stretch _ _ begins _ _ _ _ => exact absurd begins (open' [] (c :: u) rfl (List.cons_ne_nil c u))

/-- Characters that are no part of a marker stood in the text before. -/
theorem Blanked.prefix_back (blanked : Blanked covered breaks pos text t) (spelled : spell t = u ++ v) (unmarked : '[' ∉ u) :
    ∃ w later, text = u ++ w ∧ Blanked covered breaks (pos + u.length) w later ∧ spell later = v := by
  induction u generalizing pos text t with
  | nil => exact ⟨text, t, rfl, blanked, spelled⟩
  | cons c u ih =>
    cases blanked with
    | nil => cases spelled
    | @keep _ d rest t' _ _ later =>
      obtain ⟨rfl, spelledLater⟩ := List.cons.inj spelled
      obtain ⟨w, after, split, rest, same⟩ := ih later spelledLater fun member => unmarked (List.mem_cons_of_mem _ member)
      rw [List.length_cons, Nat.add_comm u.length, ← Nat.add_assoc]
      exact ⟨w, after, congrArg _ split, rest, same⟩
    | stretch _ shown _ _ _ marked _ =>
      rw [shown, spell_append] at spelled
      have first : c = '[' := by
        rcases marked with rfl | rfl
        all_goals exact (List.cons.inj spelled).1.symm
      exact absurd (by rw [first]; exact List.mem_cons_self) unmarked

/-- A rest that begins like a value stood in the text for one. -/
theorem Blanked.inValue_back (blanked : Blanked covered breaks pos text t) {x : Char} {more : List Char}
    (spelled : spell t = x :: more) (inside : assignmentPattern.inValue x = true) :
    ∃ y rest, text = y :: rest ∧ assignmentPattern.inValue y = true := by
  cases blanked with
  | nil => cases spelled
  | @keep _ d rest t' _ _ _ =>
    obtain ⟨rfl, _⟩ := List.cons.inj spelled
    exact ⟨_, rest, rfl, inside⟩
  | stretch _ _ begins _ _ _ _ =>
    cases text with
    | nil => exact begins.elim
    | cons y rest => exact ⟨y, rest, rfl, inAssignment_of_inKey (inKey_of_secretive begins)⟩

/-- The markers bring no new match. -/
theorem Blanked.unmatched (blanked : Blanked covered breaks pos text t) (none : assignmentPattern.matchAt text = none) :
    assignmentPattern.matchAt (spell t) = Option.none := by
  refine Rule.matchAt_eq_none_iff.mpr ?_
  intro name gap value rest spelled reads
  rw [← List.append_assoc] at spelled
  have unmarked : '[' ∉ name ++ gap := by
    intro member
    rcases List.mem_append.mp member with named | between
    · have noBracket : ∀ word ∈ assignmentPattern.words, '[' ∉ word := by decide
      exact noBracket _ reads.word (List.mem_map_of_mem named)
    · cases reads.gap with
      | sign before isSign after =>
        rcases List.mem_append.mp between with blank | later
        · cases before '[' blank
        · rcases List.mem_cons.mp later with rfl | blank
          · rcases isSign with impossible | impossible
            all_goals cases impossible
          · cases after '[' blank
  obtain ⟨w, later, split, after, same⟩ := blanked.prefix_back spelled unmarked
  cases value with
  | nil => exact reads.value_ne_nil rfl
  | cons x value =>
    obtain ⟨y, more, rfl, inside⟩ := after.inValue_back same (reads.inValue x List.mem_cons_self)
    refine matchAt_ne_none_of_start assignmentPattern_restores reads.word reads.gap inside ?_ none
    exact ⟨more, by rw [split]; simp⟩

/-- The run of a value, up to the first break that is not covered. -/
structure Run (covered breaks : ℕ → Prop) (pos : ℕ) (u w : List Char) (s later : List Glyph) : Prop where
  inValue : ∀ c ∈ spell s, assignmentPattern.inValue c = true
  filled : u ≠ [] → s ≠ []
  rest : Blanked covered breaks (pos + u.length) w later
  unbroken : ∀ i, pos ≤ i → i < pos + u.length → ¬breaks i
  ends : w ≠ [] → breaks (pos + u.length)
  stops : ∀ c ∈ w.head?, assignmentPattern.inValue c = false
  stopsLater : ∀ c ∈ (spell later).head?, assignmentPattern.inValue c = false

theorem Blanked.run (blanked : Blanked covered breaks pos text t) :
    ∃ u w s later, text = u ++ w ∧ t = s ++ later ∧ Run covered breaks pos u w s later := by
  induction blanked with
  | @nil pos =>
    refine ⟨[], [], [], [], rfl, rfl, ?_⟩
    exact ⟨by simp, fun nothing => absurd rfl nothing, Blanked.nil,
      fun i lower upper => absurd upper (Nat.not_lt.mpr lower), fun nothing => absurd rfl nothing,
      by simp, by simp⟩
  | @keep pos c rest t uncovered ends later ih =>
    by_cases inside : assignmentPattern.inValue c = true
    · obtain ⟨u, w, s, after, rfl, rfl, run⟩ := ih
      have next : pos + (c :: u).length = pos + 1 + u.length := by
        rw [List.length_cons]
        omega
      refine ⟨c :: u, w, ⟨c, some pos⟩ :: s, after, rfl, rfl, ?_, fun _ => List.cons_ne_nil _ s,
        next ▸ run.rest, ?_, next ▸ run.ends, run.stops, run.stopsLater⟩
      · rw [spell_cons]
        exact List.forall_mem_cons.mpr ⟨inside, run.inValue⟩
      · intro i lower upper broken
        rcases Nat.eq_or_lt_of_le lower with rfl | beyond
        · rw [ends.mp broken] at inside
          cases inside
        · exact run.unbroken i beyond (next ▸ upper) broken
    · have outside : assignmentPattern.inValue c = false := eq_false_of_ne_true inside
      refine ⟨[], c :: rest, [], ⟨c, some pos⟩ :: t, rfl, rfl, ?_⟩
      refine ⟨by simp, fun nothing => absurd rfl nothing, Blanked.keep uncovered ends later,
        fun i lower upper => absurd upper (Nat.not_lt.mpr lower),
        fun _ => ends.mpr outside, ?_, ?_⟩
      · intro d first
        cases first
        exact outside
      · intro d first
        cases first
        exact outside
  | @stretch pos text body rest markers t later split shown begins nonempty hidden marked _ ih =>
    obtain ⟨u, w, s, after, rfl, rfl, run⟩ := ih
    have next : pos + (body ++ u).length = pos + body.length + u.length := by
      rw [List.length_append]
      omega
    refine ⟨body ++ u, w, markers.map Spelled.write ++ s, after, by rw [split, List.append_assoc],
      by rw [shown, List.append_assoc], ?_, fun _ => ?_, next ▸ run.rest, ?_, next ▸ run.ends, run.stops, run.stopsLater⟩
    · intro c member
      rw [spell_append] at member
      rcases List.mem_append.mp member with marker | inRun
      · have inside : ∀ d ∈ markers, assignmentPattern.inValue d = true := by
          rcases marked with rfl | rfl
          all_goals exact forall_mem_of_all (by decide)
        rw [spell_write] at marker
        exact inside c marker
      · exact run.inValue c inRun
    · rcases marked with rfl | rfl
      all_goals exact List.cons_ne_nil _ _
    · intro i lower upper
      rcases Nat.lt_or_ge i (pos + body.length) with here | beyond
      · exact (hidden i lower here).2
      · exact run.unbroken i beyond (next ▸ upper)

end Frames

/-- Matches of which none begins in a covered place and each two have a break
between the value of the first and the second. -/
structure Apart (covered breaks : ℕ → Prop) (spans : List Span) : Prop where
  uncovered : ∀ k ∈ spans, ¬covered k.start
  separated : ∀ x ∈ spans, ∀ y ∈ spans, x.start < y.start → ∃ i, x.value ≤ i ∧ i < y.start ∧ breaks i

section Found

variable {covered breaks : ℕ → Prop} {pos : ℕ} {text body rest markers : List Char} {t later : List Glyph}

theorem apart_cons_iff {k : Span} {spans : List Span} (uncovered : ¬covered k.start)
    (after : ∀ y ∈ spans, k.start < y.start ∧ ∃ i, k.value ≤ i ∧ i < y.start ∧ breaks i) :
    Apart covered breaks (k :: spans) ↔ Apart covered breaks spans := by
  constructor
  · rintro ⟨free, separated⟩
    refine ⟨fun x member => free x (List.mem_cons_of_mem k member), fun x xMember y yMember => ?_⟩
    exact separated x (List.mem_cons_of_mem k xMember) y (List.mem_cons_of_mem k yMember)
  · rintro ⟨free, separated⟩
    refine ⟨List.forall_mem_cons.mpr ⟨uncovered, free⟩, fun x xMember y yMember before => ?_⟩
    rcases List.mem_cons.mp yMember with rfl | yLater
    · rcases List.mem_cons.mp xMember with rfl | xLater
      · exact absurd before (Nat.lt_irrefl _)
      · exact absurd before (Nat.not_lt.mpr (after x xLater).1.le)
    · rcases List.mem_cons.mp xMember with rfl | xLater
      · exact (after y yLater).2
      · exact separated x xLater y yLater before

/-- Past a stretch that became a marker. -/
theorem found_past_stretch (split : text = body ++ rest) (shown : t = markers.map Spelled.write ++ later)
    (hidden : ∀ i, pos ≤ i → i < pos + body.length → covered i ∧ ¬breaks i)
    (marked : markers = "[redacted]".toList ∨ markers = "[redacted][redacted]".toList)
    (blanked : Blanked covered breaks (pos + body.length) rest later)
    (ih : (∀ k ∈ assignmentPattern.spans (pos + body.length) rest, assignmentPattern.Finds later k) ↔
      Apart covered breaks (assignmentPattern.spans (pos + body.length) rest)) :
    (∀ k ∈ assignmentPattern.spans pos text, assignmentPattern.Finds t k) ↔
      Apart covered breaks (assignmentPattern.spans pos text) := by
  by_cases early : ∃ k ∈ assignmentPattern.spans pos text, k.start < pos + body.length
  · obtain ⟨k, member, before⟩ := early
    have lower := (span_bounds member).1
    refine iff_of_false (fun found => ?_) fun apart => apart.uncovered k member (hidden k.start lower before).1
    refine not_finds (fun survives => ?_) (found k member)
    rw [shown] at survives
    rcases survives_append.mp survives with marker | after
    · exact not_survives_write _ marker
    · exact absurd before (Nat.not_lt.mpr (blanked.le_of_survives after))
  · have clear : Clear assignmentPattern rest body := by
      refine clear_of_spans pos fun k member => ?_
      rw [← split] at member
      exact Nat.not_lt.mp fun before => early ⟨k, member, before⟩
    have clearMarkers : Clear assignmentPattern later (markers.map Spelled.write) := by
      refine clear_of_spell (clear_of_tails ?_)
      rw [spell_write]
      rcases marked with rfl | rfl
      all_goals decide
    rw [split, spans_append clear, shown]
    refine Iff.trans (forall₂_congr fun k member => ?_) ih
    exact finds_append clearMarkers (span_bounds member).2.1 fun i survives => (not_survives_write _ survives).elim

/-- A value goes on at least as far as in the text. -/
theorem value_prefix {value u w : List Char} (split : value ++ rest = u ++ w)
    (inside : ∀ c ∈ value, assignmentPattern.inValue c = true) (stops : ∀ c ∈ w.head?, assignmentPattern.inValue c = false) :
    ∃ z, u = value ++ z ∧ rest = z ++ w := by
  rcases List.append_eq_append_iff.mp split with ⟨more, longer, after⟩ | ⟨left, shorter, after⟩
  · exact ⟨more, longer, after⟩
  · cases left with
    | nil => exact ⟨[], by rw [shorter, List.append_nil, List.append_nil], after.symm⟩
    | cons c left =>
      have outside := stops c (by rw [after]; rfl)
      rw [inside c (by rw [shorter]; simp)] at outside
      cases outside

/-- No match begins at a break. -/
theorem lt_start_of_stops (stops : ∀ c ∈ text.head?, assignmentPattern.inValue c = false) {k : Span}
    (member : k ∈ assignmentPattern.spans pos text) : pos < k.start := by
  have unmatched := matchAt_none_of_stops assignmentPattern_restores stops
  cases text with
  | nil => cases member
  | cons c rest =>
    rw [spans_cons unmatched] at member
    exact (span_bounds member).1

/-- At a match: it is found, and takes up to the first break that is not covered. -/
theorem found_at_match {name gap value : List Char} (reads : assignmentPattern.Reads name gap value rest)
    (blanked : Blanked covered breaks pos (name ++ (gap ++ (value ++ rest))) t)
    (ih : ∀ pos w later, w.length < (name ++ (gap ++ (value ++ rest))).length → Blanked covered breaks pos w later →
      ((∀ k ∈ assignmentPattern.spans pos w, assignmentPattern.Finds later k) ↔
        Apart covered breaks (assignmentPattern.spans pos w))) :
    (∀ k ∈ assignmentPattern.spans pos (name ++ (gap ++ (value ++ rest))), assignmentPattern.Finds t k) ↔
      Apart covered breaks (assignmentPattern.spans pos (name ++ (gap ++ (value ++ rest)))) := by
  have named := List.length_pos_of_ne_nil reads.name_ne_nil
  have valued := List.length_pos_of_ne_nil reads.value_ne_nil
  rw [← List.append_assoc name] at blanked
  obtain ⟨t', rfl, tail, uncovered⟩ := blanked.intact fun x y split nonempty => not_secretive reads split nonempty _
  obtain ⟨u, w, s, later, split, rfl, run⟩ := tail.run
  obtain ⟨z, rfl, rfl⟩ := value_prefix split reads.inValue run.stops
  obtain ⟨start, startEq⟩ : ∃ start, start = pos + name.length + gap.length := ⟨_, rfl⟩
  obtain ⟨stop, stopEq⟩ : ∃ stop, stop = start + value.length := ⟨_, rfl⟩
  obtain ⟨after, afterEq⟩ : ∃ after, after = stop + z.length := ⟨_, rfl⟩
  have startLength : pos + (name ++ gap).length = start := by
    rw [List.length_append]
    omega
  have afterLength : start + (value ++ z).length = after := by
    rw [List.length_append]
    omega
  rw [startLength] at run uncovered
  have again : assignmentPattern.Reads (spell (mark pos name)) (spell (mark (pos + name.length) gap)) (spell s)
      (spell later) := by
    simp only [spell_mark]
    refine ⟨reads.word, reads.gap, ?_, run.inValue, run.stopsLater⟩
    rw [length_spell]
    exact List.length_pos_of_ne_nil (run.filled (List.append_ne_nil_of_left_ne_nil reads.value_ne_nil z))
  have late {i : ℕ} (survives : Survives i later) : after ≤ i := afterLength ▸ run.rest.le_of_survives survives
  have here : assignmentPattern.Finds (mark pos (name ++ gap) ++ (s ++ later)) ⟨pos, start, stop⟩ := by
    rw [mark_append, List.append_assoc]
    refine finds_here again (survives_first reads.name_ne_nil) (fun _ i survives => ?_) fun i survives => ?_
    · have range := survives_mark.mp survives
      dsimp only
      omega
    · have lower := late survives
      dsimp only
      omega
  rw [spans_of_reads reads, ← startEq, ← stopEq]
  by_cases early : ∃ k ∈ assignmentPattern.spans stop (z ++ w), k.start < after
  · obtain ⟨k, member, before⟩ := early
    have bounds := span_bounds member
    refine iff_of_false (fun found => ?_) fun apart => ?_
    · have first := (found k (List.mem_cons_of_mem _ member)).1
      rw [mark_append, List.append_assoc, starts_of_reads again] at first
      rcases survives_append.mp first with ⟨g, inName, origin⟩ | inLater
      · have range := survives_mark.mp ⟨g, List.mem_of_mem_take inName, origin⟩
        omega
      · exact absurd before (Nat.not_lt.mpr (late inLater.of_starts))
    · obtain ⟨i, lower, upper, broken⟩ := apart.separated _ List.mem_cons_self k (List.mem_cons_of_mem _ member)
        (by dsimp only; omega)
      dsimp only at lower
      exact run.unbroken i lower (by omega) broken
  · have clear : Clear assignmentPattern w z := by
      refine clear_of_spans stop fun k member => ?_
      rw [← afterEq]
      exact Nat.not_lt.mp fun before => early ⟨k, member, before⟩
    have shorter : w.length < (name ++ (gap ++ (value ++ (z ++ w)))).length := by
      simp only [List.length_append]
      omega
    rw [spans_append clear, ← afterEq, apart_cons_iff (uncovered pos (Nat.le_refl pos) (by omega)), List.forall_mem_cons,
      and_iff_right here]
    · refine Iff.trans (forall₂_congr fun k member => ?_) (ih after w later shorter (afterLength ▸ run.rest))
      have bounds := span_bounds member
      rw [mark_append, List.append_assoc]
      refine finds_of_reads again bounds.2.1 fun i survives => ?_
      have range := survives_mark.mp survives
      omega
    · intro k member
      have beyond := lt_start_of_stops run.stops member
      have filled : w ≠ [] := by
        rintro rfl
        cases member
      refine ⟨by dsimp only; omega, after, by dsimp only; omega, beyond, afterLength ▸ run.ends filled⟩

theorem assignments_found_iff (blanked : Blanked covered breaks pos text t) :
    (∀ k ∈ assignmentPattern.spans pos text, assignmentPattern.Finds t k) ↔
      Apart covered breaks (assignmentPattern.spans pos text) := by
  induction length : text.length using Nat.strong_induction_on generalizing pos text t with
  | _ n ih =>
    by_cases unmatched : assignmentPattern.matchAt text = none
    · have unmatchedLater := blanked.unmatched unmatched
      cases blanked with
      | nil => exact ⟨fun _ => ⟨by simp, by simp⟩, fun _ k impossible => absurd impossible List.not_mem_nil⟩
      | @keep _ c rest later uncovered ends after =>
        rw [spans_cons unmatched]
        rw [List.length_cons] at length
        refine Iff.trans (forall₂_congr fun k member => ?_) (ih rest.length (by omega) after rfl)
        have bounds := span_bounds member
        refine finds_append (s := [⟨c, some pos⟩]) ⟨unmatchedLater, trivial⟩ bounds.2.1 fun i survives => ?_
        have same := survives_singleton.mp survives
        omega
      | @stretch _ _ body rest markers _ later split shown begins nonempty hidden marked after =>
        have filled := List.length_pos_of_ne_nil nonempty
        rw [split, List.length_append] at length
        exact found_past_stretch split shown hidden marked after (ih rest.length (by omega) after rfl)
    · obtain ⟨found, matched⟩ := Option.ne_none_iff_exists'.mp unmatched
      obtain ⟨name, gap, value, rest, rfl, reads⟩ := Rule.reads_of_matchAt matched
      refine found_at_match reads blanked fun pos w later shorter after => ?_
      exact ih w.length (by rwa [length] at shorter) after rfl

end Found

end Centroid
