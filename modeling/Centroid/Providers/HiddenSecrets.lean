import Centroid.Providers.AssignmentScan

namespace Centroid

open Redaction

/-- A place of a key or a bearer token. -/
def Covered (message : List Char) (i : ℕ) : Prop :=
  ∃ span ∈ secretKeyPattern.finditer message ++ bearerPattern.finditer message, span.start ≤ i ∧ i < span.stop

/-- A place outside of all keys and bearer tokens at which a value ends. -/
def Breaks (message : List Char) (i : ℕ) : Prop :=
  (∃ c, message[i]? = some c ∧ assignmentPattern.inValue c = false) ∧ ¬Covered message i

/-- What `sanitize_error` is to do with a message: the places of each secret are
gone, no match of a later pattern is hidden when its turn comes, and the result
is not changed by a second run. -/
structure Redacts (message : String) : Prop where
  spelled : spell (rewriteAll secretValuePatterns (mark 0 message.toList)) = (sanitizeError message).toList
  removed : ∀ pattern ∈ secretValuePatterns, ∀ span ∈ pattern.finditer message.toList, ∀ i, pattern.Secret span i →
    ¬Survives i (rewriteAll secretValuePatterns (mark 0 message.toList))
  found : ∀ earlier pattern later, secretValuePatterns = earlier ++ pattern :: later →
    ∀ span ∈ pattern.finditer message.toList, pattern.Finds (rewriteAll earlier (mark 0 message.toList)) span
  idempotent : sanitizeError (sanitizeError message) = sanitizeError message

/-- The matches of the three patterns in a message keep clear of each other. -/
structure Separate (message : List Char) : Prop where
  keysAtEnd : KeysAtEnd 0 message
  apart : Apart (Covered message) (Breaks message) (assignmentPattern.finditer message)

theorem spell_rewriteAll {α : Type} [Spelled α] (patterns : List Rule) (text : List α) :
    spell (rewriteAll patterns text) = rewriteAll patterns (spell text) := by
  induction patterns generalizing text with
  | nil => rfl
  | cons pattern patterns ih => rw [rewriteAll, List.foldl_cons, ← rewriteAll, ih, spell_sub]; rfl

theorem survives_of_rewriteAll {i : ℕ} {patterns : List Rule} {text : List Glyph}
    (survives : Survives i (rewriteAll patterns text)) : Survives i text := by
  induction patterns generalizing text with
  | nil => exact survives
  | cons pattern patterns ih => exact (ih survives).of_sub

/-- Where no bearer token is hidden, what the first two patterns leave is the
message with markers in the covered places. -/
theorem blanked_of_keysAtEnd (message : List Char) {pos : ℕ} {text : List Char} (atEnd : KeysAtEnd pos text)
    (here : message.drop pos = text)
    (agree : ∀ i, pos ≤ i → (Covered message i ↔
      ∃ span ∈ secretKeyPattern.spans pos text ++ bearerPattern.spans pos text, span.start ≤ i ∧ i < span.stop)) :
    Blanked (Covered message) (Breaks message) pos text (bearerPattern.sub (secretKeyPattern.sub (mark pos text))) := by
  induction length : text.length using Nat.strong_induction_on generalizing pos text with
  | _ n ih =>
    rcases text_cases pos text with rfl | ⟨body, rest, keys, bearers, markers, rfl, stretch⟩ | ⟨c, rest, rfl, plain⟩ | clash
    · exact Blanked.nil
    · have filled := List.length_pos_of_ne_nil stretch.nonempty
      rw [List.length_append] at length
      rw [stretch.rewritten]
      refine Blanked.stretch rfl rfl stretch.begins stretch.nonempty (fun i lower upper => ?_) stretch.marked
        (ih rest.length (by omega) ?_ ?_ (fun i lower => ?_) rfl)
      · have covered : Covered message i := by
          obtain ⟨span, member, start, stop⟩ := stretch.whole
          refine (agree i lower).mpr ⟨span, ?_, by omega, by omega⟩
          rw [stretch.keySpans, stretch.bearerSpans]
          rcases List.mem_append.mp member with key | bearer
          · exact List.mem_append_left _ (List.mem_append_left _ key)
          · exact List.mem_append_right _ (List.mem_append_left _ bearer)
        exact ⟨covered, fun broken => broken.2 covered⟩
      · intro b bMember a aMember
        refine atEnd b ?_ a ?_
        · rw [stretch.bearerSpans]
          exact List.mem_append_right bearers bMember
        · rw [stretch.keySpans]
          exact List.mem_append_right keys aMember
      · rw [← List.drop_drop, here, List.drop_left]
      · rw [agree i (by omega), stretch.keySpans, stretch.bearerSpans]
        have past {span : Span} (member : span ∈ keys ++ bearers) (after : i < span.stop) : False := by
          have upper := (stretch.within span member).2
          omega
        constructor
        · rintro ⟨span, member, before, after⟩
          simp only [List.mem_append] at member past ⊢
          rcases member with (key | later) | bearer | later
          · exact (past (Or.inl key) after).elim
          · exact ⟨span, Or.inl later, before, after⟩
          · exact (past (Or.inr bearer) after).elim
          · exact ⟨span, Or.inr later, before, after⟩
        · rintro ⟨span, member, inside⟩
          simp only [List.mem_append] at member ⊢
          exact ⟨span, member.imp Or.inr Or.inr, inside⟩
    · rw [List.length_cons] at length
      have bounds {i : ℕ} (lower : pos ≤ i) := agree i lower
      simp only [plain.keys, plain.bearers] at bounds
      have uncovered : ¬Covered message pos := by
        intro covered
        obtain ⟨span, member, before, _⟩ := (bounds (Nat.le_refl pos)).mp covered
        have lower : pos + 1 ≤ span.start := by
          rcases List.mem_append.mp member with key | bearer
          · exact (span_bounds key).1
          · exact (span_bounds bearer).1
        omega
      have first : message[pos]? = some c := by
        have found : (message.drop pos)[0]? = message[pos + 0]? := List.getElem?_drop
        rw [here] at found
        exact found.symm
      rw [plain.rewritten]
      refine Blanked.keep uncovered ?_ (ih rest.length (by omega) ?_ ?_ (fun i lower => bounds (by omega)) rfl)
      · constructor
        · rintro ⟨⟨d, same, ends⟩, _⟩
          rw [first] at same
          cases same
          exact ends
        · exact fun ends => ⟨⟨c, first, ends⟩, uncovered⟩
      · intro b bMember a aMember
        refine atEnd b ?_ a ?_
        · rwa [plain.bearers]
        · rwa [plain.keys]
      · rw [← List.drop_drop, here, List.drop_succ_cons, List.drop_zero]
    · exact absurd atEnd clash.overlap

theorem sanitizeError_redacts_iff (message : String) : Redacts message ↔ Separate message.toList := by
  have blanked (atEnd : KeysAtEnd 0 message.toList) := blanked_of_keysAtEnd message.toList atEnd rfl fun i _ => Iff.rfl
  constructor
  · intro redacts
    have atEnd := (bearers_found_iff 0 message.toList).mp
        (redacts.found [secretKeyPattern] bearerPattern [assignmentPattern] rfl)
    refine ⟨atEnd, (assignments_found_iff (blanked atEnd)).mp ?_⟩
    exact redacts.found [secretKeyPattern, bearerPattern] assignmentPattern [] rfl
  · rintro ⟨atEnd, apart⟩
    have found : ∀ earlier pattern later, secretValuePatterns = earlier ++ pattern :: later →
        ∀ span ∈ pattern.finditer message.toList, pattern.Finds (rewriteAll earlier (mark 0 message.toList)) span := by
      intro earlier pattern later split
      rcases earlier with _ | ⟨first, _ | ⟨second, _ | ⟨third, earlier⟩⟩⟩
      · cases split
        exact fun span member => finds_own member
      · cases split
        exact (bearers_found_iff 0 message.toList).mpr atEnd
      · cases split
        exact (assignments_found_iff (blanked atEnd)).mpr apart
      · have length := congrArg List.length split
        simp only [secretValuePatterns, List.length_cons, List.length_append, List.length_nil] at length
        omega
    refine ⟨?_, ?_, found, sanitizeError_idempotent message⟩
    · rw [spell_rewriteAll, spell_mark, sanitizeError, String.toList_ofList]
    · intro pattern listed span member i secret survives
      obtain ⟨earlier, later, split⟩ := List.append_of_mem listed
      have turn : rewriteAll secretValuePatterns (mark 0 message.toList) =
          rewriteAll later (pattern.sub (rewriteAll earlier (mark 0 message.toList))) := by
        rw [split, rewriteAll, List.foldl_append, List.foldl_cons]
        rfl
      rw [turn] at survives
      exact (found earlier pattern later split span member).2 i secret (survives_of_rewriteAll survives)

theorem key_hides_token : ¬Redacts "sk-aaaaaaaatoken=hunter2" := by
  intro redacts
  refine redacts.removed assignmentPattern ?_ ⟨11, 17, 24⟩ ?_ 17 ?_ ⟨⟨'h', some 17⟩, ?_, rfl⟩
  · exact List.mem_cons_of_mem _ (List.mem_cons_of_mem _ List.mem_cons_self)
  · decide
  · exact ⟨Nat.le_refl _, by decide⟩
  · decide

end Centroid
