import Centroid.Memory.Rebuild

namespace Centroid

/-- An event is read back as itself, its metadata as a map. -/
theorem Event.same_stored (self : Event) : self.Same self.stored where
  rest := rfl
  metadata key := (get?_sortedMetadata self.metadata key).symm

namespace MemoryStore

section Tail

variable (tools : TextTools) (scanOther : List Char → Option (Json × List Char)) (drawn : Json → String × String)
  (capacity : TierCapacity)

/-- Of the events appended on a fresh path, whatever their strings hold, a tail reads the
last ones up to its limit, unless the limit is zero: then it reads all of them. -/
theorem tail_last_iff (calls : List Call) (limit : ℕ) : ∃ store file,
    runCalls tools scanOther drawn capacity calls = some (store, file) ∧
      let events := calls.flatMap Call.appended
      ((∃ found, tail scanOther drawn file limit = some found ∧
          List.Forall₂ Event.Same (events.drop (events.length - min limit events.length)) found) ↔
        limit ≠ 0 ∨ events = []) := by
  obtain ⟨⟨store, file⟩, ran, holds⟩ := holds_runCalls tools scanOther drawn capacity calls
  have stored : file = journal (calls.flatMap Call.appended) := holds.file
  refine ⟨store, file, ran, ?_⟩
  dsimp only
  rw [stored, tail_journal]
  generalize calls.flatMap Call.appended = events
  constructor
  · rintro ⟨found, read, same⟩
    by_contra neither
    obtain ⟨zero, some⟩ := not_or.mp neither
    rw [not_not] at zero
    -- nothing is the last of some events, but all are read
    have lengths := same.length_eq
    rw [← Option.some.inj read] at lengths
    rw [if_pos zero, zero, List.length_drop, List.length_map] at lengths
    exact some (List.length_eq_zero_iff.mp (by omega))
  · intro readable
    have kept : (if limit = 0 then events else events.drop (events.length - limit)) =
        events.drop (events.length - min limit events.length) := by
      rcases readable with positive | none
      · rw [if_neg positive]
        congr 1
        omega
      · rw [none, List.drop_nil, List.drop_nil, ite_self]
    refine ⟨_, rfl, ?_⟩
    rw [kept, List.forall₂_map_right_iff, List.forall₂_same]
    exact fun event _ => event.same_stored

end Tail

/-- The event of the test of `tail`. -/
def checkEvent : Event := ⟨"check", "ok", "test", "i", "1970-01-01T00:00:00+00:00", ∅⟩

/-- A tail that is limited to nothing returns the event. -/
theorem tail_zero_checkEvent : ¬ ∀ (events : List Event) (limit : ℕ), ∃ store file,
    runCalls epochTools (fun _ => none) (fun _ => ("", "")) {} (events.map Call.append) = some (store, file) ∧
      ∃ found, tail (fun _ => none) (fun _ => ("", "")) file limit = some found ∧
        List.Forall₂ Event.Same (events.drop (events.length - min limit events.length)) found := by
  intro always
  obtain ⟨store, file, ran, found, read, same⟩ := always [checkEvent] 0
  obtain ⟨state, run, holds⟩ := holds_runCalls epochTools (fun _ => none) (fun _ => ("", "")) {} [.append checkEvent]
  have held : state.2 = journal [checkEvent] := holds.file
  have sameFile : state.2 = file := congrArg Prod.snd (Option.some.inj (run.symm.trans ran))
  rw [← sameFile, held, tail_journal] at read
  rw [← Option.some.inj read] at same
  exact absurd same.length_eq (by decide)

end MemoryStore

end Centroid
