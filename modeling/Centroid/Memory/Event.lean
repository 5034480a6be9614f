import Centroid.Lib.JsonText
import Centroid.Lib.TextLines

namespace Centroid

structure Event where
  eventType : String
  content : String
  source : String
  eventId : String
  timestamp : String
  metadata : Dict String String

/-- `sort_keys` of `json.dumps`. -/
def sortKeys {α : Type} (members : List (String × α)) : List (String × α) :=
  members.mergeSort fun a b => decide (a.1 ≤ b.1)

namespace Event

/-- The fields of `asdict`, with their texts. -/
def fields (self : Event) : List (String × List Char) :=
  [("event_type", JsonText.encodeString self.eventType), ("content", JsonText.encodeString self.content),
    ("source", JsonText.encodeString self.source), ("event_id", JsonText.encodeString self.eventId),
    ("timestamp", JsonText.encodeString self.timestamp),
    ("metadata", JsonText.encodeObject (sortKeys (self.metadata.mapValues fun _ v => JsonText.encodeString v).entries))]

/-- `json.dumps(asdict(event), sort_keys=True)`. -/
def line (self : Event) : List Char := JsonText.encodeObject (sortKeys self.fields)

/-- A field that is a string; what is not there has its default, if any. -/
def textAt (entries : JsonObject) (name : String) (default : Option String) : Option String :=
  match entries.get? name with
  | some (.str s) => some s
  | some _ => none
  | none => default

/-- A name with a string. -/
def textEntry : Key JsonNumber × Json → Option (String × String)
  | (.str name, .str value) => some (name, value)
  | _ => none

/-- A metadata map from strings to strings. -/
def metadataOf : Json → Option (Dict String String)
  | .dict entries => (entries.mapM textEntry).map Dict.ofList
  | _ => none

/-- `Event(**data)`, with the identifier and the time drawn for a missing one.
It is none where this raises and where a field is not what it is declared to be. -/
def ofJson (drawn : Json → String × String) (data : Json) : Option Event :=
  match data with
  | .dict entries =>
    if ∀ entry ∈ entries, entry.1 ∈ [Key.str "event_type", .str "content", .str "source", .str "event_id",
        .str "timestamp", .str "metadata"] then do
      let eventType ← textAt entries "event_type" none
      let content ← textAt entries "content" none
      let source ← textAt entries "source" none
      let eventId ← textAt entries "event_id" (some (drawn data).1)
      let timestamp ← textAt entries "timestamp" (some (drawn data).2)
      let metadata ← match JsonObject.get? entries "metadata" with
        | some value => metadataOf value
        | none => some ∅
      return ⟨eventType, content, source, eventId, timestamp, metadata⟩
    else none
  | _ => none

end Event

section Stored

theorem perm_sortKeys {α : Type} (members : List (String × α)) : (sortKeys members).Perm members :=
  List.mergeSort_perm _ _

theorem sortKeys_map {α β : Type} (f : α → β) (members : List (String × α)) :
    sortKeys (members.map fun m => (m.1, f m.2)) = (sortKeys members).map fun m => (m.1, f m.2) :=
  (List.map_mergeSort (f := fun m : String × α => (m.1, f m.2)) fun _ _ _ _ => rfl).symm

/-- A metadata map in the order of its keys. -/
def sortedMetadata (metadata : Dict String String) : Dict String String where
  entries := sortKeys metadata.entries
  distinct := ((perm_sortKeys metadata.entries).map Prod.fst).nodup_iff.mpr metadata.distinct

/-- An event as it is read back: its metadata come in the order of their keys. -/
def Event.stored (self : Event) : Event := { self with metadata := sortedMetadata self.metadata }

theorem decide_string_le_trans (a b c : String) (first : decide (a ≤ b) = true) (second : decide (b ≤ c) = true) :
    decide (a ≤ c) = true :=
  decide_eq_true (String.le_trans (of_decide_eq_true first) (of_decide_eq_true second))

theorem decide_string_le_total (a b : String) : (decide (a ≤ b) || decide (b ≤ a)) = true := by
  rw [Bool.or_eq_true, decide_eq_true_iff, decide_eq_true_iff]
  exact String.le_total a b

theorem pairwise_sortKeys {α : Type} (members : List (String × α)) :
    (sortKeys members).Pairwise fun a b => decide (a.1 ≤ b.1) = true := by
  refine List.pairwise_mergeSort ?_ ?_ members
  · exact fun a b c => decide_string_le_trans a.1 b.1 c.1
  · exact fun a b => decide_string_le_total a.1 b.1

/-- The order of members under distinct names does not matter. -/
theorem sortKeys_eq_of_perm {α : Type} {members members' : List (String × α)} (perm : members.Perm members')
    (distinct : (members.map Prod.fst).Nodup) : sortKeys members = sortKeys members' := by
  have same : (sortKeys members).Perm (sortKeys members') :=
    (perm_sortKeys members).trans (perm.trans (perm_sortKeys members').symm)
  refine same.eq_of_pairwise ?_ (pairwise_sortKeys members) (pairwise_sortKeys members')
  intro a b listed listed' below above
  have names : a.1 = b.1 := String.le_antisymm (of_decide_eq_true below) (of_decide_eq_true above)
  have left := (perm_sortKeys members).mem_iff.mp listed
  have right := perm.mem_iff.mpr ((perm_sortKeys members').mem_iff.mp listed')
  exact List.inj_on_of_nodup_map distinct left right names

theorem get?_sortedMetadata (metadata : Dict String String) (key : String) :
    (sortedMetadata metadata).get? key = metadata.get? key := by
  have same : ∀ value, (sortedMetadata metadata).get? key = some value ↔ metadata.get? key = some value := by
    intro value
    rw [← Dict.mem_entries_iff, ← Dict.mem_entries_iff]
    exact (perm_sortKeys metadata.entries).mem_iff
  exact Option.ext same

/-- Members under distinct names, in the order of their names, make the object
that has them in this order. -/
theorem assign_sortKeys {α : Type} {members : List (String × α)} (distinct : (members.map Prod.fst).Nodup) (f : α → Json) :
    (LoadLoop.assign ∅ ((sortKeys members).map fun m => (Key.str m.1, f m.2))).entries =
      (sortKeys members).map fun m => ((Key.str m.1 : Key JsonNumber), f m.2) := by
  rw [LoadLoop.entries_assign]
  · rfl
  · have keys : ((sortKeys members).map fun m => ((Key.str m.1 : Key JsonNumber), f m.2)).map Prod.fst =
        ((sortKeys members).map Prod.fst).map Key.str := by
      rw [List.map_map, List.map_map]
      rfl
    have sorted : ((sortKeys members).map Prod.fst).Nodup := ((perm_sortKeys members).map Prod.fst).nodup_iff.mpr distinct
    exact keys ▸ sorted.map fun a b same => Key.str.inj same

theorem get?_sortKeys {α : Type} {members : List (String × α)} (distinct : (members.map Prod.fst).Nodup) (f : α → Json)
    {name : String} {value : α} (listed : (name, value) ∈ members) :
    JsonObject.get? ((sortKeys members).map fun m => (.str m.1, f m.2)) name = some (f value) := by
  refine Assoc.get?_of_mem ?_ ?_
  · rw [List.map_map]
    have sorted : ((sortKeys members).map Prod.fst).Nodup := ((perm_sortKeys members).map Prod.fst).nodup_iff.mpr distinct
    have names := sorted.map fun a b (same : Key.str (N := JsonNumber) a = .str b) => Key.str.inj same
    rwa [List.map_map] at names
  · exact List.mem_map.mpr ⟨(name, value), (perm_sortKeys members).mem_iff.mpr listed, rfl⟩

end Stored

namespace Event

variable (self : Event)

/-- The metadata of an event as `json.loads` finds them. -/
def metadataDoc : Json := .dict ((sortKeys self.metadata.entries).map fun m => (.str m.1, .str m.2))

/-- The fields of an event, with the text of each and what it stands for. -/
def members : List (String × List Char × Json) :=
  [("event_type", JsonText.encodeString self.eventType, .str self.eventType),
    ("content", JsonText.encodeString self.content, .str self.content),
    ("source", JsonText.encodeString self.source, .str self.source),
    ("event_id", JsonText.encodeString self.eventId, .str self.eventId),
    ("timestamp", JsonText.encodeString self.timestamp, .str self.timestamp),
    ("metadata", JsonText.encodeObject (sortKeys (self.metadata.mapValues fun _ v => JsonText.encodeString v).entries),
      self.metadataDoc)]

theorem members_nodup : (self.members.map Prod.fst).Nodup := by
  have names : self.members.map Prod.fst = ["event_type", "content", "source", "event_id", "timestamp", "metadata"] := rfl
  rw [names]
  decide

theorem metadataOf_metadataDoc : metadataOf self.metadataDoc = some (sortedMetadata self.metadata) := by
  have each : textEntry ∘ (fun m : String × String => ((Key.str m.1 : Key JsonNumber), (Value.str m.2 : Json))) =
      fun m => pure m := rfl
  have read : ((sortKeys self.metadata.entries).map fun m => ((Key.str m.1 : Key JsonNumber), (Value.str m.2 : Json))).mapM
      textEntry = some (sortKeys self.metadata.entries) := by
    rw [List.mapM_map, each]
    exact List.mapM_pure.trans (congrArg some (List.map_id _))
  rw [metadataDoc, metadataOf, read]
  exact congrArg some (LoadLoop.assign_entries (sortedMetadata self.metadata))

/-- What `Event` makes of its own fields, in the order of their names. -/
theorem ofJson_members (drawn : Json → String × String) :
    ofJson drawn (.dict ((sortKeys self.members).map fun m => (.str m.1, m.2.2))) = some self.stored := by
  have lookup : ∀ m ∈ self.members,
      JsonObject.get? ((sortKeys self.members).map fun m => (.str m.1, m.2.2)) m.1 = some m.2.2 :=
    fun m listed => get?_sortKeys self.members_nodup Prod.snd listed
  have known : ∀ entry ∈ (sortKeys self.members).map fun m => ((Key.str m.1 : Key JsonNumber), m.2.2),
      entry.1 ∈ [Key.str "event_type", .str "content", .str "source", .str "event_id", .str "timestamp",
        .str "metadata"] := by
    intro entry stored
    obtain ⟨m, listed, rfl⟩ := List.mem_map.mp stored
    have member := (perm_sortKeys self.members).mem_iff.mp listed
    simp only [members, List.mem_cons, List.not_mem_nil, or_false] at member
    rcases member with rfl | rfl | rfl | rfl | rfl | rfl <;> simp
  obtain ⟨eventType, lookup⟩ := List.forall_mem_cons.mp lookup
  obtain ⟨content, lookup⟩ := List.forall_mem_cons.mp lookup
  obtain ⟨source, lookup⟩ := List.forall_mem_cons.mp lookup
  obtain ⟨eventId, lookup⟩ := List.forall_mem_cons.mp lookup
  obtain ⟨timestamp, lookup⟩ := List.forall_mem_cons.mp lookup
  have metadata := (List.forall_mem_cons.mp lookup).1
  dsimp only at eventType content source eventId timestamp metadata
  rw [ofJson]
  dsimp only
  rw [if_pos known]
  simp only [textAt, eventType, content, source, eventId, timestamp, metadata, metadataOf_metadataDoc,
    Option.bind_eq_bind, Option.bind_some]
  rfl

/-- The line of an event stands for its fields. -/
theorem encodes_line (scanOther : List Char → Option (Json × List Char)) :
    JsonText.Encodes scanOther (self.metadata.size + 9) self.line
      (.dict ((sortKeys self.members).map fun m => (.str m.1, m.2.2))) := by
  have metadata : JsonText.Encodes scanOther (self.metadata.size + 2)
      (JsonText.encodeObject (sortKeys (self.metadata.mapValues fun _ v => JsonText.encodeString v).entries))
      self.metadataDoc := by
    have inner := JsonText.encodes_object scanOther
      ((sortKeys self.metadata.entries).map fun m => (m.1, JsonText.encodeString m.2, (.str m.2 : Json)))
      (by
        intro m listed
        obtain ⟨entry, -, rfl⟩ := List.mem_map.mp listed
        exact JsonText.encodes_string scanOther entry.2)
    have texts : sortKeys (self.metadata.mapValues fun _ v => JsonText.encodeString v).entries =
        (sortKeys self.metadata.entries).map fun m => (m.1, JsonText.encodeString m.2) :=
      sortKeys_map JsonText.encodeString self.metadata.entries
    have size : (sortKeys self.metadata.entries).length = self.metadata.size := (perm_sortKeys _).length_eq
    have entries := assign_sortKeys self.metadata.distinct Value.str
    rw [List.map_map, List.map_map, List.length_map, size] at inner
    rw [texts, metadataDoc, ← entries]
    rwa [show 1 + self.metadata.size + 1 = self.metadata.size + 2 by omega] at inner
  have whole := JsonText.encodes_object scanOther (sortKeys self.members) (by
    intro m listed
    have weaken : ∀ {s : String}, JsonText.Encodes scanOther (self.metadata.size + 2) (JsonText.encodeString s) (.str s) :=
      fun {s} => ⟨(JsonText.encodes_string scanOther s).1, fun more enough rest =>
        (JsonText.encodes_string scanOther s).2 more (by omega) rest⟩
    have member := (perm_sortKeys self.members).mem_iff.mp listed
    simp only [members, List.mem_cons, List.not_mem_nil, or_false] at member
    rcases member with rfl | rfl | rfl | rfl | rfl | rfl
    · exact weaken
    · exact weaken
    · exact weaken
    · exact weaken
    · exact weaken
    · exact metadata)
  have texts : sortKeys self.fields = (sortKeys self.members).map fun m => (m.1, m.2.1) :=
    sortKeys_map Prod.fst self.members
  have size : (sortKeys self.members).length = 6 := (perm_sortKeys self.members).length_eq
  have entries := assign_sortKeys self.members_nodup Prod.snd
  rw [size, entries] at whole
  rwa [line, texts, show self.metadata.size + 9 = self.metadata.size + 2 + 6 + 1 by omega]

/-- The line of an event has room for its metadata. -/
theorem size_lt_length_line : self.metadata.size + 9 ≤ self.line.length + 1 := by
  have inner := JsonText.length_encodeMembers (sortKeys (self.metadata.mapValues fun _ v => JsonText.encodeString v).entries)
  have outer := JsonText.length_encodeMembers (sortKeys self.fields)
  have perm : ((sortKeys self.fields).map fun m => m.2.length + 4).sum = (self.fields.map fun m => m.2.length + 4).sum :=
    ((perm_sortKeys self.fields).map fun m => m.2.length + 4).sum_nat
  have each : self.metadata.size * 4 ≤
      ((sortKeys (self.metadata.mapValues fun _ v => JsonText.encodeString v).entries).map fun m => m.2.length + 4).sum := by
    have size : (sortKeys (self.metadata.mapValues fun _ v => JsonText.encodeString v).entries).length = self.metadata.size :=
      ((perm_sortKeys _).length_eq).trans (List.length_map _)
    rw [← size]
    generalize sortKeys (self.metadata.mapValues fun _ v => JsonText.encodeString v).entries = listed
    induction listed with
    | nil => exact Nat.le_refl _
    | cons m listed ih =>
      rw [List.map_cons, List.sum_cons, List.length_cons]
      omega
  have fieldTexts : (JsonText.encodeMembers (sortKeys (self.metadata.mapValues fun _ v =>
      JsonText.encodeString v).entries)).length + 24 ≤ (self.fields.map fun m => m.2.length + 4).sum := by
    simp only [fields, List.map_cons, List.map_nil, List.sum_cons, List.sum_nil, JsonText.encodeObject,
      List.length_append, List.length_cons, List.length_nil]
    omega
  simp only [line, JsonText.encodeObject, List.length_append, List.length_cons, List.length_nil]
  omega

/-- Events with the same fields, the metadata as maps. -/
structure Same (a b : Event) : Prop where
  rest : b = { a with metadata := b.metadata }
  metadata : ∀ key, a.metadata.get? key = b.metadata.get? key

/-- They are written alike. -/
theorem Same.line {a b : Event} (same : a.Same b) : a.line = b.line := by
  obtain ⟨rest, metadata⟩ := same
  have entries : a.metadata.entries.Perm b.metadata.entries := by
    refine (List.perm_ext_iff_of_nodup a.metadata.distinct.of_map b.metadata.distinct.of_map).mpr fun entry => ?_
    rw [show entry = (entry.1, entry.2) from rfl, Dict.mem_entries_iff, Dict.mem_entries_iff, metadata]
  have texts : sortKeys (a.metadata.mapValues fun _ v => JsonText.encodeString v).entries =
      sortKeys (b.metadata.mapValues fun _ v => JsonText.encodeString v).entries :=
    sortKeys_eq_of_perm (entries.map _) (a.metadata.mapValues fun _ v => JsonText.encodeString v).distinct
  have fields : a.fields = b.fields := by
    rw [Event.fields, Event.fields, texts, rest]
  rw [Event.line, Event.line, fields]

/-- What an event was written as is read as that event. -/
theorem ofJson_loads_line (scanOther : List Char → Option (Json × List Char)) (drawn : Json → String × String) :
    (JsonText.loads scanOther self.line).bind (ofJson drawn) = some self.stored := by
  rw [JsonText.loads_of_encodes scanOther (self.encodes_line scanOther) self.size_lt_length_line, Option.bind_some,
    self.ofJson_members drawn]

/-- The line of an event has no breaks in it, whatever its strings hold. -/
theorem line_plain : ∀ c ∈ self.line, TextLines.isLineBreak c = false := by
  have printable : JsonText.Printable self.line := by
    refine JsonText.printable_encodeObject fun m listed => ?_
    have member := (perm_sortKeys self.fields).mem_iff.mp listed
    simp only [fields, List.mem_cons, List.not_mem_nil, or_false] at member
    rcases member with rfl | rfl | rfl | rfl | rfl | rfl
    · exact JsonText.printable_encodeString _
    · exact JsonText.printable_encodeString _
    · exact JsonText.printable_encodeString _
    · exact JsonText.printable_encodeString _
    · exact JsonText.printable_encodeString _
    · refine JsonText.printable_encodeObject fun inner innerListed => ?_
      obtain ⟨entry, -, rfl⟩ := List.mem_map.mp ((perm_sortKeys _).mem_iff.mp innerListed)
      exact JsonText.printable_encodeString _
  intro c member
  obtain ⟨lower, upper⟩ := printable c member
  simp only [TextLines.isLineBreak, List.mem_cons, List.not_mem_nil, or_false, decide_eq_false_iff_not]
  omega

/-- The line of an event is no blank one. -/
theorem line_not_blank : TextLines.isBlankLine self.line = false := rfl

end Event

end Centroid
