import Centroid.Lib.Json
import Centroid.Lib.LoadLoop

namespace JsonText

/-- A hexadecimal digit. -/
def hexDigit (n : ℕ) : Char := Char.ofNat (if n < 10 then 48 + n else 87 + n)

def hexValue (c : Char) : Option ℕ :=
  let n := c.toNat
  if 48 ≤ n ∧ n ≤ 57 then some (n - 48)
  else if 97 ≤ n ∧ n ≤ 102 then some (n - 87)
  else if 65 ≤ n ∧ n ≤ 70 then some (n - 55)
  else none

/-- A unit of 16 bits as an escape. -/
def unitEscape (unit : ℕ) : List Char :=
  ['\\', 'u', hexDigit (unit / 4096 % 16), hexDigit (unit / 256 % 16), hexDigit (unit / 16 % 16), hexDigit (unit % 16)]

/-- The units of a character: two for one beyond the first 65536. -/
def units (c : Char) : List ℕ :=
  if c.toNat < 65536 then [c.toNat]
  else [55296 + (c.toNat - 65536) / 1024, 56320 + (c.toNat - 65536) % 1024]

/-- The letters of the short escapes, with what they stand for. -/
def shortEscapes : List (Char × ℕ) :=
  [('"', 34), ('\\', 92), ('/', 47), ('b', 8), ('f', 12), ('n', 10), ('r', 13), ('t', 9)]

/-- A character within a string. What is not printable ASCII is escaped. -/
def encodeChar (c : Char) : List Char :=
  if c = '"' then ['\\', '"']
  else if c = '\\' then ['\\', '\\']
  else if c = '\n' then ['\\', 'n']
  else if c = '\r' then ['\\', 'r']
  else if c = '\t' then ['\\', 't']
  else if c.toNat = 12 then ['\\', 'f']
  else if c.toNat = 8 then ['\\', 'b']
  else if 32 ≤ c.toNat ∧ c.toNat ≤ 126 then [c]
  else (units c).flatMap unitEscape

/-- `json.dumps` of a string. -/
def encodeString (s : String) : List Char := '"' :: s.toList.flatMap encodeChar ++ ['"']

/-- The members of an object, or the fields of one, between separators. -/
def encodeMembers : List (String × List Char) → List Char
  | [] => []
  | [(name, text)] => encodeString name ++ ':' :: ' ' :: text
  | (name, text) :: rest => encodeString name ++ ':' :: ' ' :: text ++ ',' :: ' ' :: encodeMembers rest

def encodeObject (members : List (String × List Char)) : List Char := '{' :: encodeMembers members ++ ['}']

/-- Four hexadecimal digits. -/
def hexUnit (a b c d : Char) : Option ℕ := do
  let a ← hexValue a
  let b ← hexValue b
  let c ← hexValue c
  let d ← hexValue d
  return a * 4096 + b * 256 + c * 16 + d

/-- The units of a string up to its closing quote, and the text after it. -/
def scanUnits : List Char → Option (List ℕ × List Char)
  | [] => none
  | c :: rest =>
    if c = '"' then some ([], rest)
    else if c = '\\' then
      match rest with
      | 'u' :: a :: b :: c :: d :: rest => do
        let unit ← hexUnit a b c d
        let (later, rest) ← scanUnits rest
        return (unit :: later, rest)
      | letter :: rest => do
        let unit ← (shortEscapes.find? fun entry => entry.1 = letter).map Prod.snd
        let (later, rest) ← scanUnits rest
        return (unit :: later, rest)
      | [] => none
    else if c.toNat < 32 then none
    else do
      let (later, rest) ← scanUnits rest
      return (c.toNat :: later, rest)

/-- The characters that units stand for, where no half of a pair stands alone. -/
def joinUnits : List ℕ → Option (List Char)
  | [] => some []
  | high :: rest =>
    if 55296 ≤ high ∧ high < 56320 then
      match rest with
      | low :: rest =>
        if 56320 ≤ low ∧ low < 57344 then
          (joinUnits rest).map (Char.ofNat (65536 + (high - 55296) * 1024 + (low - 56320)) :: ·)
        else none
      | [] => none
    else if 56320 ≤ high ∧ high < 57344 then none
    else (joinUnits rest).map (Char.ofNat high :: ·)

/-- A string after its opening quote, and the text after it. -/
def scanString (text : List Char) : Option (String × List Char) := do
  let (found, rest) ← scanUnits text
  let chars ← joinUnits found
  return (String.ofList chars, rest)

def isBlank (c : Char) : Bool := c = ' ' ∨ c = '\t' ∨ c = '\n' ∨ c = '\r'

def skipBlanks (text : List Char) : List Char := text.dropWhile isBlank

/-- The text after a sign, which may have blanks before it. -/
def expect (sign : Char) (text : List Char) : Option (List Char) :=
  match skipBlanks text with
  | c :: rest => if c = sign then some rest else none
  | [] => none

section Values

-- The literals and the numbers, which are left open here.
variable (scanOther : List Char → Option (Json × List Char))

mutual

/-- A value, and the text after it. The bound is on the nesting and on the
number of members and items. -/
def scanValue : ℕ → List Char → Option (Json × List Char)
  | 0, _ => none
  | _ + 1, [] => scanOther []
  | bound + 1, c :: rest =>
    if c = '"' then (scanString rest).map fun found => (.str found.1, found.2)
    else if c = '{' then
      match expect '}' rest with
      | some rest => some (.dict [], rest)
      | none => (scanMembers bound rest).map fun found => (.dict (LoadLoop.assign ∅ found.1).entries, found.2)
    else if c = '[' then
      match expect ']' rest with
      | some rest => some (.list [], rest)
      | none => scanItems bound rest |>.map fun found => (.list found.1, found.2)
    else scanOther (c :: rest)

/-- The members of an object, from a name to the closing brace. The last one of
a name stays. -/
def scanMembers : ℕ → List Char → Option (List (Key JsonNumber × Json) × List Char)
  | 0, _ => none
  | bound + 1, text =>
    match expect '"' text >>= scanString with
    | none => none
    | some (name, rest) =>
      match expect ':' rest >>= fun rest => scanValue bound (skipBlanks rest) with
      | none => none
      | some (value, rest) =>
        match expect ',' rest with
        | some rest => (scanMembers bound rest).map fun found => ((.str name, value) :: found.1, found.2)
        | none => (expect '}' rest).map fun rest => ([(.str name, value)], rest)

def scanItems : ℕ → List Char → Option (List Json × List Char)
  | 0, _ => none
  | bound + 1, text =>
    match scanValue bound (skipBlanks text) with
    | none => none
    | some (value, rest) =>
      match expect ',' rest with
      | some rest => (scanItems bound rest).map fun found => (value :: found.1, found.2)
      | none => (expect ']' rest).map fun rest => ([value], rest)

end

/-- `json.loads`, where it does not raise. -/
def loads (text : List Char) : Option Json := do
  let (value, rest) ← scanValue scanOther (text.length + 1) (skipBlanks text)
  if skipBlanks rest = [] then return value else none

end Values

theorem hexValue_hexDigit {n : ℕ} (digit : n < 16) : hexValue (hexDigit n) = some n := by
  have all : ∀ n < 16, hexValue (hexDigit n) = some n := by decide
  exact all n digit

theorem hexUnit_digits {unit : ℕ} (small : unit < 65536) :
    hexUnit (hexDigit (unit / 4096 % 16)) (hexDigit (unit / 256 % 16)) (hexDigit (unit / 16 % 16)) (hexDigit (unit % 16)) =
      some unit := by
  have whole : unit / 4096 % 16 * 4096 + unit / 256 % 16 * 256 + unit / 16 % 16 * 16 + unit % 16 = unit := by omega
  simp only [hexUnit, hexValue_hexDigit (Nat.mod_lt _ (by decide : 0 < 16)), Option.bind_eq_bind, Option.bind_some, whole]
  rfl

/-- What is scanned behind an escape is put behind its unit. -/
theorem scanUnits_unitEscape {unit : ℕ} (small : unit < 65536) (rest : List Char) :
    scanUnits (unitEscape unit ++ rest) = (scanUnits rest).map fun found => (unit :: found.1, found.2) := by
  simp only [unitEscape, List.cons_append, List.nil_append]
  rw [scanUnits, if_neg (by decide), if_pos rfl]
  simp only [hexUnit_digits small, Option.bind_eq_bind, Option.bind_some]
  cases scanUnits rest <;> rfl

theorem scanUnits_shortEscape {letter : Char} {unit : ℕ}
    (listed : (shortEscapes.find? fun entry => entry.1 = letter) = some (letter, unit)) (rest : List Char) :
    scanUnits ('\\' :: letter :: rest) = (scanUnits rest).map fun found => (unit :: found.1, found.2) := by
  have notU : letter ≠ 'u' := by
    rintro rfl
    cases listed
  rw [scanUnits, if_neg (by decide), if_pos rfl, listed]
  · cases scanUnits rest <;> rfl
  · intro _ _ _ _ _ same _
    exact notU same

theorem scanUnits_quote (rest : List Char) : scanUnits ('"' :: rest) = some ([], rest) := by
  rw [scanUnits.eq_def]
  exact if_pos rfl

theorem scanUnits_plain {c : Char} (notQuote : c ≠ '"') (notBackslash : c ≠ '\\') (printable : 32 ≤ c.toNat)
    (rest : List Char) : scanUnits (c :: rest) = (scanUnits rest).map fun found => (c.toNat :: found.1, found.2) := by
  rw [scanUnits.eq_def]
  dsimp only
  rw [if_neg notQuote, if_neg notBackslash, if_neg (by omega)]
  cases scanUnits rest <;> rfl

theorem joinUnits_single {unit : ℕ} (whole : unit < 55296 ∨ 57343 < unit) (rest : List ℕ) :
    joinUnits (unit :: rest) = (joinUnits rest).map (Char.ofNat unit :: ·) := by
  rw [joinUnits.eq_def]
  dsimp only
  rw [if_neg (by omega), if_neg (by omega)]

theorem units_lt (c : Char) : ∀ unit ∈ units c, unit < 65536 := by
  have valid : c.toNat < 55296 ∨ 57343 < c.toNat ∧ c.toNat < 1114112 := c.valid
  intro unit member
  unfold units at member
  split at member
  · rw [List.mem_singleton.mp member]
    assumption
  · rcases List.mem_cons.mp member with rfl | low
    · omega
    · rw [List.mem_singleton.mp low]
      omega

theorem scanUnits_escapes (found : List ℕ) (small : ∀ unit ∈ found, unit < 65536) (rest : List Char) :
    scanUnits (found.flatMap unitEscape ++ rest) = (scanUnits rest).map fun later => (found ++ later.1, later.2) := by
  induction found with
  | nil =>
    rw [List.flatMap_nil, List.nil_append]
    cases scanUnits rest <;> rfl
  | cons unit found ih =>
    rw [List.flatMap_cons, List.append_assoc, scanUnits_unitEscape (small unit List.mem_cons_self),
      ih fun other member => small other (List.mem_cons_of_mem _ member), Option.map_map]
    rfl

/-- A character is scanned as its units. -/
theorem scanUnits_encodeChar (c : Char) (rest : List Char) :
    scanUnits (encodeChar c ++ rest) = (scanUnits rest).map fun later => (units c ++ later.1, later.2) := by
  have short : ∀ {letter : Char} {unit : ℕ}, (shortEscapes.find? fun entry => entry.1 = letter) = some (letter, unit) →
      units c = [unit] → scanUnits (['\\', letter] ++ rest) =
        (scanUnits rest).map fun later => (units c ++ later.1, later.2) := by
    intro letter unit listed same
    rw [same]
    exact scanUnits_shortEscape listed rest
  have single : ∀ {n : ℕ}, c.toNat = n → n < 65536 → units c = [n] := by
    intro n same small
    rw [units, same, if_pos small]
  unfold encodeChar
  split
  · rename_i same
    exact short rfl (single (congrArg Char.toNat same) (by decide))
  split
  · rename_i same
    exact short rfl (single (congrArg Char.toNat same) (by decide))
  split
  · rename_i same
    exact short rfl (single (congrArg Char.toNat same) (by decide))
  split
  · rename_i same
    exact short rfl (single (congrArg Char.toNat same) (by decide))
  split
  · rename_i same
    exact short rfl (single (congrArg Char.toNat same) (by decide))
  split
  · rename_i same
    exact short rfl (single same (by decide))
  split
  · rename_i same
    exact short rfl (single same (by decide))
  split
  · rename_i notQuote notBackslash _ _ _ _ _ printable
    rw [List.singleton_append, scanUnits_plain notQuote notBackslash printable.1, single rfl (by omega)]
    rfl
  · exact scanUnits_escapes (units c) (units_lt c) rest

/-- The units of a character stand for it. -/
theorem joinUnits_units (c : Char) (rest : List ℕ) : joinUnits (units c ++ rest) = (joinUnits rest).map (c :: ·) := by
  have valid : c.toNat < 55296 ∨ 57343 < c.toNat ∧ c.toNat < 1114112 := c.valid
  unfold units
  split
  · rw [List.singleton_append, joinUnits_single (by omega), Char.ofNat_toNat]
  · rename_i large
    have whole : 65536 + (55296 + (c.toNat - 65536) / 1024 - 55296) * 1024 + (56320 + (c.toNat - 65536) % 1024 - 56320) =
        c.toNat := by omega
    rw [List.cons_append, List.singleton_append, joinUnits, if_pos (by omega), if_pos (by omega), whole, Char.ofNat_toNat]

/-- What is written as a string is read as that string. -/
theorem scanString_encodeString (s : String) (rest : List Char) :
    scanString (s.toList.flatMap encodeChar ++ '"' :: rest) = some (s, rest) := by
  have scanned : ∀ chars : List Char, scanUnits (chars.flatMap encodeChar ++ '"' :: rest) =
      some (chars.flatMap units, rest) := by
    intro chars
    induction chars with
    | nil => exact scanUnits_quote rest
    | cons c chars ih =>
      rw [List.flatMap_cons, List.append_assoc, scanUnits_encodeChar, ih, List.flatMap_cons]
      rfl
  have joined : ∀ chars : List Char, joinUnits (chars.flatMap units) = some chars := by
    intro chars
    induction chars with
    | nil => rfl
    | cons c chars ih =>
      rw [List.flatMap_cons, joinUnits_units, ih]
      rfl
  rw [scanString, scanned]
  simp only [Option.bind_eq_bind, Option.bind_some, joined, String.ofList_toList]
  rfl

section RoundTrip

variable (scanOther : List Char → Option (Json × List Char))

/-- The text stands for the value wherever it stands, within a bound. -/
def Encodes (bound : ℕ) (text : List Char) (value : Json) : Prop :=
  (∀ rest, skipBlanks (text ++ rest) = text ++ rest) ∧
    ∀ more ≥ bound, ∀ rest, scanValue scanOther more (text ++ rest) = some (value, rest)

theorem encodeString_append (s : String) (rest : List Char) :
    encodeString s ++ rest = '"' :: (s.toList.flatMap encodeChar ++ '"' :: rest) := by
  simp [encodeString]

theorem encodes_string (s : String) : Encodes scanOther 1 (encodeString s) (.str s) := by
  refine ⟨fun _ => rfl, fun more enough rest => ?_⟩
  obtain ⟨bound, rfl⟩ := Nat.exists_eq_add_of_le' enough
  rw [encodeString_append, scanValue, if_pos rfl, scanString_encodeString]
  rfl

/-- The members from one on: its name and its value are read. -/
theorem scanMembers_step {bound : ℕ} {text : List Char} {value : Json} (encodes : Encodes scanOther bound text value)
    {more : ℕ} (enough : bound ≤ more) (name : String) (rest : List Char) :
    scanMembers scanOther (more + 1) (encodeString name ++ ':' :: ' ' :: text ++ rest) = (match expect ',' rest with
      | some rest => (scanMembers scanOther more rest).map fun found => ((.str name, value) :: found.1, found.2)
      | none => (expect '}' rest).map fun rest => ([(.str name, value)], rest)) := by
  have named : (expect '"' (encodeString name ++ ':' :: ' ' :: text ++ rest) >>= scanString) =
      some (name, ':' :: ' ' :: text ++ rest) := by
    rw [List.append_assoc, encodeString_append]
    exact scanString_encodeString name _
  have blank : skipBlanks (' ' :: text ++ rest) = text ++ rest := encodes.1 rest
  have read : (expect ':' (':' :: ' ' :: text ++ rest) >>= fun rest => scanValue scanOther more (skipBlanks rest)) =
      some (value, rest) := by
    rw [show expect ':' (':' :: ' ' :: text ++ rest) = some (' ' :: text ++ rest) from rfl, Option.bind_eq_bind,
      Option.bind_some, blank]
    exact encodes.2 more enough rest
  rw [scanMembers, named]
  dsimp only
  rw [read]

/-- The members of an object are read as they were written. -/
theorem scanMembers_encodeMembers {bound : ℕ} (member : String × List Char × Json)
    (members : List (String × List Char × Json))
    (encodes : ∀ m ∈ member :: members, Encodes scanOther bound m.2.1 m.2.2) {more : ℕ}
    (enough : bound + members.length < more) (rest : List Char) :
    scanMembers scanOther more (encodeMembers ((member :: members).map fun m => (m.1, m.2.1)) ++ '}' :: rest) =
      some ((member :: members).map fun m => (.str m.1, m.2.2), rest) := by
  induction members generalizing member more with
  | nil =>
    obtain ⟨spare, rfl⟩ := Nat.exists_eq_add_of_le' (by omega : 1 ≤ more)
    rw [List.length_nil] at enough
    exact scanMembers_step scanOther (encodes member List.mem_cons_self) (by omega : bound ≤ spare) member.1 ('}' :: rest)
  | cons next members ih =>
    obtain ⟨spare, rfl⟩ := Nat.exists_eq_add_of_le' (by omega : 1 ≤ more)
    rw [List.length_cons] at enough
    have later := ih next (fun m listed => encodes m (List.mem_cons_of_mem _ listed)) (by omega : bound + members.length < spare)
    have unfolded : encodeMembers ((member :: next :: members).map fun m => (m.1, m.2.1)) = encodeString member.1 ++
        ':' :: ' ' :: member.2.1 ++ ',' :: ' ' :: encodeMembers ((next :: members).map fun m => (m.1, m.2.1)) := rfl
    have step := scanMembers_step scanOther (encodes member List.mem_cons_self) (by omega : bound ≤ spare) member.1
      (',' :: ' ' :: (encodeMembers ((next :: members).map fun m => (m.1, m.2.1)) ++ '}' :: rest))
    have blank : ∀ text, scanMembers scanOther spare (' ' :: text) = scanMembers scanOther spare text := by
      intro text
      cases spare <;> rfl
    rw [unfolded, List.append_assoc _ (',' :: _), List.cons_append, List.cons_append, step]
    rw [show ∀ tail, expect ',' (',' :: tail) = some tail from fun _ => rfl]
    dsimp only
    rw [blank, later]
    rfl

/-- What is written as an object is read as that object. -/
theorem encodes_object {bound : ℕ} (members : List (String × List Char × Json))
    (encodes : ∀ m ∈ members, Encodes scanOther bound m.2.1 m.2.2) :
    Encodes scanOther (bound + members.length + 1) (encodeObject (members.map fun m => (m.1, m.2.1)))
      (.dict (LoadLoop.assign ∅ (members.map fun m => (.str m.1, m.2.2))).entries) := by
  refine ⟨fun _ => rfl, fun more enough rest => ?_⟩
  obtain ⟨spare, rfl⟩ := Nat.exists_eq_add_of_le' (by omega : 1 ≤ more)
  cases members with
  | nil => rfl
  | cons member members =>
    rw [List.length_cons] at enough
    have read := scanMembers_encodeMembers scanOther member members encodes (by omega : bound + members.length < spare) rest
    have notClosed : expect '}' (encodeMembers ((member :: members).map fun m => (m.1, m.2.1)) ++ '}' :: rest) = none := by
      cases members <;> rfl
    rw [encodeObject, List.cons_append, List.cons_append, List.append_assoc, List.singleton_append, scanValue, if_neg (by decide), if_pos rfl,
      notClosed]
    dsimp only
    rw [read]
    rfl

/-- A text that stands for a value is loaded as it, if the bound is not beyond
its length. -/
theorem loads_of_encodes {bound : ℕ} {text : List Char} {value : Json} (encodes : Encodes scanOther bound text value)
    (enough : bound ≤ text.length + 1) : loads scanOther text = some value := by
  have start := encodes.1 []
  have read := encodes.2 (text.length + 1) enough []
  rw [List.append_nil] at start read
  rw [loads, start, read]
  rfl

end RoundTrip

/-- Printable ASCII. -/
def Printable (text : List Char) : Prop := ∀ c ∈ text, 32 ≤ c.toNat ∧ c.toNat ≤ 126

theorem printable_of_all {text : List Char} (all : (text.all fun c => decide (32 ≤ c.toNat ∧ c.toNat ≤ 126)) = true) :
    Printable text :=
  fun c member => of_decide_eq_true (List.all_eq_true.mp all c member)

theorem Printable.append {text other : List Char} (first : Printable text) (second : Printable other) :
    Printable (text ++ other) := by
  intro c member
  rcases List.mem_append.mp member with left | right
  · exact first c left
  · exact second c right

theorem printable_unitEscape (unit : ℕ) : Printable (unitEscape unit) := by
  have digit : ∀ n < 16, 32 ≤ (hexDigit n).toNat ∧ (hexDigit n).toNat ≤ 126 := by decide
  have letter : Printable ['\\', 'u'] := printable_of_all rfl
  intro c member
  simp only [unitEscape, List.mem_cons, List.not_mem_nil, or_false] at member
  rcases member with rfl | rfl | rfl | rfl | rfl | rfl
  · exact letter _ (by simp)
  · exact letter _ (by simp)
  · exact digit _ (Nat.mod_lt _ (by decide))
  · exact digit _ (Nat.mod_lt _ (by decide))
  · exact digit _ (Nat.mod_lt _ (by decide))
  · exact digit _ (Nat.mod_lt _ (by decide))

theorem printable_flatMap {α : Type} {f : α → List Char} {items : List α} (each : ∀ item ∈ items, Printable (f item)) :
    Printable (items.flatMap f) := by
  intro c member
  obtain ⟨item, listed, inside⟩ := List.mem_flatMap.mp member
  exact each item listed c inside

theorem printable_encodeChar (c : Char) : Printable (encodeChar c) := by
  unfold encodeChar
  split
  · exact printable_of_all rfl
  split
  · exact printable_of_all rfl
  split
  · exact printable_of_all rfl
  split
  · exact printable_of_all rfl
  split
  · exact printable_of_all rfl
  split
  · exact printable_of_all rfl
  split
  · exact printable_of_all rfl
  split
  · rename_i printable
    intro d member
    rw [List.mem_singleton.mp member]
    exact printable
  · exact printable_flatMap fun unit _ => printable_unitEscape unit

/-- Whatever is in a string, it is written in printable ASCII. -/
theorem printable_encodeString (s : String) : Printable (encodeString s) := by
  have quote : Printable ['"'] := printable_of_all rfl
  exact Printable.append (Printable.append quote (printable_flatMap fun c _ => printable_encodeChar c)) quote

theorem printable_encodeMembers {members : List (String × List Char)} (each : ∀ m ∈ members, Printable m.2) :
    Printable (encodeMembers members) := by
  have signs : Printable [':', ' '] ∧ Printable [',', ' '] := ⟨printable_of_all rfl, printable_of_all rfl⟩
  induction members with
  | nil => exact fun c member => absurd member List.not_mem_nil
  | cons member members ih =>
    have first : Printable (encodeString member.1 ++ ':' :: ' ' :: member.2) :=
      (printable_encodeString member.1).append (signs.1.append (each member List.mem_cons_self))
    cases members with
    | nil => exact first
    | cons next members =>
      exact first.append (signs.2.append (ih fun m listed => each m (List.mem_cons_of_mem _ listed)))

theorem printable_encodeObject {members : List (String × List Char)} (each : ∀ m ∈ members, Printable m.2) :
    Printable (encodeObject members) := by
  have braces : Printable ['{'] ∧ Printable ['}'] := ⟨printable_of_all rfl, printable_of_all rfl⟩
  exact (braces.1.append (printable_encodeMembers each)).append braces.2

/-- An object takes more room than its members. -/
theorem length_encodeMembers (members : List (String × List Char)) :
    (members.map fun m => m.2.length + 4).sum ≤ (encodeMembers members).length := by
  induction members with
  | nil => exact Nat.le_refl _
  | cons member members ih =>
    cases members with
    | nil =>
      simp only [List.map_cons, List.map_nil, List.sum_cons, List.sum_nil, encodeMembers, encodeString,
        List.length_append, List.length_cons, List.length_nil]
      omega
    | cons next members =>
      rw [List.map_cons, List.sum_cons]
      have unfolded : encodeMembers (member :: next :: members) = encodeString member.1 ++ ':' :: ' ' :: member.2 ++
        ',' :: ' ' :: encodeMembers (next :: members) := rfl
      rw [unfolded]
      simp only [encodeString, List.length_append, List.length_cons, List.length_nil]
      omega

end JsonText
