import Centroid.Lib.Json
import Centroid.Lib.Raises

namespace Centroid

/-- What the normalization of a response can raise. -/
inductive NormalizeError where
  | attributeError
  | typeError
  | valueError
  | recursionError
  | providerResponse (message : String)
  deriving DecidableEq

def NormalizeError.IsProviderResponse (e : NormalizeError) : Prop := ∃ message, e = .providerResponse message

end Centroid

open Centroid Raises

def Key.value : Key JsonNumber → Json
  | .null => .null
  | .num n => .num n
  | .str s => .str s
  | .stamp kind text => .stamp kind text

/-- A float that is a whole number is the same key as the integer. -/
def JsonNumber.asKey : JsonNumber → Key JsonNumber
  | .float (.finite q) => if q.den = 1 then .num (.int q.num) else .num (.float (.finite q))
  | n => .num n

/-- `data.get(name, default)`: the default does not stand in for a null. -/
def JsonObject.getD (data : JsonObject) (name : String) (default : Json) : Json := (data.get? name).getD default

namespace Value

/-- `value == text`. -/
def isStr : Json → String → Bool
  | .str s, text => s = text
  | _, _ => false

def iterable : Json → Bool
  | .list _ | .str _ | .dict _ | .bytes _ | .set _ => true
  | _ => false

/-- What a loop over the value goes through. -/
def items : Json → List Json
  | .list items => items
  | .str s => s.toList.map fun c => .str (String.singleton c)
  | .dict entries => entries.map fun entry => entry.1.value
  | .bytes text => text.toList.map fun c => .num (.int c.toNat)
  | .set members => members.map Key.value
  | _ => []

def hashable : Json → Bool
  | .list _ | .dict _ | .set _ => false
  | _ => true

/-- A pair as `dict` takes it: two things in a row, the first one hashable. -/
def isPair (value : Json) : Bool :=
  value.iterable && match value.items with
    | [key, _] => key.hashable
    | _ => false

/-- A value that `dict` takes. -/
def dictLike : Json → Bool
  | .dict _ => true
  | value => value.iterable && value.items.all isPair

/-- The value, as something with a method `get`. -/
def asDict : Json → Except NormalizeError JsonObject
  | .dict entries => .ok entries
  | _ => .error .attributeError

def iter (value : Json) : Except NormalizeError (List Json) :=
  if value.iterable then .ok value.items else .error .typeError

def hash : Json → Except NormalizeError (Key JsonNumber)
  | .null => .ok .null
  | .bool b => .ok (.num (.int (if b then 1 else 0)))
  | .num n => .ok n.asKey
  | .str s => .ok (.str s)
  | .stamp kind text => .ok (.stamp kind text)
  | .bytes text => .ok (.stamp "bytes" text)
  | .list _ | .dict _ | .set _ => .error .typeError

/-- `value in {texts}`. -/
def inTexts (value : Json) (texts : List String) : Except NormalizeError Bool := do
  let _ ← value.hash
  return texts.any value.isStr

def pair (value : Json) : Except NormalizeError (Key JsonNumber × Json) := do
  match ← value.iter with
  | [key, item] => return (← key.hash, item)
  | _ => .error .valueError

/-- `dict(value)`. -/
def toDict : Json → Except NormalizeError JsonObject
  | .dict entries => .ok entries
  | value => do
    let parts ← value.iter
    parts.foldlM (fun entries part => do
      let (key, item) ← part.pair
      return Assoc.set entries key item) []

theorem isStr_iff {value : Json} {text : String} : value.isStr text = true ↔ value = .str text := by
  cases value with
  | str s => simp only [isStr, decide_eq_true_eq, Value.str.injEq]
  | null | bool | num | stamp | list | dict | bytes | set => simp only [isStr, Bool.false_eq_true, reduceCtorEq]

variable {α : Type} {sound fails : Json → Prop}

/-- A computation that only Python's own checks can stop. -/
abbrev Checked (x : Except NormalizeError α) (sound : Prop) : Prop := Meets NormalizeError.IsProviderResponse x sound False

theorem Checked.error {e : NormalizeError} {sound : Prop} (unsound : ¬sound)
    (other : ∀ message, e ≠ .providerResponse message) :
    Checked (.error e : Except NormalizeError α) sound :=
  Meets.error unsound ⟨fun ⟨message, same⟩ => other message same, False.elim⟩

theorem Checked.bind {β : Type} {x : Except NormalizeError α} {f : α → Except NormalizeError β} {sound later : Prop}
    (first : Checked x sound) (next : ∀ a, x = .ok a → Checked (f a) later) : Checked (x >>= f) (sound ∧ later) :=
  (Meets.bind_of_never first next).congr Iff.rfl fun _ => by rw [and_false]

theorem Checked.ite {b : Bool} {x : Except NormalizeError α} {sound : Prop} (a : α) (checked : b = true → Checked x sound) :
    Checked (if b then x else .ok a) (b = true → sound) :=
  (Meets.ite a checked).congr Iff.rfl fun _ => by rw [and_false]

theorem asDict_checked (value : Json) : Checked value.asDict (∃ entries, value = .dict entries) := by
  cases value with
  | dict entries => exact Meets.ok entries ⟨entries, rfl⟩
  | null | bool | num | str | stamp | list | bytes | set =>
    refine Checked.error ?_ fun _ => NormalizeError.noConfusion
    rintro ⟨_, ⟨⟩⟩

theorem asDict_ok {value : Json} {entries : JsonObject} (ok : value.asDict = .ok entries) : value = .dict entries := by
  cases value <;> cases ok
  rfl

/-- What is read off a dictionary settles what is read off a value. -/
theorem meets_asDict_bind {f : JsonObject → Except NormalizeError α} {sound fails : JsonObject → Prop}
    (onDict : ∀ entries, Meets NormalizeError.IsProviderResponse (f entries) (sound entries) (fails entries))
    (value : Json) :
    Meets NormalizeError.IsProviderResponse (value.asDict >>= f) (∃ entries, value = .dict entries ∧ sound entries)
      (∃ entries, value = .dict entries ∧ fails entries) := by
  rcases asDict_checked value with ⟨⟨entries, rfl⟩, -⟩ | ⟨other, e, raised, notAllowed⟩
  · refine (onDict entries).congr ?_ fun _ => ?_
    all_goals simp only [Value.dict.injEq, exists_eq_left']
  · rw [raised]
    refine Meets.error (fun ⟨entries, same, _⟩ => other ⟨entries, same⟩) ?_
    exact ⟨fun isProvider => (notAllowed.mp isProvider).elim, fun ⟨entries, same, _⟩ => (other ⟨entries, same⟩).elim⟩

theorem Checked.asDict_bind {f : JsonObject → Except NormalizeError α} {sound : JsonObject → Prop}
    (onDict : ∀ entries, Checked (f entries) (sound entries)) (value : Json) :
    Checked (value.asDict >>= f) (∃ entries, value = .dict entries ∧ sound entries) :=
  (meets_asDict_bind onDict value).congr Iff.rfl fun _ => by simp only [and_false, exists_false]

theorem iter_checked (value : Json) : Checked value.iter value.iterable := by
  unfold iter
  split
  · rename_i isIterable
    exact Meets.ok _ isIterable
  · rename_i notIterable
    exact Checked.error notIterable fun _ => NormalizeError.noConfusion

theorem hash_checked (value : Json) : Checked value.hash value.hashable := by
  cases value with
  | null | bool | num | str | stamp | bytes => exact Meets.ok _ rfl
  | list | dict | set => exact Checked.error Bool.false_ne_true fun _ => NormalizeError.noConfusion

theorem inTexts_checked (value : Json) (texts : List String) : Checked (value.inTexts texts) value.hashable :=
  (hash_checked value).bind_total fun _ => ⟨_, rfl⟩

theorem inTexts_ok {value : Json} {texts : List String} {found : Bool} (ok : value.inTexts texts = .ok found) :
    found = texts.any value.isStr := by
  obtain ⟨_, -, same⟩ := bind_eq_ok ok
  cases same
  rfl

theorem iter_ok {value : Json} {parts : List Json} (ok : value.iter = .ok parts) : parts = value.items := by
  unfold iter at ok
  split at ok <;> cases ok
  rfl

theorem pair_checked (value : Json) : Checked value.pair value.isPair := by
  have whole : Checked value.pair (value.iterable ∧ (match value.items with
      | [key, _] => key.hashable
      | _ => false) = true) := by
    refine (iter_checked value).bind fun parts ok => ?_
    rw [iter_ok ok]
    split
    · exact (hash_checked _).bind_total fun _ => ⟨_, rfl⟩
    · exact Checked.error Bool.false_ne_true fun _ => NormalizeError.noConfusion
  refine whole.congr ?_ fun _ => Iff.rfl
  rw [isPair, Bool.and_eq_true]

/-- A loop over a value, each turn of which is settled by its item. -/
theorem meets_loop {step : α → Json → Except NormalizeError α}
    (turn : ∀ s item, Meets NormalizeError.IsProviderResponse (step s item) (sound item) (fails item))
    (value : Json) (s : α) :
    Meets NormalizeError.IsProviderResponse (do
        let parts ← value.iter
        parts.foldlM step s)
      (value.iterable ∧ ∀ item ∈ value.items, sound item) (value.iterable ∧ StopsAt sound fails value.items) := by
  refine Meets.bind_of_never (iter_checked value) fun parts ok => ?_
  rw [iter_ok ok]
  exact meets_foldlM turn value.items s

theorem toDict_checked (value : Json) : Checked value.toDict value.dictLike := by
  have turn (entries : JsonObject) (part : Json) : Checked (do
      let (key, item) ← part.pair
      return Assoc.set entries key item) part.isPair := (pair_checked part).bind_total fun _ => ⟨_, rfl⟩
  have never : ¬StopsAt (fun part : Json => part.isPair = true) (fun _ => False) value.items :=
    fun ⟨_, _, _, _, _, stops⟩ => stops.2
  have general : Checked _ ((value.iterable && value.items.all isPair) = true) :=
    (meets_loop turn value []).congr (by rw [Bool.and_eq_true, List.all_eq_true]) fun _ =>
      iff_false_intro fun both => never both.2
  cases value with
  | dict entries => exact Meets.ok entries rfl
  | null | bool | num | str | stamp | list | bytes | set => exact general

end Value
