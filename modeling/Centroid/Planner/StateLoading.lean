import Centroid.Lib.Json
import Centroid.Lib.LoadLoop

namespace Centroid.StateLoad

/-- What the loading of a state file can raise. -/
inductive StateError where
  | keyError (name : String)
  | typeError
  | valueError
  | overflowError
  | attributeError

/-- What the loaders catch, besides a text that is no JSON. -/
def StateError.caught : StateError → Bool
  | .keyError _ | .typeError => true
  | .valueError | .overflowError | .attributeError => false

/-- A state file, with whatever document it holds. -/
inductive StateText (N : Type) where
  | missing
  | garbled
  | document (data : Value N)

/-- How the numbers of a document are read: as the number that they are, as a
float, as an integer, and out of a text. The text of what is no string is given
by `render`. -/
structure NumberReading (N F : Type) where
  zero : N
  exact : N → F
  ofBool : Bool → F
  float : N → Except StateError F
  int : N → Except StateError ℤ
  floatOfText : String → Option F
  intOfText : String → Option ℤ
  render : Value N → String

/-- The numbers of JSON. An integer is read as the integer part of a float, which
the three that are no numbers do not have. -/
def jsonReading (floatOfText : String → Option PyFloat) (intOfText : String → Option ℤ) (render : Json → String) :
    NumberReading JsonNumber PyFloat where
  zero := .float (.finite 0)
  exact n := match n with
    | .int n => .finite n
    | .float x => x
  ofBool b := .finite (if b then 1 else 0)
  float n := match n.toFloat? with
    | some x => .ok x
    | none => .error .overflowError
  int n := match n with
    | .int n => .ok n
    | .float (.finite q) => .ok (q.num.tdiv q.den)
    | .float .nan => .error .valueError
    | .float (.infinity _) => .error .overflowError
  floatOfText := floatOfText
  intOfText := intOfText
  render value := value.pyStr render

section

variable {N F : Type}

/-- What a loop runs over. -/
def iterate : Value N → Except StateError (List (Value N))
  | .list items => .ok items
  | .str s => .ok (s.toList.map fun c => .str c.toString)
  | .dict entries => .ok (entries.map fun entry => match entry.1 with
    | .null => .null
    | .num n => .num n
    | .str s => .str s
    | .stamp kind text => .stamp kind text)
  | _ => .error .typeError

variable [DecidableEq N]

/-- `data[name]`. -/
def subscript (data : Value N) (name : String) : Except StateError (Value N) :=
  match data with
  | .dict entries => match Assoc.get? entries (.str name) with
    | some value => .ok value
    | none => .error (.keyError name)
  | _ => .error .typeError

/-- `data.get(name, default)`. -/
def getOr (data : Value N) (name : String) (default : Value N) : Except StateError (Value N) :=
  match data with
  | .dict entries => .ok ((Assoc.get? entries (.str name)).getD default)
  | _ => .error .attributeError

variable (reading : NumberReading N F)

/-- `float(value)`. -/
def floatOf : Value N → Except StateError F
  | .num n => reading.float n
  | .bool b => .ok (reading.ofBool b)
  | .str s => match reading.floatOfText s with
    | some x => .ok x
    | none => .error .valueError
  | _ => .error .typeError

/-- `int(value)`. -/
def intOf : Value N → Except StateError ℤ
  | .num n => reading.int n
  | .bool b => .ok b.toNat
  | .str s => match reading.intOfText s with
    | some n => .ok n
    | none => .error .valueError
  | _ => .error .typeError

/-- A value within an f-string. -/
def formatted : Value N → String
  | .str s => s
  | value => reading.render value

/-- A value as a key of a dictionary. -/
def hashed : Value N → Except StateError (Key F)
  | .null => .ok .null
  | .bool b => .ok (.num (reading.ofBool b))
  | .num n => .ok (.num (reading.exact n))
  | .str s => .ok (.str s)
  | .stamp kind text => .ok (.stamp kind text)
  | .bytes text => .ok (.stamp "bytes" text)
  | .list _ | .dict _ | .set _ => .error .typeError

/-- A calibration record as it is loaded: nothing checks that the field and the
horizon are strings. -/
structure LoadedRecord (N F : Type) where
  field : Value N
  horizon : Value N
  mae : F
  bias : F
  sampleCount : ℤ

/-- One turn of the loop of `load`. -/
def readRecord (entry : Value N) : Except StateError (String × LoadedRecord N F) := do
  let field ← subscript entry "field"
  let horizon ← subscript entry "horizon"
  let mae ← getOr entry "mae" (.num reading.zero) >>= floatOf reading
  let bias ← getOr entry "bias" (.num reading.zero) >>= floatOf reading
  let sampleCount ← getOr entry "sample_count" (.num reading.zero) >>= intOf reading
  return (formatted reading field ++ ":" ++ formatted reading horizon, ⟨field, horizon, mae, bias, sampleCount⟩)

/-- The entries that `load` runs over. -/
def documentRecords (data : Value N) : Except StateError (List (Value N)) := getOr data "records" (.list []) >>= iterate

/-- `CalibrationStore.load` on a new store: the records, and what stopped it. -/
def loadRecords : StateText N → Dict String (LoadedRecord N F) × Option StateError
  | .missing | .garbled => (∅, none)
  | .document data => match documentRecords data with
    | .error e => (∅, some e)
    | .ok entries => LoadLoop.run (readRecord reading) entries ∅

/-- `PlanStep` as it is loaded. -/
structure LoadedStep (N : Type) where
  description : Value N
  mutatesState : Value N
  requiresApproval : Value N

/-- `PlanStep(**s)`. -/
def readStep : Value N → Except StateError (LoadedStep N)
  | .dict entries =>
    if ∀ entry ∈ entries, entry.1 ∈ [Key.str "description", .str "mutates_state", .str "requires_approval"] then
      match Assoc.get? entries (.str "description") with
      | some description => .ok ⟨description, (Assoc.get? entries (.str "mutates_state")).getD (.bool false),
          (Assoc.get? entries (.str "requires_approval")).getD (.bool false)⟩
      | none => .error .typeError
    else .error .typeError
  | _ => .error .typeError

structure LoadedThread (N F : Type) where
  threadId : Value N
  goal : Value N
  steps : List (LoadedStep N)
  status : Value N
  confidence : F
  createdAt : F
  updatedAt : F
  forecastIds : List (Value N)

/-- `_deserialize_thread`. -/
def deserializeThread (raw : Value N) : Except StateError (LoadedThread N F) := do
  let threadId ← subscript raw "thread_id"
  let goal ← subscript raw "goal"
  let rawSteps ← getOr raw "steps" (.list []) >>= iterate
  let steps ← rawSteps.mapM readStep
  let status ← subscript raw "status"
  let confidence ← subscript raw "confidence" >>= floatOf reading
  let createdAt ← subscript raw "created_at" >>= floatOf reading
  let updatedAt ← subscript raw "updated_at" >>= floatOf reading
  let forecastIds ← getOr raw "forecast_ids" (.list []) >>= iterate
  return ⟨threadId, goal, steps, status, confidence, createdAt, updatedAt, forecastIds⟩

/-- One turn of the loop of `_load`. -/
def readThread (raw : Value N) : Except StateError (Key F × LoadedThread N F) := do
  let thread ← deserializeThread reading raw
  let key ← hashed reading thread.threadId
  return (key, thread)

structure LoadedTree (N F : Type) where
  abandonThreshold : F
  threads : Dict (Key F) (LoadedThread N F)

/-- The threshold that `_load` reads before any thread. -/
def documentThreshold (threshold : F) : Value N → Except StateError F
  | .dict entries => match Assoc.get? entries (.str "abandon_threshold") with
    | some value => floatOf reading value
    | none => .ok threshold
  | _ => .error .attributeError

/-- The entries that `_load` runs over. -/
def documentThreads (data : Value N) : Except StateError (List (Value N)) := getOr data "threads" (.list []) >>= iterate

/-- `_load` on a new tree: the state, and what stopped it. -/
def loadThreads [DecidableEq F] (threshold : F) : StateText N → LoadedTree N F × Option StateError
  | .missing | .garbled => (⟨threshold, ∅⟩, none)
  | .document data => match documentThreshold reading threshold data with
    | .error e => (⟨threshold, ∅⟩, some e)
    | .ok threshold => match documentThreads data with
      | .error e => (⟨threshold, ∅⟩, some e)
      | .ok raws =>
        let (threads, stopped) := LoadLoop.run (readThread reading) raws ∅
        (⟨threshold, threads⟩, stopped)

end

/-- The end of a constructor that loads: what is not caught is raised. -/
def constructed {S : Type} : S × Option StateError → Except StateError S
  | (state, none) => .ok state
  | (state, some e) => if e.caught then .ok state else .error e

theorem constructed_ok_iff {S : Type} (loaded : S × Option StateError) (state : S) :
    constructed loaded = .ok state ↔ (∀ e, loaded.2 = some e → e.caught = true) ∧ loaded.1 = state := by
  obtain ⟨kept, stopped⟩ := loaded
  cases stopped with
  | none => simp [constructed]
  | some e => by_cases isCaught : e.caught <;> simp [constructed, isCaught]

end Centroid.StateLoad
