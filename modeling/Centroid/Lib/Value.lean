import Centroid.Lib.Dict
import Mathlib.Algebra.Field.Rat
import Mathlib.Algebra.Order.Ring.Rat
import Mathlib.Data.String.Basic
import Mathlib.Order.Lattice

/-- A hashable scalar, up to the equality that dictionaries and sets use:
the truth values are the numbers one and zero. A stamp is a date, a time or a
string of bytes, with its kind and its text. -/
inductive Key (N : Type) where
  | null
  | num (n : N)
  | str (s : String)
  | stamp (kind text : String)
  deriving DecidableEq

/-- Plain data as JSON and YAML readers return it. The entries of a
dictionary are kept in the order in which they were read. Only YAML has bytes
and sets; its pairs are lists of two. -/
inductive Value (N : Type) where
  | null
  | bool (b : Bool)
  | num (n : N)
  | str (s : String)
  | stamp (kind text : String)
  | list (items : List (Value N))
  | dict (entries : List (Key N × Value N))
  | bytes (text : String)
  | set (members : List (Key N))

namespace Value

variable {N : Type}

/-- The number a value is, truth values included. -/
def num? [Zero N] [One N] : Value N → Option N
  | .num n => some n
  | .bool b => some (if b then 1 else 0)
  | _ => none

/-- The value as a dictionary key; lists, dictionaries and sets are not hashable. -/
def key? [Zero N] [One N] : Value N → Option (Key N)
  | .null => some .null
  | .bool b => some (.num (if b then 1 else 0))
  | .num n => some (.num n)
  | .str s => some (.str s)
  | .stamp kind text => some (.stamp kind text)
  | .list _ => none
  | .dict _ => none
  | .bytes text => some (.stamp "bytes" text)
  | .set _ => none

def truthy [Zero N] [DecidableEq N] : Value N → Bool
  | .null => false
  | .bool b => b
  | .num n => n ≠ 0
  | .str s => s ≠ ""
  | .stamp _ _ => true
  | .list items => !items.isEmpty
  | .dict entries => !entries.isEmpty
  | .bytes text => text ≠ ""
  | .set members => !members.isEmpty

/-- The entries of a dictionary, nothing for another value. -/
def dict? : Value N → Option (List (Key N × Value N))
  | .dict entries => some entries
  | _ => none

mutual

/-- How many numbers stand at the leaves of nested dictionaries. -/
def numericLeaves : Value N → ℕ
  | .num _ | .bool _ => 1
  | .dict entries => entriesLeaves entries
  | _ => 0

def entriesLeaves : List (Key N × Value N) → ℕ
  | [] => 0
  | (_, v) :: rest => v.numericLeaves + entriesLeaves rest

end

/-- What a reader returns has no repeated key, at any depth. -/
inductive WellFormed : Value N → Prop
  | null : WellFormed .null
  | bool (b : Bool) : WellFormed (.bool b)
  | num (n : N) : WellFormed (.num n)
  | str (s : String) : WellFormed (.str s)
  | stamp (kind text : String) : WellFormed (.stamp kind text)
  | list {items : List (Value N)} (each : ∀ item ∈ items, WellFormed item) : WellFormed (.list items)
  | dict {entries : List (Key N × Value N)} (distinct : (entries.map Prod.fst).Nodup)
      (each : ∀ entry ∈ entries, WellFormed entry.2) : WellFormed (.dict entries)
  | bytes (text : String) : WellFormed (.bytes text)
  | set {members : List (Key N)} (distinct : members.Nodup) : WellFormed (.set members)

end Value

namespace Key

instance {N : Type} [DecidableEq N] : LawfulBEq (Key N) := inferInstance

variable {N : Type}

/-- Whether Python can order two keys. -/
def comparable : Key N → Key N → Bool
  | .num _, .num _ => true
  | .str _, .str _ => true
  | .stamp kind _, .stamp other _ => kind = other
  | _, _ => false

/-- Whether a sort of the keys meets no pair that cannot be ordered. -/
def sortable (keys : List (Key N)) : Bool :=
  keys.length ≤ 1 ∨ keys.all (fun key => keys.all (comparable key))

/-- It does not depend on the order of the keys. -/
theorem sortable_perm {keys other : List (Key N)} (perm : keys.Perm other) : sortable keys = sortable other := by
  have all : keys.all (fun key => keys.all (comparable key)) = other.all (fun key => other.all (comparable key)) := by
    rw [perm.all_eq]
    exact congrArg other.all (funext fun key => perm.all_eq)
  rw [sortable, sortable, perm.length_eq, all]

variable [LinearOrder N]

/-- The order of two comparable keys. -/
def le : Key N → Key N → Bool
  | .num m, .num n => m ≤ n
  | .str s, .str t => s ≤ t
  | .stamp _ s, .stamp _ t => s ≤ t
  | _, _ => false

/-- Sorting, which fails on two keys that cannot be compared. -/
def sorted (keys : List (Key N)) : Option (List (Key N)) :=
  if sortable keys then some (keys.mergeSort le) else none

theorem mem_of_sorted {keys result : List (Key N)} (ok : sorted keys = some result) (key : Key N) :
    key ∈ result ↔ key ∈ keys := by
  unfold sorted at ok
  split at ok
  · cases ok
    exact List.mem_mergeSort
  · cases ok

end Key
