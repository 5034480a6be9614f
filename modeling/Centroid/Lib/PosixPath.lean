import Mathlib.Data.List.Basic

/-- How a path begins. Exactly two slashes make a root of their own. -/
inductive PathRoot where
  | relative
  | slash
  | doubleSlash
  deriving DecidableEq

def PathRoot.text : PathRoot → String
  | .relative => ""
  | .slash => "/"
  | .doubleSlash => "//"

/-- A component that parsing keeps. -/
def keptComponent (comp : String) : Bool :=
  comp ≠ "" ∧ comp ≠ "." ∧ '/' ∉ comp.toList

/-- A path as text is read by `pathlib`: empty components and single dots are
gone, double dots stay. -/
@[ext]
structure PurePath where
  root : PathRoot
  comps : List String
  kept : ∀ comp ∈ comps, keptComponent comp = true
  deriving DecidableEq

namespace PurePath

def splitRoot : List Char → PathRoot × List Char
  | '/' :: '/' :: '/' :: rest => (.slash, '/' :: '/' :: rest)
  | '/' :: '/' :: rest => (.doubleSlash, rest)
  | '/' :: rest => (.slash, rest)
  | rest => (.relative, rest)

/-- The components between slashes that are not dropped. -/
def splitComponents (rest : List Char) : List String :=
  ((rest.splitOn '/').map String.ofList).filter keptComponent

def parse (text : String) : PurePath where
  root := (splitRoot text.toList).1
  comps := splitComponents (splitRoot text.toList).2
  kept _ member := (List.mem_filter.mp member).2

def str (path : PurePath) : String :=
  if path.root = .relative ∧ path.comps = [] then "." else path.root.text ++ "/".intercalate path.comps

def isAbsolute (path : PurePath) : Bool :=
  path.root ≠ .relative

def parts (path : PurePath) : List String :=
  if path.isAbsolute then path.root.text :: path.comps else path.comps

def parent (path : PurePath) : PurePath where
  root := path.root
  comps := path.comps.dropLast
  kept comp member := path.kept comp (List.dropLast_subset _ member)

/-- The last component, empty where there is none. -/
def name (path : PurePath) : String :=
  path.comps.getLast?.getD ""

/-- `path / other`. -/
def join (path other : PurePath) : PurePath :=
  if other.isAbsolute then other
  else
    { root := path.root
      comps := path.comps ++ other.comps
      kept := by
        intro comp member
        rcases List.mem_append.mp member with mine | theirs
        · exact path.kept comp mine
        · exact other.kept comp theirs }

theorem comps_parent (path : PurePath) : path.parent.comps = path.comps.dropLast := rfl

theorem parts_of_relative {path : PurePath} (relative : path.isAbsolute = false) : path.parts = path.comps := by
  simp [parts, relative]

theorem root_of_relative {path : PurePath} (relative : path.isAbsolute = false) : path.root = .relative := by
  simpa [isAbsolute] using relative

/-- A path of a single part is a bare name. -/
theorem parent_of_short {path : PurePath} (nonempty : path.comps ≠ []) (short : path.parts.length < 2) :
    path.root = .relative ∧ path.parent.comps = [] := by
  have positive := List.length_pos_iff.mpr nonempty
  cases absolute : path.isAbsolute with
  | true =>
    simp only [parts, absolute, if_true, List.length_cons] at short
    omega
  | false =>
    rw [parts_of_relative absolute] at short
    refine ⟨root_of_relative absolute, List.length_eq_zero_iff.mp ?_⟩
    simp only [parent, List.length_dropLast]
    omega

theorem join_of_relative (path : PurePath) {other : PurePath} (relative : other.isAbsolute = false) :
    (path.join other).root = path.root ∧ (path.join other).comps = path.comps ++ other.comps := by
  simp [join, relative]

theorem eq_of_name {path other : PurePath} (root : path.root = other.root)
    (above : path.comps.dropLast = other.comps.dropLast) (name : path.name = other.name)
    (mine : path.comps ≠ []) (theirs : other.comps ≠ []) : path = other := by
  have last : path.comps.getLast mine = other.comps.getLast theirs := by
    simpa only [PurePath.name, List.getLast?_eq_getLast_of_ne_nil, mine, theirs, Option.getD_some, ne_eq,
      not_false_eq_true] using name
  refine PurePath.ext root ?_
  rw [← List.dropLast_append_getLast mine, ← List.dropLast_append_getLast theirs, above, last]

theorem splitRoot_text (root : PathRoot) (body : List Char) (plain : body.head? ≠ some '/') :
    splitRoot (root.text.toList ++ body) = (root, body) := by
  cases body with
  | nil => cases root <;> rfl
  | cons c rest =>
    have other : c ≠ '/' := by simpa using plain
    cases root <;> simp [PathRoot.text, splitRoot, other]

theorem splitComponents_intercalate {comps : List String} (kept : ∀ comp ∈ comps, keptComponent comp = true)
    (nonempty : comps ≠ []) : splitComponents (['/'].intercalate (comps.map String.toList)) = comps := by
  unfold splitComponents
  rw [List.splitOn_intercalate]
  · rw [List.map_map, show String.ofList ∘ String.toList = id from funext fun s => String.ofList_toList,
      List.map_id, List.filter_eq_self]
    exact kept
  · intro chars member
    obtain ⟨comp, inComps, rfl⟩ := List.mem_map.mp member
    have := kept comp inComps
    simp only [keptComponent, decide_eq_true_eq] at this
    exact this.2.2
  · simpa using nonempty

theorem head?_of_kept {comp : String} (kept : keptComponent comp = true) (tail : List Char) :
    (comp.toList ++ tail).head? ≠ some '/' := by
  simp only [keptComponent, decide_eq_true_eq] at kept
  obtain ⟨full, -, plain⟩ := kept
  cases chars : comp.toList with
  | nil => exact absurd (String.toList_eq_nil_iff.mp chars) full
  | cons c cs =>
    rw [chars, List.mem_cons, not_or] at plain
    simpa using Ne.symm plain.1

theorem head?_intercalate {comps : List String} (kept : ∀ comp ∈ comps, keptComponent comp = true) :
    (['/'].intercalate (comps.map String.toList)).head? ≠ some '/' := by
  rcases comps with _ | ⟨comp, _ | ⟨next, rest⟩⟩
  · simp
  · have first := head?_of_kept (kept comp (List.mem_cons_self ..)) []
    simpa [List.intercalate] using first
  · rw [List.map_cons, List.intercalate_cons_of_ne_nil (by simp), List.append_assoc]
    exact head?_of_kept (kept comp (List.mem_cons_self ..)) _

/-- Reading back the text of a path gives the path. -/
theorem parse_str (path : PurePath) : parse path.str = path := by
  obtain ⟨root, comps, kept⟩ := path
  by_cases bare : comps = []
  · subst bare
    have dot : splitComponents ['.'] = [] := by decide +kernel
    have nothing : splitComponents [] = [] := by decide +kernel
    cases root <;> simp [parse, str, PathRoot.text, splitRoot, dot, nothing]
  · have text : (str ⟨root, comps, kept⟩).toList = root.text.toList ++ ['/'].intercalate (comps.map String.toList) := by
      simp [str, bare]
    ext1
    · simp only [parse, text, splitRoot_text root _ (head?_intercalate kept)]
    · simp only [parse, text, splitRoot_text root _ (head?_intercalate kept)]
      exact splitComponents_intercalate kept bare

theorem str_injective {path other : PurePath} (same : path.str = other.str) : path = other := by
  rw [← parse_str path, same, parse_str]

end PurePath
