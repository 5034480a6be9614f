import Centroid.Lib.Dict
import Centroid.Lib.PosixPath

/-- Where a file or a directory is: the names that lead to it from the root. -/
abbrev Location := List String

inductive FileEntry (C : Type) where
  | file (content : C)
  | dir

def isDirectory {C : Type} (entries : Dict Location (FileEntry C)) (loc : Location) : Bool :=
  match entries.get? loc with
  | some .dir => true
  | _ => false

/-- A finite tree of files, without links. Each file and directory but the
root stands in a directory of the tree. -/
structure FileTree (C : Type) where
  entries : Dict Location (FileEntry C)
  root : isDirectory entries [] = true
  inDirectory : ∀ loc ∈ entries.keys, isDirectory entries loc.dropLast = true

namespace FileTree

variable {C : Type}

/-- Look one component up, as the file system does: only directories are
entered, and two dots lead to the directory above. -/
def step (tree : FileTree C) (loc : Location) (comp : String) : Option Location :=
  if isDirectory tree.entries loc then
    if comp = ".." then some loc.dropLast
    else if loc ++ [comp] ∈ tree.entries.keys then some (loc ++ [comp])
    else none
  else none

def walk (tree : FileTree C) : Location → List String → Option Location
  | loc, [] => some loc
  | loc, comp :: rest => (tree.step loc comp).bind (fun next => tree.walk next rest)

theorem walk_append (tree : FileTree C) (loc : Location) (comps rest : List String) :
    tree.walk loc (comps ++ rest) = (tree.walk loc comps).bind (fun next => tree.walk next rest) := by
  induction comps generalizing loc with
  | nil => rfl
  | cons comp comps ih =>
    simp only [List.cons_append, walk, Option.bind_assoc]
    exact congrArg _ (funext fun next => ih next)

theorem walk_concat (tree : FileTree C) (loc : Location) (comps : List String) (comp : String) :
    tree.walk loc (comps ++ [comp]) = (tree.walk loc comps).bind (fun next => tree.step next comp) := by
  rw [walk_append]
  simp only [walk, Option.bind_fun_some]

theorem dir_of_step {tree : FileTree C} {loc next : Location} {comp : String}
    (found : tree.step loc comp = some next) : isDirectory tree.entries loc = true := by
  by_contra other
  simp [step, other] at found

end FileTree

/-- A file tree as a process sees it, from its working directory. -/
structure FileSystem (C : Type) extends FileTree C where
  cwd : Location
  cwd_dir : isDirectory entries cwd = true

namespace FileSystem

variable {C : Type}

/-- The place that a path names, if it exists. -/
def locate (fs : FileSystem C) (path : PurePath) : Option Location :=
  fs.walk (if path.isAbsolute then [] else fs.cwd) path.comps

def pathExists (fs : FileSystem C) (path : PurePath) : Bool :=
  (fs.locate path).isSome

theorem locate_of_nil (fs : FileSystem C) {path : PurePath} (bare : path.comps = []) :
    ∃ loc, fs.locate path = some loc ∧ isDirectory fs.entries loc = true := by
  unfold locate
  rw [bare]
  split
  · exact ⟨[], rfl, fs.root⟩
  · exact ⟨fs.cwd, rfl, fs.cwd_dir⟩

/-- What exists stands in a directory. -/
theorem locate_parent {fs : FileSystem C} {path : PurePath} (found : fs.pathExists path = true)
    (nonempty : path.comps ≠ []) :
    ∃ loc, fs.locate path.parent = some loc ∧ isDirectory fs.entries loc = true := by
  obtain ⟨last, located⟩ := Option.isSome_iff_exists.mp found
  unfold locate at located
  rw [← List.dropLast_append_getLast nonempty, FileTree.walk_concat] at located
  obtain ⟨loc, above, stepped⟩ := Option.bind_eq_some_iff.mp located
  exact ⟨loc, above, FileTree.dir_of_step stepped⟩

end FileSystem
