import Centroid.Fusion.ConceptGraph
import Centroid.Lib.PosixPath
import Centroid.Providers.ResponseNormalization

namespace Centroid

/-- A node of a syntax tree, with what is read of it. A function and a class are
read alike. -/
inductive SourceNode where
  | module (docstring : Option String)
  | definition (name : String) (lineno : ℕ) (docstring : Option String)
  | other

/-- What the reading of a source file raises: the parser rejects it, or a line that
a definition stands on is not there. -/
inductive EncodeError where
  | parse (exc : String)
  | indexError

/-- The files that a scan finds, with their texts as far as they can be read, and
the nodes of a parsed text in the order of `ast.walk`. -/
structure ScanWorld where
  rglob : PurePath → List PurePath
  read : PurePath → Option String
  parse : String → Except String (List SourceNode)
  cwd : PurePath
  resolve : PurePath → PurePath
  now : PurePath → ℚ

/-- `suffix`: from the last dot of the name, unless it is the first or the last
character. -/
def suffix (path : PurePath) : String :=
  let chars := path.name.toList
  let stem := (chars.rdropWhile (· ≠ '.')).dropLast
  if stem = [] ∨ stem.length + 1 = chars.length then "" else String.ofList (chars.drop stem.length)

/-- `path.relative_to(base)`. -/
def relativeTo (path base : PurePath) : Option PurePath :=
  if path.root = base.root ∧ base.comps <+: path.comps then
    some
      { root := .relative
        comps := path.comps.drop base.comps.length
        kept := fun comp member => path.kept comp (List.mem_of_mem_drop member) }
  else none

/-- What is gathered of one file. -/
structure CodeParts where
  signatures : List String := []
  docstrings : List String := []
  comments : List String := []

namespace CodeEncoder

def cut (n : ℕ) (text : String) : String := String.ofList (text.toList.take n)

/-- The first letters of a docstring that is not empty, behind a name. -/
def docEntry (name : String) (n : ℕ) (docstring : Option String) : List String :=
  ((docstring.filter (· ≠ "")).map fun ds => name ++ ":" ++ cut n ds).toList

def readNode (lines : List (List Char)) (parts : CodeParts) : SourceNode → Except EncodeError CodeParts
  | .module docstring => .ok { parts with docstrings := parts.docstrings ++ docEntry "module" 200 docstring }
  | .definition name lineno docstring =>
    match lines[lineno - 1]? with
    | none => .error .indexError
    | some line =>
      let line := ModelAdapter.strip (String.ofList line)
      .ok { parts with
        signatures := parts.signatures ++ if line = "" then [] else [cut 200 line]
        docstrings := parts.docstrings ++ docEntry name 100 docstring }
  | .other => .ok parts

/-- The comment of a line, without the marks before it. -/
def commentOf (line : List Char) : Option String :=
  let stripped := (ModelAdapter.strip (String.ofList line)).toList
  if stripped.head? = some '#' ∧ ¬ ['#', '!'] <+: stripped then
    let comment := ModelAdapter.strip (String.ofList (stripped.dropWhile (· = '#')))
    if 5 < comment.length then some (cut 80 comment) else none
  else none

def bar (n : ℕ) (items : List String) : List String :=
  if items = [] then [] else [" | ".intercalate (items.take n)]

def contentOf (sourceId : String) (parts : CodeParts) : String :=
  " ".intercalate (sourceId :: bar 20 parts.signatures ++ bar 10 parts.docstrings ++ bar 10 parts.comments)

variable (world : ScanWorld)

/-- `_source_id_for_file`. -/
def sourceIdForFile (path : PurePath) : String :=
  if path.isAbsolute then
    match relativeTo (world.resolve path) (world.resolve world.cwd) with
    | some relative => relative.str
    | none => path.name
  else path.str

/-- `encode_file`. -/
def encodeFile (path : PurePath) : Except EncodeError (Option SensedText) :=
  match world.read path with
  | none => .ok none
  | some source =>
    if suffix path ≠ ".py" then .ok none
    else
      match world.parse source with
      | .error exc => .error (.parse exc)
      | .ok nodes => do
        let parts ← nodes.foldlM (readNode (TextLines.splitLines source.toList)) {}
        let comments := (source.toList.splitOn '\n').filterMap commentOf
        let sourceId := sourceIdForFile world path
        return some ⟨⟨contentOf sourceId { parts with comments }, sourceId⟩, .code, world.now path⟩

def skipDirs : List String := ["__pycache__", ".git", "tests", "test", ".pytest_cache"]

def isSkipped (path : PurePath) : Bool := skipDirs.any (· ∈ path.parts)

/-- The order of paths. -/
def comesFirst (path other : PurePath) : Bool := !decide (other.comps < path.comps)

/-- A text under the path that leads to it from the root of the scan. -/
def rebase (rootPath path : PurePath) (perceived : SensedText) : SensedText :=
  { perceived with sourceId := ((relativeTo path rootPath).getD path).str }

/-- The loop over the files. -/
def encodeEach (rootPath : PurePath) (maxFiles : ℤ) :
    List SensedText → List PurePath → Except EncodeError (List SensedText)
  | results, [] => .ok results
  | results, p :: ps =>
    if isSkipped p then encodeEach rootPath maxFiles results ps
    else
      match encodeFile world p with
      | .error e => .error e
      | .ok perceived =>
        let results := results ++ (perceived.map (rebase rootPath p)).toList
        if maxFiles ≤ results.length then .ok results else encodeEach rootPath maxFiles results ps

/-- `encode_directory`. -/
def encodeDirectory (rootPath : PurePath) (maxFiles : ℤ := 50) : Except EncodeError (List SensedText) :=
  encodeEach world rootPath maxFiles [] ((world.rglob rootPath).mergeSort comesFirst)

end CodeEncoder

end Centroid
