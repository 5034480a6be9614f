import Centroid.Config.AgentConfig
import Centroid.Lib.FileTree

namespace Centroid

mutual

/-- What `_deep_merge` puts under a key, given what it finds there. -/
def mergeValue (merged : Option Json) : Json → Json
  | .dict override =>
    match merged with
    | some (.dict base) => .dict (deepMerge base override)
    | _ => .dict override
  | value => value

def deepMerge (base : JsonObject) : JsonObject → JsonObject
  | [] => base
  | (key, value) :: rest => deepMerge (Assoc.set base key (mergeValue (Assoc.get? base key) value)) rest

end

/-- How loading a configuration fails. A text that is not UTF-8 or not JSON
is `undecodable`; data that are refused come with the error of the parser. -/
inductive ConfigLoadError where
  | fileNotFound (path : String)
  | moduleNotFound (package : String)
  | isADirectory (path : String)
  | undecodable (path : String)
  | notAnObject (path : String)
  | invalidExtends (path : String)
  | circular (path : String)
  | rejected (error : ConfigError)
  deriving DecidableEq

/-- The files and the import system that the loader reads from. A file
without content holds a text that is not UTF-8 or not JSON. The import system
finds the directory of a package, by its dotted name. -/
structure ConfigEnvironment where
  fs : FileSystem (Option Json)
  packageDir : String → Option Location

def resourceRoots : List String := ["configs", "evaluation", "schemas", "templates"]

def resourcePackageAndName (path : PurePath) : Except ConfigLoadError (String × String) :=
  if path.parts.length < 2 ∨ path.parts.head?.getD "" ∉ resourceRoots then .error (.fileNotFound path.str)
  else .ok (".".intercalate path.parts.dropLast, path.name)

namespace ConfigEnvironment

variable (env : ConfigEnvironment)

/-- The place that `read_text_resource_or_file` reads. -/
def locateText (path : PurePath) : Except ConfigLoadError Location :=
  match env.fs.locate path with
  | some loc => .ok loc
  | none =>
    match resourcePackageAndName path with
    | .error e => .error e
    | .ok (package, resourceName) =>
      match env.packageDir package with
      | none => .error (.moduleNotFound package)
      | some dir =>
        match env.fs.step dir resourceName with
        | none => .error (.fileNotFound path.str)
        | some loc => .ok loc

def readJson (path : PurePath) : Except ConfigLoadError Json :=
  match env.locateText path with
  | .error e => .error e
  | .ok loc =>
    match env.fs.entries.get? loc with
    | some (.file (some json)) => .ok json
    | some (.file none) => .error (.undecodable path.str)
    | some .dir => .error (.isADirectory path.str)
    | none => .error (.fileNotFound path.str)

/-- The payload without its `extends` entry, and the reference it holds. -/
def readPayload (path : PurePath) : Except ConfigLoadError (JsonObject × Option String) :=
  match env.readJson path with
  | .error e => .error e
  | .ok (.dict payload) =>
    let rest := Assoc.erase payload (.str "extends")
    match (JsonObject.get? payload "extends").getD .null with
    | .null => .ok (rest, none)
    | .str extended =>
      if extended = "" then .error (.invalidExtends path.str)
      else .ok (rest, some extended)
    | _ => .error (.invalidExtends path.str)
  | .ok _ => .error (.notAnObject path.str)

/-- Whether a candidate is found next to the source. -/
def foundBeside (source candidate : PurePath) : Bool :=
  env.fs.pathExists source && env.fs.pathExists (source.parent.join candidate)

/-- The path made of all parts of the source but the last is its parent where
it has two parts or more. -/
def resolveExtendedPath (source : PurePath) (extended : String) : PurePath :=
  let candidate := PurePath.parse extended
  if candidate.isAbsolute then candidate
  else if env.foundBeside source candidate then source.parent.join candidate
  else if 2 ≤ source.parts.length ∧ candidate.parts.length = 1 then source.parent.join candidate
  else candidate

/-- The recursion of `_load_config_data`, for at most `fuel` calls. -/
def loadConfigData : ℕ → PurePath → List String → Option (Except ConfigLoadError JsonObject)
  | 0, _, _ => none
  | fuel + 1, path, seen =>
    match env.readPayload path with
    | .error e => some (.error e)
    | .ok (payload, none) => some (.ok payload)
    | .ok (payload, some extended) =>
      let parentPath := env.resolveExtendedPath path extended
      let marker := parentPath.str
      if marker ∈ seen then some (.error (.circular marker))
      else
        match loadConfigData fuel parentPath (marker :: seen) with
        | none => none
        | some (.error e) => some (.error e)
        | some (.ok parent) => some (.ok (deepMerge parent payload))

def loadAgentConfig (render : Json → String) (fuel : ℕ) (path : PurePath) : Option (Except ConfigLoadError AgentConfig) :=
  match env.loadConfigData fuel path [path.str] with
  | none => none
  | some (.error e) => some (.error e)
  | some (.ok data) =>
    match parseAgentConfig render data (some path) with
    | .error e => some (.error (.rejected e))
    | .ok config => some (.ok config)

end ConfigEnvironment

end Centroid
