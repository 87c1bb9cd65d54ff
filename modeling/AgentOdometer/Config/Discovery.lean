import AgentOdometer.Base.StableHash
import AgentOdometer.Lib.KeyedFold
import AgentOdometer.Lib.Keys
import AgentOdometer.Lib.Lines

/-!
# Discovery of configuration files

The roots under which configuration is tracked, the scan of them, and the merge of a scan with
what the watchers recorded since (`config_events.rs:22–42,113–125,223–481,587–620`). Paths are
absolute and use slashes.
-/

namespace AgentOdometer.Config

open Std (ExtTreeMap ExtTreeSet)

/-- A file's hash and size. Follows `config_events.rs:22`. -/
abbrev SnapshotValue :=
  String × Nat

/-- Paths with the values last seen. Follows `config_events.rs:23`. -/
abbrev Snapshot :=
  ExtTreeMap String SnapshotValue

/-- The persisted state. Follows `config_events.rs:25–29`. -/
structure SnapshotState where
  entries : Snapshot
  roots : ExtTreeSet String

/-- A directory under which files are tracked. Follows `config_events.rs:31–40`. -/
structure ConfigRoot where
  harness : String
  path : String
  scope : Option String
  directNames : List String
  nested : Bool
  recursiveDirectNames : Bool
  dynamicScope : Bool
deriving Repr, DecidableEq

/-! ### Paths -/

/-- A text parted at every slash. -/
def splitSlashes : List Char → List (List Char)
  | [] => [[]]
  | c :: cs =>
      if c = '/' then [] :: splitSlashes cs
      else
        match splitSlashes cs with
        | [] => [[c]]
        | part :: parts => (c :: part) :: parts

/-- `Path::components`. -/
def components (path : String) : List String :=
  ((splitSlashes path.toList).map String.ofList).filter fun part ↦ part ≠ "" && part ≠ "."

/-- `Path::join` with a relative name. -/
def join (path name : String) : String :=
  if path.toList.getLast?.all (· == '/') then path ++ name else path ++ "/" ++ name

/-- `Path::strip_prefix`. -/
def stripRoot (root path : String) : Option (List String) :=
  if components root <+: components path then
    some ((components path).drop (components root).length)
  else none

/-- `Path::file_name`. -/
def fileName (path : String) : String :=
  (components path).getLast?.getD ""

/-- `Path::extension`: what follows the last dot of a name which does not start with it. -/
def extension (path : String) : Option String :=
  match Lines.lastIndex '.' (fileName path).toList with
  | none => none
  | some 0 => none
  | some (index + 1) => some (String.ofList ((fileName path).toList.drop (index + 2)))

/-- Directories which no root tracks. Follows `config_events.rs:232–239`. -/
def excludedComponents : List String :=
  ["sessions", "archived_sessions", "cache", "logs", "tmp"]

/-- Directories which a recursive root does not track. Follows `config_events.rs:242–261`. -/
def excludedRecursively : List String :=
  [".git", ".hg", ".svn", ".next", ".svelte-kit", "node_modules", "target", "dist", "build", "out",
    "bin", "obj", "vendor", "coverage"]

/-- The rules on the relative part of a path. Follows `config_events.rs:227–278`. -/
def isSafeRelative (root : ConfigRoot) (path : String) (relative : List String) : Bool :=
  let parts := relative.map String.toLower
  let name := (fileName path).toLower
  !parts.any excludedComponents.contains &&
    !(root.recursiveDirectNames && parts.any excludedRecursively.contains) &&
      ((parts.length == 1 || root.recursiveDirectNames) &&
          root.directNames.any (fun allowed ↦ name == allowed.toLower) ||
        root.nested && parts.head? == some "hooks" && extension path == some "json" ||
        root.nested && parts.head? == some "skills" && extension path == some "md")

/-- `is_safe_config_path`, `config_events.rs:223–279`. -/
def isSafeConfigPath (root : ConfigRoot) (path : String) : Bool :=
  (stripRoot root.path path).any (isSafeRelative root path)

/-- `normalized_root_path` where paths are case-sensitive, `config_events.rs:113–125`. -/
def normalizedRootPath (path : String) : String :=
  let slashed := path.toList.map fun c ↦ if c = '\\' then '/' else c
  String.ofList (slashed.reverse.dropWhile (· == '/')).reverse

/-- `root_identity`, `config_events.rs:394–406`. -/
def rootIdentity (root : ConfigRoot) : String :=
  let separator := String.ofList [Char.ofNat 0]
  stableHash <| separator.intercalate
    [root.harness, normalizedRootPath root.path, root.scope.getD "global", toString root.nested,
      toString root.recursiveDirectNames, toString root.dynamicScope,
      separator.intercalate root.directNames]

/-- `tracked_root_for_path`, `config_events.rs:390–392`: the first root of a path. -/
def trackedRootForPath (path : String) (roots : List ConfigRoot) : Option ConfigRoot :=
  roots.find? fun root ↦ isSafeConfigPath root path

/-! ### The scan -/

/-- The file system during a scan: the files which a walk lists, and what is read of a file
while a root is scanned (`snapshot_file`, `config_events.rs:281–291`). -/
structure FileSystem where
  pathExists : String → Bool
  walk : String → List String
  walkInstructions : String → List String
  snapshotFile : ConfigRoot → String → Option SnapshotValue

/-- The files which a root looks at. Follows `config_events.rs:322–358`. -/
def candidates (fs : FileSystem) (root : ConfigRoot) : List String :=
  let direct := root.directNames.map (join root.path)
  let trees := [join root.path "hooks", join root.path "skills"].filter fs.pathExists
  direct ++ (if root.nested then trees.flatMap fs.walk else []) ++
    if root.recursiveDirectNames then fs.walkInstructions root.path else []

/-- The files with their values, and the root which found each last. -/
structure Discovered where
  snapshot : Snapshot
  rootByKey : ExtTreeMap String ConfigRoot

/-- One file of a root. Follows `config_events.rs:359–365`. -/
def discoverFile (fs : FileSystem) (root : ConfigRoot) (found : Discovered) (path : String) :
    Discovered :=
  match fs.snapshotFile root path with
  | none => found
  | some current => ⟨found.snapshot.insert path current, found.rootByKey.insert path root⟩

/-- One root. Follows `config_events.rs:318–366`. -/
def discoverRoot (fs : FileSystem) (found : Discovered) (root : ConfigRoot) : Discovered :=
  if fs.pathExists root.path then
    ((candidates fs root).filter (isSafeConfigPath root)).foldl (discoverFile fs root) found
  else found

/-- `discover_snapshot`, `config_events.rs:315–368`. -/
def discoverSnapshot (fs : FileSystem) (roots : List ConfigRoot) : Discovered :=
  roots.foldl (discoverRoot fs) ⟨∅, ∅⟩

/-! ### The merge -/

/-- A changed path with its old and its new value. -/
abbrev SnapshotDifference :=
  String × Option SnapshotValue × Option SnapshotValue

/-- `snapshot_diff`, `config_events.rs:370–388`. -/
def snapshotDiff (previous current : Snapshot) : List SnapshotDifference :=
  (ExtTreeSet.ofList (previous.keys ++ current.keys)).toList.filterMap fun key ↦
    if previous[key]? = current[key]? then none else some (key, previous[key]?, current[key]?)

/-- An emitted change. Follows `config_events.rs:408–413`. -/
structure SnapshotChange where
  path : String
  root : ConfigRoot
  old : Option SnapshotValue
  new : Option SnapshotValue
deriving Repr, DecidableEq

/-- A path whose root was tracked when the scan began. -/
def isTracked (observed : SnapshotState) (root : Option ConfigRoot) : Bool :=
  root.any fun root ↦ observed.roots.contains (rootIdentity root)

/-- The observed entries which are compared. Follows `config_events.rs:422–430`. -/
def observedEntries (observed : SnapshotState) (roots : List ConfigRoot) : Snapshot :=
  observed.entries.filter fun path _ ↦ isTracked observed (trackedRootForPath path roots)

/-- The scanned entries which are compared. Follows `config_events.rs:431–439`. -/
def currentEntries (observed : SnapshotState) (found : Discovered) : Snapshot :=
  found.snapshot.filter fun path _ ↦ isTracked observed found.rootByKey[path]?

/-- The latest entries and the emitted changes. -/
structure Merge where
  entries : Snapshot
  emitted : List SnapshotChange

/-- An entry set or removed. -/
def setEntry (entries : Snapshot) (key : String) : Option SnapshotValue → Snapshot
  | none => entries.erase key
  | some value => entries.insert key value

/-- One difference. Follows `config_events.rs:442–463`. -/
def mergeDifference (found : Discovered) (roots : List ConfigRoot) (s : Merge)
    (difference : SnapshotDifference) : Merge :=
  let (key, old, new) := difference
  if s.entries[key]? ≠ old then s
  else
    match found.rootByKey[key]?.or (trackedRootForPath key roots) with
    | none => s
    | some root => ⟨setEntry s.entries key new, s.emitted ++ [⟨key, root, old, new⟩]⟩

/-- One scanned file of a root which was not tracked. Follows `config_events.rs:468–477`. -/
def mergeBaseline (observed : SnapshotState) (found : Discovered) (entries : Snapshot)
    (file : String × SnapshotValue) : Snapshot :=
  match found.rootByKey[file.1]? with
  | none => entries
  | some root =>
      if observed.roots.contains (rootIdentity root) then entries
      else if entries[file.1]? = observed.entries[file.1]? then entries.insert file.1 file.2
      else entries

/-- `merge_discovery`, `config_events.rs:415–481`. -/
def mergeDiscovery (observed latest : SnapshotState) (found : Discovered)
    (roots : List ConfigRoot) : SnapshotState × List SnapshotChange :=
  let differences := snapshotDiff (observedEntries observed roots) (currentEntries observed found)
  let merged := differences.foldl (mergeDifference found roots) ⟨latest.entries, []⟩
  (⟨found.snapshot.toList.foldl (mergeBaseline observed found) merged.entries,
      latest.roots.insertMany (roots.map rootIdentity)⟩, merged.emitted)

/-! ### The watchers -/

/-- What a watcher finds at a path. -/
structure WatcherUpdate where
  path : String
  current : Option SnapshotValue

/-- `record_change` for a path of a root, `config_events.rs:587–608`. -/
def recordChange (root : ConfigRoot) (update : WatcherUpdate) (snapshot : SnapshotState) :
    SnapshotState :=
  if isSafeConfigPath root update.path ∧ snapshot.entries[update.path]? ≠ update.current then
    { snapshot with entries := setEntry snapshot.entries update.path update.current }
  else snapshot

/-- A watcher's callback for one path. Follows `config_events.rs:645–650`. -/
def watch (roots : List ConfigRoot) (snapshot : SnapshotState) (update : WatcherUpdate) :
    SnapshotState :=
  match trackedRootForPath update.path roots with
  | none => snapshot
  | some root => recordChange root update snapshot

/-- The state after the watchers' updates. -/
def afterWatchers (roots : List ConfigRoot) (observed : SnapshotState)
    (updates : List WatcherUpdate) : SnapshotState :=
  updates.foldl (watch roots) observed

end AgentOdometer.Config
