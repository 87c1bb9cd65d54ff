import AgentOdometer.Instructions.Tree
import Mathlib.Data.List.Sort
import Std.Data.ExtTreeMap

/-!
# Scanning for instruction files

`discover_from_roots` (`instructions.rs:403–500,563–643`): the roots whose walk is thought to cover
that of the others are scanned, and every file is attributed to the deepest root of all that covers
it.
-/

namespace AgentOdometer.Instructions

open Std (ExtTreeMap)

/-- The drives of a platform, symbolic links left out. -/
structure FileSystem where
  windows : Bool
  drives : List (Drive × Tree)
  apart : ∀ drive ∈ drives, drive.2.NamesApart windows

namespace FileSystem

/-- What is at a path. -/
def lookup (fs : FileSystem) (path : ScanPath) : Option Tree :=
  (fs.drives.find? fun drive ↦
    fold fs.windows drive.1.text == fold fs.windows path.drive.text).bind
      fun drive ↦ drive.2.lookup fs.windows path.names

/-- `Path::is_dir`. -/
def isDir (fs : FileSystem) (path : ScanPath) : Bool :=
  (fs.lookup path).any Tree.isDir

/-- `symlink_metadata(path).is_ok_and(|metadata| metadata.is_file())`. -/
def isFile (fs : FileSystem) (path : ScanPath) : Bool :=
  (fs.lookup path).any Tree.isFile

/-- The parts of a path on the platform. -/
def parts (fs : FileSystem) (path : ScanPath) : List String :=
  path.parts fs.windows

/-- `normalized_path_key` of a path, `instructions.rs:288–290`. -/
def key (fs : FileSystem) (path : ScanPath) : String :=
  normalizedPathKey fs.windows (path.text fs.windows)

end FileSystem

/-! ### Roots -/

/-- `ScanRoot`, `instructions.rs:121–126`. -/
structure ScanRoot where
  path : ScanPath
  source : String
  recursive : Bool
deriving DecidableEq

/-- `source_priority`, `instructions.rs:403–409`. -/
def sourcePriority (source : String) : Nat :=
  if source = "global" then 3 else if source = "configured" then 2 else 1

variable (fs : FileSystem)

/-- A root at or above a path whose walk goes below it. Follows `instructions.rs:426`. -/
def isRecursiveAncestor (root : ScanRoot) (path : ScanPath) : Bool :=
  root.recursive && isPathAncestor fs.windows (root.path.text fs.windows) (path.text fs.windows)

/-- The order of the candidates, `instructions.rs:417–421`. -/
def comesBefore (left right : ScanRoot) : Prop :=
  left.path.depth fs.windows < right.path.depth fs.windows ∨
    left.path.depth fs.windows = right.path.depth fs.windows ∧
      sourcePriority right.source ≤ sourcePriority left.source

instance : DecidableRel (comesBefore fs) := fun _ _ ↦
  inferInstanceAs (Decidable (_ ∨ _))

/-- The loop over the candidates, `instructions.rs:422–431`. -/
def plan (planned : List ScanRoot) (candidate : ScanRoot) : List ScanRoot :=
  if planned.any (isRecursiveAncestor fs · candidate.path) then planned
  else planned ++ [candidate]

/-- `traversal_roots`, `instructions.rs:411–433`. -/
def traversalRoots (roots : List ScanRoot) : List ScanRoot :=
  ((roots.filter fun root ↦ fs.isDir root.path).insertionSort (comesBefore fs)).foldl (plan fs) []

/-- A root covers a path: it lies at or above it and is recursive, or holds it itself. Follows
`instructions.rs:438–446`. -/
def covers (root : ScanRoot) (path : ScanPath) : Bool :=
  if root.recursive then
    isPathAncestor fs.windows (root.path.text fs.windows) (path.text fs.windows)
  else path.parent.any fun parent ↦ fs.key parent == fs.key root.path

/-- `attribution_root`, `instructions.rs:435–452`: depth first, and a priority is below four. -/
def attributionRoot (roots : List ScanRoot) (path : ScanPath) : Option ScanRoot :=
  ProviderSourceSet.maxByKey (fun root ↦
    4 * root.path.depth fs.windows + sourcePriority root.source)
    (roots.filter (covers fs · path))

/-! ### The scan of a root -/

/-- `ScanLimits`, `instructions.rs:141–146`. -/
structure ScanLimits where
  maxDiscoveredFiles : Nat
  maxVisitedEntries : Nat
  maxScanDepth : Nat
deriving Repr, DecidableEq

/-- `ScanBudget`, `instructions.rs:158–163`. -/
structure ScanBudget where
  entriesVisited : Nat
  filesFound : Nat
  truncationReason : Option String
deriving Repr, DecidableEq

/-- The names of `DEFINITIONS`. -/
def definitionNames : List Name :=
  [⟨"AGENTS.md", by decide, by decide⟩, ⟨"CLAUDE.md", by decide, by decide⟩]

example : definitionNames.map Name.text = DEFINITIONS.map InstructionDefinition.fileName := rfl

/-- The files looked for in a root which is not recursive, `instructions.rs:577–597`. -/
def ownEntries (path : ScanPath) : List (Option ScanPath) :=
  definitionNames.map fun name ↦
    if fs.isFile (path.join [name]) then some (path.join [name]) else none

/-- The entries of the walk over a root, those which are instruction files with their path,
`instructions.rs:604–626`. -/
def walkEntries (limits : ScanLimits) (path : ScanPath) (tree : Tree) : List (Option ScanPath) :=
  (tree.walk limits.maxScanDepth).map fun entry ↦
    if entry.2.isFile && ((path.join entry.1).fileName.bind (definitionFor ·.text)).isSome then
      some (path.join entry.1)
    else none

/-- What a scan of a root visits. -/
def entriesOf (limits : ScanLimits) (root : ScanRoot) : List (Option ScanPath) :=
  match fs.lookup root.path with
  | some (.directory children) =>
      if root.recursive then walkEntries limits root.path (.directory children)
      else ownEntries fs root.path
  | _ => []

/-- The loop over what a scan visits, `instructions.rs:579–597,611–626`. -/
def visit (limits : ScanLimits) :
    List (Option ScanPath) → ScanBudget → List ScanPath × ScanBudget
  | [], budget => ([], budget)
  | entry :: entries, budget =>
      if limits.maxVisitedEntries ≤ budget.entriesVisited then
        ([], { budget with truncationReason := some "entry_limit" })
      else
        let budget := { budget with entriesVisited := budget.entriesVisited + 1 }
        match entry with
        | none => visit limits entries budget
        | some path =>
            if limits.maxDiscoveredFiles ≤ budget.filesFound then
              ([], { budget with truncationReason := some "file_limit" })
            else
              let rest := visit limits entries
                { budget with filesFound := budget.filesFound + 1 }
              (path :: rest.1, rest.2)

/-- `instruction_paths`, `instructions.rs:563–643`. -/
def instructionPaths (limits : ScanLimits) (root : ScanRoot) (budget : ScanBudget) :
    List ScanPath × ScanBudget :=
  visit limits (entriesOf fs limits root) budget

/-! ### The scan of all roots -/

/-- `DiscoveredFile`, `instructions.rs:128–132`: a file with its path and the root it is attributed
to. -/
structure DiscoveredFile where
  path : ScanPath
  root : ScanRoot
  item : InstructionFile

variable (projectRoot : String → Option String)

/-- `inspect_file` of a path, `instructions.rs:680–734`. -/
def inspect (owner : ScanRoot) (path : ScanPath) : Option DiscoveredFile :=
  path.fileName.bind fun name ↦
    if fs.isFile path then
      (inspectFile fs.windows projectRoot (owner.path.text fs.windows) owner.source
        ((path.parent.getD path).text fs.windows) name.text).map (⟨path, owner, ·⟩)
    else none

/-- A file is entered under its key, `instructions.rs:487–495`. -/
def enter (roots : List ScanRoot) (root : ScanRoot) (byPath : ExtTreeMap String DiscoveredFile)
    (path : ScanPath) : ExtTreeMap String DiscoveredFile :=
  match inspect fs projectRoot ((attributionRoot fs roots path).getD root) path with
  | none => byPath
  | some discovered => byPath.insert (fs.key path) discovered

/-- The loop over the planned roots, `instructions.rs:475–507`. -/
def scanRoots (limits : ScanLimits) (roots : List ScanRoot) :
    List ScanRoot → ExtTreeMap String DiscoveredFile → ScanBudget →
      ExtTreeMap String DiscoveredFile × ScanBudget
  | [], byPath, budget => (byPath, budget)
  | root :: planned, byPath, budget =>
      let scanned := instructionPaths fs limits root budget
      let byPath := scanned.1.foldl (enter fs projectRoot roots root) byPath
      if scanned.2.truncationReason.isSome then (byPath, scanned.2)
      else scanRoots limits roots planned byPath scanned.2

/-- `discover_from_roots`, `instructions.rs:454–561`, of a scan which is not cancelled: the files
before they are related, warned about and sorted, and the budget which was used. -/
def discoverFromRoots (limits : ScanLimits) (roots : List ScanRoot) :
    List DiscoveredFile × ScanBudget :=
  let scanned := scanRoots fs projectRoot limits roots (traversalRoots fs roots) ∅ ⟨0, 0, none⟩
  (scanned.1.toList.map Prod.snd, scanned.2)

end AgentOdometer.Instructions
