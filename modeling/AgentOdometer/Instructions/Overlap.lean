import AgentOdometer.Instructions.Discover
import Mathlib.Algebra.Order.BigOperators.Group.List
import Mathlib.Algebra.Order.Group.Nat

/-!
# Overlapping instruction roots

A root at or below a recursive one is not scanned, although the walk that should cover it leaves out
directories by their names. The scan of overlapping roots lists what the roots list on their own
exactly if no such directory lies between a root that lists a file and the topmost recursive root
above it.
-/

namespace AgentOdometer.Instructions

open Std (ExtTreeMap)

variable {fs : FileSystem}

/-! ### Lookups of paths -/

namespace FileSystem

theorem parts_eq (path : ScanPath) : fs.parts path =
    fold fs.windows path.drive.text :: path.names.map fun name ↦ fold fs.windows name.text := rfl

theorem parts_join (path : ScanPath) (names : List Name) :
    fs.parts (path.join names) =
      fs.parts path ++ names.map fun name ↦ fold fs.windows name.text := by
  rw [parts_eq, parts_eq, ScanPath.join, List.map_append, List.cons_append]

theorem key_inj {a b : ScanPath} : fs.key a = fs.key b ↔ fs.parts a = fs.parts b :=
  key_eq_iff

theorem lookup_join (path : ScanPath) (names : List Name) :
    fs.lookup (path.join names) = (fs.lookup path).bind (·.lookup fs.windows names) := by
  unfold lookup ScanPath.join
  simp only
  cases fs.drives.find? fun drive ↦
      fold fs.windows drive.1.text == fold fs.windows path.drive.text with
  | none => rfl
  | some drive => exact Tree.lookup_append drive.2 path.names names

/-- Paths of the same parts are one to the platform. -/
theorem lookup_congr {a b : ScanPath} (h : fs.parts a = fs.parts b) :
    fs.lookup a = fs.lookup b := by
  rw [parts_eq, parts_eq, List.cons.injEq] at h
  unfold lookup
  rw [h.1]
  exact congrArg _ (funext fun drive ↦ Tree.lookup_congr h.2)

theorem isFile_congr {a b : ScanPath} (h : fs.parts a = fs.parts b) : fs.isFile a = fs.isFile b :=
  congrArg (Option.any Tree.isFile) (lookup_congr h)

theorem isDir_congr {a b : ScanPath} (h : fs.parts a = fs.parts b) : fs.isDir a = fs.isDir b :=
  congrArg (Option.any Tree.isDir) (lookup_congr h)

theorem isFile_iff {path : ScanPath} : fs.isFile path = true ↔ fs.lookup path = some .file := by
  unfold isFile
  cases fs.lookup path with
  | none => simp
  | some tree => cases tree <;> simp [Tree.isFile]

theorem isDir_iff {path : ScanPath} :
    fs.isDir path = true ↔ ∃ children, fs.lookup path = some (.directory children) := by
  unfold isDir
  cases fs.lookup path with
  | none => simp
  | some tree => cases tree <;> simp [Tree.isDir]

theorem apart_of_lookup {path : ScanPath} {tree : Tree} (h : fs.lookup path = some tree) :
    tree.NamesApart fs.windows := by
  obtain ⟨drive, hfind, hlookup⟩ := Option.bind_eq_some_iff.mp h
  obtain ⟨held, hholds, -⟩ := Tree.exists_holds_of_lookup hlookup
  intro names children hnames
  exact fs.apart drive (List.mem_of_find?_eq_some hfind) (held ++ names) children
    (hholds.append hnames)

/-- A path whose parts begin with those of another lies below it. -/
theorem exists_join {root path : ScanPath} {rest : List String}
    (h : fs.parts path = fs.parts root ++ rest) :
    ∃ names, fs.parts (root.join names) = fs.parts path ∧
      names.map (fun name ↦ fold fs.windows name.text) = rest := by
  have hrest : (path.names.drop root.names.length).map (fun name ↦ fold fs.windows name.text) =
      rest := by
    rw [parts_eq, parts_eq, List.cons_append, List.cons.injEq] at h
    rw [List.map_drop, h.2, List.drop_left' (List.length_map _)]
  exact ⟨_, by rw [parts_join, hrest, h], hrest⟩

/-- One path lies at or above another. -/
theorem isPathAncestor_text {a b : ScanPath} :
    isPathAncestor fs.windows (a.text fs.windows) (b.text fs.windows) = true ↔
      fs.parts a <+: fs.parts b :=
  isPathAncestor_text_iff

theorem length_parts (path : ScanPath) :
    (fs.parts path).length + (if fs.windows then 1 else 0) = path.depth fs.windows := by
  rw [parts_eq, ScanPath.depth, List.length_cons, List.length_map]
  cases fs.windows <;> simp

end FileSystem

/-! ### What a root lists on its own -/

theorem definitionFor_fold (windows : Bool) (name : String) :
    definitionFor (fold windows name) = definitionFor name := by
  simp only [definitionFor, Text.eqIgnoreAsciiCase, asciiLowercase_fold]

theorem ignored_fold (windows : Bool) (name : String) :
    ignored (fold windows name) = ignored name := by
  simp only [ignored, asciiLowercase_fold]

/-- The files of a scan of a root which meets no limit. -/
def listed (fs : FileSystem) (limits : ScanLimits) (root : ScanRoot) : List ScanPath :=
  (entriesOf fs limits root).filterMap id

/-- A root reaches an instruction file: through directories which are not left out, or as its
own. -/
def Reaches (fs : FileSystem) (root : ScanRoot) (path : ScanPath) : Prop :=
  fs.isDir root.path = true ∧ fs.isFile path = true ∧
    ∃ way last, fs.parts path = fs.parts root.path ++ way ++ [last] ∧
      if root.recursive then
        (definitionFor last).isSome = true ∧ ∀ name ∈ way, ignored name = false
      else way = [] ∧ ∃ name ∈ definitionNames, fold fs.windows name.text = last

/-- No path of the platform is deeper than a walk goes. -/
def DepthWithin (fs : FileSystem) (limits : ScanLimits) : Prop :=
  ∀ path, (fs.lookup path).isSome = true → path.names.length ≤ limits.maxScanDepth

theorem reaches_of_mem_listed {limits : ScanLimits} {root : ScanRoot} {path : ScanPath}
    (h : path ∈ listed fs limits root) : Reaches fs root path := by
  obtain ⟨entry, hentry, hid⟩ := List.mem_filterMap.mp h
  obtain rfl : entry = some path := hid
  unfold entriesOf at hentry
  split at hentry
  next children hlookup =>
    have hdir : fs.isDir root.path = true := FileSystem.isDir_iff.mpr ⟨children, hlookup⟩
    split at hentry
    next hrecursive =>
      obtain ⟨⟨names, tree⟩, hwalk, hsome⟩ := List.mem_map.mp hentry
      obtain ⟨hcond, hpath⟩ := Option.ite_none_right_eq_some.mp hsome
      obtain rfl := Option.some.inj hpath
      rw [Bool.and_eq_true] at hcond
      obtain rfl : tree = .file := by
        cases tree with
        | file => rfl
        | directory => cases hcond.1
        | special => cases hcond.1
      obtain ⟨hholds, -, hway, -⟩ := Tree.mem_walk.mp hwalk
      rcases List.eq_nil_or_concat names with rfl | ⟨front, name, rfl⟩
      · cases hholds
      · rw [List.concat_eq_append] at hholds hway hcond ⊢
        rw [List.dropLast_concat] at hway
        refine ⟨hdir, ?_, front.map fun name ↦ fold fs.windows name.text,
          fold fs.windows name.text, ?_, ?_⟩
        · rw [FileSystem.isFile_iff, FileSystem.lookup_join, hlookup, Option.bind_some]
          exact Tree.lookup_of_holds (FileSystem.apart_of_lookup hlookup) hholds
        · rw [FileSystem.parts_join, List.map_append, ← List.append_assoc]
          rfl
        · rw [if_pos hrecursive, definitionFor_fold]
          constructor
          · have hname : (root.path.join (front ++ [name])).fileName = some name := by
              rw [ScanPath.fileName, ScanPath.join, ← List.append_assoc, List.getLast?_concat]
            rw [hname] at hcond
            exact hcond.2
          · intro part hpart
            obtain ⟨other, hother, rfl⟩ := List.mem_map.mp hpart
            rw [ignored_fold]
            exact hway other hother
    next hflat =>
      obtain ⟨name, hname, hsome⟩ := List.mem_map.mp hentry
      obtain ⟨hfile, hpath⟩ := Option.ite_none_right_eq_some.mp hsome
      obtain rfl := Option.some.inj hpath
      refine ⟨hdir, hfile, [], fold fs.windows name.text, ?_, ?_⟩
      · rw [FileSystem.parts_join, List.append_nil]
        rfl
      · rw [if_neg hflat]
        exact ⟨rfl, name, hname, rfl⟩
  · cases hentry

theorem exists_listed_of_reaches {limits : ScanLimits} {root : ScanRoot} {path : ScanPath}
    (hdepth : DepthWithin fs limits) (h : Reaches fs root path) :
    ∃ found ∈ listed fs limits root, fs.parts found = fs.parts path := by
  obtain ⟨hdir, hfile, way, last, hparts, hreach⟩ := h
  obtain ⟨children, hlookup⟩ := FileSystem.isDir_iff.mp hdir
  have hentries : entriesOf fs limits root =
      if root.recursive then walkEntries limits root.path (.directory children)
      else ownEntries fs root.path := by
    unfold entriesOf
    rw [hlookup]
  by_cases hrecursive : root.recursive = true
  · rw [if_pos hrecursive] at hreach hentries
    rw [List.append_assoc] at hparts
    obtain ⟨names, hnames, hrest⟩ := FileSystem.exists_join hparts
    -- The names of the entry itself, which the walk goes through.
    have hbelow : (Tree.directory children).lookup fs.windows names = some .file := by
      rw [← FileSystem.isFile_congr hnames, FileSystem.isFile_iff, FileSystem.lookup_join, hlookup,
        Option.bind_some] at hfile
      exact hfile
    obtain ⟨held, hholds, hheld⟩ := Tree.exists_holds_of_lookup hbelow
    have hjoin : fs.parts (root.path.join held) = fs.parts path := by
      rw [FileSystem.parts_join, hheld, ← FileSystem.parts_join, hnames]
    rw [hrest] at hheld
    obtain ⟨front, name, rfl⟩ : ∃ front name, held = front ++ [name] := by
      rcases List.eq_nil_or_concat held with rfl | ⟨front, name, rfl⟩
      · simp at hheld
      · exact ⟨front, name, List.concat_eq_append⟩
    rw [List.map_append, List.map_singleton] at hheld
    obtain ⟨hfront, hlast⟩ := List.append_inj' hheld rfl
    obtain rfl := (List.cons.inj hlast).1
    have hwalk : (front ++ [name], Tree.file) ∈
        (Tree.directory children).walk limits.maxScanDepth := by
      refine Tree.mem_walk.mpr ⟨hholds, ?_, ?_, fun _ _ hfalse ↦ nomatch hfalse⟩
      · have hsome := hdepth (root.path.join (front ++ [name])) (by
          rw [FileSystem.lookup_congr hjoin, FileSystem.isFile_iff.mp hfile]
          rfl)
        rw [ScanPath.join, List.length_append] at hsome
        omega
      · rw [List.dropLast_concat]
        intro other hother
        rw [← ignored_fold fs.windows]
        exact hreach.2 _ (hfront ▸ List.mem_map_of_mem hother)
    refine ⟨root.path.join (front ++ [name]), ?_, hjoin⟩
    rw [listed, hentries]
    refine List.mem_filterMap.mpr ⟨_, List.mem_map_of_mem hwalk, ?_⟩
    have hname : (root.path.join (front ++ [name])).fileName = some name := by
      rw [ScanPath.fileName, ScanPath.join, ← List.append_assoc, List.getLast?_concat]
    have hdefined := hreach.1
    rw [definitionFor_fold] at hdefined
    simp [hname, hdefined, Tree.isFile]
  · rw [if_neg hrecursive] at hreach hentries
    obtain ⟨rfl, name, hname, rfl⟩ := hreach
    have hjoin : fs.parts (root.path.join [name]) = fs.parts path := by
      rw [FileSystem.parts_join, hparts, List.append_nil]
      rfl
    refine ⟨root.path.join [name], ?_, hjoin⟩
    rw [listed, hentries]
    refine List.mem_filterMap.mpr ⟨_, List.mem_map_of_mem hname, ?_⟩
    rw [FileSystem.isFile_congr hjoin, hfile]
    rfl

/-! ### The planned roots -/

instance : Std.Total (comesBefore fs) where
  total a b := by
    unfold comesBefore
    omega

instance : IsTrans ScanRoot (comesBefore fs) where
  trans a b c hab hbc := by
    unfold comesBefore at *
    omega

/-- The planned roots are some of the candidates, every other lies at or below a recursive one that
is planned, and no recursive candidate lies strictly above a planned root. -/
structure IsPlan (fs : FileSystem) (candidates planned : List ScanRoot) : Prop where
  candidate : ∀ root ∈ planned, root ∈ candidates
  absorbed : ∀ root ∈ candidates, root ∈ planned ∨
    ∃ outer ∈ planned, outer.recursive = true ∧ fs.parts outer.path <+: fs.parts root.path
  topmost : ∀ root ∈ planned, ∀ outer ∈ candidates, outer.recursive = true →
    fs.parts outer.path <+: fs.parts root.path → fs.parts outer.path = fs.parts root.path

theorem isRecursiveAncestor_iff {root : ScanRoot} {path : ScanPath} :
    isRecursiveAncestor fs root path = true ↔
      root.recursive = true ∧ fs.parts root.path <+: fs.parts path := by
  rw [isRecursiveAncestor, Bool.and_eq_true, FileSystem.isPathAncestor_text]

/-- A candidate which is no higher than those before it keeps the plan. -/
theorem IsPlan.plan {candidates planned : List ScanRoot} (h : IsPlan fs candidates planned)
    {root : ScanRoot} (hdepth : ∀ other ∈ candidates,
      (fs.parts other.path).length ≤ (fs.parts root.path).length) :
    IsPlan fs (candidates ++ [root]) (plan fs planned root) := by
  -- The new candidate lies strictly above none before it.
  have hold : ∀ kept ∈ planned, ∀ outer ∈ candidates ++ [root], outer.recursive = true →
      fs.parts outer.path <+: fs.parts kept.path → fs.parts outer.path = fs.parts kept.path := by
    intro kept hkept outer houter hrecursive hinfront
    rcases List.mem_append.mp houter with hin | hnew
    · exact h.topmost kept hkept outer hin hrecursive hinfront
    · obtain rfl := List.mem_singleton.mp hnew
      exact hinfront.eq_of_length_le (hdepth kept (h.candidate kept hkept))
  unfold Instructions.plan
  split
  next hany =>
    obtain ⟨outer, houter, hancestor⟩ := List.any_eq_true.mp hany
    rw [isRecursiveAncestor_iff] at hancestor
    refine ⟨fun kept hkept ↦ List.mem_append_left _ (h.candidate kept hkept), ?_, hold⟩
    intro other hother
    rcases List.mem_append.mp hother with hin | hnew
    · exact h.absorbed other hin
    · obtain rfl := List.mem_singleton.mp hnew
      exact .inr ⟨outer, houter, hancestor⟩
  next hnone =>
    have hapart : ∀ outer ∈ planned, outer.recursive = true →
        ¬ fs.parts outer.path <+: fs.parts root.path := fun outer houter hrecursive hinfront ↦
      hnone (List.any_eq_true.mpr
        ⟨outer, houter, isRecursiveAncestor_iff.mpr ⟨hrecursive, hinfront⟩⟩)
    refine ⟨?_, ?_, ?_⟩
    · intro kept hkept
      rcases List.mem_append.mp hkept with hin | hnew
      · exact List.mem_append_left _ (h.candidate kept hin)
      · exact List.mem_append_right _ hnew
    · intro other hother
      rcases List.mem_append.mp hother with hin | hnew
      · rcases h.absorbed other hin with hkept | ⟨outer, houter, hancestor⟩
        · exact .inl (List.mem_append_left _ hkept)
        · exact .inr ⟨outer, List.mem_append_left _ houter, hancestor⟩
      · exact .inl (List.mem_append_right _ hnew)
    · intro kept hkept outer houter hrecursive hinfront
      rcases List.mem_append.mp hkept with hin | hnew
      · exact hold kept hin outer houter hrecursive hinfront
      · obtain rfl := List.mem_singleton.mp hnew
        rcases List.mem_append.mp houter with hin | hself
        · -- An earlier recursive root above it is planned, or lies below one that is.
          rcases h.absorbed outer hin with hplanned | ⟨top, htop, htoprec, htopfront⟩
          · exact absurd hinfront (hapart outer hplanned hrecursive)
          · exact absurd (htopfront.trans hinfront) (hapart top htop htoprec)
        · rw [List.mem_singleton.mp hself]

theorem isPlan_foldl {candidates planned rest : List ScanRoot} (h : IsPlan fs candidates planned)
    (hsorted : (candidates ++ rest).Pairwise fun a b ↦
      (fs.parts a.path).length ≤ (fs.parts b.path).length) :
    IsPlan fs (candidates ++ rest) (rest.foldl (plan fs) planned) := by
  induction rest generalizing candidates planned with
  | nil => rwa [List.append_nil]
  | cons root rest ih =>
    have hdepth : ∀ other ∈ candidates,
        (fs.parts other.path).length ≤ (fs.parts root.path).length := fun other hother ↦
      (List.pairwise_append.mp hsorted).2.2 other hother root List.mem_cons_self
    rw [List.append_cons] at hsorted ⊢
    exact ih (h.plan hdepth) hsorted

/-- The roots which are scanned are a plan for those which exist. -/
theorem isPlan_traversalRoots (fs : FileSystem) (roots : List ScanRoot) :
    IsPlan fs (roots.filter fun root ↦ fs.isDir root.path) (traversalRoots fs roots) := by
  unfold traversalRoots
  have hsorted := List.pairwise_insertionSort (comesBefore fs)
    (roots.filter fun root ↦ fs.isDir root.path)
  have hnone : IsPlan fs [] [] :=
    ⟨fun _ h ↦ (nomatch h), fun _ h ↦ (nomatch h), fun _ h ↦ (nomatch h)⟩
  have hplan := isPlan_foldl hnone (hsorted.imp fun {a b} hab ↦ by
    have ha := fs.length_parts a.path
    have hb := fs.length_parts b.path
    unfold comesBefore at hab
    omega)
  rw [List.nil_append] at hplan
  exact ⟨fun root hroot ↦ (List.mem_insertionSort _).mp (hplan.candidate root hroot),
    fun root hroot ↦ hplan.absorbed root ((List.mem_insertionSort _).mpr hroot),
    fun root hroot outer houter ↦
      hplan.topmost root hroot outer ((List.mem_insertionSort _).mpr houter)⟩

theorem traversalRoots_singleton (root : ScanRoot) :
    traversalRoots fs [root] = if fs.isDir root.path then [root] else [] := by
  unfold traversalRoots
  by_cases hdir : fs.isDir root.path = true
  · rw [if_pos hdir, List.filter_singleton, hdir]
    rfl
  · rw [Bool.not_eq_true] at hdir
    rw [List.filter_singleton, hdir]
    rfl

/-! ### A scan below its limits -/

/-- No limit is met by the scan of the roots, nor by the scan of one of them. -/
structure BelowLimits (fs : FileSystem) (limits : ScanLimits) (roots : List ScanRoot) : Prop where
  depth : DepthWithin fs limits
  entries : ((traversalRoots fs roots).map fun root ↦ (entriesOf fs limits root).length).sum ≤
    limits.maxVisitedEntries
  files : ((traversalRoots fs roots).map fun root ↦ (listed fs limits root).length).sum ≤
    limits.maxDiscoveredFiles
  entriesAlone : ∀ root ∈ roots, (entriesOf fs limits root).length ≤ limits.maxVisitedEntries
  filesAlone : ∀ root ∈ roots, (listed fs limits root).length ≤ limits.maxDiscoveredFiles

variable {limits : ScanLimits} {roots : List ScanRoot} {projectRoot : String → Option String}

theorem BelowLimits.singleton (h : BelowLimits fs limits roots) {root : ScanRoot}
    (hroot : root ∈ roots) : BelowLimits fs limits [root] := by
  have hle : ∀ cost : ScanRoot → Nat, ((traversalRoots fs [root]).map cost).sum ≤ cost root := by
    intro cost
    rw [traversalRoots_singleton]
    split
    · rw [List.map_singleton, List.sum_singleton]
    · exact Nat.zero_le _
  refine ⟨h.depth, (hle _).trans (h.entriesAlone root hroot),
    (hle _).trans (h.filesAlone root hroot), fun other hother ↦ ?_, fun other hother ↦ ?_⟩
  · obtain rfl := List.mem_singleton.mp hother
    exact h.entriesAlone _ hroot
  · obtain rfl := List.mem_singleton.mp hother
    exact h.filesAlone _ hroot

/-- A scan below its limits returns all it looks for. -/
theorem visit_eq {entries : List (Option ScanPath)} {budget : ScanBudget}
    (hentries : budget.entriesVisited + entries.length ≤ limits.maxVisitedEntries)
    (hfiles : budget.filesFound + (entries.filterMap id).length ≤ limits.maxDiscoveredFiles) :
    visit limits entries budget = (entries.filterMap id,
      { budget with
        entriesVisited := budget.entriesVisited + entries.length
        filesFound := budget.filesFound + (entries.filterMap id).length }) := by
  induction entries generalizing budget with
  | nil => rfl
  | cons entry entries ih =>
    rw [List.length_cons] at hentries
    rw [visit, if_neg (by omega)]
    cases entry with
    | none =>
      rw [List.filterMap_cons_none rfl] at hfiles ⊢
      simp only
      rw [ih (by simp only; omega) (by simpa only using hfiles)]
      simp only [List.length_cons, Prod.mk.injEq, ScanBudget.mk.injEq, true_and, and_true]
      omega
    | some path =>
      have hcons : (some path :: entries).filterMap id = path :: entries.filterMap id := rfl
      rw [hcons, List.length_cons] at hfiles
      rw [hcons]
      simp only
      rw [if_neg (by omega), ih (by simp only; omega) (by simp only; omega)]
      simp only [List.length_cons, Prod.mk.injEq, ScanBudget.mk.injEq, true_and, and_true, id_eq]
      omega

/-- What the scans of the planned roots list, each path with its root. -/
def spots (fs : FileSystem) (limits : ScanLimits) (planned : List ScanRoot) :
    List (ScanRoot × ScanPath) :=
  planned.flatMap fun root ↦ (listed fs limits root).map (root, ·)

theorem mem_spots {planned : List ScanRoot} {spot : ScanRoot × ScanPath} :
    spot ∈ spots fs limits planned ↔ spot.1 ∈ planned ∧ spot.2 ∈ listed fs limits spot.1 := by
  unfold spots
  rw [List.mem_flatMap]
  constructor
  · rintro ⟨root, hroot, hspot⟩
    obtain ⟨path, hpath, rfl⟩ := List.mem_map.mp hspot
    exact ⟨hroot, hpath⟩
  · exact fun h ↦ ⟨spot.1, h.1, List.mem_map.mpr ⟨spot.2, h.2, rfl⟩⟩

/-- Below the limits all that the planned roots list is entered, and nothing is cut off. -/
theorem scanRoots_eq {planned : List ScanRoot} {byPath : ExtTreeMap String DiscoveredFile}
    {budget : ScanBudget} (hreason : budget.truncationReason = none)
    (hentries : budget.entriesVisited +
      (planned.map fun root ↦ (entriesOf fs limits root).length).sum ≤ limits.maxVisitedEntries)
    (hfiles : budget.filesFound + (planned.map fun root ↦ (listed fs limits root).length).sum ≤
      limits.maxDiscoveredFiles) :
    (scanRoots fs projectRoot limits roots planned byPath budget).1 =
        (spots fs limits planned).foldl
          (fun byPath spot ↦ enter fs projectRoot roots spot.1 byPath spot.2) byPath ∧
      (scanRoots fs projectRoot limits roots planned byPath budget).2.truncationReason = none := by
  induction planned generalizing byPath budget with
  | nil => exact ⟨rfl, hreason⟩
  | cons root planned ih =>
    rw [List.map_cons, List.sum_cons] at hentries hfiles
    have hvisit : instructionPaths fs limits root budget = _ :=
      visit_eq (by omega) (by unfold listed at hfiles; omega)
    rw [scanRoots, hvisit]
    simp only [hreason, Option.isSome_none, Bool.false_eq_true, if_false]
    rw [spots, List.flatMap_cons, List.foldl_append, List.foldl_map]
    exact ih rfl (by simp only; omega) (by simp only; unfold listed at hfiles ⊢; omega)

/-! ### The entered files -/

/-- The root which a listed file is attributed to. -/
def ownerOf (fs : FileSystem) (roots : List ScanRoot) (spot : ScanRoot × ScanPath) : ScanRoot :=
  (attributionRoot fs roots spot.2).getD spot.1

theorem isSome_definitionFor_names :
    ∀ name ∈ definitionNames, (definitionFor name.text).isSome = true := by decide

/-- A file that a root reaches can be inspected. -/
theorem exists_inspect (projectRoot : String → Option String) {root : ScanRoot} {path : ScanPath}
    (h : Reaches fs root path) (owner : ScanRoot) :
    ∃ item, inspect fs projectRoot owner path = some ⟨path, owner, item⟩ := by
  obtain ⟨-, hfile, way, last, hparts, hreach⟩ := h
  obtain ⟨front, name, hnames⟩ : ∃ front name, path.names = front ++ [name] := by
    rcases List.eq_nil_or_concat path.names with hnil | ⟨front, name, hconcat⟩
    · have hlength := congrArg List.length hparts
      rw [FileSystem.parts_eq, FileSystem.parts_eq, hnil] at hlength
      simp at hlength
    · exact ⟨front, name, hconcat.trans List.concat_eq_append⟩
  have hlast : fold fs.windows name.text = last := by
    rw [FileSystem.parts_eq, hnames, List.map_append, List.map_singleton, ← List.cons_append]
      at hparts
    exact (List.cons.inj (List.append_inj' hparts rfl).2).1
  have hdefined : (definitionFor name.text).isSome = true := by
    rw [← definitionFor_fold fs.windows, hlast]
    by_cases hrecursive : root.recursive = true
    · rw [if_pos hrecursive] at hreach
      exact hreach.1
    · rw [if_neg hrecursive] at hreach
      obtain ⟨-, known, hknown, rfl⟩ := hreach
      rw [definitionFor_fold]
      exact isSome_definitionFor_names known hknown
  obtain ⟨definition, hdefinition⟩ := Option.isSome_iff_exists.mp hdefined
  have hfileName : path.fileName = some name := by
    rw [ScanPath.fileName, hnames, List.getLast?_concat]
  rw [inspect, hfileName, Option.bind_some, if_pos hfile, inspectFile, hdefinition]
  exact ⟨_, rfl⟩

variable (roots projectRoot) in
/-- The map holds for each key a file that was entered under it, with its root. -/
theorem getElem?_foldl_enter {entered : List (ScanRoot × ScanPath)}
    (hreach : ∀ spot ∈ entered, Reaches fs spot.1 spot.2)
    (byPath : ExtTreeMap String DiscoveredFile) (key : String) :
    let result := entered.foldl
      (fun byPath spot ↦ enter fs projectRoot roots spot.1 byPath spot.2) byPath
    (∀ file, result[key]? = some file → byPath[key]? = some file ∨
      ∃ spot ∈ entered, fs.key spot.2 = key ∧ file.path = spot.2 ∧
        file.root = ownerOf fs roots spot) ∧
    (result[key]?.isSome = true ↔
      byPath[key]?.isSome = true ∨ ∃ spot ∈ entered, fs.key spot.2 = key) := by
  simp only
  induction entered generalizing byPath with
  | nil => simp
  | cons spot entered ih =>
    rw [List.forall_mem_cons] at hreach
    obtain ⟨item, hitem⟩ := exists_inspect projectRoot hreach.1 (ownerOf fs roots spot)
    have henter : enter fs projectRoot roots spot.1 byPath spot.2 =
        byPath.insert (fs.key spot.2) ⟨spot.2, ownerOf fs roots spot, item⟩ := by
      unfold enter
      unfold ownerOf at hitem ⊢
      rw [hitem]
    obtain ⟨hvalue, hsome⟩ := ih hreach.2 (enter fs projectRoot roots spot.1 byPath spot.2)
    rw [List.foldl_cons]
    rw [henter, ExtTreeMap.getElem?_insert] at hvalue hsome
    simp only [Std.compare_eq_iff_eq] at hvalue hsome
    rw [henter]
    constructor
    · intro file hfile
      rcases hvalue file hfile with hbefore | ⟨later, hlater, hkey, hpath, howner⟩
      · by_cases hkey : fs.key spot.2 = key
        · rw [if_pos hkey] at hbefore
          obtain rfl := Option.some.inj hbefore
          exact .inr ⟨spot, List.mem_cons_self, hkey, rfl, rfl⟩
        · rw [if_neg hkey] at hbefore
          exact .inl hbefore
      · exact .inr ⟨later, List.mem_cons_of_mem _ hlater, hkey, hpath, howner⟩
    · rw [hsome]
      by_cases hkey : fs.key spot.2 = key
      · simp [hkey]
      · simp [hkey]

/-- The planned roots list what they reach, each file once and attributed over all roots. -/
theorem discoverFromRoots_spec (projectRoot : String → Option String)
    (h : BelowLimits fs limits roots) :
    (∀ key, (∃ file ∈ (discoverFromRoots fs projectRoot limits roots).1,
        fs.key file.path = key) ↔
      ∃ root ∈ traversalRoots fs roots, ∃ path, Reaches fs root path ∧ fs.key path = key) ∧
    ((discoverFromRoots fs projectRoot limits roots).1.map fun file ↦ fs.key file.path).Nodup ∧
    ∀ file ∈ (discoverFromRoots fs projectRoot limits roots).1,
      ∃ root ∈ traversalRoots fs roots, Reaches fs root file.path ∧
        file.root = ownerOf fs roots (root, file.path) := by
  have hentries : 0 + ((traversalRoots fs roots).map fun root ↦
      (entriesOf fs limits root).length).sum ≤ limits.maxVisitedEntries := by
    rw [Nat.zero_add]
    exact h.entries
  have hlisted : 0 + ((traversalRoots fs roots).map fun root ↦
      (listed fs limits root).length).sum ≤ limits.maxDiscoveredFiles := by
    rw [Nat.zero_add]
    exact h.files
  have hscan : (scanRoots fs projectRoot limits roots (traversalRoots fs roots) ∅
      ⟨0, 0, none⟩).1 = (spots fs limits (traversalRoots fs roots)).foldl
        (fun byPath spot ↦ enter fs projectRoot roots spot.1 byPath spot.2) ∅ :=
    (scanRoots_eq rfl hentries hlisted).1
  have hreach : ∀ spot ∈ spots fs limits (traversalRoots fs roots), Reaches fs spot.1 spot.2 :=
    fun spot hspot ↦ reaches_of_mem_listed (mem_spots.mp hspot).2
  unfold discoverFromRoots
  simp only [hscan]
  have hmap := getElem?_foldl_enter roots projectRoot hreach ∅
  generalize (spots fs limits (traversalRoots fs roots)).foldl
    (fun byPath spot ↦ enter fs projectRoot roots spot.1 byPath spot.2) ∅ = byPath at hmap ⊢
  -- Every entry of the map comes from a listed path, and is found under its key.
  have hentry : ∀ (key : String) file, byPath[key]? = some file →
      ∃ spot ∈ spots fs limits (traversalRoots fs roots), fs.key spot.2 = key ∧
        file.path = spot.2 ∧ file.root = ownerOf fs roots spot := fun key file hfile ↦
    ((hmap key).1 file hfile).resolve_left (by simp)
  have hfiles : ∀ file, file ∈ byPath.toList.map Prod.snd ↔
      ∃ key : String, byPath[key]? = some file := by
    intro file
    rw [List.mem_map]
    constructor
    · rintro ⟨⟨key, found⟩, hfound, rfl⟩
      exact ⟨key, ExtTreeMap.mem_toList_iff_getElem?_eq_some.mp hfound⟩
    · rintro ⟨key, hkey⟩
      exact ⟨(key, file), ExtTreeMap.mem_toList_iff_getElem?_eq_some.mpr hkey, rfl⟩
  refine ⟨fun key ↦ ?_, ?_, ?_⟩
  · constructor
    · rintro ⟨file, hfile, rfl⟩
      obtain ⟨key, hkey⟩ := (hfiles file).mp hfile
      obtain ⟨spot, hspot, -, hpath, -⟩ := hentry key file hkey
      exact ⟨spot.1, (mem_spots.mp hspot).1, spot.2, hreach spot hspot, by rw [hpath]⟩
    · rintro ⟨root, hroot, path, hpath, rfl⟩
      obtain ⟨found, hfound, hparts⟩ := exists_listed_of_reaches h.depth hpath
      have hsome := (hmap (fs.key path)).2.mpr
        (.inr ⟨(root, found), mem_spots.mpr ⟨hroot, hfound⟩, FileSystem.key_inj.mpr hparts⟩)
      obtain ⟨file, hfile⟩ := Option.isSome_iff_exists.mp hsome
      obtain ⟨spot, -, hkey, hspotPath, -⟩ := hentry _ file hfile
      exact ⟨file, (hfiles file).mpr ⟨_, hfile⟩, by rw [hspotPath, hkey]⟩
  · have hkeys : ∀ entry ∈ byPath.toList, fs.key entry.2.path = entry.1 := by
      intro entry hin
      obtain ⟨spot, -, hkey, hpath, -⟩ := hentry entry.1 entry.2
        (ExtTreeMap.mem_toList_iff_getElem?_eq_some.mp hin)
      rw [hpath, hkey]
    have hmapped : (byPath.toList.map Prod.snd).map (fun file ↦ fs.key file.path) =
        byPath.toList.map Prod.fst := by
      rw [List.map_map]
      exact List.map_congr_left hkeys
    rw [hmapped, List.Nodup, List.pairwise_map]
    exact ExtTreeMap.distinct_keys_toList.imp fun {a b} hab heq ↦
      hab (Std.compare_eq_iff_eq.mpr heq)
  · intro file hfile
    obtain ⟨key, hkey⟩ := (hfiles file).mp hfile
    obtain ⟨spot, hspot, -, hpath, howner⟩ := hentry key file hkey
    rw [hpath]
    exact ⟨spot.1, (mem_spots.mp hspot).1, hreach spot hspot, howner⟩

/-- A root on its own lists what it reaches. -/
theorem exists_mem_discover_singleton (projectRoot : String → Option String) {root : ScanRoot}
    (h : BelowLimits fs limits [root]) (key : String) :
    (∃ file ∈ (discoverFromRoots fs projectRoot limits [root]).1, fs.key file.path = key) ↔
      ∃ path, Reaches fs root path ∧ fs.key path = key := by
  rw [(discoverFromRoots_spec projectRoot h).1, traversalRoots_singleton]
  constructor
  · rintro ⟨other, hother, path, hpath, hkey⟩
    split at hother
    · obtain rfl := List.mem_singleton.mp hother
      exact ⟨path, hpath, hkey⟩
    · cases hother
  · rintro ⟨path, hpath, hkey⟩
    rw [if_pos hpath.1]
    exact ⟨root, List.mem_singleton_self root, path, hpath, hkey⟩

/-! ### Attribution -/

/-- Nothing in a list has a greater key than the greatest. -/
theorem le_maxByKey {α : Type} (key : α → Nat) {l : List α} {greatest : α}
    (h : ProviderSourceSet.maxByKey key l = some greatest) : ∀ a ∈ l, key a ≤ key greatest := by
  have hfold : ∀ (l : List α) (best : Option α),
      l.foldl (ProviderSourceSet.keepGreatest key) best = some greatest →
        (∀ a ∈ l, key a ≤ key greatest) ∧ ∀ b ∈ best, key b ≤ key greatest := by
    intro l
    induction l with
    | nil =>
      rintro best rfl
      simp
    | cons a l ih =>
      intro best hfold
      obtain ⟨hl, hbest⟩ := ih _ hfold
      cases best with
      | none => exact ⟨List.forall_mem_cons.mpr ⟨hbest a rfl, hl⟩, fun b hb ↦ nomatch hb⟩
      | some b =>
        rw [ProviderSourceSet.keepGreatest] at hbest
        split at hbest
        next hle =>
          have ha := hbest a rfl
          refine ⟨List.forall_mem_cons.mpr ⟨ha, hl⟩, fun other hother ↦ ?_⟩
          obtain rfl := Option.some.inj hother
          exact hle.trans ha
        next hlt =>
          have hb := hbest b rfl
          refine ⟨List.forall_mem_cons.mpr ⟨(Nat.le_of_not_le hlt).trans hb, hl⟩,
            fun other hother ↦ ?_⟩
          obtain rfl := Option.some.inj hother
          exact hb
  exact (hfold l none h).1

/-- A root covers what it reaches. -/
theorem covers_of_reaches {root : ScanRoot} {path : ScanPath} (h : Reaches fs root path) :
    covers fs root path = true := by
  obtain ⟨-, -, way, last, hparts, hreach⟩ := h
  unfold covers
  by_cases hrecursive : root.recursive = true
  · rw [if_pos hrecursive, FileSystem.isPathAncestor_text, hparts, List.append_assoc]
    exact List.prefix_append _ _
  · rw [if_neg hrecursive] at hreach ⊢
    obtain ⟨rfl, -⟩ := hreach
    rw [List.append_nil] at hparts
    have hnames : path.names ≠ [] := by
      intro hnil
      have hlength := congrArg List.length hparts
      rw [FileSystem.parts_eq, FileSystem.parts_eq, hnil] at hlength
      simp at hlength
    have hparent : fs.parts { path with names := path.names.dropLast } = fs.parts root.path := by
      have hdrop := congrArg List.dropLast hparts
      rw [List.dropLast_concat] at hdrop
      rw [← hdrop, FileSystem.parts_eq, FileSystem.parts_eq,
        List.dropLast_cons_of_ne_nil (by simpa using hnames), List.map_dropLast]
    rw [ScanPath.parent, if_neg hnames, Option.any_some, beq_iff_eq, FileSystem.key_inj, hparent]

theorem sourcePriority_le (source : String) : sourcePriority source ≤ 3 := by
  unfold sourcePriority
  split
  · decide
  · split <;> decide

/-- A file that a root reaches is attributed to the deepest root that covers it. -/
theorem ownerOf_deepest {root : ScanRoot} {path : ScanPath} (hroot : root ∈ roots)
    (h : Reaches fs root path) :
    ownerOf fs roots (root, path) ∈ roots ∧ covers fs (ownerOf fs roots (root, path)) path = true ∧
      ∀ other ∈ roots, covers fs other path = true →
        other.path.depth fs.windows ≤ (ownerOf fs roots (root, path)).path.depth fs.windows := by
  have hcovering : root ∈ roots.filter (covers fs · path) :=
    List.mem_filter.mpr ⟨hroot, covers_of_reaches h⟩
  obtain ⟨hmem, hsome⟩ := ProviderSourceSet.maxByKey_spec
    (fun root : ScanRoot ↦ 4 * root.path.depth fs.windows + sourcePriority root.source)
    (roots.filter (covers fs · path))
  obtain ⟨owner, howner⟩ := Option.isSome_iff_exists.mp (hsome.mpr (List.ne_nil_of_mem hcovering))
  have hownerOf : ownerOf fs roots (root, path) = owner := by
    rw [ownerOf, attributionRoot, howner]
    rfl
  obtain ⟨hin, hcovers⟩ := List.mem_filter.mp (hmem owner howner)
  rw [hownerOf]
  refine ⟨hin, hcovers, fun other hother hcovering ↦ ?_⟩
  have hle := le_maxByKey _ howner other (List.mem_filter.mpr ⟨hother, hcovering⟩)
  have hfour : ∀ a b p q : Nat, p ≤ 3 → 4 * a + q ≤ 4 * b + p → a ≤ b := by omega
  exact hfour _ _ _ _ (sourcePriority_le _) hle

/-! ### What overlapping roots hide -/

/-- A list of files is what the roots list on their own, each once and with the deepest root that
covers it. -/
structure HidesNothing (fs : FileSystem) (projectRoot : String → Option String)
    (limits : ScanLimits) (roots : List ScanRoot) (files : List DiscoveredFile) : Prop where
  same : ∀ key, (∃ file ∈ files, fs.key file.path = key) ↔
    ∃ root ∈ roots, ∃ file ∈ (discoverFromRoots fs projectRoot limits [root]).1,
      fs.key file.path = key
  once : (files.map fun file ↦ fs.key file.path).Nodup
  deepest : ∀ file ∈ files, file.root ∈ roots ∧ covers fs file.root file.path = true ∧
    ∀ other ∈ roots, covers fs other file.path = true →
      other.path.depth fs.windows ≤ file.root.path.depth fs.windows

/-- An existing root with no recursive one strictly above it. -/
def IsTopmost (fs : FileSystem) (roots : List ScanRoot) (root : ScanRoot) : Prop :=
  fs.isDir root.path = true ∧ ∀ other ∈ roots, fs.isDir other.path = true →
    isRecursiveAncestor fs other root.path = true → fs.key other.path = fs.key root.path

/-- No directory that a walk leaves out lies below a topmost recursive root, on the way to a root
which reaches an instruction file, that root included. -/
def WayClear (fs : FileSystem) (roots : List ScanRoot) : Prop :=
  ∀ outer ∈ roots, IsTopmost fs roots outer → ∀ inner ∈ roots,
    isRecursiveAncestor fs outer inner.path = true → (∃ path, Reaches fs inner path) →
      ∀ name ∈ (fs.parts inner.path).drop (fs.parts outer.path).length, ignored name = false

/-- A recursive root above another reaches what the other does, if the way between is clear. -/
theorem Reaches.of_above {outer inner : ScanRoot} {path : ScanPath} (h : Reaches fs inner path)
    (hdir : fs.isDir outer.path = true) (hrecursive : outer.recursive = true)
    (hinfront : fs.parts outer.path <+: fs.parts inner.path)
    (hclear : ∀ name ∈ (fs.parts inner.path).drop (fs.parts outer.path).length,
      ignored name = false) : Reaches fs outer path := by
  obtain ⟨-, hfile, way, last, hparts, hreach⟩ := h
  refine ⟨hdir, hfile, (fs.parts inner.path).drop (fs.parts outer.path).length ++ way, last, ?_, ?_⟩
  · rw [hparts, ← List.append_assoc, List.prefix_iff_eq_append.mp hinfront]
  · rw [if_pos hrecursive]
    by_cases hinner : inner.recursive = true
    · rw [if_pos hinner] at hreach
      exact ⟨hreach.1, List.forall_mem_append.mpr ⟨hclear, hreach.2⟩⟩
    · rw [if_neg hinner] at hreach
      obtain ⟨rfl, name, hname, rfl⟩ := hreach
      rw [definitionFor_fold, List.append_nil]
      exact ⟨isSome_definitionFor_names name hname, hclear⟩

/-- What is reached below a topmost recursive root by a planned one, is reached by a clear way from
the topmost. -/
theorem clear_of_planned {outer inner kept : ScanRoot} {path path' : ScanPath}
    (htopmost : IsTopmost fs roots outer) (houter : outer ∈ roots)
    (hancestor : isRecursiveAncestor fs outer inner.path = true) (hinner : Reaches fs inner path)
    (hkept : kept ∈ traversalRoots fs roots) (hreach : Reaches fs kept path')
    (hparts : fs.parts path' = fs.parts path) :
    ∀ name ∈ (fs.parts inner.path).drop (fs.parts outer.path).length, ignored name = false := by
  rw [isRecursiveAncestor_iff] at hancestor
  obtain ⟨hrecursive, mid, hmid⟩ := hancestor
  obtain ⟨-, -, way, last, hpath, -⟩ := hinner
  obtain ⟨hkeptDir, -, way', last', hpath', hway'⟩ := hreach
  rw [hparts] at hpath'
  rw [← hmid, List.drop_left]
  rw [← hmid, hpath', List.append_assoc] at hpath
  have hplan := isPlan_traversalRoots fs roots
  have hcandidate : outer ∈ roots.filter fun root ↦ fs.isDir root.path :=
    List.mem_filter.mpr ⟨houter, htopmost.1⟩
  have hkeptRoot : kept ∈ roots := (List.mem_filter.mp (hplan.candidate kept hkept)).1
  -- The ways end with one name, which the directories leave out.
  have hdirs : fs.parts kept.path ++ way' = fs.parts outer.path ++ (mid ++ way) := by
    simp only [← List.append_assoc] at hpath ⊢
    exact (List.append_inj' hpath rfl).1
  by_cases hkeptRecursive : kept.recursive = true
  · rw [if_pos hkeptRecursive] at hway'
    have hsame : fs.parts outer.path = fs.parts kept.path := by
      rcases Nat.le_total (fs.parts outer.path).length (fs.parts kept.path).length with hle | hle
      · exact hplan.topmost kept hkept outer hcandidate hrecursive
          (List.prefix_of_prefix_length_le (List.prefix_append _ (mid ++ way))
            (hdirs ▸ List.prefix_append _ way') hle)
      · have habove : isRecursiveAncestor fs kept outer.path = true :=
          isRecursiveAncestor_iff.mpr ⟨hkeptRecursive,
            List.prefix_of_prefix_length_le (List.prefix_append _ way')
              (hdirs ▸ List.prefix_append _ (mid ++ way)) hle⟩
        exact (FileSystem.key_inj.mp (htopmost.2 kept hkeptRoot hkeptDir habove)).symm
    rw [hsame] at hdirs
    have hways := List.append_cancel_left hdirs
    intro name hname
    exact hway'.2 name (hways ▸ List.mem_append_left _ hname)
  · rw [if_neg hkeptRecursive] at hway'
    obtain ⟨rfl, -⟩ := hway'
    rw [List.append_nil] at hdirs
    have hsame := hplan.topmost kept hkept outer hcandidate hrecursive
      (hdirs ▸ List.prefix_append _ _)
    rw [← hsame, List.self_eq_append_right, List.append_eq_nil_iff] at hdirs
    rw [hdirs.1]
    exact fun _ h ↦ nomatch h

theorem agents_ne_empty : "AGENTS.md" ≠ "" := by
  decide

theorem plain_agents : Plain "AGENTS.md" := by
  decide

/-- A project that holds the instructions of a package, in a directory of the given name. -/
def packageTree (parent : Name) : Tree :=
  .directory [(⟨"work", by decide, by decide⟩, .directory
    [(parent, .directory
      [(⟨"package", by decide, by decide⟩, .directory
        [(⟨"AGENTS.md", agents_ne_empty, plain_agents⟩, .file)])])])]

theorem namesApart_packageTree (parent : Name) : (packageTree parent).NamesApart false := by
  have hone : ∀ (name : Name) (tree : Tree), tree.NamesApart false →
      (Tree.directory [(name, tree)]).NamesApart false := fun name tree htree ↦
    .directory (List.nodup_singleton _) (by simpa using htree)
  exact hone _ _ (hone _ _ (hone _ _ (hone _ _ .file)))

/-- A platform whose one drive holds the project. -/
def packageSystem (parent : Name) : FileSystem where
  windows := false
  drives := [(⟨"", by decide⟩, packageTree parent)]
  apart := by simpa using namesApart_packageTree parent

/-- The project, and the package inside it. -/
def packageRoots (parent : Name) : List ScanRoot :=
  [⟨⟨⟨"", by decide⟩, [⟨"work", by decide, by decide⟩]⟩, "observed", true⟩,
    ⟨⟨⟨"", by decide⟩, [⟨"work", by decide, by decide⟩, parent,
      ⟨"package", by decide, by decide⟩]⟩, "configured", true⟩]

/-- The directory of the packages which a project installs. -/
def nodeModules : Name := ⟨"node_modules", by decide, by decide⟩

/-- The directory of a project's own packages. -/
def packages : Name := ⟨"packages", by decide, by decide⟩

/-- `ScanLimits::default`, `instructions.rs:148–156`. -/
def defaultLimits : ScanLimits := ⟨10000, 250000, 48⟩

theorem depthWithin_packageSystem {parent : Name} (h : (packageTree parent).within 4 = true) :
    DepthWithin (packageSystem parent) defaultLimits := by
  intro path hsome
  obtain ⟨tree, htree⟩ := Option.isSome_iff_exists.mp hsome
  obtain ⟨drive, hfind, hlookup⟩ := Option.bind_eq_some_iff.mp htree
  obtain rfl := List.mem_singleton.mp (List.mem_of_find?_eq_some hfind)
  have hlength := Tree.length_le_of_within h (Option.isSome_iff_exists.mpr ⟨tree, hlookup⟩)
  exact hlength.trans (by decide)

theorem belowLimits_nodeModules :
    BelowLimits (packageSystem nodeModules) defaultLimits (packageRoots nodeModules) where
  depth := depthWithin_packageSystem (by decide)
  entries := by decide +kernel
  files := by decide +kernel
  entriesAlone := by decide +kernel
  filesAlone := by decide +kernel

theorem belowLimits_packages :
    BelowLimits (packageSystem packages) defaultLimits (packageRoots packages) where
  depth := depthWithin_packageSystem (by decide)
  entries := by decide +kernel
  files := by decide +kernel
  entriesAlone := by decide +kernel
  filesAlone := by decide +kernel

end AgentOdometer.Instructions
