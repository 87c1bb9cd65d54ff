import AgentOdometer.Instructions.File
import AgentOdometer.Lib.TerminatedWords

/-!
# Directory trees and their walks

Paths of names below a drive, whose keys (`paths.rs:44–56`) tell them apart and tell which lies
below
which, and trees without symbolic links with the walk over them that leaves out the directories of
generated and foreign files (`instructions.rs:620–671`).
-/

namespace AgentOdometer.Instructions

open TerminatedWords

/-- A text without the characters that separate the names of a path. -/
def Plain (text : String) : Prop :=
  ∀ c ∈ text.toList, c ≠ '/' ∧ c ≠ '\\'

instance (text : String) : Decidable (Plain text) :=
  decidable_of_iff (text.toList.all (fun c ↦ c != '/' && c != '\\') = true) (by simp [Plain])

/-- The name of an entry of a directory. -/
structure Name where
  text : String
  nonempty : text ≠ ""
  plain : Plain text
deriving DecidableEq

/-- What stands before the names of an absolute path: nothing, or the letter of a drive. -/
structure Drive where
  text : String
  plain : Plain text
deriving DecidableEq

/-- An absolute path. -/
structure ScanPath where
  drive : Drive
  names : List Name
deriving DecidableEq

namespace ScanPath

/-- A path below another. -/
def join (path : ScanPath) (names : List Name) : ScanPath :=
  { path with names := path.names ++ names }

/-- `Path::parent`. -/
def parent (path : ScanPath) : Option ScanPath :=
  if path.names = [] then none else some { path with names := path.names.dropLast }

/-- `Path::file_name`. -/
def fileName (path : ScanPath) : Option Name :=
  path.names.getLast?

variable (windows : Bool)

/-- The text of a path. -/
def text (path : ScanPath) : String :=
  let separator := if windows then '\\' else '/'
  String.ofList (path.drive.text.toList ++
    if path.names = [] then [separator] else path.names.flatMap (separator :: ·.text.toList))

/-- `path_depth`, `instructions.rs:1007–1009`: the drive of Windows and its root are two. -/
def depth (path : ScanPath) : Nat :=
  path.names.length + if windows then 2 else 1

end ScanPath

/-! ### Keys -/

variable (windows : Bool)

/-- What the platform compares of a name. -/
def fold (text : String) : String :=
  if windows then Text.asciiLowercase text else text

/-- The drive and the names of a path as the platform compares them. -/
def ScanPath.parts (path : ScanPath) : List String :=
  fold windows path.drive.text :: path.names.map fun name ↦ fold windows name.text

variable {windows}

theorem asciiLowercase_fold (text : String) :
    Text.asciiLowercase (fold windows text) = Text.asciiLowercase text := by
  unfold fold
  split
  · exact Text.asciiLowercase_asciiLowercase text
  · rfl

theorem slash_notMem_fold {text : String} (h : Plain text) :
    '/' ∉ (fold windows text).toList := by
  intro hin
  unfold fold at hin
  split at hin
  · rw [Text.asciiLowercase, String.toList_ofList, List.mem_map] at hin
    obtain ⟨c, hc, hlower⟩ := hin
    exact (h c hc).1 (Text.eq_slash_of_toLower hlower)
  · exact (h _ hin).1 rfl

theorem slash_notMem_parts {path : ScanPath} :
    ∀ word ∈ (path.parts windows).map String.toList, '/' ∉ word := by
  intro word hword
  obtain ⟨part, hpart, rfl⟩ := List.mem_map.mp hword
  rcases List.mem_cons.mp hpart with rfl | hpart
  · exact slash_notMem_fold path.drive.plain
  · obtain ⟨name, -, rfl⟩ := List.mem_map.mp hpart
    exact slash_notMem_fold name.plain

/-- A text which does not begin with two backslashes has no verbatim prefix. -/
theorem stripVerbatimPrefix_of_not_prefix {text : String} (h : ¬ ['\\', '\\'] <+: text.toList) :
    stripVerbatimPrefix text = text := by
  have hnone : ∀ pattern : String, ['\\', '\\'] <+: pattern.toList →
      Text.stripPrefix text pattern = none := by
    intro pattern hpattern
    rw [Text.stripPrefix, if_neg]
    rw [Text.startsWith, List.isPrefixOf_iff_prefix]
    exact fun hstarts ↦ h (hpattern.trans hstarts)
  rw [stripVerbatimPrefix, hnone _ (by decide), hnone _ (by decide)]

/-- The text of a path with slashes between its names. -/
def ScanPath.slashed (path : ScanPath) : List Char :=
  path.drive.text.toList ++ path.names.flatMap ('/' :: ·.text.toList)

theorem map_slash_of_plain {text : String} (h : Plain text) :
    (text.toList.map fun c ↦ if c = '\\' then '/' else c) = text.toList := by
  rw [List.map_congr_left fun c hc ↦ if_neg (h c hc).2, List.map_id']

theorem not_verbatim_text (path : ScanPath) :
    ¬ ['\\', '\\'] <+: (path.text windows).toList := by
  rw [ScanPath.text, String.toList_ofList]
  rcases hdrive : path.drive.text.toList with - | ⟨c, drive⟩
  · rw [List.nil_append]
    split
    · intro h
      have := h.length_le
      simp at this
    next hne =>
      rcases hnames : path.names with - | ⟨name, names⟩
      · exact absurd hnames hne
      · rcases htext : name.text.toList with - | ⟨d, rest⟩
        · exact absurd (String.toList_eq_nil_iff.mp htext) name.nonempty
        · rw [List.flatMap_cons, htext]
          intro h
          have hsecond := (List.cons_prefix_cons.mp (List.cons_prefix_cons.mp h).2).1
          exact (name.plain d (by rw [htext]; exact List.mem_cons_self)).2 hsecond.symm
  · intro h
    have hfirst := (List.cons_prefix_cons.mp h).1
    exact (path.drive.plain c (by rw [hdrive]; exact List.mem_cons_self)).2 hfirst.symm

/-- A list which does not end with a slash loses nothing to the trimming. -/
theorem dropWhile_slash_of_getLast? {text : List Char} (h : text.getLast? ≠ some '/') :
    (text.reverse.dropWhile (· == '/')).reverse = text := by
  rcases List.eq_nil_or_concat text with rfl | ⟨front, c, rfl⟩
  · rfl
  · rw [List.concat_eq_append, List.getLast?_append, List.getLast?_singleton] at h
    rw [List.concat_eq_append, List.reverse_append, List.reverse_singleton, List.singleton_append,
      List.dropWhile_cons_of_neg (by simpa using h), List.reverse_cons, List.reverse_reverse]

theorem getLast?_plain {text : String} (h : Plain text) : text.toList.getLast? ≠ some '/' :=
  fun hlast ↦ (h _ (List.mem_of_getLast? hlast)).1 rfl

theorem getLast?_slashed (path : ScanPath) : path.slashed.getLast? ≠ some '/' := by
  unfold ScanPath.slashed
  rcases List.eq_nil_or_concat path.names with hnames | ⟨front, name, hnames⟩
  · rw [hnames, List.flatMap_nil, List.append_nil]
    exact getLast?_plain path.drive.plain
  · rw [hnames, List.concat_eq_append, List.flatMap_append, List.flatMap_singleton,
      ← List.append_assoc, ← List.singleton_append, ← List.append_assoc]
    rw [List.getLast?_append]
    have hname := getLast?_plain name.plain
    rcases hlast : name.text.toList.getLast? with - | c
    · exact absurd (String.toList_eq_nil_iff.mp (List.getLast?_eq_none_iff.mp hlast)) name.nonempty
    · rw [hlast] at hname
      simpa using hname

theorem trimmed_text (path : ScanPath) :
    (((path.text windows).toList.map fun c ↦ if c = '\\' then '/' else c).reverse.dropWhile
      (· == '/')).reverse = path.slashed := by
  have hslash : (if (if windows = true then '\\' else '/') = '\\' then '/'
      else (if windows = true then '\\' else '/')) = '/' := by
    cases windows <;> decide
  rw [ScanPath.text, String.toList_ofList, List.map_append, map_slash_of_plain path.drive.plain]
  by_cases hnames : path.names = []
  · rw [if_pos hnames, List.map_singleton, hslash, List.reverse_append, List.reverse_singleton,
      List.singleton_append, List.dropWhile_cons_of_pos (by decide),
      dropWhile_slash_of_getLast? (getLast?_plain path.drive.plain), ScanPath.slashed, hnames]
    exact (List.append_nil _).symm
  · have hmap : (path.names.flatMap
        ((if windows = true then '\\' else '/') :: ·.text.toList)).map
          (fun c ↦ if c = '\\' then '/' else c) =
        path.names.flatMap ('/' :: ·.text.toList) := by
      rw [List.map_flatMap]
      refine congrArg (List.flatMap · path.names) (funext fun name ↦ ?_)
      rw [List.map_cons, hslash, map_slash_of_plain name.plain]
    rw [if_neg hnames, hmap]
    exact dropWhile_slash_of_getLast? (getLast?_slashed path)

/-- The key of a path, with a slash behind it, is its parts with a slash behind each. -/
theorem key_append_slash (path : ScanPath) :
    (normalizedPathKey windows (path.text windows)).toList ++ ['/'] =
      terminate '/' ((path.parts windows).map String.toList) := by
  have hkey : (normalizedPathKey windows (path.text windows)).toList =
      (fold windows path.drive.text).toList ++
        path.names.flatMap fun name ↦ '/' :: (fold windows name.text).toList := by
    rw [normalizedPathKey, stripVerbatimPrefix_of_not_prefix (not_verbatim_text path)]
    simp only [trimmed_text]
    cases windows with
    | false => simp [fold, ScanPath.slashed]
    | true =>
      simp [fold, ScanPath.slashed, Text.asciiLowercase, List.map_flatMap]
  rw [hkey, ScanPath.parts, List.map_cons, terminate_cons, List.append_assoc]
  congr 1
  induction path.names with
  | nil => rfl
  | cons name names ih =>
    rw [List.map_cons, List.map_cons, terminate_cons, ← ih, List.flatMap_cons, List.append_assoc]
    rfl

theorem toList_injective : Function.Injective String.toList := fun _ _ ↦ String.toList_inj.mp

/-- Two paths have one key exactly if they have the same parts. -/
theorem key_eq_iff {a b : ScanPath} :
    normalizedPathKey windows (a.text windows) = normalizedPathKey windows (b.text windows) ↔
      a.parts windows = b.parts windows := by
  rw [← (List.map_injective_iff.mpr toList_injective).eq_iff,
    ← terminate_inj slash_notMem_parts slash_notMem_parts, ← key_append_slash,
    ← key_append_slash, List.append_left_inj, String.toList_inj]

/-- A path lies at or above another exactly if its parts begin the other's. -/
theorem isPathAncestor_text_iff {a b : ScanPath} :
    isPathAncestor windows (a.text windows) (b.text windows) = true ↔
      a.parts windows <+: b.parts windows := by
  rw [isPathAncestor_iff, IsAbove, String.toList_append,
    ← List.prefix_map_iff_of_injective toList_injective,
    ← prefix_iff_of_append_eq slash_notMem_parts slash_notMem_parts (key_append_slash a)
      (key_append_slash b), String.toList_inj]
  exact Iff.rfl

/-! ### Trees -/

/-- What a directory holds, symbolic links left out. -/
inductive Tree where
  | directory (children : List (Name × Tree))
  | file
  | special

/-- `file_type().is_dir()`. -/
def Tree.isDir : Tree → Bool
  | directory _ => true
  | file => false
  | special => false

/-- `file_type().is_file()`. -/
def Tree.isFile : Tree → Bool
  | directory _ => false
  | file => true
  | special => false

/-- The names of the directories which a walk leaves out, `instructions.rs:649–666`. -/
def IGNORED_DIRECTORIES : List String :=
  [".git", ".hg", ".svn", ".next", ".svelte-kit", "node_modules", "target", "dist", "build", "out",
    "bin", "obj", "vendor", "coverage"]

/-- Whether a walk leaves out the directories of a name. -/
def ignored (name : String) : Bool :=
  IGNORED_DIRECTORIES.contains (Text.asciiLowercase name)

/-- `should_descend` below the root of a walk, `instructions.rs:644–667`. -/
def shouldDescend (entry : Name × Tree) : Bool :=
  !entry.2.isDir || !ignored entry.1.text

namespace Tree

variable (windows) in
/-- The entry at names below a tree, as the platform compares them. -/
def lookup : Tree → List Name → Option Tree
  | tree, [] => some tree
  | directory children, name :: names =>
      (children.find? fun child ↦ fold windows child.1.text == fold windows name.text).bind
        fun child ↦ child.2.lookup names
  | file, _ :: _ => none
  | special, _ :: _ => none

/-- The walk over a tree, down to a depth: the entries with their names below its root. -/
def walk : Nat → Tree → List (List Name × Tree)
  | depth + 1, directory children =>
      ([], directory children) :: (children.filter shouldDescend).flatMap fun child ↦
        (child.2.walk depth).map fun entry ↦ (child.1 :: entry.1, entry.2)
  | 0, directory children => [([], directory children)]
  | _, file => [([], file)]
  | _, special => [([], special)]

/-- The entry is in the tree under exactly these names. -/
def Holds : Tree → List Name → Tree → Prop
  | tree, [], entry => entry = tree
  | directory children, name :: names, entry =>
      ∃ child, (name, child) ∈ children ∧ child.Holds names entry
  | file, _ :: _, _ => False
  | special, _ :: _, _ => False

variable (windows) in
/-- No directory holds two names that the platform takes for one. -/
def NamesApart (tree : Tree) : Prop :=
  ∀ names children, tree.Holds names (directory children) →
    (children.map fun child ↦ fold windows child.1.text).Nodup

variable {tree entry : Tree} {names names' : List Name}

theorem lookup_append (tree : Tree) (names names' : List Name) :
    tree.lookup windows (names ++ names') =
      (tree.lookup windows names).bind (·.lookup windows names') := by
  induction names generalizing tree with
  | nil => rfl
  | cons name names ih =>
    cases tree with
    | directory children =>
      rw [List.cons_append, lookup, lookup]
      cases children.find? fun child ↦ fold windows child.1.text == fold windows name.text with
      | none => rfl
      | some child => exact ih child.2
    | file => rfl
    | special => rfl

/-- A lookup does not tell names apart which the platform takes for one. -/
theorem lookup_congr (h : names.map (fun name ↦ fold windows name.text) =
      names'.map fun name ↦ fold windows name.text) :
    tree.lookup windows names = tree.lookup windows names' := by
  induction names generalizing tree names' with
  | nil =>
    rw [List.map_nil, eq_comm, List.map_eq_nil_iff] at h
    rw [h]
  | cons name names ih =>
    rcases names' with - | ⟨name', names'⟩
    · cases h
    · rw [List.map_cons, List.map_cons, List.cons.injEq] at h
      cases tree with
      | directory children =>
        rw [lookup, lookup, h.1]
        exact congrArg _ (funext fun child ↦ ih h.2)
      | file => rfl
      | special => rfl

/-- No entry of the tree lies deeper than a number of names. -/
def within : Nat → Tree → Bool
  | 0, directory children => children.isEmpty
  | depth + 1, directory children => children.all fun child ↦ child.2.within depth
  | _, file => true
  | _, special => true

theorem length_le_of_within {depth : Nat} (h : tree.within depth = true)
    (hsome : (tree.lookup windows names).isSome = true) : names.length ≤ depth := by
  induction names generalizing tree depth with
  | nil => exact Nat.zero_le _
  | cons name names ih =>
    cases tree with
    | directory children =>
      rw [lookup] at hsome
      obtain ⟨entry, hentry⟩ := Option.isSome_iff_exists.mp hsome
      obtain ⟨child, hfind, hbelow⟩ := Option.bind_eq_some_iff.mp hentry
      have hchild := List.mem_of_find?_eq_some hfind
      rcases depth with - | depth
      · rw [within, List.isEmpty_iff] at h
        rw [h] at hchild
        cases hchild
      · rw [within, List.all_eq_true] at h
        exact Nat.succ_le_succ (ih (h child hchild) (by rw [hbelow]; rfl))
    | file => cases hsome
    | special => cases hsome

/-- What a lookup finds is in the tree, under names that the platform takes for the same. -/
theorem exists_holds_of_lookup (h : tree.lookup windows names = some entry) :
    ∃ held, tree.Holds held entry ∧ held.map (fun name ↦ fold windows name.text) =
      names.map fun name ↦ fold windows name.text := by
  induction names generalizing tree with
  | nil => exact ⟨[], (Option.some.inj h).symm, rfl⟩
  | cons name names ih =>
    cases tree with
    | directory children =>
      rw [lookup, Option.bind_eq_some_iff] at h
      obtain ⟨child, hfind, hlookup⟩ := h
      obtain ⟨held, hholds, hheld⟩ := ih hlookup
      have hname := List.find?_some hfind
      rw [beq_iff_eq] at hname
      refine ⟨child.1 :: held, ⟨child.2, List.mem_of_find?_eq_some hfind, hholds⟩, ?_⟩
      rw [List.map_cons, List.map_cons, hname, hheld]
    | file => cases h
    | special => cases h

theorem Holds.append (h : tree.Holds names entry) {below : Tree} (h' : entry.Holds names' below) :
    tree.Holds (names ++ names') below := by
  induction names generalizing tree with
  | nil =>
    obtain rfl : entry = tree := h
    exact h'
  | cons name names ih =>
    cases tree with
    | directory children =>
      obtain ⟨child, hchild, hholds⟩ := h
      exact ⟨child, hchild, ih hholds⟩
    | file => cases h
    | special => cases h

theorem NamesApart.child {children : List (Name × Tree)} {child : Name × Tree}
    (h : (directory children).NamesApart windows) (hchild : child ∈ children) :
    child.2.NamesApart windows := fun names grandchildren hholds ↦
  h (child.1 :: names) grandchildren ⟨child.2, hchild, hholds⟩

theorem NamesApart.directory {children : List (Name × Tree)}
    (h : (children.map fun child ↦ fold windows child.1.text).Nodup)
    (hchildren : ∀ child ∈ children, child.2.NamesApart windows) :
    (directory children).NamesApart windows := by
  intro names below hholds
  rcases names with - | ⟨name, names⟩
  · obtain rfl := Tree.directory.inj hholds
    exact h
  · obtain ⟨child, hchild, hbelow⟩ := hholds
    exact hchildren _ hchild names below hbelow

theorem NamesApart.file : file.NamesApart windows := by
  intro names below hholds
  rcases names with - | ⟨name, names⟩
  · cases hholds
  · cases hholds

/-- The first entry of a name is the only one. -/
theorem find?_eq_of_mem {children : List (Name × Tree)} {child : Name × Tree}
    (h : (children.map fun child ↦ fold windows child.1.text).Nodup) (hchild : child ∈ children) :
    children.find? (fun other ↦ fold windows other.1.text == fold windows child.1.text) =
      some child := by
  induction children with
  | nil => cases hchild
  | cons first children ih =>
    rw [List.map_cons, List.nodup_cons] at h
    rcases List.mem_cons.mp hchild with rfl | hrest
    · exact List.find?_cons_of_pos (beq_self_eq_true _)
    · have hne : fold windows first.1.text ≠ fold windows child.1.text := fun heq ↦
        h.1 (heq ▸ List.mem_map_of_mem hrest)
      rw [List.find?_cons_of_neg (by simpa using hne)]
      exact ih h.2 hrest

theorem lookup_of_holds (hapart : tree.NamesApart windows) (h : tree.Holds names entry) :
    tree.lookup windows names = some entry := by
  induction names generalizing tree with
  | nil => exact congrArg some (Eq.symm h)
  | cons name names ih =>
    cases tree with
    | directory children =>
      obtain ⟨child, hchild, hholds⟩ := h
      rw [lookup, find?_eq_of_mem (hapart [] children rfl) hchild]
      exact ih (hapart.child hchild) hholds
    | file => cases h
    | special => cases h

theorem nil_mem_walk {depth : Nat} : ([], entry) ∈ tree.walk depth ↔ entry = tree := by
  cases tree with
  | directory children => cases depth <;> simp [walk]
  | file => cases depth <;> simp [walk]
  | special => cases depth <;> simp [walk]

theorem cons_mem_walk {name : Name} {depth : Nat} :
    (name :: names, entry) ∈ tree.walk depth ↔
      ∃ below children child, depth = below + 1 ∧ tree = directory children ∧
        (name, child) ∈ children ∧ shouldDescend (name, child) = true ∧
          (names, entry) ∈ child.walk below := by
  cases tree with
  | directory children =>
    rcases depth with - | depth
    · simp [walk]
    · simp only [walk, List.mem_cons, Prod.mk.injEq, reduceCtorEq, false_and, false_or,
        List.mem_flatMap, List.mem_filter, List.mem_map, List.cons.injEq]
      constructor
      · rintro ⟨⟨childName, child⟩, ⟨hchild, hdescend⟩, ⟨below, found⟩, hbelow, ⟨rfl, rfl⟩, rfl⟩
        exact ⟨depth, children, child, rfl, rfl, hchild, hdescend, hbelow⟩
      · rintro ⟨below, _, child, hdepth, htree, hchild, hdescend, hbelow⟩
        obtain rfl := Nat.succ.inj hdepth
        obtain rfl := Tree.directory.inj htree
        exact ⟨(name, child), ⟨hchild, hdescend⟩, (names, entry), hbelow, ⟨rfl, rfl⟩, rfl⟩
  | file => cases depth <;> simp [walk]
  | special => cases depth <;> simp [walk]

theorem shouldDescend_iff {name : Name} : shouldDescend (name, tree) = true ↔
    (tree.isDir = true → ignored name.text = false) := by
  unfold shouldDescend
  cases tree.isDir <;> simp

/-- A walk comes to an entry exactly if no directory on the way to it is left out. -/
theorem mem_walk {depth : Nat} : (names, entry) ∈ tree.walk depth ↔
    tree.Holds names entry ∧ names.length ≤ depth ∧
      (∀ name ∈ names.dropLast, ignored name.text = false) ∧
      ∀ name ∈ names.getLast?, entry.isDir = true → ignored name.text = false := by
  induction names generalizing tree depth with
  | nil => rw [nil_mem_walk]; simp [Holds]
  | cons name names ih =>
    rw [cons_mem_walk]
    constructor
    · rintro ⟨below, children, child, rfl, rfl, hchild, hdescend, hbelow⟩
      obtain ⟨hholds, hlength, hway, hlast⟩ := ih.mp hbelow
      rw [shouldDescend_iff] at hdescend
      refine ⟨⟨child, hchild, hholds⟩, Nat.succ_le_succ hlength, ?_⟩
      rcases names with - | ⟨next, names⟩
      · obtain rfl : entry = child := hholds
        simpa using hdescend
      · -- A tree with an entry below it is a directory.
        have hdir : child.isDir = true := by
          cases child with
          | directory => rfl
          | file => cases hholds
          | special => cases hholds
        rw [List.dropLast_cons_cons, List.forall_mem_cons, List.getLast?_cons_cons]
        exact ⟨⟨hdescend hdir, hway⟩, hlast⟩
    · rintro ⟨hholds, hlength, hway, hlast⟩
      cases tree with
      | directory children =>
        obtain ⟨child, hchild, hholds⟩ := hholds
        obtain ⟨below, rfl⟩ := Nat.exists_eq_add_of_le' (Nat.one_le_of_lt hlength)
        rw [List.length_cons, Nat.add_le_add_iff_right] at hlength
        refine ⟨below, children, child, rfl, rfl, hchild, ?_, ih.mpr ⟨hholds, hlength, ?_⟩⟩
        · rw [shouldDescend_iff]
          rcases names with - | ⟨next, names⟩
          · obtain rfl : entry = child := hholds
            exact hlast name rfl
          · intro _
            exact hway name (by rw [List.dropLast_cons_cons]; exact List.mem_cons_self)
        · rcases names with - | ⟨next, names⟩
          · simp
          · rw [List.dropLast_cons_cons, List.forall_mem_cons] at hway
            rw [List.getLast?_cons_cons] at hlast
            exact ⟨hway.2, hlast⟩
      | file => cases hholds
      | special => cases hholds

end Tree

end AgentOdometer.Instructions
