import AgentOdometer.Instructions.File
import AgentOdometer.Lib.SortedList
import Mathlib.Logic.Relation

/-!
# Parents of instruction files

`add_hierarchy` (`instructions.rs:736–773`): for each file the files which apply beside it, from
the global ones to the innermost, and its parent among them. The relation to parents is a forest
exactly when the directories of the files do not entangle.
-/

namespace AgentOdometer.Instructions

variable {κ : Type} (components : String → List κ) (windows : Bool)

/-! ### The loop -/

/-- The filters of the chain of a file, `instructions.rs:746–752`. -/
def inChain (candidate file : InstructionFile) : Bool :=
  candidate.fileName == file.fileName &&
    (candidate.isGlobal ||
      candidate.projectScope == file.projectScope &&
        isPathAncestor windows candidate.directory file.directory)

/-- The key by which a chain is sorted, `instructions.rs:754–760`. -/
def sortKey (candidate : InstructionFile) : Nat :=
  if candidate.isGlobal then 0 else (components candidate.directory).length + 1

/-- The files of a chain in the order of their keys, ties as they were listed. -/
def chainOf (snapshots : List InstructionFile) (file : InstructionFile) : List InstructionFile :=
  (snapshots.filter (inChain windows · file)).insertionSort fun a b ↦
    sortKey components a ≤ sortKey components b

/-- The body of the loop, `instructions.rs:745–770`. -/
def relate (snapshots : List InstructionFile) (file : InstructionFile) : InstructionFile :=
  let ancestors := chainOf components windows snapshots file
  { file with
    effectiveIds := ancestors.map InstructionFile.id
    parentId := (ancestors.reverse.find? fun candidate ↦
      candidate.id != file.id && !candidate.isGlobal).map InstructionFile.id }

/-- The loop from its `poll`-th turn, each of which asks whether the scan is still wanted. -/
def addHierarchyFrom (isCancelled : Nat → Bool) (snapshots : List InstructionFile) :
    Nat → List InstructionFile → Except String (List InstructionFile)
  | _, [] => .ok []
  | poll, file :: files => do
      if isCancelled poll then throw "instruction scan cancelled"
      let rest ← addHierarchyFrom isCancelled snapshots (poll + 1) files
      return relate components windows snapshots file :: rest

/-- `add_hierarchy`, `instructions.rs:736–773`. -/
def addHierarchy (isCancelled : Nat → Bool) (files : List InstructionFile) :
    Except String (List InstructionFile) :=
  addHierarchyFrom components windows isCancelled files 0 files

theorem addHierarchyFrom_eq_ok {isCancelled : Nat → Bool} (snapshots : List InstructionFile)
    {files : List InstructionFile} (poll : Nat)
    (hwanted : ∀ n, poll ≤ n → n < poll + files.length → isCancelled n = false) :
    addHierarchyFrom components windows isCancelled snapshots poll files =
      .ok (files.map (relate components windows snapshots)) := by
  induction files generalizing poll with
  | nil => rfl
  | cons file files ih =>
    rw [List.length_cons] at hwanted
    have hrest := ih (poll + 1) fun n hle hlt ↦ hwanted n (by omega) (by omega)
    rw [addHierarchyFrom, hwanted poll le_rfl (by omega), hrest]
    rfl

/-- A loop which is not cancelled relates every file to all of them. -/
theorem addHierarchy_eq_ok {isCancelled : Nat → Bool} {files : List InstructionFile}
    (hwanted : ∀ poll < files.length, isCancelled poll = false) :
    addHierarchy components windows isCancelled files =
      .ok (files.map (relate components windows files)) :=
  addHierarchyFrom_eq_ok components windows files 0 fun n _ hlt ↦ hwanted n (by omega)

/-! ### What the relation is for -/

/-- A file applies to another: it has its name, and is global or lies at or above its directory in
its project. -/
def Applies (candidate file : InstructionFile) : Prop :=
  candidate.fileName = file.fileName ∧
    (candidate.isGlobal = true ∨
      candidate.projectScope = file.projectScope ∧
        (normalizedPathKey windows candidate.directory = normalizedPathKey windows file.directory ∨
          IsAbove windows candidate.directory file.directory))

/-- A file of a project whose directory lies strictly above that of another file it applies to. -/
def AppliesFromAbove (candidate file : InstructionFile) : Prop :=
  Applies windows candidate file ∧ candidate.isGlobal = false ∧
    IsAbove windows candidate.directory file.directory

/-- A global file, or one whose directory lies strictly above that of another file of a project. -/
def Precedes (a b : InstructionFile) : Prop :=
  a.isGlobal = true ∨ b.isGlobal = false ∧ IsAbove windows a.directory b.directory

/-- An id has another for its parent. -/
def IsParent (files : List InstructionFile) (child parent : String) : Prop :=
  ∃ file ∈ files, file.id = child ∧ file.parentId = some parent

/-- The files form a forest along their parents, and know which of them apply. -/
structure IsForest (files : List InstructionFile) : Prop where
  acyclic : ∀ id, ¬ Relation.TransGen (IsParent files) id id
  parent : ∀ file ∈ files, ∀ id, file.parentId = some id → ∃ parent ∈ files, parent.id = id ∧
    parent.projectScope = file.projectScope ∧ AppliesFromAbove windows parent file ∧
      ∀ other ∈ files, AppliesFromAbove windows other file →
        other = parent ∨ IsAbove windows other.directory parent.directory
  orphan : ∀ file ∈ files, file.parentId = none →
    ∀ other ∈ files, ¬ AppliesFromAbove windows other file
  nodup : ∀ file ∈ files, file.effectiveIds.Nodup
  known : ∀ file ∈ files, ∀ id ∈ file.effectiveIds, ∃ other ∈ files, other.id = id
  effective : ∀ file ∈ files, ∀ other ∈ files,
    other.id ∈ file.effectiveIds ↔ Applies windows other file
  own : ∀ file ∈ files, file.id ∈ file.effectiveIds
  ordered : ∀ file ∈ files, file.effectiveIds.Pairwise fun i j ↦
    ∀ a ∈ files, ∀ b ∈ files, a.id = i → b.id = j → Precedes windows a b

/-- Of two files of a project which apply to one another's directories, the earlier listed first,
neither shares the directory of the other, and the one above has fewer components, or as many and
is listed first. -/
def Untangled (a b : InstructionFile) : Prop :=
  a.isGlobal = false → b.isGlobal = false → a.fileName = b.fileName →
    a.projectScope = b.projectScope →
      normalizedPathKey windows a.directory ≠ normalizedPathKey windows b.directory ∧
        (IsAbove windows a.directory b.directory →
          (components a.directory).length ≤ (components b.directory).length) ∧
        (IsAbove windows b.directory a.directory →
          (components b.directory).length < (components a.directory).length)

/-! ### Chains -/

section

variable {components windows} {files : List InstructionFile}

theorem inChain_iff {candidate file : InstructionFile} :
    inChain windows candidate file = true ↔ Applies windows candidate file := by
  simp only [inChain, Applies, Bool.and_eq_true, Bool.or_eq_true, beq_iff_eq, isPathAncestor_iff]

theorem mem_chainOf {candidate file : InstructionFile} :
    candidate ∈ chainOf components windows files file ↔
      candidate ∈ files ∧ Applies windows candidate file := by
  rw [chainOf, List.mem_insertionSort, List.mem_filter, inChain_iff]

theorem nodup_chainOf (hnodup : files.Nodup) (file : InstructionFile) :
    (chainOf components windows files file).Nodup :=
  (List.perm_insertionSort _ _).nodup_iff.mpr (hnodup.filter _)

theorem isGlobal_iff {file : InstructionFile} :
    file.isGlobal = true ↔ file.projectScope = none := by
  rw [InstructionFile.isGlobal, beq_iff_eq]
  exact file.global_iff

/-- Only global files apply to a global one. -/
theorem Applies.scope {candidate file : InstructionFile} (h : Applies windows candidate file)
    (hglobal : candidate.isGlobal = false) :
    file.isGlobal = false ∧ candidate.projectScope = file.projectScope := by
  obtain hcandidate | ⟨hscope, -⟩ := h.2
  · rw [hglobal] at hcandidate
    cases hcandidate
  · have hsome : ¬ candidate.projectScope = none := by
      rw [← isGlobal_iff, hglobal]
      exact Bool.false_ne_true
    rw [hscope, ← isGlobal_iff, Bool.not_eq_true] at hsome
    exact ⟨hsome, hscope⟩

theorem Applies.refl (file : InstructionFile) : Applies windows file file :=
  ⟨rfl, Or.inr ⟨rfl, Or.inl rfl⟩⟩

/-- The directory of a file of a project which applies is at or above that of the other. -/
theorem Applies.isPathAncestor {candidate file : InstructionFile}
    (h : Applies windows candidate file) (hglobal : candidate.isGlobal = false) :
    isPathAncestor windows candidate.directory file.directory = true := by
  obtain hcandidate | ⟨-, habove⟩ := h.2
  · rw [hglobal] at hcandidate
    cases hcandidate
  · exact isPathAncestor_iff.mpr habove

/-- Of two listed files of a project with one name, neither shares the directory of the other and
the one above has no more components. -/
theorem apart_of_untangled (huntangled : files.Pairwise (Untangled components windows))
    {a b : InstructionFile} (ha : a ∈ files) (hb : b ∈ files) (hne : a ≠ b)
    (hglobal : a.isGlobal = false) (hglobal' : b.isGlobal = false)
    (hname : a.fileName = b.fileName) (hscope : a.projectScope = b.projectScope) :
    normalizedPathKey windows a.directory ≠ normalizedPathKey windows b.directory ∧
      (IsAbove windows a.directory b.directory →
        (components a.directory).length ≤ (components b.directory).length) := by
  have hsymm : Std.Symm fun a b ↦ Untangled components windows a b ∨
      Untangled components windows b a := ⟨fun _ _ h ↦ h.symm⟩
  have hpair : files.Pairwise fun a b ↦ Untangled components windows a b ∨
      Untangled components windows b a := huntangled.imp fun h ↦ Or.inl h
  obtain h | h := hpair.forall ha hb hne
  · have hab := h hglobal hglobal' hname hscope
    exact ⟨hab.1, hab.2.1⟩
  · have hba := h hglobal' hglobal hname.symm hscope.symm
    exact ⟨hba.1.symm, fun habove ↦ (hba.2.2 habove).le⟩

theorem sortKey_le_iff {a b : InstructionFile} (ha : a.isGlobal = false)
    (hb : b.isGlobal = false) : sortKey components a ≤ sortKey components b ↔
      (components a.directory).length ≤ (components b.directory).length := by
  simp [sortKey, ha, hb]

/-- The sort by the coarse key puts the global files first, and the rest from the outermost
directory to the innermost. -/
theorem pairwise_chainOf (hnodup : files.Nodup)
    (huntangled : files.Pairwise (Untangled components windows)) (file : InstructionFile) :
    (chainOf components windows files file).Pairwise (Precedes windows) := by
  have htotal : Std.Total fun a b : InstructionFile ↦
      sortKey components a ≤ sortKey components b := ⟨fun _ _ ↦ Nat.le_total _ _⟩
  have htrans : IsTrans InstructionFile fun a b ↦ sortKey components a ≤ sortKey components b :=
    ⟨fun _ _ _ ↦ Nat.le_trans⟩
  have hapart : ∀ a ∈ files.filter (inChain windows · file),
      ∀ b ∈ files.filter (inChain windows · file), a ≠ b → a.isGlobal = false →
        b.isGlobal = false →
          (IsAbove windows a.directory b.directory ∨ IsAbove windows b.directory a.directory) ∧
          (IsAbove windows a.directory b.directory →
            (components a.directory).length ≤ (components b.directory).length) := by
    intro a ha b hb hne hglobal hglobal'
    rw [List.mem_filter, inChain_iff] at ha hb
    have hname := ha.2.1.trans hb.2.1.symm
    have hscope := (ha.2.scope hglobal).2.trans (hb.2.scope hglobal').2.symm
    have h := apart_of_untangled huntangled ha.1 hb.1 hne hglobal hglobal' hname hscope
    have hcomparable := comparable_of_isPathAncestor (ha.2.isPathAncestor hglobal)
      (hb.2.isPathAncestor hglobal')
    exact ⟨hcomparable.resolve_left h.1, h.2⟩
  refine SortedList.pairwise_insertionSort_of_ties (hnodup.filter _) ?_ ?_ ?_
  · intro a ha b hb hne
    cases hglobal : a.isGlobal with
    | true => exact Or.inl (Or.inl hglobal)
    | false =>
      cases hglobal' : b.isGlobal with
      | true => exact Or.inr (Or.inl hglobal')
      | false =>
        exact (hapart a ha b hb hne hglobal hglobal').1.imp (fun h ↦ Or.inr ⟨hglobal', h⟩)
          fun h ↦ Or.inr ⟨hglobal, h⟩
  · intro a ha b hb hlt
    cases hglobal : a.isGlobal with
    | true => simp [sortKey, hglobal]
    | false =>
      obtain h | ⟨hglobal', habove⟩ := hlt
      · rw [hglobal] at h
        cases h
      · rw [sortKey_le_iff hglobal hglobal']
        have hne : a ≠ b := fun h ↦ IsAbove.irrefl _ (h ▸ habove)
        exact (hapart a ha b hb hne hglobal hglobal').2 habove
  · intro a b hsub hle _
    cases hglobal : a.isGlobal with
    | true => exact Or.inl hglobal
    | false =>
      cases hglobal' : b.isGlobal with
      | true => simp [sortKey, hglobal, hglobal'] at hle
      | false =>
        rw [sortKey_le_iff hglobal hglobal'] at hle
        have ha : a ∈ files.filter (inChain windows · file) := hsub.subset (by simp)
        have hb : b ∈ files.filter (inChain windows · file) := hsub.subset (by simp)
        have hne : a ≠ b := by simpa using (hnodup.filter _).sublist hsub
        obtain habove | habove := (hapart a ha b hb hne hglobal hglobal').1
        · exact Or.inr ⟨hglobal', habove⟩
        -- A tie keeps the listed order, in which the file above comes first.
        · have huntangled' := List.pairwise_iff_forall_sublist.mp huntangled
            (hsub.trans List.filter_sublist)
          rw [List.mem_filter, inChain_iff] at ha hb
          have hlt := (huntangled' hglobal hglobal' (ha.2.1.trans hb.2.1.symm)
            ((ha.2.scope hglobal).2.trans (hb.2.scope hglobal').2.symm)).2.2 habove
          exact absurd hlt (Nat.not_lt.mpr hle)

/-! ### Parents -/

theorem eq_of_id_eq (hids : (files.map InstructionFile.id).Nodup) {a b : InstructionFile}
    (ha : a ∈ files) (hb : b ∈ files) (hid : a.id = b.id) : a = b :=
  List.inj_on_of_nodup_map hids ha hb hid

/-- The file a reversed chain is searched for is the innermost which applies from above. -/
theorem parent_of_find (hids : (files.map InstructionFile.id).Nodup)
    (huntangled : files.Pairwise (Untangled components windows)) {file parent : InstructionFile}
    (hfile : file ∈ files)
    (hfind : (chainOf components windows files file).reverse.find? (fun candidate ↦
      candidate.id != file.id && !candidate.isGlobal) = some parent) :
    parent ∈ files ∧ AppliesFromAbove windows parent file ∧
      ∀ other ∈ files, AppliesFromAbove windows other file →
        other = parent ∨ IsAbove windows other.directory parent.directory := by
  have hmem := List.mem_of_find?_eq_some hfind
  rw [List.mem_reverse, mem_chainOf] at hmem
  obtain ⟨hparent, above, below, hsplit, hskipped⟩ := List.find?_eq_some_iff_append.mp hfind
  rw [Bool.and_eq_true, bne_iff_ne, Bool.not_eq_true'] at hparent
  obtain ⟨hne, hglobal⟩ := hparent
  obtain ⟨hglobal', hscope⟩ := hmem.2.scope hglobal
  have hapart := apart_of_untangled huntangled hmem.1 hfile (fun h ↦ hne (h ▸ rfl)) hglobal hglobal'
    hmem.2.1 hscope
  have habove := (isPathAncestor_iff.mp (hmem.2.isPathAncestor hglobal)).resolve_left hapart.1
  refine ⟨hmem.1, ⟨hmem.2, hglobal, habove⟩, ?_⟩
  intro other hother happlies
  have hsorted := List.pairwise_reverse.mpr (pairwise_chainOf hids.of_map huntangled file)
  have hin : other ∈ (chainOf components windows files file).reverse :=
    List.mem_reverse.mpr (mem_chainOf.mpr ⟨hother, happlies.1⟩)
  rw [hsplit] at hin hsorted
  obtain hin | hin := List.mem_append.mp hin
  · have hskip := hskipped other hin
    rw [happlies.2.1, Bool.not_false, Bool.and_true, Bool.not_eq_true', bne_eq_false_iff_eq] at hskip
    rw [eq_of_id_eq hids hother hfile hskip] at happlies
    exact absurd happlies.2.2 (IsAbove.irrefl _)
  · obtain rfl | hin := List.mem_cons.mp hin
    · exact Or.inl rfl
    · obtain h | h := (List.pairwise_cons.mp (List.pairwise_append.mp hsorted).2.1).1 other hin
      · rw [happlies.2.1] at h
        cases h
      · exact Or.inr h.2

/-- A file for which the search finds nothing has none which applies from above. -/
theorem orphan_of_find (hids : (files.map InstructionFile.id).Nodup) {file : InstructionFile}
    (hfile : file ∈ files)
    (hfind : (chainOf components windows files file).reverse.find? (fun candidate ↦
      candidate.id != file.id && !candidate.isGlobal) = none) :
    ∀ other ∈ files, ¬ AppliesFromAbove windows other file := by
  intro other hother happlies
  have hskip := List.find?_eq_none.mp hfind other
    (List.mem_reverse.mpr (mem_chainOf.mpr ⟨hother, happlies.1⟩))
  rw [happlies.2.1, Bool.not_false, Bool.and_true, bne_iff_ne, not_not] at hskip
  rw [eq_of_id_eq hids hother hfile hskip] at happlies
  exact IsAbove.irrefl _ happlies.2.2

/-- Parents which lie strictly above their children close no cycle. -/
theorem acyclic_of_above (hids : (files.map InstructionFile.id).Nodup)
    (habove : ∀ file ∈ files, ∀ id, file.parentId = some id →
      ∃ parent ∈ files, parent.id = id ∧ IsAbove windows parent.directory file.directory)
    (id : String) : ¬ Relation.TransGen (IsParent files) id id := by
  have hclimb : ∀ child ancestor, Relation.TransGen (IsParent files) child ancestor →
      ∃ a ∈ files, ∃ b ∈ files, a.id = child ∧ b.id = ancestor ∧
        IsAbove windows b.directory a.directory := by
    intro child ancestor hpath
    induction hpath with
    | single hstep =>
      obtain ⟨a, ha, hchild, hparent⟩ := hstep
      obtain ⟨b, hb, hid, hab⟩ := habove a ha _ hparent
      exact ⟨a, ha, b, hb, hchild, hid, hab⟩
    | tail _ hstep ih =>
      obtain ⟨a, ha, b, hb, hchild, hid, hab⟩ := ih
      obtain ⟨b', hb', hid', hparent⟩ := hstep
      obtain ⟨c, hc, hid'', hbc⟩ := habove b' hb' _ hparent
      rw [eq_of_id_eq hids hb' hb (hid'.trans hid.symm)] at hbc
      exact ⟨a, ha, c, hc, hchild, hid'', hbc.trans hab⟩
  intro hcycle
  obtain ⟨a, ha, b, hb, hid, hid', hab⟩ := hclimb id id hcycle
  rw [eq_of_id_eq hids ha hb (hid.trans hid'.symm)] at hab
  exact IsAbove.irrefl _ hab

/-! ### Forests -/

theorem nodup_id_relate (hids : (files.map InstructionFile.id).Nodup) :
    ((files.map (relate components windows files)).map InstructionFile.id).Nodup := by
  rw [List.map_map]
  exact hids

/-- The files which do not tangle become a forest. -/
theorem isForest_of_untangled (hids : (files.map InstructionFile.id).Nodup)
    (huntangled : files.Pairwise (Untangled components windows)) :
    IsForest windows (files.map (relate components windows files)) := by
  have hparent : ∀ file ∈ files.map (relate components windows files), ∀ id,
      file.parentId = some id → ∃ parent ∈ files.map (relate components windows files),
        parent.id = id ∧ parent.projectScope = file.projectScope ∧
          AppliesFromAbove windows parent file ∧
            ∀ other ∈ files.map (relate components windows files),
              AppliesFromAbove windows other file →
                other = parent ∨ IsAbove windows other.directory parent.directory := by
    rw [List.forall_mem_map]
    intro file hfile id hid
    obtain ⟨parent, hfind, rfl⟩ := Option.map_eq_some_iff.mp hid
    obtain ⟨hmem, happlies, hinnermost⟩ := parent_of_find hids huntangled hfile hfind
    refine ⟨relate components windows files parent, List.mem_map_of_mem hmem, rfl,
      (happlies.1.scope happlies.2.1).2, happlies, ?_⟩
    rw [List.forall_mem_map]
    intro other hother hfromAbove
    exact (hinnermost other hother hfromAbove).imp
      (congrArg (relate components windows files)) fun h ↦ h
  have heffective : ∀ file ∈ files, ∀ other ∈ files,
      other.id ∈ (relate components windows files file).effectiveIds ↔
        Applies windows other file := by
    intro file hfile other hother
    constructor
    · intro hin
      obtain ⟨candidate, hcandidate, hid⟩ := List.mem_map.mp hin
      rw [mem_chainOf] at hcandidate
      rw [← eq_of_id_eq hids hcandidate.1 hother hid]
      exact hcandidate.2
    · intro happlies
      exact List.mem_map_of_mem (mem_chainOf.mpr ⟨hother, happlies⟩)
  have habove : ∀ file ∈ files.map (relate components windows files), ∀ id,
      file.parentId = some id → ∃ parent ∈ files.map (relate components windows files),
        parent.id = id ∧ IsAbove windows parent.directory file.directory := by
    intro file hfile id hid
    obtain ⟨parent, hmem, hid', -, happlies, -⟩ := hparent file hfile id hid
    exact ⟨parent, hmem, hid', happlies.2.2⟩
  refine
    { acyclic := acyclic_of_above (nodup_id_relate hids) habove
      parent := hparent
      orphan := ?_
      nodup := ?_
      known := ?_
      effective := ?_
      own := ?_
      ordered := ?_ }
  · rw [List.forall_mem_map]
    intro file hfile hnone
    rw [List.forall_mem_map]
    intro other hother happlies
    exact orphan_of_find hids hfile (Option.map_eq_none_iff.mp hnone) other hother happlies
  · rw [List.forall_mem_map]
    intro file _
    have hchain : (chainOf components windows files file).Nodup := nodup_chainOf hids.of_map file
    refine (List.nodup_map_iff_inj_on hchain).mpr fun a ha b hb hid ↦ ?_
    exact eq_of_id_eq hids (mem_chainOf.mp ha).1 (mem_chainOf.mp hb).1 hid
  · rw [List.forall_mem_map]
    intro file _ id hid
    obtain ⟨candidate, hcandidate, rfl⟩ := List.mem_map.mp hid
    exact ⟨relate components windows files candidate,
      List.mem_map_of_mem (mem_chainOf.mp hcandidate).1, rfl⟩
  · rw [List.forall_mem_map]
    intro file hfile
    rw [List.forall_mem_map]
    exact heffective file hfile
  · rw [List.forall_mem_map]
    intro file hfile
    exact (heffective file hfile file hfile).mpr (Applies.refl file)
  · rw [List.forall_mem_map]
    intro file _
    refine List.pairwise_map.mpr ((pairwise_chainOf hids.of_map huntangled file).imp_of_mem ?_)
    intro x y hx hy hprecedes
    rw [List.forall_mem_map]
    intro a ha
    rw [List.forall_mem_map]
    intro b hb hax hby
    rw [← eq_of_id_eq hids ha (mem_chainOf.mp hx).1 hax,
      ← eq_of_id_eq hids hb (mem_chainOf.mp hy).1 hby] at hprecedes
    exact hprecedes

/-- In a forest the chains are ordered. -/
theorem IsForest.pairwise_chainOf
    (hforest : IsForest windows (files.map (relate components windows files)))
    {file : InstructionFile} (hfile : file ∈ files) :
    (chainOf components windows files file).Pairwise (Precedes windows) := by
  have hordered := hforest.ordered _ (List.mem_map_of_mem hfile)
  refine (List.pairwise_map.mp hordered).imp_of_mem ?_
  intro x y hx hy hprecedes
  exact hprecedes (relate components windows files x) (List.mem_map_of_mem (mem_chainOf.mp hx).1)
    (relate components windows files y) (List.mem_map_of_mem (mem_chainOf.mp hy).1) rfl rfl

/-- Two files of one ordered chain stand in it with the one above first. -/
theorem pair_sublist_of_precedes {chain : List InstructionFile} {a b : InstructionFile}
    (hsorted : chain.Pairwise (Precedes windows)) (ha : a ∈ chain) (hb : b ∈ chain) (hne : a ≠ b)
    (hglobal : a.isGlobal = false) (hglobal' : b.isGlobal = false) :
    [a, b].Sublist chain ∧ IsAbove windows a.directory b.directory ∨
      [b, a].Sublist chain ∧ IsAbove windows b.directory a.directory := by
  obtain h | h := SortedList.pair_sublist_or ha hb hne
  · obtain hprecedes | hprecedes := List.pairwise_iff_forall_sublist.mp hsorted h
    · rw [hglobal] at hprecedes
      cases hprecedes
    · exact Or.inl ⟨h, hprecedes.2⟩
  · obtain hprecedes | hprecedes := List.pairwise_iff_forall_sublist.mp hsorted h
    · rw [hglobal'] at hprecedes
      cases hprecedes
    · exact Or.inr ⟨h, hprecedes.2⟩

/-- The files of a forest did not tangle. -/
theorem untangled_of_isForest (hids : (files.map InstructionFile.id).Nodup)
    (hforest : IsForest windows (files.map (relate components windows files))) :
    files.Pairwise (Untangled components windows) := by
  have htotal : Std.Total fun a b : InstructionFile ↦
      sortKey components a ≤ sortKey components b := ⟨fun _ _ ↦ Nat.le_total _ _⟩
  have htrans : IsTrans InstructionFile fun a b ↦ sortKey components a ≤ sortKey components b :=
    ⟨fun _ _ _ ↦ Nat.le_trans⟩
  rw [List.pairwise_iff_forall_sublist]
  intro a b hsub hglobal hglobal' hname hscope
  have ha : a ∈ files := hsub.subset (by simp)
  have hb : b ∈ files := hsub.subset (by simp)
  have hne : a ≠ b := by simpa using hids.of_map.sublist hsub
  have hown : ∀ file ∈ files, file ∈ chainOf components windows files file := fun file hfile ↦
    mem_chainOf.mpr ⟨hfile, Applies.refl file⟩
  have hkeys : ∀ file, (chainOf components windows files file).Pairwise fun a b ↦
      sortKey components a ≤ sortKey components b := fun file ↦ List.pairwise_insertionSort _ _
  refine ⟨?_, ?_, ?_⟩
  · intro hkey
    have hin : a ∈ chainOf components windows files b :=
      mem_chainOf.mpr ⟨ha, hname, Or.inr ⟨hscope, Or.inl hkey⟩⟩
    obtain ⟨-, habove⟩ | ⟨-, habove⟩ := pair_sublist_of_precedes (hforest.pairwise_chainOf hb) hin
      (hown b hb) hne hglobal hglobal'
    · exact absurd habove.length_lt (by rw [hkey]; exact Nat.lt_irrefl _)
    · exact absurd habove.length_lt (by rw [hkey]; exact Nat.lt_irrefl _)
  · intro habove
    have hin : a ∈ chainOf components windows files b :=
      mem_chainOf.mpr ⟨ha, hname, Or.inr ⟨hscope, Or.inr habove⟩⟩
    obtain ⟨hpair, -⟩ | ⟨-, hbelow⟩ := pair_sublist_of_precedes (hforest.pairwise_chainOf hb) hin
      (hown b hb) hne hglobal hglobal'
    · rw [← sortKey_le_iff hglobal hglobal']
      exact List.pairwise_iff_forall_sublist.mp (hkeys b) hpair
    · exact absurd hbelow habove.asymm
  · intro habove
    have hin : b ∈ chainOf components windows files a :=
      mem_chainOf.mpr ⟨hb, hname.symm, Or.inr ⟨hscope.symm, Or.inr habove⟩⟩
    obtain ⟨-, hbelow⟩ | ⟨hpair, -⟩ := pair_sublist_of_precedes (hforest.pairwise_chainOf ha)
      (hown a ha) hin hne hglobal hglobal'
    · exact absurd hbelow habove.asymm
    · -- Were the two keys one, the sort would have kept the listed order.
      by_contra hle
      rw [Nat.not_lt, ← sortKey_le_iff hglobal hglobal'] at hle
      have hfiltered : [a, b].Sublist (files.filter (inChain windows · a)) := by
        have happlies : inChain windows b a = true := inChain_iff.mpr (mem_chainOf.mp hin).2
        have hself : inChain windows a a = true := inChain_iff.mpr (Applies.refl a)
        simpa [hself, happlies] using hsub.filter (inChain windows · a)
      have hkept : [a, b].Sublist (chainOf components windows files a) :=
        List.pair_sublist_insertionSort hle hfiltered
      have hab := List.pairwise_iff_forall_sublist.mp (hforest.pairwise_chainOf ha) hkept
      obtain h | h := hab
      · rw [hglobal] at h
        cases h
      · exact habove.asymm h.2

end

/-- Files with distinct ids become a forest exactly when they do not tangle. -/
theorem addHierarchy_isForest {isCancelled : Nat → Bool} {files : List InstructionFile}
    (hids : (files.map InstructionFile.id).Nodup)
    (hwanted : ∀ poll < files.length, isCancelled poll = false) :
    ∃ related, addHierarchy components windows isCancelled files = .ok related ∧
      (IsForest windows related ↔ files.Pairwise (Untangled components windows)) :=
  ⟨_, addHierarchy_eq_ok components windows hwanted,
    fun hforest ↦ untangled_of_isForest hids hforest,
    fun huntangled ↦ isForest_of_untangled hids huntangled⟩

/-- The components of a path with slashes. -/
def slashComponents (path : String) : List (List Char) :=
  (path.toList.splitOn '/').filter fun part ↦ !part.isEmpty

/-- A file of a repository, listed under its root. -/
def repositoryFile (directory name : String) : Option InstructionFile :=
  inspectFile false (fun _ ↦ some "/repo") "/repo" "configured" directory name

/-- The instructions of a repository are above those of a directory in it. -/
theorem addHierarchy_isForest_nested :
    ∃ files, [repositoryFile "/repo" "AGENTS.md", repositoryFile "/repo/src" "agents.md"] =
      files.map some ∧
        ∃ related, addHierarchy slashComponents false (fun _ ↦ false) files = .ok related ∧
          IsForest false related ∧
            related.map InstructionFile.parentId = [none, files.head?.map InstructionFile.id] := by
  refine ⟨[_, _], rfl, Exists.imp (fun related h ↦ ⟨h.1, h.2.mpr (List.pairwise_pair.mpr ?_), ?_⟩)
    (addHierarchy_isForest slashComponents false (by decide +kernel) fun _ _ ↦ rfl)⟩
  · have hrelated := h.1
    rw [addHierarchy_eq_ok _ _ fun _ _ ↦ rfl] at hrelated
    cases hrelated
    decide +kernel
  · exact fun _ _ _ _ ↦ ⟨by decide +kernel, fun _ ↦ by decide +kernel, fun habove ↦
      absurd habove (by decide +kernel)⟩

/-- Two spellings of one name in a directory become each other's parents. -/
theorem not_isForest_twoSpellings :
    ∃ files, [repositoryFile "/repo" "AGENTS.md", repositoryFile "/repo" "agents.md"] =
      files.map some ∧ (files.map InstructionFile.id).Nodup ∧
        ∃ related, addHierarchy slashComponents false (fun _ ↦ false) files = .ok related ∧
          related.map InstructionFile.parentId =
            (files.map fun file ↦ some file.id).reverse ∧
          ¬ IsForest false related := by
  refine ⟨[_, _], rfl, by decide +kernel, _, addHierarchy_eq_ok _ _ fun _ _ ↦ rfl,
    by decide +kernel, fun hforest ↦ ?_⟩
  have huntangled := untangled_of_isForest (by decide +kernel) hforest
  exact ((List.pairwise_cons.mp huntangled).1 _ (List.mem_singleton_self _) rfl rfl rfl rfl).1 rfl

end AgentOdometer.Instructions
