import AgentOdometer.Config.Discovery

/-!
# What a merge of a discovery reports

One path at a time: what the merge leaves in the snapshot and what it emits, and the exact
condition under which it reports no change which did not happen.
-/

namespace AgentOdometer.Config

open Std (ExtTreeMap ExtTreeSet)

variable {observed latest : SnapshotState} {found : Discovered} {roots : List ConfigRoot}
  {fs : FileSystem} {key : String}

/-! ### The scan -/

/-- Every scanned file was found by a root of the list which tracks its path. -/
def Discovered.Attributed (found : Discovered) (roots : List ConfigRoot) : Prop :=
  ∀ key : String, (found.snapshot[key]?.isSome ↔ found.rootByKey[key]?.isSome) ∧
    ∀ root ∈ found.rootByKey[key]?, root ∈ roots ∧ isSafeConfigPath root key = true

theorem attributed_discoverFile {root : ConfigRoot} {path : String}
    (h : found.Attributed roots) (hroot : root ∈ roots)
    (hsafe : isSafeConfigPath root path = true) :
    (discoverFile fs root found path).Attributed roots := by
  unfold discoverFile
  split
  · exact h
  · intro key
    simp only [ExtTreeMap.getElem?_insert, Std.compare_eq_iff_eq]
    by_cases hkey : path = key
    · subst hkey
      simp [hroot, hsafe]
    · simp only [if_neg hkey]
      exact h key

theorem attributed_discoverRoot {root : ConfigRoot} (h : found.Attributed roots)
    (hroot : root ∈ roots) : (discoverRoot fs found root).Attributed roots := by
  unfold discoverRoot
  split
  · have hsafe : ∀ path ∈ (candidates fs root).filter (isSafeConfigPath root),
        isSafeConfigPath root path = true := fun path hmem ↦ (List.mem_filter.mp hmem).2
    generalize (candidates fs root).filter (isSafeConfigPath root) = paths at hsafe
    induction paths generalizing found with
    | nil => exact h
    | cons path paths ih =>
      rw [List.forall_mem_cons] at hsafe
      exact ih (attributed_discoverFile h hroot hsafe.1) hsafe.2
  · exact h

theorem attributed_discoverSnapshot (fs : FileSystem) (roots : List ConfigRoot) :
    (discoverSnapshot fs roots).Attributed roots := by
  have hrun : ∀ (rest : List ConfigRoot) (found : Discovered), (∀ root ∈ rest, root ∈ roots) →
      found.Attributed roots → (rest.foldl (discoverRoot fs) found).Attributed roots := by
    intro rest
    induction rest with
    | nil => exact fun _ _ h ↦ h
    | cons root rest ih =>
      intro found hsub h
      rw [List.forall_mem_cons] at hsub
      exact ih _ hsub.2 (attributed_discoverRoot h hsub.1)
  refine hrun roots ⟨∅, ∅⟩ (fun _ h ↦ h) fun key ↦ ⟨by simp, by simp⟩

/-- A scanned path has a first root. -/
theorem Discovered.Attributed.trackedRoot_isSome (h : found.Attributed roots)
    (hkey : found.rootByKey[key]?.isSome) : (trackedRootForPath key roots).isSome := by
  obtain ⟨root, hroot⟩ := Option.isSome_iff_exists.mp hkey
  obtain ⟨hmem, hsafe⟩ := (h key).2 root hroot
  rw [trackedRootForPath, List.find?_isSome]
  exact ⟨root, hmem, hsafe⟩

/-! ### The differences -/

section Difference

variable {previous current : Snapshot} {old new : Option SnapshotValue}

theorem mem_snapshotDiff : (key, old, new) ∈ snapshotDiff previous current ↔
    old = previous[key]? ∧ new = current[key]? ∧ previous[key]? ≠ current[key]? := by
  have hkeys : key ∈ (ExtTreeSet.ofList (previous.keys ++ current.keys)).toList ↔
      key ∈ previous ∨ key ∈ current := by
    rw [ExtTreeSet.mem_toList, ExtTreeSet.mem_ofList, List.contains_iff_mem, List.mem_append,
      ExtTreeMap.mem_keys, ExtTreeMap.mem_keys]
  rw [snapshotDiff, List.mem_filterMap]
  constructor
  · rintro ⟨other, -, hother⟩
    split at hother
    · cases hother
    · rename_i hne
      cases hother
      exact ⟨rfl, rfl, hne⟩
  · rintro ⟨rfl, rfl, hne⟩
    refine ⟨key, hkeys.mpr ?_, if_neg hne⟩
    by_contra hnone
    rw [not_or, ExtTreeMap.mem_iff_isSome_getElem?, ExtTreeMap.mem_iff_isSome_getElem?,
      Option.not_isSome_iff_eq_none, Option.not_isSome_iff_eq_none] at hnone
    exact hne (hnone.1.trans hnone.2.symm)

theorem nodup_snapshotDiff : ((snapshotDiff previous current).map Prod.fst).Nodup := by
  have hnodup : (ExtTreeSet.ofList (previous.keys ++ current.keys)).toList.Nodup := by
    apply ExtTreeSet.distinct_toList.imp
    rintro a b hne rfl
    exact hne Std.ReflCmp.compare_self
  refine hnodup.sublist ?_
  unfold snapshotDiff
  generalize (ExtTreeSet.ofList (previous.keys ++ current.keys)).toList = keys
  induction keys with
  | nil => exact List.Sublist.slnil
  | cons first keys ih =>
    rw [List.filterMap_cons]
    split
    · exact ih.cons first
    · rename_i change hchange
      split at hchange
      · cases hchange
      · cases hchange
        exact ih.cons_cons first

end Difference

/-! ### One path of the merge -/

/-- The first root of a path was tracked when the scan began. -/
def firstTracked (observed : SnapshotState) (roots : List ConfigRoot) (key : String) : Bool :=
  isTracked observed (trackedRootForPath key roots)

/-- The root which found a path last was tracked when the scan began. -/
def lastTracked (observed : SnapshotState) (found : Discovered) (key : String) : Bool :=
  isTracked observed found.rootByKey[key]?

/-- The observed value of a path, as far as it is compared. -/
def observedSide (observed : SnapshotState) (roots : List ConfigRoot) (key : String) :
    Option SnapshotValue :=
  if firstTracked observed roots key then observed.entries[key]? else none

/-- The scanned value of a path, as far as it is compared. -/
def scannedSide (observed : SnapshotState) (found : Discovered) (key : String) :
    Option SnapshotValue :=
  if lastTracked observed found key then found.snapshot[key]? else none

theorem getElem?_observedEntries :
    (observedEntries observed roots)[key]? = observedSide observed roots key := by
  rw [observedEntries, ExtTreeMap.getElem?_filter', observedSide, firstTracked]
  cases isTracked observed (trackedRootForPath key roots) <;>
    cases observed.entries[key]? <;> simp

theorem getElem?_currentEntries :
    (currentEntries observed found)[key]? = scannedSide observed found key := by
  rw [currentEntries, ExtTreeMap.getElem?_filter', scannedSide, lastTracked]
  cases isTracked observed found.rootByKey[key]? <;> cases found.snapshot[key]? <;> simp

theorem getElem?_setEntry {entries : Snapshot} {other : String} {value : Option SnapshotValue} :
    (setEntry entries other value)[key]? = if other = key then value else entries[key]? := by
  cases value <;>
    simp [setEntry, ExtTreeMap.getElem?_insert, ExtTreeMap.getElem?_erase]

/-- What a path can see of the merge: its entry and its changes. -/
def Merge.view (key : String) (s : Merge) : Option SnapshotValue × List SnapshotChange :=
  (s.entries[key]?, s.emitted.filter (·.path == key))

theorem observed_mergeDifference_of_ne (s : Merge) (difference : SnapshotDifference)
    (hne : difference.1 ≠ key) :
    (mergeDifference found roots s difference).view key = s.view key := by
  obtain ⟨other, old, new⟩ := difference
  unfold mergeDifference
  simp only
  split
  · rfl
  split
  · rfl
  · have hother : other ≠ key := hne
    simp [Merge.view, getElem?_setEntry, hother]

/-- The change of a path, when there is one and the latest entry is the observed one. -/
theorem observed_mergeDifference (s : Merge) {old new : Option SnapshotValue} {root : ConfigRoot}
    (hroot : found.rootByKey[key]?.or (trackedRootForPath key roots) = some root) :
    (mergeDifference found roots s (key, old, new)).view key =
      if s.entries[key]? = old then (new, (s.view key).2 ++ [⟨key, root, old, new⟩])
      else s.view key := by
  unfold mergeDifference
  simp only [hroot]
  by_cases hold : s.entries[key]? = old
  · rw [if_neg (not_not.mpr hold), if_pos hold]
    simp [Merge.view, getElem?_setEntry]
  · rw [if_pos hold, if_neg hold]

theorem mergeDifference_local (s t : Merge) (difference : SnapshotDifference)
    (hkey : difference.1 = key) (h : s.view key = t.view key) :
    (mergeDifference found roots s difference).view key =
      (mergeDifference found roots t difference).view key := by
  obtain ⟨other, old, new⟩ := difference
  cases hkey
  have hentry : s.entries[other]? = t.entries[other]? := congrArg Prod.fst h
  cases hroot : found.rootByKey[other]?.or (trackedRootForPath other roots) with
  | none =>
    simp only [mergeDifference, hroot]
    split <;> split <;> exact h
  | some root =>
    rw [observed_mergeDifference s hroot, observed_mergeDifference t hroot, hentry, h]

variable (observed latest found roots) in
/-- The differences of a scan leave at a path the scanned side, where the two sides differ and
nothing changed meanwhile, and then report it. -/
theorem view_differences (key : String) :
    ∃ root, ((snapshotDiff (observedEntries observed roots) (currentEntries observed found)).foldl
        (mergeDifference found roots) ⟨latest.entries, []⟩).view key =
      if observedSide observed roots key ≠ scannedSide observed found key ∧
          latest.entries[key]? = observedSide observed roots key then
        (scannedSide observed found key, [⟨key, root, observedSide observed roots key,
          scannedSide observed found key⟩])
      else (latest.entries[key]?, []) := by
  by_cases hdiff : observedSide observed roots key ≠ scannedSide observed found key
  · have hmem : (key, observedSide observed roots key, scannedSide observed found key) ∈
        snapshotDiff (observedEntries observed roots) (currentEntries observed found) := by
      rw [mem_snapshotDiff, getElem?_observedEntries, getElem?_currentEntries]
      exact ⟨rfl, rfl, hdiff⟩
    have hroot : (found.rootByKey[key]?.or (trackedRootForPath key roots)).isSome := by
      rw [Option.isSome_or, Bool.or_eq_true]
      by_contra hnone
      rw [not_or, Bool.not_eq_true, Bool.not_eq_true, Option.isSome_eq_false_iff,
        Option.isSome_eq_false_iff, Option.isNone_iff_eq_none, Option.isNone_iff_eq_none] at hnone
      apply hdiff
      simp [observedSide, scannedSide, firstTracked, lastTracked, isTracked, hnone.1, hnone.2]
    obtain ⟨root, hroot⟩ := Option.isSome_iff_exists.mp hroot
    refine ⟨root, ?_⟩
    rw [KeyedFold.foldl_unique observed_mergeDifference_of_ne mergeDifference_local
      nodup_snapshotDiff hmem rfl, observed_mergeDifference _ hroot]
    by_cases hlatest : latest.entries[key]? = observedSide observed roots key
    · rw [if_pos hlatest, if_pos ⟨hdiff, hlatest⟩]
      rfl
    · rw [if_neg hlatest, if_neg fun hboth ↦ hlatest hboth.2]
      rfl
  · refine ⟨⟨"", "", none, [], false, false, false⟩, ?_⟩
    rw [if_neg fun hboth ↦ hdiff hboth.1]
    refine KeyedFold.foldl_frame observed_mergeDifference_of_ne _ ⟨latest.entries, []⟩ ?_
    rintro ⟨other, old, new⟩ hmem rfl
    rw [mem_snapshotDiff, getElem?_observedEntries, getElem?_currentEntries] at hmem
    exact hdiff hmem.2.2

/-- The baseline of new roots leaves at a path the scanned value, where nothing changed
meanwhile. -/
theorem getElem?_baseline (h : found.Attributed roots) (entries : Snapshot) (key : String) :
    (found.snapshot.toList.foldl (mergeBaseline observed found) entries)[key]? =
      if found.snapshot[key]?.isSome ∧ lastTracked observed found key = false ∧
          entries[key]? = observed.entries[key]? then found.snapshot[key]?
      else entries[key]? := by
  have hstep : ∀ (entries : Snapshot) (file : String × SnapshotValue),
      (mergeBaseline observed found entries file)[key]? =
        if file.1 = key ∧ found.rootByKey[key]?.isSome ∧
            lastTracked observed found key = false ∧
              entries[key]? = observed.entries[key]? then some file.2
        else entries[key]? := by
    rintro entries ⟨other, value⟩
    by_cases hkey : other = key
    · subst hkey
      unfold mergeBaseline lastTracked isTracked
      cases found.rootByKey[other]? with
      | none => simp
      | some root =>
        by_cases hroots : rootIdentity root ∈ observed.roots <;>
          by_cases hentry : entries[other]? = observed.entries[other]? <;>
          simp [hroots, hentry, Bool.eq_false_iff]
    · rw [if_neg fun hall ↦ hkey hall.1]
      unfold mergeBaseline
      split
      · rfl
      split
      · rfl
      split
      · simp [ExtTreeMap.getElem?_insert, hkey]
      · rfl
  have hframe : ∀ (entries : Snapshot) (file : String × SnapshotValue), file.1 ≠ key →
      (mergeBaseline observed found entries file)[key]? = entries[key]? := by
    intro entries file hne
    rw [hstep, if_neg fun hall ↦ hne hall.1]
  have hlocal : ∀ (s t : Snapshot) (file : String × SnapshotValue), file.1 = key →
      s[key]? = t[key]? → (mergeBaseline observed found s file)[key]? =
        (mergeBaseline observed found t file)[key]? := by
    intro s t file _ heq
    rw [hstep, hstep, heq]
  rw [KeyedFold.foldl_toList hframe hlocal]
  cases hvalue : found.snapshot[key]? with
  | none => simp
  | some value =>
    have hroot : found.rootByKey[key]?.isSome := (h key).1.mp (by rw [hvalue]; rfl)
    simp [hstep, hroot]

/-! ### The report of a merge -/

/-- The differences report a path: the two sides differ and the latest entry is the observed
one. -/
def Reports (observed latest : SnapshotState) (found : Discovered) (roots : List ConfigRoot)
    (key : String) : Prop :=
  observedSide observed roots key ≠ scannedSide observed found key ∧
    latest.entries[key]? = observedSide observed roots key

/-- The emitted changes of a path. -/
theorem mem_emitted {change : SnapshotChange} :
    change ∈ (mergeDiscovery observed latest found roots).2 →
      Reports observed latest found roots change.path ∧
        change.new = scannedSide observed found change.path := by
  intro hmem
  obtain ⟨root, hview⟩ := view_differences observed latest found roots change.path
  have hfilter : change ∈ (Merge.view change.path
      ((snapshotDiff (observedEntries observed roots) (currentEntries observed found)).foldl
        (mergeDifference found roots) ⟨latest.entries, []⟩)).2 :=
    List.mem_filter.mpr ⟨hmem, beq_self_eq_true _⟩
  rw [hview] at hfilter
  split at hfilter
  · rename_i hreports
    rw [List.mem_singleton] at hfilter
    exact ⟨hreports, congrArg SnapshotChange.new hfilter⟩
  · cases hfilter

theorem exists_emitted (h : Reports observed latest found roots key) :
    ∃ change ∈ (mergeDiscovery observed latest found roots).2,
      change.path = key ∧ change.new = scannedSide observed found key := by
  obtain ⟨root, hview⟩ := view_differences observed latest found roots key
  have hboth : observedSide observed roots key ≠ scannedSide observed found key ∧
      latest.entries[key]? = observedSide observed roots key := h
  rw [if_pos hboth] at hview
  have hmem : (⟨key, root, observedSide observed roots key, scannedSide observed found key⟩ :
      SnapshotChange) ∈ (Merge.view key
        ((snapshotDiff (observedEntries observed roots) (currentEntries observed found)).foldl
          (mergeDifference found roots) ⟨latest.entries, []⟩)).2 := by
    rw [hview]
    exact List.mem_cons_self
  exact ⟨_, (List.mem_filter.mp hmem).1, rfl, rfl⟩

open Classical in
/-- The entry of a path after the merge. -/
theorem getElem?_mergeDiscovery (h : found.Attributed roots) (key : String) :
    (mergeDiscovery observed latest found roots).1.entries[key]? =
      let middle := if Reports observed latest found roots key
        then scannedSide observed found key else latest.entries[key]?
      if found.snapshot[key]?.isSome ∧ lastTracked observed found key = false ∧
          middle = observed.entries[key]? then found.snapshot[key]? else middle := by
  obtain ⟨root, hview⟩ := view_differences observed latest found roots key
  have hentry := congrArg Prod.fst hview
  have hmiddle : ((snapshotDiff (observedEntries observed roots)
      (currentEntries observed found)).foldl (mergeDifference found roots)
        ⟨latest.entries, []⟩).entries[key]? =
      if Reports observed latest found roots key then scannedSide observed found key
      else latest.entries[key]? := by
    refine hentry.trans ?_
    unfold Reports
    split <;> rfl
  show (found.snapshot.toList.foldl (mergeBaseline observed found) _)[key]? = _
  rw [getElem?_baseline h, hmiddle]

/-! ### The watchers -/

/-- A watcher recorded a value of a path. -/
def Recorded (roots : List ConfigRoot) (key : String) : SnapshotState → List WatcherUpdate → Prop
  | _, [] => False
  | state, update :: updates =>
      (update.path = key ∧ (trackedRootForPath key roots).isSome ∧
          state.entries[key]? ≠ update.current) ∨
        Recorded roots key (watch roots state update) updates

/-- A path of which no watcher recorded anything keeps its observed entry. -/
theorem getElem?_afterWatchers {updates : List WatcherUpdate}
    (h : ¬Recorded roots key observed updates) :
    (afterWatchers roots observed updates).entries[key]? = observed.entries[key]? := by
  induction updates generalizing observed with
  | nil => rfl
  | cons update updates ih =>
    rw [Recorded, not_or] at h
    refine (ih h.2).trans ?_
    unfold watch recordChange
    cases hroot : trackedRootForPath update.path roots with
    | none => rfl
    | some root =>
      simp only
      split
      · rename_i heffect
        rw [getElem?_setEntry]
        split
        · rename_i hkey
          subst hkey
          exact absurd ⟨rfl, by rw [hroot]; rfl, heffect.2⟩ h.1
        · rfl
      · rfl

theorem roots_afterWatchers (updates : List WatcherUpdate) :
    (afterWatchers roots observed updates).roots = observed.roots := by
  induction updates generalizing observed with
  | nil => rfl
  | cons update updates ih =>
    refine ih.trans ?_
    unfold watch recordChange
    split
    · rfl
    · split <;> rfl

/-! ### What is promised -/

/-- What the merge of a scan promises: the emitted changes happened, and the entries are the
latest known ones. -/
structure Honest (observed latest : SnapshotState) (found : Discovered) (roots : List ConfigRoot)
    (recorded : String → Prop) : Prop where
  changed : ∀ change ∈ (mergeDiscovery observed latest found roots).2,
    found.snapshot[change.path]? ≠ observed.entries[change.path]?
  removed : ∀ change ∈ (mergeDiscovery observed latest found roots).2,
    change.new = none → found.snapshot[change.path]? = none
  kept : ∀ key : String, recorded key →
    (mergeDiscovery observed latest found roots).1.entries[key]? = latest.entries[key]?
  present : ∀ (key : String) (value : SnapshotValue) (root : ConfigRoot),
    found.snapshot[key]? = some value → found.rootByKey[key]? = some root →
      rootIdentity root ∈ (mergeDiscovery observed latest found roots).1.roots → ¬recorded key →
        (mergeDiscovery observed latest found roots).1.entries[key]? = some value

/-- A file still found, but last by a root which was not tracked, while its first root was. -/
def FalseRemoval (observed latest : SnapshotState) (found : Discovered) (roots : List ConfigRoot)
    (key : String) : Prop :=
  found.snapshot[key]? ≠ none ∧ firstTracked observed roots key = true ∧
    lastTracked observed found key = false ∧ observed.entries[key]? ≠ none ∧
      latest.entries[key]? = observed.entries[key]?

/-- A changed file found last by a tracked root, while its first root was not tracked. -/
def MissedChange (observed : SnapshotState) (found : Discovered) (roots : List ConfigRoot)
    (recorded : String → Prop) (key : String) : Prop :=
  firstTracked observed roots key = false ∧ lastTracked observed found key = true ∧
    observed.entries[key]? ≠ none ∧ found.snapshot[key]? ≠ none ∧
      found.snapshot[key]? ≠ observed.entries[key]? ∧ ¬recorded key

/-- A recorded path whose latest entry is again the one compared with the scan, which differs. -/
def Overwritten (observed latest : SnapshotState) (found : Discovered) (roots : List ConfigRoot)
    (recorded : String → Prop) (key : String) : Prop :=
  recorded key ∧ (Reports observed latest found roots key ∨
    (found.snapshot[key]? ≠ none ∧ lastTracked observed found key = false ∧
      latest.entries[key]? = observed.entries[key]? ∧
        found.snapshot[key]? ≠ observed.entries[key]?))

variable {recorded : String → Prop}

/-- A path of which nothing goes wrong: the entry after the merge, by what was recorded. -/
theorem entry_mergeDiscovery (hfound : found.Attributed roots)
    (hlatest : ¬recorded key → latest.entries[key]? = observed.entries[key]?) :
    (¬FalseRemoval observed latest found roots key ∧
        ¬MissedChange observed found roots recorded key ∧
          ¬Overwritten observed latest found roots recorded key) ↔
      (Reports observed latest found roots key →
          found.snapshot[key]? ≠ observed.entries[key]? ∧
            (scannedSide observed found key = none → found.snapshot[key]? = none)) ∧
        (recorded key → (mergeDiscovery observed latest found roots).1.entries[key]? =
          latest.entries[key]?) ∧
          (¬recorded key → found.snapshot[key]? ≠ none →
            (mergeDiscovery observed latest found roots).1.entries[key]? =
              found.snapshot[key]?) := by
  rw [getElem?_mergeDiscovery hfound]
  unfold FalseRemoval MissedChange Overwritten Reports observedSide scannedSide
  generalize latest.entries[key]? = latestEntry at hlatest ⊢
  generalize observed.entries[key]? = observedEntry at hlatest ⊢
  generalize found.snapshot[key]? = scannedEntry
  cases firstTracked observed roots key <;> cases lastTracked observed found key <;>
    by_cases hrecorded : recorded key <;> cases scannedEntry <;> grind

/-- Every root of a scanned file is tracked after the merge. -/
theorem tracked_mergeDiscovery (hfound : found.Attributed roots) {root : ConfigRoot}
    (hroot : found.rootByKey[key]? = some root) :
    rootIdentity root ∈ (mergeDiscovery observed latest found roots).1.roots := by
  show rootIdentity root ∈ latest.roots.insertMany (roots.map rootIdentity)
  rw [ExtTreeSet.mem_insertMany_list]
  right
  rw [List.contains_iff_mem]
  exact List.mem_map_of_mem ((hfound key).2 root hroot).1

theorem honest_iff (hfound : found.Attributed roots)
    (hlatest : ∀ key : String, ¬recorded key →
      latest.entries[key]? = observed.entries[key]?) :
    Honest observed latest found roots recorded ↔ ∀ key : String,
      ¬FalseRemoval observed latest found roots key ∧
        ¬MissedChange observed found roots recorded key ∧
          ¬Overwritten observed latest found roots recorded key := by
  constructor
  · intro h key
    rw [entry_mergeDiscovery hfound (hlatest key)]
    refine ⟨fun hreports ↦ ?_, h.kept key, fun hrecorded hscanned ↦ ?_⟩
    · obtain ⟨change, hmem, rfl, hnew⟩ := exists_emitted hreports
      exact ⟨h.changed change hmem, fun hnone ↦ h.removed change hmem (hnew.trans hnone)⟩
    · obtain ⟨value, hvalue⟩ := Option.ne_none_iff_exists'.mp hscanned
      have hroot : found.rootByKey[key]?.isSome := (hfound key).1.mp (by rw [hvalue]; rfl)
      obtain ⟨root, hroot⟩ := Option.isSome_iff_exists.mp hroot
      rw [hvalue]
      exact h.present key value root hvalue hroot (tracked_mergeDiscovery hfound hroot) hrecorded
  · intro h
    have hpath : ∀ key : String, _ := fun key ↦
      (entry_mergeDiscovery hfound (hlatest key)).mp (h key)
    constructor
    · intro change hmem
      exact ((hpath change.path).1 (mem_emitted hmem).1).1
    · intro change hmem hnew
      have hscanned : scannedSide observed found change.path = none :=
        (mem_emitted hmem).2.symm.trans hnew
      exact ((hpath change.path).1 (mem_emitted hmem).1).2 hscanned
    · exact fun key ↦ (hpath key).2.1
    · intro key value root hvalue _ _ hrecorded
      rw [← hvalue]
      exact (hpath key).2.2 hrecorded (by rw [hvalue]; exact Option.some_ne_none value)

/-- The merge of a scan with the watchers' updates keeps its promise exactly when no path was
attributed to two roots of which one was tracked, with the observed entry still there, and none
was recorded back to what the scan is compared with. -/
theorem config_discovery_honest_iff (fs : FileSystem) (roots : List ConfigRoot)
    (observed : SnapshotState) (updates : List WatcherUpdate) :
    Honest observed (afterWatchers roots observed updates) (discoverSnapshot fs roots) roots
        (fun key ↦ Recorded roots key observed updates) ↔
      ∀ key : String,
        ¬FalseRemoval observed (afterWatchers roots observed updates) (discoverSnapshot fs roots)
            roots key ∧
          ¬MissedChange observed (discoverSnapshot fs roots) roots
              (fun key ↦ Recorded roots key observed updates) key ∧
            ¬Overwritten observed (afterWatchers roots observed updates)
                (discoverSnapshot fs roots) roots
                (fun key ↦ Recorded roots key observed updates) key :=
  honest_iff (attributed_discoverSnapshot fs roots) fun _ h ↦ getElem?_afterWatchers h

/-- A tracked root with instruction files anywhere below it. -/
def homeRoot : ConfigRoot :=
  ⟨"codex", "/home/u", none, ["AGENTS.md"], false, true, true⟩

/-- A project below it, not tracked yet. -/
def projectRoot : ConfigRoot :=
  ⟨"codex", "/home/u/p", some "p", ["AGENTS.md"], false, false, false⟩

/-- A file system with one instruction file in the project. -/
def oneInstruction : FileSystem where
  pathExists _ := true
  walk _ := []
  walkInstructions path := if path = "/home/u" then ["/home/u/p/AGENTS.md"] else []
  snapshotFile _ path := if path = "/home/u/p/AGENTS.md" then some ("h", 1) else none

/-- The file was seen before. -/
def instructionObserved : SnapshotState where
  entries := .ofList [("/home/u/p/AGENTS.md", ("h", 1))]
  roots := .ofList [rootIdentity homeRoot]

/-- A new root below a tracked one makes the merge report the removal of a file which the scan
found unchanged. -/
theorem unchanged_file_reported_removed :
    (discoverSnapshot oneInstruction [homeRoot, projectRoot]).snapshot["/home/u/p/AGENTS.md"]? =
        instructionObserved.entries["/home/u/p/AGENTS.md"]? ∧
      (mergeDiscovery instructionObserved (afterWatchers [homeRoot, projectRoot]
          instructionObserved []) (discoverSnapshot oneInstruction [homeRoot, projectRoot])
          [homeRoot, projectRoot]).2 =
        [⟨"/home/u/p/AGENTS.md", projectRoot, some ("h", 1), none⟩] := by
  decide +kernel

end AgentOdometer.Config
