import AgentOdometer.Lib.EntryFold
import AgentOdometer.Pricing.Refresh
import AgentOdometer.Report.Windowed

/-!
# The project report

`project_report` (`query.rs:839–1092`): the usage of a window by project, where a session may be
reassigned and a project merged into another or renamed.
-/

namespace AgentOdometer.Report

open Std (ExtTreeMap ExtTreeSet)
open EntryFold GroupBy Ledger Pricing Projects

/-! ### Places and labels -/

/-- The project of a session before merges. Follows `query.rs:954–957,1011–1014`. -/
def rawKey (store : ReportStore) (row : SessionProjectRow) : Option String :=
  store.sessionOverrides[row.sessionKey]?.or row.projectKey

/-- The project which a session is shown under. -/
def placeOf (store : ReportStore) (row : SessionProjectRow) : Option String :=
  (rawKey store row).map (resolveCanonicalProjectKey store.overrides)

/-- A label, and whether it is a path. -/
abbrev LabelMetadata := String × Bool

/-- The order of metadata. -/
def metadataLt (a b : LabelMetadata) : Bool :=
  decide (a.1 < b.1) || a.1 == b.1 && !a.2 && b.2

/-- What a row says of its own project. Follows `query.rs:939–945`. -/
def rowMetadata (row : SessionProjectRow) : LabelMetadata :=
  (row.label.getD "", row.provenance.getD "fallback_path_identity" == "fallback_path_identity")

/-- The least metadata of each detected project. Follows `query.rs:938–953`. -/
def detectedProjects (rows : List SessionProjectRow) : ExtTreeMap String LabelMetadata :=
  rows.foldl (fun detected row ↦
    match row.projectKey with
    | none => detected
    | some key => detected.alter key fun
        | none => some (rowMetadata row)
        | some existing =>
            some (if metadataLt (rowMetadata row) existing then rowMetadata row else existing)) ∅

/-- The keys shown under each canonical one. Follows `query.rs:954–961`. -/
def projectMembers (store : ReportStore) : ExtTreeMap String (ExtTreeSet String) :=
  store.rows.foldl (fun members row ↦
    match rawKey store row with
    | none => members
    | some raw =>
        updateEntry members (resolveCanonicalProjectKey store.overrides raw) ∅ fun keys ↦
          keys.insert raw) ∅

/-- `metadata_for`, `query.rs:963–976`. -/
def metadataFor (detected : ExtTreeMap String LabelMetadata) (key : String) : LabelMetadata :=
  detected[key]?.getD
    (if Text.startsWith key "manual:" then "Standalone project" else "Assigned project", true)

/-- The key whose metadata a project shows. `none` stands for the panic of `members[&canonical]` or
of `expect("project has a member")`. Follows `query.rs:1023–1028`. -/
def metadataKey (detected : ExtTreeMap String LabelMetadata)
    (members : ExtTreeMap String (ExtTreeSet String)) (canonical : String) : Option String :=
  if detected.contains canonical then some canonical
  else
    match members[canonical]? with
    | none => none
    | some keys => if keys.contains canonical then some canonical else keys.min?

/-! ### The loop over the sessions -/

/-- `Accumulated`, `query.rs:984–990`. -/
structure Accumulated where
  label : String
  labelIsPath : Bool
  sessions : Nat
  tokens : TokenTotals
  buckets : ExtTreeMap String (List TierBucket)

/-- The entry of a project when it is first met. Follows `query.rs:1020–1042`. -/
def freshProject (store : ReportStore) (detected : ExtTreeMap String LabelMetadata)
    (members : ExtTreeMap String (ExtTreeSet String)) (canonical : String) : Option Accumulated :=
  (metadataKey detected members canonical).map fun key ↦
    let metadata := metadataFor detected key
    let displayLabel := store.overrides[canonical]?.bind ProjectOverrideRow.displayLabel
    { label := displayLabel.getD metadata.1
      labelIsPath := displayLabel.isNone && metadata.2
      sessions := 0
      tokens := 0
      buckets := ∅ }

/-- A session of a project. Follows `query.rs:1043–1049`. -/
def Accumulated.addSession (harnessFor : String → String) (entry : Accumulated)
    (session : SessionProjectRow × RangeTotals) : Accumulated :=
  { entry with
    sessions := entry.sessions + 1
    tokens := entry.tokens + session.2.tokens
    buckets := updateEntry entry.buckets (harnessFor session.1.sessionKey) [] fun buckets ↦
      buckets ++ session.2.buckets }

/-- The projects met so far, and the sessions without one. -/
abbrev ProjectSums := ExtTreeMap String Accumulated × Nat

/-- The loop over the rows, `none` when it panics. Follows `query.rs:994–1050`. -/
def addProjectRow (store : ReportStore) (harnessFor : String → String)
    (totals : ExtTreeMap String RangeTotals) (detected : ExtTreeMap String LabelMetadata)
    (members : ExtTreeMap String (ExtTreeSet String)) (sums : ProjectSums)
    (row : SessionProjectRow) : Option ProjectSums :=
  match totals[row.sessionKey]? with
  | none => some sums
  | some range =>
      if !hasUsage range then some sums
      else
        match rawKey store row with
        | none => some (sums.1, sums.2 + 1)
        | some raw =>
            let canonical := resolveCanonicalProjectKey store.overrides raw
            (freshProject store detected members canonical).map fun fresh ↦
              (updateEntry sums.1 canonical fresh fun entry ↦
                entry.addSession harnessFor (row, range), sums.2)

/-! ### The report -/

/-- `ProjectUsage`, `query.rs:842–862`. -/
structure ProjectUsage where
  projectKey : String
  label : String
  labelIsPath : Bool
  sessions : Nat
  tokens : TokenTotals
  costByCurrency : ExtTreeMap String Rat
  unpricedModels : List String
  pricingComplete : Bool

/-- `ProjectReport`, `query.rs:866–877`. -/
structure ProjectReport where
  schemaVersion : Nat
  window : RangeWindow
  projects : List ProjectUsage
  sessionsWithoutProject : Nat

/-- What the loop over the harnesses of a project keeps. Follows `query.rs:1060–1063`. -/
structure ProjectCosts where
  costByCurrency : ExtTreeMap String Rat
  unpricedModels : ExtTreeSet String
  attributedTokens : Nat
  pricingComplete : Bool

/-- The buckets of one harness. Follows `query.rs:1064–1082`. -/
def addHarness (rates : RateCard Rat) (now : DateTime) (costs : ProjectCosts)
    (entry : String × List TierBucket) : ProjectCosts :=
  let priced := reportPriceBuckets rates entry.1 entry.2 now
  { costByCurrency :=
      match priced.1 with
      | none => costs.costByCurrency
      | some cost =>
          updateEntry costs.costByCurrency (harnessCurrency rates entry.1) 0 fun total ↦
            total + cost
    unpricedModels := priced.2.foldl (fun unpriced model ↦ unpriced.insert model)
      costs.unpricedModels
    attributedTokens :=
      costs.attributedTokens + (entry.2.map fun bucket ↦ bucket.tokens.totalTokens).sum
    pricingComplete := costs.pricingComplete && (priced.1.isSome && priced.2.isEmpty) }

/-- A project of the report. Follows `query.rs:1052–1095`. -/
def projectUsage (rates : RateCard Rat) (now : DateTime) (project : String × Accumulated) :
    ProjectUsage :=
  let costs := project.2.buckets.toList.foldl (addHarness rates now) ⟨∅, ∅, 0, true⟩
  { projectKey := project.1
    label := project.2.label
    labelIsPath := project.2.labelIsPath
    sessions := project.2.sessions
    tokens := project.2.tokens
    costByCurrency := costs.costByCurrency
    unpricedModels := costs.unpricedModels.toList
    pricingComplete :=
      costs.pricingComplete && decide (costs.attributedTokens ≥ project.2.tokens.totalTokens) }

/-- How a report ends without an answer. -/
inductive ReportFailure where
  | refused (error : QueryError)
  | panicked
deriving Repr, DecidableEq

/-- The loop over all rows. -/
def projectSums (store : ReportStore) (harnessFor : String → String)
    (totals : ExtTreeMap String RangeTotals) : Option ProjectSums :=
  store.rows.foldlM (addProjectRow store harnessFor totals (detectedProjects store.rows)
    (projectMembers store)) (∅, 0)

/-- `project_report`, `query.rs:914–1092`. -/
def projectReport (store : ReportStore) (rates : RateCard Rat) (harnessFor : String → String)
    (control : QueryControl) (window : RangeWindow) (now : DateTime) :
    Except ReportFailure ProjectReport :=
  match rangeTotals control store.tables (store.rows.map SessionProjectRow.sessionKey) window with
  | .error error => .error (.refused error)
  | .ok totals =>
      match projectSums store harnessFor totals with
      | none => .error .panicked
      | some (byProject, withoutProject) =>
          .ok
            { schemaVersion := 1
              window
              projects := byProject.toList.map (projectUsage rates now)
              sessionsWithoutProject := withoutProject }

/-! ### No panic -/

variable {store : ReportStore}

theorem projectMembers_eq_entryFold : projectMembers store =
    entryFold (placeOf store) (fun _ ↦ (∅ : ExtTreeSet String))
      (fun keys row ↦ keys.insert ((rawKey store row).getD "")) ∅ store.rows := by
  unfold projectMembers entryFold
  congr 1
  funext members row
  unfold placeOf
  cases hraw : rawKey store row with
  | none => rfl
  | some raw => simp only [Option.map_some, hraw, Option.getD_some]

/-- The project of a row has a member. -/
theorem exists_projectMembers {row : SessionProjectRow} {canonical : String}
    (hrow : row ∈ store.rows) (hplace : placeOf store row = some canonical) :
    ∃ keys, (projectMembers store)[canonical]? = some keys ∧
      (rawKey store row).getD "" ∈ keys := by
  rw [projectMembers_eq_entryFold, getElem?_entryFold, if_pos ⟨row, hrow, hplace⟩]
  refine ⟨_, rfl, ?_⟩
  have hstep : ∀ (keys : ExtTreeSet String) (other : SessionProjectRow),
      (rawKey store row).getD "" ∈ keys.insert ((rawKey store other).getD "") ↔
        (rawKey store row).getD "" ∈ keys ∨
          (rawKey store other).getD "" = (rawKey store row).getD "" := by
    intro keys other
    rw [ExtTreeSet.mem_insert, Std.compare_eq_iff_eq, or_comm]
  have hmem := KeyedFold.foldl_iff_exists
    (fun keys : ExtTreeSet String ↦ (rawKey store row).getD "" ∈ keys) hstep
    (store.rows.filter fun other ↦ placeOf store other = some canonical)
    ((∅ : ExtTreeMap String (ExtTreeSet String))[canonical]?.getD ∅)
  exact hmem.mpr (Or.inr ⟨row, List.mem_filter.mpr ⟨hrow, decide_eq_true hplace⟩, rfl⟩)

/-- Every project of a session has a key to take its metadata from. -/
theorem isSome_freshProject {row : SessionProjectRow} {canonical : String}
    (hrow : row ∈ store.rows) (hplace : placeOf store row = some canonical) :
    ∃ fresh, freshProject store (detectedProjects store.rows) (projectMembers store) canonical =
      some fresh ∧ fresh.sessions = 0 ∧ fresh.tokens = 0 ∧ fresh.buckets = ∅ := by
  obtain ⟨keys, hkeys, hmem⟩ := exists_projectMembers hrow hplace
  have hmin : keys.min?.isSome = true := by
    rw [ExtTreeSet.isSome_min?_iff_ne_empty]
    rintro rfl
    exact ExtTreeSet.not_mem_empty hmem
  have hsome : (metadataKey (detectedProjects store.rows) (projectMembers store)
      canonical).isSome = true := by
    unfold metadataKey
    split
    · rfl
    · rw [hkeys]
      simp only
      split
      · rfl
      · exact hmin
  obtain ⟨key, hkey⟩ := Option.isSome_iff_exists.mp hsome
  rw [freshProject, hkey]
  exact ⟨_, rfl, rfl, rfl, rfl⟩

/-! ### The sessions of the window -/

/-- The rows of a list which count in a window, with their totals. -/
def countedAmong (store : ReportStore) (window : RangeWindow) (rows : List SessionProjectRow) :
    List (SessionProjectRow × RangeTotals) :=
  rows.filterMap fun row ↦
    (usageIn store.tables window row.sessionKey).map fun range ↦ (row, range)

/-- The rows which count in a window, with their totals. -/
def countedRows (store : ReportStore) (window : RangeWindow) :
    List (SessionProjectRow × RangeTotals) :=
  countedAmong store window store.rows

/-- The sessions without a project. -/
def homeless (store : ReportStore) (counted : List (SessionProjectRow × RangeTotals)) :
    List (SessionProjectRow × RangeTotals) :=
  counted.filter fun session ↦ (placeOf store session.1).isNone

/-- The entry of a project whose session has been met. -/
def startOf (store : ReportStore) (canonical : String) : Accumulated :=
  (freshProject store (detectedProjects store.rows) (projectMembers store) canonical).getD
    ⟨"", false, 0, 0, ∅⟩

theorem startOf_sums (canonical : String) : (startOf store canonical).sessions = 0 ∧
    (startOf store canonical).tokens = 0 ∧ (startOf store canonical).buckets = ∅ := by
  unfold startOf freshProject
  cases metadataKey (detectedProjects store.rows) (projectMembers store) canonical with
  | none => exact ⟨rfl, rfl, rfl⟩
  | some key => exact ⟨rfl, rfl, rfl⟩

variable {harnessFor : String → String} {control : QueryControl} {window : RangeWindow}
  {totals : ExtTreeMap String RangeTotals}

/-- The projects of counted rows, from those met before. -/
def projectsFrom (store : ReportStore) (harnessFor : String → String)
    (start : ExtTreeMap String Accumulated) (counted : List (SessionProjectRow × RangeTotals)) :
    ExtTreeMap String Accumulated :=
  entryFold (fun session ↦ placeOf store session.1) (startOf store)
    (Accumulated.addSession harnessFor) start counted

theorem projectsFrom_cons_of_none {start : ExtTreeMap String Accumulated}
    {session : SessionProjectRow × RangeTotals} (h : placeOf store session.1 = none)
    (counted : List (SessionProjectRow × RangeTotals)) :
    projectsFrom store harnessFor start (session :: counted) =
      projectsFrom store harnessFor start counted :=
  entryFold_cons_of_none (a := session) h counted

theorem projectsFrom_cons_of_some {start : ExtTreeMap String Accumulated}
    {session : SessionProjectRow × RangeTotals} {canonical : String}
    (h : placeOf store session.1 = some canonical)
    (counted : List (SessionProjectRow × RangeTotals)) :
    projectsFrom store harnessFor start (session :: counted) =
      projectsFrom store harnessFor (updateEntry start canonical (startOf store canonical)
        fun entry ↦ entry.addSession harnessFor session) counted :=
  entryFold_cons_of_some (a := session) h counted

theorem addProjectRow_of_none {sums : ProjectSums} {row : SessionProjectRow}
    (h : countedRange totals row.sessionKey = none) :
    addProjectRow store harnessFor totals (detectedProjects store.rows) (projectMembers store) sums
      row = some sums := by
  unfold addProjectRow
  rw [countedRange] at h
  cases hrange : totals[row.sessionKey]? with
  | none => rfl
  | some range =>
    have husage : hasUsage range = false := by simpa [hrange, Option.filter_some] using h
    simp [husage]

theorem addProjectRow_of_some {sums : ProjectSums} {row : SessionProjectRow} {range : RangeTotals}
    (hrow : row ∈ store.rows) (h : countedRange totals row.sessionKey = some range) :
    addProjectRow store harnessFor totals (detectedProjects store.rows) (projectMembers store) sums
      row =
        match placeOf store row with
        | none => some (sums.1, sums.2 + 1)
        | some canonical =>
            some (updateEntry sums.1 canonical (startOf store canonical) fun entry ↦
              entry.addSession harnessFor (row, range), sums.2) := by
  obtain ⟨hrange, husage⟩ := Option.filter_eq_some_iff.mp h
  unfold addProjectRow placeOf
  rw [hrange]
  simp only [husage, Bool.not_true, Bool.false_eq_true, if_false]
  cases hraw : rawKey store row with
  | none => rfl
  | some raw =>
    have hplace : placeOf store row = some (resolveCanonicalProjectKey store.overrides raw) := by
      rw [placeOf, hraw, Option.map_some]
    obtain ⟨fresh, hfresh, -⟩ := isSome_freshProject hrow hplace
    simp only [Option.map_some, startOf, hfresh, Option.getD_some]

/-- The loop never panics: it is the grouping of the counted rows by their places. -/
theorem foldlM_addProjectRow
    (h : rangeTotals control store.tables (store.rows.map SessionProjectRow.sessionKey) window =
      .ok totals) {rows : List SessionProjectRow} (hsub : rows ⊆ store.rows) (sums : ProjectSums) :
    rows.foldlM (addProjectRow store harnessFor totals (detectedProjects store.rows)
        (projectMembers store)) sums =
      some (projectsFrom store harnessFor sums.1 (countedAmong store window rows),
        sums.2 + (homeless store (countedAmong store window rows)).length) := by
  induction rows generalizing sums with
  | nil => rfl
  | cons row rows ih =>
    rw [List.cons_subset] at hsub
    rw [List.foldlM_cons]
    have hcounted : countedRange totals row.sessionKey =
        usageIn store.tables window row.sessionKey :=
      countedRange_rangeTotals h (List.mem_map_of_mem hsub.1)
    cases husage : usageIn store.tables window row.sessionKey with
    | none =>
      have hskip : countedAmong store window (row :: rows) = countedAmong store window rows :=
        List.filterMap_cons_none (by simp [husage])
      rw [addProjectRow_of_none (hcounted.trans husage), hskip]
      exact ih hsub.2 sums
    | some range =>
      have hkeep : countedAmong store window (row :: rows) =
          (row, range) :: countedAmong store window rows :=
        List.filterMap_cons_some (by simp [husage])
      rw [addProjectRow_of_some hsub.1 (hcounted.trans husage), hkeep]
      cases hplace : placeOf store row with
      | none =>
        have hhomeless : homeless store ((row, range) :: countedAmong store window rows) =
            (row, range) :: homeless store (countedAmong store window rows) :=
          List.filter_cons_of_pos (by simp [hplace])
        rw [projectsFrom_cons_of_none hplace, hhomeless, List.length_cons]
        refine (ih hsub.2 (sums.1, sums.2 + 1)).trans ?_
        rw [Nat.add_right_comm, Nat.add_assoc]
      | some canonical =>
        have hhomeless : homeless store ((row, range) :: countedAmong store window rows) =
            homeless store (countedAmong store window rows) :=
          List.filter_cons_of_neg (by simp [hplace])
        rw [projectsFrom_cons_of_some hplace, hhomeless]
        exact ih hsub.2 _

theorem projectSums_eq
    (h : rangeTotals control store.tables (store.rows.map SessionProjectRow.sessionKey) window =
      .ok totals) :
    projectSums store harnessFor totals =
      some (projectsFrom store harnessFor ∅ (countedRows store window),
        (homeless store (countedRows store window)).length) := by
  refine (foldlM_addProjectRow h (List.Subset.refl _) (∅, 0)).trans ?_
  rw [Nat.zero_add, countedRows]

/-! ### What a project adds up -/

/-- The sessions shown under a key. -/
def sessionsAt (store : ReportStore) (counted : List (SessionProjectRow × RangeTotals))
    (key : String) : List (SessionProjectRow × RangeTotals) :=
  counted.filter fun session ↦ placeOf store session.1 = some key

/-- The tokens of counted rows. -/
def tokensOf (counted : List (SessionProjectRow × RangeTotals)) : TokenTotals :=
  (counted.map fun session ↦ session.2.tokens).sum

theorem foldl_addSession (harnessFor : String → String)
    (sessions : List (SessionProjectRow × RangeTotals)) (entry : Accumulated) :
    (sessions.foldl (Accumulated.addSession harnessFor) entry).sessions =
        entry.sessions + sessions.length ∧
      (sessions.foldl (Accumulated.addSession harnessFor) entry).tokens =
        entry.tokens + tokensOf sessions := by
  induction sessions generalizing entry with
  | nil => exact ⟨rfl, (add_zero _).symm⟩
  | cons session sessions ih =>
    obtain ⟨hsessions, htokens⟩ := ih (entry.addSession harnessFor session)
    rw [List.foldl_cons, hsessions, htokens, tokensOf, tokensOf, List.map_cons, List.sum_cons,
      ← add_assoc, List.length_cons]
    refine ⟨?_, rfl⟩
    show entry.sessions + 1 + sessions.length = _
    omega

/-- An entry counts the sessions shown under its key. -/
theorem projectsFrom_eq_some {counted : List (SessionProjectRow × RangeTotals)} {key : String}
    {entry : Accumulated} (h : (projectsFrom store harnessFor ∅ counted)[key]? = some entry) :
    sessionsAt store counted key ≠ [] ∧
      entry.sessions = (sessionsAt store counted key).length ∧
      entry.tokens = tokensOf (sessionsAt store counted key) := by
  rw [projectsFrom, getElem?_entryFold, ExtTreeMap.getElem?_empty, Option.getD_none] at h
  split at h
  next hexists =>
    obtain ⟨session, hmem, hplace⟩ := hexists
    obtain rfl := Option.some.inj h
    have hsessions := foldl_addSession harnessFor (sessionsAt store counted key) (startOf store key)
    obtain ⟨hstart, hstart', -⟩ : (startOf store key).sessions = 0 ∧
        (startOf store key).tokens = 0 ∧ (startOf store key).buckets = ∅ := startOf_sums key
    rw [hstart, hstart', Nat.zero_add, zero_add] at hsessions
    refine ⟨?_, hsessions⟩
    exact List.ne_nil_of_mem (List.mem_filter.mpr ⟨hmem, decide_eq_true hplace⟩)
  · cases h

/-- Every session with a place has an entry there. -/
theorem isSome_projectsFrom {counted : List (SessionProjectRow × RangeTotals)}
    {session : SessionProjectRow × RangeTotals} (hmem : session ∈ counted) {key : String}
    (hplace : placeOf store session.1 = some key) :
    ((projectsFrom store harnessFor ∅ counted)[key]?).isSome = true := by
  rw [projectsFrom, getElem?_entryFold, if_pos ⟨session, hmem, hplace⟩]
  rfl

theorem tokens_addSession (entry : Accumulated) (session : SessionProjectRow × RangeTotals) :
    (entry.addSession harnessFor session).tokens = entry.tokens + session.2.tokens :=
  rfl

theorem sessions_addSession (entry : Accumulated) (session : SessionProjectRow × RangeTotals) :
    (entry.addSession harnessFor session).sessions = entry.sessions + 1 :=
  rfl

/-- The entries have the tokens of the sessions which have a place. -/
theorem sum_tokens_projectsFrom (counted : List (SessionProjectRow × RangeTotals)) :
    ((projectsFrom store harnessFor ∅ counted).toList.map fun entry ↦ entry.2.tokens).sum +
      tokensOf (homeless store counted) = tokensOf counted := by
  have hsum := sum_toList_entryFold_add_isNone (fun session ↦ placeOf store session.1)
    (startOf store) (Accumulated.addSession harnessFor) Accumulated.tokens
    (fun session ↦ session.2.tokens) (fun key ↦ (startOf_sums key).2.1) tokens_addSession counted
  exact hsum

/-- The entries count the sessions which have a place. -/
theorem sum_sessions_projectsFrom (counted : List (SessionProjectRow × RangeTotals)) :
    ((projectsFrom store harnessFor ∅ counted).toList.map fun entry ↦ entry.2.sessions).sum +
      (homeless store counted).length = counted.length := by
  have hsum := sum_toList_entryFold_add_isNone (fun session ↦ placeOf store session.1)
    (startOf store) (Accumulated.addSession harnessFor) Accumulated.sessions
    (fun _ ↦ 1) (fun key ↦ (startOf_sums key).1) sessions_addSession counted
  rw [List.map_const', List.map_const', List.sum_const_nat, List.sum_const_nat, mul_one,
    mul_one] at hsum
  exact hsum

/-! ### The range report -/

/-- The range report counts the sessions of the window and their tokens. -/
theorem foldl_addSessionUsage {rates : RateCard Rat} {now : DateTime} {keys : List String}
    (h : rangeTotals control store.tables store.sessionKeys window = .ok totals)
    (hsub : keys ⊆ store.sessionKeys) (sums : RangeSums) :
    (keys.foldl (addSessionUsage rates harnessFor now totals) sums).tokens =
        sums.tokens + ((keys.filterMap (usageIn store.tables window)).map (·.tokens)).sum ∧
      (keys.foldl (addSessionUsage rates harnessFor now totals) sums).sessionsWithUsage =
        sums.sessionsWithUsage + (keys.filterMap (usageIn store.tables window)).length := by
  induction keys generalizing sums with
  | nil => exact ⟨(add_zero _).symm, rfl⟩
  | cons key keys ih =>
    rw [List.cons_subset] at hsub
    obtain ⟨htokens, hsessions⟩ := ih hsub.2 (addSessionUsage rates harnessFor now totals sums key)
    have hcounted : countedRange totals key = usageIn store.tables window key :=
      countedRange_rangeTotals h hsub.1
    rw [List.foldl_cons, htokens, hsessions]
    unfold addSessionUsage
    rw [countedRange] at hcounted
    cases hrange : totals[key]? with
    | none =>
      rw [hrange, Option.filter_none] at hcounted
      rw [List.filterMap_cons_none hcounted.symm]
      exact ⟨rfl, rfl⟩
    | some range =>
      rw [hrange, Option.filter_some] at hcounted
      by_cases husage : hasUsage range = true
      · rw [if_pos husage] at hcounted
        rw [List.filterMap_cons_some hcounted.symm, List.map_cons, List.sum_cons, List.length_cons]
        simp only [husage, Bool.not_true, Bool.false_eq_true, if_false]
        refine ⟨add_assoc _ _ _, ?_⟩
        omega
      · rw [if_neg husage] at hcounted
        rw [List.filterMap_cons_none hcounted.symm]
        simp only [husage, Bool.not_false, if_true]
        exact ⟨trivial, trivial⟩

theorem map_snd_countedRows : (countedRows store window).map Prod.snd =
    (store.rows.map SessionProjectRow.sessionKey).filterMap (usageIn store.tables window) := by
  rw [countedRows, countedAmong, List.map_filterMap, List.filterMap_map]
  congr 1
  funext row
  simp

/-- The keys and the rows list the same sessions. -/
theorem perm_countedRows : (store.sessionKeys.filterMap (usageIn store.tables window)).Perm
    ((countedRows store window).map Prod.snd) := by
  rw [map_snd_countedRows]
  exact store.keys_perm.filterMap _

theorem rangeReport_sums {rates : RateCard Rat} {now : DateTime} {report : RangeReport}
    (h : rangeReport store rates harnessFor control window now = .ok report) :
    report.tokens = tokensOf (countedRows store window) ∧
      report.sessions = (countedRows store window).length := by
  unfold rangeReport at h
  cases htotals : rangeTotals control store.tables store.sessionKeys window with
  | error e =>
    rw [htotals] at h
    cases h
  | ok totals =>
    rw [htotals] at h
    obtain rfl := Except.ok.inj h
    refine ⟨(foldl_addSessionUsage htotals (List.Subset.refl _) ⟨0, ∅, 0⟩).1.trans ?_,
      (foldl_addSessionUsage htotals (List.Subset.refl _) ⟨0, ∅, 0⟩).2.trans ?_⟩
    · rw [zero_add, (perm_countedRows.map _).sum_eq, List.map_map]
      rfl
    · rw [Nat.zero_add, perm_countedRows.length_eq, List.length_map]

/-! ### The partition -/

/-- What the report says of a project is the sum over the sessions shown under its key. -/
theorem projectReport_eq_ok {rates : RateCard Rat} {now : DateTime} {report : ProjectReport}
    (h : projectReport store rates harnessFor control window now = .ok report) :
    report.projects =
        (projectsFrom store harnessFor ∅ (countedRows store window)).toList.map
          (projectUsage rates now) ∧
      report.sessionsWithoutProject = (homeless store (countedRows store window)).length := by
  unfold projectReport at h
  split at h
  · cases h
  next totals htotals =>
    rw [projectSums_eq htotals] at h
    obtain rfl := Except.ok.inj h
    exact ⟨rfl, rfl⟩

theorem projectReport_ne_panicked (rates : RateCard Rat) (now : DateTime) :
    projectReport store rates harnessFor control window now ≠ .error .panicked := by
  unfold projectReport
  split
  · exact fun h ↦ nomatch h
  next totals htotals =>
    rw [projectSums_eq htotals]
    exact fun h ↦ nomatch h

/-- Following merges always stops, the report never panics, and its projects, with the sessions
without one, partition the sessions which the range report counts, and their tokens. -/
theorem project_report_partitions (store : ReportStore) (rates : RateCard Rat)
    (harnessFor : String → String) (control : QueryControl) (window : RangeWindow)
    (now : DateTime) :
    (∀ key steps, store.overrides.size < steps →
        resolveFrom store.overrides steps [] key = resolveCanonicalProjectKey store.overrides key) ∧
      projectReport store rates harnessFor control window now ≠ .error .panicked ∧
      (∀ row ∈ store.rows,
        (sessionRange (store.tables row.sessionKey) window).tokens.totalTokens ≠ 0 →
          (row, sessionRange (store.tables row.sessionKey) window) ∈ countedRows store window) ∧
      ∀ report, projectReport store rates harnessFor control window now = .ok report →
        (report.projects.map ProjectUsage.projectKey).Nodup ∧
        (∀ project ∈ report.projects,
          sessionsAt store (countedRows store window) project.projectKey ≠ [] ∧
          project.sessions =
            (sessionsAt store (countedRows store window) project.projectKey).length ∧
          project.tokens =
            tokensOf (sessionsAt store (countedRows store window) project.projectKey)) ∧
        (∀ session ∈ countedRows store window, ∀ key, placeOf store session.1 = some key →
          ∃ project ∈ report.projects, project.projectKey = key) ∧
        report.sessionsWithoutProject = (homeless store (countedRows store window)).length ∧
        (report.projects.map ProjectUsage.sessions).sum + report.sessionsWithoutProject =
          (countedRows store window).length ∧
        ∀ control' range, rangeReport store rates harnessFor control' window now = .ok range →
          range.sessions = (countedRows store window).length ∧
          (report.projects.map ProjectUsage.tokens).sum +
            tokensOf (homeless store (countedRows store window)) = range.tokens := by
  refine ⟨?_, projectReport_ne_panicked rates now, ?_, ?_⟩
  · intro key steps hsteps
    exact resolveFrom_of_size_lt hsteps key
  · intro row hrow htokens
    rw [countedRows, countedAmong, List.mem_filterMap]
    exact ⟨row, hrow, by rw [isSome_usageIn htokens, Option.map_some]⟩
  · intro report h
    obtain ⟨hprojects, hwithout⟩ := projectReport_eq_ok h
    have hkeys : report.projects.map ProjectUsage.projectKey =
        (projectsFrom store harnessFor ∅ (countedRows store window)).toList.map Prod.fst := by
      rw [hprojects, List.map_map]
      rfl
    refine ⟨?_, ?_, ?_, hwithout, ?_, ?_⟩
    · rw [hkeys, List.nodup_iff_pairwise_ne, List.pairwise_map]
      refine ExtTreeMap.distinct_keys_toList.imp fun hne heq ↦ ?_
      exact hne (Std.compare_eq_iff_eq.mpr heq)
    · rw [hprojects, List.forall_mem_map]
      intro entry hentry
      rw [ExtTreeMap.mem_toList_iff_getElem?_eq_some] at hentry
      exact projectsFrom_eq_some hentry
    · intro session hmem key hplace
      obtain ⟨entry, hentry⟩ := Option.isSome_iff_exists.mp (isSome_projectsFrom hmem hplace)
      rw [hprojects]
      exact ⟨_, List.mem_map_of_mem (ExtTreeMap.mem_toList_iff_getElem?_eq_some.mpr hentry), rfl⟩
    · rw [hprojects, hwithout, List.map_map]
      exact sum_sessions_projectsFrom _
    · intro control' range hrange
      obtain ⟨htokens, hsessions⟩ := rangeReport_sums hrange
      rw [hprojects, htokens, List.map_map]
      exact ⟨hsessions, sum_tokens_projectsFrom _⟩

/-- Two sessions with tokens, one of a project which a cycle of merges leads through. -/
def cyclicStore : ReportStore where
  rows := [⟨"codex:a", some "p", some "p", none⟩, ⟨"codex:b", none, none, none⟩]
  sessionKeys := ["codex:b", "codex:a"]
  tables := fun _ ↦ ⟨⟨[⟨"", 0, 0, none, none, none, 5, ⟨5, 0, 0, 0, 0, 5⟩⟩], [], [], []⟩,
    ⟨∅, ∅, ∅, ∅⟩⟩
  overrides := (∅ : Projects.ProjectOverrides).insert "p" ⟨none, some "q", 0⟩
    |>.insert "q" ⟨none, some "p", 0⟩
  sessionOverrides := ∅
  nodup := by decide
  keys_perm := by decide

/-- One report of the cyclic ledger. -/
def cyclicReport : Except ReportFailure ProjectReport :=
  projectReport cyclicStore oneRowCard (fun _ ↦ "codex") ⟨10, 10, 100, 0⟩
    (some .epoch, some .epoch) .epoch

theorem project_report_partitions_cyclicStore :
    resolveFrom cyclicStore.overrides 7 [] "p" =
        resolveCanonicalProjectKey cyclicStore.overrides "p" ∧
      ∃ report range, cyclicReport = .ok report ∧
        rangeReport cyclicStore oneRowCard (fun _ ↦ "codex") ⟨10, 10, 100, 0⟩
          (some .epoch, some .epoch) .epoch = .ok range ∧
        (report.projects.map ProjectUsage.sessions).sum + report.sessionsWithoutProject = 2 ∧
        (∃ project ∈ report.projects, project.projectKey = "p") ∧
        (report.projects.map ProjectUsage.tokens).sum +
          tokensOf (homeless cyclicStore (countedRows cyclicStore (some .epoch, some .epoch))) =
            range.tokens := by
  obtain ⟨hstops, -, hcounted, hreport⟩ := project_report_partitions cyclicStore oneRowCard
    (fun _ ↦ "codex") ⟨10, 10, 100, 0⟩ (some .epoch, some .epoch) .epoch
  obtain ⟨-, -, hplace, -, hsessions, hrange⟩ := hreport _ rfl
  refine ⟨hstops "p" 7 (by decide), _, _, rfl, rfl, hsessions, ?_,
    (hrange ⟨10, 10, 100, 0⟩ _ rfl).2⟩
  exact hplace _ (hcounted ⟨"codex:a", some "p", some "p", none⟩ (List.mem_cons_self ..)
    (by decide)) "p" (by decide)

end AgentOdometer.Report
