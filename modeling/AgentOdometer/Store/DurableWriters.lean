import AgentOdometer.Lib.Transition

/-!
# Durable-writer reservations

The two flags of `store.rs:149–156` and the guards granted from them
(`store.rs:625–678`). Every lock-protected section is one step: the flags are read and
written while the `durable_writers` mutex is held, and a guard is alive until its `Drop`
has run `release_durable_writer`. A scan that finds a rebuild in flight parks on
`durable_writers_cv` and rechecks the flag after a wake-up.
-/

namespace AgentOdometer.Store

open Transition

/-- The writers sharing the durable-write path. Follows `store.rs:149–156`. -/
structure DurableWriters where
  scan : Bool
  rebuild : Bool
deriving Repr, DecidableEq

/-- The owner of a reservation. Follows `store.rs:158–163`. -/
inductive DurableWriter where
  | scan
  | rebuild
deriving Repr, DecidableEq

/-- A granted reservation, named by the call which received it. Follows `store.rs:177–180`. -/
structure DurableWriteGuard where
  call : Nat
  writer : DurableWriter
deriving Repr, DecidableEq

/-- The shared flags, the scan calls parked on the condition variable, and the guards
which have not been dropped. -/
structure WriterState where
  durableWriters : DurableWriters
  parked : List Nat
  guards : List DurableWriteGuard
deriving Repr, DecidableEq

/-- One lock-protected section of a caller, or the drop of a guard. -/
inductive WriterAction where
  | beginScanAfterAnyRebuild (call : Nat)
  | wakeScan (call : Nat)
  | tryBeginRebuild (call : Nat)
  | dropGuard (guard : DurableWriteGuard)
deriving Repr, DecidableEq

namespace WriterState

/-- `AppState::new` starts without a writer. -/
def initial : WriterState :=
  ⟨⟨false, false⟩, [], []⟩

/-- A call identifier which names neither a parked call nor a live guard. -/
def isFresh (s : WriterState) (call : Nat) : Bool :=
  !s.parked.contains call && !s.guards.any fun g ↦ g.call == call

/-- Set the scan flag and hand out its guard. Follows `store.rs:663–668`. -/
def grantScan (s : WriterState) (call : Nat) : WriterState :=
  { s with
    durableWriters := { s.durableWriters with scan := true }
    guards := ⟨call, .scan⟩ :: s.guards }

/-- Take the lock and either park behind a rebuild or receive the guard.
Follows `store.rs:657–669`. -/
def beginScanAfterAnyRebuild (s : WriterState) (call : Nat) : WriterState :=
  if s.durableWriters.rebuild then
    { s with parked := call :: s.parked }
  else
    s.grantScan call

/-- A parked call rechecks `wait_while`'s predicate. Follows `store.rs:659–662`. -/
def wakeScan (s : WriterState) (call : Nat) : WriterState :=
  if s.durableWriters.rebuild then
    s
  else
    { s with parked := s.parked.erase call }.grantScan call

/-- Set the rebuild flag, or return the refusal text. Follows `store.rs:625–641`. -/
def tryBeginRebuild (s : WriterState) (call : Nat) : Except String WriterState :=
  if s.durableWriters.rebuild then
    .error "a history rebuild is already running"
  else if s.durableWriters.scan then
    .error "a session scan is running; wait for it to finish, then start the rebuild"
  else
    .ok { s with
      durableWriters := { s.durableWriters with rebuild := true }
      guards := ⟨call, .rebuild⟩ :: s.guards }

/-- Clear the flag of the dropped guard's writer. Follows `store.rs:671–678`. -/
def releaseDurableWriter (w : DurableWriters) : DurableWriter → DurableWriters
  | .scan => { w with scan := false }
  | .rebuild => { w with rebuild := false }

/-- `Drop` of a live guard. Follows `store.rs:193–197`. -/
def dropGuard (s : WriterState) (g : DurableWriteGuard) : WriterState :=
  { s with
    durableWriters := releaseDurableWriter s.durableWriters g.writer
    guards := s.guards.erase g }

/-- One step of any caller; `none` where the caller is not at that point of its code.
A refused rebuild leaves the state as it was. -/
def step (s : WriterState) : WriterAction → Option WriterState
  | .beginScanAfterAnyRebuild call =>
      if s.isFresh call then some (s.beginScanAfterAnyRebuild call) else none
  | .wakeScan call =>
      if s.parked.contains call then some (s.wakeScan call) else none
  | .tryBeginRebuild call =>
      if s.isFresh call then
        match s.tryBeginRebuild call with
        | .ok t => some t
        | .error _ => some s
      else none
  | .dropGuard g =>
      if g ∈ s.guards then some (s.dropGuard g) else none

/-- Some live guard belongs to the given writer. -/
def Alive (s : WriterState) (w : DurableWriter) : Prop :=
  ∃ g ∈ s.guards, g.writer = w

instance (s : WriterState) (w : DurableWriter) : Decidable (s.Alive w) :=
  inferInstanceAs (Decidable (∃ g ∈ s.guards, g.writer = w))

/-- The action hands out a guard for `w`. -/
def Grants (s : WriterState) (a : WriterAction) (w : DurableWriter) : Prop :=
  ∃ t g, step s a = some t ∧ g.writer = w ∧ t.guards = g :: s.guards

/-- A rebuild and a scan guard are never alive together, and neither is granted while the
other one is alive. -/
structure DurableWriterExclusion (s : WriterState) : Prop where
  alive : ¬ (s.Alive .scan ∧ s.Alive .rebuild)
  rebuild_granted : ∀ a, s.Grants a .rebuild → ¬ s.Alive .scan
  scan_granted : ∀ a, s.Grants a .scan → ¬ s.Alive .rebuild

/-- A scan guard is dropped only when it is the last live scan guard. -/
def LastScanDropped (s : WriterState) : WriterAction → Prop
  | .dropGuard g => g.writer = .scan → ∀ g' ∈ s.guards.erase g, g'.writer ≠ .scan
  | _ => True

/-! ### What one action does to the flags and the guards -/

private theorem guards_of_step_begin {s t : WriterState} {call : Nat}
    (h : step s (.beginScanAfterAnyRebuild call) = some t) :
    (t.durableWriters = s.durableWriters ∧ t.guards = s.guards) ∨
    (s.durableWriters.rebuild = false ∧
      t.durableWriters = { s.durableWriters with scan := true } ∧
      t.guards = ⟨call, .scan⟩ :: s.guards) := by
  simp only [step] at h
  split at h
  · simp only [Option.some.injEq] at h
    subst h
    unfold beginScanAfterAnyRebuild
    split
    · exact Or.inl ⟨rfl, rfl⟩
    · next hr => exact Or.inr ⟨by simpa using hr, rfl, rfl⟩
  · contradiction

private theorem guards_of_step_wake {s t : WriterState} {call : Nat}
    (h : step s (.wakeScan call) = some t) :
    (t.durableWriters = s.durableWriters ∧ t.guards = s.guards) ∨
    (s.durableWriters.rebuild = false ∧
      t.durableWriters = { s.durableWriters with scan := true } ∧
      t.guards = ⟨call, .scan⟩ :: s.guards) := by
  simp only [step] at h
  split at h
  · simp only [Option.some.injEq] at h
    subst h
    unfold wakeScan
    split
    · exact Or.inl ⟨rfl, rfl⟩
    · next hr => exact Or.inr ⟨by simpa using hr, rfl, rfl⟩
  · contradiction

private theorem guards_of_tryBeginRebuild {s t : WriterState} {call : Nat}
    (h : s.tryBeginRebuild call = .ok t) :
    s.durableWriters = ⟨false, false⟩ ∧ t.durableWriters = ⟨false, true⟩ ∧
      t.guards = ⟨call, .rebuild⟩ :: s.guards := by
  obtain ⟨⟨scan, rebuild⟩, parked, guards⟩ := s
  unfold tryBeginRebuild at h
  split at h
  · cases h
  · next hrebuild =>
    split at h
    · cases h
    · next hscan =>
      obtain rfl : rebuild = false := Bool.eq_false_iff.mpr hrebuild
      obtain rfl : scan = false := Bool.eq_false_iff.mpr hscan
      cases h
      exact ⟨rfl, rfl, rfl⟩

private theorem guards_of_step_rebuild {s t : WriterState} {call : Nat}
    (h : step s (.tryBeginRebuild call) = some t) :
    t = s ∨
    (s.durableWriters = ⟨false, false⟩ ∧ t.durableWriters = ⟨false, true⟩ ∧
      t.guards = ⟨call, .rebuild⟩ :: s.guards) := by
  simp only [step, Option.ite_none_right_eq_some] at h
  obtain ⟨-, h⟩ := h
  split at h
  · next granted hok =>
    obtain rfl := Option.some.inj h
    exact Or.inr (guards_of_tryBeginRebuild hok)
  · exact Or.inl (Option.some.inj h).symm

/-- What a step can do to the flags and guards: nothing, grant a scan guard while no
rebuild flag is set, grant a rebuild guard while neither flag is set, or drop a guard. -/
theorem step_cases {s t : WriterState} {a : WriterAction} (h : step s a = some t) :
    (t.durableWriters = s.durableWriters ∧ t.guards = s.guards) ∨
    (∃ call, s.durableWriters.rebuild = false ∧
      t.durableWriters = { s.durableWriters with scan := true } ∧
      t.guards = ⟨call, .scan⟩ :: s.guards) ∨
    (∃ call, s.durableWriters = ⟨false, false⟩ ∧ t.durableWriters = ⟨false, true⟩ ∧
      t.guards = ⟨call, .rebuild⟩ :: s.guards) ∨
    (∃ g ∈ s.guards, a = .dropGuard g ∧
      t.durableWriters = releaseDurableWriter s.durableWriters g.writer ∧
      t.guards = s.guards.erase g) := by
  cases a with
  | beginScanAfterAnyRebuild call =>
    obtain h | h := guards_of_step_begin h
    · exact Or.inl h
    · exact Or.inr (Or.inl ⟨call, h⟩)
  | wakeScan call =>
    obtain h | h := guards_of_step_wake h
    · exact Or.inl h
    · exact Or.inr (Or.inl ⟨call, h⟩)
  | tryBeginRebuild call =>
    obtain rfl | h := guards_of_step_rebuild h
    · exact Or.inl ⟨rfl, rfl⟩
    · exact Or.inr (Or.inr (Or.inl ⟨call, h⟩))
  | dropGuard g =>
    simp only [step, Option.ite_none_right_eq_some, Option.some.injEq] at h
    obtain ⟨hg, rfl⟩ := h
    exact Or.inr (Or.inr (Or.inr ⟨g, hg, rfl, rfl, rfl⟩))

/-- The rebuild guards which are alive. -/
def rebuildGuards (s : WriterState) : Nat :=
  s.guards.countP fun g ↦ g.writer = .rebuild

/-- The rebuild flag counts the live rebuild guards, and the two flags exclude each other.
Both hold whatever the scans do. -/
structure RebuildFlagHonest (s : WriterState) : Prop where
  counts : s.rebuildGuards = s.durableWriters.rebuild.toNat
  flags : ¬ (s.durableWriters.scan = true ∧ s.durableWriters.rebuild = true)

/-- A clear scan flag means that no scan guard is alive. -/
def ScanFlagHonest (s : WriterState) : Prop :=
  s.durableWriters.scan = false → ¬ s.Alive .scan

theorem RebuildFlagHonest.alive_iff {s : WriterState} (h : RebuildFlagHonest s) :
    s.Alive .rebuild ↔ s.durableWriters.rebuild = true := by
  have hpos : s.Alive .rebuild ↔ 0 < s.rebuildGuards := by
    simp [Alive, rebuildGuards, List.countP_pos_iff]
  rw [hpos, h.counts]
  cases s.durableWriters.rebuild <;> simp

private theorem countP_erase_rebuild {s : WriterState} {g : DurableWriteGuard}
    (hg : g ∈ s.guards) :
    (s.guards.erase g).countP (fun g ↦ g.writer = .rebuild) =
      s.rebuildGuards - (if g.writer = .rebuild then 1 else 0) := by
  have hperm := (List.perm_cons_erase hg).countP_eq fun g ↦ decide (g.writer = .rebuild)
  rw [List.countP_cons] at hperm
  simp only [decide_eq_true_eq] at hperm
  rw [rebuildGuards, hperm]
  split <;> omega

/-- Every action keeps the rebuild flag honest. -/
theorem rebuildFlagHonest_step {s t : WriterState} {a : WriterAction}
    (hs : RebuildFlagHonest s) (h : step s a = some t) : RebuildFlagHonest t := by
  obtain ⟨hw, hg⟩ | ⟨call, hr, hw, hg⟩ | ⟨call, hf, hw, hg⟩ | ⟨g, hmem, -, hw, hg⟩ :=
    step_cases h
  · refine ⟨?_, ?_⟩
    · rw [rebuildGuards, hg, hw]
      exact hs.counts
    · rw [hw]
      exact hs.flags
  · have hcount : s.rebuildGuards = 0 := by rw [hs.counts, hr]; rfl
    refine ⟨?_, ?_⟩
    · simpa [rebuildGuards, hg, hw, hr] using hcount
    · simp [hw, hr]
  · have hcount : s.rebuildGuards = 0 := by rw [hs.counts, hf]; rfl
    refine ⟨?_, ?_⟩
    · simpa [rebuildGuards, hg, hw] using hcount
    · simp [hw]
  · have hcount := countP_erase_rebuild hmem
    refine ⟨?_, ?_⟩
    · rw [rebuildGuards, hg, hcount, hs.counts, hw]
      cases hwr : g.writer with
      | scan => simp [releaseDurableWriter]
      | rebuild => cases s.durableWriters.rebuild <;> simp [releaseDurableWriter]
    · have := hs.flags
      cases hwr : g.writer <;> simp_all [releaseDurableWriter]

/-- A step which drops no overlapped scan guard keeps the scan flag honest. -/
theorem scanFlagHonest_step {s t : WriterState} {a : WriterAction}
    (hs : ScanFlagHonest s) (hok : LastScanDropped s a) (h : step s a = some t) :
    ScanFlagHonest t := by
  intro hclear
  obtain ⟨hw, hg⟩ | ⟨call, hr, hw, hg⟩ | ⟨call, hf, hw, hg⟩ | ⟨g, hmem, rfl, hw, hg⟩ :=
    step_cases h
  · rw [hw] at hclear
    simpa [Alive, hg] using hs hclear
  · simp [hw] at hclear
  · have := hs (by rw [hf])
    simpa [Alive, hg] using this
  · cases hwr : g.writer with
    | scan =>
      intro ⟨g', hg', hscan⟩
      rw [hg] at hg'
      exact hok hwr g' hg' hscan
    | rebuild =>
      rw [hw, hwr] at hclear
      intro ⟨g', hg', hscan⟩
      rw [hg] at hg'
      exact hs hclear ⟨g', List.mem_of_mem_erase hg', hscan⟩

/-- No run whatsoever makes the rebuild flag dishonest. -/
theorem rebuildFlagHonest_of_reaches {s : WriterState}
    (h : Reaches step always initial s) : RebuildFlagHonest s :=
  h.invariant (fun _ _ _ hs _ hstep ↦ rebuildFlagHonest_step hs hstep)
    ⟨by decide, by decide⟩

/-! ### Exclusion -/

/-- A granted scan guard found the rebuild flag clear. -/
theorem rebuild_clear_of_grants_scan {s : WriterState} {a : WriterAction}
    (h : s.Grants a .scan) : s.durableWriters.rebuild = false := by
  obtain ⟨t, g, hstep, hw, hguards⟩ := h
  obtain ⟨-, hg⟩ | ⟨call, hr, -, -⟩ | ⟨call, -, -, hg⟩ | ⟨g', hmem, -, -, hg⟩ :=
    step_cases hstep
  · exact absurd (hguards.symm.trans hg) (List.cons_ne_self _ _)
  · exact hr
  · rw [hguards, List.cons.injEq] at hg
    simp [hg.1] at hw
  · have := congrArg List.length (hguards.symm.trans hg)
    rw [List.length_cons, List.length_erase_of_mem hmem] at this
    omega

/-- A granted rebuild guard found both flags clear. -/
theorem clear_of_grants_rebuild {s : WriterState} {a : WriterAction}
    (h : s.Grants a .rebuild) : s.durableWriters = ⟨false, false⟩ := by
  obtain ⟨t, g, hstep, hw, hguards⟩ := h
  obtain ⟨-, hg⟩ | ⟨call, -, -, hg⟩ | ⟨call, hf, -, -⟩ | ⟨g', hmem, -, -, hg⟩ :=
    step_cases hstep
  · exact absurd (hguards.symm.trans hg) (List.cons_ne_self _ _)
  · rw [hguards, List.cons.injEq] at hg
    simp [hg.1] at hw
  · exact hf
  · have := congrArg List.length (hguards.symm.trans hg)
    rw [List.length_cons, List.length_erase_of_mem hmem] at this
    omega

/-- In every run, no scan guard is granted while a rebuild guard is alive. -/
theorem scan_not_granted_while_rebuild_alive {s : WriterState} {a : WriterAction}
    (h : Reaches step always initial s) (hgrant : s.Grants a .scan) :
    ¬ s.Alive .rebuild := by
  rw [(rebuildFlagHonest_of_reaches h).alive_iff, rebuild_clear_of_grants_scan hgrant]
  simp

/-- Honest flags give exclusion. -/
theorem exclusion_of_honest {s : WriterState} (hr : RebuildFlagHonest s)
    (hs : ScanFlagHonest s) : DurableWriterExclusion s := by
  refine ⟨?_, ?_, ?_⟩
  · intro ⟨hscan, hrebuild⟩
    have hflag := hr.alive_iff.mp hrebuild
    have hclear : s.durableWriters.scan = false := by
      cases hsc : s.durableWriters.scan with
      | false => rfl
      | true => exact absurd ⟨hsc, hflag⟩ hr.flags
    exact hs hclear hscan
  · intro a hgrant
    exact hs (by rw [clear_of_grants_rebuild hgrant])
  · intro a hgrant
    rw [hr.alive_iff, rebuild_clear_of_grants_scan hgrant]
    simp

/-- Every run whose scan guards are dropped one at a time keeps the exclusion. -/
theorem durable_writer_exclusion {s : WriterState}
    (h : Reaches step LastScanDropped initial s) : DurableWriterExclusion s := by
  have hr := rebuildFlagHonest_of_reaches (h.mono fun _ _ _ ↦ trivial)
  have hs : ScanFlagHonest s :=
    h.invariant (fun _ _ _ hs hok hstep ↦ scanFlagHonest_step hs hok hstep)
      (by simp [ScanFlagHonest, Alive, initial])
  exact exclusion_of_honest hr hs

/-- A scan which has finished leaves the path to a rebuild. -/
theorem durable_writer_exclusion_after_scan :
    DurableWriterExclusion ⟨⟨false, true⟩, [], [⟨1, .rebuild⟩]⟩ :=
  durable_writer_exclusion <|
    ((((Reaches.refl initial).tail (a := .beginScanAfterAnyRebuild 0) trivial rfl).tail
      (a := .dropGuard ⟨0, .scan⟩)
      (by intro _ g' hg'; simp [beginScanAfterAnyRebuild, grantScan, initial] at hg') rfl).tail
      (a := .tryBeginRebuild 1) trivial rfl)

/-- Two scan calls, the first guard dropped while the second is alive, then a rebuild. -/
def overlappingScans : List WriterAction :=
  [.beginScanAfterAnyRebuild 0, .beginScanAfterAnyRebuild 1, .dropGuard ⟨0, .scan⟩,
    .tryBeginRebuild 2]

/-- The overlapping scans end with a rebuild guard and a scan guard alive together. -/
theorem overlapping_scans_admit_rebuild :
    ∃ s, Reaches step always initial s ∧ ¬ DurableWriterExclusion s := by
  refine ⟨⟨⟨false, true⟩, [], [⟨2, .rebuild⟩, ⟨1, .scan⟩]⟩,
    reaches_of_run overlappingScans (by decide), ?_⟩
  intro h
  exact h.alive (by decide)

/-- Dropping a scan guard under another live scan guard lets the next rebuild call in, so
the condition of `durable_writer_exclusion` cannot be relaxed at any step. -/
theorem rebuild_admitted_after_overlapped_drop {s : WriterState} {g g' : DurableWriteGuard}
    {call : Nat} (h : Reaches step always initial s) (hg : g ∈ s.guards)
    (hg' : g' ∈ s.guards.erase g) (hw : g.writer = .scan) (hw' : g'.writer = .scan)
    (hexcl : DurableWriterExclusion s) (hfresh : (s.dropGuard g).isFresh call = true) :
    ∃ t, run step s [.dropGuard g, .tryBeginRebuild call] = some t ∧
      ¬ DurableWriterExclusion t := by
  have hclear : s.durableWriters.rebuild = false := by
    have hnot : ¬ s.Alive .rebuild := fun hr ↦ hexcl.alive ⟨⟨g, hg, hw⟩, hr⟩
    rw [(rebuildFlagHonest_of_reaches h).alive_iff] at hnot
    simpa using hnot
  refine ⟨{ s.dropGuard g with
    durableWriters := ⟨false, true⟩
    guards := ⟨call, .rebuild⟩ :: s.guards.erase g }, ?_, ?_⟩
  · simp only [run, step, hg, ↓reduceIte, Option.bind_some, hfresh]
    simp [tryBeginRebuild, dropGuard, releaseDurableWriter, hw, hclear]
  · intro hbad
    exact hbad.alive ⟨⟨g', List.mem_cons_of_mem _ hg', hw'⟩,
      ⟨_, List.mem_cons_self, rfl⟩⟩

end WriterState

end AgentOdometer.Store
