import AgentOdometer.Telemetry.Metrics
import Mathlib.Data.List.Sort

/-!
# Range totals of a live session

`Session::range_totals_multi` (`model.rs:1000–1148`), the in-memory accounting of a session
over date windows. Bounds are inclusive and compared in whole milliseconds, which in a leap second
run ahead of the order of the instants.
-/

namespace AgentOdometer

open Std (ExtTreeMap)
open GroupBy Telemetry

variable {τ : Type}

/-- Inclusive bounds of a window; `none` is open. Follows `model.rs:710–716`. -/
abbrev RangeWindow (τ : Type := DateTime) : Type :=
  Option τ × Option τ

/-- Usage of one session in one window. Follows `model.rs:721–748`; `pricing` is filled in
by the caller. -/
structure RangeTotals where
  tokens : TokenTotals
  buckets : List TierBucket
  toolMetrics : ToolMetrics
  toolMetricsByModel : ExtTreeMap String ToolMetrics
  optimizationFindingsCount : Nat
  optimizationSummary : OptimizationSummary
  toolDimensions : ExtTreeMap String (ExtTreeMap String ToolDimensionMetrics)

namespace OptimizationSummary

/-- The derived default. -/
def empty : OptimizationSummary :=
  ⟨0, 0, 0, ∅⟩

/-- Count one finding. Follows `model.rs:370–377`. -/
def add (out : OptimizationSummary) (finding : OptimizationFinding τ) : OptimizationSummary where
  findings := out.findings + 1
  warnings := if finding.severity = "warning" then out.warnings + 1 else out.warnings
  likelyAvoidableCalls := out.likelyAvoidableCalls + finding.avoidableCalls
  byRule := updateEntry out.byRule finding.ruleId 0 (· + 1)

/-- Counts over findings. Follows `model.rs:368–379`. -/
def fromFindings (findings : List (OptimizationFinding τ)) : OptimizationSummary :=
  findings.foldl add empty

/-- The counts read the rule, the severity and the avoidable calls of a finding. -/
theorem fromFindings_map {f : OptimizationFinding τ → OptimizationFinding}
    (hrule : ∀ x, (f x).ruleId = x.ruleId) (hseverity : ∀ x, (f x).severity = x.severity)
    (hcalls : ∀ x, (f x).avoidableCalls = x.avoidableCalls) (l : List (OptimizationFinding τ)) :
    fromFindings (l.map f) = fromFindings l := by
  unfold fromFindings
  rw [List.foldl_map]
  congr 1
  funext out x
  unfold add
  rw [hrule, hseverity, hcalls]

end OptimizationSummary

namespace RangeTotals

/-! ### Selecting events -/

section Select

variable [Timestamp τ] {α : Type}

/-- `windows(2).all(|pair| pair[0].timestamp <= pair[1].timestamp)`. -/
def isSortedBy (timestamp : α → τ) : List α → Bool
  | a :: b :: rest => decide (timestamp a ≤ timestamp b) && isSortedBy timestamp (b :: rest)
  | _ => true

/-- `partition_point` of a list which satisfies the predicate on an initial segment; of any other
list, one of the positions std leaves open. -/
def partitionPoint (p : α → Bool) (l : List α) : Nat :=
  (l.takeWhile p).length

/-- Whether an instant lies in a window. Follows `model.rs:1059–1066`. -/
def inWindow (window : RangeWindow τ) (t : τ) : Bool :=
  (match window.1 with
    | none => true
    | some start => decide (Timestamp.timestampMillis t ≥ Timestamp.timestampMillis start)) &&
  (match window.2 with
    | none => true
    | some stop => decide (Timestamp.timestampMillis t ≤ Timestamp.timestampMillis stop))

/-- The events of a window: a slice of a sorted history, else a scan of it. Follows
`model.rs:1042–1071`, `1073–1099` and `1122–1135`. -/
def select (timestamp : α → τ) (window : RangeWindow τ) (l : List α) : List α :=
  if isSortedBy timestamp l then
    let start := match window.1 with
      | none => 0
      | some start => partitionPoint (fun e ↦
          Timestamp.timestampMillis (timestamp e) < Timestamp.timestampMillis start) l
    let stop := match window.2 with
      | none => l.length
      | some stop => partitionPoint (fun e ↦
          Timestamp.timestampMillis (timestamp e) ≤ Timestamp.timestampMillis stop) l
    (l.take stop).drop (min start stop)
  else l.filter fun e ↦ inWindow window (timestamp e)

/-- The milliseconds of a list never go back if its instants do not. -/
def MillisFollow (timestamp : α → τ) (l : List α) : Prop :=
  isSortedBy timestamp l = true → l.Pairwise fun a b ↦
    Timestamp.timestampMillis (timestamp a) ≤ Timestamp.timestampMillis (timestamp b)

instance (timestamp : α → τ) (l : List α) : Decidable (MillisFollow timestamp l) :=
  inferInstanceAs (Decidable (_ → _))

theorem isSortedBy_pairwise {timestamp : α → τ} {l : List α}
    (h : isSortedBy timestamp l = true) : l.Pairwise fun a b ↦ timestamp a ≤ timestamp b := by
  induction l with
  | nil => exact List.Pairwise.nil
  | cons a l ih =>
    cases l with
    | nil => exact List.pairwise_singleton _ a
    | cons b rest =>
      simp only [isSortedBy, Bool.and_eq_true, decide_eq_true_eq] at h
      have hrest := ih h.2
      refine List.pairwise_cons.mpr ⟨?_, hrest⟩
      intro c hc
      obtain rfl | hc := List.mem_cons.mp hc
      · exact h.1
      · exact h.1.trans ((List.pairwise_cons.mp hrest).1 c hc)

/-- Instants without leap seconds are followed by their milliseconds. -/
theorem millisFollow_dateTime (timestamp : α → DateTime) (l : List α) :
    MillisFollow timestamp l :=
  fun hsorted ↦ (isSortedBy_pairwise hsorted).imp fun h ↦ DateTime.timestampMillis_mono h

/-- So are stored instants none of which lies in a leap second. -/
theorem millisFollow_of_subsecNanos {timestamp : α → LeapDateTime} {l : List α}
    (h : ∀ a ∈ l, (timestamp a).subsecNanos < 1000000000) : MillisFollow timestamp l := by
  intro hsorted
  apply (isSortedBy_pairwise hsorted).imp_of_mem
  intro a b ha _ hab
  exact LeapDateTime.timestampMillis_mono (h a ha) hab

private theorem filter_eq_takeWhile {p : α → Bool} {l : List α}
    (hl : l.Pairwise fun a b ↦ p b = true → p a = true) : l.filter p = l.takeWhile p := by
  induction l with
  | nil => rfl
  | cons a l ih =>
    rw [List.pairwise_cons] at hl
    by_cases ha : p a = true
    · rw [List.filter_cons_of_pos ha, List.takeWhile_cons_of_pos ha, ih hl.2]
    · rw [List.takeWhile_cons_of_neg ha, List.filter_eq_nil_iff]
      intro b hb hpb
      obtain rfl | hb := List.mem_cons.mp hb
      · exact ha hpb
      · exact ha (hl.1 b hb hpb)

private theorem filter_not_eq_drop {p : α → Bool} {l : List α}
    (hl : l.Pairwise fun a b ↦ p b = true → p a = true) :
    l.filter (fun a ↦ !p a) = l.drop (partitionPoint p l) := by
  unfold partitionPoint
  induction l with
  | nil => rfl
  | cons a l ih =>
    rw [List.pairwise_cons] at hl
    by_cases ha : p a = true
    · rw [List.takeWhile_cons_of_pos ha, List.length_cons, List.drop_succ_cons, ← ih hl.2,
        List.filter_cons_of_neg (by simp [ha])]
    · rw [List.takeWhile_cons_of_neg ha, List.length_nil, List.drop_zero, List.filter_eq_self]
      intro b hb
      obtain rfl | hb := List.mem_cons.mp hb
      · simp [ha]
      · cases hpb : p b with
        | false => rfl
        | true => exact absurd (hl.1 b hb hpb) ha

private theorem take_partitionPoint (p : α → Bool) (l : List α) :
    l.take (partitionPoint p l) = l.takeWhile p :=
  (List.prefix_iff_eq_take.mp (List.takeWhile_prefix p)).symm

private theorem partitionPoint_take (p : α → Bool) (l : List α) (k : Nat) :
    partitionPoint p (l.take k) = min (partitionPoint p l) k := by
  unfold partitionPoint
  induction l generalizing k with
  | nil => simp
  | cons a l ih =>
    cases k with
    | zero => simp
    | succ k =>
      by_cases ha : p a = true
      · rw [List.take_succ_cons, List.takeWhile_cons_of_pos ha, List.takeWhile_cons_of_pos ha,
          List.length_cons, List.length_cons, ih]
        omega
      · rw [List.take_succ_cons, List.takeWhile_cons_of_neg ha, List.takeWhile_cons_of_neg ha]
        simp

/-- The binary-searched slice of a sorted history is the scan of it when milliseconds follow. -/
theorem select_eq_filter {timestamp : α → τ} {l : List α} (h : MillisFollow timestamp l)
    (window : RangeWindow τ) :
    select timestamp window l = l.filter fun e ↦ inWindow window (timestamp e) := by
  unfold select
  split
  · next hsorted =>
    have hmono := h hsorted
    obtain ⟨start, stop⟩ := window
    have hstop : ∀ bound : Int,
        l.take (partitionPoint (fun e ↦ Timestamp.timestampMillis (timestamp e) ≤ bound) l) =
          l.filter fun e ↦ Timestamp.timestampMillis (timestamp e) ≤ bound := by
      intro bound
      rw [take_partitionPoint, filter_eq_takeWhile]
      apply hmono.imp
      intro a b hab hb
      simp only [decide_eq_true_eq] at hb ⊢
      omega
    have hstart : ∀ bound : Int, ∀ k, (l.take k).drop
        (min (partitionPoint (fun e ↦ Timestamp.timestampMillis (timestamp e) < bound) l) k)
          = (l.take k).filter fun e ↦ Timestamp.timestampMillis (timestamp e) ≥ bound := by
      intro bound k
      rw [← partitionPoint_take, ← filter_not_eq_drop]
      · simp only [ge_iff_le, ← Int.not_lt, decide_not]
      · apply (hmono.sublist (List.take_sublist k l)).imp
        intro a b hab hb
        simp only [decide_eq_true_eq] at hb ⊢
        omega
    cases start with
    | none =>
      cases stop with
      | none => simp [inWindow]
      | some stop => simp [inWindow, hstop]
    | some start =>
      cases stop with
      | none =>
        dsimp only
        rw [hstart, List.take_length]
        simp [inWindow]
      | some stop =>
        dsimp only
        rw [hstart, hstop, List.filter_filter]
        simp [inWindow]
  · rfl

theorem select_dateTime (timestamp : α → DateTime) (window : RangeWindow) (l : List α) :
    select timestamp window l = l.filter fun e ↦ inWindow window (timestamp e) :=
  select_eq_filter (millisFollow_dateTime timestamp l) window

/-- No initial segment of a list holds exactly the elements with a property when an element
without it stands before one with it. -/
private theorem pairwise_of_filter_eq_take {p : α → Bool} {l : List α} {k : Nat}
    (h : l.filter p = l.take k) : l.Pairwise fun a b ↦ p b = true → p a = true := by
  have hhead : ∀ a ∈ l.take k, p a = true := fun a ha ↦ List.of_mem_filter (h ▸ ha)
  have htail : (l.drop k).filter p = [] := by
    have happend := List.filter_append (p := p) (l.take k) (l.drop k)
    rw [List.take_append_drop, h, List.filter_eq_self.mpr hhead] at happend
    exact List.append_right_eq_self.mp happend.symm
  have hsplit : l.take k ++ l.drop k = l := List.take_append_drop k l
  rw [← hsplit, List.pairwise_append]
  refine ⟨?_, ?_, ?_⟩
  · exact List.pairwise_of_forall_mem_list fun a ha _ _ _ ↦ hhead a ha
  · refine List.pairwise_of_forall_mem_list fun _ _ b hb hpb ↦ ?_
    exact absurd hpb (List.filter_eq_nil_iff.mp htail b hb)
  · intro a ha _ _ _
    exact hhead a ha

/-- The slices of all windows are the scans exactly when the milliseconds follow the instants,
wherever `partition_point` ends. -/
theorem select_eq_filter_iff (timestamp : α → τ) (l : List α) :
    (∀ window, select timestamp window l = l.filter fun e ↦ inWindow window (timestamp e)) ↔
      MillisFollow timestamp l := by
  refine ⟨?_, fun h ↦ select_eq_filter h⟩
  intro h hsorted
  have hbefore : ∀ stop : τ, l.Pairwise fun a b ↦
      Timestamp.timestampMillis (timestamp b) ≤ Timestamp.timestampMillis stop →
        Timestamp.timestampMillis (timestamp a) ≤ Timestamp.timestampMillis stop := by
    intro stop
    have hslice := h (none, some stop)
    unfold select at hslice
    rw [if_pos hsorted] at hslice
    simp only [Nat.zero_min, List.drop_zero] at hslice
    apply (pairwise_of_filter_eq_take hslice.symm).imp
    intro a b hab hb
    simpa [inWindow] using hab (by simpa [inWindow] using hb)
  rw [List.pairwise_iff_getElem]
  intro i j hi hj hij
  exact List.pairwise_iff_getElem.mp (hbefore (timestamp l[j])) i j hi hj hij le_rfl

end Select

/-! ### Accumulating events -/

/-- Key under which a bucket is found and sorted. -/
def bucketKey (bucket : TierBucket) : String × Option String :=
  (bucket.model, bucket.serviceTier)

/-- Add to the first bucket of a model and tier, or append one. Follows `model.rs:1031–1040`. -/
def addToBucket (model : String) (serviceTier : Option String) (delta : TokenTotals) :
    List TierBucket → List TierBucket
  | [] => [⟨model, serviceTier, delta⟩]
  | bucket :: rest =>
      if bucket.model = model ∧ bucket.serviceTier = serviceTier then
        { bucket with tokens := bucket.tokens + delta } :: rest
      else bucket :: addToBucket model serviceTier delta rest

/-- Accumulate one token event. Follows `model.rs:1028–1041`. -/
def addEvent (acc : TokenTotals × List TierBucket) (event : TokenHistoryPoint τ) :
    TokenTotals × List TierBucket :=
  (acc.1 + event.delta,
    match event.model with
    | none => acc.2
    | some model => addToBucket model event.serviceTier event.delta acc.2)

/-- Order of buckets by model, then tier. Follows `model.rs:1117–1121`. -/
def bucketLe (a b : TierBucket) : Prop :=
  (compare (bucketKey a) (bucketKey b)).isLE

instance : DecidableRel bucketLe :=
  fun a b ↦ inferInstanceAs (Decidable ((compare (bucketKey a) (bucketKey b)).isLE = true))

instance : Std.Total bucketLe where
  total := by
    intro a b
    have hswap : compare (bucketKey b) (bucketKey a) =
        (compare (bucketKey a) (bucketKey b)).swap := Std.OrientedCmp.eq_swap
    unfold bucketLe
    rw [hswap]
    cases compare (bucketKey a) (bucketKey b) <;> simp

instance : IsTrans TierBucket bucketLe where
  trans := by
    intro a b c hab hbc
    exact Std.TransCmp.isLE_trans hab hbc

/-- Whether a finding belongs to a window; an undated one belongs to the unbounded window.
Follows `model.rs:1103–1110`. -/
def findingInWindow [Timestamp τ] (window : RangeWindow τ) (finding : OptimizationFinding τ) :
    Bool :=
  match finding.timestamp with
  | some t => inWindow window t
  | none => window.1.isNone && window.2.isNone

/-- Findings of a window. Follows `model.rs:1100–1111`. -/
def selectFindings [Timestamp τ] (window : RangeWindow τ)
    (findings : List (OptimizationFinding τ)) : List (OptimizationFinding τ) :=
  findings.filter (findingInWindow window)

/-- Totals over the events selected for one window. Follows `model.rs:1024–1145`. -/
def ofEvents (events : List (TokenHistoryPoint τ)) (observations : List (ToolObservation τ))
    (findings : List (OptimizationFinding τ)) : RangeTotals :=
  let usage := events.foldl addEvent (0, [])
  let tools := metricsWithModels observations
  { tokens := usage.1
    buckets := usage.2.insertionSort bucketLe
    toolMetrics := tools.1
    toolMetricsByModel := tools.2
    optimizationFindingsCount := findings.length
    optimizationSummary := .fromFindings findings
    toolDimensions := dimensionTotals observations usage.1 }

end RangeTotals

/-- Usage inside each window. Follows `model.rs:1012–1148`. -/
def Session.rangeTotalsMulti [Timestamp τ] (session : Session τ) (windows : List (RangeWindow τ)) :
    List RangeTotals :=
  windows.map fun window ↦ .ofEvents
    (RangeTotals.select TokenHistoryPoint.timestamp window session.tokensHistory)
    (RangeTotals.select ToolObservation.timestamp window session.toolObservations)
    (RangeTotals.selectFindings window session.optimizationFindings)

namespace RangeTotals

/-- The bucket entry of each event that names a model. -/
def modelEntries (events : List (TokenHistoryPoint τ)) :
    List ((String × Option String) × TokenTotals) :=
  events.filterMap fun event ↦ event.model.map fun model ↦
    ((model, event.serviceTier), event.delta)

/-- A bucket from an entry. -/
def ofEntry (e : (String × Option String) × TokenTotals) : TierBucket :=
  ⟨e.1.1, e.1.2, e.2⟩

private theorem foldl_addEvent (events : List (TokenHistoryPoint τ))
    (acc : TokenTotals × List TierBucket) :
    events.foldl addEvent acc =
      (acc.1 + (events.map fun event ↦ event.delta).sum,
        (modelEntries events).foldl (fun buckets e ↦ addToBucket e.1.1 e.1.2 e.2 buckets)
          acc.2) := by
  induction events generalizing acc with
  | nil => simp [modelEntries]
  | cons event events ih =>
    rw [List.foldl_cons, ih, List.map_cons, List.sum_cons, ← add_assoc]
    congr 1
    cases hmodel : event.model <;> simp [modelEntries, addEvent, hmodel]

private def bucketAt (key : String × Option String) (buckets : List TierBucket) :
    Option TokenTotals :=
  (buckets.find? fun bucket ↦ bucketKey bucket = key).map TierBucket.tokens

private theorem bucketAt_addToBucket (key : String × Option String) (model : String)
    (serviceTier : Option String) (delta : TokenTotals) (buckets : List TierBucket) :
    bucketAt key (addToBucket model serviceTier delta buckets) =
      if (model, serviceTier) = key then
        some ((bucketAt key buckets).getD 0 + delta)
      else bucketAt key buckets := by
  induction buckets with
  | nil =>
    by_cases h : (model, serviceTier) = key <;>
      simp [addToBucket, bucketAt, bucketKey, h]
  | cons bucket rest ih =>
    unfold addToBucket
    split
    · next hmatch =>
      obtain ⟨rfl, rfl⟩ := hmatch
      by_cases h : (bucket.model, bucket.serviceTier) = key <;>
        simp [bucketAt, bucketKey, h]
    · next hother =>
      by_cases hkey : bucketKey bucket = key
      · have hne : (model, serviceTier) ≠ key := by
          rintro rfl
          exact hother ⟨congrArg Prod.fst hkey, congrArg Prod.snd hkey⟩
        simp [bucketAt, hkey, hne]
      · have hcons : ∀ l : List TierBucket, bucketAt key (bucket :: l) = bucketAt key l := by
          intro l
          simp [bucketAt, hkey]
        rw [hcons, hcons, ih]

private theorem keys_addToBucket (model : String) (serviceTier : Option String)
    (delta : TokenTotals) (buckets : List TierBucket) (h : (buckets.map bucketKey).Nodup) :
    ((addToBucket model serviceTier delta buckets).map bucketKey).Nodup ∧
      ∀ k ∈ (addToBucket model serviceTier delta buckets).map bucketKey,
        k ∈ buckets.map bucketKey ∨ k = (model, serviceTier) := by
  induction buckets with
  | nil => simp [addToBucket, bucketKey]
  | cons bucket rest ih =>
    rw [List.map_cons, List.nodup_cons] at h
    unfold addToBucket
    split
    · next hmatch =>
      refine ⟨List.nodup_cons.mpr h, ?_⟩
      intro k hk
      exact Or.inl hk
    · next hother =>
      obtain ⟨hnodup, hmem⟩ := ih h.2
      rw [List.map_cons, List.nodup_cons]
      refine ⟨⟨?_, hnodup⟩, ?_⟩
      · intro hin
        obtain hin | heq := hmem _ hin
        · exact h.1 hin
        · exact hother ⟨congrArg Prod.fst heq, congrArg Prod.snd heq⟩
      · intro k hk
        obtain rfl | hk := List.mem_cons.mp hk
        · exact Or.inl List.mem_cons_self
        · exact (hmem k hk).imp_left (List.mem_cons_of_mem _)

private theorem mem_iff_bucketAt {buckets : List TierBucket}
    (h : (buckets.map bucketKey).Nodup) (key : String × Option String) (tokens : TokenTotals) :
    ofEntry (key, tokens) ∈ buckets ↔ bucketAt key buckets = some tokens := by
  induction buckets with
  | nil => simp [bucketAt]
  | cons bucket rest ih =>
    rw [List.map_cons, List.nodup_cons] at h
    by_cases hkey : bucketKey bucket = key
    · have hhead : bucketAt key (bucket :: rest) = some bucket.tokens := by
        simp [bucketAt, hkey]
      rw [hhead, List.mem_cons, Option.some.injEq]
      constructor
      · rintro (heq | hin)
        · exact (congrArg TierBucket.tokens heq).symm
        · exact absurd (List.mem_map_of_mem hin) (hkey ▸ h.1)
      · rintro rfl
        subst hkey
        exact Or.inl rfl
    · have htail : bucketAt key (bucket :: rest) = bucketAt key rest := by
        simp [bucketAt, hkey]
      rw [htail, List.mem_cons, ih h.2]
      constructor
      · rintro (heq | hin)
        · exact absurd (congrArg bucketKey heq.symm) hkey
        · exact hin
      · exact Or.inr

/-- The sorted buckets are the groups of the events by model and tier. -/
theorem buckets_eq (events : List (TokenHistoryPoint τ)) :
    ((events.foldl addEvent (0, [])).2.insertionSort bucketLe) =
      (groupSum (modelEntries events)).toList.map ofEntry := by
  rw [foldl_addEvent]
  dsimp only
  generalize modelEntries events = entries
  obtain ⟨hnodup, hget⟩ : ((entries.foldl
      (fun buckets e ↦ addToBucket e.1.1 e.1.2 e.2 buckets) []).map bucketKey).Nodup ∧
      ∀ key, bucketAt key (entries.foldl
        (fun buckets e ↦ addToBucket e.1.1 e.1.2 e.2 buckets) []) = (groupSum entries)[key]? := by
    induction entries using List.reverseRecOn with
    | nil => exact ⟨List.nodup_nil, fun key ↦ rfl⟩
    | append_singleton entries e ih =>
      rw [List.foldl_append, List.foldl_cons, List.foldl_nil]
      refine ⟨(keys_addToBucket _ _ _ _ ih.1).1, ?_⟩
      intro key
      rw [bucketAt_addToBucket, ih.2, groupSum_append, getElem?_addEntries]
      by_cases hkey : e.1 = key <;> simp [hkey, sumAt]
  generalize entries.foldl (fun buckets e ↦ addToBucket e.1.1 e.1.2 e.2 buckets) [] = buckets
    at hnodup hget
  have hperm := List.perm_insertionSort bucketLe buckets
  have hsorted : ((buckets.insertionSort bucketLe).map fun b ↦ (bucketKey b, b.tokens)).Pairwise
      OrderedMap.keyLt := by
    rw [List.pairwise_map]
    have hle := List.pairwise_insertionSort bucketLe buckets
    have hne : (buckets.insertionSort bucketLe).Pairwise fun a b ↦ bucketKey a ≠ bucketKey b :=
      List.pairwise_map.mp ((hperm.map bucketKey).nodup_iff.mpr hnodup)
    apply (hle.and hne).imp
    rintro a b ⟨hab, hkey⟩
    unfold bucketLe at hab
    unfold OrderedMap.keyLt
    dsimp only
    cases hcmp : compare (bucketKey a) (bucketKey b) with
    | lt => rfl
    | eq => exact absurd (Std.LawfulEqCmp.eq_of_compare hcmp) hkey
    | gt => simp [hcmp] at hab
  have htoList := OrderedMap.toList_eq_of_pairwise (m := groupSum entries) hsorted (by
    rintro ⟨key, tokens⟩
    rw [← hget, ← mem_iff_bucketAt hnodup, ← hperm.mem_iff, List.mem_map]
    constructor
    · rintro ⟨b, hb, heq⟩
      obtain ⟨rfl, rfl⟩ := Prod.mk.inj heq
      exact hb
    · intro hb
      exact ⟨_, hb, rfl⟩)
  rw [htoList, List.map_map]
  exact (List.map_id _).symm

/-- Buckets listed by key are already sorted. -/
theorem insertionSort_map_ofEntry (m : ExtTreeMap (String × Option String) TokenTotals) :
    (m.toList.map ofEntry).insertionSort bucketLe = m.toList.map ofEntry := by
  apply List.Pairwise.insertionSort_eq
  rw [List.pairwise_map]
  apply ExtTreeMap.ordered_keys_toList.imp
  intro a b hab
  unfold bucketLe
  change (compare a.1 b.1).isLE
  rw [hab]
  rfl

theorem tokens_eq (events : List (TokenHistoryPoint τ)) :
    (events.foldl addEvent (0, [])).1 = (events.map fun event ↦ event.delta).sum := by
  rw [foldl_addEvent]
  exact zero_add _

/-- The totals of a window do not depend on the order of its events. -/
theorem ofEvents_perm {events events' : List (TokenHistoryPoint τ)}
    {items items' : List (ToolObservation τ)} (hevents : events.Perm events')
    (hitems : items.Perm items') (findings : List (OptimizationFinding τ)) :
    ofEvents events items findings = ofEvents events' items' findings := by
  have htokens : (events.foldl addEvent (0, [])).1 = (events'.foldl addEvent (0, [])).1 := by
    rw [tokens_eq, tokens_eq, (hevents.map _).sum_eq]
  have hbuckets : (events.foldl addEvent (0, [])).2.insertionSort bucketLe =
      (events'.foldl addEvent (0, [])).2.insertionSort bucketLe := by
    have hentries : (modelEntries events).Perm (modelEntries events') := hevents.filterMap _
    rw [buckets_eq, buckets_eq, groupSum_perm hentries]
  unfold ofEvents
  dsimp only
  rw [htokens, hbuckets, metricsWithModels_perm hitems, dimensionTotals_perm hitems]

end RangeTotals

end AgentOdometer
