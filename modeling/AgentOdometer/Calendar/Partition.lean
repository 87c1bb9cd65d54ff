import AgentOdometer.Calendar.Days
import Mathlib.Algebra.Order.Ring.Int

/-!
# When calendar days partition a range

The days of a range partition it exactly when each calendar step of the loop leads from the start
of one date to the start of the next.
-/

namespace AgentOdometer.Calendar

/-- The days lie one after the other from the start of the range to its end, each holds exactly the
instants of its date, and no date is repeated. -/
structure IsPartition (z : ZoneRules) (start stop : Int) (days : List CalendarDay) : Prop where
  first : days.head?.map CalendarDay.fromMs = some start
  last : days.getLast?.map CalendarDay.toMs = some stop
  consecutive : days.IsChain fun d d' ↦ d'.fromMs = d.toMs + 1
  proper : ∀ d ∈ days, d.fromMs ≤ d.toMs
  dated : ∀ d ∈ days, ∀ t, start ≤ t → t ≤ stop →
    (d.fromMs ≤ t ∧ t ≤ d.toMs ↔ (z.date t).text = d.date)
  distinct : (days.map CalendarDay.date).Nodup

/-- The totals of the days sum to the totals of the whole range. -/
def TotalsAgree (start stop : Int) (days : List CalendarDay) : Prop :=
  ∀ events, ∃ activity, activityDays days
      (days.map fun d ↦ rangeRecords events d.fromMs d.toMs) = .ok activity ∧
    (activity.map ActivityDay.tokens).sum =
      ((rangeRecords events start stop).map fun record ↦ record.2.totalTokens).sum ∧
    (activity.map ActivityDay.toolCalls).sum =
      ((rangeRecords events start stop).map fun record ↦ record.2.calls).sum

/-- The date changes at an instant of the range. -/
def IsChange (z : ZoneRules) (start stop t : Int) : Prop :=
  start < t ∧ t ≤ stop ∧ z.dayNumber (t - 1) ≠ z.dayNumber t

/-- An instant is the next change of date after another, or lies past the range. -/
structure IsNextStart (z : ZoneRules) (stop t next : Int) : Prop where
  later : t < next
  steady : ∀ r, t < r → r < next → r ≤ stop → z.dayNumber (r - 1) = z.dayNumber r
  changes : next ≤ stop → z.dayNumber (next - 1) ≠ z.dayNumber next

/-- No date of the range is left and entered again, and one calendar step leads from the midnight
of the first date, and from each change of date, to the next change of date or past the range. -/
structure IsAligned (z : ZoneRules) (start stop : Int) : Prop where
  stretch : ∀ t u v, start ≤ t → t ≤ u → u ≤ v → v ≤ stop →
    z.dayNumber t = z.dayNumber v → z.dayNumber u = z.dayNumber t
  first : ∃ c, midnight z start = some c ∧ c ≤ start ∧ z.dayNumber c = z.dayNumber start ∧
    ∃ next, advance z c 1 = some next ∧ IsNextStart z stop start next
  later : ∀ t, IsChange z start stop t →
    ∃ next, advance z t 1 = some next ∧ IsNextStart z stop t next

variable {z : ZoneRules} {start stop : Int}

theorem text_date_inj {t u : Int} :
    (z.date t).text = (z.date u).text ↔ z.dayNumber t = z.dayNumber u :=
  ⟨fun h ↦ CivilDate.text_ofDays_injective h, fun h ↦ by rw [ZoneRules.date, h]; rfl⟩

/-- A date without changes is constant. -/
theorem IsNextStart.dayNumber_eq {t next : Int} (h : IsNextStart z stop t next) (n : Nat)
    (hnext : t + n < next) (hstop : t + n ≤ stop) : z.dayNumber (t + n) = z.dayNumber t := by
  induction n with
  | zero => simp
  | succ n ih =>
    push_cast at hnext hstop ⊢
    have hstep := h.steady (t + n + 1) (by omega) (by omega) (by omega)
    rw [Int.add_sub_cancel] at hstep
    rw [← add_assoc, ← hstep]
    exact ih (by omega) (by omega)

theorem IsNextStart.dayNumber_eq_of_le {t next u : Int} (h : IsNextStart z stop t next)
    (htu : t ≤ u) (hnext : u < next) (hstop : u ≤ stop) : z.dayNumber u = z.dayNumber t := by
  have hu : t + (u - t).toNat = u := by omega
  have hsame := h.dayNumber_eq (u - t).toNat (by omega) (by omega)
  rwa [hu] at hsame

/-! ### Tilings -/

/-- The days lie one after the other from an instant to the end of the range, each holds exactly
the instants of its date which are left. -/
def Tiles (z : ZoneRules) (stop : Int) : Int → List CalendarDay → Prop
  | a, [] => stop < a
  | a, d :: days => d.fromMs = a ∧ a ≤ d.toMs ∧ d.toMs ≤ stop ∧
      (∀ t, a ≤ t → t ≤ stop → (t ≤ d.toMs ↔ (z.date t).text = d.date)) ∧
      Tiles z stop (d.toMs + 1) days

theorem Tiles.bounds {a : Int} {days : List CalendarDay} (h : Tiles z stop a days) :
    ∀ d ∈ days, a ≤ d.fromMs ∧ d.fromMs ≤ d.toMs ∧ d.toMs ≤ stop ∧
      (z.date d.fromMs).text = d.date := by
  induction days generalizing a with
  | nil => exact fun _ h ↦ nomatch h
  | cons d days ih =>
    obtain ⟨hfrom, hto, hstop, hdated, hrest⟩ := h
    intro d' hd'
    rcases List.mem_cons.mp hd' with rfl | hd'
    · exact ⟨by omega, by omega, hstop, (hdated _ (by omega) (by omega)).mp (by omega)⟩
    · obtain ⟨hlow, hrest⟩ := ih hrest d' hd'
      exact ⟨by omega, hrest⟩

/-- A tiling of a range is a partition of it. -/
theorem Tiles.isPartition {days : List CalendarDay} (h : Tiles z stop start days)
    (hle : start ≤ stop) : IsPartition z start stop days := by
  induction days generalizing start with
  | nil => exact absurd hle (not_le.mpr h)
  | cons d days ih =>
    have hbounds := h.bounds
    obtain ⟨hfrom, hto, hstop, hdated, hrest⟩ := h
    have hfar : ∀ d' ∈ days, d.toMs < d'.fromMs ∧ d'.date ≠ d.date := by
      intro d' hd'
      obtain ⟨hlow, hproper, hhigh, htext⟩ := hrest.bounds d' hd'
      refine ⟨by omega, fun hsame ↦ ?_⟩
      have := (hdated d'.fromMs (by omega) (by omega)).mpr (htext.trans hsame)
      omega
    cases days with
    | nil =>
      have hlast : d.toMs = stop := by
        have : stop < d.toMs + 1 := hrest
        omega
      refine ⟨by simp [hfrom], by simp [hlast], .singleton _, fun d' hd' ↦ (hbounds d' hd').2.1,
        fun d' hd' t hlow hhigh ↦ ?_, List.nodup_singleton _⟩
      rw [List.mem_singleton.mp hd', ← hdated t hlow hhigh, hfrom]
      exact and_iff_right hlow
    | cons d₁ days =>
      have hd₁ := hrest.bounds d₁ List.mem_cons_self
      have htail := ih hrest (by omega)
      have hnext : d₁.fromMs = d.toMs + 1 := hrest.1
      refine ⟨by simp [hfrom], ?_, .cons_cons hnext htail.consecutive,
        fun d' hd' ↦ (hbounds d' hd').2.1, fun d' hd' t hlow hhigh ↦ ?_, ?_⟩
      · rw [List.getLast?_cons_cons]
        exact htail.last
      · rcases List.mem_cons.mp hd' with rfl | hd'
        · rw [← hdated t hlow hhigh, hfrom]
          exact and_iff_right hlow
        · obtain ⟨hfar, hdate⟩ := hfar d' hd'
          by_cases ht : t ≤ d.toMs
          · have htext := (hdated t hlow hhigh).mp ht
            rw [htext]
            exact ⟨fun h ↦ by omega, fun h ↦ absurd h.symm hdate⟩
          · exact htail.dated d' hd' t (by omega) hhigh
      · rw [List.map_cons, List.nodup_cons]
        refine ⟨fun hin ↦ ?_, htail.distinct⟩
        obtain ⟨d', hd', hsame⟩ := List.mem_map.mp hin
        exact (hfar d' hd').2 hsame

/-- A partition into days which end in the range is a tiling. -/
theorem IsPartition.tiles {days : List CalendarDay} (h : IsPartition z start stop days)
    (hstop : ∀ d ∈ days, d.toMs ≤ stop) : Tiles z stop start days := by
  induction days generalizing start with
  | nil => cases h.first
  | cons d days ih =>
    rw [List.forall_mem_cons] at hstop
    have hfrom : d.fromMs = start := by simpa using h.first
    have hproper := h.proper d List.mem_cons_self
    refine ⟨hfrom, by omega, hstop.1, fun t hlow hhigh ↦ ?_, ?_⟩
    · rw [← h.dated d List.mem_cons_self t hlow hhigh, hfrom]
      exact (and_iff_right hlow).symm
    · cases days with
      | nil =>
        have hlast : d.toMs = stop := by simpa using h.last
        show stop < d.toMs + 1
        omega
      | cons d₁ days =>
        have hchain := List.isChain_cons_cons.mp h.consecutive
        refine ih ⟨?_, ?_, hchain.2, fun d' hd' ↦ h.proper d' (List.mem_cons_of_mem _ hd'),
          fun d' hd' t hlow hhigh ↦ h.dated d' (List.mem_cons_of_mem _ hd') t (by omega) hhigh,
          (List.nodup_cons.mp h.distinct).2⟩ hstop.2
        · simp [hchain.1]
        · have hlast := h.last
          rwa [List.getLast?_cons_cons] at hlast

/-! ### Totals -/

theorem sum_rangeRecords (f : Nat × Nat → Nat) (hzero : f 0 = 0)
    (hadd : ∀ a b, f (a + b) = f a + f b) (events : List UsageEvent) (fromMs toMs : Int) :
    ((rangeRecords events fromMs toMs).map fun record ↦
        f (record.2.totalTokens, record.2.calls)).sum =
      ((events.filter fun e ↦ decide (fromMs ≤ e.time) && decide (e.time ≤ toMs)).map fun e ↦
        f (e.tokens, e.calls)).sum := by
  rw [rangeRecords, List.map_map]
  have hsum := GroupBy.sum_map_toList_groupSum (fun (_ : String) v ↦ f v) (fun _ ↦ hzero)
    (fun _ ↦ hadd) ((events.filter fun e : UsageEvent ↦
      decide (fromMs ≤ e.time) && decide (e.time ≤ toMs)).map fun e ↦
        (e.session, ((e.tokens, e.calls) : Nat × Nat)))
  rw [List.map_map] at hsum
  exact hsum

/-- What is recorded in two adjacent ranges is what is recorded in their union. -/
theorem sum_filter_split (g : UsageEvent → Nat) (events : List UsageEvent) {a m b : Int}
    (ham : a ≤ m + 1) (hmb : m ≤ b) :
    ((events.filter fun e ↦ decide (a ≤ e.time) && decide (e.time ≤ b)).map g).sum =
      ((events.filter fun e ↦ decide (a ≤ e.time) && decide (e.time ≤ m)).map g).sum +
        ((events.filter fun e ↦ decide (m + 1 ≤ e.time) && decide (e.time ≤ b)).map g).sum := by
  induction events with
  | nil => rfl
  | cons e events ih =>
    simp only [List.filter_cons, Bool.and_eq_true, decide_eq_true_eq]
    by_cases hm : e.time ≤ m
    · rw [if_neg (show ¬(m + 1 ≤ e.time ∧ e.time ≤ b) by omega)]
      by_cases ha : a ≤ e.time
      · rw [if_pos (show a ≤ e.time ∧ e.time ≤ b by omega), if_pos ⟨ha, hm⟩]
        simp only [List.map_cons, List.sum_cons]
        omega
      · rw [if_neg (show ¬(a ≤ e.time ∧ e.time ≤ b) by omega),
          if_neg (show ¬(a ≤ e.time ∧ e.time ≤ m) by omega)]
        exact ih
    · rw [if_neg (show ¬(a ≤ e.time ∧ e.time ≤ m) by omega)]
      by_cases hb : e.time ≤ b
      · rw [if_pos (show a ≤ e.time ∧ e.time ≤ b by omega),
          if_pos (show m + 1 ≤ e.time ∧ e.time ≤ b by omega)]
        simp only [List.map_cons, List.sum_cons]
        omega
      · rw [if_neg (show ¬(a ≤ e.time ∧ e.time ≤ b) by omega),
          if_neg (show ¬(m + 1 ≤ e.time ∧ e.time ≤ b) by omega)]
        exact ih

theorem Tiles.sum_eq (g : UsageEvent → Nat) (events : List UsageEvent) {a : Int}
    {days : List CalendarDay} (h : Tiles z stop a days) :
    (days.map fun d ↦ ((events.filter fun e ↦ decide (d.fromMs ≤ e.time) &&
        decide (e.time ≤ d.toMs)).map g).sum).sum =
      ((events.filter fun e ↦ decide (a ≤ e.time) && decide (e.time ≤ stop)).map g).sum := by
  induction days generalizing a with
  | nil =>
    have hnone : (events.filter fun e ↦ decide (a ≤ e.time) && decide (e.time ≤ stop)) = [] := by
      rw [List.filter_eq_nil_iff]
      intro e _
      have : stop < a := h
      simp only [Bool.and_eq_true, decide_eq_true_eq]
      omega
    rw [hnone]
    rfl
  | cons d days ih =>
    obtain ⟨hfrom, hto, hstop, -, hrest⟩ := h
    rw [List.map_cons, List.sum_cons, ih hrest, hfrom]
    exact (sum_filter_split g events (by omega) hstop).symm

/-- The activity of the days, when the records of each day are those of its range. -/
theorem activityDays_rangeRecords (days : List CalendarDay) (events : List UsageEvent) :
    activityDays days (days.map fun d ↦ rangeRecords events d.fromMs d.toMs) =
      .ok (days.map fun d ↦ activityDay d (rangeRecords events d.fromMs d.toMs)) := by
  rw [activityDays, if_neg (by simp)]
  congr 1
  induction days with
  | nil => rfl
  | cons d days ih => rw [List.map_cons, List.zipWith_cons_cons, ih, List.map_cons]

/-- The totals of a tiling's days sum to the totals of the range. -/
theorem Tiles.totalsAgree {days : List CalendarDay} (h : Tiles z stop start days) :
    TotalsAgree start stop days := by
  intro events
  refine ⟨_, activityDays_rangeRecords days events, ?_, ?_⟩
  · have htokens := sum_rangeRecords Prod.fst rfl (fun _ _ ↦ rfl) events
    rw [htokens, ← h.sum_eq (fun e ↦ e.tokens) events, List.map_map]
    exact congrArg List.sum (List.map_congr_left fun d _ ↦ htokens d.fromMs d.toMs)
  · have hcalls := sum_rangeRecords Prod.snd rfl (fun _ _ ↦ rfl) events
    rw [hcalls, ← h.sum_eq (fun e ↦ e.calls) events, List.map_map]
    exact congrArg List.sum (List.map_congr_left fun d _ ↦ hcalls d.fromMs d.toMs)

/-! ### The loop -/

theorem daysFrom_of_lt {n : Nat} {c : Int} (h : stop < c) :
    daysFrom z start stop n (some c) = .ok [] := by
  cases n <;> exact if_pos h

/-- A round of the loop which completes. -/
theorem daysFrom_eq_ok {n : Nat} {c : Int} (hc : c ≤ stop) {days : List CalendarDay}
    (h : daysFrom z start stop n (some c) = .ok days) :
    ∃ m next rest, n = m + 1 ∧ advance z c 1 = some next ∧
      daysFrom z start stop m (some next) = .ok rest ∧
      days = calendarDay z start stop c next :: rest := by
  cases n with
  | zero =>
    rw [daysFrom, if_neg (not_lt.mpr hc)] at h
    cases h
  | succ m =>
    rw [daysFrom, if_neg (not_lt.mpr hc)] at h
    cases hnext : advance z c 1 with
    | none => simp [hnext] at h
    | some next =>
      cases hrest : daysFrom z start stop m (some next) with
      | error e => simp [hnext, hrest] at h
      | ok rest =>
        simp only [hnext, hrest] at h
        cases h
        exact ⟨m, next, rest, rfl, rfl, hrest, rfl⟩

theorem daysFrom_toMs_le {n : Nat} {c : Option Int} {days : List CalendarDay}
    (h : daysFrom z start stop n c = .ok days) : ∀ d ∈ days, d.toMs ≤ stop := by
  induction n generalizing c days with
  | zero =>
    cases c with
    | none => cases h; exact fun _ h ↦ nomatch h
    | some c =>
      by_cases hc : stop < c
      · rw [daysFrom_of_lt hc] at h
        cases h
        exact fun _ h ↦ nomatch h
      · obtain ⟨m, -, -, hm, -⟩ := daysFrom_eq_ok (not_lt.mp hc) h
        omega
  | succ n ih =>
    cases c with
    | none => cases h; exact fun _ h ↦ nomatch h
    | some c =>
      by_cases hc : stop < c
      · rw [daysFrom_of_lt hc] at h
        cases h
        exact fun _ h ↦ nomatch h
      · obtain ⟨m, next, rest, hm, -, hrest, rfl⟩ := daysFrom_eq_ok (not_lt.mp hc) h
        obtain rfl : n = m := by omega
        rw [List.forall_mem_cons]
        exact ⟨min_le_right _ _, ih hrest⟩

/-- If the loop tiles the rest of the range, its steps lead from change to change. -/
theorem steps_of_tiles {n : Nat} {c : Int} {days : List CalendarDay}
    (hdays : daysFrom z start stop n (some c) = .ok days)
    (htiles : Tiles z stop (max c start) days) (hc : max c start ≤ stop) :
    (∃ next, advance z c 1 = some next ∧ IsNextStart z stop (max c start) next) ∧
      ∀ t, IsChange z (max c start) stop t →
        ∃ next, advance z t 1 = some next ∧ IsNextStart z stop t next := by
  induction n generalizing c days with
  | zero =>
    obtain ⟨m, -, -, hm, -⟩ := daysFrom_eq_ok (by omega) hdays
    omega
  | succ n ih =>
    obtain ⟨m, next, rest, hm, hnext, hrest, rfl⟩ := daysFrom_eq_ok (by omega) hdays
    obtain rfl : n = m := by omega
    obtain ⟨-, hto, -, hdated, htail⟩ := htiles
    have htoMs : (calendarDay z start stop c next).toMs = min (next - 1) stop := rfl
    rw [htoMs] at hto hdated htail
    have hstart : IsNextStart z stop (max c start) next := by
      refine ⟨by omega, fun r hlow hhigh hstop ↦ ?_, fun hstop ↦ ?_⟩
      · rw [← text_date_inj, (hdated r (by omega) hstop).mp (by omega),
          (hdated (r - 1) (by omega) (by omega)).mp (by omega)]
      · intro hsame
        have hbefore := (hdated (next - 1) (by omega) (by omega)).mp (by omega)
        have hafter := (hdated next (by omega) hstop).mpr
          ((text_date_inj.mpr hsame).symm.trans hbefore)
        omega
    refine ⟨⟨next, hnext, hstart⟩, fun t ⟨hlow, hhigh, hchange⟩ ↦ ?_⟩
    by_cases ht : t < next
    · exact absurd (hstart.steady t hlow ht hhigh) hchange
    · have hmax : max next start = next := by have := hstart.later; omega
      have hend : min (next - 1) stop + 1 = max next start := by omega
      rw [hend] at htail
      obtain ⟨hfirst, hlater⟩ := ih hrest htail (by omega)
      rw [hmax] at hfirst hlater
      by_cases heq : t = next
      · rw [heq]
        exact hfirst
      · exact hlater t ⟨by omega, hhigh, hchange⟩

/-- If the steps lead from change to change, the loop tiles the rest of the range. -/
theorem tiles_of_steps {n : Nat} {c : Int} {dates : List Int}
    (hdate : z.dayNumber c = z.dayNumber (max c start)) (hc : max c start ≤ stop)
    (hstretch : ∀ t u v, max c start ≤ t → t ≤ u → u ≤ v → v ≤ stop →
      z.dayNumber t = z.dayNumber v → z.dayNumber u = z.dayNumber t)
    (hstep : ∃ next, advance z c 1 = some next ∧ IsNextStart z stop (max c start) next)
    (hlater : ∀ t, IsChange z (max c start) stop t →
      ∃ next, advance z t 1 = some next ∧ IsNextStart z stop t next)
    (hdates : ∀ t, max c start ≤ t → t ≤ stop → z.dayNumber t ∈ dates)
    (hlength : dates.length ≤ n) :
    ∃ days, daysFrom z start stop n (some c) = .ok days ∧ Tiles z stop (max c start) days := by
  induction n generalizing c dates with
  | zero =>
    have hmem := hdates (max c start) (le_refl _) hc
    rw [List.eq_nil_of_length_eq_zero (Nat.le_zero.mp hlength)] at hmem
    cases hmem
  | succ n ih =>
    obtain ⟨next, hnext, hstart⟩ := hstep
    have hlater' := hstart.later
    have hround : ∀ rest, daysFrom z start stop n (some next) = .ok rest →
        daysFrom z start stop (n + 1) (some c) =
          .ok (calendarDay z start stop c next :: rest) := by
      intro rest hrest
      rw [daysFrom, if_neg (by omega)]
      simp only [hnext, hrest]
    have htile : ∀ rest, (∀ t, max c start ≤ t → t ≤ stop → next ≤ t →
          z.dayNumber t ≠ z.dayNumber (max c start)) →
        Tiles z stop (min (next - 1) stop + 1) rest →
          Tiles z stop (max c start) (calendarDay z start stop c next :: rest) := by
      intro rest hleft hrest
      refine ⟨rfl, ?_, min_le_right _ _, fun t hlow hhigh ↦ ?_, hrest⟩
      · show max c start ≤ min (next - 1) stop
        omega
      · show t ≤ min (next - 1) stop ↔ (z.date t).text = (z.date c).text
        rw [text_date_inj, hdate]
        constructor
        · exact fun ht ↦ hstart.dayNumber_eq_of_le hlow (by omega) hhigh
        · intro hsame
          by_contra hnot
          exact hleft t hlow hhigh (by omega) hsame
    by_cases hstop : stop < next
    · refine ⟨_, hround [] (daysFrom_of_lt hstop), htile [] (fun t _ _ _ ↦ by omega) ?_⟩
      show stop < min (next - 1) stop + 1
      omega
    · have hmax : max next start = next := by omega
      have hend : min (next - 1) stop + 1 = max next start := by omega
      have hbefore : z.dayNumber (next - 1) = z.dayNumber (max c start) :=
        hstart.dayNumber_eq_of_le (by omega) (by omega) (by omega)
      have hleft : ∀ t, max c start ≤ t → t ≤ stop → next ≤ t →
          z.dayNumber t ≠ z.dayNumber (max c start) := by
        intro t hlow hhigh ht hsame
        have hagain := hstretch (max c start) next t (le_refl _) (by omega) ht hhigh hsame.symm
        exact hstart.changes (by omega) (hbefore.trans hagain.symm)
      have hchange : IsChange z (max c start) stop next :=
        ⟨hlater', by omega, hstart.changes (by omega)⟩
      have hmem := hdates (max c start) (le_refl _) hc
      have hrest : ∀ t, max next start ≤ t → t ≤ stop →
          z.dayNumber t ∈ dates.erase (z.dayNumber (max c start)) := by
        intro t hlow hhigh
        rw [List.mem_erase_of_ne (hleft t (by omega) hhigh (by omega))]
        exact hdates t (by omega) hhigh
      obtain ⟨days, hdays, htiles⟩ := ih (by rw [hmax]) (by omega)
        (fun t u v htlow htu huv hv hsame ↦ hstretch t u v (by omega) htu huv hv hsame)
        (by rw [hmax]; exact hlater next hchange)
        (fun t ⟨hlow, hhigh, ht⟩ ↦ hlater t ⟨by omega, hhigh, ht⟩) hrest
        (by rw [List.length_erase_of_mem hmem]; omega)
      rw [← hend] at htiles
      exact ⟨_, hround days hdays, htile days hleft htiles⟩

end AgentOdometer.Calendar
