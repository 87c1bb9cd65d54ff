import AgentOdometer.Calendar.Partition

/-!
# Exact ranges

The days of a range partition it, and their totals sum to those of the range, exactly when the
calendar steps lead from date to date. A date without a midnight moves every later step.
-/

namespace AgentOdometer.Calendar

variable {z : ZoneRules} {start stop : Int}

/-- Every instant which is left lies in one of the days. -/
theorem Tiles.exists_mem {a t : Int} {days : List CalendarDay} (h : Tiles z stop a days)
    (hlow : a ≤ t) (hhigh : t ≤ stop) : ∃ d ∈ days, d.fromMs ≤ t ∧ t ≤ d.toMs := by
  induction days generalizing a with
  | nil => exact absurd (hlow.trans hhigh) (not_le.mpr h)
  | cons d days ih =>
    obtain ⟨hfrom, -, -, -, hrest⟩ := h
    by_cases ht : t ≤ d.toMs
    · exact ⟨d, List.mem_cons_self, by omega, ht⟩
    · obtain ⟨d', hd', hin⟩ := ih hrest (by omega)
      exact ⟨d', List.mem_cons_of_mem _ hd', hin⟩

/-- No date of a partition is left and entered again. -/
theorem IsPartition.stretch {days : List CalendarDay} (h : IsPartition z start stop days)
    (htiles : Tiles z stop start days) {t u v : Int} (ht : start ≤ t) (htu : t ≤ u) (huv : u ≤ v)
    (hv : v ≤ stop) (hsame : z.dayNumber t = z.dayNumber v) :
    z.dayNumber u = z.dayNumber t := by
  obtain ⟨d, hd, hin⟩ := htiles.exists_mem ht (by omega)
  have htext := (h.dated d hd t ht (by omega)).mp hin
  have hlast := (h.dated d hd v (by omega) hv).mpr ((text_date_inj.mpr hsame.symm).trans htext)
  have hmid := (h.dated d hd u (by omega) (by omega)).mp ⟨by omega, by omega⟩
  exact text_date_inj.mp (hmid.trans htext.symm)

/-- A partition starts with the midnight of the first date. -/
theorem IsPartition.midnight_le {n : Nat} {days : List CalendarDay}
    (h : IsPartition z start stop days)
    (hdays : daysFrom z start stop n (midnight z start) = .ok days) :
    ∃ c, midnight z start = some c ∧ c ≤ start ∧ z.dayNumber c = z.dayNumber start ∧
      daysFrom z start stop n (some c) = .ok days := by
  cases hmidnight : midnight z start with
  | none =>
    rw [hmidnight] at hdays
    cases n <;> cases hdays <;> cases h.first
  | some c =>
    rw [hmidnight] at hdays
    by_cases hc : stop < c
    · rw [daysFrom_of_lt hc] at hdays
      cases hdays
      cases h.first
    · obtain ⟨m, next, rest, -, -, -, rfl⟩ := daysFrom_eq_ok (not_lt.mp hc) hdays
      have hfirst : max c start = start := by simpa [calendarDay] using h.first
      have hproper : max c start ≤ min (next - 1) stop := h.proper _ List.mem_cons_self
      have htext : (z.date start).text = (z.date c).text :=
        (h.dated _ List.mem_cons_self start (by omega) (by omega)).mp
          ⟨by show max c start ≤ start; omega, by show start ≤ min (next - 1) stop; omega⟩
      exact ⟨c, rfl, by omega, (text_date_inj.mp htext).symm, hdays⟩

/-- A partition comes from steps which lead from change to change. -/
theorem IsPartition.isAligned {n : Nat} {days : List CalendarDay} (hle : start ≤ stop)
    (h : IsPartition z start stop days)
    (hdays : daysFrom z start stop n (midnight z start) = .ok days) :
    IsAligned z start stop := by
  obtain ⟨c, hmidnight, hc, hdate, hdays⟩ := h.midnight_le hdays
  have htiles := h.tiles (daysFrom_toMs_le hdays)
  have hmax : max c start = start := by omega
  have hsteps := steps_of_tiles hdays (by rwa [hmax]) (by rwa [hmax])
  rw [hmax] at hsteps
  exact ⟨fun t u v ht htu huv hv hsame ↦ h.stretch htiles ht htu huv hv hsame,
    ⟨c, hmidnight, hc, hdate, hsteps.1⟩, hsteps.2⟩

/-- Steps which lead from change to change produce a tiling. -/
theorem IsAligned.tiles (h : IsAligned z start stop) (hle : start ≤ stop) {dates : List Int}
    (hdates : ∀ t, start ≤ t → t ≤ stop → z.dayNumber t ∈ dates) {n : Nat}
    (hlength : dates.length ≤ n) :
    ∃ days, daysFrom z start stop n (midnight z start) = .ok days ∧
      Tiles z stop start days := by
  obtain ⟨c, hmidnight, hc, hdate, hstep⟩ := h.first
  have hmax : max c start = start := by omega
  have htiles := @tiles_of_steps z start stop n c dates
  rw [hmax] at htiles
  rw [hmidnight]
  exact htiles hdate hle h.stretch hstep h.later hdates hlength

theorem calendarDays_range (host : ZoneRules) (zone : CalendarZone) (now : Int)
    (hle : start ≤ stop) :
    calendarDays host (some (some start)) (some (some stop)) zone now =
      daysFrom (zone.rules host) start stop 366 (midnight (zone.rules host) start) :=
  if_neg (not_lt.mpr hle)

/-- The days of a range of at most 366 dates partition it, and their totals sum to those of the
range, exactly when the calendar steps lead from change to change. -/
theorem calendarDays_partition_iff (host : ZoneRules) (zone : CalendarZone) (now : Int)
    {start stop : Int} (hle : start ≤ stop)
    (hspan : ∃ dates : List Int, dates.length ≤ 366 ∧
      ∀ t, start ≤ t → t ≤ stop → (zone.rules host).dayNumber t ∈ dates) :
    (∃ days, calendarDays host (some (some start)) (some (some stop)) zone now = .ok days ∧
        IsPartition (zone.rules host) start stop days ∧ TotalsAgree start stop days) ↔
      IsAligned (zone.rules host) start stop := by
  rw [calendarDays_range host zone now hle]
  constructor
  · rintro ⟨days, hdays, hpartition, -⟩
    exact hpartition.isAligned hle hdays
  · intro h
    obtain ⟨dates, hlength, hdates⟩ := hspan
    obtain ⟨days, hdays, htiles⟩ := h.tiles hle hdates hlength
    exact ⟨days, hdays, htiles.isPartition hle, htiles.totalsAgree⟩

theorem dayNumber_utc (t : Int) : ZoneRules.utc.dayNumber t = t / 86400000 := by
  show (t + 0) / 86400000 = t / 86400000
  rw [Int.add_zero]

/-- In UTC every calendar step leads to the next date. -/
theorem isAligned_utc : IsAligned ZoneRules.utc 0 86400000 where
  stretch := by
    intro t u v _ htu huv _ hsame
    rw [dayNumber_utc, dayNumber_utc] at hsame ⊢
    omega
  first := by
    refine ⟨0, by decide, le_refl 0, rfl, 86400000, by decide, by decide, fun r hr hnext _ ↦ ?_, ?_⟩
    · rw [dayNumber_utc, dayNumber_utc]
      omega
    · exact fun _ ↦ by decide
  later := by
    rintro t ⟨hlow, hhigh, hchange⟩
    rw [dayNumber_utc, dayNumber_utc] at hchange
    obtain rfl : t = 86400000 := by omega
    exact ⟨172800000, by decide, by decide, fun r hr _ hstop ↦ absurd hr (by omega),
      fun h ↦ absurd h (by decide)⟩

/-- In UTC, the two days from the epoch partition the range. -/
theorem calendarDays_partition_iff_utc :
    ∃ days, calendarDays .utc (some (some 0)) (some (some 86400000)) .utc 0 = .ok days ∧
      IsPartition ZoneRules.utc 0 86400000 days ∧ TotalsAgree 0 86400000 days := by
  refine (calendarDays_partition_iff .utc .utc 0 (by omega) ⟨[0, 1], by decide, ?_⟩).mpr
    isAligned_utc
  intro t hlow hhigh
  show ZoneRules.utc.dayNumber t ∈ _
  rw [dayNumber_utc, List.mem_cons, List.mem_singleton]
  omega

/-! ### Zones which move their clocks forward -/

/-- The zone which moves its clocks forward at an instant. -/
def ZoneRules.forward (change before after : Int) (hbefore : -msPerDay < before)
    (hlt : before < after) (hafter : after < msPerDay) : ZoneRules where
  offset := fun t ↦ if t < change then before else after
  fromLocal := fun t ↦ if t < change + after then t - before else t - after
  offset_lt := fun t ↦ by split <;> omega
  fromLocal_first := fun u ↦ by
    by_cases hu : u < change
    · rw [if_pos hu, if_pos (show u + before < change + after by omega), Int.add_sub_cancel,
        if_pos hu]
      exact ⟨rfl, le_refl _⟩
    · rw [if_neg hu, if_neg (show ¬u + after < change + after by omega), Int.add_sub_cancel,
        if_neg hu]
      exact ⟨rfl, le_refl _⟩
  fromLocal_skipped := fun t h ↦ by
    have hearly : change + before ≤ t := by
      have := h (t - before)
      by_contra hnot
      rw [if_pos (by omega)] at this
      omega
    have hlate : t < change + after := by
      have := h (t - after)
      by_contra hnot
      rw [if_neg (by omega)] at this
      omega
    refine ⟨change - 1, ?_, fun v hv ↦ ?_, fun v hv ↦ ?_, ?_⟩
    · rw [if_pos (by omega)]
      omega
    · rw [if_pos (show change - 1 < change by omega)]
      split at hv <;> split <;> omega
    · rw [if_pos (show change - 1 < change by omega)] at hv
      split at hv <;> omega
    · rw [if_pos hlate, if_pos (by omega)]

/-- São Paulo in November 2018: on the fourth, 00:00 is followed by 01:00. -/
def saoPaulo : ZoneRules :=
  .forward 1541300400000 (-10800000) (-7200000) (by decide) (by decide) (by decide)

/-- The fourth of November has no midnight, so the second day of a range which starts on it begins
at 01:00, and the first holds the first hour of the fifth. -/
theorem calendarDays_not_partition : ¬ ∀ (host : ZoneRules) (zone : CalendarZone) (now : Int)
    (start stop : Int), start ≤ stop →
    (∃ dates : List Int, dates.length ≤ 366 ∧
      ∀ t, start ≤ t → t ≤ stop → (zone.rules host).dayNumber t ∈ dates) →
    ∃ days, calendarDays host (some (some start)) (some (some stop)) zone now = .ok days ∧
      IsPartition (zone.rules host) start stop days ∧ TotalsAgree start stop days := by
  intro h
  have hdates : ∀ t, 1541300400000 ≤ t → t ≤ 1541419200000 →
      saoPaulo.dayNumber t ∈ [17839, 17840] := by
    intro t hlow hhigh
    have hnumber : saoPaulo.dayNumber t = (t + -7200000) / 86400000 :=
      congrArg (fun o ↦ (t + o) / msPerDay) (if_neg (not_lt.mpr hlow))
    rw [hnumber, List.mem_cons, List.mem_singleton]
    omega
  obtain ⟨days, hdays, hpartition, -⟩ := h saoPaulo .host 0 1541300400000 1541419200000
    (by omega) ⟨[17839, 17840], by decide, hdates⟩
  have hfirst : days.head?.map (fun d ↦ (d.date, d.fromMs, d.toMs)) =
      some ("2018-11-04", 1541300400000, 1541386799999) := by
    have hrun : (calendarDays saoPaulo (some (some 1541300400000)) (some (some 1541419200000))
        .host 0).toOption.bind (fun ds ↦ ds.head?.map fun d ↦ (d.date, d.fromMs, d.toMs)) =
          some ("2018-11-04", 1541300400000, 1541386799999) := by
      decide +kernel
    rwa [hdays] at hrun
  cases days with
  | nil => cases hfirst
  | cons d days =>
    simp only [List.head?_cons, Option.map_some, Option.some.injEq, Prod.mk.injEq] at hfirst
    obtain ⟨hdate, hfrom, hto⟩ := hfirst
    have htext := (hpartition.dated d List.mem_cons_self 1541385000000 (by omega)
      (by omega)).mp ⟨by omega, by omega⟩
    rw [hdate] at htext
    have hfifth : (saoPaulo.date 1541385000000).text = "2018-11-05" := by decide +kernel
    exact absurd (hfifth.symm.trans htext) (by decide)

end AgentOdometer.Calendar
