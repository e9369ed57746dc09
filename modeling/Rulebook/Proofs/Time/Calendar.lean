import Rulebook.Time.Moment

/-!
# Dates and days

A date is numbered by its day, and every day number is that of one date (`Date.to_days_of_days`,
`Date.of_days_to_days`). So a moment falls on a date in UTC exactly if its instant has the number of the date
(`Moment.utc_day_eq`).
-/

namespace Rulebook

/-- Months are as long in all years with as many days. -/
theorem days_in_month_congr {year other : Int} (h : isLeapYear year = isLeapYear other) (month : Int) :
    daysInMonth year month = daysInMonth other month := by
  unfold daysInMonth
  rw [h]

/-- Months begin on the same days of all years with as many days. -/
theorem days_before_month_congr {year other : Int} (h : isLeapYear year = isLeapYear other) (month : Int) :
    daysBeforeMonth year month = daysBeforeMonth other month := by
  unfold daysBeforeMonth
  simp only [days_in_month_congr h]

/-- A leap year is a day longer. -/
theorem days_before_next_year (year : Int) :
    daysBeforeYear (year + 1) = daysBeforeYear year + 365 + if isLeapYear year then 1 else 0 := by
  simp only [daysBeforeYear, isLeapYear, Bool.and_eq_true, Bool.or_eq_true, beq_iff_eq, bne_iff_ne]
  split <;> omega

/-- A year begins when those before it are over. -/
theorem days_before_year_le {year other : Int} (h : year < other) :
    daysBeforeYear (year + 1) ≤ daysBeforeYear other := by
  obtain rfl | hlt : year + 1 = other ∨ year + 1 < other := by omega
  · exact Int.le_refl _
  · simp only [daysBeforeYear]
    omega

namespace Date

/-- The date of a day of a year has the number of that day. -/
theorem to_days_of_year_day (year day : Int) :
    (ofYearDay year day).toDays = daysBeforeYear year + day := by
  simp only [ofYearDay, toDays]
  omega

/-- The date of a day number has that number. -/
theorem to_days_of_days (n : Int) : (ofDays n).toDays = n := by
  simp only [ofDays, to_days_of_year_day]
  omega

/-- Different day numbers have different dates. -/
theorem of_days_inj {m n : Int} : ofDays m = ofDays n ↔ m = n := by
  refine ⟨fun h => ?_, fun h => h ▸ rfl⟩
  rw [← to_days_of_days m, h, to_days_of_days]

/-- The year of a day number is the one in which the day lies. -/
theorem of_days_of_year {year n : Int} (hfrom : daysBeforeYear year ≤ n)
    (hto : n < daysBeforeYear (year + 1)) : ofDays n = ofYearDay year (n - daysBeforeYear year) := by
  -- the estimate is wrong by a year at most, and the day lies in one year only
  have hguess : daysBeforeYear (n * 400 / 146097) ≤ n ∧ n < daysBeforeYear (n * 400 / 146097 + 3) := by
    simp only [daysBeforeYear]
    omega
  have hsame : ∀ other, daysBeforeYear other ≤ n → n < daysBeforeYear (other + 1) → other = year := by
    intro other hother hother'
    obtain hlt | heq | hgt := Int.lt_trichotomy other year
    · have := days_before_year_le hlt
      omega
    · exact heq
    · have := days_before_year_le hgt
      omega
  have hyear : (if n < daysBeforeYear (n * 400 / 146097 + 1) then n * 400 / 146097 + 1 - 1
      else if daysBeforeYear (n * 400 / 146097 + 1 + 1) ≤ n then n * 400 / 146097 + 1 + 1
      else n * 400 / 146097 + 1) = year := by
    rw [Int.add_sub_cancel, Int.add_assoc]
    split
    next hearly => exact hsame _ hguess.1 hearly
    next hearly =>
      split
      next hlate => exact hsame _ hlate (by rw [Int.add_assoc]; exact hguess.2)
      next hlate => exact hsame _ (by omega) (by rw [Int.add_assoc]; omega)
  show ofYearDay _ (n - daysBeforeYear _) = _
  rw [hyear]

/-- The days before each month. -/
def monthStarts (year : Int) : List Int := (List.range 12).map fun (m : Nat) => daysBeforeMonth year ((m : Int) + 1)

/-- The month of a day of a year is the number of months that have begun. -/
theorem month_of_year_day (year day : Int) :
    (ofYearDay year day).month = (monthStarts year).countP (· ≤ day) := by
  show (((List.range 12).filter _).length : Int) = _
  rw [monthStarts, List.countP_map, List.countP_eq_length_filter]
  rfl

/-- In a common year and in a leap year months begin on these days. -/
theorem month_starts_table :
    monthStarts 1 = [0, 31, 59, 90, 120, 151, 181, 212, 243, 273, 304, 334] ∧
      monthStarts 4 = [0, 31, 60, 91, 121, 152, 182, 213, 244, 274, 305, 335] := by
  decide +kernel

/-- In a common year and in a leap year as many months have begun on a day as its date says. -/
theorem months_begun_table : ∀ year ∈ [(1 : Int), 4], ∀ m ∈ List.range 12, ∀ day ∈ List.range 32,
    1 ≤ day → (day : Int) ≤ daysInMonth year (m + 1) →
      (monthStarts year).countP (· ≤ (monthStarts year).getD m 0 + (day - 1)) = m + 1 ∧
      0 ≤ (monthStarts year).getD m 0 + (day - 1) ∧
      (monthStarts year).getD m 0 + (day - 1) < 365 + if isLeapYear year then 1 else 0 := by
  simp only [List.forall_mem_cons, List.not_mem_nil, false_implies, implies_true, and_true,
    month_starts_table.1, month_starts_table.2]
  decide +kernel

/-- A date that exists is found from its day of the year, which lies in the year. -/
theorem of_year_day_of_valid {d : Date} (h : d.isValid = true) :
    ofYearDay d.year (daysBeforeMonth d.year d.month + (d.day - 1)) = d ∧
      0 ≤ daysBeforeMonth d.year d.month + (d.day - 1) ∧
      daysBeforeMonth d.year d.month + (d.day - 1) < 365 + if isLeapYear d.year then 1 else 0 := by
  obtain ⟨year, month, day⟩ := d
  -- all years with as many days have the same months
  obtain ⟨other, hother, hleap⟩ : ∃ other ∈ [(1 : Int), 4], isLeapYear year = isLeapYear other := by
    cases isLeapYear year
    · exact ⟨1, by decide, rfl⟩
    · exact ⟨4, by decide, rfl⟩
  have hin := days_in_month_congr hleap
  have hbefore := days_before_month_congr hleap
  have hstarts : monthStarts year = monthStarts other := by
    simp only [monthStarts, hbefore]
  simp only [isValid, hin, Bool.and_eq_true, decide_eq_true_eq] at h
  obtain ⟨⟨⟨hmonth, hmonth'⟩, hday⟩, hday'⟩ := h
  have hlength : daysInMonth other month ≤ 31 := by
    unfold daysInMonth
    split <;> split <;> omega
  obtain ⟨m, rfl⟩ : ∃ m : Nat, month = m + 1 := ⟨(month - 1).toNat, by omega⟩
  obtain ⟨k, rfl⟩ := Int.eq_ofNat_of_zero_le (show 0 ≤ day by omega)
  have hm : m < 12 := by omega
  have hstart : (monthStarts other).getD m 0 = daysBeforeMonth other (m + 1) := by
    simp [monthStarts, hm]
  obtain ⟨hbegun, hlow, hhigh⟩ := months_begun_table other hother m (List.mem_range.mpr hm) k
    (List.mem_range.mpr (by omega)) (by omega) hday'
  rw [hstart] at hbegun hlow hhigh
  have hfound : (ofYearDay year (daysBeforeMonth other (m + 1) + (k - 1))).month = m + 1 := by
    rw [month_of_year_day, hstarts, hbegun]
    rfl
  simp only [hbefore, hleap]
  refine ⟨?_, hlow, hhigh⟩
  have hday : (ofYearDay year (daysBeforeMonth other (m + 1) + (k - 1))).day = k := by
    show daysBeforeMonth other (m + 1) + (k - 1) - daysBeforeMonth year
      (ofYearDay year (daysBeforeMonth other (m + 1) + (k - 1))).month + 1 = k
    rw [hfound, hbefore]
    omega
  have hdate : ∀ d : Date, d.year = year → d.month = m + 1 → d.day = k → d = ⟨year, m + 1, k⟩ := by
    rintro ⟨⟩ rfl rfl rfl
    rfl
  exact hdate _ rfl hfound hday

/-- A date that exists is that of its day number. -/
theorem of_days_to_days {d : Date} (h : d.isValid = true) : ofDays d.toDays = d := by
  obtain ⟨hdate, hlow, hhigh⟩ := of_year_day_of_valid h
  have hnext := days_before_next_year d.year
  have hdays : d.toDays = daysBeforeYear d.year + (daysBeforeMonth d.year d.month + (d.day - 1)) := by
    rw [toDays]
    omega
  have hfrom : daysBeforeYear d.year ≤ d.toDays := by omega
  rw [of_days_of_year hfrom (by omega), hdays]
  have hrest : daysBeforeYear d.year + (daysBeforeMonth d.year d.month + (d.day - 1)) -
      daysBeforeYear d.year = daysBeforeMonth d.year d.month + (d.day - 1) := by omega
  rw [hrest, hdate]

/-- A day number lies in the year of its date. -/
theorem year_of_days (n : Int) :
    daysBeforeYear (ofDays n).year ≤ n ∧ n < daysBeforeYear ((ofDays n).year + 1) := by
  obtain ⟨year, hfrom, hto⟩ : ∃ year, daysBeforeYear year ≤ n ∧ n < daysBeforeYear (year + 1) := by
    have hguess : daysBeforeYear (n * 400 / 146097) ≤ n ∧ n < daysBeforeYear (n * 400 / 146097 + 3) := by
      simp only [daysBeforeYear]
      omega
    generalize n * 400 / 146097 = guess at hguess
    by_cases hfirst : n < daysBeforeYear (guess + 1)
    · exact ⟨guess, hguess.1, hfirst⟩
    · by_cases hsecond : n < daysBeforeYear (guess + 2)
      · exact ⟨guess + 1, by omega, by rwa [Int.add_assoc]⟩
      · exact ⟨guess + 2, by omega, by rw [Int.add_assoc]; exact hguess.2⟩
  rw [of_days_of_year hfrom hto]
  exact ⟨hfrom, hto⟩

/-- In a common year and in a leap year each day has a date that exists. -/
theorem days_exist_table : ∀ year ∈ [(1 : Int), 4], ∀ day ∈ List.range (365 + if isLeapYear year then 1 else 0),
    (ofYearDay year day).isValid = true := by
  decide +kernel

/-- The date of a day number exists. -/
theorem valid_of_days (n : Int) : (ofDays n).isValid = true := by
  obtain ⟨hfrom, hto⟩ := year_of_days n
  have hnext := days_before_next_year (ofDays n).year
  rw [of_days_of_year hfrom hto]
  generalize (ofDays n).year = year at hfrom hto hnext ⊢
  -- all years with as many days have the same dates
  obtain ⟨other, hother, hleap⟩ : ∃ other ∈ [(1 : Int), 4], isLeapYear year = isLeapYear other := by
    cases isLeapYear year
    · exact ⟨1, by decide, rfl⟩
    · exact ⟨4, by decide, rfl⟩
  obtain ⟨day, hday⟩ := Int.eq_ofNat_of_zero_le (show 0 ≤ n - daysBeforeYear year by omega)
  rw [hleap] at hnext
  have hlength : day < 365 + if isLeapYear other then 1 else 0 := by
    cases hlong : isLeapYear other <;> rw [hlong] at hnext <;> simp at hnext ⊢ <;> omega
  have hvalid := days_exist_table other hother day (List.mem_range.mpr hlength)
  have hstarts : monthStarts year = monthStarts other := by
    simp only [monthStarts, days_before_month_congr hleap]
  have hmonth : (ofYearDay year day).month = (ofYearDay other day).month := by
    rw [month_of_year_day, month_of_year_day, hstarts]
  have hdate : (ofYearDay year day).day = (ofYearDay other day).day := by
    show (day : Int) - daysBeforeMonth year (ofYearDay year day).month + 1 =
      day - daysBeforeMonth other (ofYearDay other day).month + 1
    rw [hmonth, days_before_month_congr hleap]
  rw [hday, isValid, hmonth, hdate, show (ofYearDay year day).year = year from rfl, days_in_month_congr hleap]
  exact hvalid

/-- The representable days are those of the years from 1 to 9999. -/
theorem year_bounds {n : Int} (hfrom : 0 ≤ n) (hto : n < daysBeforeYear 10000) :
    1 ≤ (ofDays n).year ∧ (ofDays n).year ≤ 9999 := by
  obtain ⟨hyear, hnext⟩ := year_of_days n
  have hone : daysBeforeYear 1 = 0 := by decide
  have hlow : ¬(ofDays n).year < 1 := by
    intro hlow
    have hearly := days_before_year_le hlow
    omega
  have hhigh : ¬9999 < (ofDays n).year := by
    intro hhigh
    have hlate := days_before_year_le hhigh
    have hten : (9999 : Int) + 1 = 10000 := rfl
    rw [hten] at hlate
    omega
  omega

/-- A date of the years from 1 to 9999 is a representable day. -/
theorem to_days_bounds {d : Date} (h : d.isValid = true) (hfrom : 1 ≤ d.year) (hto : d.year ≤ 9999) :
    0 ≤ d.toDays ∧ d.toDays < daysBeforeYear 10000 := by
  obtain ⟨_, hlow, hhigh⟩ := of_year_day_of_valid h
  have hnext := days_before_next_year d.year
  have hdays : d.toDays = daysBeforeYear d.year + (daysBeforeMonth d.year d.month + (d.day - 1)) := by
    rw [toDays]
    omega
  have hone : daysBeforeYear 1 = 0 := by decide
  have hearly : daysBeforeYear 1 ≤ daysBeforeYear d.year := by
    simp only [daysBeforeYear]
    omega
  have hlate := days_before_year_le (show d.year < 10000 by omega)
  omega

end Date

namespace Moment

/-- A reading is representable if it lies between the beginning and the end of time. -/
theorem in_range_iff {wall : Int} : inRange wall = true ↔ 0 ≤ wall ∧ wall < endOfTime := by
  simp [inRange]

/-- The number of the day in UTC on which the instant falls. -/
def dayNumber (m : Moment) : Int := m.instant / microsPerDay

/-- A moment falls on the date of its day number. -/
theorem utc_day_eq {m : Moment} {d : Date} (h : m.utcDay = .ok d) : d = Date.ofDays m.dayNumber := by
  cases haware : m.isAware with
  | true =>
      have hday : m.toUtc.map date = .ok d := by simpa [utcDay, haware] using h
      unfold toUtc at hday
      split at hday
      next =>
        obtain rfl := Except.ok.inj hday
        show Date.ofDays _ = _
        rfl
      next => cases hday
  | false =>
      obtain rfl : m.date = d := by simpa [utcDay, haware] using h
      have hoffset : m.offset = none := by simpa [isAware] using haware
      have hinstant : m.instant = m.wall := by simp [instant, offsetMicros, hoffset]
      rw [date, dayNumber, hinstant]

/-- A day begins at midnight and ends before the next one. -/
theorem day_number_eq_iff {m : Moment} {n : Int} :
    m.dayNumber = n ↔ n * microsPerDay ≤ m.instant ∧ m.instant < n * microsPerDay + microsPerDay := by
  have hday : microsPerDay = 86400000000 := rfl
  rw [dayNumber, hday]
  omega

end Moment

end Rulebook
