import CodeSurvey.Time.Calendar
import Mathlib.Tactic.IntervalCases

/-!
# Dates of days

Every day has a date, which is a valid one, and the day of this date is the day itself.  An era
of 400 years is counted in years that begin in March, and each of its days lies between the
beginnings of two such years.
-/

namespace CodeSurvey
namespace Time
namespace Date

/-!
# The years of an era
-/

def yearStart (year : Nat) : Nat :=
  365 * year + year / 4 - year / 100 + year / 400

def yearOfDay (day : Nat) : Nat :=
  (day - day / 1460 + day / 36524 - day / 146096) / 365

theorem yearOfDay_le_succ {day : Nat} (h : day + 1 < 146097) :
    yearOfDay day ≤ yearOfDay (day + 1) := by
  unfold yearOfDay
  omega

theorem yearOfDay_mono {day day' : Nat} (hle : day ≤ day') (h : day' < 146097) :
    yearOfDay day ≤ yearOfDay day' := by
  induction day', hle using Nat.le_induction with
  | base => exact Nat.le_refl _
  | succ day' _ ih => exact Nat.le_trans (ih (by omega)) (yearOfDay_le_succ h)

theorem yearOfDay_yearStart : forall year, year < 400 ->
    yearOfDay (yearStart year) = year ∧ yearOfDay (yearStart (year + 1) - 1) = year := by
  decide +kernel

theorem exists_yearStart_le {years day : Nat} (h : day < yearStart years) :
    exists year, year < years ∧ yearStart year ≤ day ∧ day < yearStart (year + 1) := by
  induction years with
  | zero => cases h
  | succ years ih =>
      by_cases hday : day < yearStart years
      · rcases ih hday with ⟨year, hyear, hbounds⟩
        exact ⟨year, Nat.lt_succ_of_lt hyear, hbounds⟩
      · exact ⟨years, Nat.lt_succ_self years, Nat.le_of_not_lt hday, h⟩

theorem yearOfDay_spec {day : Nat} (h : day < 146097) :
    yearOfDay day < 400 ∧ yearStart (yearOfDay day) ≤ day ∧
      day < yearStart (yearOfDay day + 1) := by
  have hera : yearStart 400 = 146097 := rfl
  rcases exists_yearStart_le (hera ▸ h) with ⟨year, hyear, hfirst, hnext⟩
  have hlast : yearStart (year + 1) - 1 < 146097 := by
    unfold yearStart
    omega
  rcases yearOfDay_yearStart year hyear with ⟨hleft, hright⟩
  -- The first and the last day of the year lie in it, hence so does every day between them.
  have hle := yearOfDay_mono hfirst h
  have hge := yearOfDay_mono (Nat.le_sub_one_of_lt hnext) hlast
  have hsame : yearOfDay day = year := by omega
  rw [hsame]
  exact ⟨hyear, hfirst, hnext⟩

/-- The year after a year decides whether it has a leap day, for that one holds its February. -/
theorem yearStart_succ {year : Nat} (h : year < 400) (era : Int) :
    yearStart (year + 1) =
      yearStart year + if isLeapYear (era * 400 + year + 1) then 366 else 365 := by
  unfold yearStart isLeapYear
  split
  next hleap =>
    simp only [Bool.and_eq_true, Bool.or_eq_true, decide_eq_true_eq] at hleap
    omega
  next hcommon =>
    simp only [Bool.and_eq_true, Bool.or_eq_true, decide_eq_true_eq] at hcommon
    omega

/-!
# The days of a year
-/

theorem isValid_iff {d : Date} :
    d.isValid = true ↔
      1 ≤ d.month ∧ d.month ≤ 12 ∧ 1 ≤ d.day ∧ d.day ≤ daysInMonth d.year d.month := by
  unfold isValid
  simp only [Bool.and_eq_true, decide_eq_true_iff, and_assoc]

theorem daysInMonth_le (year : Int) (month : Nat) : daysInMonth year month ≤ 31 := by
  unfold daysInMonth
  split
  · split
    · decide
    · decide
  all_goals decide

/-- The month of the calendar, for a month that is counted from March. -/
def monthOfMarch (marchMonth : Nat) : Nat :=
  if marchMonth < 10 then marchMonth + 3 else marchMonth - 9

theorem monthOfMarch_spec : forall marchMonth, marchMonth < 12 ->
    1 ≤ monthOfMarch marchMonth ∧ monthOfMarch marchMonth ≤ 12 ∧
      (if monthOfMarch marchMonth > 2 then monthOfMarch marchMonth - 3
        else monthOfMarch marchMonth + 9) = marchMonth := by
  decide

theorem daysInMonth_monthOfMarch (year : Int) : forall marchMonth, marchMonth < 11 ->
    daysInMonth year (monthOfMarch marchMonth) =
      (153 * (marchMonth + 1) + 2) / 5 - (153 * marchMonth + 2) / 5 := by
  intro marchMonth h
  interval_cases marchMonth
  all_goals rfl

/-- The date of a day of a year that begins in March. -/
def ofMarch (year : Int) (day : Nat) : Date :=
  let marchMonth := (5 * day + 2) / 153
  let month := monthOfMarch marchMonth
  { year := if month ≤ 2 then year + 1 else year
    month := month
    day := day - (153 * marchMonth + 2) / 5 + 1 }

theorem marchMonth_spec {day : Nat} (h : day ≤ 365) :
    (5 * day + 2) / 153 < 12 ∧ (153 * ((5 * day + 2) / 153) + 2) / 5 ≤ day ∧
      day < (153 * ((5 * day + 2) / 153 + 1) + 2) / 5 := by
  omega

theorem le_of_lt_length {leap : Bool} {day : Nat} (h : day < if leap then 366 else 365) :
    day ≤ 365 := by
  split at h
  · exact Nat.le_of_lt_succ h
  · exact Nat.le_of_lt h

theorem isValid_ofMarch {year : Int} {day : Nat}
    (h : day < if isLeapYear (year + 1) then 366 else 365) : (ofMarch year day).isValid = true := by
  rcases marchMonth_spec (le_of_lt_length h) with ⟨hmonth, hfirst, hnext⟩
  rw [isValid_iff]
  unfold ofMarch
  generalize (5 * day + 2) / 153 = marchMonth at hmonth hfirst hnext ⊢
  rcases monthOfMarch_spec marchMonth hmonth with ⟨hlow, hhigh, _⟩
  refine ⟨hlow, hhigh, Nat.le_add_left 1 _, ?_⟩
  cases Nat.lt_or_eq_of_le (Nat.le_of_lt_succ hmonth) with
  | inl hearlier =>
      simp only [daysInMonth_monthOfMarch _ marchMonth hearlier]
      omega
  | inr hfebruary =>
      subst hfebruary
      show day - 337 + 1 ≤ if isLeapYear (year + 1) then 29 else 28
      split at h
      next hleap =>
        rw [if_pos hleap]
        omega
      next hcommon =>
        rw [if_neg hcommon]
        omega

theorem march_ofMarch (year : Int) {day : Nat} (h : day ≤ 365) :
    let d := ofMarch year day
    (if d.month ≤ 2 then d.year - 1 else d.year) = year ∧
      (if d.month > 2 then d.month - 3 else d.month + 9) = (5 * day + 2) / 153 := by
  rcases marchMonth_spec h with ⟨hmonth, _⟩
  refine ⟨?_, (monthOfMarch_spec _ hmonth).2.2⟩
  show (if monthOfMarch _ ≤ 2 then (if monthOfMarch _ ≤ 2 then year + 1 else year) - 1 else
    if monthOfMarch _ ≤ 2 then year + 1 else year) = year
  split
  · exact Int.add_sub_cancel year 1
  · rfl

theorem days_ofMarch {year day : Nat} (hyear : year < 400) (hday : day ≤ 365) (era : Int) :
    (ofMarch (era * 400 + year) day).days =
      era * daysPerEra + (year * 365 + year / 4 - year / 100 + day : Nat) - epochOffset := by
  rcases marchMonth_spec hday with ⟨_, hfirst, _⟩
  have hera : (era * 400 + (year : Int)).fdiv 400 = era := by
    rw [Int.fdiv_eq_ediv_of_nonneg _ (by decide)]
    omega
  have hrest : ((era * 400 + (year : Int)).fmod 400).toNat = year := by
    rw [Int.fmod_eq_emod_of_nonneg _ (by decide)]
    omega
  have hin : (153 * ((5 * day + 2) / 153) + 2) / 5 +
      (day - (153 * ((5 * day + 2) / 153) + 2) / 5 + 1 - 1) = day := by
    omega
  rcases march_ofMarch (era * 400 + year) hday with ⟨hsame, hmonth⟩
  unfold Date.days
  simp only [hsame, hmonth, hera, hrest]
  show era * daysPerEra + ((_ + (_ + (_ + 1 - 1)) : Nat) : Int) - epochOffset = _
  rw [hin]

/-!
# Dates
-/

theorem ofDays_eq (days : Int) :
    exists era : Int, exists year day : Nat, year < 400 ∧
      (day < if isLeapYear (era * 400 + year + 1) then 366 else 365) ∧
      ofDays days = ofMarch (era * 400 + year) day ∧
      era * daysPerEra + (year * 365 + year / 4 - year / 100 + day : Nat) - epochOffset = days := by
  let era := (days + epochOffset).fdiv daysPerEra
  let dayOfEra := ((days + epochOffset).fmod daysPerEra).toNat
  have hnonneg : 0 ≤ (days + epochOffset).fmod daysPerEra := Int.fmod_nonneg_of_pos _ (by decide)
  have hlt : (days + epochOffset).fmod daysPerEra < daysPerEra := Int.fmod_lt_of_pos _ (by decide)
  have hsum : era * daysPerEra + (dayOfEra : Int) = days + epochOffset := by
    show _ + (((days + epochOffset).fmod daysPerEra).toNat : Int) = _
    rw [Int.toNat_of_nonneg hnonneg, Int.mul_comm]
    exact Int.mul_fdiv_add_fmod _ _
  have hdate : ofDays days = ofMarch (era * 400 + yearOfDay dayOfEra)
      (dayOfEra - (365 * yearOfDay dayOfEra + yearOfDay dayOfEra / 4 - yearOfDay dayOfEra / 100)) :=
    rfl
  rcases yearOfDay_spec ((Int.toNat_lt hnonneg).mpr hlt) with ⟨hyear, hfirst, hnext⟩
  rw [yearStart_succ hyear era] at hnext
  generalize yearOfDay dayOfEra = year at hdate hyear hfirst hnext
  have hstart : yearStart year = 365 * year + year / 4 - year / 100 := by
    unfold yearStart
    omega
  rw [hstart] at hfirst hnext
  refine ⟨era, year, _, hyear, Nat.sub_lt_left_of_lt_add hfirst hnext, hdate, ?_⟩
  rw [Nat.mul_comm year, Nat.add_sub_cancel' hfirst, hsum]
  exact Int.add_sub_cancel _ _

theorem days_ofDays (days : Int) : (ofDays days).days = days := by
  rcases ofDays_eq days with ⟨era, year, day, hyear, hday, hdate, hdays⟩
  rw [hdate, days_ofMarch hyear (le_of_lt_length hday), hdays]

theorem isValid_ofDays (days : Int) : (ofDays days).isValid = true := by
  rcases ofDays_eq days with ⟨era, year, day, _, hday, hdate, _⟩
  rw [hdate]
  exact isValid_ofMarch hday

end Date
end Time
end CodeSurvey
