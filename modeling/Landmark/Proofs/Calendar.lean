/-
The calendar, day after day.

`Date.next` is the day after a day, by the lengths of months and the rule of leap years, and `OnDay` counts from there:
the date of day `k` is reached from the first of January 1970 in `k` steps, or reaches it in `-k` steps. The closed forms of
the calendar give the same dates.
- `ofDayNumber_dayNumber`, `exists_dayNumber`: dates that exist and numbers of days correspond one to one.
- `ofDayNumber_succ`: the date of the next number is the next date.
- `onDay_iff`: so the date of a day is the one that its number, counted from year 0, has in closed form.
-/
import Landmark.Calendar
import Mathlib.Tactic.IntervalCases

namespace Landmark

namespace Calendar

/-! ## Years -/

/-- days of a month -/
def daysIn (year : Nat) : Nat → Nat
  | 2 => if isLeap year then 29 else 28
  | 4 => 30
  | 6 => 30
  | 9 => 30
  | 11 => 30
  | _ => 31

theorem isLeap_iff {y : Nat} : isLeap y = true ↔ 4 ∣ y ∧ (100 ∣ y → 400 ∣ y) := by
  simp only [isLeap, Bool.and_eq_true, Bool.or_eq_true, beq_iff_eq, bne_iff_ne]
  omega

theorem yearStart_succ (y : Nat) : yearStart (y + 1) = yearStart y + if isLeap y then 366 else 365 := by
  have hfour : (y + 1 + 3) / 4 = (y + 3) / 4 + if 4 ∣ y then 1 else 0 := by split <;> omega
  have hcentury : (y + 1 + 99) / 100 = (y + 99) / 100 + if 100 ∣ y then 1 else 0 := by split <;> omega
  have hcycle : (y + 1 + 399) / 400 = (y + 399) / 400 + if 400 ∣ y then 1 else 0 := by split <;> omega
  have hroom : (y + 99) / 100 ≤ 365 * y := by omega
  unfold yearStart
  rw [hfour, hcentury, hcycle]
  by_cases h4 : 4 ∣ y
  · by_cases h100 : 100 ∣ y
    · by_cases h400 : 400 ∣ y
      · rw [if_pos h4, if_pos h100, if_pos h400, if_pos (isLeap_iff.2 ⟨h4, fun _ => h400⟩)]
        omega
      · rw [if_pos h4, if_pos h100, if_neg h400, if_neg fun h => h400 ((isLeap_iff.1 h).2 h100)]
        omega
    · have h400 : ¬ 400 ∣ y := by omega
      rw [if_pos h4, if_neg h100, if_neg h400, if_pos (isLeap_iff.2 ⟨h4, fun h => absurd h h100⟩)]
      omega
  · have h100 : ¬ 100 ∣ y := by omega
    have h400 : ¬ 400 ∣ y := by omega
    rw [if_neg h4, if_neg h100, if_neg h400, if_neg fun h => h4 (isLeap_iff.1 h).1]
    omega

theorem yearStart_lt_succ (y : Nat) : yearStart y < yearStart (y + 1) := by
  rw [yearStart_succ]
  split <;> omega

theorem yearStart_mono {y z : Nat} (h : y ≤ z) : yearStart y ≤ yearStart z := by
  induction h with
  | refl => exact Nat.le_refl _
  | step _ ih => exact Nat.le_trans ih (Nat.le_of_lt (yearStart_lt_succ _))

/-- a year starts within two days of where it would if all years had the mean length -/
theorem yearStart_bounds (y : Nat) : 146097 * y ≤ 400 * yearStart y + 396 ∧ 400 * yearStart y ≤ 146097 * y + 699 := by
  unfold yearStart
  omega

/-- the estimate is off by one year at most, and then mended -/
theorem yearOf_bounds (n : Nat) : yearStart (yearOf n) ≤ n ∧ n < yearStart (yearOf n + 1) := by
  have hestimate : 146097 * (400 * n / 146097) ≤ 400 * n ∧ 400 * n < 146097 * (400 * n / 146097) + 146097 := by omega
  unfold yearOf
  generalize 400 * n / 146097 = y at hestimate
  dsimp only
  split
  · next hlate =>
    have hnext := (yearStart_bounds (y + 1 + 1)).1
    omega
  next hsoon =>
  split
  · next hearly =>
    cases y with
    | zero => exact absurd hearly (Nat.not_lt_zero n)
    | succ y =>
      have hbefore := (yearStart_bounds y).2
      rw [Nat.add_sub_cancel]
      omega
  · omega

theorem yearOf_eq {y n : Nat} (hstart : yearStart y ≤ n) (hend : n < yearStart (y + 1)) : yearOf n = y := by
  obtain ⟨hle, hlt⟩ := yearOf_bounds n
  rcases Nat.lt_trichotomy (yearOf n) y with h | h | h
  · have := yearStart_mono (show yearOf n + 1 ≤ y from h)
    omega
  · exact h
  · have := yearStart_mono (show y + 1 ≤ yearOf n from h)
    omega

/-! ## Months -/

theorem getElem?_monthLengths {y m : Nat} (hfirst : 1 ≤ m) (hlast : m ≤ 12) :
    (monthLengths (isLeap y))[m - 1]? = some (daysIn y m) := by
  interval_cases m <;> rfl

theorem totalDays_monthLengths (y : Nat) :
    totalDays (monthLengths (isLeap y)) = if isLeap y then 366 else 365 := by
  cases isLeap y <;> rfl

theorem totalDays_take_succ {ls : List Nat} {k l : Nat} (hk : ls[k]? = some l) :
    totalDays (ls.take (k + 1)) = totalDays (ls.take k) + l := by
  induction ls generalizing k with
  | nil => contradiction
  | cons a ls ih =>
    cases k with
    | zero =>
      obtain rfl := Option.some.inj hk
      simp [totalDays]
    | succ k =>
      have hrest := ih (k := k) (by simpa using hk)
      simp only [totalDays, List.take_succ_cons, List.foldr_cons] at hrest ⊢
      omega

theorem totalDays_take_le (ls : List Nat) (k : Nat) : totalDays (ls.take k) ≤ totalDays ls := by
  induction ls generalizing k with
  | nil => simp
  | cons a ls ih =>
    cases k with
    | zero => exact Nat.zero_le _
    | succ k => exact Nat.add_le_add_left (ih k) a

/-- a day is found in the month that holds it -/
theorem monthDay_eq {ls : List Nat} {k l i : Nat} (hk : ls[k]? = some l) (hi : i < l) (m : Nat) :
    monthDay m (totalDays (ls.take k) + i) ls = (m + k, i + 1) := by
  induction ls generalizing k m with
  | nil => contradiction
  | cons a ls ih =>
    cases k with
    | zero =>
      obtain rfl := Option.some.inj hk
      have hstart : totalDays ((a :: ls).take 0) + i = i := Nat.zero_add i
      rw [hstart, monthDay, if_pos hi]
      rfl
    | succ k =>
      have hstart : totalDays ((a :: ls).take (k + 1)) + i = a + (totalDays (ls.take k) + i) := Nat.add_assoc _ _ _
      rw [hstart, monthDay, if_neg (by omega), Nat.add_sub_cancel_left, ih (by simpa using hk), Nat.add_right_comm]
      rfl

/-- every day of a year is in a month -/
theorem exists_month {ls : List Nat} {n : Nat} (h : n < totalDays ls) :
    ∃ k l i, ls[k]? = some l ∧ i < l ∧ n = totalDays (ls.take k) + i := by
  induction ls generalizing n with
  | nil => contradiction
  | cons a ls ih =>
    by_cases hn : n < a
    · exact ⟨0, a, n, rfl, hn, (Nat.zero_add n).symm⟩
    · have hrest : n - a < totalDays ls := by
        have hsum : n < a + totalDays ls := h
        omega
      obtain ⟨k, l, i, hk, hi, hsum⟩ := ih hrest
      refine ⟨k + 1, l, i, hk, hi, ?_⟩
      have hstart : totalDays ((a :: ls).take (k + 1)) = a + totalDays (ls.take k) := rfl
      omega

end Calendar

namespace Date

open Calendar

/-- the date is a day of the calendar -/
structure Proper (d : Date) : Prop where
  first_month : 1 ≤ d.month
  last_month : d.month ≤ 12
  first_day : 1 ≤ d.day
  last_day : d.day ≤ daysIn d.year d.month

theorem valid_iff {d : Date} : d.valid = true ↔ d.Proper ∧ d.year ≤ lastYear := by
  simp only [valid, Bool.and_eq_true, decide_eq_true_eq, bne_iff_ne]
  constructor
  · rintro ⟨⟨hyear, hday⟩, hmonth, hlength⟩
    split at hlength
    · next l hl =>
      have hlast : d.month - 1 < 12 := (List.getElem?_eq_some_iff.1 hl).1
      rw [getElem?_monthLengths (by omega) (by omega)] at hl
      obtain rfl := Option.some.inj hl
      exact ⟨⟨by omega, by omega, hday, of_decide_eq_true hlength⟩, hyear⟩
    · contradiction
  · rintro ⟨⟨hfirst, hlast, hday, hlength⟩, hyear⟩
    refine ⟨⟨hyear, hday⟩, by omega, ?_⟩
    rw [getElem?_monthLengths hfirst hlast]
    exact decide_eq_true hlength

/-- the day after -/
def next (d : Date) : Date :=
  if d.day < daysIn d.year d.month then { d with day := d.day + 1 }
  else if d.month < 12 then ⟨d.year, d.month + 1, 1⟩
  else ⟨d.year + 1, 1, 1⟩

theorem one_le_daysIn (y m : Nat) : 1 ≤ daysIn y m := by
  unfold daysIn
  split <;> try split
  all_goals decide

theorem Proper.next {d : Date} (h : d.Proper) : d.next.Proper := by
  obtain ⟨hfirst, hlast, hday, hlength⟩ := h
  unfold Date.next
  split
  · exact ⟨hfirst, hlast, Nat.succ_pos _, by assumption⟩
  split
  · exact ⟨Nat.succ_pos _, by assumption, Nat.le_refl 1, one_le_daysIn _ _⟩
  · exact ⟨Nat.le_refl 1, Nat.le_add_left 1 11, Nat.le_refl 1, one_le_daysIn _ _⟩

/-! ## Dates and numbers of days -/

/-- **The number of days before a date gives it back.** -/
theorem ofDayNumber_dayNumber {d : Date} (h : d.Proper) : ofDayNumber d.dayNumber = d := by
  obtain ⟨y, m, i⟩ := d
  obtain ⟨hfirst, hlast, hday, hlength⟩ := h
  dsimp only at hfirst hlast hday hlength
  have hmonth := getElem?_monthLengths (y := y) hfirst hlast
  have hyear : yearOf (dayNumber ⟨y, m, i⟩) = y := by
    refine yearOf_eq (Nat.le_trans (Nat.le_add_right _ _) (Nat.le_add_right _ _)) ?_
    have htake := totalDays_take_succ hmonth
    have hle := totalDays_take_le (monthLengths (isLeap y)) (m - 1 + 1)
    rw [totalDays_monthLengths] at hle
    rw [yearStart_succ, dayNumber]
    dsimp only
    omega
  have hrest : dayNumber ⟨y, m, i⟩ - yearStart y = totalDays ((monthLengths (isLeap y)).take (m - 1)) + (i - 1) := by
    rw [dayNumber]
    dsimp only
    omega
  rw [ofDayNumber, hyear, hrest, monthDay_eq hmonth (by omega)]
  dsimp only
  rw [Nat.add_sub_cancel' hfirst, Nat.sub_add_cancel hday]

/-- every number of days leads to a date -/
theorem exists_dayNumber (n : Nat) : ∃ d : Date, d.Proper ∧ d.dayNumber = n := by
  obtain ⟨hstart, hend⟩ := yearOf_bounds n
  generalize yearOf n = y at hstart hend
  have hrest : n - yearStart y < totalDays (monthLengths (isLeap y)) := by
    rw [yearStart_succ] at hend
    rw [totalDays_monthLengths]
    omega
  obtain ⟨k, l, i, hk, hi, hsum⟩ := exists_month hrest
  have hlast : k < 12 := (List.getElem?_eq_some_iff.1 hk).1
  have hlength := getElem?_monthLengths (y := y) (m := k + 1) (Nat.succ_pos k) hlast
  rw [Nat.add_sub_cancel, hk] at hlength
  obtain rfl := Option.some.inj hlength
  refine ⟨⟨y, k + 1, i + 1⟩, ⟨Nat.succ_pos k, hlast, Nat.succ_pos i, hi⟩, ?_⟩
  rw [dayNumber]
  dsimp only
  rw [Nat.add_sub_cancel, Nat.add_sub_cancel]
  omega

theorem dayNumber_next {d : Date} (h : d.Proper) : d.next.dayNumber = d.dayNumber + 1 := by
  obtain ⟨y, m, i⟩ := d
  obtain ⟨hfirst, hlast, hday, hlength⟩ := h
  dsimp only at hfirst hlast hday hlength
  have hmonth := totalDays_take_succ (getElem?_monthLengths (y := y) hfirst hlast)
  rw [Nat.sub_add_cancel hfirst] at hmonth
  simp only [Date.next]
  split
  · simp only [dayNumber]
    omega
  next hend =>
  split
  · simp only [dayNumber, Nat.add_sub_cancel]
    omega
  · next hdecember =>
    obtain rfl : m = 12 := by omega
    have hall : (monthLengths (isLeap y)).take 12 = monthLengths (isLeap y) := rfl
    rw [hall, totalDays_monthLengths] at hmonth
    have hnew : totalDays ((monthLengths (isLeap (y + 1))).take (1 - 1)) = 0 := rfl
    simp only [dayNumber, hnew, yearStart_succ]
    omega

/-- **The date of the next number is the next date.** -/
theorem ofDayNumber_succ (n : Nat) : ofDayNumber (n + 1) = (ofDayNumber n).next := by
  obtain ⟨d, hd, rfl⟩ := exists_dayNumber n
  rw [← dayNumber_next hd, ofDayNumber_dayNumber hd.next, ofDayNumber_dayNumber hd]

theorem proper_ofDayNumber (n : Nat) : (ofDayNumber n).Proper := by
  obtain ⟨d, hd, rfl⟩ := exists_dayNumber n
  rwa [ofDayNumber_dayNumber hd]

theorem dayNumber_ofDayNumber (n : Nat) : (ofDayNumber n).dayNumber = n := by
  obtain ⟨d, hd, rfl⟩ := exists_dayNumber n
  rw [ofDayNumber_dayNumber hd]

theorem iterate_next_ofDayNumber (n k : Nat) : next^[k] (ofDayNumber n) = ofDayNumber (n + k) := by
  induction k with
  | zero => rfl
  | succ k ih => rw [Function.iterate_succ_apply', ih, ← ofDayNumber_succ, Nat.add_assoc]

/-! ## Days since 1970 -/

/-- the first of January 1970 -/
def epoch : Date := ⟨1970, 1, 1⟩

/-- the date of day `k`: that of the first of January 1970, `k` days on, or the one from which it is `-k` days to there -/
inductive OnDay : Int → Date → Prop where
  | after (n : Nat) : OnDay n (next^[n] epoch)
  | before (n : Nat) {d : Date} (hd : d.Proper) (h : next^[n] d = epoch) : OnDay (-n) d

theorem dayNumber_epoch : epochDay = epoch.dayNumber := by decide

theorem proper_epoch : epoch.Proper := ⟨by decide, by decide, by decide, by decide⟩

theorem iterate_next {d : Date} (h : d.Proper) (k : Nat) : next^[k] d = ofDayNumber (d.dayNumber + k) := by
  rw [← iterate_next_ofDayNumber, ofDayNumber_dayNumber h]

/-- **The date of a day is the one with its number**, counted from the first of January of year 0. -/
theorem onDay_iff {k : Int} {d : Date} : OnDay k d ↔ 0 ≤ k + epochDay ∧ d = ofDayNumber (k + epochDay).toNat := by
  rw [dayNumber_epoch]
  constructor
  · rintro (⟨n⟩ | ⟨n, hd, h⟩)
    · rw [iterate_next proper_epoch]
      exact ⟨by omega, congrArg ofDayNumber (by omega)⟩
    · rw [iterate_next hd] at h
      have hsum : d.dayNumber + n = epoch.dayNumber := by
        rw [← dayNumber_ofDayNumber (d.dayNumber + n), h]
      refine ⟨by omega, ?_⟩
      have hnumber : (-(n : Int) + epoch.dayNumber).toNat = d.dayNumber := by omega
      rw [hnumber, ofDayNumber_dayNumber hd]
  · rintro ⟨hk, rfl⟩
    obtain ⟨n, rfl | rfl⟩ := k.eq_nat_or_neg
    · have hnumber : ((n : Int) + epoch.dayNumber).toNat = epoch.dayNumber + n := by omega
      rw [hnumber, ← iterate_next proper_epoch]
      exact .after n
    · refine .before n (proper_ofDayNumber _) ?_
      have hnumber : (-(n : Int) + epoch.dayNumber).toNat + n = epoch.dayNumber := by omega
      rw [iterate_next_ofDayNumber, hnumber, ofDayNumber_dayNumber proper_epoch]

end Date

end Landmark
