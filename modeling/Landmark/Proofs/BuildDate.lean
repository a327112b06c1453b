/-
Build dates are exact and ordered like days.

A date is packed into one number with four decimal digits and more for the year and two each for month and day. From one day
to the next that number grows, whether the month or the year ends or not, so packed dates are compared as the days are.
- `date?_ofDate`, `ofDate_of_date?`: a packed date is unpacked, and what can be unpacked was packed so.
- `strictMono_packed`: later days have larger numbers.
- `inYears_iff`: which timestamps have a date in the years of the calendar.
- `ofTimestamp_exact`: all of it together.
-/
import Landmark.BuildDate
import Landmark.Proofs.Calendar
import Mathlib.Order.Monotone.Basic

namespace Landmark

/-! ## Packed dates -/

/-- year, month and day written together -/
def Date.packed (d : Date) : Nat :=
  d.year * 10000 + d.month * 100 + d.day

namespace BuildDate

open Calendar
open Date (OnDay Proper)

theorem day_le {d : Date} (h : d.Proper) : d.day ≤ 31 := by
  refine Nat.le_trans h.last_day ?_
  unfold daysIn
  split <;> try split
  all_goals decide

theorem packed_lt_next {d : Date} (h : d.Proper) : d.packed < d.next.packed := by
  have hday := day_le h
  have hmonth := h.last_month
  unfold Date.next
  split
  · simp only [Date.packed]
    omega
  split
  · simp only [Date.packed]
    omega
  · simp only [Date.packed]
    omega

/-- **Later days have larger numbers.** -/
theorem strictMono_packed : StrictMono fun n => (Date.ofDayNumber n).packed := by
  refine strictMono_nat_of_lt_succ fun n => ?_
  rw [Date.ofDayNumber_succ]
  exact packed_lt_next (Date.proper_ofDayNumber n)

theorem toNat_value_ofDate {d : Date} (h : d.Proper) (hyear : d.year ≤ lastYear) : (ofDate d).value.toNat = d.packed := by
  have hday := day_le h
  have hmonth := h.last_month
  refine UInt32.toNat_ofNat_of_lt' ?_
  have hsize : UInt32.size = 4294967296 := rfl
  have hlast : lastYear = 262142 := rfl
  omega

/-- a packed date is unpacked -/
theorem date?_ofDate {d : Date} (h : d.Proper) (hyear : d.year ≤ lastYear) : (ofDate d).date? = some d := by
  have hday := day_le h
  have hmonth := h.last_month
  have hparts : d.packed / 10000 = d.year ∧ d.packed / 100 % 100 = d.month ∧ d.packed % 100 = d.day := by
    unfold Date.packed
    omega
  obtain ⟨hy, hm, hd⟩ := hparts
  rw [date?, toNat_value_ofDate h hyear, hy, hm, hd, Date.ofNumbers]
  exact if_pos (Date.valid_iff.2 ⟨h, hyear⟩)

/-- what can be unpacked was packed so -/
theorem ofDate_of_date? {b : BuildDate} {d : Date} (h : b.date? = some d) : ofDate d = b := by
  rw [date?, Date.ofNumbers] at h
  obtain ⟨-, h⟩ := Option.ite_none_right_eq_some.1 h
  obtain rfl := Option.some.inj h
  have hsum : b.value.toNat / 10000 * 10000 + b.value.toNat / 100 % 100 * 100 + b.value.toNat % 100 = b.value.toNat := by
    omega
  rw [ofDate, hsum, UInt32.ofNat_toNat]

/-! ## Timestamps -/

/-- the UTC date of the timestamp lies in the years of the calendar -/
def InYears (seconds : Int) : Prop :=
  ∃ d, OnDay (seconds / 86400) d ∧ d.year ≤ lastYear

theorem year_le_iff {n : Nat} : (Date.ofDayNumber n).year ≤ lastYear ↔ n < yearStart (lastYear + 1) := by
  have hyear : (Date.ofDayNumber n).year = yearOf n := rfl
  obtain ⟨hstart, hend⟩ := yearOf_bounds n
  rw [hyear]
  constructor
  · intro h
    exact Nat.lt_of_lt_of_le hend (yearStart_mono (Nat.succ_le_succ h))
  · intro h
    by_contra hlate
    have := yearStart_mono (show lastYear + 1 ≤ yearOf n from Nat.lt_of_not_le hlate)
    omega

/-- the first and the last second with a date -/
theorem inYears_iff {seconds : Int} : InYears seconds ↔ -62167219200 ≤ seconds ∧ seconds ≤ 8210266876799 := by
  have hepoch : epochDay = 719528 := rfl
  have hlast : yearStart (lastYear + 1) = 95745765 := by decide
  constructor
  · rintro ⟨d, hd, hyear⟩
    obtain ⟨hk, rfl⟩ := Date.onDay_iff.1 hd
    rw [year_le_iff] at hyear
    omega
  · intro h
    refine ⟨_, Date.onDay_iff.2 ⟨by omega, rfl⟩, year_le_iff.2 ?_⟩
    omega

theorem ofTimestamp_of_onDay {seconds : Int} {d : Date} (hd : OnDay (seconds / 86400) d) (hyear : d.year ≤ lastYear) :
    ofTimestamp seconds = some (ofDate d) := by
  obtain ⟨hk, rfl⟩ := Date.onDay_iff.1 hd
  rw [ofTimestamp]
  dsimp only
  rw [if_neg (by omega), if_pos hyear]

/-- **Build dates are exact and ordered like days.** A timestamp whose date lies in the years of the calendar has a build
date, which is unpacked to the date of its day; of two such timestamps the build dates are compared as the days are; and a
number that is a date is the packed form of that date. -/
theorem ofTimestamp_exact :
    (∀ seconds, InYears seconds ↔ -62167219200 ≤ seconds ∧ seconds ≤ 8210266876799) ∧
    (∀ seconds d, OnDay (seconds / 86400) d → d.year ≤ lastYear →
      ∃ b, ofTimestamp seconds = some b ∧ b.date? = some d) ∧
    (∀ s t, InYears s → InYears t → ∃ a b, ofTimestamp s = some a ∧ ofTimestamp t = some b ∧
      (a.value < b.value ↔ s / 86400 < t / 86400) ∧ (a.value = b.value ↔ s / 86400 = t / 86400)) ∧
    ∀ v d, (BuildDate.mk v).date? = some d → ofDate d = ⟨v⟩ := by
  refine ⟨fun _ => inYears_iff, ?_, ?_, fun v d h => ofDate_of_date? h⟩
  · intro seconds d hd hyear
    obtain ⟨-, hproper⟩ := Date.onDay_iff.1 hd
    refine ⟨ofDate d, ofTimestamp_of_onDay hd hyear, date?_ofDate ?_ hyear⟩
    exact hproper ▸ Date.proper_ofDayNumber _
  · rintro s t ⟨d, hd, hdyear⟩ ⟨e, he, heyear⟩
    refine ⟨ofDate d, ofDate e, ofTimestamp_of_onDay hd hdyear, ofTimestamp_of_onDay he heyear, ?_⟩
    obtain ⟨hs, rfl⟩ := Date.onDay_iff.1 hd
    obtain ⟨ht, rfl⟩ := Date.onDay_iff.1 he
    rw [UInt32.lt_iff_toNat_lt, ← UInt32.toNat_inj, toNat_value_ofDate (Date.proper_ofDayNumber _) hdyear,
      toNat_value_ofDate (Date.proper_ofDayNumber _) heyear]
    have hlt := strictMono_packed.lt_iff_lt (a := (s / 86400 + epochDay).toNat) (b := (t / 86400 + epochDay).toNat)
    have heq := strictMono_packed.injective.eq_iff (a := (s / 86400 + epochDay).toNat) (b := (t / 86400 + epochDay).toNat)
    exact ⟨hlt.trans (by omega), heq.trans (by omega)⟩

/-- A leap day of year 0, the last day of the calendar, the turn of a year before and after which a second lies, and a number
that is a date. -/
theorem leapDay_told :
    (∃ b, ofTimestamp (-62162121600) = some b ∧ b.date? = some ⟨0, 2, 29⟩) ∧
    (∃ b, ofTimestamp 8210266876799 = some b ∧ b.date? = some ⟨262142, 12, 31⟩) ∧
    (∃ a b, ofTimestamp (-1) = some a ∧ ofTimestamp 0 = some b ∧ a.value < b.value) ∧
    ofDate ⟨2010, 8, 3⟩ = ⟨20100803⟩ := by
  obtain ⟨hyears, hdate, horder, hback⟩ := ofTimestamp_exact
  refine ⟨?_, ?_, ?_, hback 20100803 _ (by decide)⟩
  · exact hdate _ _ (Date.onDay_iff.2 ⟨by decide, by decide⟩) (by decide)
  · exact hdate _ _ (Date.onDay_iff.2 ⟨by decide, by decide⟩) (by decide)
  · obtain ⟨a, b, ha, hb, hlt, -⟩ := horder (-1) 0 ((hyears _).2 (by decide)) ((hyears _).2 (by decide))
    exact ⟨a, b, ha, hb, hlt.2 (by decide)⟩

end BuildDate

end Landmark
