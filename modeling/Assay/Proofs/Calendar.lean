import Mathlib.Data.List.Basic
import Assay.Instant.Calendar

/-!
# Days and their dates

Finding the date of a day and counting the days up to a date are inverse: the year that is found
begins no later than the day and ends after it (`Calendar.yearOf_spec`), the months taken off the day
of the year leave a day of the next month (`Calendar.splitMonths_spec`), and the lengths of the
months of a year add up to the year (`Calendar.yearStart_succ`). So every day has a date that the
calendar has (`Day.isValid_ofNumber`) and that counts back to it (`Day.number_ofNumber`).
-/
namespace Assay

namespace Calendar

/-- The number of days of some months. -/
def total (lengths : List Nat) : Nat := lengths.foldr Nat.add 0

/-- The months of a year last as long as the year. -/
theorem yearStart_succ (year : Int) :
    yearStart (year + 1) = yearStart year + total (monthLengths year) := by
  by_cases leap : isLeap year = true
  · have months : total (monthLengths year) = 366 := by simp [total, monthLengths, leap]
    have multiple : year % 4 = 0 ∧ (year % 100 ≠ 0 ∨ year % 400 = 0) := by
      simpa [isLeap] using leap
    rw [months]
    unfold yearStart
    omega
  · have months : total (monthLengths year) = 365 := by simp [total, monthLengths, leap]
    have multiple : year % 4 = 0 → year % 100 = 0 ∧ year % 400 ≠ 0 := by
      simpa [isLeap] using leap
    rw [months]
    unfold yearStart
    omega

/-- A day lies in the year that is found for it. -/
theorem yearOf_spec (days : Int) :
    yearStart (yearOf days) ≤ days ∧ days < yearStart (yearOf days + 1) := by
  -- By the mean length of a year the guess is a year too late or too early at most.
  have early : yearStart (days * 400 / 146097 - 1) ≤ days := by
    unfold yearStart
    omega
  have late : days < yearStart (days * 400 / 146097 + 1 + 1) := by
    unfold yearStart
    omega
  unfold yearOf
  dsimp only
  split
  · rename_i before
    rw [Int.sub_add_cancel]
    exact ⟨early, before⟩
  · rename_i begun
    split
    · rename_i after
      exact ⟨after, late⟩
    · rename_i within
      exact ⟨Int.not_lt.mp begun, Int.not_le.mp within⟩

/-- Whole months taken off a number of days leave fewer days than the next month has. -/
theorem splitMonths_spec {lengths : List Nat} {days : Nat} (inside : days < total lengths) :
    ∃ length, lengths[(splitMonths lengths days).1]? = some length ∧
      (splitMonths lengths days).2 < length ∧
      total (lengths.take (splitMonths lengths days).1) + (splitMonths lengths days).2 = days := by
  induction lengths generalizing days with
  | nil => exact absurd inside (Nat.not_lt_zero days)
  | cons length rest ih =>
    have sum : total (length :: rest) = length + total rest := rfl
    unfold splitMonths
    by_cases first : days < length
    · rw [if_pos first]
      exact ⟨length, rfl, first, Nat.zero_add days⟩
    · rw [if_neg first]
      have remaining : days - length < total rest := by omega
      obtain ⟨next, found, less, counted⟩ := ih remaining
      refine ⟨next, found, less, ?_⟩
      have further : total ((length :: rest).take ((splitMonths rest (days - length)).1 + 1)) =
          length + total (rest.take (splitMonths rest (days - length)).1) := rfl
      dsimp only
      rw [further]
      omega

/-- A year has twelve months. -/
theorem length_monthLengths (year : Int) : (monthLengths year).length = 12 := rfl

/-- No month has more than 31 days. -/
theorem le_of_mem_monthLengths {year : Int} {length : Nat} (listed : length ∈ monthLengths year) :
    length ≤ 31 := by
  simp only [monthLengths, List.mem_cons, List.not_mem_nil, or_false] at listed
  have february : (if isLeap year then 29 else 28) ≤ 31 := by split <;> decide
  omega

end Calendar

namespace Day

open Calendar

/-- The date of a day has a month of its year, and a day of that month; the months before and the
days before lead to the day. -/
theorem ofNumber_spec (days : Int) :
    ∃ year months left length, Day.ofNumber days = ⟨year, months + 1, left + 1⟩ ∧
      (monthLengths year)[months]? = some length ∧ left < length ∧
      yearStart year + total ((monthLengths year).take months) + left = days + epochDay := by
  obtain ⟨begun, ends⟩ := yearOf_spec (days + epochDay)
  rw [yearStart_succ] at ends
  unfold Day.ofNumber
  dsimp only
  generalize yearOf (days + epochDay) = year at begun ends ⊢
  have inside : (days + epochDay - yearStart year).toNat < total (monthLengths year) := by omega
  obtain ⟨length, found, less, counted⟩ := splitMonths_spec inside
  generalize splitMonths (monthLengths year) (days + epochDay - yearStart year).toNat = split
    at found less counted ⊢
  obtain ⟨months, left⟩ := split
  dsimp only at found less counted ⊢
  refine ⟨year, months, left, length, rfl, found, less, ?_⟩
  omega

/-- The number of the date of a day is the day. -/
theorem number_ofNumber (days : Int) : (Day.ofNumber days).number = days := by
  obtain ⟨year, months, left, length, found, _, _, counted⟩ := ofNumber_spec days
  rw [found]
  unfold Day.number
  dsimp only
  rw [Nat.add_sub_cancel]
  unfold total at counted
  omega

/-- The calendar has the date of every day. -/
theorem isValid_ofNumber (days : Int) : (Day.ofNumber days).isValid = true := by
  obtain ⟨year, months, left, length, found, listed, less, _⟩ := ofNumber_spec days
  rw [found]
  unfold Day.isValid
  dsimp only
  rw [Nat.add_sub_cancel, listed]
  exact decide_eq_true (by omega)

/-- Months go to twelve and days to 31. -/
theorem ofNumber_le (days : Int) :
    (Day.ofNumber days).month ≤ 12 ∧ (Day.ofNumber days).day ≤ 31 := by
  obtain ⟨year, months, left, length, found, listed, less, _⟩ := ofNumber_spec days
  rw [found]
  obtain ⟨bound, same⟩ := List.getElem?_eq_some_iff.mp listed
  have twelve := length_monthLengths year
  have most : length ≤ 31 := le_of_mem_monthLengths (List.mem_of_getElem? listed)
  dsimp only
  omega

end Day

end Assay
