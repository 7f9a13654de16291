import AfroPay.JoinedText
import AfroPay.WebText

/-! Calendar dates and their texts: every day has a date of its own, and every time its own
text. Days are counted from the first of March of the year 0, so that a leap day ends its year
and the days before 1970 are natural numbers as well. -/
namespace AfroPay.CalendarDates
open IntegerText JoinedText WebText

/-- Year, month and day. -/
def marchDate (shifted : Nat) : Nat × Nat × Nat :=
  let dayOfEra := shifted % 146097
  let yearOfEra := (dayOfEra - dayOfEra / 1460 + dayOfEra / 36524 - dayOfEra / 146096) / 365
  let dayOfYear := dayOfEra - (365 * yearOfEra + yearOfEra / 4 - yearOfEra / 100)
  let shiftedMonth := (5 * dayOfYear + 2) / 153
  let month := if shiftedMonth < 10 then shiftedMonth + 3 else shiftedMonth - 9
  let year := shifted / 146097 * 400 + yearOfEra + if month ≤ 2 then 1 else 0
  (year, month, dayOfYear - (153 * shiftedMonth + 2) / 5 + 1)

section Dates
variable {day year : Nat}

/-- The years of an era by their first days. -/
theorem yearOfEra_bounds (inside : day < 146097)
    (of_day : year = (day - day / 1460 + day / 36524 - day / 146096) / 365) :
    year < 400 ∧ 365 * year + year / 4 - year / 100 ≤ day ∧ day ≤ 365 * year + year / 4 - year / 100 + 366 := by
  have below : year < 400 := by omega
  -- what the quotients of the day are to those of the year
  have fours : year / 4 ≤ day / 1460 := by omega
  have fours' : day / 1460 ≤ year / 4 + 1 := by omega
  have hundreds : day / 36524 ≤ year / 100 + day / 146096 := by omega
  have hundreds' : year / 100 ≤ day / 36524 := by omega
  have whole : 365 * year + day / 1460 + day / 146096 ≤ day + day / 36524 := by omega
  have nearly : day + day / 36524 < 365 * year + 365 + day / 1460 + day / 146096 := by omega
  generalize day / 1460 = h at *
  generalize day / 36524 = q at *
  generalize last : day / 146096 = g at *
  generalize year / 4 = y4 at *
  generalize year / 100 = y100 at *
  exact ⟨below, by omega, by omega⟩

/-- No two days have one date. -/
theorem marchDate_injective {a b : Nat} (same : marchDate a = marchDate b) : a = b := by
  have inside (n : Nat) : n % 146097 < 146097 := Nat.mod_lt n (by decide)
  obtain ⟨below, first, last⟩ := yearOfEra_bounds (inside a) rfl
  obtain ⟨below', first', last'⟩ := yearOfEra_bounds (inside b) rfl
  simp only [marchDate, Prod.mk.injEq] at same
  generalize (a % 146097 - a % 146097 / 1460 + a % 146097 / 36524 - a % 146097 / 146096) / 365 = year at *
  generalize (b % 146097 - b % 146097 / 1460 + b % 146097 / 36524 - b % 146097 / 146096) / 365 = year' at *
  obtain ⟨years, months, days⟩ := same
  generalize hs : 365 * year + year / 4 - year / 100 = start at *
  generalize hs' : 365 * year' + year' / 4 - year' / 100 = start' at *
  have month : (5 * (a % 146097 - start) + 2) / 153 < 12 := by omega
  have month' : (5 * (b % 146097 - start') + 2) / 153 < 12 := by omega
  have equal_months : (5 * (a % 146097 - start) + 2) / 153 = (5 * (b % 146097 - start') + 2) / 153 := by
    revert months
    split <;> split <;> omega
  rw [months] at years
  rw [equal_months] at days
  have equal_years : year = year' ∧ a / 146097 = b / 146097 := by omega
  obtain ⟨rfl, eras⟩ := equal_years
  have starts : start = start' := hs.symm.trans hs'
  omega

theorem month_lt (shifted : Nat) : (marchDate shifted).2.1 < 100 := by
  obtain ⟨-, -, last⟩ := yearOfEra_bounds (Nat.mod_lt shifted (by decide : 0 < 146097)) rfl
  simp only [marchDate]
  split <;> omega

theorem day_lt (shifted : Nat) : (marchDate shifted).2.2 < 100 := by
  simp only [marchDate]
  omega

end Dates

section Texts
variable {width width' n n' : Nat}

theorem readDigits_zeros (count : Nat) (text : List Char) :
    readDigits 10 0 (List.replicate count '0' ++ text) = readDigits 10 0 text := by
  induction count with
  | zero => rfl
  | succ count ih => exact ih

theorem readDigits_padDigits (width n : Nat) : readDigits 10 0 (padDigits width n) = some n := by
  rw [padDigits, readDigits_zeros, readDigits_toDigits (by decide) (by decide)]

theorem padDigits_injective (same : padDigits width n = padDigits width' n') : n = n' := by
  have read := congrArg (readDigits 10 0) same
  rwa [readDigits_padDigits, readDigits_padDigits, Option.some.injEq] at read

theorem isDigit_padDigits {c : Char} (member : c ∈ padDigits width n) : c.isDigit = true := by
  rcases List.mem_append.mp member with zero | digit
  · obtain rfl := List.eq_of_mem_replicate zero
    decide
  · exact NumberText.isDigit_of_mem_toDigits digit

/-- A mark that is no digit does not stand in a number. -/
theorem padDigits_free {mark : Char} (mark_other : mark.isDigit = false) : mark ∉ padDigits width n := by
  intro member
  rw [isDigit_padDigits member] at mark_other
  cases mark_other

theorem length_padDigits (small : n < 10 ^ width) (positive : 0 < width) : (padDigits width n).length = width := by
  have short := (Nat.length_toDigits_le_iff (by decide) positive).mpr small
  rw [padDigits, List.length_append, List.length_replicate]
  omega

theorem yearText_injective {year year' : Nat} (same : yearText year = yearText year') : year = year' := by
  have unsigned (n : Nat) : '+' ∉ padDigits 4 n := padDigits_free (by decide)
  unfold yearText at same
  split at same <;> split at same
  · exact padDigits_injective same
  · exact absurd (same ▸ List.mem_cons_self) (unsigned year)
  · exact absurd (same.symm ▸ List.mem_cons_self) (unsigned year')
  · exact padDigits_injective (List.cons.inj same).2

theorem yearText_free {mark : Char} {year : Nat} (mark_other : mark.isDigit = false) (not_plus : mark ≠ '+') :
    mark ∉ yearText year := by
  unfold yearText
  split
  · exact padDigits_free mark_other
  · exact List.not_mem_cons_of_ne_of_not_mem not_plus (padDigits_free mark_other)

def dateText (date : Nat × Nat × Nat) : List Char :=
  yearText date.1 ++ '-' :: padDigits 2 date.2.1 ++ '-' :: padDigits 2 date.2.2

theorem dateText_injective {date date' : Nat × Nat × Nat} (same : dateText date = dateText date') : date = date' := by
  obtain ⟨year, month, day⟩ := date
  obtain ⟨year', month', day'⟩ := date'
  simp only [dateText, List.append_assoc, List.cons_append] at same
  obtain ⟨years, rest⟩ := first_separator (yearText_free (by decide) (by decide))
    (yearText_free (by decide) (by decide)) same
  obtain ⟨months, days⟩ := first_separator (padDigits_free (by decide)) (padDigits_free (by decide)) rest
  rw [yearText_injective years, padDigits_injective months, padDigits_injective days]

theorem dateText_free {mark : Char} {date : Nat × Nat × Nat} (mark_other : mark.isDigit = false) (not_plus : mark ≠ '+')
    (not_minus : mark ≠ '-') : mark ∉ dateText date := by
  have digits (width n : Nat) : mark ∉ padDigits width n := padDigits_free mark_other
  simp [dateText, yearText_free mark_other not_plus, digits, not_minus]

theorem toISOString_eq (ms : Nat) : (toISOString ms).toList = dateText (marchDate (ms / 86400000 + 719468)) ++
    'T' :: padDigits 2 (ms / 3600000 % 24) ++ ':' :: padDigits 2 (ms / 60000 % 60) ++
    ':' :: padDigits 2 (ms / 1000 % 60) ++ '.' :: padDigits 3 (ms % 1000) ++ ['Z'] := by
  rw [toISOString, String.toList_ofList]
  rfl

/-- No two times have one text. -/
theorem toISOString_injective {ms ms' : Nat} (same : toISOString ms = toISOString ms') : ms = ms' := by
  have texts := congrArg String.toList same
  simp only [toISOString_eq, List.append_assoc, List.cons_append] at texts
  obtain ⟨dates, texts⟩ := first_separator (dateText_free (by decide) (by decide) (by decide))
    (dateText_free (by decide) (by decide) (by decide)) texts
  obtain ⟨hours, texts⟩ := first_separator (padDigits_free (by decide)) (padDigits_free (by decide)) texts
  obtain ⟨minutes, texts⟩ := first_separator (padDigits_free (by decide)) (padDigits_free (by decide)) texts
  obtain ⟨seconds, texts⟩ := first_separator (padDigits_free (by decide)) (padDigits_free (by decide)) texts
  obtain ⟨milliseconds, -⟩ := first_separator (padDigits_free (by decide)) (padDigits_free (by decide)) texts
  have days := marchDate_injective (dateText_injective dates)
  have hours := padDigits_injective hours
  have minutes := padDigits_injective minutes
  have seconds := padDigits_injective seconds
  have milliseconds := padDigits_injective milliseconds
  omega

end Texts

end AfroPay.CalendarDates
