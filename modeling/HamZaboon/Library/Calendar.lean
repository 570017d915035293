import HamZaboon.Library.Numerals
import Mathlib.Tactic.SplitIfs

/-! # The proleptic Gregorian calendar

Dates of the years 1 to 9999, their day ordinals and their ISO texts.  The
ordinals of dates are in the order of the dates (`ordinal_lt_of_earlier`), and so
are the texts (`before_of_earlier`), whose fields have fixed widths.
-/

namespace HamZaboon.Library

def isLeap (year : Nat) : Bool := year % 4 = 0 && (year % 100 ≠ 0 || year % 400 = 0)

def daysInMonth (year month : Nat) : Nat :=
  if month = 2 then if isLeap year then 29 else 28
  else if month = 4 || month = 6 || month = 9 || month = 11 then 30
  else 31

def daysBeforeMonth (year : Nat) : Nat → Nat
  | 0 => 0
  | 1 => 0
  | month + 2 => daysBeforeMonth year (month + 1) + daysInMonth year (month + 1)

def daysBeforeYear (year : Nat) : Nat :=
  (year - 1) * 365 + (year - 1) / 4 - (year - 1) / 100 + (year - 1) / 400

/-- The ordinal of a day; the first of January of the year 1 is day 1. -/
def ymdToOrdinal (year month day : Nat) : Nat :=
  daysBeforeYear year + daysBeforeMonth year month + day

def daysInYear (year : Nat) : Nat := if isLeap year then 366 else 365

theorem daysBeforeMonth_thirteen (year : Nat) : daysBeforeMonth year 13 = daysInYear year := by
  by_cases h : isLeap year = true <;> simp [daysBeforeMonth, daysInMonth, daysInYear, h]

theorem daysBeforeMonth_le (year : Nat) {month later : Nat} (hmonth : 1 ≤ month)
    (h : month < later) :
    daysBeforeMonth year month + daysInMonth year month ≤ daysBeforeMonth year later := by
  induction later with
  | zero => omega
  | succ later ih =>
    obtain ⟨n, rfl⟩ : ∃ n, later = n + 1 := ⟨later - 1, by omega⟩
    rw [daysBeforeMonth]
    rcases Nat.lt_succ_iff_lt_or_eq.mp h with hlt | heq
    · have hstep := ih hlt
      omega
    · rw [heq]

theorem daysBeforeYear_succ {year : Nat} (h : 1 ≤ year) :
    daysBeforeYear (year + 1) = daysBeforeYear year + daysInYear year := by
  obtain ⟨p, rfl⟩ : ∃ p, year = p + 1 := ⟨year - 1, by omega⟩
  have h4 : (p + 1) / 4 = p / 4 + if (p + 1) % 4 = 0 then 1 else 0 := by split_ifs <;> omega
  have h100 : (p + 1) / 100 = p / 100 + if (p + 1) % 100 = 0 then 1 else 0 := by
    split_ifs <;> omega
  have h400 : (p + 1) / 400 = p / 400 + if (p + 1) % 400 = 0 then 1 else 0 := by
    split_ifs <;> omega
  have hcentury : (p + 1) % 100 = 0 → (p + 1) % 4 = 0 := by omega
  have hera : (p + 1) % 400 = 0 → (p + 1) % 100 = 0 := by omega
  have hle : p / 100 ≤ p := Nat.div_le_self p 100
  simp only [daysBeforeYear, daysInYear, isLeap, Nat.add_sub_cancel, h4, h100, h400,
    Bool.and_eq_true, Bool.or_eq_true, decide_eq_true_eq]
  generalize p / 4 = a, p / 100 = b, p / 400 = c at *
  generalize (p + 1) % 4 = r, (p + 1) % 100 = s, (p + 1) % 400 = t at *
  clear h4 h100 h400
  split_ifs <;> omega

theorem daysBeforeYear_le {year later : Nat} (hyear : 1 ≤ year) (h : year < later) :
    daysBeforeYear year + daysInYear year ≤ daysBeforeYear later := by
  induction later with
  | zero => omega
  | succ later ih =>
    rw [daysBeforeYear_succ (by omega)]
    rcases Nat.lt_succ_iff_lt_or_eq.mp h with hlt | heq
    · have hstep := ih hlt
      omega
    · rw [heq]

/-! ## Dates -/

structure Date where
  year : Nat
  month : Nat
  day : Nat
  one_le_year : 1 ≤ year
  year_le : year ≤ 9999
  one_le_month : 1 ≤ month
  month_le : month ≤ 12
  one_le_day : 1 ≤ day
  day_le : day ≤ daysInMonth year month
deriving DecidableEq, Repr

namespace Date

/-- The date with these fields, if there is one. -/
def ofFields (year month day : Nat) : Option Date :=
  if h : (1 ≤ year ∧ year ≤ 9999) ∧ (1 ≤ month ∧ month ≤ 12) ∧ 1 ≤ day ∧
      day ≤ daysInMonth year month then
    some ⟨year, month, day, h.1.1, h.1.2, h.2.1.1, h.2.1.2, h.2.2.1, h.2.2.2⟩
  else none

theorem ofFields_eq {year month day : Nat} {d : Date} (h : ofFields year month day = some d) :
    d.year = year ∧ d.month = month ∧ d.day = day := by
  rw [ofFields] at h
  split_ifs at h
  cases h
  exact ⟨rfl, rfl, rfl⟩

def ordinal (d : Date) : Nat := ymdToOrdinal d.year d.month d.day

/-- The order of the calendar. -/
def Earlier (a b : Date) : Prop :=
  a.year < b.year ∨ a.year = b.year ∧ (a.month < b.month ∨ a.month = b.month ∧ a.day < b.day)

theorem earlier_trichotomy (a b : Date) : a.Earlier b ∨ a = b ∨ b.Earlier a := by
  rcases a with ⟨ya, ma, da, _, _, _, _, _, _⟩
  rcases b with ⟨yb, mb, db, _, _, _, _, _, _⟩
  simp only [Earlier, mk.injEq]
  omega

theorem ordinal_lt_of_earlier {a b : Date} (h : a.Earlier b) : a.ordinal < b.ordinal := by
  have hday := a.day_le
  have hday' := b.one_le_day
  simp only [ordinal, ymdToOrdinal]
  rcases h with hyear | ⟨hyear, hmonth | ⟨hmonth, hlt⟩⟩
  · have hstep := daysBeforeYear_le a.one_le_year hyear
    have hrest := daysBeforeMonth_le a.year a.one_le_month (Nat.lt_succ_of_le a.month_le)
    rw [daysBeforeMonth_thirteen] at hrest
    omega
  · have hstep := daysBeforeMonth_le a.year a.one_le_month hmonth
    rw [← hyear]
    omega
  · rw [← hyear, ← hmonth]
    omega

theorem earlier_or_eq_of_ordinal_le {a b : Date} (h : a.ordinal ≤ b.ordinal) :
    a.Earlier b ∨ a = b := by
  rcases earlier_trichotomy a b with hlt | heq | hgt
  · exact .inl hlt
  · exact .inr heq
  · have hordinal := ordinal_lt_of_earlier hgt
    omega

def next (d : Date) : Option Date :=
  if d.day < daysInMonth d.year d.month then ofFields d.year d.month (d.day + 1)
  else if d.month < 12 then ofFields d.year (d.month + 1) 1
  else ofFields (d.year + 1) 1 1

theorem ordinal_next {d d' : Date} (h : d.next = some d') : d'.ordinal = d.ordinal + 1 := by
  have hday := d.day_le
  have hmonth := d.month_le
  simp only [ordinal, ymdToOrdinal]
  rw [next] at h
  split_ifs at h with hlt hlt'
  · obtain ⟨hy, hm, hd⟩ := ofFields_eq h
    rw [hy, hm, hd]
    omega
  · obtain ⟨hy, hm, hd⟩ := ofFields_eq h
    obtain ⟨n, hn⟩ : ∃ n, d.month = n + 1 := ⟨d.month - 1, by have := d.one_le_month; omega⟩
    rw [hy, hm, hd, hn, daysBeforeMonth]
    rw [hn] at hlt hday
    omega
  · obtain ⟨hy, hm, hd⟩ := ofFields_eq h
    have htwelve : d.month = 12 := by omega
    have hthirteen := daysBeforeMonth_thirteen d.year
    rw [daysBeforeMonth] at hthirteen
    rw [hy, hm, hd, htwelve, daysBeforeYear_succ d.one_le_year, ← hthirteen]
    rw [htwelve] at hlt hday
    simp only [daysBeforeMonth, Nat.reduceAdd]
    omega

/-! ## ISO texts -/

/-- `YYYY-MM-DD`. -/
def isoformat (d : Date) : List Char :=
  pad 4 d.year ++ '-' :: (pad 2 d.month ++ '-' :: pad 2 d.day)

theorem year_lt (d : Date) : d.year < 10 ^ 4 := by
  have h := d.year_le
  omega

theorem month_lt (d : Date) : d.month < 10 ^ 2 := by
  have h := d.month_le
  omega

theorem day_lt (d : Date) : d.day < 10 ^ 2 := by
  have h := d.day_le
  have hmonth : daysInMonth d.year d.month ≤ 31 := by
    rw [daysInMonth]
    split_ifs <;> omega
  omega

theorem length_isoformat (d : Date) : d.isoformat.length = 10 := by simp [isoformat]

theorem before_pad {width m n : Nat} (h : m < n) (hn : n < 10 ^ width) :
    Before (pad width m) (pad width n) := by
  refine before_of_numeral_lt (by simp) (digits_pad _ _) (digits_pad _ _) ?_
  rwa [numeral_pad (h.trans hn), numeral_pad hn]

theorem before_of_earlier {a b : Date} (h : a.Earlier b) : Before a.isoformat b.isoformat := by
  rcases h with hyear | ⟨hyear, hmonth | ⟨hmonth, hday⟩⟩
  · exact (before_pad hyear b.year_lt).append _ _
  · rw [isoformat, isoformat, hyear]
    exact (((before_pad hmonth b.month_lt).append _ _).prepend ['-']).prepend _
  · rw [isoformat, isoformat, hyear, hmonth]
    have hmonth := ((before_pad hday b.day_lt).prepend ['-']).prepend (pad 2 b.month)
    exact (hmonth.prepend ['-']).prepend (pad 4 b.year)

end Date
end HamZaboon.Library
