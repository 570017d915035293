import HamZaboon.Library.Calendar
import HamZaboon.Words.Scheduling

/-! # Dates and instants as texts

The texts of the three date columns: `datetime.fromisoformat` and
`date.fromisoformat` as `_parse_utc` and `_row_effective_due` call them, in the
ISO 8601 forms they are documented to read, and `isoformat` of a UTC time, which
bounds the query of the due words.  A day is its ordinal, and an instant the
microseconds since the day before the first one.
-/

namespace HamZaboon
open Library

/-! ## Reading -/

/-- Hour, minute, second and microsecond as a text has them. -/
structure TimeFields where
  hour : Nat
  minute : Nat
  second : Nat
  microsecond : Nat
deriving DecidableEq, Repr

def TimeFields.micros (t : TimeFields) : Nat :=
  t.hour * 3600000000 + t.minute * 60000000 + t.second * 1000000 + t.microsecond

/-- The fields a time of day may have. -/
def TimeFields.InDay (t : TimeFields) : Prop := t.hour < 24 ∧ t.minute < 60 ∧ t.second < 60

instance (t : TimeFields) : Decidable t.InDay :=
  inferInstanceAs (Decidable (t.hour < 24 ∧ t.minute < 60 ∧ t.second < 60))

def twoDigits : List Char → Option (Nat × List Char)
  | a :: b :: rest =>
    if isAsciiDigit a && isAsciiDigit b then some (numeral [a, b], rest) else none
  | _ => none

/-- The fraction of a second, to six digits; more digits are dropped. -/
def parseFraction : List Char → Option Nat
  | [] => some 0
  | c :: ds =>
    if (c = '.' || c = ',') && ds ≠ [] && ds.all isAsciiDigit then
      some (numeral (ds.take 6) * 10 ^ (6 - (ds.take 6).length))
    else none

/-- `SS[{.,}fff[fff]]`. -/
def parseSeconds (hour minute : Nat) (cs : List Char) : Option TimeFields :=
  (twoDigits cs).bind fun (second, rest) =>
    (parseFraction rest).map fun micro => ⟨hour, minute, second, micro⟩

/-- `MM[:?SS[{.,}fff[fff]]]`, with the separator or without it throughout. -/
def parseMinutes (hasSep : Bool) (hour : Nat) (cs : List Char) : Option TimeFields :=
  (twoDigits cs).bind fun (minute, rest) =>
    match rest with
    | [] => some ⟨hour, minute, 0, 0⟩
    | c :: more =>
      if hasSep then if c = ':' then parseSeconds hour minute more else none
      else parseSeconds hour minute rest

/-- `_parse_hh_mm_ss_ff`: `HH[:?MM[:?SS[{.,}fff[fff]]]]`. -/
def parseHhMmSsFf (cs : List Char) : Option TimeFields :=
  (twoDigits cs).bind fun (hour, rest) =>
    match rest with
    | [] => some ⟨hour, 0, 0, 0⟩
    | c :: more => if c = ':' then parseMinutes true hour more else parseMinutes false hour rest

/-- A character that begins a time zone. -/
def beginsZone (c : Char) : Bool := c = '+' || c = '-' || c = 'Z'

/-- Microseconds of a day, as a number of time fields. -/
def dayFields : Nat := 86400000000

/-- A time zone: `Z`, or an offset of less than a day. -/
def parseZone : List Char → Option Int
  | [] => none
  | c :: rest =>
    if c = 'Z' then if rest = [] then some 0 else none
    else
      (parseHhMmSsFf rest).bind fun tz =>
        if tz.micros < dayFields then some (if c = '-' then -(tz.micros : Int) else tz.micros)
        else none

/-- `_parse_isoformat_time`, with the ranges that the constructor checks. -/
def parseIsoformatTime (cs : List Char) : Option (TimeFields × Option Int) :=
  (parseHhMmSsFf (cs.takeWhile (!beginsZone ·))).bind fun time =>
    if time.InDay then
      match cs.dropWhile (!beginsZone ·) with
      | [] => some (time, none)
      | zone => (parseZone zone).map fun offset => (time, some offset)
    else none

/-- `_find_isoformat_datetime_separator`. -/
def findSeparator (cs : List Char) : Option Nat :=
  if cs.length < 7 then none
  else if cs.length = 7 then some 7
  else if cs[4]? = some '-' then
    if cs[5]? = some 'W' then
      if cs[8]? = some '-' then
        if cs.length = 9 then none
        else if (cs[10]?).any isAsciiDigit then some 8
        else some 10
      else some 8
    else some 10
  else if cs[4]? = some 'W' then
    let idx := 7 + ((cs.drop 7).takeWhile isAsciiDigit).length
    if idx < 9 then some idx else if idx % 2 = 0 then some 7 else some 8
  else some 8

/-- `_isoweek_to_gregorian`, as a day ordinal. -/
def isoweekToOrdinal (year week day : Nat) : Option Nat :=
  let firstday := ymdToOrdinal year 1 1
  let long := firstday % 7 = 4 ∨ firstday % 7 = 3 ∧ isLeap year = true
  if (1 ≤ year ∧ year ≤ 9999) ∧ (0 < week ∧ (week < 53 ∨ week = 53 ∧ long)) ∧ 0 < day ∧ day < 8 then
    let firstweekday := (firstday + 6) % 7
    let week1monday := firstday - firstweekday + if 3 < firstweekday then 7 else 0
    let ordinal := week1monday + (week - 1) * 7 + (day - 1)
    if 1 ≤ ordinal ∧ ordinal < ymdToOrdinal 10000 1 1 then some ordinal else none
  else none

/-- The week form of a date after its `W`. -/
def parseIsoweek (hasSep : Bool) (year : Nat) (cs : List Char) : Option Nat :=
  (twoDigits cs).bind fun (week, rest) =>
    match rest with
    | [] => isoweekToOrdinal year week 1
    | c :: more =>
      if decide (c = '-') = hasSep then
        match if hasSep then more else rest with
        | d :: _ => if isAsciiDigit d then isoweekToOrdinal year week (numeral [d]) else none
        | [] => none
      else none

def parseMonthDay (hasSep : Bool) (year : Nat) (cs : List Char) : Option Date :=
  (twoDigits cs).bind fun (month, rest) =>
    if decide (rest.head? = some '-') = hasSep then
      (twoDigits (if hasSep then rest.tail else rest)).bind fun (day, _) =>
        Date.ofFields year month day
    else none

/-- `_parse_isoformat_date`, as a day ordinal. -/
def parseIsoformatDate (cs : List Char) : Option Nat :=
  if (cs.take 4).length = 4 && (cs.take 4).all isAsciiDigit then
    let year := numeral (cs.take 4)
    let hasSep := cs[4]? = some '-'
    let rest := cs.drop (if hasSep then 5 else 4)
    if rest.head? = some 'W' then parseIsoweek hasSep year rest.tail
    else (parseMonthDay hasSep year rest).map Date.ordinal
  else none

/-- `date.fromisoformat`. -/
def dateFromisoformat (cs : List Char) : Option Nat :=
  if cs.length = 7 ∨ cs.length = 8 ∨ cs.length = 10 then parseIsoformatDate cs else none

/-- A local time with its offset from UTC, if the text has one. -/
structure ParsedTime where
  ordinal : Nat
  time : TimeFields
  offset : Option Int
deriving DecidableEq, Repr

/-- `datetime.fromisoformat`. -/
def datetimeFromisoformat (cs : List Char) : Option ParsedTime :=
  (findSeparator cs).bind fun sep =>
    (parseIsoformatDate (cs.take sep)).bind fun ordinal =>
      match cs.drop sep with
      | [] => some ⟨ordinal, ⟨0, 0, 0, 0⟩, none⟩
      | _ :: text => (parseIsoformatTime text).map fun (time, offset) => ⟨ordinal, time, offset⟩

/-- The instant of a local time; one without an offset is UTC. -/
def ParsedTime.instant (p : ParsedTime) : Instant :=
  p.ordinal * dayMicros + p.time.micros - p.offset.getD 0

def parseUtc (text : List Char) : Option Instant :=
  let text := if text.getLast? = some 'Z' then text.dropLast ++ "+00:00".toList else text
  (datetimeFromisoformat text).map ParsedTime.instant

/-- `LIKE '____-__-__T%'`, which does not tell the case of an ASCII letter. -/
def likeDated : List Char → Bool
  | _ :: _ :: _ :: _ :: c :: _ :: _ :: c' :: _ :: _ :: t :: _ =>
    c = '-' && c' = '-' && (t = 'T' || t = 't')
  | _ => false

/-! ## Writing -/

structure UtcTime where
  date : Date
  time : TimeFields
  inDay : time.InDay
  microsecond_lt : time.microsecond < 1000000
deriving DecidableEq

namespace UtcTime

def instant (t : UtcTime) : Instant := t.date.ordinal * dayMicros + t.time.micros

/-- `t + timedelta(days=1)`, unless it overflows. -/
def addDay (t : UtcTime) : Option UtcTime := t.date.next.map fun date => { t with date := date }

/-- The time of day in `isoformat`, with the offset `+00:00`. -/
def timeText (t : UtcTime) : List Char :=
  pad 2 t.time.hour ++ ':' :: (pad 2 t.time.minute ++ ':' :: (pad 2 t.time.second ++
    ((if t.time.microsecond = 0 then [] else '.' :: pad 6 t.time.microsecond) ++
      "+00:00".toList)))

def isoformat (t : UtcTime) : List Char := t.date.isoformat ++ 'T' :: t.timeText

theorem instant_addDay {t t' : UtcTime} (h : t.addDay = some t') :
    t'.instant = t.instant + dayMicros := by
  obtain ⟨date, hdate, rfl⟩ := Option.map_eq_some_iff.mp h
  rw [instant, instant, Date.ordinal_next hdate]
  push_cast
  ring

theorem micros_lt (t : UtcTime) : t.time.micros < dayFields := by
  obtain ⟨hour, minute, second⟩ := t.inDay
  have micro := t.microsecond_lt
  rw [TimeFields.micros, dayFields]
  omega

end UtcTime
end HamZaboon
