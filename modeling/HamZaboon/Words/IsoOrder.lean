import HamZaboon.Words.IsoText
import Mathlib.Data.List.TakeWhile

/-! # Texts in the order of their instants

A text of the shape `____-__-__T…` that Python reads as an instant not after
`now` does not come after the text of `now` plus a day
(`textLe_of_instant_le`): an offset is less than a day, so that the local time
of the text is before the local time of the bound, and its fields are written
in the same places.
-/

namespace HamZaboon
open Library

/-! ## Times of day -/

theorem twoDigits_eq {cs rest : List Char} {n : Nat} (h : twoDigits cs = some (n, rest)) :
    ∃ ds, cs = ds ++ rest ∧ ds.length = 2 ∧ ds.all isAsciiDigit = true ∧ n = numeral ds := by
  rcases cs with _ | ⟨a, _ | ⟨b, cs⟩⟩
  · cases h
  · cases h
  · rw [twoDigits] at h
    split_ifs at h with hdigits
    cases h
    exact ⟨[a, b], rfl, rfl, by simpa using hdigits, rfl⟩

section Two
variable {ds : List Char} (hlength : ds.length = 2) (hdigits : ds.all isAsciiDigit = true)
include hlength hdigits

theorem before_pad_two {n : Nat} (h : numeral ds < n) (hn : n < 100) : Before ds (pad 2 n) := by
  refine before_of_numeral_lt (by simp [hlength]) hdigits (digits_pad 2 n) ?_
  rwa [numeral_pad hn]

theorem eq_pad_two {n : Nat} (h : numeral ds = n) : ds = pad 2 n := by
  have hpad := pad_numeral hdigits
  rwa [hlength, h, eq_comm] at hpad

end Two

theorem parseFraction_lt {cs : List Char} {f : Nat} (h : parseFraction cs = some f) :
    f < 1000000 := by
  rcases cs with _ | ⟨c, ds⟩
  · cases h
    omega
  · rw [parseFraction] at h
    split_ifs at h with hds
    cases h
    simp only [Bool.and_eq_true] at hds
    have hall : (ds.take 6).all isAsciiDigit = true := by
      rw [List.all_eq_true] at hds ⊢
      exact fun c hc => hds.2 c (List.mem_of_mem_take hc)
    have hlength : (ds.take 6).length ≤ 6 := List.length_take_le 6 ds
    calc numeral (ds.take 6) * 10 ^ (6 - (ds.take 6).length)
        < 10 ^ (ds.take 6).length * 10 ^ (6 - (ds.take 6).length) :=
          Nat.mul_lt_mul_of_pos_right (numeral_lt hall) (Nat.pow_pos (by omega))
      _ = 10 ^ 6 := by rw [← pow_add, Nat.add_sub_cancel' hlength]

theorem fields_parseSeconds {hour minute : Nat} {cs : List Char} {f : TimeFields}
    (h : parseSeconds hour minute cs = some f) : f.hour = hour ∧ f.minute = minute := by
  obtain ⟨⟨n, tail⟩, -, h⟩ := Option.bind_eq_some_iff.mp h
  obtain ⟨us, -, rfl⟩ := Option.map_eq_some_iff.mp h
  exact ⟨rfl, rfl⟩

theorem microsecond_parseSeconds {hour minute : Nat} {cs : List Char} {f : TimeFields}
    (h : parseSeconds hour minute cs = some f) : f.microsecond < 1000000 := by
  obtain ⟨⟨n, tail⟩, -, h⟩ := Option.bind_eq_some_iff.mp h
  obtain ⟨us, hfraction, rfl⟩ := Option.map_eq_some_iff.mp h
  exact parseFraction_lt hfraction

theorem fraction_before {cs : List Char} {f micro : Nat} (h : parseFraction cs = some f)
    (hlt : f < micro) (hmicro : micro < 1000000) (zone rest : List Char) :
    Before (cs ++ '+' :: zone) ('.' :: pad 6 micro ++ rest) := by
  rcases cs with _ | ⟨c, ds⟩
  · exact .here _ _ (by decide)
  rw [parseFraction] at h
  split_ifs at h with hds
  cases h
  simp only [Bool.and_eq_true, Bool.or_eq_true, decide_eq_true_eq] at hds
  obtain ⟨⟨rfl | rfl, -⟩, hall⟩ := hds
  · refine .there '.' ?_
    show Before (ds ++ '+' :: zone) (pad 6 micro ++ rest)
    have hvalue : numeral (pad 6 micro) = micro := numeral_pad hmicro
    by_cases hlong : 6 ≤ ds.length
    · -- the first six digits decide
      have htake : (ds.take 6).length = 6 := by simp [hlong]
      have hall' : (ds.take 6).all isAsciiDigit = true := by
        rw [List.all_eq_true] at hall ⊢
        exact fun c hc => hall c (List.mem_of_mem_take hc)
      rw [htake, Nat.sub_self, pow_zero, Nat.mul_one] at hlt
      have hbefore : Before (ds.take 6) (pad 6 micro) :=
        before_of_numeral_lt (by simp [htake]) hall' (digits_pad 6 micro) (by rwa [hvalue])
      have happend := hbefore.append (ds.drop 6 ++ '+' :: zone) rest
      rwa [← List.append_assoc, List.take_append_drop] at happend
    · have hshort : ds.length ≤ 6 := by omega
      rw [List.take_of_length_le hshort] at hlt
      refine before_of_scaled_lt (by simp [hshort]) hall (digits_pad 6 micro) ?_ (by decide) _ _
      rwa [hvalue, length_pad]
  · exact .here _ _ (by decide)

theorem seconds_before {cs : List Char} {f : TimeFields} {hour minute second micro : Nat}
    (h : parseSeconds hour minute cs = some f)
    (hlt : f.second * 1000000 + f.microsecond < second * 1000000 + micro) (hsecond : second < 60)
    (hmicro : micro < 1000000) (zone rest : List Char) :
    Before (cs ++ '+' :: zone)
      (pad 2 second ++ ((if micro = 0 then [] else '.' :: pad 6 micro) ++ rest)) := by
  obtain ⟨⟨n, tail⟩, htwo, h⟩ := Option.bind_eq_some_iff.mp h
  obtain ⟨us, hfraction, rfl⟩ := Option.map_eq_some_iff.mp h
  obtain ⟨ds, rfl, hlength, hdigits, rfl⟩ := twoDigits_eq htwo
  have hus := parseFraction_lt hfraction
  simp only at hlt
  rw [List.append_assoc]
  rcases Nat.lt_trichotomy (numeral ds) second with hless | heq | hmore
  · exact (before_pad_two hlength hdigits hless (by omega)).append _ _
  · rw [eq_pad_two hlength hdigits heq]
    refine Before.prepend _ ?_
    have hne : micro ≠ 0 := by omega
    rw [if_neg hne]
    exact fraction_before hfraction (by omega) hmicro zone rest
  · omega

theorem minutes_before {cs : List Char} {f : TimeFields} {hour minute second micro : Nat}
    (h : parseMinutes true hour cs = some f)
    (hlt : f.minute * 60000000 + f.second * 1000000 + f.microsecond <
      minute * 60000000 + second * 1000000 + micro)
    (hf : f.second < 60) (hminute : minute < 60) (hsecond : second < 60)
    (hmicro : micro < 1000000) (zone rest : List Char) :
    Before (cs ++ '+' :: zone)
      (pad 2 minute ++ ':' :: (pad 2 second ++
        ((if micro = 0 then [] else '.' :: pad 6 micro) ++ rest))) := by
  obtain ⟨⟨n, tail⟩, htwo, hrest⟩ := Option.bind_eq_some_iff.mp h
  obtain ⟨ds, rfl, hlength, hdigits, rfl⟩ := twoDigits_eq htwo
  rw [List.append_assoc]
  rcases tail with _ | ⟨c, tail⟩
  · cases hrest
    simp only at hlt
    rcases Nat.lt_trichotomy (numeral ds) minute with hless | heq | hmore
    · exact (before_pad_two hlength hdigits hless (by omega)).append _ _
    · rw [eq_pad_two hlength hdigits heq]
      exact Before.prepend _ (.here _ _ (by decide))
    · omega
  · simp only [if_true] at hrest
    split_ifs at hrest with hc
    subst hc
    obtain ⟨-, hm⟩ := fields_parseSeconds hrest
    have hus := microsecond_parseSeconds hrest
    rcases Nat.lt_trichotomy (numeral ds) minute with hless | heq | hmore
    · exact (before_pad_two hlength hdigits hless (by omega)).append _ _
    · rw [hm, heq] at hlt
      simp only [Nat.add_assoc] at hlt
      rw [eq_pad_two hlength hdigits heq]
      refine Before.prepend _ (.there ':' ?_)
      exact seconds_before hrest (Nat.lt_of_add_lt_add_left hlt) hsecond hmicro zone rest
    · omega

theorem hour_parseMinutes {hasSep : Bool} {hour : Nat} {cs : List Char} {f : TimeFields}
    (h : parseMinutes hasSep hour cs = some f) : f.hour = hour := by
  obtain ⟨⟨n, tail⟩, -, hrest⟩ := Option.bind_eq_some_iff.mp h
  rcases tail with _ | ⟨c, tail⟩
  · cases hrest
    rfl
  · simp only at hrest
    split_ifs at hrest with hsep hc
    · exact (fields_parseSeconds hrest).1
    · exact (fields_parseSeconds hrest).1

theorem microsecond_parseMinutes {hasSep : Bool} {hour : Nat} {cs : List Char} {f : TimeFields}
    (h : parseMinutes hasSep hour cs = some f) : f.microsecond < 1000000 := by
  obtain ⟨⟨n, tail⟩, -, hrest⟩ := Option.bind_eq_some_iff.mp h
  rcases tail with _ | ⟨c, tail⟩
  · cases hrest
    show 0 < 1000000
    omega
  · simp only at hrest
    split_ifs at hrest with hsep hc
    · exact microsecond_parseSeconds hrest
    · exact microsecond_parseSeconds hrest

/-- **A time of day that is earlier comes first**, when an offset to the east
follows it. -/
theorem clock_before {cs : List Char} {f : TimeFields} {b : UtcTime}
    (h : parseHhMmSsFf cs = some f) (hf : f.InDay) (hlt : f.micros < b.time.micros)
    (zone : List Char) : Before (cs ++ '+' :: zone) b.timeText := by
  obtain ⟨-, hfminute, hfsecond⟩ := hf
  obtain ⟨hhour, hminute, hsecond⟩ := b.inDay
  have hmicro := b.microsecond_lt
  obtain ⟨⟨n, tail⟩, htwo, hrest⟩ := Option.bind_eq_some_iff.mp h
  obtain ⟨ds, rfl, hlength, hdigits, rfl⟩ := twoDigits_eq htwo
  rw [TimeFields.micros, TimeFields.micros] at hlt
  rw [List.append_assoc, UtcTime.timeText]
  -- the hours decide, or are the same and a smaller character follows them
  suffices hfollow : f.hour = numeral ds ∧ f.microsecond < 1000000 ∧
      (numeral ds = b.time.hour → Before (tail ++ '+' :: zone)
        (':' :: (pad 2 b.time.minute ++ ':' :: (pad 2 b.time.second ++
          ((if b.time.microsecond = 0 then [] else '.' :: pad 6 b.time.microsecond) ++
            "+00:00".toList))))) by
    obtain ⟨hfhour, hfmicro, hbefore⟩ := hfollow
    rcases Nat.lt_trichotomy (numeral ds) b.time.hour with hless | heq | hmore
    · exact (before_pad_two hlength hdigits hless (by omega)).append _ _
    · rw [eq_pad_two hlength hdigits heq]
      exact Before.prepend _ (hbefore heq)
    · omega
  rcases tail with _ | ⟨c, tail⟩
  · cases hrest
    exact ⟨rfl, show 0 < 1000000 by decide, fun _ => .here _ _ (by decide)⟩
  · simp only at hrest
    split_ifs at hrest with hc
    · subst hc
      have hfhour := hour_parseMinutes hrest
      refine ⟨hfhour, microsecond_parseMinutes hrest, fun heq => .there ':' ?_⟩
      rw [hfhour, heq] at hlt
      simp only [Nat.add_assoc] at hlt
      have hlt' := Nat.lt_of_add_lt_add_left hlt
      simp only [← Nat.add_assoc] at hlt'
      exact minutes_before hrest hlt' hfsecond hminute hsecond hmicro zone _
    · refine ⟨hour_parseMinutes hrest, microsecond_parseMinutes hrest, fun _ => ?_⟩
      obtain ⟨⟨_, _⟩, htwo', -⟩ := Option.bind_eq_some_iff.mp hrest
      obtain ⟨_ | ⟨d, ds'⟩, hds, hlength', hdigits', -⟩ := twoDigits_eq htwo'
      · cases hlength'
      · obtain ⟨rfl, -⟩ := List.cons.inj hds
        have hd := isAsciiDigit_iff.mp (List.all_eq_true.mp hdigits' c List.mem_cons_self)
        exact .here _ _ (show c.toNat < 58 by omega)

/-! ## Offsets -/

theorem parseZone_bounds {cs : List Char} {offset : Int} (h : parseZone cs = some offset) :
    -dayMicros < offset ∧ offset < dayMicros := by
  have hday : dayMicros = (dayFields : Int) := rfl
  rcases cs with _ | ⟨c, rest⟩
  · cases h
  · rw [parseZone] at h
    by_cases hz : c = 'Z'
    · rw [if_pos hz] at h
      split_ifs at h
      cases h
      decide
    · rw [if_neg hz] at h
      obtain ⟨tz, -, h⟩ := Option.bind_eq_some_iff.mp h
      rw [hday]
      split_ifs at h <;> cases h <;> omega

theorem parseZone_east {c : Char} {rest : List Char} {offset : Int} (hc : beginsZone c = true)
    (h : parseZone (c :: rest) = some offset) (hpos : 0 < offset) : c = '+' := by
  simp only [beginsZone, Bool.or_eq_true, decide_eq_true_eq] at hc
  rcases hc with (rfl | rfl) | rfl
  · rfl
  · obtain ⟨tz, -, h⟩ := Option.bind_eq_some_iff.mp h
    simp only [if_true] at h
    split_ifs at h
    cases h
    omega
  · simp only [parseZone, if_true] at h
    split_ifs at h
    cases h
    omega

theorem parseIsoformatTime_eq {cs : List Char} {time : TimeFields} {offset : Option Int}
    (h : parseIsoformatTime cs = some (time, offset)) :
    time.InDay ∧ (-dayMicros < offset.getD 0 ∧ offset.getD 0 < dayMicros) ∧
      (0 < offset.getD 0 → ∃ clock zone, cs = clock ++ '+' :: zone ∧ '+' ∉ clock ∧
        parseHhMmSsFf clock = some time ∧ parseZone ('+' :: zone) = offset) := by
  obtain ⟨time', hclock, h⟩ := Option.bind_eq_some_iff.mp h
  split_ifs at h with hday
  rcases hzone : cs.dropWhile (!beginsZone ·) with _ | ⟨c, rest⟩
  · rw [hzone] at h
    cases h
    exact ⟨hday, by decide, fun hpos => absurd hpos (by decide)⟩
  · rw [hzone] at h
    obtain ⟨o, ho, heq⟩ := Option.map_eq_some_iff.mp h
    cases heq
    refine ⟨hday, parseZone_bounds ho, fun hpos => ?_⟩
    have hbegins := List.head?_dropWhile_not (!beginsZone ·) cs
    rw [hzone] at hbegins
    obtain rfl := parseZone_east (by simpa using hbegins) ho hpos
    refine ⟨_, rest, by rw [← hzone, List.takeWhile_append_dropWhile], ?_, hclock, ho⟩
    intro hmem
    have hplus := List.mem_takeWhile_imp hmem
    simp [beginsZone] at hplus

/-! ## Dated texts -/

theorem parseIsoformatDate_week (y₁ y₂ y₃ y₄ m₂ : Char) (rest : List Char) :
    parseIsoformatDate (y₁ :: y₂ :: y₃ :: y₄ :: '-' :: 'W' :: m₂ :: '-' :: rest) = none := by
  have htwo : twoDigits (m₂ :: '-' :: rest) = none := by
    have hminus : isAsciiDigit '-' = false := by decide
    simp [twoDigits, hminus]
  simp [parseIsoformatDate, parseIsoweek, htwo]

theorem parseMonthDay_eq {year : Nat} {cs : List Char} {date : Date}
    (h : parseMonthDay true year cs = some date) :
    ∃ ms ds tail, cs = ms ++ '-' :: (ds ++ tail) ∧ ms.length = 2 ∧ ds.length = 2 ∧
      ms = pad 2 date.month ∧ ds = pad 2 date.day ∧ date.year = year := by
  obtain ⟨⟨month, rest⟩, hmonth, h⟩ := Option.bind_eq_some_iff.mp h
  by_cases hsep : rest.head? = some '-'
  swap
  · simp [hsep] at h
  simp only [hsep, decide_true, if_true] at h
  obtain ⟨⟨day, tail⟩, hday, h⟩ := Option.bind_eq_some_iff.mp h
  obtain ⟨hy, hm, hd⟩ := Date.ofFields_eq h
  obtain ⟨ms, rfl, hms, hmsDigits, rfl⟩ := twoDigits_eq hmonth
  obtain ⟨ds, hrest, hds, hdsDigits, rfl⟩ := twoDigits_eq hday
  obtain ⟨rest, rfl⟩ : ∃ more, rest = '-' :: more := by
    rcases rest with _ | ⟨c, more⟩
    · simp at hsep
    · exact ⟨more, by simpa using hsep⟩
  obtain rfl : rest = ds ++ tail := hrest
  exact ⟨ms, ds, tail, rfl, hms, hds, eq_pad_two hms hmsDigits hm.symm,
    eq_pad_two hds hdsDigits hd.symm, hy⟩

theorem parseIsoformatDate_hyphens {y₁ y₂ y₃ y₄ m₁ m₂ d₁ d₂ : Char} {ordinal : Nat}
    (hm : m₁ ≠ 'W')
    (h : parseIsoformatDate [y₁, y₂, y₃, y₄, '-', m₁, m₂, '-', d₁, d₂] = some ordinal) :
    ∃ date : Date, [y₁, y₂, y₃, y₄, '-', m₁, m₂, '-', d₁, d₂] = date.isoformat ∧
      ordinal = date.ordinal := by
  have hread : [y₁, y₂, y₃, y₄].all isAsciiDigit = true ∧ ∃ date,
      parseMonthDay true (numeral [y₁, y₂, y₃, y₄]) [m₁, m₂, '-', d₁, d₂] = some date ∧
        date.ordinal = ordinal := by
    simpa [parseIsoformatDate, hm] using h
  obtain ⟨hdigits, date, hdate, rfl⟩ := hread
  refine ⟨date, ?_, rfl⟩
  obtain ⟨ms, ds, tail, hcs, hms, hds, hmonth, hday, hyear⟩ := parseMonthDay_eq hdate
  have hyears : pad 4 date.year = [y₁, y₂, y₃, y₄] := by
    rw [hyear]
    exact pad_numeral hdigits
  obtain ⟨a, b, rfl⟩ := List.length_eq_two.mp hms
  obtain ⟨c, d, rfl⟩ := List.length_eq_two.mp hds
  simp only [List.cons_append, List.nil_append, List.cons.injEq, true_and] at hcs
  obtain ⟨rfl, rfl, rfl, rfl, -⟩ := hcs
  rw [Date.isoformat, hyears, ← hmonth, ← hday]
  rfl

theorem dated_eq {cs : List Char} {p : ParsedTime} (hdated : likeDated cs = true)
    (h : datetimeFromisoformat cs = some p) :
    ∃ (date : Date) (c : Char) (text : List Char),
      cs = date.isoformat ++ c :: text ∧ p.ordinal = date.ordinal ∧
      (c = 'T' ∨ c = 't') ∧ parseIsoformatTime text = some (p.time, p.offset) := by
  obtain ⟨y₁, y₂, y₃, y₄, m₁, m₂, d₁, d₂, c, text, rfl, hc⟩ :
      ∃ y₁ y₂ y₃ y₄ m₁ m₂ d₁ d₂ c text,
        cs = y₁ :: y₂ :: y₃ :: y₄ :: '-' :: m₁ :: m₂ :: '-' :: d₁ :: d₂ :: c :: text ∧
          (c = 'T' ∨ c = 't') := by
    rw [likeDated.eq_def] at hdated
    split at hdated
    · simp only [Bool.and_eq_true, Bool.or_eq_true, decide_eq_true_eq] at hdated
      obtain ⟨⟨rfl, rfl⟩, hc⟩ := hdated
      exact ⟨_, _, _, _, _, _, _, _, _, _, rfl, hc⟩
    · cases hdated
  obtain ⟨sep, hsep, h⟩ := Option.bind_eq_some_iff.mp h
  obtain ⟨ordinal, hdate, h⟩ := Option.bind_eq_some_iff.mp h
  have hseparator : sep = 10 ∨ m₁ = 'W' ∧ sep = 8 := by
    by_cases hm : m₁ = 'W' <;> simp [findSeparator, hm] at hsep ⊢ <;> grind
  have hm : m₁ ≠ 'W' := by
    rintro rfl
    have hnone : parseIsoformatDate (List.take sep (y₁ :: y₂ :: y₃ :: y₄ :: '-' :: 'W' :: m₂ ::
        '-' :: d₁ :: d₂ :: c :: text)) = none := by
      rcases hseparator with rfl | ⟨-, rfl⟩ <;> exact parseIsoformatDate_week ..
    rw [hnone] at hdate
    cases hdate
  obtain rfl : sep = 10 := by simpa [hm] using hseparator
  obtain ⟨date, htext, rfl⟩ := parseIsoformatDate_hyphens hm hdate
  obtain ⟨⟨time, offset⟩, htime, rfl⟩ := Option.map_eq_some_iff.mp h
  refine ⟨date, c, text, ?_, rfl, hc, htime⟩
  rw [← htext]
  rfl

theorem cut_at_plus {text clock zone zone' : List Char} (hclock : '+' ∉ clock)
    (h : text ++ '+' :: zone = clock ++ '+' :: zone') :
    (text = clock ∧ zone = zone') ∨ ∃ more, text = clock ++ '+' :: more := by
  rcases List.append_eq_append_iff.mp h with ⟨mid, rfl, hmid⟩ | ⟨mid, rfl, hmid⟩
  · rcases mid with _ | ⟨c, mid⟩
    · exact .inl ⟨(List.append_nil _).symm, (List.cons.inj hmid).2⟩
    · obtain ⟨rfl, -⟩ := List.cons.inj hmid
      exact absurd (List.mem_append_right text List.mem_cons_self) hclock
  · rcases mid with _ | ⟨c, mid⟩
    · exact .inl ⟨List.append_nil _, (List.cons.inj hmid).2.symm⟩
    · obtain ⟨rfl, -⟩ := List.cons.inj hmid
      exact .inr ⟨mid, rfl⟩

theorem likeDated_zulu {init : List Char} (h : likeDated (init ++ ['Z']) = true) :
    11 ≤ init.length ∧ ∀ more, likeDated (init ++ more) = true := by
  rcases init with _ | ⟨_, _ | ⟨_, _ | ⟨_, _ | ⟨_, _ | ⟨_, _ | ⟨_, _ | ⟨_, _ | ⟨_, _ | ⟨_, _ |
    ⟨_, _ | ⟨_, init⟩⟩⟩⟩⟩⟩⟩⟩⟩⟩⟩
  case cons.cons.cons.cons.cons.cons.cons.cons.cons.cons.cons =>
    exact ⟨by simp, fun _ => h⟩
  all_goals simp [likeDated] at h

/-- What `_parse_utc` reads in a dated text: a date, a time of day and an offset
of less than a day, an offset to the east standing after a plus sign. -/
theorem parseUtc_dated {cs : List Char} {ts : Instant} (hdated : likeDated cs = true)
    (h : parseUtc cs = some ts) :
    ∃ (date : Date) (c : Char) (text : List Char) (time : TimeFields) (offset : Int),
      cs = date.isoformat ++ c :: text ∧
      ts = date.ordinal * dayMicros + time.micros - offset ∧ time.InDay ∧
      (-dayMicros < offset ∧ offset < dayMicros) ∧
      (0 < offset → ∃ clock zone, text = clock ++ '+' :: zone ∧
        parseHhMmSsFf clock = some time) := by
  obtain ⟨p, hp, rfl⟩ := Option.map_eq_some_iff.mp h
  by_cases hz : cs.getLast? = some 'Z'
  · obtain ⟨init, rfl⟩ := List.getLast?_eq_some_iff.mp hz
    rw [if_pos hz, List.dropLast_concat] at hp
    obtain ⟨date, c, text, htext, hordinal, hc, htime⟩ :=
      dated_eq ((likeDated_zulu hdated).2 _) hp
    obtain ⟨hday, hbounds, heast⟩ := parseIsoformatTime_eq htime
    obtain ⟨text, rfl, rfl⟩ : ∃ more, init = date.isoformat ++ c :: more ∧
        text = more ++ "+00:00".toList := by
      have hhead : date.isoformat ++ [c] <+: init := by
        have hdate : date.isoformat ++ [c] <+: init ++ "+00:00".toList :=
          ⟨text, by rw [htext, List.append_assoc, List.singleton_append]⟩
        have hinit : init <+: init ++ "+00:00".toList := List.prefix_append _ _
        refine List.prefix_of_prefix_length_le hdate hinit ?_
        have hlength := (likeDated_zulu hdated).1
        rw [List.length_append, Date.length_isoformat, List.length_singleton]
        omega
      obtain ⟨more, rfl⟩ := hhead
      refine ⟨more, by simp, ?_⟩
      simpa using htext.symm
    refine ⟨date, c, text ++ ['Z'], p.time, p.offset.getD 0, by simp, ?_, hday, hbounds,
      fun hpos => ?_⟩
    · rw [ParsedTime.instant, hordinal]
    · obtain ⟨clock, zone, hcut, hplus, hclock, hzone⟩ := heast hpos
      rcases cut_at_plus hplus hcut with ⟨rfl, rfl⟩ | ⟨more, rfl⟩
      · rw [← hzone] at hpos
        exact absurd hpos (by decide)
      · exact ⟨clock, more ++ ['Z'], by simp, hclock⟩
  · rw [if_neg hz] at hp
    obtain ⟨date, c, text, rfl, hordinal, -, htime⟩ := dated_eq hdated hp
    obtain ⟨hday, hbounds, heast⟩ := parseIsoformatTime_eq htime
    refine ⟨date, c, text, p.time, p.offset.getD 0, rfl, ?_, hday, hbounds, fun hpos => ?_⟩
    · rw [ParsedTime.instant, hordinal]
    · obtain ⟨clock, zone, htext, -, hclock, -⟩ := heast hpos
      exact ⟨clock, zone, htext, hclock⟩

/-- **A text that is due does not come after the bound.**  A dated text read as
an instant not after `now` does not come after the text of `now` plus a day. -/
theorem textLe_of_instant_le {now bound : UtcTime} (hbound : now.addDay = some bound)
    {cs : List Char} {ts : Instant} (hdated : likeDated cs = true) (hT : cs[10]? = some 'T')
    (h : parseUtc cs = some ts) (hle : ts ≤ now.instant) :
    textLe cs bound.isoformat = true := by
  obtain ⟨date, c, text, time, offset, rfl, rfl, hday, ⟨-, hoffset⟩, heast⟩ :=
    parseUtc_dated hdated h
  obtain rfl : c = 'T' := by
    rw [List.getElem?_append_right (by rw [Date.length_isoformat]), Date.length_isoformat] at hT
    simpa using hT
  -- the comparison of the instants, over the integers
  obtain ⟨n, hn⟩ : ∃ n : Int, n = now.instant := ⟨_, rfl⟩
  have hdue : (date.ordinal : Int) * dayMicros + time.micros - offset ≤ n := hn ▸ hle
  have hbound' : (bound.date.ordinal : Int) * dayMicros + bound.time.micros = n + dayMicros :=
    hn ▸ UtcTime.instant_addDay hbound
  have hmicros := bound.micros_lt
  have hdayFields : dayMicros = (dayFields : Int) := rfl
  have hordinal : date.ordinal ≤ bound.date.ordinal := by
    by_contra hlt
    have hstep : ((bound.date.ordinal + 1 : Nat) : Int) * dayMicros ≤ date.ordinal * dayMicros :=
      Int.mul_le_mul_of_nonneg_right (by omega) (by decide)
    push_cast at hstep
    rw [Int.add_mul, Int.one_mul] at hstep
    omega
  rcases Date.earlier_or_eq_of_ordinal_le hordinal with hearlier | rfl
  · exact ((Date.before_of_earlier hearlier).append _ _).textLe
  · -- on the day of the bound the offset is to the east, and the time of day decides
    have hpos : 0 < offset := by omega
    obtain ⟨clock, zone, rfl, hclock⟩ := heast hpos
    have hlt : time.micros < bound.time.micros := by omega
    exact (((clock_before hclock hday hlt zone).prepend ['T']).prepend _).textLe

end HamZaboon
