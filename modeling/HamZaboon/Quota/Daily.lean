import HamZaboon.Store.Schema

/-! # Daily quota counters

Session slots (`services/scheduling.py`) live in the settings table under one key
per user and day.  Word queries and grammar tips (`services/db/users.py`) live in
a pair of columns of the user's row: a count and the day it belongs to.  Each
family has a `reserve` that checks and increments in one transaction, and a
`release` that decrements.  The clock each call reads is its `today` argument.
-/

namespace HamZaboon
open Library

/-- A settings row under a key `sessions_used_{user_id}_{date}`. -/
structure SlotRow where
  userId : UserId
  date : Day
  value : Column Int
  deriving DecidableEq, Repr

def SlotRow.key (r : SlotRow) : UserId × Day := (r.userId, r.date)

structure QuotaStore where
  slots : KeyedTable (UserId × Day) SlotRow SlotRow.key
  users : KeyedTable UserId User User.userId

/-! ## Session slots -/

/-- `_get_used`: the slots used on a day. -/
def QuotaStore.slotsUsed (s : QuotaStore) (userId : UserId) (day : Day) : Int :=
  ((s.slots.lookup (userId, day)).bind (·.value.get?)).getD 0

def SlotRow.setValue (n : Int) (r : SlotRow) : SlotRow := { r with value := .val n }

theorem key_setValue (n : Int) (r : SlotRow) : (r.setValue n).key = r.key := rfl

/-- `INSERT INTO settings … ON CONFLICT(key) DO UPDATE`. -/
def QuotaStore.setSlots (s : QuotaStore) (userId : UserId) (day : Day) (n : Int) : QuotaStore :=
  { s with slots := s.slots.upsert ⟨userId, day, .val n⟩ (SlotRow.setValue n) (key_setValue n) }

/-- `consume_session_slot`, with the plan's `max_sessions` as `limit`. -/
def QuotaStore.consumeSessionSlot (s : QuotaStore) (today : Day) (userId : UserId) (limit : Int) :
    QuotaStore × Bool :=
  let used := s.slotsUsed userId today
  if limit ≤ used then (s, false) else (s.setSlots userId today (used + 1), true)

def QuotaStore.releaseSessionSlot (s : QuotaStore) (today : Day) (userId : UserId) : QuotaStore :=
  let used := s.slotsUsed userId today
  if used ≤ 0 then
    match s.slots.lookup (userId, today) with
    | some row => if row.value = .val 0 then s else s.setSlots userId today 0
    | none => s
  else s.setSlots userId today (used - 1)

/-! ## Counters in the user's row -/

/-- A pair of columns `…_asked_today` and `…_asked_date`. -/
structure DailyColumns where
  count : User → Option Int
  date : User → Option Day
  set : User → Int → Day → User
  userId_set : ∀ u n d, (set u n d).userId = u.userId
  count_set : ∀ u n d, count (set u n d) = some n
  date_set : ∀ u n d, date (set u n d) = some d

/-- `_current_daily_count` on a day. -/
def currentDailyCount (count : Option Int) (date : Option Day) (today : Day) : Int :=
  if date = some today then count.getD 0 else 0

/-- The count of a user's columns on a day. -/
def DailyColumns.used (c : DailyColumns) (s : QuotaStore) (userId : UserId) (day : Day) : Int :=
  ((s.users.lookup userId).map (fun u => currentDailyCount (c.count u) (c.date u) day)).getD 0

/-- `SELECT …; UPDATE … SET count=asked+1, date=today`. -/
def DailyColumns.reserve (c : DailyColumns) (s : QuotaStore) (today : Day) (userId : UserId)
    (dailyLimit : Int) (bypassLimits : Bool) : QuotaStore × Bool :=
  match s.users.lookup userId with
  | none => (s, false)
  | some row =>
      let asked := currentDailyCount (c.count row) (c.date row) today
      if bypassLimits = false ∧ 0 ≤ dailyLimit ∧ dailyLimit ≤ asked then (s, false)
      else
        ({ s with
            users := s.users.updateWhere (fun u => u.userId = userId)
              (fun u => c.set u (asked + 1) today) (fun u => c.userId_set u _ _) }, true)

/-- The update of a release: `MAX(count - 1, 0)`, on rows that have counted today. -/
def DailyColumns.decrement (c : DailyColumns) (today : Day) (u : User) : User :=
  match c.count u with
  | some n => if c.date u = some today ∧ 0 < n then c.set u (max (n - 1) 0) today else u
  | none => u

theorem DailyColumns.userId_decrement (c : DailyColumns) (today : Day) (u : User) :
    (c.decrement today u).userId = u.userId := by
  unfold DailyColumns.decrement
  split
  · split
    · exact c.userId_set _ _ _
    · rfl
  · rfl

/-- `UPDATE … WHERE user_id=? AND date=today AND count>0`. -/
def DailyColumns.release (c : DailyColumns) (s : QuotaStore) (today : Day) (userId : UserId) :
    QuotaStore :=
  { s with
    users := s.users.updateWhere (fun u => u.userId = userId) (c.decrement today)
      (c.userId_decrement today) }

/-- `words_asked_today`, `words_asked_date`. -/
def wordColumns : DailyColumns where
  count := User.wordsAskedToday
  date := User.wordsAskedDate
  set u n d := { u with wordsAskedToday := some n, wordsAskedDate := some d }
  userId_set _ _ _ := rfl
  count_set _ _ _ := rfl
  date_set _ _ _ := rfl

/-- `grammar_tips_asked_today`, `grammar_tips_asked_date`. -/
def grammarColumns : DailyColumns where
  count := User.grammarTipsAskedToday
  date := User.grammarTipsAskedDate
  set u n d := { u with grammarTipsAskedToday := some n, grammarTipsAskedDate := some d }
  userId_set _ _ _ := rfl
  count_set _ _ _ := rfl
  date_set _ _ _ := rfl

def QuotaStore.reserveWordQuery (s : QuotaStore) (today : Day) (userId : UserId) (dailyLimit : Int)
    (bypassLimits : Bool) : QuotaStore × Bool :=
  wordColumns.reserve s today userId dailyLimit bypassLimits

def QuotaStore.releaseWordQuery (s : QuotaStore) (today : Day) (userId : UserId) : QuotaStore :=
  wordColumns.release s today userId

def QuotaStore.reserveGrammarTip (s : QuotaStore) (today : Day) (userId : UserId)
    (dailyLimit : Int) (bypassLimits : Bool) : QuotaStore × Bool :=
  grammarColumns.reserve s today userId dailyLimit bypassLimits

def QuotaStore.releaseGrammarTip (s : QuotaStore) (today : Day) (userId : UserId) : QuotaStore :=
  grammarColumns.release s today userId

/-! ## What the operations do to the counters -/

theorem slotsUsed_setSlots (s : QuotaStore) (u : UserId) (d : Day) (n : Int) (u' : UserId)
    (d' : Day) :
    (s.setSlots u d n).slotsUsed u' d' = if (u, d) = (u', d') then n else s.slotsUsed u' d' := by
  unfold QuotaStore.slotsUsed QuotaStore.setSlots
  simp only [KeyedTable.lookup_upsert]
  by_cases h : (u, d) = (u', d')
  · rw [if_pos h, if_pos (show SlotRow.key ⟨u, d, .val n⟩ = (u', d') from h)]
    cases s.slots.lookup (u', d') <;> rfl
  · rw [if_neg h, if_neg (show ¬ SlotRow.key ⟨u, d, .val n⟩ = (u', d') from h)]

theorem consumeSessionSlot_granted {s s' : QuotaStore} {today : Day} {u : UserId} {limit : Int}
    (h : s.consumeSessionSlot today u limit = (s', true)) :
    s.slotsUsed u today < limit ∧ s' = s.setSlots u today (s.slotsUsed u today + 1) := by
  simp only [QuotaStore.consumeSessionSlot] at h
  split at h
  · cases h
  · rename_i hlt
    exact ⟨by omega, (Prod.mk.inj h).1.symm⟩

theorem slotsUsed_release {s : QuotaStore} {today : Day} {u : UserId}
    (h : 0 ≤ s.slotsUsed u today) (u' : UserId) (d' : Day) :
    (s.releaseSessionSlot today u).slotsUsed u' d' =
      if (u, today) = (u', d') then max (s.slotsUsed u today - 1) 0 else s.slotsUsed u' d' := by
  by_cases hle : s.slotsUsed u today ≤ 0
  · have hsame : s.slotsUsed u' d' =
        if (u, today) = (u', d') then max (s.slotsUsed u today - 1) 0 else s.slotsUsed u' d' := by
      split
      · rename_i heq
        obtain ⟨rfl, rfl⟩ := Prod.mk.inj heq
        omega
      · rfl
    have hset : (s.setSlots u today 0).slotsUsed u' d' = s.slotsUsed u' d' := by
      rw [slotsUsed_setSlots]
      split
      · rename_i heq
        obtain ⟨rfl, rfl⟩ := Prod.mk.inj heq
        omega
      · rfl
    simp only [QuotaStore.releaseSessionSlot, if_pos hle]
    cases s.slots.lookup (u, today) with
    | none => exact hsame
    | some row =>
      by_cases hrow : row.value = .val 0
      · simp only [if_pos hrow]
        exact hsame
      · simp only [if_neg hrow]
        exact hset.trans hsame
  · have hmax : max (s.slotsUsed u today - 1) 0 = s.slotsUsed u today - 1 := by omega
    simp only [QuotaStore.releaseSessionSlot, if_neg hle]
    rw [slotsUsed_setSlots, hmax]

@[simp] theorem users_setSlots (s : QuotaStore) (u : UserId) (d : Day) (n : Int) :
    (s.setSlots u d n).users = s.users := rfl

@[simp] theorem users_releaseSessionSlot (s : QuotaStore) (today : Day) (u : UserId) :
    (s.releaseSessionSlot today u).users = s.users := by
  simp only [QuotaStore.releaseSessionSlot]
  split
  · split
    · split <;> rfl
    · rfl
  · rfl

section Columns
variable {c : DailyColumns} {s s' : QuotaStore} {today : Day} {u : UserId} {limit : Int}
  {bypass : Bool}

theorem reserve_granted (h : c.reserve s today u limit bypass = (s', true)) :
    (bypass = false → 0 ≤ limit → c.used s u today < limit) ∧
      s'.slots = s.slots ∧
      ∃ row, s.users.lookup u = some row ∧
        ∀ v, s'.users.lookup v =
          if v = u then some (c.set row (c.used s u today + 1) today) else s.users.lookup v := by
  unfold DailyColumns.reserve at h
  cases hl : s.users.lookup u with
  | none =>
    rw [hl] at h
    cases h
  | some row =>
    rw [hl] at h
    have hused : c.used s u today = currentDailyCount (c.count row) (c.date row) today := by
      simp [DailyColumns.used, hl]
    simp only at h
    split at h
    · cases h
    · rename_i hno
      obtain rfl := (Prod.mk.inj h).1
      refine ⟨fun hb hlim => ?_, rfl, row, rfl, fun v => ?_⟩
      · rw [hused]
        by_contra hge
        exact hno ⟨hb, hlim, by omega⟩
      · rw [KeyedTable.lookup_updateWhere, hused]
        by_cases hv : v = u
        · subst hv
          rw [if_pos rfl, hl, Option.map_some, if_pos (decide_eq_true (KeyedTable.key_of_lookup hl))]
        · rw [if_neg hv]
          cases hlv : s.users.lookup v with
          | none => rfl
          | some x =>
            have hx : x.userId = v := KeyedTable.key_of_lookup hlv
            rw [Option.map_some, if_neg (by simpa [hx] using hv)]

theorem lookup_release (v : UserId) :
    (c.release s today u).users.lookup v =
      (s.users.lookup v).map (fun row => if v = u then c.decrement today row else row) := by
  unfold DailyColumns.release
  simp only [KeyedTable.lookup_updateWhere]
  cases hl : s.users.lookup v with
  | none => rfl
  | some x =>
    have hx : x.userId = v := KeyedTable.key_of_lookup hl
    by_cases hv : v = u <;> simp [hx, hv]

theorem count_decrement (row : User) (d : Day)
    (h : 0 ≤ currentDailyCount (c.count row) (c.date row) today) :
    currentDailyCount (c.count (c.decrement today row)) (c.date (c.decrement today row)) d =
      if d = today then max (currentDailyCount (c.count row) (c.date row) today - 1) 0
      else currentDailyCount (c.count row) (c.date row) d := by
  by_cases hcond : c.date row = some today ∧ ∃ n, c.count row = some n ∧ 0 < n
  · obtain ⟨hdate, n, hn, hpos⟩ := hcond
    have hdec : c.decrement today row = c.set row (max (n - 1) 0) today := by
      simp only [DailyColumns.decrement, hn]
      exact if_pos ⟨hdate, hpos⟩
    simp only [hdec, currentDailyCount, c.count_set, c.date_set, hdate, hn, Option.getD_some,
      Option.some.injEq, eq_comm (a := today), if_true]
    by_cases hd : d = today <;> simp [hd]
  · -- nothing was counted today, and nothing is written
    have hdec : c.decrement today row = row := by
      unfold DailyColumns.decrement
      split
      · rename_i n hn
        exact if_neg (fun h => hcond ⟨h.1, n, hn, h.2⟩)
      · rfl
    have hzero : currentDailyCount (c.count row) (c.date row) today ≤ 0 := by
      unfold currentDailyCount
      split
      · rename_i hdate
        cases hn : c.count row with
        | none => exact Int.le_refl 0
        | some n => exact Int.not_lt.mp (fun h => hcond ⟨hdate, n, hn, h⟩)
      · exact Int.le_refl 0
    rw [hdec]
    split
    · rename_i hd
      subst hd
      omega
    · rfl

end Columns

end HamZaboon
