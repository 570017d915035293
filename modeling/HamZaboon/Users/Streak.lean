import HamZaboon.Store.Db
import HamZaboon.Library.Consecutive
import HamZaboon.Library.Runs
import Mathlib.Logic.Function.Basic

/-! # What the streak counts

`touch_streak_in_txn` keeps the streak from the pair (streak, last active date)
alone, and `reset_user_progress` sets the streak to zero but leaves the date.  A
touch on the day of that date then takes the day for counted: the streak stays
zero.  Apart from such touches the streak is the number of consecutive days,
ending at the last touch, that were touched since the last reset.
-/

namespace HamZaboon
open Library

variable {K : Type}

/-- The database on a day, with the days on which each user was active since
the last reset, newest first. -/
structure Activity (K : Type) where
  db : Db K
  today : Day
  touched : UserId → List Day

/-- A day ends, a user starts the bot, a tap or a query counts as activity, an
administrator resets a user's progress. -/
inductive ActivityEvent
  | nextDay
  | start (userId : UserId)
  | touch (userId : UserId)
  | reset (userId : UserId)

namespace Activity

def step (s : Activity K) : ActivityEvent → Activity K
  | .nextDay => { s with today := s.today + 1 }
  | .start u => { s with db := s.db.createUserIfNeeded u }
  | .touch u =>
      { s with
        db := s.db.touchStreak u s.today
        -- without a row the touch returns 0 and writes nothing
        touched := if s.db.users.has u then Function.update s.touched u (s.today :: s.touched u)
          else s.touched }
  | .reset u =>
      { s with
        db := s.db.resetUserProgress u
        touched := Function.update s.touched u [] }

/-- No user has started the bot yet. -/
def initial (db : Db K) (today : Day) : Activity K where
  db := { db with users := KeyedTable.empty }
  today := today
  touched := fun _ => []

/-- The days a user was active since the last reset. -/
def activeDays (s : Activity K) (u : UserId) : Set Day := { d | d ∈ s.touched u }

/-- After the last touch since the reset, on day `d`: the streak is the length of
the maximal run of active days ending at `d`, and at least 1. -/
def StreakExact (s : Activity K) : Prop :=
  ∀ u row, s.db.users.lookup u = some row → ∀ d older, s.touched u = d :: older →
    ∃ k : ℕ, row.streak = some (k : Int) ∧ 1 ≤ k ∧ MaximalRun (s.activeDays u) d k

/-- The event is not the first touch since a reset, on the day the user was last
active before it. -/
def NotOnResetDay (s : Activity K) : ActivityEvent → Prop
  | .touch u => ∀ row, s.db.users.lookup u = some row → s.touched u = [] →
      row.lastActiveDate ≠ some s.today
  | _ => True

/-! ## The invariant -/

/-- What a row says about the days touched: nothing but a zero streak when there
are none, the streak and the date of the last one otherwise. -/
def RowTracks (row : User) (today : Day) : List Day → Prop
  | [] => row.streak.getD 0 = 0
  | d :: older => row.lastActiveDate = some d ∧ d ≤ today ∧ (∀ x ∈ older, x ≤ d) ∧
      ∃ k : ℕ, row.streak = some (k : Int) ∧ MaximalRun { x | x ∈ d :: older } d k

/-- Every row tracks its user's days, and who has no row has no days. -/
def Tracks (s : Activity K) : Prop :=
  ∀ u, match s.db.users.lookup u with
    | some row => RowTracks row s.today (s.touched u)
    | none => s.touched u = []

theorem tracks_initial (db : Db K) (today : Day) : (initial db today).Tracks := fun _ => rfl

theorem Tracks.streakExact {s : Activity K} (h : s.Tracks) : s.StreakExact := by
  intro u row hrow d older hd
  have hu := h u
  rw [hrow, hd] at hu
  obtain ⟨-, -, -, k, hk, hrun⟩ := hu
  have hset : s.activeDays u = { x | x ∈ d :: older } := by
    unfold activeDays
    rw [hd]
  refine ⟨k, hk, hrun.pos List.mem_cons_self, ?_⟩
  rw [hset]
  exact hrun

theorem setOf_mem_cons (d : Day) (days : List Day) :
    { x | x ∈ d :: days } = insert d { x | x ∈ days } := by
  ext x
  simp

theorem rowTracks_touchRow {row : User} {today : Day} {days : List Day}
    (h : RowTracks row today days) (hreset : days = [] → row.lastActiveDate ≠ some today) :
    RowTracks (Db.touchRow today row) today (today :: days) := by
  refine ⟨rfl, le_refl today, ?_, ?_⟩
  · cases days with
    | nil => simp
    | cons d older =>
      obtain ⟨-, hd, hold, -⟩ := h
      intro x hx
      rcases List.mem_cons.mp hx with rfl | hx
      · exact hd
      · exact le_trans (hold x hx) hd
  rw [setOf_mem_cons]
  simp only [Db.touchRow, Db.nextStreak]
  cases days with
  | nil =>
    -- the first touch since the reset counts one day
    have hstreak : row.streak.getD 0 = 0 := h
    rw [if_neg (hreset rfl), hstreak]
    refine ⟨1, ?_, maximalRun_one (by simp)⟩
    split <;> rfl
  | cons d older =>
    obtain ⟨hlast, hd, hold, k, hk, hrun⟩ := h
    have hmax : ∀ x ∈ d :: older, x ≤ d := by
      intro x hx
      rcases List.mem_cons.mp hx with rfl | hx
      · exact le_refl x
      · exact hold x hx
    rw [hlast, hk]
    by_cases hsame : d = today
    · -- the same day again
      subst hsame
      refine ⟨k, by simp, ?_⟩
      rw [Set.insert_eq_of_mem (by simp)]
      exact hrun
    · rw [if_neg (by simpa using hsame)]
      by_cases hnext : d = today - 1
      · -- the day after
        refine ⟨k + 1, by simp [hnext], ?_⟩
        obtain rfl : today = d + 1 := Int.sub_eq_iff_eq_add.mp hnext.symm
        exact hrun.next
      · -- a gap
        refine ⟨1, by simp [hnext], maximalRun_one ?_⟩
        intro hmem
        have hlt : d < today := lt_of_le_of_ne hd hsame
        exact hnext (le_antisymm (Int.le_sub_one_of_lt hlt) (hmax _ hmem))

/-! ## The steps -/

theorem lookup_touchStreak (db : Db K) (u : UserId) (today : Day) (v : UserId) :
    (db.touchStreak u today).users.lookup v =
      (db.users.lookup v).map (fun row => if u = v then Db.touchRow today row else row) := by
  unfold Db.touchStreak
  rw [KeyedTable.lookup_updateWhere]
  cases h : db.users.lookup v with
  | none => rfl
  | some row =>
    have hrow : row.userId = v := KeyedTable.key_of_lookup h
    simp [hrow, eq_comm]

theorem lookup_resetUserProgress (db : Db K) (u v : UserId) :
    (db.resetUserProgress u).users.lookup v =
      (db.users.lookup v).map (fun row => if u = v then Db.resetRow row else row) := by
  unfold Db.resetUserProgress
  rw [KeyedTable.lookup_updateWhere]
  cases h : db.users.lookup v with
  | none => rfl
  | some row =>
    have hrow : row.userId = v := KeyedTable.key_of_lookup h
    simp [hrow, eq_comm]

theorem RowTracks.mono {row : User} {today today' : Day} {days : List Day}
    (h : RowTracks row today days) (hle : today ≤ today') : RowTracks row today' days := by
  cases days with
  | nil => exact h
  | cons d older =>
    obtain ⟨hlast, hd, hrest⟩ := h
    exact ⟨hlast, le_trans hd hle, hrest⟩

theorem tracks_step {s : Activity K} (h : s.Tracks) (e : ActivityEvent) (hC : s.NotOnResetDay e) :
    (s.step e).Tracks := by
  intro v
  have hv := h v
  cases e with
  | nextDay =>
    simp only [step]
    cases hl : s.db.users.lookup v with
    | none => rw [hl] at hv; exact hv
    | some row =>
      rw [hl] at hv
      exact RowTracks.mono hv (Int.le_add_one (le_refl s.today))
  | start u =>
    simp only [step, Db.createUserIfNeeded, KeyedTable.lookup_insertOrIgnore]
    cases hl : s.db.users.lookup v with
    | none =>
      rw [hl] at hv
      by_cases huv : (Db.newUser u).userId = v
      · rw [if_pos huv]
        simp only [Option.none_or]
        rw [hv]
        rfl
      · rw [if_neg huv]
        exact hv
    | some row => rw [hl] at hv; exact hv
  | touch u =>
    simp only [step, lookup_touchStreak]
    by_cases huv : u = v
    · subst huv
      cases hl : s.db.users.lookup u with
      | none =>
        rw [hl] at hv
        rw [KeyedTable.lookup_eq_none.mp hl]
        exact hv
      | some row =>
        rw [hl] at hv
        have hhas : s.db.users.has u = true :=
          KeyedTable.has_iff.mpr ⟨row, KeyedTable.mem_of_lookup hl, KeyedTable.key_of_lookup hl⟩
        rw [hhas]
        simp only [Option.map_some, if_true, Function.update_self]
        exact rowTracks_touchRow hv (hC row hl)
    · have hother : (if s.db.users.has u = true then
          Function.update s.touched u (s.today :: s.touched u) else s.touched) v = s.touched v := by
        split
        · exact Function.update_of_ne (Ne.symm huv) _ _
        · rfl
      simp only [if_neg huv, Option.map_id', hother]
      exact hv
  | reset u =>
    simp only [step, lookup_resetUserProgress]
    by_cases huv : u = v
    · subst huv
      cases hl : s.db.users.lookup u with
      | none => exact Function.update_self _ _ _
      | some row =>
        simp only [Option.map_some, if_true, Function.update_self]
        rfl
    · simp only [if_neg huv, Option.map_id', Function.update_of_ne (Ne.symm huv)]
      exact hv

theorem notOnResetDay_of_exact {s : Activity K} (h : s.Tracks) (e : ActivityEvent)
    (hP : (s.step e).StreakExact) : s.NotOnResetDay e := by
  cases e with
  | touch u =>
    intro row hrow hnone hlast
    have hzero : row.streak.getD 0 = 0 := by
      have hu := h u
      rw [hrow, hnone] at hu
      exact hu
    have hhas : s.db.users.has u = true :=
      KeyedTable.has_iff.mpr ⟨row, KeyedTable.mem_of_lookup hrow, KeyedTable.key_of_lookup hrow⟩
    have hafter : (s.step (.touch u)).db.users.lookup u = some (Db.touchRow s.today row) := by
      simp only [step, lookup_touchStreak, hrow, Option.map_some, if_true]
    have hdays : (s.step (.touch u)).touched u = [s.today] := by
      simp only [step, hhas, if_true, Function.update_self, hnone]
    obtain ⟨k, hk, hpos, -⟩ := hP u _ hafter _ _ hdays
    have hstays : (Db.touchRow s.today row).streak = some 0 := by
      simp [Db.touchRow, Db.nextStreak, hlast, hzero]
    rw [hstays] at hk
    have := Option.some.inj hk
    omega
  | nextDay => exact trivial
  | start u => exact trivial
  | reset u => exact trivial

/-- **When the streak counts the active days.**  In every run, after each touch the
streak is at least 1 and the length of the maximal run of days touched since the
reset, if and only if no touch is the first one since a reset and falls on the day
the user was last active before it. -/
theorem streak_exact_iff (db : Db K) (today : Day) (events : List ActivityEvent) :
    Always step StreakExact (initial db today) events ↔
      Meets step NotOnResetDay (initial db today) events :=
  always_iff_meets step (fun _ h => h.streakExact) (fun _ e h hC => tracks_step h e hC)
    (fun _ e h hP => notOnResetDay_of_exact h e hP) (tracks_initial db today) events

/-- A user is active, is reset and is active again on the same day. -/
def resetAndBack : List ActivityEvent := [.start 7, .touch 7, .reset 7, .touch 7]

/-- The second touch leaves the streak at zero. -/
theorem streak_zero_after_touch :
    ¬ ∀ (db : Db Int) (today : Day) (events : List ActivityEvent),
        Always step StreakExact (initial db today) events := by
  intro h
  let db : Db Int :=
    { savedWords := SerialTable.empty
      reviewEvents := SerialTable.empty
      slots := KeyedTable.empty
      users := KeyedTable.empty
      gradeLedger := KeyedTable.empty
      studySessions := KeyedTable.empty }
  have hlast := (h db 0 resetAndBack).last
  obtain ⟨k, hk, hpos, -⟩ := hlast 7 _ rfl 0 [] rfl
  have hzero : (0 : Int) = k := Option.some.inj hk
  omega

end Activity

end HamZaboon
