import HamZaboon.Session.State
import HamZaboon.Reviews.Events
import HamZaboon.Quota.Daily

/-! # The tables of the study flow

The database the study and review handlers work on: words and review events
(`WordStore`), quota counters and users (`QuotaStore`), the grade ledger and the
persisted sessions.  The functions are `services/db/sessions.py`, the deletion
of a word, and the streak, the registration and the reset of
`services/db/users.py`.  Each is one transaction.
-/

namespace HamZaboon
open Library

/-- A row of `study_sessions`. -/
structure StudyRow (K : Type) where
  userId : UserId
  sessionDate : Day
  stateJson : Column (SessionJson K)
  deriving DecidableEq, Repr

structure Db (K : Type) extends WordStore K, QuotaStore where
  gradeLedger : KeyedTable (UserId × WordId × ActivityType) LedgerRow LedgerRow.key
  studySessions : KeyedTable UserId (StudyRow K) StudyRow.userId

variable {K : Type}

namespace Db

/-! ## Persisted sessions and the ledger -/

/-- The columns an upsert of `study_sessions` overwrites. -/
def overwrite (sessionDate : Day) (stateJson : Column (SessionJson K)) (r : StudyRow K) :
    StudyRow K :=
  { r with sessionDate := sessionDate, stateJson := stateJson }

theorem userId_overwrite (sessionDate : Day) (stateJson : Column (SessionJson K))
    (r : StudyRow K) : (overwrite sessionDate stateJson r).userId = r.userId := rfl

def saveStudySession (db : Db K) (userId : UserId) (sessionDate : Day) (state : SessionState K) :
    Db K :=
  let json := Column.val (stateToJson state)
  { db with
    studySessions := db.studySessions.upsert ⟨userId, sessionDate, json⟩
      (overwrite sessionDate json) (userId_overwrite sessionDate json) }

def loadStudySession (db : Db K) (userId : UserId) : Option (StudyRow K) :=
  db.studySessions.lookup userId

def clearStudySession (db : Db K) (userId : UserId) : Db K :=
  { db with studySessions := db.studySessions.deleteWhere (fun r => r.userId = userId) }

def markWordGraded (db : Db K) (userId : UserId) (wordId : WordId) (activityType : ActivityType)
    (gradedAt : Instant) : Db K :=
  { db with gradeLedger := db.gradeLedger.insertOrIgnore ⟨userId, wordId, activityType, gradedAt⟩ }

def isWordGraded (db : Db K) (userId : UserId) (wordId : WordId) (activityType : ActivityType) :
    Bool :=
  db.gradeLedger.has (userId, wordId, activityType)

def clearSessionGrades (db : Db K) (userId : UserId) : Db K :=
  { db with gradeLedger := db.gradeLedger.deleteWhere (fun r => r.userId = userId) }

def invalidateStaleStudySession (db : Db K) (userId : UserId) : Db K :=
  (db.clearStudySession userId).clearSessionGrades userId

/-! ## Words and users -/

/-- `delete_saved_word`: the word with its review events.  No modelled function
reads the `query_results` rows that pointed at it. -/
def deleteSavedWord (db : Db K) (wordId : WordId) (userId : UserId) : Db K × Bool :=
  if db.savedWords.rows.any (fun w => w.card = (userId, wordId)) then
    ({ db with
        savedWords := db.savedWords.deleteWhere (fun w => w.card = (userId, wordId))
        reviewEvents := db.reviewEvents.deleteWhere (fun e => e.card = (userId, wordId)) }, true)
  else (db, false)

def nextStreak (streak : Int) (lastActiveDate : Option Day) (today : Day) : Int :=
  if lastActiveDate = some today then streak
  else if lastActiveDate = some (today - 1) then streak + 1
  else 1

/-- The columns `touch_streak_in_txn` writes. -/
def touchRow (today : Day) (u : User) : User :=
  { u with
    streak := some (nextStreak (u.streak.getD 0) u.lastActiveDate today)
    lastActiveDate := some today }

theorem userId_touchRow (today : Day) (u : User) : (touchRow today u).userId = u.userId := rfl

/-- `touch_streak_in_txn`. -/
def touchStreak (db : Db K) (userId : UserId) (today : Day) : Db K :=
  { db with
    users := db.users.updateWhere (fun u => u.userId = userId) (touchRow today)
      (userId_touchRow today) }

/-- The row `create_user_if_needed` inserts: the defaults of the schema. -/
def newUser (userId : UserId) : User where
  userId := userId
  onboarded := false
  plan := some "free"
  targetLang := none
  goal := none
  level := some "beginner"
  streak := some 0
  lastActiveDate := none
  wordsAskedToday := some 0
  wordsAskedDate := none
  grammarTipsAskedToday := some 0
  grammarTipsAskedDate := none

def createUserIfNeeded (db : Db K) (userId : UserId) : Db K :=
  { db with users := db.users.insertOrIgnore (newUser userId) }

/-- `UPDATE users SET streak=0`. -/
def resetRow (u : User) : User := { u with streak := some 0 }

theorem userId_resetRow (u : User) : (resetRow u).userId = u.userId := rfl

/-- `reset_user_progress`.  No modelled function reads the `session_reports` it
deletes as well. -/
def resetUserProgress (db : Db K) (userId : UserId) : Db K :=
  { db with
    savedWords := db.savedWords.deleteWhere (fun w => w.userId = userId)
    reviewEvents := db.reviewEvents.deleteWhere (fun e => e.userId = userId)
    studySessions := db.studySessions.deleteWhere (fun r => r.userId = userId)
    users := db.users.updateWhere (fun u => u.userId = userId) resetRow userId_resetRow }

/-! ## Reading after writing -/

theorem load_saveStudySession (db : Db K) (u : UserId) (d : Day) (st : SessionState K)
    (v : UserId) :
    ((db.saveStudySession u d st).loadStudySession v) =
      if u = v then some ⟨u, d, .val (stateToJson st)⟩ else db.loadStudySession v := by
  unfold saveStudySession loadStudySession
  simp only [KeyedTable.lookup_upsert]
  split
  · rename_i h
    cases hl : db.studySessions.lookup v with
    | none => rfl
    | some row =>
      have hrow : row.userId = v := KeyedTable.key_of_lookup hl
      simp [overwrite, hrow, ← h]
  · rfl

theorem load_clearStudySession (db : Db K) (u v : UserId) :
    (db.clearStudySession u).loadStudySession v =
      if u = v then none else db.loadStudySession v := by
  unfold clearStudySession loadStudySession KeyedTable.lookup
  rw [KeyedTable.rows_deleteWhere, List.find?_filter]
  split
  · rename_i h
    subst h
    rw [List.find?_eq_none]
    intro r _
    simp
  · rename_i h
    congr 1
    funext r
    by_cases hr : r.userId = v
    · simp [hr, Ne.symm h]
    · simp [hr]

theorem isWordGraded_markWordGraded (db : Db K) (u : UserId) (w : WordId) (a : ActivityType)
    (t : Instant) (v : UserId) (x : WordId) (b : ActivityType) :
    (db.markWordGraded u w a t).isWordGraded v x b =
      (db.isWordGraded v x b || decide ((u, w, a) = (v, x, b))) := by
  unfold markWordGraded isWordGraded KeyedTable.has
  rw [KeyedTable.rows_insertOrIgnore]
  split
  · rename_i h
    by_cases heq : (u, w, a) = (v, x, b)
    · have hkey : LedgerRow.key ⟨u, w, a, t⟩ = (v, x, b) := heq
      rw [KeyedTable.has, hkey] at h
      rw [h]
      rfl
    · rw [decide_eq_false heq, Bool.or_false]
  · rw [List.any_append]
    simp [LedgerRow.key]

theorem isWordGraded_clearSessionGrades (db : Db K) (u v : UserId) (x : WordId)
    (b : ActivityType) :
    (db.clearSessionGrades u).isWordGraded v x b = (decide (u ≠ v) && db.isWordGraded v x b) := by
  unfold clearSessionGrades isWordGraded KeyedTable.has
  rw [KeyedTable.rows_deleteWhere, List.any_filter]
  by_cases h : u = v
  · subst h
    simp only [ne_eq, not_true_eq_false, decide_false, Bool.false_and, List.any_eq_false]
    intro r _
    by_cases hr : r.userId = u <;> simp [LedgerRow.key, hr]
  · simp only [ne_eq, h, not_false_eq_true, decide_true, Bool.true_and]
    congr 1
    funext r
    by_cases hr : r.userId = v
    · simp [hr, Ne.symm h]
    · simp [LedgerRow.key, hr]

theorem load_invalidate (db : Db K) (u v : UserId) :
    (db.invalidateStaleStudySession u).loadStudySession v =
      if u = v then none else db.loadStudySession v :=
  load_clearStudySession db u v

theorem isWordGraded_invalidate (db : Db K) (u v : UserId) (x : WordId) (b : ActivityType) :
    (db.invalidateStaleStudySession u).isWordGraded v x b =
      (decide (u ≠ v) && db.isWordGraded v x b) :=
  isWordGraded_clearSessionGrades (db.clearStudySession u) u v x b

theorem deleteSavedWord_frame (db : Db K) (w : WordId) (u : UserId) :
    (db.deleteSavedWord w u).1.gradeLedger = db.gradeLedger ∧
      (db.deleteSavedWord w u).1.studySessions = db.studySessions := by
  unfold deleteSavedWord
  split <;> exact ⟨rfl, rfl⟩

end Db

end HamZaboon
