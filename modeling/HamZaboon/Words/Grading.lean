import HamZaboon.Words.Scheduling

/-! # The grade transitions

`grade_word_review` and `grade_first_exposure` (`services/db/words.py`) with
their dispatch `grade_service.grade`.  A transition is one transaction: the
scheduling fields of the word, the ledger row, the review event with the
lifetime counters, and the streak.  Both end in `commitGrade`; what differs is
the guard and the formula of the new memory state.
-/

namespace HamZaboon
open Library

/-- The reasons of a `GradeResult` that is not `ok`. -/
inductive Refusal
  | notFound
  | wrongState
  deriving DecidableEq, Repr

inductive GradeResult (K : Type)
  | ok (db : Db K) (nextReviewAt : Instant) (intervalSeconds : Int)
  | refused (reason : Refusal)
  /-- An exception inside the transaction, which rolls it back. -/
  | raised

/-- The arguments of a grade call past the word and its owner, and the clock it
reads.  Handlers always pass a `grade_source` and `with_streak=True`. -/
structure GradeCall where
  grade : Grade
  gradeSource : String
  rawSignal : Option String
  responseTimeMs : Option Int
  now : Instant
  today : Day

variable {K : Type}

/-- The row `_apply_scheduling_fields` leaves. -/
def SavedWord.reschedule (w : SavedWord K) (stability difficulty : K) (now next : Instant)
    (nextDay : Day) (firstExposureDone : Option Bool) : SavedWord K :=
  { w with
    firstExposureDone := firstExposureDone.or w.firstExposureDone
    lastReviewAt := .val now
    nextReviewAt := .val next
    nextReview := .val nextDay
    stability := some stability
    difficulty := some difficulty
    reviewStatus := some .idle
    reviewRequestedAt := none
    retryAt := none
    srsRetryAttempts := 0 }

theorem id_reschedule (w : SavedWord K) (stability difficulty : K) (now next : Instant)
    (nextDay : Day) (done : Option Bool) :
    (w.reschedule stability difficulty now next nextDay done).id = w.id := rfl

def Db.applySchedulingFields (db : Db K) (wordId : WordId) (userId : UserId)
    (stability difficulty : K) (now next : Instant) (nextDay : Day)
    (firstExposureDone : Option Bool) : Db K :=
  { db with
    savedWords := db.savedWords.updateWhere (fun w => w.card = (userId, wordId))
      (·.reschedule stability difficulty now next nextDay firstExposureDone)
      (fun w => id_reschedule w _ _ _ _ _ _) }

/-- `insert_review_event`, on the whole database. -/
def Db.insertReviewEvent (db : Db K) (wordId : WordId) (userId : UserId) (activity : ActivityType)
    (call : GradeCall) : Db K :=
  { db with
    toWordStore := db.toWordStore.insertReviewEvent wordId userId call.grade.value activity
      call.gradeSource call.rawSignal call.responseTimeMs call.now }

section Transitions
variable [Field K] [LinearOrder K] [FloorRing K] [Elementary K]

/-- The writes of a grade transaction, once the new memory state is known. -/
def Db.commitGrade (db : Db K) (zone : Zone) (wordId : WordId) (userId : UserId)
    (activity : ActivityType) (call : GradeCall) (stability difficulty : K)
    (firstExposureDone : Option Bool) : GradeResult K :=
  let next := schedule stability call.now
  let db := db.applySchedulingFields wordId userId stability difficulty call.now next.1
    (zone.dayOf next.1) firstExposureDone
  let db := db.markWordGraded userId wordId activity call.now
  let db := db.insertReviewEvent wordId userId activity call
  .ok (db.touchStreak userId call.today) next.1 next.2

def Db.gradeWordReview (db : Db K) (zone : Zone) (wordId : WordId) (userId : UserId)
    (call : GradeCall) : GradeResult K :=
  match db.savedWords.rows.find? (fun w => w.card = (userId, wordId)) with
  | none => .refused .notFound
  | some row =>
      if row.firstExposureDone.getD false = false ∨ row.lastReviewAt.present = false then
        .refused .wrongState
      else
        match row.lastReviewAt.get? with
        | none => .raised
        | some lastReview =>
            let sOld := row.stabilityOrDefault
            let dOld := row.difficultyOrDefault
            let elapsedDays : K := max 0 (((call.now - lastReview : Int) : K) / (dayMicros : K))
            let dNew := FsrsConfig.default.updateDifficulty dOld call.grade
            let sNew :=
              if elapsedDays < 1 then FsrsConfig.default.shortTermStability sOld call.grade
              else
                let r := FsrsConfig.default.computeRetrievability elapsedDays sOld
                FsrsConfig.default.updateStability dOld sOld r call.grade
            db.commitGrade zone wordId userId .srsReview call sNew dNew none

def Db.gradeFirstExposure (db : Db K) (zone : Zone) (wordId : WordId) (userId : UserId)
    (call : GradeCall) : GradeResult K :=
  match db.savedWords.rows.find? (fun w => w.card = (userId, wordId)) with
  | none => .refused .notFound
  | some row =>
      if row.firstExposureDone.getD false then .refused .wrongState
      else
        let s := FsrsConfig.default.initialStabilityFirstExposure call.grade
        let d := FsrsConfig.default.initialDifficulty call.grade
        db.commitGrade zone wordId userId .firstExposure call s d (some true)

/-- `grade_service.grade`, called with an activity it knows. -/
def Db.grade (db : Db K) (zone : Zone) (activity : ActivityType) (wordId : WordId)
    (userId : UserId) (call : GradeCall) : GradeResult K :=
  match activity with
  | .srsReview => db.gradeWordReview zone wordId userId call
  | .firstExposure => db.gradeFirstExposure zone wordId userId call
  | _ => .raised

end Transitions

/-! ## What a committed grade writes -/

/-- What every committed grade writes besides the word and the streak: the
ledger row of its key and one review event. -/
structure Committed (db db' : Db K) (userId : UserId) (wordId : WordId) (activity : ActivityType)
    (call : GradeCall) : Prop where
  ledger : db'.gradeLedger =
    db.gradeLedger.insertOrIgnore ⟨userId, wordId, activity, call.now⟩
  events : db'.reviewEvents.rows = db.reviewEvents.rows ++
    [newReviewEvent wordId userId call.grade.value activity call.gradeSource call.rawSignal
      call.responseTimeMs call.now (db.reviewEvents.seq + 1)]
  sessions : db'.studySessions = db.studySessions

theorem Committed.isWordGraded {db db' : Db K} {userId : UserId} {wordId : WordId}
    {activity : ActivityType} {call : GradeCall} (h : Committed db db' userId wordId activity call)
    (v : UserId) (x : WordId) (c : ActivityType) :
    db'.isWordGraded v x c =
      (db.isWordGraded v x c || decide ((userId, wordId, activity) = (v, x, c))) := by
  rw [← Db.isWordGraded_markWordGraded db userId wordId activity call.now]
  unfold Db.isWordGraded Db.markWordGraded
  rw [h.ledger]

section Commits
variable [Field K] [LinearOrder K] [FloorRing K] [Elementary K]

theorem committed_commitGrade {db db' : Db K} {zone : Zone} {wordId : WordId} {userId : UserId}
    {activity : ActivityType} {call : GradeCall} {s d : K} {done : Option Bool} {next : Instant}
    {seconds : Int}
    (h : db.commitGrade zone wordId userId activity call s d done = .ok db' next seconds) :
    Committed db db' userId wordId activity call := by
  simp only [Db.commitGrade, GradeResult.ok.injEq] at h
  obtain ⟨rfl, -, -⟩ := h
  exact ⟨rfl, rfl, rfl⟩

/-- **One call, one commit**: a grade that returns `ok` has written the ledger
row, the event and nothing of the persisted sessions. -/
theorem committed_grade {db db' : Db K} {zone : Zone} {wordId : WordId} {userId : UserId}
    {activity : ActivityType} {call : GradeCall} {next : Instant} {seconds : Int}
    (h : db.grade zone activity wordId userId call = .ok db' next seconds) :
    Committed db db' userId wordId activity call := by
  cases activity with
  | srsReview =>
    simp only [Db.grade, Db.gradeWordReview] at h
    split at h
    · cases h
    · split at h
      · cases h
      · split at h
        · cases h
        · exact committed_commitGrade h
  | firstExposure =>
    simp only [Db.grade, Db.gradeFirstExposure] at h
    split at h
    · cases h
    · split at h
      · cases h
      · exact committed_commitGrade h
  | newAiCard => cases h
  | aiQuiz => cases h
  | sentenceWrite => cases h

end Commits

end HamZaboon
