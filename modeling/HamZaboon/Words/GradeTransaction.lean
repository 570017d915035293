import HamZaboon.Words.Grading
import HamZaboon.Library.Transaction
import Mathlib.Algebra.Order.Ring.Rat
import Mathlib.Data.Rat.Floor

/-! # A grade as a transaction

The grade transitions statement by statement, on the connection that
`transaction` opens and every helper joins.  Any statement may fail.  A call that
does not report success leaves the database as it was; one that does has written
the graded word, the ledger key, and, where it was asked to, one event and the
owner's streak (`grade_all_or_nothing`).  Without failing statements the
transaction is the transition `Db.grade` of the handlers.
-/

namespace HamZaboon
open Library

variable {K : Type}

/-- Which statements of a grade call fail. -/
structure GradeFaults where
  opening : Bool := false
  selectWord : Bool := false
  updateWord : Bool := false
  ledger : Bool := false
  event : Bool := false
  counters : Bool := false
  selectUser : Bool := false
  updateUser : Bool := false
  commit : Bool := false

inductive GradeError
  | invalidGrade
  | unknownActivity
  /-- `last_review_at` is not a timestamp. -/
  | unreadable
  | database
  deriving DecidableEq, Repr

/-- The arguments of a grade call, and the clock it reads. -/
structure GradeRequest where
  wordId : WordId
  userId : UserId
  grade : Int
  gradeSource : Option String := none
  rawSignal : Option String := none
  responseTimeMs : Option Int := none
  withStreak : Bool := false
  now : Instant
  today : Day

/-- The `GradeResult` a call returns. -/
structure GradeReport where
  ok : Bool
  reason : Option Refusal := none
  nextReviewAt : Option Instant := none
  intervalSeconds : Option Int := none

/-- A body on the database of the study flow. -/
abbrev DbTx (K α : Type) := Tx (Db K) GradeError α

namespace DbTx

/-- `SELECT * FROM saved_words WHERE id=? AND user_id=?`. -/
def selectWord (faults : GradeFaults) (wordId : WordId) (userId : UserId) :
    DbTx K (Option (SavedWord K)) :=
  .query faults.selectWord .database fun db =>
    db.savedWords.rows.find? (fun w => w.card = (userId, wordId))

/-- `_apply_scheduling_fields`, with its row count. -/
def applySchedulingFields (faults : GradeFaults) (wordId : WordId) (userId : UserId)
    (stability difficulty : K) (now next : Instant) (nextDay : Day)
    (firstExposureDone : Option Bool) : DbTx K Nat := do
  .exec faults.updateWord .database fun db =>
    db.applySchedulingFields wordId userId stability difficulty now next nextDay firstExposureDone
  .query false .database fun db =>
    db.savedWords.rows.countP (fun w => w.card = (userId, wordId))

/-- `mark_word_graded`, on the open connection. -/
def markWordGraded (faults : GradeFaults) (userId : UserId) (wordId : WordId)
    (activity : ActivityType) (gradedAt : Instant) : DbTx K Unit :=
  .exec faults.ledger .database fun db => db.markWordGraded userId wordId activity gradedAt

/-- `insert_review_event`: the event, then the counters of its card. -/
def insertReviewEvent (faults : GradeFaults) (req : GradeRequest) (activity : ActivityType)
    (gradeSource : String) : DbTx K Unit := do
  let mk := newReviewEvent req.wordId req.userId req.grade activity gradeSource req.rawSignal
    req.responseTimeMs req.now
  .exec faults.event .database fun db =>
    { db with reviewEvents := db.reviewEvents.insert mk (fun _ => rfl) }
  .exec faults.counters .database fun db =>
    { db with
      savedWords := db.savedWords.updateWhere (fun w => w.card = (req.userId, req.wordId))
        (·.bumpCounters (mk 0).lapse) (fun w => id_bumpCounters w _) }

/-- `touch_streak_in_txn`. -/
def touchStreak (faults : GradeFaults) (userId : UserId) (today : Day) : DbTx K Unit := do
  match ← Tx.query faults.selectUser .database fun db : Db K => db.users.lookup userId with
  | none => pure ()
  | some _ => .exec faults.updateUser .database fun db => db.touchStreak userId today

/-- `if grade_source is not None: insert_review_event(…)`. -/
def recordEvent (faults : GradeFaults) (req : GradeRequest) (activity : ActivityType) :
    DbTx K Unit :=
  match req.gradeSource with
  | some gradeSource => insertReviewEvent faults req activity gradeSource
  | none => pure ()

/-- `if with_streak: touch_streak_in_txn(…)`. -/
def recordStreak (faults : GradeFaults) (req : GradeRequest) : DbTx K Unit :=
  if req.withStreak then touchStreak faults req.userId req.today else pure ()

section Bodies
variable [Field K] [LinearOrder K] [FloorRing K] [Elementary K]

/-- The common end of both bodies, from `_schedule` on. -/
def commitGrade (faults : GradeFaults) (zone : Zone) (req : GradeRequest) (activity : ActivityType)
    (stability difficulty : K) (firstExposureDone : Option Bool) : DbTx K GradeReport := do
  let next := schedule stability req.now
  let rowcount ← applySchedulingFields faults req.wordId req.userId stability difficulty req.now
    next.1 (zone.dayOf next.1) firstExposureDone
  if rowcount = 0 then do
    Tx.rollback
    pure { ok := false, reason := some .notFound }
  else do
    markWordGraded faults req.userId req.wordId activity req.now
    recordEvent faults req activity
    recordStreak faults req
    pure { ok := true, nextReviewAt := some next.1, intervalSeconds := some next.2 }

/-- The body of `grade_word_review`. -/
def gradeWordReview (faults : GradeFaults) (zone : Zone) (req : GradeRequest) (grade : Grade) :
    DbTx K GradeReport := do
  match ← selectWord faults req.wordId req.userId with
  | none => do
      Tx.rollback
      pure { ok := false, reason := some .notFound }
  | some row =>
      if row.firstExposureDone.getD false = false ∨ row.lastReviewAt.present = false then do
        Tx.rollback
        pure { ok := false, reason := some .wrongState }
      else
        match row.lastReviewAt.get? with
        | none => .raise .unreadable
        | some lastReview =>
            let sOld := row.stabilityOrDefault
            let dOld := row.difficultyOrDefault
            let elapsedDays : K := max 0 (((req.now - lastReview : Int) : K) / (dayMicros : K))
            let dNew := FsrsConfig.default.updateDifficulty dOld grade
            let sNew :=
              if elapsedDays < 1 then FsrsConfig.default.shortTermStability sOld grade
              else
                let r := FsrsConfig.default.computeRetrievability elapsedDays sOld
                FsrsConfig.default.updateStability dOld sOld r grade
            commitGrade faults zone req .srsReview sNew dNew none

/-- The body of `grade_first_exposure`. -/
def gradeFirstExposure (faults : GradeFaults) (zone : Zone) (req : GradeRequest) (grade : Grade) :
    DbTx K GradeReport := do
  match ← selectWord faults req.wordId req.userId with
  | none => do
      Tx.rollback
      pure { ok := false, reason := some .notFound }
  | some row =>
      if row.firstExposureDone.getD false then do
        Tx.rollback
        pure { ok := false, reason := some .wrongState }
      else
        commitGrade faults zone req .firstExposure
          (FsrsConfig.default.initialStabilityFirstExposure grade)
          (FsrsConfig.default.initialDifficulty grade) (some true)

end Bodies

end DbTx

section Calls
variable [Field K] [LinearOrder K] [FloorRing K] [Elementary K]

/-- `grade_service.grade`: the activity and the grade are checked before the
transaction begins. -/
def Db.gradeTransaction (db : Db K) (zone : Zone) (activity : ActivityType) (req : GradeRequest)
    (faults : GradeFaults) : Except GradeError GradeReport × Db K :=
  if activity ≠ .srsReview ∧ activity ≠ .firstExposure then (.error .unknownActivity, db)
  else
    match Grade.ofInt req.grade with
    | none => (.error .invalidGrade, db)
    | some grade =>
        Tx.transaction faults.opening faults.commit .database
          (if activity = .srsReview then DbTx.gradeWordReview faults zone req grade
            else DbTx.gradeFirstExposure faults zone req grade) db

end Calls

def Succeeds (r : Except GradeError GradeReport) : Prop := ∃ report, r = .ok report ∧ report.ok = true

/-- **What a successful grade writes**: the graded word's row, the ledger key unless
it is there, the event it is asked for, the streak it is asked for, and nothing
else. -/
structure GradeWrites (db db' : Db K) (zone : Zone) (activity : ActivityType) (req : GradeRequest) :
    Prop where
  found : ∃ w ∈ db.savedWords.rows, w.card = (req.userId, req.wordId)
  word : ∃ (s d : K) (next : Instant) (done : Option Bool), db'.savedWords.rows =
    db.savedWords.rows.map fun w =>
      if w.card = (req.userId, req.wordId) then
        let scheduled := w.reschedule s d req.now next (zone.dayOf next) done
        if req.gradeSource.isSome then scheduled.bumpCounters (req.grade = 1) else scheduled
      else w
  ledger : db'.gradeLedger =
    db.gradeLedger.insertOrIgnore ⟨req.userId, req.wordId, activity, req.now⟩
  events : db'.reviewEvents.rows = db.reviewEvents.rows ++ req.gradeSource.toList.map fun source =>
    newReviewEvent req.wordId req.userId req.grade activity source req.rawSignal req.responseTimeMs
      req.now (db.reviewEvents.seq + 1)
  users : db'.users.rows = db.users.rows.map fun u =>
    if req.withStreak ∧ u.userId = req.userId then Db.touchRow req.today u else u
  sessions : db'.studySessions = db.studySessions
  slots : db'.slots = db.slots

/-! ## All or nothing -/

/-- A report that is not a success comes with the database as it was, a success
with the writes of a grade. -/
def Settled (db : Db K) (zone : Zone) (activity : ActivityType) (req : GradeRequest)
    (report : GradeReport) (db' : Db K) : Prop :=
  (report.ok = false → db' = db) ∧ (report.ok = true → GradeWrites db db' zone activity req)

theorem spec_refuse {db s : Db K} {zone : Zone} {activity : ActivityType} {req : GradeRequest}
    (reason : Refusal) :
    Tx.Spec (do Tx.rollback; pure { ok := false, reason := some reason } : DbTx K GradeReport) db s
      (Settled db zone activity req) :=
  Tx.spec_bind (Tx.spec_rollback (Tx.spec_pure ⟨fun _ => rfl, fun h => nomatch h⟩))

theorem touchStreak_of_absent {s : Db K} {userId : UserId} {today : Day}
    (h : s.users.lookup userId = none) : s.touchStreak userId today = s := by
  unfold Db.touchStreak
  rw [KeyedTable.updateWhere_eq_self]
  intro u hu
  have hno := List.find?_eq_none.mp h u hu
  simpa using hno

theorem spec_touchStreak {db s : Db K} {faults : GradeFaults} {userId : UserId} {today : Day}
    {Q : Unit → Db K → Prop} (h : Q () (s.touchStreak userId today)) :
    Tx.Spec (DbTx.touchStreak faults userId today) db s Q := by
  refine Tx.spec_bind (Tx.spec_query ?_)
  cases hl : s.users.lookup userId with
  | some row => exact Tx.spec_exec h
  | none => exact Tx.spec_pure (touchStreak_of_absent hl ▸ h)

/-- The database with the event of a grade and the counters of its card. -/
def withEvent (req : GradeRequest) (activity : ActivityType) (s : Db K) : Db K :=
  match req.gradeSource with
  | some source =>
      { s with
        toWordStore := s.toWordStore.insertReviewEvent req.wordId req.userId req.grade activity
          source req.rawSignal req.responseTimeMs req.now }
  | none => s

/-- The database with the owner's streak touched. -/
def withStreak (req : GradeRequest) (s : Db K) : Db K :=
  if req.withStreak then s.touchStreak req.userId req.today else s

theorem spec_recordEvent {db s : Db K} {faults : GradeFaults} {req : GradeRequest}
    {activity : ActivityType} {Q : Unit → Db K → Prop} (h : Q () (withEvent req activity s)) :
    Tx.Spec (DbTx.recordEvent faults req activity) db s Q := by
  unfold withEvent at h
  unfold DbTx.recordEvent
  cases hsource : req.gradeSource with
  | none =>
    rw [hsource] at h
    exact Tx.spec_pure h
  | some source =>
    rw [hsource] at h
    exact Tx.spec_bind (Tx.spec_exec (Tx.spec_exec h))

theorem spec_recordStreak {db s : Db K} {faults : GradeFaults} {req : GradeRequest}
    {Q : Unit → Db K → Prop} (h : Q () (withStreak req s)) :
    Tx.Spec (DbTx.recordStreak faults req) db s Q := by
  unfold withStreak at h
  unfold DbTx.recordStreak
  split at h
  · rename_i hstreak
    rw [if_pos hstreak]
    exact spec_touchStreak h
  · rename_i hstreak
    rw [if_neg hstreak]
    exact Tx.spec_pure h

theorem withEvent_writes (req : GradeRequest) (activity : ActivityType) (s : Db K) :
    ((withEvent req activity s).savedWords.rows = s.savedWords.rows.map fun w =>
        if req.gradeSource.isSome ∧ w.card = (req.userId, req.wordId) then
          w.bumpCounters (req.grade = 1) else w) ∧
    ((withEvent req activity s).reviewEvents.rows = s.reviewEvents.rows ++
      req.gradeSource.toList.map fun source => newReviewEvent req.wordId req.userId req.grade
        activity source req.rawSignal req.responseTimeMs req.now (s.reviewEvents.seq + 1)) ∧
    (withEvent req activity s).gradeLedger = s.gradeLedger ∧
    (withEvent req activity s).studySessions = s.studySessions ∧
    (withEvent req activity s).toQuotaStore = s.toQuotaStore := by
  unfold withEvent
  cases hsource : req.gradeSource with
  | none => simp
  | some source =>
    refine ⟨?_, rfl, rfl, rfl, rfl⟩
    refine List.map_congr_left (fun w _ => ?_)
    simp [newReviewEvent, ReviewEvent.lapse, isLapse]

theorem withStreak_writes (req : GradeRequest) (s : Db K) :
    ((withStreak req s).users.rows = s.users.rows.map fun u =>
        if req.withStreak ∧ u.userId = req.userId then Db.touchRow req.today u else u) ∧
    (withStreak req s).toWordStore = s.toWordStore ∧
    (withStreak req s).gradeLedger = s.gradeLedger ∧
    (withStreak req s).studySessions = s.studySessions ∧ (withStreak req s).slots = s.slots := by
  unfold withStreak
  cases hstreak : req.withStreak with
  | false => simp
  | true => simp [Db.touchStreak]

theorem gradeWrites_of_writes {db : Db K} {zone : Zone} {req : GradeRequest}
    {activity : ActivityType} (s d : K) (next : Instant) (done : Option Bool)
    (hfound : ∃ w ∈ db.savedWords.rows, w.card = (req.userId, req.wordId)) :
    GradeWrites db (withStreak req (withEvent req activity
      ((db.applySchedulingFields req.wordId req.userId s d req.now next (zone.dayOf next)
        done).markWordGraded req.userId req.wordId activity req.now))) zone activity req := by
  generalize hbase : (db.applySchedulingFields req.wordId req.userId s d req.now next
    (zone.dayOf next) done).markWordGraded req.userId req.wordId activity req.now = base
  have hrows : base.savedWords.rows = db.savedWords.rows.map fun w =>
      if w.card = (req.userId, req.wordId) then
        w.reschedule s d req.now next (zone.dayOf next) done else w := by
    rw [← hbase]
    simp [Db.applySchedulingFields, Db.markWordGraded]
  obtain ⟨hwords, hevents, hledger, hsessions, hquota⟩ := withEvent_writes req activity base
  obtain ⟨husers, hstore, hledger', hsessions', hslots⟩ :=
    withStreak_writes req (withEvent req activity base)
  refine ⟨hfound, ⟨s, d, next, done, ?_⟩, ?_, ?_, ?_, ?_, ?_⟩
  · rw [hstore, hwords, hrows, List.map_map]
    refine List.map_congr_left (fun w _ => ?_)
    have hcard : (w.reschedule s d req.now next (zone.dayOf next) done).card = w.card := rfl
    simp only [Function.comp]
    by_cases hw : w.card = (req.userId, req.wordId)
    · simp [hw, hcard]
    · simp [hw]
  · rw [hledger', hledger, ← hbase]
    rfl
  · rw [hstore, hevents, ← hbase]
    rfl
  · rw [husers, hquota, ← hbase]
    rfl
  · rw [hsessions', hsessions, ← hbase]
    rfl
  · rw [hslots, hquota, ← hbase]
    rfl

theorem mem_of_selectWord {db : Db K} {w : SavedWord K} {c : UserId × WordId}
    (h : db.savedWords.rows.find? (fun w => w.card = c) = some w) :
    ∃ w ∈ db.savedWords.rows, w.card = c :=
  ⟨w, List.mem_of_find?_eq_some h, by simpa using List.find?_some h⟩

section Specs
variable [Field K] [LinearOrder K] [FloorRing K] [Elementary K]

theorem spec_commitGrade {db : Db K} {faults : GradeFaults} {zone : Zone} {req : GradeRequest}
    {activity : ActivityType} {s d : K} {done : Option Bool}
    (hfound : ∃ w ∈ db.savedWords.rows, w.card = (req.userId, req.wordId)) :
    Tx.Spec (DbTx.commitGrade faults zone req activity s d done) db db
      (Settled db zone activity req) := by
  refine Tx.spec_bind (Tx.spec_bind (Tx.spec_exec (Tx.spec_query ?_)))
  split
  · exact spec_refuse _
  · refine Tx.spec_bind (Tx.spec_exec (Tx.spec_bind (spec_recordEvent (Tx.spec_bind
      (spec_recordStreak (Tx.spec_pure ⟨fun hno => (nomatch hno), fun _ => ?_⟩))))))
    exact gradeWrites_of_writes s d _ done hfound

theorem spec_gradeWordReview (db : Db K) (faults : GradeFaults) (zone : Zone) (req : GradeRequest)
    (grade : Grade) : Tx.Spec (DbTx.gradeWordReview faults zone req grade) db db
      (Settled db zone .srsReview req) := by
  refine Tx.spec_bind (Tx.spec_query ?_)
  split
  · exact spec_refuse _
  · rename_i row hrow
    split
    · exact spec_refuse _
    · split
      · exact Tx.spec_raise _ _
      · exact spec_commitGrade (mem_of_selectWord hrow)

theorem spec_gradeFirstExposure (db : Db K) (faults : GradeFaults) (zone : Zone)
    (req : GradeRequest) (grade : Grade) :
    Tx.Spec (DbTx.gradeFirstExposure faults zone req grade) db db
      (Settled db zone .firstExposure req) := by
  refine Tx.spec_bind (Tx.spec_query ?_)
  split
  · exact spec_refuse _
  · rename_i row hrow
    split
    · exact spec_refuse _
    · exact spec_commitGrade (mem_of_selectWord hrow)

theorem gradeTransaction_cases (db : Db K) (zone : Zone) (activity : ActivityType)
    (req : GradeRequest) (faults : GradeFaults) :
    (∃ e, db.gradeTransaction zone activity req faults = (.error e, db)) ∨
      ∃ report db', db.gradeTransaction zone activity req faults = (.ok report, db') ∧
        Settled db zone activity req report db' := by
  unfold Db.gradeTransaction
  split
  · exact Or.inl ⟨_, rfl⟩
  · rename_i hknown
    cases Grade.ofInt req.grade with
    | none => exact Or.inl ⟨_, rfl⟩
    | some grade =>
      by_cases hreview : activity = .srsReview
      · subst hreview
        exact Tx.transaction_cases _ _ _ (spec_gradeWordReview db faults zone req grade)
      · have hfirst : activity = .firstExposure := by
          by_contra hfirst
          exact hknown ⟨hreview, hfirst⟩
        subst hfirst
        exact Tx.transaction_cases _ _ _ (spec_gradeFirstExposure db faults zone req grade)

/-- **A grade is all or nothing.**  Whatever statements fail, a call that does not
report success leaves the database exactly as it was, and one that does has
written exactly what `GradeWrites` lists. -/
theorem grade_all_or_nothing (db : Db K) (zone : Zone) (activity : ActivityType)
    (req : GradeRequest) (faults : GradeFaults) :
    let r := db.gradeTransaction zone activity req faults
    (¬ Succeeds r.1 → r.2 = db) ∧ (Succeeds r.1 → GradeWrites db r.2 zone activity req) := by
  have hends := gradeTransaction_cases db zone activity req faults
  rcases hends with ⟨e, hrun⟩ | ⟨report, db', hrun, hno, hyes⟩
  · rw [hrun]
    refine ⟨fun _ => rfl, ?_⟩
    rintro ⟨report, hreport, -⟩
    cases hreport
  · rw [hrun]
    constructor
    · intro hfails
      exact hno (Bool.eq_false_iff.mpr fun hok => hfails ⟨report, rfl, hok⟩)
    · rintro ⟨report', hreport, hok⟩
      obtain rfl := Except.ok.inj hreport
      exact hyes hok

end Specs

/-- The elementary functions of the run below. -/
local instance elementaryRatGrade : Elementary ℚ := .firstOrder ℚ

/-- A word that waits for its first exposure and is in the ledger already. -/
def ledgeredWord : Db ℚ where
  savedWords := SerialTable.empty.insert (newSavedWord 7 "haus" "german" "haus" .null 20000 true 0)
    (fun _ => rfl)
  reviewEvents := SerialTable.empty
  users := KeyedTable.empty
  slots := KeyedTable.empty
  gradeLedger := KeyedTable.empty.insertOrIgnore ⟨7, 1, .firstExposure, 0⟩
  studySessions := KeyedTable.empty

/-- A first exposure of that word: graded "good", no event asked for. -/
def firstExposureOfWord : GradeRequest where
  wordId := 1
  userId := 7
  grade := 3
  now := 1000000
  today := 20000

/-- A grade may succeed without a new ledger row and without an event. -/
theorem grade_keeps_ledger_row :
    let r := ledgeredWord.gradeTransaction ⟨fun _ => 20000, fun _ => 0⟩ .firstExposure
      firstExposureOfWord {}
    Succeeds r.1 ∧ r.2.gradeLedger.rows.length ≠ ledgeredWord.gradeLedger.rows.length + 1 ∧
      r.2.reviewEvents.rows.length ≠ ledgeredWord.reviewEvents.rows.length + 1 := by
  refine ⟨⟨_, rfl, rfl⟩, ?_, ?_⟩
  · decide +kernel
  · decide +kernel

/-! ## The transition of the handlers -/

/-- The request of a handler's call: with a source and with the streak. -/
def GradeCall.request (call : GradeCall) (wordId : WordId) (userId : UserId) : GradeRequest where
  wordId := wordId
  userId := userId
  grade := call.grade.value
  gradeSource := some call.gradeSource
  rawSignal := call.rawSignal
  responseTimeMs := call.responseTimeMs
  withStreak := true
  now := call.now
  today := call.today

/-- What a call returns and leaves, from the way the transition ends. -/
def GradeResult.Matches (db : Db K) (r : Except GradeError GradeReport × Db K) :
    GradeResult K → Prop
  | .ok db' next seconds =>
      r = (.ok { ok := true, nextReviewAt := some next, intervalSeconds := some seconds }, db')
  | .refused reason => r = (.ok { ok := false, reason := some reason }, db)
  | .raised => ∃ e, r = (.error e, db)

@[simp] theorem Grade.ofInt_value (g : Grade) : Grade.ofInt g.value = some g := by
  cases g <;> rfl

theorem selectWord_apply (start s : Db K) (wordId : WordId) (userId : UserId) :
    DbTx.selectWord {} wordId userId start s =
      (.ok (s.savedWords.rows.find? (fun w => w.card = (userId, wordId))), s) := rfl

theorem touchStreak_apply (start s : Db K) (userId : UserId) (today : Day) :
    DbTx.touchStreak {} userId today start s = (.ok (), s.touchStreak userId today) := by
  unfold DbTx.touchStreak
  cases hl : s.users.lookup userId with
  | some row => simp [hl]
  | none => simp [hl, touchStreak_of_absent hl]

section Transition
variable [Field K] [LinearOrder K] [FloorRing K] [Elementary K]

theorem commitGrade_apply {db : Db K} {zone : Zone} {wordId : WordId} {userId : UserId}
    {activity : ActivityType} {call : GradeCall} {s d : K} {done : Option Bool}
    (hfound : ∃ w ∈ db.savedWords.rows, w.card = (userId, wordId)) :
    (db.commitGrade zone wordId userId activity call s d done).Matches db
      (DbTx.commitGrade {} zone (call.request wordId userId) activity s d done db db) := by
  obtain ⟨w, hw, hcard⟩ := hfound
  have hcount : ∀ next nextDay, ¬ (db.applySchedulingFields wordId userId s d call.now next nextDay
      done).savedWords.rows.countP (fun w => w.card = (userId, wordId)) = 0 := by
    intro next nextDay
    have hmem : w.reschedule s d call.now next nextDay done ∈
        (db.applySchedulingFields wordId userId s d call.now next nextDay done).savedWords.rows :=
      List.mem_map.mpr ⟨w, hw, by rw [if_pos (decide_eq_true hcard)]⟩
    rw [List.countP_eq_zero]
    exact fun hnone => hnone _ hmem (decide_eq_true hcard)
  show DbTx.commitGrade {} zone (call.request wordId userId) activity s d done db db = _
  unfold DbTx.commitGrade DbTx.applySchedulingFields GradeCall.request
  simp only [Tx.bind_apply, Tx.exec_apply, Tx.query_apply]
  rw [if_neg (hcount _ _)]
  simp only [DbTx.markWordGraded, DbTx.recordEvent, DbTx.insertReviewEvent, DbTx.recordStreak,
    if_true, Tx.bind_apply, Tx.exec_apply, touchStreak_apply, Tx.pure_apply]
  rfl

theorem gradeWordReview_apply (db : Db K) (zone : Zone) (wordId : WordId) (userId : UserId)
    (call : GradeCall) :
    (db.gradeWordReview zone wordId userId call).Matches db
      (DbTx.gradeWordReview {} zone (call.request wordId userId) call.grade db db) := by
  unfold Db.gradeWordReview DbTx.gradeWordReview
  rw [Tx.bind_apply]
  simp only [GradeCall.request, selectWord_apply]
  cases hrow : db.savedWords.rows.find? (fun w => w.card = (userId, wordId)) with
  | none => rfl
  | some row =>
    by_cases hstate : row.firstExposureDone.getD false = false ∨ row.lastReviewAt.present = false
    · simp only [if_pos hstate]
      rfl
    · simp only [if_neg hstate]
      cases hlast : row.lastReviewAt.get? with
      | none => exact ⟨.unreadable, rfl⟩
      | some lastReview => exact commitGrade_apply (mem_of_selectWord hrow)

theorem gradeFirstExposure_apply (db : Db K) (zone : Zone) (wordId : WordId) (userId : UserId)
    (call : GradeCall) :
    (db.gradeFirstExposure zone wordId userId call).Matches db
      (DbTx.gradeFirstExposure {} zone (call.request wordId userId) call.grade db db) := by
  unfold Db.gradeFirstExposure DbTx.gradeFirstExposure
  rw [Tx.bind_apply]
  simp only [GradeCall.request, selectWord_apply]
  cases hrow : db.savedWords.rows.find? (fun w => w.card = (userId, wordId)) with
  | none => rfl
  | some row =>
    by_cases hdone : row.firstExposureDone.getD false = true
    · simp only [if_pos hdone]
      rfl
    · simp only [if_neg hdone]
      exact commitGrade_apply (mem_of_selectWord hrow)

/-- **The transaction of a handler's grade is the transition** `Db.grade`, when
none of its statements fails. -/
theorem gradeTransaction_eq_grade (db : Db K) (zone : Zone) (activity : ActivityType)
    (wordId : WordId) (userId : UserId) (call : GradeCall) :
    (db.grade zone activity wordId userId call).Matches db
      (db.gradeTransaction zone activity (call.request wordId userId) {}) := by
  have hwrap : ∀ (body : DbTx K GradeReport) (result : GradeResult K),
      result.Matches db (body db db) →
      result.Matches db (Tx.transaction false false .database body db) := by
    intro body result h
    unfold Tx.transaction
    cases result with
    | ok db' next seconds =>
      have hrun : body db db = _ := h
      rw [hrun]
      rfl
    | refused reason =>
      have hrun : body db db = _ := h
      rw [hrun]
      rfl
    | raised =>
      obtain ⟨e, hrun⟩ : ∃ e, body db db = (.error e, db) := h
      rw [hrun]
      exact ⟨e, rfl⟩
  unfold Db.gradeTransaction
  rw [show (call.request wordId userId).grade = call.grade.value from rfl, Grade.ofInt_value]
  cases activity with
  | srsReview => exact hwrap _ _ (gradeWordReview_apply db zone wordId userId call)
  | firstExposure => exact hwrap _ _ (gradeFirstExposure_apply db zone wordId userId call)
  | newAiCard => exact ⟨.unknownActivity, rfl⟩
  | aiQuiz => exact ⟨.unknownActivity, rfl⟩
  | sentenceWrite => exact ⟨.unknownActivity, rfl⟩

end Transition

end HamZaboon
