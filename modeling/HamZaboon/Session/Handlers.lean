import HamZaboon.Session.Render
import HamZaboon.Session.Assembly
import HamZaboon.Words.Grading

/-! # The study and review handlers

`handlers/study_handler.py` and `handlers/srs_handler.py` as functions on the
state of the bot: the database and each user's context.  Updates of one user are
handled one at a time, so a handler is one step.  What the code does not
determine is an input of the handler: the clock at each reading, the learner's
settings, what Telegram answers, and which calls fail.  An exception nothing
catches ends the handler where it stands.  Notices that nothing follows are left
out, since whether they arrive changes no state.
-/

namespace HamZaboon
open Library

/-- The context of a user, `context.user_data`. -/
structure UserData (K : Type) where
  currentSession : Option (SessionState K) := none
  telemetry : Telemetry := {}

/-- What has been committed about grades, for the record. -/
inductive Commit
  /-- A grade transaction of `(word_id, activity_type)`. -/
  | graded (userId : UserId) (wordId : WordId) (activityType : ActivityType)
  /-- A clear of the user's grade ledger. -/
  | cleared (userId : UserId)
  /-- A deletion of a word with its events. -/
  | deleted (userId : UserId) (wordId : WordId)
  deriving DecidableEq, Repr

/-- The state of the bot, with the record of its commits, newest first. -/
structure Robot (K : Type) where
  db : Db K
  userData : UserId → UserData K
  history : List Commit

variable {K : Type}

namespace Robot

def session (b : Robot K) (u : UserId) : Option (SessionState K) := (b.userData u).currentSession

/-- `context.user_data[…] = …`. -/
def setUser (b : Robot K) (u : UserId) (data : UserData K) : Robot K :=
  { b with userData := Function.update b.userData u data }

/-- Set or pop `current_session`. -/
def setSession (b : Robot K) (u : UserId) (st : Option (SessionState K)) : Robot K :=
  b.setUser u { b.userData u with currentSession := st }

/-- Put what a render wrote back into the context. -/
def setScreen (b : Robot K) (u : UserId) (screen : Screen K) : Robot K :=
  b.setUser u ⟨some screen.state, screen.telemetry⟩

/-- `_persist_session`. -/
def persist (b : Robot K) (u : UserId) (day : Day) (st : SessionState K) : Robot K :=
  { b with db := b.db.saveStudySession u day st }

/-- `_clear_persisted_session`, unless it fails. -/
def clearRow (b : Robot K) (u : UserId) (fails : Bool) : Robot K :=
  if fails then b else { b with db := b.db.clearStudySession u }

/-- `invalidate_stale_study_session`, unless it fails. -/
def invalidate (b : Robot K) (u : UserId) (fails : Bool) : Robot K :=
  if fails then b
  else { b with db := b.db.invalidateStaleStudySession u, history := .cleared u :: b.history }

/-! ## The session gate -/

/-- What a pass through the gate meets. -/
structure GateInputs where
  today : Day
  restoreFails : Bool := false
  invalidateFails : Bool := false

def loadSession (b : Robot K) (u : UserId) (today : Day) : Robot K × Option (SessionState K) :=
  match b.db.loadStudySession u with
  | none => (b, none)
  | some row =>
      if row.sessionDate ≠ today then (b.invalidate u false, none)
      else
        match row.stateJson with
        | .val json =>
            if json.nodes = [] then (b.invalidate u false, none)
            else (b, some (stateFromJson json))
        | _ => (b.invalidate u false, none)

/-- `get_active_session_async`. -/
def getActiveSession (b : Robot K) (g : GateInputs) (u : UserId) :
    Robot K × Option (SessionState K) :=
  match b.session u with
  | some st =>
      if st.isStale g.today then ((b.setSession u none).invalidate u g.invalidateFails, none)
      else (b, some st)
  | none =>
      if g.restoreFails then (b, none)
      else
        match b.loadSession u g.today with
        | (b, none) => (b, none)
        | (b, some st) =>
            if st.isStale g.today then (b.invalidate u g.invalidateFails, none)
            else (b.setSession u (some st), some st)

/-! ## Advancing -/

/-- How Telegram answers an edit of a message. -/
inductive EditResult
  | done
  | notModified
  | badRequest
  | failed
  deriving DecidableEq, Repr

/-- The new content is on the screen. -/
def EditResult.shown : EditResult → Bool
  | .done | .notModified => true
  | _ => false

structure AdvanceInputs where
  today : Day
  gate : GateInputs
  card : CardInputs
  cardFaults : CardFaults := {}
  edit : EditResult := .done
  persistFails : Bool := false
  clearFails : Bool := false

/-- Build the card of a node, edit the message, persist; a failed edit is undone,
a failed build is not. -/
def showCard (b : Robot K) (a : AdvanceInputs) (u : UserId) (node : SessionNode)
    (st : SessionState K) (undo : SessionState K → SessionState K) : Robot K :=
  let built := buildCard b.db.toWordStore a.card a.cardFaults u node
    ⟨st, (b.userData u).telemetry⟩
  let b := b.setScreen u built.1
  match built.2 with
  | .error _ => b
  | .ok _ =>
      if a.edit.shown then
        if a.persistFails then b else b.persist u a.today built.1.state
      else b.setSession u (some (undo built.1.state))

/-- The completion screen.  Only a transient failure of its edit keeps the
session. -/
def complete (b : Robot K) (a : AdvanceInputs) (u : UserId) (st : SessionState K)
    (undo : SessionState K → SessionState K) : Robot K :=
  match a.edit with
  | .failed => b.setSession u (some (undo st))
  | _ => (b.setSession u none).clearRow u a.clearFails

/-- `advance_session` past its gate. -/
def advanceFrom (b : Robot K) (a : AdvanceInputs) (u : UserId) (st : SessionState K) : Robot K :=
  let undo := fun st' : SessionState K => st'.rollbackPop st.nodes.head? st.frozen
  match st.popNext.nodes with
  | node :: _ => b.showCard a u node st.popNext undo
  | [] =>
      match st.popNext.tier3Context.bind generateTier3Node with
      | some node =>
          b.showCard a u node (st.popNext.pushTier3 node) fun st' => undo st'.rollbackTier3Push
      | none => b.complete a u st.popNext undo

/-- `advance_session`. -/
def advance (b : Robot K) (a : AdvanceInputs) (u : UserId) : Robot K :=
  match b.getActiveSession a.gate u with
  | (b, none) => b
  | (b, some st) => b.advanceFrom a u st

/-- What the end of a handler meets that changed the session. -/
structure ClosingInputs where
  persistDay : Day
  persistFails : Bool := false
  noticeFails : Bool := false
  advance : AdvanceInputs

/-- The end of a grade and of a deletion: persist the session under its own
stamp, answer, and advance. -/
def persistAndAdvance (b : Robot K) (c : ClosingInputs) (u : UserId) (st : SessionState K) :
    Robot K :=
  if c.persistFails then b
  else
    let b := b.persist u (st.sessionDate.getD c.persistDay) st
    if c.noticeFails then b else b.advance c.advance u

/-! ## Grading -/

/-- What a grade tap carries and meets. -/
structure TapInputs where
  targetUserId : UserId
  wordId : WordId
  grade : Int
  zone : Zone
  /-- The day `_reject_stale_day_tap` reads; `none` when reading it raises. -/
  rejectDay : Option Day
  rejectInvalidateFails : Bool := false
  throttled : Bool := false
  snapshotFails : Bool := false
  snapshotDay : Day
  gate : GateInputs
  ledgerReadFails : Bool := false
  staleInvalidateFails : Bool := false
  /-- `time.time()`. -/
  tapTime : Instant
  /-- The clock of the grade transaction. -/
  now : Instant
  streakDay : Day
  gradeFails : Bool := false
  closing : ClosingInputs

def rejectStaleDayTap (b : Robot K) (t : TapInputs) (u : UserId) : Robot K × Bool :=
  match b.session u with
  | none => (b, false)
  | some st =>
      match t.rejectDay with
      | some today =>
          if st.isStale today then
            ((b.setSession u none).invalidate u t.rejectInvalidateFails, true)
          else (b, false)
      | none => ((b.setSession u none).invalidate u t.rejectInvalidateFails, true)

def snapshotInnerDate (row : StudyRow K) : Option Day :=
  row.stateJson.get?.bind fun json => (stateFromJson json).sessionDate

def isPersistedStale (row : StudyRow K) (today : Day) : Bool :=
  row.sessionDate ≠ today || snapshotInnerDate row ≠ some today

/-- `context.user_data.pop("card_shown_at_…")`. -/
def popShownAt (b : Robot K) (u : UserId) (w : WordId) : Robot K :=
  b.setUser u
    { b.userData u with
      telemetry :=
        { (b.userData u).telemetry with
          cardShownAt := (b.userData u).telemetry.cardShownAt.filter (fun e => e.1 ≠ w) } }

/-- The response time of a review; a first exposure has none. -/
def responseTimeMs (b : Robot K) (u : UserId) (w : WordId) (activity : ActivityType)
    (tapTime : Instant) : Option Int :=
  if activity = .srsReview then
    ((b.userData u).telemetry.cardShownAt.find? (fun e => e.1 = w)).map
      fun e => max 0 ((tapTime - e.2).tdiv 1000)
  else none

/-- The session's node at the head is the card the tap grades. -/
def isActive (st : SessionState K) (w : WordId) (activity : ActivityType) : Bool :=
  st.nodes.head?.any fun n => n.sourceId = some w && n.activityType = activity

/-- Append to `graded_word_ids`. -/
def appendGraded (st : SessionState K) (w : WordId) : SessionState K :=
  { st with gradedWordIds := st.gradedWordIds ++ [w] }

/-- A card whose grade had already been recorded: backfill the list and retry the
advance. -/
def repeatTap (b : Robot K) (t : TapInputs) (u : UserId) (st : SessionState K) : Robot K :=
  let b := b.popShownAt u t.wordId
  if t.closing.noticeFails then b
  else
    let st := if t.wordId ∈ st.gradedWordIds then st else appendGraded st t.wordId
    (b.setSession u (some st)).advance t.closing.advance u

/-- After a commit: record the word in the session and persist it, answer, and
advance. -/
def finishTap (b : Robot K) (t : TapInputs) (u : UserId) (session : Option (SessionState K)) :
    Robot K :=
  match session with
  | some st =>
      let st := appendGraded st t.wordId
      (b.setSession u (some st)).persistAndAdvance t.closing u st
  | none => if t.closing.noticeFails then b else b.advance t.closing.advance u

section Grading
variable [Field K] [LinearOrder K] [FloorRing K] [Elementary K]

/-- The grade transaction of a tap and what follows it. -/
def gradeAndFinish (b : Robot K) (activity : ActivityType) (t : TapInputs) (u : UserId)
    (session : Option (SessionState K)) : Robot K :=
  match Grade.ofInt t.grade with
  | none => b
  | some grade =>
      let call : GradeCall :=
        { grade := grade
          gradeSource := "direct_button"
          rawSignal := some ("\x7b\"button_value\": " ++ toString t.grade ++ "\x7d")
          responseTimeMs := b.responseTimeMs u t.wordId activity t.tapTime
          now := t.now
          today := t.streakDay }
      let b := b.popShownAt u t.wordId
      if t.gradeFails then b
      else
        match b.db.grade t.zone activity t.wordId u call with
        | .ok db _ _ =>
            finishTap
              { b with db := db, history := .graded u t.wordId activity :: b.history } t u session
        | _ => b

/-- The already-graded check of a grade tap: the list of the session, whatever the
activity was, or the ledger. -/
def alreadyGraded (b : Robot K) (session : Option (SessionState K)) (u : UserId) (w : WordId)
    (activity : ActivityType) : Bool :=
  (session.any fun st => w ∈ st.gradedWordIds) || b.db.isWordGraded u w activity

def gradeTap (b : Robot K) (activity : ActivityType) (t : TapInputs) (u : UserId) : Robot K :=
  let snapshot := if t.snapshotFails then none else b.db.loadStudySession u
  let persistedStale := snapshot.any fun row => isPersistedStale row t.snapshotDay
  match b.getActiveSession t.gate u with
  | (b, session) =>
      let inList := session.any fun st => t.wordId ∈ st.gradedWordIds
      if inList = false ∧ t.ledgerReadFails then b
      else
        let graded := b.alreadyGraded session u t.wordId activity
        match session with
        | some st =>
            let active := isActive st t.wordId activity
            if graded ∧ (active ∨ st.nodes = []) then b.repeatTap t u st
            else if active then b.gradeAndFinish activity t u (some st)
            else b
        | none =>
            if graded then b.popShownAt u t.wordId
            else if persistedStale then b.invalidate u t.staleInvalidateFails
            else b.gradeAndFinish activity t u none

/-- The two grade handlers up to their throttle. -/
def handleGrade (b : Robot K) (activity : ActivityType) (t : TapInputs) (u : UserId) : Robot K :=
  if t.targetUserId ≠ u then b
  else
    match b.rejectStaleDayTap t u with
    | (b, true) => b
    | (b, false) => if t.throttled then b else b.gradeTap activity t u

def handleSrsReview (b : Robot K) (t : TapInputs) (u : UserId) : Robot K :=
  b.handleGrade .srsReview t u

def handleFirstExposureGrade (b : Robot K) (t : TapInputs) (u : UserId) : Robot K :=
  b.handleGrade .firstExposure t u

end Grading

/-! ## Reveal and delete -/

/-- What a reveal tap carries and meets. -/
structure RevealInputs where
  targetUserId : UserId
  wordId : WordId
  gate : GateInputs
  /-- A read of the row, the toggles or the session number raises. -/
  readFails : Bool := false
  edit : EditResult := .done
  persistDay : Day
  persistFails : Bool := false

/-- Set `revealed_…`. -/
def markRevealed (b : Robot K) (u : UserId) (w : WordId) : Robot K :=
  b.setUser u
    { b.userData u with
      telemetry :=
        { (b.userData u).telemetry with revealed := w :: (b.userData u).telemetry.revealed } }

/-- The frozen prompt a reveal commits. -/
def revealState (st : SessionState K) (w : WordId) : SessionState K :=
  { st with frozen := { st.frozen with revealed := true, promptWordId := some w } }

def handleSrsReveal (b : Robot K) (i : RevealInputs) (u : UserId) : Robot K :=
  if i.targetUserId ≠ u then b
  else
    match b.getActiveSession i.gate u with
    | (b, none) => b
    | (b, some st) =>
        let shown := st.nodes.head?.any fun n =>
          (n.activityType = .srsReview || n.activityType = .firstExposure) &&
            n.sourceId = some i.wordId
        if (st.frozen.revealed ∧ st.frozen.promptWordId = some i.wordId) ∨
            i.wordId ∈ (b.userData u).telemetry.revealed ∨ shown = false ∨ i.readFails ∨
            st.studyMsgId.getD 0 = 0 ∨ i.edit ≠ .done then b
        else if i.persistFails then b.markRevealed u i.wordId
        else
          let st := revealState st i.wordId
          ((b.setSession u (some st)).persist u (st.sessionDate.getD i.persistDay) st).markRevealed
            u i.wordId

/-- What a confirmed deletion carries and meets. -/
structure DeleteInputs where
  targetUserId : UserId
  wordId : WordId
  zone : Zone
  gate : GateInputs
  deleteFails : Bool := false
  /-- The clock the due queue reads. -/
  now : Instant
  refillFails : Bool := false
  closing : ClosingInputs

/-- The deletion of a word, with the record of it. -/
def deleteWord (b : Robot K) (u : UserId) (w : WordId) : Robot K :=
  { b with db := (b.db.deleteSavedWord w u).1, history := .deleted u w :: b.history }

/-- `_resolve_delete_context`: the active node must be the word's. -/
def resolveDelete (b : Robot K) (g : GateInputs) (u targetUserId : UserId) (w : WordId) :
    Robot K × Option (SessionState K) :=
  if u ≠ targetUserId then (b, none)
  else
    match b.getActiveSession g u with
    | (b, none) => (b, none)
    | (b, some st) =>
        if st.nodes.head?.any (fun n => n.sourceId = some w) ∧ st.studyMsgId.getD 0 ≠ 0 then
          (b, some st)
        else (b, none)

section Queues
variable [Field K] [LinearOrder K] [Elementary K]

def handleSrsDeleteYes (b : Robot K) (i : DeleteInputs) (u : UserId) : Robot K :=
  match b.resolveDelete i.gate u i.targetUserId i.wordId with
  | (b, none) => b
  | (b, some st) =>
      if i.deleteFails then b
      else
        let b := b.deleteWord u i.wordId
        if i.refillFails then b
        else
          let st := b.db.toWordStore.refillSessionFromDue i.zone i.now u st
          (b.setSession u (some st)).persistAndAdvance i.closing u st

end Queues

/-- `_handle_srs_delete` and `_handle_srs_delete_no`, which only exchange the
keyboard. -/
def handleSrsDeleteKeyboard (b : Robot K) (g : GateInputs) (u targetUserId : UserId) (w : WordId) :
    Robot K :=
  (b.resolveDelete g u targetUserId w).1

/-! ## Starting and resuming -/

structure ResumeInputs where
  noticeFails : Bool := false
  card : CardInputs
  cardFaults : CardFaults := {}
  /-- The new message, when sending it succeeds. -/
  sent : Option MessageId
  persistDay : Day
  persistFails : Bool := false

def withMessage (st : SessionState K) (id : MessageId) : SessionState K :=
  { st with studyMsgId := some id }

/-- Send a built card as a new message; `none` when the build or the send fails. -/
def sendCard (b : Robot K) (card : CardInputs) (faults : CardFaults) (sent : Option MessageId)
    (u : UserId) (node : SessionNode) (st : SessionState K) :
    Robot K × Option (SessionState K) :=
  let built := buildCard b.db.toWordStore card faults u node ⟨st, (b.userData u).telemetry⟩
  let b := b.setScreen u built.1
  match built.2, sent with
  | .ok _, some id =>
      let st := withMessage built.1.state id
      (b.setSession u (some st), some st)
  | _, _ => (b, none)

def resumeExistingSession (b : Robot K) (r : ResumeInputs) (u : UserId) (st : SessionState K) :
    Robot K :=
  if r.noticeFails then b
  else
    match st.nodes with
    | [] => b
    | node :: _ =>
        match b.sendCard r.card r.cardFaults r.sent u node st with
        | (b, none) => b
        | (b, some st) =>
            if r.persistFails then b else b.persist u (st.sessionDate.getD r.persistDay) st

/-- What a press of the study button meets. -/
structure StartInputs where
  zone : Zone
  throttled : Bool := false
  userFails : Bool := false
  today : Day
  gate : GateInputs
  resume : ResumeInputs
  /-- The owner, with limits bypassed. -/
  bypass : Bool := false
  consumeFails : Bool := false
  slotDay : Day
  /-- `max_sessions` of the plan. -/
  limit : Int
  /-- `cards_per_session_for_plan`. -/
  maxNodes : Int
  now : Instant
  buildFails : Bool := false
  emptyNoticeFails : Bool := false
  clearFails : Bool := false
  persistFails : Bool := false
  card : CardInputs
  cardFaults : CardFaults := {}
  sent : Option MessageId
  sentPersistFails : Bool := false
  cleanupFails : Bool := false
  releaseFails : Bool := false
  releaseDay : Day

/-- The clean-up of a start that failed. -/
def abandon (b : Robot K) (i : StartInputs) (u : UserId) : Robot K :=
  (b.setSession u none).clearRow u i.cleanupFails

def setQuota (b : Robot K) (q : QuotaStore) : Robot K :=
  { b with db := { b.db with toQuotaStore := q } }

/-- The `finally` of a start that delivered nothing. -/
def releaseSlot (b : Robot K) (i : StartInputs) (u : UserId) (consumed : Bool) : Robot K :=
  if consumed ∧ i.releaseFails = false then
    b.setQuota (b.db.toQuotaStore.releaseSessionSlot i.releaseDay u)
  else b

def freshState (nodes : List SessionNode) (context : Option Tier3Context) (plan : String)
    (today : Day) : SessionState K where
  nodes := nodes
  totalCards := nodes.length
  tier3Context := context
  studyMsgId := none
  plan := plan
  gradedWordIds := []
  beforeStability := []
  frozen := {}
  sessionDate := some today

/-- `clear_session_grades`, with the record of it. -/
def clearGrades (b : Robot K) (u : UserId) : Robot K :=
  { b with db := b.db.clearSessionGrades u, history := .cleared u :: b.history }

/-- The first card of a fresh session: persist, render, send, persist. -/
def deliverFirst (b : Robot K) (i : StartInputs) (u : UserId) (consumed : Bool) (node : SessionNode)
    (st : SessionState K) : Robot K :=
  let b := b.setSession u (some st)
  if i.persistFails then (b.abandon i u).releaseSlot i u consumed
  else
    match (b.persist u i.today st).sendCard i.card i.cardFaults i.sent u node st with
    | (b, none) => (b.abandon i u).releaseSlot i u consumed
    | (b, some st) =>
        if i.sentPersistFails then b else b.persist u (st.sessionDate.getD i.today) st

section Queues
variable [Field K] [LinearOrder K] [Elementary K]

/-- The fresh build of `handle_study_start`, past its quota check. -/
def buildFresh (b : Robot K) (i : StartInputs) (u : UserId) (row : User) (consumed : Bool) : Robot K :=
  if i.buildFails then (b.abandon i u).releaseSlot i u consumed
  else
    let plan := if row.plan.getD "" = "" then "free" else row.plan.getD ""
    let built := b.db.toWordStore.buildSessionList i.zone i.now u row.targetLang row.goal row.level
      plan i.maxNodes
    match built.1 with
    | [] => (if i.emptyNoticeFails then b.abandon i u else b).releaseSlot i u consumed
    | node :: _ =>
        if i.clearFails then (b.abandon i u).releaseSlot i u consumed
        else (b.clearGrades u).deliverFirst i u consumed node
          (freshState built.1 built.2 plan i.today)

/-- The quota check of `handle_study_start`. -/
def startFresh (b : Robot K) (i : StartInputs) (u : UserId) (row : User) : Robot K :=
  if i.bypass then b.buildFresh i u row false
  else if i.consumeFails then b
  else
    match b.db.toQuotaStore.consumeSessionSlot i.slotDay u i.limit with
    | (_, false) => b
    | (q, true) => (b.setQuota q).buildFresh i u row true

def handleStudyStart (b : Robot K) (i : StartInputs) (u : UserId) : Robot K :=
  if i.throttled ∨ i.userFails then b
  else
    match b.db.users.lookup u with
    | none => b
    | some row =>
        if row.onboarded = false then b
        else
          match b.getActiveSession i.gate u with
          | (b, none) => b.startFresh i u row
          | (b, some st) =>
              if st.nodes = [] then b.startFresh i u row
              else b.resumeExistingSession i.resume u st

end Queues

end Robot

/-! ## The bot as a machine -/

/-- An update, a restart of the process, or a change of `saved_words` by another
part of the bot. -/
inductive Event (K : Type)
  | start (u : UserId) (i : Robot.StartInputs)
  | review (u : UserId) (t : Robot.TapInputs)
  | firstExposure (u : UserId) (t : Robot.TapInputs)
  | reveal (u : UserId) (i : Robot.RevealInputs)
  | deleteKeyboard (u : UserId) (g : Robot.GateInputs) (targetUserId : UserId) (w : WordId)
  | deleteYes (u : UserId) (i : Robot.DeleteInputs)
  | restart
  | words (savedWords : SerialTable (SavedWord K) SavedWord.id)

section Machine
variable [Field K] [LinearOrder K] [FloorRing K] [Elementary K]

def Robot.step (b : Robot K) : Event K → Robot K
  | .start u i => b.handleStudyStart i u
  | .review u t => b.handleSrsReview t u
  | .firstExposure u t => b.handleFirstExposureGrade t u
  | .reveal u i => b.handleSrsReveal i u
  | .deleteKeyboard u g target w => b.handleSrsDeleteKeyboard g u target w
  | .deleteYes u i => b.handleSrsDeleteYes i u
  | .restart => { b with userData := fun _ => {} }
  | .words savedWords => { b with db := { b.db with savedWords := savedWords } }

end Machine

end HamZaboon
