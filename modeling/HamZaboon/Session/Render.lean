import HamZaboon.Session.State
import HamZaboon.Cards.Prompt
import HamZaboon.Reviews.Events

/-! # Rendering a session card

`_build_card_text_and_keyboard` and `_render_first_exposure` of
`handlers/study_handler.py`.  Rendering is not pure: it freezes the prompt it
draws in the session state, takes the stability snapshot, and stashes telemetry
in the user's context, before it formats anything that may raise.
-/

namespace HamZaboon
open Library

/-- What a render reads besides the tables of the study session: the clock, the
random source, and the learner's settings. -/
structure CardInputs where
  alphabet : Alphabet
  random : Source
  now : Instant
  /-- `_session_number`. -/
  sessionNumber : Int
  /-- `resolve_card_mode(user_id, "review")`. -/
  reviewMode : CardMode
  /-- `resolve_card_mode(user_id, "first_exposure")`. -/
  firstExposureMode : CardMode
  /-- `get_display_toggles`. -/
  toggles : Toggles

/-- Which database reads of a render fail. -/
structure CardFaults where
  row : Bool := false
  sessionNumber : Bool := false
  mode : Bool := false
  toggles : Bool := false
  /-- The count behind the review badge; its failure is swallowed. -/
  priorCount : Bool := false
  deriving DecidableEq, Repr

/-- A render that raises nothing of its own but has no database to read. -/
inductive RenderError
  | database
  | draw (e : DrawError)
  deriving DecidableEq, Repr

/-- The keyboards of a session card, by the builders that make them. -/
inductive Keyboard
  | srsFront (userId : UserId) (wordId : WordId)
  | review (userId : UserId) (wordId : WordId)
  | firstExposure (userId : UserId) (wordId : WordId)
  deriving DecidableEq, Repr

abbrev Rendering := Except RenderError (String × Keyboard)

/-- The keys `revealed_{word_id}` and `card_shown_at_{word_id}` of the user's
context. -/
structure Telemetry where
  revealed : List WordId := []
  cardShownAt : List (WordId × Instant) := []
  deriving DecidableEq, Repr

structure Screen (K : Type) where
  state : SessionState K
  telemetry : Telemetry
  deriving DecidableEq, Repr

variable {K : Type}

/-- `get_saved_word`, with an owner. -/
def WordStore.getSavedWord (s : WordStore K) (wordId : WordId) (userId : UserId) :
    Option (SavedWord K) :=
  s.savedWords.rows.find? (fun w => w.card = (userId, wordId))

def savedWordCard (row : SavedWord K) : CardData :=
  match row.cardData with
  | .val card => card
  | _ =>
      { word := some row.word
        faMeaning := "این واژه قبلاً بدون کارت کامل ذخیره شده است."
        faExplanation := "معنی و مثال کامل در داده‌های قدیمی موجود نیست؛ خودت معنی را یادآوری کن." }

/-- The card a node shows, from the word's row as it is now. -/
def cardOf (row : Option (SavedWord K)) (node : SessionNode) : CardData :=
  (match row with
    | some row => savedWordCard row
    | none => {}).setDefaultWord node.word

/-- `node.source_id or 0`. -/
def SessionNode.wordId (node : SessionNode) : WordId := node.sourceId.getD 0

/-- The snapshot of the pre-grade stability, taken once per word. -/
def SessionState.snapshotStability (st : SessionState K) (wordId : WordId)
    (row : Option (SavedWord K)) : SessionState K :=
  if wordId ≠ 0 ∧ st.beforeStability.all (fun e => e.1 ≠ wordId) then
    match row.bind (·.stability) with
    | some stability =>
        { st with beforeStability := st.beforeStability ++ [(wordId, stability)] }
    | none => st
  else st

/-- The number of the card on the screen, the `n` of the progress footer. -/
def SessionState.cardNumber (st : SessionState K) : Int :=
  let remaining : Int := st.nodes.length
  st.totalCards - remaining + 1

def sessionProgressFooter (st : SessionState K) (sessionNumber : Int) : String :=
  "نشست " ++ toPersianDigits sessionNumber ++ " | کارت " ++ toPersianDigits st.cardNumber ++
    " از " ++ toPersianDigits st.totalCards

def daysSinceReview (lastReviewAt : Column Instant) (now : Instant) : Option Int :=
  lastReviewAt.get?.map fun last => max 0 ((now - last) / 86400000000)

def WordStore.reviewBadgeForCard (s : WordStore K) (w : CardInputs) (faults : CardFaults)
    (userId : UserId) (wordId : WordId) (row : Option (SavedWord K)) : String :=
  let prior := if faults.priorCount ∨ wordId = 0 then 0 else s.countReviewEventsForCard userId wordId
  let n : Int := if prior = 0 then 0 else prior + 1
  formatReviewBadge (row.bind fun r => daysSinceReview r.lastReviewAt w.now) n

/-- The frozen prompt, when it is this word's. -/
def Frozen.forWord (f : Frozen) (wordId : WordId) : Option (PromptType × Bool) :=
  if f.promptWordId = some wordId then f.promptType.map (·, f.revealed) else none

/-- The state `_frozen_for_word` leaves: a frozen word without a prompt type is
cleared to the front. -/
def SessionState.checkFrozen (st : SessionState K) (wordId : WordId) : SessionState K :=
  if st.frozen.promptWordId = some wordId ∧ st.frozen.promptType = none then
    { st with frozen := ⟨false, none, none⟩ }
  else st

/-- The freeze an immediate render drops. -/
def SessionState.dropFreeze (st : SessionState K) (wordId : WordId) : SessionState K :=
  if st.frozen.promptWordId = some wordId then { st with frozen := ⟨false, none, none⟩ } else st

def SessionState.freeze (st : SessionState K) (wordId : WordId) (promptType : PromptType) :
    SessionState K :=
  { st with frozen := ⟨false, some promptType, some wordId⟩ }

/-- `_stash_frozen_user_data`. -/
def Telemetry.stash (t : Telemetry) (wordId : WordId) (revealed : Bool) (now : Instant) :
    Telemetry where
  revealed :=
    if revealed then (if wordId ∈ t.revealed then t.revealed else wordId :: t.revealed)
    else t.revealed.filter (· ≠ wordId)
  cardShownAt :=
    if t.cardShownAt.any (fun e => e.1 = wordId) then t.cardShownAt
    else (wordId, now) :: t.cardShownAt

def frontRendering (front : Drawn String) (source : Source) (keyboard : Keyboard) : Rendering :=
  match front source with
  | .ok (text, _) => .ok (text, keyboard)
  | .error e => .error (.draw e)

/-- The two renders of a card in one mode.  A review card and a first-exposure
card differ in their badges and in the grid under the back stage. -/
def renderCard (w : CardInputs) (faults : CardFaults) (mode : CardMode) (userId : UserId)
    (wordId : WordId) (card : CardData) (footer frontBadge backBadge : String) (grid : Keyboard)
    (screen : Screen K) : Screen K × Rendering :=
  let phonetic := phoneticLines w.alphabet card.phonetic
  let back := formatSrsBackStage card w.toggles phonetic footer backBadge
  let front := fun (promptType : PromptType) (source : Source) =>
    frontRendering
      (formatSrsFrontStage w.alphabet card promptType w.toggles phonetic frontBadge footer)
      source (.srsFront userId wordId)
  if faults.mode then (screen, .error .database)
  else match mode with
  | .immediate =>
      let shown := { screen with state := screen.state.dropFreeze wordId }
      if faults.toggles then (shown, .error .database) else (shown, .ok (back, grid))
  | .staged =>
      if faults.toggles then (screen, .error .database)
      else match screen.state.frozen.forWord wordId with
      | some (promptType, revealed) =>
          let shown := { screen with telemetry := screen.telemetry.stash wordId revealed w.now }
          if revealed then (shown, .ok (back, grid)) else (shown, front promptType w.random)
      | none =>
          let cleared := { screen with state := screen.state.checkFrozen wordId }
          match selectSrsPromptType w.alphabet card w.toggles w.random with
          | .error e => (cleared, .error (.draw e))
          | .ok (promptType, source) =>
              -- frozen before the front stage is formatted
              ({ state := cleared.state.freeze wordId promptType
                 telemetry := cleared.telemetry.stash wordId false w.now },
                front promptType source)

def renderFirstExposure (w : CardInputs) (faults : CardFaults) (userId : UserId) (wordId : WordId)
    (card : CardData) (footer : String) (screen : Screen K) : Screen K × Rendering :=
  renderCard w faults w.firstExposureMode userId wordId card footer newCardBadge newCardBadge
    (.firstExposure userId wordId) screen

/-- The review branch of `_build_card_text_and_keyboard`. -/
def renderReview (s : WordStore K) (w : CardInputs) (faults : CardFaults) (userId : UserId)
    (wordId : WordId) (row : Option (SavedWord K)) (card : CardData) (footer : String)
    (screen : Screen K) : Screen K × Rendering :=
  renderCard w faults w.reviewMode userId wordId card footer
    (s.reviewBadgeForCard w faults userId wordId row) "" (.review userId wordId) screen

/-- `_build_card_text_and_keyboard`. -/
def buildCard (s : WordStore K) (w : CardInputs) (faults : CardFaults) (userId : UserId)
    (node : SessionNode) (screen : Screen K) : Screen K × Rendering :=
  if faults.row then (screen, .error .database)
  else
    let row := s.getSavedWord node.wordId userId
    let card := cardOf row node
    let screen := { screen with state := screen.state.snapshotStability node.wordId row }
    if faults.sessionNumber then (screen, .error .database)
    else
      let footer := sessionProgressFooter screen.state w.sessionNumber
      if node.activityType = .firstExposure then
        renderFirstExposure w faults userId node.wordId card footer screen
      else renderReview s w faults userId node.wordId row card footer screen

def CardInputs.modeOf (w : CardInputs) (node : SessionNode) : CardMode :=
  if node.activityType = .firstExposure then w.firstExposureMode else w.reviewMode

end HamZaboon
