import HamZaboon.Library.Table
import HamZaboon.Cards.Card

/-! # The bot's database

The tables of `services/db/schema.py` that the study session, the review
history and the daily quotas read and write.  Every `PRIMARY KEY` and every
`AUTOINCREMENT` of the schema is carried by the table type (`Library.Table`),
so a database with two ledger rows for one key, or two words with one id, is
not a value of `Db`.

Timestamps are UTC instants in microseconds and dates are day ordinals; the
database stores their ISO texts, whose byte order is the order of the instants
and days.  A text column that may hold anything is a `Column`.  `K` is the
number type of the two scheduling columns (`REAL` in SQLite).
-/

namespace HamZaboon
open Library

abbrev UserId := Nat
/-- `saved_words.id`. -/
abbrev WordId := Nat
abbrev Instant := Int
/-- A calendar day of the application time zone. -/
abbrev Day := Int

/-- What a text column holds when it is read as a value of type `α`: nothing, a
text that does not parse, or a value. -/
inductive Column (α : Type)
  | null
  | junk
  | val (a : α)
  deriving DecidableEq, Repr

/-- The value, when the text parses. -/
def Column.get? {α : Type} : Column α → Option α
  | .val a => some a
  | _ => none

/-- Truthiness of the column in Python: any nonempty text. -/
def Column.present {α : Type} : Column α → Bool
  | .null => false
  | _ => true

/-- The keys of `GRADE_POLICIES`. -/
inductive ActivityType
  | srsReview
  | firstExposure
  | newAiCard
  | aiQuiz
  | sentenceWrite
  deriving DecidableEq, Repr

/-- `REVIEW_OUTCOMES`. -/
inductive Outcome
  | recalled
  | recalledAfterPeek
  | again
  deriving DecidableEq, Repr

inductive ReviewStatus
  | idle
  | pending
  deriving DecidableEq, Repr

/-- A row of `saved_words`. -/
structure SavedWord (K : Type) where
  id : WordId
  userId : UserId
  word : String
  lang : String
  /-- Unique with `userId` and `lang`. -/
  normalizedWord : String
  cardData : Column CardData
  reviewStatus : Option ReviewStatus
  reviewRequestedAt : Option Instant
  addedAt : Option Instant
  firstExposureDone : Option Bool
  stability : Option K
  difficulty : Option K
  /-- `entry_source = 'manual'`. -/
  entryManual : Bool
  lastReviewAt : Column Instant
  nextReviewAt : Column Instant
  nextReview : Column Day
  retryAt : Option Instant
  srsRetryAttempts : Nat
  totalReviews : Nat
  lapses : Nat
  deriving DecidableEq

/-- The row `add_saved_word` inserts, before the table numbers it. -/
def newSavedWord {K : Type} [Zero K] [OfNat K 5] (userId : UserId)
    (word lang normalizedWord : String) (cardData : Column CardData) (nextReview : Day)
    (entryManual : Bool) (addedAt : Instant) (id : WordId) : SavedWord K where
  id := id
  userId := userId
  word := word
  lang := lang
  normalizedWord := normalizedWord
  cardData := cardData
  reviewStatus := some .idle
  reviewRequestedAt := none
  addedAt := some addedAt
  firstExposureDone := some false
  stability := some 0
  difficulty := some 5
  entryManual := entryManual
  lastReviewAt := .null
  nextReviewAt := .null
  nextReview := .val nextReview
  retryAt := none
  srsRetryAttempts := 0
  totalReviews := 0
  lapses := 0

/-- A row of `review_events`. -/
structure ReviewEvent where
  id : Nat
  wordId : WordId
  userId : UserId
  grade : Option Int
  activityType : Option ActivityType
  gradeSource : Option String
  rawSignal : Option String
  responseTimeMs : Option Int
  outcome : Outcome
  createdAt : Instant
  deriving DecidableEq, Repr

/-- A row of `session_grade_ledger`. -/
structure LedgerRow where
  userId : UserId
  wordId : WordId
  activityType : ActivityType
  gradedAt : Instant
  deriving DecidableEq, Repr

/-- The primary key of `session_grade_ledger`. -/
def LedgerRow.key (r : LedgerRow) : UserId × WordId × ActivityType :=
  (r.userId, r.wordId, r.activityType)

/-- The columns of a `users` row that the modelled operations read or write. -/
structure User where
  userId : UserId
  onboarded : Bool
  plan : Option String
  targetLang : Option String
  goal : Option String
  level : Option String
  streak : Option Int
  lastActiveDate : Option Day
  wordsAskedToday : Option Int
  wordsAskedDate : Option Day
  grammarTipsAskedToday : Option Int
  grammarTipsAskedDate : Option Day
  deriving DecidableEq, Repr

end HamZaboon
