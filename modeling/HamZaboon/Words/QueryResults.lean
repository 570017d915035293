import HamZaboon.Words.GradeTransaction
import HamZaboon.Texts.Unicode

/-! # Saving words from query results

The cache `query_results` (`services/db/query_results.py`) next to the words that
are saved from it: `add_saved_word`, `toggle_review_word` and `delete_saved_word`
(`services/db/words.py`), `toggle_save` (`services/word_query.py`), and the reset
of a user.  A result carries two marks of having been saved, the time `saved_at`
and the pointer `saved_word_id`.
-/

namespace HamZaboon
open Library

/-- `query_results.result_json`, as `toggle_save` reads it. -/
inductive ResultJson
  | unreadable
  /-- JSON, but no object. -/
  | other
  | card (data : CardData)
  deriving DecidableEq, Repr

/-- The card of a readable result, if it is one. -/
def ResultJson.cardData? : ResultJson → Option CardData
  | .card data => some data
  | _ => none

/-- A row of `query_results`. -/
structure QueryResult where
  token : String
  userId : UserId
  queryText : String
  word : String
  lang : String
  resultJson : ResultJson
  createdAt : Instant
  expiresAt : Instant
  savedAt : Option Instant
  savedWordId : Option WordId
  deriving DecidableEq, Repr

/-- The row `create_query_result` inserts. -/
def newQueryResult (token : String) (userId : UserId) (queryText word lang : String)
    (result : CardData) (createdAt expiresAt : Instant) : QueryResult where
  token := token
  userId := userId
  queryText := queryText
  word := word
  lang := lang
  resultJson := .card result
  createdAt := createdAt
  expiresAt := expiresAt
  savedAt := none
  savedWordId := none

/-- The columns `mark_query_result_saved` sets. -/
def QueryResult.mark (now : Instant) (savedWordId : Option WordId) (q : QueryResult) :
    QueryResult :=
  { q with savedAt := q.savedAt.or (some now), savedWordId := q.savedWordId.or savedWordId }

/-- Without the marks of having been saved. -/
def QueryResult.detach (q : QueryResult) : QueryResult :=
  { q with savedAt := none, savedWordId := none }

theorem token_mark (now : Instant) (savedWordId : Option WordId) (q : QueryResult) :
    (q.mark now savedWordId).token = q.token := rfl

theorem token_detach (q : QueryResult) : q.detach.token = q.token := rfl

/-- The database of the study flow with the cached query results. -/
structure QueryDb (K : Type) extends Db K where
  queryResults : KeyedTable String QueryResult QueryResult.token

variable {K : Type}

/-- The columns of the unique index of `saved_words`. -/
def SavedWord.indexKey (w : SavedWord K) : UserId × String × String :=
  (w.userId, w.lang, w.normalizedWord)

/-- The index key of the word that a query result is about. -/
def QueryResult.wordKey (lib : UnicodeLib) (q : QueryResult) : UserId × String × String :=
  (q.userId, q.lang, lib.normalizeWord q.word)

/-- The word stored under an index key. -/
def Db.savedUnder (db : Db K) (key : UserId × String × String) : Option (SavedWord K) :=
  db.savedWords.rows.find? (fun w => w.indexKey = key)

/-! ## Saving and removing words -/

section Saving
variable [Zero K] [OfNat K 5]

/-- `INSERT INTO saved_words`, of a word that is not there. -/
def Db.insertWord (db : Db K) (lib : UnicodeLib) (userId : UserId) (word lang : String)
    (card : Option CardData) (entryManual : Bool) (today : Day) (now : Instant) : Db K :=
  { db with
    savedWords := db.savedWords.insert
      (newSavedWord userId (lib.collapse word) lang (lib.normalizeWord word)
        (match card with | some c => .val c | none => .null) (today + 1) entryManual now)
      (fun _ => rfl) }

/-- `card_data=COALESCE(card_data, ?)`. -/
def SavedWord.fillCard (c : CardData) (w : SavedWord K) : SavedWord K :=
  { w with cardData := match w.cardData with | .null => .val c | data => data }

/-- `add_saved_word`; `true` when it inserts a row. -/
def Db.addSavedWord (db : Db K) (lib : UnicodeLib) (userId : UserId) (word lang : String)
    (card : Option CardData) (entryManual : Bool) (today : Day) (now : Instant) : Db K × Bool :=
  let key := (userId, lang, lib.normalizeWord word)
  if lib.normalizeWord word = "" then (db, false)
  else
    match db.savedUnder key, card with
    | none, _ => (db.insertWord lib userId word lang card entryManual today now, true)
    | some _, none => (db, false)
    | some _, some c =>
        ({ db with
            savedWords := db.savedWords.updateWhere (fun w => w.indexKey = key) (·.fillCard c)
              (fun _ => rfl) }, false)

/-- What `toggle_review_word` returns. -/
inductive ToggleState
  | saved
  | removed
  deriving DecidableEq, Repr

def Db.toggleReviewWord (db : Db K) (lib : UnicodeLib) (userId : UserId) (word lang : String)
    (card : Option CardData) (entryManual : Bool) (today : Day) (now : Instant) :
    Db K × ToggleState :=
  if lib.normalizeWord word = "" then (db, .removed)
  else
    match db.savedUnder (userId, lang, lib.normalizeWord word) with
    | some existing =>
        ({ db with savedWords := db.savedWords.deleteWhere (fun w => w.id = existing.id) }, .removed)
    | none => (db.insertWord lib userId word lang card entryManual today now, .saved)

end Saving

namespace QueryDb

/-! ## The cache -/

def queryResultsCap : Nat := 100

/-- The unexpired results of a user and language. -/
def liveResults (db : QueryDb K) (userId : UserId) (lang : String) (now : Instant) :
    List QueryResult :=
  db.queryResults.rows.filter fun q => q.userId = userId && q.lang = lang && now < q.expiresAt

/-- `_enforce_query_results_cap`: the oldest results beyond the cap go, except
the one of `exclude`. -/
def enforceQueryResultsCap (db : QueryDb K) (userId : UserId) (lang : String)
    (exclude : Option String) (now : Instant) : QueryDb K :=
  let live := db.liveResults userId lang now
  let victims :=
    ((live.filter fun q => exclude.all (fun t => t = "" || q.token ≠ t)).insertionSort
      (fun a b => a.createdAt ≤ b.createdAt)).take (live.length - queryResultsCap)
  { db with
    queryResults := db.queryResults.deleteWhere (fun q => victims.any (fun v => v.token = q.token)) }

/-- `create_query_result`, with the token it draws; a token that is taken fails
the insert. -/
def createQueryResult (db : QueryDb K) (lib : UnicodeLib) (token : String) (userId : UserId)
    (queryText word lang : String) (result : CardData) (ttl : Int) (exclude : Option String)
    (now : Instant) : QueryDb K :=
  if db.queryResults.has token then db
  else
    let row := newQueryResult token userId (lib.normalizeWord queryText) (lib.normalizeWord word)
      lang result now (now + ttl * 1000000)
    { db with queryResults := db.queryResults.insertOrIgnore row }.enforceQueryResultsCap userId lang
      exclude now

/-- `get_query_result`, for a user. -/
def getQueryResult (db : QueryDb K) (token : String) (userId : UserId) (now : Instant) :
    Option QueryResult :=
  (db.queryResults.lookup token).filter fun q => q.userId = userId && now < q.expiresAt

def markQueryResultSaved (db : QueryDb K) (token : String) (savedWordId : Option WordId)
    (now : Instant) : QueryDb K :=
  { db with
    queryResults := db.queryResults.updateWhere (fun q => q.token = token) (·.mark now savedWordId)
      (token_mark now savedWordId) }

def clearQueryResultSaved (db : QueryDb K) (token : String) : QueryDb K :=
  { db with
    queryResults := db.queryResults.updateWhere (fun q => q.token = token) (·.detach) token_detach }

def cleanupExpiredQueryResults (db : QueryDb K) (now : Instant) : QueryDb K :=
  { db with queryResults := db.queryResults.deleteWhere (fun q => q.expiresAt ≤ now) }

/-! ## The operations on words -/

/-- `toggle_save`; `none` when the result has expired or cannot be read. -/
def toggleSave [Zero K] [OfNat K 5] (db : QueryDb K) (lib : UnicodeLib) (token : String)
    (userId : UserId) (today : Day) (now : Instant) : QueryDb K × Option ToggleState :=
  match db.getQueryResult token userId now with
  | none => (db, none)
  | some row =>
      if row.resultJson = .unreadable then (db, none)
      else
        let toggled := db.toDb.toggleReviewWord lib userId row.word row.lang row.resultJson.cardData?
          true today now
        match toggled.2 with
        | .saved =>
            ({ db with toDb := toggled.1 }.markQueryResultSaved token none now, some .saved)
        | .removed => ({ db with toDb := toggled.1 }.clearQueryResultSaved token, some .removed)

/-- `delete_saved_word`, with the results it detaches. -/
def deleteSavedWord (db : QueryDb K) (wordId : WordId) (userId : UserId) : QueryDb K × Bool :=
  match db.toDb.deleteSavedWord wordId userId with
  | (_, false) => (db, false)
  | (rest, true) =>
      ({ db with
          toDb := rest
          queryResults := db.queryResults.updateWhere
            (fun q => q.savedWordId = some wordId && q.userId = userId) (·.detach) token_detach },
        true)

end QueryDb

end HamZaboon
