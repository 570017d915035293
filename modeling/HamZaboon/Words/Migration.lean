import HamZaboon.Library.Grouping
import HamZaboon.Library.Ranking
import HamZaboon.Library.Table
import HamZaboon.Texts.Unicode
import HamZaboon.Words.IsoText
import Mathlib.Data.Int.ConditionallyCompleteOrder
import Mathlib.Order.WithBot

/-! # The migration of the saved words

`services/db/schema.py`, the part of `init_db` that gives every saved word its
normalized key: rows without a key get `lower(trim(word))`, of the rows under
one key the smallest id is kept, then `_backfill_saved_word_normalization` keeps
the most recently active row under each `normalize_word` key, and last comes the
unique index.  A table may have the index before; every statement is checked
against it then.
-/

namespace HamZaboon
open Library

/-- A row of `saved_words` before the migration; the columns the migration reads. -/
structure LegacyWord where
  id : WordId
  userId : Option UserId
  word : Option String
  lang : Option String
  normalizedWord : Option String
  addedAt : Option String
  lastReviewAt : Option String
  deriving DecidableEq, Repr

namespace LegacyWord

/-- What `GROUP BY user_id, lang, normalized_word` compares; nulls are equal. -/
def groupKey (r : LegacyWord) : Option UserId × Option String × Option String :=
  (r.userId, r.lang, r.normalizedWord)

/-- What the unique index compares; a row with a null is not compared. -/
def indexKey (r : LegacyWord) : Option (UserId × String × String) :=
  match r.userId, r.lang, r.normalizedWord with
  | some user, some lang, some normalized => some (user, lang, normalized)
  | _, _, _ => none

/-- `lower(trim(word))`: blanks are trimmed, and ASCII letters have a lower case. -/
def lowerTrim (word : String) : String :=
  String.ofList ((trim (fun c => c = ' ') word.toList).map Char.toLower)

/-- `SET normalized_word=lower(trim(word)) WHERE normalized_word IS NULL`, for one row. -/
def fill (r : LegacyWord) : LegacyWord :=
  if r.normalizedWord = none then { r with normalizedWord := r.word.map lowerTrim } else r

/-- `_parse_activity` of a text that is not empty. -/
def parseActivity (value : String) : WithBot Instant :=
  match datetimeFromisoformat value.toList with
  | none => ⊥
  | some parsed => (parsed.instant : Instant)

/-- `_activity`: the first of the two times that is there. -/
def activity (r : LegacyWord) : WithBot Instant :=
  match [r.lastReviewAt, r.addedAt].find? fun value => value.getD "" ≠ "" with
  | some (some value) => parseActivity value
  | _ => ⊥

/-- `key=_activity, reverse=True`. -/
def byActivity (r : LegacyWord) : OrderDual (WithBot Instant) := OrderDual.toDual r.activity

end LegacyWord

/-- No two rows have the same key in the unique index. -/
def UniqueKeys (rows : List LegacyWord) : Prop :=
  ∀ a ∈ rows, ∀ b ∈ rows, a.indexKey ≠ none → a.indexKey = b.indexKey → a.id = b.id

instance (rows : List LegacyWord) : Decidable (UniqueKeys rows) :=
  inferInstanceAs (Decidable (∀ a ∈ rows, ∀ b ∈ rows, _ → _ → _))

/-- `saved_words`, and whether it has the index `saved_words_user_lang_word`. -/
structure WordTable where
  rows : SerialTable LegacyWord LegacyWord.id
  indexed : Bool
  unique : indexed = true → UniqueKeys rows.rows

namespace WordTable

/-- The table with these rows, unless the index refuses them. -/
def checked (rows : SerialTable LegacyWord LegacyWord.id) (indexed : Bool) : Option WordTable :=
  if h : indexed = true → UniqueKeys rows.rows then some ⟨rows, indexed, h⟩ else none

/-- `UPDATE … SET f WHERE p`. -/
def update (t : WordTable) (p : LegacyWord → Bool) (f : LegacyWord → LegacyWord)
    (hf : ∀ r, (f r).id = r.id) : Option WordTable :=
  checked (t.rows.updateWhere p f hf) t.indexed

/-- `DELETE … WHERE p`. -/
def delete (t : WordTable) (p : LegacyWord → Bool) : WordTable where
  rows := t.rows.deleteWhere p
  indexed := t.indexed
  unique h a ha b hb :=
    t.unique h a (List.mem_of_mem_filter ha) b (List.mem_of_mem_filter hb)

/-- `CREATE UNIQUE INDEX IF NOT EXISTS`. -/
def createIndex (t : WordTable) : Option WordTable := checked t.rows true

/-- The update of the rows without a key. -/
def fillKeys (t : WordTable) : Option WordTable :=
  t.update (fun r => r.normalizedWord = none) LegacyWord.fill fun r => by
    unfold LegacyWord.fill
    split <;> rfl

def Smallest (rows : List LegacyWord) (r : LegacyWord) : Prop :=
  ∀ other ∈ rows, other.groupKey = r.groupKey → r.id ≤ other.id

instance (rows : List LegacyWord) (r : LegacyWord) : Decidable (Smallest rows r) :=
  inferInstanceAs (Decidable (∀ other ∈ rows, _ → _))

/-- `DELETE … WHERE id NOT IN (SELECT MIN(id) … GROUP BY …)`. -/
def dedupe (t : WordTable) : WordTable := t.delete fun r => !decide (Smallest t.rows.rows r)

/-- The updates of the backfill, one after the other. -/
def writeKeys (t : WordTable) : List (Option String × WordId) → Option WordTable
  | [] => some t
  | (key, id) :: updates =>
    (t.update (fun r => r.id = id) (fun r => { r with normalizedWord := key }) fun _ => rfl).bind
      fun t => writeKeys t updates

end WordTable

namespace UnicodeLib
variable (lib : UnicodeLib)

/-- The key of a group of the backfill; a row without a word has none. -/
def wordKey (r : LegacyWord) : Option (Option UserId × Option String × String) :=
  r.word.map fun word => (r.userId, r.lang, lib.normalizeWord word)

/-- The groups of the backfill, each with its most recently active row first. -/
def rankedGroups (rows : List LegacyWord) : List (List LegacyWord) :=
  (groupBy lib.wordKey [] rows).map fun group => sortBy LegacyWord.byActivity group.2

def keepers (rows : List LegacyWord) : List LegacyWord :=
  (lib.rankedGroups rows).filterMap List.head?

/-- `deletes`. -/
def staleIds (rows : List LegacyWord) : List WordId :=
  (lib.rankedGroups rows).flatMap fun items => items.tail.map LegacyWord.id

/-- The row with its `normalize_word` key. -/
def renorm (r : LegacyWord) : LegacyWord :=
  { r with normalizedWord := r.word.map lib.normalizeWord }

/-- `updates`, for the rows that are kept. -/
def keyUpdates (kept : List LegacyWord) : List (Option String × WordId) :=
  kept.filterMap fun keeper =>
    let normalized := (lib.renorm keeper).normalizedWord
    if keeper.normalizedWord ≠ normalized then some (normalized, keeper.id) else none

/-- `_backfill_saved_word_normalization`; `done` is the marker in the settings. -/
def backfill (done : Bool) (t : WordTable) : Option WordTable :=
  if done then some t
  else
    let rows := t.rows.rows
    (t.delete fun r => r.id ∈ lib.staleIds rows).writeKeys (lib.keyUpdates (lib.keepers rows))

/-- The migration in `init_db`; nothing is left when a statement is refused. -/
def initWords (done : Bool) (t : WordTable) : Option WordTable :=
  t.fillKeys.bind fun t => (lib.backfill done t.dedupe).bind WordTable.createIndex

end UnicodeLib

end HamZaboon
