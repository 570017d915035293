import HamZaboon.Library.Latest
import HamZaboon.Precard.Glosses
import HamZaboon.Precard.JudgeStage
import HamZaboon.Precard.TopicSalvage

/-! # Labels of a batch

`label_batch` in `topics.py`.  Every pick of an item is an entry.  An entry that the cache
knows is resolved by it; the others go to the model in chunks, and what the model answers goes
into the cache, under the text, the gloss and the sense id of the entry.  A guard may replace the
label of a row.  In the end the rows are folded back under the items: the first pick is the row
of its item, and the others are its extras.

What a chunk gets is the script of the run: the reply that its labels are taken from, nothing,
or an error that ends the run.
-/

namespace HamZaboon
open Library

/-! ## The guard -/

def animalsLabel : String := "Animals & Living Beings"

def otherAbstract : String := "Other / Abstract"

/-- The words of `_GENDER_BIO_SRC`. -/
def genderBio : List String :=
  ["biological sex", "reproduct", "anatom", "hormon", "menstruat", "pregnan"]

/-- The words of `_GENDER_SIGNAL_SRC`. -/
def genderSignal : List String :=
  ["gender", "sex", "male", "female", "masculine", "feminine", "man", "men", "woman", "women"]

def abstractReanchor : List (String × List (List String × String)) :=
  [("call", [(["telephone", "phone"], "Science & Technology"), ([], "Society")]),
    ("working", [(["employ", "job", "work"], "Work & Careers")]),
    ("spectacle", [(["perform", "show", "event", "display"], "Society")]),
    ("accrue", [(["accumulat", "money", "interest", "financ"], "Business & Economy")]),
    ("elevate", [(["lift", "raise"], "Daily Life & Home")])]

section Guard
variable (py : GlossText)

def topicPostGuard (text gloss label : String) : String :=
  let lab := py.strip label
  let word := py.lower (py.strip text)
  let lowered := py.lower gloss
  if lab = animalsLabel then
    if hasWholeWord py.toPyText genderSignal (word ++ " " ++ lowered) then
      if hasWholeWord py.toPyText genderBio gloss then "Health & Body" else "Society"
    else lab
  else if lab = otherAbstract then
    (((abstractReanchor.lookup word).getD []).find? fun (keywords, _) =>
      keywords = [] || keywords.any fun k => k.toList <:+: lowered.toList).elim lab (·.2)
  else lab

end Guard

/-! ## Rows -/

/-- A weighted label of a vector, with the item whose topic vectors it was taken from. -/
structure VectorEntry where
  label : String
  weight : ℚ
  origin : Option String
  deriving DecidableEq

/-- A vector of a reply or of the cache. -/
def plainVector (vector : List (String × ℚ)) : List VectorEntry :=
  vector.map fun e => ⟨e.1, e.2, none⟩

inductive TopicPath
  | cache
  | llm
  | unlabelled
  deriving DecidableEq, Repr

/-- The row of a sense; `method` is the same in all of them. -/
structure LabelRow where
  label : Option String
  vector : List VectorEntry
  topicPath : TopicPath
  topicGuarded : Bool
  deriving DecidableEq

/-- An entry of the expansion of a batch. -/
structure LabelEntry where
  itemKey : String
  primary : Bool
  text : String
  gloss : String
  senseId : String
  /-- `(vector_lookup or {}).get(sense_id)`, empty where there is none. -/
  known : List VectorEntry
  deriving DecidableEq

namespace LabelEntry

/-- `key`: that of the item, or a composite one for a secondary pick. -/
def key (e : LabelEntry) : String :=
  if e.primary then e.itemKey else e.itemKey ++ "\x1fs4x\x1f" ++ e.senseId

def cacheKey (e : LabelEntry) : String := e.text ++ "\t" ++ e.gloss ++ "\t" ++ e.senseId

/-- What the matching of a reply reads. -/
def topicEntry (e : LabelEntry) : TopicEntry := ⟨e.key, e.senseId, e.text⟩

/-- `label_unlabelled_result`. -/
def unlabelled (e : LabelEntry) : LabelRow := ⟨none, e.known, .unlabelled, false⟩

/-- `apply_topic_guard`. -/
def guarded (py : GlossText) (e : LabelEntry) (row : LabelRow) : LabelRow :=
  let label := topicPostGuard py e.text e.gloss (row.label.getD "")
  if label ≠ "" ∧ some label ≠ row.label then
    { row with
      label := some label
      vector := plainVector (singleTopicVector label)
      topicGuarded := true }
  else row

def labelled (py : GlossText) (e : LabelEntry) (label : TopicLabel) : LabelRow :=
  e.guarded py ⟨some label.label, plainVector label.vector, .llm, false⟩

end LabelEntry

/-! ## The cache -/

inductive CachedLabel
  /-- `vector` is empty where there is none. -/
  | record (label : String) (vector : List (String × ℚ))
  | text (label : String)
  | other
  deriving DecidableEq

abbrev LabelCache := List (String × CachedLabel)

def CachedLabel.row (e : LabelEntry) : CachedLabel → LabelRow
  | .record label vector =>
    if label = "" then e.unlabelled
    else
      ⟨some label,
        if vector ≠ [] then plainVector vector
        else if e.known ≠ [] then e.known
        else plainVector (singleTopicVector label), .cache, false⟩
  | .text label =>
    if label = "" ∨ label = otherAbstract then e.unlabelled
    else
      ⟨some label, if e.known ≠ [] then e.known else plainVector (singleTopicVector label), .cache,
        false⟩
  | .other => e.unlabelled

def labelCacheHit (cache : LabelCache) (e : LabelEntry) : Option LabelRow :=
  (cache.lookup e.cacheKey).map (·.row e)

/-! ## The expansion -/

/-- The picks that the fan-out delivers: one, or a few senses. -/
structure Fanout where
  picks : List SensePick
  ne_nil : picks ≠ []
  distinct : (picks.map (·.senseId)).Nodup
  named : 1 < picks.length → ∀ p ∈ picks, p.senseId ≠ ""

/-- What a run is given besides its script. -/
structure LabelCall where
  py : GlossText
  lib : TopicLib
  batch : List SampleItem
  picks : String → Fanout
  /-- `vector_lookups`. -/
  lookups : String → String → List VectorEntry

namespace LabelCall
variable (call : LabelCall)

/-- The sense id of a pick, `text#0` for a pick without one. -/
def senseIdOf (item : SampleItem) (sub : SensePick) : String :=
  if sub.senseId = "" then call.py.lower (call.py.strip item.text) ++ "#0" else sub.senseId

def entryOf (item : SampleItem) (sub : SensePick) (pos : Nat) : LabelEntry where
  itemKey := sourceItemKey item
  primary := pos = 0
  text := item.text
  gloss := sub.gloss
  senseId := call.senseIdOf item sub
  known := call.lookups (sourceItemKey item) (call.senseIdOf item sub)

def entriesOf (item : SampleItem) : List LabelEntry :=
  (call.picks (sourceItemKey item)).picks.zipIdx.map fun (sub, pos) => call.entryOf item sub pos

def expanded : List LabelEntry := call.batch.flatMap call.entriesOf

/-! ## The chunks -/

def pending (cache : LabelCache) : List LabelEntry :=
  call.expanded.filter fun e => (labelCacheHit cache e).isNone

/-- `LABEL_BATCH`. -/
def labelBatchWidth : Nat := 16

def chunksOf (pending : List LabelEntry) : List (List LabelEntry) :=
  (stageRange true pending.length labelBatchWidth).map fun base =>
    (pending.drop base).take labelBatchWidth

end LabelCall

/-- What a chunk gets: the labels of a reply, none, or an error. -/
inductive ChunkOutcome
  | best (reply : JsonValue)
  | nothing
  | stopped (e : TerminalKind)

def TopicLib.chunkLabels (lib : TopicLib) (chunk : List LabelEntry) (reply : JsonValue) :
    List (String × TopicLabel) :=
  (lib.mergeReply (chunk.map (·.topicEntry)) reply).getD []

structure ChunksRun where
  /-- The cache behind the last completed chunk. -/
  cache : LabelCache
  /-- The chunks that the model was asked about. -/
  asked : List (List LabelEntry)
  /-- The entries of the completed chunks, with their labels. -/
  answers : List (LabelEntry × Option TopicLabel)
  stopped : Option TerminalKind

/-- The labels of a completed chunk go into the cache. -/
def storeLabels (cache : LabelCache) (answers : List (LabelEntry × Option TopicLabel)) :
    LabelCache :=
  answers.foldl (fun cache answer =>
    match answer.2 with
    | some label => setEntry cache answer.1.cacheKey (.record label.label label.vector)
    | none => cache) cache

/-- The entries of a chunk with the labels that they get. -/
def answersOf (chunk : List LabelEntry) (labels : List (String × TopicLabel)) :
    List (LabelEntry × Option TopicLabel) :=
  chunk.map fun e => (e, labels.lookup e.key)

/-- The loop over the chunks, from the one with this number on. -/
def labelChunks (lib : TopicLib) (script : Nat → ChunkOutcome) :
    Nat → LabelCache → List (List LabelEntry) → ChunksRun
  | _, cache, [] => ⟨cache, [], [], none⟩
  | n, cache, chunk :: chunks =>
    match script n with
    | .stopped e => ⟨cache, [chunk], [], some e⟩
    | .best reply =>
      let answers := answersOf chunk (lib.chunkLabels chunk reply)
      let rest := labelChunks lib script (n + 1) (storeLabels cache answers) chunks
      { rest with asked := chunk :: rest.asked, answers := answers ++ rest.answers }
    | .nothing =>
      let rest := labelChunks lib script (n + 1) cache chunks
      { rest with asked := chunk :: rest.asked, answers := answersOf chunk [] ++ rest.answers }

/-! ## Folding back -/

/-- A secondary sense of an item. -/
structure LabelExtra where
  senseId : String
  gloss : String
  row : LabelRow

/-- The row of an item with its extras. -/
structure LabelledItem where
  row : LabelRow
  extra : List LabelExtra

/-- `out`. -/
abbrev LabelOut := List (String × LabelledItem)

/-- A row without a label is an unlabelled one. -/
def LabelEntry.settled (e : LabelEntry) (row : LabelRow) : LabelRow :=
  if row.label.getD "" = "" then e.unlabelled else row

def foldBackEntry (out : LabelOut) (resolved : LabelEntry × LabelRow) : LabelOut :=
  let (e, row) := (resolved.1, resolved.1.settled resolved.2)
  if e.primary then setEntry out e.itemKey ⟨row, []⟩
  else
    match out.lookup e.itemKey with
    | none => setEntry out e.itemKey ⟨row, []⟩
    | some primary =>
      if primary.extra.all (·.senseId ≠ e.senseId) then
        setEntry out e.itemKey { primary with extra := primary.extra ++ [⟨e.senseId, e.gloss, row⟩] }
      else out

def foldBack (resolved : List (LabelEntry × LabelRow)) : LabelOut := resolved.foldl foldBackEntry []

/-- The rows of the entries: those of the cache, and for the others the answers in their order. -/
def resolveRows (py : GlossText) (cache : LabelCache) :
    List LabelEntry → List (LabelEntry × Option TopicLabel) → List (LabelEntry × LabelRow)
  | [], _ => []
  | e :: es, answers =>
    match labelCacheHit cache e with
    | some row => (e, e.guarded py row) :: resolveRows py cache es answers
    | none =>
      (e, (answers.head?.bind (·.2)).elim e.unlabelled (e.labelled py)) ::
        resolveRows py cache es answers.tail

/-- A run of `label_batch`. -/
structure LabelRun extends ChunksRun where
  /-- The entries with their rows, before they are folded back. -/
  resolved : List (LabelEntry × LabelRow)

namespace LabelCall
variable (call : LabelCall)

/-- `label_batch`, over the cache that it reads. -/
def labelBatch (cache : LabelCache) (script : Nat → ChunkOutcome) : LabelRun :=
  let run := labelChunks call.lib script 0 cache (chunksOf (call.pending cache))
  { run with resolved := resolveRows call.py cache call.expanded run.answers }

end LabelCall

/-- The rows that a run returns; none where it is stopped. -/
def LabelRun.out (run : LabelRun) : Option LabelOut :=
  if run.stopped.isSome then none else some (foldBack run.resolved)

end HamZaboon
