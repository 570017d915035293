import HamZaboon.Fsrs.Core
import HamZaboon.Library.Json
import HamZaboon.Library.JsonText
import HamZaboon.Library.Ranking
import HamZaboon.Texts.PyFloat
import Mathlib.Data.Rat.Floor
import Mathlib.Data.String.Basic

/-! # The rows of a topic reply

`factory/precard/topics.py`: `validate_senses`, and the part of `_label_chunk_via_llm`
that gives the rows of one reply to the entries of the chunk.  The rows are indexed by
their lemma, then each entry in turn takes the first row that has its sense id and that no
entry before it took.  An error on the way discards the labels of the whole chunk.

Floats are exact; a sum or a quotient of weights is not rounded to a double.
-/

namespace HamZaboon
open Library

/-- `LABELS`. -/
def topicLabels : List String :=
  ["Daily Life & Home", "Food & Drink", "Health & Body", "Work & Careers", "Education & Exams",
    "Travel & Transportation", "Society", "Arts & Culture", "Animals & Living Beings",
    "Nature & Environment", "Science & Technology", "Business & Economy", "Law & Politics",
    "Sports & Leisure", "Emotions & Relationships", "Other / Abstract"]

/-- `V16B_ID2LABEL[tid]`, unless there is no such id or it is no `int`; a truth value is one. -/
def idToLabel : JsonValue → Option String
  | .int tid => if 1 ≤ tid then topicLabels[(tid - 1).toNat]? else none
  | .bool tid => if tid then topicLabels[0]? else none
  | _ => none

/-- What the rows take from Python. -/
structure TopicLib where
  /-- `float(value)`; `none` where it raises. -/
  float : JsonValue → Option PyFloat

structure TopicWeight where
  topicId : JsonValue
  topicLabel : String
  weight : ℚ

/-- A sense that passed the checks; `source` is `judge`. -/
structure NormedSense where
  senseId : String
  topicId : JsonValue
  topicLabel : String
  confidence : ℚ
  vector : List TopicWeight

/-- `round(x, 4)`. -/
def round4 (x : ℚ) : ℚ := roundHalfEven (x * 10000) / 10000

def asText : JsonValue → Option String
  | .str value => some value
  | _ => none

def asDict : JsonValue → Option Dict
  | .obj entries => some entries
  | _ => none

/-- The label that the id and the label of a value agree on. -/
def agreedLabel (x : Dict) : Option String := do
  let label ← idToLabel (x.get "topic_id")
  if (x.get "topic_label").pyEq (.str label) then some label else none

namespace TopicLib
variable (lib : TopicLib)

/-- `float(value)` where it is a finite number. -/
def finite (value : JsonValue) : Option ℚ :=
  match lib.float value with
  | some (.finite q) => some q
  | _ => none

def weigh (e : JsonValue) : Option TopicWeight := do
  let e ← asDict e
  let label ← agreedLabel e
  let weight ← lib.finite (e.get "weight")
  if 0 < weight ∧ weight ≤ 1 then some ⟨e.get "topic_id", label, weight⟩ else none

/-- The entries of a vector, one to three of them. -/
def weighAll (x : Dict) : Option (List TopicWeight) := do
  let entries ← (x.get "vector").listItems
  if 1 ≤ entries.length ∧ entries.length ≤ 3 then entries.mapM lib.weigh else none

/-- The shares of the weights, the greatest first. -/
def shares (weights : List TopicWeight) : List TopicWeight :=
  let total := (weights.map (·.weight)).sum
  sortBy (fun e => -e.weight) (weights.map fun e => { e with weight := round4 (e.weight / total) })

/-- The body of the loop of `validate_senses`. -/
def normSense (x : Dict) : Option NormedSense := do
  let _ ← agreedLabel x
  let confidence ← lib.finite (x.get "confidence")
  let weights ← lib.weighAll x
  let senseId ← asText (x.get "sense_id")
  if 0 ≤ confidence ∧ confidence ≤ 1 ∧ |(weights.map (·.weight)).sum - 1| ≤ 1 / 100 then
    (shares weights).head?.map fun first =>
      ⟨senseId, first.topicId, first.topicLabel, confidence, shares weights⟩
  else none

/-- `validate_senses`; `none` where it rejects the items or raises. -/
def validateSenses (items : JsonValue) (wantIds : List String) : Option (List NormedSense) := do
  let items ← items.listItems
  let dicts := items.filterMap asDict
  let ids ← dicts.mapM fun x => asText (x.get "sense_id")
  if sortBy id ids = sortBy id wantIds ∧ items.length = wantIds.length then
    dicts.mapM lib.normSense
  else none

end TopicLib

/-! ## Matching the rows -/

/-- What the matching reads of an entry of a chunk. -/
structure TopicEntry where
  key : String
  senseId : String
  text : String
  deriving DecidableEq, Repr

/-- The label and the vector of an entry. -/
structure TopicLabel where
  label : String
  vector : List (String × ℚ)
  deriving DecidableEq

/-- A value that can be a key or an element of a set. -/
def isHashable : JsonValue → Bool
  | .arr _ => false
  | .obj _ => false
  | _ => true

def rowSenses (row : Dict) : List Dict := (((row.get "senses").listItems).getD []).filterMap asDict

/-- The sense ids of a row; `none` where one cannot be in a set. -/
def rowIds (row : Dict) : Option (List JsonValue) :=
  let ids := (rowSenses row).map (Dict.get · "sense_id")
  if ids.all isHashable then some ids else none

def hasId (senseId : String) (ids : List JsonValue) : Bool := ids.any (·.pyEq (.str senseId))

/-- The rows under their lemmas, a later row over an earlier one; `none` where a lemma cannot
be a key. -/
def byLemma (rows : List Dict) : Option (List (JsonValue × Dict)) :=
  if rows.all fun row => isHashable (row.get "lemma") then
    some (rows.reverse.map fun row => (row.get "lemma", row))
  else none

/-- `by_lemma.get(text)`. -/
def lemmaRow (lemmas : List (JsonValue × Dict)) (text : String) : Option Dict :=
  (lemmas.find? fun e => e.1.pyEq (.str text)).map (·.2)

/-- The first row from `idx` on that is not used and has the sense id; `none` where a row on
the way raises. -/
def findRow (senseId : String) (used : List Nat) : Nat → List Dict → Option (Option (Nat × Dict))
  | _, [] => some none
  | idx, row :: rows =>
    if idx ∈ used then findRow senseId used (idx + 1) rows
    else do
      let ids ← rowIds row
      if hasId senseId ids then some (some (idx, row)) else findRow senseId used (idx + 1) rows

def singleTopicVector (label : String) : List (String × ℚ) :=
  [(if label = "" then "Other / Abstract" else label, 1)]

def labelOf (normed : NormedSense) : TopicLabel :=
  let found := if normed.topicLabel = "" then "Other / Abstract" else normed.topicLabel
  let vector := (normed.vector.filter (·.topicLabel ≠ "")).map fun e =>
    (e.topicLabel, round4 e.weight)
  ⟨found, if vector = [] then singleTopicVector found else vector⟩

namespace TopicLib
variable (lib : TopicLib)

def labelSenses (senses : JsonValue) (senseId : String) : Option TopicLabel :=
  (lib.validateSenses senses [senseId]).bind fun normed => normed.head?.map labelOf

/-- The step of an entry: the used rows and the merged labels after it. -/
def mergeEntry (lemmas : List (JsonValue × Dict)) (rows : List Dict)
    (state : List Nat × List (String × TopicLabel)) (entry : TopicEntry) :
    Option (List Nat × List (String × TopicLabel)) := do
  let found ← findRow entry.senseId state.1 0 rows
  let used := found.elim state.1 fun row => state.1 ++ [row.1]
  let senses := found.elim (((lemmaRow lemmas entry.text).getD []).get "senses")
    fun row => row.2.get "senses"
  match lib.labelSenses senses entry.senseId with
  | some label => some (used, setEntry state.2 entry.key label)
  | none => some (used, state.2)

/-- The validated labels of a reply, under the keys of the entries; `none` where an error
discards the chunk. -/
def mergeReply (entries : List TopicEntry) (data : JsonValue) :
    Option (List (String × TopicLabel)) := do
  let results ← match data with
    | .obj reply => (Dict.get reply "results").iterate
    | _ => some []
  let rows := results.filterMap asDict
  let lemmas ← byLemma rows
  let merged ← entries.foldlM (lib.mergeEntry lemmas rows) ([], [])
  some merged.2

end TopicLib

end HamZaboon
