import HamZaboon.Library.Latest
import HamZaboon.Precard.InflectionReview
import HamZaboon.Precard.LabelBatch
import HamZaboon.Texts.Decoded

/-! # Topic vectors of a batch

`vectors_batch` in `topics.py`.  The picks of a batch are grouped under their texts, and one
prompt asks for a vector of each sense.  The leg tries its models, each twice; a reply that covers
every sense gives all the vectors, any other is passed over, and in the end a batch that no reply
covered gets the vectors of the fallback.

The rows of a reply are put under their lemmas outside of any handler, so there are replies that
raise.  How a reply is read is a parameter of the loops.
-/

namespace HamZaboon
open Library

def v15Labels : List String :=
  ["Daily Life & Home", "Food & Drink", "Health & Body", "Work & Education",
    "Travel & Transportation", "Society & Culture", "Nature & Environment", "Science & Technology",
    "Business & Economy", "Law & Politics", "Sports & Leisure", "Emotions & Relationships",
    "Other / Abstract"]

/-- `V15_ID2LABEL[tid]`, unless there is no such id or it is no `int`; a truth value is one. -/
def v15Label : JsonTree → Option String
  | .int tid => if 1 ≤ tid then v15Labels[(tid - 1).toNat]? else none
  | .bool true => v15Labels.head?
  | _ => none

/-! ## Pseudo records -/

/-- An entry of `ranked_senses`. -/
structure PseudoSense where
  senseId : String
  gloss : String
  topicLabel : String
  deriving DecidableEq, Repr

abbrev PseudoRecords := List (String × List PseudoSense)

/-- The loop over the picks of an item. -/
def addSenses (enDef : String) (senses : List PseudoSense) (picks : List SensePick) :
    List PseudoSense :=
  picks.foldl (fun senses sub =>
    if sub.senseId ≠ "" ∧ senses.all (·.senseId ≠ sub.senseId) then
      senses ++ [⟨sub.senseId, if sub.gloss = "" then enDef else sub.gloss, otherAbstract⟩]
    else senses) senses

/-! ## Replies -/

/-- `isinstance(value, dict)`. -/
def asEntries : JsonTree → Option Entries
  | .obj entries => some entries
  | _ => none

def saysText (value : JsonTree) (s : String) : Bool :=
  match value with
  | .str text => text = points s
  | _ => false

/-- The value can be a key. -/
def hashableTree : JsonTree → Bool
  | .arr _ | .obj _ => false
  | _ => true

structure TopicVector where
  vector : List (String × ℚ)
  model : String
  deriving DecidableEq

/-- `out`, by the sense id. -/
abbrev VectorsOut := List (String × TopicVector)

/-- What a reply comes to: vectors for all senses, another attempt, or a `TypeError`. -/
inductive VectorsReading
  | merged (out : VectorsOut)
  | passed
  | raised

/-- What is taken from outside. -/
structure VectorsLib where
  /-- `float(value)`; `none` where it raises. -/
  float : JsonTree → Option PyFloat

namespace VectorsLib
variable (lib : VectorsLib)

/-- `bool(value)`. -/
def truthy : JsonTree → Bool
  | .float literal => (lib.float (.float literal)).any (·.truthy)
  | value => treeTruthy value

def weigh (e : JsonTree) : Option (String × ℚ) := do
  let e ← asEntries e
  let label ← v15Label (getEntry e "topic_id")
  if saysText (getEntry e "topic_label") label then
    match lib.float (getEntry e "weight") with
    | some (.finite w) => if 0 < w ∧ w ≤ 1 then some (label, w) else none
    | _ => none
  else none

/-- The vector of a value, with its weights as shares of their sum. -/
def normVector (v : Entries) : Option (List (String × ℚ)) :=
  match getEntry v "vector" with
  | .arr entries =>
    if 1 ≤ entries.length ∧ entries.length ≤ 3 then
      (entries.mapM lib.weigh).bind fun weights =>
        let total := (weights.map (·.2)).sum
        if |total - 1| ≤ 1 / 100 then some (weights.map fun w => (w.1, round4 (w.2 / total)))
        else none
    else none
  | _ => none

/-- `validate_vectors`; `none` where it rejects the values or raises. -/
def validateVectors (vecs : JsonTree) (inputIds : List String) :
    Option (List (String × List (String × ℚ))) :=
  match vecs with
  | .arr vecs => do
    let dicts := vecs.filterMap asEntries
    -- the sorted ids are those of the input only if each is one of them
    let ids ← dicts.mapM fun v => asId inputIds (getEntry v "sense_id")
    if ids.Perm inputIds ∧ vecs.length = inputIds.length then
      dicts.mapM fun v => do
        let sid ← asId inputIds (getEntry v "sense_id")
        let vector ← lib.normVector v
        some (sid, vector)
    else none
  | _ => none

/-- The rows under their lemmas; `none` for a `TypeError`. -/
def resultRows (data : Entries) : Option (List Entries) :=
  let rows := match getEntry data "results" with
    | .arr rows => some (rows.filterMap asEntries)
    -- their elements are texts
    | .str _ | .obj _ => some []
    | value => if lib.truthy value then none else some []
  rows.filter fun rows => rows.all fun row => hashableTree (getEntry row "lemma")

end VectorsLib

/-- `by_lemma.get(lemma)`: of two rows with one lemma the later. -/
def lastWithLemma (rows : List Entries) (lemma' : String) : Option Entries :=
  rows.reverse.find? fun row => saysText (getEntry row "lemma") lemma'

/-- The entries of a record in the result. -/
def putVectors (model : String) (out : VectorsOut) (normed : List (String × List (String × ℚ))) :
    VectorsOut :=
  normed.foldl (fun out (sid, vector) =>
    setEntry out sid ⟨vector.map fun e => (e.1, round4 e.2), model⟩) out

/-- The loop over the records: none when one is not covered. -/
def VectorsLib.mergeVectors (lib : VectorsLib) (model : String) (rows : List Entries)
    (records : PseudoRecords) : Option VectorsOut :=
  records.foldlM (fun merged (lemma', senses) =>
    let vecs := getEntry ((lastWithLemma rows lemma').getD []) "vectors"
    (lib.validateVectors vecs (senses.map (·.senseId))).map (putVectors model merged)) []

/-- `fallback_vectors`; nothing for a label that is none. -/
def fallbackVectors (senses : List PseudoSense) : List (String × List (String × ℚ)) :=
  if senses.all (·.topicLabel ∈ v15Labels) then senses.map fun s => (s.senseId, [(s.topicLabel, 1)])
  else []

/-! ## Attempts -/

structure VectorsCall where
  py : GlossText
  lib : VectorsLib
  limits : ScanLimits
  batch : List SampleItem
  /-- `arbiter_fanout_picks` over the judge map. -/
  picks : String → List SensePick
  /-- `en_def` of the anchor map. -/
  enDef : String → String
  /-- `v15_user_tmpl`. -/
  template : String
  provider : String
  models : List String
  ring : KeyRing
  rings : Option (List (String × KeyRing))
  /-- The providers that the tunnel flag lists. -/
  tunneled : List String

structure VectorsAttempt where
  step : LegStep
  model : String
  /-- Not the first attempt on its model. -/
  retry : Bool
  answers : List Answer
  result : CallResult
  deriving DecidableEq

structure VectorsState where
  rings : String → KeyRing
  /-- The calls of the transport so far. -/
  calls : Nat
  log : List VectorsAttempt
  limitedAll : Bool
  nTried : Nat

inductive VectorsEnd
  | returned (out : VectorsOut)
  | raised (e : TerminalKind)
  | typeError
  deriving DecidableEq

inductive VectorsAttemptEnd
  | retry
  | limited
  | cooled (e : TerminalKind)
  | ended (r : VectorsEnd)

inductive VectorsLoopEnd
  | on
  | cooled (e : TerminalKind)
  | ended (r : VectorsEnd)

/-- How a reading ends the batch, if it does. -/
def VectorsReading.ending : VectorsReading → Option VectorsEnd
  | .merged out => some (.returned out)
  | .passed => none
  | .raised => some .typeError

/-- The target takes no key. -/
def LegStep.isDirect (lib : StrLib) (step : LegStep) : Bool :=
  (targets.lookup (lib.normProvider (some step.target))).any (·.provider.isNone)

namespace VectorsState

/-- `limited_all = False`. -/
def unlimited (s : VectorsState) : VectorsState := { s with limitedAll := false }

def called (s : VectorsState) (a : VectorsAttempt) (ring : KeyRing) : VectorsState :=
  { s with
    rings := Function.update s.rings a.step.provider ring
    calls := s.calls + a.answers.length
    log := s.log ++ [a] }

end VectorsState

namespace VectorsCall
variable (call : VectorsCall)

/-- `str.strip` and `str.lower`. -/
def legLib : StrLib := ⟨call.py.strip, call.py.lower⟩

def addItem (groups : PseudoRecords) (item : SampleItem) : PseudoRecords :=
  let key := sourceItemKey item
  let lemma' := call.py.strip item.text
  setEntry groups lemma' (addSenses (call.enDef key) ((groups.lookup lemma').getD []) (call.picks key))

def vectorsPseudoRecords : PseudoRecords := call.batch.foldl call.addItem []

def v15LemmaBlock (record : String × List PseudoSense) : String :=
  "\n".intercalate (("LEMMA " ++ record.1 ++ ":") :: record.2.map fun s =>
    "- " ++ s.senseId ++ " [current: " ++ s.topicLabel ++ "] " ++
      String.ofList (s.gloss.toList.take 200))

def text (a : VectorsAttempt) : String :=
  (if a.retry then retryPrefix else "") ++
    (call.template ++ "\n\n".intercalate (call.vectorsPseudoRecords.map v15LemmaBlock))

/-- What a reply of a model comes to. -/
def read (model raw : String) : VectorsReading :=
  match extractJson call.limits raw.toList with
  | .error _ => .passed
  | .ok data =>
    match call.lib.resultRows data with
    | none => .raised
    | some rows =>
      match call.lib.mergeVectors model rows call.vectorsPseudoRecords with
      | some out => .merged out
      | none => .passed

def walk : List LegStep :=
  (resolveLegWalk call.legLib call.tunneled "topic_vectors" call.provider
    (if call.models = [] then none else some call.models) (call.rings.map (·.map Prod.fst))).getD []

/-- The state before the first attempt. -/
def start : VectorsState where
  rings provider := ((call.rings.getD []).lookup provider).getD call.ring
  calls := 0
  log := []
  limitedAll := true
  nTried := 0

/-! ## The loops -/

section Loops
variable (script : Nat → Answer) (read : String → String → VectorsReading)

def attempt (step : LegStep) (model : String) (retry : Bool) (s : VectorsState) :
    VectorsState × VectorsAttemptEnd :=
  let o := step.callLeg call.legLib (s.rings step.provider) fun k => script (s.calls + k)
  let s := s.called ⟨step, model, retry, o.tried.map (·.2), o.result⟩ o.ring
  match o.result with
  | .text raw => (s.unlimited, (read model raw).ending.elim .retry .ended)
  -- a 429 that no rotation wraps is an error like any other here
  | .exhausted => if step.isDirect call.legLib then (s.unlimited, .retry) else (s, .limited)
  | .rateLimited => (s, .limited)
  | .providerCooldown => (s, .cooled .providerCooldown)
  | .locationBlocked => (s, .cooled .locationBlocked)
  | .authError => (s, .ended (.raised .auth))
  | .failed => (s.unlimited, .retry)

def attempts (step : LegStep) (model : String) :
    List Nat → VectorsState → VectorsState × VectorsLoopEnd
  | [], s => (s, .on)
  | n :: rest, s =>
    match call.attempt script read step model (n ≠ 0) s with
    | (s, .retry) => attempts step model rest s
    | (s, .limited) => (s, .on)
    | (s, .cooled e) => (s, .cooled e)
    | (s, .ended r) => (s, .ended r)

def modelLoop (step : LegStep) : List String → VectorsState → VectorsState × VectorsLoopEnd
  | [], s => (s, .on)
  | model :: models, s =>
    match call.attempts script read step model (List.range maxAttempts)
        { s with nTried := s.nTried + 1 } with
    | (s, .on) => modelLoop step models s
    | left => left

def providerLoop : List LegStep → VectorsState → VectorsState × VectorsLoopEnd
  | [], s => (s, .on)
  | step :: steps, s =>
    match call.modelLoop script read step step.models s with
    | (s, .on) => providerLoop steps s
    | (s, .cooled e) => if cooldownContinues steps then providerLoop steps s else (s, .cooled e)
    | (s, .ended r) => (s, .ended r)

end Loops

def fallbackOut : VectorsOut :=
  call.vectorsPseudoRecords.foldl (fun out record =>
    putVectors "deterministic" out (fallbackVectors record.2)) []

def vectorsBatch (script : Nat → Answer) : VectorsState × VectorsEnd :=
  if call.vectorsPseudoRecords = [] then (call.start, .returned [])
  else
    match call.providerLoop script call.read call.walk call.start with
    | (s, .ended r) => (s, r)
    | (s, .cooled e) => (s, .raised e)
    | (s, .on) =>
      if s.limitedAll = true ∧ s.nTried ≠ 0 then (s, .raised .rateLimited)
      else (s, .returned call.fallbackOut)

end VectorsCall
end HamZaboon
