import HamZaboon.Library.Effects
import HamZaboon.Precard.JudgeStage
import HamZaboon.Precard.Progress
import HamZaboon.Senses.Sense

/-! # The pre-card pipeline

A session of `pipeline.py`: it loads the progress of the seven stages, runs the
selected ones batch by batch over the items that are left, and writes the rows of
the survivors.  What the models, the index and the dictionaries answer is given by
`PipelineLegs`, as is every exception they raise.

Telemetry, logs and console output are left out.  A field of what is no object is
null here, where the source raises.
-/

namespace HamZaboon
open Library

namespace Stage

/-- The ids of the stages, which `display` shows as they are. -/
def id : Stage → String
  | preprocess => "preprocess"
  | inflectionReview => "inflection_review"
  | anchorRank => "anchor_rank"
  | senseJudge => "sense_judge"
  | topicVectors => "topic_vectors"
  | topicLabel => "topic_label"
  | enrich => "enrich"

def downstream : Stage → List Stage
  | anchorRank => [senseJudge, topicVectors, topicLabel, enrich]
  | senseJudge => [topicVectors, topicLabel, enrich]
  | topicVectors => [topicLabel, enrich]
  | topicLabel => [enrich]
  | _ => []

def requiresUpstream : Stage → List Stage
  | senseJudge => [anchorRank]
  | topicVectors => [senseJudge]
  | topicLabel => [senseJudge, topicVectors]
  | enrich => [senseJudge]
  | _ => []

end Stage

/-! ## Items and entries -/

/-- An item of the sample, with its other fields and what a redirect adds. -/
structure PipelineItem extends SampleItem where
  fields : Dict := []
  redirectTo : JsonValue := .null
  s0bReason : JsonValue := .null
  redirectedFrom : String := ""

namespace PipelineItem

def key (item : PipelineItem) : String := sourceItemKey item.toSampleItem

end PipelineItem

/-- `value.get(name)`. -/
def field (value : JsonValue) (name : String) : JsonValue :=
  match value with
  | .obj entries => Dict.get entries name
  | _ => .null

/-- `name in value`. -/
def hasField (value : JsonValue) (name : String) : Bool :=
  match value with
  | .obj entries => (entries.lookup name).isSome
  | _ => false

/-- `isinstance(value, dict)`. -/
def isDict : JsonValue → Bool
  | .obj _ => true
  | _ => false

def textField (value : JsonValue) (name : String) : String :=
  match field value name with
  | .str text => text
  | _ => ""

namespace StageState

/-- `done.get(key)`. -/
def entry (s : StageState) (key : String) : Option JsonValue := s.done.lookup key

/-- `done.get(key) or {}`. -/
def entryOr (s : StageState) (key : String) : JsonValue := (s.entry key).getD (.obj [])

/-- `done[key] = value`. -/
def put (s : StageState) (key : String) (value : JsonValue) : StageState :=
  { s with done := s.done.set key value }

/-- `failed.append(key)`, unless it is there. -/
def note (s : StageState) (key : String) : StageState :=
  if s.failed.any fun k => k.pyEq (.str key) then s else { s with failed := s.failed ++ [.str key] }

/-- The state without the entries and failures of these keys. -/
def evict (keys : List String) (s : StageState) : StageState :=
  { s with
    done := s.done.filter fun e => e.1 ∉ keys
    failed := s.failed.filter fun k => !keys.any fun key => k.pyEq (.str key) }

def marked (s : StageState) (p : JsonValue → Bool) (key : String) : Bool := (s.entry key).any p

end StageState

/-- `not v.get("kept")`. -/
def notKept (entry : JsonValue) : Bool := isDict entry && !(field entry "kept").truthy

/-- `v.get("dropped")`. -/
def anchorDropped (entry : JsonValue) : Bool := isDict entry && (field entry "dropped").truthy

/-- `v.get("proper_drop")`. -/
def properDropped (entry : JsonValue) : Bool := isDict entry && (field entry "proper_drop").truthy

/-! ## What a session is given -/

inductive LegError
  | auth (text : String)
  | rateLimited (text : String)
  /-- Any other `Exception`, by the name of its type. -/
  | other (name : String)
  | interrupted

/-- The reply of a leg, with the backoffs it notes in the state it is given. -/
structure LegCall (α : Type) where
  backoffs : List JsonValue := []
  reply : Except LegError α

/-- An item the inflection review asks about. -/
structure ReviewEntry where
  key : String
  text : String
  gloss : String

structure ReviewVerdict where
  keep : Bool
  uncertain : Bool
  reason : String

/-- What `run_batches_async` does: the mappings in the order in which the units
settle, and what it returns or raises. -/
structure AsyncJudged where
  settled : List Dict
  result : Except LegError (List (Nat × Dict) × Option LegError)

/-- The verdict of `judge_proper_route`. -/
structure ProperVerdict where
  properRoute : String
  reason : String

/-- What a row is made of besides its item and its place among the picks. -/
structure RowParts where
  pick : SensePick
  enrich : JsonValue
  label : JsonValue
  vector : JsonValue
  vec3 : JsonValue
  judge : JsonValue
  preprocess : JsonValue
  s0b : JsonValue
  anchor : JsonValue

structure PipelineLegs where
  classify : PipelineItem → Except LegError JsonValue
  /-- `inflection_needs_review`, with the gloss. -/
  needsReview : PipelineItem → Option String
  /-- `inflection_review`; none without a transport. -/
  review : Option (Nat → List ReviewEntry → LegCall (String → Option ReviewVerdict))
  superlativeBase : String → String
  anchor : PipelineItem → Except LegError JsonValue
  isNameGloss : String → Bool
  /-- `_candidate_tag_map`, where it does not raise. -/
  candidateTags : PipelineItem → List JsonValue → Option (String → List JsonValue)
  judge : Progress → Nat → List PipelineItem → LegCall (String → Option JsonValue)
  judgeAsync : Option (Progress → List (Nat × List PipelineItem) → AsyncJudged)
  properRoute : PipelineItem → JsonValue → Option JsonValue → Except LegError ProperVerdict
  vectors : Progress → Nat → List PipelineItem → LegCall (String → Option JsonValue)
  label : Progress → Nat → List PipelineItem → LegCall (String → Option JsonValue)
  enrichItem : Progress → PipelineItem → JsonValue → Except LegError Dict
  normalizeIdPart : String → String
  rowFields : PipelineItem → RowParts → Dict

/-- `--only`, `--stages`, or neither. -/
inductive StageSelection
  | all
  | only (stage : Stage)
  | stages (picks : List Stage)

namespace StageSelection

/-- `_selected_stages`. -/
def selected : StageSelection → Stage → Bool
  | all, _ => true
  | only stage, s => s = stage
  | stages picks, s => s ∈ picks

def flag : StageSelection → Option String
  | all => none
  | only _ => some "--only"
  | stages _ => some "--stages"

end StageSelection

/-- The arguments of a session and everything it is answered. -/
structure PipelineSession where
  py : PyText
  lower : String → String
  samplePath : String
  sample : List PipelineItem
  /-- `--limit`, 0 for none. -/
  limit : Nat
  dryRun : Bool
  resume : Bool
  selection : StageSelection
  rekeyed : List String
  /-- The message of an exit before the stages, or before the legs. -/
  indexFails : Option String
  providersFail : Option String
  legs : PipelineLegs
  /-- What to do after a stop, by the stage that stopped. -/
  hint : Stage → String
  /-- The exception of a write of `precard.jsonl`. -/
  outFails : Option String

/-- A row of `precard.jsonl`. -/
structure PrecardRow where
  key : String
  kind : String
  text : String
  redirectTo : JsonValue
  redirectedFrom : String
  pickIndex : Nat
  fanoutN : Nat
  fields : Dict

/-- The states in memory, the progress directory and `precard.jsonl`. -/
structure PipelineWorld where
  states : Progress
  dir : ProgressDir
  out : Option (List PrecardRow)

/-- How a session ends that does not return. -/
inductive PipelineStop
  | exit (message : String)
  | raised (e : LegError)

abbrev Pipeline := EStateM PipelineStop PipelineWorld

/-! ## Steps -/

def updateState (stage : Stage) (f : StageState → StageState) : Pipeline Unit :=
  modify fun w => { w with states := Function.update w.states stage (f (w.states stage)) }

/-- `_flush(progress_dir, states)`. -/
def flushStates (w : PipelineWorld) : PipelineWorld := { w with dir := w.dir.flush w.states }

def flushNow : Pipeline Unit := modify flushStates

def runLeg {α : Type} : Except LegError α → Pipeline α
  | .ok a => pure a
  | .error e => throw (.raised e)

/-- An attribute of every entry is read. -/
def requireDicts (stage : Stage) : Pipeline Unit := do
  let w ← get
  if (w.states stage).done.all fun e => isDict e.2 then pure ()
  else throw (.raised (.other "AttributeError"))

def exitIf : Option String → Pipeline Unit
  | none => pure ()
  | some message => throw (.exit message)

/-- The handlers around a call of a leg. -/
def stageErrorOf {α : Type} (s : PipelineSession) (stage : Stage) (tag : String) (batchNo : Nat) :
    LegError → Pipeline α
  | .rateLimited text => do
    flushNow
    throw (.exit s!"STOP {tag} at batch {batchNo}: {text} — progress flushed, {s.hint stage}")
  | e => throw (.raised e)

def callLeg {α : Type} (s : PipelineSession) (stage : Stage) (tag : String) (batchNo : Nat)
    (call : LegCall α) : Pipeline α := do
  updateState stage fun st => { st with backoffs := st.backoffs ++ call.backoffs }
  match call.reply with
  | .ok a => pure a
  | .error e => stageErrorOf s stage tag batchNo e

def stageBatches (selected : Bool) (items : List PipelineItem) (width : Nat) :
    List (Nat × List PipelineItem) :=
  ((stageRange selected items.length width).zipIdx 1).map fun (base, batchNo) =>
    (batchNo, (items.drop base).take width)

/-- `BATCH`. -/
def batchWidth : Nat := 8

def labelBatch : Nat := 16

/-- The loop of a stage over its batches, with a flush after each. -/
def overBatches (s : PipelineSession) (stage : Stage) (width : Nat) (items : List PipelineItem)
    (body : Nat → List PipelineItem → Pipeline Unit) : Pipeline Unit :=
  (stageBatches (s.selection.selected stage) items width).forM fun (batchNo, batch) => do
    body batchNo batch
    flushNow

def todoOf (states : Progress) (stage : Stage) (batch : List PipelineItem) : List PipelineItem :=
  batch.filter fun item => ((states stage).entry item.key).isNone

def dropMarked (state : StageState) (p : JsonValue → Bool) (items : List PipelineItem) :
    List PipelineItem :=
  items.filter fun item => !state.marked p item.key

/-! ## `preprocess` -/

def preprocessItem (s : PipelineSession) (item : PipelineItem) : Pipeline Unit := do
  let w ← get
  if ((w.states .preprocess).entry item.key).isNone then do
    let verdict ← runLeg (s.legs.classify item)
    updateState .preprocess (·.put item.key verdict)
    if (field verdict "kept").truthy then pure () else updateState .preprocess (·.note item.key)
  else pure ()

def preprocessStage (s : PipelineSession) (items : List PipelineItem) : Pipeline Unit := do
  overBatches s .preprocess batchWidth items fun _ batch => batch.forM (preprocessItem s)
  requireDicts .preprocess

/-! ## `inflection_review` -/

def reviewNote (kept : Bool) (reason : String) (uncertain : Bool) : Dict :=
  [("kept", .bool kept), ("reason", .str reason), ("uncertain", .bool uncertain)]

def reviewResult (s : PipelineSession) (entry : ReviewEntry) : Option ReviewVerdict → Dict
  | none => reviewNote true "review-uncertain" true
  | some verdict =>
    let base := s.legs.superlativeBase entry.gloss
    if verdict.keep = false ∧ base ≠ "" ∧ verdict.uncertain = false then
      [("kept", .bool true), ("reason", .str "superlative-redirect"), ("redirect_to", .str base),
        ("uncertain", .bool false)]
    else if verdict.keep = false then
      let reason := if verdict.reason = "" then "base-lemma" else verdict.reason
      reviewNote false s!"inflection-drop:{reason}" false
    else
      reviewNote true
        (if verdict.reason = "review-has-independent-sense" then verdict.reason
          else if verdict.uncertain then "review-uncertain" else "inflection-keep")
        verdict.uncertain

def recordReview (s : PipelineSession) (verdicts : String → Option ReviewVerdict)
    (entry : ReviewEntry) : Pipeline Unit :=
  let result := reviewResult s entry (verdicts entry.key)
  updateState .inflectionReview fun st =>
    let st := st.put entry.key (.obj result)
    if (Dict.get result "kept").truthy then st else st.note entry.key

/-- The verdicts of the review; an error other than those of the handlers leaves
none. -/
def reviewVerdicts (s : PipelineSession) (batchNo : Nat)
    (call : LegCall (String → Option ReviewVerdict)) : Pipeline (String → Option ReviewVerdict) :=
  callLeg s .inflectionReview "s0b" batchNo
    { call with
      reply := match call.reply with
        | .error (.other _) => .ok fun _ => none
        | reply => reply }

/-- The items that need a review, with their glosses. -/
def reviewEntries (s : PipelineSession) (todo : List PipelineItem) : List ReviewEntry :=
  todo.filterMap fun item => (s.legs.needsReview item).map (ReviewEntry.mk item.key item.text)

def inflectionBatch (s : PipelineSession) (batchNo : Nat) (batch : List PipelineItem) :
    Pipeline Unit := do
  let w ← get
  let todo := todoOf w.states .inflectionReview batch
  let review := reviewEntries s todo
  (todo.filter fun item => (s.legs.needsReview item).isNone).forM fun item =>
    updateState .inflectionReview (·.put item.key (.obj (reviewNote true "not-inflection" false)))
  if review = [] then pure ()
  else
    match s.legs.review with
    | some ask => do
      let verdicts ← reviewVerdicts s batchNo (ask batchNo review)
      review.forM (recordReview s verdicts)
    | none =>
      review.forM fun entry =>
        updateState .inflectionReview
          (·.put entry.key (.obj (reviewNote true "s0b-no-transport" false)))

def inflectionStage (s : PipelineSession) (items : List PipelineItem) : Pipeline Unit := do
  overBatches s .inflectionReview batchWidth items (inflectionBatch s)
  requireDicts .inflectionReview

/-- An item becomes the base form its entry redirects to. -/
def redirect (s : PipelineSession) (reviewed : StageState) (item : PipelineItem) : PipelineItem :=
  let s0b := reviewed.entryOr item.key
  let target := field s0b "redirect_to"
  if target.truthy then
    let base := s.lower (s.py.strip (s.py.pyStr target))
    let item := { item with redirectTo := target, s0bReason := field s0b "reason" }
    if base ≠ "" ∧ base ≠ s.lower (s.py.strip item.text) then
      { item with redirectedFrom := item.text, text := base }
    else item
  else item

/-! ## `anchor_rank` -/

def needsTagBackfill (entry : JsonValue) : Bool :=
  isDict entry && !hasField entry "dropped" &&
    match field entry "candidates" with
    | .arr candidates => candidates.any fun c => isDict c && !hasField c "tags"
    | _ => false

/-- The name-gloss verdict is still to be made on the entry. -/
def needsNameEval (s : PipelineSession) (entry : JsonValue) : Bool :=
  !hasField entry "dropped" && !(field entry "rerouted_from_name").truthy &&
    s.legs.isNameGloss (textField (field entry "top") "gloss")

/-- The item is ranked, again where its entry is of an older version. -/
def needsRank (s : PipelineSession) : Option JsonValue → Bool
  | some (.obj e) =>
    !hasField (.obj e) "anchor_pos" || !hasField (.obj e) "anchor_tags" ||
      !hasField (.obj e) "xref_unresolvable" || needsNameEval s (.obj e) ||
      needsTagBackfill (.obj e)
  | _ => true

/-- The entry of an item whose ranking raises. -/
def anchorErrorEntry : JsonValue :=
  .obj [("candidates", .arr []), ("top", .null), ("en_def", .str ""), ("anchor_pos", .str ""),
    ("xref_method", .str ""), ("resolved_from", .str ""), ("xref_unresolvable", .bool false)]

/-- `type(exc).__name__`. -/
def LegError.typeName : LegError → String
  | .auth _ => "AuthError"
  | .rateLimited _ => "RateLimited"
  | .other name => name
  | .interrupted => "KeyboardInterrupt"

/-- `_note_backoff`. -/
def backoffNote (label outcome : String) : JsonValue :=
  .obj [("label", .str label), ("waits", .arr []), ("outcome", .str outcome)]

def anchorItem (s : PipelineSession) (item : PipelineItem) : Pipeline Unit := do
  let w ← get
  if needsRank s ((w.states .anchorRank).entry item.key) then
    match s.legs.anchor item with
    | .ok ranked =>
      updateState .anchorRank fun st =>
        (if hasField ranked "dropped" then st.note item.key else st).put item.key ranked
    | .error .interrupted => throw (.raised .interrupted)
    | .error e =>
      updateState .anchorRank fun st =>
        let st := (st.put item.key anchorErrorEntry).note item.key
        { st with backoffs := st.backoffs ++ [backoffNote item.key s!"s1-error: {e.typeName}"] }
  else pure ()

def anchorStage (s : PipelineSession) (items : List PipelineItem) : Pipeline Unit :=
  overBatches s .anchorRank batchWidth items fun _ batch => batch.forM (anchorItem s)

/-! ## `sense_judge` -/

def withTags (tags : String → List JsonValue) : JsonValue → JsonValue
  | .obj c =>
    if hasField (.obj c) "tags" then .obj c
    else .obj (Dict.set c "tags" (.arr (tags (textField (.obj c) "sense_id"))))
  | value => value

/-- The candidates of an entry with their tags, unless the look-up raises. -/
def tagCandidates (s : PipelineSession) (item : PipelineItem) (e : Dict) : Dict :=
  match field (.obj e) "candidates" with
  | .arr candidates =>
    match s.legs.candidateTags item candidates with
    | some tags => Dict.set e "candidates" (.arr (candidates.map (withTags tags)))
    | none => e
  | _ => e

/-- The anchor entry of an item with the tags its candidates lack. -/
def tagEntry (s : PipelineSession) (item : PipelineItem) : JsonValue → JsonValue
  | .obj e => if needsTagBackfill (.obj e) then .obj (tagCandidates s item e) else .obj e
  | value => value

/-- `_backfill_candidate_tags`, for one item. -/
def backfillTags (s : PipelineSession) (item : PipelineItem) : Pipeline Unit :=
  updateState .anchorRank fun st =>
    match st.entry item.key with
    | some entry => st.put item.key (tagEntry s item entry)
    | none => st

def candidatePicks (entry : JsonValue) : List SensePick :=
  match field entry "candidates" with
  | .arr candidates => candidates.map fun c => ⟨textField c "sense_id", textField c "gloss"⟩
  | _ => []

def pickJson (pick : SensePick) : JsonValue :=
  .obj [("sense_id", .str pick.senseId), ("gloss", .str pick.gloss)]

def judgeJson (entry : JudgeEntry) : JsonValue :=
  .obj [("sense_id", .str entry.senseId), ("gloss", .str entry.gloss), ("model", .str entry.model),
    ("picks", .arr (entry.picks.map pickJson))]

/-- An item is recorded, with a fallback where there is no verdict for it. -/
def recordVerdict (verdicts : String → Option JsonValue) (item : PipelineItem) : Pipeline Unit := do
  let w ← get
  let anchor := (w.states .anchorRank).entryOr item.key
  let verdict := (verdicts item.key).getD (judgeJson (arbiterFallback (candidatePicks anchor)))
  updateState .senseJudge fun st =>
    let st := st.put item.key verdict
    if (textField verdict "model").startsWith "s1-" then st.note item.key else st

/-- How the judge is asked about the items of a batch. -/
abbrev AskJudge := Progress → Nat → List PipelineItem → LegCall (String → Option JsonValue)

def judgeOneBatch (s : PipelineSession) (ask : AskJudge) (batchNo : Nat)
    (batch : List PipelineItem) : Pipeline Unit := do
  let w ← get
  let todo := todoOf w.states .senseJudge batch
  if todo = [] then pure ()
  else do
    todo.forM (backfillTags s)
    let w ← get
    let verdicts ← callLeg s .senseJudge "s2" batchNo (ask w.states batchNo todo)
    todo.forM (recordVerdict verdicts)

def mergeMapping (mapping : Dict) : Pipeline Unit :=
  updateState .senseJudge fun st => mapping.foldl (fun st e => st.put e.1 e.2) st

/-- The batches with something to do. -/
def asyncUnits (s : PipelineSession) (states : Progress) (items : List PipelineItem) :
    List (Nat × List PipelineItem) :=
  ((stageBatches (s.selection.selected .senseJudge) items judgeBatch).map fun b =>
    (b.1, todoOf states .senseJudge b.2)).filter fun u => u.2 ≠ []

/-- The verdicts that were computed ahead; the terminal error comes at the first
batch that had something to do. -/
def askAhead (units : List (Nat × List PipelineItem)) (maps : List (Nat × Dict))
    (terminal : Option LegError) : AskJudge := fun _ batchNo _ =>
  { reply := match terminal with
      | some e =>
        if units.head?.map (·.1) = some batchNo then .error e
        else .ok fun key => ((maps.lookup batchNo).getD []).lookup key
      | none => .ok fun key => ((maps.lookup batchNo).getD []).lookup key }

/-- With an asynchronous judge all batches are judged before the loop. -/
def judgeAhead (s : PipelineSession) (items : List PipelineItem) : Pipeline AskJudge :=
  match s.legs.judgeAsync with
  | none => pure s.legs.judge
  | some run => do
    let w ← get
    let units := asyncUnits s w.states items
    units.forM fun u => u.2.forM (backfillTags s)
    let w ← get
    let judged := run w.states units
    judged.settled.forM fun mapping => do
      mergeMapping mapping
      flushNow
    let (maps, terminal) ← runLeg judged.result
    maps.forM fun m => mergeMapping m.2
    pure (askAhead units maps terminal)

/-- The entry is still to be routed. -/
def needsProper (st : StageState) (item : PipelineItem) : Bool :=
  match st.entry item.key with
  | some (.obj e) => !(hasField (.obj e) "proper_route" && hasField (.obj e) "proper_drop")
  | _ => false

def routeEntry (verdict : ProperVerdict) : JsonValue → JsonValue
  | .obj e =>
    .obj (Dict.set (Dict.set e "proper_route" (.str verdict.properRoute)) "proper_drop"
      (.str verdict.reason))
  | value => value

def properItem (s : PipelineSession) (item : PipelineItem) : Pipeline Unit := do
  let w ← get
  if needsProper (w.states .senseJudge) item then do
    let entry := (w.states .senseJudge).entryOr item.key
    let verdict ← runLeg
      (s.legs.properRoute item entry ((w.states .anchorRank).entry item.key))
    updateState .senseJudge fun st =>
      let st := st.put item.key (routeEntry verdict entry)
      if verdict.reason = "" then st else st.note item.key
  else pure ()

/-- The post-judge routing of proper nouns. -/
def properPass (s : PipelineSession) (items : List PipelineItem) : Pipeline Unit := do
  let w ← get
  items.forM (properItem s)
  if items.any (needsProper (w.states .senseJudge)) then flushNow else pure ()

def judgeStage (s : PipelineSession) (items : List PipelineItem) : Pipeline Unit := do
  let ask ← judgeAhead s items
  overBatches s .senseJudge judgeBatch items (judgeOneBatch s ask)
  requireDicts .senseJudge
  properPass s items

/-! ## `topic_vectors`, `topic_label` and `enrich` -/

/-- A stored pick is taken unless its sense or its gloss is there already. -/
def addPick (s : PipelineSession) (out : List SensePick) (value : JsonValue) : List SensePick :=
  let pick := SensePick.mk (textField value "sense_id") (textField value "gloss")
  if pick.senseId = "" ∨ out.any fun p => p.senseId = pick.senseId ∨
      s.legs.normalizeIdPart p.gloss = s.legs.normalizeIdPart pick.gloss then out
  else out ++ [pick]

def arbiterFanoutPicks (s : PipelineSession) (entry : JsonValue) : List SensePick :=
  let single := [SensePick.mk (textField entry "sense_id") (textField entry "gloss")]
  match field entry "picks" with
  | .arr picks =>
    match (picks.take maxFanout).foldl (addPick s) [] with
    | [] => single
    | out => out
  | _ => single

def otherVector : JsonValue :=
  .arr [.obj [("label", .str "Other / Abstract"), ("weight", .float 1)]]

/-- The vectors of the picks after the first. -/
def extraVectors (vecs : String → Option JsonValue) (picks : List SensePick) : Dict :=
  picks.tail.filterMap fun sub =>
    if sub.senseId = "" then none else (vecs sub.senseId).map (Prod.mk sub.senseId)

/-- `{**hit, "extra_vec": extra}`, where there are any. -/
def withExtra (extra : Dict) : JsonValue → JsonValue
  | .obj hit => if extra = [] then .obj hit else .obj (Dict.set hit "extra_vec" (.obj extra))
  | value => value

def recordVector (s : PipelineSession) (vecs : String → Option JsonValue) (item : PipelineItem) :
    Pipeline Unit := do
  let w ← get
  let picks := arbiterFanoutPicks s ((w.states .senseJudge).entryOr item.key)
  let sid := (picks.head?.map (·.senseId)).getD ""
  let extra := extraVectors vecs picks
  updateState .topicVectors fun st =>
    match if sid = "" then none else vecs sid with
    | some hit => st.put item.key (withExtra extra hit)
    | none => (st.note item.key).put item.key (withExtra extra
        (.obj [("vector", otherVector), ("model", .str "deterministic")]))

def vectorsBatch (s : PipelineSession) (batchNo : Nat) (batch : List PipelineItem) :
    Pipeline Unit := do
  let w ← get
  let todo := todoOf w.states .topicVectors batch
  if todo = [] then pure ()
  else do
    let vecs ← callLeg s .topicVectors "s3" batchNo (s.legs.vectors w.states batchNo todo)
    todo.forM (recordVector s vecs)

def vectorsStage (s : PipelineSession) (items : List PipelineItem) : Pipeline Unit := do
  overBatches s .topicVectors batchWidth items (vectorsBatch s)
  requireDicts .topicVectors

/-- `_needs_fanout_relabel` and `_needs_fanout_reenrich`. -/
def needsFanout (s : PipelineSession) (entry judged : Option JsonValue) : Bool :=
  match entry, judged with
  | some (.obj e), some (.obj j) =>
    !hasField (.obj e) "extra" && decide (1 < (arbiterFanoutPicks s (.obj j)).length)
  | _, _ => false

/-- The items of a batch that have no label, or none for their secondary picks. -/
def labelTodo (s : PipelineSession) (states : Progress) (batch : List PipelineItem) :
    List PipelineItem :=
  batch.filter fun item => ((states .topicLabel).entry item.key).isNone ||
    needsFanout s ((states .topicLabel).entry item.key) ((states .senseJudge).entry item.key)

def recordLabel (assigned : String → Option JsonValue) (item : PipelineItem) : Pipeline Unit :=
  match assigned item.key with
  | some label => updateState .topicLabel (·.put item.key label)
  | none => throw (.raised (.other "KeyError"))

def labelBatchOf (s : PipelineSession) (batchNo : Nat) (batch : List PipelineItem) :
    Pipeline Unit := do
  let w ← get
  let todo := labelTodo s w.states batch
  if todo = [] then pure ()
  else do
    let assigned ← callLeg s .topicLabel "s4" batchNo (s.legs.label w.states batchNo todo)
    todo.forM (recordLabel assigned)

def labelStage (s : PipelineSession) (items : List PipelineItem) : Pipeline Unit :=
  overBatches s .topicLabel labelBatch items (labelBatchOf s)

/-- The item is enriched, again where its entry is of an older version. -/
def needsEnrich (s : PipelineSession) (done judged : Option JsonValue) : Bool :=
  match done with
  | some (.obj e) =>
    !hasField (.obj e) "pre_card_id" || !hasField (.obj e) "sense_cefr_method" ||
      !hasField (.obj e) "example_fallback" ||
      textField (.obj e) "sense_cefr_method" = "pool-fallback" || needsFanout s done judged
  | _ => true

def enrichOne (s : PipelineSession) (item : PipelineItem) : Pipeline Unit := do
  let w ← get
  let judged := (w.states .senseJudge).entry item.key
  if needsEnrich s ((w.states .enrich).entry item.key) judged then do
    let entry := (w.states .senseJudge).entryOr item.key
    let primary ← runLeg (s.legs.enrichItem w.states item entry)
    let extras ← runLeg <| ((arbiterFanoutPicks s entry).tail.filter (·.senseId ≠ "")).mapM
      fun sub => s.legs.enrichItem w.states item (pickJson sub)
    let primary := if extras = [] then primary else primary.set "extra" (.arr (extras.map .obj))
    updateState .enrich (·.put item.key (.obj primary))
  else pure ()

def enrichStage (s : PipelineSession) (items : List PipelineItem) : Pipeline Unit :=
  overBatches s .enrich batchWidth items fun _ batch => batch.forM (enrichOne s)

/-! ## Assembly and emission -/

/-- The extra of this sense; a later one replaces an earlier one. -/
def extraOf (entry : JsonValue) (senseId : String) : JsonValue :=
  match field entry "extra" with
  | .arr extras =>
    ((extras.filter fun e => isDict e ∧ textField e "sense_id" = senseId ∧ senseId ≠ "").getLast?).getD
      (.obj [])
  | _ => .obj []

/-- `a or b`. -/
def orElse (a b : JsonValue) : JsonValue := if a.truthy then a else b

def rowParts (states : Progress) (key : String) (pos : Nat) (sub : SensePick) : RowParts :=
  let enrich := (states .enrich).entryOr key
  let label := (states .topicLabel).entryOr key
  let vec3 := (states .topicVectors).entryOr key
  let subLabel := if pos = 0 then label else extraOf label sub.senseId
  { pick := sub
    enrich := if pos = 0 then enrich else extraOf enrich sub.senseId
    label := subLabel
    vector := orElse (field subLabel "vector")
      (orElse (field (field (field vec3 "extra_vec") sub.senseId) "vector")
        (orElse (if pos = 0 then field vec3 "vector" else .null) otherVector))
    vec3
    judge := (states .senseJudge).entryOr key
    preprocess := (states .preprocess).entryOr key
    s0b := (states .inflectionReview).entryOr key
    anchor := (states .anchorRank).entryOr key }

/-- `arbiter_fanout_picks(item, pick) or [{"sense_id": "", "gloss": ""}]`. -/
def rowPicks (s : PipelineSession) (judged : JsonValue) : List SensePick :=
  match arbiterFanoutPicks s judged with
  | [] => [⟨"", ""⟩]
  | picks => picks

/-- `_build_precard_row`, for each pick of the item. -/
def rowsOf (s : PipelineSession) (states : Progress) (item : PipelineItem) : List PrecardRow :=
  let picks := rowPicks s ((states .senseJudge).entryOr item.key)
  picks.zipIdx.map fun (sub, pos) =>
    { key := item.key
      kind := if item.kind = "" then "word" else item.kind
      text := item.text
      redirectTo := item.redirectTo
      redirectedFrom := item.redirectedFrom
      pickIndex := pos
      fanoutN := picks.length
      fields := s.legs.rowFields item (rowParts states item.key pos sub) }

abbrev Precards := List (String × List PrecardRow)

/-- The first item with a key makes its rows. -/
def assemble (s : PipelineSession) (states : Progress) (items : List PipelineItem) : Precards :=
  items.foldl (fun precards item =>
    if (precards.lookup item.key).isSome then precards
    else precards ++ [(item.key, rowsOf s states item)]) []

/-- The rows of the items, each key once. -/
def emitRows (precards : Precards) : List String → List PipelineItem → List PrecardRow
  | _, [] => []
  | seen, item :: items =>
    if item.key ∈ seen then emitRows precards seen items
    else (precards.lookup item.key).getD [] ++ emitRows precards (item.key :: seen) items

def auditSampleAccounting (items : List PipelineItem) (precards : Precards) (states : Progress) :
    List String :=
  ((items.filter fun item =>
    (precards.lookup item.key).getD [] = [] &&
      !((states .preprocess).marked (fun v => isDict v && hasField v "kept" &&
          !(field v "kept").truthy) item.key ||
        (states .anchorRank).marked anchorDropped item.key ||
        (states .inflectionReview).marked (fun v => isDict v && hasField v "kept" &&
          !(field v "kept").truthy) item.key ||
        (states .senseJudge).marked properDropped item.key)).map (·.key)).dedup.mergeSort

/-! ## The session -/

def PipelineSession.processed (s : PipelineSession) : List PipelineItem :=
  if s.limit = 0 then s.sample else s.sample.take s.limit

/-- The exit for keys to redo that are not in the sample. -/
def rekeyError (s : PipelineSession) : Option String :=
  let unknown := s.rekeyed.filter fun key => key ∉ s.processed.map (·.key)
  let more := if 10 < unknown.length then s!" (+{unknown.length - 10} more)" else ""
  let shown := ", ".intercalate (unknown.take 10) ++ more
  if unknown = [] then none
  else some s!"rekey key(s) not in sample {s.samplePath}: {shown} (--rekey keys must match sample item keys)"

/-- The keys to redo lose their entries in the selected stages and downstream. -/
def rekeyStates (s : PipelineSession) (states : Progress) : Progress := fun stage =>
  if s.selection.selected stage ∨
      Stage.all.any fun up => s.selection.selected up && decide (stage ∈ up.downstream) then
    (states stage).evict s.rekeyed
  else states stage

def refuseEmptyUpstream (s : PipelineSession) (states : Progress) : Option String :=
  s.selection.flag.bind fun flag =>
    Stage.all.findSome? fun stage =>
      if s.selection.selected stage then
        stage.requiresUpstream.findSome? fun upstream =>
          if s.selection.selected upstream ∨ (states upstream).done ≠ [] then none
          else some s!"{flag} {stage.id} with empty upstream {upstream.id} (no {upstream.id} progress, and {upstream.id} is not selected) — run the full pipeline first (drop {flag}), or re-run without --no-resume"
      else none

/-- The states are loaded. -/
def loadProgress (s : PipelineSession) : Pipeline Unit := do
  let w ← get
  match w.dir.loadStates s.resume with
  | .ok states => modify fun w => { w with states }
  | .error (.preflight message) => throw (.exit message)
  | .error .raised => throw (.raised (.other "OSError"))

/-- The stages within the `try`, with the survivors and their rows. -/
def laterStages (s : PipelineSession) (items : List PipelineItem) :
    Pipeline (List PipelineItem × Precards) := do
  inflectionStage s items
  let w ← get
  let reviewed := w.states .inflectionReview
  let items := (dropMarked reviewed notKept items).map (redirect s reviewed)
  anchorStage s items
  let w ← get
  let items := dropMarked (w.states .anchorRank) anchorDropped items
  judgeStage s items
  let w ← get
  let items := dropMarked (w.states .senseJudge) properDropped items
  vectorsStage s items
  labelStage s items
  enrichStage s items
  let w ← get
  pure (items, assemble s w.states items)

/-- `except KeyboardInterrupt`. -/
def onInterrupt {α : Type} : PipelineStop → Pipeline α
  | .raised .interrupted => throw (.exit "130")
  | stop => throw stop

/-- `precard.jsonl` is written beside and replaced. -/
def writeRows (s : PipelineSession) (rows : List PrecardRow) : Pipeline Unit :=
  match s.outFails with
  | some name => throw (.raised (.other name))
  | none => modify fun w => { w with out := some rows }

/-- `main`, after the arguments. -/
def PipelineSession.main (s : PipelineSession) : Pipeline Unit :=
  if s.dryRun then pure ()
  else do
    loadProgress s
    exitIf (rekeyError s)
    modify fun w => { w with states := rekeyStates s w.states }
    let w ← get
    exitIf (refuseEmptyUpstream s w.states)
    exitIf s.indexFails
    preprocessStage s s.processed
    let w ← get
    let items := dropMarked (w.states .preprocess) notKept s.processed
    exitIf s.providersFail
    let (items, precards) ←
      withCleanup (tryCatch (laterStages s items) onInterrupt) flushStates
    writeRows s (emitRows precards [] items)

structure PipelineFiles where
  dir : ProgressDir
  out : Option (List PrecardRow)

/-- A session, and whether it returns 0. -/
def PipelineSession.run (s : PipelineSession) (f : PipelineFiles) : PipelineFiles × Bool :=
  match s.main ⟨fun _ => {}, f.dir, f.out⟩ with
  | .ok _ w => (⟨w.dir, w.out⟩, true)
  | .error _ w => (⟨w.dir, w.out⟩, false)

/-- Sessions over one progress directory, one after the other. -/
def runSessions (sessions : List PipelineSession) (f : PipelineFiles) : PipelineFiles :=
  sessions.foldl (fun f s => (s.run f).1) f

end HamZaboon
