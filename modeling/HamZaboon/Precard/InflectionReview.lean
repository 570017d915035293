import HamZaboon.Precard.AnchorVerdict
import HamZaboon.Precard.JudgeStage
import HamZaboon.Precard.LegWalk
import HamZaboon.Precard.Replies

/-! # The review of inflected forms

`inflection_review` in `judge.py`.  A key with a sense of its own in the anchor map is kept
at once; the others go to the models in batches.  Every batch walks the providers, their
models and the attempts on a model; a reply that settles it gives a verdict to each of its
keys, and whatever else happens they are kept in the end, or the review stops with an error.

What the transport answers on each call is the script of the review.  The log has an entry
for each attempt, with the answers that were met.
-/

namespace HamZaboon
open Library

def inflectionReviewBatch : Nat := 16

def maxAttempts : Nat := 2

def retryPrefix : String :=
  "Your last reply was not valid JSON. " ++ "Re-send ONLY the JSON object.\n"

structure ReviewItem where
  key : String
  text : String
  gloss : String
  deriving DecidableEq, Repr

structure InflectionVerdict where
  keep : Bool
  reason : List Nat
  model : String
  uncertain : Bool
  deriving DecidableEq, Repr

/-- `_inflection_review_prompt`, under the head lines. -/
def inflectionReviewPrompt (head : List String) (batch : List ReviewItem) : String :=
  "\n".intercalate (head ++ batch.flatMap fun entry =>
    ["KEY " ++ entry.key, "word: " ++ entry.text,
      "gloss: " ++ String.ofList (entry.gloss.toList.take 200)])

/-! ## Senses of their own -/

/-- `(value or {}).get(key)`; none where it raises. -/
def getOf (value : JsonValue) (key : String) : Option JsonValue :=
  match value with
  | .obj entries => some (Dict.get entries key)
  | value => if value.truthy then none else some .null

section Precheck
variable (py : GlossText)

/-- `_is_name_row`; a part of speech that is no text names nothing. -/
def isNameRow (sense : JsonValue) : Bool :=
  let pos := match getOf sense "pos" with
    | some (.str pos) => py.casefold (py.strip pos)
    | _ => ""
  let gloss := match getOf sense "gloss" with
    | some (.str gloss) => gloss
    | _ => ""
  isProper pos || isNameGloss py.toPyText gloss

/-- The loop over the candidates; false where it raises. -/
def independentAmong : List JsonValue → Bool
  | [] => false
  | cand :: cands =>
    match getOf cand "gloss" with
    | none => false
    | some (.str gloss) =>
      if py.strip gloss = "" || isNameRow py cand || isVetoStubGloss py.toPyText gloss then
        independentAmong cands
      else true
    -- only a text can be stripped
    | some gloss => if gloss.truthy then false else independentAmong cands

def reviewHasIndependentSense (key : String) (anchorMap : JsonValue) : Bool :=
  match ((getOf anchorMap key).bind (getOf · "candidates")).bind JsonValue.iterate with
  | some cands => independentAmong py cands
  | none => false

end Precheck

/-! ## Replies -/

/-- A row of a reply with its key; any other value is passed over. -/
def keyedRow : JsonTree → Option (List Nat × Entries)
  | .obj entries =>
    match getEntry entries "key" with
    | .str key => some (key, entries)
    | _ => none
  | _ => none

/-- The loop over the rows of a reply: of two rows with one key the later counts. -/
def indexReview (rows : List JsonTree) : List (List Nat × Entries) :=
  (rows.filterMap keyedRow).foldl (fun byKey row => setEntry byKey row.1 row.2) []

def validateReviewResults (data : Entries) (wantKeys : List String) :
    Option (List (List Nat × Entries)) :=
  match getEntry data "results" with
  | .arr rows =>
    let byKey := indexReview rows
    if (byKey.all fun row => wantKeys.any fun key => points key = row.1) &&
        wantKeys.all fun key => (byKey.lookup (points key)).isSome then some byKey
    else none
  | _ => none

/-- `out`. -/
abbrev ReviewOut := String → Option InflectionVerdict

/-- The loop over the rows of a batch; it ends at a `keep` that is no truth value. -/
def takeRows (model : String) (byKey : List (List Nat × Entries)) :
    List String → ReviewOut → ReviewOut × Bool
  | [], out => (out, true)
  | key :: want, out =>
    let row := (byKey.lookup (points key)).getD []
    match getEntry row "keep" with
    | .bool keep =>
      let reason := match getEntry row "reason" with
        | .str reason => reason
        | _ => []
      takeRows model byKey want (Function.update out key (some ⟨keep, reason, model, false⟩))
    | _ => (out, false)

/-! ## Attempts -/

/-- What a review is given besides its items. -/
structure ReviewCall where
  py : GlossText
  limits : ScanLimits
  anchorMap : JsonValue
  /-- The lines before the items in a prompt. -/
  head : List String
  /-- `tele_provider`. -/
  provider : String
  models : List String
  ring : KeyRing
  rings : Option (List (String × KeyRing))
  /-- The providers that the tunnel flag lists. -/
  tunneled : List String

structure ReviewAttempt where
  batchNo : Nat
  batch : List ReviewItem
  step : LegStep
  model : String
  /-- Not the first attempt on its model. -/
  retry : Bool
  answers : List Answer
  result : CallResult
  deriving DecidableEq

/-- The state of a review, with the flags of the batch. -/
structure ReviewState where
  out : ReviewOut
  rings : String → KeyRing
  /-- The calls of the transport so far. -/
  calls : Nat
  log : List ReviewAttempt
  settled : Bool
  limitedAll : Bool
  nTried : Nat

/-- How an attempt goes on: the batch is settled, another attempt follows, the next model
follows, or the provider or the whole review is left. -/
inductive AttemptEnd
  | settled
  | retry
  | limited
  | cooled (e : TerminalKind)
  | auth
  deriving DecidableEq, Repr

/-- How the attempts on a model, or the models of a provider, leave the loop around them. -/
inductive LoopEnd
  | on
  | cooled (e : TerminalKind)
  | raised (e : TerminalKind)
  deriving DecidableEq, Repr

/-- How a review ends; `unbound` is the name `eff` that no provider has bound. -/
inductive ReviewEnd
  | returned
  | raised (e : TerminalKind)
  | unbound
  deriving DecidableEq, Repr

def wantOf (batch : List ReviewItem) : List String := batch.map (·.key)

def ReviewAttempt.text (head : List String) (a : ReviewAttempt) : String :=
  (if a.retry then retryPrefix else "") ++ inflectionReviewPrompt head a.batch

namespace ReviewState

/-- `limited_all = False`. -/
def unlimited (s : ReviewState) : ReviewState := { s with limitedAll := false }

def called (s : ReviewState) (a : ReviewAttempt) (ring : KeyRing) : ReviewState :=
  { s with
    rings := Function.update s.rings a.step.provider ring
    calls := s.calls + a.answers.length
    log := s.log ++ [a] }

def reply (limits : ScanLimits) (model : String) (want : List String) (raw : String)
    (s : ReviewState) : ReviewState × AttemptEnd :=
  match (extractJson limits raw.toList).toOption.bind (validateReviewResults · want) with
  | none => (s.unlimited, .retry)
  | some byKey =>
    let (out, rowsOk) := takeRows model byKey want s.out
    if rowsOk then ({ s with out := out, settled := true }, .settled)
    -- with the rows taken so far, what an earlier batch gave for these keys goes too
    else ({ s.unlimited with out := fun key => if key ∈ want then none else out key }, .retry)

end ReviewState

namespace ReviewCall
variable (call : ReviewCall)

/-- `str.strip` and `str.lower`. -/
def lib : StrLib := ⟨call.py.strip, call.py.lower⟩

/-- Kept before any prompt. -/
def prechecked (key : String) : Bool :=
  key ≠ "" && reviewHasIndependentSense call.py key call.anchorMap

/-- `tele_provider or "avalai"`. -/
def baseProvider : String := if call.provider = "" then "avalai" else call.provider

def walk : List LegStep :=
  (resolveLegWalk call.lib call.tunneled "inflection_review" call.baseProvider
    (if call.models = [] then none else some call.models)
    (call.rings.map (·.map Prod.fst))).getD []

/-- The state after the pre-check, and the items that are left. -/
def precheck (items : List ReviewItem) : ReviewOut × List ReviewItem :=
  items.foldl (fun (out, pending) entry =>
    if call.prechecked entry.key then
      (Function.update out entry.key
        (some ⟨true, points "review-has-independent-sense", "review-precheck", false⟩), pending)
    else (out, pending ++ [entry])) (fun _ => none, [])

def start (out : ReviewOut) : ReviewState where
  out := out
  rings provider := ((call.rings.getD []).lookup provider).getD call.ring
  calls := 0
  log := []
  settled := false
  limitedAll := true
  nTried := 0

variable (script : Nat → Answer)

/-! ## The loops -/

section Batch
variable (batchNo : Nat) (batch : List ReviewItem)

def attempt (step : LegStep) (model : String) (retry : Bool) (s : ReviewState) :
    ReviewState × AttemptEnd :=
  let o := step.callLeg call.lib (s.rings step.provider) fun k => script (s.calls + k)
  let s := s.called ⟨batchNo, batch, step, model, retry, o.tried.map (·.2), o.result⟩ o.ring
  match o.result with
  | .text raw => s.reply call.limits model (wantOf batch) raw
  | .exhausted | .rateLimited => (s, .limited)
  | .providerCooldown => (s, .cooled .providerCooldown)
  | .locationBlocked => (s, .cooled .locationBlocked)
  | .authError => (s, .auth)
  | .failed => (s.unlimited, .retry)

def attempts (step : LegStep) (model : String) : List Nat → ReviewState → ReviewState × LoopEnd
  | [], s => (s, .on)
  | n :: rest, s =>
    match call.attempt script batchNo batch step model (n ≠ 0) s with
    | (s, .settled) | (s, .limited) => (s, .on)
    | (s, .cooled e) => (s, .cooled e)
    | (s, .auth) => (s, .raised .auth)
    | (s, .retry) => attempts step model rest s

def modelLoop (step : LegStep) : List String → ReviewState → ReviewState × LoopEnd
  | [], s => (s, .on)
  | model :: models, s =>
    match call.attempts script batchNo batch step model (List.range maxAttempts)
        { s with nTried := s.nTried + 1 } with
    | (s, .on) => if s.settled then (s, .on) else modelLoop step models s
    | left => left

/-- The loop over the providers; the error, if one is raised. -/
def providerLoop : List LegStep → ReviewState → ReviewState × Option TerminalKind
  | [], s => (s, none)
  | step :: steps, s =>
    match call.modelLoop script batchNo batch step step.models s with
    -- also where the batch is settled
    | (s, .on) => providerLoop steps s
    | (s, .cooled e) => if cooldownContinues steps then providerLoop steps s else (s, some e)
    | (s, .raised e) => (s, some e)

/-- The keys of a batch that is not settled and have no entry are kept. -/
def fallback (s : ReviewState) : ReviewOut := fun key =>
  if s.settled = false ∧ key ∈ wantOf batch ∧ s.out key = none then
    some ⟨true, points "review-error", "review-fallback", true⟩
  else s.out key

/-- A batch; how the review ends, if it does. -/
def reviewBatch (s : ReviewState) : ReviewState × Option ReviewEnd :=
  match call.providerLoop script batchNo batch call.walk
      { s with settled := false, limitedAll := true, nTried := 0 } with
  | (s, some e) => (s, some (.raised e))
  | (s, none) =>
    if s.settled = false ∧ s.limitedAll = true ∧ s.nTried ≠ 0 then
      (s, some (.raised .rateLimited))
    -- the telemetry names the provider of the last step
    else if call.walk = [] then ({ s with out := fallback batch s }, some .unbound)
    else ({ s with out := fallback batch s }, none)

end Batch

def reviewBatches : List (List ReviewItem × Nat) → ReviewState → ReviewState × ReviewEnd
  | [], s => (s, .returned)
  | (batch, batchNo) :: batches, s =>
    match call.reviewBatch script batchNo batch s with
    | (s, none) => reviewBatches batches s
    | (s, some ended) => (s, ended)

def batchesOf (pending : List ReviewItem) : List (List ReviewItem × Nat) :=
  ((stageRange true pending.length inflectionReviewBatch).map fun base =>
    (pending.drop base).take inflectionReviewBatch).zipIdx 1

def inflectionReview (items : List ReviewItem) : ReviewState × ReviewEnd :=
  call.reviewBatches script (batchesOf (call.precheck items).2) (call.start (call.precheck items).1)

end ReviewCall
end HamZaboon
