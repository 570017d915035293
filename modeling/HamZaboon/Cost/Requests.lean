import HamZaboon.Store.Schema
import HamZaboon.Library.GroupSum
import Mathlib.Data.Rat.Defs
import Mathlib.Algebra.Field.Rat

/-! # Request costs and their daily rollup

`services/db/cost_tracking.py`: the raw table `llm_requests`, the per-day totals
`llm_daily_rollup` a purge folds old rows into, and the two dashboard readers
that merge the two.  Money and token sums are exact rationals here.

The readers look at the filter dictionary twice: `LlmFilters.matches` drops
entries that are `None` or empty, while `LlmFilters.rollupEligible` looks at which
keys are there at all.
-/

namespace HamZaboon
open Library

/-- The columns of an `llm_requests` row that the readers and the purge use. -/
structure LlmRequest where
  id : Nat
  requestDate : Day
  userId : UserId
  plan : String
  requestKind : String
  model : String
  outcome : String
  promptTokens : Option Int
  completionTokens : Option Int
  totalTokens : Option Int
  inputCostUsdPerMillion : ℚ
  outputCostUsdPerMillion : ℚ
  usdToTomanRate : ℚ
  costUsd : ℚ
  costToman : ℚ
  latencyMs : Option Int
  deriving DecidableEq

/-- `_ROLLUP_SUM_KEYS`. -/
inductive RollupKey
  | requestCount
  | promptTokens
  | completionTokens
  | totalTokens
  | costUsd
  | costToman
  | inputCostUsd
  | outputCostUsd
  | inputCostToman
  | outputCostToman
  | successCount
  | billedFailureCount
  | zeroCostFailureCount
  | billedFailureCostUsd
  | billedFailureCostToman
  deriving DecidableEq, Repr

/-- A token column, with `NULL` as zero. -/
def tokens (n : Option Int) : ℚ := (n.getD 0 : Int)

/-- What one row adds under each key: the expressions inside the `SUM`s. -/
def LlmRequest.amount (r : LlmRequest) : RollupKey → ℚ
  | .requestCount => 1
  | .promptTokens => tokens r.promptTokens
  | .completionTokens => tokens r.completionTokens
  | .totalTokens => tokens r.totalTokens
  | .costUsd => r.costUsd
  | .costToman => r.costToman
  | .inputCostUsd => tokens r.promptTokens * r.inputCostUsdPerMillion / 1000000
  | .outputCostUsd => tokens r.completionTokens * r.outputCostUsdPerMillion / 1000000
  | .inputCostToman =>
      tokens r.promptTokens * r.inputCostUsdPerMillion * r.usdToTomanRate / 1000000
  | .outputCostToman =>
      tokens r.completionTokens * r.outputCostUsdPerMillion * r.usdToTomanRate / 1000000
  | .successCount => if r.outcome = "success" then 1 else 0
  | .billedFailureCount => if r.outcome = "failure_billed" then 1 else 0
  | .zeroCostFailureCount => if r.outcome = "failure_zero_cost" then 1 else 0
  | .billedFailureCostUsd => if r.outcome = "failure_billed" then r.costUsd else 0
  | .billedFailureCostToman => if r.outcome = "failure_billed" then r.costToman else 0

/-- Totals by key, with the sum and the number of the known latencies. -/
structure RollupTotals where
  sums : RollupKey → ℚ
  latencySumMs : Int
  latencyCount : Nat

/-- A row of `llm_daily_rollup`. -/
structure RollupRow where
  requestDate : Day
  totals : RollupTotals

structure CostStore where
  requests : SerialTable LlmRequest LlmRequest.id
  rollup : KeyedTable Day RollupRow RollupRow.requestDate

/-! ## Filters -/

/-- An entry of the filter dictionary: no such key, a key with `None` or the empty
text, or a value. -/
inductive Entry (α : Type)
  | absent
  | empty
  | value (a : α)
  deriving DecidableEq

/-- The value a `WHERE` clause compares with, if there is one. -/
def Entry.get? {α : Type} : Entry α → Option α
  | .value a => some a
  | _ => none

/-- Whether the key is in the dictionary. -/
def Entry.present {α : Type} : Entry α → Bool
  | .absent => false
  | _ => true

abbrev FilterText := { s : String // s ≠ "" }

/-- The `filters` dictionary. -/
structure LlmFilters where
  startDate : Entry Day := .absent
  endDate : Entry Day := .absent
  userId : Entry UserId := .absent
  plan : Entry FilterText := .absent
  requestKind : Entry FilterText := .absent
  model : Entry FilterText := .absent
  outcome : Entry FilterText := .absent
  /-- Some key the readers do not know. -/
  otherKeys : Bool := false

/-- `request_date>=?` and `request_date<=?`. -/
def inRange (startDate endDate : Option Day) (d : Day) : Bool :=
  startDate.all (· ≤ d) && endDate.all (d ≤ ·)

/-- `_llm_request_filters_where`, as a predicate on rows. -/
def LlmFilters.matches (f : LlmFilters) (r : LlmRequest) : Bool :=
  inRange f.startDate.get? f.endDate.get? r.requestDate &&
    f.userId.get?.all (r.userId = ·) &&
    f.plan.get?.all (r.plan = ·.1) &&
    f.requestKind.get?.all (r.requestKind = ·.1) &&
    f.model.get?.all (r.model = ·.1) &&
    f.outcome.get?.all (r.outcome = ·.1)

def LlmFilters.rollupEligible (f : LlmFilters) : Bool :=
  !(f.userId.present || f.plan.present || f.requestKind.present || f.model.present ||
    f.outcome.present || f.otherKeys)

/-! ## Readers -/

/-- SQL's `SUM`: `NULL` when there is nothing to add. -/
def sqlSum (l : List ℚ) : Option ℚ := if l = [] then none else some l.sum

/-- `SUM(latency_ms)`, with `NULL` as zero. -/
def latencySum (rows : List LlmRequest) : Int := (rows.filterMap (·.latencyMs)).sum

/-- `COUNT(latency_ms)`. -/
def latencyCount (rows : List LlmRequest) : Nat := (rows.filterMap (·.latencyMs)).length

/-- The dictionary `summarize_llm_requests` returns. -/
@[ext] structure LlmSummary where
  sums : RollupKey → Option ℚ
  avgLatencyMs : Option ℚ

/-- The base query of `summarize_llm_requests`. -/
def baseSummary (rows : List LlmRequest) : LlmSummary where
  sums
    | .requestCount => some rows.length
    | key => sqlSum (rows.map (·.amount key))
  avgLatencyMs :=
    if latencyCount rows = 0 then none else some (latencySum rows / latencyCount rows)

def CostStore.rollupIn (db : CostStore) (startDate endDate : Option Day) : List RollupRow :=
  db.rollup.rows.filter (fun r => inRange startDate endDate r.requestDate)

def CostStore.rollupSums (db : CostStore) (startDate endDate : Option Day) : RollupTotals :=
  let rows := db.rollupIn startDate endDate
  { sums := fun key => (rows.map (·.totals.sums key)).sum
    latencySumMs := (rows.map (·.totals.latencySumMs)).sum
    latencyCount := (rows.map (·.totals.latencyCount)).sum }

def CostStore.summarizeLlmRequests (db : CostStore) (f : LlmFilters) : LlmSummary :=
  let rows := db.requests.rows.filter f.matches
  let base := baseSummary rows
  if f.rollupEligible then
    let roll := db.rollupSums f.startDate.get? f.endDate.get?
    let totalCnt := latencyCount rows + roll.latencyCount
    { sums := fun key => some ((base.sums key).getD 0 + roll.sums key)
      avgLatencyMs :=
        if totalCnt = 0 then base.avgLatencyMs
        else some (((latencySum rows : ℚ) + roll.latencySumMs) / totalCnt) }
  else base

def CostStore.dailyCostsGrouped (db : CostStore) (f : LlmFilters) : List (Day × ℚ) :=
  let merged := groupAdd []
    ((db.requests.rows.filter f.matches).map (fun r => (r.requestDate, r.costUsd)))
  if f.rollupEligible then
    groupAdd merged ((db.rollupIn f.startDate.get? f.endDate.get?).map
      (fun r => (r.requestDate, r.totals.sums .costUsd)))
  else merged

/-! ## The purge -/

/-- `column=column+excluded.column`, for every column. -/
def RollupRow.add (r excluded : RollupRow) : RollupRow where
  requestDate := r.requestDate
  totals :=
    { sums := fun key => r.totals.sums key + excluded.totals.sums key
      latencySumMs := r.totals.latencySumMs + excluded.totals.latencySumMs
      latencyCount := r.totals.latencyCount + excluded.totals.latencyCount }

/-- The totals of the rows of one day of a batch. -/
def rollupRowOf (rows : List LlmRequest) (d : Day) : RollupRow :=
  let day := rows.filter (fun r => r.requestDate = d)
  { requestDate := d
    totals :=
      { sums := fun key => (day.map (·.amount key)).sum
        latencySumMs := latencySum day
        latencyCount := latencyCount day } }

theorem requestDate_add (r excluded : RollupRow) :
    (r.add excluded).requestDate = r.requestDate := rfl

/-- The rollup upsert of one day of a batch. -/
def mergeDay (rows : List LlmRequest) (t : KeyedTable Day RollupRow RollupRow.requestDate)
    (d : Day) : KeyedTable Day RollupRow RollupRow.requestDate :=
  t.upsert (rollupRowOf rows d) (·.add (rollupRowOf rows d)) (fun r => requestDate_add r _)

def CostStore.oldRows (db : CostStore) (cutoff : Day) : List LlmRequest :=
  db.requests.rows.filter (fun r => r.requestDate < cutoff)

/-- One batch: its rows are folded into the rollup and deleted, in one
transaction. -/
def CostStore.purgeRows (db : CostStore) (rows : List LlmRequest) : CostStore where
  requests := db.requests.deleteWhere (fun r => rows.any (fun x => x.id = r.id))
  rollup := ((rows.map (·.requestDate)).dedup).foldl (mergeDay rows) db.rollup

/-- At most `n` batches of `purge_old_llm_requests`: after them the deadline has
passed, or the process has stopped. -/
def CostStore.purgeBatches (cutoff : Day) (batch : Nat) : Nat → CostStore → CostStore
  | 0, db => db
  | n + 1, db =>
      let rows := (db.oldRows cutoff).take batch
      if rows = [] then db
      else if rows.length < batch then db.purgeRows rows
      else purgeBatches cutoff batch n (db.purgeRows rows)

/-- `purge_old_llm_requests` stopped after `n` batches. -/
def CostStore.purgeOldLlmRequests (db : CostStore) (today : Day) (retentionDays batch : Int)
    (n : Nat) : CostStore :=
  CostStore.purgeBatches (today - retentionDays) (max 1 batch).toNat n db

end HamZaboon
