import HamZaboon.Cost.Conservation
import HamZaboon.Library.Runs

/-! # Deleting cost history

`delete_llm_requests` deletes rows of `llm_requests` and no others: what a purge
has folded into `llm_daily_rollup` stays there for good.  Over a run of logged
requests, purges and deletes the rollup is exactly the sum of the purged rows
(`rollup_run`), so after a delete the summary of the same days reports these
rows, and nothing else.
-/

namespace HamZaboon
open Library

/-! ## Logging and deleting -/

/-- The arguments of `add_llm_request` that the readers use. -/
structure LlmCall where
  userId : UserId
  plan : String
  requestKind : String
  model : String
  outcome : String
  promptTokens : Option Int
  completionTokens : Option Int
  totalTokens : Option Int
  inputCostUsdPerMillion : ℚ
  outputCostUsdPerMillion : ℚ
  usdToTomanRate : ℚ
  latencyMs : Option Int

/-- The row `add_llm_request` inserts on the day `today`. -/
def LlmCall.row (c : LlmCall) (today : Day) (id : Nat) : LlmRequest :=
  let promptTokens := c.promptTokens.getD 0
  let completionTokens := c.completionTokens.getD 0
  -- `total_tokens or (…)`: a zero counts as missing
  let totalTokens := if c.totalTokens.getD 0 = 0 then promptTokens + completionTokens
    else c.totalTokens.getD 0
  let costUsd := (promptTokens : ℚ) / 1000000 * c.inputCostUsdPerMillion +
    (completionTokens : ℚ) / 1000000 * c.outputCostUsdPerMillion
  { id := id
    requestDate := today
    userId := c.userId
    plan := c.plan
    requestKind := c.requestKind
    model := c.model
    outcome := c.outcome
    promptTokens := some promptTokens
    completionTokens := some completionTokens
    totalTokens := some totalTokens
    inputCostUsdPerMillion := c.inputCostUsdPerMillion
    outputCostUsdPerMillion := c.outputCostUsdPerMillion
    usdToTomanRate := c.usdToTomanRate
    costUsd := costUsd
    costToman := costUsd * c.usdToTomanRate
    latencyMs := c.latencyMs }

def CostStore.addLlmRequest (db : CostStore) (today : Day) (c : LlmCall) : CostStore :=
  { db with requests := db.requests.insert (c.row today) (fun _ => rfl) }

def CostStore.deleteLlmRequests (db : CostStore) (f : LlmFilters) : CostStore :=
  { db with requests := db.requests.deleteWhere f.matches }

/-! ## Runs -/

/-- An operation on the cost history; a purge stops after `batches` batches. -/
inductive CostEvent
  | log (today : Day) (call : LlmCall)
  | purge (today : Day) (retentionDays batch : Int) (batches : Nat)
  | delete (filters : LlmFilters)

def CostStore.step (db : CostStore) : CostEvent → CostStore
  | .log today call => db.addLlmRequest today call
  | .purge today retentionDays batch n => db.purgeOldLlmRequests today retentionDays batch n
  | .delete f => db.deleteLlmRequests f

/-- The rows an operation folds into the rollup. -/
def CostStore.purgedBy (db : CostStore) : CostEvent → List LlmRequest
  | .purge today retentionDays batch n =>
      db.purgedRows (today - retentionDays) (max 1 batch).toNat n
  | _ => []

/-- The rows that the purges of a run have folded into the rollup. -/
def CostStore.purgedIn (db : CostStore) : List CostEvent → List LlmRequest
  | [] => []
  | e :: events => db.purgedBy e ++ (db.step e).purgedIn events

/-- No request was ever logged. -/
def CostStore.empty : CostStore := ⟨SerialTable.empty, KeyedTable.empty⟩

variable {α : Type} [AddCommGroup α] {v : RollupRow → α} {w : LlmRequest → α}

theorem rollup_purge (h : Tracks v w) (db : CostStore) (cutoff : Day) {batch : Nat}
    (hb : 0 < batch) (n : Nat) :
    ((db.purgeBatches cutoff batch n).rollup.rows.map v).sum =
      (db.rollup.rows.map v).sum + ((db.purgedRows cutoff batch n).map w).sum := by
  have htotal := total_purgeBatches h db cutoff batch n
  have hsplit := sum_split (fun r => (db.purgedRows cutoff batch n).any (fun x => x.id = r.id)) w
    db.requests.rows
  have hpurged : (db.purgedRows cutoff batch n).Sublist db.requests.rows :=
    oldRows_sublist db cutoff _
  rw [db.requests.filter_any_key hpurged] at hsplit
  unfold CostStore.total at htotal
  rw [(rows_purgeBatches cutoff hb n db).1, ← hsplit, add_comm ((db.purgedRows cutoff batch n).map w).sum,
    add_assoc] at htotal
  rw [add_left_cancel htotal, add_comm]

theorem rollup_step (h : Tracks v w) (db : CostStore) (e : CostEvent) :
    ((db.step e).rollup.rows.map v).sum =
      (db.rollup.rows.map v).sum + ((db.purgedBy e).map w).sum := by
  cases e with
  | log today call => exact (add_zero _).symm
  | delete f => exact (add_zero _).symm
  | purge today retentionDays batch n => exact rollup_purge h db _ (by omega) n

theorem rollup_run (h : Tracks v w) (db : CostStore) (events : List CostEvent) :
    ((run CostStore.step db events).rollup.rows.map v).sum =
      (db.rollup.rows.map v).sum + ((db.purgedIn events).map w).sum := by
  induction events generalizing db with
  | nil => exact (add_zero _).symm
  | cons e events ih =>
    rw [run_cons, ih, rollup_step h, CostStore.purgedIn, List.map_append, List.sum_append,
      add_assoc]

/-! ## The summary after a delete -/

theorem matches_deleteLlmRequests (db : CostStore) (f : LlmFilters) :
    (db.deleteLlmRequests f).requests.rows.filter f.matches = [] := by
  refine List.filter_eq_nil_iff.mpr (fun r hr => ?_)
  have hkept := (List.mem_filter.mp hr).2
  rw [Bool.not_eq_true'] at hkept
  rw [hkept]
  exact Bool.false_ne_true

theorem summarize_deleteLlmRequests (db : CostStore) (f : LlmFilters) (key : RollupKey) :
    (((db.deleteLlmRequests f).summarizeLlmRequests f).sums key).getD 0 =
      if f.rollupEligible = true then
        ((db.rollup.rows.filter (fun r => f.days r.requestDate)).map (·.totals.sums key)).sum
      else 0 := by
  have hbase : ((baseSummary []).sums key).getD 0 = 0 := baseSummary_sums [] key
  unfold CostStore.summarizeLlmRequests
  simp only [matches_deleteLlmRequests]
  split
  · simp only [Option.getD_some, hbase, zero_add]
    rfl
  · exact hbase

/-- The purged rows of a filter's days. -/
def purgedOn (f : LlmFilters) (events : List CostEvent) : List LlmRequest :=
  (CostStore.empty.purgedIn events).filter (fun r => f.days r.requestDate)

theorem rollup_days (f : LlmFilters) (events : List CostEvent) (key : RollupKey) :
    (((run CostStore.step .empty events).rollup.rows.filter (fun r => f.days r.requestDate)).map
        (·.totals.sums key)).sum = ((purgedOn f events).map (·.amount key)).sum := by
  unfold purgedOn
  rw [sum_map_filter, sum_map_filter, rollup_run ((tracks_key key).restrict f.days)]
  exact zero_add _

/-- **What a delete leaves of the summary.**  After any run and a delete with a
filter that restricts rows by date only, every total of the summary over that
filter is the total of the rows of its days that a purge had moved to the rollup
before, if the rollup is read for the filter, and zero otherwise; in particular
no request is reported exactly when the rollup is not read or no request of these
days was ever purged. -/
theorem summary_after_delete (events : List CostEvent) {f : LlmFilters} (hf : f.DateOnly) :
    let db := (run CostStore.step .empty events).deleteLlmRequests f
    (∀ r ∈ db.requests.rows, f.days r.requestDate = false) ∧
    (∀ key, ((db.summarizeLlmRequests f).sums key).getD 0 =
      if f.rollupEligible = true then ((purgedOn f events).map (·.amount key)).sum else 0) ∧
    (((db.summarizeLlmRequests f).sums .requestCount).getD 0 = 0 ↔
      f.rollupEligible = true → purgedOn f events = []) := by
  intro db
  have hsums : ∀ key, ((db.summarizeLlmRequests f).sums key).getD 0 =
      if f.rollupEligible = true then ((purgedOn f events).map (·.amount key)).sum else 0 := by
    intro key
    rw [summarize_deleteLlmRequests, rollup_days]
  refine ⟨fun r hr => ?_, hsums, ?_⟩
  · have hkept := (List.mem_filter.mp hr).2
    rw [Bool.not_eq_true', hf.matches_eq] at hkept
    exact hkept
  · rw [hsums]
    have hcount : ((purgedOn f events).map (·.amount .requestCount)).sum =
        (purgedOn f events).length := by
      simp [LlmRequest.amount]
    rw [hcount]
    split
    · rename_i he
      simp [he]
    · rename_i he
      simp [he]

/-- A request of day 100. -/
def oneCall : LlmCall := ⟨7, "free", "word", "m", "success", some 20, some 10, none, 1, 2, 3, none⟩

/-- The request is logged, and purged 200 days later. -/
def purgedHistory : List CostEvent := [.log 100 oneCall, .purge 300 90 500 1]

theorem empty_filter_dateOnly : LlmFilters.DateOnly {} := ⟨rfl, rfl, rfl, rfl, rfl⟩

/-- After the delete of all history the purged request is still reported. -/
theorem delete_leaves_rollup :
    ¬ (∀ (events : List CostEvent) (f : LlmFilters), f.DateOnly →
        let db := (run CostStore.step .empty events).deleteLlmRequests f
        ((db.summarizeLlmRequests f).sums .requestCount).getD 0 = 0 ∧
          ((db.summarizeLlmRequests f).sums .costUsd).getD 0 = 0) := by
  intro h
  have hcount := (h purgedHistory {} empty_filter_dateOnly).1
  exact absurd hcount (by decide +kernel)

theorem summary_after_delete_purged :
    ((((run CostStore.step .empty purgedHistory).deleteLlmRequests {}).summarizeLlmRequests {}).sums
      .requestCount).getD 0 ≠ 0 := by
  intro h
  have hnone := (summary_after_delete purgedHistory empty_filter_dateOnly).2.2.mp h rfl
  exact absurd hnone (by decide +kernel)

end HamZaboon
