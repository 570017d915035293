import HamZaboon.Cost.Requests
import Mathlib.Algebra.Order.Ring.Rat
import Mathlib.Data.List.Dedup

/-! # What the purge conserves

A purge moves totals from the raw table into the rollup.  Every total the
readers compute is a sum over both tables (`CostStore.total`), and a batch keeps
each of them (`total_purgeRows`), so a reader that merges the two tables does not
notice the purge.  A reader that looks at the raw table only notices exactly the
purged rows that match its filter.
-/

namespace HamZaboon
open Library

/-! ## Totals over both tables -/

section Totals
variable {α : Type} [AddCommMonoid α]

/-- `v` is the rollup's column for the raw value `w`. -/
structure Tracks (v : RollupRow → α) (w : LlmRequest → α) : Prop where
  add : ∀ x e : RollupRow, x.requestDate = e.requestDate → v (x.add e) = v x + v e
  row : ∀ rows d, v (rollupRowOf rows d) = ((rows.filter (fun r => r.requestDate = d)).map w).sum

def CostStore.total (db : CostStore) (v : RollupRow → α) (w : LlmRequest → α) : α :=
  (db.requests.rows.map w).sum + (db.rollup.rows.map v).sum

theorem tracks_key (k : RollupKey) : Tracks (·.totals.sums k) (·.amount k) :=
  ⟨fun _ _ _ => rfl, fun _ _ => rfl⟩

theorem latencySum_eq (rows : List LlmRequest) :
    latencySum rows = (rows.map (fun r => r.latencyMs.getD 0)).sum := by
  unfold latencySum
  induction rows with
  | nil => rfl
  | cons r rows ih => cases h : r.latencyMs <;> simp [h, ih]

theorem latencyCount_eq (rows : List LlmRequest) :
    latencyCount rows = (rows.map (fun r => if r.latencyMs.isSome then 1 else 0)).sum := by
  unfold latencyCount
  induction rows with
  | nil => rfl
  | cons r rows ih => cases h : r.latencyMs <;> simp [h, ih, Nat.add_comm]

theorem tracks_latencySum : Tracks (·.totals.latencySumMs) (fun r => r.latencyMs.getD 0) :=
  ⟨fun _ _ _ => rfl, fun _ _ => latencySum_eq _⟩

theorem tracks_latencyCount :
    Tracks (·.totals.latencyCount) (fun r => if r.latencyMs.isSome then 1 else 0) :=
  ⟨fun _ _ _ => rfl, fun _ _ => latencyCount_eq _⟩

theorem Tracks.restrict {v : RollupRow → α} {w : LlmRequest → α} (h : Tracks v w)
    (q : Day → Bool) :
    Tracks (fun x => if q x.requestDate then v x else 0)
      (fun r => if q r.requestDate then w r else 0) where
  add x e hd := by
    have hdate : (x.add e).requestDate = x.requestDate := rfl
    rw [hdate, hd, h.add x e hd]
    split <;> simp
  row rows d := by
    have hdate : (rollupRowOf rows d).requestDate = d := rfl
    rw [hdate, h.row]
    have hday : ∀ r ∈ rows.filter (fun r => r.requestDate = d), r.requestDate = d :=
      fun r hr => of_decide_eq_true (List.mem_filter.mp hr).2
    split
    · rename_i hq
      congr 1
      refine List.map_congr_left (fun r hr => ?_)
      rw [hday r hr, if_pos hq]
    · rename_i hq
      refine (sum_map_eq_zero (fun r hr => ?_)).symm
      rw [hday r hr, if_neg hq]

theorem sum_map_filter {ρ : Type} (p : ρ → Bool) (w : ρ → α) (l : List ρ) :
    ((l.filter p).map w).sum = (l.map (fun x => if p x then w x else 0)).sum := by
  induction l with
  | nil => rfl
  | cons x l ih => by_cases h : p x <;> simp [h, ih]

theorem sum_split {ρ : Type} (p : ρ → Bool) (w : ρ → α) (l : List ρ) :
    ((l.filter p).map w).sum + ((l.filter (fun x => !p x)).map w).sum = (l.map w).sum := by
  induction l with
  | nil => simp
  | cons x l ih =>
    rw [List.map_cons, List.sum_cons, ← ih]
    by_cases h : p x <;> simp [h, add_assoc, add_left_comm]

theorem sum_mergeDays {v : RollupRow → α} {w : LlmRequest → α} (h : Tracks v w)
    (rows : List LlmRequest) (days : List Day)
    (t : KeyedTable Day RollupRow RollupRow.requestDate) :
    ((days.foldl (mergeDay rows) t).rows.map v).sum = (t.rows.map v).sum +
      (days.map (fun d => ((rows.filter (fun r => r.requestDate = d)).map w).sum)).sum := by
  induction days generalizing t with
  | nil => simp
  | cons d days ih =>
    have hday : ((mergeDay rows t d).rows.map v).sum =
        (t.rows.map v).sum + v (rollupRowOf rows d) :=
      sum_upsert t _ _ (fun x hx => h.add x _ hx)
    rw [List.foldl_cons, ih, hday, h.row, List.map_cons, List.sum_cons, add_assoc]

/-- **A batch keeps every total.** -/
theorem total_purgeRows {v : RollupRow → α} {w : LlmRequest → α} (h : Tracks v w) (db : CostStore)
    {rows : List LlmRequest} (hrows : rows.Sublist db.requests.rows) :
    (db.purgeRows rows).total v w = db.total v w := by
  have hroll : ((db.purgeRows rows).rollup.rows.map v).sum =
      (db.rollup.rows.map v).sum + (rows.map w).sum := by
    show ((List.foldl (mergeDay rows) db.rollup _).rows.map v).sum = _
    have hgroups := sum_groups (fun r : LlmRequest => r.requestDate) w
      (List.nodup_dedup (rows.map (·.requestDate)))
      (fun r hr => List.mem_dedup.mpr (List.mem_map_of_mem hr))
    rw [sum_mergeDays h, hgroups]
  have hraw := sum_split (fun r => rows.any (fun x => x.id = r.id)) w db.requests.rows
  rw [db.requests.filter_any_key hrows] at hraw
  unfold CostStore.total
  rw [hroll, ← hraw]
  show ((db.requests.rows.filter _).map w).sum + _ = _
  rw [add_comm (db.rollup.rows.map v).sum, ← add_assoc]
  congr 1
  exact add_comm _ _

end Totals

/-! ## Whole purges -/

/-- The rows that `n` batches purge: the first old rows, in id order. -/
def CostStore.purgedRows (db : CostStore) (cutoff : Day) (batch n : Nat) : List LlmRequest :=
  (db.oldRows cutoff).take (n * batch)

theorem oldRows_sublist (db : CostStore) (cutoff : Day) (n : Nat) :
    ((db.oldRows cutoff).take n).Sublist db.requests.rows :=
  (List.take_sublist _ _).trans List.filter_sublist

theorem rows_purgeRows (db : CostStore) (rows : List LlmRequest) :
    (db.purgeRows rows).requests.rows =
      db.requests.rows.filter (fun r => !rows.any (fun x => x.id = r.id)) := rfl

theorem oldRows_purgeRows (db : CostStore) (cutoff : Day) (batch : Nat) :
    (db.purgeRows ((db.oldRows cutoff).take batch)).oldRows cutoff =
      (db.oldRows cutoff).drop batch := by
  have hold : (db.oldRows cutoff).Pairwise (fun a b => a.id < b.id) := db.requests.sorted.filter _
  have hsplit := List.take_append_drop batch (db.oldRows cutoff)
  rw [← hsplit] at hold
  have hcross := (List.pairwise_append.mp hold).2.2
  have hcomm : (db.purgeRows ((db.oldRows cutoff).take batch)).oldRows cutoff =
      (db.oldRows cutoff).filter
        (fun r => !((db.oldRows cutoff).take batch).any (fun x => x.id = r.id)) := by
    unfold CostStore.oldRows
    rw [rows_purgeRows, List.filter_filter, List.filter_filter]
    exact List.filter_congr (fun r _ => Bool.and_comm _ _)
  rw [hcomm]
  conv_lhs => rw [← hsplit]
  rw [List.filter_append, hsplit]
  have htake : ((db.oldRows cutoff).take batch).filter
      (fun r => !((db.oldRows cutoff).take batch).any (fun x => x.id = r.id)) = [] := by
    refine List.filter_eq_nil_iff.mpr (fun r hr => ?_)
    simp only [Bool.not_eq_true', Bool.not_eq_false]
    exact List.any_eq_true.mpr ⟨r, hr, decide_eq_true rfl⟩
  have hdrop : ((db.oldRows cutoff).drop batch).filter
      (fun r => !((db.oldRows cutoff).take batch).any (fun x => x.id = r.id)) =
      (db.oldRows cutoff).drop batch := by
    refine List.filter_eq_self.mpr (fun r hr => ?_)
    rw [Bool.not_eq_true', List.any_eq_false]
    intro x hx hid
    have := hcross x hx r hr
    have := of_decide_eq_true hid
    omega
  rw [htake, hdrop, List.nil_append]

theorem purgeBatches_induction {P : CostStore → Prop} {cutoff : Day} {batch : Nat}
    (hstep : ∀ db, P db → P (db.purgeRows ((db.oldRows cutoff).take batch))) (n : Nat)
    {db : CostStore} (h : P db) : P (db.purgeBatches cutoff batch n) := by
  induction n generalizing db with
  | zero => exact h
  | succ n ih =>
    simp only [CostStore.purgeBatches]
    split
    · exact h
    · split
      · exact hstep db h
      · exact ih (hstep db h)

/-- **A purge keeps every total**, however many batches it got to. -/
theorem total_purgeBatches {α : Type} [AddCommMonoid α] {v : RollupRow → α} {w : LlmRequest → α}
    (h : Tracks v w) (db : CostStore) (cutoff : Day) (batch n : Nat) :
    (db.purgeBatches cutoff batch n).total v w = db.total v w :=
  purgeBatches_induction (P := fun db' => db'.total v w = db.total v w)
    (fun db' hdb' => (total_purgeRows h db' (oldRows_sublist db' cutoff batch)).trans hdb') n rfl

theorem rows_purgeBatches (cutoff : Day) {batch : Nat} (hb : 0 < batch) (n : Nat)
    (db : CostStore) :
    (db.purgeBatches cutoff batch n).requests.rows =
        db.requests.rows.filter
          (fun r => !(db.purgedRows cutoff batch n).any (fun x => x.id = r.id)) ∧
      (db.purgeBatches cutoff batch n).oldRows cutoff = (db.oldRows cutoff).drop (n * batch) := by
  induction n generalizing db with
  | zero => simp [CostStore.purgeBatches, CostStore.purgedRows]
  | succ n ih =>
    have hmul : (n + 1) * batch = batch + n * batch := by rw [Nat.succ_mul, Nat.add_comm]
    simp only [CostStore.purgeBatches, CostStore.purgedRows]
    split
    · -- nothing is old
      rename_i hnil
      have hold : db.oldRows cutoff = [] := by
        rcases List.take_eq_nil_iff.mp hnil with h | h
        · omega
        · exact h
      simp [hold]
    · split
      · -- the last batch holds all the old rows
        rename_i hshort
        rw [List.length_take] at hshort
        have hall : (db.oldRows cutoff).length ≤ (n + 1) * batch := by omega
        have hbatch : (db.oldRows cutoff).length ≤ batch := by omega
        rw [oldRows_purgeRows, rows_purgeRows, List.take_of_length_le hall,
          List.take_of_length_le hbatch, List.drop_of_length_le hall,
          List.drop_of_length_le hbatch]
        exact ⟨rfl, rfl⟩
      · obtain ⟨hrows, hold⟩ := ih (db.purgeRows ((db.oldRows cutoff).take batch))
        rw [hrows, hold, CostStore.purgedRows, oldRows_purgeRows, rows_purgeRows,
          List.filter_filter, hmul, List.take_add, List.drop_drop]
        refine ⟨List.filter_congr (fun r _ => ?_), rfl⟩
        rw [List.any_append, Bool.not_or, Bool.and_comm]

theorem purgeBatches_again {cutoff : Day} {batch n : Nat} (hb : 0 < batch) {db : CostStore}
    (hn : (db.oldRows cutoff).length ≤ n) (batch' m : Nat) :
    (db.purgeBatches cutoff batch n).purgeBatches cutoff batch' m =
      db.purgeBatches cutoff batch n := by
  have hold : (db.purgeBatches cutoff batch n).oldRows cutoff = [] := by
    rw [(rows_purgeBatches cutoff hb n db).2]
    exact List.drop_of_length_le (Nat.le_trans hn (Nat.le_mul_of_pos_right n hb))
  cases m with
  | zero => rfl
  | succ m => simp only [CostStore.purgeBatches, hold, List.take_nil, if_true]

/-! ## The readers -/

/-- No entry but the two dates restricts the rows. -/
structure LlmFilters.DateOnly (f : LlmFilters) : Prop where
  userId : f.userId.get? = none
  plan : f.plan.get? = none
  requestKind : f.requestKind.get? = none
  model : f.model.get? = none
  outcome : f.outcome.get? = none

def LlmFilters.days (f : LlmFilters) (d : Day) : Bool := inRange f.startDate.get? f.endDate.get? d

theorem LlmFilters.DateOnly.matches_eq {f : LlmFilters} (h : f.DateOnly) (r : LlmRequest) :
    f.matches r = f.days r.requestDate := by
  simp [LlmFilters.matches, LlmFilters.days, h.userId, h.plan, h.requestKind, h.model, h.outcome]

theorem get?_of_not_present {α : Type} {e : Entry α} (h : e.present = false) : e.get? = none := by
  cases e with
  | absent => rfl
  | empty => rfl
  | value a => cases h

theorem dateOnly_of_eligible {f : LlmFilters} (h : f.rollupEligible = true) : f.DateOnly := by
  simp only [LlmFilters.rollupEligible, Bool.not_eq_true', Bool.or_eq_false_iff] at h
  obtain ⟨⟨⟨⟨⟨h1, h2⟩, h3⟩, h4⟩, h5⟩, -⟩ := h
  exact ⟨get?_of_not_present h1, get?_of_not_present h2, get?_of_not_present h3,
    get?_of_not_present h4, get?_of_not_present h5⟩

section Eligible
variable {α : Type} [AddCommMonoid α]

def CostStore.totalOn (db : CostStore) (q : Day → Bool) (v : RollupRow → α) (w : LlmRequest → α) :
    α :=
  ((db.requests.rows.filter (fun r => q r.requestDate)).map w).sum +
    ((db.rollup.rows.filter (fun r => q r.requestDate)).map v).sum

theorem totalOn_purgeBatches {v : RollupRow → α} {w : LlmRequest → α} (h : Tracks v w)
    (db : CostStore) (q : Day → Bool) (cutoff : Day) (batch n : Nat) :
    (db.purgeBatches cutoff batch n).totalOn q v w = db.totalOn q v w := by
  have hrestrict : ∀ db : CostStore, db.totalOn q v w =
      db.total (fun x => if q x.requestDate then v x else 0)
        (fun r => if q r.requestDate then w r else 0) := by
    intro db
    unfold CostStore.totalOn CostStore.total
    rw [sum_map_filter, sum_map_filter]
  rw [hrestrict, hrestrict, total_purgeBatches (h.restrict q)]

end Eligible

theorem baseSummary_sums (rows : List LlmRequest) (key : RollupKey) :
    ((baseSummary rows).sums key).getD 0 = (rows.map (·.amount key)).sum := by
  cases key
  case requestCount => simp [baseSummary, LlmRequest.amount]
  all_goals
    simp only [baseSummary, sqlSum]
    split
    · rename_i h
      rw [h]
      rfl
    · rfl

theorem summarize_eligible {f : LlmFilters} (h : f.rollupEligible = true) (db : CostStore) :
    db.summarizeLlmRequests f =
      { sums := fun key => some (db.totalOn f.days (·.totals.sums key) (·.amount key))
        avgLatencyMs :=
          if db.totalOn f.days (·.totals.latencyCount)
              (fun r => if r.latencyMs.isSome then 1 else 0) = 0 then none
          else some
            (((db.totalOn f.days (·.totals.latencySumMs) (fun r => r.latencyMs.getD 0) : Int) : ℚ) /
              (db.totalOn f.days (·.totals.latencyCount)
                (fun r => if r.latencyMs.isSome then 1 else 0) : Nat)) } := by
  have hmatch : db.requests.rows.filter f.matches =
      db.requests.rows.filter (fun r => f.days r.requestDate) :=
    List.filter_congr (fun r _ => (dateOnly_of_eligible h).matches_eq r)
  have hroll : db.rollupIn f.startDate.get? f.endDate.get? =
      db.rollup.rows.filter (fun r => f.days r.requestDate) := rfl
  unfold CostStore.summarizeLlmRequests
  simp only [h, if_true, CostStore.rollupSums, hroll, hmatch, CostStore.totalOn, baseSummary_sums,
    ← latencySum_eq, ← latencyCount_eq]
  refine LlmSummary.ext rfl ?_
  simp only
  split
  · rename_i hzero
    have : latencyCount (db.requests.rows.filter (fun r => f.days r.requestDate)) = 0 := by omega
    simp [baseSummary, this]
  · push_cast
    rfl

def CostStore.knownDays (db : CostStore) (d : Day) : Prop :=
  d ∈ db.requests.rows.map (·.requestDate) ∨ d ∈ db.rollup.rows.map (·.requestDate)

theorem mem_mergeDays (rows : List LlmRequest) (days : List Day)
    (t : KeyedTable Day RollupRow RollupRow.requestDate) (d : Day) :
    d ∈ (days.foldl (mergeDay rows) t).rows.map (·.requestDate) ↔
      d ∈ days ∨ d ∈ t.rows.map (·.requestDate) := by
  induction days generalizing t with
  | nil => simp
  | cons x days ih =>
    have hday : d ∈ (mergeDay rows t x).rows.map (·.requestDate) ↔
        d = x ∨ d ∈ t.rows.map (·.requestDate) :=
      KeyedTable.mem_keys_upsert t _ _ _ d
    rw [List.foldl_cons, ih, hday, List.mem_cons]
    tauto

theorem knownDays_purgeRows (db : CostStore) {rows : List LlmRequest}
    (hrows : rows.Sublist db.requests.rows) (d : Day) :
    (db.purgeRows rows).knownDays d ↔ db.knownDays d := by
  have hroll : d ∈ (db.purgeRows rows).rollup.rows.map (·.requestDate) ↔
      d ∈ rows.map (·.requestDate) ∨ d ∈ db.rollup.rows.map (·.requestDate) := by
    show d ∈ (List.foldl (mergeDay rows) db.rollup _).rows.map _ ↔ _
    rw [mem_mergeDays, List.mem_dedup]
  have hraw : d ∈ db.requests.rows.map (·.requestDate) ↔
      d ∈ (db.purgeRows rows).requests.rows.map (·.requestDate) ∨ d ∈ rows.map (·.requestDate) := by
    have hback := db.requests.filter_any_key hrows
    rw [rows_purgeRows]
    simp only [List.mem_map]
    constructor
    · rintro ⟨r, hr, rfl⟩
      by_cases hin : rows.any (fun x => x.id = r.id) = true
      · refine Or.inr ⟨r, ?_, rfl⟩
        rw [← hback]
        exact List.mem_filter.mpr ⟨hr, hin⟩
      · exact Or.inl ⟨r, List.mem_filter.mpr ⟨hr, by simpa using hin⟩, rfl⟩
    · rintro (⟨r, hr, rfl⟩ | ⟨r, hr, rfl⟩)
      · exact ⟨r, List.mem_of_mem_filter hr, rfl⟩
      · exact ⟨r, hrows.subset hr, rfl⟩
  unfold CostStore.knownDays
  rw [hroll, hraw]
  tauto

theorem knownDays_purgeBatches (db : CostStore) (cutoff : Day) (batch n : Nat) (d : Day) :
    (db.purgeBatches cutoff batch n).knownDays d ↔ db.knownDays d :=
  purgeBatches_induction (P := fun db' => db'.knownDays d ↔ db.knownDays d)
    (fun db' hdb' => (knownDays_purgeRows db' (oldRows_sublist db' cutoff batch) d).trans hdb') n
    Iff.rfl

theorem dailyCosts_eligible {f : LlmFilters} (h : f.rollupEligible = true) (db : CostStore) :
    Grouped (db.dailyCostsGrouped f) ∧
    (∀ d, d ∈ (db.dailyCostsGrouped f).map (·.1) ↔ f.days d = true ∧ db.knownDays d) ∧
    (∀ d, groupAt (db.dailyCostsGrouped f) d =
      db.totalOn (fun x => f.days x && x = d) (·.totals.sums .costUsd) (·.amount .costUsd)) := by
  have hmatch : db.requests.rows.filter f.matches =
      db.requests.rows.filter (fun r => f.days r.requestDate) :=
    List.filter_congr (fun r _ => (dateOnly_of_eligible h).matches_eq r)
  have hroll : db.rollupIn f.startDate.get? f.endDate.get? =
      db.rollup.rows.filter (fun r => f.days r.requestDate) := rfl
  unfold CostStore.dailyCostsGrouped
  simp only [h, if_true, hmatch, hroll]
  refine ⟨(Grouped.groupAdd List.Pairwise.nil _).groupAdd _, fun d => ?_, fun d => ?_⟩
  · rw [mem_keys_groupAdd, mem_keys_groupAdd]
    simp only [CostStore.knownDays, List.map_map, List.mem_map, List.mem_filter,
      Function.comp, List.map_nil, List.not_mem_nil, false_or]
    constructor
    · rintro (⟨r, ⟨hr, hd⟩, rfl⟩ | ⟨r, ⟨hr, hd⟩, rfl⟩)
      · exact ⟨hd, Or.inl ⟨r, hr, rfl⟩⟩
      · exact ⟨hd, Or.inr ⟨r, hr, rfl⟩⟩
    · rintro ⟨hd, ⟨r, hr, rfl⟩ | ⟨r, hr, rfl⟩⟩
      · exact Or.inl ⟨r, ⟨hr, hd⟩, rfl⟩
      · exact Or.inr ⟨r, ⟨hr, hd⟩, rfl⟩
  · have hgroup : ∀ {ρ : Type} (rows : List ρ) (day : ρ → Day) (cost : ρ → ℚ),
        groupAt ((rows.filter (fun r => f.days (day r))).map (fun r => (day r, cost r))) d =
          ((rows.filter (fun r => f.days (day r) && day r = d)).map cost).sum := by
      intro ρ rows day cost
      unfold groupAt
      rw [List.filter_map, List.map_map, List.filter_filter]
      congr 2
      exact List.filter_congr (fun r _ => Bool.and_comm _ _)
    rw [groupAt_groupAdd, groupAt_groupAdd, hgroup, hgroup]
    simp only [groupAt, List.filter_nil, List.map_nil, List.sum_nil, zero_add]
    rfl

/-! ## When the readers do not notice a purge -/

/-- Both readers return the same before and after. -/
def SameReads (f : LlmFilters) (db db' : CostStore) : Prop :=
  db'.summarizeLlmRequests f = db.summarizeLlmRequests f ∧
    db'.dailyCostsGrouped f = db.dailyCostsGrouped f

theorem sameReads_eligible {f : LlmFilters} (h : f.rollupEligible = true) (db : CostStore)
    (cutoff : Day) (batch n : Nat) : SameReads f db (db.purgeBatches cutoff batch n) := by
  constructor
  · rw [summarize_eligible h, summarize_eligible h, totalOn_purgeBatches tracks_latencyCount,
      totalOn_purgeBatches tracks_latencySum]
    refine LlmSummary.ext (funext fun key => ?_) rfl
    exact congrArg some (totalOn_purgeBatches (tracks_key key) db f.days cutoff batch n)
  · obtain ⟨hg, hkeys, hval⟩ := dailyCosts_eligible h db
    obtain ⟨hg', hkeys', hval'⟩ := dailyCosts_eligible h (db.purgeBatches cutoff batch n)
    refine grouped_ext hg' hg (fun d => ?_) (fun d => ?_)
    · rw [hkeys, hkeys', knownDays_purgeBatches]
    · rw [hval, hval', totalOn_purgeBatches (tracks_key .costUsd)]

theorem matches_purgeBatches (f : LlmFilters) (db : CostStore) (cutoff : Day) {batch : Nat}
    (hb : 0 < batch) (n : Nat) :
    (db.purgeBatches cutoff batch n).requests.rows.filter f.matches =
      (db.requests.rows.filter f.matches).filter
        (fun r => !(db.purgedRows cutoff batch n).any (fun x => x.id = r.id)) := by
  rw [(rows_purgeBatches cutoff hb n db).1, List.filter_filter, List.filter_filter]
  exact List.filter_congr (fun r _ => Bool.and_comm _ _)

theorem sameReads_ineligible {f : LlmFilters} (h : f.rollupEligible = false) (db : CostStore)
    (cutoff : Day) {batch : Nat} (hb : 0 < batch) (n : Nat) :
    SameReads f db (db.purgeBatches cutoff batch n) ↔
      ∀ r ∈ db.purgedRows cutoff batch n, f.matches r = false := by
  have hsum : ∀ db : CostStore, db.summarizeLlmRequests f =
      baseSummary (db.requests.rows.filter f.matches) := by
    intro db
    simp [CostStore.summarizeLlmRequests, h]
  have hday : ∀ db : CostStore, db.dailyCostsGrouped f = groupAdd []
      ((db.requests.rows.filter f.matches).map (fun r => (r.requestDate, r.costUsd))) := by
    intro db
    simp [CostStore.dailyCostsGrouped, h]
  unfold SameReads
  rw [hsum, hsum, hday, hday, matches_purgeBatches f db cutoff hb n]
  constructor
  · rintro ⟨hs, -⟩ r hr
    -- the request counts agree, so no matching row is gone
    have hlen : (((db.requests.rows.filter f.matches).filter (fun r =>
        !(db.purgedRows cutoff batch n).any (fun x => x.id = r.id))).length : ℚ) =
          (db.requests.rows.filter f.matches).length :=
      Option.some.inj (congrFun (congrArg LlmSummary.sums hs) .requestCount)
    have hall := List.length_filter_eq_length_iff.mp (Nat.cast_injective hlen)
    by_contra hm
    have hmem : r ∈ db.requests.rows.filter f.matches :=
      List.mem_filter.mpr ⟨(oldRows_sublist db cutoff _).subset hr, by simpa using hm⟩
    have hkept := hall r hmem
    rw [Bool.not_eq_true', List.any_eq_false] at hkept
    exact hkept r hr (decide_eq_true rfl)
  · intro hno
    have hsame : (db.requests.rows.filter f.matches).filter
        (fun r => !(db.purgedRows cutoff batch n).any (fun x => x.id = r.id)) =
          db.requests.rows.filter f.matches := by
      refine List.filter_eq_self.mpr (fun r hr => ?_)
      rw [Bool.not_eq_true', List.any_eq_false]
      intro x hx hid
      have hxr : x = r := db.requests.key_injective ((oldRows_sublist db cutoff _).subset hx)
        (List.mem_of_mem_filter hr) (of_decide_eq_true hid)
      have := hno x hx
      rw [hxr, (List.mem_filter.mp hr).2] at this
      cases this
    rw [hsame]
    exact ⟨rfl, rfl⟩

/-- **When the rollup conserves what the dashboard reads.**  For a filter that
restricts rows by date only, a purge of any number of batches leaves both readers
unchanged if and only if the filter has no other key, or none of the purged rows
lies in its days; and a purge that was not cut leaves nothing for another one. -/
theorem rollup_conserves_iff (db : CostStore) (today : Day) (retentionDays batch : Int) (n : Nat)
    {f : LlmFilters} (hf : f.DateOnly) :
    (SameReads f db (db.purgeOldLlmRequests today retentionDays batch n) ↔
      f.rollupEligible = true ∨
        ∀ r ∈ db.purgedRows (today - retentionDays) (max 1 batch).toNat n,
          f.days r.requestDate = false) ∧
    ((db.oldRows (today - retentionDays)).length ≤ n → ∀ (batch' : Int) (m : Nat),
      (db.purgeOldLlmRequests today retentionDays batch n).purgeOldLlmRequests today retentionDays
          batch' m = db.purgeOldLlmRequests today retentionDays batch n) := by
  have hb : 0 < (max 1 batch).toNat := by omega
  refine ⟨?_, fun hn batch' m => purgeBatches_again hb hn _ m⟩
  by_cases he : f.rollupEligible = true
  · exact iff_of_true (sameReads_eligible he db _ _ n) (Or.inl he)
  · unfold CostStore.purgeOldLlmRequests
    rw [sameReads_ineligible (by simpa using he) db _ hb n]
    simp only [hf.matches_eq]
    exact ⟨Or.inr, fun h => h.resolve_left he⟩

/-- One request of long ago. -/
def oneRequestStore : CostStore where
  requests := SerialTable.empty.insert
    (fun id => ⟨id, 100, 7, "free", "word", "m", "success", some 20, some 10, some 30, 1, 2, 3, 4, 5,
      some 100⟩) (fun _ => rfl)
  rollup := KeyedTable.empty

/-- `{"plan": ""}`. -/
def emptyPlanFilter : LlmFilters where
  plan := .empty

theorem emptyPlanFilter_dateOnly : emptyPlanFilter.DateOnly := ⟨rfl, rfl, rfl, rfl, rfl⟩

/-- An empty plan entry restricts nothing, yet the purged request is no longer
counted. -/
theorem rollup_loses_request :
    ¬ (∀ (db : CostStore) (today : Day) (retentionDays batch : Int) (n : Nat) (f : LlmFilters),
        f.DateOnly → SameReads f db (db.purgeOldLlmRequests today retentionDays batch n)) := by
  intro h
  have hcount := congrFun (congrArg LlmSummary.sums
    (h oneRequestStore 300 90 500 1 emptyPlanFilter emptyPlanFilter_dateOnly).1) .requestCount
  exact absurd hcount (by decide)

theorem rollup_conserves_iff_empty_plan :
    ¬ SameReads emptyPlanFilter oneRequestStore
        (oneRequestStore.purgeOldLlmRequests 300 90 500 1) := by
  rw [(rollup_conserves_iff oneRequestStore 300 90 500 1 emptyPlanFilter_dateOnly).1]
  decide

end HamZaboon
