import HamZaboon.Store.Schema
import HamZaboon.Library.RowNumber
import HamZaboon.Library.Tally

/-! # Review events and their pruning

`services/db/reviews.py` over the two tables it touches.  `insertReviewEvent`
appends an event and bumps the card's lifetime counters on the same connection.
The prune works in three passes, each batched: it totals the surviving events
per card, reconciles the counters upwards, and deletes the victims.  Every
batch is its own short transaction, so a prune is a process (`PruneRun`) whose
steps (`PruneRun.next`) other transactions may run between.
-/

namespace HamZaboon
open Library

/-- The tables `saved_words` and `review_events`. -/
structure WordStore (K : Type) where
  savedWords : SerialTable (SavedWord K) SavedWord.id
  reviewEvents : SerialTable ReviewEvent ReviewEvent.id

variable {K : Type}

def ReviewEvent.card (e : ReviewEvent) : UserId × WordId := (e.userId, e.wordId)

/-- The card a `saved_words` row is. -/
def SavedWord.card (w : SavedWord K) : UserId × WordId := (w.userId, w.id)

def isLapse (grade : Option Int) (outcome : Outcome) : Bool :=
  match grade with
  | some g => g = 1
  | none => outcome = .again

def ReviewEvent.lapse (e : ReviewEvent) : Bool := isLapse e.grade e.outcome

/-- The row `insert_review_event` inserts, before the table numbers it. -/
def newReviewEvent (wordId : WordId) (userId : UserId) (grade : Int) (activityType : ActivityType)
    (gradeSource : String) (rawSignal : Option String) (responseTimeMs : Option Int)
    (createdAt : Instant) (id : Nat) : ReviewEvent where
  id := id
  wordId := wordId
  userId := userId
  grade := some grade
  activityType := some activityType
  gradeSource := some gradeSource
  rawSignal := rawSignal
  responseTimeMs := responseTimeMs
  outcome := if 2 ≤ grade then .recalled else .again
  createdAt := createdAt

/-- The counter update of `insert_review_event`. -/
def SavedWord.bumpCounters (w : SavedWord K) (lapse : Bool) : SavedWord K :=
  { w with
    totalReviews := w.totalReviews + 1
    lapses := if lapse then w.lapses + 1 else w.lapses }

theorem id_bumpCounters (w : SavedWord K) (lapse : Bool) : (w.bumpCounters lapse).id = w.id := rfl

/-- `insert_review_event`: the event and the counters of its card, on one open
connection. -/
def WordStore.insertReviewEvent (s : WordStore K) (wordId : WordId) (userId : UserId) (grade : Int)
    (activityType : ActivityType) (gradeSource : String) (rawSignal : Option String)
    (responseTimeMs : Option Int) (createdAt : Instant) : WordStore K :=
  let mk := newReviewEvent wordId userId grade activityType gradeSource rawSignal responseTimeMs
    createdAt
  { reviewEvents := s.reviewEvents.insert mk (fun _ => rfl)
    savedWords := s.savedWords.updateWhere (fun w => w.card = (userId, wordId))
      (·.bumpCounters (mk 0).lapse) (fun w => id_bumpCounters w _) }

/-- `count_review_events_for_card`: the larger of the live count and the stored
lifetime counter. -/
def WordStore.countReviewEventsForCard (s : WordStore K) (userId : UserId) (wordId : WordId) : Nat :=
  let cnt := s.reviewEvents.rows.countP (fun e => e.card = (userId, wordId))
  let stored := ((s.savedWords.rows.find? (fun w => w.card = (userId, wordId))).map
    (·.totalReviews)).getD 0
  max cnt stored

/-! ## The prune -/

/-- The arguments of one `prune_old_review_events` call, with the clock it read. -/
structure PruneParams where
  now : Instant
  retentionDays : Int
  keepPerCard : Int
  batch : Int

/-- `scan = max(1, int(batch))`. -/
def PruneParams.scan (p : PruneParams) : Nat := (max 1 p.batch).toNat

def PruneParams.cutoff (p : PruneParams) : Instant := p.now - p.retentionDays * 86400000000

/-- `ORDER BY created_at DESC, id DESC`. -/
def ReviewEvent.Newer (a b : ReviewEvent) : Prop :=
  b.createdAt < a.createdAt ∨ (a.createdAt = b.createdAt ∧ b.id < a.id)

instance : DecidableRel ReviewEvent.Newer := fun a b =>
  inferInstanceAs (Decidable (b.createdAt < a.createdAt ∨ (a.createdAt = b.createdAt ∧ b.id < a.id)))

/-- The newest-first rank of an event in its card, among the rows of `scope`. -/
def newestRank (scope : List ReviewEvent) (e : ReviewEvent) : Nat :=
  rowNumber ReviewEvent.card ReviewEvent.Newer scope e

/-- The rows beyond `keep_per_card` in `scope` and older than the cutoff. -/
def victimsIn (p : PruneParams) (scope : List ReviewEvent) : List ReviewEvent :=
  scope.filter (fun e => p.keepPerCard < newestRank scope e ∧ e.createdAt < p.cutoff)

/-- `WHERE id > ?`. -/
def beyond (last : Nat) (rows : List ReviewEvent) : List ReviewEvent :=
  rows.filter (fun e => last < e.id)

def lastId (page : List ReviewEvent) : Nat := (page.getLast?.map (·.id)).getD 0

/-- Where a prune stands between two of its batches. -/
inductive PruneRun
  /-- Pass 1: totals of the rows up to `lastSeen`. -/
  | scanning (lastSeen : Nat) (totals : List ((UserId × WordId) × Nat × Nat))
  /-- Pass 2: cards whose counters are still to be reconciled. -/
  | reconciling (items : List ((UserId × WordId) × Nat × Nat))
  /-- Pass 3: victims beyond `lastId` are still to be deleted. -/
  | deleting (lastId : Nat)
  | finished
  deriving DecidableEq, Repr

/-- The counters of a card after `reconcile` with the totals of pass 1. -/
def SavedWord.reconcile (w : SavedWord K) (total lapses : Nat) : SavedWord K :=
  { w with
    totalReviews := if w.totalReviews < total then total else w.totalReviews
    lapses := if w.lapses < lapses then lapses else w.lapses }

theorem id_reconcile (w : SavedWord K) (total lapses : Nat) :
    (w.reconcile total lapses).id = w.id := rfl

def WordStore.reconcileCard (s : WordStore K) (item : (UserId × WordId) × Nat × Nat) : WordStore K :=
  { s with
    savedWords := s.savedWords.updateWhere (fun w => w.card = item.1)
      (·.reconcile item.2.1 item.2.2) (fun w => id_reconcile w _ _) }

/-- One reconcile transaction of pass 2. -/
def WordStore.reconcileCards (s : WordStore K) (chunk : List ((UserId × WordId) × Nat × Nat)) :
    WordStore K :=
  chunk.foldl WordStore.reconcileCard s

/-- The batch of victims pass 3 selects beyond `last`. -/
def victimBatch (p : PruneParams) (last : Nat) (rows : List ReviewEvent) : List ReviewEvent :=
  (victimsIn p (beyond last rows)).take p.scan

def WordStore.deleteEvents (s : WordStore K) (chunk : List ReviewEvent) : WordStore K :=
  { s with reviewEvents := s.reviewEvents.deleteWhere (fun e => chunk.any (fun v => v.id = e.id)) }

def PruneRun.next (p : PruneParams) : PruneRun → WordStore K → PruneRun × WordStore K
  | .scanning lastSeen totals, s =>
      let rows := (beyond lastSeen s.reviewEvents.rows).take p.scan
      let totals' := tallyFrom ReviewEvent.card ReviewEvent.lapse totals rows
      if rows = [] then (.reconciling totals, s)
      else if rows.length < p.scan then (.reconciling totals', s)
      else (.scanning (lastId rows) totals', s)
  | .reconciling items, s =>
      if items = [] then (.deleting 0, s)
      else (.reconciling (items.drop p.scan), s.reconcileCards (items.take p.scan))
  | .deleting last, s =>
      let chunk := victimBatch p last s.reviewEvents.rows
      if chunk = [] then (.finished, s)
      else if chunk.length < p.scan then (.finished, s.deleteEvents chunk)
      else (.deleting (lastId chunk), s.deleteEvents chunk)
  | .finished, s => (.finished, s)

def PruneRun.start : PruneRun := .scanning 0 []

/-- `n` batches of a prune with nothing running between them. -/
def PruneRun.batches (p : PruneParams) : Nat → PruneRun × WordStore K → PruneRun × WordStore K
  | 0, c => c
  | n + 1, c => PruneRun.batches p n (c.1.next p c.2)

theorem scan_pos (p : PruneParams) : 0 < p.scan := by
  unfold PruneParams.scan
  omega

@[simp] theorem card_bumpCounters (w : SavedWord K) (b : Bool) :
    (w.bumpCounters b).card = w.card := rfl

theorem rows_reconcileCard (s : WordStore K) (item : (UserId × WordId) × Nat × Nat) :
    (s.reconcileCard item).savedWords.rows =
      s.savedWords.rows.map
        (fun w => if w.card = item.1 then w.reconcile item.2.1 item.2.2 else w) := by
  simp [WordStore.reconcileCard]

@[simp] theorem reviewEvents_reconcileCard (s : WordStore K)
    (item : (UserId × WordId) × Nat × Nat) :
    (s.reconcileCard item).reviewEvents = s.reviewEvents := rfl

@[simp] theorem reviewEvents_reconcileCards (s : WordStore K)
    (chunk : List ((UserId × WordId) × Nat × Nat)) :
    (s.reconcileCards chunk).reviewEvents = s.reviewEvents := by
  unfold WordStore.reconcileCards
  induction chunk generalizing s with
  | nil => rfl
  | cons item chunk ih => rw [List.foldl_cons, ih, reviewEvents_reconcileCard]

theorem batches_add (p : PruneParams) (m n : Nat) (c : PruneRun × WordStore K) :
    PruneRun.batches p (m + n) c = PruneRun.batches p n (PruneRun.batches p m c) := by
  induction m generalizing c with
  | zero => rw [Nat.zero_add]; rfl
  | succ m ih => rw [Nat.succ_add]; exact ih _

/-! ## Lists ordered by id -/

/-- Rows in id order, as the table holds them. -/
def IdSorted (l : List ReviewEvent) : Prop := l.Pairwise (fun a b => a.id < b.id)

theorem IdSorted.eq_of_id {l : List ReviewEvent} (h : IdSorted l) {a b : ReviewEvent}
    (ha : a ∈ l) (hb : b ∈ l) (hid : a.id = b.id) : a = b :=
  List.inj_on_of_nodup_map (List.pairwise_map.mpr (h.imp fun h => Nat.ne_of_lt h)) ha hb hid

theorem lastId_concat (init : List ReviewEvent) (z : ReviewEvent) :
    lastId (init ++ [z]) = z.id := by
  rw [lastId, List.getLast?_concat]
  rfl

theorem IdSorted.le_lastId {l : List ReviewEvent} (h : IdSorted l) {a : ReviewEvent} (ha : a ∈ l) :
    a.id ≤ lastId l := by
  rcases List.eq_nil_or_concat' l with rfl | ⟨init, z, rfl⟩
  · cases ha
  · rw [lastId_concat]
    obtain ⟨_, _, hcross⟩ := List.pairwise_append.mp h
    rcases List.mem_append.mp ha with ha | ha
    · exact Nat.le_of_lt (hcross a ha z (List.mem_singleton.mpr rfl))
    · obtain rfl := List.mem_singleton.mp ha
      exact Nat.le_refl _

theorem exists_lastId {l : List ReviewEvent} (h : l ≠ []) : ∃ z ∈ l, z.id = lastId l := by
  rcases List.eq_nil_or_concat' l with rfl | ⟨init, z, rfl⟩
  · exact absurd rfl h
  · exact ⟨z, by simp, (lastId_concat init z).symm⟩

theorem IdSorted.filter {l : List ReviewEvent} (h : IdSorted l) (q : ReviewEvent → Bool) :
    IdSorted (l.filter q) :=
  List.Pairwise.filter q h

theorem mem_beyond {last : Nat} {rows : List ReviewEvent} {e : ReviewEvent} :
    e ∈ beyond last rows ↔ e ∈ rows ∧ last < e.id := by
  simp [beyond]

theorem idSorted_rows (s : WordStore K) : IdSorted s.reviewEvents.rows := s.reviewEvents.sorted

end HamZaboon
