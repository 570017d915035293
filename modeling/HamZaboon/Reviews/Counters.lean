import HamZaboon.Reviews.Events
import HamZaboon.Library.Runs
import Mathlib.Algebra.Ring.Int.Defs

/-! # Lifetime counters across pruning

`saved_words.total_reviews` and `lapses` are bumped with every inserted event,
and a prune only ever raises them to the totals it counted.  Whatever the
prune counted was still in the table, hence was inserted before, so the raise
never happens: the counters are the lifetime totals at every moment, whatever
inserts and prune batches run in between.

`ReviewSystem` is the store together with the prunes in progress and a history
variable, `lifetime`, that remembers every event ever inserted.
-/

namespace HamZaboon
open Library

variable {K : Type}

/-- The store, the prunes in progress and everything ever inserted. -/
structure ReviewSystem (K : Type) where
  store : WordStore K
  prunes : List (PruneParams × PruneRun)
  lifetime : List ReviewEvent

/-- The transactions that may follow one another in any order. -/
inductive ReviewOp
  | insert (wordId : WordId) (userId : UserId) (grade : Int) (activityType : ActivityType)
      (gradeSource : String) (rawSignal : Option String) (responseTimeMs : Option Int)
      (createdAt : Instant)
  | startPrune (p : PruneParams)
  /-- The next batch of the `i`-th prune. -/
  | batch (i : Nat)
  /-- The `i`-th prune meets its deadline, or fails. -/
  | stop (i : Nat)

def ReviewSystem.step (s : ReviewSystem K) : ReviewOp → ReviewSystem K
  | .insert wordId userId grade activityType gradeSource rawSignal responseTimeMs createdAt =>
      { s with
        store := s.store.insertReviewEvent wordId userId grade activityType gradeSource rawSignal
          responseTimeMs createdAt
        lifetime := s.lifetime ++ [newReviewEvent wordId userId grade activityType gradeSource
          rawSignal responseTimeMs createdAt (s.store.reviewEvents.seq + 1)] }
  | .startPrune p => { s with prunes := s.prunes ++ [(p, PruneRun.start)] }
  | .batch i =>
      match s.prunes[i]? with
      | none => s
      | some (p, r) =>
          { s with
            store := (r.next p s.store).2
            prunes := s.prunes.set i (p, (r.next p s.store).1) }
  | .stop i => { s with prunes := s.prunes.eraseIdx i }

def eventsOf (card : UserId × WordId) (events : List ReviewEvent) : Nat :=
  events.countP (fun e => e.card = card)

def lapsesOf (card : UserId × WordId) (events : List ReviewEvent) : Nat :=
  events.countP (fun e => decide (e.card = card) && e.lapse)

/-- The stored counters are the totals of `lifetime`, which holds every row of
the table. -/
structure CountersExact (lifetime : List ReviewEvent) (s : WordStore K) : Prop where
  total : ∀ w ∈ s.savedWords.rows, w.totalReviews = eventsOf w.card lifetime
  lapses : ∀ w ∈ s.savedWords.rows, w.lapses = lapsesOf w.card lifetime
  recorded : s.reviewEvents.rows ⊆ lifetime

/-- What a prune in progress carries was counted from events of `lifetime`. -/
def PruneRun.Bounded (lifetime : List ReviewEvent) : PruneRun → Prop
  | .scanning lastSeen totals =>
      ∃ seen : List ReviewEvent, seen.Nodup ∧ seen ⊆ lifetime ∧ (∀ e ∈ seen, e.id ≤ lastSeen) ∧
        TallyBounded ReviewEvent.card ReviewEvent.lapse seen totals
  | .reconciling items => TallyBounded ReviewEvent.card ReviewEvent.lapse lifetime items
  | _ => True

structure ReviewSystem.Exact (s : ReviewSystem K) : Prop where
  counters : CountersExact s.lifetime s.store
  prunes : ∀ c ∈ s.prunes, c.2.Bounded s.lifetime

/-! ## Inserting an event -/

theorem eventsOf_concat (card : UserId × WordId) (l : List ReviewEvent) (e : ReviewEvent) :
    eventsOf card (l ++ [e]) = eventsOf card l + if e.card = card then 1 else 0 := by
  simp [eventsOf, List.countP_append, List.countP_singleton]

theorem lapsesOf_concat (card : UserId × WordId) (l : List ReviewEvent) (e : ReviewEvent) :
    lapsesOf card (l ++ [e]) = lapsesOf card l + if e.card = card ∧ e.lapse then 1 else 0 := by
  simp [lapsesOf, List.countP_append, List.countP_singleton]

theorem PruneRun.Bounded.mono {small large : List ReviewEvent} {r : PruneRun}
    (h : r.Bounded small) (hs : small.Sublist large) : r.Bounded large := by
  cases r with
  | scanning lastSeen totals =>
    obtain ⟨seen, hn, hsub, hid, ht⟩ := h
    exact ⟨seen, hn, List.Subset.trans hsub hs.subset, hid, ht⟩
  | reconciling items => exact TallyBounded.of_subperm h hs.subperm
  | deleting last => trivial
  | finished => trivial

theorem CountersExact.insert {lifetime : List ReviewEvent} {s : WordStore K}
    (h : CountersExact lifetime s) (wordId : WordId) (userId : UserId) (grade : Int)
    (activityType : ActivityType) (gradeSource : String) (rawSignal : Option String)
    (responseTimeMs : Option Int) (createdAt : Instant) :
    CountersExact
      (lifetime ++ [newReviewEvent wordId userId grade activityType gradeSource rawSignal
        responseTimeMs createdAt (s.reviewEvents.seq + 1)])
      (s.insertReviewEvent wordId userId grade activityType gradeSource rawSignal responseTimeMs
        createdAt) := by
  set mk := newReviewEvent wordId userId grade activityType gradeSource rawSignal responseTimeMs
    createdAt with hmk
  have hcard : ∀ n, (mk n).card = (userId, wordId) := fun _ => rfl
  have hlapse : ∀ n, (mk n).lapse = (mk 0).lapse := fun _ => rfl
  -- a row of the new table is an old row, bumped when it is the event's card
  have hrow : ∀ w ∈ (s.insertReviewEvent wordId userId grade activityType gradeSource rawSignal
      responseTimeMs createdAt).savedWords.rows, ∃ w₀ ∈ s.savedWords.rows,
        w = if w₀.card = (userId, wordId) then w₀.bumpCounters (mk 0).lapse else w₀ := by
    intro w hw
    obtain ⟨w₀, hw₀, rfl⟩ := List.mem_map.mp hw
    exact ⟨w₀, hw₀, by simp only [decide_eq_true_eq, hmk]⟩
  constructor
  · intro w hw
    obtain ⟨w₀, hw₀, rfl⟩ := hrow w hw
    rw [eventsOf_concat, hcard]
    split
    · rename_i hc
      rw [card_bumpCounters, hc, if_pos rfl, ← hc, ← h.total w₀ hw₀]
      rfl
    · rename_i hc
      rw [if_neg (fun h => hc h.symm), h.total w₀ hw₀, Nat.add_zero]
  · intro w hw
    obtain ⟨w₀, hw₀, rfl⟩ := hrow w hw
    rw [lapsesOf_concat, hcard, hlapse (s.reviewEvents.seq + 1)]
    split
    · rename_i hc
      rw [card_bumpCounters, hc, ← hc, ← h.lapses w₀ hw₀, SavedWord.bumpCounters]
      cases (mk 0).lapse <;> simp
    · rename_i hc
      rw [if_neg (fun h => hc h.1.symm), h.lapses w₀ hw₀, Nat.add_zero]
  · intro e he
    rcases List.mem_append.mp he with he | he
    · exact List.mem_append_left _ (h.recorded he)
    · exact List.mem_append_right _ he

/-! ## One batch of a prune -/

theorem reconcile_eq_self {w : SavedWord K} {total lapses : Nat} (ht : total ≤ w.totalReviews)
    (hl : lapses ≤ w.lapses) : w.reconcile total lapses = w := by
  unfold SavedWord.reconcile
  rw [if_neg (Nat.not_lt_of_le ht), if_neg (Nat.not_lt_of_le hl)]

/-- Every card of the chunk already reaches the totals. -/
def Reached (s : WordStore K) (chunk : List ((UserId × WordId) × Nat × Nat)) : Prop :=
  ∀ item ∈ chunk, ∀ w ∈ s.savedWords.rows, w.card = item.1 →
    item.2.1 ≤ w.totalReviews ∧ item.2.2 ≤ w.lapses

theorem rows_reconcileCards {s : WordStore K} {chunk : List ((UserId × WordId) × Nat × Nat)}
    (h : Reached s chunk) : (s.reconcileCards chunk).savedWords.rows = s.savedWords.rows := by
  unfold WordStore.reconcileCards
  induction chunk generalizing s with
  | nil => rfl
  | cons item chunk ih =>
    have hsame : (s.reconcileCard item).savedWords.rows = s.savedWords.rows := by
      rw [rows_reconcileCard]
      conv_rhs => rw [← List.map_id s.savedWords.rows]
      refine List.map_congr_left (fun w hw => ?_)
      split
      · rename_i hc
        obtain ⟨ht, hl⟩ := h item List.mem_cons_self w hw hc
        exact reconcile_eq_self ht hl
      · rfl
    have hrest : Reached (s.reconcileCard item) chunk := by
      intro it hit w hw
      rw [hsame] at hw
      exact h it (List.mem_cons_of_mem _ hit) w hw
    rw [List.foldl_cons, ih hrest, hsame]

theorem CountersExact.reached {lifetime : List ReviewEvent} {s : WordStore K}
    (h : CountersExact lifetime s) {items : List ((UserId × WordId) × Nat × Nat)}
    (hb : TallyBounded ReviewEvent.card ReviewEvent.lapse lifetime items) : Reached s items := by
  intro item hitem w hw hc
  rw [h.total w hw, h.lapses w hw, hc]
  exact hb item hitem

theorem CountersExact.of_rows {lifetime : List ReviewEvent} {s s' : WordStore K}
    (h : CountersExact lifetime s) (hw : s'.savedWords.rows = s.savedWords.rows)
    (he : s'.reviewEvents.rows ⊆ s.reviewEvents.rows) : CountersExact lifetime s' :=
  ⟨by rw [hw]; exact h.total, by rw [hw]; exact h.lapses, List.Subset.trans he h.recorded⟩

theorem counted_page {lifetime : List ReviewEvent} {s : WordStore K}
    (h : s.reviewEvents.rows ⊆ lifetime) {n lastSeen : Nat}
    {totals : List ((UserId × WordId) × Nat × Nat)}
    (hb : (PruneRun.scanning lastSeen totals).Bounded lifetime)
    (hne : (beyond lastSeen s.reviewEvents.rows).take n ≠ []) :
    (PruneRun.scanning (lastId ((beyond lastSeen s.reviewEvents.rows).take n))
      (tallyFrom ReviewEvent.card ReviewEvent.lapse totals
        ((beyond lastSeen s.reviewEvents.rows).take n))).Bounded lifetime := by
  obtain ⟨seen, hnodup, hsub, hid, ht⟩ := hb
  set page := (beyond lastSeen s.reviewEvents.rows).take n with hpage
  have hsort : IdSorted page := ((idSorted_rows s).filter _).sublist (List.take_sublist _ _)
  have hmem : ∀ e ∈ page, e ∈ s.reviewEvents.rows ∧ lastSeen < e.id :=
    fun e he => mem_beyond.mp (List.mem_of_mem_take he)
  -- what was counted lies up to the cursor, the page beyond it
  have hdisj : seen.Disjoint page := fun e hs hp => by
    have h1 := hid e hs
    have h2 := (hmem e hp).2
    omega
  have hpn : page.Nodup := hsort.imp (fun hlt heq => by rw [heq] at hlt; omega)
  refine ⟨seen ++ page, List.nodup_append'.mpr ⟨hnodup, hpn, hdisj⟩,
    List.append_subset.mpr ⟨hsub, fun e he => h (hmem e he).1⟩, fun e he => ?_,
    tallyBounded_tallyFrom page ht⟩
  rcases List.mem_append.mp he with he | he
  · obtain ⟨z, hz, hzid⟩ := exists_lastId hne
    have h1 := hid e he
    have h2 := (hmem z hz).2
    omega
  · exact hsort.le_lastId he

theorem counted_bounded {lifetime : List ReviewEvent} {lastSeen : Nat}
    {totals : List ((UserId × WordId) × Nat × Nat)}
    (hb : (PruneRun.scanning lastSeen totals).Bounded lifetime) :
    (PruneRun.reconciling totals).Bounded lifetime := by
  obtain ⟨seen, hnodup, hsub, -, ht⟩ := hb
  exact ht.of_subperm (List.subperm_of_subset hnodup hsub)

/-- **One batch of a prune keeps the counters exact**: the reconcile pass has
nothing to raise, and the other passes do not touch the counters. -/
theorem next_exact {lifetime : List ReviewEvent} {p : PruneParams} {r : PruneRun} {s : WordStore K}
    (h : CountersExact lifetime s) (hb : r.Bounded lifetime) :
    CountersExact lifetime (r.next p s).2 ∧ (r.next p s).1.Bounded lifetime := by
  cases r with
  | scanning lastSeen totals =>
    simp only [PruneRun.next]
    split
    · exact ⟨h, counted_bounded hb⟩
    · rename_i hne
      have hpage := counted_page h.recorded hb hne
      split
      · exact ⟨h, counted_bounded hpage⟩
      · exact ⟨h, hpage⟩
  | reconciling items =>
    simp only [PruneRun.next]
    split
    · exact ⟨h, trivial⟩
    · have hreach : Reached s (items.take p.scan) :=
        h.reached (fun e he => hb e (List.mem_of_mem_take he))
      refine ⟨h.of_rows (rows_reconcileCards hreach) ?_, fun e he => hb e (List.mem_of_mem_drop he)⟩
      rw [reviewEvents_reconcileCards]
      exact List.Subset.refl _
  | deleting last =>
    have hdel : ∀ chunk, CountersExact lifetime (s.deleteEvents chunk) :=
      fun chunk => h.of_rows rfl List.filter_sublist.subset
    simp only [PruneRun.next]
    split
    · exact ⟨h, trivial⟩
    · split
      · exact ⟨hdel _, trivial⟩
      · exact ⟨hdel _, trivial⟩
  | finished => exact ⟨h, trivial⟩

/-! ## Whole runs -/

theorem bounded_start (lifetime : List ReviewEvent) : PruneRun.start.Bounded lifetime :=
  ⟨[], List.nodup_nil, List.nil_subset _, fun _ h => absurd h List.not_mem_nil,
    fun _ h => absurd h List.not_mem_nil⟩

theorem ReviewSystem.Exact.step {s : ReviewSystem K} (h : s.Exact) (op : ReviewOp) :
    (s.step op).Exact := by
  cases op with
  | insert wordId userId grade activityType gradeSource rawSignal responseTimeMs createdAt =>
    exact ⟨h.counters.insert _ _ _ _ _ _ _ _,
      fun c hc => (h.prunes c hc).mono (List.sublist_append_left _ _)⟩
  | startPrune p =>
    refine ⟨h.counters, fun c hc => ?_⟩
    rcases List.mem_append.mp hc with hc | hc
    · exact h.prunes c hc
    · rw [List.mem_singleton.mp hc]
      exact bounded_start _
  | batch i =>
    cases hi : s.prunes[i]? with
    | none =>
      simp only [ReviewSystem.step, hi]
      exact h
    | some c =>
      obtain ⟨p, r⟩ := c
      simp only [ReviewSystem.step, hi]
      obtain ⟨hc, hr⟩ := next_exact (p := p) h.counters (h.prunes _ (List.mem_of_getElem? hi))
      refine ⟨hc, fun c hcm => ?_⟩
      rcases List.mem_or_eq_of_mem_set hcm with hcm | rfl
      · exact h.prunes c hcm
      · exact hr
  | stop i => exact ⟨h.counters, fun c hc => h.prunes c (List.mem_of_mem_eraseIdx hc)⟩

theorem CountersExact.reported {lifetime : List ReviewEvent} {s : WordStore K}
    (h : CountersExact lifetime s) {w : SavedWord K} (hw : w ∈ s.savedWords.rows) :
    s.countReviewEventsForCard w.userId w.id = eventsOf w.card lifetime := by
  have hlive : s.reviewEvents.rows.countP (fun e => e.card = w.card) ≤ eventsOf w.card lifetime :=
    (List.subperm_of_subset ((idSorted_rows s).imp
      (fun hlt heq => by rw [heq] at hlt; omega)) h.recorded).countP_le _
  have hstored : s.savedWords.rows.find? (fun x => x.card = (w.userId, w.id)) = some w := by
    refine s.savedWords.find?_eq_some hw (decide_eq_true rfl) (fun x _ hx => ?_)
    exact (Prod.mk.inj (of_decide_eq_true hx)).2
  unfold WordStore.countReviewEventsForCard
  simp only [hstored, Option.map_some, Option.getD_some, h.total w hw]
  exact Nat.max_eq_right hlive

theorem countersExact_new {s : WordStore K} (hrows : s.reviewEvents.rows = [])
    (hnew : ∀ w ∈ s.savedWords.rows, w.totalReviews = 0 ∧ w.lapses = 0) : CountersExact [] s :=
  ⟨fun w hw => (hnew w hw).1, fun w hw => (hnew w hw).2, by rw [hrows]; exact List.Subset.refl _⟩

/-- **The counters are the lifetime totals, whatever runs in between.**  From a
store whose counters are the totals of `past`, every sequence of inserts, prune
starts, prune batches and stops leaves, for every card, a reported total, a stored
total and a stored lapse count equal to the numbers of events and lapses ever
inserted. -/
theorem counters_equal_lifetime {past : List ReviewEvent} {store : WordStore K}
    (h : CountersExact past store) (ops : List ReviewOp) :
    ∀ w ∈ (run ReviewSystem.step ⟨store, [], past⟩ ops).store.savedWords.rows,
      (run ReviewSystem.step ⟨store, [], past⟩ ops).store.countReviewEventsForCard w.userId w.id =
          eventsOf w.card (run ReviewSystem.step ⟨store, [], past⟩ ops).lifetime ∧
        w.totalReviews = eventsOf w.card (run ReviewSystem.step ⟨store, [], past⟩ ops).lifetime ∧
        w.lapses = lapsesOf w.card (run ReviewSystem.step ⟨store, [], past⟩ ops).lifetime := by
  have hstart : (⟨store, [], past⟩ : ReviewSystem K).Exact :=
    ⟨h, fun _ hc => absurd hc List.not_mem_nil⟩
  have hrun : (run ReviewSystem.step ⟨store, [], past⟩ ops).Exact :=
    run_invariant ReviewSystem.step (fun _ op h => h.step op) hstart ops
  exact fun w hw => ⟨hrun.counters.reported hw, hrun.counters.total w hw, hrun.counters.lapses w hw⟩

/-- A user's first card. -/
def oneCardStore : WordStore Int where
  savedWords := SerialTable.empty.insert
    (newSavedWord 7 "Haus" "de" "haus" .null 20000 true 1000) (fun _ => rfl)
  reviewEvents := SerialTable.empty

/-- Two events and a lapse, with a prune that deletes one of them in between. -/
def prunedInBetween : List ReviewOp :=
  [.insert 1 7 1 .srsReview "direct_button" none none 10, .startPrune ⟨100, 0, 0, 1⟩, .batch 0,
    .batch 0, .batch 0, .insert 1 7 3 .srsReview "direct_button" none none 20, .batch 0, .batch 0,
    .stop 0]

theorem counters_equal_lifetime_pruned :
    ∃ w ∈ (run ReviewSystem.step ⟨oneCardStore, [], []⟩ prunedInBetween).store.savedWords.rows,
      (run ReviewSystem.step ⟨oneCardStore, [], []⟩ prunedInBetween).store.countReviewEventsForCard
          w.userId w.id = 2 ∧ w.totalReviews = 2 ∧ w.lapses = 1 := by
  obtain ⟨w, hw, hcard⟩ : ∃ w ∈ (run ReviewSystem.step ⟨oneCardStore, [], []⟩
      prunedInBetween).store.savedWords.rows, w.card = (7, 1) := by decide
  have hnew : CountersExact [] oneCardStore := countersExact_new rfl (by decide)
  have h := counters_equal_lifetime hnew prunedInBetween w hw
  rw [hcard] at h
  exact ⟨w, hw, h⟩

end HamZaboon
