import HamZaboon.Words.IsoOrder
import Mathlib.Data.Prod.Lex

/-! # The due words of the stored texts

`due_words_for_user` on the texts the date columns hold.  The query removes rows
before Python reads them: those whose `next_review_at` comes after the text of
`now` plus a day, looks like a date with a time, and is a time string to SQLite.
SQLite reads more texts than Python does, a day that its month lacks among them,
and for those `_row_effective_due` falls back to `next_review`.

`due_selection_exact_iff` says when the selection is the one the Python oracle
makes: when no row is hidden from it and no date is too early for an instant.
-/

namespace HamZaboon
open Library

variable {K : Type}

/-! ## Rows with their texts -/

def readColumn {α : Type} (parse : List Char → Option α) : Option String → Column α
  | none => .null
  | some text =>
    match parse text.toList with
    | some a => .val a
    | none => .junk

/-- `date.fromisoformat`, as a day. -/
def parseDay (text : List Char) : Option Day := (dateFromisoformat text).map fun n => (n : Int)

/-- A row of `saved_words`, with the texts of the date columns it is read from. -/
structure StoredWord (K : Type) where
  word : SavedWord K
  nextReviewAt : Option String
  nextReview : Option String
  lastReviewAt : Option String
  nextReviewAt_read : word.nextReviewAt = readColumn parseUtc nextReviewAt
  nextReview_read : word.nextReview = readColumn parseDay nextReview
  lastReviewAt_read : word.lastReviewAt = readColumn parseUtc lastReviewAt

/-- What `datetime` raises for an instant outside of the years 1 to 9999. -/
inductive DateError where
  | overflowError
deriving DecidableEq, Repr

def inCalendar (t : Instant) : Bool :=
  dayMicros ≤ t && t < (ymdToOrdinal 10000 1 1 : Int) * dayMicros

/-- `astimezone(utc)`. -/
def astimezoneUtc (t : Instant) : Except DateError Instant :=
  if inCalendar t then .ok t else .error .overflowError

/-- `_parse_utc` of a column, where it holds a text and the text is read. -/
def StoredWord.parsedNextReviewAt (row : StoredWord K) : Option Instant :=
  row.nextReviewAt.bind fun text => if text = "" then none else parseUtc text.toList

/-- `date.fromisoformat` of the legacy column. -/
def StoredWord.parsedNextReview (row : StoredWord K) : Option Day :=
  row.nextReview.bind fun text => if text = "" then none else parseDay text.toList

def StoredWord.rowEffectiveDue (row : StoredWord K) (zone : Zone) (now : Instant) :
    Except DateError (Option Instant) :=
  match row.parsedNextReviewAt with
  | some ts => .ok (if ts ≤ now then some ts else none)
  | none =>
    match row.parsedNextReview with
    | some day =>
      if day ≤ zone.dayOf now then (astimezoneUtc (zone.startOf day)).map some else .ok none
    | none => .ok none

/-! ## The query -/

/-- The text of the fields, whether they make a date or not. -/
def fieldsText (year month day hour minute second : Nat) : List Char :=
  pad 4 year ++ '-' :: (pad 2 month ++ '-' :: (pad 2 day ++ 'T' ::
    (pad 2 hour ++ ':' :: (pad 2 minute ++ ':' :: pad 2 second))))

/-- SQLite's `datetime`, as far as the query depends on it: which texts it reads
as a time.  It takes month 1 to 12, day 1 to 31 and hour 0 to 24 in any
combination, and between date and time a `T` but no `t`. -/
structure SqliteDatetime where
  reads : List Char → Bool
  reads_fields : ∀ year month day hour minute second, year ≤ 9998 → 1 ≤ month → month ≤ 12 →
    1 ≤ day → day ≤ 31 → hour ≤ 24 → minute ≤ 59 → second ≤ 59 →
      reads (fieldsText year month day hour minute second) = true
  literal_T : ∀ cs, likeDated cs = true → reads cs = true → cs[10]? = some 'T'

/-- The conditions of the query on the other columns. -/
def dueConditions (userId : UserId) (lang : Option String) (row : SavedWord K) : Bool :=
  row.userId = userId && row.firstExposureDone.getD false &&
    row.reviewStatus.getD .idle ≠ .pending && row.retryAt.isNone && matchesLang lang row

/-- The condition of the query on `next_review_at`. -/
def prefilter (sql : SqliteDatetime) (bound : List Char) : Option String → Bool
  | none => true
  | some text =>
    textLe text.toList bound || !likeDated text.toList || !sql.reads text.toList

/-- The loop over the rows of the query. -/
def eligible (zone : Zone) (now : Instant) :
    List (StoredWord K) → Except DateError (List (StoredWord K × Instant))
  | [] => .ok []
  | row :: rows =>
    match row.rowEffectiveDue zone now with
    | .error e => .error e
    | .ok none => eligible zone now rows
    | .ok (some due) => (eligible zone now rows).map ((row, due) :: ·)

section Due
variable [Field K] [LinearOrder K] [Elementary K]

def sortByPriority (now : Instant) (pairs : List (StoredWord K × Instant)) :
    List (StoredWord K × Instant) :=
  pairs.insertionSort fun a b =>
    (rowPriorityKey a.1.word now a.2).le (rowPriorityKey b.1.word now b.2) = true

def dueWordsForUser (sql : SqliteDatetime) (zone : Zone) (now : UtcTime) (userId : UserId)
    (lang : Option String) (rows : List (StoredWord K)) :
    Except DateError (List (StoredWord K)) :=
  match now.addDay with
  | none => .error .overflowError
  | some bound =>
    let fetched := rows.filter fun row =>
      dueConditions userId lang row.word && prefilter sql bound.isoformat row.nextReviewAt
    (eligible zone now.instant fetched).map fun pairs =>
      (sortByPriority now.instant pairs).map Prod.fst

end Due

/-! ## The oracle -/

def StoredWord.accepted (row : StoredWord K) (zone : Zone) (now : Instant) : Bool :=
  match row.rowEffectiveDue zone now with
  | .ok (some _) => true
  | _ => false

section Spec
variable [Field K] [LinearOrder K] [Elementary K]

/-- The order of the queue: retrievability upwards, difficulty downwards, then
due time and id upwards. -/
def Precedes (now : Instant) (a b : StoredWord K × Instant) : Prop :=
  let ra := (rowPriorityKey a.1.word now a.2).retrievability
  let rb := (rowPriorityKey b.1.word now b.2).retrievability
  let da := a.1.word.difficultyOrDefault
  let db := b.1.word.difficultyOrDefault
  ra < rb ∨ ra = rb ∧ (db < da ∨ da = db ∧ (a.2 < b.2 ∨ a.2 = b.2 ∧ a.1.word.id ≤ b.1.word.id))

/-- **The due selection is exact**: there is a queue, its rows are those that
meet the conditions and that the oracle accepts, and it is in order. -/
def DueSelectionExact (zone : Zone) (now : Instant) (userId : UserId) (lang : Option String)
    (rows : List (StoredWord K)) (result : Except DateError (List (StoredWord K))) : Prop :=
  ∃ queue : List (StoredWord K × Instant), result = .ok (queue.map Prod.fst) ∧
    (queue.map Prod.fst).Perm
      (rows.filter fun row => dueConditions userId lang row.word && row.accepted zone now) ∧
    (∀ p ∈ queue, p.1.rowEffectiveDue zone now = .ok (some p.2)) ∧ queue.Pairwise (Precedes now)

end Spec

/-- The query hides the row: its `next_review_at` comes after the bound and is a
time to SQLite but not to Python, and its `next_review` is a day not after today. -/
def StoredWord.Hidden (row : StoredWord K) (sql : SqliteDatetime) (zone : Zone)
    (now bound : UtcTime) : Prop :=
  ∃ text, row.nextReviewAt = some text ∧ textLe text.toList bound.isoformat = false ∧
    likeDated text.toList = true ∧ sql.reads text.toList = true ∧ parseUtc text.toList = none ∧
    ∃ day, row.parsedNextReview = some day ∧ day ≤ zone.dayOf now.instant ∧
      inCalendar (zone.startOf day) = true

/-- The row is fetched, and its fallback day begins outside of the calendar. -/
def StoredWord.Overflows (row : StoredWord K) (sql : SqliteDatetime) (zone : Zone)
    (now bound : UtcTime) : Prop :=
  prefilter sql bound.isoformat row.nextReviewAt = true ∧ row.parsedNextReviewAt = none ∧
    ∃ day, row.parsedNextReview = some day ∧ day ≤ zone.dayOf now.instant ∧
      inCalendar (zone.startOf day) = false

/-- **Nothing is hidden**: the bound exists, and no row that meets the conditions
is hidden by the query or overflows. -/
def NothingHidden (sql : SqliteDatetime) (zone : Zone) (now : UtcTime) (userId : UserId)
    (lang : Option String) (rows : List (StoredWord K)) : Prop :=
  ∃ bound, now.addDay = some bound ∧ ∀ row ∈ rows, dueConditions userId lang row.word = true →
    ¬row.Hidden sql zone now bound ∧ ¬row.Overflows sql zone now bound

/-! ## The order of the queue -/

section Order
variable [Field K] [LinearOrder K] [IsStrictOrderedRing K] [Elementary K]

/-- The sort key, in the lexicographic order of its entries. -/
def PriorityKey.lexicographic (k : PriorityKey K) : K ×ₗ K ×ₗ Int ×ₗ WordId :=
  toLex (k.retrievability, toLex (k.negDifficulty, toLex (k.due, k.id)))

omit [Field K] [IsStrictOrderedRing K] [Elementary K] in
theorem PriorityKey.le_iff (a b : PriorityKey K) :
    a.le b = true ↔ a.lexicographic ≤ b.lexicographic := by
  simp only [PriorityKey.lexicographic, Prod.Lex.toLex_le_toLex, PriorityKey.le]
  by_cases hr : a.retrievability = b.retrievability
  · by_cases hd : a.negDifficulty = b.negDifficulty
    · by_cases hdue : a.due = b.due
      · simp [hr, hd, hdue]
      · simp [hr, hd, hdue]
    · simp [hr, hd]
  · simp [hr]

theorem precedes_iff (now : Instant) (a b : StoredWord K × Instant) :
    Precedes now a b ↔
      (rowPriorityKey a.1.word now a.2).le (rowPriorityKey b.1.word now b.2) = true := by
  rw [PriorityKey.le_iff]
  simp only [PriorityKey.lexicographic, Prod.Lex.toLex_le_toLex, Precedes]
  simp only [rowPriorityKey, neg_lt_neg_iff, neg_inj]

theorem pairwise_sortByPriority (now : Instant) (pairs : List (StoredWord K × Instant)) :
    (sortByPriority now pairs).Pairwise (Precedes now) := by
  let r : StoredWord K × Instant → StoredWord K × Instant → Prop := fun a b =>
    (rowPriorityKey a.1.word now a.2).le (rowPriorityKey b.1.word now b.2) = true
  have htotal : Std.Total r := ⟨fun a b => by
    simp only [r, PriorityKey.le_iff]
    exact le_total _ _⟩
  have htrans : IsTrans _ r := ⟨fun a b c => by
    simp only [r, PriorityKey.le_iff]
    exact le_trans⟩
  exact (List.pairwise_insertionSort r pairs).imp fun h => (precedes_iff now _ _).mpr h

end Order

/-! ## The loop -/

/-- The row with its due time, where the oracle accepts it. -/
def StoredWord.due (zone : Zone) (now : Instant) (row : StoredWord K) :
    Option (StoredWord K × Instant) :=
  match row.rowEffectiveDue zone now with
  | .ok (some due) => some (row, due)
  | _ => none

theorem StoredWord.due_eq_some {zone : Zone} {now : Instant} {row : StoredWord K}
    {p : StoredWord K × Instant} :
    row.due zone now = some p ↔
      p.1 = row ∧ p.1.rowEffectiveDue zone now = .ok (some p.2) := by
  obtain ⟨row', due⟩ := p
  rw [StoredWord.due]
  constructor
  · intro h
    split at h
    next d hd =>
      cases h
      exact ⟨rfl, hd⟩
    next => cases h
  · rintro ⟨rfl, h⟩
    simp only at h
    rw [h]

theorem StoredWord.accepted_iff {zone : Zone} {now : Instant} {row : StoredWord K} :
    row.accepted zone now = true ↔ ∃ due, row.rowEffectiveDue zone now = .ok (some due) := by
  rw [StoredWord.accepted]
  split
  next due h => exact ⟨fun _ => ⟨due, h⟩, fun _ => rfl⟩
  next hnone => exact ⟨fun h => (nomatch h), fun ⟨due, h⟩ => (hnone due h).elim⟩

theorem map_fst_filterMap_due (zone : Zone) (now : Instant) (rows : List (StoredWord K)) :
    (rows.filterMap (·.due zone now)).map Prod.fst = rows.filter (·.accepted zone now) := by
  induction rows with
  | nil => rfl
  | cons row rows ih =>
    cases hdue : row.due zone now with
    | none =>
      have haccepted : ¬row.accepted zone now = true := by
        rw [StoredWord.accepted_iff]
        rintro ⟨due, h⟩
        have hsome : row.due zone now = some (row, due) := StoredWord.due_eq_some.mpr ⟨rfl, h⟩
        rw [hdue] at hsome
        cases hsome
      rw [List.filterMap_cons_none hdue, ih, List.filter_cons]
      simp [haccepted]
    | some p =>
      obtain ⟨hrow, h⟩ := StoredWord.due_eq_some.mp hdue
      have haccepted : row.accepted zone now = true :=
        StoredWord.accepted_iff.mpr ⟨p.2, hrow ▸ h⟩
      rw [List.filterMap_cons_some hdue, List.map_cons, ih, hrow, List.filter_cons]
      simp [haccepted]

theorem eligible_eq_ok {zone : Zone} {now : Instant} {rows : List (StoredWord K)}
    {pairs : List (StoredWord K × Instant)} :
    eligible zone now rows = .ok pairs ↔
      (∀ row ∈ rows, ∃ due, row.rowEffectiveDue zone now = .ok due) ∧
        pairs = rows.filterMap (·.due zone now) := by
  induction rows generalizing pairs with
  | nil => simp [eligible, eq_comm]
  | cons row rows ih =>
    rcases hdue : row.rowEffectiveDue zone now with e | _ | due
    · simp [eligible, hdue]
    · have hnone : row.due zone now = none := by simp [StoredWord.due, hdue]
      simp [eligible, hdue, ih, List.filterMap_cons_none hnone]
    · have hsome : row.due zone now = some (row, due) := by simp [StoredWord.due, hdue]
      rw [eligible, hdue, List.filterMap_cons_some hsome]
      simp only
      constructor
      · intro h
        rcases hrest : eligible zone now rows with e | rest
        · rw [hrest] at h
          cases h
        · obtain ⟨hall, rfl⟩ := ih.mp hrest
          rw [hrest] at h
          cases h
          refine ⟨fun r hr => ?_, rfl⟩
          rcases List.mem_cons.mp hr with rfl | hr
          · exact ⟨_, hdue⟩
          · exact hall r hr
      · rintro ⟨hall, rfl⟩
        rw [ih.mpr ⟨fun r hr => hall r (List.mem_cons_of_mem _ hr), rfl⟩]
        rfl

/-! ## What the query removes -/

section Query
variable {sql : SqliteDatetime} {zone : Zone} {now bound : UtcTime} {row : StoredWord K}

theorem parsedNextReviewAt_of_ne {text : String} (h : row.nextReviewAt = some text)
    (hne : text ≠ "") : row.parsedNextReviewAt = parseUtc text.toList := by
  simp [StoredWord.parsedNextReviewAt, h, hne]

theorem ne_empty_of_likeDated {text : String} (h : likeDated text.toList = true) : text ≠ "" := by
  rintro rfl
  simp [likeDated] at h

/-- **A row the oracle accepts passes the query, unless it is hidden.** -/
theorem prefilter_of_accepted (hbound : now.addDay = some bound)
    (haccepted : row.accepted zone now.instant = true) (hhidden : ¬row.Hidden sql zone now bound) :
    prefilter sql bound.isoformat row.nextReviewAt = true := by
  rcases htext : row.nextReviewAt with _ | text
  · rfl
  by_contra hfilter
  simp only [prefilter, Bool.or_eq_true, Bool.not_eq_true', not_or, Bool.not_eq_false,
    Bool.not_eq_true] at hfilter
  obtain ⟨⟨hafter, hdated⟩, hreads⟩ := hfilter
  have hparsed := parsedNextReviewAt_of_ne htext (ne_empty_of_likeDated hdated)
  obtain ⟨due, hdue⟩ := StoredWord.accepted_iff.mp haccepted
  rw [StoredWord.rowEffectiveDue, hparsed] at hdue
  rcases hts : parseUtc text.toList with _ | ts
  · rw [hts] at hdue
    rcases hday : row.parsedNextReview with _ | day
    · rw [hday] at hdue
      cases hdue
    · rw [hday] at hdue
      simp only at hdue
      by_cases htoday : day ≤ zone.dayOf now.instant
      · rw [if_pos htoday, astimezoneUtc] at hdue
        split_ifs at hdue with hcalendar
        · exact hhidden ⟨text, htext, hafter, hdated, hreads, hts, day, hday, htoday, hcalendar⟩
        · cases hdue
      · rw [if_neg htoday] at hdue
        cases hdue
  · rw [hts] at hdue
    simp only [Except.ok.injEq] at hdue
    split_ifs at hdue with hle
    have hbefore := textLe_of_instant_le hbound hdated (sql.literal_T _ hdated hreads) hts hle
    rw [hbefore] at hafter
    cases hafter

theorem StoredWord.Hidden.removed (h : row.Hidden sql zone now bound) :
    row.accepted zone now.instant = true ∧
      prefilter sql bound.isoformat row.nextReviewAt = false := by
  obtain ⟨text, htext, hafter, hdated, hreads, hparse, day, hday, htoday, hcalendar⟩ := h
  have hparsed := parsedNextReviewAt_of_ne htext (ne_empty_of_likeDated hdated)
  refine ⟨StoredWord.accepted_iff.mpr ⟨zone.startOf day, ?_⟩, ?_⟩
  · rw [StoredWord.rowEffectiveDue, hparsed, hparse, hday]
    simp only
    rw [if_pos htoday, astimezoneUtc, if_pos hcalendar]
    rfl
  · simp [prefilter, htext, hafter, hdated, hreads]

theorem rowEffectiveDue_error :
    (∃ e, row.rowEffectiveDue zone now.instant = .error e) ↔
      row.parsedNextReviewAt = none ∧ ∃ day, row.parsedNextReview = some day ∧
        day ≤ zone.dayOf now.instant ∧ inCalendar (zone.startOf day) = false := by
  rw [StoredWord.rowEffectiveDue]
  rcases hts : row.parsedNextReviewAt with _ | ts
  · rcases hday : row.parsedNextReview with _ | day
    · simp
    · by_cases htoday : day ≤ zone.dayOf now.instant
      · by_cases hcalendar : inCalendar (zone.startOf day) = true
        · simp [htoday, astimezoneUtc, hcalendar, Except.map]
        · rw [Bool.not_eq_true] at hcalendar
          simp only [htoday, if_true, astimezoneUtc, hcalendar, Bool.false_eq_true, if_false]
          exact ⟨fun _ => ⟨trivial, day, rfl, htoday, hcalendar⟩, fun _ => ⟨.overflowError, rfl⟩⟩
      · simp [htoday]
  · simp

theorem filter_fetched {userId : UserId} {lang : Option String} {rows : List (StoredWord K)}
    (hbound : now.addDay = some bound)
    (h : ∀ row ∈ rows, dueConditions userId lang row.word = true → ¬row.Hidden sql zone now bound) :
    ((rows.filter fun row =>
        dueConditions userId lang row.word && prefilter sql bound.isoformat row.nextReviewAt).filter
      (·.accepted zone now.instant)) =
    rows.filter fun row =>
      dueConditions userId lang row.word && row.accepted zone now.instant := by
  rw [List.filter_filter]
  refine List.filter_congr fun row hrow => ?_
  rcases hconditions : dueConditions userId lang row.word with _ | _
  · simp
  · rcases haccepted : row.accepted zone now.instant with _ | _
    · simp
    · simp [prefilter_of_accepted hbound haccepted (h row hrow hconditions)]

end Query

/-! ## Exactness -/

theorem map_fst_sortByPriority [Field K] [LinearOrder K] [Elementary K] (t : Instant) (rows : List (StoredWord K)) :
    ((sortByPriority t (rows.filterMap (·.due zone t))).map Prod.fst).Perm
      (rows.filter (·.accepted zone t)) := by
  rw [← map_fst_filterMap_due]
  exact (List.perm_insertionSort _ _).map Prod.fst

section Exact
variable [Field K] [LinearOrder K] [IsStrictOrderedRing K] [Elementary K]
variable {sql : SqliteDatetime} {zone : Zone} {now bound : UtcTime} {userId : UserId}
  {lang : Option String} {rows : List (StoredWord K)}

theorem dueSelectionExact_of_nothingHidden (h : NothingHidden sql zone now userId lang rows) :
    DueSelectionExact zone now.instant userId lang rows
      (dueWordsForUser sql zone now userId lang rows) := by
  obtain ⟨bound, hbound, hrows⟩ := h
  have hok : eligible zone now.instant (rows.filter fun row =>
      dueConditions userId lang row.word && prefilter sql bound.isoformat row.nextReviewAt) =
      .ok ((rows.filter fun row => dueConditions userId lang row.word &&
        prefilter sql bound.isoformat row.nextReviewAt).filterMap (·.due zone now.instant)) := by
    refine eligible_eq_ok.mpr ⟨fun row hrow => ?_, rfl⟩
    obtain ⟨hmem, hfetched⟩ := List.mem_filter.mp hrow
    rw [Bool.and_eq_true] at hfetched
    rcases hdue : row.rowEffectiveDue zone now.instant with e | due
    · refine absurd ?_ (hrows row hmem hfetched.1).2
      exact ⟨hfetched.2, rowEffectiveDue_error.mp ⟨e, hdue⟩⟩
    · exact ⟨due, rfl⟩
  refine ⟨_, by simp only [dueWordsForUser, hbound, hok]; rfl, ?_, ?_, pairwise_sortByPriority _ _⟩
  · rw [← filter_fetched hbound fun row hrow hcond => (hrows row hrow hcond).1]
    exact map_fst_sortByPriority _ _
  · intro p hp
    obtain ⟨row, -, hdue⟩ := List.mem_filterMap.mp ((List.mem_insertionSort _).mp hp)
    exact (StoredWord.due_eq_some.mp hdue).2

omit [IsStrictOrderedRing K] in
theorem nothingHidden_of_dueSelectionExact
    (h : DueSelectionExact zone now.instant userId lang rows
      (dueWordsForUser sql zone now userId lang rows)) :
    NothingHidden sql zone now userId lang rows := by
  obtain ⟨queue, hresult, hperm, -, -⟩ := h
  rw [dueWordsForUser] at hresult
  rcases hbound : now.addDay with _ | bound
  · rw [hbound] at hresult
    cases hresult
  rw [hbound] at hresult
  simp only at hresult
  rcases heligible : eligible zone now.instant (rows.filter fun row =>
      dueConditions userId lang row.word && prefilter sql bound.isoformat row.nextReviewAt) with
    e | pairs
  · rw [heligible] at hresult
    cases hresult
  rw [heligible] at hresult
  obtain ⟨hall, rfl⟩ := eligible_eq_ok.mp heligible
  have hqueue : (sortByPriority now.instant _).map Prod.fst = queue.map Prod.fst :=
    Except.ok.inj hresult
  refine ⟨bound, hbound, fun row hrow hconditions => ⟨fun hhidden => ?_, fun hoverflows => ?_⟩⟩
  · obtain ⟨haccepted, hremoved⟩ := hhidden.removed
    have hmem : row ∈ queue.map Prod.fst :=
      hperm.mem_iff.mpr (List.mem_filter.mpr ⟨hrow, by simp [hconditions, haccepted]⟩)
    rw [← hqueue] at hmem
    have hfetched := (map_fst_sortByPriority _ _).mem_iff.mp hmem
    simp [hremoved] at hfetched
  · obtain ⟨hfetched, herror⟩ := hoverflows
    obtain ⟨e, he⟩ := rowEffectiveDue_error.mpr herror
    obtain ⟨due, hdue⟩ := hall row (List.mem_filter.mpr ⟨hrow, by simp [hconditions, hfetched]⟩)
    rw [he] at hdue
    cases hdue

/-- **The due selection is exact** exactly when nothing is hidden from it. -/
theorem due_selection_exact_iff (sql : SqliteDatetime) (zone : Zone) (now : UtcTime)
    (userId : UserId) (lang : Option String) (rows : List (StoredWord K)) :
    DueSelectionExact zone now.instant userId lang rows
        (dueWordsForUser sql zone now userId lang rows) ↔
      NothingHidden sql zone now userId lang rows :=
  ⟨nothingHidden_of_dueSelectionExact, dueSelectionExact_of_nothingHidden⟩

end Exact

/-! ## The columns as they are read

The rest of the development sees the date columns as they are read.  On a table
from which nothing is hidden both selections are the same. -/

/-- The time strings of a date and a time to the second, in SQLite's ranges. -/
def readsFields (cs : List Char) : Bool :=
  let year := numeral (cs.take 4)
  let month := numeral ((cs.drop 5).take 2)
  let day := numeral ((cs.drop 8).take 2)
  let hour := numeral ((cs.drop 11).take 2)
  let minute := numeral ((cs.drop 14).take 2)
  let second := numeral ((cs.drop 17).take 2)
  cs = fieldsText year month day hour minute second && 1 ≤ month && month ≤ 12 && 1 ≤ day &&
    day ≤ 31 && hour ≤ 24 && minute ≤ 59 && second ≤ 59

/-- A `datetime` that reads only these. -/
def sqliteFields : SqliteDatetime where
  reads := readsFields
  reads_fields := by
    intro year month day hour minute second hyear hmonth hmonth' hday hday' hhour hminute hsecond
    let text := fieldsText year month day hour minute second
    have hy : numeral (text.take 4) = year :=
      (numeral_pad (by omega) : numeral (pad 4 year) = year)
    have hm : numeral ((text.drop 5).take 2) = month :=
      (numeral_pad (by omega) : numeral (pad 2 month) = month)
    have hd : numeral ((text.drop 8).take 2) = day :=
      (numeral_pad (by omega) : numeral (pad 2 day) = day)
    have hh : numeral ((text.drop 11).take 2) = hour :=
      (numeral_pad (by omega) : numeral (pad 2 hour) = hour)
    have hmi : numeral ((text.drop 14).take 2) = minute :=
      (numeral_pad (by omega) : numeral (pad 2 minute) = minute)
    have hs : numeral ((text.drop 17).take 2) = second :=
      (numeral_pad (by omega) : numeral (pad 2 second) = second)
    show readsFields text = true
    rw [readsFields, hy, hm, hd, hh, hmi, hs]
    simp [text, hmonth, hmonth', hday, hday', hhour, hminute, hsecond]
  literal_T := by
    intro cs _ h
    simp only [readsFields, Bool.and_eq_true, decide_eq_true_eq] at h
    rw [h.1.1.1.1.1.1.1]
    simp [fieldsText]

local instance elementaryRatDue : Elementary ℚ := .firstOrder ℚ

/-- A zone without an offset. -/
def utcZone : Zone := ⟨fun t => t / dayMicros, fun day => day * dayMicros⟩

/-- Noon of the first of February 2026. -/
def noon : UtcTime where
  date := ⟨2026, 2, 1, by decide, by decide, by decide, by decide, by decide, by decide⟩
  time := ⟨12, 0, 0, 0⟩
  inDay := by decide
  microsecond_lt := by decide

/-- A card since the first of January 2026, with its next review on a day that
February lacks. -/
def impossibleRow : StoredWord ℚ where
  word := { newSavedWord 1 "word" "en" "word" .null 739617 false 0 1 with
    firstExposureDone := some true, nextReviewAt := .junk }
  nextReviewAt := some "2099-02-31T00:00:00"
  nextReview := some "2026-01-01"
  lastReviewAt := none
  nextReviewAt_read := by decide
  nextReview_read := by decide
  lastReviewAt_read := rfl

/-- SQLite reads the thirty-first of February and hides the row. -/
theorem impossible_day_hidden :
    ¬DueSelectionExact utcZone noon.instant 1 none [impossibleRow]
      (dueWordsForUser sqliteFields utcZone noon 1 none [impossibleRow]) := by
  rintro ⟨queue, hresult, hperm, -, -⟩
  have hempty : dueWordsForUser sqliteFields utcZone noon 1 none [impossibleRow] = .ok [] := rfl
  rw [hempty] at hresult
  rw [← Except.ok.inj hresult] at hperm
  exact absurd hperm.length_eq (by decide)

/-- A card whose next review was yesterday, in another time zone. -/
def readableRow : StoredWord ℚ where
  word := { newSavedWord 2 "book" "en" "book" .null 739617 false 0 1 with
    firstExposureDone := some true
    nextReviewAt := readColumn parseUtc (some "2026-01-31T08:00:00+03:30") }
  nextReviewAt := some "2026-01-31T08:00:00+03:30"
  nextReview := some "2026-01-01"
  lastReviewAt := none
  nextReviewAt_read := rfl
  nextReview_read := by decide
  lastReviewAt_read := rfl

/-- A table of readable texts is selected from exactly. -/
theorem due_selection_exact_readable :
    DueSelectionExact utcZone noon.instant 2 none [readableRow]
      (dueWordsForUser sqliteFields utcZone noon 2 none [readableRow]) := by
  refine (due_selection_exact_iff sqliteFields utcZone noon 2 none [readableRow]).mpr
    ⟨_, rfl, fun row hrow _ => ?_⟩
  obtain rfl := List.mem_singleton.mp hrow
  refine ⟨?_, ?_⟩
  · rintro ⟨text, htext, hafter, -⟩
    cases htext
    exact absurd hafter (by decide)
  · rintro ⟨-, hparsed, -⟩
    exact absurd hparsed (by decide)

end HamZaboon
