import HamZaboon.Store.Db
import HamZaboon.Fsrs.Core
import Mathlib.Data.List.Sort
import Mathlib.Algebra.Order.Group.Defs

/-! # Scheduling and the due queue

The reading half of `services/db/words.py`: the instant a stability schedules a
card to, which words are due and in which order, and which still wait for their
first exposure.  The application time zone is a `Zone`.
-/

namespace HamZaboon
open Library

/-- The application time zone, as the code uses it: the local day of an instant
and the instant a local day starts at. -/
structure Zone where
  dayOf : Instant → Day
  startOf : Day → Instant

def dayMicros : Int := 86400000000

section Schedule
variable {K : Type} [Field K] [LinearOrder K] [FloorRing K] [Elementary K]

/-- `_schedule`: the next review and the seconds until it. -/
def schedule (stability : K) (now : Instant) : Instant × Int :=
  let intervalDays := FsrsConfig.default.computeInterval stability none
  let nextReviewAt :=
    if intervalDays < 1 then now + roundHalfEven (intervalDays * (dayMicros : K))
    else now + max 1 (roundHalfEven intervalDays) * dayMicros
  (nextReviewAt, (nextReviewAt - now).tdiv 1000000)

end Schedule

variable {K : Type}

/-- `_row_effective_due`: an exact review time decides alone; a missing or
unreadable one falls back to the legacy date. -/
def rowEffectiveDue (zone : Zone) (row : SavedWord K) (now : Instant) : Option Instant :=
  match row.nextReviewAt with
  | .val ts => if ts ≤ now then some ts else none
  | _ =>
      match row.nextReview with
      | .val day => if day ≤ zone.dayOf now then some (zone.startOf day) else none
      | _ => none

/-- `if lang:` in a query. -/
def matchesLang (lang : Option String) (row : SavedWord K) : Bool :=
  match lang with
  | some l => l = "" || row.lang = l
  | none => true

/-- `ORDER BY CASE WHEN entry_source='manual' THEN 0 ELSE 1 END, added_at ASC
NULLS LAST`. -/
def firstExposureLe (a b : SavedWord K) : Bool :=
  if a.entryManual ≠ b.entryManual then a.entryManual
  else
    match a.addedAt, b.addedAt with
    | some x, some y => x ≤ y
    | some _, none => true
    | none, some _ => false
    | none, none => true

def WordStore.getPreFirstExposureWords (s : WordStore K) (userId : UserId) (lang : Option String)
    (limit : Option Int) : List (SavedWord K) :=
  let rows := s.savedWords.rows.filter fun r =>
    r.userId = userId && r.firstExposureDone = some false && matchesLang lang r
  let ordered := rows.insertionSort (fun a b => firstExposureLe a b = true)
  match limit with
  | some n => if n ≤ 0 then [] else ordered.take n.toNat
  | none => ordered

section Due
variable [Field K] [LinearOrder K] [Elementary K]

def rowElapsedDays (row : SavedWord K) (now effDue : Instant) : K :=
  max 0 (((now - (row.lastReviewAt.get?.getD effDue) : Int) : K) / (dayMicros : K))

/-- The stability of a row, `0.1` where it has none. -/
def SavedWord.stabilityOrDefault (row : SavedWord K) : K := row.stability.getD 0.1

/-- The difficulty of a row, `5.0` where it has none. -/
def SavedWord.difficultyOrDefault (row : SavedWord K) : K := row.difficulty.getD 5

/-- The sort key of a due row: `_row_priority_key`. -/
structure PriorityKey (K : Type) where
  retrievability : K
  negDifficulty : K
  due : Instant
  id : WordId

def rowPriorityKey (row : SavedWord K) (now effDue : Instant) : PriorityKey K :=
  let s := row.stabilityOrDefault
  let s := if 0 < s then s else 0.000000001
  { retrievability := FsrsConfig.default.computeRetrievability (rowElapsedDays row now effDue) s
    negDifficulty := -row.difficultyOrDefault
    due := effDue
    id := row.id }

/-- Tuples compare entry by entry. -/
def PriorityKey.le (a b : PriorityKey K) : Bool :=
  if a.retrievability ≠ b.retrievability then a.retrievability < b.retrievability
  else if a.negDifficulty ≠ b.negDifficulty then a.negDifficulty < b.negDifficulty
  else if a.due ≠ b.due then a.due < b.due
  else a.id ≤ b.id

/-- The `WHERE` of `due_words_for_user`. -/
def dueCandidate (userId : UserId) (lang : Option String) (now : Instant) (row : SavedWord K) :
    Bool :=
  row.userId = userId && row.firstExposureDone.getD false &&
    row.reviewStatus.getD .idle ≠ .pending && row.retryAt.isNone && matchesLang lang row &&
    (match row.nextReviewAt with
      | .val ts => ts ≤ now + dayMicros
      | _ => true)

def WordStore.dueWordsForUser (s : WordStore K) (zone : Zone) (now : Instant) (userId : UserId)
    (lang : Option String) : List (SavedWord K) :=
  let rows := s.savedWords.rows.filter (dueCandidate userId lang now)
  let eligible := rows.filterMap fun r => (rowEffectiveDue zone r now).map (r, ·)
  (eligible.insertionSort (fun a b =>
    (rowPriorityKey a.1 now a.2).le (rowPriorityKey b.1 now b.2) = true)).map (·.1)

/-! ## What the queues contain -/

theorem mem_dueWordsForUser {s : WordStore K} {zone : Zone} {now : Instant} {u : UserId}
    {lang : Option String} {r : SavedWord K} (h : r ∈ s.dueWordsForUser zone now u lang) :
    r ∈ s.savedWords.rows ∧ r.userId = u ∧ r.firstExposureDone = some true := by
  simp only [WordStore.dueWordsForUser, List.mem_map, List.mem_insertionSort,
    List.mem_filterMap, List.mem_filter] at h
  obtain ⟨p, ⟨x, ⟨hx, hcand⟩, hp⟩, rfl⟩ := h
  obtain ⟨_, _, rfl⟩ := Option.map_eq_some_iff.mp hp
  simp only [dueCandidate, Bool.and_eq_true, decide_eq_true_eq] at hcand
  refine ⟨hx, hcand.1.1.1.1.1, ?_⟩
  have hdone := hcand.1.1.1.1.2
  cases hfe : x.firstExposureDone with
  | none => simp [hfe] at hdone
  | some b => simpa [hfe] using hdone

theorem nodup_dueWordsForUser (s : WordStore K) (zone : Zone) (now : Instant) (u : UserId)
    (lang : Option String) : ((s.dueWordsForUser zone now u lang).map (·.id)).Nodup := by
  have hrows : ((s.savedWords.rows.filter (dueCandidate u lang now)).map (·.id)).Nodup :=
    s.savedWords.nodup_keys.sublist (List.filter_sublist.map _)
  have hsub : ((s.savedWords.rows.filter (dueCandidate u lang now)).filterMap
      fun r => (rowEffectiveDue zone r now).map (r, ·)).map (·.1.id) |>.Sublist
        ((s.savedWords.rows.filter (dueCandidate u lang now)).map (·.id)) := by
    induction s.savedWords.rows.filter (dueCandidate u lang now) with
    | nil => exact List.Sublist.slnil
    | cons r rest ih =>
      cases hd : rowEffectiveDue zone r now with
      | none => simpa [List.filterMap_cons, hd] using ih.cons r.id
      | some d => simpa [List.filterMap_cons, hd] using ih
  have hperm := (List.perm_insertionSort (fun a b : SavedWord K × Instant =>
    (rowPriorityKey a.1 now a.2).le (rowPriorityKey b.1 now b.2) = true)
    ((s.savedWords.rows.filter (dueCandidate u lang now)).filterMap
      fun r => (rowEffectiveDue zone r now).map (r, ·))).map (fun p => p.1.id)
  simp only [WordStore.dueWordsForUser, List.map_map]
  exact hperm.nodup_iff.mpr (hrows.sublist hsub)

end Due

theorem mem_getPreFirstExposureWords {s : WordStore K} {u : UserId} {lang : Option String}
    {limit : Option Int} {r : SavedWord K} (h : r ∈ s.getPreFirstExposureWords u lang limit) :
    r ∈ s.savedWords.rows ∧ r.userId = u ∧ r.firstExposureDone = some false := by
  have hall : r ∈ (s.savedWords.rows.filter fun r =>
      r.userId = u && r.firstExposureDone = some false && matchesLang lang r).insertionSort
        (fun a b => firstExposureLe a b = true) := by
    simp only [WordStore.getPreFirstExposureWords] at h
    split at h
    · split at h
      · cases h
      · exact List.mem_of_mem_take h
    · exact h
  rw [List.mem_insertionSort, List.mem_filter] at hall
  obtain ⟨hr, hcand⟩ := hall
  simp only [Bool.and_eq_true, decide_eq_true_eq] at hcand
  exact ⟨hr, hcand.1.1, hcand.1.2⟩

theorem nodup_getPreFirstExposureWords (s : WordStore K) (u : UserId) (lang : Option String)
    (limit : Option Int) : ((s.getPreFirstExposureWords u lang limit).map (·.id)).Nodup := by
  have hrows : ((s.savedWords.rows.filter fun r =>
      r.userId = u && r.firstExposureDone = some false && matchesLang lang r).map
        (·.id)).Nodup :=
    s.savedWords.nodup_keys.sublist (List.filter_sublist.map _)
  have hsorted := ((List.perm_insertionSort (fun a b : SavedWord K => firstExposureLe a b = true)
    (s.savedWords.rows.filter fun r =>
      r.userId = u && r.firstExposureDone = some false && matchesLang lang r)).map
        (·.id)).nodup_iff.mpr hrows
  simp only [WordStore.getPreFirstExposureWords]
  split
  · split
    · exact List.nodup_nil
    · rw [List.map_take]
      exact hsorted.sublist (List.take_sublist _ _)
  · exact hsorted

end HamZaboon
