import HamZaboon.Words.Grading
import HamZaboon.Fsrs.Curve
import HamZaboon.Library.Runs

/-! # Histories of a graded word

What the grades of a word leave in its row, over real numbers.  After the first
exposure a row is `Scheduled`: positive stability, difficulty between 1 and 10, a
review after the last one and at most a year later; every further grade keeps it
so, and evaluates its formulas where they are defined (`grades_keep_schedule`).
-/

namespace HamZaboon
open Library

section Rounding
variable {K : Type} [Field K] [LinearOrder K] [FloorRing K]

theorem le_roundHalfEven {x : K} {n : Int} (h : (n : K) ≤ x) : n ≤ roundHalfEven x := by
  have hfloor : n ≤ ⌊x⌋ := Int.le_floor.mpr h
  unfold roundHalfEven
  dsimp only
  split
  · exact hfloor
  · split
    · omega
    · split <;> omega

theorem roundHalfEven_le [IsStrictOrderedRing K] {x : K} {n : Int} (h : x ≤ (n : K)) : roundHalfEven x ≤ n := by
  by_cases hint : x = (n : K)
  · have hfloor : ⌊x⌋ = n := by rw [hint, Int.floor_intCast]
    unfold roundHalfEven
    simp only [hfloor]
    rw [if_pos (by rw [hint, sub_self]; norm_num)]
  · have hlt : ⌊x⌋ < n := Int.floor_lt.mpr (lt_of_le_of_ne h hint)
    unfold roundHalfEven
    dsimp only
    split
    · omega
    · split
      · omega
      · split <;> omega

end Rounding

/-! ## The transitions with partial arithmetic -/

section Reviews
variable {K : Type} [Field K] [LinearOrder K] [Elementary K]

/-- The new stability of `grade_word_review`. -/
def reviewStability (elapsedDays d s : K) (grade : Grade) : K :=
  if elapsedDays < 1 then FsrsConfig.default.shortTermStability s grade
  else
    FsrsConfig.default.updateStability d s (FsrsConfig.default.computeRetrievability elapsedDays s)
      grade

/-- The new stability of `grade_word_review`, with partial arithmetic. -/
def reviewStability? (elapsedDays d s : K) (grade : Grade) : Option K :=
  if elapsedDays < 1 then FsrsConfig.default.shortTermStability? s grade
  else do
    let r ← FsrsConfig.default.computeRetrievability? elapsedDays s
    FsrsConfig.default.updateStability? d s r grade

variable [IsStrictOrderedRing K] [LawfulElementary K]

theorem reviewStability_pos (days d : K) {s : K} (hs : 0 < s) (grade : Grade) :
    0 < reviewStability days d s grade := by
  unfold reviewStability
  split
  · exact FsrsConfig.shortTermStability_pos _ hs grade
  · exact FsrsConfig.updateStability_pos _ d s _ grade

theorem reviewStability?_eq {days d s : K} (hs : 0 < s) (hd : 1 ≤ d) (grade : Grade) :
    reviewStability? days d s grade = some (reviewStability days d s grade) := by
  unfold reviewStability? reviewStability
  split
  · exact FsrsConfig.shortTermStability?_eq _ hs grade
  · rw [FsrsConfig.computeRetrievability?_eq FsrsConfig.w20_default_pos, Option.bind_eq_bind,
      Option.bind_some, FsrsConfig.updateStability?_eq _ hd]

end Reviews

section Partial
variable {K : Type} [Field K] [LinearOrder K] [FloorRing K] [Elementary K]

def schedule? (stability : K) (now : Instant) : Option (Instant × Int) := do
  let intervalDays ← FsrsConfig.default.computeInterval? stability none
  let nextReviewAt :=
    if intervalDays < 1 then now + roundHalfEven (intervalDays * (dayMicros : K))
    else now + max 1 (roundHalfEven intervalDays) * dayMicros
  some (nextReviewAt, (nextReviewAt - now).tdiv 1000000)

def Db.commitGrade? (db : Db K) (zone : Zone) (wordId : WordId) (userId : UserId)
    (activity : ActivityType) (call : GradeCall) (stability difficulty : K)
    (firstExposureDone : Option Bool) : Option (GradeResult K) := do
  let next ← schedule? stability call.now
  let db := db.applySchedulingFields wordId userId stability difficulty call.now next.1
    (zone.dayOf next.1) firstExposureDone
  let db := db.markWordGraded userId wordId activity call.now
  let db := db.insertReviewEvent wordId userId activity call
  some (.ok (db.touchStreak userId call.today) next.1 next.2)

def Db.gradeWordReview? (db : Db K) (zone : Zone) (wordId : WordId) (userId : UserId)
    (call : GradeCall) : Option (GradeResult K) :=
  match db.savedWords.rows.find? (fun w => w.card = (userId, wordId)) with
  | none => some (.refused .notFound)
  | some row =>
      if row.firstExposureDone.getD false = false ∨ row.lastReviewAt.present = false then
        some (.refused .wrongState)
      else
        match row.lastReviewAt.get? with
        | none => some .raised
        | some lastReview => do
            let sOld := row.stabilityOrDefault
            let dOld := row.difficultyOrDefault
            let days ← div? ((call.now - lastReview : Int) : K) (dayMicros : K)
            let dNew ← FsrsConfig.default.updateDifficulty? dOld call.grade
            let sNew ← reviewStability? (max 0 days) dOld sOld call.grade
            db.commitGrade? zone wordId userId .srsReview call sNew dNew none

def Db.gradeFirstExposure? (db : Db K) (zone : Zone) (wordId : WordId) (userId : UserId)
    (call : GradeCall) : Option (GradeResult K) :=
  match db.savedWords.rows.find? (fun w => w.card = (userId, wordId)) with
  | none => some (.refused .notFound)
  | some row =>
      if row.firstExposureDone.getD false then some (.refused .wrongState)
      else
        let s := FsrsConfig.default.initialStabilityFirstExposure call.grade
        let d := FsrsConfig.default.initialDifficulty call.grade
        db.commitGrade? zone wordId userId .firstExposure call s d (some true)

def Db.grade? (db : Db K) (zone : Zone) (activity : ActivityType) (wordId : WordId)
    (userId : UserId) (call : GradeCall) : Option (GradeResult K) :=
  match activity with
  | .srsReview => db.gradeWordReview? zone wordId userId call
  | .firstExposure => db.gradeFirstExposure? zone wordId userId call
  | _ => some .raised

variable [IsStrictOrderedRing K] [LawfulElementary K]

theorem schedule?_eq (s : K) (now : Instant) : schedule? s now = some (schedule s now) := by
  unfold schedule?
  rw [FsrsConfig.computeInterval?_eq FsrsConfig.w20_default_pos]
  rfl

theorem Db.commitGrade?_eq (db : Db K) (zone : Zone) (wordId : WordId) (userId : UserId)
    (activity : ActivityType) (call : GradeCall) (s d : K) (done : Option Bool) :
    db.commitGrade? zone wordId userId activity call s d done =
      some (db.commitGrade zone wordId userId activity call s d done) := by
  unfold Db.commitGrade?
  rw [schedule?_eq]
  rfl

theorem schedule_bounds (s : K) (now : Instant) :
    now < (schedule s now).1 ∧ (schedule s now).1 ≤ now + 365 * dayMicros := by
  have hinterval := FsrsConfig.computeInterval_eq (FsrsConfig.w20_default_pos (K := K)) s
  have hlow : (0.1 : K) ≤ FsrsConfig.default.computeInterval s none := by
    rw [hinterval]
    exact le_min (le_max_left _ _) (by show (0.1 : K) ≤ 365; norm_num)
  have hhigh : FsrsConfig.default.computeInterval s none ≤ (365 : K) := by
    rw [hinterval]
    exact min_le_right _ _
  unfold schedule
  dsimp only
  generalize FsrsConfig.default.computeInterval s none = interval at hlow hhigh ⊢
  have hmicros : dayMicros = 86400000000 := rfl
  have hwindow : ∀ length : Int, 0 < length → length ≤ 365 * dayMicros →
      now < now + length ∧ now + length ≤ now + 365 * dayMicros :=
    fun length hpos hyear => ⟨Int.lt_add_of_pos_right now hpos, Int.add_le_add_left hyear now⟩
  have hday : (dayMicros : K) = 86400000000 := by norm_num [dayMicros]
  split
  · rename_i hshort
    have hpos : 1 ≤ roundHalfEven (interval * (dayMicros : K)) := by
      refine le_roundHalfEven ?_
      rw [hday]
      push_cast
      linarith
    have hyear : roundHalfEven (interval * (dayMicros : K)) ≤ dayMicros := by
      refine roundHalfEven_le ?_
      rw [hday]
      linarith
    exact hwindow _ (by omega) (by omega)
  · rename_i hlong
    have hyear : roundHalfEven interval ≤ 365 := roundHalfEven_le (by push_cast; exact hhigh)
    have hmul : max 1 (roundHalfEven interval) * dayMicros ≤ 365 * dayMicros :=
      mul_le_mul_of_nonneg_right (max_le (by norm_num) hyear) (by norm_num [dayMicros])
    have hpos : 1 * dayMicros ≤ max 1 (roundHalfEven interval) * dayMicros :=
      mul_le_mul_of_nonneg_right (le_max_left _ _) (by norm_num [dayMicros])
    exact hwindow _ (by omega) hmul

end Partial

/-! ## Scheduled words -/

/-- A word that was graded at `t` and is next due at `n`. -/
structure Scheduled {K : Type} [Field K] [LinearOrder K] (w : SavedWord K) (t n : Instant) :
    Prop where
  done : w.firstExposureDone = some true
  stability : ∃ s, w.stability = some s ∧ 0 < s
  difficulty : ∃ d, w.difficulty = some d ∧ 1 ≤ d ∧ d ≤ 10
  last : w.lastReviewAt = .val t
  next : w.nextReviewAt = .val n
  after : t < n
  year : n ≤ t + 365 * dayMicros

def Db.row {K : Type} (db : Db K) (card : UserId × WordId) : Option (SavedWord K) :=
  db.savedWords.rows.find? (fun w => w.card = card)

theorem find?_updateWhere_card {K : Type} (t : SerialTable (SavedWord K) SavedWord.id)
    (f : SavedWord K → SavedWord K) (hf : ∀ w, (f w).id = w.id) (hcard : ∀ w, (f w).card = w.card)
    (card : UserId × WordId) :
    (t.updateWhere (fun w => w.card = card) f hf).rows.find? (fun w => w.card = card) =
      (t.rows.find? (fun w => w.card = card)).map f := by
  rw [SerialTable.rows_updateWhere, List.find?_map]
  have hsame : ((fun w : SavedWord K => decide (w.card = card)) ∘
      fun w => if decide (w.card = card) = true then f w else w) =
        fun w => decide (w.card = card) := by
    funext w
    simp only [Function.comp]
    split
    · rw [hcard]
    · rfl
  rw [hsame]
  cases hrow : t.rows.find? (fun w => w.card = card) with
  | none => rfl
  | some w =>
    have hw := List.find?_some hrow
    rw [Option.map_some, if_pos hw, Option.map_some]

theorem Db.row_applySchedulingFields {K : Type} (db : Db K) (wordId : WordId) (userId : UserId)
    (s d : K) (now next : Instant) (nextDay : Day) (done : Option Bool) :
    (db.applySchedulingFields wordId userId s d now next nextDay done).row (userId, wordId) =
      (db.row (userId, wordId)).map (·.reschedule s d now next nextDay done) :=
  find?_updateWhere_card db.savedWords (·.reschedule s d now next nextDay done)
    (fun w => id_reschedule w _ _ _ _ _ _) (fun _ => rfl) (userId, wordId)

theorem Db.row_insertReviewEvent {K : Type} (db : Db K) (wordId : WordId) (userId : UserId)
    (activity : ActivityType) (call : GradeCall) :
    ∃ lapse, (db.insertReviewEvent wordId userId activity call).row (userId, wordId) =
      (db.row (userId, wordId)).map (·.bumpCounters lapse) :=
  ⟨_, find?_updateWhere_card db.savedWords (·.bumpCounters _) (fun w => id_bumpCounters w _)
    (fun _ => rfl) (userId, wordId)⟩

section Grades
variable {K : Type} [Field K] [LinearOrder K] [IsStrictOrderedRing K] [FloorRing K] [Elementary K]
  [LawfulElementary K]
variable {db : Db K} {zone : Zone} {wordId : WordId} {userId : UserId}

theorem commitGrade_scheduled {row : SavedWord K} (hrow : db.row (userId, wordId) = some row)
    (zone : Zone) (activity : ActivityType) (call : GradeCall) {s d : K} {done : Option Bool}
    (hdone : done.or row.firstExposureDone = some true) (hs : 0 < s) (hd : 1 ≤ d) (hten : d ≤ 10) :
    ∃ db' next seconds,
      db.commitGrade zone wordId userId activity call s d done = .ok db' next seconds ∧
        ∃ w, db'.row (userId, wordId) = some w ∧ Scheduled w call.now next := by
  obtain ⟨hafter, hyear⟩ := schedule_bounds s call.now
  obtain ⟨lapse, hevent⟩ := Db.row_insertReviewEvent ((db.applySchedulingFields wordId userId s d
    call.now (schedule s call.now).1 (zone.dayOf (schedule s call.now).1) done).markWordGraded userId
      wordId activity call.now) wordId userId activity call
  have hfields := Db.row_applySchedulingFields db wordId userId s d call.now (schedule s call.now).1
    (zone.dayOf (schedule s call.now).1) done
  rw [hrow] at hfields
  refine ⟨_, _, _, rfl, _, hevent.trans (congrArg _ hfields), ?_⟩
  exact {
    done := hdone
    stability := ⟨s, rfl, hs⟩
    difficulty := ⟨d, rfl, hd, hten⟩
    last := rfl
    next := rfl
    after := hafter
    year := hyear }

/-- The word of the row is scheduled, graded at `t` and next due at `n`. -/
def Db.ScheduledAt (db : Db K) (card : UserId × WordId) (t n : Instant) : Prop :=
  ∃ w, db.row card = some w ∧ Scheduled w t n

theorem gradeFirstExposure_scheduled {call : GradeCall} {db' : Db K} {next : Instant} {seconds : Int}
    (h : db.gradeFirstExposure zone wordId userId call = .ok db' next seconds) :
    db.gradeFirstExposure? zone wordId userId call = some (.ok db' next seconds) ∧
      db'.ScheduledAt (userId, wordId) call.now next := by
  unfold Db.gradeFirstExposure? Db.gradeFirstExposure at *
  cases hrow : db.savedWords.rows.find? (fun w => w.card = (userId, wordId)) with
  | none =>
    rw [hrow] at h
    cases h
  | some row =>
    rw [hrow] at h
    by_cases hdone : row.firstExposureDone.getD false = true
    · simp only [if_pos hdone] at h
      cases h
    · simp only [if_neg hdone] at h ⊢
      rw [Db.commitGrade?_eq, h]
      refine ⟨rfl, ?_⟩
      have hs : (0 : K) < FsrsConfig.default.initialStabilityFirstExposure call.grade := by
        cases call.grade
        all_goals
          simp only [FsrsConfig.default, FsrsConfig.initialStabilityFirstExposure,
            familiarityStability]
          norm_num
      have hdone : (some true).or row.firstExposureDone = some true := rfl
      obtain ⟨db'', next', seconds', hok, hscheduled⟩ := commitGrade_scheduled hrow zone
        .firstExposure call hdone hs (FsrsConfig.one_le_initialDifficulty _ call.grade)
        (FsrsConfig.initialDifficulty_le_ten _ call.grade)
      rw [hok] at h
      cases h
      exact hscheduled

theorem gradeWordReview_scheduled {t n : Instant} (h : db.ScheduledAt (userId, wordId) t n)
    (zone : Zone) (call : GradeCall) :
    ∃ db' next seconds,
      db.gradeWordReview zone wordId userId call = .ok db' next seconds ∧
        db.gradeWordReview? zone wordId userId call = some (.ok db' next seconds) ∧
          db'.ScheduledAt (userId, wordId) call.now next := by
  obtain ⟨row, hrow, hscheduled⟩ := h
  obtain ⟨s, hstability, hs⟩ := hscheduled.stability
  obtain ⟨d, hdifficulty, hd, -⟩ := hscheduled.difficulty
  have hstate : ¬ (row.firstExposureDone.getD false = false ∨ row.lastReviewAt.present = false) := by
    rw [hscheduled.done, hscheduled.last]
    simp [Column.present]
  have hday : (dayMicros : K) ≠ 0 := by norm_num [dayMicros]
  unfold Db.gradeWordReview? Db.gradeWordReview
  rw [show db.savedWords.rows.find? _ = some row from hrow]
  simp only [if_neg hstate]
  simp only [hscheduled.last, Column.get?, SavedWord.stabilityOrDefault,
    SavedWord.difficultyOrDefault, hstability, hdifficulty, Option.getD_some, div?_eq hday,
    Option.bind_eq_bind, Option.bind_some, FsrsConfig.updateDifficulty?_eq]
  generalize max 0 (((call.now - t : Int) : K) / (dayMicros : K)) = days
  have hnone : (none : Option Bool).or row.firstExposureDone = some true := by
    rw [hscheduled.done]
    rfl
  rw [reviewStability?_eq hs hd, Option.bind_some]
  obtain ⟨db', next, seconds, hok, hnext⟩ := commitGrade_scheduled hrow zone .srsReview call hnone
    (reviewStability_pos days d hs call.grade)
    (FsrsConfig.one_le_updateDifficulty .default d call.grade)
    (FsrsConfig.updateDifficulty_le_ten .default d call.grade)
  refine ⟨db', next, seconds, hok, ?_, hnext⟩
  rw [Db.commitGrade?_eq]
  exact congrArg some hok

/-- A grade of a scheduled word: its formulas are defined, it schedules the word
again when it succeeds, and a review does succeed. -/
structure GradesWell (db : Db K) (zone : Zone) (wordId : WordId) (userId : UserId)
    (activity : ActivityType) (call : GradeCall) : Prop where
  defined : db.grade? zone activity wordId userId call =
    some (db.grade zone activity wordId userId call)
  scheduled : ∀ db' next seconds, db.grade zone activity wordId userId call = .ok db' next seconds →
    db'.ScheduledAt (userId, wordId) call.now next
  accepted : activity = .srsReview → ∃ db' next seconds,
    db.grade zone activity wordId userId call = .ok db' next seconds

theorem gradesWell {t n : Instant} (h : db.ScheduledAt (userId, wordId) t n) (zone : Zone)
    (activity : ActivityType) (call : GradeCall) :
    GradesWell db zone wordId userId activity call := by
  cases activity with
  | srsReview =>
    obtain ⟨db', next, seconds, hok, hdefined, hnext⟩ := gradeWordReview_scheduled h zone call
    refine ⟨hdefined.trans (congrArg some hok.symm), ?_, fun _ => ⟨db', next, seconds, hok⟩⟩
    intro db'' next' seconds' hok'
    have heq := hok.symm.trans hok'
    cases heq
    exact hnext
  | firstExposure =>
    obtain ⟨row, hrow, hscheduled⟩ := h
    have hrefused : db.gradeFirstExposure zone wordId userId call = .refused .wrongState := by
      unfold Db.gradeFirstExposure
      rw [show db.savedWords.rows.find? _ = some row from hrow]
      simp [hscheduled.done]
    have hdefined : db.gradeFirstExposure? zone wordId userId call =
        some (.refused .wrongState) := by
      unfold Db.gradeFirstExposure?
      rw [show db.savedWords.rows.find? _ = some row from hrow]
      simp [hscheduled.done]
    refine ⟨hdefined.trans (congrArg some hrefused.symm), ?_, fun hreview => (nomatch hreview)⟩
    intro db' next seconds hok
    cases hrefused.symm.trans hok
  | newAiCard => exact ⟨rfl, fun _ _ _ hok => (nomatch hok), fun hreview => (nomatch hreview)⟩
  | aiQuiz => exact ⟨rfl, fun _ _ _ hok => (nomatch hok), fun hreview => (nomatch hreview)⟩
  | sentenceWrite => exact ⟨rfl, fun _ _ _ hok => (nomatch hok), fun hreview => (nomatch hreview)⟩

/-- The database after a call of `grade` for the word. -/
def Db.gradeStep (zone : Zone) (wordId : WordId) (userId : UserId) (db : Db K)
    (event : ActivityType × GradeCall) : Db K :=
  match db.grade zone event.1 wordId userId event.2 with
  | .ok db' _ _ => db'
  | _ => db

theorem scheduled_gradeStep (zone : Zone) (db : Db K) (event : ActivityType × GradeCall)
    (h : ∃ t n, db.ScheduledAt (userId, wordId) t n) :
    ∃ t n, (Db.gradeStep zone wordId userId db event).ScheduledAt (userId, wordId) t n := by
  obtain ⟨t, n, hscheduled⟩ := h
  have hgrade := gradesWell hscheduled zone event.1 event.2
  unfold Db.gradeStep
  split
  · rename_i db' next seconds hok
    exact ⟨_, _, hgrade.scheduled db' next seconds hok⟩
  · exact ⟨t, n, hscheduled⟩

end Grades

/-! ## Real numbers -/

/-- **The scheduling invariant.**  From a first exposure on, whatever grades follow
and whenever, every row of the word that is stored is scheduled, and no grade
evaluates a division by zero or a power of a base that is not positive. -/
theorem grades_keep_schedule {db db₁ : Db ℝ} {zone : Zone} {wordId : WordId} {userId : UserId}
    {first : GradeCall} {next : Instant} {seconds : Int}
    (h : db.gradeFirstExposure zone wordId userId first = .ok db₁ next seconds) :
    db.gradeFirstExposure? zone wordId userId first = some (.ok db₁ next seconds) ∧
      db₁.ScheduledAt (userId, wordId) first.now next ∧
      ∀ calls : List (ActivityType × GradeCall),
        let db₂ := run (Db.gradeStep zone wordId userId) db₁ calls
        (∃ t n, db₂.ScheduledAt (userId, wordId) t n) ∧
          ∀ activity call, GradesWell db₂ zone wordId userId activity call := by
  obtain ⟨hdefined, hscheduled⟩ := gradeFirstExposure_scheduled h
  refine ⟨hdefined, hscheduled, fun calls => ?_⟩
  have hrun := run_invariant (Db.gradeStep zone wordId userId) (scheduled_gradeStep zone)
    ⟨first.now, next, hscheduled⟩ calls
  refine ⟨hrun, fun activity call => ?_⟩
  obtain ⟨t, n, hlast⟩ := hrun
  exact gradesWell hlast zone activity call

/-- A database with one word that waits for its first exposure. -/
noncomputable def waitingWord : Db ℝ where
  savedWords := SerialTable.empty.insert
    (fun id => {
      id := id
      userId := 7
      word := "haus"
      lang := "german"
      normalizedWord := "haus"
      cardData := .null
      reviewStatus := some .idle
      reviewRequestedAt := none
      addedAt := some 0
      firstExposureDone := some false
      stability := none
      difficulty := none
      entryManual := true
      lastReviewAt := .null
      nextReviewAt := .null
      nextReview := .val 20000
      retryAt := none
      srsRetryAttempts := 0
      totalReviews := 0
      lapses := 0 })
    (fun _ => rfl)
  reviewEvents := SerialTable.empty
  users := KeyedTable.empty
  slots := KeyedTable.empty
  gradeLedger := KeyedTable.empty
  studySessions := KeyedTable.empty

def againAt (now : Instant) : GradeCall where
  grade := .again
  gradeSource := "direct_button"
  rawSignal := none
  responseTimeMs := none
  now := now
  today := 20000

theorem grades_keep_schedule_again : ∃ db₁ next seconds,
    waitingWord.gradeFirstExposure ⟨fun _ => 20000, fun _ => 0⟩ 1 7 (againAt 0) =
        .ok db₁ next seconds ∧
      ∃ t n, (run (Db.gradeStep ⟨fun _ => 20000, fun _ => 0⟩ 1 7) db₁
        [(.srsReview, againAt 1000000), (.srsReview, againAt 90000000000)]).ScheduledAt (7, 1) t n := by
  refine ⟨_, _, _, rfl, ?_⟩
  have hfirst : waitingWord.gradeFirstExposure ⟨fun _ => 20000, fun _ => 0⟩ 1 7 (againAt 0) =
    .ok _ _ _ := rfl
  exact ((grades_keep_schedule hfirst).2.2 _).1

end HamZaboon
