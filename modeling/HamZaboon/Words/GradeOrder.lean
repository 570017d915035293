import HamZaboon.Words.Histories
import HamZaboon.Fsrs.Grades

/-! # The grades of a review in order

What a card remembers is a `MemoryState`: a difficulty between 1 and 10 and a
stability that is not below the one at which a short-term `again` stands still.
A first exposure makes one, and every review makes the next out of it; after every
run of grades, of whatever cards, the row of the word holds it (`grades_remembered`).

Of two grades of the same review the better one is never due sooner.  A success
keeps the stability at least and `again` at most, with two exceptions: a `hard`
within a day is a step back, and after a day the stability is floored at 0.1 before
`again` takes from it (`grades_ordered`).
-/

namespace HamZaboon
open Library

/-! ## Stability and interval -/

theorem roundHalfEven_mono {x y : ℝ} (h : x ≤ y) : roundHalfEven x ≤ roundHalfEven y := by
  rcases (Int.floor_mono h).lt_or_eq with hlt | heq
  · have hup : roundHalfEven x ≤ ⌊x⌋ + 1 :=
      roundHalfEven_le (by push_cast; exact (Int.lt_floor_add_one x).le)
    have hdown : ⌊y⌋ ≤ roundHalfEven y := le_roundHalfEven (Int.floor_le y)
    omega
  · have hrest : x - (⌊y⌋ : ℝ) ≤ y - (⌊y⌋ : ℝ) := sub_le_sub_right h _
    unfold roundHalfEven
    simp only [heq]
    split_ifs <;> first | omega | (exfalso; linarith)

theorem schedule_mono {s s' : ℝ} (h : s ≤ s') (now : Instant) :
    (schedule s now).1 ≤ (schedule s' now).1 ∧ (schedule s now).2 ≤ (schedule s' now).2 := by
  have hinterval : (FsrsConfig.default : FsrsConfig ℝ).computeInterval s none ≤
      (FsrsConfig.default : FsrsConfig ℝ).computeInterval s' none := by
    rw [FsrsConfig.computeInterval_eq FsrsConfig.w20_default_pos,
      FsrsConfig.computeInterval_eq FsrsConfig.w20_default_pos]
    exact min_le_min_right _ (max_le_max_left _ h)
  have hday : (0 : ℝ) ≤ (dayMicros : ℝ) := by norm_num [dayMicros]
  have hnext : (schedule s now).1 ≤ (schedule s' now).1 := by
    unfold schedule
    dsimp only
    generalize FsrsConfig.default.computeInterval s none = interval at hinterval ⊢
    generalize FsrsConfig.default.computeInterval s' none = interval' at hinterval ⊢
    split
    · split
      · exact Int.add_le_add_left
          (roundHalfEven_mono (mul_le_mul_of_nonneg_right hinterval hday)) now
      · rename_i hshort hlong
        -- less than a day is rounded to a day at most
        have hround : roundHalfEven (interval * (dayMicros : ℝ)) ≤ dayMicros :=
          roundHalfEven_le (mul_le_of_le_one_left hday hshort.le)
        have hwhole : 1 * dayMicros ≤ max 1 (roundHalfEven interval') * dayMicros :=
          mul_le_mul_of_nonneg_right (le_max_left _ _) (by norm_num [dayMicros])
        exact Int.add_le_add_left (by omega) now
    · rename_i hlong
      rw [if_neg (by linarith)]
      have hround := max_le_max_left 1 (roundHalfEven_mono hinterval)
      exact Int.add_le_add_left (mul_le_mul_of_nonneg_right hround (by norm_num [dayMicros])) now
  refine ⟨hnext, ?_⟩
  exact Int.tdiv_le_tdiv (by norm_num) (sub_le_sub_right hnext now)

/-! ## What a card remembers -/

/-- The difficulty and the stability of a card. -/
structure MemoryState where
  difficulty : ℝ
  stability : ℝ
  one_le : 1 ≤ difficulty
  le_ten : difficulty ≤ 10
  least_le : FsrsConfig.default.leastStability ≤ stability

theorem leastStability_default_le : (FsrsConfig.default : FsrsConfig ℝ).leastStability ≤ 0.01 := by
  have hfive : (6 : ℝ) ≤ Real.exp 5 := by
    have := Real.add_one_le_exp (5 : ℝ)
    linarith
  have hfifteen : (216 : ℝ) ≤ Real.exp 15 := by
    have hcube : Real.exp 15 = Real.exp 5 ^ 3 := by
      rw [← Real.exp_nat_mul]
      norm_num
    rw [hcube]
    calc (216 : ℝ) = 6 ^ 3 := by norm_num
      _ ≤ Real.exp 5 ^ 3 := by gcongr
  have hexp : (FsrsConfig.default : FsrsConfig ℝ).leastStability ≤ Real.exp (-15) := by
    refine Real.exp_le_exp.mpr ?_
    show (0.5425 : ℝ) * (0.0912 - 2) / 0.0658 ≤ -15
    norm_num
  have hinv : Real.exp (-15) ≤ 216⁻¹ := by
    rw [Real.exp_neg]
    exact inv_anti₀ (by norm_num) hfifteen
  linarith [show (216 : ℝ)⁻¹ ≤ 0.01 by norm_num]

theorem computeRetrievability_le_one (days s : ℝ) :
    (FsrsConfig.default : FsrsConfig ℝ).computeRetrievability days s ≤ 1 :=
  (FsrsConfig.computeRetrievability_mem FsrsConfig.w20_default_pos days s).2

namespace MemoryState

theorem least_le_firstExposure (g : Grade) : (FsrsConfig.default : FsrsConfig ℝ).leastStability ≤
    FsrsConfig.default.initialStabilityFirstExposure g := by
  refine leastStability_default_le.trans ?_
  show (0.01 : ℝ) ≤ familiarityStability g
  cases g
  all_goals
    simp only [familiarityStability]
    norm_num

theorem firstExposure_le_ten (g : Grade) :
    (FsrsConfig.default : FsrsConfig ℝ).initialDifficulty g ≤ 10 :=
  FsrsConfig.initialDifficulty_le_ten _ g

theorem review_le_ten (m : MemoryState) (g : Grade) :
    FsrsConfig.default.updateDifficulty m.difficulty g ≤ 10 :=
  FsrsConfig.updateDifficulty_le_ten _ _ g

noncomputable def firstExposure (g : Grade) : MemoryState where
  difficulty := FsrsConfig.default.initialDifficulty g
  stability := FsrsConfig.default.initialStabilityFirstExposure g
  one_le := FsrsConfig.one_le_initialDifficulty _ g
  le_ten := firstExposure_le_ten g
  least_le := least_le_firstExposure g

/-- The state a review leaves, that many days after the last one. -/
noncomputable def review (m : MemoryState) (days : ℝ) (g : Grade) : MemoryState where
  difficulty := FsrsConfig.default.updateDifficulty m.difficulty g
  stability := reviewStability days m.difficulty m.stability g
  one_le := FsrsConfig.one_le_updateDifficulty _ _ g
  le_ten := review_le_ten m g
  least_le := by
    unfold reviewStability
    split
    · exact FsrsConfig.leastStability_le_shortTerm FsrsConfig.graded_default m.least_le g
    · exact leastStability_default_le.trans (FsrsConfig.le_updateStability_floor _ _ _ _ g)

variable (m : MemoryState) {days : ℝ} {g g' : Grade}

theorem stability_pos : 0 < m.stability := FsrsConfig.leastStability_pos.trans_le m.least_le

theorem review_within_day (h : days < 1) :
    (m.review days g).stability = FsrsConfig.default.shortTermStability m.stability g := if_pos h

theorem review_after_day (h : 1 ≤ days) :
    (m.review days g).stability = FsrsConfig.default.updateStability m.difficulty m.stability
      (FsrsConfig.default.computeRetrievability days m.stability) g := if_neg h.not_gt

theorem review_mono (days : ℝ) (hle : g.value ≤ g'.value) :
    (m.review days g).stability ≤ (m.review days g').stability := by
  rcases lt_or_ge days 1 with hday | hday
  · rw [review_within_day m hday, review_within_day m hday]
    exact FsrsConfig.shortTermStability_mono FsrsConfig.graded_default m.stability_pos hle
  · rw [review_after_day m hday, review_after_day m hday]
    exact FsrsConfig.updateStability_mono FsrsConfig.graded_default m.le_ten
      (computeRetrievability_le_one days _) hle

theorem le_review (h : 3 ≤ g.value ∨ g = .hard ∧ 1 ≤ days) :
    m.stability ≤ (m.review days g).stability := by
  have hsuccess : g ≠ .again := by
    rintro rfl
    rcases h with h | ⟨h, -⟩
    · exact absurd h (by decide)
    · cases h
  rcases lt_or_ge days 1 with hday | hday
  · rw [review_within_day m hday]
    exact FsrsConfig.le_shortTermStability m.stability_pos (h.resolve_right fun h => h.2.not_gt hday)
  · rw [review_after_day m hday]
    exact (le_max_right _ _).trans (FsrsConfig.le_updateStability hsuccess)

theorem review_again_le (h : days < 1 ∨ 0.1 ≤ m.stability) :
    (m.review days .again).stability ≤ m.stability := by
  rcases lt_or_ge days 1 with hday | hday
  · rw [review_within_day m hday]
    exact FsrsConfig.shortTermStability_again_le FsrsConfig.graded_default m.least_le
  · rw [review_after_day m hday]
    refine (FsrsConfig.updateStability_again_le FsrsConfig.graded_default).trans ?_
    rw [max_eq_right (h.resolve_left hday.not_gt)]

end MemoryState

/-! ## The row holds it -/

/-- The row of a word that was graded at `t` holds the state, an absent column its default. -/
structure Remembers (w : SavedWord ℝ) (m : MemoryState) (t : Instant) : Prop where
  done : w.firstExposureDone = some true
  last : w.lastReviewAt = .val t
  next : w.nextReviewAt = .val (schedule m.stability t).1
  difficulty : w.difficultyOrDefault = m.difficulty
  stability : w.stabilityOrDefault = m.stability

section Rows
variable {db : Db ℝ} {wordId : WordId} {userId : UserId} {w : SavedWord ℝ}

theorem commitGrade_remembers (hrow : db.row (userId, wordId) = some w) (zone : Zone)
    (activity : ActivityType) (call : GradeCall) (m : MemoryState) {done : Option Bool}
    (hdone : done.or w.firstExposureDone = some true) :
    ∃ db' w', db.commitGrade zone wordId userId activity call m.stability m.difficulty done =
        .ok db' (schedule m.stability call.now).1 (schedule m.stability call.now).2 ∧
      db'.row (userId, wordId) = some w' ∧ Remembers w' m call.now := by
  obtain ⟨lapse, hevent⟩ := Db.row_insertReviewEvent ((db.applySchedulingFields wordId userId
    m.stability m.difficulty call.now (schedule m.stability call.now).1
      (zone.dayOf (schedule m.stability call.now).1) done).markWordGraded userId wordId activity
        call.now) wordId userId activity call
  have hfields := Db.row_applySchedulingFields db wordId userId m.stability m.difficulty call.now
    (schedule m.stability call.now).1 (zone.dayOf (schedule m.stability call.now).1) done
  rw [hrow] at hfields
  exact ⟨_, _, rfl, hevent.trans (congrArg _ hfields), hdone, rfl, rfl, rfl, rfl⟩

theorem gradeFirstExposure_remembers (hrow : db.row (userId, wordId) = some w)
    (hdone : w.firstExposureDone.getD false = false) (zone : Zone) (call : GradeCall) :
    let m := MemoryState.firstExposure call.grade
    ∃ db' w', db.gradeFirstExposure zone wordId userId call =
        .ok db' (schedule m.stability call.now).1 (schedule m.stability call.now).2 ∧
      db'.row (userId, wordId) = some w' ∧ Remembers w' m call.now := by
  intro m
  have hset : (some true).or w.firstExposureDone = some true := rfl
  obtain ⟨db', w', hcommit, hrow', hholds⟩ :=
    commitGrade_remembers hrow zone .firstExposure call m hset
  refine ⟨db', w', ?_, hrow', hholds⟩
  unfold Db.gradeFirstExposure
  rw [show db.savedWords.rows.find? _ = some w from hrow]
  simp only [hdone, Bool.false_eq_true, if_false]
  exact hcommit

theorem gradeWordReview_remembers {m : MemoryState} {t : Instant}
    (hrow : db.row (userId, wordId) = some w) (h : Remembers w m t) (zone : Zone)
    (call : GradeCall) :
    let m' := m.review (max 0 (((call.now - t : Int) : ℝ) / (dayMicros : ℝ))) call.grade
    ∃ db' w', db.gradeWordReview zone wordId userId call =
        .ok db' (schedule m'.stability call.now).1 (schedule m'.stability call.now).2 ∧
      db'.row (userId, wordId) = some w' ∧ Remembers w' m' call.now := by
  intro m'
  have hdone : (none : Option Bool).or w.firstExposureDone = some true := h.done
  obtain ⟨db', w', hcommit, hrow', hholds⟩ :=
    commitGrade_remembers hrow zone .srsReview call m' hdone
  refine ⟨db', w', ?_, hrow', hholds⟩
  have hstate : ¬ (w.firstExposureDone.getD false = false ∨ w.lastReviewAt.present = false) := by
    rw [h.done, h.last]
    simp [Column.present]
  unfold Db.gradeWordReview
  rw [show db.savedWords.rows.find? _ = some w from hrow]
  simp only [if_neg hstate]
  simp only [h.last, Column.get?, h.stability, h.difficulty]
  exact hcommit

end Rows

/-! ## Runs of grades -/

/-- A call of `grade`. -/
structure GradeTap where
  wordId : WordId
  userId : UserId
  activity : ActivityType
  call : GradeCall

def GradeTap.card (tap : GradeTap) : UserId × WordId := (tap.userId, tap.wordId)

noncomputable def gradeTap (zone : Zone) (db : Db ℝ) (tap : GradeTap) : Db ℝ :=
  Db.gradeStep zone tap.wordId tap.userId db (tap.activity, tap.call)

/-- What a card remembers and since when, after a grade that it may refuse. -/
noncomputable def remember : Option (MemoryState × Instant) → GradeTap →
    Option (MemoryState × Instant)
  | none, ⟨_, _, .firstExposure, call⟩ => some (.firstExposure call.grade, call.now)
  | some (m, t), ⟨_, _, .srsReview, call⟩ =>
    some (m.review (max 0 (((call.now - t : Int) : ℝ) / (dayMicros : ℝ))) call.grade, call.now)
  | memory, _ => memory

/-- The card is saved, and its row holds what it remembers. -/
def HoldsMemory (db : Db ℝ) (card : UserId × WordId) (memory : Option (MemoryState × Instant)) : Prop :=
  ∃ w, db.row card = some w ∧ match memory with
    | none => w.firstExposureDone.getD false = false
    | some (m, t) => Remembers w m t

section Runs
variable {db db' : Db ℝ} {zone : Zone} {wordId : WordId} {userId : UserId} {card : UserId × WordId}
  {memory : Option (MemoryState × Instant)}

theorem find?_updateWhere_other (t : SerialTable (SavedWord ℝ) SavedWord.id)
    (f : SavedWord ℝ → SavedWord ℝ) (hf : ∀ w, (f w).id = w.id) (hcard : ∀ w, (f w).card = w.card)
    {other : UserId × WordId} (hne : other ≠ card) :
    (t.updateWhere (fun w => w.card = other) f hf).rows.find? (fun w => w.card = card) =
      t.rows.find? (fun w => w.card = card) := by
  rw [SerialTable.rows_updateWhere]
  induction t.rows with
  | nil => rfl
  | cons w rows ih =>
    rw [List.map_cons, List.find?_cons, List.find?_cons, ih]
    by_cases hw : w.card = other <;> simp [hw, hcard, hne]

/-- A grade of another card leaves the row. -/
theorem row_commitGrade_other (hne : (userId, wordId) ≠ card) {activity : ActivityType}
    {call : GradeCall} {s d : ℝ} {done : Option Bool} {next : Instant} {seconds : Int}
    (h : db.commitGrade zone wordId userId activity call s d done = .ok db' next seconds) :
    db'.row card = db.row card := by
  simp only [Db.commitGrade, GradeResult.ok.injEq] at h
  obtain ⟨rfl, -, -⟩ := h
  exact (find?_updateWhere_other _ _ (fun w => id_bumpCounters w _) (fun _ => rfl) hne).trans
    (find?_updateWhere_other _ _ (fun w => id_reschedule w _ _ _ _ _ _) (fun _ => rfl) hne)

theorem exists_commitGrade {activity : ActivityType} {call : GradeCall} {next : Instant}
    {seconds : Int} (h : db.grade zone activity wordId userId call = .ok db' next seconds) :
    ∃ s d done, db.commitGrade zone wordId userId activity call s d done = .ok db' next seconds := by
  cases activity with
  | srsReview =>
    simp only [Db.grade, Db.gradeWordReview] at h
    split at h
    · cases h
    · split at h
      · cases h
      · split at h
        · cases h
        · exact ⟨_, _, _, h⟩
  | firstExposure =>
    simp only [Db.grade, Db.gradeFirstExposure] at h
    split at h
    · cases h
    · split at h
      · cases h
      · exact ⟨_, _, _, h⟩
  | newAiCard => cases h
  | aiQuiz => cases h
  | sentenceWrite => cases h

theorem row_gradeTap_other {tap : GradeTap} (hne : tap.card ≠ card) :
    (gradeTap zone db tap).row card = db.row card := by
  unfold gradeTap Db.gradeStep
  split
  · rename_i db' next seconds hok
    obtain ⟨s, d, done, hcommit⟩ := exists_commitGrade hok
    exact row_commitGrade_other hne hcommit
  · rfl

theorem HoldsMemory.gradeTap {tap : GradeTap} (h : HoldsMemory db tap.card memory) (zone : Zone) :
    HoldsMemory (gradeTap zone db tap) tap.card (remember memory tap) := by
  obtain ⟨wordId, userId, activity, call⟩ := tap
  obtain ⟨w, hrow, hw⟩ := h
  change db.row (userId, wordId) = some w at hrow
  cases activity with
  | newAiCard => exact ⟨w, hrow, by cases memory <;> exact hw⟩
  | aiQuiz => exact ⟨w, hrow, by cases memory <;> exact hw⟩
  | sentenceWrite => exact ⟨w, hrow, by cases memory <;> exact hw⟩
  | srsReview =>
    cases memory with
    | none =>
      have hrefused : db.gradeWordReview zone wordId userId call = .refused .wrongState := by
        unfold Db.gradeWordReview
        rw [show db.savedWords.rows.find? _ = some w from hrow]
        exact if_pos (.inl hw)
      simp only [HamZaboon.gradeTap, Db.gradeStep, Db.grade, hrefused]
      exact ⟨w, hrow, hw⟩
    | some memory =>
      obtain ⟨db', w', hok, hrow', hw'⟩ := gradeWordReview_remembers hrow hw zone call
      simp only [HamZaboon.gradeTap, Db.gradeStep, Db.grade, hok]
      exact ⟨w', hrow', hw'⟩
  | firstExposure =>
    cases memory with
    | none =>
      obtain ⟨db', w', hok, hrow', hw'⟩ := gradeFirstExposure_remembers hrow hw zone call
      simp only [HamZaboon.gradeTap, Db.gradeStep, Db.grade, hok]
      exact ⟨w', hrow', hw'⟩
    | some memory =>
      have hrefused : db.gradeFirstExposure zone wordId userId call = .refused .wrongState := by
        unfold Db.gradeFirstExposure
        rw [show db.savedWords.rows.find? _ = some w from hrow]
        exact if_pos (by rw [hw.done]; rfl)
      simp only [HamZaboon.gradeTap, Db.gradeStep, Db.grade, hrefused]
      exact ⟨w, hrow, hw⟩

/-- **The row of a card holds its history.**  Whatever is graded in between, and whatever is
refused, it is what the engine makes of the card's own grades, one after the other. -/
theorem grades_remembered (h : HoldsMemory db card memory) (zone : Zone) (taps : List GradeTap) :
    HoldsMemory (run (gradeTap zone) db taps) card
      ((taps.filter fun tap => tap.card = card).foldl remember memory) := by
  induction taps generalizing db memory with
  | nil => exact h
  | cons tap taps ih =>
    rw [run_cons]
    by_cases hcard : tap.card = card
    · rw [List.filter_cons_of_pos (by simpa using hcard), List.foldl_cons]
      subst hcard
      exact ih (h.gradeTap zone)
    · rw [List.filter_cons_of_neg (by simpa using hcard)]
      exact ih (by rw [HoldsMemory, row_gradeTap_other hcard]; exact h)

end Runs

/-- The first review is refused, and so is the word that is not saved. -/
theorem grades_remembered_waitingWord :
    HoldsMemory (run (gradeTap ⟨fun _ => 20000, fun _ => 0⟩) waitingWord
        [⟨1, 7, .srsReview, againAt 0⟩, ⟨1, 7, .firstExposure, againAt 5⟩,
          ⟨2, 7, .firstExposure, againAt 6⟩])
      (7, 1) (some (.firstExposure .again, 5)) := by
  have h : HoldsMemory waitingWord (7, 1) none := ⟨_, rfl, rfl⟩
  exact grades_remembered h _ _

/-! ## The order -/

/-- **The grades of a review are ordered.**  A success keeps the stability at least,
except a `hard` within a day; a better grade is not due sooner; and `again` keeps
the stability at most, within a day or where it is not below the floor. -/
theorem grades_ordered (m : MemoryState) (days : ℝ) :
    (∀ g : Grade, 3 ≤ g.value ∨ g = .hard ∧ 1 ≤ days →
      m.stability ≤ (m.review days g).stability) ∧
    (∀ (g g' : Grade) (now : Instant), g.value ≤ g'.value →
      (schedule (m.review days g).stability now).1 ≤
          (schedule (m.review days g').stability now).1 ∧
        (schedule (m.review days g).stability now).2 ≤
          (schedule (m.review days g').stability now).2) ∧
    (days < 1 ∨ 0.1 ≤ m.stability → (m.review days .again).stability ≤ m.stability) :=
  ⟨fun _ h => m.le_review h, fun _ _ now h => schedule_mono (m.review_mono days h) now,
    m.review_again_le⟩

/-- `again` twelve days after a first exposure that went well. -/
theorem grades_ordered_again :
    ((MemoryState.firstExposure .easy).review 12 .again).stability ≤
      (MemoryState.firstExposure .easy).stability := by
  refine (grades_ordered (MemoryState.firstExposure .easy) 12).2.2 (.inr ?_)
  show (0.1 : ℝ) ≤ 12
  norm_num

/-- A `hard` right after a first exposure lowers the stability. -/
theorem hard_steps_back :
    ((MemoryState.firstExposure .good).review 0 .hard).stability <
      (MemoryState.firstExposure .good).stability := by
  rw [MemoryState.review_within_day _ one_pos]
  refine FsrsConfig.shortTermStability_hard_lt ?_ ?_ FsrsConfig.graded_default ?_
  · show (0 : ℝ) < 0.5425
    norm_num
  · show (0.0912 : ℝ) < 1
    norm_num
  · show (1 : ℝ) ≤ 3
    norm_num

end HamZaboon
