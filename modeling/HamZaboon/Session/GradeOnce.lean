import HamZaboon.Session.Moves
import HamZaboon.Library.Runs
import HamZaboon.Library.Stretch

/-! # A card is graded once per session

The ledger row of a grade is written in the transaction of the grade, and every
grade transaction is entered past a look at the ledger.  So between two clears
of a user's ledger each word is graded at most once per activity, whatever
edits, persists and restarts fail or repeat in between.
-/

namespace HamZaboon
open Library Robot

variable {K : Type}

/-- The event is a grade of this word and activity by this user. -/
def ReviewEvent.gradeOf (u : UserId) (w : WordId) (a : ActivityType) (e : ReviewEvent) : Bool :=
  e.card = (u, w) && e.activityType = some a

/-- How the tables and the record account for the grades of one word and
activity, `before` being the events the run began with. -/
structure Accounted (before : Nat) (u : UserId) (w : WordId) (a : ActivityType) (b : Robot K) :
    Prop where
  once : AtMostOnce (.cleared u) (.graded u w a) b.history
  ledger : .graded u w a ∈ sinceMark (.cleared u) b.history → b.db.isWordGraded u w a = true
  events : .deleted u w ∉ b.history →
    b.db.reviewEvents.rows.countP (·.gradeOf u w a) = before + b.history.count (.graded u w a)

section Account
variable {before : Nat} {u : UserId} {w : WordId} {a : ActivityType} {b b' : Robot K}

theorem Accounted.keep (h : Accounted before u w a b) (hledger : b'.db.gradeLedger = b.db.gradeLedger)
    (hevents : b'.db.reviewEvents = b.db.reviewEvents) (hhistory : b'.history = b.history) :
    Accounted before u w a b' := by
  refine ⟨hhistory ▸ h.once, fun hmem => ?_, fun hdel => ?_⟩
  · unfold Db.isWordGraded
    rw [hledger]
    exact h.ledger (hhistory ▸ hmem)
  · rw [hevents, hhistory]
    exact h.events (hhistory ▸ hdel)

theorem Accounted.clear (h : Accounted before u w a b) (v : UserId)
    (hledger : b'.db.gradeLedger = (b.db.clearSessionGrades v).gradeLedger)
    (hevents : b'.db.reviewEvents = b.db.reviewEvents)
    (hhistory : b'.history = .cleared v :: b.history) : Accounted before u w a b' := by
  refine ⟨?_, fun hmem => ?_, fun hdel => ?_⟩
  · rw [hhistory]
    exact h.once.cons (fun heq => nomatch heq)
  · have hgraded : b'.db.isWordGraded u w a = (b.db.clearSessionGrades v).isWordGraded u w a := by
      unfold Db.isWordGraded
      rw [hledger]
    rw [hgraded, Db.isWordGraded_clearSessionGrades]
    rw [hhistory] at hmem
    by_cases hv : v = u
    · rw [hv, sinceMark_mark] at hmem
      cases hmem
    · rw [sinceMark_cons (fun heq => hv (Commit.cleared.inj heq))] at hmem
      rcases List.mem_cons.mp hmem with hmem | hmem
      · cases hmem
      · rw [h.ledger hmem]
        simp [hv]
  · rw [hevents, hhistory]
    rw [hhistory] at hdel
    rw [h.events (fun hmem => hdel (List.mem_cons_of_mem _ hmem)), List.count_cons]
    simp

/-- **A committed grade**: the ledger did not have it, and now does. -/
theorem Accounted.commit (h : Accounted before u w a b) {v : UserId} {x : WordId}
    {c : ActivityType} {call : GradeCall} (hnew : b.db.isWordGraded v x c = false)
    (hcommit : Committed b.db b'.db v x c call)
    (hhistory : b'.history = .graded v x c :: b.history) : Accounted before u w a b' := by
  have hgraded : b'.db.isWordGraded u w a =
      (b.db.isWordGraded u w a || decide ((v, x, c) = (u, w, a))) :=
    hcommit.isWordGraded u w a
  have hsame : Commit.graded v x c = .graded u w a ↔ (v, x, c) = (u, w, a) := by
    simp
  refine ⟨?_, fun hmem => ?_, fun hdel => ?_⟩
  · rw [hhistory]
    refine h.once.cons fun heq hmem => ?_
    obtain ⟨rfl, rfl, rfl⟩ := Commit.graded.inj heq
    rw [h.ledger hmem] at hnew
    cases hnew
  · rw [hgraded, Bool.or_eq_true, decide_eq_true_eq]
    rw [hhistory, sinceMark_cons (fun heq : Commit.graded v x c = .cleared u => nomatch heq)] at hmem
    rcases List.mem_cons.mp hmem with hmem | hmem
    · exact .inr (hsame.mp hmem.symm)
    · exact .inl (h.ledger hmem)
  · rw [hhistory] at hdel
    rw [hcommit.events, hhistory, List.countP_append, List.count_cons,
      h.events (fun hmem => hdel (List.mem_cons_of_mem _ hmem)), Nat.add_assoc]
    congr 2
    by_cases heq : (v, x, c) = (u, w, a)
    · obtain ⟨rfl, rfl, rfl⟩ := heq
      simp [ReviewEvent.gradeOf, ReviewEvent.card, newReviewEvent]
    · have hno : ¬ ((v = u ∧ x = w) ∧ c = a) := fun h => heq (by simp [h])
      have hno' : ¬ (v = u ∧ x = w ∧ c = a) := fun h => hno ⟨⟨h.1, h.2.1⟩, h.2.2⟩
      simp [ReviewEvent.gradeOf, ReviewEvent.card, newReviewEvent, hno, hno']

theorem Accounted.delete (h : Accounted before u w a b) (v : UserId) (x : WordId) :
    Accounted before u w a (b.deleteWord v x) := by
  obtain ⟨hledger, -⟩ := Db.deleteSavedWord_frame b.db x v
  refine ⟨h.once.cons (fun heq => nomatch heq), fun hmem => ?_, fun hdel => ?_⟩
  · have hmem' : Commit.graded u w a ∈ sinceMark (.cleared u) b.history := by
      have hsince : sinceMark (.cleared u) (b.deleteWord v x).history =
          .deleted v x :: sinceMark (.cleared u) b.history :=
        sinceMark_cons (fun heq : Commit.deleted v x = .cleared u => nomatch heq) _
      rw [hsince] at hmem
      rcases List.mem_cons.mp hmem with hmem | hmem
      · cases hmem
      · exact hmem
    show (b.db.deleteSavedWord x v).1.isWordGraded u w a = true
    unfold Db.isWordGraded
    rw [hledger]
    exact h.ledger hmem'
  · obtain ⟨hne, hdel⟩ := not_or.mp (fun hmem => hdel (List.mem_cons.mpr hmem))
    have hcount : (b.deleteWord v x).history.count (.graded u w a) =
        b.history.count (.graded u w a) := by
      show (Commit.deleted v x :: b.history).count _ = _
      rw [List.count_cons]
      simp
    rw [hcount, ← h.events hdel]
    show (b.db.deleteSavedWord x v).1.reviewEvents.rows.countP _ = _
    unfold Db.deleteSavedWord
    split
    · rw [SerialTable.rows_deleteWhere, List.countP_filter]
      refine List.countP_congr fun e _ => ?_
      constructor
      · exact fun he => (Bool.and_eq_true _ _ ▸ he).1
      · intro he
        have hcard : e.card = (u, w) := by
          simp only [ReviewEvent.gradeOf, Bool.and_eq_true, decide_eq_true_eq] at he
          exact he.1
        have hother : e.card ≠ (v, x) := by
          rw [hcard]
          rintro heq
          obtain ⟨rfl, rfl⟩ := Prod.mk.inj heq
          exact hne rfl
        simp [he, hother]
    · rfl

theorem Accounted.plainMove (hmove : PlainMove b b') (h : Accounted before u w a b) :
    Accounted before u w a b' := by
  cases hmove with
  | context => exact h.keep rfl rfl rfl
  | drop => exact h.keep rfl rfl rfl
  | restore => exact h.keep rfl rfl rfl
  | present => exact h.keep rfl rfl rfl
  | pop => exact h.keep rfl rfl rfl
  | persist => exact h.keep rfl rfl rfl
  | clearRow => exact h.keep rfl rfl rfl
  | invalidate => exact h.clear _ rfl rfl rfl
  | quota => exact h.keep rfl rfl rfl

theorem Accounted.plain (hplain : Plain b b') (h : Accounted before u w a b) :
    Accounted before u w a b' :=
  hplain.invariant (fun _ _ => Accounted.plainMove) h

end Account

section Steps
variable [Field K] [LinearOrder K] [FloorRing K] [Elementary K]
variable {before : Nat} {u : UserId} {w : WordId} {a : ActivityType} {b : Robot K}

theorem Accounted.handleGrade (h : Accounted before u w a b) (c : ActivityType) (t : TapInputs)
    (v : UserId) : Accounted before u w a (b.handleGrade c t v) := by
  cases handleGrade_outcome b c t v with
  | idle hplain => exact h.plain hplain
  | again b₁ st hplain hst hgraded hactive hrest =>
    exact Accounted.plain hrest ((h.plain hplain).keep rfl rfl rfl)
  | commit b₁ session db call hplain hgate hsession hledger hactive hrow hcommit heq =>
    have hdone : Accounted before u w a
        { b₁ with db := db, history := .graded v t.wordId c :: b₁.history } :=
      (h.plain hplain).commit hledger hcommit rfl
    rw [heq]
    cases session with
    | none => exact hdone.plain (plain_finishTap_none _ t v)
    | some st => exact Accounted.plain (plain_finishTap_some _ t v st) (hdone.keep rfl rfl rfl)

/-- **One step keeps the account of every word and activity.** -/
theorem Accounted.step (h : Accounted before u w a b) (e : Event K) :
    Accounted before u w a (b.step e) := by
  cases e with
  | start v i =>
    cases handleStudyStart_outcome b i v with
    | idle hplain => exact h.plain hplain
    | fresh b₁ nodes context plan hplain hdistinct hrest =>
      have hclear : Accounted before u w a (b₁.clearGrades v) :=
        (h.plain hplain).clear v rfl rfl rfl
      exact Accounted.plain hrest (hclear.keep rfl rfl rfl)
  | review v t => exact h.handleGrade .srsReview t v
  | firstExposure v t => exact h.handleGrade .firstExposure t v
  | reveal v i =>
    cases handleSrsReveal_outcome b i v with
    | idle hplain => exact h.plain hplain
    | revealed b₁ st hplain hgate hst hcommits hsession hrest =>
      exact Accounted.plain hrest ((h.plain hplain).keep rfl rfl rfl)
  | deleteKeyboard v g target x => exact h.plain (plain_handleSrsDeleteKeyboard b g v target x)
  | deleteYes v i =>
    cases handleSrsDeleteYes_outcome b i v with
    | idle hplain => exact h.plain hplain
    | deleted b₁ hplain heq =>
      show Accounted before u w a (b.handleSrsDeleteYes i v)
      rw [heq]
      exact (h.plain hplain).delete v _
    | refilled b₁ st st' hplain hresolve hclean hst hactive hrefill heq =>
      have hdel := (h.plain hplain).delete v i.wordId
      show Accounted before u w a (b.handleSrsDeleteYes i v)
      rw [heq]
      exact Accounted.plain (plain_persistAndAdvance (by simp) i.closing) (hdel.keep rfl rfl rfl)
  | restart => exact h.keep rfl rfl rfl
  | words savedWords => exact h.keep rfl rfl rfl

/-- **Each word is graded at most once per activity between two clears of the
ledger.**  In the state any run of the bot ends in, the record has no clear-free
stretch with two grades of one word and activity; a grade since the last clear
has exactly one ledger row; and, unless the word was deleted, the events of the
word and activity are those the run began with and one for each grade. -/
theorem graded_once_per_ledger (db : Db K) (userData : UserId → UserData K)
    (events : List (Event K)) (u : UserId) (w : WordId) (a : ActivityType) :
    let b := run Robot.step ⟨db, userData, []⟩ events
    AtMostOnce (.cleared u) (.graded u w a) b.history ∧
      (.graded u w a ∈ sinceMark (.cleared u) b.history →
        b.db.gradeLedger.rows.countP (fun r => r.key = (u, w, a)) = 1) ∧
      (.deleted u w ∉ b.history →
        b.db.reviewEvents.rows.countP (·.gradeOf u w a) =
          db.reviewEvents.rows.countP (·.gradeOf u w a) + b.history.count (.graded u w a)) := by
  intro b
  have hstart : Accounted (db.reviewEvents.rows.countP (·.gradeOf u w a)) u w a
      (⟨db, userData, []⟩ : Robot K) :=
    ⟨atMostOnce_nil _ _, fun h => absurd h List.not_mem_nil, fun _ => rfl⟩
  have hend := run_invariant Robot.step (fun _ e h => h.step e) hstart events
  exact ⟨hend.once, fun hmem => KeyedTable.countP_key (hend.ledger hmem), hend.events⟩

end Steps

end HamZaboon
