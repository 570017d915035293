import HamZaboon.Session.GradeOnce
import HamZaboon.Session.Progress

/-! # The active card can be graded

A session remembers the words it graded without their activity, and the ledger
remembers each word with its activity; a grade tap is refused by either.  A
session is built from words neither has.  A grade whose end is settled takes its
card off the list, and a refill appends no word of the list, so the list stays
free of graded words unless a refill brings one back.
-/

namespace HamZaboon
open Library Robot

variable {K : Type}

/-- The nodes are of different words, none of them in the list of graded words
or, with its activity, in the ledger. -/
structure Fresh (db : Db K) (u : UserId) (st : SessionState K) : Prop where
  distinct : DistinctWords st.nodes
  ungraded : ∀ n ∈ st.nodes, ∀ w, n.sourceId = some w →
    w ∉ st.gradedWordIds ∧ db.isWordGraded u w n.activityType = false

/-- No card left in the session has been graded since the ledger was last
cleared, and the already-graded check lets a tap on the active one through. -/
structure Gradable (b : Robot K) (u : UserId) (st : SessionState K) : Prop where
  ungraded : ∀ n ∈ st.nodes, ∀ w, n.sourceId = some w →
    .graded u w n.activityType ∉ sinceMark (.cleared u) b.history
  accepted : ∀ w a, isActive st w a = true → b.alreadyGraded (some st) u w a = false

/-- Every session, in memory or persisted, is gradable. -/
def AllGradable (b : Robot K) : Prop :=
  ∀ u st, b.session u = some st ∨ b.persisted u = some st → Gradable b u st

theorem fresh_law : SessionLaw (Fresh (K := K)) where
  present _ _ st st' h hfresh := by
    refine ⟨?_, ?_⟩
    · unfold DistinctWords
      rw [h.nodes]
      exact hfresh.distinct
    · rw [h.nodes, h.graded]
      exact hfresh.ungraded
  pop _ _ st hfresh :=
    ⟨hfresh.distinct.sublist ((List.tail_sublist st.nodes).map _),
      fun n hn => hfresh.ungraded n (List.mem_of_mem_tail hn)⟩
  ledger db db' u st hledger hfresh := by
    refine ⟨hfresh.distinct, fun n hn w hw => ⟨(hfresh.ungraded n hn w hw).1, ?_⟩⟩
    cases hg : db'.isWordGraded u w n.activityType with
    | false => rfl
    | true =>
      have hgraded := hledger w _ hg
      rw [(hfresh.ungraded n hn w hw).2] at hgraded
      cases hgraded

theorem mem_of_isActive {st : SessionState K} {w : WordId} {a : ActivityType}
    (h : isActive st w a = true) :
    ∃ n, st.nodes.head? = some n ∧ n.sourceId = some w ∧ n.activityType = a := by
  unfold isActive at h
  cases hhead : st.nodes.head? with
  | none =>
    rw [hhead] at h
    cases h
  | some n =>
    rw [hhead, Option.any_some, Bool.and_eq_true, decide_eq_true_eq, decide_eq_true_eq] at h
    exact ⟨n, rfl, h.1, h.2⟩

theorem Fresh.accepted {b : Robot K} {u : UserId} {st : SessionState K} (h : Fresh b.db u st)
    {w : WordId} {a : ActivityType} (hactive : isActive st w a = true) :
    b.alreadyGraded (some st) u w a = false := by
  obtain ⟨n, hhead, hw, rfl⟩ := mem_of_isActive hactive
  obtain ⟨hlist, hledger⟩ := h.ungraded n (List.mem_of_head? hhead) w hw
  cases hg : b.alreadyGraded (some st) u w n.activityType with
  | false => rfl
  | true =>
    rcases (alreadyGraded_some b st u w n.activityType).mp hg with hg | hg
    · exact absurd hg hlist
    · rw [hledger] at hg
      cases hg

theorem fresh_of_nodes_nil {db : Db K} {u : UserId} {st : SessionState K} (h : st.nodes = []) :
    Fresh db u st := by
  refine ⟨?_, fun n hn => ?_⟩
  · unfold DistinctWords
    rw [h]
    exact List.nodup_nil
  · rw [h] at hn
    exact absurd hn List.not_mem_nil

theorem Fresh.graded {db db' : Db K} {u : UserId} {st : SessionState K} (h : Fresh db u st)
    {w : WordId} {a : ActivityType} {call : GradeCall} (hactive : isActive st w a = true)
    (hcommit : Committed db db' u w a call) : Fresh db' u (appendGraded st w).popNext := by
  obtain ⟨head, hhead, hw, rfl⟩ := mem_of_isActive hactive
  obtain ⟨rest, hnodes⟩ : ∃ rest, st.nodes = head :: rest := by
    cases hn : st.nodes with
    | nil => rw [hn] at hhead; cases hhead
    | cons n rest =>
      rw [hn] at hhead
      exact ⟨rest, Option.some.inj hhead ▸ rfl⟩
  have hrest : (appendGraded st w).popNext.nodes = rest := congrArg List.tail hnodes
  have hdistinct : head.sourceId ∉ rest.map (·.sourceId) ∧ DistinctWords rest := by
    have hall := h.distinct
    rw [hnodes] at hall
    exact List.nodup_cons.mp hall
  refine ⟨hrest ▸ hdistinct.2, fun n hn x hx => ?_⟩
  rw [hrest] at hn
  have hne : x ≠ w := by
    rintro rfl
    exact hdistinct.1 (List.mem_map.mpr ⟨n, hn, hx.trans hw.symm⟩)
  obtain ⟨hlist, hledger⟩ := h.ungraded n (hnodes ▸ List.mem_cons_of_mem _ hn) x hx
  refine ⟨fun hmem => ?_, ?_⟩
  · rcases List.mem_append.mp hmem with hmem | hmem
    · exact hlist hmem
    · exact hne (List.mem_singleton.mp hmem)
  · rw [hcommit.isWordGraded, hledger]
    simp [Ne.symm hne]

theorem not_allGradable {b : Robot K} {u : UserId} {w : WordId} {a : ActivityType}
    (h : (b.session u).any
      (fun st => isActive st w a && b.alreadyGraded (some st) u w a) = true) :
    ¬ AllGradable b := by
  intro hall
  cases hst : b.session u with
  | none =>
    rw [hst] at h
    cases h
  | some st =>
    rw [hst, Option.any_some, Bool.and_eq_true] at h
    have haccepted := (hall u st (.inl hst)).accepted w a h.1
    rw [h.2] at haccepted
    cases haccepted

/-! ## Steps that leave no graded word in a list -/

/-- The end of a grade of the active card is settled; a grade without a session
follows a gate that looked for one. -/
def CommitSettles (activity : ActivityType) (t : TapInputs) : Option (SessionState K) → Prop
  | some st => isActive st t.wordId activity = true → t.closing.Settles (appendGraded st t.wordId)
  | none => t.gate.restoreFails = false ∧ t.gate.invalidateFails = false

instance (activity : ActivityType) (t : TapInputs) :
    (session : Option (SessionState K)) → Decidable (CommitSettles activity t session)
  | some _ => inferInstanceAs (Decidable (_ → _))
  | none => inferInstanceAs (Decidable (_ ∧ _))

section Queues
variable [Field K] [LinearOrder K] [Elementary K] {b : Robot K}

/-- A grade is settled, and a refill brings back no word that was graded. -/
def GradesSettle (b : Robot K) : Event K → Prop
  | .review u t => CommitSettles .srsReview t (b.getActiveSession t.gate u).2
  | .firstExposure u t => CommitSettles .firstExposure t (b.getActiveSession t.gate u).2
  | .deleteYes u i =>
      ∀ b₁ st node w, b.resolveDelete i.gate u i.targetUserId i.wordId = (b₁, some st) →
        i.deleteFails = false → i.refillFails = false →
          (b₁.deleteWord u i.wordId).db.toWordStore.refillNode i.zone i.now u st = some node →
            node.sourceId = some w → b₁.alreadyGraded (some st) u w node.activityType = false
  | _ => True

theorem fresh_handleStudyStart {v : UserId} (h : Holds Fresh b v) (i : StartInputs) (u : UserId) :
    Holds Fresh (b.handleStudyStart i u) v := by
  cases handleStudyStart_outcome b i u with
  | idle hplain => exact h.plain fresh_law hplain
  | fresh b₁ nodes context plan hplain hdistinct hrest =>
    refine Holds.plain fresh_law hrest
      (((h.plain fresh_law hplain).clearGrades fresh_law u).setUser u _ fun hv st hst => ?_)
    obtain rfl := Option.some.inj hst
    refine ⟨hdistinct, fun n _ w _ => ⟨List.not_mem_nil, ?_⟩⟩
    show (b₁.db.clearSessionGrades u).isWordGraded u w n.activityType = false
    rw [Db.isWordGraded_clearSessionGrades]
    simp

theorem fresh_handleSrsDeleteYes {v : UserId} (h : Holds Fresh b v) {i : DeleteInputs} {u : UserId}
    (hsettles : GradesSettle b (.deleteYes u i)) : Holds Fresh (b.handleSrsDeleteYes i u) v := by
  cases handleSrsDeleteYes_outcome b i u with
  | idle hplain => exact h.plain fresh_law hplain
  | deleted b₁ hplain heq =>
    rw [heq]
    exact (h.plain fresh_law hplain).deleteWord fresh_law u i.wordId
  | refilled b₁ st st' hplain hresolve hclean hst hactive hrefill heq =>
    have hdel := (h.plain fresh_law hplain).deleteWord fresh_law u i.wordId
    rw [heq]
    refine Holds.plain fresh_law (plain_persistAndAdvance (by simp) i.closing)
      (hdel.setUser u _ fun hv st'' hst'' => ?_)
    obtain rfl := Option.some.inj hst''
    subst hv
    have hfresh := hdel.memory st hst
    unfold WordStore.refillSessionFromDue at hrefill
    cases hnode : (b₁.deleteWord u i.wordId).db.toWordStore.refillNode i.zone i.now u st with
    | none =>
      rw [hnode] at hrefill
      exact hrefill ▸ hfresh
    | some node =>
      rw [hnode] at hrefill
      rw [hrefill]
      refine ⟨distinctWords_append hnode hfresh.distinct, fun n hn w hw => ?_⟩
      rcases List.mem_append.mp hn with hn | hn
      · exact hfresh.ungraded n hn w hw
      · obtain rfl := List.mem_singleton.mp hn
        have hnew := hsettles b₁ st n w hresolve hclean.1 hclean.2 hnode hw
        have hnot : ¬ (w ∈ st.gradedWordIds ∨ b₁.db.isWordGraded u w n.activityType = true) :=
          fun hg => by
            rw [(alreadyGraded_some b₁ st u w n.activityType).mpr hg] at hnew
            cases hnew
        obtain ⟨hlist, hledger⟩ := not_or.mp hnot
        refine ⟨hlist, ?_⟩
        show (b₁.db.deleteSavedWord i.wordId u).1.isWordGraded u w n.activityType = false
        unfold Db.isWordGraded at hledger ⊢
        rw [(Db.deleteSavedWord_frame b₁.db i.wordId u).1]
        exact Bool.eq_false_of_not_eq_true hledger

end Queues

theorem fresh_commit_other {b : Robot K} {v : UserId} (h : Holds Fresh b v) {db : Db K} {u : UserId}
    {w : WordId} {activity : ActivityType} {call : GradeCall}
    (hcommit : Committed b.db db u w activity call) (hv : u ≠ v) (history : List Commit) :
    Holds Fresh { b with db := db, history := history } v := by
  refine h.frame fresh_law rfl (persisted_commit hcommit _ v) fun x a hg => ?_
  have heq : db.isWordGraded v x a =
      (b.db.isWordGraded v x a || decide ((u, w, activity) = (v, x, a))) :=
    hcommit.isWordGraded v x a
  have hother : (u, w, activity) ≠ (v, x, a) := fun heq => hv (congrArg Prod.fst heq)
  rw [decide_eq_false hother, Bool.or_false] at heq
  exact heq ▸ hg

section Steps
variable [Field K] [LinearOrder K] [FloorRing K] [Elementary K] {b : Robot K}

theorem fresh_handleGrade {v : UserId} (h : Holds Fresh b v) {activity : ActivityType}
    {t : TapInputs} {u : UserId}
    (hsettles : CommitSettles activity t (b.getActiveSession t.gate u).2) :
    Holds Fresh (b.handleGrade activity t u) v := by
  cases handleGrade_outcome b activity t u with
  | idle hplain => exact h.plain fresh_law hplain
  | again b₁ st hplain hst hgraded hactive hrest =>
    have h₁ := h.plain fresh_law hplain
    refine Holds.plain fresh_law hrest (h₁.setUser u _ fun hv st' hst' => ?_)
    obtain rfl := Option.some.inj hst'
    subst hv
    have hfresh := h₁.memory st hst
    rcases hactive with hactive | hnil
    · -- the active card of a fresh list was not graded before
      have haccepted := hfresh.accepted hactive
      rw [(alreadyGraded_some b₁ st u t.wordId activity).mpr hgraded] at haccepted
      cases haccepted
    · split
      · exact fresh_of_nodes_nil hnil
      · exact fresh_of_nodes_nil hnil
  | commit b₁ session db call hplain hgate hsession hledger hactive hrow hcommit heq =>
    have h₁ := h.plain fresh_law hplain
    rw [hgate] at hsettles
    rw [heq]
    by_cases hv : u = v
    · subst hv
      cases session with
      | none =>
        -- without a session there is nothing of the user to keep fresh
        have hnorow : b₁.persisted u = none := by
          unfold persisted
          rw [hrow rfl hsettles.1 hsettles.2]
          rfl
        refine Holds.plain fresh_law (plain_finishTap_none _ t u) ⟨fun st hst => ?_, fun st hst => ?_⟩
        · exact nomatch hsession.symm.trans hst
        · rw [persisted_commit hcommit, hnorow] at hst
          cases hst
      | some st =>
        have hact := (hactive st rfl).2
        exact holds_persistAndAdvance fresh_law (by simp)
          ((h₁.memory st hsession).graded hact hcommit) (hsettles hact)
    · have hdone := fresh_commit_other h₁ hcommit hv (.graded u t.wordId activity :: b₁.history)
      cases session with
      | none => exact hdone.plain fresh_law (plain_finishTap_none _ t u)
      | some st =>
        exact Holds.plain fresh_law (plain_finishTap_some _ t u st)
          (hdone.setUser u _ fun huv => absurd huv hv)

/-- **A step that settles its grade and its refill keeps every list fresh.** -/
theorem fresh_step {v : UserId} (h : Holds Fresh b v) {e : Event K} (hsettles : GradesSettle b e) :
    Holds Fresh (b.step e) v := by
  cases e with
  | start u i => exact fresh_handleStudyStart h i u
  | review u t => exact fresh_handleGrade h hsettles
  | firstExposure u t => exact fresh_handleGrade h hsettles
  | reveal u i => exact h.reveal fresh_law i u
  | deleteKeyboard u g target w =>
    exact h.plain fresh_law (plain_handleSrsDeleteKeyboard b g u target w)
  | deleteYes u i => exact fresh_handleSrsDeleteYes h hsettles
  | restart => exact ⟨fun st hst => (nomatch hst), h.row⟩
  | words savedWords => exact h.frame fresh_law rfl rfl fun _ _ hg => hg

/-- **Every active card is gradable.**  From a bot without sessions, after any
run whose grades are settled and whose refills bring back no graded word, no
card left in a session has been graded, and a tap on the active card is not
refused as already graded. -/
theorem gradable_of_settled (db : Db K) (events : List (Event K))
    (h : Meets Robot.step GradesSettle (noSession db) events) :
    Always Robot.step AllGradable (noSession db) events := by
  have hstart : ∀ u w a, Accounted (db.reviewEvents.rows.countP (ReviewEvent.gradeOf u w a)) u w a
      (noSession db) := fun u w a =>
    ⟨atMostOnce_nil _ _, fun hmem => absurd hmem List.not_mem_nil, fun _ => rfl⟩
  refine always_of_meets Robot.step (I := fun b => (∀ v, Holds Fresh b v) ∧
    ∀ u w a, Accounted (db.reviewEvents.rows.countP (ReviewEvent.gradeOf u w a)) u w a b) ?_
    (fun b e hI hsettles => ⟨fun v => fresh_step (hI.1 v) hsettles,
      fun u w a => (hI.2 u w a).step e⟩)
    ⟨fun v => holds_noSession Fresh db v, hstart⟩ h
  rintro b ⟨hfresh, haccount⟩ u st hst
  have hst : Fresh b.db u st := hst.elim ((hfresh u).memory st) ((hfresh u).row st)
  refine ⟨fun n hn w hw hmem => ?_, fun w a => hst.accepted⟩
  have hgraded := (haccount u w n.activityType).ledger hmem
  rw [(hst.ungraded n hn w hw).2] at hgraded
  cases hgraded

end Steps

/-! Sessions of one and of two first exposures, on day 0. -/

section FirstExposures

local instance : Elementary ℚ := .firstOrder ℚ

/-- A session of both words. -/
def startTwoCards : StartInputs := { startOneCard with maxNodes := 2 }

def closingOn (edit : EditResult) : ClosingInputs where
  persistDay := 0
  advance := { today := 0, gate := { today := 0 }, card := immediateCards, edit := edit }

def gradeFirst (grade : Int) (edit : EditResult) : TapInputs where
  targetUserId := 1
  wordId := 1
  grade := grade
  zone := utc
  rejectDay := some 0
  snapshotDay := 0
  gate := { today := 0 }
  tapTime := 0
  now := 0
  streakDay := 0
  closing := closingOn edit

def deleteSecond : DeleteInputs where
  targetUserId := 1
  wordId := 2
  zone := utc
  gate := { today := 0 }
  now := 21600000000
  closing := closingOn .done

theorem gradable_after_grade : Always Robot.step AllGradable (noSession twoWords)
    [.start 1 startTwoCards, .firstExposure 1 (gradeFirst 3 .done)] := by
  refine gradable_of_settled twoWords _ ⟨trivial, ?_, trivial⟩
  show CommitSettles .firstExposure (gradeFirst 3 .done)
    (((noSession twoWords).step (.start 1 startTwoCards)).getActiveSession { today := 0 } 1).2
  decide +kernel

/-- A failed edit after a grade leaves the graded card active; and a word graded
`again` is due once more in the same session, where a refill brings it back as a
review that every tap on is refused. -/
theorem active_card_refused :
    let unshown : List (Event ℚ) :=
      [.start 1 startOneCard, .firstExposure 1 (gradeFirst 3 .failed)]
    let refilled : List (Event ℚ) :=
      [.start 1 startTwoCards, .firstExposure 1 (gradeFirst 1 .done), .deleteYes 1 deleteSecond]
    ¬ Always Robot.step AllGradable (noSession twoWords) unshown ∧
      ¬ Always Robot.step AllGradable (noSession twoWords) refilled := by
  intro unshown refilled
  have hunshown : ((run Robot.step (noSession twoWords) unshown).session 1).any (fun st =>
      isActive st 1 .firstExposure && (run Robot.step (noSession twoWords) unshown).alreadyGraded
        (some st) 1 1 .firstExposure) = true := by decide +kernel
  have hrefilled : ((run Robot.step (noSession twoWords) refilled).session 1).any (fun st =>
      isActive st 1 .srsReview && (run Robot.step (noSession twoWords) refilled).alreadyGraded
        (some st) 1 1 .srsReview) = true := by decide +kernel
  exact ⟨fun h => not_allGradable hunshown h.last, fun h => not_allGradable hrefilled h.last⟩

end FirstExposures

end HamZaboon
