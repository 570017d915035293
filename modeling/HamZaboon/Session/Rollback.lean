import HamZaboon.Session.Moves

/-! # What a failed advance leaves behind

An advance pops the head card, builds the next one and edits the message.  A
failed edit is undone, except that a completion screen Telegram refuses for good
ends the session.  A failed build is not undone: the popped card is gone from
the session although it is still on the screen.
-/

namespace HamZaboon
open Library Robot

variable {K : Type}

namespace Robot

/-- A step of the advance fails before the next screen is shown: a read of the
next card, or the edit that shows it or the completion screen. -/
def FailsUnshown (a : AdvanceInputs) (st : SessionState K) : Prop :=
  (2 ≤ st.nodes.length ∧ a.cardFaults.anyRead = true) ∨ a.edit.shown = false

/-- **Which failures an advance undoes.**  Where a step fails before the next
screen is shown, the session is afterwards what it was before the call exactly
when no read of the next card failed and, where there is no next card, Telegram
did not refuse the completion screen for good. -/
theorem advance_undone_iff {b b₁ : Robot K} {a : AdvanceInputs} {u : UserId}
    {st : SessionState K} (hgate : b.getActiveSession a.gate u = (b₁, some st))
    (hfail : FailsUnshown a st) :
    (∃ st', (b.advance a u).session u = some st' ∧ SameSession st st') ↔
      (2 ≤ st.nodes.length → a.cardFaults.anyRead = false) ∧
        (st.nodes.length ≤ 1 → a.edit ≠ .badRequest) := by
  have hadvance : b.advance a u = b₁.advanceFrom a u st := by
    simp only [advance, hgate]
  rw [hadvance]
  cases advanceFrom_outcome b₁ a u st with
  | unbuilt screen hnext hreads hpresents h =>
    -- the popped card is lost with the build
    rw [h, session_setScreen, if_pos rfl, hreads]
    refine iff_of_false ?_ fun hundone => nomatch hundone.1 hnext
    rintro ⟨st', hst', hsame⟩
    obtain rfl := Option.some.inj hst'
    have hlost : st.nodes.tail = st.nodes := hpresents.nodes.symm.trans hsame.nodes
    have hshort := congrArg List.length hlost
    rw [List.length_tail] at hshort
    omega
  | shown screen hnext hreads hedit hpresents h =>
    rcases hfail with ⟨-, hfail⟩ | hfail
    · rw [hreads] at hfail
      cases hfail
    · rw [hedit] at hfail
      cases hfail
  | undone data st' hcard hscreen hedit hdata hsame h =>
    refine iff_of_true ⟨st', ?_, hsame⟩ ⟨hcard, hscreen⟩
    rw [h, session_setUser, if_pos rfl, hdata]
  | ended hlast hedit h =>
    have hrefused : a.edit = .badRequest := by
      have hunshown := hfail.resolve_left fun h => absurd h.1 (by omega)
      cases hresult : a.edit with
      | done => rw [hresult] at hunshown; cases hunshown
      | notModified => rw [hresult] at hunshown; cases hunshown
      | badRequest => rfl
      | failed => exact absurd hresult hedit
    rw [h, session_clearRow, session_setSession, if_pos rfl]
    exact iff_of_false (fun ⟨_, hnone, _⟩ => nomatch hnone) fun hundone => hundone.2 hlast hrefused

/-! A session of two review cards, the first of them revealed. -/

section TwoCards

def reviewNode (w : WordId) (word : String) : SessionNode :=
  ⟨.srsReview, 1, word, some w, 1, some "en", .srsReview⟩

def twoCards : SessionState Nat where
  nodes := [reviewNode 1 "run", reviewNode 2 "walk"]
  totalCards := 2
  tier3Context := none
  studyMsgId := some 7
  plan := "free"
  gradedWordIds := [1]
  beforeStability := []
  frozen := ⟨true, some .standard, some 1⟩
  sessionDate := some 0

/-- An empty database, with the session of user 1 in memory. -/
def twoCardsShown : Robot Nat where
  db :=
    { savedWords := .empty, reviewEvents := .empty, slots := .empty, users := .empty
      gradeLedger := .empty, studySessions := .empty }
  userData := fun _ => { currentSession := some twoCards }
  history := []

/-- The settings of the learner. -/
def stagedCards : CardInputs :=
  ⟨.ascii, fun _ => 0, 0, 1, .staged, .staged, ⟨true, true, true, true, true, true⟩⟩

theorem advance_undone_after_edit :
    ∃ st', (twoCardsShown.advance
        { today := 0, gate := { today := 0 }, card := stagedCards, edit := .failed } 1).session 1 =
      some st' ∧ SameSession twoCards st' := by
  have hgate : twoCardsShown.getActiveSession { today := 0 } 1 =
      (twoCardsShown, some twoCards) := rfl
  refine (advance_undone_iff hgate ?_).mpr ⟨fun _ => rfl, fun _ => EditResult.noConfusion⟩
  exact Or.inr rfl

/-- A database read that fails while the second card is built: the first card is
gone. -/
theorem advance_loses_card :
    let a : AdvanceInputs :=
      { today := 0, gate := { today := 0 }, card := stagedCards, cardFaults := { row := true } }
    FailsUnshown a twoCards ∧
      ((twoCardsShown.advance a 1).session 1).map (·.nodes) = some [reviewNode 2 "walk"] ∧
      ¬ ∃ st', (twoCardsShown.advance a 1).session 1 = some st' ∧ SameSession twoCards st' := by
  intro a
  have hnodes : ((twoCardsShown.advance a 1).session 1).map (·.nodes) =
      some [reviewNode 2 "walk"] := rfl
  refine ⟨Or.inl ⟨Nat.le_refl 2, rfl⟩, hnodes, ?_⟩
  rintro ⟨st', hst', hsame⟩
  rw [hst', Option.map_some, hsame.nodes] at hnodes
  exact absurd hnodes (by decide)

end TwoCards

end Robot

end HamZaboon
