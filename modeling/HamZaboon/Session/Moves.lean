import HamZaboon.Session.Handlers
import HamZaboon.Session.FrozenPrompt
import Mathlib.Logic.Relation

/-! # What the handlers do to sessions

Apart from a grade, a deletion, a refill and a fresh session, everything a
handler does is a sequence of plain moves: it restores or drops the session in
memory, presents or pops its head card, and writes or clears its row.  This
module says once, for every handler, which moves it is made of; the invariants
of the study flow are then proved move by move.
-/

namespace HamZaboon
open Library Relation

variable {K : Type}

namespace Robot

/-! ## Reading the context after writing it -/

@[simp] theorem session_setUser (b : Robot K) (u : UserId) (d : UserData K) (v : UserId) :
    (b.setUser u d).session v = if v = u then d.currentSession else b.session v := by
  by_cases h : v = u
  · subst h
    simp [session, setUser]
  · simp [session, setUser, h]

@[simp] theorem session_setSession (b : Robot K) (u : UserId) (st : Option (SessionState K))
    (v : UserId) : (b.setSession u st).session v = if v = u then st else b.session v := by
  unfold setSession
  rw [session_setUser]

@[simp] theorem session_setScreen (b : Robot K) (u : UserId) (s : Screen K) (v : UserId) :
    (b.setScreen u s).session v = if v = u then some s.state else b.session v := by
  unfold setScreen
  rw [session_setUser]

@[simp] theorem session_persist (b : Robot K) (u : UserId) (d : Day) (st : SessionState K)
    (v : UserId) : (b.persist u d st).session v = b.session v := rfl

@[simp] theorem session_clearRow (b : Robot K) (u : UserId) (f : Bool) (v : UserId) :
    (b.clearRow u f).session v = b.session v := by
  unfold clearRow
  split <;> rfl

@[simp] theorem session_invalidate (b : Robot K) (u : UserId) (f : Bool) (v : UserId) :
    (b.invalidate u f).session v = b.session v := by
  unfold invalidate
  split <;> rfl

@[simp] theorem session_popShownAt (b : Robot K) (u : UserId) (w : WordId) (v : UserId) :
    (b.popShownAt u w).session v = b.session v := by
  unfold popShownAt
  rw [session_setUser]
  split
  · rename_i h
    subst h
    rfl
  · rfl

@[simp] theorem session_markRevealed (b : Robot K) (u : UserId) (w : WordId) (v : UserId) :
    (b.markRevealed u w).session v = b.session v := by
  unfold markRevealed
  rw [session_setUser]
  split
  · rename_i h
    subst h
    rfl
  · rfl

/-! ## Plain moves -/

/-- Two states of a session that show the same cards of the same total with the
same grades. -/
structure Presents (st st' : SessionState K) : Prop where
  nodes : st'.nodes = st.nodes
  total : st'.totalCards = st.totalCards
  graded : st'.gradedWordIds = st.gradedWordIds

theorem Presents.rfl {st : SessionState K} : Presents st st := ⟨Eq.refl _, Eq.refl _, Eq.refl _⟩

theorem Presents.trans {a b c : SessionState K} (h : Presents a b) (h' : Presents b c) :
    Presents a c :=
  ⟨h'.nodes.trans h.nodes, h'.total.trans h.total, h'.graded.trans h.graded⟩

/-- What a render, a send and an undone advance make of a session. -/
structure Renders (st st' : SessionState K) : Prop extends Presents st st' where
  accepted : st.frozen.Accepted → st'.frozen.Accepted

theorem Renders.rfl {st : SessionState K} : Renders st st := ⟨Presents.rfl, id⟩

theorem Renders.trans {a b c : SessionState K} (h : Renders a b) (h' : Renders b c) :
    Renders a c :=
  ⟨h.toPresents.trans h'.toPresents, h'.accepted ∘ h.accepted⟩

/-- A move of a handler that grades, deletes and adds no card. -/
inductive PlainMove : Robot K → Robot K → Prop
  /-- The context changes, the session of the user stays. -/
  | context (b : Robot K) (u : UserId) (data : UserData K)
      (h : data.currentSession = b.session u) : PlainMove b (b.setUser u data)
  /-- The session in memory is dropped. -/
  | drop (b : Robot K) (u : UserId) : PlainMove b (b.setSession u none)
  /-- The persisted session is put into memory. -/
  | restore (b : Robot K) (u : UserId) (row : StudyRow K) (json : SessionJson K)
      (hrow : b.db.loadStudySession u = some row) (hjson : row.stateJson = .val json) :
      PlainMove b (b.setSession u (some (stateFromJson json)))
  /-- The card is rendered or sent. -/
  | present (b : Robot K) (u : UserId) (data : UserData K) (st st' : SessionState K)
      (hst : b.session u = some st) (hdata : data.currentSession = some st')
      (h : Renders st st') : PlainMove b (b.setUser u data)
  /-- The head card is popped. -/
  | pop (b : Robot K) (u : UserId) (st : SessionState K) (hst : b.session u = some st) :
      PlainMove b (b.setSession u (some st.popNext))
  /-- The session in memory is persisted. -/
  | persist (b : Robot K) (u : UserId) (day : Day) (st : SessionState K)
      (hst : b.session u = some st) : PlainMove b (b.persist u day st)
  /-- The persisted session is cleared. -/
  | clearRow (b : Robot K) (u : UserId) : PlainMove b (b.clearRow u false)
  /-- The persisted session is cleared with the grade ledger. -/
  | invalidate (b : Robot K) (u : UserId) : PlainMove b (b.invalidate u false)
  /-- The quota counters change. -/
  | quota (b : Robot K) (q : QuotaStore) : PlainMove b (b.setQuota q)

/-- A sequence of plain moves. -/
abbrev Plain (b b' : Robot K) : Prop := ReflTransGen PlainMove b b'

theorem Plain.invariant {I : Robot K → Prop} (hmove : ∀ b b', PlainMove b b' → I b → I b')
    {b b' : Robot K} (h : Plain b b') (hb : I b) : I b' := by
  induction h with
  | refl => exact hb
  | tail _ hstep ih => exact hmove _ _ hstep ih

theorem plain_invalidate (b : Robot K) (u : UserId) (fails : Bool) :
    Plain b (b.invalidate u fails) := by
  cases fails with
  | true => exact .refl
  | false => exact .single (.invalidate b u)

theorem plain_clearRow (b : Robot K) (u : UserId) (fails : Bool) : Plain b (b.clearRow u fails) := by
  cases fails with
  | true => exact .refl
  | false => exact .single (.clearRow b u)

theorem plain_popShownAt (b : Robot K) (u : UserId) (w : WordId) : Plain b (b.popShownAt u w) :=
  .single (.context b u _ rfl)

theorem plain_markRevealed (b : Robot K) (u : UserId) (w : WordId) : Plain b (b.markRevealed u w) :=
  .single (.context b u _ rfl)

theorem plain_abandon (b : Robot K) (i : StartInputs) (u : UserId) : Plain b (b.abandon i u) :=
  .trans (.single (.drop b u)) (plain_clearRow _ u _)

theorem plain_releaseSlot (b : Robot K) (i : StartInputs) (u : UserId) (consumed : Bool) :
    Plain b (b.releaseSlot i u consumed) := by
  unfold releaseSlot
  split
  · exact .single (.quota b _)
  · exact .refl

/-! ## The gate -/

/-- **What the gate does**: it returns the session in memory, which it may have
restored just now, or it leaves none in memory. -/
theorem getActiveSession_cases {b b' : Robot K} {g : GateInputs} {u : UserId}
    {r : Option (SessionState K)} (h : b.getActiveSession g u = (b', r)) :
    Plain b b' ∧ b'.session u = r ∧
      ∀ st, r = some st → st.isStale g.today = false ∧ b'.db = b.db ∧ b'.history = b.history := by
  unfold getActiveSession at h
  cases hs : b.session u with
  | some st =>
    simp only [hs] at h
    split at h
    · obtain ⟨rfl, rfl⟩ := Prod.mk.inj h
      refine ⟨.trans (.single (.drop b u)) (plain_invalidate _ u _), ?_, fun _ h => nomatch h⟩
      simp
    · rename_i hfresh
      obtain ⟨rfl, rfl⟩ := Prod.mk.inj h
      refine ⟨.refl, hs, fun st' h => ?_⟩
      obtain rfl := Option.some.inj h
      exact ⟨by simpa using hfresh, rfl, rfl⟩
  | none =>
    simp only [hs] at h
    split at h
    · obtain ⟨rfl, rfl⟩ := Prod.mk.inj h
      exact ⟨.refl, hs, fun _ h => nomatch h⟩
    · -- `load_session`: a row of another day, a corrupt or an empty one is invalidated
      unfold loadSession at h
      cases hrow : b.db.loadStudySession u with
      | none =>
        simp only [hrow] at h
        obtain ⟨rfl, rfl⟩ := Prod.mk.inj h
        exact ⟨.refl, hs, fun _ h => nomatch h⟩
      | some row =>
        simp only [hrow] at h
        have hinvalid : ∀ {b' : Robot K} {r : Option (SessionState K)},
            (b.invalidate u false, (none : Option (SessionState K))) = (b', r) →
            Plain b b' ∧ b'.session u = r ∧ ∀ st, r = some st →
              st.isStale g.today = false ∧ b'.db = b.db ∧ b'.history = b.history := by
          rintro b' r h
          obtain ⟨rfl, rfl⟩ := Prod.mk.inj h
          exact ⟨plain_invalidate b u false, by simpa using hs, fun _ h => nomatch h⟩
        by_cases hdate : row.sessionDate = g.today
        · simp only [hdate, ne_eq, not_true_eq_false, if_false] at h
          cases hjson : row.stateJson with
          | null => simp only [hjson] at h; exact hinvalid h
          | junk => simp only [hjson] at h; exact hinvalid h
          | val json =>
            simp only [hjson] at h
            by_cases hempty : json.nodes = []
            · simp only [hempty, if_true] at h
              exact hinvalid h
            · simp only [hempty, if_false] at h
              split at h
              · obtain ⟨rfl, rfl⟩ := Prod.mk.inj h
                exact ⟨plain_invalidate b u _, by simpa using hs, fun _ h => nomatch h⟩
              · rename_i hfresh
                obtain ⟨rfl, rfl⟩ := Prod.mk.inj h
                refine ⟨.single (.restore b u row json hrow hjson), by simp, fun st' h => ?_⟩
                obtain rfl := Option.some.inj h
                exact ⟨by simpa using hfresh, rfl, rfl⟩
        · simp only [ne_eq, hdate, not_false_eq_true, if_true] at h
          exact hinvalid h

/-! ## Rendering and advancing -/

theorem renders_snapshotStability (st : SessionState K) (w : WordId) (row : Option (SavedWord K)) :
    Renders st (st.snapshotStability w row) := by
  unfold SessionState.snapshotStability
  split
  · split <;> exact ⟨⟨rfl, rfl, rfl⟩, id⟩
  · exact .rfl

theorem renders_freeze (st : SessionState K) (w : WordId) (t : PromptType) :
    Renders st (st.freeze w t) :=
  ⟨⟨rfl, rfl, rfl⟩, fun _ => ⟨fun h => (nomatch h), fun h => nomatch h⟩⟩

theorem renders_thaw (st : SessionState K) : Renders st { st with frozen := ⟨false, none, none⟩ } :=
  ⟨⟨rfl, rfl, rfl⟩, fun _ => accepted_empty⟩

theorem renders_renderCard (w : CardInputs) (faults : CardFaults) (mode : CardMode)
    (u : UserId) (wordId : WordId) (card : CardData) (footer front back : String)
    (grid : Keyboard) (screen : Screen K) :
    Renders screen.state
      (renderCard w faults mode u wordId card footer front back grid screen).1.state := by
  have hdrop : Renders screen.state (screen.state.dropFreeze wordId) := by
    unfold SessionState.dropFreeze
    split
    · exact renders_thaw _
    · exact .rfl
  have hcheck : Renders screen.state (screen.state.checkFrozen wordId) := by
    unfold SessionState.checkFrozen
    split
    · exact renders_thaw _
    · exact .rfl
  simp only [renderCard]
  split
  · exact .rfl
  · cases mode with
    | immediate =>
      simp only
      split <;> exact hdrop
    | staged =>
      simp only
      split
      · exact .rfl
      · split
        · split <;> exact .rfl
        · split
          · exact hcheck
          · exact hcheck.trans (renders_freeze _ _ _)

/-- **A render only freezes prompts and takes snapshots.** -/
theorem renders_buildCard (s : WordStore K) (w : CardInputs) (faults : CardFaults) (u : UserId)
    (node : SessionNode) (screen : Screen K) :
    Renders screen.state (buildCard s w faults u node screen).1.state := by
  simp only [buildCard, renderFirstExposure, renderReview]
  split
  · exact .rfl
  · have hsnap := renders_snapshotStability screen.state node.wordId
      (s.getSavedWord node.wordId u)
    split
    · exact hsnap
    · split
      · exact hsnap.trans (renders_renderCard w faults _ u _ _ _ _ _ _ ⟨_, screen.telemetry⟩)
      · exact hsnap.trans (renders_renderCard w faults _ u _ _ _ _ _ _ ⟨_, screen.telemetry⟩)

theorem presents_rollbackPop {st st' : SessionState K} (h : Presents st.popNext st') (f : Frozen) :
    Presents st (st'.rollbackPop st.nodes.head? f) := by
  refine ⟨?_, h.total, h.graded⟩
  have hnodes : st'.nodes = st.nodes.tail := h.nodes
  simp only [SessionState.rollbackPop, hnodes]
  cases st.nodes <;> rfl

theorem setUser_setUser (b : Robot K) (u : UserId) (d d' : UserData K) :
    (b.setUser u d).setUser u d' = b.setUser u d' := by
  simp [setUser]

theorem setSession_setScreen (b : Robot K) (u : UserId) (s : Screen K)
    (st : Option (SessionState K)) :
    (b.setScreen u s).setSession u st = b.setUser u ⟨st, s.telemetry⟩ := by
  unfold setSession setScreen
  rw [setUser_setUser]
  simp [setUser]

theorem plain_pop_screen {b : Robot K} {u : UserId} {st : SessionState K} {screen : Screen K}
    (hst : b.session u = some st) (h : Renders st.popNext screen.state) :
    Plain b (b.setScreen u screen) := by
  have hpop : PlainMove b (b.setSession u (some st.popNext)) := .pop b u st hst
  have hpresent := PlainMove.present (b.setSession u (some st.popNext)) u
    ⟨some screen.state, screen.telemetry⟩ st.popNext screen.state (by simp) rfl h
  unfold setSession at hpop hpresent
  rw [setUser_setUser] at hpresent
  exact .tail (.single hpop) hpresent

/-- The parts of a session an advance may move: the list, the frozen prompt, the
total, and the grades. -/
structure SameSession (st st' : SessionState K) : Prop extends Presents st st' where
  frozen : st'.frozen = st.frozen

theorem SameSession.renders {st st' : SessionState K} (h : SameSession st st') : Renders st st' :=
  ⟨h.toPresents, fun haccepted => h.frozen ▸ haccepted⟩

/-- What an advance of `st` can do. -/
inductive AdvanceOutcome (b b' : Robot K) (a : AdvanceInputs) (u : UserId) (st : SessionState K) :
    Prop
  /-- The next card could not be built; the pop stays. -/
  | unbuilt (screen : Screen K) (hnext : 2 ≤ st.nodes.length)
      (hreads : a.cardFaults.anyRead = true) (hrenders : Renders st.popNext screen.state)
      (h : b' = b.setScreen u screen)
  /-- The next card is on the screen. -/
  | shown (screen : Screen K) (hnext : 2 ≤ st.nodes.length)
      (hreads : a.cardFaults.anyRead = false) (hedit : a.edit.shown = true)
      (hrenders : Renders st.popNext screen.state)
      (h : b' = if a.persistFails then b.setScreen u screen
        else (b.setScreen u screen).persist u a.today screen.state)
  /-- The edit failed and is undone. -/
  | undone (data : UserData K) (st' : SessionState K)
      (hcard : 2 ≤ st.nodes.length → a.cardFaults.anyRead = false)
      (hscreen : st.nodes.length ≤ 1 → a.edit ≠ .badRequest) (hedit : a.edit.shown = false)
      (hdata : data.currentSession = some st') (hsame : SameSession st st')
      (h : b' = b.setUser u data)
  /-- The session is over. -/
  | ended (hlast : st.nodes.length ≤ 1) (hedit : a.edit ≠ .failed)
      (h : b' = (b.setSession u none).clearRow u a.clearFails)

theorem buildCard_popNext (s : WordStore K) (w : CardInputs) {faults : CardFaults}
    (hfaults : faults.anyRead = false) (u : UserId) (node : SessionNode) (st : SessionState K)
    (t : Telemetry) : ∃ r, (buildCard s w faults u node ⟨st.popNext, t⟩).2 = .ok r :=
  (buildCard_ok_iff s w hfaults u node ⟨st.popNext, t⟩).mpr
    fun h => nomatch congrArg Frozen.promptType h.2.1

/-- **What an advance can do**, whatever fails. -/
theorem advanceFrom_outcome (b : Robot K) (a : AdvanceInputs) (u : UserId) (st : SessionState K) :
    AdvanceOutcome b (b.advanceFrom a u st) a u st := by
  have htail : st.popNext.nodes.length = st.nodes.length - 1 := List.length_tail
  have hsame : ∀ st', Presents st.popNext st' →
      SameSession st (st'.rollbackPop st.nodes.head? st.frozen) :=
    fun st' h => ⟨presents_rollbackPop h _, rfl⟩
  unfold advanceFrom
  cases hnodes : st.popNext.nodes with
  | nil =>
    -- the stub never generates a tier-3 node
    have htier : st.popNext.tier3Context.bind generateTier3Node = none := by
      cases st.popNext.tier3Context <;> rfl
    have hlast : st.nodes.length ≤ 1 := by
      rw [hnodes, List.length_nil] at htail
      omega
    simp only [htier, complete]
    split
    · rename_i hedit
      exact .undone _ _ (fun h => absurd h (by omega)) (fun _ => by simp [hedit])
        (by rw [hedit]; rfl) rfl (hsame _ .rfl) rfl
    · rename_i hedit
      exact .ended hlast hedit rfl
  | cons node rest =>
    have hnext : 2 ≤ st.nodes.length := by
      rw [hnodes, List.length_cons] at htail
      omega
    have hrenders := renders_buildCard b.db.toWordStore a.card a.cardFaults u node
      ⟨st.popNext, (b.userData u).telemetry⟩
    simp only [showCard]
    cases hreads : a.cardFaults.anyRead with
    | true =>
      obtain ⟨e, he⟩ := buildCard_error hreads b.db.toWordStore a.card u node
        ⟨st.popNext, (b.userData u).telemetry⟩
      rw [he]
      exact .unbuilt _ hnext hreads hrenders rfl
    | false =>
      obtain ⟨r, hr⟩ := buildCard_popNext b.db.toWordStore a.card hreads u node st
        (b.userData u).telemetry
      rw [hr]
      simp only
      split
      · rename_i hedit
        exact .shown _ hnext hreads hedit hrenders rfl
      · rename_i hedit
        rw [setSession_setScreen]
        exact .undone _ _ (fun _ => hreads) (fun h => absurd h (by omega)) (by simpa using hedit)
          rfl (hsame _ hrenders.toPresents) rfl

theorem plain_advanceFrom {b : Robot K} {u : UserId} {st : SessionState K}
    (hst : b.session u = some st) (a : AdvanceInputs) : Plain b (b.advanceFrom a u st) := by
  cases advanceFrom_outcome b a u st with
  | unbuilt screen hnext hreads hrenders h => exact h ▸ plain_pop_screen hst hrenders
  | shown screen hnext hreads hedit hrenders h =>
    rw [h]
    split
    · exact plain_pop_screen hst hrenders
    · exact .tail (plain_pop_screen hst hrenders) (.persist _ u a.today _ (by simp))
  | undone data st' hcard hscreen hedit hdata hsame h =>
    exact h ▸ .single (.present b u data st st' hst hdata hsame.renders)
  | ended hlast hedit h => exact h ▸ .trans (.single (.drop b u)) (plain_clearRow _ u _)

theorem plain_advance (b : Robot K) (a : AdvanceInputs) (u : UserId) : Plain b (b.advance a u) := by
  unfold advance
  cases hgate : b.getActiveSession a.gate u with
  | mk b' r =>
    obtain ⟨hplain, hsession, -⟩ := getActiveSession_cases hgate
    cases r with
    | none => exact hplain
    | some st => exact .trans hplain (plain_advanceFrom hsession a)

/-! ## The other handlers -/

theorem plain_sendCard {b b' : Robot K} {card : CardInputs} {faults : CardFaults}
    {sent : Option MessageId} {u : UserId} {node : SessionNode} {st : SessionState K}
    {r : Option (SessionState K)} (hst : b.session u = some st)
    (h : b.sendCard card faults sent u node st = (b', r)) :
    Plain b b' ∧ ∀ st', r = some st' → b'.session u = some st' := by
  have hrenders := renders_buildCard b.db.toWordStore card faults u node
    ⟨st, (b.userData u).telemetry⟩
  simp only [sendCard] at h
  split at h
  · obtain ⟨rfl, rfl⟩ := Prod.mk.inj h
    refine ⟨?_, fun st' h => ?_⟩
    · rw [setSession_setScreen]
      exact .single (.present b u _ st _ hst rfl (hrenders.trans ⟨⟨rfl, rfl, rfl⟩, id⟩))
    · obtain rfl := Option.some.inj h
      simp
  · obtain ⟨rfl, rfl⟩ := Prod.mk.inj h
    exact ⟨.single (.present b u _ st _ hst rfl hrenders), fun _ h => nomatch h⟩

theorem plain_resumeExistingSession {b : Robot K} {u : UserId} {st : SessionState K}
    (hst : b.session u = some st) (r : ResumeInputs) :
    Plain b (b.resumeExistingSession r u st) := by
  unfold resumeExistingSession
  split
  · exact .refl
  · split
    · exact .refl
    · rename_i node _ _
      cases hsend : b.sendCard r.card r.cardFaults r.sent u node st with
      | mk b' r' =>
        obtain ⟨hplain, hsession⟩ := plain_sendCard hst hsend
        cases r' with
        | none => exact hplain
        | some st' =>
          simp only
          split
          · exact hplain
          · exact .tail hplain (.persist _ u _ st' (hsession st' rfl))

/-- A reveal tap of `st` gets as far as the commit: it shows the back of the active
card for the first time, and the row is written. -/
structure RevealInputs.Commits (i : RevealInputs) (b : Robot K) (u : UserId) (st : SessionState K) :
    Prop where
  target : i.targetUserId = u
  new : ¬ (st.frozen.revealed = true ∧ st.frozen.promptWordId = some i.wordId) ∧
    i.wordId ∉ (b.userData u).telemetry.revealed
  active : (st.nodes.head?.any fun n =>
    (n.activityType = .srsReview || n.activityType = .firstExposure) &&
      n.sourceId = some i.wordId) = true
  reads : i.readFails = false
  message : st.studyMsgId.getD 0 ≠ 0
  edit : i.edit = .done
  persist : i.persistFails = false

inductive RevealOutcome (b b' : Robot K) (i : RevealInputs) (u : UserId) : Prop
  /-- It freezes nothing. -/
  | idle (h : Plain b b')
  /-- The frozen prompt is marked as revealed. -/
  | revealed (b₁ : Robot K) (st : SessionState K) (hplain : Plain b b₁)
      (hgate : b.getActiveSession i.gate u = (b₁, some st)) (hst : b₁.session u = some st)
      (hcommits : i.Commits b₁ u st)
      (hsession : b'.session u = some (revealState st i.wordId))
      (h : Plain (b₁.setSession u (some (revealState st i.wordId))) b')

/-- **What a reveal tap can do**, whatever fails. -/
theorem handleSrsReveal_outcome (b : Robot K) (i : RevealInputs) (u : UserId) :
    RevealOutcome b (b.handleSrsReveal i u) i u := by
  unfold handleSrsReveal
  split
  · exact .idle .refl
  · rename_i htarget
    cases hgate : b.getActiveSession i.gate u with
    | mk b₁ r =>
      obtain ⟨hplain, hsession, -⟩ := getActiveSession_cases hgate
      cases r with
      | none => exact .idle hplain
      | some st =>
        simp only
        split
        · exact .idle hplain
        · rename_i hgo
          simp only [not_or, Bool.not_eq_false, Bool.not_eq_true, ne_eq, not_not] at hgo htarget
          obtain ⟨hold, hnew, hactive, hreads, hmessage, hedit⟩ := hgo
          split
          · exact .idle (.trans hplain (plain_markRevealed _ u _))
          · rename_i hpersist
            refine .revealed b₁ st hplain hgate hsession ⟨htarget, ⟨hold, hnew⟩, hactive, hreads,
              hmessage, hedit, by simpa using hpersist⟩ ?_ ?_
            · simp
            · exact .tail (.single (.persist _ u _ _ (by simp))) (.context _ u _ rfl)

theorem resolveDelete_cases {b b' : Robot K} {g : GateInputs} {u target : UserId} {w : WordId}
    {r : Option (SessionState K)} (h : b.resolveDelete g u target w = (b', r)) :
    Plain b b' ∧ ∀ st, r = some st → b'.session u = some st ∧ st.nodes ≠ [] := by
  unfold resolveDelete at h
  split at h
  · obtain ⟨rfl, rfl⟩ := Prod.mk.inj h
    exact ⟨.refl, fun _ h => nomatch h⟩
  · cases hgate : b.getActiveSession g u with
    | mk b₁ r₁ =>
      obtain ⟨hplain, hsession, -⟩ := getActiveSession_cases hgate
      rw [hgate] at h
      cases r₁ with
      | none =>
        obtain ⟨rfl, rfl⟩ := Prod.mk.inj h
        exact ⟨hplain, fun _ h => nomatch h⟩
      | some st =>
        simp only at h
        split at h
        · rename_i hactive
          obtain ⟨rfl, rfl⟩ := Prod.mk.inj h
          refine ⟨hplain, fun st' hst' => ?_⟩
          obtain rfl := Option.some.inj hst'
          refine ⟨hsession, fun hnil => ?_⟩
          rw [hnil] at hactive
          exact Bool.noConfusion hactive.1
        · obtain ⟨rfl, rfl⟩ := Prod.mk.inj h
          exact ⟨hplain, fun _ h => nomatch h⟩

theorem plain_handleSrsDeleteKeyboard (b : Robot K) (g : GateInputs) (u target : UserId)
    (w : WordId) : Plain b (b.handleSrsDeleteKeyboard g u target w) :=
  (resolveDelete_cases (r := (b.resolveDelete g u target w).2) rfl).1

theorem plain_persistAndAdvance {b : Robot K} {u : UserId} {st : SessionState K}
    (hst : b.session u = some st) (c : ClosingInputs) : Plain b (b.persistAndAdvance c u st) := by
  unfold persistAndAdvance
  split
  · exact .refl
  · have hpersist : Plain b (b.persist u (st.sessionDate.getD c.persistDay) st) :=
      .single (.persist b u _ st hst)
    simp only
    split
    · exact hpersist
    · exact .trans hpersist (plain_advance _ _ u)

theorem plain_finishTap_some (b : Robot K) (t : TapInputs) (u : UserId) (st : SessionState K) :
    Plain (b.setSession u (some (appendGraded st t.wordId))) (b.finishTap t u (some st)) :=
  plain_persistAndAdvance (by simp) t.closing

theorem plain_finishTap_none (b : Robot K) (t : TapInputs) (u : UserId) :
    Plain b (b.finishTap t u none) := by
  simp only [finishTap]
  split
  · exact .refl
  · exact plain_advance _ _ u

theorem plain_deliverFirst (b : Robot K) (i : StartInputs) (u : UserId) (consumed : Bool)
    (node : SessionNode) (st : SessionState K) :
    Plain (b.setSession u (some st)) (b.deliverFirst i u consumed node st) := by
  have hgive : ∀ b' : Robot K, Plain b' ((b'.abandon i u).releaseSlot i u consumed) :=
    fun b' => .trans (plain_abandon b' i u) (plain_releaseSlot _ i u consumed)
  simp only [deliverFirst]
  split
  · exact hgive _
  · have hst : ((b.setSession u (some st)).persist u i.today st).session u = some st := by simp
    have hpersist : Plain (b.setSession u (some st))
        ((b.setSession u (some st)).persist u i.today st) :=
      .single (.persist _ u _ st (by simp))
    cases hsend : ((b.setSession u (some st)).persist u i.today st).sendCard i.card i.cardFaults
        i.sent u node st with
    | mk b' r =>
      obtain ⟨hplain, hsession⟩ := plain_sendCard hst hsend
      cases r with
      | none => exact .trans hpersist (.trans hplain (hgive b'))
      | some st' =>
        simp only
        split
        · exact .trans hpersist hplain
        · exact .trans hpersist (.tail hplain (.persist _ u _ st' (hsession st' rfl)))

/-! ## What a step can do -/

theorem load_of_getActiveSession_none {b b' : Robot K} {g : GateInputs} {u : UserId}
    (h : b.getActiveSession g u = (b', none)) (hrestore : g.restoreFails = false)
    (hinvalidate : g.invalidateFails = false) : b'.db.loadStudySession u = none := by
  have hgone : ∀ b : Robot K, (b.invalidate u false).db.loadStudySession u = none := by
    intro b
    show (b.db.invalidateStaleStudySession u).loadStudySession u = none
    rw [Db.load_invalidate, if_pos rfl]
  unfold getActiveSession at h
  rw [hrestore, hinvalidate] at h
  cases hs : b.session u with
  | some st =>
    simp only [hs] at h
    split at h
    · obtain ⟨rfl, -⟩ := Prod.mk.inj h
      exact hgone _
    · cases (Prod.mk.inj h).2
  | none =>
    simp only [hs, Bool.false_eq_true, if_false] at h
    unfold loadSession at h
    cases hrow : b.db.loadStudySession u with
    | none =>
      simp only [hrow] at h
      obtain ⟨rfl, -⟩ := Prod.mk.inj h
      exact hrow
    | some row =>
      simp only [hrow] at h
      by_cases hdate : row.sessionDate = g.today
      · simp only [hdate, ne_eq, not_true_eq_false, if_false] at h
        cases hjson : row.stateJson with
        | null => simp only [hjson] at h; exact (Prod.mk.inj h).1 ▸ hgone b
        | junk => simp only [hjson] at h; exact (Prod.mk.inj h).1 ▸ hgone b
        | val json =>
          simp only [hjson] at h
          by_cases hempty : json.nodes = []
          · simp only [hempty, if_true] at h
            exact (Prod.mk.inj h).1 ▸ hgone b
          · simp only [hempty, if_false] at h
            split at h
            · exact (Prod.mk.inj h).1 ▸ hgone b
            · cases (Prod.mk.inj h).2
      · simp only [ne_eq, hdate, not_false_eq_true, if_true] at h
        exact (Prod.mk.inj h).1 ▸ hgone b

@[simp] theorem alreadyGraded_some (b : Robot K) (st : SessionState K) (u : UserId) (w : WordId)
    (activity : ActivityType) : b.alreadyGraded (some st) u w activity = true ↔
      w ∈ st.gradedWordIds ∨ b.db.isWordGraded u w activity = true := by
  unfold alreadyGraded
  rw [Option.any_some, Bool.or_eq_true, decide_eq_true_eq]

@[simp] theorem alreadyGraded_none (b : Robot K) (u : UserId) (w : WordId)
    (activity : ActivityType) :
    b.alreadyGraded none u w activity = b.db.isWordGraded u w activity := rfl

theorem rejectStaleDayTap_cases {b b' : Robot K} {t : TapInputs} {u : UserId} {rejected : Bool}
    (h : b.rejectStaleDayTap t u = (b', rejected)) :
    Plain b b' ∧ (rejected = false → b' = b) := by
  have hpass : (b, false) = (b', rejected) → Plain b b' ∧ (rejected = false → b' = b) := by
    intro h
    obtain ⟨rfl, rfl⟩ := Prod.mk.inj h
    exact ⟨.refl, fun _ => rfl⟩
  have hdrop : ((b.setSession u none).invalidate u t.rejectInvalidateFails, true) =
      (b', rejected) → Plain b b' ∧ (rejected = false → b' = b) := by
    intro h
    obtain ⟨rfl, rfl⟩ := Prod.mk.inj h
    exact ⟨.trans (.single (.drop b u)) (plain_invalidate _ u _), fun h => nomatch h⟩
  unfold rejectStaleDayTap at h
  split at h
  · exact hpass h
  · split at h
    · split at h
      · exact hdrop h
      · exact hpass h
    · exact hdrop h

inductive TapOutcome (b b' : Robot K) (activity : ActivityType) (t : TapInputs) (u : UserId) : Prop
  /-- It grades nothing. -/
  | idle (h : Plain b b')
  /-- The card's grade had been recorded: its advance is retried. -/
  | again (b₁ : Robot K) (st : SessionState K) (hplain : Plain b b₁) (hst : b₁.session u = some st)
      (hgraded : t.wordId ∈ st.gradedWordIds ∨ b₁.db.isWordGraded u t.wordId activity = true)
      (hactive : isActive st t.wordId activity = true ∨ st.nodes = [])
      (h : Plain (b₁.setSession u (some
        (if t.wordId ∈ st.gradedWordIds then st else appendGraded st t.wordId))) b')
  /-- It commits a grade the ledger did not have, of the active card if there is
  a session. -/
  | commit (b₁ : Robot K) (session : Option (SessionState K)) (db : Db K) (call : GradeCall)
      (hplain : Plain b b₁) (hgate : (b.getActiveSession t.gate u).2 = session)
      (hsession : b₁.session u = session)
      (hledger : b₁.db.isWordGraded u t.wordId activity = false)
      (hactive : ∀ st, session = some st →
        t.wordId ∉ st.gradedWordIds ∧ isActive st t.wordId activity = true)
      (hrow : session = none → t.gate.restoreFails = false → t.gate.invalidateFails = false →
        b₁.db.loadStudySession u = none)
      (hcommit : Committed b₁.db db u t.wordId activity call)
      (h : b' = finishTap
        { b₁ with db := db, history := .graded u t.wordId activity :: b₁.history } t u session)

section Grading
variable [Field K] [LinearOrder K] [FloorRing K] [Elementary K]

theorem gradeAndFinish_outcome {b b₀ : Robot K} {activity : ActivityType} {t : TapInputs}
    {u : UserId} {session : Option (SessionState K)} (hplain : Plain b b₀)
    (hgate : (b.getActiveSession t.gate u).2 = session) (hsession : b₀.session u = session)
    (hledger : b₀.db.isWordGraded u t.wordId activity = false)
    (hactive : ∀ st, session = some st →
      t.wordId ∉ st.gradedWordIds ∧ isActive st t.wordId activity = true)
    (hrow : session = none → t.gate.restoreFails = false → t.gate.invalidateFails = false →
      b₀.db.loadStudySession u = none) :
    TapOutcome b (b₀.gradeAndFinish activity t u session) activity t u := by
  simp only [gradeAndFinish]
  split
  · exact .idle hplain
  · have hpop : Plain b (b₀.popShownAt u t.wordId) := .trans hplain (plain_popShownAt b₀ u _)
    split
    · exact .idle hpop
    · split
      · rename_i db _ _ hok
        exact .commit _ session db _ hpop hgate (by simpa using hsession) hledger hactive hrow
          (committed_grade hok) rfl
      · exact .idle hpop

theorem gradeTap_outcome (b : Robot K) (activity : ActivityType) (t : TapInputs) (u : UserId) :
    TapOutcome b (b.gradeTap activity t u) activity t u := by
  unfold gradeTap
  extract_lets snapshot persistedStale
  cases hgate : b.getActiveSession t.gate u with
  | mk b₁ session =>
    obtain ⟨hplain, hsession, -⟩ := getActiveSession_cases hgate
    simp only
    split
    · exact .idle hplain
    · cases session with
      | some st =>
        simp only [alreadyGraded_some]
        split
        · -- recorded before: backfill and retry the advance
          rename_i hdup
          simp only [repeatTap]
          split
          · exact .idle (.trans hplain (plain_popShownAt _ u _))
          · exact .again (b₁.popShownAt u t.wordId) st (.trans hplain (plain_popShownAt _ u _))
              (by simpa using hsession) hdup.1 hdup.2 (plain_advance _ _ u)
        · rename_i hdup
          split
          · rename_i hact
            obtain ⟨hlist, hledger⟩ := not_or.mp fun h => hdup ⟨h, .inl hact⟩
            refine gradeAndFinish_outcome hplain (congrArg Prod.snd hgate) hsession
              (by simpa using hledger) ?_ (fun h => nomatch h)
            intro st' h
            obtain rfl := Option.some.inj h
            exact ⟨hlist, hact⟩
          · exact .idle hplain
      | none =>
        simp only
        split
        · exact .idle (.trans hplain (plain_popShownAt _ u _))
        · rename_i hledger
          rw [alreadyGraded_none] at hledger
          split
          · exact .idle (.trans hplain (plain_invalidate _ u _))
          · exact gradeAndFinish_outcome hplain (congrArg Prod.snd hgate) hsession
              (by simpa using hledger) (fun _ h => nomatch h)
              (fun _ h h' => load_of_getActiveSession_none hgate h h')

/-- **What a grade tap can do**, whatever fails. -/
theorem handleGrade_outcome (b : Robot K) (activity : ActivityType) (t : TapInputs) (u : UserId) :
    TapOutcome b (b.handleGrade activity t u) activity t u := by
  unfold handleGrade
  split
  · exact .idle .refl
  · cases hr : b.rejectStaleDayTap t u with
    | mk b' rejected =>
      obtain ⟨hplain, hno⟩ := rejectStaleDayTap_cases hr
      cases rejected with
      | true => exact .idle hplain
      | false =>
        obtain rfl : b' = b := hno rfl
        simp only
        split
        · exact .idle .refl
        · exact gradeTap_outcome b' activity t u

end Grading

section Queues
variable [Field K] [LinearOrder K] [Elementary K]

inductive DeleteOutcome (b b' : Robot K) (i : DeleteInputs) (u : UserId) : Prop
  /-- It deletes nothing. -/
  | idle (h : Plain b b')
  /-- The refill fails after the word is deleted. -/
  | deleted (b₁ : Robot K) (hplain : Plain b b₁) (h : b' = b₁.deleteWord u i.wordId)
  /-- The word of the active card is deleted and the list refilled. -/
  | refilled (b₁ : Robot K) (st st' : SessionState K) (hplain : Plain b b₁)
      (hresolve : b.resolveDelete i.gate u i.targetUserId i.wordId = (b₁, some st))
      (hclean : i.deleteFails = false ∧ i.refillFails = false)
      (hst : b₁.session u = some st) (hactive : st.nodes ≠ [])
      (hrefill : st' = (b₁.deleteWord u i.wordId).db.toWordStore.refillSessionFromDue i.zone i.now
        u st)
      (h : b' = ((b₁.deleteWord u i.wordId).setSession u (some st')).persistAndAdvance i.closing u
        st')

/-- **What a confirmed deletion can do**, whatever fails. -/
theorem handleSrsDeleteYes_outcome (b : Robot K) (i : DeleteInputs) (u : UserId) :
    DeleteOutcome b (b.handleSrsDeleteYes i u) i u := by
  unfold handleSrsDeleteYes
  split
  · rename_i b₁ hresolve
    exact .idle (resolveDelete_cases hresolve).1
  · rename_i b₁ st hresolve
    obtain ⟨hplain, hsession⟩ := resolveDelete_cases hresolve
    obtain ⟨hst, hactive⟩ := hsession st rfl
    cases hdelete : i.deleteFails with
    | true => exact .idle hplain
    | false =>
      cases hrefill : i.refillFails with
      | true => exact .deleted b₁ hplain rfl
      | false => exact .refilled b₁ st _ hplain hresolve ⟨hdelete, hrefill⟩ hst hactive rfl rfl

/-- What a press of the study button can do. -/
inductive StartOutcome (b b' : Robot K) (u : UserId) (today : Day) : Prop
  /-- It builds no session. -/
  | idle (h : Plain b b')
  /-- It clears the ledger and builds a session of different words. -/
  | fresh (b₁ : Robot K) (nodes : List SessionNode) (context : Option Tier3Context) (plan : String)
      (hplain : Plain b b₁) (hdistinct : DistinctWords nodes)
      (h : Plain ((b₁.clearGrades u).setSession u (some (freshState nodes context plan today))) b')

theorem buildFresh_outcome {b b₀ : Robot K} {i : StartInputs} {u : UserId} (hplain : Plain b b₀)
    (row : User) (consumed : Bool) :
    StartOutcome b (b₀.buildFresh i u row consumed) u i.today := by
  have hrelease : ∀ b' : Robot K, Plain b b' → Plain b (b'.releaseSlot i u consumed) :=
    fun b' h => .trans h (plain_releaseSlot b' i u consumed)
  have habandon : Plain b (b₀.abandon i u) := .trans hplain (plain_abandon b₀ i u)
  simp only [buildFresh]
  split
  · exact .idle (hrelease _ habandon)
  · split
    · split
      · exact .idle (hrelease _ habandon)
      · exact .idle (hrelease _ hplain)
    · split
      · exact .idle (hrelease _ habandon)
      · exact .fresh b₀ _ _ _ hplain (distinctWords_buildSessionList ..)
          (plain_deliverFirst _ i u consumed _ _)

/-- **What a press of the study button can do**, whatever fails. -/
theorem handleStudyStart_outcome (b : Robot K) (i : StartInputs) (u : UserId) :
    StartOutcome b (b.handleStudyStart i u) u i.today := by
  have hstart : ∀ (b₀ : Robot K) (row : User), Plain b b₀ →
      StartOutcome b (b₀.startFresh i u row) u i.today := by
    intro b₀ row hplain
    unfold startFresh
    split
    · exact buildFresh_outcome hplain row false
    · split
      · exact .idle hplain
      · split
        · exact .idle hplain
        · exact buildFresh_outcome (.tail hplain (.quota b₀ _)) row true
  unfold handleStudyStart
  split
  · exact .idle .refl
  · split
    · exact .idle .refl
    · split
      · exact .idle .refl
      · cases hgate : b.getActiveSession i.gate u with
        | mk b₀ r =>
          obtain ⟨hplain, hsession, -⟩ := getActiveSession_cases hgate
          cases r with
          | none => exact hstart b₀ _ hplain
          | some st =>
            simp only
            split
            · exact hstart b₀ _ hplain
            · exact .idle (.trans hplain (plain_resumeExistingSession hsession _))

end Queues

end Robot

end HamZaboon
