import HamZaboon.Session.Moves

/-! # Laws of every session

A session lives twice, in memory and in its row.  A property that only depends
on the cards, the total and the grades of a session, that survives the pop of
the head card and a smaller ledger, is a `SessionLaw`: plain moves keep it of
both copies of every user's session.  An advance that is settled leaves both
copies at the popped session; one that is not leaves one of them behind.
-/

namespace HamZaboon
open Library Robot

variable {K : Type}

/-- A property of a user's session, given the tables, that plain moves keep. -/
structure SessionLaw (Q : Db K → UserId → SessionState K → Prop) : Prop where
  present : ∀ db u st st', Presents st st' → Q db u st → Q db u st'
  pop : ∀ db u st, Q db u st → Q db u st.popNext
  ledger : ∀ (db db' : Db K) u st,
    (∀ w a, db'.isWordGraded u w a = true → db.isWordGraded u w a = true) →
      Q db u st → Q db' u st

def Robot.persisted (b : Robot K) (u : UserId) : Option (SessionState K) :=
  (b.db.loadStudySession u).bind fun row => row.stateJson.get?.map stateFromJson

/-- The property holds of the session of a user, in memory and persisted. -/
structure Holds (Q : Db K → UserId → SessionState K → Prop) (b : Robot K) (u : UserId) : Prop where
  memory : ∀ st, b.session u = some st → Q b.db u st
  row : ∀ st, b.persisted u = some st → Q b.db u st

theorem persisted_eq_some {b : Robot K} {u : UserId} {st : SessionState K} :
    b.persisted u = some st ↔ ∃ row json, b.db.loadStudySession u = some row ∧
      row.stateJson = .val json ∧ stateFromJson json = st := by
  unfold persisted
  constructor
  · intro h
    obtain ⟨row, hrow, h⟩ := Option.bind_eq_some_iff.mp h
    obtain ⟨json, hjson, rfl⟩ := Option.map_eq_some_iff.mp h
    cases hcolumn : row.stateJson with
    | null => rw [hcolumn] at hjson; cases hjson
    | junk => rw [hcolumn] at hjson; cases hjson
    | val json' =>
      rw [hcolumn] at hjson
      obtain rfl := Option.some.inj hjson
      exact ⟨row, json', hrow, hcolumn, rfl⟩
  · rintro ⟨row, json, hrow, hjson, rfl⟩
    simp [hrow, hjson, Column.get?]

/-! ## The persisted session after a write -/

theorem persisted_congr {b b' : Robot K} {u : UserId}
    (h : b'.db.loadStudySession u = b.db.loadStudySession u) : b'.persisted u = b.persisted u := by
  unfold persisted
  rw [h]

@[simp] theorem persisted_persist (b : Robot K) (u : UserId) (day : Day) (st : SessionState K)
    (v : UserId) : (b.persist u day st).persisted v =
      if u = v then some (stateFromJson (stateToJson st)) else b.persisted v := by
  have hload : (b.persist u day st).db.loadStudySession v =
      if u = v then some ⟨u, day, .val (stateToJson st)⟩ else b.db.loadStudySession v :=
    Db.load_saveStudySession b.db u day st v
  unfold persisted
  rw [hload]
  split <;> rfl

@[simp] theorem persisted_clearRow (b : Robot K) (u v : UserId) :
    (b.clearRow u false).persisted v = if u = v then none else b.persisted v := by
  have hload : (b.clearRow u false).db.loadStudySession v =
      if u = v then none else b.db.loadStudySession v := Db.load_clearStudySession b.db u v
  unfold persisted
  rw [hload]
  split <;> rfl

@[simp] theorem persisted_invalidate (b : Robot K) (u v : UserId) :
    (b.invalidate u false).persisted v = if u = v then none else b.persisted v := by
  have hload : (b.invalidate u false).db.loadStudySession v =
      if u = v then none else b.db.loadStudySession v := Db.load_invalidate b.db u v
  unfold persisted
  rw [hload]
  split <;> rfl

theorem isWordGraded_of_invalidate {b : Robot K} {u v : UserId} {w : WordId} {a : ActivityType}
    (h : (b.invalidate u false).db.isWordGraded v w a = true) : b.db.isWordGraded v w a = true := by
  have heq : (b.invalidate u false).db.isWordGraded v w a =
      (decide (u ≠ v) && b.db.isWordGraded v w a) := Db.isWordGraded_invalidate b.db u v w a
  rw [heq, Bool.and_eq_true] at h
  exact h.2

theorem persisted_commit {b : Robot K} {db : Db K} {u : UserId} {w : WordId} {a : ActivityType}
    {call : GradeCall} (hcommit : Committed b.db db u w a call) (history : List Commit)
    (v : UserId) : (⟨db, b.userData, history⟩ : Robot K).persisted v = b.persisted v := by
  refine persisted_congr ?_
  show db.loadStudySession v = b.db.loadStudySession v
  unfold Db.loadStudySession
  rw [hcommit.sessions]

theorem presents_fromJson_toJson (st : SessionState K) :
    Presents st (stateFromJson (stateToJson st)) := ⟨rfl, rfl, rfl⟩

/-! ## Plain moves keep a law -/

section
variable {Q : Db K → UserId → SessionState K → Prop} {b b' : Robot K} {v : UserId}

theorem Holds.frame (law : SessionLaw Q) (h : Holds Q b v) (hsession : b'.session v = b.session v)
    (hpersisted : b'.persisted v = b.persisted v)
    (hledger : ∀ w a, b'.db.isWordGraded v w a = true → b.db.isWordGraded v w a = true) :
    Holds Q b' v :=
  ⟨fun st hst => law.ledger _ _ v st hledger (h.memory st (hsession ▸ hst)),
    fun st hst => law.ledger _ _ v st hledger (h.row st (hpersisted ▸ hst))⟩

theorem Holds.setUser (h : Holds Q b v) (u : UserId) (data : UserData K)
    (hdata : u = v → ∀ st, data.currentSession = some st → Q b.db u st) :
    Holds Q (b.setUser u data) v := by
  refine ⟨fun st hst => ?_, h.row⟩
  rw [session_setUser] at hst
  split at hst
  · rename_i hv
    exact hv ▸ hdata hv.symm st hst
  · exact h.memory st hst

theorem Holds.persist (law : SessionLaw Q) (h : Holds Q b v) (u : UserId) (day : Day)
    {st : SessionState K} (hst : u = v → Q b.db u st) : Holds Q (b.persist u day st) v := by
  have hledger : ∀ w a, (b.persist u day st).db.isWordGraded v w a = true →
      b.db.isWordGraded v w a = true := fun w a hg => hg
  refine ⟨fun st' hst' => law.ledger _ _ v _ hledger (h.memory st' hst'), fun st' hst' => ?_⟩
  rw [persisted_persist] at hst'
  refine law.ledger _ _ v _ hledger ?_
  split at hst'
  · rename_i hv
    obtain rfl := Option.some.inj hst'
    exact hv ▸ law.present _ u st _ (presents_fromJson_toJson st) (hst hv)
  · exact h.row st' hst'

theorem Holds.clearRow (law : SessionLaw Q) (h : Holds Q b v) (u : UserId) :
    Holds Q (b.clearRow u false) v := by
  have hledger : ∀ w a, (b.clearRow u false).db.isWordGraded v w a = true →
      b.db.isWordGraded v w a = true := fun w a hg => hg
  refine ⟨fun st hst => law.ledger _ _ v _ hledger (h.memory st hst), fun st hst => ?_⟩
  rw [persisted_clearRow] at hst
  split at hst
  · cases hst
  · exact law.ledger _ _ v _ hledger (h.row st hst)

theorem Holds.invalidate (law : SessionLaw Q) (h : Holds Q b v) (u : UserId) :
    Holds Q (b.invalidate u false) v := by
  have hledger : ∀ w a, (b.invalidate u false).db.isWordGraded v w a = true →
      b.db.isWordGraded v w a = true := fun w a => isWordGraded_of_invalidate
  refine ⟨fun st hst => law.ledger _ _ v _ hledger (h.memory st hst), fun st hst => ?_⟩
  rw [persisted_invalidate] at hst
  split at hst
  · cases hst
  · exact law.ledger _ _ v _ hledger (h.row st hst)

/-- **Plain moves keep a law of every session.** -/
theorem Holds.plainMove (law : SessionLaw Q) (hmove : PlainMove b b') (h : Holds Q b v) :
    Holds Q b' v := by
  cases hmove with
  | context u data hdata => exact h.setUser u data fun hv st hst => hv ▸ h.memory st (hv ▸ hdata ▸ hst)
  | drop u => exact h.setUser u _ fun _ _ hst => nomatch hst
  | restore u row json hrow hjson =>
    refine h.setUser u _ fun hv st hst => ?_
    obtain rfl := Option.some.inj hst
    subst hv
    exact h.row _ (persisted_eq_some.mpr ⟨row, json, hrow, hjson, rfl⟩)
  | present u data st st' hst hdata hrenders =>
    refine h.setUser u data fun hv st'' hst'' => ?_
    obtain rfl := Option.some.inj (hdata.symm.trans hst'')
    subst hv
    exact law.present _ u st _ hrenders.toPresents (h.memory st hst)
  | pop u st hst =>
    refine h.setUser u _ fun hv st' hst' => ?_
    obtain rfl := Option.some.inj hst'
    subst hv
    exact law.pop _ u st (h.memory st hst)
  | persist u day st hst =>
    refine h.persist law u day fun hv => ?_
    subst hv
    exact h.memory st hst
  | clearRow u => exact h.clearRow law u
  | invalidate u => exact h.invalidate law u
  | quota q => exact h.frame law rfl rfl fun w a hg => hg

theorem Holds.plain (law : SessionLaw Q) (hplain : Plain b b') (h : Holds Q b v) : Holds Q b' v :=
  hplain.invariant (fun _ _ => Holds.plainMove law) h

theorem Holds.reveal (law : SessionLaw Q) (h : Holds Q b v) (i : RevealInputs) (u : UserId) :
    Holds Q (b.handleSrsReveal i u) v := by
  cases handleSrsReveal_outcome b i u with
  | idle hplain => exact h.plain law hplain
  | revealed b₁ st hplain hgate hst hcommits hsession hrest =>
    refine Holds.plain law hrest ((h.plain law hplain).setUser u _ fun hv st' hst' => ?_)
    obtain rfl := Option.some.inj hst'
    subst hv
    exact law.present _ u st _ ⟨rfl, rfl, rfl⟩ ((h.plain law hplain).memory st hst)

theorem Holds.clearGrades (law : SessionLaw Q) (h : Holds Q b v) (u : UserId) :
    Holds Q (b.clearGrades u) v := by
  refine h.frame law rfl rfl fun w a hg => ?_
  have heq : (b.clearGrades u).db.isWordGraded v w a =
      (decide (u ≠ v) && b.db.isWordGraded v w a) :=
    Db.isWordGraded_clearSessionGrades b.db u v w a
  rw [heq, Bool.and_eq_true] at hg
  exact hg.2

theorem Holds.deleteWord (law : SessionLaw Q) (h : Holds Q b v) (u : UserId) (w : WordId) :
    Holds Q (b.deleteWord u w) v := by
  obtain ⟨hledger, hsessions⟩ := Db.deleteSavedWord_frame b.db w u
  refine h.frame law rfl (persisted_congr ?_) fun x a hg => ?_
  · show (b.db.deleteSavedWord w u).1.loadStudySession v = b.db.loadStudySession v
    unfold Db.loadStudySession
    rw [hsessions]
  · unfold Db.isWordGraded at hg ⊢
    exact hledger ▸ hg

end

/-- The bot before any session is built, over any words and users. -/
def noSession (db : Db K) : Robot K where
  db := { db with studySessions := .empty }
  userData := fun _ => {}
  history := []

theorem persisted_noSession (db : Db K) (u : UserId) : (noSession db).persisted u = none := rfl

theorem holds_noSession (Q : Db K → UserId → SessionState K → Prop) (db : Db K) (u : UserId) :
    Holds Q (noSession db) u :=
  ⟨fun _ h => (nomatch h), fun _ h => (nomatch (persisted_noSession db u).symm.trans h)⟩

/-! ## Settled advances -/

namespace Robot

/-- Nothing keeps the advance of `st` from moving both copies of the session: a
session of another day is invalidated, the next card is built, shown and
persisted, or a session without one is cleared. -/
def AdvanceInputs.Settles (a : AdvanceInputs) (st : SessionState K) : Prop :=
  if st.isStale a.gate.today then a.gate.invalidateFails = false
  else if 2 ≤ st.nodes.length then
    a.cardFaults.anyRead = false ∧ a.edit.shown = true ∧ a.persistFails = false
  else a.edit ≠ .failed ∧ a.clearFails = false

instance (a : AdvanceInputs) (st : SessionState K) : Decidable (a.Settles st) :=
  inferInstanceAs (Decidable (if st.isStale a.gate.today then a.gate.invalidateFails = false
    else if 2 ≤ st.nodes.length then
      a.cardFaults.anyRead = false ∧ a.edit.shown = true ∧ a.persistFails = false
    else a.edit ≠ .failed ∧ a.clearFails = false))

theorem advance_of_session {b : Robot K} {u : UserId} {st : SessionState K}
    (hst : b.session u = some st) (a : AdvanceInputs) :
    b.advance a u = if st.isStale a.gate.today
      then (b.setSession u none).invalidate u a.gate.invalidateFails else b.advanceFrom a u st := by
  unfold advance getActiveSession
  simp only [hst]
  by_cases hstale : st.isStale a.gate.today = true
  · rw [if_pos hstale, if_pos hstale]
  · rw [if_neg hstale, if_neg hstale]

/-- **A settled advance** leaves no copy of a session in front of the popped
card. -/
theorem holds_advance {Q : Db K → UserId → SessionState K → Prop} (law : SessionLaw Q)
    {b : Robot K} {a : AdvanceInputs} {u : UserId} {st : SessionState K}
    (hst : b.session u = some st) (hpop : Q b.db u st.popNext) (hsettles : a.Settles st) :
    Holds Q (b.advance a u) u := by
  have hgone : ∀ b' : Robot K, b'.session u = none → b'.persisted u = none → Holds Q b' u :=
    fun b' hs hp => ⟨fun st h => (nomatch hs.symm.trans h), fun st h => (nomatch hp.symm.trans h)⟩
  unfold AdvanceInputs.Settles at hsettles
  rw [advance_of_session hst]
  split
  · rename_i hstale
    rw [if_pos hstale] at hsettles
    rw [hsettles]
    exact hgone _ (by simp) (by simp)
  · rename_i hfresh
    rw [if_neg hfresh] at hsettles
    cases advanceFrom_outcome b a u st with
    | unbuilt screen hnext hreads hrenders h =>
      rw [if_pos hnext, hreads] at hsettles
      exact nomatch hsettles.1
    | shown screen hnext hreads hedit hrenders h =>
      rw [if_pos hnext] at hsettles
      have hscreen : Q b.db u screen.state := law.present _ u _ _ hrenders.toPresents hpop
      rw [h, if_neg (by simp [hsettles.2.2])]
      refine ⟨fun st' hst' => ?_, fun st' hst' => ?_⟩
      · rw [session_persist, session_setScreen, if_pos rfl] at hst'
        obtain rfl := Option.some.inj hst'
        exact law.ledger b.db _ u _ (fun _ _ hg => hg) hscreen
      · rw [persisted_persist, if_pos rfl] at hst'
        obtain rfl := Option.some.inj hst'
        exact law.ledger b.db _ u _ (fun _ _ hg => hg)
          (law.present _ u _ _ (presents_fromJson_toJson _) hscreen)
    | undone data st' hcard hscreen hedit hdata hsame h =>
      split at hsettles
      · rw [hsettles.2.1] at hedit
        cases hedit
      · have hrefused := hscreen (by omega)
        cases hresult : a.edit with
        | done => rw [hresult] at hedit; cases hedit
        | notModified => rw [hresult] at hedit; cases hedit
        | badRequest => exact absurd hresult hrefused
        | failed => exact absurd hresult hsettles.1
    | ended hlast hedit h =>
      rw [if_neg (by omega)] at hsettles
      rw [h, hsettles.2]
      exact hgone _ (by simp) (by simp)

/-- **An advance that is not settled** leaves a copy of the session as it was
before the pop, if its row was written before. -/
theorem behind_advance {b : Robot K} {a : AdvanceInputs} {u : UserId} {st row : SessionState K}
    (hst : b.session u = some st) (hrow : b.persisted u = some row) (hpresents : Presents st row)
    (hsettles : ¬ a.Settles st) :
    ∃ st', Presents st st' ∧
      ((b.advance a u).session u = some st' ∨ (b.advance a u).persisted u = some st') := by
  unfold AdvanceInputs.Settles at hsettles
  rw [advance_of_session hst]
  split
  · rename_i hstale
    rw [if_pos hstale] at hsettles
    rw [Bool.eq_true_of_not_eq_false hsettles]
    exact ⟨row, hpresents, .inr hrow⟩
  · rename_i hfresh
    rw [if_neg hfresh] at hsettles
    cases advanceFrom_outcome b a u st with
    | unbuilt screen hnext hreads _ h =>
      rw [h]
      exact ⟨row, hpresents, .inr hrow⟩
    | shown screen hnext hreads hedit _ h =>
      rw [if_pos hnext] at hsettles
      have hpersist : a.persistFails = true := by
        cases hp : a.persistFails with
        | true => rfl
        | false => exact absurd ⟨hreads, hedit, hp⟩ hsettles
      rw [h, if_pos hpersist]
      exact ⟨row, hpresents, .inr hrow⟩
    | undone data st' hcard hscreen hedit hdata hsame h =>
      refine ⟨st', hsame.toPresents, .inl ?_⟩
      rw [h, session_setUser, if_pos rfl, hdata]
    | ended hlast hedit h =>
      rw [if_neg (by omega)] at hsettles
      have hclear : a.clearFails = true := by
        cases hc : a.clearFails with
        | true => rfl
        | false => exact absurd ⟨hedit, hc⟩ hsettles
      rw [h, hclear]
      exact ⟨row, hpresents, .inr hrow⟩

/-- The session is persisted, the tap answered, and the advance settled. -/
def ClosingInputs.Settles (c : ClosingInputs) (st : SessionState K) : Prop :=
  c.persistFails = false ∧ c.noticeFails = false ∧ c.advance.Settles st

instance (c : ClosingInputs) (st : SessionState K) : Decidable (c.Settles st) :=
  inferInstanceAs (Decidable (_ ∧ _ ∧ _))

theorem holds_persistAndAdvance {Q : Db K → UserId → SessionState K → Prop} (law : SessionLaw Q)
    {b : Robot K} {c : ClosingInputs} {u : UserId} {st : SessionState K}
    (hst : b.session u = some st) (hpop : Q b.db u st.popNext) (hsettles : c.Settles st) :
    Holds Q (b.persistAndAdvance c u st) u := by
  obtain ⟨hpersist, hnotice, hadvance⟩ := hsettles
  unfold persistAndAdvance
  simp only [hpersist, hnotice, Bool.false_eq_true, if_false]
  exact holds_advance law hst (law.ledger b.db _ u _ (fun _ _ hg => hg) hpop) hadvance

theorem behind_persistAndAdvance {b : Robot K} {c : ClosingInputs} {u : UserId}
    {st : SessionState K} (hst : b.session u = some st) (hsettles : ¬ c.Settles st) :
    ∃ st', Presents st st' ∧ ((b.persistAndAdvance c u st).session u = some st' ∨
      (b.persistAndAdvance c u st).persisted u = some st') := by
  unfold persistAndAdvance
  cases hpersist : c.persistFails with
  | true => exact ⟨st, .rfl, .inl hst⟩
  | false =>
    cases hnotice : c.noticeFails with
    | true => exact ⟨st, .rfl, .inl hst⟩
    | false =>
      have hrow : (b.persist u (st.sessionDate.getD c.persistDay) st).persisted u =
          some (stateFromJson (stateToJson st)) := by simp
      exact behind_advance hst hrow (presents_fromJson_toJson st)
        fun hadvance => hsettles ⟨hpersist, hnotice, hadvance⟩

end Robot

end HamZaboon
