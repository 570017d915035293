import HamZaboon.Session.Payload
import HamZaboon.Session.Progress
import Mathlib

/-! # Which session states survive persistence

A session in memory round-trips through its row exactly when the decoder accepts
its frozen prompt.  Renders, advances, refills and undone steps keep it so; a
reveal marks whatever is frozen as revealed, also where no prompt type is, which
the decoder takes for a stray reveal and drops.
-/

namespace HamZaboon
open Library Robot

variable {K : Type} {b b' : Robot K} {v : UserId}

/-- Every session in memory has a frozen prompt the decoder accepts. -/
def AcceptedInMemory (b : Robot K) (v : UserId) : Prop :=
  ∀ st, b.session v = some st → st.frozen.Accepted

theorem accepted_stateFromJson (json : SessionJson K) : (stateFromJson json).frozen.Accepted := by
  constructor
  · intro h
    have hnone : json.activePromptType.get? = none := h
    simp [stateFromJson, frozenFromJson, hnone]
  · intro h
    simp only [stateFromJson, frozenFromJson, Bool.and_eq_true] at h ⊢
    exact ⟨Option.isSome_iff_ne_none.mp h.1.2, Option.isSome_iff_ne_none.mp h.2⟩

theorem accepted_persisted {st : SessionState K} (h : b.persisted v = some st) :
    st.frozen.Accepted := by
  obtain ⟨row, json, -, -, rfl⟩ := persisted_eq_some.mp h
  exact accepted_stateFromJson json

theorem accepted_revealState_iff (st : SessionState K) (w : WordId) :
    (revealState st w).frozen.Accepted ↔ st.frozen.promptType ≠ none := by
  constructor
  · exact fun h => (h.reveal rfl).1
  · exact fun h => ⟨fun hnone => absurd hnone h, fun _ => ⟨h, Option.some_ne_none w⟩⟩

theorem acceptedInMemory_restart (db : Db K) (history : List Commit) (v : UserId) :
    AcceptedInMemory ⟨db, fun _ => {}, history⟩ v := fun _ hst => nomatch hst

/-! ## What keeps frozen prompts accepted -/

theorem AcceptedInMemory.setUser (h : AcceptedInMemory b v) (u : UserId) (data : UserData K)
    (hdata : u = v → ∀ st, data.currentSession = some st → st.frozen.Accepted) :
    AcceptedInMemory (b.setUser u data) v := by
  intro st hst
  rw [session_setUser] at hst
  split at hst
  · rename_i hv
    exact hdata hv.symm st hst
  · exact h st hst

theorem AcceptedInMemory.plainMove (hmove : PlainMove b b') (h : AcceptedInMemory b v) :
    AcceptedInMemory b' v := by
  cases hmove with
  | context u data hdata =>
    exact h.setUser u data fun hv st hst => h st (hv ▸ hdata ▸ hst)
  | drop u => exact h.setUser u _ fun _ _ hst => nomatch hst
  | restore u row json hrow hjson =>
    refine h.setUser u _ fun hv st hst => ?_
    obtain rfl := Option.some.inj hst
    exact accepted_stateFromJson json
  | present u data st st' hst hdata hrenders =>
    refine h.setUser u data fun hv st'' hst'' => ?_
    obtain rfl := Option.some.inj (hdata.symm.trans hst'')
    subst hv
    exact hrenders.accepted (h st hst)
  | pop u st hst =>
    refine h.setUser u _ fun hv st' hst' => ?_
    obtain rfl := Option.some.inj hst'
    exact accepted_empty
  | persist u day st hst => exact h
  | clearRow u => exact h
  | invalidate u => exact h
  | quota q => exact h

theorem AcceptedInMemory.plain (hplain : Plain b b') (h : AcceptedInMemory b v) :
    AcceptedInMemory b' v :=
  hplain.invariant (fun _ _ => AcceptedInMemory.plainMove) h

theorem AcceptedInMemory.setSession (h : AcceptedInMemory b v) {u : UserId}
    {st st' : SessionState K} (hst : b.session u = some st) (hfrozen : st'.frozen = st.frozen) :
    AcceptedInMemory (b.setSession u (some st')) v := by
  refine h.setUser u _ fun hv st'' hst'' => ?_
  obtain rfl := Option.some.inj hst''
  subst hv
  rw [hfrozen]
  exact h st hst

theorem frozen_refill [Field K] [LinearOrder K] [Elementary K] (s : WordStore K) (zone : Zone)
    (now : Instant) (u : UserId) (st : SessionState K) :
    (s.refillSessionFromDue zone now u st).frozen = st.frozen := by
  unfold WordStore.refillSessionFromDue
  split <;> rfl

theorem session_handleSrsReveal {b₁ : Robot K} {i : RevealInputs} {u : UserId}
    {st : SessionState K} (hgate : b.getActiveSession i.gate u = (b₁, some st))
    (h : i.Commits b₁ u st) :
    (b.handleSrsReveal i u).session u = some (revealState st i.wordId) := by
  obtain ⟨hold, hnew⟩ := h.new
  unfold handleSrsReveal
  rw [if_neg (by simp [h.target]), hgate]
  simp only [h.active, h.reads, h.persist, h.edit]
  rw [if_neg (by simp [hold, hnew, h.message])]
  simp

section Steps
variable [Field K] [LinearOrder K] [FloorRing K] [Elementary K]

/-- A reveal that commits finds a frozen prompt type. -/
def RevealsPrompt (b : Robot K) : Event K → Prop
  | .reveal u i => ∀ b₁ st, b.getActiveSession i.gate u = (b₁, some st) → i.Commits b₁ u st →
      st.frozen.promptType ≠ none
  | _ => True

theorem AcceptedInMemory.handleGrade (h : AcceptedInMemory b v) (activity : ActivityType)
    (t : TapInputs) (u : UserId) : AcceptedInMemory (b.handleGrade activity t u) v := by
  cases handleGrade_outcome b activity t u with
  | idle hplain => exact h.plain hplain
  | again b₁ st hplain hst hgraded hactive hrest =>
    refine AcceptedInMemory.plain hrest ((h.plain hplain).setSession hst ?_)
    split <;> rfl
  | commit b₁ session db call hplain hgate hsession hledger hactive hrow hcommit heq =>
    have h₁ : AcceptedInMemory b₁ v := h.plain hplain
    have hdone : AcceptedInMemory
        { b₁ with db := db, history := .graded u t.wordId activity :: b₁.history } v :=
      h₁
    rw [heq]
    cases session with
    | none => exact hdone.plain (plain_finishTap_none _ t u)
    | some st =>
      exact AcceptedInMemory.plain (plain_finishTap_some _ t u st) (hdone.setSession hsession rfl)

theorem AcceptedInMemory.step (h : AcceptedInMemory b v) {e : Event K} (hC : RevealsPrompt b e) :
    AcceptedInMemory (b.step e) v := by
  cases e with
  | start u i =>
    cases handleStudyStart_outcome b i u with
    | idle hplain => exact h.plain hplain
    | fresh b₁ nodes context plan hplain hdistinct hrest =>
      refine AcceptedInMemory.plain hrest (AcceptedInMemory.setUser (h.plain hplain) u _ ?_)
      intro hv st hst
      obtain rfl := Option.some.inj hst
      exact accepted_empty
  | review u t => exact h.handleGrade .srsReview t u
  | firstExposure u t => exact h.handleGrade .firstExposure t u
  | reveal u i =>
    cases handleSrsReveal_outcome b i u with
    | idle hplain => exact h.plain hplain
    | revealed b₁ st hplain hgate hst hcommits hsession hrest =>
      refine AcceptedInMemory.plain hrest ((h.plain hplain).setUser u _ ?_)
      intro hv st' hst'
      obtain rfl := Option.some.inj hst'
      exact (accepted_revealState_iff st i.wordId).mpr (hC b₁ st hgate hcommits)
  | deleteKeyboard u g target w => exact h.plain (plain_handleSrsDeleteKeyboard b g u target w)
  | deleteYes u i =>
    show AcceptedInMemory (b.handleSrsDeleteYes i u) v
    cases handleSrsDeleteYes_outcome b i u with
    | idle hplain => exact h.plain hplain
    | deleted b₁ hplain heq =>
      have h₁ : AcceptedInMemory b₁ v := h.plain hplain
      rw [heq]
      exact h₁
    | refilled b₁ st st' hplain hresolve hclean hst hactive hrefill heq =>
      have h₁ : AcceptedInMemory b₁ v := h.plain hplain
      have hdel : AcceptedInMemory (b₁.deleteWord u i.wordId) v := h₁
      have hfrozen : st'.frozen = st.frozen := by
        rw [hrefill]
        exact frozen_refill _ _ _ _ _
      rw [heq]
      exact AcceptedInMemory.plain (plain_persistAndAdvance (by simp) i.closing)
        (hdel.setSession hst hfrozen)
  | restart => exact acceptedInMemory_restart b.db b.history v
  | words savedWords => exact h

theorem revealsPrompt_of_roundTrips {T : PythonLib K} {e : Event K}
    (hafter : ∀ u, Holds (fun _ _ st => RoundTrips T st) (b.step e) u) : RevealsPrompt b e := by
  cases e with
  | reveal u i =>
    intro b₁ st hgate hcommits
    have hrt := (hafter u).memory _ (session_handleSrsReveal hgate hcommits)
    exact (accepted_revealState_iff st i.wordId).mp ((roundTrips_iff T _).mp hrt)
  | start => trivial
  | review => trivial
  | firstExposure => trivial
  | deleteKeyboard => trivial
  | deleteYes => trivial
  | restart => trivial
  | words => trivial

/-- **When session states survive persistence.**  From any database, whatever the
handlers do, every session in memory and every persisted one is what decoding its
JSON gives back, exactly as long as every reveal that commits finds a frozen
prompt type; and what a payload decodes to always survives the codec. -/
theorem session_roundTrips_iff (T : PythonLib K) (db : Db K) (events : List (Event K)) :
    (Always Robot.step (fun b => ∀ u, Holds (fun _ _ st => RoundTrips T st) b u)
        ⟨db, fun _ => {}, []⟩ events ↔
      Meets Robot.step RevealsPrompt ⟨db, fun _ => {}, []⟩ events) ∧
    ∀ (p : Json K) (s : PyState K), stateOfPayload T p = some s →
      stateOfPayload T s.payload = some s := by
  refine ⟨?_, fun _ _ => stateOfPayload_idempotent⟩
  refine always_iff_meets Robot.step (I := fun b => ∀ v, AcceptedInMemory b v) ?_
    (fun _ _ h hC v => (h v).step hC) (fun _ _ _ hafter => revealsPrompt_of_roundTrips hafter)
    (acceptedInMemory_restart db []) events
  intro b h u
  exact ⟨fun st hst => (roundTrips_iff T st).mpr (h u st hst),
    fun st hst => (roundTrips_iff T st).mpr (accepted_persisted hst)⟩

end Steps

/-! A card in immediate mode, and a tap on the reveal button of an older message. -/

section Immediate

local instance elementaryImmediate : Elementary ℚ := .firstOrder ℚ

/-- Python over exact floats; the session is of day 0. -/
def exactPython : PythonLib ℚ where
  intOfText := String.toInt?
  intOfFloat x := some (some (if 0 ≤ x then ⌊x⌋ else ⌈x⌉))
  floatOfText s := s.toInt?.map (fun n => (n : ℚ))
  floatOfInt n := some n
  truthyFloat x := x ≠ 0
  isoformat _ := "1970-01-01"
  intOfText_toString := Int.toInt?_repr
  isoformat_ne_empty _ := by decide

def revealFirst : RevealInputs where
  targetUserId := 1
  wordId := 1
  gate := { today := 0 }
  persistDay := 0

/-- The reveal of a card without a frozen prompt does not survive. -/
theorem reveal_without_prompt :
    let events : List (Event ℚ) := [.start 1 startOneCard, .reveal 1 revealFirst]
    ¬ Always Robot.step (fun b => ∀ u, Holds (fun _ _ st => RoundTrips exactPython st) b u)
      ⟨twoWords, fun _ => {}, []⟩ events := by
  intro events halways
  have hfrozen : ((run Robot.step ⟨twoWords, fun _ => {}, []⟩ events).session 1).map (·.frozen) =
      some ⟨true, none, some 1⟩ := by decide +kernel
  obtain ⟨st, hst, heq⟩ := Option.map_eq_some_iff.mp hfrozen
  have haccepted := (roundTrips_iff exactPython st).mp ((halways.last _ 1).memory st hst)
  rw [heq] at haccepted
  exact (haccepted.reveal rfl).1 rfl

end Immediate

end HamZaboon
