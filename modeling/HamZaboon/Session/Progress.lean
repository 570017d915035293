import HamZaboon.Session.Laws
import HamZaboon.Library.Runs
import Mathlib.Algebra.Order.Ring.Rat
import Mathlib.Data.Rat.Floor

/-! # The progress counter

A card is numbered by the total of the session and by what is left of its list.
An advance only shortens the list.  A deletion first appends a refill and then
pops, so between the two the list of a session that shows its first card is one
longer than its total; whatever fails in between leaves the session so.
-/

namespace HamZaboon
open Library Robot

variable {K : Type}

/-- The list is no longer than the total. -/
def Within (_ : Db K) (_ : UserId) (st : SessionState K) : Prop :=
  (st.nodes.length : Int) ≤ st.totalCards

/-- The number of the card is one of the numbers up to the total. -/
def InRange (_ : Db K) (_ : UserId) (st : SessionState K) : Prop :=
  st.nodes ≠ [] →
    1 ≤ st.cardNumber ∧ st.cardNumber ≤ st.totalCards ∧ (st.nodes.length : Int) ≤ st.totalCards

theorem within_law : SessionLaw (Within (K := K)) where
  present _ _ st st' h hwithin := by
    unfold Within at hwithin ⊢
    rw [h.nodes, h.total]
    exact hwithin
  pop _ _ st hwithin := by
    have htail : st.popNext.nodes.length = st.nodes.length - 1 := List.length_tail
    have htotal : st.popNext.totalCards = st.totalCards := rfl
    unfold Within at hwithin ⊢
    omega
  ledger _ _ _ _ _ hwithin := hwithin

theorem Within.inRange {db : Db K} {u : UserId} {st : SessionState K} (h : Within db u st) :
    InRange db u st := by
  intro hne
  have hpos := List.length_pos_of_ne_nil hne
  unfold Within at h
  simp only [SessionState.cardNumber]
  omega

/-! ## What keeps lists within their totals -/

section Queues
variable [Field K] [LinearOrder K] [Elementary K] {b : Robot K}

/-- A deletion that refills a session on its first card is settled. -/
def RefillSettles (b : Robot K) : Event K → Prop
  | .deleteYes u i =>
      ∀ b₁ st node, b.resolveDelete i.gate u i.targetUserId i.wordId = (b₁, some st) →
        (st.nodes.length : Int) = st.totalCards → i.deleteFails = false → i.refillFails = false →
          (b₁.deleteWord u i.wordId).db.toWordStore.refillNode i.zone i.now u st = some node →
            i.closing.Settles (st.append node)
  | _ => True

theorem holds_handleStudyStart {v : UserId} (h : Holds Within b v) (i : StartInputs) (u : UserId) :
    Holds Within (b.handleStudyStart i u) v := by
  cases handleStudyStart_outcome b i u with
  | idle hplain => exact h.plain within_law hplain
  | fresh b₁ nodes context plan hplain hdistinct hrest =>
    refine Holds.plain within_law hrest
      (((h.plain within_law hplain).clearGrades within_law u).setUser u _ fun hv st hst => ?_)
    obtain rfl := Option.some.inj hst
    exact le_refl (nodes.length : Int)

theorem holds_handleSrsDeleteYes {v : UserId} (h : Holds Within b v) {i : DeleteInputs}
    {u : UserId} (hsettles : RefillSettles b (.deleteYes u i)) :
    Holds Within (b.handleSrsDeleteYes i u) v := by
  cases handleSrsDeleteYes_outcome b i u with
  | idle hplain => exact h.plain within_law hplain
  | deleted b₁ hplain heq =>
    rw [heq]
    exact (h.plain within_law hplain).deleteWord within_law u i.wordId
  | refilled b₁ st st' hplain hresolve hclean hst hactive hrefill heq =>
    have h₁ := h.plain within_law hplain
    have hdel := h₁.deleteWord within_law u i.wordId
    rw [heq]
    by_cases hkept : u = v ∧ ¬ Within b.db u st'
    · -- the refill made the list one longer than the total
      obtain ⟨rfl, hover⟩ := hkept
      have hwithin := h₁.memory st hst
      unfold Within at hwithin hover
      unfold WordStore.refillSessionFromDue at hrefill
      cases hnode : (b₁.deleteWord u i.wordId).db.toWordStore.refillNode i.zone i.now u st with
      | none =>
        rw [hnode] at hrefill
        exact absurd (hrefill ▸ hwithin) hover
      | some node =>
        rw [hnode] at hrefill
        have hlen : st'.nodes.length = st.nodes.length + 1 := by
          rw [hrefill]
          exact List.length_append
        have htotal : st'.totalCards = st.totalCards := by rw [hrefill]; rfl
        have hfull : (st.nodes.length : Int) = st.totalCards := by omega
        refine holds_persistAndAdvance within_law (by simp) ?_
          (hrefill ▸ hsettles b₁ st node hresolve hfull hclean.1 hclean.2 hnode)
        have htail : st'.popNext.nodes.length = st'.nodes.length - 1 := List.length_tail
        have htotal' : st'.popNext.totalCards = st'.totalCards := rfl
        unfold Within
        omega
    · refine Holds.plain within_law (plain_persistAndAdvance (by simp) i.closing)
        (hdel.setUser u _ fun hv st'' hst'' => ?_)
      obtain rfl := Option.some.inj hst''
      by_contra hover
      exact hkept ⟨hv, hover⟩

end Queues

section Steps
variable [Field K] [LinearOrder K] [FloorRing K] [Elementary K] {b : Robot K}

theorem holds_handleGrade {v : UserId} (h : Holds Within b v) (activity : ActivityType)
    (t : TapInputs) (u : UserId) : Holds Within (b.handleGrade activity t u) v := by
  cases handleGrade_outcome b activity t u with
  | idle hplain => exact h.plain within_law hplain
  | again b₁ st hplain hst hgraded hactive hrest =>
    have h₁ := h.plain within_law hplain
    refine Holds.plain within_law hrest (h₁.setUser u _ fun hv st' hst' => ?_)
    obtain rfl := Option.some.inj hst'
    subst hv
    have hwithin := h₁.memory st hst
    split
    · exact hwithin
    · exact hwithin
  | commit b₁ session db call hplain hgate hsession hledger hactive hrow hcommit heq =>
    have h₁ := h.plain within_law hplain
    have hdone : Holds Within
        { b₁ with db := db, history := .graded u t.wordId activity :: b₁.history } v :=
      ⟨h₁.memory, fun st hst => h₁.row st (persisted_commit hcommit _ v ▸ hst)⟩
    rw [heq]
    cases session with
    | none => exact hdone.plain within_law (plain_finishTap_none _ t u)
    | some st =>
      refine Holds.plain within_law (plain_finishTap_some _ t u st)
        (hdone.setUser u _ fun hv st' hst' => ?_)
      obtain rfl := Option.some.inj hst'
      subst hv
      exact h₁.memory st hsession

/-- **A step whose refill is settled keeps every list within its total.** -/
theorem within_step {v : UserId} (h : Holds Within b v) {e : Event K} (hsettles : RefillSettles b e) :
    Holds Within (b.step e) v := by
  cases e with
  | start u i => exact holds_handleStudyStart h i u
  | review u t => exact holds_handleGrade h .srsReview t u
  | firstExposure u t => exact holds_handleGrade h .firstExposure t u
  | reveal u i => exact h.reveal within_law i u
  | deleteKeyboard u g target w =>
    exact h.plain within_law (plain_handleSrsDeleteKeyboard b g u target w)
  | deleteYes u i => exact holds_handleSrsDeleteYes h hsettles
  | restart => exact ⟨fun st hst => (nomatch hst), h.row⟩
  | words savedWords => exact h.frame within_law rfl rfl fun _ _ hg => hg

theorem refillSettles_of_inRange {e : Event K} (hafter : ∀ v, Holds InRange (b.step e) v) : RefillSettles b e := by
  cases e with
  | deleteYes u i =>
    intro b₁ st node hresolve hfull hdelete hrefillFails hnode
    by_contra hsettles
    have hrefill : (b₁.deleteWord u i.wordId).db.toWordStore.refillSessionFromDue i.zone i.now u
        st = st.append node := by
      unfold WordStore.refillSessionFromDue
      rw [hnode]
    have heq : b.step (.deleteYes u i) =
        ((b₁.deleteWord u i.wordId).setSession u (some (st.append node))).persistAndAdvance
          i.closing u (st.append node) := by
      show b.handleSrsDeleteYes i u = _
      simp only [handleSrsDeleteYes, hresolve, hdelete, hrefillFails, hrefill, Bool.false_eq_true,
        if_false]
    obtain ⟨st', hpresents, hbehind⟩ := behind_persistAndAdvance
      (by simp : ((b₁.deleteWord u i.wordId).setSession u (some (st.append node))).session u =
        some (st.append node)) hsettles
    rw [← heq] at hbehind
    have hlen : st'.nodes.length = st.nodes.length + 1 := by
      rw [hpresents.nodes]
      exact List.length_append
    have htotal : st'.totalCards = st.totalCards := hpresents.total
    have hrange : InRange (b.step (.deleteYes u i)).db u st' :=
      hbehind.elim ((hafter u).memory st') ((hafter u).row st')
    have hne : st'.nodes ≠ [] := fun hnil => by
      rw [hnil, List.length_nil] at hlen
      omega
    have hover := (hrange hne).2.2
    omega
  | start => trivial
  | review => trivial
  | firstExposure => trivial
  | reveal => trivial
  | deleteKeyboard => trivial
  | restart => trivial
  | words => trivial

/-- **When the progress counter stays in range.**  From a bot without sessions,
whatever is built, graded, deleted, refilled, retried and resumed, every session
in memory and every persisted one shows a card number between one and its total
exactly as long as every refill of a session on its first card is settled. -/
theorem progress_inRange_iff (db : Db K) (events : List (Event K)) :
    Always Robot.step (fun b => ∀ u, Holds InRange b u) (noSession db) events ↔
      Meets Robot.step RefillSettles (noSession db) events :=
  always_iff_meets Robot.step (I := fun b => ∀ u, Holds Within b u)
    (fun _ h u => ⟨fun st hst => ((h u).memory st hst).inRange,
      fun st hst => ((h u).row st hst).inRange⟩)
    (fun _ _ h hsettles u => within_step (h u) hsettles)
    (fun _ _ _ => refillSettles_of_inRange)
    (fun u => holds_noSession Within db u) events

end Steps

/-! A session of one card, whose word is deleted while another word waits. -/

section OneCard

local instance : Elementary ℚ := .firstOrder ℚ

/-- A zone without an offset. -/
def utc : Zone := ⟨fun t => t / dayMicros, fun d => d * dayMicros⟩

def learner : User where
  userId := 1
  onboarded := true
  plan := some "free"
  targetLang := some "en"
  goal := none
  level := none
  streak := none
  lastActiveDate := none
  wordsAskedToday := none
  wordsAskedDate := none
  grammarTipsAskedToday := none
  grammarTipsAskedDate := none

def twoWords : Db ℚ where
  savedWords :=
    ((SerialTable.empty.insert (newSavedWord 1 "run" "en" "run" .null 0 true 0) fun _ => rfl).insert
      (newSavedWord 1 "walk" "en" "walk" .null 0 true 1) fun _ => rfl)
  reviewEvents := .empty
  slots := .empty
  users := KeyedTable.empty.insertOrIgnore learner
  gradeLedger := .empty
  studySessions := .empty

/-- The settings of the learner. -/
def immediateCards : CardInputs :=
  ⟨.ascii, fun _ => 0, 0, 1, .immediate, .immediate, ⟨true, true, true, true, true, true⟩⟩

/-- A press of the study button on day 0, for a session of one card. -/
def startOneCard : StartInputs where
  zone := utc
  today := 0
  gate := { today := 0 }
  resume := { card := immediateCards, sent := none, persistDay := 0 }
  slotDay := 0
  limit := 3
  maxNodes := 1
  now := 0
  card := immediateCards
  sent := some 7
  releaseDay := 0

/-- A deletion of the first word, after which the edit to the next card fails. -/
def deleteUnshown : DeleteInputs where
  targetUserId := 1
  wordId := 1
  zone := utc
  gate := { today := 0 }
  now := 0
  closing :=
    { persistDay := 0
      advance := { today := 0, gate := { today := 0 }, card := immediateCards, edit := .failed } }

/-- The failed edit leaves card 0 of 1 on the screen. -/
theorem progress_counts_zero :
    let events : List (Event ℚ) := [.start 1 startOneCard, .deleteYes 1 deleteUnshown]
    ((run Robot.step (noSession twoWords) events).session 1).map (fun st =>
        (st.nodes.length, st.cardNumber, st.totalCards)) = some (2, 0, 1) ∧
      ¬ Always Robot.step (fun b => ∀ u, Holds InRange b u) (noSession twoWords) events := by
  intro events
  have hcounts : ((run Robot.step (noSession twoWords) events).session 1).map (fun st =>
      (st.nodes.length, st.cardNumber, st.totalCards)) = some (2, 0, 1) := by decide +kernel
  refine ⟨hcounts, fun halways => ?_⟩
  obtain ⟨st, hst, hcount⟩ := Option.map_eq_some_iff.mp hcounts
  simp only [Prod.mk.injEq] at hcount
  obtain ⟨hlen, hnumber, -⟩ := hcount
  have hne : st.nodes ≠ [] := fun hnil => by
    rw [hnil] at hlen
    cases hlen
  have hpos := ((halways.last _ 1).memory st hst hne).1
  rw [hnumber] at hpos
  exact absurd hpos (by decide)

end OneCard

end HamZaboon
