import Mathlib.Tactic.Common

/-! # Pending answers

`text_router` and `_dispatch_awaiting` of `bot.py`, with the registry of flows:
a text that answers a question of the bot goes to the handler of the awaiting
value, which is cleared first and put back when the handler raises without
having consumed the text.  What a handler writes and how it ends is an input.

An answer is lost where nobody puts the value back: on the early return for a
busy lock, for a value that is not the user's to answer, and when a handler is
cancelled (`text_router_keeps_answer_iff`).
-/

namespace HamZaboon

/-- A value of `awaiting` that is not empty. -/
abbrev AwaitingValue := { value : String // value ≠ "" }

/-- `awaiting` and the marker `_awaiting_pending` of `user_data`. -/
structure AwaitingData where
  awaiting : Option AwaitingValue
  pending : Option Bool := none
  deriving DecidableEq

/-- How a call ends: `cancelled` is an exception that is no `Exception`. -/
inductive CallEnd
  | returns
  | raises
  | cancelled
  deriving DecidableEq, Repr

/-- What a handler leaves and how it ends. -/
structure HandlerRun where
  data : AwaitingData
  ending : CallEnd
  deriving DecidableEq

/-- The handler has dealt with the text, or has marked it as consumed. -/
def HandlerRun.Consumed (h : HandlerRun) : Prop :=
  h.ending = .returns ∨ h.data.pending ≠ some true

structure TextUpdate where
  telegramOffline : Bool := false
  maintenanceBlocked : Bool := false
  /-- `db.reset_user_blocked` raises. -/
  resetFails : Bool := false
  rawText : Option String
  strip : String → String := id
  /-- `_normalize_custom_word_input(text).casefold()`. -/
  normalize : String → String := id
  isOwner : Bool := false
  /-- The prefixes of `_FLOWS`. -/
  flows : List String := []
  /-- `_get_user_lock(user_id).locked()`. -/
  lockBusy : Bool := false
  /-- The send of the text that asks to wait. -/
  waitSend : CallEnd := .returns
  /-- `db.get_user` raises. -/
  getUserFails : Bool := false
  askWord : HandlerRun := ⟨⟨none, none⟩, .returns⟩
  flow : String → HandlerRun := fun _ => ⟨⟨none, none⟩, .returns⟩
  /-- `_exit_awaiting_flow` or `exit_admin_awaiting_cancel`. -/
  exitFlow : AwaitingData → AwaitingData := fun _ => ⟨none, none⟩
  /-- The choice in the main menu. -/
  menu : AwaitingData → AwaitingData := id

/-! ## The registry of flows -/

/-- `_matches`. -/
def flowMatches (awaiting flow : String) : Bool :=
  if flow.endsWith ":" then awaiting.startsWith flow else awaiting = flow

/-- `resolve_flow`: the longest prefix that matches, the first among equals. -/
def resolveFlow (flows : List String) (awaiting : String) : Option String :=
  flows.foldl (fun best flow =>
    if flowMatches awaiting flow then
      match best with
      | none => some flow
      | some b => if b.length < flow.length then some flow else some b
    else best) none

def isAdminAwaiting (flows : List String) (awaiting : String) : Bool :=
  (resolveFlow flows awaiting).isSome

/-! ## The router -/

/-- What a dispatch leaves, how it ends (with its result, when it returns) and
the handler that was given the text. -/
structure Dispatch where
  data : AwaitingData
  ending : CallEnd
  result : Bool
  ran : Option HandlerRun

namespace TextUpdate

def run (h : HandlerRun) : Dispatch := ⟨h.data, h.ending, true, some h⟩

/-- The body of the `try`. -/
def dispatchBody (u : TextUpdate) (awaiting : String) (s : AwaitingData) : Dispatch :=
  if awaiting = "ask_word" then
    if u.lockBusy then ⟨s, u.waitSend, true, none⟩
    else if u.getUserFails then ⟨s, .raises, true, none⟩
    else run u.askWord
  else
    match resolveFlow u.flows awaiting with
    | some flow => run (u.flow flow)
    | none => ⟨s, .returns, false, none⟩

/-- `except Exception`: the value is put back. -/
def restore (awaiting : AwaitingValue) (d : Dispatch) : AwaitingData :=
  if d.ending = .raises ∧ d.data.pending = some true ∧ d.data.awaiting = none then
    { d.data with awaiting := some awaiting }
  else d.data

def dispatchAwaiting (u : TextUpdate) (awaiting : AwaitingValue) (s : AwaitingData) : Dispatch :=
  let d := u.dispatchBody awaiting.1 { s with pending := some true }
  { d with data := { restore awaiting d with pending := none } }

end TextUpdate

def cancelInputs : List String := ["cancel", "back", "لغو", "بازگشت", "انصراف", "🚫 لغو", "↩️ بازگشت"]

/-- What an update leaves, the handler that was given the text, and whether it
was taken for a choice in the menu. -/
structure RouterEnd where
  data : AwaitingData
  ran : Option HandlerRun := none
  menu : Bool := false

namespace TextUpdate

/-- `raw_text.strip()`, where the update gets that far. -/
def text (u : TextUpdate) : Option String :=
  if u.telegramOffline ∨ u.maintenanceBlocked ∨ u.resetFails then none
  else (u.rawText.map u.strip).filter (· ≠ "")

def isCancelInput (u : TextUpdate) (text : String) : Bool := cancelInputs.contains (u.normalize text)

def textRouter (u : TextUpdate) (s : AwaitingData) : RouterEnd :=
  match u.text with
  | none => { data := s }
  | some text =>
    match s.awaiting with
    | none => { data := u.menu s, menu := true }
    | some awaiting =>
      if u.isCancelInput text then { data := u.exitFlow s }
      else
        let cleared := { s with awaiting := none }
        if isAdminAwaiting u.flows awaiting.1 ∧ u.isOwner = false then { data := cleared }
        else
          let d := u.dispatchAwaiting awaiting cleared
          if d.ending = .returns ∧ d.result = false then
            { data := u.menu d.data, ran := d.ran, menu := true }
          else { data := d.data, ran := d.ran }

/-! ## Answers that are kept -/

/-- The value is neither `ask_word` nor that of a flow. -/
def Unknown (u : TextUpdate) (awaiting : AwaitingValue) : Prop :=
  awaiting.1 ≠ "ask_word" ∧ isAdminAwaiting u.flows awaiting.1 = false

/-- The text was consumed by its handler, or the handler has armed a value, or
the old value is still there, or it was unknown and the text chosen from the menu. -/
def AnswerKept (u : TextUpdate) (old : AwaitingValue) (e : RouterEnd) : Prop :=
  (∃ h ∈ e.ran, h.Consumed ∨ ∃ v, h.data.awaiting = some v ∧ e.data.awaiting = some v) ∨
    e.data.awaiting = some old ∨ (u.Unknown old ∧ e.menu = true)

def handlerOf (u : TextUpdate) (awaiting : AwaitingValue) : Option HandlerRun :=
  if awaiting.1 = "ask_word" then
    if u.lockBusy ∨ u.getUserFails then none else some u.askWord
  else (resolveFlow u.flows awaiting.1).map u.flow

/-- The handler is cut off before it has consumed the text or armed a value. -/
def HandlerCancelled (h : HandlerRun) : Prop :=
  h.ending = .cancelled ∧ ¬ h.Consumed ∧ h.data.awaiting = none

/-- Where an answer is lost, of the texts that get to the question. -/
inductive Loses (u : TextUpdate) (old : AwaitingValue) : Prop
  /-- The value is an admin's and the user is not the owner. -/
  | notOwner (h : isAdminAwaiting u.flows old.1 = true) (howner : u.isOwner = false)
  /-- The lock of the user is busy, and the text that asks to wait does not fail. -/
  | busy (h : old.1 = "ask_word") (hbusy : u.lockBusy = true) (hsend : u.waitSend ≠ .raises)
  | cancelled (h : HandlerRun) (hrun : u.handlerOf old = some h) (hcancelled : HandlerCancelled h)

section Dispatch
variable {u : TextUpdate} {s : AwaitingData} {old : AwaitingValue}

theorem dispatchBody_cases (u : TextUpdate) (old : AwaitingValue) (s : AwaitingData) :
    (∃ h, u.handlerOf old = some h ∧ u.dispatchBody old.1 s = run h) ∨
    (u.Unknown old ∧ u.dispatchBody old.1 s = ⟨s, .returns, false, none⟩) ∨
    (old.1 = "ask_word" ∧ u.handlerOf old = none ∧
      u.dispatchBody old.1 s = ⟨s, if u.lockBusy then u.waitSend else .raises, true, none⟩) := by
  unfold dispatchBody handlerOf
  by_cases hask : old.1 = "ask_word"
  · rw [if_pos hask, if_pos hask]
    cases hbusy : u.lockBusy with
    | true => exact Or.inr (Or.inr ⟨hask, by simp, by simp⟩)
    | false =>
      cases hfails : u.getUserFails with
      | true => exact Or.inr (Or.inr ⟨hask, by simp, by simp⟩)
      | false => exact Or.inl ⟨u.askWord, by simp, by simp⟩
  · rw [if_neg hask, if_neg hask]
    cases hflow : resolveFlow u.flows old.1 with
    | some flow => exact Or.inl ⟨u.flow flow, rfl, rfl⟩
    | none => exact Or.inr (Or.inl ⟨⟨hask, by rw [isAdminAwaiting, hflow]; rfl⟩, rfl⟩)

variable (u old) in
theorem answerKept_run_iff (h : HandlerRun) :
    u.AnswerKept old ⟨{ restore old (run h) with pending := none }, some h, false⟩ ↔
      ¬ HandlerCancelled h := by
  constructor
  · rintro hkept ⟨hending, hconsumed, hawaiting⟩
    have hrestore : restore old (run h) = h.data := by
      rw [restore, if_neg (by simp [run, hending])]
      rfl
    rw [hrestore] at hkept
    rcases hkept with ⟨_, hmem, hdone | ⟨v, hv, -⟩⟩ | hold | ⟨-, hmenu⟩
    · cases Option.some.inj hmem
      exact hconsumed hdone
    · cases Option.some.inj hmem
      rw [hawaiting] at hv
      cases hv
    · rw [hawaiting] at hold
      cases hold
    · cases hmenu
  · intro hcancelled
    by_cases hconsumed : h.Consumed
    · exact Or.inl ⟨h, rfl, Or.inl hconsumed⟩
    · obtain ⟨hreturns, hpending⟩ := not_or.mp hconsumed
      rw [not_not] at hpending
      cases hawaiting : h.data.awaiting with
      | some v =>
        refine Or.inl ⟨h, rfl, Or.inr ⟨v, hawaiting, ?_⟩⟩
        rw [restore, if_neg (by simp [run, hawaiting])]
        exact hawaiting
      | none =>
        -- nothing armed and nothing consumed: the handler has raised
        have hraises : h.ending = .raises := by
          cases hending : h.ending with
          | returns => exact absurd hending hreturns
          | raises => rfl
          | cancelled => exact absurd ⟨hending, hconsumed, hawaiting⟩ hcancelled
        refine Or.inr (Or.inl ?_)
        rw [restore, if_pos ⟨hraises, hpending, hawaiting⟩]

theorem loses_iff_of_handler {h : HandlerRun} (hrun : u.handlerOf old = some h)
    (hguard : ¬ (isAdminAwaiting u.flows old.1 = true ∧ u.isOwner = false)) :
    u.Loses old ↔ HandlerCancelled h := by
  constructor
  · rintro (⟨hadmin, howner⟩ | ⟨hask, hbusy, -⟩ | ⟨h', hrun', hcancelled⟩)
    · exact absurd ⟨hadmin, howner⟩ hguard
    · rw [handlerOf, if_pos hask, if_pos (Or.inl hbusy)] at hrun
      cases hrun
    · cases hrun.symm.trans hrun'
      exact hcancelled
  · exact fun hcancelled => .cancelled h hrun hcancelled

theorem not_loses_of_unknown (hunknown : u.Unknown old) : ¬ u.Loses old := by
  obtain ⟨hask, hadmin⟩ := hunknown
  rintro (⟨h, -⟩ | ⟨h, -, -⟩ | ⟨h, hrun, -⟩)
  · rw [hadmin] at h
    cases h
  · exact hask h
  · rw [isAdminAwaiting, Option.isSome_eq_false_iff, Option.isNone_iff_eq_none] at hadmin
    rw [handlerOf, if_neg hask, hadmin] at hrun
    cases hrun

theorem loses_iff_of_none (hask : old.1 = "ask_word") (hnone : u.handlerOf old = none)
    (hguard : ¬ (isAdminAwaiting u.flows old.1 = true ∧ u.isOwner = false)) :
    u.Loses old ↔ (if u.lockBusy then u.waitSend else .raises) ≠ .raises := by
  constructor
  · rintro (⟨hadmin, howner⟩ | ⟨-, hbusy, hsend⟩ | ⟨h, hrun, -⟩)
    · exact absurd ⟨hadmin, howner⟩ hguard
    · rw [if_pos hbusy]
      exact hsend
    · rw [hnone] at hrun
      cases hrun
  · intro hsend
    by_cases hbusy : u.lockBusy = true
    · rw [if_pos hbusy] at hsend
      exact .busy hask hbusy hsend
    · rw [if_neg hbusy] at hsend
      exact absurd rfl hsend

end Dispatch

/-- **Pending answers.**  A text that answers a question is consumed, or leaves
a question armed, or was chosen from the menu for an unknown value, exactly when
it does not get as far as the question or is not lost in one of three ways. -/
theorem text_router_keeps_answer_iff (u : TextUpdate) {s : AwaitingData} {old : AwaitingValue}
    (hs : s.awaiting = some old)
    (hcancel : ∀ text, u.text = some text → u.isCancelInput text = false) :
    u.AnswerKept old (u.textRouter s) ↔ (u.text = none ∨ ¬ u.Loses old) := by
  unfold textRouter
  cases htext : u.text with
  | none =>
    refine iff_of_true (Or.inr (Or.inl hs)) (Or.inl rfl)
  | some text =>
    simp only [hs, hcancel text htext, Bool.false_eq_true, if_false, reduceCtorEq, false_or]
    by_cases hguard : isAdminAwaiting u.flows old.1 = true ∧ u.isOwner = false
    · rw [if_pos hguard]
      refine iff_of_false ?_ fun h => h (.notOwner hguard.1 hguard.2)
      rintro (⟨_, hmem, -⟩ | hold | ⟨-, hmenu⟩)
      · cases hmem
      · cases hold
      · cases hmenu
    · rw [if_neg hguard]
      rcases u.dispatchBody_cases old ⟨none, some true⟩ with
        ⟨h, hrun, hbody⟩ | ⟨hunknown, hbody⟩ | ⟨hask, hnone, hbody⟩
      · rw [loses_iff_of_handler hrun hguard, ← answerKept_run_iff u old]
        simp only [dispatchAwaiting, hbody, run, Bool.true_eq_false, and_false, if_false]
      · refine iff_of_true (Or.inr (Or.inr ⟨hunknown, ?_⟩)) (not_loses_of_unknown hunknown)
        simp only [dispatchAwaiting, hbody, and_self, if_true]
      · rw [loses_iff_of_none hask hnone hguard, not_not]
        simp only [dispatchAwaiting, hbody, Bool.true_eq_false, and_false, if_false]
        generalize (if u.lockBusy then u.waitSend else .raises) = ending
        constructor
        · rintro (⟨_, hmem, -⟩ | hold | ⟨-, hmenu⟩)
          · cases hmem
          · by_contra hraises
            simp [restore, hraises] at hold
          · cases hmenu
        · rintro rfl
          exact Or.inr (Or.inl (by simp [restore]))

/-- An answer to `ask_word` whose handler raises before it has done anything. -/
theorem text_router_restores_ask_word :
    AnswerKept { rawText := some "house", askWord := ⟨⟨none, some true⟩, .raises⟩ }
      ⟨"ask_word", by decide⟩
      (textRouter { rawText := some "house", askWord := ⟨⟨none, some true⟩, .raises⟩ }
        ⟨some ⟨"ask_word", by decide⟩, none⟩) := by
  refine (text_router_keeps_answer_iff _ rfl fun text htext => ?_).mpr (Or.inr ?_)
  · cases htext
    decide
  · rintro (⟨h, -⟩ | ⟨-, h, -⟩ | ⟨h, hrun, hcancelled, -⟩)
    · revert h
      decide
    · cases h
    · cases hrun
      cases hcancelled

/-- An answer to `ask_word` that arrives while the user's lock is busy. -/
def busyUpdate : TextUpdate := { rawText := some "house", lockBusy := true }

theorem busy_answer_lost :
    (busyUpdate.textRouter ⟨some ⟨"ask_word", by decide⟩, none⟩).data.awaiting = none ∧
      ¬ busyUpdate.AnswerKept ⟨"ask_word", by decide⟩
        (busyUpdate.textRouter ⟨some ⟨"ask_word", by decide⟩, none⟩) := by
  have hend : busyUpdate.textRouter ⟨some ⟨"ask_word", by decide⟩, none⟩ =
      { data := ⟨none, none⟩ } := by rfl
  refine ⟨by rw [hend], fun hkept => ?_⟩
  rw [hend] at hkept
  rcases hkept with ⟨_, hmem, -⟩ | hold | ⟨-, hmenu⟩
  · cases hmem
  · cases hold
  · cases hmenu

end TextUpdate

end HamZaboon
