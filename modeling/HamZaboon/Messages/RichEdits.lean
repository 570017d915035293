import HamZaboon.Library.Retries
import HamZaboon.Library.Runs
import Mathlib.Data.Finset.Insert
import Mathlib.Data.Rat.Defs

/-! # Rich edits of a message

`edit_rich_message` of `services/telegram_rich.py`, with `_edit_message_with_retry` and the
retry loop of `services/utils/helpers_retry.py`, against a server that shows one content
for each message.  What becomes of a request on its way is an input.

A `BadRequest` stands for markup that is rejected and for content that is shown already, and
the handler answers both with the MarkdownV2 rendering.  So the second tap on a button turns
a Rich message into its fallback, except where one of the two renderings cannot be shown or
both show the same (`rich_edits_converge_iff`).
-/

namespace HamZaboon
open Library

def richEnabled : Bool := true

def telegramRetryMaxAttempts : Nat := 3

/-- `_TELEGRAM_RETRY_MAX_DELAY`, in seconds. -/
def telegramRetryMaxDelay : ℚ := 30

inductive EditError
  | badRequest
  | endPointNotFound
  | forbidden
  | retryAfter (delay : ℚ)
  /-- `TimedOut` and `NetworkError`. -/
  | network
  | other
  deriving DecidableEq

/-- The arguments of a call, with the identity number of the bot. -/
structure RichEdit (K : Type) where
  bot : Nat
  chatId : Int
  messageId : Int
  richMarkdown : String
  mdv2Markdown : String
  isRtl : Bool
  keyboard : Option K

def RichEdit.message {K : Type} (edit : RichEdit K) : Int × Int := (edit.chatId, edit.messageId)

/-- A server: the bots with Rich support, and what it makes of a text; `none` for markup
that it rejects. -/
structure EditServer (K γ : Type) where
  supportsRich : Nat → Bool
  readRich : String → Bool → Option K → Option γ
  readMdv2 : String → Option K → Option γ

/-- What becomes of a request. -/
inductive Passage
  | answered
  /-- The answer does not come, whether or not the request has come. -/
  | lost (arrived : Bool)
  | retryAfter (delay : ℚ)
  | forbidden
  | failed
  deriving DecidableEq

/-- A call, with what becomes of its Rich request and of the attempts at its plain edit. -/
structure RichCall (K : Type) where
  edit : RichEdit K
  rich : Passage
  plain : Nat → Passage

abbrev ShownContents (γ : Type) := Int × Int → γ

/-- `_rich_disabled`, and what the messages show. -/
structure RichState (γ : Type) where
  disabled : Finset Nat
  shown : ShownContents γ

section Edits
variable {K γ : Type} [DecidableEq γ]

/-- The server's answer to an edit: the new content, unless its markup is rejected or the
message shows it already. -/
def serveEdit (content : Option γ) (message : Int × Int) (shown : ShownContents γ) :
    Except EditError Unit × ShownContents γ :=
  match content with
  | none => (.error .badRequest, shown)
  | some c =>
      if shown message = c then (.error .badRequest, shown)
      else (.ok (), Function.update shown message c)

/-- A request that may not come through; the server is asked where it arrives. -/
def passed {σ : Type} (passage : Passage) (serve : σ → Except EditError Unit × σ) (s : σ) :
    Except EditError Unit × σ :=
  match passage with
  | .answered => serve s
  | .lost arrived => (.error .network, if arrived then (serve s).2 else s)
  | .retryAfter delay => (.error (.retryAfter delay), s)
  | .forbidden => (.error .forbidden, s)
  | .failed => (.error .other, s)

/-- The exceptions after which an idempotent action is tried again. -/
def retriedError : EditError → Bool
  | .retryAfter delay => delay ≤ telegramRetryMaxDelay
  | .network => true
  | _ => false

/-- `_execute_telegram_action_with_retry` with `is_idempotent`. -/
def executeWithRetry {σ : Type} (act : Nat → σ → Except EditError Unit × σ) (s : σ) :
    Except EditError Unit × σ :=
  attempts retriedError act (telegramRetryMaxAttempts - 1) 1 s

namespace EditServer
variable (server : EditServer K γ)

def richContent (edit : RichEdit K) : Option γ :=
  server.readRich edit.richMarkdown edit.isRtl edit.keyboard

def mdv2Content (edit : RichEdit K) : Option γ := server.readMdv2 edit.mdv2Markdown edit.keyboard

/-- `_edit_message_with_retry` of the MarkdownV2 rendering. -/
def editMessageWithRetry (call : RichCall K) (shown : ShownContents γ) :
    Except EditError Unit × ShownContents γ :=
  executeWithRetry
    (fun n => passed (call.plain n) (serveEdit (server.mdv2Content call.edit) call.edit.message)) shown

/-- `editMessageText` with a Rich message. -/
def richApiRequest (call : RichCall K) (shown : ShownContents γ) :
    Except EditError Unit × ShownContents γ :=
  passed call.rich (fun shown =>
    if server.supportsRich call.edit.bot then
      serveEdit (server.richContent call.edit) call.edit.message shown
    else (.error .endPointNotFound, shown)) shown

def plainEdit (call : RichCall K) (s : RichState γ) : Except EditError Unit × RichState γ :=
  let answer := server.editMessageWithRetry call s.shown
  (answer.1, { s with shown := answer.2 })

def editRichMessage (s : RichState γ) (call : RichCall K) : Except EditError Unit × RichState γ :=
  if !richEnabled || call.edit.bot ∈ s.disabled then server.plainEdit call s
  else
    let answer := server.richApiRequest call s.shown
    let s' := { s with shown := answer.2 }
    match answer.1 with
    | .error .endPointNotFound =>
        server.plainEdit call { s' with disabled := insert call.edit.bot s.disabled }
    | .error .badRequest => server.plainEdit call s'
    | result => (result, s')

def editStep (s : RichState γ) (call : RichCall K) : RichState γ := (server.editRichMessage s call).2

/-! ## What is asked of a call -/

/-- The rendering that a call should leave: the Rich one where it can be shown. -/
def wanted (s : RichState γ) (edit : RichEdit K) : Option γ :=
  if server.supportsRich edit.bot ∧ (server.richContent edit).isSome ∧ edit.bot ∉ s.disabled then
    server.richContent edit
  else server.mdv2Content edit

def Returns (s : RichState γ) (call : RichCall K) : Prop :=
  (server.editRichMessage s call).1 = .ok ()

/-- A call that returns leaves the rendering it should, and the same call once more, whatever
becomes of its requests, changes nothing. -/
def Converges (s : RichState γ) (call : RichCall K) : Prop :=
  server.Returns s call →
    some ((server.editStep s call).shown call.edit.message) = server.wanted s call.edit ∧
    ∀ rich plain, server.editStep (server.editStep s call)
      { call with rich := rich, plain := plain } = server.editStep s call

/-- The server can show either rendering to the bot, and they differ. -/
def TwoRenderings (s : RichState γ) (edit : RichEdit K) : Prop :=
  edit.bot ∉ s.disabled ∧ server.supportsRich edit.bot ∧
    ∃ rich mdv2, server.richContent edit = some rich ∧ server.mdv2Content edit = some mdv2 ∧
      rich ≠ mdv2

end EditServer

/-! ## One request -/

/-- An edit that cannot change its message: its markup is rejected, or the message shows it. -/
def Idle (content : Option γ) (message : Int × Int) (shown : ShownContents γ) : Prop :=
  content = none ∨ content = some (shown message)

theorem serveEdit_of_idle {content : Option γ} {message : Int × Int} {shown : ShownContents γ}
    (h : Idle content message shown) : serveEdit content message shown = (.error .badRequest, shown) := by
  rcases h with rfl | rfl
  · rfl
  · exact if_pos rfl

theorem serveEdit_cases (content : Option γ) (message : Int × Int) (shown : ShownContents γ) :
    (Idle content message shown ∧ serveEdit content message shown = (.error .badRequest, shown)) ∨
      (serveEdit content message shown).1 = .ok () ∧
        content = some ((serveEdit content message shown).2 message) := by
  by_cases hidle : Idle content message shown
  · exact Or.inl ⟨hidle, serveEdit_of_idle hidle⟩
  · right
    cases content with
    | none => exact absurd (Or.inl rfl) hidle
    | some c =>
      have hne : shown message ≠ c := fun h => hidle (Or.inr (congrArg some h.symm))
      rw [serveEdit, if_neg hne]
      refine ⟨rfl, ?_⟩
      show some c = some (Function.update shown message c message)
      rw [Function.update_self]

section Passages
variable {σ : Type} {serve : σ → Except EditError Unit × σ} {s : σ} {passage : Passage}

theorem passed_of_ok (h : (passed passage serve s).1 = .ok ()) : passed passage serve s = serve s := by
  cases passage with
  | answered => rfl
  | lost arrived => cases h
  | retryAfter delay => cases h
  | forbidden => cases h
  | failed => cases h

variable (passage) in
theorem passed_of_refused {e : EditError} (h : serve s = (.error e, s)) :
    (passed passage serve s).1 ≠ .ok () ∧ (passed passage serve s).2 = s := by
  cases passage with
  | answered => exact ⟨by simp [passed, h], by rw [passed, h]⟩
  | lost arrived => exact ⟨by simp [passed], by cases arrived <;> simp [passed, h]⟩
  | retryAfter delay => exact ⟨by simp [passed], rfl⟩
  | forbidden => exact ⟨by simp [passed], rfl⟩
  | failed => exact ⟨by simp [passed], rfl⟩

end Passages

/-! ## The plain edit -/

namespace EditServer
variable {server : EditServer K γ} {call : RichCall K} {s : RichState γ}

theorem editMessageWithRetry_ok {shown : ShownContents γ}
    (h : (server.editMessageWithRetry call shown).1 = .ok ()) :
    server.mdv2Content call.edit =
      some ((server.editMessageWithRetry call shown).2 call.edit.message) := by
  obtain ⟨n, shown', -, hattempt⟩ := attempts_rule retriedError
    (fun n => passed (call.plain n) (serveEdit (server.mdv2Content call.edit) call.edit.message))
    (I := fun _ => True) (fun _ _ _ _ _ => trivial) (telegramRetryMaxAttempts - 1) 1
    (s := shown) trivial
  have hlast : server.editMessageWithRetry call shown = _ := hattempt
  have hserved := hlast.trans (passed_of_ok (hlast ▸ h))
  rcases serveEdit_cases (server.mdv2Content call.edit) call.edit.message shown' with
    ⟨-, hbad⟩ | ⟨-, hshown⟩
  · rw [hserved, hbad] at h
    cases h
  · rw [hserved]
    exact hshown

theorem editMessageWithRetry_idle {shown : ShownContents γ}
    (h : Idle (server.mdv2Content call.edit) call.edit.message shown) :
    (server.editMessageWithRetry call shown).1 ≠ .ok () ∧
      (server.editMessageWithRetry call shown).2 = shown := by
  have hrefused : ∀ n, _ := fun n => passed_of_refused (call.plain n) (serveEdit_of_idle h)
  obtain ⟨n, shown', rfl, hattempt⟩ := attempts_rule retriedError
    (fun n => passed (call.plain n) (serveEdit (server.mdv2Content call.edit) call.edit.message))
    (I := fun shown' => shown' = shown) (fun n shown' _ hs _ => by subst hs; exact (hrefused n).2)
    (telegramRetryMaxAttempts - 1) 1 rfl
  have hlast : server.editMessageWithRetry call shown' = _ := hattempt
  rw [hlast]
  exact hrefused n

/-! ## One call -/

theorem editRichMessage_of_disabled (h : call.edit.bot ∈ s.disabled) :
    server.editRichMessage s call = server.plainEdit call s := by
  rw [editRichMessage, if_pos (by simp [h])]

theorem editStep_of_disabled (h : call.edit.bot ∈ s.disabled)
    (hidle : Idle (server.mdv2Content call.edit) call.edit.message s.shown) :
    server.editStep s call = s := by
  show (server.editRichMessage s call).2 = s
  rw [editRichMessage_of_disabled h]
  show { s with shown := (server.editMessageWithRetry call s.shown).2 } = s
  rw [(editMessageWithRetry_idle hidle).2]

theorem richApiRequest_of_supports (h : server.supportsRich call.edit.bot) (shown : ShownContents γ) :
    server.richApiRequest call shown =
      passed call.rich (serveEdit (server.richContent call.edit) call.edit.message) shown := by
  simp only [richApiRequest, h, if_true]

theorem richApiRequest_cases (h : server.supportsRich call.edit.bot) (shown : ShownContents γ) :
    ((server.richApiRequest call shown).1 = .ok () ∧ server.richContent call.edit =
        some ((server.richApiRequest call shown).2 call.edit.message)) ∨
    (Idle (server.richContent call.edit) call.edit.message shown ∧
      server.richApiRequest call shown = (.error .badRequest, shown)) ∨
    ∃ e, (server.richApiRequest call shown).1 = .error e ∧ e ≠ .badRequest ∧ e ≠ .endPointNotFound := by
  rw [richApiRequest_of_supports h]
  cases call.rich with
  | answered =>
    rcases serveEdit_cases (server.richContent call.edit) call.edit.message shown with hidle | hshown
    · exact Or.inr (Or.inl hidle)
    · exact Or.inl hshown
  | _ => exact Or.inr (Or.inr ⟨_, rfl, by simp, by simp⟩)

theorem editRichMessage_of_supports (h : call.edit.bot ∉ s.disabled)
    (hrich : server.supportsRich call.edit.bot) :
    ((server.richApiRequest call s.shown).1 = .ok () ∧ server.richContent call.edit =
        some ((server.richApiRequest call s.shown).2 call.edit.message) ∧
      server.editRichMessage s call =
        (.ok (), { s with shown := (server.richApiRequest call s.shown).2 })) ∨
    (Idle (server.richContent call.edit) call.edit.message s.shown ∧
      server.editRichMessage s call = server.plainEdit call s) ∨
    ∃ e, server.editRichMessage s call =
      (.error e, { s with shown := (server.richApiRequest call s.shown).2 }) := by
  have hcall : ¬ (!richEnabled || call.edit.bot ∈ s.disabled) = true := by simp [richEnabled, h]
  unfold editRichMessage
  rw [if_neg hcall]
  rcases richApiRequest_cases hrich s.shown with ⟨hok, hshown⟩ | ⟨hidle, hbad⟩ | ⟨e, he, hbad, hnot⟩
  · exact Or.inl ⟨hok, hshown, by simp only [hok]⟩
  · exact Or.inr (Or.inl ⟨hidle, by simp only [hbad]⟩)
  · refine Or.inr (Or.inr ⟨e, ?_⟩)
    simp only [he]
    split
    · rename_i heq
      exact absurd (Except.error.inj heq) hnot
    · rename_i heq
      exact absurd (Except.error.inj heq) hbad
    · rfl

theorem editRichMessage_of_unsupported (h : call.edit.bot ∉ s.disabled)
    (hrich : ¬ server.supportsRich call.edit.bot) :
    server.editRichMessage s call =
        server.plainEdit call { s with disabled := insert call.edit.bot s.disabled } ∨
      (server.editRichMessage s call).1 ≠ .ok () := by
  have hcall : ¬ (!richEnabled || call.edit.bot ∈ s.disabled) = true := by simp [richEnabled, h]
  have hrequest : server.richApiRequest call s.shown =
      passed call.rich (fun shown => (.error .endPointNotFound, shown)) s.shown := by
    simp only [richApiRequest, hrich, Bool.false_eq_true, if_false]
  unfold editRichMessage
  rw [if_neg hcall, hrequest]
  cases call.rich with
  | answered => exact Or.inl rfl
  | _ => exact Or.inr (by simp [passed])

theorem editStep_of_idle (h : call.edit.bot ∉ s.disabled) (hrich : server.supportsRich call.edit.bot)
    (hidleRich : Idle (server.richContent call.edit) call.edit.message s.shown)
    (hidle : Idle (server.mdv2Content call.edit) call.edit.message s.shown) :
    server.editStep s call = s := by
  obtain ⟨hfails, hshown⟩ := passed_of_refused call.rich (serveEdit_of_idle hidleRich)
  rw [← richApiRequest_of_supports hrich] at hfails hshown
  show (server.editRichMessage s call).2 = s
  rcases editRichMessage_of_supports h hrich with ⟨hok, -, -⟩ | ⟨-, hcall⟩ | ⟨e, hcall⟩
  · exact absurd hok hfails
  · rw [hcall]
    show { s with shown := (server.editMessageWithRetry call s.shown).2 } = s
    rw [(editMessageWithRetry_idle hidle).2]
  · rw [hcall, hshown]

theorem editRichMessage_of_answered (h : call.edit.bot ∉ s.disabled)
    (hrich : server.supportsRich call.edit.bot) (hanswered : call.rich = .answered)
    (hidle : Idle (server.richContent call.edit) call.edit.message s.shown) :
    server.editRichMessage s call = server.plainEdit call s := by
  have hrequest : server.richApiRequest call s.shown = (.error .badRequest, s.shown) := by
    rw [richApiRequest_of_supports hrich, hanswered]
    exact serveEdit_of_idle hidle
  unfold editRichMessage
  rw [if_neg (by simp [richEnabled, h]), hrequest]

variable (call) in
theorem plainEdit_of_answered {content : γ} (hanswered : call.plain 1 = .answered)
    (hmdv2 : server.mdv2Content call.edit = some content)
    (hne : s.shown call.edit.message ≠ content) :
    (server.plainEdit call s).2.shown call.edit.message = content := by
  have hserved : passed (call.plain 1)
      (serveEdit (server.mdv2Content call.edit) call.edit.message) s.shown =
        (.ok (), Function.update s.shown call.edit.message content) := by
    rw [hanswered, hmdv2]
    exact if_neg hne
  have hedit : server.editMessageWithRetry call s.shown =
      (.ok (), Function.update s.shown call.edit.message content) :=
    (attempts_of_ok _ _ (congrArg Prod.fst hserved)).trans hserved
  show (server.editMessageWithRetry call s.shown).2 call.edit.message = content
  rw [hedit]
  exact Function.update_self _ _ _

/-! ## Calls that return -/

theorem plainEdit_ok (h : (server.plainEdit call s).1 = .ok ()) :
    server.mdv2Content call.edit = some ((server.plainEdit call s).2.shown call.edit.message) ∧
      (server.plainEdit call s).2.disabled = s.disabled :=
  ⟨editMessageWithRetry_ok h, rfl⟩

theorem converges_of_not_twoRenderings (h : ¬ server.TwoRenderings s call.edit) :
    server.Converges s call := by
  intro hreturns
  have hresult : (server.editRichMessage s call).1 = .ok () := hreturns
  by_cases hdisabled : call.edit.bot ∈ s.disabled
  · have hcall : server.editRichMessage s call = server.plainEdit call s :=
      editRichMessage_of_disabled hdisabled
    obtain ⟨hshown, hlatch⟩ := plainEdit_ok (hcall ▸ hresult)
    have hstep : server.editStep s call = (server.plainEdit call s).2 := congrArg Prod.snd hcall
    rw [hstep]
    refine ⟨?_, fun rich plain => editStep_of_disabled (hlatch ▸ hdisabled) (Or.inr hshown)⟩
    rw [wanted, if_neg (fun hwants => hwants.2.2 hdisabled), hshown]
  · by_cases hrich : server.supportsRich call.edit.bot = true
    · rcases editRichMessage_of_supports hdisabled hrich with
        ⟨-, hshown, hcall⟩ | ⟨hidle, hcall⟩ | ⟨e, hcall⟩
      · have hstep : server.editStep s call =
            { s with shown := (server.richApiRequest call s.shown).2 } := congrArg Prod.snd hcall
        rw [hstep]
        refine ⟨?_, fun rich plain => editStep_of_idle hdisabled hrich (Or.inr hshown) ?_⟩
        · rw [wanted, if_pos ⟨hrich, by rw [hshown]; rfl, hdisabled⟩, hshown]
        · -- the other rendering is rejected, or shows the same
          by_contra hbusy
          cases hmdv2 : server.mdv2Content call.edit with
          | none => exact hbusy (Or.inl hmdv2)
          | some mdv2 =>
            refine h ⟨hdisabled, hrich, _, mdv2, hshown, hmdv2, fun heq => ?_⟩
            exact hbusy (Or.inr (hmdv2.trans (congrArg some heq.symm)))
      · obtain ⟨hshown, hlatch⟩ := plainEdit_ok (hcall ▸ hresult)
        have hstep : server.editStep s call = (server.plainEdit call s).2 := congrArg Prod.snd hcall
        -- a Rich rendering that was shown already would have made the plain edit idle
        have hrejected : server.richContent call.edit = none := by
          rcases hidle with hnone | hsame
          · exact hnone
          · exfalso
            have hmdv2 : server.mdv2Content call.edit = some (s.shown call.edit.message) := by
              by_contra hne
              refine h ⟨hdisabled, hrich, _, _, hsame, hshown, fun heq => hne ?_⟩
              rw [hshown, ← heq]
            rw [hcall] at hresult
            exact (editMessageWithRetry_idle (Or.inr hmdv2)).1 hresult
        rw [hstep]
        refine ⟨?_, fun rich plain => editStep_of_idle (hlatch ▸ hdisabled) hrich
          (Or.inl hrejected) (Or.inr hshown)⟩
        rw [wanted, if_neg (fun hwants => by simp [hrejected] at hwants), hshown]
      · rw [hcall] at hresult
        cases hresult
    · rcases editRichMessage_of_unsupported hdisabled hrich with hcall | hraises
      · obtain ⟨hshown, hlatch⟩ := plainEdit_ok (hcall ▸ hresult)
        have hstep : server.editStep s call = _ := congrArg Prod.snd hcall
        rw [hstep]
        refine ⟨?_, fun rich plain => editStep_of_disabled ?_ (Or.inr hshown)⟩
        · rw [wanted, if_neg (fun hwants => hrich hwants.1), hshown]
        · rw [hlatch]
          exact Finset.mem_insert_self _ _
      · exact absurd hresult hraises

/-- Where either rendering can be shown and they differ, no call that returns converges: it
has left the MarkdownV2 rendering, or the next one does. -/
theorem not_converges_of_twoRenderings (hreturns : server.Returns s call)
    (h : server.TwoRenderings s call.edit) : ¬ server.Converges s call := by
  intro hconverges
  obtain ⟨hdisabled, hrich, rich, mdv2, hrichContent, hmdv2, hne⟩ := h
  obtain ⟨hwanted, hagain⟩ := hconverges hreturns
  rw [wanted, if_pos ⟨hrich, by rw [hrichContent]; rfl, hdisabled⟩, hrichContent] at hwanted
  have hshown : (server.editStep s call).shown call.edit.message = rich := Option.some.inj hwanted
  have hlatch : call.edit.bot ∉ (server.editStep s call).disabled := by
    rcases editRichMessage_of_supports hdisabled hrich with ⟨-, -, hcall⟩ | ⟨-, hcall⟩ | ⟨e, hcall⟩
    all_goals
      rw [editStep, hcall]
      exact hdisabled
  -- the same call once more, with both of its requests answered
  have hrepeat := hagain .answered fun _ => .answered
  have hcall : server.editRichMessage (server.editStep s call)
      { call with rich := .answered, plain := fun _ => .answered } =
        server.plainEdit { call with rich := .answered, plain := fun _ => .answered }
          (server.editStep s call) :=
    editRichMessage_of_answered hlatch hrich rfl
      (Or.inr (hrichContent.trans (congrArg some hshown.symm)))
  rw [editStep, hcall] at hrepeat
  have hflipped := plainEdit_of_answered
    { call with rich := .answered, plain := fun _ => .answered } rfl hmdv2
    (hshown ▸ hne : (server.editStep s call).shown call.edit.message ≠ mdv2)
  rw [hrepeat, hshown] at hflipped
  exact hne hflipped

end EditServer

/-- **Rich edits converge where there is one rendering to show.** -/
theorem rich_edits_converge_iff (server : EditServer K γ) :
    (∀ s calls, Meets server.editStep (fun s call => ¬ server.TwoRenderings s call.edit) s calls →
      Meets server.editStep server.Converges s calls) ∧
    ∀ s call, server.Returns s call →
      (server.Converges s call ↔ ¬ server.TwoRenderings s call.edit) := by
  refine ⟨fun s calls h => ?_, fun s call hreturns => ?_⟩
  · exact meets_of_meets server.editStep (I := fun _ => True) (fun _ _ _ _ => trivial)
      (fun s call _ hone => EditServer.converges_of_not_twoRenderings hone) trivial h
  · exact ⟨fun h htwo => EditServer.not_converges_of_twoRenderings hreturns htwo h,
      EditServer.converges_of_not_twoRenderings⟩

end Edits

/-- A server that shows each text as it is, under the name of its format. -/
def echoServer : EditServer Unit (String × String) where
  supportsRich _ := true
  readRich text _ _ := some ("rich", text)
  readMdv2 text _ := some ("mdv2", text)

/-- A tap on a button of message 9, with all requests answered. -/
def tap : RichCall Unit where
  edit := ⟨1, 1, 9, "**x**", "*x*", true, none⟩
  rich := .answered
  plain _ := .answered

/-- The first tap shows the Rich rendering, and the second one turns it into the other. -/
theorem second_tap_unformats :
    echoServer.Returns ⟨∅, fun _ => ("plain", "")⟩ tap ∧
    (run echoServer.editStep ⟨∅, fun _ => ("plain", "")⟩ [tap]).shown (1, 9) = ("rich", "**x**") ∧
    echoServer.Returns (run echoServer.editStep ⟨∅, fun _ => ("plain", "")⟩ [tap]) tap ∧
    (run echoServer.editStep ⟨∅, fun _ => ("plain", "")⟩ [tap, tap]).shown (1, 9) = ("mdv2", "*x*") ∧
    ¬ Meets echoServer.editStep echoServer.Converges ⟨∅, fun _ => ("plain", "")⟩ [tap, tap] := by
  have hfirst : (run echoServer.editStep ⟨∅, fun _ => ("plain", "")⟩ [tap]).shown (1, 9) =
      ("rich", "**x**") := by decide +kernel
  have hreturns : echoServer.Returns ⟨∅, fun _ => ("plain", "")⟩ tap := by
    unfold EditServer.Returns
    decide +kernel
  have hsecond : (run echoServer.editStep ⟨∅, fun _ => ("plain", "")⟩ [tap, tap]).shown (1, 9) =
      ("mdv2", "*x*") := by decide +kernel
  refine ⟨hreturns, hfirst, by unfold EditServer.Returns; decide +kernel, hsecond, fun h => ?_⟩
  obtain ⟨-, hagain⟩ := h.1 hreturns
  have hsame := congrArg (fun s => s.shown (1, 9)) (hagain .answered fun _ => .answered)
  have hcontents : ("mdv2", "*x*") = ("rich", "**x**") := hsecond.symm.trans (hsame.trans hfirst)
  revert hcontents
  decide

end HamZaboon
