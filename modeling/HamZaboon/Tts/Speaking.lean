import HamZaboon.Library.Effects
import Mathlib.Data.List.Basic

/-! # Speaking

`speak` under its lock: the voice is sent by its cached file id, or generated,
uploaded to the cache channel and sent by the new file id, or sent as bytes.
How the attempts to send end is a script, and what a call does is a log.

The chat gets no further voice after one that was or may have been delivered,
unless the chat is the cache channel itself.  The clauses of the first send stand
the wrong way round: `BadRequest` is a `NetworkError`, so a file id that is
refused with it is raised instead of generated anew (`speak_delivers_once_iff`).
-/

namespace HamZaboon
open Library

/-- The exceptions that the clauses of `speak` tell apart; `cancelled` is no
`Exception`. -/
inductive SpeakError
  | forbidden
  | badRequest
  | timedOut
  | networkError
  | retryAfter (seconds : Nat)
  | other
  | cancelled
  deriving DecidableEq, Repr

namespace SpeakError

/-- An instance of `NetworkError`, of which `BadRequest` and `TimedOut` are subclasses. -/
def isNetworkError : SpeakError → Bool
  | .badRequest | .timedOut | .networkError => true
  | _ => false

/-- A send that ends so may have been delivered. -/
def isTransient : SpeakError → Bool
  | .timedOut | .networkError => true
  | _ => false

end SpeakError

/-- A sent message: the file id and unique id of its voice. -/
structure VoiceMessage where
  voice : Option (Option String × Option String)
  messageId : Option Int
  deriving DecidableEq, Repr

namespace VoiceMessage

/-- `if fid`. -/
def fileId (msg : VoiceMessage) : Option String := (msg.voice.bind (·.1)).filter (· ≠ "")

def fileUniqueId (msg : VoiceMessage) : String := ((msg.voice.bind (·.2))).getD ""

end VoiceMessage

inductive SendOutcome
  | delivered (msg : VoiceMessage)
  | raises (e : SpeakError)
  deriving DecidableEq, Repr

/-- The voice was or may have been delivered. -/
def SendOutcome.reaches : SendOutcome → Bool
  | .delivered _ => true
  | .raises e => e.isTransient

inductive VoiceMedia
  | fileId (id : String)
  | bytes
  deriving DecidableEq, Repr

inductive SpeakEffect
  | send (chat : Int) (media : VoiceMedia) (outcome : SendOutcome)
  | setUserBlocked (chat : Int)
  | pronounce
  | cachePut (fileId fileUniqueId : String) (messageId : Option Int)
  deriving DecidableEq, Repr

/-- The number of attempts so far, and all effects. -/
structure SpeakRun where
  sent : Nat := 0
  log : List SpeakEffect := []
  deriving Repr

/-- A call: the chat, the channel of the settings, the file id of the cached row,
the outcomes of its attempts to send, and what the other steps raise. -/
structure SpeakInputs where
  chat : Int
  channel : Option Int := none
  cached : Option String := none
  outcomes : Nat → SendOutcome
  pronounce : Option SpeakError := none
  readUpload : Option SpeakError := none
  readDirect : Option SpeakError := none

abbrev Speak := EStateM SpeakError SpeakRun

namespace SpeakInputs

/-- `if channel_id`. -/
def cacheChannel (i : SpeakInputs) : Option Int := i.channel.filter (· ≠ 0)

/-- `if cached and cached.get("file_id")`, under `if channel_id`. -/
def cachedFile (i : SpeakInputs) : Option String :=
  i.cacheChannel.bind fun _ => i.cached.filter (· ≠ "")

end SpeakInputs

/-! ## The call -/

def record (effect : SpeakEffect) : Speak Unit :=
  modify fun s => { s with log := s.log ++ [effect] }

/-- A step that raises what it is given. -/
def raiseWhen : Option SpeakError → Speak Unit
  | none => pure ()
  | some e => throw e

def sendOnce (i : SpeakInputs) (chat : Int) (media : VoiceMedia) : Speak VoiceMessage := fun s =>
  let s' : SpeakRun := ⟨s.sent + 1, s.log ++ [.send chat media (i.outcomes s.sent)]⟩
  match i.outcomes s.sent with
  | .delivered msg => .ok msg s'
  | .raises e => .error e s'

/-- `except Forbidden`, and the clauses that raise again. -/
def sendFailed (chat : Int) (e : SpeakError) : Speak VoiceMessage := do
  if e = .forbidden ∧ 0 < chat then record (.setUserBlocked chat)
  throw e

/-- `_send_media_with_retry`, by the number of attempts that are left: only a
`RetryAfter` is tried again. -/
def sendMediaWithRetry (i : SpeakInputs) (chat : Int) (media : VoiceMedia) :
    Nat → Speak VoiceMessage
  | 0 => tryCatch (sendOnce i chat media) (sendFailed chat)
  | left + 1 => tryCatch (sendOnce i chat media) fun
    | .retryAfter _ => sendMediaWithRetry i chat media left
    | e => sendFailed chat e

def sendVoice (i : SpeakInputs) (chat : Int) (media : VoiceMedia) : Speak VoiceMessage :=
  sendMediaWithRetry i chat media 2

/-- The hit path: whether the cached file id is sent. -/
def sendCached (i : SpeakInputs) : Speak Bool :=
  match i.cachedFile with
  | none => pure false
  | some fileId =>
    tryCatch (do
      let _ ← sendVoice i i.chat (.fileId fileId)
      pure true) fun e =>
      -- `except (TimedOut, NetworkError)` comes first and takes `BadRequest` too
      if e.isNetworkError then throw e
      else if e = .forbidden ∨ e = .badRequest then pure false
      else throw e

/-- The upload to the channel and the send of its file id. -/
def uploadBody (i : SpeakInputs) (channel : Int) : Speak Bool := do
  raiseWhen i.readUpload
  let msg ← sendVoice i channel .bytes
  match msg.fileId with
  | none => pure false
  | some fileId =>
    record (.cachePut fileId msg.fileUniqueId msg.messageId)
    let _ ← sendVoice i i.chat (.fileId fileId)
    pure true

/-- The channel path: whether the voice is sent. -/
def upload (i : SpeakInputs) : Speak Bool :=
  match i.cacheChannel with
  | none => pure false
  | some channel =>
    tryCatch (uploadBody i channel) fun e =>
      if e = .forbidden ∨ e = .badRequest then pure false
      else if e.isNetworkError then throw e
      else if e = .cancelled then throw e
      else pure false

def generate (i : SpeakInputs) : Speak String := do
  record .pronounce
  raiseWhen i.pronounce
  let uploaded ← upload i
  if uploaded then pure "channel_upload"
  else
    raiseWhen i.readDirect
    let _ ← sendVoice i i.chat .bytes
    pure "direct_fallback"

def speakLocked (i : SpeakInputs) : Speak String := do
  let hit ← sendCached i
  if hit then pure "file_id_hit" else generate i

/-! ## What a call promises -/

namespace SpeakEffect

/-- A voice that was or may have been delivered to the chat. -/
def Reaches (chat : Int) : SpeakEffect → Prop
  | .send c _ outcome => c = chat ∧ outcome.reaches = true
  | _ => False

/-- A voice is sent to the chat. -/
def SendsTo (chat : Int) : SpeakEffect → Prop
  | .send c _ _ => c = chat
  | _ => False

end SpeakEffect

/-- Nothing is sent to the chat after a voice that was or may have been delivered. -/
def NoSecondVoice (chat : Int) (log : List SpeakEffect) : Prop :=
  log.Pairwise fun a b => a.Reaches chat → ¬ b.SendsTo chat

/-- The voice is generated and, unless that or reading it fails, sent from scratch. -/
def Regenerated (i : SpeakInputs) (log : List SpeakEffect) : Prop :=
  .pronounce ∈ log ∧ (i.pronounce = none → i.readUpload = none →
    ∃ chat outcome, .send chat .bytes outcome ∈ log)

/-- A cached file id that is refused is generated anew. -/
def Recovers (i : SpeakInputs) (log : List SpeakEffect) : Prop :=
  ∀ fileId, i.cachedFile = some fileId → ∀ e, e = .forbidden ∨ e = .badRequest →
    .send i.chat (.fileId fileId) (.raises e) ∈ log → Regenerated i log

/-- How a send ends that starts with the `n`-th attempt, and the attempt after it. -/
def sendEnd (outcomes : Nat → SendOutcome) : Nat → Nat → SendOutcome × Nat
  | 0, n => (outcomes n, n + 1)
  | left + 1, n =>
    match outcomes n with
    | .raises (.retryAfter _) => sendEnd outcomes left (n + 1)
    | outcome => (outcome, n + 1)

namespace SpeakInputs

/-- The cached file id is refused with `BadRequest`. -/
def CachedBadRequest (i : SpeakInputs) : Prop :=
  i.cachedFile.isSome = true ∧ (sendEnd i.outcomes 2 0).1 = .raises .badRequest

/-- The first attempt after the hit path, where the call goes on to generate. -/
def generatesFrom (i : SpeakInputs) : Option Nat :=
  match i.cachedFile with
  | none => some 0
  | some _ =>
    match sendEnd i.outcomes 2 0 with
    | (.raises .forbidden, n) => some n
    | _ => none

/-- The chat is the cache channel, the upload reaches it, and the voice is sent
there again. -/
def UploadsToChat (i : SpeakInputs) : Prop :=
  i.cacheChannel = some i.chat ∧ i.pronounce = none ∧ i.readUpload = none ∧
    ∃ n msg, i.generatesFrom = some n ∧ (sendEnd i.outcomes 2 n).1 = .delivered msg ∧
      (msg.fileId.isSome = true ∨ i.readDirect = none)

end SpeakInputs

/-! ## The attempts of one send -/

/-- What a send adds to the log: refused attempts that asked to wait, the one
that ends it, and the note of a block. -/
def IsSend (chat : Int) (media : VoiceMedia) (outcome : SendOutcome) (block : List SpeakEffect) :
    Prop :=
  ∃ retries blocked, block = retries ++ .send chat media outcome :: blocked ∧
    (∀ a ∈ retries, ∃ n, a = .send chat media (.raises (.retryAfter n))) ∧
    ∀ a ∈ blocked, a = .setUserBlocked chat

section Send
variable {i : SpeakInputs} {chat : Int} {media : VoiceMedia} {s : SpeakRun}

/-- The call has gone on by a send with this outcome. -/
def Sent (chat : Int) (media : VoiceMedia) (s : SpeakRun) (outcome : SendOutcome)
    (s' : SpeakRun) : Prop :=
  ∃ block, IsSend chat media outcome block ∧ s'.log = s.log ++ block

theorem IsSend.cons {outcome : SendOutcome} {block : List SpeakEffect} {n : Nat}
    (h : IsSend chat media outcome block) :
    IsSend chat media outcome (.send chat media (.raises (.retryAfter n)) :: block) := by
  obtain ⟨retries, blocked, rfl, hretries, hblocked⟩ := h
  refine ⟨_ :: retries, blocked, rfl, fun a ha => ?_, hblocked⟩
  rcases List.mem_cons.mp ha with rfl | ha
  · exact ⟨n, rfl⟩
  · exact hretries a ha

theorem ends_sendOnce {Q : VoiceMessage → SpeakRun → Prop} {E : SpeakError → SpeakRun → Prop}
    (hQ : ∀ msg, i.outcomes s.sent = .delivered msg →
      Q msg ⟨s.sent + 1, s.log ++ [.send chat media (.delivered msg)]⟩)
    (hE : ∀ e, i.outcomes s.sent = .raises e →
      E e ⟨s.sent + 1, s.log ++ [.send chat media (.raises e)]⟩) :
    Ends (sendOnce i chat media) s Q E := by
  unfold Ends sendOnce
  cases houtcome : i.outcomes s.sent with
  | delivered msg => exact hQ msg houtcome
  | raises e => exact hE e houtcome

theorem ends_sendFailed {e : SpeakError} {E : SpeakError → SpeakRun → Prop}
    {Q : VoiceMessage → SpeakRun → Prop} (h : ∀ blocked : List SpeakEffect,
      (∀ a ∈ blocked, a = .setUserBlocked chat) → E e ⟨s.sent, s.log ++ blocked⟩) :
    Ends (sendFailed chat e) s Q E := by
  have hsame : E e s := by simpa using h [] nofun
  have hblocked : E e ⟨s.sent, s.log ++ [.setUserBlocked chat]⟩ :=
    h [.setUserBlocked chat] fun a ha => List.mem_singleton.mp ha
  unfold sendFailed
  split
  · apply Ends.bind
    apply Ends.modify
    exact hblocked
  · exact hsame

theorem sent_raises (s : SpeakRun) (e : SpeakError) {blocked : List SpeakEffect}
    (h : ∀ a ∈ blocked, a = .setUserBlocked chat) :
    Sent chat media s (.raises e)
      ⟨s.sent + 1, s.log ++ [.send chat media (.raises e)] ++ blocked⟩ :=
  ⟨_, ⟨[], blocked, rfl, nofun, h⟩, by simp⟩

theorem sent_delivered (s : SpeakRun) (msg : VoiceMessage) :
    Sent chat media s (.delivered msg)
      ⟨s.sent + 1, s.log ++ [.send chat media (.delivered msg)]⟩ :=
  ⟨_, ⟨[], [], rfl, nofun, nofun⟩, rfl⟩

theorem ends_sendMediaWithRetry (left : Nat) (s : SpeakRun) :
    Ends (sendMediaWithRetry i chat media left) s
      (fun msg s' => sendEnd i.outcomes left s.sent = (.delivered msg, s'.sent) ∧
        Sent chat media s (.delivered msg) s')
      (fun e s' => sendEnd i.outcomes left s.sent = (.raises e, s'.sent) ∧
        Sent chat media s (.raises e) s') := by
  induction left generalizing s with
  | zero =>
    apply Ends.tryCatch
    refine ends_sendOnce (fun msg hmsg => ?_) fun e he => ?_
    · exact ⟨by rw [sendEnd, hmsg], sent_delivered s msg⟩
    · exact ends_sendFailed fun blocked hblocked => ⟨by rw [sendEnd, he], sent_raises s e hblocked⟩
  | succ left ih =>
    apply Ends.tryCatch
    refine ends_sendOnce (fun msg hmsg => ?_) fun e he => ?_
    · exact ⟨by rw [sendEnd, hmsg], sent_delivered s msg⟩
    · cases e with
      | retryAfter n =>
        -- the next attempt follows in the same send
        have hend : sendEnd i.outcomes (left + 1) s.sent = sendEnd i.outcomes left (s.sent + 1) := by
          rw [sendEnd, he]
        have hcons : ∀ outcome s', Sent chat media
            ⟨s.sent + 1, s.log ++ [.send chat media (.raises (.retryAfter n))]⟩ outcome s' →
            Sent chat media s outcome s' := by
          rintro outcome s' ⟨block, hblock, hlog⟩
          exact ⟨_, hblock.cons (n := n), by simp [hlog]⟩
        rw [hend]
        exact (ih _).mono (fun _ s' h => ⟨h.1, hcons _ s' h.2⟩) fun _ s' h => ⟨h.1, hcons _ s' h.2⟩
      | _ => exact ends_sendFailed fun blocked hblocked =>
          ⟨by rw [sendEnd, he], sent_raises s _ hblocked⟩

theorem ends_sendVoice {P : SpeakRun → Prop}
    (h : ∀ outcome s', Sent chat media s outcome s' → P s') :
    Ends (sendVoice i chat media) s (fun _ s' => P s') (fun _ s' => P s') :=
  (ends_sendMediaWithRetry 2 s).mono (fun _ s' hs => h _ s' hs.2) fun _ s' hs => h _ s' hs.2

end Send

/-! ## At most once -/

/-- No voice was or may have been delivered to the chat. -/
def Unreached (chat : Int) (log : List SpeakEffect) : Prop := ∀ a ∈ log, ¬ a.Reaches chat

section Once
variable {chat target : Int} {media : VoiceMedia} {outcome : SendOutcome}
  {log block : List SpeakEffect}

theorem Unreached.noSecondVoice (h : Unreached chat log) : NoSecondVoice chat log :=
  List.Pairwise.imp_of_mem (fun ha _ _ hreaches => absurd hreaches (h _ ha))
    (List.pairwise_of_forall (R := fun _ _ => True) fun _ _ => trivial)

theorem Unreached.append (h : Unreached chat log) (hblock : Unreached chat block) :
    Unreached chat (log ++ block) := fun a ha =>
  (List.mem_append.mp ha).elim (h a) (hblock a)

theorem Unreached.append_one (h : Unreached chat log) {a : SpeakEffect} (ha : ¬ a.Reaches chat) :
    Unreached chat (log ++ [a]) :=
  h.append fun _ hb => List.mem_singleton.mp hb ▸ ha

theorem Unreached.noSecondVoice_append (h : Unreached chat log) (hblock : NoSecondVoice chat block) :
    NoSecondVoice chat (log ++ block) :=
  List.pairwise_append.mpr ⟨h.noSecondVoice, hblock, fun a ha _ _ hreaches => absurd hreaches (h a ha)⟩

theorem IsSend.retries_unreached {retries : List SpeakEffect}
    (h : ∀ a ∈ retries, ∃ n, a = .send target media (.raises (.retryAfter n))) :
    Unreached chat retries := by
  intro a ha hreaches
  obtain ⟨n, rfl⟩ := h a ha
  cases hreaches.2

theorem IsSend.noSecondVoice (h : IsSend target media outcome block) : NoSecondVoice chat block := by
  obtain ⟨retries, blocked, rfl, hretries, hblocked⟩ := h
  refine (IsSend.retries_unreached hretries).noSecondVoice_append (List.pairwise_cons.mpr ⟨?_, ?_⟩)
  · rintro b hb - hsends
    rw [hblocked b hb] at hsends
    exact hsends
  · refine Unreached.noSecondVoice fun a ha hreaches => ?_
    rw [hblocked a ha] at hreaches
    exact hreaches

theorem IsSend.unreached (h : IsSend target media outcome block)
    (helse : target = chat → outcome.reaches = false) : Unreached chat block := by
  obtain ⟨retries, blocked, rfl, hretries, hblocked⟩ := h
  refine (IsSend.retries_unreached hretries).append fun a ha hreaches => ?_
  rcases List.mem_cons.mp ha with rfl | ha
  · obtain ⟨htarget, hdelivered⟩ := hreaches
    rw [helse htarget] at hdelivered
    cases hdelivered
  · rw [hblocked a ha] at hreaches
    exact hreaches

theorem IsSend.mem (h : IsSend target media outcome block) :
    .send target media outcome ∈ block := by
  obtain ⟨retries, blocked, rfl, -, -⟩ := h
  exact List.mem_append_right _ List.mem_cons_self

theorem IsSend.eq_of_mem (h : IsSend target media outcome block) {c : Int} {m : VoiceMedia}
    {o : SendOutcome} (hmem : .send c m o ∈ block) :
    o = outcome ∨ ∃ n, o = .raises (.retryAfter n) := by
  obtain ⟨retries, blocked, rfl, hretries, hblocked⟩ := h
  rcases List.mem_append.mp hmem with hmem | hmem
  · obtain ⟨n, hn⟩ := hretries _ hmem
    cases hn
    exact Or.inr ⟨n, rfl⟩
  · rcases List.mem_cons.mp hmem with heq | hmem
    · cases heq
      exact Or.inl rfl
    · cases hblocked _ hmem

variable {s s' : SpeakRun}

theorem Sent.noSecondVoice (h : Sent target media s outcome s') (hunreached : Unreached chat s.log) :
    NoSecondVoice chat s'.log := by
  obtain ⟨block, hblock, hlog⟩ := h
  rw [hlog]
  exact hunreached.noSecondVoice_append hblock.noSecondVoice

theorem Sent.unreached (h : Sent target media s outcome s') (hunreached : Unreached chat s.log)
    (helse : target = chat → outcome.reaches = false) : Unreached chat s'.log := by
  obtain ⟨block, hblock, hlog⟩ := h
  rw [hlog]
  exact hunreached.append (hblock.unreached helse)

end Once

/-! ## The call, path by path -/

section Paths
variable {i : SpeakInputs} {s : SpeakRun}

/-- The call may still send to the chat, or has sent its last voice. -/
def Open (i : SpeakInputs) (log : List SpeakEffect) : Prop :=
  Unreached i.chat log ∨ (NoSecondVoice i.chat log ∧ i.readDirect ≠ none)

theorem Open.noSecondVoice {log : List SpeakEffect} (h : Open i log) : NoSecondVoice i.chat log :=
  h.elim Unreached.noSecondVoice And.left

/-- What a refused file id asks for has been done. -/
def Ready (i : SpeakInputs) (log : List SpeakEffect) : Prop :=
  i.cachedFile.isSome = true → Regenerated i log

theorem Ready.append {log block : List SpeakEffect} (h : Ready i log) : Ready i (log ++ block) := by
  intro hfile
  obtain ⟨hpronounce, hsent⟩ := h hfile
  refine ⟨List.mem_append_left _ hpronounce, fun hp hr => ?_⟩
  obtain ⟨chat, outcome, hmem⟩ := hsent hp hr
  exact ⟨chat, outcome, List.mem_append_left _ hmem⟩

theorem Ready.sent {chat : Int} {media : VoiceMedia} {outcome : SendOutcome} {s' : SpeakRun}
    (h : Ready i s.log) (hsent : Sent chat media s outcome s') : Ready i s'.log := by
  obtain ⟨block, -, hlog⟩ := hsent
  rw [hlog]
  exact h.append

theorem Sent.ready {channel : Int} {outcome : SendOutcome} {s' : SpeakRun}
    (h : Sent channel .bytes s outcome s') (hmem : .pronounce ∈ s.log) : Ready i s'.log := by
  obtain ⟨block, hblock, hlog⟩ := h
  rw [hlog]
  exact fun _ => ⟨List.mem_append_left _ hmem,
    fun _ _ => ⟨channel, outcome, List.mem_append_right _ hblock.mem⟩⟩

/-- What a call has kept to when it ends. -/
def Kept (i : SpeakInputs) (log : List SpeakEffect) : Prop :=
  NoSecondVoice i.chat log ∧ Recovers i log

theorem Ready.kept {log : List SpeakEffect} (h : Ready i log) (honce : NoSecondVoice i.chat log) :
    Kept i log :=
  ⟨honce, fun _ hfile _ _ _ => h (by rw [hfile]; rfl)⟩

theorem generatesFrom_eq {fileId : String} {outcome : SendOutcome} {n : Nat}
    (hfile : i.cachedFile = some fileId) (hend : sendEnd i.outcomes 2 0 = (outcome, n)) :
    i.generatesFrom = if outcome = .raises .forbidden then some n else none := by
  rw [SpeakInputs.generatesFrom, hfile]
  simp only [hend]
  cases outcome with
  | delivered msg => rfl
  | raises e => cases e <;> rfl

theorem ends_sendCached (hcached : ¬ i.CachedBadRequest) :
    Ends (sendCached i) {}
      (fun hit s => if hit = true then Kept i s.log
        else Unreached i.chat s.log ∧ i.generatesFrom = some s.sent)
      (fun _ s => Kept i s.log) := by
  unfold sendCached
  cases hfile : i.cachedFile with
  | none => exact ⟨nofun, by rw [SpeakInputs.generatesFrom, hfile]⟩
  | some fileId =>
    have hkept : ∀ outcome log, outcome ≠ .raises .forbidden → outcome ≠ .raises .badRequest →
        IsSend i.chat (.fileId fileId) outcome log → Kept i log := by
      rintro outcome log hforbidden hbad hsend
      refine ⟨hsend.noSecondVoice, fun _ _ e he hmem => ?_⟩
      exfalso
      rcases hsend.eq_of_mem hmem with heq | ⟨n, hn⟩
      · rcases he with rfl | rfl
        · exact hforbidden heq.symm
        · exact hbad heq.symm
      · rcases he with rfl | rfl <;> cases hn
    apply Ends.tryCatch
    apply Ends.bind
    refine Ends.mono (ends_sendMediaWithRetry 2 {}) ?_ ?_
    · rintro msg s ⟨-, block, hblock, hlog⟩
      rw [List.nil_append] at hlog
      show Kept i s.log
      rw [hlog]
      exact hkept (.delivered msg) block (by simp) (by simp) hblock
    · rintro e s ⟨hend, block, hblock, hlog⟩
      rw [List.nil_append] at hlog
      cases e with
      | forbidden =>
        refine ⟨?_, generatesFrom_eq hfile hend⟩
        rw [hlog]
        exact hblock.unreached fun _ => rfl
      | badRequest => exact absurd ⟨by rw [hfile]; rfl, by rw [hend]⟩ hcached
      | _ =>
        show Kept i s.log
        rw [hlog]
        exact hkept _ block (by simp) (by simp) hblock

theorem ends_sendUploaded {fileId fileUniqueId : String} {messageId : Option Int}
    (hready : Ready i s.log) (hunreached : Unreached i.chat s.log) :
    Ends (do
        record (.cachePut fileId fileUniqueId messageId)
        let _ ← sendVoice i i.chat (.fileId fileId)
        pure true) s
      (fun uploaded s' => Ready i s'.log ∧
        if uploaded = true then NoSecondVoice i.chat s'.log else Open i s'.log)
      (fun e s' => Ready i s'.log ∧ NoSecondVoice i.chat s'.log ∧
        (e.isTransient = false → Unreached i.chat s'.log)) := by
  apply Ends.bind
  apply Ends.modify
  have hput : Unreached i.chat (s.log ++ [.cachePut fileId fileUniqueId messageId]) :=
    hunreached.append_one fun hreaches => hreaches
  have hready' : Ready i (s.log ++ [.cachePut fileId fileUniqueId messageId]) := hready.append
  apply Ends.bind
  refine Ends.mono (ends_sendMediaWithRetry 2 _) ?_ ?_
  · rintro _ s₂ ⟨-, hsent⟩
    exact ⟨Ready.sent hready' hsent, hsent.noSecondVoice hput⟩
  · rintro e s₂ ⟨-, hsent⟩
    exact ⟨Ready.sent hready' hsent, hsent.noSecondVoice hput,
      fun he => hsent.unreached hput fun _ => he⟩

theorem ends_uploadBody {channel : Int} (hchannel : i.cacheChannel = some channel)
    (hchat : ¬ i.UploadsToChat) (hpronounce : i.pronounce = none)
    (hfrom : i.generatesFrom = some s.sent) (hunreached : Unreached i.chat s.log)
    (hmem : .pronounce ∈ s.log) :
    Ends (uploadBody i channel) s
      (fun uploaded s' => Ready i s'.log ∧
        if uploaded = true then NoSecondVoice i.chat s'.log else Open i s'.log)
      (fun e s' => Ready i s'.log ∧ NoSecondVoice i.chat s'.log ∧
        (e.isTransient = false → Unreached i.chat s'.log)) := by
  unfold uploadBody
  apply Ends.bind
  cases hread : i.readUpload with
  | some e =>
    refine ⟨fun _ => ⟨hmem, fun _ hr => ?_⟩, hunreached.noSecondVoice, fun _ => hunreached⟩
    rw [hread] at hr
    cases hr
  | none =>
    apply Ends.pure
    apply Ends.bind
    refine Ends.mono (ends_sendMediaWithRetry 2 s) ?_ ?_
    · rintro msg s₁ ⟨hend, hsent⟩
      have hready₁ : Ready i s₁.log := hsent.ready hmem
      by_cases htarget : channel = i.chat
      · -- the upload has reached the chat: the call stops at its bytes
        have hstops : ¬ (msg.fileId.isSome = true ∨ i.readDirect = none) := fun h =>
          hchat ⟨htarget ▸ hchannel, hpronounce, hread, s.sent, msg, hfrom, by rw [hend], h⟩
        obtain ⟨hfile, hdirect⟩ := not_or.mp hstops
        rw [Bool.not_eq_true, Option.isSome_eq_false_iff, Option.isNone_iff_eq_none] at hfile
        rw [hfile]
        exact ⟨hready₁, Or.inr ⟨hsent.noSecondVoice hunreached, hdirect⟩⟩
      · have hunreached₁ : Unreached i.chat s₁.log :=
          hsent.unreached hunreached fun heq => absurd heq htarget
        cases msg.fileId with
        | none => exact ⟨hready₁, Or.inl hunreached₁⟩
        | some fileId => exact ends_sendUploaded hready₁ hunreached₁
    · rintro e s₁ ⟨hend, hsent⟩
      exact ⟨hsent.ready hmem, hsent.noSecondVoice hunreached,
        fun he => hsent.unreached hunreached fun _ => he⟩

theorem ends_upload (hchat : ¬ i.UploadsToChat) (hpronounce : i.pronounce = none)
    (hfrom : i.generatesFrom = some s.sent) (hunreached : Unreached i.chat s.log)
    (hmem : .pronounce ∈ s.log) :
    Ends (upload i) s
      (fun uploaded s' => Ready i s'.log ∧
        if uploaded = true then NoSecondVoice i.chat s'.log else Open i s'.log)
      (fun _ s' => Ready i s'.log ∧ NoSecondVoice i.chat s'.log) := by
  unfold upload
  cases hchannel : i.cacheChannel with
  | none =>
    refine ⟨fun hfile => ?_, Or.inl hunreached⟩
    rw [SpeakInputs.cachedFile, hchannel] at hfile
    cases hfile
  | some channel =>
    apply Ends.tryCatch
    refine Ends.mono (ends_uploadBody hchannel hchat hpronounce hfrom hunreached hmem)
      (fun _ _ h => h) ?_
    rintro e s' ⟨hready, honce, hrefused⟩
    cases e with
    | timedOut | networkError | cancelled => exact ⟨hready, honce⟩
    | forbidden | badRequest | retryAfter | other => exact ⟨hready, Or.inl (hrefused rfl)⟩

theorem ends_generate (hchat : ¬ i.UploadsToChat) (hfrom : i.generatesFrom = some s.sent)
    (hunreached : Unreached i.chat s.log) :
    Ends (generate i) s (fun _ s' => Kept i s'.log) (fun _ s' => Kept i s'.log) := by
  unfold generate
  apply Ends.bind
  apply Ends.modify
  have hmem : .pronounce ∈ s.log ++ [.pronounce] := List.mem_append_right _ (List.mem_singleton_self _)
  have hunreached₁ : Unreached i.chat (s.log ++ [.pronounce]) :=
    hunreached.append_one fun hreaches => hreaches
  apply Ends.bind
  cases hpronounce : i.pronounce with
  | some e =>
    refine Ready.kept (fun _ => ⟨hmem, fun hp _ => ?_⟩) hunreached₁.noSecondVoice
    rw [hpronounce] at hp
    cases hp
  | none =>
    apply Ends.pure
    apply Ends.bind
    refine Ends.mono (ends_upload hchat hpronounce hfrom hunreached₁ hmem) ?_
      fun _ s' h => h.1.kept h.2
    rintro (_ | _) s₁ ⟨hready, h⟩
    · apply Ends.bind
      cases hread : i.readDirect with
      | some e => exact hready.kept h.noSecondVoice
      | none =>
        have hunreached₂ : Unreached i.chat s₁.log := h.resolve_right fun hr => hr.2 hread
        apply Ends.pure
        apply Ends.bind
        exact ends_sendVoice fun _ s' hsent =>
          (Ready.sent hready hsent).kept (hsent.noSecondVoice hunreached₂)
    · exact hready.kept h

theorem ends_speakLocked (hcached : ¬ i.CachedBadRequest) (hchat : ¬ i.UploadsToChat) :
    Ends (speakLocked i) {} (fun _ s => Kept i s.log) (fun _ s => Kept i s.log) := by
  apply Ends.bind
  refine Ends.mono (ends_sendCached hcached) ?_ fun _ _ h => h
  rintro (_ | _) s h
  · exact ends_generate hchat h.2 h.1
  · exact h

/-! ## Where the promise fails -/

theorem ends_sendCached_generates :
    Ends (sendCached i) {}
      (fun hit s => if hit = true then i.generatesFrom = none else i.generatesFrom = some s.sent)
      (fun _ _ => i.generatesFrom = none) := by
  unfold sendCached
  cases hfile : i.cachedFile with
  | none =>
    show i.generatesFrom = some 0
    rw [SpeakInputs.generatesFrom, hfile]
  | some fileId =>
    apply Ends.tryCatch
    apply Ends.bind
    refine Ends.mono (ends_sendMediaWithRetry 2 {}) ?_ ?_
    · rintro msg s ⟨hend, -⟩
      exact generatesFrom_eq hfile hend
    · rintro e s ⟨hend, -⟩
      have hfrom := generatesFrom_eq hfile hend
      cases e <;> exact hfrom

theorem ends_speakLocked_badRequest (hcached : i.CachedBadRequest) :
    Ends (speakLocked i) {} (fun _ _ => False) (fun _ s => ¬ Recovers i s.log) := by
  obtain ⟨hfile, hbad⟩ := hcached
  obtain ⟨fileId, hfile⟩ := Option.isSome_iff_exists.mp hfile
  unfold speakLocked sendCached
  rw [hfile]
  apply Ends.bind
  apply Ends.tryCatch
  apply Ends.bind
  refine Ends.mono (ends_sendMediaWithRetry 2 {}) ?_ ?_
  · rintro msg s ⟨hend, -⟩
    have hend' : sendEnd i.outcomes 2 0 = (.delivered msg, s.sent) := hend
    rw [hend'] at hbad
    cases hbad
  · rintro e s ⟨hend, block, hblock, hlog⟩
    have hend' : sendEnd i.outcomes 2 0 = (.raises e, s.sent) := hend
    rw [hend'] at hbad
    cases hbad
    rw [List.nil_append] at hlog
    show ¬ Recovers i s.log
    rw [hlog]
    intro hrecovers
    obtain ⟨hpronounce, -⟩ := hrecovers fileId hfile .badRequest (Or.inr rfl) hblock.mem
    obtain ⟨retries, blocked, rfl, hretries, hblocked⟩ := hblock
    rcases List.mem_append.mp hpronounce with hmem | hmem
    · obtain ⟨_, hn⟩ := hretries _ hmem
      cases hn
    · rcases List.mem_cons.mp hmem with hmem | hmem
      · cases hmem
      · cases hblocked _ hmem

theorem not_noSecondVoice_append {chat : Int} {log block : List SpeakEffect}
    (h : ¬ NoSecondVoice chat log) : ¬ NoSecondVoice chat (log ++ block) :=
  fun honce => h (List.pairwise_append.mp honce).1

theorem Sent.not_noSecondVoice {chat : Int} {media : VoiceMedia} {outcome : SendOutcome}
    {s' : SpeakRun} (h : Sent chat media s outcome s') (hreached : ¬ Unreached chat s.log) :
    ¬ NoSecondVoice chat s'.log := by
  obtain ⟨block, hblock, hlog⟩ := h
  rw [hlog]
  intro honce
  refine hreached fun a ha hreaches => ?_
  exact (List.pairwise_append.mp honce).2.2 a ha _ hblock.mem hreaches rfl

/-- The chat was sent a voice twice, or was reached and is sent the bytes next. -/
def Repeats (i : SpeakInputs) (log : List SpeakEffect) : Prop :=
  ¬ NoSecondVoice i.chat log ∨ (¬ Unreached i.chat log ∧ i.readDirect = none)

theorem ends_upload_repeats (hchat : i.UploadsToChat) (hfrom : i.generatesFrom = some s.sent) :
    Ends (upload i) s
      (fun uploaded s' => if uploaded = true then ¬ NoSecondVoice i.chat s'.log else Repeats i s'.log)
      (fun _ s' => ¬ NoSecondVoice i.chat s'.log) := by
  obtain ⟨hchannel, -, hread, n, msg, hn, hmsg, hagain⟩ := hchat
  cases hn.symm.trans hfrom
  unfold upload uploadBody
  rw [hchannel]
  apply Ends.tryCatch
  refine Ends.mono (E := fun _ s' => ¬ NoSecondVoice i.chat s'.log) ?_ (fun _ _ h => h) ?_
  · apply Ends.bind
    rw [hread]
    apply Ends.pure
    apply Ends.bind
    refine Ends.mono (ends_sendMediaWithRetry 2 s) ?_ ?_
    · rintro msg' s₁ ⟨hend, block, hblock, hlog⟩
      rw [hend] at hmsg
      cases hmsg
      have hreached : ¬ Unreached i.chat s₁.log := by
        intro h
        refine h (.send i.chat .bytes (.delivered msg)) ?_ ⟨rfl, rfl⟩
        rw [hlog]
        exact List.mem_append_right _ hblock.mem
      cases hfile : msg.fileId with
      | none =>
        rw [hfile] at hagain
        exact Or.inr ⟨hreached, hagain.resolve_left (by simp)⟩
      | some fileId =>
        apply Ends.bind
        apply Ends.modify
        have hput : ¬ Unreached i.chat
            (s₁.log ++ [.cachePut fileId msg.fileUniqueId msg.messageId]) := fun h =>
          hreached fun a ha => h a (List.mem_append_left _ ha)
        apply Ends.bind
        exact ends_sendVoice fun _ s₂ hsent => hsent.not_noSecondVoice hput
    · rintro e s₁ ⟨hend, -⟩
      rw [hend] at hmsg
      cases hmsg
  · rintro e s' h
    cases e with
    | timedOut | networkError | cancelled => exact h
    | forbidden | badRequest | retryAfter | other => exact Or.inl h

theorem ends_speakLocked_repeats (hchat : i.UploadsToChat) :
    Ends (speakLocked i) {} (fun _ s => ¬ NoSecondVoice i.chat s.log)
      (fun _ s => ¬ NoSecondVoice i.chat s.log) := by
  have hgenerates : i.generatesFrom ≠ none := by
    obtain ⟨-, -, -, n, -, hn, -⟩ := hchat
    rw [hn]
    exact Option.some_ne_none n
  apply Ends.bind
  refine Ends.mono ends_sendCached_generates ?_ fun _ _ h => absurd h hgenerates
  rintro (_ | _) s hfrom
  · show Ends (generate i) s _ _
    unfold generate
    apply Ends.bind
    apply Ends.modify
    apply Ends.bind
    rw [hchat.2.1]
    apply Ends.pure
    apply Ends.bind
    refine Ends.mono (ends_upload_repeats hchat hfrom) ?_ fun _ _ h => h
    rintro (_ | _) s₁ h
    · apply Ends.bind
      cases hread : i.readDirect with
      | some e => exact h.elim id fun hr => absurd hr.2 (by rw [hread]; exact Option.some_ne_none e)
      | none =>
        apply Ends.pure
        apply Ends.bind
        refine ends_sendVoice fun _ s₂ hsent => ?_
        show ¬ NoSecondVoice i.chat s₂.log
        rcases h with htwice | ⟨hreached, -⟩
        · obtain ⟨block, -, hlog⟩ := hsent
          rw [hlog]
          exact not_noSecondVoice_append htwice
        · exact hsent.not_noSecondVoice hreached
    · exact h
  · exact absurd hfrom hgenerates

end Paths

def speakLog (i : SpeakInputs) : List SpeakEffect :=
  match speakLocked i {} with
  | .ok _ s | .error _ s => s.log

theorem ends_speakLog {i : SpeakInputs} {P : List SpeakEffect → Prop}
    (h : Ends (speakLocked i) {} (fun _ s => P s.log) (fun _ s => P s.log)) : P (speakLog i) := by
  unfold Ends at h
  unfold speakLog
  cases hrun : speakLocked i {} with
  | ok kind s =>
    rw [hrun] at h
    exact h
  | error e s =>
    rw [hrun] at h
    exact h

/-- **Speaking.**  A call sends the chat nothing after a voice that was or may
have been delivered, and generates anew what a refused file id did not send,
exactly when no cached file id is refused with `BadRequest` and no upload goes to
the chat itself. -/
theorem speak_delivers_once_iff (i : SpeakInputs) :
    (NoSecondVoice i.chat (speakLog i) ∧ Recovers i (speakLog i)) ↔
      ¬ i.CachedBadRequest ∧ ¬ i.UploadsToChat := by
  constructor
  · rintro ⟨honce, hrecovers⟩
    refine ⟨fun hcached => ?_, fun hchat => ?_⟩
    · have hraised : Ends (speakLocked i) {} (fun _ s => ¬ Recovers i s.log)
          (fun _ s => ¬ Recovers i s.log) :=
        (ends_speakLocked_badRequest hcached).mono (fun _ _ h => h.elim) fun _ _ h => h
      exact ends_speakLog (P := fun log => ¬ Recovers i log) hraised hrecovers
    · exact ends_speakLog (P := fun log => ¬ NoSecondVoice i.chat log) (ends_speakLocked_repeats hchat)
        honce
  · rintro ⟨hcached, hchat⟩
    exact ends_speakLog (ends_speakLocked hcached hchat)

/-- A cached file id that is refused with `BadRequest`. -/
def deadFileId : SpeakInputs where
  chat := 7
  channel := some (-1001234567890)
  cached := some "AwACAg"
  outcomes := fun _ => .raises .badRequest

theorem dead_file_id_not_regenerated :
    speakLog deadFileId = [.send 7 (.fileId "AwACAg") (.raises .badRequest)] ∧
      ¬ Recovers deadFileId (speakLog deadFileId) := by
  have hlog : speakLog deadFileId = [.send 7 (.fileId "AwACAg") (.raises .badRequest)] := by decide
  refine ⟨hlog, fun h => ?_⟩
  have hmem := (h "AwACAg" (by decide) .badRequest (Or.inr rfl) (by decide)).1
  revert hmem
  decide

end HamZaboon
