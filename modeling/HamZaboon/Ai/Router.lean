import HamZaboon.Ai.Limiter
import HamZaboon.Library.Walk

/-! # The fallback chain

`_call_ai_limited`: the presets are tried in chain order, those the limiter
refuses are passed over, and a failure goes on to the next one.  The block that
catches a failing provider call also holds what follows a successful one: the
request log, written in the `finally` of `_call_tracked`, and the usage log of
`_log_preset_usage`.  When one of them raises, the answer is dropped, the
preset is charged a failure and the next preset is called.
-/

namespace HamZaboon
open Library

inductive CallError (E : Type) where
  | aiRequestTimedOut
  | other (e : E)
deriving DecidableEq, Repr

/-- A preset of the chain, and what a request meets when it gets there: the
clock readings, the other requests, the slot, the provider and the two logs.
An answer comes with its total tokens, `0` where the telemetry has none. -/
structure ChainStep (V E : Type) where
  preset : Preset
  /-- What other requests have done to the limiter since the request began. -/
  others : Limiter → Limiter
  checkedAt : Int
  backoffAt : Int
  limitAt : Int
  prune : Except E Unit
  slotAcquired : Bool
  polls : List Poll
  answer : Except (CallError E) (V × Nat)
  /-- What other requests do to the limiter during the call. -/
  meanwhile : Limiter → Limiter
  requestLog : Except E Unit
  usageLog : Except E Unit
  loggedAt : Int
  failedAt : Int

/-- The two texts of `AllPresetsExhausted`, the second with the last error where
there is one. -/
inductive Exhausted (E : Type) where
  | noEnabledPresets
  | allTried (lastError : Option E)
deriving DecidableEq, Repr

inductive Reply (V E : Type) where
  | value (v : V)
  | allPresetsExhausted (message : Exhausted E)
  | aiRequestTimedOut
  | raised (e : E)
  | waiting
deriving DecidableEq, Repr

/-- Why a preset is passed over. -/
inductive SkipReason where
  | temporaryBackoff | rateLimited | concurrencySlotTimeout
deriving DecidableEq, Repr

inductive Deed (V E : Type) where
  | skipped (reason : SkipReason)
  | stopped
  | called (answer : Except (CallError E) (V × Nat))
deriving DecidableEq, Repr

section Router
variable {V E : Type}

/-- `_call_tracked`: what the request log raises in the `finally` replaces the
value or the error of the call. -/
def callTracked (answer : Except (CallError E) (V × Nat)) (requestLog : Except E Unit) :
    Except (CallError E) (V × Nat) :=
  match requestLog with
  | .error e => .error (.other e)
  | .ok () => answer

/-- `_log_preset_usage`: the hourly usage, then the token window. -/
def logPresetUsage (tokens : Nat) (usageLog : Except E Unit) (loggedAt : Int) (l : Limiter) :
    Except E Limiter :=
  match usageLog with
  | .error e => .error e
  | .ok () =>
    if 0 < tokens then .ok { l with tokenTimes := l.tokenTimes ++ [(loggedAt, tokens)] } else .ok l

/-- How far a request gets at a preset: to its end, to the next preset with the
error there was, or to `inner`. -/
inductive Attempt (V E : Type) where
  | ends (deed : Deed V E) (reply : Reply V E) (l : Limiter)
  | goesOn (deed : Deed V E) (error : Option E) (l : Limiter)

/-- The provider call and what follows it, with its `except` clauses. -/
def callPreset (s : ChainStep V E) (l : Limiter) : Attempt V E :=
  let l := s.meanwhile l
  match callTracked s.answer s.requestLog with
  | .error .aiRequestTimedOut => .ends (.called s.answer) .aiRequestTimedOut l
  | .error (.other e) => .goesOn (.called s.answer) (some e) (l.fail s.failedAt)
  | .ok (value, tokens) =>
    match logPresetUsage tokens s.usageLog s.loggedAt l.succeed with
    | .error e => .goesOn (.called s.answer) (some e) (l.succeed.fail s.failedAt)
    | .ok l => .ends (.called s.answer) (.value value) l

/-- The loop body of `_call_ai_limited`, at the limiter it finds. -/
def tryPreset (deadline : Option Int) (usageMap : String → Nat) (s : ChainStep V E) (l : Limiter) :
    Attempt V E :=
  if deadlineExceeded deadline s.checkedAt then .ends .stopped .aiRequestTimedOut l
  else if l.presetInBackoff s.backoffAt then .goesOn (.skipped .temporaryBackoff) none l
  else
    match isPresetRateLimited s.preset usageMap s.limitAt s.prune l with
    | (.error e, l) => .ends .stopped (.raised e) l
    | (.ok true, l) => .goesOn (.skipped .rateLimited) none l
    | (.ok false, l) =>
      if !s.slotAcquired then .goesOn (.skipped .concurrencySlotTimeout) none l
      else
        match waitForRpm deadline s.preset s.polls l with
        | (.timedOut, l) => .ends .stopped .aiRequestTimedOut l
        | (.waiting, l) => .ends .stopped .waiting l
        | (.granted, l) => callPreset s l

/-- The limiter store: one state for each preset name. -/
abbrev LimiterStore := String → Limiter

/-- One entry of a request's record: the preset, the limiter found, the deed. -/
structure Visit (V E : Type) where
  step : ChainStep V E
  found : Limiter
  deed : Deed V E

/-- One round of the `for` loop, on the store and the last error. -/
def routeTurn (deadline : Option Int) (usageMap : String → Nat)
    (state : LimiterStore × Option E) (s : ChainStep V E) :
    Turn (LimiterStore × Option E) (Visit V E) (Reply V E) :=
  let found := s.others (state.1 s.preset.name)
  match tryPreset deadline usageMap s found with
  | .ends deed reply l =>
    .stop ⟨s, found, deed⟩ reply (Function.update state.1 s.preset.name l, state.2)
  | .goesOn deed error l =>
    .go ⟨s, found, deed⟩ (Function.update state.1 s.preset.name l, error.or state.2)

/-- A fallback chain: the name is the primary key of `ai_presets`. -/
structure Chain (V E : Type) where
  steps : List (ChainStep V E)
  distinct : (steps.map (·.preset.name)).Nodup

/-- `_call_ai_limited`.  The usage of the whole chain is read at once. -/
def callAiLimited (deadline : Option Int) (usage : Except E (String → Nat)) (chain : Chain V E)
    (store : LimiterStore) : Walk (LimiterStore × Option E) (Visit V E) (Reply V E) :=
  if chain.steps = [] then ⟨[], .allPresetsExhausted .noEnabledPresets, (store, none)⟩
  else
    match usage with
    | .error e => ⟨[], .raised e, (store, none)⟩
    | .ok usageMap =>
      walk (routeTurn deadline usageMap) (fun state => .allPresetsExhausted (.allTried state.2))
        (store, none) chain.steps

/-! ## What one turn can do -/

namespace ChainStep

/-- The limiter refuses the preset in state `l`: backoff, requests or tokens of
the minute, daily cap, or no concurrency slot. -/
def Refused (s : ChainStep V E) (usageMap : String → Nat) (l : Limiter) : Prop :=
  l.presetInBackoff s.backoffAt = true ∨ l.rpmReached s.preset s.limitAt = true ∨
    l.tpmReached s.preset s.limitAt = true ∨ dailyCapReached s.preset usageMap = true ∨
    s.slotAcquired = false

/-- The answer of `_is_preset_rate_limited` at the limiter state `l`. -/
def limited (s : ChainStep V E) (usageMap : String → Nat) (l : Limiter) :
    Except E Bool × Limiter :=
  isPresetRateLimited s.preset usageMap s.limitAt s.prune l

/-- The request goes on to the next preset without a call. -/
def PassedOver (s : ChainStep V E) (deadline : Option Int) (usageMap : String → Nat)
    (l : Limiter) : Prop :=
  deadlineExceeded deadline s.checkedAt = false ∧
    (l.presetInBackoff s.backoffAt = true ∨ (s.limited usageMap l).1 = .ok true ∨
      (s.limited usageMap l).1 = .ok false ∧ s.slotAcquired = false)

/-- The request comes to call the provider. -/
def ReachesCall (s : ChainStep V E) (deadline : Option Int) (usageMap : String → Nat)
    (l : Limiter) : Prop :=
  deadlineExceeded deadline s.checkedAt = false ∧ l.presetInBackoff s.backoffAt = false ∧
    (s.limited usageMap l).1 = .ok false ∧ s.slotAcquired = true ∧
    (waitForRpm deadline s.preset s.polls (s.limited usageMap l).2).1 = .granted

end ChainStep

variable {deadline : Option Int} {usageMap : String → Nat} {s : ChainStep V E} {l : Limiter}

theorem tryPreset_of_passedOver (h : s.PassedOver deadline usageMap l) :
    ∃ reason l', tryPreset deadline usageMap s l = .goesOn (.skipped reason) none l' := by
  obtain ⟨hdeadline, h⟩ := h
  by_cases hback : l.presetInBackoff s.backoffAt = true
  · exact ⟨.temporaryBackoff, l, by simp [tryPreset, hdeadline, hback]⟩
  · obtain ⟨⟨limit, l'⟩, hlimit⟩ : ∃ r, s.limited usageMap l = r := ⟨_, rfl⟩
    rw [hlimit] at h
    rw [ChainStep.limited] at hlimit
    rcases h with h | rfl | ⟨rfl, hslot⟩
    · exact absurd h hback
    · exact ⟨.rateLimited, l', by simp [tryPreset, hdeadline, hback, hlimit]⟩
    · exact ⟨.concurrencySlotTimeout, l', by simp [tryPreset, hdeadline, hback, hlimit, hslot]⟩

theorem tryPreset_of_reachesCall (h : s.ReachesCall deadline usageMap l) :
    ∃ l', tryPreset deadline usageMap s l = callPreset s l' := by
  obtain ⟨hdeadline, hback, hfree, hslot, hwait⟩ := h
  obtain ⟨⟨limit, l'⟩, hlimit⟩ : ∃ r, s.limited usageMap l = r := ⟨_, rfl⟩
  rw [hlimit] at hfree hwait
  rw [ChainStep.limited] at hlimit
  obtain ⟨⟨wait, l''⟩, hpolls⟩ : ∃ r, waitForRpm deadline s.preset s.polls l' = r := ⟨_, rfl⟩
  rw [hpolls] at hwait
  cases hfree
  cases hwait
  exact ⟨l'', by simp [tryPreset, hdeadline, hback, hlimit, hslot, hpolls]⟩

/-- **What a request does at a preset**: it passes it over, it ends there before
the call, or it makes the call. -/
theorem tryPreset_cases (deadline : Option Int) (usageMap : String → Nat) (s : ChainStep V E)
    (l : Limiter) :
    (s.PassedOver deadline usageMap l ∧ s.Refused usageMap l ∧
      ∃ reason l', tryPreset deadline usageMap s l = .goesOn (.skipped reason) none l') ∨
    (∃ reply l', tryPreset deadline usageMap s l = .ends .stopped reply l' ∧
      (reply = .aiRequestTimedOut ∨ reply = .waiting ∨ ∃ e, reply = .raised e)) ∨
    (s.ReachesCall deadline usageMap l ∧ ¬s.Refused usageMap l ∧
      ∃ l', tryPreset deadline usageMap s l = callPreset s l') := by
  by_cases hdeadline : deadlineExceeded deadline s.checkedAt = true
  · exact .inr (.inl ⟨_, l, by simp only [tryPreset, hdeadline, if_true], .inl rfl⟩)
  rw [Bool.not_eq_true] at hdeadline
  by_cases hback : l.presetInBackoff s.backoffAt = true
  · have hpassed : s.PassedOver deadline usageMap l := ⟨hdeadline, .inl hback⟩
    exact .inl ⟨hpassed, .inl hback, tryPreset_of_passedOver hpassed⟩
  obtain ⟨⟨limit, l'⟩, hlimit⟩ : ∃ r, s.limited usageMap l = r := ⟨_, rfl⟩
  rcases limit with e | limit
  · rw [ChainStep.limited] at hlimit
    exact .inr (.inl ⟨.raised e, l', by simp [tryPreset, hdeadline, hback, hlimit],
      .inr (.inr ⟨e, rfl⟩)⟩)
  have hreached := isPresetRateLimited_eq hlimit
  cases limit with
  | true =>
    have hpassed : s.PassedOver deadline usageMap l := ⟨hdeadline, .inr (.inl (by rw [hlimit]))⟩
    refine .inl ⟨hpassed, ?_, tryPreset_of_passedOver hpassed⟩
    simp only [Bool.true_eq, Bool.or_eq_true] at hreached
    rcases hreached with (h | h) | h
    · exact .inr (.inl h)
    · exact .inr (.inr (.inl h))
    · exact .inr (.inr (.inr (.inl h)))
  | false =>
    by_cases hslot : s.slotAcquired = true
    · obtain ⟨⟨wait, l''⟩, hpolls⟩ : ∃ r, waitForRpm deadline s.preset s.polls l' = r := ⟨_, rfl⟩
      have hlimit' := hlimit
      rw [ChainStep.limited] at hlimit'
      cases wait with
      | granted =>
        have hreaches : s.ReachesCall deadline usageMap l :=
          ⟨hdeadline, Bool.eq_false_iff.mpr hback, by rw [hlimit], hslot, by rw [hlimit, hpolls]⟩
        refine .inr (.inr ⟨hreaches, ?_, tryPreset_of_reachesCall hreaches⟩)
        simp only [Bool.false_eq, Bool.or_eq_false_iff] at hreached
        obtain ⟨⟨hrpm, htpm⟩, hcap⟩ := hreached
        simp [ChainStep.Refused, hback, hrpm, htpm, hcap, hslot]
      | timedOut =>
        exact .inr (.inl ⟨.aiRequestTimedOut, l'',
          by simp [tryPreset, hdeadline, hback, hlimit', hslot, hpolls], .inl rfl⟩)
      | waiting =>
        exact .inr (.inl ⟨.waiting, l'',
          by simp [tryPreset, hdeadline, hback, hlimit', hslot, hpolls], .inr (.inl rfl)⟩)
    · rw [Bool.not_eq_true] at hslot
      have hpassed : s.PassedOver deadline usageMap l :=
        ⟨hdeadline, .inr (.inr ⟨by rw [hlimit], hslot⟩)⟩
      exact .inl ⟨hpassed, .inr (.inr (.inr (.inr hslot))), tryPreset_of_passedOver hpassed⟩

/-- What the code takes for the outcome of a call is a value: the provider has
answered and both logs are written. -/
def ChainStep.LogsWritten (s : ChainStep V E) : Prop :=
  s.requestLog = .ok () ∧ s.usageLog = .ok ()

/-- **What follows a call.**  The request ends with the value of an answer whose
logs are written or with the deadline, and goes on from anything else. -/
theorem callPreset_cases (s : ChainStep V E) (l : Limiter) :
    (∃ value tokens l', s.answer = .ok (value, tokens) ∧ s.LogsWritten ∧
      callPreset s l = .ends (.called s.answer) (.value value) l') ∨
    (∃ l', callTracked s.answer s.requestLog = .error .aiRequestTimedOut ∧
      callPreset s l = .ends (.called s.answer) .aiRequestTimedOut l') ∨
    (∃ e l', callTracked s.answer s.requestLog ≠ .error .aiRequestTimedOut ∧
      (∀ x, s.answer = .ok x → ¬s.LogsWritten) ∧
      callPreset s l = .goesOn (.called s.answer) (some e) l') := by
  rcases hlog : s.requestLog with e | ⟨⟩
  · exact .inr (.inr ⟨e, _, by simp [callTracked], by simp [ChainStep.LogsWritten, hlog],
      by simp only [callPreset, callTracked, hlog]; rfl⟩)
  rcases hanswer : s.answer with (⟨⟩ | e) | ⟨value, tokens⟩
  · exact .inr (.inl ⟨_, by simp [callTracked],
      by simp only [callPreset, callTracked, hlog, hanswer]; rfl⟩)
  · exact .inr (.inr ⟨e, _, by simp [callTracked], by simp,
      by simp only [callPreset, callTracked, hlog, hanswer]; rfl⟩)
  rcases husage : s.usageLog with e | ⟨⟩
  · exact .inr (.inr ⟨e, _, by simp [callTracked], by simp [ChainStep.LogsWritten, husage],
      by simp only [callPreset, callTracked, hlog, hanswer, logPresetUsage, husage]; rfl⟩)
  · refine .inl ⟨value, tokens, ?_⟩
    by_cases htokens : 0 < tokens
    · exact ⟨_, rfl, ⟨hlog, husage⟩, by
        simp only [callPreset, callTracked, hlog, hanswer, logPresetUsage, husage, htokens, if_true]
        rfl⟩
    · exact ⟨_, rfl, ⟨hlog, husage⟩, by
        simp only [callPreset, callTracked, hlog, hanswer, logPresetUsage, husage, htokens, if_false]
        rfl⟩

end Router
end HamZaboon
