import Mathlib.Data.List.Basic
import Mathlib.Algebra.Order.Group.Int
import Mathlib.Tactic.Common

/-! # The limiter of a preset

`services/ai/limiter.py` and the checks of `services/ai/fallback_router.py`: a
preset of the fallback chain, the in-memory state its requests share, and the
tests that send a request on to the next preset.  Times are readings of the
monotonic clock in microseconds.  What other requests do to the same limiter
between two accesses is a function on it.
-/

namespace HamZaboon

/-- A row of `ai_presets`, as the router reads it.  `max_daily_req` has no
column default to fall back to but the registry's. -/
structure Preset where
  name : String
  maxRpm : Option Int
  maxTpm : Option Int
  maxDailyReq : Option Int
deriving DecidableEq, Repr

namespace Preset

/-- `_max_rpm`. -/
def rpm (p : Preset) : Int := p.maxRpm.getD 30

/-- `_max_tpm`. -/
def tpm (p : Preset) : Int := p.maxTpm.getD 0

/-- `preset_fields.resolve(preset, "max_daily_req")`. -/
def daily (p : Preset) : Int := p.maxDailyReq.getD 0

end Preset

def failureThreshold : Nat := 3

/-- `BACKOFF_SECONDS`, in microseconds. -/
def backoffMicros : Int := 60000000

/-- The 60 seconds of the request and token windows, in microseconds. -/
def windowMicros : Int := 60000000

/-- The limiter state of one preset name; the oldest times come first. -/
structure Limiter where
  requestTimes : List Int
  tokenTimes : List (Int × Nat)
  consecutiveFailures : Nat
  backoffUntil : Int
deriving DecidableEq, Repr

namespace Limiter

/-- The state `limiter_for` creates. -/
def fresh : Limiter := ⟨[], [], 0, 0⟩

/-- The request times after the `popleft` loop at `now`. -/
def recentRequests (l : Limiter) (now : Int) : List Int :=
  l.requestTimes.dropWhile fun t => windowMicros ≤ now - t

/-- The token times after the `popleft` loop at `now`. -/
def recentTokens (l : Limiter) (now : Int) : List (Int × Nat) :=
  l.tokenTimes.dropWhile fun t => windowMicros ≤ now - t.1

@[simp] theorem recentTokens_requestTimes (l : Limiter) (times : List Int) (now : Int) :
    { l with requestTimes := times }.recentTokens now = l.recentTokens now := rfl

def tokenCount (times : List (Int × Nat)) : Nat := times.foldr (fun t total => t.2 + total) 0

/-- `_preset_in_backoff`; no backoff is `0.0`. -/
def presetInBackoff (l : Limiter) (now : Int) : Bool := l.backoffUntil ≠ 0 && now < l.backoffUntil

/-- The preset has had its requests of the last minute. -/
def rpmReached (l : Limiter) (p : Preset) (now : Int) : Bool :=
  p.rpm ≤ (l.recentRequests now).length

/-- The preset has a token cap and has had its tokens of the last minute. -/
def tpmReached (l : Limiter) (p : Preset) (now : Int) : Bool :=
  0 < p.tpm && p.tpm ≤ tokenCount (l.recentTokens now)

/-- One more failure: the third in a row starts a backoff. -/
def fail (l : Limiter) (now : Int) : Limiter :=
  if failureThreshold ≤ l.consecutiveFailures + 1 then
    { l with backoffUntil := now + backoffMicros, consecutiveFailures := 0 }
  else { l with consecutiveFailures := l.consecutiveFailures + 1 }

/-- A success ends the streak of failures and the backoff. -/
def succeed (l : Limiter) : Limiter := { l with consecutiveFailures := 0, backoffUntil := 0 }

end Limiter

/-- A preset has a daily cap, and the usage read at the beginning reaches it. -/
def dailyCapReached (p : Preset) (usageMap : String → Nat) : Bool :=
  0 < p.daily && p.daily ≤ usageMap p.name

section Checks
variable {E : Type}

/-- `_is_daily_exhausted`: only a preset with a cap prunes, which may raise. -/
def isDailyExhausted (p : Preset) (usageMap : String → Nat) (prune : Except E Unit) :
    Except E Bool :=
  if p.daily ≤ 0 then .ok false
  else
    match prune with
    | .error e => .error e
    | .ok () => .ok (p.daily ≤ usageMap p.name)

/-- `_is_preset_rate_limited`: the minute's requests, the minute's tokens, then
the daily cap. -/
def isPresetRateLimited (p : Preset) (usageMap : String → Nat) (now : Int)
    (prune : Except E Unit) (l : Limiter) : Except E Bool × Limiter :=
  let l := { l with requestTimes := l.recentRequests now }
  if p.rpm ≤ l.requestTimes.length then (.ok true, l)
  else if 0 < p.tpm then
    let l := { l with tokenTimes := l.recentTokens now }
    if p.tpm ≤ Limiter.tokenCount l.tokenTimes then (.ok true, l)
    else (isDailyExhausted p usageMap prune, l)
  else (isDailyExhausted p usageMap prune, l)

theorem isDailyExhausted_eq {p : Preset} {usageMap : String → Nat} {prune : Except E Unit}
    {b : Bool} (h : isDailyExhausted p usageMap prune = .ok b) :
    b = dailyCapReached p usageMap := by
  simp only [isDailyExhausted] at h
  split_ifs at h with hcap
  · cases h
    have hcap' : ¬0 < p.daily := by omega
    simp [dailyCapReached, hcap']
  · rcases prune with e | ⟨⟩
    · cases h
    · cases h
      have hcap' : 0 < p.daily := by omega
      simp [dailyCapReached, hcap']

theorem isPresetRateLimited_eq {p : Preset} {usageMap : String → Nat} {now : Int}
    {prune : Except E Unit} {l l' : Limiter} {b : Bool}
    (h : isPresetRateLimited p usageMap now prune l = (.ok b, l')) :
    b = (l.rpmReached p now || l.tpmReached p now || dailyCapReached p usageMap) := by
  simp only [isPresetRateLimited] at h
  split_ifs at h with hrpm htpm htokens
  · obtain ⟨hb, -⟩ := Prod.mk.inj h
    cases hb
    simp [Limiter.rpmReached, hrpm]
  · obtain ⟨hb, -⟩ := Prod.mk.inj h
    cases hb
    have htokens' : l.tpmReached p now = true := by
      simpa [Limiter.tpmReached, htpm] using htokens
    simp [htokens']
  · obtain ⟨hb, -⟩ := Prod.mk.inj h
    have htokens' : l.tpmReached p now = false := by
      simpa [Limiter.tpmReached, htpm] using htokens
    simp [isDailyExhausted_eq hb, Limiter.rpmReached, hrpm, htokens']
  · obtain ⟨hb, -⟩ := Prod.mk.inj h
    simp [isDailyExhausted_eq hb, Limiter.rpmReached, Limiter.tpmReached, hrpm, htpm]

end Checks

/-- `_raise_if_deadline_exceeded` raises. -/
def deadlineExceeded (deadline : Option Int) (now : Int) : Bool :=
  match deadline with
  | some d => d ≤ now
  | none => false

/-- One round of the wait for a request slot: the two clock readings, and what
other requests have done to the limiter by then. -/
structure Poll where
  checkedAt : Int
  now : Int
  others : Limiter → Limiter

inductive Wait where
  | granted | timedOut | waiting
deriving DecidableEq, Repr

/-- The `while True` loop of `_call_ai_limited` over the rounds there are. -/
def waitForRpm (deadline : Option Int) (p : Preset) : List Poll → Limiter → Wait × Limiter
  | [], l => (.waiting, l)
  | poll :: polls, l =>
    if deadlineExceeded deadline poll.checkedAt then (.timedOut, l)
    else
      let l := poll.others l
      let recent := l.recentRequests poll.now
      if recent.length < p.rpm then
        (.granted, { l with requestTimes := recent ++ [poll.now] })
      else waitForRpm deadline p polls { l with requestTimes := recent }

end HamZaboon
