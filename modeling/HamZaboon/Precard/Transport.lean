import HamZaboon.Egress.Leases
import HamZaboon.Store.Restore
import Mathlib.Data.Nat.ModEq

/-! # Calls over a ring of keys

One model call, with another key after every rotate-class failure: the
synchronous `_call_with_rotation` and the asynchronous `_call_with_backoff` for
one caller at a time.  What the transport answers on each attempt is the call's
script.  The exhaustion streak `used` lives in the ring from call to call.

A reply ends the streak in the synchronous call and not in the asynchronous one,
and a `RateLimited` raised by the transport itself rotates in the latter only
(`callsExact_iff`).
-/

namespace HamZaboon
open Library

/-! ## Error actions -/

/-- The actions of `llm_json`. -/
inductive ErrorAction
  | rotate
  | cooldownSwitch
  | locationBlock
  | abort
  | retryOnce
  | failClosed
  deriving DecidableEq, Repr

def providerPrecodeSnippets : List (String × List (String × ErrorAction)) :=
  [("google", [("user location is not supported", .locationBlock),
    ("location is not supported", .locationBlock), ("resource_exhausted", .cooldownSwitch)])]

def genericPrecodeSnippets : List (String × ErrorAction) :=
  [("sanction", .locationBlock), ("unsupported country", .locationBlock)]

/-- `_CODE_RULES`, and the range of the server errors. -/
def codeRule (code : Int) : Option ErrorAction :=
  if code = 401 || code = 403 then some .abort
  else if code = 429 then some .rotate
  else if code = 408 then some .retryOnce
  else if 500 ≤ code && code ≤ 599 then some .retryOnce
  else none

def providerSnippets : List (String × List (String × ErrorAction)) :=
  [("zen", [("rate limit exceeded", .rotate), ("too many requests", .rotate),
    ("quota exceeded", .rotate)]), ("google", []),
    ("openrouter", [("rate limit", .rotate), ("quota exceeded", .rotate),
      ("temporarily unavailable", .retryOnce)]),
    ("avalai", [("rate limit exceeded", .rotate), ("service unavailable", .retryOnce),
      ("overloaded", .retryOnce)])]

def genericSnippets : List (String × ErrorAction) :=
  [("invalid_api_key", .abort), ("incorrect_api_key", .abort), ("invalid api key", .abort),
    ("timed out", .retryOnce), ("timeout", .retryOnce), ("deadline exceeded", .retryOnce)]

def snippetAction (snippets : List (String × ErrorAction)) (text : String) : Option ErrorAction :=
  (snippets.find? fun row => occursIn row.1 text).map (·.2)

def classify (lib : StrLib) (code : Option Int) (body provider : String) : ErrorAction :=
  let text := lib.lower body
  let prov := lib.normProvider (some provider)
  (((((snippetAction ((providerPrecodeSnippets.lookup prov).getD []) text).or
    (snippetAction genericPrecodeSnippets text)).or (code.bind codeRule)).or
    (snippetAction ((providerSnippets.lookup prov).getD []) text)).or
    (snippetAction genericSnippets text)).getD .failClosed

/-! ## The ring -/

structure KeyRing where
  keys : List String
  idx : Nat
  used : Nat
  idx_lt : idx < keys.length
  used_lt : used < keys.length

namespace KeyRing

/-- `KeyRing(keys)`. -/
def ofKeys (keys : List String) : Except String KeyRing :=
  let keys := keys.filter (· ≠ "")
  if h : 0 < keys.length then .ok ⟨keys, 0, 0, h, h⟩
  else .error ("KeyRing needs at least one non-empty key " ++
    "(set the provider key in factory/.env)")

def current (r : KeyRing) : String := r.keys.get ⟨r.idx, r.idx_lt⟩

/-- `ring.used = 0`. -/
def settled (r : KeyRing) : KeyRing :=
  ⟨r.keys, r.idx, 0, r.idx_lt, Nat.lt_of_le_of_lt (Nat.zero_le _) r.used_lt⟩

theorem pos (r : KeyRing) : 0 < r.keys.length := Nat.lt_of_le_of_lt (Nat.zero_le _) r.idx_lt

/-- `rotate`: false when every key has just failed. -/
def rotate (r : KeyRing) : KeyRing × Bool :=
  if h : r.keys.length ≤ r.used + 1 then
    (⟨r.keys, (r.idx + 1) % r.keys.length, 0, Nat.mod_lt _ r.pos, r.pos⟩, false)
  else
    (⟨r.keys, (r.idx + 1) % r.keys.length, r.used + 1, Nat.mod_lt _ r.pos, Nat.lt_of_not_le h⟩, true)

/-- The attempts left before the ring is exhausted. -/
def left (r : KeyRing) : Nat := r.keys.length - r.used

@[simp] theorem keys_rotate (r : KeyRing) : r.rotate.1.keys = r.keys := by
  unfold rotate
  split <;> rfl

@[simp] theorem idx_rotate (r : KeyRing) : r.rotate.1.idx = (r.idx + 1) % r.keys.length := by
  unfold rotate
  split <;> rfl

theorem used_rotate (r : KeyRing) :
    r.rotate.1.used = if r.rotate.2 = true then r.used + 1 else 0 := by
  unfold rotate
  split <;> rfl

theorem rotate_more_iff (r : KeyRing) : r.rotate.2 = true ↔ r.used + 1 < r.keys.length := by
  unfold rotate
  split
  · rename_i h
    exact ⟨nofun, fun hlt => absurd h (Nat.not_le.mpr hlt)⟩
  · rename_i h
    exact ⟨fun _ => Nat.lt_of_not_le h, fun _ => rfl⟩

theorem left_rotate {r : KeyRing} (h : r.rotate.2 = true) : r.rotate.1.left < r.left := by
  have hlt := (rotate_more_iff r).mp h
  unfold left
  rw [used_rotate, if_pos h, keys_rotate]
  omega

theorem rotate_eq_self_iff {ring : KeyRing} (h : ring.rotate.2 ≠ true) :
    ring.rotate.1 = ring ↔ ring.keys.length = 1 := by
  have hidx := ring.idx_lt
  have hused := ring.used_lt
  have hlast := fun hlt => h (ring.rotate_more_iff.mpr hlt)
  constructor
  · intro hring
    have hmoved := ring.idx_rotate
    rw [hring] at hmoved
    by_contra hne
    -- with two keys or more the index moves
    rcases Nat.lt_or_ge (ring.idx + 1) ring.keys.length with hlt | hge
    · rw [Nat.mod_eq_of_lt hlt] at hmoved
      omega
    · have hlen : ring.idx + 1 = ring.keys.length := by omega
      rw [hlen, Nat.mod_self] at hmoved
      omega
  · intro hone
    have hi := ring.idx_rotate
    have hu := ring.used_rotate
    have hk := ring.keys_rotate
    rw [if_neg h] at hu
    rw [hone, Nat.mod_one] at hi
    obtain ⟨keys, idx, used, _, _⟩ := ring
    generalize KeyRing.rotate _ = rotated at *
    obtain ⟨⟨keys', idx', used', _, _⟩, more⟩ := rotated
    simp only at hi hu hk hone
    have hidx0 : idx = 0 := by omega
    have hused0 : used = 0 := by omega
    subst hi hu hk hidx0 hused0
    rfl

end KeyRing

/-! ## One call -/

/-- What the transport answers on an attempt: a value, which unpacks into two or
not, or an exception. -/
inductive Answer
  | reply (text : String) (pair : Bool)
  | httpError (code : Int) (body : String)
  | rateLimited
  | providerCooldown
  | locationBlocked
  | authError
  | timeout
  | failed
  deriving DecidableEq, Repr

/-- How a call ends; `exhausted` is the `RateLimited` of a rotation,
`rateLimited` the transport's own, and `failed` fails the item closed. -/
inductive CallResult
  | text (text : String)
  | exhausted
  | rateLimited
  | providerCooldown
  | locationBlocked
  | authError
  | failed
  deriving DecidableEq, Repr

inductive CallKind
  | text
  | rateLimited
  | providerCooldown
  | locationBlocked
  | authError
  | failed
  deriving DecidableEq, Repr

def CallResult.kind : CallResult → CallKind
  | .text _ => .text
  | .exhausted | .rateLimited => .rateLimited
  | .providerCooldown => .providerCooldown
  | .locationBlocked => .locationBlocked
  | .authError => .authError
  | .failed => .failed

/-- The keys that were tried with their answers, the result and the ring. -/
structure CallOutcome where
  tried : List (Nat × Answer)
  result : CallResult
  ring : KeyRing

def CallOutcome.after (attempt : Nat × Answer) (o : CallOutcome) : CallOutcome :=
  { o with tried := attempt :: o.tried }

/-- What a call is given besides the ring. -/
structure CallConfig where
  lib : StrLib
  provider : String
  /-- `float(timeout_s)`, where it is a number. -/
  timeoutS : Option Rat

/-- `_action_for_http_error`. -/
def CallConfig.action (cfg : CallConfig) (code : Int) (body : String) : ErrorAction :=
  classify cfg.lib (some code) body cfg.provider

/-- How an HTTP error ends a call, unless another key is tried. -/
def CallConfig.httpEnd (cfg : CallConfig) (code : Int) (body : String) : Option CallResult :=
  match cfg.action code body with
  | .locationBlock => some .locationBlocked
  | .cooldownSwitch => some .providerCooldown
  | .abort => some .authError
  | .rotate => none
  | .retryOnce | .failClosed => some .failed

def laterAnswers (script : Nat → Answer) : Nat → Answer := fun k => script (k + 1)

/-- How an answer ends `_call_with_rotation`, unless another key is tried. -/
def CallConfig.rotationEnd (cfg : CallConfig) : Answer → Option CallResult
  | .reply text _ => some (.text text)
  | .httpError code body => cfg.httpEnd code body
  | .rateLimited => some .rateLimited
  | .providerCooldown => some .providerCooldown
  | .locationBlocked => some .locationBlocked
  | .authError => some .authError
  | .timeout | .failed => some .failed

def callWithRotation (cfg : CallConfig) (ring : KeyRing) (script : Nat → Answer) : CallOutcome :=
  match cfg.rotationEnd (script 0) with
  | some (.text text) => ⟨[(ring.idx, script 0)], .text text, ring.settled⟩
  | some result => ⟨[(ring.idx, script 0)], result, ring⟩
  | none =>
    if _h : ring.rotate.2 = true then
      (callWithRotation cfg ring.rotate.1 (laterAnswers script)).after (ring.idx, script 0)
    else ⟨[(ring.idx, script 0)], .exhausted, ring.rotate.1⟩
termination_by ring.left
decreasing_by exact KeyRing.left_rotate _h

/-- How an answer ends `_call_with_backoff`: the value is unpacked in the same
`try`, and a `RateLimited` rotates. -/
def CallConfig.backoffEnd (cfg : CallConfig) : Answer → Option CallResult
  | .reply text pair => some (if pair then .text text else .failed)
  | .httpError code body => cfg.httpEnd code body
  | .rateLimited => none
  | .providerCooldown => some .providerCooldown
  | .locationBlocked => some .locationBlocked
  | .authError => some .authError
  | .timeout | .failed => some .failed

/-- The attempts of `_call_with_backoff`. -/
def backoffAttempts (cfg : CallConfig) (ring : KeyRing) (script : Nat → Answer) : CallOutcome :=
  match cfg.backoffEnd (script 0) with
  | some result => ⟨[(ring.idx, script 0)], result, ring⟩
  | none =>
    if _h : ring.rotate.2 = true then
      (backoffAttempts cfg ring.rotate.1 (laterAnswers script)).after (ring.idx, script 0)
    else ⟨[(ring.idx, script 0)], .exhausted, ring.rotate.1⟩
termination_by ring.left
decreasing_by exact KeyRing.left_rotate _h

def CallConfig.validBudget (cfg : CallConfig) : Bool := cfg.timeoutS.any (0 < ·)

def callWithBackoff (cfg : CallConfig) (ring : KeyRing) (script : Nat → Answer) : CallOutcome :=
  if cfg.validBudget then backoffAttempts cfg ring script else ⟨[], .failed, ring⟩

/-! ## Runs of calls -/

/-- The calls of a run, one after another on the same ring. -/
def runCalls (call : KeyRing → (Nat → Answer) → CallOutcome) :
    KeyRing → List (Nat → Answer) → List CallOutcome
  | _, [] => []
  | ring, script :: scripts => call ring script :: runCalls call (call ring script).ring scripts

/-- The answer makes a key be left for the next one, or is such a failure raised
by the transport itself. -/
def CallConfig.rotateClass (cfg : CallConfig) : Answer → Bool
  | .httpError code body => cfg.action code body = .rotate
  | .rateLimited => true
  | _ => false

/-- The keys that answered with a rotate-class failure. -/
def CallConfig.rotateFailures (cfg : CallConfig) (tried : List (Nat × Answer)) : List Nat :=
  (tried.filter fun attempt => cfg.rotateClass attempt.2).map (·.1)

/-- Rotation raises `RateLimited` only when every key has answered with a
rotate-class failure since the last successful call; `since` are those keys. -/
def ExhaustedByAll (cfg : CallConfig) (call : KeyRing → (Nat → Answer) → CallOutcome) :
    KeyRing → List Nat → List (Nat → Answer) → Prop
  | _, _, [] => True
  | ring, since, script :: scripts =>
    let o := call ring script
    let failures := since ++ cfg.rotateFailures o.tried
    (o.result = .exhausted → ∀ i < ring.keys.length, i ∈ failures) ∧
      ExhaustedByAll cfg call o.ring (if o.result.kind = .text then [] else failures) scripts

/-- What the two implementations must have in common: the keys they try in their
order, the kind of the result and the ring. -/
def CallOutcome.view (o : CallOutcome) : List Nat × CallKind × KeyRing :=
  (o.tried.map (·.1), o.result.kind, o.ring)

def CallConfig.httpRotates (cfg : CallConfig) : Answer → Bool
  | .httpError code body => cfg.action code body = .rotate
  | _ => false

/-- The first answer that is no rotating HTTP error, within the keys that are
left, is neither a reply while a streak stands or one that does not unpack, nor
(with more than one key) the transport's own `RateLimited`. -/
def AttemptsAgree (cfg : CallConfig) (ring : KeyRing) (script : Nat → Answer) : Prop :=
  ∀ k < ring.left, (∀ j < k, cfg.httpRotates (script j) = true) →
    match script k with
    | .reply _ pair => pair = true ∧ ring.used + k = 0
    | .rateLimited => ring.keys.length = 1
    | _ => True

/-- The condition on a call: besides, the time budget is a positive number. -/
def CallAgrees (cfg : CallConfig) (ring : KeyRing) (script : Nat → Answer) : Prop :=
  cfg.validBudget = true ∧ AttemptsAgree cfg ring script

section Agreement
variable {cfg : CallConfig} {ring : KeyRing} {script : Nat → Answer}

theorem KeyRing.left_pos (r : KeyRing) : 0 < r.left := Nat.sub_pos_of_lt r.used_lt

theorem httpEnd_eq_none {code : Int} {body : String} :
    cfg.httpEnd code body = none ↔ cfg.action code body = .rotate := by
  unfold CallConfig.httpEnd
  split <;> simp_all

theorem kind_httpEnd {code : Int} {body : String} {result : CallResult}
    (h : cfg.httpEnd code body = some result) : result.kind ≠ .text := by
  unfold CallConfig.httpEnd at h
  split at h
  · obtain rfl := Option.some.inj h
    decide
  · obtain rfl := Option.some.inj h
    decide
  · obtain rfl := Option.some.inj h
    decide
  · cases h
  all_goals
    obtain rfl := Option.some.inj h
    decide

theorem rotationEnd_eq_none {a : Answer} :
    cfg.rotationEnd a = none ↔ cfg.httpRotates a = true := by
  cases a <;> simp [CallConfig.rotationEnd, CallConfig.httpRotates, httpEnd_eq_none]

theorem backoffEnd_eq_none {a : Answer} :
    cfg.backoffEnd a = none ↔ cfg.rotateClass a = true := by
  cases a <;> simp [CallConfig.backoffEnd, CallConfig.rotateClass, httpEnd_eq_none]

theorem rotateClass_of_httpRotates {a : Answer} (h : cfg.httpRotates a = true) :
    cfg.rotateClass a = true := by
  cases a <;> simp_all [CallConfig.httpRotates, CallConfig.rotateClass]

theorem attemptsAgree_of_end (h : cfg.httpRotates (script 0) = false) :
    AttemptsAgree cfg ring script ↔
      match script 0 with
      | .reply _ pair => pair = true ∧ ring.used = 0
      | .rateLimited => ring.keys.length = 1
      | _ => True := by
  constructor
  · intro hagree
    exact hagree 0 ring.left_pos nofun
  · intro hzero k _ hrot
    cases k with
    | zero => exact hzero
    | succ k =>
      have hfirst := hrot 0 (Nat.succ_pos k)
      rw [h] at hfirst
      cases hfirst

theorem attemptsAgree_of_rotate (h : cfg.httpRotates (script 0) = true) :
    AttemptsAgree cfg ring script ↔
      (ring.rotate.2 = true → AttemptsAgree cfg ring.rotate.1 (laterAnswers script)) := by
  have hhead : ∀ P : String → Bool → Prop, ∀ Q : Prop, (match script 0 with
      | .reply text pair => P text pair
      | .rateLimited => Q
      | _ => True) := by
    intro P Q
    cases hs : script 0 <;> simp_all [CallConfig.httpRotates]
  have hleft : ring.rotate.2 = true → ring.rotate.1.left + 1 = ring.left := by
    intro hmore
    have hlt := ring.rotate_more_iff.mp hmore
    unfold KeyRing.left
    rw [KeyRing.used_rotate, if_pos hmore, KeyRing.keys_rotate]
    omega
  constructor
  · intro hagree hmore k hk hrot
    have hlater := hagree (k + 1) (by rw [← hleft hmore]; omega) (fun j hj => by
      cases j with
      | zero => exact h
      | succ j => exact hrot j (by omega))
    rw [KeyRing.used_rotate, if_pos hmore, KeyRing.keys_rotate, Nat.add_right_comm]
    exact hlater
  · intro hagree k hk hrot
    cases k with
    | zero => exact hhead _ _
    | succ k =>
      have hmore : ring.rotate.2 = true := by
        rw [KeyRing.rotate_more_iff]
        unfold KeyRing.left at hk
        omega
      have hlater := hagree hmore k (by rw [← hleft hmore] at hk; omega) (fun j hj =>
        hrot (j + 1) (by omega))
      rw [KeyRing.used_rotate, if_pos hmore, KeyRing.keys_rotate, Nat.add_right_comm] at hlater
      exact hlater

/-! ### One call on both sides -/

theorem callWithRotation_of_end {result : CallResult}
    (h : cfg.rotationEnd (script 0) = some result) (htext : result.kind ≠ .text) :
    callWithRotation cfg ring script = ⟨[(ring.idx, script 0)], result, ring⟩ := by
  rw [callWithRotation, h]
  cases result <;> first | rfl | exact absurd rfl htext

theorem callWithRotation_of_text {text : String}
    (h : cfg.rotationEnd (script 0) = some (.text text)) :
    callWithRotation cfg ring script = ⟨[(ring.idx, script 0)], .text text, ring.settled⟩ := by
  rw [callWithRotation, h]

theorem callWithRotation_of_rotate (h : cfg.httpRotates (script 0) = true) :
    callWithRotation cfg ring script =
      if ring.rotate.2 = true then
        (callWithRotation cfg ring.rotate.1 (laterAnswers script)).after (ring.idx, script 0)
      else ⟨[(ring.idx, script 0)], .exhausted, ring.rotate.1⟩ := by
  rw [callWithRotation, rotationEnd_eq_none.mpr h]
  exact dite_eq_ite

theorem backoffAttempts_of_end {result : CallResult}
    (h : cfg.backoffEnd (script 0) = some result) :
    backoffAttempts cfg ring script = ⟨[(ring.idx, script 0)], result, ring⟩ := by
  rw [backoffAttempts, h]

theorem backoffAttempts_of_rotate (h : cfg.rotateClass (script 0) = true) :
    backoffAttempts cfg ring script =
      if ring.rotate.2 = true then
        (backoffAttempts cfg ring.rotate.1 (laterAnswers script)).after (ring.idx, script 0)
      else ⟨[(ring.idx, script 0)], .exhausted, ring.rotate.1⟩ := by
  rw [backoffAttempts, backoffEnd_eq_none.mpr h]
  exact dite_eq_ite

theorem tried_backoffAttempts (cfg : CallConfig) (ring : KeyRing) (script : Nat → Answer) :
    (backoffAttempts cfg ring script).tried ≠ [] := by
  rw [backoffAttempts]
  split
  · exact List.cons_ne_nil _ _
  · split <;> exact List.cons_ne_nil _ _

theorem after_view {o o' : CallOutcome} {attempt : Nat × Answer} :
    (o.after attempt).view = (o'.after attempt).view ↔ o.view = o'.view := by
  simp [CallOutcome.view, CallOutcome.after]

theorem view_of_same_end {result : CallResult} (h : cfg.rotationEnd (script 0) = some result)
    (h' : cfg.backoffEnd (script 0) = some result) (htext : result.kind ≠ .text) :
    (callWithRotation cfg ring script).view = (backoffAttempts cfg ring script).view := by
  rw [callWithRotation_of_end h htext, backoffAttempts_of_end h']

theorem rateLimited_view (h : script 0 = .rateLimited) :
    (callWithRotation cfg ring script).view = (backoffAttempts cfg ring script).view ↔
      ring.keys.length = 1 := by
  have hend : cfg.rotationEnd (script 0) = some .rateLimited := by rw [h]; rfl
  have hclass : cfg.rotateClass (script 0) = true := by rw [h]; rfl
  rw [callWithRotation_of_end hend nofun, backoffAttempts_of_rotate hclass]
  by_cases hmore : ring.rotate.2 = true
  · have hlt := ring.rotate_more_iff.mp hmore
    rw [if_pos hmore]
    refine iff_of_false (fun heq => ?_) (by omega)
    have hkeys : [ring.idx] = ring.idx ::
        (backoffAttempts cfg ring.rotate.1 (laterAnswers script)).tried.map (·.1) :=
      congrArg (·.1) heq
    exact tried_backoffAttempts _ _ _ (List.map_eq_nil_iff.mp (List.cons.inj hkeys).2.symm)
  · rw [if_neg hmore, ← KeyRing.rotate_eq_self_iff hmore]
    constructor
    · intro heq
      have hring : ring = ring.rotate.1 := congrArg (·.2.2) heq
      exact hring.symm
    · intro hring
      rw [hring]
      rfl

theorem reply_view {text : String} {pair : Bool} (h : script 0 = .reply text pair) :
    (callWithRotation cfg ring script).view = (backoffAttempts cfg ring script).view ↔
      pair = true ∧ ring.used = 0 := by
  have hsync : cfg.rotationEnd (script 0) = some (.text text) := by rw [h]; rfl
  have hasync : cfg.backoffEnd (script 0) = some (if pair then .text text else .failed) := by
    rw [h]
    rfl
  rw [callWithRotation_of_text hsync, backoffAttempts_of_end hasync]
  cases pair with
  | false =>
    exact iff_of_false (fun heq => by cases congrArg (·.2.1) heq) (fun hpair => by cases hpair.1)
  | true =>
    constructor
    · intro heq
      have hring : ring.settled = ring := congrArg (·.2.2) heq
      exact ⟨rfl, by rw [← hring]; rfl⟩
    · rintro ⟨-, hzero⟩
      have hring : ring.settled = ring := by
        obtain ⟨keys, idx, used, _, _⟩ := ring
        subst hzero
        rfl
      rw [hring]
      rfl

/-- **When the two implementations agree on a call.** -/
theorem view_eq_iff : (callWithRotation cfg ring script).view =
    (backoffAttempts cfg ring script).view ↔ AttemptsAgree cfg ring script := by
  induction hn : ring.left using Nat.strongRecOn generalizing ring script with
  | ind n ih =>
    cases hrot : cfg.httpRotates (script 0) with
    | true =>
      rw [attemptsAgree_of_rotate hrot, callWithRotation_of_rotate hrot,
        backoffAttempts_of_rotate (rotateClass_of_httpRotates hrot)]
      by_cases hmore : ring.rotate.2 = true
      · rw [if_pos hmore, if_pos hmore, after_view]
        rw [ih _ (hn ▸ KeyRing.left_rotate hmore) rfl]
        exact ⟨fun h _ => h, fun h => h hmore⟩
      · rw [if_neg hmore, if_neg hmore]
        exact iff_of_true rfl fun h => absurd h hmore
    | false =>
      rw [attemptsAgree_of_end hrot]
      have hend : ∀ result {a}, script 0 = a → cfg.rotationEnd a = some result →
          cfg.backoffEnd a = some result → result.kind ≠ .text →
          (callWithRotation cfg ring script).view = (backoffAttempts cfg ring script).view := by
        rintro result a rfl hr hb htext
        exact view_of_same_end hr hb htext
      cases hs : script 0 with
      | reply text pair => exact reply_view hs
      | rateLimited => exact rateLimited_view hs
      | httpError code body =>
        rw [hs] at hrot
        obtain ⟨result, hresult⟩ : ∃ result, cfg.httpEnd code body = some result :=
          Option.ne_none_iff_exists'.mp fun hnone => by
            rw [CallConfig.httpRotates, decide_eq_false_iff_not] at hrot
            exact hrot (httpEnd_eq_none.mp hnone)
        have htext := kind_httpEnd hresult
        exact iff_of_true (hend result hs hresult hresult htext) trivial
      | providerCooldown => exact iff_of_true (hend .providerCooldown hs rfl rfl nofun) trivial
      | locationBlocked => exact iff_of_true (hend .locationBlocked hs rfl rfl nofun) trivial
      | authError => exact iff_of_true (hend .authError hs rfl rfl nofun) trivial
      | timeout => exact iff_of_true (hend .failed hs rfl rfl nofun) trivial
      | failed => exact iff_of_true (hend .failed hs rfl rfl nofun) trivial

theorem tried_callWithRotation (cfg : CallConfig) (ring : KeyRing) (script : Nat → Answer) :
    (callWithRotation cfg ring script).tried ≠ [] := by
  rw [callWithRotation]
  split
  · exact List.cons_ne_nil _ _
  · exact List.cons_ne_nil _ _
  · split <;> exact List.cons_ne_nil _ _

theorem callAgrees_iff : (callWithRotation cfg ring script).view =
    (callWithBackoff cfg ring script).view ↔ CallAgrees cfg ring script := by
  rw [callWithBackoff, CallAgrees, ← view_eq_iff]
  by_cases hbudget : cfg.validBudget = true
  · rw [if_pos hbudget]
    exact (and_iff_right hbudget).symm
  · rw [if_neg hbudget]
    refine iff_of_false (fun h => ?_) fun h => hbudget h.1
    have hkeys : (callWithRotation cfg ring script).tried.map (·.1) = [] := congrArg (·.1) h
    exact tried_callWithRotation cfg ring script (List.map_eq_nil_iff.mp hkeys)

end Agreement

/-! ## Attempts -/

section Attempts
variable (cfg : CallConfig) (ring : KeyRing) (script : Nat → Answer)

theorem attempts_callWithRotation : (callWithRotation cfg ring script).tried.length ≤ ring.left := by
  fun_induction callWithRotation cfg ring script with
  | case1 ring => exact ring.left_pos
  | case2 ring => exact ring.left_pos
  | case3 ring script _ hmore ih => exact Nat.lt_of_le_of_lt ih (KeyRing.left_rotate hmore)
  | case4 ring => exact ring.left_pos

theorem attempts_callWithBackoff : (callWithBackoff cfg ring script).tried.length ≤ ring.left := by
  unfold callWithBackoff
  split
  · fun_induction backoffAttempts cfg ring script with
    | case1 ring => exact ring.left_pos
    | case2 ring script _ hmore ih => exact Nat.lt_of_le_of_lt ih (KeyRing.left_rotate hmore)
    | case3 ring => exact ring.left_pos
  · exact Nat.zero_le _

theorem keys_callWithRotation : (callWithRotation cfg ring script).ring.keys = ring.keys := by
  fun_induction callWithRotation cfg ring script with
  | case1 ring => rfl
  | case2 ring => rfl
  | case3 ring script _ hmore ih => exact ih.trans ring.keys_rotate
  | case4 ring => exact ring.keys_rotate

theorem keys_callWithBackoff : (callWithBackoff cfg ring script).ring.keys = ring.keys := by
  unfold callWithBackoff
  split
  · fun_induction backoffAttempts cfg ring script with
    | case1 ring => rfl
    | case2 ring script _ hmore ih => exact ih.trans ring.keys_rotate
    | case3 ring => exact ring.keys_rotate
  · rfl

theorem attempts_runCalls {call : KeyRing → (Nat → Answer) → CallOutcome}
    (hattempts : ∀ r s, (call r s).tried.length ≤ r.left)
    (hkeys : ∀ r s, (call r s).ring.keys = r.keys) (scripts : List (Nat → Answer)) :
    ∀ o ∈ runCalls call ring scripts, o.tried.length ≤ ring.keys.length := by
  induction scripts generalizing ring with
  | nil => exact nofun
  | cons script scripts ih =>
    intro o ho
    rcases List.mem_cons.mp ho with rfl | ho
    · exact Nat.le_trans (hattempts ring script) (Nat.sub_le _ _)
    · have hlater := ih (call ring script).ring o ho
      rwa [hkeys] at hlater

end Attempts

/-! ## Exhaustion -/

/-- The keys of the streak, which are the last `used` ones before the current
one, are among `since`. -/
def StreakCovered (ring : KeyRing) (since : List Nat) : Prop :=
  ∀ i < ring.keys.length, ∀ d < ring.used, (i + d + 1) % ring.keys.length = ring.idx → i ∈ since

section Exhaustion
variable {cfg : CallConfig} {ring : KeyRing} {script : Nat → Answer} {since : List Nat}

theorem StreakCovered.of_fresh (h : ring.used = 0) : StreakCovered ring since := by
  intro i _ d hd
  rw [h] at hd
  exact absurd hd (Nat.not_lt_zero d)

theorem StreakCovered.append (h : StreakCovered ring since) (more : List Nat) : StreakCovered ring (since ++ more) :=
  fun i hi d hd heq => List.mem_append_left _ (h i hi d hd heq)

theorem StreakCovered.rotate (h : StreakCovered ring since) (hmore : ring.rotate.2 = true) :
    StreakCovered ring.rotate.1 (since ++ [ring.idx]) := by
  intro i hi d hd heq
  rw [KeyRing.keys_rotate] at hi heq
  rw [KeyRing.used_rotate, if_pos hmore] at hd
  rw [KeyRing.idx_rotate] at heq
  have hsame : (i + d) % ring.keys.length = ring.idx % ring.keys.length :=
    Nat.ModEq.add_right_cancel' 1 heq
  rw [Nat.mod_eq_of_lt ring.idx_lt] at hsame
  cases d with
  | zero =>
    rw [Nat.add_zero, Nat.mod_eq_of_lt hi] at hsame
    exact List.mem_append_right _ (List.mem_singleton.mpr hsame)
  | succ d => exact List.mem_append_left _ (h i hi d (by omega) hsame)

theorem StreakCovered.all (h : StreakCovered ring since) (hlast : ¬ ring.rotate.2 = true) :
    ∀ i < ring.keys.length, i ∈ since ++ [ring.idx] := by
  intro i hi
  have hused := ring.used_lt
  have hidx := ring.idx_lt
  rw [KeyRing.rotate_more_iff] at hlast
  by_cases hcur : i = ring.idx
  · exact List.mem_append_right _ (List.mem_singleton.mpr hcur)
  · refine List.mem_append_left _ ?_
    rcases Nat.lt_or_ge i ring.idx with hlt | hge
    · refine h i hi (ring.idx - i - 1) (by omega) ?_
      rw [show i + (ring.idx - i - 1) + 1 = ring.idx by omega, Nat.mod_eq_of_lt hidx]
    · refine h i hi (ring.keys.length - 1 - (i - ring.idx)) (by omega) ?_
      rw [show i + (ring.keys.length - 1 - (i - ring.idx)) + 1 = ring.idx + ring.keys.length by omega,
        Nat.add_mod_right, Nat.mod_eq_of_lt hidx]

theorem rotateFailures_cons {attempt : Nat × Answer} (h : cfg.rotateClass attempt.2 = true)
    (tried : List (Nat × Answer)) :
    cfg.rotateFailures (attempt :: tried) = attempt.1 :: cfg.rotateFailures tried := by
  simp only [CallConfig.rotateFailures, List.filter_cons, h, if_true, List.map_cons]

/-- What a call must leave behind: an exhausted ring has failed with every key,
and the streak of the ring is covered. -/
def Exhausts (cfg : CallConfig) (ring : KeyRing) (since : List Nat) (o : CallOutcome) : Prop :=
  (o.result = .exhausted → ∀ i < ring.keys.length, i ∈ since ++ cfg.rotateFailures o.tried) ∧
    StreakCovered o.ring (if o.result.kind = .text then [] else since ++ cfg.rotateFailures o.tried)

theorem Exhausts.after {o : CallOutcome} (hclass : cfg.rotateClass (script 0) = true)
    (h : Exhausts cfg ring.rotate.1 (since ++ [ring.idx]) o) :
    Exhausts cfg ring since (o.after (ring.idx, script 0)) := by
  have htried : since ++ cfg.rotateFailures (o.after (ring.idx, script 0)).tried =
      since ++ [ring.idx] ++ cfg.rotateFailures o.tried := by
    rw [CallOutcome.after, rotateFailures_cons hclass, List.append_assoc]
    rfl
  unfold Exhausts
  rw [htried]
  rw [Exhausts, KeyRing.keys_rotate] at h
  exact h

theorem Exhausts.exhausted (hclass : cfg.rotateClass (script 0) = true) (h : StreakCovered ring since)
    (hlast : ¬ ring.rotate.2 = true) :
    Exhausts cfg ring since ⟨[(ring.idx, script 0)], .exhausted, ring.rotate.1⟩ := by
  refine ⟨fun _ => ?_, .of_fresh (by rw [KeyRing.used_rotate, if_neg hlast])⟩
  rw [rotateFailures_cons hclass]
  exact h.all hlast

theorem rotationEnd_ne_exhausted {a : Answer} : cfg.rotationEnd a ≠ some .exhausted := by
  cases a with
  | httpError code body =>
    simp only [CallConfig.rotationEnd, CallConfig.httpEnd]
    split <;> exact nofun
  | _ => exact nofun

theorem exhausts_callWithRotation (h : StreakCovered ring since) :
    Exhausts cfg ring since (callWithRotation cfg ring script) := by
  fun_induction callWithRotation cfg ring script generalizing since with
  | case1 ring => exact ⟨nofun, .of_fresh rfl⟩
  | case2 ring script result htext hend =>
    refine ⟨fun hex => ?_, ?_⟩
    · have hresult : result = .exhausted := hex
      exact absurd (hresult ▸ hend) rotationEnd_ne_exhausted
    · rw [if_neg]
      · exact h.append _
      · intro hkind
        cases result with
        | text text => exact htext text rfl
        | _ => cases hkind
  | case3 ring script hend hmore ih =>
    exact .after (rotateClass_of_httpRotates (rotationEnd_eq_none.mp hend)) (ih (h.rotate hmore))
  | case4 ring script hend hlast =>
    exact .exhausted (rotateClass_of_httpRotates (rotationEnd_eq_none.mp hend)) h hlast

theorem backoffEnd_ne_exhausted {a : Answer} : cfg.backoffEnd a ≠ some .exhausted := by
  cases a with
  | reply text pair => cases pair <;> exact nofun
  | httpError code body =>
    simp only [CallConfig.backoffEnd, CallConfig.httpEnd]
    split <;> exact nofun
  | _ => exact nofun

theorem used_eq_zero_of_text {result : CallResult} (hagree : AttemptsAgree cfg ring script)
    (hend : cfg.backoffEnd (script 0) = some result) (htext : result.kind = .text) :
    ring.used = 0 := by
  have hfirst := hagree 0 ring.left_pos nofun
  cases hs : script 0 with
  | reply text pair =>
    rw [hs] at hfirst
    exact hfirst.2
  | httpError code body =>
    rw [hs] at hend
    exact absurd htext (kind_httpEnd hend)
  | rateLimited =>
    rw [hs] at hend
    cases hend
  | providerCooldown | locationBlocked | authError | timeout | failed =>
    rw [hs] at hend
    obtain rfl := Option.some.inj hend
    cases htext

theorem AttemptsAgree.rotated (hagree : AttemptsAgree cfg ring script)
    (hclass : cfg.rotateClass (script 0) = true) (hmore : ring.rotate.2 = true) :
    AttemptsAgree cfg ring.rotate.1 (laterAnswers script) := by
  cases hrot : cfg.httpRotates (script 0) with
  | true => exact (attemptsAgree_of_rotate hrot).mp hagree hmore
  | false =>
    -- the transport's own `RateLimited`: there is one key, so nothing is left to rotate to
    have hfirst := hagree 0 ring.left_pos nofun
    have hlt := ring.rotate_more_iff.mp hmore
    cases hs : script 0 with
    | rateLimited =>
      rw [hs] at hfirst
      exact absurd hfirst (by omega)
    | httpError code body =>
      rw [hs] at hclass hrot
      rw [CallConfig.rotateClass] at hclass
      rw [CallConfig.httpRotates, hclass] at hrot
      cases hrot
    | reply | providerCooldown | locationBlocked | authError | timeout | failed =>
      rw [hs] at hclass
      cases hclass

theorem exhausts_backoffAttempts (h : StreakCovered ring since) (hagree : AttemptsAgree cfg ring script) :
    Exhausts cfg ring since (backoffAttempts cfg ring script) := by
  fun_induction backoffAttempts cfg ring script generalizing since with
  | case1 ring script result hend =>
    refine ⟨fun hex => ?_, ?_⟩
    · have hresult : result = .exhausted := hex
      exact absurd (hresult ▸ hend) backoffEnd_ne_exhausted
    by_cases hkind : result.kind = .text
    · rw [if_pos hkind]
      exact .of_fresh (used_eq_zero_of_text hagree hend hkind)
    · rw [if_neg hkind]
      exact h.append _
  | case2 ring script hend hmore ih =>
    have hclass := backoffEnd_eq_none.mp hend
    exact .after hclass (ih (h.rotate hmore) (hagree.rotated hclass hmore))
  | case3 ring script hend hlast => exact .exhausted (backoffEnd_eq_none.mp hend) h hlast

end Exhaustion

/-! ## Runs on one ring -/

/-- What a run of calls on a ring must meet, in both implementations. -/
structure CallsExact (cfg : CallConfig) (ring : KeyRing) (scripts : List (Nat → Answer)) : Prop where
  exhausted_rotation : ExhaustedByAll cfg (callWithRotation cfg) ring [] scripts
  exhausted_backoff : ExhaustedByAll cfg (callWithBackoff cfg) ring [] scripts
  attempts_rotation : ∀ o ∈ runCalls (callWithRotation cfg) ring scripts,
    o.tried.length ≤ ring.keys.length
  attempts_backoff : ∀ o ∈ runCalls (callWithBackoff cfg) ring scripts,
    o.tried.length ≤ ring.keys.length
  same_views : (runCalls (callWithRotation cfg) ring scripts).map CallOutcome.view =
    (runCalls (callWithBackoff cfg) ring scripts).map CallOutcome.view

/-- The step of a run of calls: the ring of the synchronous call. -/
def nextRing (cfg : CallConfig) (ring : KeyRing) (script : Nat → Answer) : KeyRing :=
  (callWithRotation cfg ring script).ring

section Calls
variable {cfg : CallConfig}

theorem exhaustedByAll_of_exhausts {call : KeyRing → (Nat → Answer) → CallOutcome}
    {C : KeyRing → (Nat → Answer) → Prop}
    (hcall : ∀ ring script since, StreakCovered ring since → C ring script →
      Exhausts cfg ring since (call ring script))
    {scripts : List (Nat → Answer)} {ring : KeyRing} {since : List Nat} (h : StreakCovered ring since)
    (hC : Meets (fun r s => (call r s).ring) C ring scripts) :
    ExhaustedByAll cfg call ring since scripts := by
  induction scripts generalizing ring since with
  | nil => trivial
  | cons script scripts ih =>
    obtain ⟨hall, hnext⟩ := hcall ring script since h hC.1
    exact ⟨hall, ih hnext hC.2⟩

theorem exhausts_callWithBackoff {ring : KeyRing} {script : Nat → Answer} {since : List Nat}
    (h : StreakCovered ring since) (hagree : CallAgrees cfg ring script) :
    Exhausts cfg ring since (callWithBackoff cfg ring script) := by
  rw [callWithBackoff, if_pos hagree.1]
  exact exhausts_backoffAttempts h hagree.2

theorem ring_eq_of_agrees {ring : KeyRing} {script : Nat → Answer}
    (h : CallAgrees cfg ring script) :
    (callWithBackoff cfg ring script).ring = nextRing cfg ring script :=
  (congrArg (·.2.2) (callAgrees_iff.mpr h)).symm

theorem views_eq_iff {ring : KeyRing} {scripts : List (Nat → Answer)} :
    (runCalls (callWithRotation cfg) ring scripts).map CallOutcome.view =
        (runCalls (callWithBackoff cfg) ring scripts).map CallOutcome.view ↔
      Meets (nextRing cfg) (CallAgrees cfg) ring scripts := by
  induction scripts generalizing ring with
  | nil => exact iff_of_true rfl trivial
  | cons script scripts ih =>
    simp only [runCalls, List.map_cons, List.cons_eq_cons]
    constructor
    · rintro ⟨hview, hviews⟩
      have hagree := callAgrees_iff.mp hview
      rw [ring_eq_of_agrees hagree] at hviews
      exact ⟨hagree, ih.mp hviews⟩
    · rintro ⟨hagree, hrest⟩
      rw [ring_eq_of_agrees hagree]
      exact ⟨callAgrees_iff.mpr hagree, ih.mpr hrest⟩

theorem meets_backoff {ring : KeyRing} {scripts : List (Nat → Answer)}
    (h : Meets (nextRing cfg) (CallAgrees cfg) ring scripts) :
    Meets (fun r s => (callWithBackoff cfg r s).ring) (CallAgrees cfg) ring scripts := by
  induction scripts generalizing ring with
  | nil => trivial
  | cons script scripts ih =>
    have hlater := ih h.2
    rw [← ring_eq_of_agrees h.1] at hlater
    exact ⟨h.1, hlater⟩

theorem used_ofKeys {keys : List String} {ring : KeyRing} (h : KeyRing.ofKeys keys = .ok ring) :
    ring.used = 0 := by
  simp only [KeyRing.ofKeys] at h
  split at h
  · obtain rfl := Except.ok.inj h
    rfl
  · cases h

/-- **The calls of a run are exact, and the same in both implementations,
exactly when every call of it meets the condition.** -/
theorem callsExact_iff {keys : List String} {ring : KeyRing} (hring : KeyRing.ofKeys keys = .ok ring)
    (scripts : List (Nat → Answer)) :
    CallsExact cfg ring scripts ↔ Meets (nextRing cfg) (CallAgrees cfg) ring scripts := by
  have hfresh : StreakCovered ring [] := .of_fresh (used_ofKeys hring)
  constructor
  · intro h
    exact views_eq_iff.mp h.same_views
  · intro h
    refine ⟨?_, ?_, ?_, ?_, views_eq_iff.mpr h⟩
    · exact exhaustedByAll_of_exhausts (fun _ _ _ hc _ => exhausts_callWithRotation hc) hfresh h
    · exact exhaustedByAll_of_exhausts (fun _ _ _ => exhausts_callWithBackoff) hfresh
        (meets_backoff h)
    · exact attempts_runCalls ring (attempts_callWithRotation cfg) (keys_callWithRotation cfg) scripts
    · exact attempts_runCalls ring (attempts_callWithBackoff cfg) (keys_callWithBackoff cfg) scripts

/-! ### A success between two rotations -/

/-- Two keys for a provider with the default table. -/
def twoKeys : KeyRing := ⟨["k0", "k1"], 0, 0, by decide, by decide⟩

/-- Calls to `zen` with a budget of thirty seconds. -/
def zenCalls : CallConfig := ⟨.ascii, "zen", some 30⟩

/-- The attempts from the `n`-th on are answered, the ones before are refused. -/
def refusedUntil (n : Nat) (k : Nat) : Answer := if k < n then .httpError 429 "" else .reply "ok" true

theorem refused_rotates {n k : Nat} (h : k < n) : zenCalls.httpRotates (refusedUntil n k) = true := by
  rw [refusedUntil, if_pos h]
  rfl

/-- Both keys are refused, then the first one answers. -/
theorem callsExact_after_stop : KeyRing.ofKeys ["k0", "", "k1"] = .ok twoKeys ∧
    CallsExact zenCalls twoKeys [refusedUntil 2, refusedUntil 0] := by
  have hring : KeyRing.ofKeys ["k0", "", "k1"] = .ok twoKeys := rfl
  have hfirst : AttemptsAgree zenCalls twoKeys (refusedUntil 2) := by
    intro k hk _
    have htwo : k < 2 := hk
    rw [refusedUntil, if_pos htwo]
    trivial
  have hmore : twoKeys.rotate.2 = true := rfl
  have hlater : zenCalls.httpRotates (laterAnswers (refusedUntil 2) 0) = true :=
    refused_rotates (show 1 < 2 by decide)
  have hstop : nextRing zenCalls twoKeys (refusedUntil 2) = twoKeys := by
    rw [nextRing, callWithRotation_of_rotate (refused_rotates (by decide)), if_pos hmore,
      CallOutcome.after, callWithRotation_of_rotate hlater, if_neg (by decide)]
    rfl
  have hsecond : AttemptsAgree zenCalls twoKeys (refusedUntil 0) :=
    (attemptsAgree_of_end rfl).mpr ⟨rfl, rfl⟩
  refine ⟨hring, (callsExact_iff hring _).mpr ⟨⟨by decide, hfirst⟩, ?_⟩⟩
  rw [hstop]
  exact ⟨⟨by decide, hsecond⟩, trivial⟩

/-- The first key is refused, the second answers, and is refused at the next
call: the asynchronous call stops there, with the first key never tried again. -/
theorem streak_survives_reply : KeyRing.ofKeys ["k0", "k1"] = .ok twoKeys ∧
    (callWithBackoff zenCalls twoKeys (refusedUntil 1)).result = .text "ok" ∧
      ¬ CallsExact zenCalls twoKeys [refusedUntil 1, refusedUntil 2] := by
  have hmore : twoKeys.rotate.2 = true := rfl
  have hfirst : callWithBackoff zenCalls twoKeys (refusedUntil 1) =
      ⟨[(0, .httpError 429 ""), (1, .reply "ok" true)], .text "ok", twoKeys.rotate.1⟩ := by
    rw [callWithBackoff, if_pos (by decide),
      backoffAttempts_of_rotate (rotateClass_of_httpRotates (refused_rotates (by decide))),
      if_pos hmore, backoffAttempts_of_end rfl]
    rfl
  have hsecond : callWithBackoff zenCalls twoKeys.rotate.1 (refusedUntil 2) =
      ⟨[(1, .httpError 429 "")], .exhausted, twoKeys.rotate.1.rotate.1⟩ := by
    rw [callWithBackoff, if_pos (by decide),
      backoffAttempts_of_rotate (rotateClass_of_httpRotates (refused_rotates (by decide))),
      if_neg (by decide)]
    rfl
  refine ⟨rfl, by rw [hfirst], fun h => ?_⟩
  obtain ⟨-, hstop, -⟩ := h.exhausted_backoff
  rw [hfirst, hsecond] at hstop
  have hzero := hstop rfl 0 (by decide)
  revert hzero
  decide

end Calls

end HamZaboon
