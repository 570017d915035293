import HamZaboon.Library.Runs
import HamZaboon.Library.Trim
import HamZaboon.Texts.Unicode
import Mathlib.Data.NNRat.Defs
import Mathlib.Algebra.Field.Rat
import Mathlib.Algebra.Order.Ring.Rat
import Mathlib.Logic.Function.Basic

/-! # Leases and cooldowns

`factory/precard/provider_lease_policy.py`: tunnel leases on servers, and the
cooldowns that reports and `cool` calls put on a (server, provider) pair.
`lease_for` holds the lock twice, before and after its pings, so it is two
actions here, `ask` and `grant`, with any others in between.  The clock is part
of the state and never goes back.

A pair that still cools is never granted.  The slot of a pair is overwritten by
every cooling, so a cooldown is kept exactly as long as no shorter one is put on
its pair (`cooldowns_monotone_iff`).
-/

namespace HamZaboon
open Library

/-- `str.strip` and `str.lower`. -/
structure StrLib where
  strip : String → String
  lower : String → String

def StrLib.ascii : StrLib where
  strip s := String.ofList (((s.toList.dropWhile Char.isWhitespace).reverse.dropWhile
    Char.isWhitespace).reverse)
  lower s := String.ofList (s.toList.map Char.toLower)

/-- `norm_provider`, and `norm_target`. -/
def StrLib.normProvider (lib : StrLib) (provider : Option String) : String :=
  lib.lower (lib.strip (provider.getD ""))

namespace StrLib

theorem ascii_normalizes (s : String) :
    ascii.lower (ascii.strip (ascii.lower (ascii.strip s))) =
      ascii.lower (ascii.strip s) := by
  have hstrip : ∀ t : String, ascii.strip t = String.ofList (trim Char.isWhitespace t.toList) :=
    fun _ => rfl
  have hspace : Char.isWhitespace ∘ Char.toLower = Char.isWhitespace :=
    funext fun c => (toLower_facts c).2
  have htrim : ∀ l : List Char, trim Char.isWhitespace (l.map Char.toLower) =
      (trim Char.isWhitespace l).map Char.toLower := by
    intro l
    unfold trim List.rdropWhile
    rw [List.dropWhile_map, hspace, ← List.map_reverse, List.dropWhile_map, hspace,
      List.map_reverse]
  have hlower : ∀ t : String, ascii.lower t = String.ofList (t.toList.map Char.toLower) :=
    fun _ => rfl
  rw [hstrip s, hlower, hstrip, hlower, String.toList_ofList, String.toList_ofList,
    String.toList_ofList, htrim, trim_trim, List.map_map]
  exact congrArg _ (List.map_congr_left fun c _ => (toLower_facts c).1)

end StrLib

/-! ## Tables -/

/-- A row of `TARGETS`. -/
structure TargetSpec where
  provider : Option String
  tunnel : Bool
  deriving DecidableEq, Repr

def targets : List (String × TargetSpec) :=
  [("direct", ⟨none, false⟩), ("zen", ⟨some "zen", true⟩), ("google", ⟨some "google", true⟩),
    ("openrouter", ⟨some "openrouter", true⟩), ("groq", ⟨some "groq", false⟩),
    ("avalai", ⟨some "avalai", false⟩)]

def providerCooldownS : List (String × Rat) :=
  [("kilo", 18), ("google", 4), ("zen", 300), ("openrouter", 300), ("avalai", 300),
    ("generic", 300), ("tunnel_fetch", 300)]

/-- An override of the cooldown: a finite number, or one that `cooldown_for` ignores. -/
inductive Override
  | finite (seconds : Rat)
  | unusable
  deriving DecidableEq, Repr

def cooldownFor (lib : StrLib) (provider : Option String) (override : Option Override) : Rat :=
  let table := (providerCooldownS.lookup (lib.normProvider provider)).getD 300
  match override with
  | some (.finite seconds) => if 0 < seconds then seconds else table
  | _ => table

/-- `is_tunneled`, under the flag-listed providers. -/
def isTunneled (lib : StrLib) (provider : Option String) (rowTunnel : Bool)
    (tunneled : List String) : Bool :=
  let want := lib.normProvider provider
  if want = "" then false else if tunneled = [] then rowTunnel else want ∈ tunneled

def knownProvider (lib : StrLib) (provider : Option String) (tunneled : List String) : Bool :=
  match provider with
  | none => true
  | some name =>
    let want := lib.normProvider (some name)
    targets.any (fun target =>
      target.2.provider.isSome && lib.normProvider target.2.provider = want) ||
    isTunneled lib (some want) false tunneled

/-- `target_spec`, or the row of a flag-listed provider without one. -/
def specFor (lib : StrLib) (target : String) (tunneled : List String) : Option TargetSpec :=
  match targets.lookup (lib.normProvider (some target)) with
  | some spec => some spec
  | none =>
    let want := lib.normProvider (some target)
    if want ≠ "" && isTunneled lib (some want) false tunneled then some ⟨some want, false⟩ else none

/-! ## State -/

structure Lease where
  /-- The server of a tunnel lease; a direct lease has none. -/
  server : Option String
  since : Rat
  provider : Option String
  target : String
  deriving DecidableEq, Repr

/-- A `lease_for` call outside the lock. -/
structure Pending where
  provider : String
  target : String
  askedAt : Rat
  deriving DecidableEq, Repr

/-- The constant part of `NetConfig`. -/
structure NetConfig where
  lib : StrLib
  servers : List String
  cooldownS : Option Override

/-- The clock, and the mutable part of `NetConfig`. -/
structure NetState where
  clock : Rat
  cooldownUntil : String × String → Option Rat
  leases : String → Option Lease
  pending : Nat → Option Pending

/-- A fresh configuration. -/
def NetState.init (clock : Rat) : NetState where
  clock := clock
  cooldownUntil := fun _ => none
  leases := fun _ => none
  pending := fun _ => none

/-- The outcomes `report_lease` tells apart. -/
inductive LeaseOutcome
  | http429 | locationBlocked | netErr | authErr | other
  deriving DecidableEq, Repr

/-- What `lease_for` returns. -/
inductive LeaseReply
  | direct (leaseId : String) (provider : Option String) (target : String)
  | tunnel (leaseId serverId provider target : String) (cacheHit : Bool)
  | parkUnknownTarget (target : String)
  | parkNoServer
  deriving DecidableEq, Repr

/-- What `report_lease` returns. -/
inductive ReportAction
  | unknownLease | keep | switch | reauth
  deriving DecidableEq, Repr

/-- A tunnel lease on a server, for a pending call. -/
def NetState.mint (s : NetState) (call : Nat) (request : Pending) (leaseId serverId : String)
    (cacheHit : Bool) : NetState × Option LeaseReply :=
  ({ s with
      leases := Function.update s.leases leaseId
        (some ⟨some serverId, request.askedAt, some request.provider, request.target⟩)
      pending := Function.update s.pending call none },
    some (.tunnel leaseId serverId request.provider request.target cacheHit))

namespace NetConfig
variable (cfg : NetConfig)

/-- The key of a slot. -/
def pair (serverId : String) (provider : Option String) : String × String :=
  (serverId, cfg.lib.normProvider provider)

/-- The wait `cool` decides on. -/
def wait (provider : Option String) (seconds : Option Rat) : Rat :=
  seconds.getD (cooldownFor cfg.lib provider cfg.cooldownS)

def cool (s : NetState) (serverId : String) (provider : Option String) (seconds : Option Rat) :
    NetState :=
  if serverId = "" then s
  else
    { s with
      cooldownUntil := Function.update s.cooldownUntil (cfg.pair serverId provider)
        (some (s.clock + cfg.wait provider seconds)) }

def isCool (s : NetState) (serverId : String) (provider : Option String) (now : Rat) : Bool :=
  if serverId = "" then false else now < (s.cooldownUntil (cfg.pair serverId provider)).getD 0

/-- `lease_for`, up to the pings: a direct lease, a refusal, or a pending call. -/
def askLease (s : NetState) (call : Nat) (target : String) (tunneled : List String)
    (leaseId : String) : NetState × Option LeaseReply :=
  let name := cfg.lib.normProvider (some target)
  match specFor cfg.lib target tunneled with
  | none => (s, some (.parkUnknownTarget target))
  | some spec =>
    match spec.provider with
    | some provider =>
      if isTunneled cfg.lib (some provider) spec.tunnel tunneled then
        ({ s with pending := Function.update s.pending call (some ⟨provider, name, s.clock⟩) },
          none)
      else
        ({ s with
            leases := Function.update s.leases leaseId
              (some ⟨none, s.clock, some provider, name⟩) },
          some (.direct leaseId (some provider) name))
    | none =>
      ({ s with leases := Function.update s.leases leaseId (some ⟨none, s.clock, none, name⟩) },
        some (.direct leaseId none name))

/-- `lease_for`, after the pings: the winner of the cached exits where it is not
cooling, else the first server that is not. -/
def grantLease (s : NetState) (call : Nat) (winner : Option String) (leaseId : String) :
    NetState × Option LeaseReply :=
  match s.pending call with
  | none => (s, none)
  | some request =>
    match winner.filter fun id => !cfg.isCool s id (some request.provider) request.askedAt with
    | some id => s.mint call request leaseId id true
    | none =>
      match (cfg.servers.filter fun id =>
          id ≠ "" && !cfg.isCool s id (some request.provider) request.askedAt).head? with
      | none => ({ s with pending := Function.update s.pending call none }, some .parkNoServer)
      | some id => s.mint call request leaseId id false

/-- The provider a report is about: its own, else that of the lease. -/
def effective (provider : Option String) (lease : Lease) : Option String :=
  match provider with
  | some name => some (cfg.lib.normProvider (some name))
  | none => lease.provider

def reportLease (s : NetState) (leaseId : String) (outcome : LeaseOutcome) (provider : Option String)
    (tunneled : List String) : NetState × ReportAction :=
  match s.leases leaseId with
  | none => (s, .unknownLease)
  | some lease =>
    if !knownProvider cfg.lib provider tunneled then (s, .keep)
    else
      let eff := cfg.effective provider lease
      match outcome, lease.server.filter (· ≠ "") with
      | .http429, some server => (cfg.cool s server eff none, .switch)
      | .locationBlocked, some server =>
        -- a persistent condition: the generic scale, whatever the provider's own is
        (cfg.cool s server eff (some (cooldownFor cfg.lib (some "generic") cfg.cooldownS)),
          .switch)
      | .netErr, _ => (s, .switch)
      | .authErr, _ => ({ s with leases := Function.update s.leases leaseId none }, .reauth)
      | _, _ => (s, .keep)

end NetConfig

/-! ## Runs -/

/-- A call into the policy. -/
inductive NetAction
  | cool (serverId : String) (provider : Option String) (seconds : Option Rat)
  | report (leaseId : String) (outcome : LeaseOutcome) (provider : Option String)
      (tunneled : List String)
  | ask (call : Nat) (target : String) (tunneled : List String) (leaseId : String)
  | grant (call : Nat) (winner : Option String) (leaseId : String)

/-- A call, and the time passed since the one before. -/
structure NetEvent where
  elapsed : NNRat
  action : NetAction

def NetState.tick (s : NetState) (elapsed : NNRat) : NetState :=
  { s with clock := s.clock + elapsed }

namespace NetConfig
variable (cfg : NetConfig)

/-- One call at the current clock. -/
def act (s : NetState) : NetAction → NetState × Option LeaseReply
  | .cool serverId provider seconds => (cfg.cool s serverId provider seconds, none)
  | .report leaseId outcome provider tunneled =>
    ((cfg.reportLease s leaseId outcome provider tunneled).1, none)
  | .ask call target tunneled leaseId => cfg.askLease s call target tunneled leaseId
  | .grant call winner leaseId => cfg.grantLease s call winner leaseId

def step (s : NetState) (e : NetEvent) : NetState := (cfg.act (s.tick e.elapsed) e.action).1

/-- A tunnel lease granted by the event is on a pair that is not cooling. -/
def GrantsAvailable (s : NetState) (e : NetEvent) : Prop :=
  ∀ leaseId serverId provider target cacheHit,
    (cfg.act (s.tick e.elapsed) e.action).2 =
      some (.tunnel leaseId serverId provider target cacheHit) →
    cfg.isCool (s.tick e.elapsed) serverId (some provider) (s.tick e.elapsed).clock = false

/-- The wait reaches at least as far as what the slot of the pair has recorded. -/
def Outlasts (s : NetState) (pair : String × String) (wait : Rat) : Prop :=
  ∀ recorded, s.cooldownUntil pair = some recorded → recorded ≤ s.clock + wait

/-- No shorter cooldown is put on a pair: by `cool`, or by a report on a tunnel
lease that cools its server. -/
def NoShorter (s : NetState) : NetAction → Prop
  | .cool serverId provider seconds => serverId ≠ "" →
      Outlasts s (cfg.pair serverId provider) (cfg.wait provider seconds)
  | .report leaseId outcome provider tunneled => ∀ lease server,
      s.leases leaseId = some lease → knownProvider cfg.lib provider tunneled = true →
      lease.server = some server → server ≠ "" →
        (outcome = .http429 → Outlasts s (cfg.pair server (cfg.effective provider lease))
          (cfg.wait (cfg.effective provider lease) none)) ∧
        (outcome = .locationBlocked → Outlasts s (cfg.pair server (cfg.effective provider lease))
          (cooldownFor cfg.lib (some "generic") cfg.cooldownS))
  | _ => True

end NetConfig

/-! ## Recorded cooldowns -/

namespace NetState

/-- Whatever a slot has recorded in `s`, it records at least as late a time in `s'`. -/
def Kept (s s' : NetState) : Prop :=
  ∀ pair recorded, s.cooldownUntil pair = some recorded →
    ∃ later, s'.cooldownUntil pair = some later ∧ recorded ≤ later

theorem Kept.refl (s : NetState) : s.Kept s := fun _ recorded h => ⟨recorded, h, le_rfl⟩

theorem Kept.trans {a b c : NetState} (hab : a.Kept b) (hbc : b.Kept c) : a.Kept c := by
  intro pair recorded h
  obtain ⟨later, hlater, hle⟩ := hab pair recorded h
  obtain ⟨latest, hlatest, hle'⟩ := hbc pair later hlater
  exact ⟨latest, hlatest, hle.trans hle'⟩

theorem kept_of_eq {s s' : NetState} (h : s'.cooldownUntil = s.cooldownUntil) : s.Kept s' :=
  fun pair recorded hrec => ⟨recorded, (congrFun h pair).trans hrec, le_rfl⟩

end NetState

namespace NetConfig
variable {cfg : NetConfig}

theorem cooldownUntil_cool {serverId : String} (hid : serverId ≠ "") (s : NetState)
    (provider : Option String) (seconds : Option Rat) :
    (cfg.cool s serverId provider seconds).cooldownUntil =
      Function.update s.cooldownUntil (cfg.pair serverId provider)
        (some (s.clock + cfg.wait provider seconds)) := by
  rw [cool, if_neg hid]

theorem kept_cool_iff (s : NetState) (serverId : String) (provider : Option String)
    (seconds : Option Rat) :
    s.Kept (cfg.cool s serverId provider seconds) ↔
      (serverId ≠ "" → Outlasts s (cfg.pair serverId provider) (cfg.wait provider seconds)) := by
  by_cases hid : serverId = ""
  · simp only [cool, hid, if_true, ne_eq, not_true_eq_false, false_implies, iff_true]
    exact .refl s
  · constructor
    · intro h _ recorded hrec
      obtain ⟨later, hlater, hle⟩ := h _ recorded hrec
      rw [cooldownUntil_cool hid, Function.update_self] at hlater
      exact hle.trans_eq (Option.some.inj hlater).symm
    · intro h pair recorded hrec
      rw [cooldownUntil_cool hid]
      by_cases hpair : pair = cfg.pair serverId provider
      · subst hpair
        exact ⟨_, Function.update_self .., h hid recorded hrec⟩
      · exact ⟨recorded, (Function.update_of_ne hpair ..).trans hrec, le_rfl⟩

@[simp] theorem cooldownUntil_askLease (s : NetState) (call : Nat) (target : String)
    (tunneled : List String) (leaseId : String) :
    (cfg.askLease s call target tunneled leaseId).1.cooldownUntil = s.cooldownUntil := by
  simp only [askLease]
  split
  · rfl
  · split
    · split <;> rfl
    · rfl

@[simp] theorem cooldownUntil_grantLease (s : NetState) (call : Nat) (winner : Option String)
    (leaseId : String) :
    (cfg.grantLease s call winner leaseId).1.cooldownUntil = s.cooldownUntil := by
  simp only [grantLease]
  split
  · rfl
  · split
    · rfl
    · split <;> rfl

theorem kept_reportLease_iff (s : NetState) (leaseId : String) (outcome : LeaseOutcome)
    (provider : Option String) (tunneled : List String) :
    s.Kept (cfg.reportLease s leaseId outcome provider tunneled).1 ↔
      cfg.NoShorter s (.report leaseId outcome provider tunneled) := by
  unfold reportLease
  cases hlease : s.leases leaseId with
  | none =>
    refine iff_of_true (.refl s) fun lease server h => ?_
    rw [hlease] at h
    cases h
  | some lease =>
    cases hknown : knownProvider cfg.lib provider tunneled with
    | false =>
      refine iff_of_true (.refl s) fun lease' server _ h => ?_
      rw [hknown] at h
      cases h
    | true =>
      have hserver : ∀ server, lease.server.filter (· ≠ "") = some server ↔
          lease.server = some server ∧ server ≠ "" := fun server => by
        rw [Option.filter_eq_some_iff, decide_eq_true_eq]
      simp only [Bool.not_true, Bool.false_eq_true, if_false]
      have hshort : cfg.NoShorter s (.report leaseId outcome provider tunneled) ↔
          ∀ server, lease.server.filter (· ≠ "") = some server →
            (outcome = .http429 → Outlasts s (cfg.pair server (cfg.effective provider lease))
              (cfg.wait (cfg.effective provider lease) none)) ∧
            (outcome = .locationBlocked →
              Outlasts s (cfg.pair server (cfg.effective provider lease))
                (cooldownFor cfg.lib (some "generic") cfg.cooldownS)) := by
        constructor
        · intro h server hfilter
          exact h lease server hlease hknown ((hserver server).mp hfilter).1
            ((hserver server).mp hfilter).2
        · intro h lease' server hlease' _ hsome hne
          rw [hlease] at hlease'
          cases hlease'
          exact h server ((hserver server).mpr ⟨hsome, hne⟩)
      rw [hshort]
      cases hfilter : lease.server.filter (· ≠ "") with
      | none => cases outcome <;> exact iff_of_true (NetState.kept_of_eq rfl) (by simp)
      | some server =>
        have hne : server ≠ "" := ((hserver server).mp hfilter).2
        cases outcome with
        | http429 => simp [kept_cool_iff, hne]
        | locationBlocked => simp [kept_cool_iff, hne, wait]
        | netErr => exact iff_of_true (NetState.kept_of_eq rfl) (by simp)
        | authErr => exact iff_of_true (NetState.kept_of_eq rfl) (by simp)
        | other => exact iff_of_true (NetState.kept_of_eq rfl) (by simp)

theorem kept_step_iff (s : NetState) (e : NetEvent) :
    s.Kept (cfg.step s e) ↔ cfg.NoShorter (s.tick e.elapsed) e.action := by
  have htick : s.Kept (cfg.step s e) ↔ (s.tick e.elapsed).Kept (cfg.step s e) := Iff.rfl
  rw [htick, step]
  cases e.action with
  | cool serverId provider seconds => exact kept_cool_iff _ serverId provider seconds
  | report leaseId outcome provider tunneled =>
    exact kept_reportLease_iff _ leaseId outcome provider tunneled
  | ask call target tunneled leaseId =>
    exact iff_of_true (NetState.kept_of_eq (cooldownUntil_askLease ..)) trivial
  | grant call winner leaseId =>
    exact iff_of_true (NetState.kept_of_eq (cooldownUntil_grantLease ..)) trivial

/-! ## Grants -/

theorem isCool_mono {s : NetState} {serverId : String} {provider : Option String} {at' now : Rat}
    (hle : at' ≤ now) (h : cfg.isCool s serverId provider at' = false) :
    cfg.isCool s serverId provider now = false := by
  unfold isCool at h ⊢
  split
  · rfl
  · rename_i hid
    rw [if_neg hid] at h
    simp only [decide_eq_false_iff_not, not_lt] at h ⊢
    exact h.trans hle

/-- Calls outside the lock asked in the past. -/
def AskedInPast (s : NetState) : Prop :=
  ∀ call request, s.pending call = some request → request.askedAt ≤ s.clock

theorem askedInPast_tick {s : NetState} (h : AskedInPast s) (elapsed : NNRat) :
    AskedInPast (s.tick elapsed) := by
  intro call request hrequest
  have hclock : s.clock ≤ s.clock + elapsed := le_add_of_nonneg_right elapsed.coe_nonneg
  exact (h call request hrequest).trans hclock

theorem pending_reportLease (cfg : NetConfig) (s : NetState) (leaseId : String)
    (outcome : LeaseOutcome) (provider : Option String) (tunneled : List String) :
    (cfg.reportLease s leaseId outcome provider tunneled).1.pending = s.pending ∧
      (cfg.reportLease s leaseId outcome provider tunneled).1.clock = s.clock := by
  have hcool : ∀ server eff seconds, (cfg.cool s server eff seconds).pending = s.pending ∧
      (cfg.cool s server eff seconds).clock = s.clock := by
    intro server eff seconds
    unfold cool
    split <;> exact ⟨rfl, rfl⟩
  simp only [reportLease]
  split
  · exact ⟨rfl, rfl⟩
  · split
    · exact ⟨rfl, rfl⟩
    · split
      · exact hcool ..
      · exact hcool ..
      all_goals exact ⟨rfl, rfl⟩

theorem askedInPast_update {s s' : NetState} (h : AskedInPast s) (hclock : s'.clock = s.clock)
    {call : Nat} {request : Option Pending} (hrequest : ∀ r, request = some r → r.askedAt = s.clock)
    (hpending : s'.pending = Function.update s.pending call request) : AskedInPast s' := by
  intro other r hr
  rw [hclock]
  by_cases hother : other = call
  · subst hother
    rw [hpending, Function.update_self] at hr
    exact (hrequest r hr).le
  · rw [hpending, Function.update_of_ne hother] at hr
    exact h other r hr

theorem askedInPast_act {s : NetState} (h : AskedInPast s) (action : NetAction) :
    AskedInPast (cfg.act s action).1 := by
  cases action with
  | cool serverId provider seconds =>
    simp only [act, cool]
    split <;> exact h
  | report leaseId outcome provider tunneled =>
    obtain ⟨hpending, hclock⟩ := pending_reportLease cfg s leaseId outcome provider tunneled
    intro call request hrequest
    exact (h call request (hpending ▸ hrequest)).trans_eq hclock.symm
  | ask call target tunneled leaseId =>
    simp only [act, askLease]
    split
    · exact h
    · split
      · split
        · exact askedInPast_update h rfl (fun r hr => by cases hr; rfl) rfl
        · exact h
      · exact h
  | grant call winner leaseId =>
    simp only [act, grantLease]
    split
    · exact h
    · split
      · exact askedInPast_update h rfl (fun r hr => by cases hr) rfl
      · split
        · exact askedInPast_update h rfl (fun r hr => by cases hr) rfl
        · exact askedInPast_update h rfl (fun r hr => by cases hr) rfl

theorem askedInPast_step {s : NetState} (h : AskedInPast s) (e : NetEvent) :
    AskedInPast (cfg.step s e) :=
  askedInPast_act (askedInPast_tick h e.elapsed) e.action

theorem act_eq_tunnel {s : NetState} {action : NetAction} {leaseId serverId provider target : String}
    {cacheHit : Bool}
    (h : (cfg.act s action).2 = some (.tunnel leaseId serverId provider target cacheHit)) :
    ∃ call request, s.pending call = some request ∧ request.provider = provider ∧
      cfg.isCool s serverId (some provider) request.askedAt = false := by
  cases action with
  | cool serverId provider seconds => cases h
  | report leaseId outcome provider tunneled => cases h
  | ask call target tunneled leaseId =>
    simp only [act, askLease] at h
    split at h
    · cases h
    · split at h
      · split at h <;> cases h
      · cases h
  | grant call winner leaseId =>
    simp only [act, grantLease] at h
    split at h
    · cases h
    · rename_i request hrequest
      split at h
      · rename_i id hid
        have hcool := (Option.filter_eq_some_iff.mp hid).2
        cases h
        exact ⟨call, request, hrequest, rfl, by simpa using hcool⟩
      · split at h
        · cases h
        · rename_i id hid
          have hcool := (List.mem_filter.mp (List.mem_of_mem_head? hid)).2
          cases h
          simp only [Bool.and_eq_true, Bool.not_eq_true'] at hcool
          exact ⟨call, request, hrequest, rfl, hcool.2⟩

theorem grantsAvailable_of_askedInPast {s : NetState} (h : AskedInPast s) (e : NetEvent) :
    cfg.GrantsAvailable s e := by
  intro leaseId serverId provider target cacheHit hreply
  obtain ⟨call, request, hrequest, -, hcool⟩ := act_eq_tunnel hreply
  exact isCool_mono (askedInPast_tick h e.elapsed call request hrequest) hcool

/-- **Cooldowns along a run.**  From a fresh configuration, every cooldown a pair
has recorded is still promised at every later moment, and no tunnel lease is
granted on a pair that cools, exactly when no `cool` call and no report puts a
shorter cooldown on a pair that has a longer one. -/
theorem cooldowns_monotone_iff (cfg : NetConfig) (clock : Rat) (events : List NetEvent) :
    ((∀ a b c, events = a ++ b ++ c →
        (run cfg.step (.init clock) a).Kept (run cfg.step (.init clock) (a ++ b))) ∧
      Meets cfg.step cfg.GrantsAvailable (.init clock) events) ↔
    Meets cfg.step (fun s e => cfg.NoShorter (s.tick e.elapsed) e.action) (.init clock) events := by
  have hgrants : Meets cfg.step cfg.GrantsAvailable (.init clock) events :=
    meets_of_invariant cfg.step (I := AskedInPast) (fun _ e h => askedInPast_step h e)
      (fun _ e h => grantsAvailable_of_askedInPast h e)
      (fun _ _ hrequest => by cases hrequest) events
  rw [related_iff_meets cfg.step NetState.Kept.refl (fun _ _ _ => NetState.Kept.trans),
    meets_congr cfg.step kept_step_iff]
  exact ⟨fun h => h.1, fun h => ⟨h, hgrants⟩⟩

/-- Two leases of one server for `google`, the first reported blocked by
location, the second, a second later, over its quota. -/
theorem later_quota_report_shortens_block :
    let cfg : NetConfig := ⟨.ascii, ["s1"], none⟩
    let lend : Nat → String → List NetEvent := fun call leaseId =>
      [⟨0, .ask call "google" [] ""⟩, ⟨0, .grant call none leaseId⟩]
    let blocked := lend 0 "a" ++ lend 1 "b" ++ [⟨0, .report "a" .locationBlocked none []⟩]
    let after := blocked ++ [⟨1, .report "b" .http429 none []⟩]
    (run cfg.step (.init 1000) blocked).cooldownUntil ("s1", "google") = some 1300 ∧
      (run cfg.step (.init 1000) after).cooldownUntil ("s1", "google") = some 1005 ∧
      ¬ (run cfg.step (.init 1000) blocked).Kept (run cfg.step (.init 1000) after) := by
  intro cfg lend blocked after
  have hblocked : (run cfg.step (.init 1000) blocked).cooldownUntil ("s1", "google") = some 1300 := by
    decide +kernel
  have hafter : (run cfg.step (.init 1000) after).cooldownUntil ("s1", "google") = some 1005 := by
    decide +kernel
  refine ⟨hblocked, hafter, fun h => ?_⟩
  obtain ⟨later, hlater, hle⟩ := h _ _ hblocked
  rw [hafter] at hlater
  cases hlater
  revert hle
  decide +kernel

end NetConfig

end HamZaboon
