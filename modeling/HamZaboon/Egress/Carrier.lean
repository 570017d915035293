import HamZaboon.Egress.Supervisor

/-! # Cooling the server that carried the traffic

A report cools the server of its lease, and `rotate` then cools the server of the
tunnel that runs: the same one only while no later lease has moved the tunnel, and no
direct lease is reported.  Apart from that a request cools nothing but what failed in
it, hands out leases under the server of their tunnel, and leaves no record when it
parks (`cools_carrier_iff`).
-/

namespace HamZaboon
open Library

namespace SupervisorConfig
variable {cfg : SupervisorConfig}

/-! ## What the pool does -/

theorem isCool_mono {s : Supervisor} {serverId : String} {provider : Option String} {before now : Rat}
    (hle : before ≤ now) (h : cfg.isCool s serverId provider before = false) :
    cfg.isCool s serverId provider now = false := by
  unfold isCool at h ⊢
  split
  · rfl
  · rename_i hid
    rw [if_neg hid] at h
    simp only [decide_eq_false_iff_not, not_lt] at h ⊢
    exact h.trans hle

theorem available_of_picked {s : Supervisor} {provider hint : Option String} {now : Rat} {id : String}
    (h : cfg.picked s provider hint now = some id) :
    ∃ server ∈ cfg.available s provider now, server.id = id := by
  unfold picked at h
  split at h
  · rename_i id' hid
    obtain rfl := Option.some.inj h
    exact List.mem_map.mp (of_decide_eq_true (Option.filter_eq_some_iff.mp hid).2)
  · obtain ⟨server, hserver, rfl⟩ := Option.map_eq_some_iff.mp h
    exact ⟨server, List.mem_of_mem_head? hserver, rfl⟩

theorem poolLease_cases (cfg : SupervisorConfig) (s : Supervisor) (call : LeaseCall) :
    (∃ s' reason, cfg.poolLease s call = (s', .park reason) ∧ s'.leases = s.leases ∧
      s'.cooldownUntil = s.cooldownUntil) ∨
    (∃ s' provider name, cfg.poolLease s call = (s', .direct provider name) ∧
      s'.cooldownUntil = s.cooldownUntil) ∨
    ∃ id provider name, cfg.picked s provider call.hint (cfg.clock (s.reads + 1)) = some id ∧
      cfg.poolLease s call =
        (s.tick.tick.mint call.leaseId ⟨some id, cfg.clock (s.reads + 1), provider, name⟩,
          .tunnel id provider name) := by
  unfold poolLease
  cases targets.lookup (cfg.lib.normProvider (some call.target)) with
  | none => exact Or.inl ⟨_, _, rfl, rfl, rfl⟩
  | some spec =>
    dsimp only
    split
    · cases hpicked : cfg.picked s spec.provider call.hint (cfg.clock (s.reads + 1)) with
      | none => exact Or.inl ⟨_, _, rfl, rfl, rfl⟩
      | some id => exact Or.inr (Or.inr ⟨id, spec.provider, _, hpicked, rfl⟩)
    · exact Or.inr (Or.inl ⟨_, _, _, rfl, rfl⟩)

theorem available_of_minted (leaseId : String) (lease : Lease) {s : Supervisor} {id : String}
    {provider hint : Option String} (hforward : cfg.clock (s.reads + 1) ≤ cfg.clock (s.reads + 2))
    (h : cfg.picked s provider hint (cfg.clock (s.reads + 1)) = some id) :
    ∃ server ∈ cfg.available (s.tick.tick.mint leaseId lease) provider
        (cfg.clock (s.tick.tick.mint leaseId lease).reads), server.id = id := by
  obtain ⟨server, hserver, hid⟩ := available_of_picked h
  obtain ⟨hin, hne, hlink, hcool⟩ := mem_available.mp hserver
  exact ⟨server, mem_available.mpr ⟨hin, hne, hlink, isCool_mono hforward hcool⟩, hid⟩

/-! ## The claim -/

/-- The request is a report on a lease whose record names the server. -/
def ReportedOn (s : Supervisor) (r : SupervisorRequest) (serverId : String) : Prop :=
  match r with
  | .lease _ => False
  | .report leaseId _ _ => ∃ lease, s.leases leaseId = some lease ∧ lease.server = some serverId

/-- What a request that cools the right servers does. -/
structure CoolsCarrier (cfg : SupervisorConfig) (s : Supervisor) (r : SupervisorRequest) : Prop where
  /-- Cooldowns change by the coolings of the request only. -/
  recorded : Recorded s.cooldownUntil (cfg.effects s r) (cfg.after s r).cooldownUntil
  cooled : ∀ pair before expiry, .cooled pair before expiry ∈ cfg.effects s r →
    ReportedOn s r pair.1 ∨ Failed (cfg.effects s r) pair.1
  /-- A lease names the server of its tunnel, which was not cooling at the third reading of
  the clock. -/
  leased : ∀ leaseId id provider target proxyUrl ip,
    cfg.response s r = some (.tunnel leaseId id provider target proxyUrl ip) →
      (cfg.after s r).tunnel = some ⟨id, proxyUrl⟩ ∧ id ≠ "" ∧
      (∃ lease, (cfg.after s r).leases leaseId = some lease ∧ lease.server = some id ∧
        lease.provider = provider) ∧
      cfg.isCool (cfg.after s r) id provider (cfg.clock (s.reads + 2)) = false
  parked : ∀ reason, cfg.response s r = some (.park reason) →
    ∀ leaseId lease, (cfg.after s r).leases leaseId = some lease → s.leases leaseId = some lease

/-- The clock is not set back between the pick of a server and the acquiring. -/
def Forward (cfg : SupervisorConfig) (s : Supervisor) : SupervisorRequest → Prop
  | .lease _ => cfg.clock (s.reads + 1) ≤ cfg.clock (s.reads + 2)
  | .report _ _ _ => True

/-- A report that is answered with a switch finds no tunnel, or that of its lease. -/
def OnCarrier (cfg : SupervisorConfig) (s : Supervisor) : SupervisorRequest → Prop
  | .lease _ => True
  | .report leaseId outcome provider => ∀ lease tun, s.leases leaseId = some lease →
      knownProvider cfg.lib provider cfg.tunneled = true → Switches outcome lease →
      s.tunnel = some tun → tun.serverId ≠ "" → lease.server = some tun.serverId

/-! ## Lease requests -/

@[simp] theorem retargetLease_cooldownUntil (s : Supervisor) (leaseId serverId : String) :
    (s.retargetLease leaseId serverId).cooldownUntil = s.cooldownUntil := by
  unfold Supervisor.retargetLease
  split
  · rfl
  · split <;> rfl

@[simp] theorem retargetLease_tunnel (s : Supervisor) (leaseId serverId : String) :
    (s.retargetLease leaseId serverId).tunnel = s.tunnel := by
  unfold Supervisor.retargetLease
  split
  · rfl
  · split <;> rfl

theorem retargetLease_leases {s : Supervisor} {leaseId serverId : String} {lease : Lease}
    (hlease : s.leases leaseId = some lease) (hne : serverId ≠ "") :
    (s.retargetLease leaseId serverId).leases leaseId = some { lease with server := some serverId } := by
  unfold Supervisor.retargetLease
  rw [hlease]
  dsimp only
  rw [if_neg hne]
  exact Function.update_self ..

theorem coolsCarrier_of_request {s s' : Supervisor} {r : SupervisorRequest}
    {effects : List EgressEffect} {answer : Option SupervisorResponse}
    (h : cfg.request s r = (s', effects, answer))
    (hrecorded : Recorded s.cooldownUntil effects s'.cooldownUntil)
    (hcooled : ∀ pair before expiry, .cooled pair before expiry ∈ effects →
      ReportedOn s r pair.1 ∨ Failed effects pair.1)
    (hleased : ∀ leaseId id provider target proxyUrl ip,
      answer = some (.tunnel leaseId id provider target proxyUrl ip) →
        s'.tunnel = some ⟨id, proxyUrl⟩ ∧ id ≠ "" ∧
        (∃ lease, s'.leases leaseId = some lease ∧ lease.server = some id ∧
          lease.provider = provider) ∧
        cfg.isCool s' id provider (cfg.clock (s.reads + 2)) = false)
    (hparked : ∀ reason, answer = some (.park reason) →
      ∀ leaseId lease, s'.leases leaseId = some lease → s.leases leaseId = some lease) :
    CoolsCarrier cfg s r where
  recorded := by
    rw [SupervisorConfig.effects, after, h]
    exact hrecorded
  cooled := by
    rw [SupervisorConfig.effects, h]
    exact hcooled
  leased := by
    rw [response, after, h]
    exact hleased
  parked := by
    rw [response, after, h]
    exact hparked

theorem coolsCarrier_finishLease {s : Supervisor} {call : LeaseCall} {id : String}
    {provider : Option String} {name : String} {lease : Lease}
    (hforward : cfg.clock (s.reads + 1) ≤ cfg.clock (s.reads + 2))
    (hpicked : cfg.picked s provider call.hint (cfg.clock (s.reads + 1)) = some id)
    (hserver : lease.server = some id) (hprovider : lease.provider = provider)
    (hrequest : cfg.request s (.lease call) =
      cfg.finishLease (s.tick.tick.mint call.leaseId lease) call id provider name) :
    CoolsCarrier cfg s (.lease call) := by
  have hspec := acquireSpec_acquire cfg (s.tick.tick.mint call.leaseId lease) provider id call
  have hthere := available_of_minted call.leaseId lease hforward hpicked
  have hrecorded : Recorded s.cooldownUntil _ _ := hspec.recorded
  unfold finishLease at hrequest
  dsimp only at hrequest
  generalize cfg.acquire (s.tick.tick.mint call.leaseId lease) provider id call = got
    at hspec hrequest hrecorded
  have hcooled : ∀ pair before expiry, .cooled pair before expiry ∈ got.2.1 →
      ReportedOn s (.lease call) pair.1 ∨ Failed got.2.1 pair.1 :=
    fun pair before expiry h => Or.inr (hspec.cooled pair before expiry h)
  cases hgot : got.2.2 with
  | up proxyUrl ip sid =>
    rw [hgot] at hrequest
    obtain ⟨htunnel, hne, hcool⟩ := hspec.up proxyUrl ip sid hgot
    have hleases : got.1.leases call.leaseId = some lease := by
      rw [hspec.leases, Supervisor.mint_self]
    refine coolsCarrier_of_request hrequest ?_ hcooled ?_ ?_
    · split
      · exact hrecorded
      · rw [retargetLease_cooldownUntil]
        exact hrecorded
    · rintro leaseId id' provider' target proxyUrl' ip' ⟨⟩
      split
      · rename_i hsame
        exact ⟨htunnel, hne, ⟨lease, hleases, hsame ▸ hserver, hprovider⟩, hcool⟩
      · refine ⟨(retargetLease_tunnel ..).trans htunnel, hne,
          ⟨_, retargetLease_leases hleases hne, rfl, hprovider⟩, (isCool_congr ?_).trans hcool⟩
        rw [retargetLease_cooldownUntil]
    · rintro reason ⟨⟩
  | failed reason failed =>
    rw [hgot] at hrequest
    dsimp only at hrequest
    -- the server that is cooled has failed: the one the failure names, or else the lease's own
    have hfailed : Failed got.2.1 ((failed.filter (· ≠ "")).getD id) := by
      cases failed with
      | none => exact hspec.unnamed reason hgot hthere
      | some server =>
        obtain ⟨hne, hnamed⟩ := hspec.named reason server hgot
        simpa [Option.filter_some, hne] using hnamed
    refine coolsCarrier_of_request hrequest ?_ ?_ ?_ ?_
    · exact hrecorded.append (recorded_cool ..)
    · intro pair before expiry h
      rcases List.mem_append.mp h with h | h
      · exact (hcooled pair before expiry h).imp_right fun h => h.mono (List.subset_append_left ..)
      · injection mem_cool h with hpair
        subst hpair
        exact Or.inr (hfailed.mono (List.subset_append_left ..))
    · rintro leaseId id' provider' target proxyUrl' ip' ⟨⟩
    · rintro reason' - leaseId lease' h
      by_cases heq : leaseId = call.leaseId
      · rw [heq, Supervisor.discardLease_self] at h
        cases h
      · rw [Supervisor.discardLease_of_ne _ heq, cool_leases, hspec.leases,
          Supervisor.mint_of_ne _ _ heq] at h
        exact h
  | raised =>
    rw [hgot] at hrequest
    refine coolsCarrier_of_request hrequest hrecorded hcooled ?_ ?_
    · rintro leaseId id' provider' target proxyUrl' ip' ⟨⟩
    · rintro reason ⟨⟩

theorem coolsCarrier_lease {s : Supervisor} {call : LeaseCall}
    (hforward : cfg.clock (s.reads + 1) ≤ cfg.clock (s.reads + 2)) :
    CoolsCarrier cfg s (.lease call) := by
  rcases poolLease_cases cfg s call with ⟨s', reason, hleased, hleases, hcool⟩ |
    ⟨s', provider, name, hleased, hcool⟩ | ⟨id, provider, name, hpicked, hleased⟩
  · have hrequest : cfg.request s (.lease call) = (s', [], some (.park reason)) := by
      rw [request, handleLease, hleased]
    refine coolsCarrier_of_request hrequest hcool (fun _ _ _ h => nomatch h) ?_ ?_
    · rintro leaseId id' provider' target proxyUrl' ip' ⟨⟩
    · intro _ _ leaseId lease h
      rwa [hleases] at h
  · have hrequest : cfg.request s (.lease call) =
        (s', [], some (.direct call.leaseId provider name)) := by
      rw [request, handleLease, hleased]
    refine coolsCarrier_of_request hrequest hcool (fun _ _ _ h => nomatch h) ?_ ?_
    · rintro leaseId id' provider' target proxyUrl' ip' ⟨⟩
    · rintro reason ⟨⟩
  · have hrequest : cfg.request s (.lease call) = cfg.finishLease
        (s.tick.tick.mint call.leaseId ⟨some id, cfg.clock (s.reads + 1), provider, name⟩) call id
          provider name := by
      rw [request, handleLease, hleased]
    exact coolsCarrier_finishLease hforward hpicked rfl rfl hrequest

/-! ## Report requests -/

theorem mem_rotate {s : Supervisor} {provider : Option String} {e : EgressEffect}
    (h : e ∈ (cfg.rotate s provider).2) :
    ∃ tun before expiry, s.tunnel = some tun ∧ tun.serverId ≠ "" ∧
      e = .cooled (cfg.pair tun.serverId provider) before expiry := by
  unfold rotate at h
  cases htun : s.tunnel with
  | none =>
    rw [htun] at h
    cases h
  | some tun =>
    rw [htun] at h
    dsimp only at h
    refine ⟨tun, _, _, rfl, fun hne => ?_, mem_cool h⟩
    rw [cool, if_pos hne] at h
    cases h

theorem rotate_cools (cfg : SupervisorConfig) (provider : Option String) {s : Supervisor}
    {tun : Tunnel} (htun : s.tunnel = some tun) (hne : tun.serverId ≠ "") :
    ∃ before expiry, .cooled (cfg.pair tun.serverId provider) before expiry ∈
      (cfg.rotate s provider).2 := by
  rw [rotate, htun]
  dsimp only
  rw [cool, if_neg hne]
  exact ⟨_, _, List.mem_singleton.mpr rfl⟩

theorem SwitchedTo.mem {s s' : Supervisor} {outcome : LeaseOutcome} {provider : Option String}
    {lease : Lease} {effects : List EgressEffect}
    (h : SwitchedTo cfg s outcome provider lease s' effects) {e : EgressEffect} (he : e ∈ effects) :
    ∃ pair before expiry, e = .cooled pair before expiry ∧ lease.server = some pair.1 := by
  cases h with
  | netErr _ => cases he
  | cooled _ _ hserver => exact ⟨_, _, _, mem_cool he, hserver⟩

theorem coolsCarrier_report_iff (s : Supervisor) (leaseId : String) (outcome : LeaseOutcome)
    (provider : Option String) :
    CoolsCarrier cfg s (.report leaseId outcome provider) ↔
      OnCarrier cfg s (.report leaseId outcome provider) := by
  rcases handleReport_cases cfg s leaseId outcome provider with
    ⟨lease, s', effects, hlease, hknown, hswitched, heq⟩ | ⟨hno, s', action, heq, hcool⟩
  · obtain ⟨hrecorded, htunnel, hleases⟩ := hswitched.recorded
    have hrequest : cfg.request s (.report leaseId outcome provider) = _ := heq
    have hmem : ∀ e ∈ effects ++ (cfg.rotate s' (provider.or lease.provider)).2,
        ∃ pair before expiry, e = .cooled pair before expiry := by
      intro e he
      rcases List.mem_append.mp he with he | he
      · obtain ⟨pair, before, expiry, rfl, -⟩ := hswitched.mem he
        exact ⟨pair, before, expiry, rfl⟩
      · obtain ⟨tun, before, expiry, -, -, rfl⟩ := mem_rotate he
        exact ⟨_, before, expiry, rfl⟩
    constructor
    · intro h lease' tun hlease' _ _ htun hne
      obtain rfl := Option.some.inj (hlease.symm.trans hlease')
      obtain ⟨before, expiry, hin⟩ := rotate_cools cfg (provider.or lease.provider)
        (htunnel.trans htun) hne
      have hcooled := h.cooled (cfg.pair tun.serverId (provider.or lease.provider)) before expiry
      rw [SupervisorConfig.effects, hrequest] at hcooled
      rcases hcooled (List.mem_append_right _ hin) with ⟨lease', hlease', hserver⟩ | hfailed
      · obtain rfl := Option.some.inj (hlease.symm.trans hlease')
        exact hserver
      · rcases hfailed with hfailed | hfailed | hfailed
        · obtain ⟨_, _, _, hcooled⟩ := hmem _ hfailed
          cases hcooled
        · obtain ⟨_, _, _, hcooled⟩ := hmem _ hfailed
          cases hcooled
        · obtain ⟨_, _, _, hcooled⟩ := hmem _ hfailed
          cases hcooled
    · intro h
      refine coolsCarrier_of_request hrequest (hrecorded.append (recorded_rotate ..)) ?_ ?_ ?_
      · intro pair before expiry hin
        rcases List.mem_append.mp hin with hin | hin
        · obtain ⟨_, _, _, hpair, hserver⟩ := hswitched.mem hin
          injection hpair with hpair
          exact Or.inl ⟨lease, hlease, hpair ▸ hserver⟩
        · obtain ⟨tun, _, _, htun, hne, hpair⟩ := mem_rotate hin
          injection hpair with hpair
          have hserver := h lease tun hlease hknown hswitched.switches (htunnel ▸ htun) hne
          exact Or.inl ⟨lease, hlease, hpair ▸ hserver⟩
      · rintro leaseId id provider target proxyUrl ip ⟨⟩
      · rintro reason ⟨⟩
  · have hrequest : cfg.request s (.report leaseId outcome provider) = _ := heq
    refine iff_of_true ?_ fun lease tun hlease hknown hswitches =>
      absurd hswitches (hno lease hlease hknown)
    refine coolsCarrier_of_request hrequest hcool (fun _ _ _ h => nomatch h) ?_ ?_
    · rintro leaseId id provider target proxyUrl ip ⟨⟩
    · rintro reason ⟨⟩

/-- **Cooling the carrier.**  Along a run of requests whose clock is not set back within
a lease request, every cooling is of the reported lease's server or of one that failed,
every lease names the server of its tunnel, and no park leaves a record, exactly when
every report that is answered with a switch finds the tunnel down or on the server of
its lease. -/
theorem cools_carrier_iff (cfg : SupervisorConfig) (s : Supervisor)
    (requests : List SupervisorRequest) (hforward : Meets cfg.after cfg.Forward s requests) :
    Meets cfg.after cfg.CoolsCarrier s requests ↔ Meets cfg.after cfg.OnCarrier s requests := by
  have hstep : ∀ s r, cfg.Forward s r → (cfg.CoolsCarrier s r ↔ cfg.OnCarrier s r) := by
    intro s r hr
    cases r with
    | lease call => exact iff_of_true (coolsCarrier_lease hr) trivial
    | report leaseId outcome provider => exact coolsCarrier_report_iff s leaseId outcome provider
  exact meets_congr_of_meets cfg.after hstep hforward

theorem meets_forward (hclock : Monotone cfg.clock) (s : Supervisor)
    (requests : List SupervisorRequest) : Meets cfg.after cfg.Forward s requests := by
  refine meets_of_invariant cfg.after (I := fun _ => True) (fun _ _ _ => trivial) ?_ trivial requests
  intro s r _
  cases r with
  | lease call => exact hclock (Nat.le_succ _)
  | report leaseId outcome provider => trivial

/-- Two servers, and a clock that goes on by a second at every reading. -/
def twoServers : SupervisorConfig where
  lib := .ascii
  servers := [⟨"s1", "vless://s1"⟩, ⟨"s2", "vless://s2"⟩]
  nodup := by decide
  cooldownSecs := none
  tunneled := []
  clock n := 1000 + n

/-- A lease request in which everything answers. -/
def leaseOf (target leaseId : String) : SupervisorRequest :=
  .lease ⟨target, leaseId, none, true, true, fun _ => true, .ok "http://127.0.0.1:1080",
    .ok "192.0.2.1"⟩

theorem monotone_twoServers : Monotone twoServers.clock := fun a b h => by
  have hcast : (a : Rat) ≤ b := Nat.cast_le.mpr h
  exact add_le_add_right hcast 1000

theorem cools_carrier_twoServers :
    Meets twoServers.after twoServers.CoolsCarrier .init
        [leaseOf "zen" "a", .report "a" .http429 none] ↔
      Meets twoServers.after twoServers.OnCarrier .init
        [leaseOf "zen" "a", .report "a" .http429 none] :=
  cools_carrier_iff twoServers .init _ (meets_forward monotone_twoServers ..)

/-- A lease on the first server is over its quota, the next gets the second server, and a
late report on the first lease cools that one. -/
theorem late_report_cools_next_server :
    Meets twoServers.after twoServers.Forward .init
        [leaseOf "zen" "a", .report "a" .http429 none, leaseOf "zen" "b", .report "a" .netErr none] ∧
      ¬ Meets twoServers.after twoServers.CoolsCarrier .init
        [leaseOf "zen" "a", .report "a" .http429 none, leaseOf "zen" "b",
          .report "a" .netErr none] := by
  refine ⟨meets_forward monotone_twoServers .., ?_⟩
  rintro ⟨-, -, -, h, -⟩
  have hserver := (coolsCarrier_report_iff _ "a" .netErr none).mp h
    ⟨some "s1", 1001, some "zen", "zen"⟩ ⟨"s2", "http://127.0.0.1:1080"⟩ (by decide +kernel)
    (by decide +kernel) (Or.inl rfl) (by decide +kernel) (by decide)
  revert hserver
  decide

end SupervisorConfig

end HamZaboon
