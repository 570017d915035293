import HamZaboon.Egress.Leases

/-! # The egress supervisor

`Pool`, `TunnelOwner` and `do_POST` of `tools/egress/supervisor.py`: lease and report
requests, one after the other.  A lease of a tunnel target picks a server, mints a
record and then acquires the one tunnel there is; a report that says to switch cools
the server of its lease, and then the server of the tunnel, whichever that is by now.
A request comes with the outcomes of what it tries: the clean-server cache, the pings,
the spawn and the egress check.
-/

namespace HamZaboon
open Library

/-- What the supervisor reads of a server. -/
structure PoolServer where
  id : String
  link : String
  deriving DecidableEq, Repr

/-- What no lease or report changes; `clock n` is what the `n`-th call of `time.time`
returns. -/
structure SupervisorConfig where
  lib : StrLib
  servers : List PoolServer
  /-- `load` skips the ids it knows. -/
  nodup : (servers.map PoolServer.id).Nodup
  cooldownSecs : Option Override
  tunneled : List String
  clock : Nat → Rat

structure Tunnel where
  serverId : String
  proxyUrl : String
  deriving DecidableEq, Repr

/-- The pool and the owner of the tunnel, and how often the clock was read. -/
structure Supervisor where
  reads : Nat
  cooldownUntil : String × String → Option Rat
  leases : String → Option Lease
  tunnel : Option Tunnel

/-- A supervisor that has just started. -/
def Supervisor.init : Supervisor := ⟨0, fun _ => none, fun _ => none, none⟩

/-- What a request does to a server; a cooling with what it overwrites. -/
inductive EgressEffect
  | probed (serverId : String) (alive : Bool)
  | spawned (serverId : String) (up : Bool)
  | checked (serverId : String) (passed : Bool)
  | cooled (pair : String × String) (before : Option Rat) (expiry : Rat)
  deriving DecidableEq, Repr

/-- The outcome of a spawn or of an egress check. -/
inductive EgressAttempt
  | ok (value : String)
  /-- A `RuntimeError`, a `ValueError` or an `OSError`. -/
  | error (message : String)
  /-- Any other exception. -/
  | other
  deriving DecidableEq, Repr

/-- A lease request, and the outcomes of what it tries. -/
structure LeaseCall where
  target : String
  /-- `secrets.token_hex(8)`. -/
  leaseId : String
  /-- The server that `lease_for` names from the clean cache. -/
  hint : Option String
  /-- Whether the tunnel's process runs, before and after the probes. -/
  alive : Bool
  stillAlive : Bool
  ping : String → Bool
  spawn : EgressAttempt
  check : EgressAttempt

inductive SupervisorRequest
  | lease (call : LeaseCall)
  | report (leaseId : String) (outcome : LeaseOutcome) (provider : Option String)

inductive ParkReason
  | unknownTarget (target : String)
  | noServer
  | noLinkServer
  | allDead (probed : Nat)
  | checkFailed
  | error (message : String)
  deriving DecidableEq, Repr

/-- What `Pool.lease` returns, besides the lease's id. -/
inductive PoolReply
  | park (reason : ParkReason)
  | direct (provider : Option String) (target : String)
  | tunnel (serverId : String) (provider : Option String) (target : String)
  deriving DecidableEq, Repr

/-- What `acquire` returns or raises; `failed` with its `failed_server_id`. -/
inductive Acquired
  | up (proxyUrl egressIp serverId : String)
  | failed (reason : ParkReason) (server : Option String)
  | raised
  deriving DecidableEq, Repr

inductive SupervisorResponse
  | park (reason : ParkReason)
  | direct (leaseId : String) (provider : Option String) (target : String)
  | tunnel (leaseId serverId : String) (provider : Option String)
      (target proxyUrl egressIp : String)
  | action (action : ReportAction)
  deriving DecidableEq, Repr

namespace Supervisor
variable (s : Supervisor)

/-- `time.time()` was called. -/
def tick : Supervisor := { s with reads := s.reads + 1 }

/-- `_drop_locked`. -/
def drop : Supervisor := { s with tunnel := none }

def mint (leaseId : String) (lease : Lease) : Supervisor :=
  { s with leases := Function.update s.leases leaseId (some lease) }

def discardLease (leaseId : String) : Supervisor :=
  { s with leases := Function.update s.leases leaseId none }

def retargetLease (leaseId serverId : String) : Supervisor :=
  match s.leases leaseId with
  | none => s
  | some lease => if serverId = "" then s else s.mint leaseId { lease with server := some serverId }

def providerOf (leaseId : String) : Option String := (s.leases leaseId).bind (·.provider)

@[simp] theorem mint_self (leaseId : String) (lease : Lease) :
    (s.mint leaseId lease).leases leaseId = some lease := Function.update_self ..

theorem mint_of_ne {leaseId other : String} (lease : Lease) (h : other ≠ leaseId) :
    (s.mint leaseId lease).leases other = s.leases other := Function.update_of_ne h ..

@[simp] theorem discardLease_self (leaseId : String) :
    (s.discardLease leaseId).leases leaseId = none := Function.update_self ..

theorem discardLease_of_ne {leaseId other : String} (h : other ≠ leaseId) :
    (s.discardLease leaseId).leases other = s.leases other := Function.update_of_ne h ..

/-- The tunnel, if it is on a server and its process runs. -/
def running (server : PoolServer) (alive : Bool) : Option Tunnel :=
  s.tunnel.filter fun tun => tun.serverId = server.id ∧ alive

end Supervisor

namespace SupervisorConfig
variable (cfg : SupervisorConfig)

/-! ## The pool -/

/-- The key of a slot. -/
def pair (serverId : String) (provider : Option String) : String × String :=
  (serverId, cfg.lib.normProvider provider)

/-- The wait `cool` decides on. -/
def wait (provider : Option String) (seconds : Option Rat) : Rat :=
  seconds.getD (cooldownFor cfg.lib provider cfg.cooldownSecs)

def cool (s : Supervisor) (serverId : String) (provider : Option String) (seconds : Option Rat) :
    Supervisor × List EgressEffect :=
  if serverId = "" then (s, [])
  else
    let expiry := cfg.clock s.reads + cfg.wait provider seconds
    ({ s.tick with
        cooldownUntil := Function.update s.cooldownUntil (cfg.pair serverId provider) (some expiry) },
      [.cooled (cfg.pair serverId provider) (s.cooldownUntil (cfg.pair serverId provider)) expiry])

def isCool (s : Supervisor) (serverId : String) (provider : Option String) (now : Rat) : Bool :=
  if serverId = "" then false else now < (s.cooldownUntil (cfg.pair serverId provider)).getD 0

/-- The servers with an id and a link that are not cooling. -/
def available (s : Supervisor) (provider : Option String) (now : Rat) : List PoolServer :=
  cfg.servers.filter fun server =>
    server.id ≠ "" ∧ server.link ≠ "" ∧ cfg.isCool s server.id provider now = false

/-- The server `Pool.lease` picks: that of the clean cache, else the first. -/
def picked (s : Supervisor) (provider : Option String) (hint : Option String) (now : Rat) :
    Option String :=
  match hint.filter fun id => id ∈ (cfg.available s provider now).map (·.id) with
  | some id => some id
  | none => (cfg.available s provider now).head?.map (·.id)

/-- `Pool.lease`. -/
def poolLease (s : Supervisor) (call : LeaseCall) : Supervisor × PoolReply :=
  match targets.lookup (cfg.lib.normProvider (some call.target)) with
  | none => (s.tick, .park (.unknownTarget call.target))
  | some spec =>
    let name := cfg.lib.normProvider (some call.target)
    if spec.tunnel then
      let fresh := cfg.clock (s.reads + 1)
      match cfg.picked s spec.provider call.hint fresh with
      | none => (s.tick.tick, .park .noServer)
      | some id =>
        (s.tick.tick.mint call.leaseId ⟨some id, fresh, spec.provider, name⟩,
          .tunnel id spec.provider name)
    else
      (s.tick.mint call.leaseId ⟨none, cfg.clock s.reads, spec.provider, name⟩,
        .direct spec.provider name)

/-- The provider a report is about: its own, else that of the lease. -/
def effective (provider : Option String) (lease : Lease) : Option String :=
  match provider with
  | some name => some (cfg.lib.normProvider (some name))
  | none => lease.provider

/-- `Pool.report`. -/
def poolReport (s : Supervisor) (leaseId : String) (outcome : LeaseOutcome)
    (provider : Option String) : Supervisor × List EgressEffect × ReportAction :=
  match s.leases leaseId with
  | none => (s, [], .unknownLease)
  | some lease =>
    if knownProvider cfg.lib provider cfg.tunneled then
      let eff := cfg.effective provider lease
      match outcome, lease.server.filter (· ≠ "") with
      | .http429, some server =>
        let cooled := cfg.cool s server eff none
        (cooled.1, cooled.2, .switch)
      | .locationBlocked, some server =>
        -- a persistent condition: the generic scale, whatever the provider's own is
        let cooled := cfg.cool s server eff
          (some (cooldownFor cfg.lib (some "generic") cfg.cooldownSecs))
        (cooled.1, cooled.2, .switch)
      | .netErr, _ => (s, [], .switch)
      | .authErr, _ => (s.discardLease leaseId, [], .reauth)
      | _, _ => (s, [], .keep)
    else (s, [], .keep)

/-! ## The owner of the tunnel -/

/-- The preferred server, if it is there, else the first. -/
def choose (servers : List PoolServer) (prefer : String) : Option PoolServer :=
  (servers.find? fun server => server.id = prefer).or servers.head?

/-- The egress check of a tunnel that runs. -/
def reuse (tun : Tunnel) (call : LeaseCall) : List EgressEffect × Acquired :=
  match call.check with
  | .ok ip => ([.checked tun.serverId true], .up tun.proxyUrl ip tun.serverId)
  | .error message => ([.checked tun.serverId false], .failed (.error message) none)
  | .other => ([.checked tun.serverId false], .raised)

/-- A tunnel on another server than the one that runs, if one does. -/
def start (s : Supervisor) (server : PoolServer) (call : LeaseCall) :
    Supervisor × List EgressEffect × Acquired :=
  match call.spawn with
  | .error message => (s.drop, [.spawned server.id false], .failed (.error message) (some server.id))
  | .other => (s.drop, [.spawned server.id false], .raised)
  | .ok proxyUrl =>
    match call.check with
    | .ok ip =>
      ({ s with tunnel := some ⟨server.id, proxyUrl⟩ },
        [.spawned server.id true, .checked server.id true], .up proxyUrl ip server.id)
    | _ =>
      (s.drop, [.spawned server.id true, .checked server.id false],
        .failed .checkFailed (some server.id))

/-- The tunnel on a server, used again or started. -/
def serve (s : Supervisor) (server : PoolServer) (call : LeaseCall) :
    Supervisor × List EgressEffect × Acquired :=
  match s.running server call.stillAlive with
  | some tun => (s, reuse tun call)
  | none => start s server call

def coolDead (provider : Option String) : List PoolServer → Supervisor →
    Supervisor × List EgressEffect
  | [], s => (s, [])
  | server :: rest, s =>
    let first := cfg.cool s server.id provider (some 600)
    let others := coolDead provider rest first.1
    (others.1, first.2 ++ others.2)

def probes (avail : List PoolServer) (call : LeaseCall) : List EgressEffect :=
  (avail.take 8).map fun server => .probed server.id (call.ping server.id)

def dead (avail : List PoolServer) (call : LeaseCall) : List PoolServer :=
  (avail.take 8).filter fun server => !call.ping server.id

/-- The candidates that answer, and the servers that were not probed. -/
def live (avail : List PoolServer) (call : LeaseCall) : List PoolServer :=
  ((avail.take 8).filter fun server => call.ping server.id) ++ avail.drop 8

/-- `acquire`, from the probes on. -/
def probeAndServe (s : Supervisor) (provider : Option String) (prefer : String)
    (avail : List PoolServer) (call : LeaseCall) : Supervisor × List EgressEffect × Acquired :=
  let cooled := cfg.coolDead provider (dead avail call) s
  match choose (live avail call) prefer with
  | none => (cooled.1, probes avail call ++ cooled.2, .failed (.allDead (avail.take 8).length) none)
  | some server =>
    let served := serve cooled.1 server call
    (served.1, probes avail call ++ cooled.2 ++ served.2.1, served.2.2)

def acquire (s : Supervisor) (provider : Option String) (prefer : String) (call : LeaseCall) :
    Supervisor × List EgressEffect × Acquired :=
  let avail := cfg.available s provider (cfg.clock s.reads)
  match choose avail prefer with
  | none => (s.tick, [], .failed .noLinkServer none)
  | some wanted =>
    match s.running wanted call.alive with
    | some tun => (s.tick, reuse tun call)
    | none => cfg.probeAndServe s.tick provider prefer avail call

def rotate (s : Supervisor) (provider : Option String) : Supervisor × List EgressEffect :=
  match s.tunnel with
  | none => (s, [])
  | some tun =>
    let cooled := cfg.cool s tun.serverId provider none
    (cooled.1.drop, cooled.2)

/-! ## Requests -/

/-- `/v1/lease`, of a tunnel lease that was minted. -/
def finishLease (s : Supervisor) (call : LeaseCall) (serverId : String) (provider : Option String)
    (target : String) : Supervisor × List EgressEffect × Option SupervisorResponse :=
  let got := cfg.acquire s provider serverId call
  match got.2.2 with
  | .up proxyUrl ip id =>
    (if id = serverId then got.1 else got.1.retargetLease call.leaseId id, got.2.1,
      some (.tunnel call.leaseId id provider target proxyUrl ip))
  | .failed reason failed =>
    let cooled := cfg.cool got.1 ((failed.filter (· ≠ "")).getD serverId) provider
      (some (cooldownFor cfg.lib (some "tunnel_fetch") cfg.cooldownSecs))
    (cooled.1.discardLease call.leaseId, got.2.1 ++ cooled.2, some (.park reason))
  | .raised => (got.1, got.2.1, none)

/-- `/v1/lease`; no response where an exception is not caught. -/
def handleLease (s : Supervisor) (call : LeaseCall) :
    Supervisor × List EgressEffect × Option SupervisorResponse :=
  let leased := cfg.poolLease s call
  match leased.2 with
  | .park reason => (leased.1, [], some (.park reason))
  | .direct provider target => (leased.1, [], some (.direct call.leaseId provider target))
  | .tunnel serverId provider target => cfg.finishLease leased.1 call serverId provider target

/-- `/v1/report`. -/
def handleReport (s : Supervisor) (leaseId : String) (outcome : LeaseOutcome)
    (provider : Option String) : Supervisor × List EgressEffect × Option SupervisorResponse :=
  let reported := cfg.poolReport s leaseId outcome provider
  if reported.2.2 = .switch then
    let rotated := cfg.rotate reported.1 (provider.or (reported.1.providerOf leaseId))
    (rotated.1, reported.2.1 ++ rotated.2, some (.action reported.2.2))
  else (reported.1, reported.2.1, some (.action reported.2.2))

/-- `do_POST`. -/
def request (s : Supervisor) : SupervisorRequest →
    Supervisor × List EgressEffect × Option SupervisorResponse
  | .lease call => cfg.handleLease s call
  | .report leaseId outcome provider => cfg.handleReport s leaseId outcome provider

def after (s : Supervisor) (r : SupervisorRequest) : Supervisor := (cfg.request s r).1

def effects (s : Supervisor) (r : SupervisorRequest) : List EgressEffect := (cfg.request s r).2.1

def response (s : Supervisor) (r : SupervisorRequest) : Option SupervisorResponse :=
  (cfg.request s r).2.2

/-! ## Recorded cooldowns -/

/-- The effects are the writes that lead from the one table to the other, in order, each
with what it overwrites. -/
def Recorded : (String × String → Option Rat) → List EgressEffect →
    (String × String → Option Rat) → Prop
  | m, [], m' => m' = m
  | m, .cooled pair before expiry :: effects, m' =>
      before = m pair ∧ Recorded (Function.update m pair (some expiry)) effects m'
  | m, .probed _ _ :: effects, m' => Recorded m effects m'
  | m, .spawned _ _ :: effects, m' => Recorded m effects m'
  | m, .checked _ _ :: effects, m' => Recorded m effects m'

theorem Recorded.append {m m' m'' : String × String → Option Rat} {a b : List EgressEffect}
    (ha : Recorded m a m') (hb : Recorded m' b m'') : Recorded m (a ++ b) m'' := by
  induction a generalizing m with
  | nil =>
    obtain rfl : m' = m := ha
    exact hb
  | cons e a ih =>
    cases e with
    | cooled pair before expiry => exact ⟨ha.1, ih ha.2⟩
    | probed serverId alive => exact ih (m := m) ha
    | spawned serverId up => exact ih (m := m) ha
    | checked serverId passed => exact ih (m := m) ha

theorem Recorded.unchanged {m m' : String × String → Option Rat} {effects : List EgressEffect}
    (h : Recorded m effects m') {pair : String × String}
    (hno : ∀ before expiry, .cooled pair before expiry ∉ effects) : m' pair = m pair := by
  induction effects generalizing m with
  | nil =>
    obtain rfl : m' = m := h
    rfl
  | cons e effects ih =>
    have hrest : ∀ before expiry, .cooled pair before expiry ∉ effects := fun before expiry hmem =>
      hno before expiry (List.mem_cons_of_mem _ hmem)
    cases e with
    | cooled pair' before expiry =>
      have hne : pair ≠ pair' := by
        rintro rfl
        exact hno before expiry (List.mem_cons_self ..)
      rw [ih h.2 hrest, Function.update_of_ne hne]
    | probed serverId alive => exact ih (m := m) h hrest
    | spawned serverId up => exact ih (m := m) h hrest
    | checked serverId passed => exact ih (m := m) h hrest

/-- Effects that cool nothing. -/
def Quiet (effects : List EgressEffect) : Prop :=
  ∀ pair before expiry, .cooled pair before expiry ∉ effects

theorem Quiet.recorded {effects : List EgressEffect} (h : Quiet effects)
    (m : String × String → Option Rat) : Recorded m effects m := by
  induction effects with
  | nil => rfl
  | cons e effects ih =>
    have hrest : Quiet effects := fun pair before expiry hmem =>
      h pair before expiry (List.mem_cons_of_mem _ hmem)
    cases e with
    | cooled pair before expiry => exact absurd (List.mem_cons_self ..) (h pair before expiry)
    | probed serverId alive => exact ih hrest
    | spawned serverId up => exact ih hrest
    | checked serverId passed => exact ih hrest

variable {cfg}

theorem recorded_cool (s : Supervisor) (serverId : String) (provider : Option String)
    (seconds : Option Rat) :
    Recorded s.cooldownUntil (cfg.cool s serverId provider seconds).2
      (cfg.cool s serverId provider seconds).1.cooldownUntil := by
  unfold cool
  split
  · rfl
  · exact ⟨rfl, rfl⟩

theorem mem_cool {s : Supervisor} {serverId : String} {provider : Option String}
    {seconds : Option Rat} {e : EgressEffect} (h : e ∈ (cfg.cool s serverId provider seconds).2) :
    e = .cooled (cfg.pair serverId provider) (s.cooldownUntil (cfg.pair serverId provider))
      (cfg.clock s.reads + cfg.wait provider seconds) := by
  unfold cool at h
  split at h
  · cases h
  · exact List.mem_singleton.mp h

@[simp] theorem cool_leases (s : Supervisor) (serverId : String) (provider : Option String)
    (seconds : Option Rat) : (cfg.cool s serverId provider seconds).1.leases = s.leases := by
  unfold cool
  split <;> rfl

@[simp] theorem cool_tunnel (s : Supervisor) (serverId : String) (provider : Option String)
    (seconds : Option Rat) : (cfg.cool s serverId provider seconds).1.tunnel = s.tunnel := by
  unfold cool
  split <;> rfl

theorem cool_cooldownUntil {s : Supervisor} {serverId : String} (hne : serverId ≠ "")
    (provider : Option String) (seconds : Option Rat) :
    (cfg.cool s serverId provider seconds).1.cooldownUntil =
      Function.update s.cooldownUntil (cfg.pair serverId provider)
        (some (cfg.clock s.reads + cfg.wait provider seconds)) := by
  rw [cool, if_neg hne]

theorem cool_reads {s : Supervisor} {serverId : String} (hne : serverId ≠ "")
    (provider : Option String) (seconds : Option Rat) :
    (cfg.cool s serverId provider seconds).1.reads = s.reads + 1 := by
  rw [cool, if_neg hne]
  rfl

theorem coolDead_spec (cfg : SupervisorConfig) (provider : Option String) (servers : List PoolServer) (s : Supervisor) :
    Recorded s.cooldownUntil (cfg.coolDead provider servers s).2
        (cfg.coolDead provider servers s).1.cooldownUntil ∧
      (cfg.coolDead provider servers s).1.leases = s.leases ∧
      (cfg.coolDead provider servers s).1.tunnel = s.tunnel ∧
      ∀ pair before expiry, .cooled pair before expiry ∈ (cfg.coolDead provider servers s).2 →
        ∃ server ∈ servers, pair = cfg.pair server.id provider := by
  induction servers generalizing s with
  | nil => exact ⟨rfl, rfl, rfl, fun _ _ _ h => nomatch h⟩
  | cons server rest ih =>
    obtain ⟨hrecorded, hleases, htunnel, hmem⟩ := ih (cfg.cool s server.id provider (some 600)).1
    refine ⟨(recorded_cool ..).append hrecorded, hleases.trans (cool_leases ..),
      htunnel.trans (cool_tunnel ..), fun pair before expiry h => ?_⟩
    rcases List.mem_append.mp h with h | h
    · injection mem_cool h with hpair
      exact ⟨server, List.mem_cons_self .., hpair⟩
    · obtain ⟨server', hserver', hpair⟩ := hmem pair before expiry h
      exact ⟨server', List.mem_cons_of_mem _ hserver', hpair⟩

/-! ## What acquiring does -/

/-- A server failed a probe, a spawn or an egress check. -/
def Failed (effects : List EgressEffect) (serverId : String) : Prop :=
  .probed serverId false ∈ effects ∨ .spawned serverId false ∈ effects ∨
    .checked serverId false ∈ effects

theorem Failed.mono {a b : List EgressEffect} {serverId : String} (h : Failed a serverId)
    (hsub : a ⊆ b) : Failed b serverId :=
  h.imp (@hsub _) (Or.imp (@hsub _) (@hsub _))

theorem mem_of_choose {servers : List PoolServer} {prefer : String} {server : PoolServer}
    (h : choose servers prefer = some server) : server ∈ servers := by
  rcases Option.or_eq_some_iff.mp h with hfind | ⟨-, hhead⟩
  · exact List.mem_of_find?_eq_some hfind
  · exact List.mem_of_mem_head? hhead

theorem choose_prefer {servers : List PoolServer} {prefer : String}
    (h : ∃ server ∈ servers, server.id = prefer) :
    ∃ server, choose servers prefer = some server ∧ server.id = prefer := by
  obtain ⟨server, hserver, hid⟩ := h
  obtain ⟨found, hfound⟩ : ∃ found, servers.find? (fun server => server.id = prefer) = some found :=
    Option.isSome_iff_exists.mp (List.find?_isSome.mpr ⟨server, hserver, decide_eq_true hid⟩)
  refine ⟨found, by rw [choose, hfound, Option.some_or], ?_⟩
  simpa using List.find?_some hfound

theorem id_of_choose {servers : List PoolServer} {prefer : String} {wanted : PoolServer}
    (hchoose : choose servers prefer = some wanted) (h : ∃ server ∈ servers, server.id = prefer) :
    wanted.id = prefer := by
  obtain ⟨found, hfound, hid⟩ := choose_prefer h
  exact Option.some.inj (hchoose.symm.trans hfound) ▸ hid

theorem not_exists_of_choose {servers : List PoolServer} {prefer : String}
    (hchoose : choose servers prefer = none) : ¬ ∃ server ∈ servers, server.id = prefer := by
  intro h
  obtain ⟨found, hfound, -⟩ := choose_prefer h
  cases hchoose.symm.trans hfound

theorem mem_available {s : Supervisor} {provider : Option String} {now : Rat} {server : PoolServer} :
    server ∈ cfg.available s provider now ↔ server ∈ cfg.servers ∧ server.id ≠ "" ∧
      server.link ≠ "" ∧ cfg.isCool s server.id provider now = false := by
  simp [available, List.mem_filter]

structure ServeSpec (s : Supervisor) (server : PoolServer)
    (r : Supervisor × List EgressEffect × Acquired) : Prop where
  cooldownUntil : r.1.cooldownUntil = s.cooldownUntil
  leases : r.1.leases = s.leases
  quiet : Quiet r.2.1
  up : ∀ proxyUrl ip id, r.2.2 = .up proxyUrl ip id →
    r.1.tunnel = some ⟨id, proxyUrl⟩ ∧ id = server.id
  named : ∀ reason id, r.2.2 = .failed reason (some id) → id = server.id ∧ Failed r.2.1 id
  unnamed : ∀ reason, r.2.2 = .failed reason none → Failed r.2.1 server.id

theorem eq_of_running {s : Supervisor} {server : PoolServer} {alive : Bool} {tun : Tunnel}
    (h : s.running server alive = some tun) : s.tunnel = some tun ∧ tun.serverId = server.id := by
  obtain ⟨htun, hid⟩ := Option.filter_eq_some_iff.mp h
  exact ⟨htun, (of_decide_eq_true hid).1⟩

theorem serveSpec_reuse {s : Supervisor} {server : PoolServer} {alive : Bool} {tun : Tunnel}
    (h : s.running server alive = some tun) (call : LeaseCall) :
    ServeSpec s server (s, reuse tun call) := by
  obtain ⟨htun, hid⟩ := eq_of_running h
  unfold reuse
  cases call.check with
  | ok ip =>
    refine ⟨rfl, rfl, fun _ _ _ hmem => ?_, fun proxyUrl ip' id heq => ?_, fun _ _ heq => ?_,
      fun _ heq => ?_⟩
    · simp at hmem
    · injection heq with hproxy _ hserver
      subst hproxy hserver
      exact ⟨htun, hid⟩
    · cases heq
    · cases heq
  | error message =>
    refine ⟨rfl, rfl, fun _ _ _ hmem => ?_, fun _ _ _ heq => ?_, fun _ _ heq => ?_,
      fun _ _ => ?_⟩
    · simp at hmem
    · cases heq
    · cases heq
    · exact Or.inr (Or.inr (hid ▸ List.mem_singleton.mpr rfl))
  | other =>
    refine ⟨rfl, rfl, fun _ _ _ hmem => ?_, fun _ _ _ heq => ?_, fun _ _ heq => ?_,
      fun _ heq => ?_⟩
    · simp at hmem
    · cases heq
    · cases heq
    · cases heq

theorem serveSpec_start (s : Supervisor) (server : PoolServer) (call : LeaseCall) :
    ServeSpec s server (start s server call) := by
  unfold start
  cases call.spawn with
  | error message =>
    refine ⟨rfl, rfl, fun _ _ _ hmem => ?_, fun _ _ _ heq => ?_, fun _ id heq => ?_, fun _ heq => ?_⟩
    · simp at hmem
    · cases heq
    · injection heq with _ hid
      obtain rfl := Option.some.inj hid
      exact ⟨rfl, Or.inr (Or.inl (List.mem_singleton.mpr rfl))⟩
    · cases heq
  | other =>
    refine ⟨rfl, rfl, fun _ _ _ hmem => ?_, fun _ _ _ heq => ?_, fun _ _ heq => ?_, fun _ heq => ?_⟩
    · simp at hmem
    · cases heq
    · cases heq
    · cases heq
  | ok proxyUrl =>
    dsimp only
    split
    · refine ⟨rfl, rfl, fun _ _ _ hmem => ?_, fun _ _ _ heq => ?_, fun _ _ heq => ?_,
        fun _ heq => ?_⟩
      · simp at hmem
      · injection heq with hproxy _ hserver
        subst hproxy hserver
        exact ⟨rfl, rfl⟩
      · cases heq
      · cases heq
    · refine ⟨rfl, rfl, fun _ _ _ hmem => ?_, fun _ _ _ heq => ?_, fun _ id heq => ?_,
        fun _ heq => ?_⟩
      · simp at hmem
      · cases heq
      · injection heq with _ hid
        obtain rfl := Option.some.inj hid
        exact ⟨rfl, Or.inr (Or.inr (by simp))⟩
      · cases heq

theorem serveSpec_serve (s : Supervisor) (server : PoolServer) (call : LeaseCall) :
    ServeSpec s server (serve s server call) := by
  unfold serve
  split
  · rename_i tun hrunning
    exact serveSpec_reuse hrunning call
  · exact serveSpec_start s server call

structure AcquireSpec (cfg : SupervisorConfig) (s : Supervisor) (provider : Option String)
    (prefer : String) (r : Supervisor × List EgressEffect × Acquired) : Prop where
  recorded : Recorded s.cooldownUntil r.2.1 r.1.cooldownUntil
  leases : r.1.leases = s.leases
  cooled : ∀ pair before expiry, .cooled pair before expiry ∈ r.2.1 → Failed r.2.1 pair.1
  up : ∀ proxyUrl ip id, r.2.2 = .up proxyUrl ip id → r.1.tunnel = some ⟨id, proxyUrl⟩ ∧ id ≠ "" ∧
    cfg.isCool r.1 id provider (cfg.clock s.reads) = false
  named : ∀ reason id, r.2.2 = .failed reason (some id) → id ≠ "" ∧ Failed r.2.1 id
  unnamed : ∀ reason, r.2.2 = .failed reason none →
    (∃ server ∈ cfg.available s provider (cfg.clock s.reads), server.id = prefer) →
      Failed r.2.1 prefer

theorem isCool_congr {s s' : Supervisor} {serverId : String} {provider : Option String} {now : Rat}
    (h : s'.cooldownUntil (cfg.pair serverId provider) =
      s.cooldownUntil (cfg.pair serverId provider)) :
    cfg.isCool s' serverId provider now = cfg.isCool s serverId provider now := by
  rw [isCool, isCool, h]

theorem acquireSpec_serve {s s' : Supervisor} {provider : Option String} {prefer : String}
    {wanted : PoolServer} {r : Supervisor × List EgressEffect × Acquired}
    (hwanted : wanted ∈ cfg.available s provider (cfg.clock s.reads))
    (hprefer : (∃ server ∈ cfg.available s provider (cfg.clock s.reads), server.id = prefer) →
      wanted.id = prefer)
    (h : ServeSpec s' wanted r) (hcool : s'.cooldownUntil = s.cooldownUntil)
    (hleases : s'.leases = s.leases) : AcquireSpec cfg s provider prefer r where
  recorded := by
    rw [h.cooldownUntil, hcool]
    exact h.quiet.recorded _
  leases := h.leases.trans hleases
  cooled pair before expiry hmem := absurd hmem (h.quiet pair before expiry)
  up proxyUrl ip id heq := by
    obtain ⟨htunnel, rfl⟩ := h.up proxyUrl ip id heq
    obtain ⟨-, hid, -, hnot⟩ := mem_available.mp hwanted
    refine ⟨htunnel, hid, (isCool_congr ?_).trans hnot⟩
    rw [h.cooldownUntil, hcool]
  named reason id heq := by
    obtain ⟨rfl, hfailed⟩ := h.named reason id heq
    exact ⟨(mem_available.mp hwanted).2.1, hfailed⟩
  unnamed reason heq hthere := hprefer hthere ▸ h.unnamed reason heq

theorem id_ne_of_dead {avail : List PoolServer} (hnodup : (avail.map PoolServer.id).Nodup)
    {call : LeaseCall} {a b : PoolServer} (ha : a ∈ dead avail call) (hb : b ∈ live avail call) :
    a.id ≠ b.id := by
  obtain ⟨ha, hping⟩ := List.mem_filter.mp ha
  rcases List.mem_append.mp hb with hb | hb
  · intro heq
    rw [heq] at hping
    simp [(List.mem_filter.mp hb).2] at hping
  · have hsplit := hnodup
    rw [← List.take_append_drop 8 avail, List.map_append] at hsplit
    exact (List.nodup_append.mp hsplit).2.2 _ (List.mem_map_of_mem ha) _ (List.mem_map_of_mem hb)

theorem nodup_available (cfg : SupervisorConfig) (s : Supervisor) (provider : Option String) (now : Rat) :
    ((cfg.available s provider now).map PoolServer.id).Nodup :=
  cfg.nodup.sublist (List.filter_sublist.map _)

theorem quiet_probes (avail : List PoolServer) (call : LeaseCall) : Quiet (probes avail call) := by
  intro pair before expiry h
  obtain ⟨server, -, heq⟩ := List.mem_map.mp h
  cases heq

theorem probed_of_dead {avail : List PoolServer} {call : LeaseCall} {server : PoolServer}
    (h : server ∈ dead avail call) : .probed server.id false ∈ probes avail call := by
  obtain ⟨htake, hping⟩ := List.mem_filter.mp h
  exact List.mem_map.mpr ⟨server, htake, by simpa using hping⟩

theorem dead_of_not_live {avail : List PoolServer} {call : LeaseCall} {server : PoolServer}
    (hserver : server ∈ avail) (hnot : server ∉ live avail call) : server ∈ dead avail call := by
  rw [← List.take_append_drop 8 avail] at hserver
  rcases List.mem_append.mp hserver with htake | hdrop
  · refine List.mem_filter.mpr ⟨htake, ?_⟩
    by_contra hping
    refine hnot (List.mem_append_left _ (List.mem_filter.mpr ⟨htake, ?_⟩))
    simpa using hping
  · exact absurd (List.mem_append_right _ hdrop) hnot

theorem live_subset {avail : List PoolServer} {call : LeaseCall} : live avail call ⊆ avail := by
  intro server hserver
  rcases List.mem_append.mp hserver with h | h
  · exact List.mem_of_mem_take (List.mem_filter.mp h).1
  · exact List.mem_of_mem_drop h

theorem recorded_probing (cfg : SupervisorConfig) (s : Supervisor) (provider : Option String) (avail : List PoolServer)
    (call : LeaseCall) :
    Recorded s.cooldownUntil (probes avail call ++ (cfg.coolDead provider (dead avail call) s).2)
      (cfg.coolDead provider (dead avail call) s).1.cooldownUntil :=
  ((quiet_probes avail call).recorded _).append (coolDead_spec cfg provider _ s).1

theorem failed_of_probing {s : Supervisor} {provider : Option String} {avail : List PoolServer}
    {call : LeaseCall} {pair : String × String} {before : Option Rat} {expiry : Rat}
    (h : .cooled pair before expiry ∈
      probes avail call ++ (cfg.coolDead provider (dead avail call) s).2) :
    Failed (probes avail call) pair.1 := by
  rcases List.mem_append.mp h with h | h
  · exact absurd h (quiet_probes avail call pair before expiry)
  · obtain ⟨server, hserver, rfl⟩ := (coolDead_spec cfg provider _ s).2.2.2 pair before expiry h
    exact Or.inl (probed_of_dead hserver)

theorem acquireSpec_probeAndServe {s s' : Supervisor} {provider : Option String}
    {avail : List PoolServer} (havail : cfg.available s provider (cfg.clock s.reads) = avail)
    (prefer : String) (call : LeaseCall) (hcool : s'.cooldownUntil = s.cooldownUntil)
    (hleases : s'.leases = s.leases) :
    AcquireSpec cfg s provider prefer (cfg.probeAndServe s' provider prefer avail call) := by
  obtain ⟨-, hdeadLeases, -, hmem⟩ := coolDead_spec cfg provider (dead avail call) s'
  have hrecorded := recorded_probing cfg s' provider avail call
  rw [hcool] at hrecorded
  have hnodup : (avail.map PoolServer.id).Nodup := havail ▸ nodup_available cfg s provider _
  unfold probeAndServe
  cases hchoose : choose (live avail call) prefer with
  | none =>
    refine ⟨hrecorded, hdeadLeases.trans hleases, fun pair before expiry h => ?_,
      fun _ _ _ heq => ?_, fun _ _ heq => ?_, fun _ _ hthere => ?_⟩
    · exact (failed_of_probing h).mono (List.subset_append_left ..)
    · cases heq
    · cases heq
    · obtain ⟨server, hserver, rfl⟩ := hthere
      rw [havail] at hserver
      have hnot : server ∉ live avail call := fun hlive =>
        not_exists_of_choose hchoose ⟨server, hlive, rfl⟩
      exact Or.inl (List.mem_append_left _ (probed_of_dead (dead_of_not_live hserver hnot)))
  | some wanted =>
    have hlive := mem_of_choose hchoose
    have hserve := serveSpec_serve (cfg.coolDead provider (dead avail call) s').1 wanted call
    have hwanted : wanted ∈ cfg.available s provider (cfg.clock s.reads) :=
      havail ▸ live_subset hlive
    dsimp only
    refine ⟨?_, ?_, fun pair before expiry h => ?_, fun proxyUrl ip id heq => ?_,
      fun reason id heq => ?_, fun reason heq hthere => ?_⟩
    · rw [hserve.cooldownUntil]
      exact hrecorded.append (hserve.quiet.recorded _)
    · exact hserve.leases.trans (hdeadLeases.trans hleases)
    · rcases List.mem_append.mp h with h | h
      · refine (failed_of_probing h).mono ?_
        rw [List.append_assoc]
        exact List.subset_append_left ..
      · exact absurd h (hserve.quiet pair before expiry)
    · obtain ⟨htunnel, rfl⟩ := hserve.up proxyUrl ip id heq
      obtain ⟨-, hid, -, hnot⟩ := mem_available.mp hwanted
      refine ⟨htunnel, hid, (isCool_congr ?_).trans hnot⟩
      rw [hserve.cooldownUntil, hrecorded.unchanged]
      intro before expiry h
      rcases List.mem_append.mp h with h | h
      · exact quiet_probes avail call _ _ _ h
      · obtain ⟨server, hserver, hpair⟩ := hmem _ before expiry h
        exact id_ne_of_dead hnodup hserver hlive (Prod.mk.inj hpair).1.symm
    · obtain ⟨rfl, hfailed⟩ := hserve.named reason id heq
      exact ⟨(mem_available.mp hwanted).2.1, hfailed.mono (List.subset_append_right ..)⟩
    · by_cases hsame : wanted.id = prefer
      · exact hsame ▸ (hserve.unnamed reason heq).mono (List.subset_append_right ..)
      · obtain ⟨server, hserver, rfl⟩ := hthere
        rw [havail] at hserver
        have hnot : server ∉ live avail call := fun hin =>
          hsame (id_of_choose hchoose ⟨server, hin, rfl⟩)
        refine Or.inl (List.mem_append_left _ (List.mem_append_left _ ?_))
        exact probed_of_dead (dead_of_not_live hserver hnot)

theorem acquireSpec_acquire (cfg : SupervisorConfig) (s : Supervisor) (provider : Option String) (prefer : String)
    (call : LeaseCall) : AcquireSpec cfg s provider prefer (cfg.acquire s provider prefer call) := by
  unfold acquire
  dsimp only
  cases hchoose : choose (cfg.available s provider (cfg.clock s.reads)) prefer with
  | none =>
    refine ⟨rfl, rfl, fun _ _ _ h => (nomatch h), fun _ _ _ heq => ?_, fun _ _ heq => ?_,
      fun _ _ hthere => ?_⟩
    · cases heq
    · cases heq
    · exact absurd hthere (not_exists_of_choose hchoose)
  | some wanted =>
    have hprefer := id_of_choose hchoose
    dsimp only
    split
    · rename_i tun hrunning
      exact acquireSpec_serve (mem_of_choose hchoose) hprefer
        (serveSpec_reuse (s := s.tick) hrunning call) rfl rfl
    · exact acquireSpec_probeAndServe rfl prefer call rfl rfl

/-! ## What reporting does -/

/-- The seconds a report cools the server of a tunnel lease for, where it does: those of
the provider's own scale are decided by `cool`. -/
def reportSeconds (cfg : SupervisorConfig) : LeaseOutcome → Option (Option Rat)
  | .http429 => some none
  | .locationBlocked => some (some (cooldownFor cfg.lib (some "generic") cfg.cooldownSecs))
  | _ => none

def Switches (outcome : LeaseOutcome) (lease : Lease) : Prop :=
  outcome = .netErr ∨
    (outcome = .http429 ∨ outcome = .locationBlocked) ∧ ∃ server ≠ "", lease.server = some server

theorem switches_of_reportSeconds {outcome : LeaseOutcome} {seconds : Option Rat} {lease : Lease}
    {server : String} (h : reportSeconds cfg outcome = some seconds) (hne : server ≠ "")
    (hserver : lease.server = some server) : Switches outcome lease := by
  refine Or.inr ⟨?_, server, hne, hserver⟩
  cases outcome with
  | http429 => exact Or.inl rfl
  | locationBlocked => exact Or.inr rfl
  | netErr => cases h
  | authErr => cases h
  | other => cases h

/-- A report on a lease that is answered with a switch, up to the rotation. -/
inductive SwitchedTo (cfg : SupervisorConfig) (s : Supervisor) (outcome : LeaseOutcome)
    (provider : Option String) (lease : Lease) : Supervisor → List EgressEffect → Prop
  | netErr : outcome = .netErr → SwitchedTo cfg s outcome provider lease s []
  | cooled {server seconds} : reportSeconds cfg outcome = some seconds → server ≠ "" →
      lease.server = some server → SwitchedTo cfg s outcome provider lease
        (cfg.cool s server (cfg.effective provider lease) seconds).1
        (cfg.cool s server (cfg.effective provider lease) seconds).2

theorem SwitchedTo.switches {s s' : Supervisor} {outcome : LeaseOutcome} {provider : Option String}
    {lease : Lease} {effects : List EgressEffect}
    (h : SwitchedTo cfg s outcome provider lease s' effects) : Switches outcome lease := by
  cases h with
  | netErr h => exact Or.inl h
  | cooled h hne hserver => exact switches_of_reportSeconds h hne hserver

theorem SwitchedTo.recorded {s s' : Supervisor} {outcome : LeaseOutcome} {provider : Option String}
    {lease : Lease} {effects : List EgressEffect}
    (h : SwitchedTo cfg s outcome provider lease s' effects) :
    Recorded s.cooldownUntil effects s'.cooldownUntil ∧ s'.tunnel = s.tunnel ∧
      s'.leases = s.leases := by
  cases h with
  | netErr _ => exact ⟨rfl, rfl, rfl⟩
  | cooled _ _ _ => exact ⟨recorded_cool .., cool_tunnel .., cool_leases ..⟩

theorem poolReport_cases (cfg : SupervisorConfig) (s : Supervisor) (leaseId : String)
    (outcome : LeaseOutcome) (provider : Option String) :
    (∃ lease s' effects, s.leases leaseId = some lease ∧
      knownProvider cfg.lib provider cfg.tunneled = true ∧
      SwitchedTo cfg s outcome provider lease s' effects ∧
      cfg.poolReport s leaseId outcome provider = (s', effects, .switch)) ∨
    ((∀ lease, s.leases leaseId = some lease →
        knownProvider cfg.lib provider cfg.tunneled = true → ¬ Switches outcome lease) ∧
      ∃ s' action, cfg.poolReport s leaseId outcome provider = (s', [], action) ∧
        action ≠ .switch ∧ s'.cooldownUntil = s.cooldownUntil) := by
  unfold poolReport
  cases hlease : s.leases leaseId with
  | none =>
    refine Or.inr ⟨fun lease h => ?_, s, .unknownLease, rfl, by decide, rfl⟩
    cases h
  | some lease =>
    cases hknown : knownProvider cfg.lib provider cfg.tunneled with
    | false =>
      refine Or.inr ⟨fun lease' _ h => ?_, s, .keep, rfl, by decide, rfl⟩
      cases h
    | true =>
      have hserver : ∀ server, lease.server.filter (· ≠ "") = some server ↔
          lease.server = some server ∧ server ≠ "" := fun server => by
        rw [Option.filter_eq_some_iff, decide_eq_true_eq]
      have hnone : lease.server.filter (· ≠ "") = none →
          ¬ ∃ server ≠ "", lease.server = some server := by
        rintro hfilter ⟨server, hne, h⟩
        rw [(hserver server).mpr ⟨h, hne⟩] at hfilter
        cases hfilter
      dsimp only
      rw [if_pos rfl]
      cases outcome with
      | netErr => exact Or.inl ⟨lease, s, [], rfl, rfl, .netErr rfl, rfl⟩
      | authErr =>
        refine Or.inr ⟨fun lease' _ _ h => ?_, _, .reauth, rfl, by decide, rfl⟩
        rcases h with h | ⟨h | h, -⟩ <;> cases h
      | other =>
        refine Or.inr ⟨fun lease' _ _ h => ?_, s, .keep, rfl, by decide, rfl⟩
        rcases h with h | ⟨h | h, -⟩ <;> cases h
      | http429 | locationBlocked =>
        cases hfilter : lease.server.filter (· ≠ "") with
        | none =>
          refine Or.inr ⟨fun lease' heq _ h => ?_, s, .keep, rfl, by decide, rfl⟩
          obtain rfl := Option.some.inj heq
          rcases h with h | ⟨-, h⟩
          · cases h
          · exact hnone hfilter h
        | some server =>
          obtain ⟨hsome, hne⟩ := (hserver server).mp hfilter
          exact Or.inl ⟨lease, _, _, rfl, rfl, .cooled rfl hne hsome, rfl⟩

theorem recorded_rotate (s : Supervisor) (provider : Option String) :
    Recorded s.cooldownUntil (cfg.rotate s provider).2 (cfg.rotate s provider).1.cooldownUntil := by
  unfold rotate
  split
  · rfl
  · exact recorded_cool ..

theorem handleReport_cases (cfg : SupervisorConfig) (s : Supervisor) (leaseId : String)
    (outcome : LeaseOutcome) (provider : Option String) :
    (∃ lease s' effects, s.leases leaseId = some lease ∧
      knownProvider cfg.lib provider cfg.tunneled = true ∧
      SwitchedTo cfg s outcome provider lease s' effects ∧
      cfg.handleReport s leaseId outcome provider =
        ((cfg.rotate s' (provider.or lease.provider)).1,
          effects ++ (cfg.rotate s' (provider.or lease.provider)).2, some (.action .switch))) ∨
    ((∀ lease, s.leases leaseId = some lease →
        knownProvider cfg.lib provider cfg.tunneled = true → ¬ Switches outcome lease) ∧
      ∃ s' action, cfg.handleReport s leaseId outcome provider = (s', [], some (.action action)) ∧
        s'.cooldownUntil = s.cooldownUntil) := by
  unfold handleReport
  rcases poolReport_cases cfg s leaseId outcome provider with
    ⟨lease, s', effects, hlease, hknown, hswitched, heq⟩ | ⟨hno, s', action, heq, hne, hcool⟩
  · refine Or.inl ⟨lease, s', effects, hlease, hknown, hswitched, ?_⟩
    have hprovider : s'.providerOf leaseId = lease.provider := by
      rw [Supervisor.providerOf, hswitched.recorded.2.2, hlease, Option.bind_some]
    rw [heq]
    dsimp only
    rw [if_pos rfl, hprovider]
  · refine Or.inr ⟨hno, s', action, ?_, hcool⟩
    rw [heq]
    dsimp only
    rw [if_neg hne]

end SupervisorConfig

end HamZaboon
