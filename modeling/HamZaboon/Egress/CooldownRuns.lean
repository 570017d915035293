import HamZaboon.Egress.Carrier

/-! # Cooldowns of the supervisor

Five places write the slot of a (server, provider) pair, with waits of four to six
hundred seconds, and each overwrites what it finds.  A slot is shortened by a report
whose own wait is shorter than what is left, by the rotation after a report, on the
scale of the provider, and by a lease that finds its server dead and then fails for no
server of its own.  Where no request does so, cooldowns never shrink, and a pair that
was blocked by location rests for the generic cooldown (`cooldowns_kept_iff`).
-/

namespace HamZaboon
open Library

namespace SupervisorConfig

/-! ## Slots -/

/-- Whatever the slot has recorded is over by then. -/
def Outlasts (m : String × String → Option Rat) (pair : String × String) (expiry : Rat) : Prop :=
  ∀ recorded, m pair = some recorded → recorded ≤ expiry

/-- Whatever a slot has recorded, it records at least as late a time afterwards. -/
def Kept (m m' : String × String → Option Rat) : Prop :=
  ∀ pair recorded, m pair = some recorded → ∃ later, m' pair = some later ∧ recorded ≤ later

theorem Kept.refl (m : String × String → Option Rat) : Kept m m :=
  fun _ recorded h => ⟨recorded, h, le_rfl⟩

theorem Kept.trans {a b c : String × String → Option Rat} (hab : Kept a b) (hbc : Kept b c) :
    Kept a c := by
  intro pair recorded h
  obtain ⟨later, hlater, hle⟩ := hab pair recorded h
  obtain ⟨latest, hlatest, hle'⟩ := hbc pair later hlater
  exact ⟨latest, hlatest, hle.trans hle'⟩

/-- No cooling overwrites a later expiry. -/
def Lengthens (effects : List EgressEffect) : Prop :=
  ∀ pair before expiry, .cooled pair before expiry ∈ effects →
    ∀ recorded, before = some recorded → recorded ≤ expiry

theorem lengthens_append {a b : List EgressEffect} :
    Lengthens (a ++ b) ↔ Lengthens a ∧ Lengthens b := by
  constructor
  · exact fun h => ⟨fun pair before expiry hin => h pair before expiry (List.mem_append_left _ hin),
      fun pair before expiry hin => h pair before expiry (List.mem_append_right _ hin)⟩
  · intro h pair before expiry hin
    exact (List.mem_append.mp hin).elim (h.1 pair before expiry) (h.2 pair before expiry)

theorem Quiet.lengthens {effects : List EgressEffect} (h : Quiet effects) : Lengthens effects :=
  fun pair before expiry hin => absurd hin (h pair before expiry)

theorem Recorded.kept {m m' : String × String → Option Rat} {effects : List EgressEffect}
    (h : Recorded m effects m') (hlong : Lengthens effects) : Kept m m' := by
  induction effects generalizing m with
  | nil =>
    obtain rfl : m' = m := h
    exact .refl m'
  | cons e effects ih =>
    have hrest : Lengthens effects := fun pair before expiry hin =>
      hlong pair before expiry (List.mem_cons_of_mem _ hin)
    cases e with
    | cooled pair before expiry =>
      refine Kept.trans (fun pair' recorded hrec => ?_) (ih h.2 hrest)
      by_cases hpair : pair' = pair
      · subst hpair
        exact ⟨expiry, Function.update_self .., hlong pair' before expiry (List.mem_cons_self ..)
          recorded (h.1.trans hrec)⟩
      · exact ⟨recorded, (Function.update_of_ne hpair ..).trans hrec, le_rfl⟩
    | probed serverId alive => exact ih (m := m) h hrest
    | spawned serverId up => exact ih (m := m) h hrest
    | checked serverId passed => exact ih (m := m) h hrest

theorem Recorded.promised {m m' : String × String → Option Rat} {effects : List EgressEffect}
    (h : Recorded m effects m') (hlong : Lengthens effects) {pair : String × String}
    {before : Option Rat} {expiry : Rat} (hin : .cooled pair before expiry ∈ effects) :
    ∃ later, m' pair = some later ∧ expiry ≤ later := by
  induction effects generalizing m with
  | nil => cases hin
  | cons e effects ih =>
    have hrest : Lengthens effects := fun pair before expiry hin =>
      hlong pair before expiry (List.mem_cons_of_mem _ hin)
    cases e with
    | cooled pair' before' expiry' =>
      rcases List.mem_cons.mp hin with heq | hin
      · injection heq with hpair _ hexpiry
        subst hpair hexpiry
        exact Recorded.kept h.2 hrest pair expiry (Function.update_self ..)
      · exact ih h.2 hrest hin
    | probed serverId alive => exact ih (m := m) h hrest (List.mem_of_ne_of_mem (by simp) hin)
    | spawned serverId up => exact ih (m := m) h hrest (List.mem_of_ne_of_mem (by simp) hin)
    | checked serverId passed => exact ih (m := m) h hrest (List.mem_of_ne_of_mem (by simp) hin)

variable {cfg : SupervisorConfig}

theorem lengthens_cool_iff {s : Supervisor} {serverId : String} {provider : Option String}
    {seconds : Option Rat} (hne : serverId ≠ "") :
    Lengthens (cfg.cool s serverId provider seconds).2 ↔
      Outlasts s.cooldownUntil (cfg.pair serverId provider)
        (cfg.clock s.reads + cfg.wait provider seconds) := by
  rw [cool, if_neg hne]
  constructor
  · intro h recorded hrec
    exact h _ _ _ (List.mem_singleton.mpr rfl) recorded hrec
  · intro h pair before expiry hin recorded hrec
    injection List.mem_singleton.mp hin with hpair hbefore hexpiry
    subst hpair hbefore hexpiry
    exact h recorded hrec

theorem outlasts_of_not_cool {s : Supervisor} {serverId : String} {provider : Option String}
    {now : Rat} (hne : serverId ≠ "") (h : cfg.isCool s serverId provider now = false) :
    Outlasts s.cooldownUntil (cfg.pair serverId provider) now := by
  intro recorded hrec
  rw [isCool, if_neg hne, hrec] at h
  simpa using h

theorem Outlasts.mono {m : String × String → Option Rat} {pair : String × String} {a b : Rat}
    (h : Outlasts m pair a) (hle : a ≤ b) : Outlasts m pair b :=
  fun recorded hrec => (h recorded hrec).trans hle

theorem cooldownFor_pos (lib : StrLib) (provider : Option String) (override : Option Override) :
    0 < cooldownFor lib provider override := by
  have htable : 0 < (providerCooldownS.lookup (lib.normProvider provider)).getD 300 := by
    cases hlookup : providerCooldownS.lookup (lib.normProvider provider) with
    | none => decide
    | some seconds =>
      obtain ⟨above, below, hrows, -⟩ := List.lookup_eq_some_iff.mp hlookup
      have hall : ∀ row ∈ providerCooldownS, 0 < row.2 := by decide
      have hmem : (lib.normProvider provider, seconds) ∈ providerCooldownS := by
        rw [hrows]
        exact List.mem_append_right _ (List.mem_cons_self ..)
      exact hall _ hmem
  unfold cooldownFor
  dsimp only
  split
  · split
    · assumption
    · exact htable
  · exact htable

/-! ## The claim's terms -/

/-- Past a dead preferred server, acquiring a tunnel fails for no server of its own:
nothing else is alive, or what is runs the tunnel and fails the egress check. -/
def ProbedInVain (s : Supervisor) (avail : List PoolServer) (prefer : String) (call : LeaseCall) :
    Prop :=
  (∀ tun, s.tunnel = some tun → tun.serverId = prefer → call.alive = false) ∧
    ∀ first, (live avail call).head? = some first → ∃ tun message, s.tunnel = some tun ∧
      tun.serverId = first.id ∧ call.stillAlive = true ∧ call.check = .error message

/-- No request puts a shorter cooldown on a pair: not a report by its own wait or by that
of the rotation, and not a lease that finds its server dead, by the wait after a fetch
that failed. -/
def Lasting (cfg : SupervisorConfig) (s : Supervisor) : SupervisorRequest → Prop
  | .lease call => ∀ spec id, targets.lookup (cfg.lib.normProvider (some call.target)) = some spec →
      spec.tunnel = true →
      cfg.picked s spec.provider call.hint (cfg.clock (s.reads + 1)) = some id →
      let avail := cfg.available s spec.provider (cfg.clock (s.reads + 2))
      ProbedInVain s avail id call → ∀ i, ((dead avail call).map PoolServer.id)[i]? = some id →
        cfg.clock (s.reads + 3 + i) + 600 ≤ cfg.clock (s.reads + 3 + (dead avail call).length) +
          cooldownFor cfg.lib (some "tunnel_fetch") cfg.cooldownSecs
  | .report leaseId outcome provider => ∀ lease, s.leases leaseId = some lease →
      knownProvider cfg.lib provider cfg.tunneled = true →
      let rotation := fun (m : String × String → Option Rat) now =>
        ∀ tun, s.tunnel = some tun → tun.serverId ≠ "" →
          Outlasts m (cfg.pair tun.serverId (provider.or lease.provider))
            (now + cfg.wait (provider.or lease.provider) none)
      (outcome = .netErr → rotation s.cooldownUntil (cfg.clock s.reads)) ∧
      ∀ server seconds, lease.server = some server → server ≠ "" →
        reportSeconds cfg outcome = some seconds →
          let slot := cfg.pair server (cfg.effective provider lease)
          let expiry := cfg.clock s.reads + cfg.wait (cfg.effective provider lease) seconds
          Outlasts s.cooldownUntil slot expiry ∧
            rotation (Function.update s.cooldownUntil slot (some expiry)) (cfg.clock (s.reads + 1))

/-- A location-blocked report on a tunnel lease, with its pair and the end of the generic
cooldown. -/
def Blocks (cfg : SupervisorConfig) (s : Supervisor) (r : SupervisorRequest)
    (pair : String × String) (expiry : Rat) : Prop :=
  ∃ leaseId provider lease server, r = .report leaseId .locationBlocked provider ∧
    s.leases leaseId = some lease ∧ knownProvider cfg.lib provider cfg.tunneled = true ∧
    lease.server = some server ∧ server ≠ "" ∧
    pair = cfg.pair server (cfg.effective provider lease) ∧
    expiry = cfg.clock s.reads + cooldownFor cfg.lib (some "generic") cfg.cooldownSecs

/-- A lease request that picks the pair, or acquires it, at a time. -/
def Takes (cfg : SupervisorConfig) (s : Supervisor) (r : SupervisorRequest)
    (pair : String × String) (now : Rat) : Prop :=
  ∃ call id provider, r = .lease call ∧ pair = cfg.pair id provider ∧
    ((∃ target, (cfg.poolLease s call).2 = .tunnel id provider target) ∧
        now = cfg.clock (s.reads + 1) ∨
      (∃ leaseId target proxyUrl ip,
        cfg.response s r = some (.tunnel leaseId id provider target proxyUrl ip)) ∧
        now = cfg.clock (s.reads + 2))

/-- No slot is ever shortened, and no pair that was blocked is taken before the generic
cooldown is over. -/
structure CooldownsKept (cfg : SupervisorConfig) (s : Supervisor)
    (requests : List SupervisorRequest) : Prop where
  lengthens : Meets cfg.after (fun s r => Lengthens (cfg.effects s r)) s requests
  kept : ∀ a b c, requests = a ++ b ++ c →
    Kept (run cfg.after s a).cooldownUntil (run cfg.after s (a ++ b)).cooldownUntil
  rests : ∀ a r b r' c, requests = a ++ r :: b ++ r' :: c → ∀ pair expiry now,
    cfg.Blocks (run cfg.after s a) r pair expiry →
      cfg.Takes (run cfg.after s (a ++ r :: b)) r' pair now → expiry ≤ now

/-! ## Reports -/

theorem lengthens_rotate_iff {s : Supervisor} {provider : Option String} :
    Lengthens (cfg.rotate s provider).2 ↔ ∀ tun, s.tunnel = some tun → tun.serverId ≠ "" →
      Outlasts s.cooldownUntil (cfg.pair tun.serverId provider)
        (cfg.clock s.reads + cfg.wait provider none) := by
  unfold rotate
  cases htun : s.tunnel with
  | none => exact iff_of_true (fun _ _ _ h => nomatch h) fun _ h => nomatch h
  | some tun =>
    dsimp only
    by_cases hne : tun.serverId = ""
    · refine iff_of_true (fun pair before expiry hin => ?_) fun tun' heq hne' => ?_
      · rw [cool, if_pos hne] at hin
        cases hin
      · obtain rfl := Option.some.inj heq
        exact absurd hne hne'
    · rw [lengthens_cool_iff hne]
      exact ⟨fun h tun' heq _ => Option.some.inj heq ▸ h, fun h => h tun rfl hne⟩

theorem lengthens_report_iff (s : Supervisor) (leaseId : String) (outcome : LeaseOutcome)
    (provider : Option String) :
    Lengthens (cfg.effects s (.report leaseId outcome provider)) ↔
      Lasting cfg s (.report leaseId outcome provider) := by
  rcases handleReport_cases cfg s leaseId outcome provider with
    ⟨lease, s', effects, hlease, hknown, hswitched, heq⟩ | ⟨hno, s', action, heq, -⟩
  · have heffects : cfg.effects s (.report leaseId outcome provider) =
        effects ++ (cfg.rotate s' (provider.or lease.provider)).2 := congrArg (·.2.1) heq
    rw [heffects, lengthens_append, lengthens_rotate_iff]
    cases hswitched with
    | netErr hout =>
      subst hout
      constructor
      · rintro ⟨-, h⟩ lease' hlease' -
        obtain rfl := Option.some.inj (hlease.symm.trans hlease')
        exact ⟨fun _ => h, fun _ _ _ _ hseconds => nomatch hseconds⟩
      · intro h
        exact ⟨fun _ _ _ hin => (nomatch hin), (h lease hlease hknown).1 rfl⟩
    | @cooled server seconds hseconds hne hserver =>
      rw [lengthens_cool_iff hne, cool_tunnel, cool_cooldownUntil hne, cool_reads hne]
      constructor
      · rintro ⟨hfirst, hsecond⟩ lease' hlease' -
        obtain rfl := Option.some.inj (hlease.symm.trans hlease')
        refine ⟨fun hout => ?_, fun server' seconds' hserver' _ hseconds' => ?_⟩
        · rw [hout] at hseconds
          cases hseconds
        · obtain rfl := Option.some.inj (hserver.symm.trans hserver')
          obtain rfl := Option.some.inj (hseconds.symm.trans hseconds')
          exact ⟨hfirst, hsecond⟩
      · intro h
        exact (h lease hlease hknown).2 server seconds hserver hne hseconds
  · have heffects : cfg.effects s (.report leaseId outcome provider) = [] := congrArg (·.2.1) heq
    rw [heffects]
    refine iff_of_true (fun _ _ _ hin => nomatch hin) fun lease hlease hknown => ?_
    have hnot := hno lease hlease hknown
    refine ⟨fun hout => absurd (Or.inl hout) hnot, fun server seconds hserver hne hseconds => ?_⟩
    exact absurd (switches_of_reportSeconds hseconds hne hserver) hnot

/-! ## Leases -/

theorem coolDead_lasting (hclock : Monotone cfg.clock) (provider : Option String)
    (servers : List PoolServer) (s : Supervisor) (hnodup : (servers.map PoolServer.id).Nodup)
    (hrested : ∀ server ∈ servers, server.id ≠ "" ∧
      Outlasts s.cooldownUntil (cfg.pair server.id provider) (cfg.clock s.reads)) :
    Lengthens (cfg.coolDead provider servers s).2 ∧
      (cfg.coolDead provider servers s).1.reads = s.reads + servers.length ∧
      ∀ i id, (servers.map PoolServer.id)[i]? = some id →
        (cfg.coolDead provider servers s).1.cooldownUntil (cfg.pair id provider) =
          some (cfg.clock (s.reads + i) + 600) := by
  induction servers generalizing s with
  | nil => exact ⟨fun _ _ _ hin => (nomatch hin), rfl, fun i id h => by simp at h⟩
  | cons server rest ih =>
    obtain ⟨hne, hslot⟩ := hrested server (List.mem_cons_self ..)
    obtain ⟨hnew, hnodup'⟩ := List.nodup_cons.mp hnodup
    have hreads₁ : (cfg.cool s _ provider (some 600)).1.reads = s.reads + 1 :=
      cool_reads hne provider (some 600)
    have hrested' : ∀ other ∈ rest, other.id ≠ "" ∧
        Outlasts (cfg.cool s server.id provider (some 600)).1.cooldownUntil
          (cfg.pair other.id provider)
          (cfg.clock (cfg.cool s server.id provider (some 600)).1.reads) := by
      intro other hother
      obtain ⟨hne', hslot'⟩ := hrested other (List.mem_cons_of_mem _ hother)
      have hpair : cfg.pair other.id provider ≠ cfg.pair server.id provider := by
        intro heq
        exact hnew ((Prod.mk.inj heq).1 ▸ List.mem_map_of_mem hother)
      refine ⟨hne', fun recorded hrec => ?_⟩
      rw [cool_cooldownUntil hne, Function.update_of_ne hpair] at hrec
      rw [hreads₁]
      exact (hslot' recorded hrec).trans (hclock (Nat.le_succ _))
    obtain ⟨hlong, hreads, hslots⟩ := ih _ hnodup' hrested'
    refine ⟨lengthens_append.mpr ⟨(lengthens_cool_iff hne).mpr (hslot.mono ?_), hlong⟩, ?_, ?_⟩
    · exact le_add_of_nonneg_right (by decide : (0 : Rat) ≤ 600)
    · rw [coolDead, hreads, hreads₁, List.length_cons]
      omega
    · rintro (_ | i) id hi
      · obtain rfl := Option.some.inj hi
        have hrest := coolDead_spec cfg provider rest
          (cfg.cool s server.id provider (some 600)).1
        rw [coolDead, hrest.1.unchanged, cool_cooldownUntil hne, Function.update_self, Nat.add_zero]
        · rfl
        intro before expiry hin
        obtain ⟨other, hother, hpair⟩ := hrest.2.2.2 _ before expiry hin
        exact hnew ((Prod.mk.inj hpair).1 ▸ List.mem_map_of_mem hother)
      · rw [coolDead, hslots i id hi, hreads₁, Nat.add_right_comm, Nat.add_assoc]

theorem probing_lasting (hclock : Monotone cfg.clock) (s : Supervisor) (provider : Option String)
    (call : LeaseCall) {avail : List PoolServer}
    (havail : cfg.available s provider (cfg.clock s.reads) = avail) :
    Lengthens (probes avail call ++ (cfg.coolDead provider (dead avail call) s.tick).2) ∧
      (cfg.coolDead provider (dead avail call) s.tick).1.reads =
        s.reads + 1 + (dead avail call).length ∧
      (∀ i id, ((dead avail call).map PoolServer.id)[i]? = some id →
        (cfg.coolDead provider (dead avail call) s.tick).1.cooldownUntil (cfg.pair id provider) =
          some (cfg.clock (s.reads + 1 + i) + 600)) ∧
      ∀ server ∈ live avail call, Outlasts
        (cfg.coolDead provider (dead avail call) s.tick).1.cooldownUntil
        (cfg.pair server.id provider) (cfg.clock s.reads) := by
  have hnodup : (avail.map PoolServer.id).Nodup := havail ▸ nodup_available cfg s provider _
  have hdead : dead avail call ⊆ avail := fun server hserver =>
    List.mem_of_mem_take (List.mem_filter.mp hserver).1
  have hrested : ∀ server ∈ avail, server.id ≠ "" ∧
      Outlasts s.cooldownUntil (cfg.pair server.id provider) (cfg.clock s.reads) := by
    intro server hserver
    obtain ⟨-, hne, -, hcool⟩ := mem_available.mp (havail ▸ hserver)
    exact ⟨hne, outlasts_of_not_cool hne hcool⟩
  obtain ⟨hlong, hreads, hslots⟩ := coolDead_lasting hclock provider (dead avail call) s.tick
    (hnodup.sublist ((List.filter_sublist.trans (List.take_sublist 8 avail)).map _))
    (fun server hserver => ⟨(hrested server (hdead hserver)).1,
      (hrested server (hdead hserver)).2.mono (hclock (Nat.le_succ _))⟩)
  refine ⟨lengthens_append.mpr ⟨(quiet_probes avail call).lengthens, hlong⟩, hreads, hslots, ?_⟩
  intro server hserver recorded hrec
  have hspec := coolDead_spec cfg provider (dead avail call) s.tick
  rw [hspec.1.unchanged] at hrec
  · exact (hrested server (live_subset hserver)).2 recorded hrec
  · intro before expiry hin
    obtain ⟨other, hother, hpair⟩ := hspec.2.2.2 _ before expiry hin
    exact id_ne_of_dead hnodup hother hserver (Prod.mk.inj hpair).1.symm

theorem serve_reads (s : Supervisor) (server : PoolServer) (call : LeaseCall) :
    (serve s server call).1.reads = s.reads := by
  unfold serve start
  split
  · rfl
  · split
    · rfl
    · rfl
    · split <;> rfl

structure AcquireLasting (cfg : SupervisorConfig) (s : Supervisor) (provider : Option String)
    (prefer : String) (call : LeaseCall) (r : Supervisor × List EgressEffect × Acquired) : Prop where
  lengthens : Lengthens r.2.1
  named : ∀ reason id, r.2.2 = .failed reason (some id) →
    Outlasts r.1.cooldownUntil (cfg.pair id provider) (cfg.clock r.1.reads)
  unnamed : ∀ reason, r.2.2 = .failed reason none →
    (∃ server ∈ cfg.available s provider (cfg.clock s.reads), server.id = prefer) →
      Outlasts r.1.cooldownUntil (cfg.pair prefer provider) (cfg.clock r.1.reads) ∨
      ProbedInVain s (cfg.available s provider (cfg.clock s.reads)) prefer call ∧
        ∃ i : Nat, ((dead (cfg.available s provider (cfg.clock s.reads)) call).map
            PoolServer.id)[i]? = some prefer ∧
          r.1.cooldownUntil (cfg.pair prefer provider) = some (cfg.clock (s.reads + 1 + i) + 600) ∧
          r.1.reads =
            s.reads + 1 + (dead (cfg.available s provider (cfg.clock s.reads)) call).length

theorem index_of_dead {avail : List PoolServer} {call : LeaseCall} {server : PoolServer}
    (h : server ∈ dead avail call) :
    ∃ i : Nat, ((dead avail call).map PoolServer.id)[i]? = some server.id :=
  List.mem_iff_getElem?.mp (List.mem_map_of_mem h)

theorem eq_of_serve_unnamed {s : Supervisor} {server : PoolServer} {call : LeaseCall}
    {reason : ParkReason} (h : (serve s server call).2.2 = .failed reason none) :
    ∃ tun message, s.tunnel = some tun ∧ tun.serverId = server.id ∧ call.stillAlive = true ∧
      call.check = .error message := by
  unfold serve at h
  split at h
  · rename_i tun hrunning
    obtain ⟨htun, hcond⟩ := Option.filter_eq_some_iff.mp hrunning
    obtain ⟨hid, halive⟩ := of_decide_eq_true hcond
    unfold reuse at h
    split at h
    · cases h
    · rename_i message hcheck
      exact ⟨tun, message, htun, hid, halive, hcheck⟩
    · cases h
  · unfold start at h
    split at h
    · cases h
    · cases h
    · split at h <;> cases h

theorem acquireLasting_probeAndServe (hclock : Monotone cfg.clock) (s : Supervisor)
    (provider : Option String) (prefer : String) (call : LeaseCall)
    (hrunning : (∃ server ∈ cfg.available s provider (cfg.clock s.reads), server.id = prefer) →
      ∀ tun, s.tunnel = some tun → tun.serverId = prefer → call.alive = false) :
    AcquireLasting cfg s provider prefer call (cfg.probeAndServe s.tick provider prefer
      (cfg.available s provider (cfg.clock s.reads)) call) := by
  generalize havail : cfg.available s provider (cfg.clock s.reads) = avail
  obtain ⟨hlong, hreads, hslots, hlive⟩ := probing_lasting hclock s provider call havail
  have hle : cfg.clock s.reads ≤
      cfg.clock (cfg.coolDead provider (dead avail call) s.tick).1.reads := by
    rw [hreads]
    exact hclock (by omega)
  have hnot : ∀ server ∈ avail, (∀ other ∈ live avail call, other.id ≠ server.id) →
      ∃ i : Nat, ((dead avail call).map PoolServer.id)[i]? = some server.id := fun server hserver hother =>
    index_of_dead (dead_of_not_live hserver fun hin => hother server hin rfl)
  unfold probeAndServe
  cases hchoose : choose (live avail call) prefer with
  | none =>
    refine ⟨hlong, fun _ _ heq => (nomatch heq), fun reason _ hthere => Or.inr ?_⟩
    have hstopped := hrunning hthere
    rw [havail] at hthere ⊢
    obtain ⟨server, hserver, rfl⟩ := hthere
    have hnil : live avail call = [] := by
      have hhead := (Option.or_eq_none_iff.mp hchoose).2
      exact List.head?_eq_none_iff.mp hhead
    obtain ⟨i, hi⟩ := hnot server hserver (by simp [hnil])
    refine ⟨⟨hstopped, fun first hfirst => ?_⟩, i, hi, hslots i server.id hi, hreads⟩
    rw [hnil] at hfirst
    cases hfirst
  | some wanted =>
    have hwanted := mem_of_choose hchoose
    have hserve := serveSpec_serve (cfg.coolDead provider (dead avail call) s.tick).1 wanted call
    have hreads' := serve_reads (cfg.coolDead provider (dead avail call) s.tick).1 wanted call
    dsimp only
    refine ⟨lengthens_append.mpr ⟨hlong, hserve.quiet.lengthens⟩, fun reason id heq => ?_,
      fun reason heq hthere => ?_⟩
    · obtain ⟨rfl, -⟩ := hserve.named reason id heq
      rw [hserve.cooldownUntil, hreads']
      exact (hlive wanted hwanted).mono hle
    · rw [hserve.cooldownUntil, hreads']
      by_cases hsame : wanted.id = prefer
      · subst hsame
        exact Or.inl ((hlive wanted hwanted).mono hle)
      · have hstopped := hrunning hthere
        rw [havail] at hthere ⊢
        obtain ⟨server, hserver, rfl⟩ := hthere
        have hfind : ∀ other ∈ live avail call, other.id ≠ server.id := fun other hother hid =>
          hsame (id_of_choose hchoose ⟨other, hother, hid⟩)
        obtain ⟨i, hi⟩ := hnot server hserver hfind
        refine Or.inr ⟨⟨hstopped, fun first hfirst => ?_⟩, i, hi, hslots i server.id hi, hreads⟩
        have hnone : (live avail call).find? (fun other => other.id = server.id) = none :=
          List.find?_eq_none.mpr fun other hother => by simpa using hfind other hother
        have hhead : (live avail call).head? = some wanted := by
          rw [choose, hnone, Option.none_or] at hchoose
          exact hchoose
        obtain rfl := Option.some.inj (hhead.symm.trans hfirst)
        obtain ⟨tun, message, htun, hrest⟩ := eq_of_serve_unnamed heq
        exact ⟨tun, message, (coolDead_spec cfg provider _ s.tick).2.2.1 ▸ htun, hrest⟩

theorem acquireLasting_acquire (hclock : Monotone cfg.clock) (s : Supervisor)
    (provider : Option String) (prefer : String) (call : LeaseCall) :
    AcquireLasting cfg s provider prefer call (cfg.acquire s provider prefer call) := by
  unfold acquire
  dsimp only
  cases hchoose : choose (cfg.available s provider (cfg.clock s.reads)) prefer with
  | none =>
    refine ⟨fun _ _ _ hin => (nomatch hin), fun _ _ heq => (nomatch heq), fun _ _ hthere => ?_⟩
    exact absurd hthere (not_exists_of_choose hchoose)
  | some wanted =>
    have hprefer := id_of_choose hchoose
    obtain ⟨-, hne, -, hcool⟩ := mem_available.mp (mem_of_choose hchoose)
    dsimp only
    split
    · rename_i tun hrunning
      have hspec := serveSpec_reuse (s := s.tick) hrunning call
      refine ⟨hspec.quiet.lengthens, fun reason id heq => ?_, fun reason heq hthere => Or.inl ?_⟩
      · obtain ⟨rfl, -⟩ := hspec.named reason id heq
        exact (outlasts_of_not_cool hne hcool).mono (hclock (Nat.le_succ _))
      · rw [← hprefer hthere]
        exact (outlasts_of_not_cool hne hcool).mono (hclock (Nat.le_succ _))
    · rename_i hrunning
      refine acquireLasting_probeAndServe hclock s provider prefer call fun hthere tun htun hid => ?_
      by_contra halive
      have hsome : s.running wanted call.alive = some tun :=
        Option.filter_eq_some_iff.mpr ⟨htun, decide_eq_true
          ⟨hid.trans (hprefer hthere).symm, eq_true_of_ne_false halive⟩⟩
      rw [hsome] at hrunning
      cases hrunning

theorem acquire_vain (hclock : Monotone cfg.clock) {s : Supervisor} {provider : Option String}
    {prefer : String} {call : LeaseCall} {i : Nat}
    (hi : ((dead (cfg.available s provider (cfg.clock s.reads)) call).map PoolServer.id)[i]? =
      some prefer)
    (hvain : ProbedInVain s (cfg.available s provider (cfg.clock s.reads)) prefer call) :
    (∃ reason, (cfg.acquire s provider prefer call).2.2 = .failed reason none) ∧
      (cfg.acquire s provider prefer call).1.cooldownUntil (cfg.pair prefer provider) =
        some (cfg.clock (s.reads + 1 + i) + 600) ∧
      (cfg.acquire s provider prefer call).1.reads =
        s.reads + 1 + (dead (cfg.available s provider (cfg.clock s.reads)) call).length := by
  have hnodup := nodup_available cfg s provider (cfg.clock s.reads)
  unfold acquire
  dsimp only
  generalize havail : cfg.available s provider (cfg.clock s.reads) = avail at hi hvain hnodup ⊢
  obtain ⟨-, hreads, hslots, -⟩ := probing_lasting hclock s provider call havail
  obtain ⟨server, hserver, hid⟩ := List.mem_map.mp (List.mem_of_getElem? hi)
  obtain ⟨wanted, hwanted, hprefer⟩ := choose_prefer
    ⟨server, List.mem_of_mem_take (List.mem_filter.mp hserver).1, hid⟩
  have hrunning : s.running wanted call.alive = none := by
    refine Option.filter_eq_none_iff.mpr fun tun htun hcond => ?_
    obtain ⟨hsame, halive⟩ := of_decide_eq_true hcond
    rw [hvain.1 tun htun (hsame.trans hprefer)] at halive
    cases halive
  have hfind : (live avail call).find? (fun other => other.id = prefer) = none :=
    List.find?_eq_none.mpr fun other hother => by
      simpa using hid ▸ (id_ne_of_dead hnodup hserver hother).symm
  rw [hwanted]
  dsimp only
  rw [hrunning]
  dsimp only
  unfold probeAndServe choose
  rw [hfind, Option.none_or]
  cases hfirst : (live avail call).head? with
  | none => exact ⟨⟨_, rfl⟩, hslots i prefer hi, hreads⟩
  | some first =>
    obtain ⟨tun, message, htun, hsame, halive, hcheck⟩ := hvain.2 first hfirst
    have hagain : (cfg.coolDead provider (dead avail call) s.tick).1.running first call.stillAlive =
        some tun :=
      Option.filter_eq_some_iff.mpr
        ⟨(coolDead_spec cfg provider _ s.tick).2.2.1.trans htun, decide_eq_true ⟨hsame, halive⟩⟩
    dsimp only
    rw [serve, hagain]
    dsimp only
    rw [reuse, hcheck]
    exact ⟨⟨_, rfl⟩, hslots i prefer hi, hreads⟩

/-- A tunnel lease lengthens exactly when it was not probed in vain, or the wait after a
failed fetch covers that of the probe. -/
theorem lengthens_finishLease_iff (hclock : Monotone cfg.clock) {s : Supervisor} {call : LeaseCall}
    {id : String} {provider : Option String} {name : String} {lease : Lease}
    (hpicked : cfg.picked s provider call.hint (cfg.clock (s.reads + 1)) = some id) :
    Lengthens (cfg.finishLease (s.tick.tick.mint call.leaseId lease) call id provider name).2.1 ↔
      (ProbedInVain s (cfg.available s provider (cfg.clock (s.reads + 2))) id call → ∀ i : Nat,
        ((dead (cfg.available s provider (cfg.clock (s.reads + 2))) call).map
            PoolServer.id)[i]? = some id →
          cfg.clock (s.reads + 3 + i) + 600 ≤
            cfg.clock (s.reads + 3 +
              (dead (cfg.available s provider (cfg.clock (s.reads + 2))) call).length) +
            cooldownFor cfg.lib (some "tunnel_fetch") cfg.cooldownSecs) := by
  have hthere := available_of_minted call.leaseId lease
    (hclock (Nat.le_succ _)) hpicked
  have hne : id ≠ "" := by
    obtain ⟨server, hserver, rfl⟩ := hthere
    exact (mem_available.mp hserver).2.1
  have hlasting := acquireLasting_acquire hclock (s.tick.tick.mint call.leaseId lease) provider id call
  have hspec := acquireSpec_acquire cfg (s.tick.tick.mint call.leaseId lease) provider id call
  generalize havail : cfg.available s provider (cfg.clock (s.reads + 2)) = avail
  have hvain : ∀ i : Nat, ((dead avail call).map PoolServer.id)[i]? = some id →
      ProbedInVain s avail id call →
      (∃ reason, (cfg.acquire (s.tick.tick.mint call.leaseId lease) provider id call).2.2 =
        .failed reason none) ∧
      (cfg.acquire (s.tick.tick.mint call.leaseId lease) provider id call).1.cooldownUntil
        (cfg.pair id provider) = some (cfg.clock (s.reads + 3 + i) + 600) ∧
      (cfg.acquire (s.tick.tick.mint call.leaseId lease) provider id call).1.reads =
        s.reads + 3 + (dead avail call).length := by
    subst havail
    exact fun i hi h => acquire_vain hclock (s := s.tick.tick.mint call.leaseId lease) hi h
  have hunnamed := hlasting.unnamed
  rw [show cfg.available (s.tick.tick.mint call.leaseId lease) provider
    (cfg.clock (s.tick.tick.mint call.leaseId lease).reads) = avail from havail] at hunnamed hthere
  have hwait := cooldownFor_pos cfg.lib (some "tunnel_fetch") cfg.cooldownSecs
  unfold finishLease
  dsimp only
  generalize cfg.acquire (s.tick.tick.mint call.leaseId lease) provider id call = got
    at hvain hlasting hspec hunnamed
  have hnever : ∀ result, got.2.2 = result → (∀ reason, result ≠ .failed reason none) →
      ProbedInVain s avail id call → ∀ i : Nat,
        ((dead avail call).map PoolServer.id)[i]? ≠ some id := by
    intro result hresult hno h i hi
    obtain ⟨⟨reason, hreason⟩, -⟩ := hvain i hi h
    exact hno reason (hresult.symm.trans hreason)
  cases hgot : got.2.2 with
  | up proxyUrl ip sid =>
    exact iff_of_true hlasting.lengthens fun h i hi =>
      absurd hi (hnever _ hgot (fun _ heq => nomatch heq) h i)
  | raised =>
    exact iff_of_true hlasting.lengthens fun h i hi =>
      absurd hi (hnever _ hgot (fun _ heq => nomatch heq) h i)
  | failed reason failed =>
    dsimp only
    rw [lengthens_append, and_iff_right hlasting.lengthens]
    cases failed with
    | some sid =>
      obtain ⟨hsid, -⟩ := hspec.named reason sid hgot
      have hcooled : (Option.filter (· ≠ "") (some sid)).getD id = sid := by
        simp [Option.filter_some, hsid]
      rw [hcooled, lengthens_cool_iff hsid]
      refine iff_of_true ((hlasting.named reason sid hgot).mono ?_) fun h i hi =>
        absurd hi (hnever _ hgot (fun _ heq => nomatch heq) h i)
      exact le_add_of_nonneg_right hwait.le
    | none =>
      rw [show (Option.filter (· ≠ "") none).getD id = id from rfl, lengthens_cool_iff hne]
      constructor
      · intro h hprobed i hi
        obtain ⟨-, hslot, hreads⟩ := hvain i hi hprobed
        rw [← hreads]
        exact h _ hslot
      · intro h
        rcases hunnamed reason hgot hthere with hover | ⟨hprobed, i, hi, hslot, hreads⟩
        · exact hover.mono (le_add_of_nonneg_right hwait.le)
        · intro recorded hrec
          rw [hslot] at hrec
          obtain rfl := Option.some.inj hrec
          rw [hreads]
          exact h hprobed i hi

theorem lengthens_lease_iff (hclock : Monotone cfg.clock) (s : Supervisor) (call : LeaseCall) :
    Lengthens (cfg.effects s (.lease call)) ↔ Lasting cfg s (.lease call) := by
  have hquiet : Lengthens [] := fun _ _ _ hin => nomatch hin
  cases hspec : targets.lookup (cfg.lib.normProvider (some call.target)) with
  | none =>
    have heffects : cfg.effects s (.lease call) = [] := by
      simp only [effects, request, handleLease, poolLease, hspec]
    rw [heffects]
    refine iff_of_true hquiet fun spec id hlookup => ?_
    rw [hspec] at hlookup
    cases hlookup
  | some spec =>
    cases htunnel : spec.tunnel with
    | false =>
      have heffects : cfg.effects s (.lease call) = [] := by
        simp only [effects, request, handleLease, poolLease, hspec, htunnel, Bool.false_eq_true,
          if_false]
      rw [heffects]
      refine iff_of_true hquiet fun spec' id hlookup htunnel' => ?_
      obtain rfl := Option.some.inj (hspec.symm.trans hlookup)
      rw [htunnel] at htunnel'
      cases htunnel'
    | true =>
      cases hpicked : cfg.picked s spec.provider call.hint (cfg.clock (s.reads + 1)) with
      | none =>
        have heffects : cfg.effects s (.lease call) = [] := by
          simp only [effects, request, handleLease, poolLease, hspec, htunnel, if_true, hpicked]
        rw [heffects]
        refine iff_of_true hquiet fun spec' id hlookup _ hpicked' => ?_
        obtain rfl := Option.some.inj (hspec.symm.trans hlookup)
        rw [hpicked] at hpicked'
        cases hpicked'
      | some id =>
        have heffects : cfg.effects s (.lease call) = (cfg.finishLease (s.tick.tick.mint call.leaseId
            ⟨some id, cfg.clock (s.reads + 1), spec.provider,
              cfg.lib.normProvider (some call.target)⟩) call id spec.provider
            (cfg.lib.normProvider (some call.target))).2.1 := by
          simp only [effects, request, handleLease, poolLease, hspec, htunnel, if_true, hpicked]
        rw [heffects, lengthens_finishLease_iff hclock hpicked]
        constructor
        · intro h spec' id' hlookup _ hpicked'
          obtain rfl := Option.some.inj (hspec.symm.trans hlookup)
          obtain rfl := Option.some.inj (hpicked.symm.trans hpicked')
          exact h
        · intro h
          exact h spec id hspec htunnel hpicked

theorem lengthens_iff (hclock : Monotone cfg.clock) (s : Supervisor) (r : SupervisorRequest) :
    Lengthens (cfg.effects s r) ↔ Lasting cfg s r := by
  cases r with
  | lease call => exact lengthens_lease_iff hclock s call
  | report leaseId outcome provider => exact lengthens_report_iff s leaseId outcome provider

/-! ## Runs -/

theorem recorded_request (hclock : Monotone cfg.clock) (s : Supervisor) (r : SupervisorRequest) :
    Recorded s.cooldownUntil (cfg.effects s r) (cfg.after s r).cooldownUntil := by
  cases r with
  | lease call => exact (coolsCarrier_lease (hclock (Nat.le_succ _))).recorded
  | report leaseId outcome provider =>
    rcases handleReport_cases cfg s leaseId outcome provider with
      ⟨lease, s', effects, -, -, hswitched, heq⟩ | ⟨-, s', action, heq, hcool⟩
    · rw [SupervisorConfig.effects, after, request, heq]
      exact hswitched.recorded.1.append (recorded_rotate ..)
    · rw [SupervisorConfig.effects, after, request, heq]
      exact hcool

theorem Blocks.cooled {s : Supervisor} {r : SupervisorRequest} {pair : String × String}
    {expiry : Rat} (h : Blocks cfg s r pair expiry) :
    ∃ before, .cooled pair before expiry ∈ cfg.effects s r := by
  obtain ⟨leaseId, provider, lease, server, rfl, hlease, hknown, hserver, hne, rfl, rfl⟩ := h
  rcases handleReport_cases cfg s leaseId .locationBlocked provider with
    ⟨lease', s', effects, hlease', -, hswitched, heq⟩ | ⟨hno, -⟩
  · obtain rfl := Option.some.inj (hlease.symm.trans hlease')
    rw [SupervisorConfig.effects, request, heq]
    cases hswitched with
    | netErr hout => cases hout
    | cooled hseconds hne' hserver' =>
      obtain rfl := Option.some.inj (hserver.symm.trans hserver')
      obtain rfl := Option.some.inj hseconds
      refine ⟨s.cooldownUntil (cfg.pair server (cfg.effective provider lease)),
        List.mem_append_left _ ?_⟩
      rw [cool, if_neg hne]
      exact List.mem_singleton.mpr rfl
  · exact absurd (Or.inr ⟨Or.inr rfl, server, hne, hserver⟩) (hno lease hlease hknown)

theorem Takes.outlasts (hclock : Monotone cfg.clock) {s : Supervisor} {r : SupervisorRequest}
    {pair : String × String} {now : Rat} (h : Takes cfg s r pair now)
    (hlong : Lengthens (cfg.effects s r)) : Outlasts s.cooldownUntil pair now := by
  obtain ⟨call, id, provider, rfl, rfl, ⟨⟨target, htarget⟩, rfl⟩ | ⟨⟨leaseId, target, proxyUrl, ip,
    hanswer⟩, rfl⟩⟩ := h
  · rcases poolLease_cases cfg s call with ⟨s', reason, hleased, -⟩ |
      ⟨s', provider', name, hleased, -⟩ | ⟨id', provider', name, hpicked, hleased⟩
    · rw [hleased] at htarget
      cases htarget
    · rw [hleased] at htarget
      cases htarget
    · rw [hleased] at htarget
      injection htarget with hid hprovider
      subst hid hprovider
      obtain ⟨server, hserver, rfl⟩ := available_of_picked hpicked
      obtain ⟨-, hne, -, hcool⟩ := mem_available.mp hserver
      exact outlasts_of_not_cool hne hcool
  · have hcarrier : CoolsCarrier cfg s (.lease call) := coolsCarrier_lease (hclock (Nat.le_succ _))
    obtain ⟨-, hne, -, hcool⟩ := hcarrier.leased leaseId id provider target proxyUrl ip hanswer
    intro recorded hrec
    obtain ⟨later, hlater, hle⟩ := hcarrier.recorded.kept hlong _ recorded hrec
    exact hle.trans (outlasts_of_not_cool hne hcool later hlater)

theorem kept_run (hclock : Monotone cfg.clock) {s : Supervisor} {requests : List SupervisorRequest}
    (h : Meets cfg.after (fun s r => Lengthens (cfg.effects s r)) s requests) :
    Kept s.cooldownUntil (run cfg.after s requests).cooldownUntil := by
  refine related_of_meets cfg.after (R := fun s s' => Kept s.cooldownUntil s'.cooldownUntil)
    (fun s => Kept.refl _) (fun _ _ _ => Kept.trans) ?_
  exact meets_of_meets cfg.after (I := fun _ => True) (fun _ _ _ _ => trivial)
    (fun s r _ hlong => (recorded_request hclock s r).kept hlong) trivial h

/-- **Cooldowns of the supervisor.**  At nondecreasing times, no cooldown is ever
shortened, and a pair that a report blocked is not taken before the generic cooldown is
over, exactly when no request puts a shorter cooldown on a pair. -/
theorem cooldowns_kept_iff (cfg : SupervisorConfig) (hclock : Monotone cfg.clock) (s : Supervisor)
    (requests : List SupervisorRequest) :
    CooldownsKept cfg s requests ↔ Meets cfg.after cfg.Lasting s requests := by
  rw [← meets_congr cfg.after (lengthens_iff hclock)]
  refine ⟨CooldownsKept.lengthens, fun h => ⟨h, fun a b c heq => ?_, ?_⟩⟩
  · subst heq
    rw [run_append]
    exact kept_run hclock ((meets_append cfg.after).mp ((meets_append cfg.after).mp h).1).2
  · rintro a r b r' c rfl pair expiry now hblocks htakes
    obtain ⟨hbefore, hafter⟩ := (meets_append cfg.after).mp h
    obtain ⟨-, hblocking, hbetween⟩ := (meets_append cfg.after).mp hbefore
    obtain ⟨before, hin⟩ := hblocks.cooled
    obtain ⟨later, hlater, hle⟩ := (recorded_request hclock _ r).promised hblocking hin
    obtain ⟨latest, hlatest, hle'⟩ := kept_run hclock hbetween pair later hlater
    rw [run_append, run_cons] at htakes hafter
    exact (hle.trans hle').trans (htakes.outlasts hclock hafter.1 latest hlatest)

theorem cooldowns_kept_twoServers :
    CooldownsKept twoServers .init [leaseOf "zen" "a", .report "a" .locationBlocked none] ↔
      Meets twoServers.after twoServers.Lasting .init
        [leaseOf "zen" "a", .report "a" .locationBlocked none] :=
  cooldowns_kept_iff twoServers monotone_twoServers .init _

/-- A location block of a server for `google` is cut to the four seconds of that provider
by the rotation that follows it, and the server is taken again within seconds. -/
theorem rotation_shortens_block :
    Monotone twoServers.clock ∧ ¬ CooldownsKept twoServers .init
      [leaseOf "google" "a", .report "a" .locationBlocked none, leaseOf "google" "b",
        leaseOf "google" "c"] := by
  refine ⟨monotone_twoServers, fun h => ?_⟩
  have hblocks : twoServers.Blocks (run twoServers.after .init [leaseOf "google" "a"])
      (.report "a" .locationBlocked none) ("s1", "google") 1303 :=
    ⟨"a", none, ⟨some "s1", 1001, some "google", "google"⟩, "s1", rfl, by decide +kernel,
      by decide +kernel, rfl, by decide, by decide +kernel, by decide +kernel⟩
  have htakes : twoServers.Takes (run twoServers.after .init
      [leaseOf "google" "a", .report "a" .locationBlocked none, leaseOf "google" "b"])
      (leaseOf "google" "c") ("s1", "google") 1009 :=
    ⟨_, "s1", some "google", rfl, by decide +kernel,
      Or.inl ⟨⟨"google", by decide +kernel⟩, by decide +kernel⟩⟩
  have hle := h.rests [leaseOf "google" "a"] _ [leaseOf "google" "b"] _ [] rfl _ _ _ hblocks htakes
  revert hle
  decide

end SupervisorConfig

end HamZaboon
