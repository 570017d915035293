import HamZaboon.Ai.Limiter
import HamZaboon.Library.Runs
import Mathlib.Data.List.Basic

/-! # Concurrency slots

The semaphore of a preset, `limiter_for` and the slot of `_call_ai_limited`.
Every call reads the preset from the fallback chain, which is cached, looks the
limiter up, acquires the semaphore it finds there, counts itself in flight and
undoes both in the end.  The steps of all calls interleave, with edits of
`max_concurrency` in between.

`limiter_for` replaces the semaphore of a limiter with no call in flight.  A
permit always goes back to the semaphore it came from (`Conserved`).  The calls
that run are bounded by what the last call to find the limiter idle had read, as
long as no semaphore is replaced under a call that has looked it up and is not
counted, or no longer counted (`slots_bounded`).
-/

namespace HamZaboon
open Library

def maxConcurrency (raw : Option Int) : Int := raw.getD 2

/-- How far a call is, and the semaphore it has looked up. -/
inductive SlotPhase
  | begun
  | looked (slot : Nat)
  | acquired (slot : Nat)
  | counted (slot : Nat)
  | answered (slot : Nat)
  | uncounted (slot : Nat)
  deriving DecidableEq, Repr

namespace SlotPhase

/-- The semaphore a call has looked up and not released. -/
def slot : SlotPhase → Option Nat
  | .begun => none
  | .looked i | .acquired i | .counted i | .answered i | .uncounted i => some i

def permit : SlotPhase → Option Nat
  | .begun | .looked _ => none
  | .acquired i | .counted i | .answered i | .uncounted i => some i

/-- The call is counted in `in_flight`. -/
def isCounted : SlotPhase → Bool
  | .counted _ | .answered _ => true
  | _ => false

end SlotPhase

/-- A run of `_call_ai_limited` through the preset: when it began, and the
`max_concurrency` of its chain. -/
structure SlotCall where
  thread : Nat
  beganAt : Nat
  desired : Int
  phase : SlotPhase
  deriving DecidableEq, Repr

/-- A `threading.BoundedSemaphore`. -/
structure Semaphore where
  capacity : Int
  free : Int
  deriving DecidableEq, Repr

/-- What `limiter_for` keeps of the slots of a preset. -/
structure LimiterSlots where
  slots : Nat
  slotsCapacity : Int
  inFlight : Int
  deriving DecidableEq, Repr

/-- The values `max_concurrency` has had, the cached chain's among them, the
semaphores in the order of their creation, the limiter, and the calls under way.
`idleRead` is not in the source: what the last lookup of an idle limiter wanted. -/
structure SlotState where
  limits : List Int
  chain : Option Int := none
  semaphores : List Semaphore := []
  limiter : Option LimiterSlots := none
  calls : List SlotCall := []
  idleRead : Option Int := none
  deriving DecidableEq, Repr

inductive SlotEvent
  /-- An edit of the preset. -/
  | edit (raw : Option Int)
  /-- The cached chain is too old. -/
  | expire
  /-- A thread enters `_call_ai_limited` and reads the chain. -/
  | begin (thread : Nat)
  /-- The lookups of the backoff and rate checks. -/
  | check (c : SlotCall)
  /-- The checks send the call on to the next preset. -/
  | skip (c : SlotCall)
  /-- `limiter = …` and `slot = limiter["slots"]`. -/
  | lookup (c : SlotCall)
  /-- `slot.acquire` goes through. -/
  | acquire (c : SlotCall)
  /-- `slot.acquire` times out. -/
  | timeout (c : SlotCall)
  /-- `limiter["in_flight"] += 1`. -/
  | count (c : SlotCall)
  /-- The provider call returns or raises. -/
  | answer (c : SlotCall)
  /-- The lookup of `_log_preset_usage`. -/
  | log (c : SlotCall)
  /-- `limiter["in_flight"] = max(0, limiter["in_flight"] - 1)`. -/
  | uncount (c : SlotCall)
  /-- `slot.release()`. -/
  | release (c : SlotCall)
  deriving DecidableEq, Repr

namespace SlotState

def current (s : SlotState) : Int := s.limits.getLastD 0

def advance (s : SlotState) (c : SlotCall) (phase : SlotPhase) : SlotState :=
  { s with calls := { c with phase := phase } :: s.calls.erase c }

/-- The call leaves the preset. -/
def drop (s : SlotState) (c : SlotCall) : SlotState := { s with calls := s.calls.erase c }

/-- A new semaphore for the limiter. -/
def install (s : SlotState) (desired inFlight : Int) : SlotState :=
  { s with
    semaphores := s.semaphores ++ [⟨desired, desired⟩]
    limiter := some ⟨s.semaphores.length, desired, inFlight⟩
    idleRead := some desired }

/-- `limiter_for`; a negative number of slots raises `ValueError`. -/
def limiterFor (s : SlotState) (desired : Int) : Option SlotState :=
  match s.limiter with
  | none => if desired < 0 then none else some (s.install desired 0)
  | some l =>
    if desired ≠ l.slotsCapacity ∧ l.inFlight = 0 then
      if desired < 0 then none else some (s.install desired l.inFlight)
    else some { s with idleRead := if l.inFlight = 0 then some desired else s.idleRead }

/-- A lookup in which the call goes on as it is, unless it raises. -/
def peek (s : SlotState) (c : SlotCall) : SlotState := (s.limiterFor c.desired).getD (s.drop c)

/-- `slot.acquire`, `slot.release`: the free permits of a semaphore change. -/
def addFree (s : SlotState) (i : Nat) (n : Int) : SlotState :=
  { s with semaphores := s.semaphores.modify i fun sem => { sem with free := sem.free + n } }

/-- `in_flight` is assigned. -/
def setInFlight (s : SlotState) (f : Int → Int) : SlotState :=
  { s with limiter := s.limiter.map fun l => { l with inFlight := f l.inFlight } }

/-- Some permit of the semaphore is free. -/
def hasFree (s : SlotState) (i : Nat) : Bool := s.semaphores[i]?.any (0 < ·.free)

/-- The call is under way and has come to the step. -/
def Enabled (s : SlotState) : SlotEvent → Prop
  | .edit _ | .expire => True
  | .begin t => ∀ c ∈ s.calls, c.thread ≠ t
  | .check c | .skip c | .lookup c => c ∈ s.calls ∧ c.phase = .begun
  | .acquire c => c ∈ s.calls ∧ ∃ i ∈ c.phase.slot, c.phase = .looked i ∧ s.hasFree i = true
  | .timeout c => c ∈ s.calls ∧ ∃ i ∈ c.phase.slot, c.phase = .looked i
  | .count c => c ∈ s.calls ∧ ∃ i ∈ c.phase.slot, c.phase = .acquired i
  | .answer c => c ∈ s.calls ∧ ∃ i ∈ c.phase.slot, c.phase = .counted i
  | .log c | .uncount c => c ∈ s.calls ∧ ∃ i ∈ c.phase.slot, c.phase = .answered i
  | .release c => c ∈ s.calls ∧ ∃ i ∈ c.phase.slot, c.phase = .uncounted i

instance (s : SlotState) (e : SlotEvent) : Decidable (s.Enabled e) := by
  cases e <;> unfold Enabled <;> infer_instance

def next (s : SlotState) : SlotEvent → SlotState
  | .edit raw => { s with limits := s.limits ++ [maxConcurrency raw] }
  | .expire => { s with chain := none }
  | .begin t =>
    let desired := s.chain.getD s.current
    { s with
      chain := some desired
      calls := ⟨t, s.limits.length - 1, desired, .begun⟩ :: s.calls }
  | .check c => s.peek c
  | .skip c => s.drop c
  | .lookup c =>
    match s.limiterFor c.desired with
    | none => s.drop c
    | some s' =>
      match s'.limiter with
      | none => s'
      | some l => s'.advance c (.looked l.slots)
  | .acquire c =>
    match c.phase.slot with
    | none => s
    | some i => (s.addFree i (-1)).advance c (.acquired i)
  | .timeout c => s.drop c
  | .count c =>
    match c.phase.slot with
    | none => s
    | some i => (s.setInFlight (· + 1)).advance c (.counted i)
  | .answer c =>
    match c.phase.slot with
    | none => s
    | some i => s.advance c (.answered i)
  | .log c => s.peek c
  | .uncount c =>
    match c.phase.slot with
    | none => s
    | some i => (s.setInFlight (fun n => max 0 (n - 1))).advance c (.uncounted i)
  | .release c =>
    match c.phase.slot with
    | none => s
    | some i => (s.addFree i 1).drop c

/-! ## What the slots promise -/

/-- The calls between acquire and release. -/
def running (s : SlotState) : List SlotCall := s.calls.filter (·.phase.permit.isSome)

def holders (s : SlotState) (i : Nat) : Nat := s.calls.countP (·.phase.permit = some i)

/-- The calls that are counted in `in_flight`. -/
def counted (s : SlotState) : Nat := s.calls.countP (·.phase.isCounted)

/-- The running calls are at most the largest `max_concurrency` since the oldest
of them began. -/
def WithinLimits (s : SlotState) : Prop :=
  ∀ oldest ∈ s.running, (∀ c ∈ s.running, oldest.beganAt ≤ c.beganAt) →
    ∃ limit ∈ s.limits.drop oldest.beganAt, (s.running.length : Int) ≤ limit

instance (s : SlotState) : Decidable s.WithinLimits :=
  inferInstanceAs (Decidable (∀ oldest ∈ s.running, _ → _))

/-- Every permit of a semaphore is free or held by one running call. -/
structure Conserved (s : SlotState) : Prop where
  permits : ∀ i sem, s.semaphores[i]? = some sem → sem.free + (s.holders i : Int) = sem.capacity
  free : ∀ sem ∈ s.semaphores, 0 ≤ sem.free
  held : ∀ c ∈ s.calls, ∀ i, c.phase.permit = some i → i < s.semaphores.length

/-- The running calls are at most the `max_concurrency` that the last call to
find the limiter idle had read. -/
def WithinIdleRead (s : SlotState) : Prop :=
  s.running ≠ [] → ∃ limit ∈ s.limits, s.idleRead = some limit ∧ (s.running.length : Int) ≤ limit

def replaces (s : SlotState) (desired : Int) : Bool :=
  s.limiter.any fun l => desired ≠ l.slotsCapacity && l.inFlight = 0

/-- A lookup that replaces the semaphore finds no call with a slot: none between
its lookup and its count, and none between its uncount and its release. -/
def ReplacesUnused (s : SlotState) : SlotEvent → Prop
  | .check c | .lookup c | .log c =>
    s.replaces c.desired = true → ∀ c' ∈ s.calls, c'.phase.slot = none
  | _ => True

instance (s : SlotState) (e : SlotEvent) : Decidable (s.ReplacesUnused e) := by
  cases e <;> unfold ReplacesUnused <;> infer_instance

/-! ## Counting calls -/

theorem countP_exchange {calls : List SlotCall} {c : SlotCall} (h : c ∈ calls) (c' : SlotCall)
    (p : SlotCall → Bool) :
    (c' :: calls.erase c).countP p + (if p c then 1 else 0) =
      calls.countP p + if p c' then 1 else 0 := by
  rw [(List.perm_cons_erase h).countP_eq p, List.countP_cons, List.countP_cons]
  omega

theorem countP_drop {calls : List SlotCall} {c : SlotCall} (h : c ∈ calls)
    (p : SlotCall → Bool) :
    (calls.erase c).countP p + (if p c then 1 else 0) = calls.countP p := by
  rw [(List.perm_cons_erase h).countP_eq p, List.countP_cons]

theorem mem_advance {s : SlotState} {c x : SlotCall} {phase : SlotPhase}
    (h : x ∈ (s.advance c phase).calls) : x = { c with phase := phase } ∨ x ∈ s.calls :=
  (List.mem_cons.mp h).imp_right List.mem_of_mem_erase

section Holders
variable {s : SlotState} {c : SlotCall}

theorem holders_advance (phase : SlotPhase) (h : c ∈ s.calls) (i : Nat) :
    (s.advance c phase).holders i + (if c.phase.permit = some i then 1 else 0) =
      s.holders i + if phase.permit = some i then 1 else 0 := by
  simpa [holders, advance] using
    countP_exchange h { c with phase := phase } (·.phase.permit = some i)

theorem holders_drop (h : c ∈ s.calls) (i : Nat) :
    (s.drop c).holders i + (if c.phase.permit = some i then 1 else 0) = s.holders i := by
  simpa [holders, drop] using countP_drop h (·.phase.permit = some i)

theorem counted_advance (phase : SlotPhase) (h : c ∈ s.calls) :
    (s.advance c phase).counted + (if c.phase.isCounted then 1 else 0) =
      s.counted + if phase.isCounted then 1 else 0 := by
  simpa [counted, advance] using countP_exchange h { c with phase := phase } (·.phase.isCounted)

theorem counted_drop (h : c ∈ s.calls) :
    (s.drop c).counted + (if c.phase.isCounted then 1 else 0) = s.counted := by
  simpa [counted, drop] using countP_drop h (·.phase.isCounted)

end Holders

/-! ## Permits -/

/-- The invariant behind `Conserved`: also the semaphores that are looked up
exist, and `in_flight` is the number of counted calls. -/
structure Accounted (s : SlotState) : Prop where
  permits : ∀ i sem, s.semaphores[i]? = some sem → sem.free + (s.holders i : Int) = sem.capacity
  free : ∀ sem ∈ s.semaphores, 0 ≤ sem.free
  slots : ∀ c ∈ s.calls, ∀ i, c.phase.slot = some i → i < s.semaphores.length
  limiter : ∀ l ∈ s.limiter, l.slots < s.semaphores.length ∧ l.inFlight = (s.counted : Int)
  created : s.limiter = none → s.semaphores = []

theorem slot_of_permit {phase : SlotPhase} {i : Nat} (h : phase.permit = some i) :
    phase.slot = some i := by
  cases phase <;> simp_all [SlotPhase.permit, SlotPhase.slot]

theorem Accounted.conserved {s : SlotState} (h : s.Accounted) : s.Conserved :=
  ⟨h.permits, h.free, fun c hc i hi => h.slots c hc i (slot_of_permit hi)⟩

section Steps
variable {s s' : SlotState} {c : SlotCall} {phase : SlotPhase} {i : Nat}

theorem Accounted.holders_eq_zero (h : s.Accounted) (hi : s.semaphores.length ≤ i) :
    s.holders i = 0 := by
  refine List.countP_eq_zero.mpr fun c hc hpermit => ?_
  have := h.slots c hc i (slot_of_permit (of_decide_eq_true hpermit))
  omega

theorem Accounted.install (h : s.Accounted) {desired : Int} (hdesired : 0 ≤ desired)
    (hcounted : s.counted = 0) : (s.install desired 0).Accounted := by
  have hlength : (s.install desired 0).semaphores.length = s.semaphores.length + 1 := by
    simp [SlotState.install]
  refine ⟨fun i sem hsem => ?_, fun sem hsem => ?_, fun c hc i hi => ?_, fun l hl => ?_, nofun⟩
  · rcases Nat.lt_or_ge i s.semaphores.length with hi | hi
    · refine h.permits i sem ?_
      rwa [SlotState.install, List.getElem?_append_left hi] at hsem
    · -- the new semaphore, which nobody holds
      have hzero : (s.install desired 0).holders i = 0 := h.holders_eq_zero hi
      rw [SlotState.install, List.getElem?_append_right hi] at hsem
      have heq : sem = ⟨desired, desired⟩ := by
        have := List.mem_of_getElem? hsem
        simpa using this
      rw [hzero, heq]
      simp
  · rcases List.mem_append.mp hsem with hsem | hsem
    · exact h.free sem hsem
    · rw [List.mem_singleton.mp hsem]
      exact hdesired
  · have := h.slots c hc i hi
    omega
  · cases Option.some.inj hl
    rw [hlength]
    refine ⟨Nat.lt_succ_self _, ?_⟩
    show (0 : Int) = (s.counted : Int)
    rw [hcounted]
    rfl

theorem setInFlight_self : s.setInFlight (fun n => n) = s := by
  unfold setInFlight
  cases h : s.limiter <;> simp [← h]

theorem Accounted.own_slot (h : s.Accounted) (hc : c ∈ s.calls)
    (hsame : phase.slot = c.phase.slot) (i : Nat) (hi : phase.slot = some i) :
    i < s.semaphores.length :=
  h.slots c hc i (hsame ▸ hi)

theorem Accounted.advance_setInFlight {f : Int → Int} (h : s.Accounted) (hc : c ∈ s.calls)
    (hpermit : phase.permit = c.phase.permit)
    (hslot : ∀ i, phase.slot = some i → i < s.semaphores.length)
    (hf : f s.counted + (if c.phase.isCounted then 1 else 0) =
      s.counted + if phase.isCounted then 1 else 0) :
    ((s.setInFlight f).advance c phase).Accounted := by
  refine ⟨fun i sem hsem => ?_, h.free, fun x hx i hi => ?_, fun l hl => ?_, fun hnone => ?_⟩
  · have hholders := holders_advance (s := s.setInFlight f) phase hc i
    have hsame : (s.setInFlight f).holders i = s.holders i := rfl
    rw [hpermit, hsame] at hholders
    have := h.permits i sem hsem
    omega
  · rcases mem_advance hx with rfl | hx
    · exact hslot i hi
    · exact h.slots x hx i hi
  · obtain ⟨old, hold, rfl⟩ := Option.map_eq_some_iff.mp hl
    obtain ⟨hslots, hinFlight⟩ := h.limiter old hold
    refine ⟨hslots, ?_⟩
    have hcounted := counted_advance (s := s.setInFlight f) phase hc
    have hsame : (s.setInFlight f).counted = s.counted := rfl
    rw [hsame] at hcounted
    simp only [hinFlight]
    cases hold' : c.phase.isCounted <;> cases hnew : phase.isCounted <;>
      simp [hold', hnew] at hf hcounted <;> omega
  · exact h.created (Option.map_eq_none_iff.mp hnone)

theorem Accounted.advance (h : s.Accounted) (hc : c ∈ s.calls)
    (hpermit : phase.permit = c.phase.permit) (hcounted : phase.isCounted = c.phase.isCounted)
    (hslot : ∀ i, phase.slot = some i → i < s.semaphores.length) :
    (s.advance c phase).Accounted := by
  have := h.advance_setInFlight (f := fun n => n) hc hpermit hslot (by rw [hcounted])
  rwa [setInFlight_self] at this

theorem Accounted.drop (h : s.Accounted) (hc : c ∈ s.calls) (hpermit : c.phase.permit = none) :
    (s.drop c).Accounted := by
  refine ⟨fun i sem hsem => ?_, h.free, fun x hx i hi => h.slots x (List.mem_of_mem_erase hx) i hi,
    fun l hl => ⟨(h.limiter l hl).1, ?_⟩, h.created⟩
  · have hholders := holders_drop hc i
    rw [hpermit] at hholders
    have := h.permits i sem hsem
    simp at hholders
    omega
  · have hcounted := counted_drop hc
    have hnot : c.phase.isCounted = false := by
      cases hphase : c.phase <;> simp_all [SlotPhase.permit, SlotPhase.isCounted]
    rw [hnot] at hcounted
    rw [(h.limiter l hl).2]
    simp at hcounted
    omega

theorem getElem?_addFree {n : Int} {j : Nat} {sem : Semaphore}
    (h : (s.addFree i n).semaphores[j]? = some sem) :
    ∃ old, s.semaphores[j]? = some old ∧ sem.capacity = old.capacity ∧
      sem.free = old.free + if i = j then n else 0 := by
  rw [addFree, List.getElem?_modify] at h
  obtain ⟨old, hold, rfl⟩ := Option.map_eq_some_iff.mp h
  refine ⟨old, hold, ?_⟩
  split <;> simp

theorem length_addFree {n : Int} : (s.addFree i n).semaphores.length = s.semaphores.length :=
  List.length_modify _ _ _

/-- Permits move between a semaphore and the calls: the accounts stand when the
calls hold as many more as the semaphore has fewer. -/
theorem Accounted.addFree {n : Int} (h : s.Accounted)
    (hsemaphores : s'.semaphores = (s.addFree i n).semaphores) (hlimiter : s'.limiter = s.limiter)
    (hcounted : s'.counted = s.counted)
    (hholders : ∀ j, (s'.holders j : Int) + (if i = j then n else 0) = s.holders j)
    (hfree : ∀ sem, s.semaphores[i]? = some sem → 0 ≤ sem.free + n)
    (hslots : ∀ c ∈ s'.calls, ∀ j, c.phase.slot = some j → j < s.semaphores.length) :
    s'.Accounted := by
  have hlength : s'.semaphores.length = s.semaphores.length := by
    rw [hsemaphores, length_addFree]
  refine ⟨fun j sem hsem => ?_, fun sem hsem => ?_, fun c hc j hj => ?_, fun l hl => ?_,
    fun hnone => ?_⟩
  · rw [hsemaphores] at hsem
    obtain ⟨old, hold, hcapacity, hnew⟩ := getElem?_addFree hsem
    have hpermits := h.permits j old hold
    have hmoved := hholders j
    rw [hcapacity, hnew]
    omega
  · rw [hsemaphores] at hsem
    obtain ⟨j, hj⟩ := List.mem_iff_getElem?.mp hsem
    obtain ⟨old, hold, -, hnew⟩ := getElem?_addFree hj
    rw [hnew]
    split
    · rename_i hij
      subst hij
      exact hfree old hold
    · have := h.free old (List.mem_of_getElem? hold)
      omega
  · rw [hlength]
    exact hslots c hc j hj
  · rw [hlength, hcounted]
    exact h.limiter l (hlimiter ▸ hl)
  · rw [hlimiter] at hnone
    refine List.eq_nil_of_length_eq_zero ?_
    rw [hlength, h.created hnone, List.length_nil]

theorem Accounted.acquire (h : s.Accounted) (hc : c ∈ s.calls) (hphase : c.phase = .looked i)
    (hfree : s.hasFree i = true) : ((s.addFree i (-1)).advance c (.acquired i)).Accounted := by
  refine h.addFree rfl rfl ?_ (fun j => ?_) (fun sem hsem => ?_) fun x hx j hj => ?_
  · have hcounted := counted_advance (s := s.addFree i (-1)) (.acquired i) hc
    rw [hphase] at hcounted
    exact hcounted
  · have hholders := holders_advance (s := s.addFree i (-1)) (.acquired i) hc j
    have hsame : (s.addFree i (-1)).holders j = s.holders j := rfl
    rw [hphase, hsame] at hholders
    simp only [SlotPhase.permit, Option.some.injEq, reduceCtorEq, if_false] at hholders
    split <;> rename_i hij
    · rw [if_pos hij] at hholders; omega
    · rw [if_neg hij] at hholders; omega
  · have hone : 0 < sem.free := by simpa [hasFree, hsem] using hfree
    omega
  · rcases mem_advance hx with rfl | hx
    · exact h.slots c hc j (by rw [hphase]; exact hj)
    · exact h.slots x hx j hj

theorem Accounted.release (h : s.Accounted) (hc : c ∈ s.calls) (hphase : c.phase = .uncounted i) :
    ((s.addFree i 1).drop c).Accounted := by
  refine h.addFree rfl rfl ?_ (fun j => ?_) (fun sem hsem => ?_) fun x hx j hj => ?_
  · have hcounted := counted_drop (s := s.addFree i 1) hc
    rw [hphase] at hcounted
    exact hcounted
  · have hholders := holders_drop (s := s.addFree i 1) hc j
    have hsame : (s.addFree i 1).holders j = s.holders j := rfl
    rw [hphase, hsame] at hholders
    simp only [SlotPhase.permit, Option.some.injEq] at hholders
    split <;> rename_i hij
    · rw [if_pos hij] at hholders; omega
    · rw [if_neg hij] at hholders; omega
  · have := h.free sem (List.mem_of_getElem? hsem)
    omega
  · exact h.slots x (List.mem_of_mem_erase hx) j hj

end Steps

/-! ## Lookups -/

/-- What a lookup does: it installs a semaphore in a limiter without one or where
it replaces one, or it finds the limiter as it is. -/
theorem limiterFor_eq_some {s s' : SlotState} {desired : Int} (h : s.limiterFor desired = some s') :
    (0 ≤ desired ∧ s' = s.install desired 0 ∧
      (s.limiter = none ∨ s.replaces desired = true)) ∨
    ∃ l, s.limiter = some l ∧ (l.inFlight = 0 → desired = l.slotsCapacity) ∧
      s' = { s with idleRead := if l.inFlight = 0 then some desired else s.idleRead } := by
  unfold limiterFor at h
  cases hl : s.limiter with
  | none =>
    rw [hl] at h
    simp only at h
    split at h <;> cases h
    exact Or.inl ⟨by omega, rfl, Or.inl rfl⟩
  | some l =>
    rw [hl] at h
    simp only at h
    split at h
    · rename_i hreplace
      split at h <;> cases h
      refine Or.inl ⟨by omega, by rw [hreplace.2], Or.inr ?_⟩
      simp [replaces, hl, hreplace.1, hreplace.2]
    · rename_i hkeep
      cases h
      refine Or.inr ⟨l, rfl, fun hidle => ?_, rfl⟩
      by_contra hne
      exact hkeep ⟨hne, hidle⟩

theorem Accounted.counted_eq_zero {s : SlotState} (h : s.Accounted) (desired : Int)
    (hl : s.limiter = none ∨ s.replaces desired = true) : s.counted = 0 := by
  rcases hl with hnone | hreplaces
  · refine List.countP_eq_zero.mpr fun c hc hcounted => ?_
    obtain ⟨i, hi⟩ : ∃ i, c.phase.slot = some i := by
      cases hphase : c.phase <;> simp_all [SlotPhase.isCounted, SlotPhase.slot]
    have := h.slots c hc i hi
    rw [h.created hnone] at this
    cases this
  · cases hl : s.limiter with
    | none =>
      simp [replaces, hl] at hreplaces
    | some l =>
      have hidle : desired ≠ l.slotsCapacity ∧ l.inFlight = 0 := by
        simpa [replaces, hl] using hreplaces
      have := (h.limiter l hl).2
      omega

theorem Accounted.limiterFor {s s' : SlotState} {desired : Int} (h : s.Accounted)
    (hs : s.limiterFor desired = some s') :
    s'.Accounted ∧ s'.calls = s.calls ∧ ∃ l, s'.limiter = some l := by
  rcases limiterFor_eq_some hs with ⟨hdesired, rfl, hl⟩ | ⟨l, hl, -, rfl⟩
  · exact ⟨h.install hdesired (h.counted_eq_zero desired hl), rfl, _, rfl⟩
  · exact ⟨⟨h.permits, h.free, h.slots, h.limiter, h.created⟩, rfl, l, hl⟩

theorem Accounted.peek_counted {s : SlotState} {c : SlotCall} (h : s.Accounted) (hc : c ∈ s.calls)
    (hphase : c.phase.isCounted = true) : s.peek c = s := by
  have hpos : 0 < s.counted := List.countP_pos_iff.mpr ⟨c, hc, hphase⟩
  cases hl : s.limiter with
  | none =>
    have := h.counted_eq_zero 0 (Or.inl hl)
    omega
  | some l =>
    have hbusy : l.inFlight ≠ 0 := by
      have := (h.limiter l hl).2
      omega
    simp only [peek, SlotState.limiterFor, hl, hbusy, and_false, if_false, Option.getD_some]
    rw [← hl]

theorem Accounted.begin {s : SlotState} (h : s.Accounted) (t : Nat) :
    (s.next (.begin t)).Accounted := by
  have hholders (i : Nat) : (s.next (.begin t)).holders i = s.holders i := by
    simp [SlotState.next, holders, SlotPhase.permit]
  have hcounted : (s.next (.begin t)).counted = s.counted := by
    simp [SlotState.next, counted, SlotPhase.isCounted]
  refine ⟨fun i sem hsem => ?_, h.free, fun x hx i hi => ?_, fun l hl => ?_, h.created⟩
  · rw [hholders]
    exact h.permits i sem hsem
  · rcases List.mem_cons.mp hx with rfl | hx
    · cases hi
    · exact h.slots x hx i hi
  · rw [hcounted]
    exact h.limiter l hl

theorem Accounted.next {s : SlotState} (h : s.Accounted) {e : SlotEvent} (he : s.Enabled e) :
    (s.next e).Accounted := by
  cases e with
  | edit raw => exact ⟨h.permits, h.free, h.slots, h.limiter, h.created⟩
  | expire => exact ⟨h.permits, h.free, h.slots, h.limiter, h.created⟩
  | begin t => exact h.begin t
  | check c =>
    simp only [SlotState.next, peek]
    cases hs : s.limiterFor c.desired with
    | none => exact h.drop he.1 (by rw [he.2]; rfl)
    | some s' => exact (h.limiterFor hs).1
  | skip c => exact h.drop he.1 (by rw [he.2]; rfl)
  | lookup c =>
    simp only [SlotState.next]
    cases hs : s.limiterFor c.desired with
    | none => exact h.drop he.1 (by rw [he.2]; rfl)
    | some s' =>
      obtain ⟨hs', hcalls, l, hl⟩ := h.limiterFor hs
      simp only [hl]
      refine hs'.advance (hcalls ▸ he.1) (by rw [he.2]; rfl) (by rw [he.2]; rfl) fun i hi => ?_
      cases Option.some.inj hi
      exact (hs'.limiter l hl).1
  | acquire c =>
    obtain ⟨hc, i, hi, hphase, hfree⟩ := he
    simp only [SlotState.next, Option.mem_def.mp hi]
    exact h.acquire hc hphase hfree
  | timeout c =>
    obtain ⟨hc, i, hi, hphase⟩ := he
    exact h.drop hc (by rw [hphase]; rfl)
  | count c =>
    obtain ⟨hc, i, hi, hphase⟩ := he
    simp only [SlotState.next, Option.mem_def.mp hi]
    refine h.advance_setInFlight hc (by rw [hphase]; rfl) (h.own_slot hc hi.symm) ?_
    rw [hphase]
    rfl
  | answer c =>
    obtain ⟨hc, i, hi, hphase⟩ := he
    simp only [SlotState.next, Option.mem_def.mp hi]
    exact h.advance hc (by rw [hphase]; rfl) (by rw [hphase]; rfl) (h.own_slot hc hi.symm)
  | log c =>
    obtain ⟨hc, i, hi, hphase⟩ := he
    rw [SlotState.next, h.peek_counted hc (by rw [hphase]; rfl)]
    exact h
  | uncount c =>
    obtain ⟨hc, i, hi, hphase⟩ := he
    have hpos : 0 < s.counted := List.countP_pos_iff.mpr ⟨c, hc, by rw [hphase]; rfl⟩
    simp only [SlotState.next, Option.mem_def.mp hi]
    refine h.advance_setInFlight hc (by rw [hphase]; rfl) (h.own_slot hc hi.symm) ?_
    rw [hphase]
    simp only [SlotPhase.isCounted, if_true, Bool.false_eq_true, if_false]
    omega
  | release c =>
    obtain ⟨hc, i, hi, hphase⟩ := he
    simp only [SlotState.next, Option.mem_def.mp hi]
    exact h.release hc hphase

/-! ## The bound -/

/-- The semaphore of the limiter, and its capacity. -/
def slotsOf (s : SlotState) : Option (Nat × Int) :=
  s.limiter.map fun l => (l.slots, l.slotsCapacity)

def capacities (s : SlotState) : List Int := s.semaphores.map (·.capacity)

/-- The invariant of the runs that replace no semaphore in use: all slots are
those of the limiter, whose capacity the last lookup of an idle limiter wanted. -/
structure Bounded (s : SlotState) : Prop where
  accounted : s.Accounted
  limits : s.limits ≠ []
  chain : ∀ v, s.chain = some v → v ∈ s.limits
  desired : ∀ c ∈ s.calls, c.desired ∈ s.limits
  current : ∀ c ∈ s.calls, ∀ i, c.phase.slot = some i → ∃ n, s.slotsOf = some (i, n)
  capacity : ∀ i n, s.slotsOf = some (i, n) →
    s.idleRead = some n ∧ n ∈ s.limits ∧ s.capacities[i]? = some n

theorem Bounded.withinIdleRead {s : SlotState} (h : s.Bounded) : s.WithinIdleRead := by
  intro hrunning
  have hslot : ∀ c ∈ s.calls, ∀ i, c.phase.permit = some i → ∃ n, s.slotsOf = some (i, n) :=
    fun c hc i hi => h.current c hc i (slot_of_permit hi)
  obtain ⟨c, hc⟩ := List.exists_mem_of_ne_nil _ hrunning
  obtain ⟨hmem, hpermit⟩ := List.mem_filter.mp hc
  obtain ⟨i, hi⟩ := Option.isSome_iff_exists.mp hpermit
  obtain ⟨n, hn⟩ := hslot c hmem i hi
  obtain ⟨hidle, hlimit, hcapacity⟩ := h.capacity i n hn
  refine ⟨n, hlimit, hidle, ?_⟩
  -- every running call holds a permit of this one semaphore
  have hholders : s.running.length = s.holders i := by
    rw [running, ← List.countP_eq_length_filter]
    refine List.countP_congr fun c hc => ?_
    constructor
    · intro hpermit
      obtain ⟨j, hj⟩ := Option.isSome_iff_exists.mp hpermit
      obtain ⟨m, hm⟩ := hslot c hc j hj
      rw [hn] at hm
      cases hm
      exact decide_eq_true hj
    · intro hslots
      rw [of_decide_eq_true hslots]
      rfl
  rw [capacities, List.getElem?_map] at hcapacity
  obtain ⟨sem, hsem, hsemCapacity⟩ := Option.map_eq_some_iff.mp hcapacity
  have hpermits := h.accounted.permits i sem hsem
  have hfree := h.accounted.free sem (List.mem_of_getElem? hsem)
  omega

theorem bounded_init (raw : Option Int) : Bounded { limits := [maxConcurrency raw] } := by
  refine ⟨⟨?_, ?_, ?_, ?_, fun _ => rfl⟩, by simp, ?_, ?_, ?_, ?_⟩ <;> simp [slotsOf]

/-- The step leaves the limits, the chain and the semaphore of the limiter alone. -/
structure SameSlots (s s' : SlotState) : Prop where
  limits : s'.limits = s.limits
  chain : s'.chain = s.chain
  idleRead : s'.idleRead = s.idleRead
  slotsOf : s'.slotsOf = s.slotsOf
  capacities : s'.capacities = s.capacities

section Steps
variable {s s' : SlotState} {c : SlotCall} {phase : SlotPhase} {i : Nat}

theorem sameSlots_addFree {n : Int} : SameSlots s (s.addFree i n) := by
  refine ⟨rfl, rfl, rfl, rfl, List.ext_getElem? fun j => ?_⟩
  simp only [capacities, addFree, List.getElem?_map, List.getElem?_modify]
  cases s.semaphores[j]? with
  | none => rfl
  | some sem =>
    simp only [Option.map_eq_map, Option.map_some, Option.some.injEq]
    split <;> rfl

theorem sameSlots_setInFlight {f : Int → Int} : SameSlots s (s.setInFlight f) := by
  refine ⟨rfl, rfl, rfl, ?_, rfl⟩
  simp only [SlotState.slotsOf, setInFlight, Option.map_map]
  rfl

theorem Bounded.of_sameSlots (h : s.Bounded) (hsame : SameSlots s s') (haccounted : s'.Accounted)
    (hcalls : ∀ x ∈ s'.calls, ∃ y ∈ s.calls, x.desired = y.desired ∧
      ∀ i, x.phase.slot = some i → ∃ n, s.slotsOf = some (i, n)) : s'.Bounded := by
  refine ⟨haccounted, hsame.limits ▸ h.limits, ?_, fun x hx => ?_, fun x hx i hi => ?_, ?_⟩
  · rw [hsame.chain, hsame.limits]
    exact h.chain
  · obtain ⟨y, hy, hdesired, -⟩ := hcalls x hx
    rw [hdesired, hsame.limits]
    exact h.desired y hy
  · obtain ⟨y, -, -, hslot⟩ := hcalls x hx
    rw [hsame.slotsOf]
    exact hslot i hi
  · rw [hsame.slotsOf, hsame.idleRead, hsame.limits, hsame.capacities]
    exact h.capacity

theorem Bounded.drop (h : s.Bounded) (hsame : SameSlots s s') (hcalls : s'.calls = s.calls)
    (haccounted : (s'.drop c).Accounted) : (s'.drop c).Bounded := by
  refine h.of_sameSlots ⟨hsame.limits, hsame.chain, hsame.idleRead, hsame.slotsOf,
    hsame.capacities⟩ haccounted fun x hx => ?_
  have hx' : x ∈ s.calls := hcalls ▸ List.mem_of_mem_erase hx
  exact ⟨x, hx', rfl, h.current x hx'⟩

theorem Bounded.advance (h : s.Bounded) (hsame : SameSlots s s') (hcalls : s'.calls = s.calls)
    (haccounted : (s'.advance c phase).Accounted) (hc : c ∈ s.calls)
    (hslot : ∀ i, phase.slot = some i → c.phase.slot = some i ∨ ∃ n, s.slotsOf = some (i, n)) :
    (s'.advance c phase).Bounded := by
  refine h.of_sameSlots ⟨hsame.limits, hsame.chain, hsame.idleRead, hsame.slotsOf,
    hsame.capacities⟩ haccounted fun x hx => ?_
  rcases mem_advance hx with rfl | hx
  · exact ⟨c, hc, rfl, fun i hi => (hslot i hi).elim (h.current c hc i) id⟩
  · have hx' : x ∈ s.calls := hcalls ▸ hx
    exact ⟨x, hx', rfl, h.current x hx'⟩

theorem Bounded.goOn (h : s.Bounded) (hsame : SameSlots s s') (hcalls : s'.calls = s.calls)
    (haccounted : (s'.advance c phase).Accounted) (hc : c ∈ s.calls)
    (hslot : phase.slot = c.phase.slot) : (s'.advance c phase).Bounded :=
  h.advance hsame hcalls haccounted hc fun _ hi => Or.inl (hslot ▸ hi)

theorem sameSlots_refl : SameSlots s s := ⟨rfl, rfl, rfl, rfl, rfl⟩

theorem Bounded.limiterFor {desired : Int} (h : s.Bounded) (hdesired : desired ∈ s.limits)
    (hunused : s.replaces desired = true → ∀ c ∈ s.calls, c.phase.slot = none)
    (hs : s.limiterFor desired = some s') : s'.Bounded := by
  have haccounted := (h.accounted.limiterFor hs).1
  rcases limiterFor_eq_some hs with ⟨hnonneg, rfl, hl⟩ | ⟨l, hl, hidle, rfl⟩
  · -- a new semaphore, with no slot in use
    have hnone : ∀ c ∈ s.calls, c.phase.slot = none := by
      rcases hl with hl | hl
      · intro c hc
        by_contra hslot
        obtain ⟨i, hi⟩ := Option.ne_none_iff_exists'.mp hslot
        obtain ⟨n, hn⟩ := h.current c hc i hi
        simp [slotsOf, hl] at hn
      · exact hunused hl
    refine ⟨haccounted, h.limits, h.chain, h.desired, fun c hc i hi => ?_, fun i n hn => ?_⟩
    · rw [hnone c hc] at hi
      cases hi
    · have hn' : s.semaphores.length = i ∧ desired = n := by
        simpa [slotsOf, install] using hn
      obtain ⟨rfl, rfl⟩ := hn'
      refine ⟨rfl, hdesired, ?_⟩
      simp [capacities, install]
  · -- the limiter as it is; an idle one has the capacity that is wanted
    refine ⟨haccounted, h.limits, h.chain, h.desired, h.current, fun i n hn => ?_⟩
    obtain ⟨hread, hlimit, hcapacity⟩ := h.capacity i n hn
    refine ⟨?_, hlimit, hcapacity⟩
    simp only
    split
    · rename_i hzero
      have hn' : l.slots = i ∧ l.slotsCapacity = n := by simpa [slotsOf, hl] using hn
      rw [hidle hzero, hn'.2]
    · exact hread

theorem Bounded.edit (h : s.Bounded) (raw : Option Int)
    (haccounted : (s.next (.edit raw)).Accounted) : (s.next (.edit raw)).Bounded := by
  refine ⟨haccounted, by simp [SlotState.next], fun v hv => ?_, fun c hc => ?_, h.current,
    fun i n hn => ?_⟩
  · exact List.mem_append_left _ (h.chain v hv)
  · exact List.mem_append_left _ (h.desired c hc)
  · obtain ⟨hread, hlimit, hcapacity⟩ := h.capacity i n hn
    exact ⟨hread, List.mem_append_left _ hlimit, hcapacity⟩

theorem Bounded.chain_mem (h : s.Bounded) : s.chain.getD s.current ∈ s.limits := by
  cases hchain : s.chain with
  | some v => exact h.chain v hchain
  | none =>
    rw [Option.getD_none, SlotState.current, List.getLastD_eq_getLast?,
      List.getLast?_eq_some_getLast h.limits]
    exact List.getLast_mem h.limits

theorem Bounded.begin (h : s.Bounded) (t : Nat) (haccounted : (s.next (.begin t)).Accounted) :
    (s.next (.begin t)).Bounded := by
  refine ⟨haccounted, h.limits, fun v hv => ?_, fun c hc => ?_, fun c hc i hi => ?_, h.capacity⟩
  · cases Option.some.inj hv
    exact h.chain_mem
  · rcases List.mem_cons.mp hc with rfl | hc
    · exact h.chain_mem
    · exact h.desired c hc
  · rcases List.mem_cons.mp hc with rfl | hc
    · cases hi
    · exact h.current c hc i hi

theorem Bounded.next (h : s.Bounded) {e : SlotEvent} (he : s.Enabled e)
    (hunused : s.ReplacesUnused e) : (s.next e).Bounded := by
  have haccounted := h.accounted.next he
  cases e with
  | edit raw => exact h.edit raw haccounted
  | expire => exact ⟨haccounted, h.limits, nofun, h.desired, h.current, h.capacity⟩
  | begin t => exact h.begin t haccounted
  | check c =>
    simp only [SlotState.next, peek] at haccounted ⊢
    cases hs : s.limiterFor c.desired with
    | none =>
      rw [hs] at haccounted
      exact h.drop sameSlots_refl rfl haccounted
    | some s' => exact h.limiterFor (h.desired c he.1) hunused hs
  | skip c => exact h.drop sameSlots_refl rfl haccounted
  | lookup c =>
    simp only [SlotState.next] at haccounted ⊢
    cases hs : s.limiterFor c.desired with
    | none =>
      rw [hs] at haccounted
      exact h.drop sameSlots_refl rfl haccounted
    | some s' =>
      obtain ⟨-, hcalls, l, hl⟩ := h.accounted.limiterFor hs
      have hs' := h.limiterFor (h.desired c he.1) hunused hs
      simp only [hs, hl] at haccounted ⊢
      refine hs'.advance sameSlots_refl rfl haccounted (hcalls ▸ he.1) fun i hi => Or.inr ?_
      cases Option.some.inj hi
      exact ⟨l.slotsCapacity, by simp [slotsOf, hl]⟩
  | acquire c =>
    obtain ⟨hc, i, hi, -⟩ := he
    simp only [SlotState.next, Option.mem_def.mp hi] at haccounted ⊢
    exact h.goOn sameSlots_addFree rfl haccounted hc hi.symm
  | timeout c => exact h.drop sameSlots_refl rfl haccounted
  | count c =>
    obtain ⟨hc, i, hi, -⟩ := he
    simp only [SlotState.next, Option.mem_def.mp hi] at haccounted ⊢
    exact h.goOn sameSlots_setInFlight rfl haccounted hc hi.symm
  | answer c =>
    obtain ⟨hc, i, hi, -⟩ := he
    simp only [SlotState.next, Option.mem_def.mp hi] at haccounted ⊢
    exact h.goOn sameSlots_refl rfl haccounted hc hi.symm
  | log c =>
    obtain ⟨hc, i, hi, hphase⟩ := he
    rw [SlotState.next, h.accounted.peek_counted hc (by rw [hphase]; rfl)]
    exact h
  | uncount c =>
    obtain ⟨hc, i, hi, -⟩ := he
    simp only [SlotState.next, Option.mem_def.mp hi] at haccounted ⊢
    exact h.goOn sameSlots_setInFlight rfl haccounted hc hi.symm
  | release c =>
    obtain ⟨hc, i, hi, -⟩ := he
    simp only [SlotState.next, Option.mem_def.mp hi] at haccounted ⊢
    exact h.drop sameSlots_addFree rfl haccounted

end Steps

/-- **Slots.**  In every run of the steps of any number of calls and of edits,
every permit is free or held by one call and goes back to its semaphore; and as
long as no semaphore in use is replaced, the calls that run are at most what the
last call to find the limiter idle had read. -/
theorem slots_bounded {raw : Option Int} {events : List SlotEvent}
    (h : Meets next Enabled { limits := [maxConcurrency raw] } events) :
    Always next Conserved { limits := [maxConcurrency raw] } events ∧
      (Meets next ReplacesUnused { limits := [maxConcurrency raw] } events →
        Always next WithinIdleRead { limits := [maxConcurrency raw] } events) := by
  refine ⟨?_, fun hunused => ?_⟩
  · exact always_of_meets next (fun (s : SlotState) (hs : s.Accounted) => hs.conserved)
      (fun s e (hs : s.Accounted) he => hs.next he) (bounded_init raw).accounted h
  · exact always_of_meets next (fun (s : SlotState) (hs : s.Bounded) => hs.withinIdleRead)
      (fun s e (hs : s.Bounded) he => hs.next he.1 he.2) (bounded_init raw)
      ((meets_and next).mpr ⟨h, hunused⟩)

/-- A call of a preset with one slot, from its lookups to its release. -/
def oneCall : List SlotEvent :=
  let call := SlotCall.mk 1 0 1
  [.begin 1, .check (call .begun), .lookup (call .begun), .acquire (call (.looked 0)),
    .count (call (.acquired 0)), .answer (call (.counted 0)), .log (call (.answered 0)),
    .uncount (call (.answered 0)), .release (call (.uncounted 0))]

theorem slots_bounded_one_call :
    Always next Conserved { limits := [1] } oneCall ∧
      Always next WithinIdleRead { limits := [1] } oneCall := by
  have henabled : Meets next Enabled { limits := [maxConcurrency (some 1)] } oneCall := by
    simp only [oneCall, Meets, and_true]
    decide
  have hbound := slots_bounded henabled
  exact ⟨hbound.1, hbound.2 (by simp only [oneCall, Meets, and_true]; decide)⟩

/-- Call 1 of two slots runs while the preset is cut to one; calls 2 and 3 begin
after it and run at once on the old semaphore. -/
def shrinkRun : List SlotEvent :=
  let call := SlotCall.mk 1 0 2
  let second := SlotCall.mk 2 1 1
  let third := SlotCall.mk 3 1 1
  [.begin 1, .lookup (call .begun), .acquire (call (.looked 0)), .count (call (.acquired 0)),
    .edit (some 1), .expire,
    .begin 2, .lookup (second .begun), .acquire (second (.looked 0)), .count (second (.acquired 0)),
    .answer (call (.counted 0)), .uncount (call (.answered 0)), .release (call (.uncounted 0)),
    .begin 3, .lookup (third .begun), .acquire (third (.looked 0))]

theorem shrink_deferred :
    Meets next Enabled { limits := [2] } shrinkRun ∧
      ¬ Always next WithinLimits { limits := [2] } shrinkRun :=
  ⟨by simp only [shrinkRun, Meets, and_true]; decide,
    fun h => absurd (Always.last next h) (by decide)⟩

end SlotState

end HamZaboon
