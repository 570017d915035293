import HamZaboon.Library.Runs
import Mathlib.Data.List.Nodup

/-! # The locks of `speak`

`services/tts_service.py`: one `asyncio.Lock` for each cache key, in a table of
bounded size.  Tasks of one event loop switch at awaits only.  The guard of the
table is held across none, so `speak` runs from its start through
`_get_speak_lock` to the point where it either is inside `_speak_locked` or
waits for the lock.  A released lock reads as unlocked until its first waiter,
which the release has woken, runs and takes it.

A call for a new key evicts locks that look idle from a full table.  As long as
it evicts none that a task waits for, all tasks of a key share one lock
(`speak_single_flight`).
-/

namespace HamZaboon
open Library

def maxSpeakLocks : Nat := 2000

/-- A call of `speak` by a task, with its cache key. -/
structure SpeakCall (K : Type) where
  task : Nat
  key : K
  deriving DecidableEq, Repr

/-- An `asyncio.Lock`; while it is unlocked its first waiter is woken. -/
structure SpeakLock (K : Type) where
  locked : Bool := false
  waiters : List (SpeakCall K) := []

/-- The locks are numbered as they are created; `table` is `_SPEAK_LOCKS` in
insertion order, `inside` the calls in `_speak_locked` with the lock they hold. -/
structure SpeakState (K : Type) where
  table : List (K × Nat) := []
  locks : Nat → SpeakLock K := fun _ => {}
  created : Nat := 0
  inside : List (SpeakCall K × Nat) := []

/-- What a task does between two awaits. -/
inductive SpeakEvent (K : Type)
  /-- `speak` from its start. -/
  | call (c : SpeakCall K)
  /-- The woken waiter of a lock runs. -/
  | resume (l : Nat)
  /-- A call leaves `_speak_locked`, by a return or by an exception. -/
  | finish (c : SpeakCall K) (l : Nat)
  /-- A waiting call is cancelled. -/
  | cancel (c : SpeakCall K) (l : Nat)

namespace SpeakState
variable {K : Type}

section Program
variable [DecidableEq K]

/-- `_SPEAK_LOCKS.get`. -/
def lockOf (s : SpeakState K) (k : K) : Option Nat := (s.table.find? (·.1 = k)).map (·.2)

/-- The entries the eviction loop deletes, over a table with `excess` entries
too many: the first unlocked ones. -/
def idleEntries (locked : Nat → Bool) : List (K × Nat) → Nat → List (K × Nat)
  | [], _ => []
  | _, 0 => []
  | entry :: table, excess + 1 =>
    if locked entry.2 then idleEntries locked table (excess + 1)
    else entry :: idleEntries locked table excess

/-- What a call for a new key evicts: it makes room for one entry. -/
def evicted (s : SpeakState K) : List (K × Nat) :=
  idleEntries (fun l => (s.locks l).locked) s.table (s.table.length + 1 - maxSpeakLocks)

/-- The lock with number `l` is replaced. -/
def setLock (s : SpeakState K) (l : Nat) (lock : SpeakLock K) : SpeakState K :=
  { s with locks := fun i => if i = l then lock else s.locks i }

/-- `async with lock`: an unlocked lock without waiters is taken at once. -/
def acquire (s : SpeakState K) (c : SpeakCall K) (l : Nat) : SpeakState K :=
  let lock := s.locks l
  if !lock.locked && lock.waiters.isEmpty then
    { s.setLock l { lock with locked := true } with inside := (c, l) :: s.inside }
  else s.setLock l { lock with waiters := lock.waiters ++ [c] }

def create (s : SpeakState K) (k : K) : SpeakState K :=
  { s with
    table := s.table.filter (· ∉ s.evicted) ++ [(k, s.created)]
    created := s.created + 1 }

/-- `speak` up to its first await. -/
def call (s : SpeakState K) (c : SpeakCall K) : SpeakState K :=
  match s.lockOf c.key with
  | some l => s.acquire c l
  | none => (s.create c.key).acquire c s.created

def resume (s : SpeakState K) (l : Nat) : SpeakState K :=
  match (s.locks l).waiters with
  | [] => s
  | c :: waiters => { s.setLock l ⟨true, waiters⟩ with inside := (c, l) :: s.inside }

/-- `Lock.release` at the end of the `async with`. -/
def finish (s : SpeakState K) (c : SpeakCall K) (l : Nat) : SpeakState K :=
  { s.setLock l { s.locks l with locked := false } with inside := s.inside.erase (c, l) }

def cancel (s : SpeakState K) (c : SpeakCall K) (l : Nat) : SpeakState K :=
  s.setLock l { s.locks l with waiters := (s.locks l).waiters.erase c }

def next (s : SpeakState K) : SpeakEvent K → SpeakState K
  | .call c => s.call c
  | .resume l => s.resume l
  | .finish c l => s.finish c l
  | .cancel c l => s.cancel c l

/-- A waiter runs once it is woken, and a call leaves where it is inside. -/
def Enabled (s : SpeakState K) : SpeakEvent K → Prop
  | .call _ => True
  | .resume l => (s.locks l).locked = false ∧ (s.locks l).waiters ≠ []
  | .finish c l => (c, l) ∈ s.inside
  | .cancel c l => c ∈ (s.locks l).waiters

/-- At most one call of each key is inside `_speak_locked`. -/
def SingleFlight (s : SpeakState K) : Prop :=
  ∀ k, s.inside.countP (fun e => e.1.key = k) ≤ 1

/-- A call for a key without a lock evicts no lock that a call waits for. -/
def EvictsUnawaited (s : SpeakState K) : SpeakEvent K → Prop
  | .call c => s.lockOf c.key = none → ∀ entry ∈ s.evicted, (s.locks entry.2).waiters = []
  | _ => True

end Program

/-- The invariant: whoever is inside or waits has its lock in the table, and a
lock is locked for exactly one call that is inside. -/
structure Sound (s : SpeakState K) : Prop where
  keys : (s.table.map (·.1)).Nodup
  holder : ∀ l, s.inside.countP (fun e => e.2 = l) = if (s.locks l).locked then 1 else 0
  inside_table : ∀ e ∈ s.inside, (e.1.key, e.2) ∈ s.table
  waiting_table : ∀ l, ∀ c ∈ (s.locks l).waiters, (c.key, l) ∈ s.table

/-! ## The table -/

theorem locked_of_mem_idleEntries {locked : Nat → Bool} {table : List (K × Nat)} {excess : Nat}
    {entry : K × Nat} (h : entry ∈ idleEntries locked table excess) : locked entry.2 = false := by
  induction table generalizing excess with
  | nil => cases h
  | cons e table ih =>
    cases excess with
    | zero => cases h
    | succ excess =>
      unfold idleEntries at h
      split at h
      · exact ih h
      · rename_i hunlocked
        rcases List.mem_cons.mp h with rfl | h
        · exact Bool.eq_false_iff.mpr hunlocked
        · exact ih h

theorem Sound.lock_unique {s : SpeakState K} (h : s.Sound) {k : K} {l l' : Nat}
    (hl : (k, l) ∈ s.table) (hl' : (k, l') ∈ s.table) : l = l' :=
  congrArg Prod.snd (List.inj_on_of_nodup_map h.keys hl hl' rfl)

theorem Sound.locked_of_inside {s : SpeakState K} (h : s.Sound) {e : SpeakCall K × Nat}
    (he : e ∈ s.inside) : (s.locks e.2).locked = true := by
  have hpos : 0 < s.inside.countP (fun e' => e'.2 = e.2) :=
    List.countP_pos_iff.mpr ⟨e, he, by simp⟩
  rw [h.holder] at hpos
  by_contra hunlocked
  simp [hunlocked] at hpos

/-! ## Steps -/

theorem sound_init : ({} : SpeakState K).Sound :=
  ⟨List.nodup_nil, fun _ => rfl, fun _ h => absurd h List.not_mem_nil,
    fun _ _ h => absurd h List.not_mem_nil⟩

@[simp] theorem setLock_locks_self (s : SpeakState K) (l : Nat) (lock : SpeakLock K) :
    (s.setLock l lock).locks l = lock :=
  if_pos rfl

theorem setLock_locks_of_ne (s : SpeakState K) {l i : Nat} (lock : SpeakLock K) (hi : i ≠ l) :
    (s.setLock l lock).locks i = s.locks i :=
  if_neg hi

theorem Sound.setLock {s : SpeakState K} (h : s.Sound) {l : Nat} {lock : SpeakLock K}
    {inside : List (SpeakCall K × Nat)}
    (hholder : inside.countP (fun e => e.2 = l) = if lock.locked then 1 else 0)
    (hothers : ∀ i, i ≠ l →
      inside.countP (fun e => e.2 = i) = s.inside.countP (fun e => e.2 = i))
    (hinside : ∀ e ∈ inside, (e.1.key, e.2) ∈ s.table)
    (hwaiting : ∀ c ∈ lock.waiters, (c.key, l) ∈ s.table) :
    Sound { s.setLock l lock with inside := inside } := by
  refine ⟨h.keys, fun i => ?_, hinside, fun i c hc => ?_⟩
  · by_cases hi : i = l
    · subst hi
      simpa using hholder
    · simpa [setLock_locks_of_ne s lock hi, hothers i hi] using h.holder i
  · by_cases hi : i = l
    · subst hi
      exact hwaiting c (by simpa using hc)
    · exact h.waiting_table i c (by simpa [setLock_locks_of_ne s lock hi] using hc)

theorem Sound.take {s : SpeakState K} (h : s.Sound) {c : SpeakCall K} {l : Nat}
    {waiters : List (SpeakCall K)} (hl : (c.key, l) ∈ s.table)
    (hunlocked : (s.locks l).locked = false) (hwaiters : waiters ⊆ (s.locks l).waiters) :
    Sound { s.setLock l ⟨true, waiters⟩ with inside := (c, l) :: s.inside } := by
  refine h.setLock ?_ (fun i hi => ?_) (List.forall_mem_cons.mpr ⟨hl, h.inside_table⟩)
    fun c' hc' => h.waiting_table l c' (hwaiters hc')
  · simp [h.holder l, hunlocked]
  · simp [hi.symm]

theorem Sound.acquire {s : SpeakState K} (h : s.Sound) {c : SpeakCall K} {l : Nat}
    (hl : (c.key, l) ∈ s.table) : (s.acquire c l).Sound := by
  unfold SpeakState.acquire
  simp only
  split
  · rename_i hfree
    exact h.take hl (by simpa using (Bool.and_eq_true_iff.mp hfree).1) (List.Subset.refl _)
  · refine h.setLock (h.holder l) (fun i _ => rfl) h.inside_table fun c' hc' => ?_
    rcases List.mem_append.mp hc' with hc' | hc'
    · exact h.waiting_table l c' hc'
    · rw [List.mem_singleton.mp hc']
      exact hl

theorem Sound.resume {s : SpeakState K} (h : s.Sound) {l : Nat}
    (hunlocked : (s.locks l).locked = false) : (s.resume l).Sound := by
  unfold SpeakState.resume
  cases hwaiters : (s.locks l).waiters with
  | nil => exact h
  | cons c waiters =>
    refine h.take (h.waiting_table l c ?_) hunlocked ?_
    · exact hwaiters ▸ List.mem_cons_self
    · exact hwaiters ▸ List.subset_cons_self c waiters

variable [DecidableEq K]

theorem lockOf_eq_some {s : SpeakState K} {k : K} {l : Nat} (h : s.lockOf k = some l) :
    (k, l) ∈ s.table := by
  obtain ⟨entry, hfind, hl⟩ := Option.map_eq_some_iff.mp h
  have hk : entry.1 = k := by simpa using List.find?_some hfind
  rw [← hk, ← hl]
  exact List.mem_of_find?_eq_some hfind

theorem lockOf_eq_none {s : SpeakState K} {k : K} (h : s.lockOf k = none) :
    k ∉ s.table.map (·.1) := by
  intro hk
  obtain ⟨entry, hentry, rfl⟩ := List.mem_map.mp hk
  have hnone := List.find?_eq_none.mp (Option.map_eq_none_iff.mp h) entry hentry
  simp at hnone

theorem Sound.create {s : SpeakState K} (h : s.Sound) {k : K} (hk : s.lockOf k = none)
    (hunawaited : ∀ entry ∈ s.evicted, (s.locks entry.2).waiters = []) : (s.create k).Sound := by
  have hkept : ∀ entry ∈ s.table, entry ∉ s.evicted → entry ∈ (s.create k).table :=
    fun entry hentry hnot =>
      List.mem_append_left _ (List.mem_filter.mpr ⟨hentry, decide_eq_true hnot⟩)
  refine ⟨?_, h.holder, fun e he => ?_, fun l c hc => ?_⟩
  · show ((s.table.filter (· ∉ s.evicted) ++ [(k, s.created)]).map (·.1)).Nodup
    rw [List.map_append, List.nodup_append]
    refine ⟨h.keys.sublist (List.filter_sublist.map _), List.nodup_singleton _, ?_⟩
    rintro a ha b hb rfl
    have hak : a = k := by simpa using hb
    exact lockOf_eq_none hk (hak ▸ (List.filter_sublist.map _).subset ha)
  · refine hkept _ (h.inside_table e he) fun hevicted => ?_
    have hunlocked : (s.locks e.2).locked = false := locked_of_mem_idleEntries hevicted
    rw [h.locked_of_inside he] at hunlocked
    cases hunlocked
  · refine hkept _ (h.waiting_table l c hc) fun hevicted => ?_
    have hnone : (s.locks l).waiters = [] := hunawaited _ hevicted
    have hc' : c ∈ (s.locks l).waiters := hc
    rw [hnone] at hc'
    cases hc'

theorem Sound.call {s : SpeakState K} (h : s.Sound) {c : SpeakCall K}
    (hunawaited : s.EvictsUnawaited (.call c)) : (s.call c).Sound := by
  unfold SpeakState.call
  cases hlock : s.lockOf c.key with
  | some l => exact h.acquire (lockOf_eq_some hlock)
  | none =>
    refine (h.create hlock (hunawaited hlock)).acquire ?_
    exact List.mem_append_right _ (List.mem_singleton.mpr rfl)

theorem Sound.finish {s : SpeakState K} (h : s.Sound) {c : SpeakCall K} {l : Nat}
    (hin : (c, l) ∈ s.inside) : (s.finish c l).Sound := by
  have hcount (i : Nat) : s.inside.countP (fun e => e.2 = i) =
      ((c, l) :: s.inside.erase (c, l)).countP (fun e => e.2 = i) :=
    (List.perm_cons_erase hin).countP_eq _
  refine h.setLock ?_ (fun i hi => ?_)
    (fun e he => h.inside_table e (List.mem_of_mem_erase he)) (h.waiting_table l)
  · have hone := hcount l
    rw [h.holder l, h.locked_of_inside hin] at hone
    simpa using hone
  · rw [hcount i]
    simp [hi.symm]

theorem Sound.cancel {s : SpeakState K} (h : s.Sound) {c : SpeakCall K} {l : Nat} :
    (s.cancel c l).Sound :=
  h.setLock (h.holder l) (fun _ _ => rfl) h.inside_table
    fun c' hc' => h.waiting_table l c' (List.mem_of_mem_erase hc')

theorem Sound.next {s : SpeakState K} (h : s.Sound) {e : SpeakEvent K} (he : s.Enabled e)
    (hunawaited : s.EvictsUnawaited e) : (s.next e).Sound := by
  cases e with
  | call c => exact h.call hunawaited
  | resume l => exact h.resume he.1
  | finish c l => exact h.finish he
  | cancel c l => exact h.cancel

theorem Sound.singleFlight {s : SpeakState K} (h : s.Sound) : s.SingleFlight := by
  intro k
  by_cases hnone : ∃ e ∈ s.inside, e.1.key = k
  · obtain ⟨e, he, rfl⟩ := hnone
    calc s.inside.countP (fun e' => e'.1.key = e.1.key)
        ≤ s.inside.countP (fun e' => e'.2 = e.2) := by
          refine List.countP_mono_left fun e' he' hkey => ?_
          have hkey' : e'.1.key = e.1.key := of_decide_eq_true hkey
          refine decide_eq_true (h.lock_unique (h.inside_table e' he') ?_)
          rw [hkey']
          exact h.inside_table e he
      _ = 1 := by rw [h.holder, h.locked_of_inside he, if_pos rfl]
      _ ≤ 1 := Nat.le_refl _
  · have hzero : s.inside.countP (fun e => e.1.key = k) = 0 :=
      List.countP_eq_zero.mpr fun e he hkey => hnone ⟨e, he, of_decide_eq_true hkey⟩
    omega

/-- **Single flight.**  In every run in which no eviction takes the lock of a
waiting call, at most one call of each key is inside at any time. -/
theorem speak_single_flight {events : List (SpeakEvent K)}
    (h : Meets next (fun s e => s.Enabled e ∧ s.EvictsUnawaited e) {} events) :
    Always next SingleFlight {} events :=
  always_of_meets next (fun (s : SpeakState K) (hs : s.Sound) => hs.singleFlight)
    (fun s _ (hs : s.Sound) he => hs.next he.1 he.2) sound_init h

/-- Two calls of one key and one of another, with the lock handed over once. -/
theorem speak_single_flight_handover :
    Always next SingleFlight ({} : SpeakState Nat)
      [.call ⟨0, 7⟩, .call ⟨1, 7⟩, .call ⟨2, 8⟩, .finish ⟨0, 7⟩ 0, .resume 0, .finish ⟨1, 7⟩ 0] := by
  refine speak_single_flight ?_
  simp [Meets, next, Enabled, EvictsUnawaited, call, lockOf, create, evicted, acquire, finish,
    resume, setLock, idleEntries, maxSpeakLocks]

/-! ## A full table -/

/-- A call for a fresh key that comes and goes. -/
def passing (i : Nat) : List (SpeakEvent Nat) := [.call ⟨i + 1, i⟩, .finish ⟨i + 1, i⟩ i]

/-- A call is inside and another waits for its key, and `n` further keys have
come and gone. -/
structure Filled (n : Nat) (s : SpeakState Nat) : Prop where
  table : s.table = (List.range (n + 1)).map fun i => (i, i)
  created : s.created = n + 1
  inside : s.inside = [(⟨0, 0⟩, 0)]
  first : s.locks 0 = ⟨true, [⟨1, 0⟩]⟩
  others : ∀ i, 0 < i → s.locks i = {}

theorem filled_zero : Filled 0 (run next {} [.call ⟨0, 0⟩, .call ⟨1, 0⟩]) := by
  refine ⟨rfl, rfl, rfl, rfl, fun i hi => ?_⟩
  have hne : i ≠ 0 := by omega
  simp [next, call, lockOf, create, evicted, acquire, setLock, idleEntries, hne]

theorem lockOf_range {s : SpeakState Nat} {n : Nat}
    (h : s.table = (List.range (n + 1)).map fun i => (i, i)) : s.lockOf (n + 1) = none := by
  rw [lockOf, h, Option.map_eq_none_iff, List.find?_eq_none]
  intro entry hentry
  obtain ⟨i, hi, rfl⟩ := List.mem_map.mp hentry
  have hlt := List.mem_range.mp hi
  simp only [decide_eq_true_eq]
  omega

theorem Filled.passing {s : SpeakState Nat} {n : Nat} (h : Filled n s) (hn : n + 2 ≤ maxSpeakLocks) :
    Filled (n + 1) (run next s (SpeakState.passing (n + 1))) ∧
      Meets next Enabled s (SpeakState.passing (n + 1)) := by
  have hroom : s.table.length + 1 - maxSpeakLocks = 0 := by
    rw [h.table, List.length_map, List.length_range]
    omega
  have hevicted : s.evicted = [] := by
    rw [evicted, hroom]
    cases s.table <;> rfl
  have hlock : s.locks (n + 1) = {} := h.others (n + 1) (by omega)
  have hcall : s.next (.call ⟨n + 1 + 1, n + 1⟩) =
      { s.setLock (n + 1) ⟨true, []⟩ with
        table := s.table ++ [(n + 1, n + 1)]
        created := n + 2
        inside := [(⟨n + 1 + 1, n + 1⟩, n + 1), (⟨0, 0⟩, 0)] } := by
    simp [next, call, lockOf_range h.table, create, hevicted, acquire, setLock, h.created,
      hlock, h.inside]
  refine ⟨?_, trivial, ?_, trivial⟩
  · show Filled (n + 1) (next (next s (.call ⟨n + 1 + 1, n + 1⟩)) (.finish ⟨n + 1 + 1, n + 1⟩ (n + 1)))
    rw [hcall]
    refine ⟨?_, rfl, by simp [next, finish], ?_, fun i hi => ?_⟩
    · show s.table ++ [(n + 1, n + 1)] = _
      rw [h.table, List.range_succ (n := n + 1), List.map_append]
      rfl
    · simpa [next, finish, setLock] using h.first
    · by_cases heq : i = n + 1
      · simp [next, finish, setLock, heq]
      · simpa [next, finish, setLock, heq] using h.others i hi
  · rw [hcall]
    simp [Enabled]

/-- Two calls for key 0, then `n` passing calls for the keys after it. -/
def fill (n : Nat) : List (SpeakEvent Nat) :=
  [.call ⟨0, 0⟩, .call ⟨1, 0⟩] ++ (List.range n).flatMap fun i => passing (i + 1)

theorem filled_fill {n : Nat} (hn : n < maxSpeakLocks) :
    Filled n (run next {} (fill n)) ∧ Meets next Enabled {} (fill n) := by
  induction n with
  | zero => exact ⟨filled_zero, trivial, trivial, trivial⟩
  | succ n ih =>
    obtain ⟨hfilled, hmeets⟩ := ih (by omega)
    have hfill : fill (n + 1) = fill n ++ passing (n + 1) := by
      simp [fill, List.range_succ]
    obtain ⟨hstep, hstepMeets⟩ := hfilled.passing (by omega)
    rw [hfill, run_append, meets_append]
    exact ⟨hstep, hmeets, hstepMeets⟩

/-- The first call leaves, one new key evicts its lock, and key 0 gets another
before the woken call runs. -/
def evictWoken (n : Nat) : List (SpeakEvent Nat) :=
  [.finish ⟨0, 0⟩ 0, .call ⟨n + 2, n + 1⟩, .call ⟨n + 3, 0⟩, .resume 0]

theorem evicted_first {s : SpeakState Nat} {n : Nat}
    (htable : s.table = (List.range (n + 1)).map fun i => (i, i)) (hn : n + 1 = maxSpeakLocks)
    (hunlocked : (s.locks 0).locked = false) :
    s.evicted = [(0, 0)] ∧
      s.table.filter (· ∉ s.evicted) = (List.range n).map fun i => (i + 1, i + 1) := by
  have hexcess : s.table.length + 1 - maxSpeakLocks = 1 := by
    rw [htable, List.length_map, List.length_range, hn]
    omega
  have hcons : s.table = (0, 0) :: (List.range n).map fun i => (i + 1, i + 1) := by
    rw [htable, List.range_succ_eq_map, List.map_cons, List.map_map]
    rfl
  have hevicted : s.evicted = [(0, 0)] := by
    rw [evicted, hexcess, hcons, idleEntries, hunlocked]
    cases List.range n <;> rfl
  refine ⟨hevicted, ?_⟩
  rw [hevicted, hcons, List.filter_cons_of_neg (by simp), List.filter_eq_self]
  intro entry hentry
  obtain ⟨i, -, rfl⟩ := List.mem_map.mp hentry
  simp

/-- The first call has left a full table, and the woken call has not run yet. -/
structure Released (n : Nat) (s : SpeakState Nat) : Prop where
  table : s.table = (List.range (n + 1)).map fun i => (i, i)
  created : s.created = n + 1
  inside : s.inside = []
  first : s.locks 0 = ⟨false, [⟨1, 0⟩]⟩
  others : ∀ i, 0 < i → s.locks i = {}

theorem Filled.finish {s : SpeakState Nat} {n : Nat} (h : Filled n s) :
    Released n (s.next (.finish ⟨0, 0⟩ 0)) := by
  have hfinish : s.next (.finish ⟨0, 0⟩ 0) =
      { s.setLock 0 ⟨false, [⟨1, 0⟩]⟩ with inside := [] } := by
    simp [next, SpeakState.finish, h.first, h.inside]
  rw [hfinish]
  refine ⟨h.table, h.created, rfl, setLock_locks_self s 0 _, fun i hi => ?_⟩
  have hne : i ≠ 0 := by omega
  exact (setLock_locks_of_ne s _ hne).trans (h.others i hi)

/-- A new key has taken the entry of key 0, whose lock a call still waits for. -/
structure WokenEvicted (n : Nat) (s : SpeakState Nat) : Prop where
  noLock : s.lockOf 0 = none
  created : s.created = n + 2
  inside : s.inside = [(⟨n + 2, n + 1⟩, n + 1)]
  first : s.locks 0 = ⟨false, [⟨1, 0⟩]⟩
  fresh : s.locks (n + 2) = {}

theorem Released.call {s : SpeakState Nat} {n : Nat} (h : Released n s)
    (hn : n + 1 = maxSpeakLocks) : WokenEvicted n (s.next (.call ⟨n + 2, n + 1⟩)) := by
  obtain ⟨-, hkept⟩ := evicted_first h.table hn (by rw [h.first])
  have hcreate : s.create (n + 1) =
      { s with
        table := ((List.range n).map fun i => (i + 1, i + 1)) ++ [(n + 1, n + 1)]
        created := n + 2 } := by
    rw [create, hkept, h.created]
  have hcall : s.next (.call ⟨n + 2, n + 1⟩) =
      { s.setLock (n + 1) ⟨true, []⟩ with
        table := ((List.range n).map fun i => (i + 1, i + 1)) ++ [(n + 1, n + 1)]
        created := n + 2
        inside := [(⟨n + 2, n + 1⟩, n + 1)] } := by
    simp [next, SpeakState.call, lockOf_range h.table, hcreate, acquire, setLock, h.created,
      h.others, h.inside]
  rw [hcall]
  refine ⟨?_, rfl, rfl, ?_, ?_⟩
  · rw [lockOf, Option.map_eq_none_iff, List.find?_eq_none]
    intro entry hentry
    rcases List.mem_append.mp hentry with hentry | hentry
    · obtain ⟨i, -, rfl⟩ := List.mem_map.mp hentry
      simp
    · rw [List.mem_singleton.mp hentry]
      simp
  · have hne : 0 ≠ n + 1 := by omega
    exact (setLock_locks_of_ne s ⟨true, []⟩ hne).trans h.first
  · have hne : n + 2 ≠ n + 1 := by omega
    exact (setLock_locks_of_ne s ⟨true, []⟩ hne).trans (h.others (n + 2) (by omega))

theorem WokenEvicted.call {s : SpeakState Nat} {n : Nat} (h : WokenEvicted n s) :
    (s.next (.call ⟨n + 3, 0⟩)).inside = [(⟨n + 3, 0⟩, n + 2), (⟨n + 2, n + 1⟩, n + 1)] ∧
      (s.next (.call ⟨n + 3, 0⟩)).locks 0 = ⟨false, [⟨1, 0⟩]⟩ := by
  constructor
  · simp [next, SpeakState.call, h.noLock, create, acquire, h.created, h.fresh, h.inside]
  · simp [next, SpeakState.call, h.noLock, create, acquire, setLock, h.created, h.fresh, h.first]

theorem Filled.evictWoken {s : SpeakState Nat} {n : Nat} (h : Filled n s)
    (hn : n + 1 = maxSpeakLocks) :
    Meets next Enabled s (SpeakState.evictWoken n) ∧
      2 ≤ (run next s (SpeakState.evictWoken n)).inside.countP (fun e => e.1.key = 0) := by
  have hevicted := h.finish.call hn
  generalize hs₂ : (s.next (.finish ⟨0, 0⟩ 0)).next (.call ⟨n + 2, n + 1⟩) = s₂ at hevicted
  obtain ⟨hinside₃, hlock₃⟩ := hevicted.call
  refine ⟨⟨?_, trivial, trivial, ?_, trivial⟩, ?_⟩
  · show (⟨0, 0⟩, 0) ∈ s.inside
    rw [h.inside]
    exact List.mem_singleton.mpr rfl
  · rw [hs₂]
    simp [Enabled, hlock₃]
  · show 2 ≤ (next (next (next (next s (.finish ⟨0, 0⟩ 0)) (.call ⟨n + 2, n + 1⟩))
      (.call ⟨n + 3, 0⟩)) (.resume 0)).inside.countP (fun e => e.1.key = 0)
    rw [hs₂]
    simp [next] at hinside₃ hlock₃ ⊢
    simp [resume, hlock₃, hinside₃]

/-- With the table full, two calls of key 0 are inside at once. -/
theorem two_calls_inside :
    Meets next Enabled {} (fill 1999 ++ evictWoken 1999) ∧
      ¬ Always next SingleFlight ({} : SpeakState Nat) (fill 1999 ++ evictWoken 1999) := by
  have hn : 1999 + 1 = maxSpeakLocks := rfl
  obtain ⟨hfilled, hmeets⟩ := filled_fill (n := 1999) (by omega)
  obtain ⟨hwoken, htwo⟩ := hfilled.evictWoken hn
  refine ⟨(meets_append next).mpr ⟨hmeets, hwoken⟩, fun halways => ?_⟩
  have hone := Always.last _ halways 0
  rw [run_append] at hone
  omega

end SpeakState

end HamZaboon
