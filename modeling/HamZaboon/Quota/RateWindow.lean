import HamZaboon.Library.Runs
import HamZaboon.Library.SlidingWindow
import Mathlib.Algebra.Field.Rat
import Mathlib.Algebra.Order.Field.Rat

/-! # The rate guard of a user

The per-user rate guard of `services/scheduling.py`: for each user and action the
stamps of the calls that were let through, oldest first, of which both the check and
the acquire drop the expired ones.  However checks and acquires mix, an acquire is
refused exactly when the window that ends at it holds as many granted calls as the
limit, and a check says what the next acquire will say and changes no answer
(`rate_window_exact`).
-/

namespace HamZaboon
open Library

def rateLimit : Nat := 5

def rateLimits : List (String × Nat) :=
  [("study_start", 5), ("query_ask", 5), ("grammar_tip", 5), ("srs_grade_review", 5),
    ("srs_grade_first", 5), ("srs_grade", 5)]

def limitFor (action : String) : Nat := (rateLimits.lookup action).getD rateLimit

/-- A user and an action. -/
abbrev RateKey := Int × String

/-- `_buckets`; a missing key has none. -/
structure RateGuard (K : Type) where
  buckets : RateKey → Option (List K) := fun _ => none

/-- A call of the guard, and the clock it reads. -/
inductive RateCall (K : Type)
  | acquire (key : RateKey) (now : K)
  | check (key : RateKey) (now : K)

namespace RateCall
variable {K : Type}

def now : RateCall K → K
  | .acquire _ now => now
  | .check _ now => now

def isAcquire : RateCall K → Bool
  | .acquire _ _ => true
  | .check _ _ => false

end RateCall

section Guard
variable {K : Type} [Field K] [LinearOrder K]

def rateWindowSeconds : K := (10 : ℕ)

/-- `_prune`. -/
def pruneBucket (now : K) (bucket : List K) : List K := dropExpired rateWindowSeconds now bucket

namespace RateGuard

/-- `_buckets[key] = bucket`, or `_buckets.pop(key, None)`. -/
def set (s : RateGuard K) (key : RateKey) (bucket : Option (List K)) : RateGuard K where
  buckets := Function.update s.buckets key bucket

def isRateLimited (s : RateGuard K) (key : RateKey) (now : K) : RateGuard K × Bool :=
  let limit := limitFor key.2
  match s.buckets key with
  | none | some [] => (s, false)
  | some bucket =>
    let bucket := pruneBucket now bucket
    if bucket = [] then (s.set key none, false)
    else (s.set key (some bucket), limit ≤ bucket.length)

def tryAcquirePerUserSlot (s : RateGuard K) (key : RateKey) (now : K) : RateGuard K × Bool :=
  let limit := limitFor key.2
  let bucket := pruneBucket now ((s.buckets key).getD [])
  if limit ≤ bucket.length then (s.set key (if bucket = [] then none else some bucket), false)
  else (s.set key (some (bucket ++ [now])), true)

def afterCall (s : RateGuard K) : RateCall K → RateGuard K
  | .acquire key now => (s.tryAcquirePerUserSlot key now).1
  | .check key now => (s.isRateLimited key now).1

def acquires (s : RateGuard K) : List (RateCall K) → List ((RateKey × K) × Bool)
  | [] => []
  | call@(.acquire key now) :: calls =>
    ((key, now), (s.tryAcquirePerUserSlot key now).2) :: (s.afterCall call).acquires calls
  | call@(.check _ _) :: calls => (s.afterCall call).acquires calls

def grantsOf (answers : List ((RateKey × K) × Bool)) (key : RateKey) : List K :=
  answers.filterMap fun a => if a.1.1 = key ∧ a.2 = true then some a.1.2 else none

/-- The stamps of the calls that were let through. -/
def granted (s : RateGuard K) (calls : List (RateCall K)) (key : RateKey) : List K :=
  grantsOf (s.acquires calls) key

end RateGuard

end Guard

theorem limitFor_eq (action : String) : limitFor action = 5 := by
  unfold limitFor
  cases h : rateLimits.lookup action with
  | none => rfl
  | some n =>
    obtain ⟨before, after, hsplit, -⟩ := List.lookup_eq_some_iff.mp h
    have hall : ∀ p ∈ rateLimits, p.2 = 5 := by decide
    exact hall (action, n) (by rw [hsplit]; exact List.mem_append_right _ List.mem_cons_self)

namespace RateGuard
variable {K : Type}

theorem grantsOf_append (a b : List ((RateKey × K) × Bool)) (key : RateKey) :
    grantsOf (a ++ b) key = grantsOf a key ++ grantsOf b key :=
  List.filterMap_append

theorem grantsOf_singleton (key' : RateKey) (now : K) (answer : Bool) (key : RateKey) :
    grantsOf [((key', now), answer)] key = if key' = key ∧ answer = true then [now] else [] := by
  rw [grantsOf, List.filterMap_cons, List.filterMap_nil]
  split <;> simp_all

theorem lastNow_le [Preorder K] {last now : K} {calls : List (RateCall K)} (hlast : last ≤ now)
    (h : ∀ call ∈ calls, call.now ≤ now) : run (fun _ call => call.now) last calls ≤ now := by
  induction calls generalizing last with
  | nil => exact hlast
  | cons call calls ih =>
    exact ih (h call List.mem_cons_self) fun c hc => h c (List.mem_cons_of_mem _ hc)

@[simp] theorem buckets_set_self (s : RateGuard K) (key : RateKey) (bucket : Option (List K)) :
    (s.set key bucket).buckets key = bucket := Function.update_self ..

theorem buckets_set_of_ne (s : RateGuard K) {key key' : RateKey} (h : key' ≠ key)
    (bucket : Option (List K)) : (s.set key bucket).buckets key' = s.buckets key' :=
  Function.update_of_ne h ..

variable [Field K] [LinearOrder K] {s s' : RateGuard K} {answers : List ((RateKey × K) × Bool)}
  {key : RateKey} {last now : K}

theorem acquires_append (s : RateGuard K) (a b : List (RateCall K)) :
    s.acquires (a ++ b) = s.acquires a ++ (run afterCall s a).acquires b := by
  induction a generalizing s with
  | nil => rfl
  | cons call a ih => cases call <;> simp [acquires, ih]

/-- The guard, after acquires with these answers the last of which came at `last` at the
latest: the buckets follow the granted calls, and these came while there was room. -/
structure Guarded (s : RateGuard K) (answers : List ((RateKey × K) × Bool)) (last : K) : Prop where
  follows : ∀ key,
    Follows rateWindowSeconds last ((s.buckets key).getD []) (grantsOf answers key)
  admitted : ∀ key, Admitted rateWindowSeconds (limitFor key.2) (grantsOf answers key)
  past : ∀ key, ∀ t ∈ grantsOf answers key, t ≤ last

theorem Guarded.empty (last : K) : Guarded {} [] last where
  follows _ := .nil
  admitted _ := .nil
  past _ _ ht := by cases ht

theorem Guarded.later (h : Guarded s answers last) (hnow : last ≤ now) : Guarded s answers now where
  follows key := (h.follows key).later hnow
  admitted := h.admitted
  past key t ht := (h.past key t ht).trans hnow

theorem Guarded.pruned (h : Guarded s answers last) (hnow : last ≤ now) (key : RateKey) :
    pruneBucket now ((s.buckets key).getD []) = inWindow rateWindowSeconds now (grantsOf answers key) ∧
      (pruneBucket now ((s.buckets key).getD [])).length =
        countWindow (now - rateWindowSeconds) now (grantsOf answers key) := by
  have hpruned := (h.follows key).dropExpired_eq hnow
  refine ⟨hpruned, ?_⟩
  rw [pruneBucket, hpruned, length_inWindow fun t ht => (h.past key t ht).trans hnow]

theorem Guarded.acquire_answer (h : Guarded s answers last) (hnow : last ≤ now) (key : RateKey) :
    (s.tryAcquirePerUserSlot key now).2 =
      decide (countWindow (now - rateWindowSeconds) now (grantsOf answers key) < limitFor key.2) := by
  have hlength := (h.pruned hnow key).2
  unfold tryAcquirePerUserSlot
  dsimp only
  split
  · rename_i hfull
    exact (decide_eq_false (by omega)).symm
  · rename_i hroom
    exact (decide_eq_true (by omega)).symm

theorem Guarded.set (h : Guarded s answers last) (hnow : last ≤ now) {bucket : Option (List K)}
    {answers' : List ((RateKey × K) × Bool)}
    (hfollows : Follows rateWindowSeconds now (bucket.getD []) (grantsOf answers' key))
    (hadmitted : Admitted rateWindowSeconds (limitFor key.2) (grantsOf answers' key))
    (hpast : ∀ t ∈ grantsOf answers' key, t ≤ now)
    (hothers : ∀ key', key' ≠ key → grantsOf answers' key' = grantsOf answers key') :
    Guarded (s.set key bucket) answers' now := by
  have hlater := h.later hnow
  constructor
  · intro key'
    by_cases hkey : key' = key
    · subst hkey
      rwa [buckets_set_self]
    · rw [buckets_set_of_ne s hkey, hothers key' hkey]
      exact hlater.follows key'
  · intro key'
    by_cases hkey : key' = key
    · exact hkey ▸ hadmitted
    · exact hothers key' hkey ▸ h.admitted key'
  · intro key' t ht
    by_cases hkey : key' = key
    · subst hkey
      exact hpast t ht
    · rw [hothers key' hkey] at ht
      exact hlater.past key' t ht

theorem check_answer (s : RateGuard K) (key : RateKey) (now : K) :
    (s.isRateLimited key now).2 = !(s.tryAcquirePerUserSlot key now).2 := by
  have hlimit := limitFor_eq key.2
  have hnil : pruneBucket now ([] : List K) = [] := rfl
  unfold isRateLimited tryAcquirePerUserSlot
  cases hbucket : s.buckets key with
  | none => simp [hnil, hlimit]
  | some bucket =>
    cases bucket with
    | nil => simp [hnil, hlimit]
    | cons t bucket =>
      dsimp only [Option.getD_some]
      generalize pruneBucket now (t :: bucket) = pruned
      by_cases hempty : pruned = []
      · simp [hempty, hlimit]
      · by_cases hfull : limitFor key.2 ≤ pruned.length <;> simp [hempty, hfull]

variable [IsStrictOrderedRing K]

theorem Guarded.acquire (h : Guarded s answers last) (hnow : last ≤ now) (key : RateKey) :
    Guarded (s.tryAcquirePerUserSlot key now).1
      (answers ++ [((key, now), (s.tryAcquirePerUserSlot key now).2)]) now := by
  have hanswer := h.acquire_answer hnow key
  have hlength := (h.pruned hnow key).2
  have hpruned : Follows rateWindowSeconds now (pruneBucket now ((s.buckets key).getD []))
      (grantsOf answers key) := (h.follows key).dropExpired hnow
  have hpast : ∀ t ∈ grantsOf answers key, t ≤ now := (h.later hnow).past key
  have hothers : ∀ key', key' ≠ key → ∀ answer,
      grantsOf (answers ++ [((key, now), answer)]) key' = grantsOf answers key' := by
    intro key' hkey answer
    rw [grantsOf_append, grantsOf_singleton, if_neg fun hboth => hkey hboth.1.symm, List.append_nil]
  rw [hanswer]
  unfold tryAcquirePerUserSlot
  dsimp only
  split
  · rename_i hfull
    have hgrants : grantsOf (answers ++ [((key, now), false)]) key = grantsOf answers key := by
      rw [grantsOf_append, grantsOf_singleton, if_neg (by simp), List.append_nil]
    rw [decide_eq_false (by omega)]
    refine h.set hnow ?_ (hgrants ▸ h.admitted key) (hgrants ▸ hpast) fun key' hkey =>
      hothers key' hkey _
    rw [hgrants]
    split
    · rename_i hempty
      rwa [hempty] at hpruned
    · exact hpruned
  · rename_i hroom
    have hgrants : grantsOf (answers ++ [((key, now), true)]) key = grantsOf answers key ++ [now] := by
      rw [grantsOf_append, grantsOf_singleton, if_pos ⟨rfl, rfl⟩]
    rw [decide_eq_true (by omega)]
    refine h.set hnow ?_ ?_ ?_ fun key' hkey => hothers key' hkey _
    · rw [hgrants]
      refine hpruned.append fun t ht => ?_
      rw [(h.pruned hnow key).1] at ht
      exact hpast t (List.mem_of_mem_filter ht)
    · rw [hgrants]
      exact .snoc (h.admitted key) hpast (by omega)
    · rw [hgrants]
      intro t ht
      rcases List.mem_append.mp ht with ht | ht
      · exact hpast t ht
      · exact (List.mem_singleton.mp ht).le

theorem Guarded.check (h : Guarded s answers last) (hnow : last ≤ now) (key : RateKey) :
    Guarded (s.isRateLimited key now).1 answers now := by
  have hpruned : Follows rateWindowSeconds now (pruneBucket now ((s.buckets key).getD []))
      (grantsOf answers key) := (h.follows key).dropExpired hnow
  unfold isRateLimited
  dsimp only
  split
  · exact h.later hnow
  · exact h.later hnow
  · rename_i bucket hbucket
    rw [hbucket, Option.getD_some] at hpruned
    split
    · rename_i hempty
      rw [hempty] at hpruned
      exact h.set hnow hpruned (h.admitted key) ((h.later hnow).past key) fun _ _ => rfl
    · exact h.set hnow hpruned (h.admitted key) ((h.later hnow).past key) fun _ _ => rfl

theorem Guarded.call (h : Guarded s answers last) (call : RateCall K) (hnow : last ≤ call.now) :
    Guarded (s.afterCall call) (answers ++ s.acquires [call]) call.now := by
  cases call with
  | acquire key now => exact h.acquire hnow key
  | check key now =>
    rw [show s.acquires [RateCall.check key now] = [] from rfl, List.append_nil]
    exact h.check hnow key

theorem Guarded.calls (h : Guarded s answers last) {calls : List (RateCall K)}
    (hmono : (calls.map (·.now)).Pairwise (· ≤ ·)) (hfirst : ∀ call ∈ calls, last ≤ call.now) :
    Guarded (run afterCall s calls) (answers ++ s.acquires calls)
      (run (fun _ call => call.now) last calls) := by
  induction calls generalizing s answers last with
  | nil =>
    rw [show s.acquires [] = [] from rfl, List.append_nil]
    exact h
  | cons call calls ih =>
    obtain ⟨hhead, htail⟩ := List.pairwise_cons.mp hmono
    have hstep := h.call call (hfirst call List.mem_cons_self)
    rw [← List.singleton_append, acquires_append, ← List.append_assoc]
    exact ih hstep htail fun c hc => hhead c.now (List.mem_map_of_mem hc)

theorem acquires_filter (h : Guarded s answers last) (h' : Guarded s' answers last) {calls : List (RateCall K)}
    (hmono : (calls.map (·.now)).Pairwise (· ≤ ·)) (hfirst : ∀ call ∈ calls, last ≤ call.now) :
    s'.acquires (calls.filter (·.isAcquire)) = s.acquires calls := by
  induction calls generalizing s s' answers last with
  | nil => rfl
  | cons call calls ih =>
    obtain ⟨hhead, htail⟩ := List.pairwise_cons.mp hmono
    have hnow : last ≤ call.now := hfirst call List.mem_cons_self
    have hrest : ∀ c ∈ calls, call.now ≤ c.now := fun c hc => hhead c.now (List.mem_map_of_mem hc)
    cases call with
    | acquire key now =>
      have hnow : last ≤ now := hnow
      have hsame : (s'.tryAcquirePerUserSlot key now).2 = (s.tryAcquirePerUserSlot key now).2 := by
        rw [h.acquire_answer hnow, h'.acquire_answer hnow]
      rw [List.filter_cons_of_pos rfl]
      simp only [acquires, hsame]
      exact congrArg _ (ih (h.acquire hnow key) (hsame ▸ h'.acquire hnow key) htail hrest)
    | check key now =>
      rw [List.filter_cons_of_neg (by simp [RateCall.isAcquire])]
      exact ih (h.check hnow key) (h'.later hnow) htail hrest

/-- **The guard is exact.**  Whatever calls come in time order, no half-open window of
ten seconds holds more granted calls than the limit; an acquire is refused exactly when
the window that ends at it holds as many as the limit; and a check says what the next
acquire will say, and without the checks every acquire is answered the same. -/
theorem rate_window_exact (calls : List (RateCall K))
    (hmono : (calls.map (·.now)).Pairwise (· ≤ ·)) :
    (∀ key (a : K), countWindow a (a + rateWindowSeconds) (({} : RateGuard K).granted calls key) ≤
        limitFor key.2 ∧
      (({} : RateGuard K).granted calls key).countP
        (fun t => a ≤ t && t < a + rateWindowSeconds) ≤ limitFor key.2) ∧
    (∀ before key now after, calls = before ++ .acquire key now :: after →
      (((run afterCall ({} : RateGuard K) before).tryAcquirePerUserSlot key now).2 = false ↔
        countWindow (now - rateWindowSeconds) now (({} : RateGuard K).granted before key) =
          limitFor key.2)) ∧
    (∀ before key now after, calls = before ++ .check key now :: after →
      ((run afterCall ({} : RateGuard K) before).isRateLimited key now).2 =
        !((run afterCall ({} : RateGuard K) before).tryAcquirePerUserSlot key now).2) ∧
    ({} : RateGuard K).acquires (calls.filter (·.isAcquire)) = ({} : RateGuard K).acquires calls := by
  obtain ⟨first, hfirst⟩ : ∃ first, ∀ call ∈ calls, first ≤ RateCall.now call := by
    cases calls with
    | nil => exact ⟨0, nofun⟩
    | cons call calls =>
      refine ⟨call.now, fun c hc => ?_⟩
      rcases List.mem_cons.mp hc with rfl | hc
      · exact le_rfl
      · exact (List.pairwise_cons.mp hmono).1 c.now (List.mem_map_of_mem hc)
  have hwhole := (Guarded.empty first).calls hmono hfirst
  -- the guard before a call of the run
  have hbefore : ∀ before call after, calls = before ++ call :: after →
      Guarded (run afterCall {} before) (({} : RateGuard K).acquires before) call.now := by
    rintro before call after rfl
    rw [List.map_append, List.pairwise_append] at hmono
    have hguard := (Guarded.empty first).calls hmono.1 fun c hc =>
      hfirst c (List.mem_append_left _ hc)
    refine hguard.later (lastNow_le (hfirst call (by simp)) fun c hc => ?_)
    exact hmono.2.2 _ (List.mem_map_of_mem hc) _ (List.mem_map_of_mem List.mem_cons_self)
  refine ⟨fun key a => ⟨count_window_le (hwhole.admitted key) a,
    count_window_le' (hwhole.admitted key) a⟩, ?_, fun before key now after _ => check_answer _ key now,
    acquires_filter (.empty first) (.empty first) hmono hfirst⟩
  intro before key now after hsplit
  have hguard := hbefore before _ after hsplit
  have hroom := count_window_le (hguard.admitted key) (now - rateWindowSeconds)
  rw [sub_add_cancel] at hroom
  rw [hguard.acquire_answer (le_refl now) key, decide_eq_false_iff_not, granted]
  change countWindow (now - rateWindowSeconds) now (grantsOf _ key) ≤ _ at hroom
  omega

/-- A check between two taps leaves the second as it was. -/
theorem rate_window_two_taps :
    ({} : RateGuard ℚ).acquires [.acquire (7, "query_ask") 0, .acquire (7, "query_ask") 10] =
      ({} : RateGuard ℚ).acquires [.acquire (7, "query_ask") 0, .check (7, "query_ask") 10,
        .acquire (7, "query_ask") 10] :=
  (rate_window_exact [.acquire (7, "query_ask") (0 : ℚ), .check (7, "query_ask") 10,
    .acquire (7, "query_ask") 10] (by decide)).2.2.2

end RateGuard

end HamZaboon
