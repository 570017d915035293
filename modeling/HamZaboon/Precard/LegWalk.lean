import HamZaboon.Precard.Transport

/-! # The walk of a leg

`factory/precard/leg_walk.py` with the tables behind it: the providers that a leg tries in
their order, each with its models and its target.  No provider is free, so a walk has one
provider at most (`length_resolveLegWalk`), and one that has a name has its walk
(`resolveLegWalk_named`).

A target without a provider is called once and without a key; any other goes through the
rotation of the keys.
-/

namespace HamZaboon
open Library

def legs : List String := ["inflection_review", "sense_judge", "topic_vectors", "topic_label"]

def freeProviders : List String := []

def switchOrder : List String := ["avalai", "google"]

/-- `LEG_FALLBACKS`: the models with their costs. -/
def legFallbacks : List ((String × String) × List (String × String)) :=
  (legs.map fun leg => (("avalai", leg), [("glm-5.3-flash", "paid")])) ++
    legs.map fun leg => (("google", leg), [("gemini-3.5-flash-lite", "paid")])

structure LegStep where
  provider : String
  models : List String
  target : String
  deriving DecidableEq, Repr

section Tables
variable (lib : StrLib)

def legChain (provider leg : String) : List String :=
  ((legFallbacks.lookup (lib.normProvider (some provider), leg)).getD []).map (·.1)

def mayAutoSwitch (provider : String) : Bool := lib.normProvider (some provider) ∈ freeProviders

/-- `switch_plan`; none for an unknown step. -/
def switchPlan (provider step : String) : Option (List String) :=
  let base := lib.normProvider (some provider)
  if step ∉ legs then none
  else if mayAutoSwitch lib base then
    some (base :: switchOrder.filter fun p => p ≠ base && (legFallbacks.lookup (p, step)).isSome)
  else some [base]

/-- `target_for`, under the flag-listed providers. -/
def targetFor (provider : String) (tunneled : List String) : String :=
  let want := lib.normProvider (some provider)
  match targets.find? fun row => row.2.provider.any fun p => lib.normProvider (some p) = want with
  | some row => row.1
  | none => if want ≠ "" && isTunneled lib (some want) false tunneled then want else "avalai"

/-- The steps of `resolve_leg_walk`; `ringed` are the providers of `rings`. -/
def resolveLegWalk (tunneled : List String) (leg provider : String)
    (baseModels ringed : Option (List String)) : Option (List LegStep) :=
  let norm := lib.normProvider (some provider)
  let base := if norm = "" then "avalai" else norm
  (switchPlan lib provider leg).map fun plan =>
    (plan.filter fun p => p = base || ringed.any (p ∈ ·)).map fun eff =>
      ⟨eff, if eff = base then baseModels.getD (legChain lib eff leg) else legChain lib eff leg,
        targetFor lib eff tunneled⟩

/-- `cooldown_continues`, with these steps still ahead. -/
def cooldownContinues (ahead : List LegStep) : Bool := !ahead.isEmpty

/-- How an answer ends a call that no rotation wraps, as the loops of the legs take it. -/
def directEnd : Answer → CallResult
  | .reply text pair => if pair then .text text else .failed
  | .httpError code _ =>
    if code = 401 || code = 403 then .authError else if code = 429 then .exhausted else .failed
  | .rateLimited => .rateLimited
  | .providerCooldown => .providerCooldown
  | .locationBlocked => .locationBlocked
  | .authError => .authError
  | .timeout | .failed => .failed

/-- `call_leg` with a ring; an unknown target raises before any call. -/
def LegStep.callLeg (step : LegStep) (ring : KeyRing) (script : Nat → Answer) : CallOutcome :=
  match targets.lookup (lib.normProvider (some step.target)) with
  | none => ⟨[], .failed, ring⟩
  | some ⟨none, _⟩ => ⟨[(ring.idx, script 0)], directEnd (script 0), ring⟩
  | some ⟨some provider, _⟩ => callWithRotation ⟨lib, provider, none⟩ ring script

/-- The answer is a quota failure: one that rotates, or without a rotation a 429. -/
def LegStep.refuses (step : LegStep) (answer : Answer) : Bool :=
  match targets.lookup (lib.normProvider (some step.target)), answer with
  | some ⟨some provider, _⟩, answer => (CallConfig.mk lib provider none).rotateClass answer
  | some ⟨none, _⟩, .httpError code _ => code = 429
  | some ⟨none, _⟩, .rateLimited => true
  | _, _ => false

end Tables

/-! ## The length of a walk -/

section Walk
variable {lib : StrLib} {tunneled : List String} {leg provider : String}
  {baseModels ringed : Option (List String)} {steps : List LegStep}

theorem switchPlan_eq_some {step : String} {plan : List String}
    (h : switchPlan lib provider step = some plan) : plan = [lib.normProvider (some provider)] := by
  unfold switchPlan mayAutoSwitch freeProviders at h
  simp only [List.not_mem_nil, decide_false, Bool.false_eq_true, if_false] at h
  split at h
  · cases h
  · exact (Option.some.inj h).symm

theorem length_resolveLegWalk
    (h : resolveLegWalk lib tunneled leg provider baseModels ringed = some steps) :
    steps.length ≤ 1 := by
  obtain ⟨plan, hplan, rfl⟩ := Option.map_eq_some_iff.mp h
  rw [switchPlan_eq_some hplan, List.length_map]
  exact List.length_filter_le _ _

theorem resolveLegWalk_named (hleg : leg ∈ legs) (hname : lib.normProvider (some provider) ≠ "") :
    ∃ step, resolveLegWalk lib tunneled leg provider baseModels ringed = some [step] := by
  have hplan : switchPlan lib provider leg = some [lib.normProvider (some provider)] := by
    cases hsome : switchPlan lib provider leg with
    | none =>
      unfold switchPlan mayAutoSwitch freeProviders at hsome
      simp [hleg] at hsome
    | some plan => rw [switchPlan_eq_some hsome]
  simp [resolveLegWalk, hplan, hname]

end Walk

/-! ## What a call answers -/

section Calls
variable {lib : StrLib} {ring : KeyRing} {script : Nat → Answer}

theorem reply_of_directEnd {a : Answer} {text : String} (h : directEnd a = .text text) :
    ∃ pair, a = .reply text pair := by
  cases a with
  | reply t pair =>
    cases pair with
    | true => exact ⟨true, by rw [CallResult.text.inj h]⟩
    | false => cases h
  | httpError code body =>
    simp only [directEnd] at h
    split at h
    · cases h
    · split at h <;> cases h
  | _ => cases h

theorem reply_of_rotationEnd {cfg : CallConfig} {a : Answer} {text : String}
    (h : cfg.rotationEnd a = some (.text text)) : ∃ pair, a = .reply text pair := by
  cases a with
  | reply t pair => exact ⟨pair, by rw [CallResult.text.inj (Option.some.inj h)]⟩
  | httpError code body => exact absurd rfl (kind_httpEnd h)
  | _ => cases Option.some.inj h

theorem reply_of_callWithRotation {cfg : CallConfig} {text : String}
    (h : (callWithRotation cfg ring script).result = .text text) :
    ∃ pair, .reply text pair ∈ (callWithRotation cfg ring script).tried.map (·.2) := by
  fun_induction callWithRotation cfg ring script with
  | case1 ring script t hend =>
    obtain rfl : t = text := CallResult.text.inj h
    obtain ⟨pair, hpair⟩ := reply_of_rotationEnd hend
    exact ⟨pair, by simp [hpair]⟩
  | case2 ring script result hother => exact absurd h (hother text)
  | case3 ring script _ hmore ih =>
    obtain ⟨pair, hpair⟩ := ih h
    exact ⟨pair, List.mem_cons_of_mem _ hpair⟩
  | case4 => cases h

theorem refused_of_callWithRotation {cfg : CallConfig}
    (h : (callWithRotation cfg ring script).result.kind = .rateLimited) :
    ∀ a ∈ (callWithRotation cfg ring script).tried.map (·.2), cfg.rotateClass a = true := by
  fun_induction callWithRotation cfg ring script with
  | case1 => cases h
  | case2 ring script result _ hend =>
    intro a ha
    obtain rfl : a = script 0 := by simpa using ha
    cases hs : script 0 with
    | rateLimited => rfl
    | httpError code body =>
      rw [hs] at hend
      simp only [CallConfig.rotationEnd, CallConfig.httpEnd] at hend
      split at hend <;> cases hend <;> cases h
    | _ =>
      rw [hs] at hend
      obtain rfl := Option.some.inj hend
      cases h
  | case3 ring script hnone hmore ih =>
    intro a ha
    rcases List.mem_cons.mp ha with rfl | ha
    · exact rotateClass_of_httpRotates (rotationEnd_eq_none.mp hnone)
    · exact ih h a ha
  | case4 ring script hnone =>
    intro a ha
    obtain rfl : a = script 0 := by simpa using ha
    exact rotateClass_of_httpRotates (rotationEnd_eq_none.mp hnone)

theorem LegStep.reply_of_callLeg {step : LegStep} {text : String}
    (h : (step.callLeg lib ring script).result = .text text) :
    ∃ pair, .reply text pair ∈ (step.callLeg lib ring script).tried.map (·.2) := by
  unfold LegStep.callLeg at h ⊢
  split at h
  · cases h
  · obtain ⟨pair, hpair⟩ := reply_of_directEnd h
    exact ⟨pair, by simp [hpair]⟩
  · exact reply_of_callWithRotation h

theorem LegStep.refused_of_callLeg {step : LegStep}
    (h : (step.callLeg lib ring script).result.kind = .rateLimited) :
    (step.callLeg lib ring script).tried ≠ [] ∧
      ∀ a ∈ (step.callLeg lib ring script).tried.map (·.2), step.refuses lib a = true := by
  unfold LegStep.callLeg at h ⊢
  split at h
  · cases h
  · rename_i htarget
    refine ⟨List.cons_ne_nil _ _, fun a ha => ?_⟩
    obtain rfl : a = script 0 := by simpa using ha
    unfold LegStep.refuses
    rw [htarget]
    cases hs : script 0 with
    | httpError code body =>
      rw [hs] at h
      simp only [directEnd] at h
      split at h
      · cases h
      · split at h
        · rename_i hcode
          exact decide_eq_true hcode
        · cases h
    | reply text pair =>
      rw [hs] at h
      cases pair <;> cases h
    | rateLimited => rfl
    | _ =>
      rw [hs] at h
      cases h
  · rename_i htarget
    refine ⟨tried_callWithRotation _ _ _, fun a ha => ?_⟩
    unfold LegStep.refuses
    rw [htarget]
    exact refused_of_callWithRotation h a ha

end Calls
end HamZaboon
