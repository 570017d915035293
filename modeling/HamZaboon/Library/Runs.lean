import Mathlib.Data.List.Basic
import Mathlib.Tactic.Common

/-! # Runs of a deterministic machine

A machine is a step function from a state and an event to a state; whatever is
not determined (a failing call, the clock, a random draw) is part of the event.
A run folds the step over a list of events.  The two rules of this module turn
a fact about one step into a fact about every run: `run_invariant` for a
property every step keeps, and `meets_of_meets` for what the steps that meet a
condition meet besides.
-/

namespace HamZaboon.Library

variable {σ ε : Type} (step : σ → ε → σ)

/-- The state a run from `s` ends in. -/
def run (s : σ) (events : List ε) : σ := events.foldl step s

@[simp] theorem run_nil (s : σ) : run step s [] = s := rfl

@[simp] theorem run_cons (s : σ) (e : ε) (events : List ε) :
    run step s (e :: events) = run step (step s e) events := rfl

theorem run_append (s : σ) (a b : List ε) : run step s (a ++ b) = run step (run step s a) b :=
  List.foldl_append

/-- A property that every step keeps holds after every run. -/
theorem run_invariant {I : σ → Prop} (hstep : ∀ s e, I s → I (step s e)) {s : σ} (hs : I s)
    (events : List ε) : I (run step s events) := by
  induction events generalizing s with
  | nil => exact hs
  | cons e events ih => exact ih (hstep s e hs)

/-- Every step of the run meets `C` in the state it is taken from. -/
def Meets (C : σ → ε → Prop) (s : σ) : List ε → Prop
  | [] => True
  | e :: events => C s e ∧ Meets C (step s e) events

theorem meets_append {C : σ → ε → Prop} {s : σ} {a b : List ε} :
    Meets step C s (a ++ b) ↔ Meets step C s a ∧ Meets step C (run step s a) b := by
  induction a generalizing s with
  | nil => simp [Meets]
  | cons e a ih => simp only [List.cons_append, Meets, ih, run_cons, and_assoc]

theorem meets_and {C D : σ → ε → Prop} {s : σ} {events : List ε} :
    Meets step (fun s e => C s e ∧ D s e) s events ↔
      Meets step C s events ∧ Meets step D s events := by
  induction events generalizing s with
  | nil => simp [Meets]
  | cons e events ih =>
    simp only [Meets, ih]
    exact and_and_and_comm

theorem meets_congr {C D : σ → ε → Prop} (h : ∀ s e, C s e ↔ D s e) {s : σ} {events : List ε} :
    Meets step C s events ↔ Meets step D s events := by
  induction events generalizing s with
  | nil => exact Iff.rfl
  | cons e events ih => simp only [Meets, ih, h]

theorem meets_congr_of_meets {C D E : σ → ε → Prop} (h : ∀ s e, E s e → (C s e ↔ D s e)) {s : σ}
    {events : List ε} (hE : Meets step E s events) :
    Meets step C s events ↔ Meets step D s events := by
  induction events generalizing s with
  | nil => exact Iff.rfl
  | cons e events ih => simp only [Meets, h s e hE.1, ih hE.2]

theorem meets_of_invariant {I : σ → Prop} {C : σ → ε → Prop}
    (hstep : ∀ s e, I s → I (step s e)) (hC : ∀ s e, I s → C s e) {s : σ} (hs : I s)
    (events : List ε) : Meets step C s events := by
  induction events generalizing s with
  | nil => trivial
  | cons e events ih => exact ⟨hC s e hs, ih (hstep s e hs)⟩

/-- Where an invariant is kept by the steps that meet `C`, a run that meets `C`
meets whatever such steps meet in the states of the invariant. -/
theorem meets_of_meets {I : σ → Prop} {C D : σ → ε → Prop}
    (hstep : ∀ s e, I s → C s e → I (step s e)) (hD : ∀ s e, I s → C s e → D s e) {s : σ} (hs : I s) :
    ∀ {events : List ε}, Meets step C s events → Meets step D s events := by
  intro events
  induction events generalizing s with
  | nil => exact fun _ => trivial
  | cons e events ih => exact fun h => ⟨hD s e hs h.1, ih (hstep s e hs h.1) h.2⟩

/-- Two conditions that agree in the states of an invariant agree on runs, where the
steps that meet them keep it. -/
theorem meets_iff_of_invariant {I : σ → Prop} {C D : σ → ε → Prop} (h : ∀ s e, I s → (C s e ↔ D s e))
    (hstep : ∀ s e, I s → D s e → I (step s e)) {s : σ} (hs : I s) (events : List ε) :
    Meets step C s events ↔ Meets step D s events := by
  induction events generalizing s with
  | nil => exact Iff.rfl
  | cons e events ih =>
    rw [Meets, Meets, h s e hs]
    exact and_congr_right fun hD => ih (hstep s e hs hD)

theorem related_of_meets {R : σ → σ → Prop} (hrefl : ∀ s, R s s)
    (htrans : ∀ a b c, R a b → R b c → R a c) {s : σ} {events : List ε}
    (h : Meets step (fun s e => R s (step s e)) s events) : R s (run step s events) := by
  induction events generalizing s with
  | nil => exact hrefl s
  | cons e events ih => exact htrans _ _ _ h.1 (ih h.2)

/-- A preorder on states relates every two moments of a run exactly when it
relates the two ends of every step. -/
theorem related_iff_meets {R : σ → σ → Prop} (hrefl : ∀ s, R s s)
    (htrans : ∀ a b c, R a b → R b c → R a c) {s : σ} {events : List ε} :
    (∀ a b c, events = a ++ b ++ c → R (run step s a) (run step s (a ++ b))) ↔
      Meets step (fun s e => R s (step s e)) s events := by
  constructor
  · intro h
    induction events generalizing s with
    | nil => trivial
    | cons e events ih =>
      refine ⟨h [] [e] events rfl, ih fun a b c heq => ?_⟩
      exact h (e :: a) b c (by rw [heq]; rfl)
  · rintro h a b c rfl
    rw [run_append]
    have hb := ((meets_append step).mp ((meets_append step).mp h).1).2
    exact related_of_meets step hrefl htrans hb

/-- `P` holds in every state of the run, the first and the last included. -/
def Always (P : σ → Prop) (s : σ) : List ε → Prop
  | [] => P s
  | e :: events => P s ∧ Always P (step s e) events

theorem always_congr {P Q : σ → Prop} (h : ∀ s, P s ↔ Q s) {s : σ} {events : List ε} :
    Always step P s events ↔ Always step Q s events := by
  induction events generalizing s with
  | nil => exact h s
  | cons e events ih => simp only [Always, ih, h]

theorem Always.last {P : σ → Prop} {s : σ} {events : List ε} (h : Always step P s events) :
    P (run step s events) := by
  induction events generalizing s with
  | nil => exact h
  | cons e events ih => exact ih h.2

theorem always_of_meets {I P : σ → Prop} {C : σ → ε → Prop} (hP : ∀ s, I s → P s)
    (hstep : ∀ s e, I s → C s e → I (step s e)) {s : σ} (hs : I s) :
    ∀ {events : List ε}, Meets step C s events → Always step P s events := by
  intro events
  induction events generalizing s with
  | nil => exact fun _ => hP s hs
  | cons e events ih => exact fun h => ⟨hP s hs, ih (hstep s e hs h.1) h.2⟩

/-- Where a step leads to `P` exactly when it meets `C`, a run stays in `P`
exactly when all its steps meet `C`. -/
theorem always_iff_meets {I P : σ → Prop} {C : σ → ε → Prop} (hP : ∀ s, I s → P s)
    (hstep : ∀ s e, I s → C s e → I (step s e)) (honly : ∀ s e, I s → P (step s e) → C s e)
    {s : σ} (hs : I s) (events : List ε) :
    Always step P s events ↔ Meets step C s events := by
  refine ⟨?_, always_of_meets step hP hstep hs⟩
  induction events generalizing s with
  | nil => exact fun _ => trivial
  | cons e events ih =>
    intro h
    have hnext : P (step s e) := by
      cases events with
      | nil => exact h.2
      | cons e' events => exact h.2.1
    have hC := honly s e hs hnext
    exact ⟨hC, ih (hstep s e hs hC) h.2⟩

end HamZaboon.Library
