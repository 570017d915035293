import Mathlib.Computability.StateTransition
import Mathlib.Tactic.Common

/-! # Forwarding pointers

Every element may point to a next one.  Following the pointers from an element
either ends or does not; an element on the way to an end is not met twice
(`not_reaches_back`).  `ends_of_redirect` and `avoids_of_redirect` say when an
element may be pointed elsewhere without losing the end of any way: exactly when
the way from its new target has an end and does not come back to it.
-/

namespace HamZaboon.Library

open Relation StateTransition

variable {α : Type} {next next' : α → Option α} {a b d e v : α}

/-- An element with a way to an end is not met again behind it. -/
theorem not_reaches_back (h : next a = some b) (hend : next e = none) (hae : Reaches next a e) :
    ¬ Reaches next b a := by
  induction hae using ReflTransGen.head_induction_on generalizing b with
  | refl =>
    rw [hend] at h
    cases h
  | @head x y hstep _ ih =>
    obtain rfl : b = y := Option.some.inj (h.symm.trans hstep)
    intro hback
    rcases ReflTransGen.cases_head hback with rfl | ⟨z, hz, hzx⟩
    · exact ih h .refl
    · exact ih hz (hzx.tail h)

theorem reaches_congr (h : ∀ b, Reaches next a b → next' b = next b) :
    Reaches next' a b ↔ Reaches next a b := by
  constructor
  · intro hreach
    induction hreach with
    | refl => exact .refl
    | tail _ hstep ih => exact ih.tail ((h _ ih).symm.trans hstep)
  · intro hreach
    induction hreach with
    | refl => exact .refl
    | tail hbefore hstep ih => exact ih.tail ((h _ hbefore).trans hstep)

/-! ## Pointing an element elsewhere -/

/-- When the way from the new target ends without coming back, every way that
ended still ends; `live` are the ends before, `live'` those after. -/
theorem ends_of_redirect {live live' : α → Prop} (hother : ∀ a, a ≠ d → next' a = next a)
    (hd : next' d = some v) (hlive : ∀ e, e ≠ d → live e → live' e)
    (hv : ∃ e, Reaches next v e ∧ live e) (havoid : ¬ Reaches next v d)
    (ha : a = d ∨ ∃ e, Reaches next a e ∧ live e) : ∃ e, Reaches next' a e ∧ live' e := by
  have hredirected : ∃ e, Reaches next' d e ∧ live' e := by
    obtain ⟨e, hreach, he⟩ := hv
    have hsame : ∀ b, Reaches next v b → next' b = next b := fun b hb =>
      hother b (fun heq => havoid (heq ▸ hb))
    refine ⟨e, ((reaches_congr hsame).mpr hreach).head hd, hlive e ?_ he⟩
    exact fun heq => havoid (heq ▸ hreach)
  rcases ha with rfl | ⟨e, hreach, he⟩
  · exact hredirected
  · induction hreach using ReflTransGen.head_induction_on with
    | refl =>
      by_cases hed : e = d
      · exact hed ▸ hredirected
      · exact ⟨e, .refl, hlive e hed he⟩
    | @head x y hstep _ ih =>
      by_cases hxd : x = d
      · exact hxd ▸ hredirected
      · obtain ⟨e', hreach, he'⟩ := ih
        exact ⟨e', hreach.head ((hother x hxd).trans hstep), he'⟩

/-- When the way from the redirected element ends, the way from its new target
ended before and did not come back. -/
theorem avoids_of_redirect (hother : ∀ a, a ≠ d → next' a = next a) (hd : next' d = some v)
    (hreach : Reaches next' d e) (hend : next' e = none) :
    Reaches next v e ∧ ¬ Reaches next v d := by
  have hback := not_reaches_back hd hend hreach
  have hsame : ∀ b, Reaches next' v b → next b = next' b := fun b hb =>
    (hother b (fun heq => hback (heq ▸ hb))).symm
  have hve : Reaches next' v e := by
    rcases ReflTransGen.cases_head hreach with rfl | ⟨y, hy, hye⟩
    · rw [hd] at hend
      cases hend
    · obtain rfl : y = v := Option.some.inj (hy.symm.trans hd)
      exact hye
  exact ⟨(reaches_congr hsame).mpr hve, fun h => hback ((reaches_congr hsame).mp h)⟩

end HamZaboon.Library
