import Mathlib.Data.List.Basic
import Mathlib.Data.List.TakeWhile
import Mathlib.Tactic.Common

/-! # Logs with marks

A log is a list of entries, newest first.  Marks divide it into stretches, and
`AtMostOnce` says that no stretch holds an entry twice.  Adding an entry keeps
this when the entry is new in the stretch it opens or joins.
-/

namespace HamZaboon.Library

variable {α : Type} [DecidableEq α]

def sinceMark (mark : α) (log : List α) : List α := log.takeWhile (· ≠ mark)

/-- Between two marks, `x` occurs at most once. -/
def AtMostOnce (mark x : α) (log : List α) : Prop :=
  ∀ newer stretch older, log = newer ++ stretch ++ older → mark ∉ stretch → stretch.count x ≤ 1

@[simp] theorem sinceMark_mark (mark : α) (log : List α) : sinceMark mark (mark :: log) = [] := by
  simp [sinceMark]

theorem sinceMark_cons {mark y : α} (h : y ≠ mark) (log : List α) :
    sinceMark mark (y :: log) = y :: sinceMark mark log := by
  simp [sinceMark, h]

theorem prefix_sinceMark {mark : α} {stretch older : List α} (h : mark ∉ stretch) :
    stretch <+: sinceMark mark (stretch ++ older) := by
  induction stretch with
  | nil => exact List.nil_prefix
  | cons y stretch ih =>
    obtain ⟨hy, hrest⟩ := not_or.mp (fun hmem => h (List.mem_cons.mpr hmem))
    rw [List.cons_append, sinceMark_cons (Ne.symm hy)]
    exact List.cons_prefix_cons.mpr ⟨rfl, ih hrest⟩

theorem atMostOnce_nil (mark x : α) : AtMostOnce mark x [] := by
  intro newer stretch older h _
  have hnil : stretch = [] := by
    simp only [List.nil_eq, List.append_eq_nil_iff] at h
    exact h.1.2
  rw [hnil]
  exact Nat.zero_le 1

theorem AtMostOnce.cons {mark x y : α} {log : List α} (h : AtMostOnce mark x log)
    (hnew : y = x → x ∉ sinceMark mark log) : AtMostOnce mark x (y :: log) := by
  intro newer stretch older heq hmark
  cases newer with
  | cons z newer =>
    exact h newer stretch older (List.cons.inj heq).2 hmark
  | nil =>
    cases stretch with
    | nil => exact Nat.zero_le 1
    | cons z stretch =>
      obtain ⟨rfl, rfl⟩ := List.cons.inj heq
      have hrest : mark ∉ stretch := fun hmem => hmark (List.mem_cons_of_mem _ hmem)
      rw [List.count_cons]
      by_cases hyx : y = x
      · -- `y` is the first `x` of its stretch
        have hzero : stretch.count x = 0 :=
          List.count_eq_zero.mpr fun hmem =>
            hnew hyx ((prefix_sinceMark hrest).subset hmem)
        rw [hzero]
        split <;> omega
      · have hone := h [] stretch older rfl hrest
        simpa [hyx] using hone

end HamZaboon.Library
