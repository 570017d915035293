import Mathlib.Algebra.Order.Group.Defs
import Mathlib.Algebra.Order.Sub.Basic
import Mathlib.Data.List.Basic
import Mathlib.Data.List.TakeWhile
import Mathlib.Tactic.Common

/-! # Sliding windows over a log of stamps

Stamps come in time order.  A buffer that drops its oldest stamps as they leave the
window follows the whole log: whoever looks from now on sees the same stamps in
both (`Follows`).  And where a stamp was only ever added while fewer than a limit
stood in the window behind it, no window of that width has more than the limit
(`count_window_le`).
-/

namespace HamZaboon.Library

variable {T : Type} [AddCommGroup T] [LinearOrder T] (width : T)

/-- The stamps in the window that ends now, or later. -/
def inWindow (now : T) (stamps : List T) : List T := stamps.filter (now - width < ·)

/-- The oldest stamps are dropped until one is in the window. -/
def dropExpired (now : T) (stamps : List T) : List T := stamps.dropWhile (· ≤ now - width)

/-- The stamps of a half-open window. -/
def countWindow (a b : T) (stamps : List T) : Nat := stamps.countP fun t => a < t && t ≤ b

variable {width} {last now : T} {buffer log : List T}

theorem dropExpired_sublist : (dropExpired width now buffer).Sublist buffer := List.dropWhile_sublist _

theorem dropExpired_of_sorted (hsorted : buffer.Pairwise (· ≤ ·)) :
    dropExpired width now buffer = inWindow width now buffer := by
  induction buffer with
  | nil => rfl
  | cons t buffer ih =>
    obtain ⟨hhead, htail⟩ := List.pairwise_cons.mp hsorted
    by_cases ht : t ≤ now - width
    · rw [dropExpired, List.dropWhile_cons_of_pos (by simpa using ht), inWindow,
        List.filter_cons_of_neg (by simpa using ht)]
      exact ih htail
    · have hall : ∀ u ∈ buffer, now - width < u := fun u hu => (not_le.mp ht).trans_le (hhead u hu)
      rw [dropExpired, List.dropWhile_cons_of_neg (by simpa using ht), inWindow,
        List.filter_cons_of_pos (by simpa using ht), List.filter_eq_self.mpr (by simpa using hall)]

theorem inWindow_append (a b : List T) :
    inWindow width now (a ++ b) = inWindow width now a ++ inWindow width now b :=
  List.filter_append ..

theorem length_inWindow (h : ∀ t ∈ log, t ≤ now) :
    (inWindow width now log).length = countWindow (now - width) now log := by
  rw [inWindow, ← List.countP_eq_length_filter, countWindow]
  refine List.countP_congr fun t ht => ?_
  simp [h t ht]

/-- Whoever looks at the buffer from `last` on sees the log. -/
structure Follows (width last : T) (buffer log : List T) : Prop where
  sorted : buffer.Pairwise (· ≤ ·)
  sees : ∀ t, last ≤ t → inWindow width t buffer = inWindow width t log

theorem Follows.nil : Follows width last [] [] := ⟨.nil, fun _ _ => rfl⟩

theorem Follows.later (h : Follows width last buffer log) (hnow : last ≤ now) :
    Follows width now buffer log :=
  ⟨h.sorted, fun t ht => h.sees t (hnow.trans ht)⟩

theorem Follows.dropExpired_eq (h : Follows width last buffer log) (hnow : last ≤ now) :
    dropExpired width now buffer = inWindow width now log := by
  rw [dropExpired_of_sorted h.sorted, h.sees now hnow]

theorem Follows.append (h : Follows width now buffer log) (hlast : ∀ t ∈ buffer, t ≤ now) :
    Follows width now (buffer ++ [now]) (log ++ [now]) where
  sorted := List.pairwise_append.mpr
    ⟨h.sorted, List.pairwise_singleton _ _, fun t ht u hu => List.mem_singleton.mp hu ▸ hlast t ht⟩
  sees t ht := by rw [inWindow_append, inWindow_append, h.sees t ht]

/-- Stamps that were added while fewer than the limit stood in the window. -/
inductive Admitted (width : T) (limit : Nat) : List T → Prop
  | nil : Admitted width limit []
  | snoc {log : List T} {now : T} : Admitted width limit log → (∀ t ∈ log, t ≤ now) →
      countWindow (now - width) now log < limit → Admitted width limit (log ++ [now])

section Order
variable [IsOrderedAddMonoid T]

theorem inWindow_inWindow {t : T} (h : now ≤ t) : inWindow width t (inWindow width now log) = inWindow width t log := by
  rw [inWindow, inWindow, inWindow, List.filter_filter]
  refine List.filter_congr fun u _ => ?_
  have hlive : t - width < u → now - width < u := (sub_le_sub_right h width).trans_lt
  simp only [Bool.and_eq_left_iff_imp, decide_eq_true_eq]
  exact hlive

theorem Follows.dropExpired (h : Follows width last buffer log) (hnow : last ≤ now) :
    Follows width now (dropExpired width now buffer) log where
  sorted := h.sorted.sublist dropExpired_sublist
  sees t ht := by rw [h.dropExpired_eq hnow, inWindow_inWindow ht]

/-- No window has more than the limit. -/
theorem count_window_le {limit : Nat} (h : Admitted width limit log) (a : T) :
    countWindow a (a + width) log ≤ limit := by
  induction h with
  | nil => exact Nat.zero_le _
  | @snoc log now _ hlast hfew ih =>
    rw [countWindow, List.countP_append, List.countP_singleton]
    split
    · rename_i hin
      simp only [Bool.and_eq_true, decide_eq_true_eq] at hin
      -- what the window has of the log is in the window that ends now
      have hle : log.countP (fun t => decide (a < t) && decide (t ≤ a + width)) ≤
          countWindow (now - width) now log := by
        refine List.countP_mono_left fun t ht htin => ?_
        simp only [Bool.and_eq_true, decide_eq_true_eq] at htin ⊢
        exact ⟨(sub_le_iff_le_add.mpr hin.2).trans_lt htin.1, hlast t ht⟩
      omega
    · exact ih

theorem count_window_le' {limit : Nat} (h : Admitted width limit log) (a : T) :
    log.countP (fun t => a ≤ t && t < a + width) ≤ limit := by
  induction h with
  | nil => exact Nat.zero_le _
  | @snoc log now _ hlast hfew ih =>
    rw [List.countP_append, List.countP_singleton]
    split
    · rename_i hin
      simp only [Bool.and_eq_true, decide_eq_true_eq] at hin
      have hle : log.countP (fun t => decide (a ≤ t) && decide (t < a + width)) ≤
          countWindow (now - width) now log := by
        refine List.countP_mono_left fun t ht htin => ?_
        simp only [Bool.and_eq_true, decide_eq_true_eq] at htin ⊢
        exact ⟨(sub_lt_iff_lt_add.mpr hin.2).trans_le htin.1, hlast t ht⟩
      omega
    · exact ih

end Order

end HamZaboon.Library
