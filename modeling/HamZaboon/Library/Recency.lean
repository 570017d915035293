import Mathlib.Data.List.Nodup
import Mathlib.Tactic.Common

/-! # Recency lists

A recency list holds one entry for each key, the latest first.  `touch` moves a
key to the front with a new entry; `recent` is the recency list of a log, newest
entry first.  Cutting a recency list to a length at every touch is cutting it once
at the end (`take_touch_take`).
-/

namespace HamZaboon.Library

variable {α κ : Type} [DecidableEq κ] (key : α → κ)

/-- The entry in front, and no other of its key. -/
def touch (a : α) (l : List α) : List α := a :: l.filter fun b => key b ≠ key a

/-- The recency list of a log that begins with its newest entry. -/
def recent : List α → List α
  | [] => []
  | a :: older => touch key a (recent older)

variable {key}

theorem mem_touch {a b : α} {l : List α} :
    b ∈ touch key a l ↔ b = a ∨ b ∈ l ∧ key b ≠ key a := by
  simp [touch]

theorem map_touch {β : Type} {key' : β → κ} {f : α → β} (hf : ∀ a, key' (f a) = key a) (a : α)
    (l : List α) : (touch key a l).map f = touch key' (f a) (l.map f) := by
  simp [touch, List.filter_map, hf, Function.comp_def]

theorem nodup_touch {a : α} {l : List α} (h : (l.map key).Nodup) :
    ((touch key a l).map key).Nodup := by
  rw [touch, List.map_cons, List.nodup_cons]
  constructor
  · intro hmem
    obtain ⟨b, hb, hkey⟩ := List.mem_map.mp hmem
    exact of_decide_eq_true (List.mem_filter.mp hb).2 hkey
  · exact h.sublist (List.filter_sublist.map key)

theorem nodup_recent (log : List α) : ((recent key log).map key).Nodup := by
  induction log with
  | nil => exact List.nodup_nil
  | cons a older ih => exact nodup_touch ih

theorem recent_sublist (log : List α) : (recent key log).Sublist log := by
  induction log with
  | nil => exact List.Sublist.refl []
  | cons a older ih => exact List.Sublist.cons_cons a (List.filter_sublist.trans ih)

theorem length_filter_ge {k : κ} {l : List α} (h : (l.map key).Nodup) :
    l.length ≤ (l.filter fun b => key b ≠ k).length + 1 := by
  induction l with
  | nil => simp
  | cons b l ih =>
    rw [List.map_cons, List.nodup_cons] at h
    by_cases hb : key b = k
    · have hrest : l.filter (fun c => key c ≠ k) = l := by
        refine List.filter_eq_self.mpr fun c hc => decide_eq_true fun heq => ?_
        exact h.1 (hb.trans heq.symm ▸ List.mem_map_of_mem hc)
      rw [List.filter_cons_of_neg (by simp [hb]), hrest]
      exact Nat.le_refl _
    · rw [List.filter_cons_of_pos (by simp [hb])]
      exact Nat.succ_le_succ (ih h.2)

theorem take_filter_take {p : α → Bool} {l : List α} {m n : Nat}
    (h : m ≤ ((l.take n).filter p).length) : ((l.take n).filter p).take m = (l.filter p).take m := by
  conv_rhs => rw [← List.take_append_drop n l, List.filter_append]
  rw [List.take_append_of_le_length h]

/-- **A bounded recency list** may be cut at every touch. -/
theorem take_touch_take {a : α} {l : List α} (h : (l.map key).Nodup) (n : Nat) :
    (touch key a (l.take n)).take n = (touch key a l).take n := by
  cases n with
  | zero => rfl
  | succ n =>
    rw [touch, touch, List.take_succ_cons, List.take_succ_cons]
    refine congrArg (a :: ·) ?_
    by_cases hlong : n + 1 ≤ l.length
    · refine take_filter_take ?_
      have hkeys : ((l.take (n + 1)).map key).Nodup := h.sublist ((List.take_sublist _ _).map key)
      have hone := length_filter_ge (k := key a) hkeys
      rw [List.length_take_of_le hlong] at hone
      omega
    · rw [List.take_of_length_le (by omega : l.length ≤ n + 1)]

end HamZaboon.Library
