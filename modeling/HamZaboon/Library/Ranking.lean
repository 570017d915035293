import HamZaboon.Library.Numerals
import Mathlib.Data.Char
import Mathlib.Data.List.Lex
import Mathlib.Data.List.Sort
import Mathlib.Data.List.TakeWhile
import Mathlib.Tactic.Common

/-! # Sorting by a key

`ORDER BY` and `sorted(…, key=…)`: rows in the order of a key.  When no two
rows share a key there is only one sorted arrangement (`sortBy_eq_of_perm`), so
a selection from the sorted rows is the sorted selection (`filter_sortBy`).
-/

namespace HamZaboon.Library

variable {α β : Type} [LinearOrder β] (key : α → β)

/-- The rows in the order of `key`. -/
def sortBy (l : List α) : List α := l.insertionSort fun a b => key a ≤ key b

theorem sortBy_perm (l : List α) : (sortBy key l).Perm l := List.perm_insertionSort _ l

@[simp] theorem mem_sortBy {l : List α} {a : α} : a ∈ sortBy key l ↔ a ∈ l :=
  (sortBy_perm key l).mem_iff

theorem pairwise_sortBy (l : List α) : (sortBy key l).Pairwise fun a b => key a ≤ key b := by
  have htotal : Std.Total fun a b : α => key a ≤ key b := ⟨fun a b => le_total (key a) (key b)⟩
  have htrans : IsTrans α fun a b => key a ≤ key b := ⟨fun _ _ _ => le_trans⟩
  exact List.pairwise_insertionSort _ l

theorem sortBy_map {γ : Type} (f : γ → α) (l : List γ) :
    sortBy key (l.map f) = (sortBy (fun c => key (f c)) l).map f :=
  (List.map_insertionSort _ _ f l fun _ _ _ _ => Iff.rfl).symm

theorem stable_sortBy (l : List α) :
    (sortBy key l).Pairwise fun a b => key a < key b ∨ key a = key b ∧ [a, b].Sublist l := by
  induction l with
  | nil => exact .nil
  | cons x l ih =>
    have hle := pairwise_sortBy key (x :: l)
    rw [sortBy, List.insertionSort_cons, List.orderedInsert_eq_take_drop] at hle ⊢
    have hwide : (sortBy key l).Pairwise fun a b =>
        key a < key b ∨ key a = key b ∧ [a, b].Sublist (x :: l) :=
      ih.imp fun h => h.imp_right fun h => ⟨h.1, h.2.cons x⟩
    rw [← List.takeWhile_append_dropWhile (p := fun b => ¬key x ≤ key b) (l := sortBy key l),
      List.pairwise_append] at hwide
    obtain ⟨htake, hdrop, hcross⟩ := hwide
    refine List.pairwise_append.mpr ⟨htake, List.pairwise_cons.mpr ⟨fun b hb => ?_, hdrop⟩, ?_⟩
    · have hxb := (List.pairwise_cons.mp (List.pairwise_append.mp hle).2.1).1 b hb
      have hbl : b ∈ l := (mem_sortBy key).mp ((List.dropWhile_suffix _).mem hb)
      exact hxb.lt_or_eq.imp_right fun heq =>
        ⟨heq, (List.singleton_sublist.mpr hbl).cons_cons x⟩
    · intro a ha b hb
      rcases List.mem_cons.mp hb with rfl | hb
      · exact .inl (not_le.mp (by simpa using List.mem_takeWhile_imp ha))
      · exact hcross a ha b hb

theorem sortBy_eq_of_perm {l m : List α} (hperm : m.Perm l)
    (hsorted : m.Pairwise fun a b => key a < key b) : sortBy key l = m := by
  refine ((sortBy_perm key l).trans hperm.symm).eq_of_pairwise ?_
    (pairwise_sortBy key l) (hsorted.imp le_of_lt)
  intro a b _ hb hab hba
  by_contra hne
  have heq : key a = key b := le_antisymm hab hba
  have hinj : (m.map key).Nodup := List.pairwise_map.mpr (hsorted.imp ne_of_lt)
  have ha : a ∈ m := hperm.mem_iff.mpr ((mem_sortBy key).mp ‹_›)
  exact hne (List.inj_on_of_nodup_map hinj ha hb heq)

theorem pairwise_lt_sortBy {l : List α} (hinj : (l.map key).Nodup) :
    (sortBy key l).Pairwise fun a b => key a < key b := by
  have hnodup : (sortBy key l).Pairwise fun a b => key a ≠ key b :=
    List.pairwise_map.mp (((sortBy_perm key l).map key).nodup_iff.mpr hinj)
  exact (pairwise_sortBy key l).imp₂ (fun _ _ => lt_of_le_of_ne) hnodup

theorem filter_sortBy {l : List α} (hinj : (l.map key).Nodup) (p : α → Bool) :
    (sortBy key l).filter p = sortBy key (l.filter p) :=
  (sortBy_eq_of_perm key ((sortBy_perm key l).filter p)
    ((pairwise_lt_sortBy key hinj).filter p)).symm

theorem le_of_prefix_sortBy {l p : List α} (hp : p <+: sortBy key l) {a b : α} (ha : a ∈ p)
    (hb : b ∈ l) (hbp : b ∉ p) : key a ≤ key b := by
  obtain ⟨q, hq⟩ := hp
  have hsorted := pairwise_sortBy key l
  rw [← hq] at hsorted
  have hbq : b ∈ q := by
    have hmem : b ∈ p ++ q := by rwa [hq, mem_sortBy]
    exact (List.mem_append.mp hmem).resolve_left hbp
  exact (List.pairwise_append.mp hsorted).2.2 a ha b hbq

theorem mem_take_sortBy {l : List α} (hinj : (l.map key).Nodup) {a : α} (ha : a ∈ l) (n : Nat) :
    a ∈ (sortBy key l).take n ↔ (l.filter (key · < key a)).length < n := by
  obtain ⟨p, q, hsplit⟩ := List.append_of_mem ((mem_sortBy key).mpr ha)
  have hsorted := pairwise_lt_sortBy key hinj
  rw [hsplit, List.pairwise_append] at hsorted
  obtain ⟨-, hq, hp⟩ := hsorted
  have hbefore : ∀ b ∈ p, key b < key a := fun b hb => hp b hb a List.mem_cons_self
  have hafter : ∀ b ∈ q, key a < key b := (List.pairwise_cons.mp hq).1
  have hlength : (l.filter (key · < key a)).length = p.length := by
    rw [← ((sortBy_perm key l).filter _).length_eq, hsplit, List.filter_append,
      List.filter_eq_self.mpr fun b hb => decide_eq_true (hbefore b hb),
      List.filter_eq_nil_iff.mpr, List.append_nil]
    intro b hb
    rw [decide_eq_true_eq, not_lt]
    rcases List.mem_cons.mp hb with rfl | hb
    · exact le_refl _
    · exact (hafter b hb).le
  rw [hlength, hsplit]
  constructor
  · intro hmem
    by_contra hle
    rw [List.take_append_of_le_length (not_lt.mp hle)] at hmem
    exact lt_irrefl _ (hbefore a (List.mem_of_mem_take hmem))
  · intro hlt
    obtain ⟨k, rfl⟩ := Nat.exists_eq_add_of_lt hlt
    rw [List.take_append, List.take_of_length_le (by omega)]
    refine List.mem_append_right p ?_
    rw [show p.length + k + 1 - p.length = k + 1 by omega, List.take_succ_cons]
    exact List.mem_cons_self

theorem map_sortBy_eq {γ : Type} [DecidableEq γ] {name : α → γ} {l : List α} {order : List γ}
    (hperm : (l.map name).Perm order) (hnodup : order.Nodup)
    (hkey : ∀ a ∈ l, ∀ b ∈ l, order.idxOf (name a) < order.idxOf (name b) → key a < key b) :
    (sortBy key l).map name = order := by
  have hanti : ∀ a b, a ∈ (sortBy key l).map name → b ∈ order →
      order.idxOf a ≤ order.idxOf b → order.idxOf b ≤ order.idxOf a → a = b := by
    intro a b _ hb hab hba
    exact ((List.idxOf_inj hb).mp (le_antisymm hba hab)).symm
  have hsorted : ((sortBy key l).map name).Pairwise
      fun a b => order.idxOf a ≤ order.idxOf b := by
    refine List.pairwise_map.mpr ((pairwise_sortBy key l).imp_of_mem ?_)
    intro a b ha hb hle
    by_contra hlt
    exact absurd (hkey b ((mem_sortBy key).mp hb) a ((mem_sortBy key).mp ha) (not_le.mp hlt))
      (not_lt.mpr hle)
  have horder : order.Pairwise fun a b => order.idxOf a ≤ order.idxOf b := by
    refine List.pairwise_iff_getElem.mpr fun i j hi hj hij => ?_
    rw [hnodup.idxOf_getElem i hi, hnodup.idxOf_getElem j hj]
    exact hij.le
  exact (((sortBy_perm key l).map name).trans hperm).eq_of_pairwise hanti hsorted horder

theorem textLe_iff {xs ys : List Char} : textLe xs ys = true ↔ xs ≤ ys := by
  rw [← not_lt]
  induction xs generalizing ys with
  | nil => simp [textLe]
  | cons a as ih =>
    cases ys with
    | nil => simp [textLe]
    | cons b bs =>
      rw [textLe, List.cons_lt_cons_iff]
      by_cases hab : a = b
      · rw [if_pos hab, ih]
        simp [hab]
      · rw [if_neg hab, decide_eq_true_eq]
        have hlt : a.toNat < b.toNat ↔ a < b := Iff.rfl
        simp [hlt, Ne.symm hab, lt_iff_le_and_ne, hab]

end HamZaboon.Library
