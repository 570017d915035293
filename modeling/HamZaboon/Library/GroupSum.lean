import HamZaboon.Library.Table
import Mathlib.Algebra.BigOperators.Group.List.Basic
import Mathlib.Order.Basic
import Mathlib.Data.List.Sort

/-! # Grouped sums

`SELECT k, SUM(v) … GROUP BY k ORDER BY k`, as a list of pairs in strictly
increasing key order.  `addTo` adds one value to its group; `groupAdd` adds a
list of them to the groups already there.  A grouped sum is determined by which
keys it has and by the value at each (`grouped_ext`), and both are additive in
the rows added.
-/

namespace HamZaboon.Library

section Grouped
variable {κ α : Type} [LinearOrder κ] [AddCommMonoid α]

/-- Add `v` to the group of `k`. -/
def addTo (k : κ) (v : α) : List (κ × α) → List (κ × α)
  | [] => [(k, v)]
  | (k', v') :: rest =>
      if k < k' then (k, v) :: (k', v') :: rest
      else if k = k' then (k', v' + v) :: rest
      else (k', v') :: addTo k v rest

def groupAdd (groups : List (κ × α)) (rows : List (κ × α)) : List (κ × α) :=
  rows.foldl (fun m r => addTo r.1 r.2 m) groups

/-- Keys in strictly increasing order. -/
def Grouped (m : List (κ × α)) : Prop := m.Pairwise (fun a b => a.1 < b.1)

/-- The sum of the group of `k`, zero when there is none. -/
def groupAt (m : List (κ × α)) (k : κ) : α := ((m.filter (fun r => r.1 = k)).map (·.2)).sum

theorem mem_keys_addTo (k : κ) (v : α) (m : List (κ × α)) (x : κ) :
    x ∈ (addTo k v m).map (·.1) ↔ x = k ∨ x ∈ m.map (·.1) := by
  induction m with
  | nil => simp [addTo]
  | cons p rest ih =>
    obtain ⟨k', v'⟩ := p
    unfold addTo
    split
    · simp
    · split
      · rename_i h
        simp [h]
      · simp only [List.map_cons, List.mem_cons, ih]
        tauto

theorem Grouped.addTo {m : List (κ × α)} (h : Grouped m) (k : κ) (v : α) :
    Grouped (addTo k v m) := by
  induction m with
  | nil => exact List.pairwise_singleton _ _
  | cons p rest ih =>
    obtain ⟨k', v'⟩ := p
    obtain ⟨hhead, hrest⟩ := List.pairwise_cons.mp h
    unfold Library.addTo
    split
    · rename_i hlt
      refine List.pairwise_cons.mpr ⟨fun b hb => ?_, h⟩
      rcases List.mem_cons.mp hb with rfl | hb
      · exact hlt
      · exact lt_trans hlt (hhead b hb)
    · split
      · exact List.pairwise_cons.mpr ⟨hhead, hrest⟩
      · rename_i hnlt hne
        refine List.pairwise_cons.mpr ⟨fun b hb => ?_, ih hrest⟩
        rcases (mem_keys_addTo k v rest b.1).mp (List.mem_map_of_mem hb) with hk | hk
        · rw [hk]
          exact lt_of_le_of_ne (not_lt.mp hnlt) (Ne.symm hne)
        · obtain ⟨c, hc, hck⟩ := List.mem_map.mp hk
          exact hck ▸ hhead c hc

theorem groupAt_addTo (k : κ) (v : α) (m : List (κ × α)) (x : κ) :
    groupAt (addTo k v m) x = groupAt m x + if k = x then v else 0 := by
  induction m with
  | nil => by_cases h : k = x <;> simp [addTo, groupAt, h]
  | cons p rest ih =>
    obtain ⟨k', v'⟩ := p
    unfold addTo
    split
    · by_cases h : k = x <;> simp [groupAt, List.filter_cons, h, add_comm]
    · split
      · rename_i h
        subst h
        by_cases h : k = x <;> simp [groupAt, h, add_right_comm]
      · unfold groupAt at ih ⊢
        by_cases h : k' = x
        · simp only [List.filter_cons, h, decide_true, if_true, List.map_cons, List.sum_cons, ih,
            add_assoc]
        · simp only [List.filter_cons, h, decide_false, Bool.false_eq_true, if_false, ih]

theorem sum_addTo (k : κ) (v : α) (m : List (κ × α)) :
    ((addTo k v m).map (·.2)).sum = (m.map (·.2)).sum + v := by
  induction m with
  | nil => simp [addTo]
  | cons p rest ih =>
    unfold addTo
    split
    · rw [List.map_cons, List.sum_cons, add_comm]
    · split
      · simp only [List.map_cons, List.sum_cons]
        exact add_right_comm _ _ _
      · simp only [List.map_cons, List.sum_cons, ih, add_assoc]

theorem sum_groupAdd (m rows : List (κ × α)) :
    ((groupAdd m rows).map (·.2)).sum = (m.map (·.2)).sum + (rows.map (·.2)).sum := by
  induction rows generalizing m with
  | nil => simp [groupAdd]
  | cons r rows ih =>
    have hstep : groupAdd m (r :: rows) = groupAdd (addTo r.1 r.2 m) rows := rfl
    rw [hstep, ih, sum_addTo, List.map_cons, List.sum_cons, add_assoc]

theorem Grouped.groupAdd {m : List (κ × α)} (h : Grouped m) (rows : List (κ × α)) :
    Grouped (groupAdd m rows) := by
  induction rows generalizing m with
  | nil => exact h
  | cons r rows ih => exact ih (h.addTo r.1 r.2)

theorem mem_keys_groupAdd (m rows : List (κ × α)) (x : κ) :
    x ∈ (groupAdd m rows).map (·.1) ↔ x ∈ m.map (·.1) ∨ x ∈ rows.map (·.1) := by
  induction rows generalizing m with
  | nil => simp [groupAdd]
  | cons r rows ih =>
    have hstep : groupAdd m (r :: rows) = groupAdd (addTo r.1 r.2 m) rows := rfl
    rw [hstep, ih, mem_keys_addTo, List.map_cons, List.mem_cons]
    tauto

theorem groupAt_groupAdd (m rows : List (κ × α)) (x : κ) :
    groupAt (groupAdd m rows) x = groupAt m x + groupAt rows x := by
  induction rows generalizing m with
  | nil => simp [groupAdd, groupAt]
  | cons r rows ih =>
    have hstep : groupAdd m (r :: rows) = groupAdd (addTo r.1 r.2 m) rows := rfl
    rw [hstep, ih, groupAt_addTo, add_assoc]
    congr 1
    by_cases h : r.1 = x <;> simp [groupAt, h]

theorem Grouped.groupAt_eq {m : List (κ × α)} (h : Grouped m) {r : κ × α} (hr : r ∈ m) :
    groupAt m r.1 = r.2 := by
  induction m with
  | nil => cases hr
  | cons p rest ih =>
    obtain ⟨hhead, hrest⟩ := List.pairwise_cons.mp h
    have hp : ∀ x ∈ rest, ¬ x.1 = p.1 := fun x hx => ne_of_gt (hhead x hx)
    rcases List.mem_cons.mp hr with rfl | hr
    · have hnil : rest.filter (fun x => x.1 = r.1) = [] :=
        List.filter_eq_nil_iff.mpr (fun x hx => by simpa using hp x hx)
      simp [groupAt, hnil]
    · have := ih hrest hr
      unfold groupAt at this ⊢
      simpa [List.filter_cons, ne_of_lt (hhead r hr)] using this

/-- **Grouped sums are determined by their keys and values.** -/
theorem grouped_ext {a b : List (κ × α)} (ha : Grouped a) (hb : Grouped b)
    (hkeys : ∀ k, k ∈ a.map (·.1) ↔ k ∈ b.map (·.1)) (hval : ∀ k, groupAt a k = groupAt b k) :
    a = b := by
  have sortedKeys : ∀ {m : List (κ × α)}, Grouped m → (m.map (·.1)).Pairwise (· < ·) :=
    fun h => List.pairwise_map.mpr h
  have hperm : (a.map (·.1)).Perm (b.map (·.1)) :=
    (List.perm_ext_iff_of_nodup ((sortedKeys ha).imp ne_of_lt) ((sortedKeys hb).imp ne_of_lt)).mpr
      hkeys
  have hk : a.map (·.1) = b.map (·.1) :=
    hperm.eq_of_pairwise (fun x y _ _ hxy hyx => absurd hyx (lt_asymm hxy)) (sortedKeys ha)
      (sortedKeys hb)
  -- a grouped sum is rebuilt from its keys and values
  have rebuild : ∀ {m : List (κ × α)}, Grouped m →
      m = (m.map (·.1)).map (fun k => (k, groupAt m k)) := by
    intro m hm
    rw [List.map_map]
    conv_lhs => rw [← List.map_id m]
    exact List.map_congr_left (fun r hr => Prod.ext rfl (hm.groupAt_eq hr).symm)
  rw [rebuild ha, rebuild hb, hk]
  exact List.map_congr_left (fun k _ => by rw [hval])

end Grouped

/-! ## Sums over the groups of a key -/

section ByKey
variable {κ ρ α : Type} [DecidableEq κ] [AddCommMonoid α]

theorem sum_map_eq_zero {l : List ρ} {v : ρ → α} (h : ∀ r ∈ l, v r = 0) : (l.map v).sum = 0 := by
  refine List.sum_eq_zero (fun x hx => ?_)
  obtain ⟨r, hr, rfl⟩ := List.mem_map.mp hx
  exact h r hr

theorem sum_ite_eq {keys : List κ} (h : keys.Nodup) {k : κ} (hk : k ∈ keys) (v : α) :
    (keys.map (fun x => if k = x then v else 0)).sum = v := by
  induction keys with
  | nil => cases hk
  | cons x keys ih =>
    obtain ⟨hx, hnd⟩ := List.nodup_cons.mp h
    rw [List.map_cons, List.sum_cons]
    rcases List.mem_cons.mp hk with rfl | hk
    · have hrest : (keys.map (fun x => if k = x then v else 0)).sum = 0 :=
        sum_map_eq_zero (fun y hy => if_neg (fun he : k = y => hx (he ▸ hy)))
      rw [if_pos rfl, hrest, add_zero]
    · rw [if_neg (fun he : k = x => hx (he ▸ hk)), ih hnd hk, zero_add]

theorem sum_groups (key : ρ → κ) (v : ρ → α) {keys : List κ} (hnd : keys.Nodup) :
    ∀ {l : List ρ}, (∀ r ∈ l, key r ∈ keys) →
      (keys.map (fun k => ((l.filter (fun r => key r = k)).map v).sum)).sum = (l.map v).sum := by
  intro l
  induction l with
  | nil => exact fun _ => sum_map_eq_zero (fun _ _ => rfl)
  | cons r l ih =>
    intro h
    have hsplit : ∀ k, (((r :: l).filter (fun r => key r = k)).map v).sum =
        (if key r = k then v r else 0) + ((l.filter (fun r => key r = k)).map v).sum := by
      intro k
      by_cases hk : key r = k <;> simp [hk]
    simp only [hsplit]
    rw [List.sum_map_add, sum_ite_eq hnd (h r List.mem_cons_self),
      ih (fun x hx => h x (List.mem_cons_of_mem _ hx)), List.map_cons, List.sum_cons]

/-- An upsert that adds `r` to the row under its key adds the value of `r` to the
sum over the table. -/
theorem sum_upsert {key : ρ → κ} (t : KeyedTable κ ρ key) (r : ρ) {f : ρ → ρ}
    (hf : ∀ x, key (f x) = key x) {v : ρ → α} (hv : ∀ x, key x = key r → v (f x) = v x + v r) :
    ((t.upsert r f hf).rows.map v).sum = (t.rows.map v).sum + v r := by
  rw [KeyedTable.rows_upsert]
  split
  · rename_i h
    obtain ⟨x, hx, hxk⟩ := KeyedTable.has_iff.mp h
    have hpk := t.pk
    revert hx hpk
    generalize t.rows = rows
    intro hx hpk
    induction rows with
    | nil => cases hx
    | cons y rows ih =>
      obtain ⟨hy, hnd⟩ := List.nodup_cons.mp hpk
      simp only [List.map_cons, List.sum_cons]
      by_cases hyr : key y = key r
      · have hrest : rows.map (fun x => if key x = key r then f x else x) = rows := by
          conv_rhs => rw [← List.map_id rows]
          refine List.map_congr_left (fun z hz => if_neg (fun hzk => hy ?_))
          exact hyr.trans hzk.symm ▸ List.mem_map_of_mem hz
        rw [if_pos hyr, hrest, hv y hyr, add_right_comm]
      · rw [if_neg hyr, ih ((List.mem_cons.mp hx).resolve_left (fun h => hyr (h ▸ hxk))) hnd,
          add_assoc]
  · rw [List.map_append, List.sum_append, List.map_singleton, List.sum_singleton]

end ByKey

end HamZaboon.Library
