import HamZaboon.Library.Reservoir
import Mathlib.Algebra.BigOperators.Intervals
import Mathlib.Algebra.BigOperators.Ring.Finset
import Mathlib.Data.List.Perm.Subperm

/-! # The odds of a reservoir

The draws below given bounds are counted, each list of them once.  Followed from any
moment of the stream, an item held then stays in its place, and an item to come gets
one, in as many outcomes as the numbers of items seen by then and at the end say
(`ways_held`, `ways_new`).  Hence items of one level have the same odds
(`ways_uniform`), and any items that the caps admit are held together in some outcome
(`held_together`). -/

namespace HamZaboon.Library

/-- The lists of draws below the bounds. -/
def outcomes : List Nat → List (List Nat)
  | [] => [[]]
  | b :: bs => (List.range b).flatMap fun pick => (outcomes bs).map (pick :: ·)

theorem mem_outcomes_cons {b pick : Nat} {bs picks : List Nat} (hpick : pick < b)
    (h : picks ∈ outcomes bs) : pick :: picks ∈ outcomes (b :: bs) :=
  List.mem_flatMap.mpr ⟨pick, List.mem_range.mpr hpick, List.mem_map_of_mem h⟩

theorem countP_outcomes_cons (P : List Nat → Bool) (b : Nat) (bs : List Nat) :
    (outcomes (b :: bs)).countP P =
      ∑ pick ∈ Finset.range b, (outcomes bs).countP fun picks => P (pick :: picks) := by
  rw [outcomes, List.countP_flatMap]
  show ((List.range b).map fun pick => ((outcomes bs).map (pick :: ·)).countP P).sum = _
  simp only [List.countP_map]
  rfl

theorem length_outcomes_cons (b : Nat) (bs : List Nat) :
    (outcomes (b :: bs)).length = b * (outcomes bs).length := by
  simp [outcomes, List.length_flatMap]

namespace Reservoirs
variable {L α : Type} [DecidableEq L]

/-- A generator that gives the draws of a list. -/
def tape (picks : List Nat) (_ : Nat) : Nat × List Nat := (picks.headD 0, picks.tail)

variable (caps : L → Nat)

/-- What a level holds at the end of the stream, for a list of draws. -/
def heldAfter (seen : L → Nat) (held : L → List α) (stream : List (L × α)) (picks : List Nat)
    (level : L) : List α :=
  (run caps tape ⟨seen, held, picks⟩ stream).held level

/-- The number of outcomes in which the level holds the item. -/
def ways [DecidableEq α] (seen : L → Nat) (held : L → List α) (stream : List (L × α)) (level : L)
    (x : α) : Nat :=
  (outcomes (bounds caps seen stream)).countP fun picks =>
    x ∈ heldAfter caps seen held stream picks level

/-- The number of outcomes. -/
def allWays (seen : L → Nat) (stream : List (L × α)) : Nat :=
  (outcomes (bounds caps seen stream)).length

/-- The number of items seen at the end. -/
def lastSeen (seen : L → Nat) (stream : List (L × α)) (level : L) : Nat :=
  seen level + stream.countP fun y => y.1 = level

variable {caps}
variable {seen : L → Nat} {held : L → List α} {stream : List (L × α)} {level : L} {x : α}

theorem lastSeen_cons (y : L × α) :
    lastSeen seen (y :: stream) level = lastSeen (bump seen y.1) stream level := by
  unfold lastSeen
  rw [List.countP_cons]
  by_cases h : y.1 = level
  · rw [← h, bump_self]
    simp
    omega
  · rw [bump_of_ne (Ne.symm h)]
    simp [h]

/-! ## One item -/

theorem heldAfter_quiet (hf : Filled caps seen held) (hq : Quiet caps seen level)
    (picks : List Nat) :
    heldAfter caps seen held ((level, x) :: stream) picks =
      heldAfter caps (bump seen level) (addHeld caps held level x) stream picks := by
  unfold heldAfter
  rw [run, offer_quiet hf hq]

theorem heldAfter_drawn (hf : Filled caps seen held) (hq : ¬ Quiet caps seen level)
    (pick : Nat) (picks : List Nat) :
    heldAfter caps seen held ((level, x) :: stream) (pick :: picks) =
      heldAfter caps (bump seen level) (place caps held level pick x) stream picks := by
  unfold heldAfter
  rw [run, offer_drawn hf hq]
  rfl

theorem bounds_quiet (hq : Quiet caps seen level) :
    bounds caps seen ((level, x) :: stream) = bounds caps (bump seen level) stream :=
  if_pos hq

theorem bounds_drawn (hq : ¬ Quiet caps seen level) :
    bounds caps seen ((level, x) :: stream) =
      (seen level + 1) :: bounds caps (bump seen level) stream :=
  if_neg hq

theorem allWays_quiet (hq : Quiet caps seen level) :
    allWays caps seen ((level, x) :: stream) = allWays caps (bump seen level) stream := by
  rw [allWays, bounds_quiet hq, allWays]

theorem allWays_drawn (hq : ¬ Quiet caps seen level) :
    allWays caps seen ((level, x) :: stream) =
      (seen level + 1) * allWays caps (bump seen level) stream := by
  rw [allWays, bounds_drawn hq, length_outcomes_cons, allWays]

variable [DecidableEq α]

theorem ways_quiet {other : L} {y : α} (hf : Filled caps seen held) (hq : Quiet caps seen level) :
    ways caps seen held ((level, x) :: stream) other y =
      ways caps (bump seen level) (addHeld caps held level x) stream other y := by
  unfold ways
  rw [bounds_quiet hq]
  simp only [heldAfter_quiet hf hq]

theorem ways_drawn {other : L} {y : α} (hf : Filled caps seen held)
    (hq : ¬ Quiet caps seen level) :
    ways caps seen held ((level, x) :: stream) other y =
      ∑ pick ∈ Finset.range (seen level + 1),
        ways caps (bump seen level) (place caps held level pick x) stream other y := by
  unfold ways
  rw [bounds_drawn hq, countP_outcomes_cons]
  simp only [heldAfter_drawn hf hq]

theorem ways_absent (hheld : x ∉ held level) (hstream : x ∉ stream.map (·.2)) :
    ways caps seen held stream level x = 0 := by
  refine List.countP_eq_zero.mpr fun picks _ hmem => ?_
  rcases mem_run (of_decide_eq_true hmem) with hx | hx
  · exact hheld hx
  · exact hstream (List.mem_map_of_mem (f := (·.2)) hx)

/-! ## An item held -/

omit [DecidableEq α] in
theorem mem_set_of_ne {items : List α} {i pick : Nat} (h : items[i]? = some x) (hne : pick ≠ i)
    (y : α) : x ∈ items.set pick y := by
  refine List.mem_of_getElem? (i := i) ?_
  rw [List.getElem?_set_ne hne, h]

omit [DecidableEq α] in
theorem not_mem_set {items : List α} {i : Nat} {y : α} (hnodup : items.Nodup)
    (h : items[i]? = some x) (hne : x ≠ y) : x ∉ items.set i y := by
  intro hmem
  obtain ⟨j, hj⟩ := List.mem_iff_getElem?.mp hmem
  obtain ⟨hi, -⟩ := List.getElem?_eq_some_iff.mp h
  by_cases hij : i = j
  · subst hij
    rw [List.getElem?_set_self hi] at hj
    exact hne (Option.some.inj hj).symm
  · rw [List.getElem?_set_ne hij] at hj
    exact hij ((List.getElem?_inj hi hnodup).mp (h.trans hj.symm))

omit [DecidableEq L] [DecidableEq α] in
theorem cap_ne_zero (hf : Filled caps seen held) (hx : x ∈ held level) : caps level ≠ 0 := by
  have hlevel := hf level
  have hpos := List.length_pos_of_mem hx
  omega

omit [DecidableEq α] in
theorem mem_addHeld_of_mem {other : L} {y : α} (hx : x ∈ held level) :
    x ∈ addHeld caps held other y level := by
  unfold addHeld
  split
  · exact hx
  · by_cases h : level = other
    · subst h
      rw [Function.update_self]
      exact List.mem_append_left _ hx
    · rw [Function.update_of_ne h]
      exact hx

theorem sum_all_but {n lost : Nat} (h : lost ≤ n) (k : Nat) :
    (∑ pick ∈ Finset.range (n + 1), if pick = lost then 0 else k) = n * k := by
  have hmem : lost ∈ Finset.range (n + 1) := Finset.mem_range.mpr (by omega)
  have hsum := Finset.sum_ite_eq' (Finset.range (n + 1)) lost fun _ => k
  rw [if_pos hmem] at hsum
  have htotal : (∑ pick ∈ Finset.range (n + 1), if pick = lost then 0 else k) +
      (∑ pick ∈ Finset.range (n + 1), if pick = lost then k else 0) = (n + 1) * k := by
    rw [← Finset.sum_add_distrib, Finset.sum_congr rfl (g := fun _ => k)]
    · simp
    · intro pick _
      split <;> simp
  rw [hsum, Nat.succ_mul] at htotal
  omega

theorem sum_below {n c : Nat} (h : c ≤ n) (k : Nat) :
    (∑ pick ∈ Finset.range n, if pick < c then k else 0) = c * k := by
  have hfilter : (Finset.range n).filter (· < c) = Finset.range c := by
    ext pick
    simp only [Finset.mem_filter, Finset.mem_range]
    omega
  rw [← Finset.sum_filter, hfilter, Finset.sum_const_nat fun _ _ => rfl, Finset.card_range]

/-- An item that is held now stays in its place in `max n c` of `max m c` outcomes, where
the level has seen `n` items by now and `m` at the end. -/
theorem ways_held (hf : Filled caps seen held) (hd : Distinct held stream)
    (hx : x ∈ held level) :
    ways caps seen held stream level x * max (lastSeen seen stream level) (caps level) =
      max (seen level) (caps level) * allWays caps seen stream := by
  induction stream generalizing seen held with
  | nil =>
    have hways : ways caps seen held [] level x = 1 := by
      rw [ways, bounds, outcomes, List.countP_singleton, heldAfter, run]
      exact if_pos (decide_eq_true hx)
    rw [hways, one_mul]
    exact (Nat.mul_one _).symm
  | cons y stream ih =>
    obtain ⟨other, y⟩ := y
    have hcap := cap_ne_zero hf hx
    rw [lastSeen_cons]
    by_cases hq : Quiet caps seen other
    · rw [ways_quiet hf hq, allWays_quiet hq,
        ih (filled_addHeld hf hq y) (distinct_addHeld hd) (mem_addHeld_of_mem hx)]
      by_cases h : level = other
      · subst h
        unfold Quiet at hq
        rw [bump_self, Nat.max_eq_right (by omega), Nat.max_eq_right (by omega)]
      · rw [bump_of_ne h]
    · have hstep : ∀ pick, x ∈ place caps held other pick y level →
          ways caps (bump seen other) (place caps held other pick y) stream level x *
              max (lastSeen (bump seen other) stream level) (caps level) =
            max (bump seen other level) (caps level) * allWays caps (bump seen other) stream :=
        fun pick => ih (filled_place hf hq pick y) (distinct_place hd pick)
      rw [ways_drawn hf hq, allWays_drawn hq, Finset.sum_mul]
      by_cases h : level = other
      · -- the item is lost for the draw of its place
        subst h
        obtain ⟨lost, hlost⟩ := List.mem_iff_getElem?.mp hx
        obtain ⟨hlt, -⟩ := List.getElem?_eq_some_iff.mp hlost
        have hlevel := hf level
        unfold Quiet at hq
        have hne : x ≠ y := fun hxy => hd.not_mem level (hxy ▸ hx)
        rw [Finset.sum_congr rfl (g := fun pick =>
          if pick = lost then 0 else (seen level + 1) * allWays caps (bump seen level) stream)]
        · rw [sum_all_but (by omega), Nat.max_eq_left (by omega)]
        · intro pick _
          by_cases hpick : pick = lost
          · subst hpick
            have hgone : x ∉ place caps held level pick y level := by
              rw [place_self, if_pos (by omega)]
              exact not_mem_set (hd.held_nodup level) hlost hne
            have hstream : x ∉ stream.map (·.2) := fun hx' =>
              hd.apart level x hx (List.mem_cons_of_mem _ hx')
            rw [if_pos rfl, ways_absent hgone hstream, Nat.zero_mul]
          · rw [if_neg hpick, hstep pick, bump_self, Nat.max_eq_left (by omega)]
            rw [place_self]
            split
            · exact mem_set_of_ne hlost hpick y
            · exact hx
      · have hkept : ∀ pick, x ∈ place caps held other pick y level := by
          intro pick
          rw [place_of_ne h]
          exact hx
        rw [Finset.sum_const_nat fun pick _ => hstep pick (hkept pick), Finset.card_range,
          bump_of_ne h]
        exact Nat.mul_left_comm ..

/-! ## An item to come -/

/-- An item to come is held at the end in `c` of `max m c` outcomes, where the level has
seen `m` items at the end. -/
theorem ways_new (hf : Filled caps seen held) (hd : Distinct held stream)
    (hx : (level, x) ∈ stream) (hcap : caps level ≠ 0) :
    ways caps seen held stream level x * max (lastSeen seen stream level) (caps level) =
      caps level * allWays caps seen stream := by
  induction stream generalizing seen held with
  | nil => exact absurd hx List.not_mem_nil
  | cons y stream ih =>
    obtain ⟨other, y⟩ := y
    rw [lastSeen_cons]
    rcases List.mem_cons.mp hx with hxy | hx
    · obtain ⟨rfl, rfl⟩ := Prod.mk.inj hxy
      by_cases hq : Quiet caps seen level
      · have hin : x ∈ addHeld caps held level x level := by
          rw [addHeld_self hcap]
          exact List.mem_append_right _ (List.mem_singleton_self x)
        rw [ways_quiet hf hq, allWays_quiet hq,
          ways_held (filled_addHeld hf hq x) (distinct_addHeld hd) hin]
        unfold Quiet at hq
        rw [bump_self, Nat.max_eq_right (by omega)]
      · -- the item gets in for the draws below the cap
        have hlevel := hf level
        have hfull : caps level ≤ seen level := by
          unfold Quiet at hq
          omega
        rw [ways_drawn hf hq, allWays_drawn hq, Finset.sum_mul]
        rw [Finset.sum_congr rfl (g := fun pick =>
          if pick < caps level then (seen level + 1) * allWays caps (bump seen level) stream
          else 0)]
        · exact sum_below (by omega) _
        · intro pick _
          by_cases hpick : pick < caps level
          · have hin : x ∈ place caps held level pick x level := by
              have hplace : pick < (held level).length := by omega
              rw [place_self, if_pos hpick]
              exact List.mem_set hplace x
            rw [if_pos hpick, ways_held (filled_place hf hq pick x) (distinct_place hd pick) hin,
              bump_self, Nat.max_eq_left (by omega)]
          · have hout : x ∉ place caps held level pick x level := by
              rw [place_self, if_neg hpick]
              exact hd.not_mem level
            rw [if_neg hpick, ways_absent hout hd.head_not_mem, Nat.zero_mul]
    · by_cases hq : Quiet caps seen other
      · rw [ways_quiet hf hq, allWays_quiet hq]
        exact ih (filled_addHeld hf hq y) (distinct_addHeld hd) hx
      · rw [ways_drawn hf hq, allWays_drawn hq, Finset.sum_mul,
          Finset.sum_const_nat fun pick _ =>
            ih (filled_place hf hq pick y) (distinct_place hd pick) hx,
          Finset.card_range]
        exact Nat.mul_left_comm ..

variable (caps) in
theorem ways_uniform {y : α} (hd : (stream.map (·.2)).Nodup) (hx : (level, x) ∈ stream)
    (hy : (level, y) ∈ stream) :
    ways caps (fun _ => 0) (fun _ => []) stream level x =
      ways caps (fun _ => 0) (fun _ => []) stream level y := by
  have hfilled : Filled caps (fun _ => 0) fun _ => ([] : List α) := filled_empty caps
  by_cases hcap : caps level = 0
  · -- a level without places holds nothing
    have hnone : ∀ z, ways caps (fun _ => 0) (fun _ => []) stream level z = 0 := by
      intro z
      refine List.countP_eq_zero.mpr fun picks _ hmem => ?_
      exact cap_ne_zero (filled_run (s := ⟨fun _ => 0, fun _ => [], picks⟩) hfilled stream)
        (of_decide_eq_true hmem) hcap
    rw [hnone x, hnone y]
  · have hdistinct := distinct_empty hd
    have heq := (ways_new hfilled hdistinct hx hcap).trans (ways_new hfilled hdistinct hy hcap).symm
    exact Nat.eq_of_mul_eq_mul_right (by omega) heq

/-! ## Items held together -/

omit [DecidableEq α] in
theorem exists_unwanted {wanted : List (L × α)} (hf : Filled caps seen held)
    (hfull : caps level ≤ seen level) (hnodup : (held level).Nodup) (hnew : x ∉ held level)
    (hroom : (wanted.countP fun w => w.1 = level) ≤ caps level) (hx : (level, x) ∈ wanted) :
    ∃ y ∈ held level, (level, y) ∉ wanted := by
  by_contra hall
  push Not at hall
  -- otherwise the wanted items of the level are more than its cap
  have hdistinct : ((x :: held level).map (Prod.mk level)).Nodup :=
    (List.nodup_cons.mpr ⟨hnew, hnodup⟩).map (Prod.mk_right_injective level)
  have hsubset : (x :: held level).map (Prod.mk level) ⊆ wanted.filter fun w => w.1 = level := by
    intro w hw
    obtain ⟨y, hy, rfl⟩ := List.mem_map.mp hw
    refine List.mem_filter.mpr ⟨?_, decide_eq_true rfl⟩
    rcases List.mem_cons.mp hy with rfl | hy
    · exact hx
    · exact hall y hy
  have hle := hdistinct.length_le_of_subset hsubset
  have hlevel := hf level
  rw [List.length_map, List.length_cons, ← List.countP_eq_length_filter] at hle
  omega

omit [DecidableEq α] in
/-- Some draw keeps the wanted items, with the one that is offered. -/
theorem exists_pick {wanted : List (L × α)} (hf : Filled caps seen held)
    (hd : Distinct held ((level, x) :: stream)) (hq : ¬ Quiet caps seen level)
    (hroom : (wanted.countP fun w => w.1 = level) ≤ caps level) :
    ∃ pick < seen level + 1, ∀ w ∈ wanted, w.2 ∈ held w.1 ∨ w = (level, x) →
      w.2 ∈ place caps held level pick x w.1 := by
  have hlevel := hf level
  have hfull : caps level ≤ seen level := by
    unfold Quiet at hq
    omega
  by_cases hx : (level, x) ∈ wanted
  · obtain ⟨y, hy, hunwanted⟩ :=
      exists_unwanted hf hfull (hd.held_nodup level) (hd.not_mem level) hroom hx
    obtain ⟨pick, hpick⟩ := List.mem_iff_getElem?.mp hy
    obtain ⟨hlt, -⟩ := List.getElem?_eq_some_iff.mp hpick
    have hcap : pick < caps level := by omega
    refine ⟨pick, by omega, fun w hw hin => ?_⟩
    obtain ⟨other, z⟩ := w
    rcases hin with hz | hz
    · by_cases h : other = level
      · subst h
        obtain ⟨i, hi⟩ := List.mem_iff_getElem?.mp hz
        have hne : pick ≠ i := by
          rintro rfl
          exact hunwanted (Option.some.inj (hpick.symm.trans hi) ▸ hw)
        rw [place_self, if_pos hcap]
        exact mem_set_of_ne hi hne x
      · rw [place_of_ne h]
        exact hz
    · obtain ⟨rfl, rfl⟩ := Prod.mk.inj hz
      rw [place_self, if_pos hcap]
      exact List.mem_set hlt _
  · -- the offered item is not wanted: the highest draw refuses it
    refine ⟨seen level, by omega, fun w hw hin => ?_⟩
    obtain ⟨other, z⟩ := w
    rcases hin with hz | hz
    · by_cases h : other = level
      · subst h
        rw [place_self, if_neg (by omega)]
        exact hz
      · rw [place_of_ne h]
        exact hz
    · exact absurd (hz ▸ hw) hx

variable (caps) in
omit [DecidableEq α] in
theorem held_together {wanted : List (L × α)} (hf : Filled caps seen held)
    (hd : Distinct held stream)
    (hroom : ∀ level, (wanted.countP fun w => w.1 = level) ≤ caps level)
    (hw : ∀ w ∈ wanted, w.2 ∈ held w.1 ∨ w ∈ stream) :
    ∃ picks ∈ outcomes (bounds caps seen stream),
      ∀ w ∈ wanted, w.2 ∈ heldAfter caps seen held stream picks w.1 := by
  induction stream generalizing seen held with
  | nil =>
    exact ⟨[], List.mem_singleton_self _, fun w hmem =>
      (hw w hmem).resolve_right List.not_mem_nil⟩
  | cons y stream ih =>
    obtain ⟨level, x⟩ := y
    by_cases hq : Quiet caps seen level
    · have hin : ∀ w ∈ wanted, w.2 ∈ addHeld caps held level x w.1 ∨ w ∈ stream := by
        intro w hmem
        rcases hw w hmem with hheld | hstream
        · exact Or.inl (mem_addHeld_of_mem hheld)
        · rcases List.mem_cons.mp hstream with rfl | hstream
          · have hpos : 0 < wanted.countP fun w => w.1 = level :=
              List.countP_pos_iff.mpr ⟨(level, x), hmem, decide_eq_true rfl⟩
            have hle := hroom level
            refine Or.inl ?_
            rw [addHeld_self (by omega)]
            exact List.mem_append_right _ (List.mem_singleton_self x)
          · exact Or.inr hstream
      obtain ⟨picks, hpicks, hall⟩ := ih (filled_addHeld hf hq x) (distinct_addHeld hd) hin
      refine ⟨picks, ?_, fun w hmem => ?_⟩
      · rw [bounds_quiet hq]
        exact hpicks
      · rw [heldAfter_quiet hf hq]
        exact hall w hmem
    · obtain ⟨pick, hlt, hpick⟩ := exists_pick hf hd hq (hroom level)
      have hin : ∀ w ∈ wanted, w.2 ∈ place caps held level pick x w.1 ∨ w ∈ stream := by
        intro w hmem
        rcases hw w hmem with hheld | hstream
        · exact Or.inl (hpick w hmem (Or.inl hheld))
        · rcases List.mem_cons.mp hstream with heq | hstream
          · exact Or.inl (hpick w hmem (Or.inr heq))
          · exact Or.inr hstream
      obtain ⟨picks, hpicks, hall⟩ := ih (filled_place hf hq pick x) (distinct_place hd pick) hin
      refine ⟨pick :: picks, ?_, fun w hmem => ?_⟩
      · rw [bounds_drawn hq]
        exact mem_outcomes_cons hlt hpicks
      · rw [heldAfter_drawn hf hq]
        exact hall w hmem

end Reservoirs

end HamZaboon.Library
