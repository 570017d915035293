import Mathlib.Data.List.Basic
import Mathlib.Tactic.Common

/-! # Resuming a scan that knows its keys

A scan reads items one after the other; an item may have a key, and only the first
item of a key is fresh.  The scan can be resumed at any item: its tally was saved,
and the keys it knows are rebuilt from what was read, possibly from more of it than
the scan itself learns keys from (`loose`).  A resumed scan ends with the tally of
the straight one exactly when at no point a key was loose before it that the scan
learns only after it (`DedupScan.resumed_iff`).
-/

namespace HamZaboon.Library

/-- A scan over items `ι` with keys `κ` and a tally `τ`. -/
structure DedupScan (ι κ τ : Type) where
  key : ι → Option κ
  /-- An item whose key is new; `none` where the scan fails. -/
  fresh : ι → τ → Option τ
  /-- An item whose key is known. -/
  again : τ → τ
  /-- An item without a key. -/
  skip : ι → τ → τ
  /-- The keys that a rebuilding learns. -/
  loose : ι → Option κ
  dups : τ → Nat
  loose_of_key : ∀ i k, key i = some k → loose i = some k
  dups_fresh : ∀ i t t', fresh i t = some t' → dups t' = dups t
  dups_again : ∀ t, dups (again t) = dups t + 1
  dups_skip : ∀ i t, dups (skip i t) = dups t

namespace DedupScan
variable {ι κ τ : Type} [DecidableEq κ] (S : DedupScan ι κ τ)

/-- One item: the known keys and the tally. -/
def step (x : List κ × τ) (i : ι) : Option (List κ × τ) :=
  match S.key i with
  | none => some (x.1, S.skip i x.2)
  | some k => if k ∈ x.1 then some (x.1, S.again x.2) else (S.fresh i x.2).map fun t => (k :: x.1, t)

def run : List κ × τ → List ι → Option (List κ × τ)
  | x, [] => some x
  | x, i :: items => (S.step x i).bind fun y => run y items

def keys (items : List ι) : List κ := items.filterMap S.key

def looseKeys (items : List ι) : List κ := items.filterMap S.loose

variable {S}

omit [DecidableEq κ] in
theorem keys_subset_looseKeys {items : List ι} {k : κ} (h : k ∈ S.keys items) :
    k ∈ S.looseKeys items := by
  obtain ⟨i, hi, hkey⟩ := List.mem_filterMap.mp h
  exact List.mem_filterMap.mpr ⟨i, hi, S.loose_of_key i k hkey⟩

theorem run_append (x : List κ × τ) (a b : List ι) :
    S.run x (a ++ b) = (S.run x a).bind fun y => S.run y b := by
  induction a generalizing x with
  | nil => rfl
  | cons i a ih =>
    rw [List.cons_append, run, run, Option.bind_assoc]
    exact congrArg _ (funext ih)

theorem step_cases {x y : List κ × τ} {i : ι} (h : S.step x i = some y) :
    (S.key i = none ∧ y = (x.1, S.skip i x.2)) ∨
      (∃ k ∈ x.1, S.key i = some k ∧ y = (x.1, S.again x.2)) ∨
      ∃ k ∉ x.1, S.key i = some k ∧ ∃ t, S.fresh i x.2 = some t ∧ y = (k :: x.1, t) := by
  unfold step at h
  split at h
  · rename_i hkey
    exact .inl ⟨hkey, (Option.some.inj h).symm⟩
  · rename_i k hkey
    split at h
    · rename_i hmem
      exact .inr (.inl ⟨k, hmem, hkey, (Option.some.inj h).symm⟩)
    · rename_i hnew
      obtain ⟨t, ht, rfl⟩ := Option.map_eq_some_iff.mp h
      exact .inr (.inr ⟨k, hnew, hkey, t, ht, rfl⟩)

theorem step_skip {i : ι} (hkey : S.key i = none) (x : List κ × τ) :
    S.step x i = some (x.1, S.skip i x.2) := by
  rw [step, hkey]

theorem step_again {x : List κ × τ} {i : ι} {k : κ} (hkey : S.key i = some k) (hmem : k ∈ x.1) :
    S.step x i = some (x.1, S.again x.2) := by
  simp only [step, hkey, if_pos hmem]

theorem step_fresh {x : List κ × τ} {i : ι} {k : κ} (hkey : S.key i = some k) (hnew : k ∉ x.1) :
    S.step x i = (S.fresh i x.2).map fun t => (k :: x.1, t) := by
  simp only [step, hkey, if_neg hnew]

theorem mem_step {x y : List κ × τ} {i : ι} (h : S.step x i = some y) (k : κ) :
    k ∈ y.1 ↔ k ∈ x.1 ∨ S.key i = some k := by
  obtain ⟨hkey, rfl⟩ | ⟨k', hmem, hkey, rfl⟩ | ⟨k', -, hkey, t, -, rfl⟩ := step_cases h
  · simp [hkey]
  · refine ⟨Or.inl, fun hor => hor.elim id fun heq => ?_⟩
    exact Option.some.inj (hkey.symm.trans heq) ▸ hmem
  · rw [List.mem_cons, or_comm, hkey, Option.some.injEq, eq_comm]

theorem mem_run {x y : List κ × τ} {items : List ι} (h : S.run x items = some y) (k : κ) :
    k ∈ y.1 ↔ k ∈ x.1 ∨ k ∈ S.keys items := by
  induction items generalizing x with
  | nil =>
    obtain rfl := Option.some.inj h
    simp [keys]
  | cons i items ih =>
    obtain ⟨z, hz, hrest⟩ := Option.bind_eq_some_iff.mp h
    rw [ih hrest, mem_step hz, keys, keys, or_assoc]
    refine or_congr_right ?_
    cases hkey : S.key i with
    | none => simp [hkey]
    | some k' => simp [hkey, eq_comm]

theorem run_keeps {P : List κ × τ → Prop}
    (hstep : ∀ x i y, P x → S.step x i = some y → P y) {x y : List κ × τ} {items : List ι}
    (hx : P x) (h : S.run x items = some y) : P y := by
  induction items generalizing x with
  | nil =>
    obtain rfl := Option.some.inj h
    exact hx
  | cons i items ih =>
    obtain ⟨z, hz, hrest⟩ := Option.bind_eq_some_iff.mp h
    exact ih (hstep x i z hx hz) hrest

theorem step_alike {x y x' : List κ × τ} {i : ι} (h : S.step x i = some x') (htally : x.2 = y.2)
    (hknown : ∀ k, S.key i = some k → (k ∈ x.1 ↔ k ∈ y.1)) :
    ∃ y', S.step y i = some y' ∧ x'.2 = y'.2 := by
  obtain ⟨hkey, rfl⟩ | ⟨k, hmem, hkey, rfl⟩ | ⟨k, hnew, hkey, t, ht, rfl⟩ := step_cases h
  · exact ⟨_, step_skip hkey y, congrArg (S.skip i) htally⟩
  · exact ⟨_, step_again hkey ((hknown k hkey).mp hmem), congrArg S.again htally⟩
  · have hnew' : k ∉ y.1 := fun hmem => hnew ((hknown k hkey).mpr hmem)
    rw [step_fresh hkey hnew', ← htally, ht]
    exact ⟨_, rfl, rfl⟩

theorem run_alike {x y x' : List κ × τ} {items : List ι} (h : S.run x items = some x')
    (htally : x.2 = y.2) (hknown : ∀ k ∈ S.keys items, k ∈ x.1 ↔ k ∈ y.1) :
    ∃ y', S.run y items = some y' ∧ x'.2 = y'.2 := by
  induction items generalizing x y with
  | nil =>
    obtain rfl := Option.some.inj h
    exact ⟨y, rfl, htally⟩
  | cons i items ih =>
    obtain ⟨x₁, hx₁, hrest⟩ := Option.bind_eq_some_iff.mp h
    have hitem : ∀ k, S.key i = some k → (k ∈ x.1 ↔ k ∈ y.1) := fun k hk =>
      hknown k (List.mem_filterMap.mpr ⟨i, List.mem_cons_self .., hk⟩)
    obtain ⟨y₁, hy₁, htally₁⟩ := step_alike hx₁ htally hitem
    have hrest' : ∀ k ∈ S.keys items, k ∈ x₁.1 ↔ k ∈ y₁.1 := by
      intro k hk
      obtain ⟨j, hj, hkey⟩ := List.mem_filterMap.mp hk
      rw [mem_step hx₁, mem_step hy₁,
        hknown k (List.mem_filterMap.mpr ⟨j, List.mem_cons_of_mem _ hj, hkey⟩)]
    obtain ⟨y', hy', hfinal⟩ := ih hrest htally₁ hrest'
    exact ⟨y', by rw [run, hy₁, Option.bind_some, hy'], hfinal⟩

/-- A scan that knows more counts at least as many duplicates, and one more at an item
that only it knows. -/
theorem step_dups {x y x' y' : List κ × τ} {i : ι} (hx : S.step x i = some x')
    (hy : S.step y i = some y') (hsub : ∀ k ∈ x.1, k ∈ y.1) (hle : S.dups x.2 ≤ S.dups y.2) :
    S.dups x'.2 + (S.dups y.2 - S.dups x.2) ≤ S.dups y'.2 ∧
      ∀ k, S.key i = some k → k ∈ y.1 → k ∉ x.1 → S.dups x'.2 < S.dups y'.2 := by
  cases hkey : S.key i with
  | none =>
    rw [step_skip hkey] at hx hy
    obtain rfl := Option.some.inj hx
    obtain rfl := Option.some.inj hy
    simp only [S.dups_skip]
    exact ⟨by omega, fun k hk => nomatch hk⟩
  | some k =>
    by_cases hmemy : k ∈ y.1
    · rw [step_again hkey hmemy] at hy
      obtain rfl := Option.some.inj hy
      by_cases hmemx : k ∈ x.1
      · rw [step_again hkey hmemx] at hx
        obtain rfl := Option.some.inj hx
        simp only [S.dups_again]
        refine ⟨by omega, fun k' hk' _ hnot => ?_⟩
        exact absurd (Option.some.inj hk' ▸ hmemx) hnot
      · rw [step_fresh hkey hmemx] at hx
        obtain ⟨t, ht, rfl⟩ := Option.map_eq_some_iff.mp hx
        simp only [S.dups_again, S.dups_fresh _ _ _ ht]
        exact ⟨by omega, fun _ _ _ _ => by omega⟩
    · have hmemx : k ∉ x.1 := fun hmem => hmemy (hsub k hmem)
      rw [step_fresh hkey hmemy] at hy
      rw [step_fresh hkey hmemx] at hx
      obtain ⟨t, ht, rfl⟩ := Option.map_eq_some_iff.mp hx
      obtain ⟨t', ht', rfl⟩ := Option.map_eq_some_iff.mp hy
      simp only [S.dups_fresh _ _ _ ht, S.dups_fresh _ _ _ ht']
      refine ⟨by omega, fun k' hk' hmem _ => ?_⟩
      exact absurd (Option.some.inj hk' ▸ hmem) hmemy

/-! ## Resuming -/

variable (S)

/-- What a scan with resumptions reaches at an item: the points it was resumed at, the
last one first, and its keys and tally. -/
inductive Lineage (rebuild : Nat → τ → Option (List κ)) (items : List ι) (start : List κ × τ) :
    List Nat → Nat → List κ × τ → Prop
  | start : Lineage rebuild items start [] 0 start
  | item {points n x i y} : Lineage rebuild items start points n x → items[n]? = some i →
      S.step x i = some y → Lineage rebuild items start points (n + 1) y
  | resume {points n x known} : Lineage rebuild items start points n x →
      rebuild n x.2 = some known → Lineage rebuild items start (n :: points) n (known, x.2)

/-- Every key that is loose before a point and that the scan learns at all is known
from the start or learnt before the point. -/
def Harmless (known : List κ) (items : List ι) (n : Nat) : Prop :=
  ∀ k, k ∈ S.looseKeys (items.take n) → k ∈ S.keys (items.drop n) →
    k ∈ known ∨ k ∈ S.keys (items.take n)

variable {S}

section Lineage
variable {rebuild : Nat → τ → Option (List κ)} {items : List ι} {start final : List κ × τ}
  {points : List Nat} {n : Nat} {x : List κ × τ}

theorem drop_of_getElem? {i : ι} (h : items[n]? = some i) :
    items.drop n = i :: items.drop (n + 1) ∧ items.take (n + 1) = items.take n ++ [i] := by
  obtain ⟨hn, rfl⟩ := List.getElem?_eq_some_iff.mp h
  exact ⟨List.drop_eq_getElem_cons hn, List.take_succ_eq_append_getElem hn⟩

theorem run_take (h : S.run start items = some final) (n : Nat) :
    ∃ y, S.run start (items.take n) = some y := by
  rw [← List.take_append_drop n items, run_append] at h
  obtain ⟨y, hy, -⟩ := Option.bind_eq_some_iff.mp h
  exact ⟨y, hy⟩

theorem step_of_run_take (h : S.run start items = some final) {i : ι} (hi : items[n]? = some i)
    {y : List κ × τ} (hy : S.run start (items.take n) = some y) :
    ∃ y', S.step y i = some y' ∧ S.run start (items.take (n + 1)) = some y' := by
  obtain ⟨y', hy'⟩ := run_take h (n + 1)
  have hrun := hy'
  rw [(drop_of_getElem? hi).2, run_append, hy, Option.bind_some, run] at hrun
  obtain ⟨z, hz, hlast⟩ := Option.bind_eq_some_iff.mp hrun
  obtain rfl := Option.some.inj hlast
  exact ⟨z, hz, hy'⟩

omit [DecidableEq κ] in
theorem mem_keys_drop {i : ι} (h : items[n]? = some i) {k : κ} :
    k ∈ S.keys (items.drop n) ↔ S.key i = some k ∨ k ∈ S.keys (items.drop (n + 1)) := by
  rw [(drop_of_getElem? h).1, keys, keys]
  cases hkey : S.key i with
  | none => simp [hkey]
  | some k' => simp [hkey, eq_comm]

omit [DecidableEq κ] in
theorem looseKeys_take_succ {i : ι} (h : items[n]? = some i) {k : κ}
    (hk : k ∈ S.looseKeys (items.take n)) : k ∈ S.looseKeys (items.take (n + 1)) := by
  rw [(drop_of_getElem? h).2, looseKeys, List.filterMap_append]
  exact List.mem_append_left _ hk

theorem Lineage.le_length (h : S.Lineage rebuild items start points n x) : n ≤ items.length := by
  induction h with
  | start => exact Nat.zero_le _
  | item _ hi _ _ => exact (List.getElem?_eq_some_iff.mp hi).1
  | resume _ _ ih => exact ih

/-- Resumed at harmless points only, a scan has the tally of the straight one, and
knows the same of what comes. -/
theorem Lineage.alike (h : S.Lineage rebuild items start points n x)
    (hrun : S.run start items = some final)
    (hrebuild : ∀ n y known, S.run start (items.take n) = some y → rebuild n y.2 = some known →
      ∀ k, k ∈ known ↔ k ∈ start.1 ∨ k ∈ S.looseKeys (items.take n))
    (hharmless : ∀ p ∈ points, S.Harmless start.1 items p) :
    ∃ y, S.run start (items.take n) = some y ∧ y.2 = x.2 ∧
      ∀ k ∈ S.keys (items.drop n), k ∈ y.1 ↔ k ∈ x.1 := by
  induction h with
  | start => exact ⟨start, rfl, rfl, fun _ _ => Iff.rfl⟩
  | @item points n x i x' hlineage hi hstep ih =>
    obtain ⟨y, hy, htally, hknown⟩ := ih hharmless
    obtain ⟨y', hy', hrun'⟩ := step_of_run_take hrun hi hy
    have hitem : ∀ k, S.key i = some k → (k ∈ y.1 ↔ k ∈ x.1) := fun k hk =>
      hknown k ((mem_keys_drop hi).mpr (Or.inl hk))
    obtain ⟨x'', hx'', htally'⟩ := step_alike hy' htally hitem
    obtain rfl := Option.some.inj (hstep.symm.trans hx'')
    refine ⟨y', hrun', htally', fun k hk => ?_⟩
    rw [mem_step hy', mem_step hstep, hknown k ((mem_keys_drop hi).mpr (Or.inr hk))]
  | @resume points n x known hlineage hknown ih =>
    obtain ⟨y, hy, htally, -⟩ := ih fun p hp => hharmless p (List.mem_cons_of_mem _ hp)
    refine ⟨y, hy, htally, fun k hk => ?_⟩
    rw [mem_run hy, hrebuild n y known hy (htally ▸ hknown)]
    refine ⟨fun hor => hor.imp_right keys_subset_looseKeys, fun hor => ?_⟩
    exact hor.elim Or.inl fun hloose => hharmless n (List.mem_cons_self ..) k hloose hk

/-- A resumed scan counts at least as many duplicates; after a harmful point it counts
more, or knows a key too early that is still to come. -/
theorem Lineage.ahead (h : S.Lineage rebuild items start points n x)
    (hrun : S.run start items = some final)
    (hrebuild : ∀ n t known, rebuild n t = some known →
      ∀ k, k ∈ start.1 ∨ k ∈ S.looseKeys (items.take n) → k ∈ known) :
    ∃ y, S.run start (items.take n) = some y ∧ (∀ k ∈ y.1, k ∈ x.1) ∧
      S.dups y.2 ≤ S.dups x.2 ∧ ∀ p ∈ points, ¬ S.Harmless start.1 items p →
        S.dups y.2 < S.dups x.2 ∨ ∃ k ∈ S.keys (items.drop n),
          k ∈ S.looseKeys (items.take n) ∧ k ∈ x.1 ∧ k ∉ y.1 := by
  induction h with
  | start => exact ⟨start, rfl, fun _ hk => hk, Nat.le_refl _, fun p hp => nomatch hp⟩
  | @item points n x i x' hlineage hi hstep ih =>
    obtain ⟨y, hy, hsub, hle, hharm⟩ := ih
    obtain ⟨y', hy', hrun'⟩ := step_of_run_take hrun hi hy
    obtain ⟨hdups, hstrict⟩ := step_dups hy' hstep hsub hle
    refine ⟨y', hrun', fun k hk => ?_, by omega, fun p hp hno => ?_⟩
    · exact (mem_step hstep k).mpr (((mem_step hy' k).mp hk).imp_left (hsub k))
    · rcases hharm p hp hno with hlt | ⟨k, hk, hloose, hmem, hnot⟩
      · exact Or.inl (by omega)
      · rcases (mem_keys_drop hi).mp hk with hkey | hlater
        · exact Or.inl (hstrict k hkey hmem hnot)
        · by_cases hkey : S.key i = some k
          · exact Or.inl (hstrict k hkey hmem hnot)
          · refine Or.inr ⟨k, hlater, looseKeys_take_succ hi hloose, ?_, ?_⟩
            · exact (mem_step hstep k).mpr (Or.inl hmem)
            · exact fun hin => ((mem_step hy' k).mp hin).elim hnot hkey
  | @resume points n x known hlineage hknown ih =>
    obtain ⟨y, hy, -, hle, hharm⟩ := ih
    have hall := hrebuild n x.2 known hknown
    refine ⟨y, hy, fun k hk => ?_, hle, fun p hp hno => ?_⟩
    · exact hall k (((mem_run hy k).mp hk).imp_right keys_subset_looseKeys)
    · rcases List.mem_cons.mp hp with rfl | hp
      · obtain ⟨k, hk⟩ := not_forall.mp hno
        obtain ⟨hloose, hk⟩ := Classical.not_imp.mp hk
        obtain ⟨hlater, hnot⟩ := Classical.not_imp.mp hk
        refine Or.inr ⟨k, hlater, hloose, hall k (Or.inr hloose), ?_⟩
        exact fun hin => hnot ((mem_run hy k).mp hin)
      · rcases hharm p hp hno with hlt | ⟨k, hk, hloose, -, hnot⟩
        · exact Or.inl hlt
        · exact Or.inr ⟨k, hk, hloose, hall k (Or.inr hloose), hnot⟩

/-- **Resuming.**  A resumed scan that reaches the end has the tally of the straight
one exactly when it was resumed at harmless points only, and already when it counted
as many duplicates. -/
theorem Lineage.resumed_iff (h : S.Lineage rebuild items start points items.length x)
    (hrun : S.run start items = some final)
    (hrebuild : ∀ n t known, rebuild n t = some known →
      ∀ k, k ∈ start.1 ∨ k ∈ S.looseKeys (items.take n) → k ∈ known)
    (hexact : ∀ n y known, S.run start (items.take n) = some y → rebuild n y.2 = some known →
      ∀ k ∈ known, k ∈ start.1 ∨ k ∈ S.looseKeys (items.take n)) :
    ((∀ p ∈ points, S.Harmless start.1 items p) → x.2 = final.2) ∧
      (S.dups x.2 = S.dups final.2 → ∀ p ∈ points, S.Harmless start.1 items p) := by
  constructor
  · intro hharmless
    obtain ⟨y, hy, htally, -⟩ := h.alike hrun (fun n y known hy hknown k =>
      ⟨hexact n y known hy hknown k, hrebuild n y.2 known hknown k⟩) hharmless
    rw [List.take_length] at hy
    obtain rfl := Option.some.inj (hrun.symm.trans hy)
    exact htally.symm
  · intro hdups p hp
    obtain ⟨y, hy, -, -, hharm⟩ := h.ahead hrun hrebuild
    rw [List.take_length] at hy
    obtain rfl := Option.some.inj (hrun.symm.trans hy)
    by_contra hno
    rcases hharm p hp hno with hlt | ⟨k, hk, -⟩
    · omega
    · rw [List.drop_length] at hk
      cases hk

end Lineage

end DedupScan

end HamZaboon.Library
