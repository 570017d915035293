import HamZaboon.Library.Grouping
import HamZaboon.Library.Ranking
import HamZaboon.Library.Results

/-! # Screening

A screen goes through a list and keeps or drops each entry; what it keeps and
what it drops together are the list (`Splits`), and screens in a row split the
list too (`Splits.trans`).  A contest is held among the entries under one key:
the first by rank wins, and the others lose to it.
-/

namespace HamZaboon.Library

section Splits
variable {α β : Type}

/-- The list is divided into what is kept, in its order, and what is gone. -/
structure Splits (l kept gone : List α) : Prop where
  sublist : kept.Sublist l
  perm : (kept ++ gone).Perm l

theorem Splits.trans {l kept gone kept' gone' : List α} (h : Splits l kept gone)
    (h' : Splits kept kept' gone') : Splits l kept' (gone ++ gone') where
  sublist := h'.sublist.trans h.sublist
  perm := by
    have hswap : (kept' ++ (gone ++ gone')).Perm ((kept' ++ gone') ++ gone) := by
      rw [List.append_assoc]
      exact List.perm_append_comm.append_left kept'
    exact hswap.trans ((h'.perm.append_right gone).trans h.perm)

theorem splits_filter (p : α → Bool) (l : List α) :
    Splits l (l.filter p) (l.filter fun a => !p a) where
  sublist := List.filter_sublist
  perm := List.filter_append_perm p l

theorem Splits.map {l kept gone : List α} (h : Splits l kept gone) (f : α → β) :
    Splits (l.map f) (kept.map f) (gone.map f) where
  sublist := h.sublist.map f
  perm := by
    rw [← List.map_append]
    exact h.perm.map f

theorem Splits.keep {l kept gone : List α} (h : Splits l kept gone) (a : α) :
    Splits (a :: l) (a :: kept) gone where
  sublist := h.sublist.cons_cons a
  perm := h.perm.cons a

theorem Splits.drop {l kept gone : List α} (h : Splits l kept gone) (a : α) :
    Splits (a :: l) kept (a :: gone) where
  sublist := h.sublist.cons a
  perm := List.perm_middle.trans (h.perm.cons a)

/-- A screen: the judge keeps an entry, or drops it for a reason, or fails. -/
def screen (judge : α → Option (Option β)) : List α → Option (List α × List β)
  | [] => some ([], [])
  | a :: l => do
    let verdict ← judge a
    let (kept, dropped) ← screen judge l
    match verdict with
    | none => return (a :: kept, dropped)
    | some reason => return (kept, reason :: dropped)

variable {judge : α → Option (Option β)}

/-- **A screen divides the list** as its judge says. -/
theorem screen_spec {l kept : List α} {dropped : List β}
    (h : screen judge l = some (kept, dropped)) :
    ∃ gone, Splits l kept gone ∧ (∀ a ∈ kept, judge a = some none) ∧
      List.Forall₂ (fun a reason => judge a = some (some reason)) gone dropped := by
  induction l generalizing kept dropped with
  | nil =>
    obtain ⟨rfl, rfl⟩ : [] = kept ∧ [] = dropped := by simpa [screen] using h
    exact ⟨[], ⟨List.Sublist.slnil, .nil⟩, fun a ha => absurd ha List.not_mem_nil, .nil⟩
  | cons a l ih =>
    rw [screen] at h
    obtain ⟨verdict, hverdict, h⟩ := Option.bind_eq_some_iff.mp h
    obtain ⟨⟨kept', dropped'⟩, hrest, h⟩ := Option.bind_eq_some_iff.mp h
    obtain ⟨gone, hsplits, hkept, hgone⟩ := ih hrest
    cases verdict with
    | none =>
      obtain ⟨rfl, rfl⟩ : a :: kept' = kept ∧ dropped' = dropped := by simpa using h
      refine ⟨gone, hsplits.keep a, fun b hb => ?_, hgone⟩
      rcases List.mem_cons.mp hb with rfl | hb
      · exact hverdict
      · exact hkept b hb
    | some reason =>
      obtain ⟨rfl, rfl⟩ : kept' = kept ∧ reason :: dropped' = dropped := by simpa using h
      exact ⟨a :: gone, hsplits.drop a, hkept, .cons hverdict hgone⟩

theorem exists_screen {l : List α} (h : ∀ a ∈ l, (judge a).isSome = true) :
    ∃ kept dropped, screen judge l = some (kept, dropped) := by
  induction l with
  | nil => exact ⟨[], [], rfl⟩
  | cons a l ih =>
    obtain ⟨verdict, hverdict⟩ := Option.isSome_iff_exists.mp (h a List.mem_cons_self)
    obtain ⟨kept, dropped, hrest⟩ := ih fun b hb => h b (List.mem_cons_of_mem a hb)
    rw [screen, hverdict, hrest]
    cases verdict with
    | none => exact ⟨a :: kept, dropped, rfl⟩
    | some reason => exact ⟨kept, reason :: dropped, rfl⟩

theorem screen_eq_self {l : List α} (h : ∀ a ∈ l, judge a = some none) :
    screen judge l = some (l, []) := by
  induction l with
  | nil => rfl
  | cons a l ih =>
    rw [screen, h a List.mem_cons_self, ih fun b hb => h b (List.mem_cons_of_mem a hb)]
    rfl

theorem forall₂_filterMap {f : α → Option β} {p : α → Bool} {l : List α}
    (h : ∀ a ∈ l, (f a).isSome = p a) :
    List.Forall₂ (fun a b => f a = some b) (l.filter p) (l.filterMap f) := by
  induction l with
  | nil => exact .nil
  | cons a l ih =>
    have hrest := ih fun b hb => h b (List.mem_cons_of_mem a hb)
    have hhead := h a List.mem_cons_self
    cases hf : f a with
    | none =>
      rw [hf] at hhead
      rw [List.filter_cons_of_neg (by simp [← hhead]), List.filterMap_cons_none hf]
      exact hrest
    | some b =>
      rw [hf] at hhead
      rw [List.filter_cons_of_pos (by simp [← hhead]), List.filterMap_cons_some hf]
      exact .cons hf hrest

theorem forall₂_comp {γ : Type} {R : α → β → Prop} {S : β → γ → Prop} {l : List α} {m : List β}
    {n : List γ} (h : List.Forall₂ R l m) (h' : List.Forall₂ S m n) :
    List.Forall₂ (fun a c => ∃ b, R a b ∧ S b c) l n := by
  induction h generalizing n with
  | nil =>
    cases h'
    exact .nil
  | cons hab hrest ih =>
    cases h' with
    | cons hbc hrest' => exact .cons ⟨_, hab, hbc⟩ (ih hrest')

theorem map_eq_of_forall₂ {γ : Type} {R : α → β → Prop} {f : α → γ} {g : β → γ}
    {l : List α} {m : List β} (h : List.Forall₂ R l m) (hfg : ∀ a ∈ l, ∀ b, R a b → g b = f a) :
    m.map g = l.map f := by
  induction h with
  | nil => rfl
  | cons hab hrest ih =>
    rw [List.map_cons, List.map_cons, hfg _ List.mem_cons_self _ hab,
      ih fun a ha => hfg a (List.mem_cons_of_mem _ ha)]

end Splits

section Contests
variable {α κ β : Type} [DecidableEq κ] [LinearOrder β] (key : α → Option κ) (rank : α → β)

/-- The contest among the entries of a group, unless there are fewer than two. -/
def contest (group : List α) : Option (α × List α) :=
  match sortBy rank group with
  | winner :: loser :: losers => some (winner, loser :: losers)
  | _ => none

def contests (l : List α) : List (α × List α) :=
  (groupBy key [] l).filterMap fun group => contest rank group.2

def Loses (l : List α) (a : α) : Prop := ∃ c ∈ contests key rank l, a ∈ c.2

variable {key rank} {l : List α}

theorem mem_contests {winner : α} {losers : List α} :
    (winner, losers) ∈ contests key rank l ↔
      ∃ k, sortBy rank (l.filter fun a => key a = some k) = winner :: losers ∧ losers ≠ [] := by
  have hgroups := groupsOf_groupBy key l
  have hcontest : ∀ group, contest rank group = some (winner, losers) ↔
      sortBy rank group = winner :: losers ∧ losers ≠ [] := by
    intro group
    unfold contest
    split
    · rename_i first second rest heq
      rw [heq]
      constructor
      · rintro ⟨⟩
        exact ⟨rfl, List.cons_ne_nil _ _⟩
      · rintro ⟨heq, -⟩
        obtain ⟨rfl, rfl⟩ := List.cons.inj heq
        rfl
    · rename_i hshort
      constructor
      · intro h
        cases h
      · rintro ⟨heq, hne⟩
        obtain ⟨second, rest, rfl⟩ := List.exists_cons_of_ne_nil hne
        exact absurd heq (hshort _ _ _)
  unfold contests
  rw [List.mem_filterMap]
  constructor
  · rintro ⟨⟨k, items⟩, hmem, hwon⟩
    obtain ⟨rfl, -⟩ := (hgroups.mem_iff k items).mp hmem
    exact ⟨k, (hcontest _).mp hwon⟩
  · rintro ⟨k, hwon⟩
    have hne : l.filter (fun a => key a = some k) ≠ [] := by
      intro hnil
      rw [hnil] at hwon
      cases hwon.1
    exact ⟨(k, _), (hgroups.mem_iff k _).mpr ⟨rfl, hne⟩, (hcontest _).mpr hwon⟩

theorem key_of_mem_contests {c : α × List α} (hc : c ∈ contests key rank l) :
    ∃ k, ∀ a ∈ c.1 :: c.2, a ∈ l ∧ key a = some k := by
  obtain ⟨k, hsorted, -⟩ := mem_contests.mp hc
  refine ⟨k, fun a ha => ?_⟩
  rw [← hsorted, mem_sortBy, List.mem_filter] at ha
  exact ⟨ha.1, by simpa using ha.2⟩

theorem loses_or_loses {a b : α} (ha : a ∈ l) (hb : b ∈ l) (hne : a ≠ b) {k : κ}
    (hka : key a = some k) (hkb : key b = some k) : Loses key rank l a ∨ Loses key rank l b := by
  have hmem : ∀ c ∈ l, key c = some k → c ∈ sortBy rank (l.filter fun a => key a = some k) := by
    intro c hc hkc
    rw [mem_sortBy, List.mem_filter]
    exact ⟨hc, by simpa using hkc⟩
  have ha' := hmem a ha hka
  have hb' := hmem b hb hkb
  cases hsorted : sortBy rank (l.filter fun a => key a = some k) with
  | nil =>
    rw [hsorted] at ha'
    cases ha'
  | cons winner losers =>
    rw [hsorted] at ha' hb'
    rcases List.mem_cons.mp ha' with rfl | ha'
    · rcases List.mem_cons.mp hb' with rfl | hb'
      · exact absurd rfl hne
      · exact .inr ⟨_, mem_contests.mpr ⟨k, hsorted, List.ne_nil_of_mem hb'⟩, hb'⟩
    · exact .inl ⟨_, mem_contests.mpr ⟨k, hsorted, List.ne_nil_of_mem ha'⟩, ha'⟩

theorem not_loses_winner (hnodup : l.Nodup) {c : α × List α} (hc : c ∈ contests key rank l) :
    ¬ Loses key rank l c.1 := by
  rintro ⟨c', hc', hlost⟩
  obtain ⟨k, hsorted, -⟩ := mem_contests.mp hc
  obtain ⟨k', hsorted', -⟩ := mem_contests.mp hc'
  have hmem : c.1 ∈ sortBy rank (l.filter fun a => key a = some k) := by
    rw [hsorted]
    exact List.mem_cons_self
  have hmem' : c.1 ∈ sortBy rank (l.filter fun a => key a = some k') := by
    rw [hsorted']
    exact List.mem_cons_of_mem _ hlost
  rw [mem_sortBy, List.mem_filter, decide_eq_true_eq] at hmem hmem'
  obtain rfl : k = k' := Option.some.inj (hmem.2.symm.trans hmem'.2)
  rw [hsorted] at hsorted'
  obtain ⟨-, hsame⟩ := List.cons.inj hsorted'
  have hdistinct : (c.1 :: c.2).Nodup := by
    rw [← hsorted]
    exact (sortBy_perm rank _).nodup_iff.mpr (hnodup.filter _)
  exact (List.nodup_cons.mp hdistinct).1 (hsame ▸ hlost)

theorem contests_eq_nil
    (h : l.Pairwise fun a b => key a = key b → key a = none) : contests key rank l = [] := by
  refine List.eq_nil_iff_forall_not_mem.mpr fun ⟨winner, losers⟩ hc => ?_
  obtain ⟨k, hsorted, hne⟩ := mem_contests.mp hc
  have hperm := sortBy_perm rank (l.filter fun a => key a = some k)
  have hkeyed : (l.filter fun a => key a = some k).Pairwise fun _ _ => False := by
    refine (h.filter _).imp_of_mem fun {a b} ha hb hab => ?_
    have hka : key a = some k := by simpa using (List.mem_filter.mp ha).2
    have hkb : key b = some k := by simpa using (List.mem_filter.mp hb).2
    rw [hab (hka.trans hkb.symm)] at hka
    cases hka
  obtain ⟨loser, rest, rfl⟩ := List.exists_cons_of_ne_nil hne
  rw [hsorted] at hperm
  have hnone := (hperm.pairwise_iff fun h => h).mpr hkeyed
  exact (List.pairwise_cons.mp hnone).1 loser List.mem_cons_self

end Contests

end HamZaboon.Library
