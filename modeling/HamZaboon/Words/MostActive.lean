import HamZaboon.Library.Results
import HamZaboon.Words.Migration

/-! # What the migration keeps

The backfill keeps the most recently active row of each group among the rows it
finds.  Before it, the rows under one stored key are cut down to the smallest
id, whatever their activity.  So the migration keeps the most active row exactly
when one such row has the smallest id under its stored key
(`Migratable.activeFirst`), and goes through exactly when no row takes the key
of another.
-/

namespace HamZaboon
open Library

namespace WordTable

theorem checked_eq_some {rows : SerialTable LegacyWord LegacyWord.id} {indexed : Bool}
    {t : WordTable} :
    checked rows indexed = some t ↔ t.rows = rows ∧ t.indexed = indexed := by
  unfold checked
  split
  · rename_i h
    constructor
    · rintro ⟨⟩
      exact ⟨rfl, rfl⟩
    · rintro ⟨rfl, rfl⟩
      rfl
  · rename_i h
    constructor
    · intro heq
      cases heq
    · rintro ⟨rfl, rfl⟩
      exact absurd t.unique h

theorem exists_checked {rows : SerialTable LegacyWord LegacyWord.id} {indexed : Bool} :
    (∃ t, checked rows indexed = some t) ↔ (indexed = true → UniqueKeys rows.rows) := by
  unfold checked
  split
  · rename_i h
    exact iff_of_true ⟨_, rfl⟩ h
  · rename_i h
    exact iff_of_false (fun ⟨_, heq⟩ => by cases heq) h

/-- The rows of the table when the backfill begins. -/
def survivors (t : WordTable) : List LegacyWord :=
  (t.rows.rows.map LegacyWord.fill).filter fun r => Smallest (t.rows.rows.map LegacyWord.fill) r

end WordTable

namespace UnicodeLib
variable {lib : UnicodeLib}

/-! ## The kept rows -/

theorem wordKey_eq_none {r : LegacyWord} : lib.wordKey r = none ↔ r.word = none := by
  simp [wordKey]

theorem head_ranked {rows : List LegacyWord} {k : Option UserId × Option String × String}
    {items : List LegacyWord} (hgroup : (k, items) ∈ groupBy lib.wordKey [] rows) :
    ∃ a rest, sortBy LegacyWord.byActivity items = a :: rest ∧ lib.wordKey a = some k ∧ a ∈ rows ∧
      (∀ r ∈ rows, lib.wordKey r = some k → r.activity ≤ a.activity) ∧
      ∀ r ∈ rows, lib.wordKey r = some k → r = a ∨ r ∈ rest := by
  obtain ⟨rfl, hne⟩ := ((groupsOf_groupBy lib.wordKey rows).mem_iff k items).mp hgroup
  have hmem : ∀ r, r ∈ sortBy LegacyWord.byActivity (rows.filter fun r => lib.wordKey r = some k) ↔
      r ∈ rows ∧ lib.wordKey r = some k := by
    intro r
    rw [mem_sortBy, List.mem_filter, decide_eq_true_eq]
  have hsorted := pairwise_sortBy LegacyWord.byActivity (rows.filter fun r => lib.wordKey r = some k)
  cases hlist : sortBy LegacyWord.byActivity (rows.filter fun r => lib.wordKey r = some k) with
  | nil =>
    have hperm := sortBy_perm LegacyWord.byActivity (rows.filter fun r => lib.wordKey r = some k)
    exact absurd (List.perm_nil.mp (hlist ▸ hperm.symm)) hne
  | cons a rest =>
    rw [hlist] at hmem hsorted
    have ha := (hmem a).mp List.mem_cons_self
    refine ⟨a, rest, rfl, ha.2, ha.1, fun r hr hkey => ?_, fun r hr hkey => ?_⟩
    · rcases List.mem_cons.mp ((hmem r).mpr ⟨hr, hkey⟩) with rfl | hrest
      · exact le_rfl
      · exact List.rel_of_pairwise_cons hsorted hrest
    · exact List.mem_cons.mp ((hmem r).mpr ⟨hr, hkey⟩)

theorem mem_keepers {rows : List LegacyWord} {a : LegacyWord} :
    a ∈ lib.keepers rows ↔ ∃ k items rest, (k, items) ∈ groupBy lib.wordKey [] rows ∧
      sortBy LegacyWord.byActivity items = a :: rest := by
  simp only [keepers, rankedGroups, List.mem_filterMap, List.mem_map]
  constructor
  · rintro ⟨_, ⟨⟨k, items⟩, hgroup, rfl⟩, hhead⟩
    obtain ⟨rest, hrest⟩ := List.head?_eq_some_iff.mp hhead
    exact ⟨k, items, rest, hgroup, hrest⟩
  · rintro ⟨k, items, rest, hgroup, hrest⟩
    exact ⟨_, ⟨(k, items), hgroup, rfl⟩, List.head?_eq_some_iff.mpr ⟨rest, hrest⟩⟩

theorem keeper_spec {rows : List LegacyWord} {a : LegacyWord} (h : a ∈ lib.keepers rows) :
    a ∈ rows ∧ ∃ k, lib.wordKey a = some k ∧
      ∀ r ∈ rows, lib.wordKey r = some k → r.activity ≤ a.activity := by
  obtain ⟨k, items, rest, hgroup, hrest⟩ := mem_keepers.mp h
  obtain ⟨b, _, hrest', hkey, hb, hmax, -⟩ := head_ranked hgroup
  obtain ⟨rfl, -⟩ := List.cons.inj (hrest.symm.trans hrest')
  exact ⟨hb, k, hkey, hmax⟩

theorem exists_keeper {rows : List LegacyWord} {r : LegacyWord} (hr : r ∈ rows)
    {k : Option UserId × Option String × String} (hkey : lib.wordKey r = some k) :
    ∃ a ∈ lib.keepers rows, lib.wordKey a = some k := by
  have hne : rows.filter (fun r => lib.wordKey r = some k) ≠ [] :=
    List.ne_nil_of_mem (List.mem_filter.mpr ⟨hr, decide_eq_true hkey⟩)
  have hgroup := ((groupsOf_groupBy lib.wordKey rows).mem_iff k _).mpr ⟨rfl, hne⟩
  obtain ⟨a, rest, hrest, hkey, -⟩ := head_ranked hgroup
  exact ⟨a, mem_keepers.mpr ⟨k, _, rest, hgroup, hrest⟩, hkey⟩

theorem pairwise_keepers (rows : List LegacyWord) :
    (lib.keepers rows).Pairwise fun a b => lib.wordKey a ≠ lib.wordKey b := by
  have hkeys : (groupBy lib.wordKey [] rows).Pairwise fun g g' => g.1 ≠ g'.1 :=
    List.pairwise_map.mp (groupsOf_groupBy lib.wordKey rows).nodup
  unfold keepers rankedGroups
  rw [List.filterMap_map]
  refine (List.Pairwise.and_mem.mp hkeys).filterMap _ ?_
  rintro ⟨k, items⟩ ⟨k', items'⟩ ⟨hg, hg', hne⟩ a ha b hb heq
  obtain ⟨a', _, hrest, hkey, -⟩ := head_ranked hg
  obtain ⟨b', _, hrest', hkey', -⟩ := head_ranked hg'
  have ha' : (sortBy LegacyWord.byActivity items).head? = some a := ha
  have hb' : (sortBy LegacyWord.byActivity items').head? = some b := hb
  rw [hrest, List.head?_cons, Option.some.injEq] at ha'
  rw [hrest', List.head?_cons, Option.some.injEq] at hb'
  rw [← ha', ← hb', hkey, hkey'] at heq
  exact hne (Option.some.inj heq)

theorem mem_staleIds {rows : List LegacyWord} (hids : (rows.map LegacyWord.id).Nodup)
    {r : LegacyWord} (hr : r ∈ rows) :
    r.id ∈ lib.staleIds rows ↔ ∃ k items a rest, (k, items) ∈ groupBy lib.wordKey [] rows ∧
      sortBy LegacyWord.byActivity items = a :: rest ∧ r ∈ rest := by
  have hgroups := groupsOf_groupBy lib.wordKey rows
  simp only [staleIds, rankedGroups, List.mem_flatMap, List.mem_map]
  constructor
  · rintro ⟨_, ⟨⟨k, items⟩, hgroup, rfl⟩, r', hr', hid⟩
    obtain ⟨a, rest, hrest, -⟩ := head_ranked hgroup
    have hr' : r' ∈ rest := by rwa [show sortBy _ (k, items).2 = _ from hrest] at hr'
    have hmem : r' ∈ items := (mem_sortBy LegacyWord.byActivity).mp (hrest ▸ .tail _ hr')
    rw [((hgroups.mem_iff k items).mp hgroup).1] at hmem
    have heq := List.inj_on_of_nodup_map hids (List.mem_of_mem_filter hmem) hr hid
    exact ⟨k, items, a, rest, hgroup, hrest, heq ▸ hr'⟩
  · rintro ⟨k, items, a, rest, hgroup, hrest, hmem⟩
    exact ⟨_, ⟨(k, items), hgroup, rfl⟩, r, by rwa [show sortBy _ (k, items).2 = _ from hrest],
      rfl⟩

theorem not_mem_staleIds {rows : List LegacyWord} (hids : (rows.map LegacyWord.id).Nodup)
    {r : LegacyWord} (hr : r ∈ rows) :
    r.id ∉ lib.staleIds rows ↔ r.word = none ∨ r ∈ lib.keepers rows := by
  have hgroups := groupsOf_groupBy lib.wordKey rows
  rw [mem_staleIds hids hr]
  constructor
  · intro hkept
    cases hkey : lib.wordKey r with
    | none => exact .inl (wordKey_eq_none.mp hkey)
    | some k =>
      have hne : rows.filter (fun r => lib.wordKey r = some k) ≠ [] :=
        List.ne_nil_of_mem (List.mem_filter.mpr ⟨hr, decide_eq_true hkey⟩)
      have hgroup := (hgroups.mem_iff k _).mpr ⟨rfl, hne⟩
      obtain ⟨a, rest, hrest, -, -, -, hall⟩ := head_ranked hgroup
      rcases hall r hr hkey with rfl | hmem
      · exact .inr (mem_keepers.mpr ⟨k, _, rest, hgroup, hrest⟩)
      · exact absurd ⟨k, _, a, rest, hgroup, hrest, hmem⟩ hkept
  · rintro hor ⟨k, items, a, rest, hgroup, hrest, hmem⟩
    obtain ⟨rfl, -⟩ := (hgroups.mem_iff k items).mp hgroup
    have hkey : lib.wordKey r = some k := by
      have : r ∈ sortBy LegacyWord.byActivity (rows.filter fun r => lib.wordKey r = some k) :=
        hrest ▸ .tail _ hmem
      exact of_decide_eq_true (List.mem_filter.mp ((mem_sortBy _).mp this)).2
    rcases hor with hnone | hkeeper
    · rw [wordKey_eq_none.mpr hnone] at hkey
      cases hkey
    · -- The first row of the one group with this key is not among the others.
      obtain ⟨k', items', rest', hgroup', hrest'⟩ := mem_keepers.mp hkeeper
      obtain ⟨r', _, hrest'', hkey', -⟩ := head_ranked hgroup'
      obtain ⟨rfl, -⟩ := List.cons.inj (hrest''.symm.trans hrest')
      obtain rfl : k' = k := Option.some.inj (hkey'.symm.trans hkey)
      obtain ⟨rfl, -⟩ := (hgroups.mem_iff k' items').mp hgroup'
      obtain ⟨rfl, rfl⟩ := List.cons.inj (hrest.symm.trans hrest')
      have hnodup : (a :: rest).Nodup := by
        rw [← hrest, (sortBy_perm LegacyWord.byActivity _).nodup_iff]
        exact (List.Nodup.of_map _ hids).filter _
      exact (List.nodup_cons.mp hnodup).1 hmem

/-! ## Writing the keys -/

variable (lib) in
/-- The row after the keys of the rows in `done` have been written. -/
def renormIn (done : List LegacyWord) (r : LegacyWord) : LegacyWord :=
  if r.id ∈ done.map LegacyWord.id then lib.renorm r else r

@[simp] theorem id_renorm (r : LegacyWord) : (lib.renorm r).id = r.id := rfl

@[simp] theorem id_renormIn (done : List LegacyWord) (r : LegacyWord) :
    (lib.renormIn done r).id = r.id := by
  unfold renormIn
  split <;> rfl

@[simp] theorem wordKey_renormIn (done : List LegacyWord) (r : LegacyWord) :
    lib.wordKey (lib.renormIn done r) = lib.wordKey r := by
  unfold renormIn
  split <;> rfl

@[simp] theorem activity_renormIn (done : List LegacyWord) (r : LegacyWord) :
    (lib.renormIn done r).activity = r.activity := by
  unfold renormIn
  split <;> rfl

theorem indexKey_renorm {r : LegacyWord} {user : UserId} {lang normalized : String} :
    (lib.renorm r).indexKey = some (user, lang, normalized) ↔
      lib.wordKey r = some (some user, some lang, normalized) := by
  obtain ⟨id, userId, word, language, old, addedAt, lastReviewAt⟩ := r
  cases userId <;> cases language <;> cases word <;> simp [renorm, LegacyWord.indexKey, wordKey]

/-- The rows `T` that are there while the keys of `before` have been written and
those of `after` have not. -/
structure Writing (lib : UnicodeLib) (T before after : List LegacyWord) (t : WordTable) : Prop where
  rows : t.rows.rows = T.map (lib.renormIn before)
  ids : (T.map LegacyWord.id).Nodup
  sub : before ++ after ⊆ T
  keyed : ∀ a ∈ before ++ after, lib.wordKey a ≠ none
  distinct : (before ++ after).Pairwise fun a b => lib.wordKey a ≠ lib.wordKey b
  blank : ∀ r ∈ T, r ∈ before ++ after ∨ r.word = none

namespace Writing
variable {T before after : List LegacyWord} {a : LegacyWord} {t : WordTable}

theorem eq_of_id (h : lib.Writing T before after t) {r r' : LegacyWord} (hr : r ∈ T) (hr' : r' ∈ T)
    (hid : r.id = r'.id) : r = r' :=
  List.inj_on_of_nodup_map h.ids hr hr' hid

theorem map_next (h : lib.Writing T before (a :: after) t) :
    (T.map (lib.renormIn before)).map (fun r => if r.id = a.id then
        { r with normalizedWord := (lib.renorm a).normalizedWord } else r) =
      T.map (lib.renormIn (before ++ [a])) := by
  rw [List.map_map]
  refine List.map_congr_left fun r hr => ?_
  have ha : a ∈ T := h.sub (by simp)
  simp only [Function.comp_apply, id_renormIn]
  by_cases hid : r.id = a.id
  · obtain rfl := h.eq_of_id hr ha hid
    rw [if_pos rfl]
    by_cases hdone : r.id ∈ before.map LegacyWord.id <;> simp [renormIn, hdone, renorm]
  · rw [if_neg hid]
    simp [renormIn, hid]

theorem map_same (h : lib.Writing T before (a :: after) t) (hsame : lib.renorm a = a) :
    T.map (lib.renormIn before) = T.map (lib.renormIn (before ++ [a])) := by
  refine List.map_congr_left fun r hr => ?_
  have ha : a ∈ T := h.sub (by simp)
  by_cases hid : r.id = a.id
  · obtain rfl := h.eq_of_id hr ha hid
    by_cases hdone : r.id ∈ before.map LegacyWord.id <;> simp [renormIn, hdone, hsame]
  · simp [renormIn, hid]

theorem next (h : lib.Writing T before (a :: after) t) {t' : WordTable}
    (ht' : t'.rows.rows = T.map (lib.renormIn (before ++ [a]))) :
    lib.Writing T (before ++ [a]) after t' := by
  have happ : before ++ a :: after = before ++ [a] ++ after := by simp
  exact ⟨ht', h.ids, happ ▸ h.sub, happ ▸ h.keyed, happ ▸ h.distinct, happ ▸ h.blank⟩

theorem renormIn_other (h : lib.Writing T before (a :: after) t) {r : LegacyWord}
    (hr : r ∈ after ∨ r ∈ T ∧ r.word = none) :
    r ∈ T ∧ r.id ≠ a.id ∧ lib.renormIn (before ++ [a]) r = r := by
  have happ : before ++ a :: after = before ++ [a] ++ after := by simp
  have hrT : r ∈ T := hr.elim (fun hr => h.sub (by simp [hr])) fun hr => hr.1
  have hnot : r ∉ before ++ [a] := by
    intro hmem
    rcases hr with hr | ⟨-, hnone⟩
    · have := h.distinct
      rw [happ] at this
      exact (List.pairwise_append.mp this).2.2 r hmem r hr rfl
    · refine h.keyed r ?_ (wordKey_eq_none.mpr hnone)
      rw [happ]
      exact List.mem_append_left _ hmem
  have hids : r.id ∉ (before ++ [a]).map LegacyWord.id := by
    intro hmem
    obtain ⟨b, hb, hid⟩ := List.mem_map.mp hmem
    have hbT : b ∈ T := h.sub (by rw [happ]; exact List.mem_append_left _ hb)
    exact hnot (h.eq_of_id hbT hrT hid ▸ hb)
  refine ⟨hrT, fun hid => hids ?_, if_neg hids⟩
  simp [hid]

theorem renormIn_self : lib.renormIn (before ++ [a]) a = lib.renorm a := by simp [renormIn]

theorem indexKey_ne (h : lib.Writing T before (a :: after) t)
    (hfree : ∀ r, r ∈ after ∨ r ∈ T ∧ r.word = none → ∀ user lang normalized,
      lib.wordKey a = some (some user, some lang, normalized) →
        r.indexKey ≠ some (user, lang, normalized))
    {r : LegacyWord} (hr : r ∈ T) (hid : r.id ≠ a.id) (hsome : (lib.renorm a).indexKey ≠ none) :
    (lib.renorm a).indexKey ≠ (lib.renormIn (before ++ [a]) r).indexKey := by
  intro heq
  obtain ⟨⟨user, lang, normalized⟩, hakey⟩ := Option.ne_none_iff_exists'.mp hsome
  have hkey := indexKey_renorm.mp hakey
  have hfresh : ¬ (r ∈ after ∨ r ∈ T ∧ r.word = none) := by
    intro hr
    rw [(h.renormIn_other hr).2.2, hakey] at heq
    exact hfree r hr user lang normalized hkey heq.symm
  rcases h.blank r hr with hmem | hnone
  · rcases List.mem_append.mp hmem with hbefore | hmem
    · have hdone : lib.renormIn (before ++ [a]) r = lib.renorm r := by
        rw [renormIn, if_pos (List.mem_map.mpr ⟨r, List.mem_append_left _ hbefore, rfl⟩)]
      rw [hdone, hakey] at heq
      refine (List.pairwise_append.mp h.distinct).2.2 r hbefore a List.mem_cons_self ?_
      rw [hkey, indexKey_renorm.mp heq.symm]
    · rcases List.mem_cons.mp hmem with rfl | hafter
      · exact hid rfl
      · exact hfresh (.inl hafter)
  · exact hfresh (.inr ⟨hr, hnone⟩)

/-- **One key is written** without a clash exactly when no row that is not done
has it. -/
theorem uniqueKeys_next (h : lib.Writing T before (a :: after) t) (hold : UniqueKeys t.rows.rows) :
    UniqueKeys (T.map (lib.renormIn (before ++ [a]))) ↔
      ∀ r, r ∈ after ∨ r ∈ T ∧ r.word = none → ∀ user lang normalized,
        lib.wordKey a = some (some user, some lang, normalized) →
          r.indexKey ≠ some (user, lang, normalized) := by
  have haT : a ∈ T := h.sub (by simp)
  have hother : ∀ r, r.id ≠ a.id → lib.renormIn (before ++ [a]) r = lib.renormIn before r := by
    intro r hid
    simp [renormIn, hid]
  constructor
  · intro hunique r hr user lang normalized hkey hindex
    obtain ⟨hrT, hid, hsame⟩ := h.renormIn_other hr
    have hakey : (lib.renorm a).indexKey = some (user, lang, normalized) := indexKey_renorm.mpr hkey
    refine hid.symm (hunique _ (List.mem_map.mpr ⟨a, haT, renormIn_self⟩) r
      (List.mem_map.mpr ⟨r, hrT, hsame⟩) ?_ (hakey.trans hindex.symm))
    rw [hakey]
    simp
  · intro hfree p hp q hq hsome heq
    obtain ⟨x, hx, rfl⟩ := List.mem_map.mp hp
    obtain ⟨y, hy, rfl⟩ := List.mem_map.mp hq
    simp only [id_renormIn]
    by_cases hxa : x.id = a.id
    · obtain rfl := h.eq_of_id hx haT hxa
      by_contra hne
      rw [renormIn_self] at hsome heq
      exact h.indexKey_ne hfree hy (Ne.symm hne) hsome heq
    · by_cases hya : y.id = a.id
      · obtain rfl := h.eq_of_id hy haT hya
        rw [renormIn_self] at heq
        exact absurd heq.symm (h.indexKey_ne hfree hx hxa (heq ▸ hsome))
      · rw [hother x hxa] at hsome heq
        rw [hother y hya] at heq
        have hold' := h.rows ▸ hold
        simpa using hold' _ (List.mem_map.mpr ⟨x, hx, rfl⟩) _ (List.mem_map.mpr ⟨y, hy, rfl⟩)
          hsome heq

theorem update_spec (h : lib.Writing T before (a :: after) t) :
    ((∃ t', t.update (fun r => r.id = a.id)
        (fun r => { r with normalizedWord := (lib.renorm a).normalizedWord }) (fun _ => rfl) =
          some t') ↔ (t.indexed = true → ∀ r, r ∈ after ∨ r ∈ T ∧ r.word = none →
            ∀ user lang normalized, lib.wordKey a = some (some user, some lang, normalized) →
              r.indexKey ≠ some (user, lang, normalized))) ∧
      ∀ t', t.update (fun r => r.id = a.id)
          (fun r => { r with normalizedWord := (lib.renorm a).normalizedWord }) (fun _ => rfl) =
            some t' →
        t'.indexed = t.indexed ∧ t'.rows.rows = T.map (lib.renormIn (before ++ [a])) := by
  have hrows : (t.rows.updateWhere (fun r => r.id = a.id)
      (fun r => { r with normalizedWord := (lib.renorm a).normalizedWord })
        fun _ => rfl).rows = T.map (lib.renormIn (before ++ [a])) := by
    rw [SerialTable.rows_updateWhere, h.rows, ← h.map_next]
    simp
  constructor
  · rw [WordTable.update, WordTable.exists_checked, hrows]
    exact forall_congr' fun hindexed => h.uniqueKeys_next (t.unique hindexed)
  · intro t' ht'
    obtain ⟨hrows', hindexed⟩ := WordTable.checked_eq_some.mp ht'
    exact ⟨hindexed, by rw [hrows', hrows]⟩

end Writing

theorem forall_split_cons {α : Type} {P : α → List α → Prop} {a : α} {l : List α} :
    (∀ x b c, a :: l = x ++ b :: c → P b c) ↔ P a l ∧ ∀ x b c, l = x ++ b :: c → P b c := by
  constructor
  · intro h
    exact ⟨h [] a l rfl, fun x b c hl => h (a :: x) b c (by rw [hl, List.cons_append])⟩
  · rintro ⟨hhead, htail⟩ x b c heq
    cases x with
    | nil =>
      obtain ⟨rfl, rfl⟩ := List.cons.inj heq
      exact hhead
    | cons y x => exact htail x b c (List.cons.inj heq).2

/-- **The updates of the backfill** go through exactly when, on a table with the
index, no key is written that a later row or a row without a word has. -/
theorem writeKeys_spec {T before after : List LegacyWord} {t : WordTable}
    (h : lib.Writing T before after t) :
    ((∃ t', t.writeKeys (lib.keyUpdates after) = some t') ↔ (t.indexed = true →
      ∀ a b c, after = a ++ b :: c → b.normalizedWord ≠ (lib.renorm b).normalizedWord →
        ∀ r, r ∈ c ∨ r ∈ T ∧ r.word = none → ∀ user lang normalized,
          lib.wordKey b = some (some user, some lang, normalized) →
            r.indexKey ≠ some (user, lang, normalized))) ∧
      ∀ t', t.writeKeys (lib.keyUpdates after) = some t' →
        t'.indexed = t.indexed ∧ t'.rows.rows = T.map (lib.renormIn (before ++ after)) := by
  induction after generalizing before t with
  | nil =>
    refine ⟨iff_of_true ⟨t, rfl⟩ (fun _ a b c heq => by simp at heq), fun t' ht' => ?_⟩
    cases ht'
    exact ⟨rfl, by rw [h.rows, List.append_nil]⟩
  | cons a after ih =>
    have happ : before ++ a :: after = before ++ [a] ++ after := by simp
    rw [happ, forall_split_cons]
    by_cases hstale : a.normalizedWord = (lib.renorm a).normalizedWord
    · have hsame : lib.renorm a = a := by
        rw [renorm, ← show a.normalizedWord = a.word.map lib.normalizeWord from hstale]
      have hupdates : lib.keyUpdates (a :: after) = lib.keyUpdates after := by
        simp [keyUpdates, ← hstale]
      rw [hupdates]
      obtain ⟨hok, hrows⟩ := ih (h.next (h.rows.trans (h.map_same hsame)))
      refine ⟨hok.trans ?_, hrows⟩
      exact forall_congr' fun _ => (and_iff_right fun hne => absurd hstale hne).symm
    · have hupdates : lib.keyUpdates (a :: after) =
          ((lib.renorm a).normalizedWord, a.id) :: lib.keyUpdates after := by
        simp [keyUpdates, hstale]
      rw [hupdates, WordTable.writeKeys]
      obtain ⟨hwritten, hnext⟩ := h.update_spec
      refine ⟨?_, fun t' ht' => ?_⟩
      · simp only [forall_and, ne_eq, hstale, not_false_eq_true, forall_const]
        refine exists_bind hwritten fun t₁ ht₁ => ?_
        obtain ⟨hindexed, hrows₁⟩ := hnext t₁ ht₁
        rw [(ih (h.next hrows₁)).1, hindexed]
      · obtain ⟨t₁, ht₁, ht'⟩ := Option.bind_eq_some_iff.mp ht'
        obtain ⟨hindexed, hrows₁⟩ := hnext t₁ ht₁
        exact hindexed ▸ (ih (h.next hrows₁)).2 t' ht'

/-! ## The migration -/

variable (lib) in
/-- Exactly one row is left for each word key that occurs, and it is a most
recently active one, with its key written; the table has the unique index. -/
def KeepsMostActive (before : List LegacyWord) (after : Option WordTable) : Prop :=
  ∃ t, after = some t ∧ t.indexed = true ∧
    ∀ r ∈ before, ∀ k, lib.wordKey r = some k →
      ∃ original ∈ before, lib.wordKey original = some k ∧
        (∀ other ∈ before, lib.wordKey other = some k → other.activity ≤ original.activity) ∧
        lib.renorm original ∈ t.rows.rows ∧
        ∀ left ∈ t.rows.rows, lib.wordKey left = some k → left = lib.renorm original

variable (lib) in
/-- When the migration keeps the most active rows. -/
structure Migratable (t : WordTable) : Prop where
  /-- With the index: the keys that are filled in are free. -/
  fillFree : t.indexed = true → UniqueKeys (t.rows.rows.map LegacyWord.fill)
  /-- Among the most active rows with a word key, one has the smallest id under
  its stored key. -/
  activeFirst : ∀ r ∈ t.rows.rows, ∀ k, lib.wordKey r = some k →
    ∃ best ∈ t.rows.rows, lib.wordKey best = some k ∧
      WordTable.Smallest (t.rows.rows.map LegacyWord.fill) best.fill ∧
      ∀ other ∈ t.rows.rows, lib.wordKey other = some k → other.activity ≤ best.activity
  /-- No row without a word, of those with the smallest id under their stored
  key, is stored under a word key. -/
  blankFree : ∀ blank ∈ t.rows.rows, blank.word = none →
    WordTable.Smallest (t.rows.rows.map LegacyWord.fill) blank.fill →
      ∀ r ∈ t.rows.rows, ∀ user lang normalized,
        lib.wordKey r = some (some user, some lang, normalized) →
          blank.fill.indexKey ≠ some (user, lang, normalized)
  /-- With the index: no key is written that a row still has whose own is written
  later. -/
  writtenFree : t.indexed = true → ∀ a b c,
    lib.keepers t.survivors = a ++ b :: c →
      b.normalizedWord ≠ (lib.renorm b).normalizedWord →
        ∀ r ∈ c, ∀ user lang normalized,
          lib.wordKey b = some (some user, some lang, normalized) →
            r.indexKey ≠ some (user, lang, normalized)

@[simp] theorem id_fill (r : LegacyWord) : r.fill.id = r.id := by
  unfold LegacyWord.fill
  split <;> rfl

@[simp] theorem word_fill (r : LegacyWord) : r.fill.word = r.word := by
  unfold LegacyWord.fill
  split <;> rfl

@[simp] theorem wordKey_fill (r : LegacyWord) : lib.wordKey r.fill = lib.wordKey r := by
  unfold LegacyWord.fill
  split <;> rfl

@[simp] theorem activity_fill (r : LegacyWord) : r.fill.activity = r.activity := by
  unfold LegacyWord.fill
  split <;> rfl

@[simp] theorem renorm_fill (r : LegacyWord) : lib.renorm r.fill = lib.renorm r := by
  unfold LegacyWord.fill
  split <;> rfl

theorem mem_survivors {t : WordTable} {r : LegacyWord} :
    r ∈ t.survivors ↔ ∃ old ∈ t.rows.rows, old.fill = r ∧
      WordTable.Smallest (t.rows.rows.map LegacyWord.fill) r := by
  rw [WordTable.survivors, List.mem_filter, List.mem_map, decide_eq_true_eq]
  constructor
  · rintro ⟨⟨old, hold, rfl⟩, hsmall⟩
    exact ⟨old, hold, rfl, hsmall⟩
  · rintro ⟨old, hold, rfl, hsmall⟩
    exact ⟨⟨old, hold, rfl⟩, hsmall⟩

variable (lib) in
/-- The rows the backfill does not delete. -/
def undeleted (t : WordTable) : List LegacyWord :=
  t.survivors.filter fun r => !decide (r.id ∈ lib.staleIds t.survivors)

theorem nodup_ids_survivors (t : WordTable) : (t.survivors.map LegacyWord.id).Nodup := by
  have hids : ((t.rows.rows.map LegacyWord.fill).map LegacyWord.id).Nodup := by
    rw [List.map_map]
    exact (List.map_congr_left fun r _ => id_fill r) ▸ t.rows.nodup_keys
  exact hids.sublist (List.filter_sublist.map LegacyWord.id)

theorem mem_undeleted {t : WordTable} {r : LegacyWord} :
    r ∈ lib.undeleted t ↔
      r ∈ t.survivors ∧ (r.word = none ∨ r ∈ lib.keepers t.survivors) := by
  rw [undeleted, List.mem_filter, Bool.not_eq_true', decide_eq_false_iff_not]
  exact and_congr_right fun hr => not_mem_staleIds (nodup_ids_survivors t) hr

theorem keepers_subset (t : WordTable) : lib.keepers t.survivors ⊆ lib.undeleted t :=
  fun _ ha => mem_undeleted.mpr ⟨(keeper_spec ha).1, .inr ha⟩

variable (lib) in
def migrated (t : WordTable) : List LegacyWord :=
  (lib.undeleted t).map (lib.renormIn (lib.keepers t.survivors))

theorem fillKeys_spec (t : WordTable) :
    ((∃ t', t.fillKeys = some t') ↔
      (t.indexed = true → UniqueKeys (t.rows.rows.map LegacyWord.fill))) ∧
      ∀ t', t.fillKeys = some t' →
        t'.indexed = t.indexed ∧ t'.rows.rows = t.rows.rows.map LegacyWord.fill := by
  have hrows : (t.rows.updateWhere (fun r => r.normalizedWord = none) LegacyWord.fill
      id_fill).rows = t.rows.rows.map LegacyWord.fill := by
    rw [SerialTable.rows_updateWhere]
    refine List.map_congr_left fun r _ => ?_
    unfold LegacyWord.fill
    split <;> simp_all
  constructor
  · rw [WordTable.fillKeys, WordTable.update, WordTable.exists_checked, hrows]
  · intro t' ht'
    obtain ⟨hrows', hindexed⟩ := WordTable.checked_eq_some.mp ht'
    exact ⟨hindexed, by rw [hrows', hrows]⟩

theorem writing_keepers {t t' : WordTable} (hrows : t'.rows.rows = lib.undeleted t) :
    lib.Writing (lib.undeleted t) [] (lib.keepers t.survivors) t' where
  rows := by
    rw [hrows]
    conv_lhs => rw [← List.map_id (lib.undeleted t)]
    exact List.map_congr_left fun r _ => by simp [renormIn]
  ids := hrows ▸ t'.rows.nodup_keys
  sub := keepers_subset t
  keyed a ha hnone := by
    obtain ⟨-, k, hkey, -⟩ := keeper_spec ha
    rw [hnone] at hkey
    cases hkey
  distinct := pairwise_keepers _
  blank r hr := (mem_undeleted.mp hr).2.symm

theorem backfill_spec (lib : UnicodeLib) {t t₁ : WordTable} (hindexed : t₁.indexed = t.indexed)
    (hrows : t₁.rows.rows = t.rows.rows.map LegacyWord.fill) :
    ((∃ t', lib.backfill false t₁.dedupe = some t') ↔
      (t.indexed = true → ∀ a b c, lib.keepers t.survivors = a ++ b :: c →
        b.normalizedWord ≠ (lib.renorm b).normalizedWord →
          ∀ r, r ∈ c ∨ r ∈ lib.undeleted t ∧ r.word = none → ∀ user lang normalized,
            lib.wordKey b = some (some user, some lang, normalized) →
              r.indexKey ≠ some (user, lang, normalized))) ∧
      ∀ t', lib.backfill false t₁.dedupe = some t' → t'.rows.rows = lib.migrated t := by
  have hrows₂ : t₁.dedupe.rows.rows = t.survivors := by
    show t₁.rows.rows.filter _ = _
    rw [WordTable.survivors, ← hrows]
    simp
  let t₃ := t₁.dedupe.delete fun r => r.id ∈ lib.staleIds t₁.dedupe.rows.rows
  have hrows₃ : t₃.rows.rows = lib.undeleted t := by
    show t₁.dedupe.rows.rows.filter _ = _
    rw [undeleted, hrows₂]
  have hindexed₃ : t₃.indexed = t.indexed := hindexed
  obtain ⟨hok, hwritten⟩ := writeKeys_spec (writing_keepers hrows₃)
  have hrun : lib.backfill false t₁.dedupe =
      t₃.writeKeys (lib.keyUpdates (lib.keepers t.survivors)) := by
    rw [← hrows₂]
    rfl
  rw [hrun, ← hindexed₃]
  exact ⟨hok, fun t' ht' => (hwritten t' ht').2⟩

/-- **The migration**, when it goes through and what it leaves. -/
theorem initWords_spec (t : WordTable) :
    ((∃ t', lib.initWords false t = some t') ↔
      (t.indexed = true → UniqueKeys (t.rows.rows.map LegacyWord.fill)) ∧
      (t.indexed = true → ∀ a b c, lib.keepers t.survivors = a ++ b :: c →
        b.normalizedWord ≠ (lib.renorm b).normalizedWord →
          ∀ r, r ∈ c ∨ r ∈ lib.undeleted t ∧ r.word = none → ∀ user lang normalized,
            lib.wordKey b = some (some user, some lang, normalized) →
              r.indexKey ≠ some (user, lang, normalized)) ∧
      UniqueKeys (lib.migrated t)) ∧
    ∀ t', lib.initWords false t = some t' →
      t'.indexed = true ∧ t'.rows.rows = lib.migrated t := by
  obtain ⟨hfills, hfilled⟩ := fillKeys_spec t
  constructor
  · refine exists_bind hfills fun t₁ ht₁ => ?_
    obtain ⟨hindexed, hrows⟩ := hfilled t₁ ht₁
    obtain ⟨hok, hwritten⟩ := backfill_spec lib hindexed hrows
    refine exists_bind hok fun t₂ ht₂ => ?_
    rw [WordTable.createIndex, WordTable.exists_checked, hwritten t₂ ht₂]
    exact forall_prop_of_true rfl
  · intro t' ht'
    obtain ⟨t₁, ht₁, ht'⟩ := Option.bind_eq_some_iff.mp ht'
    obtain ⟨hindexed, hrows⟩ := hfilled t₁ ht₁
    obtain ⟨t₂, ht₂, ht'⟩ := Option.bind_eq_some_iff.mp ht'
    obtain ⟨hrows', hindexed'⟩ := WordTable.checked_eq_some.mp ht'
    refine ⟨hindexed', ?_⟩
    rw [hrows']
    exact (backfill_spec lib hindexed hrows).2 t₂ ht₂

/-! ## The rows at the end -/

theorem keeper_injective {t : WordTable} {a b : LegacyWord} (ha : a ∈ lib.keepers t.survivors)
    (hb : b ∈ lib.keepers t.survivors) (hkey : lib.wordKey a = lib.wordKey b) : a = b :=
  List.inj_on_of_nodup_map (List.pairwise_map.mpr (pairwise_keepers t.survivors)) ha hb hkey

theorem undeleted_injective {t : WordTable} {a b : LegacyWord} (ha : a ∈ lib.undeleted t)
    (hb : b ∈ lib.undeleted t) (hid : a.id = b.id) : a = b :=
  List.inj_on_of_nodup_map (nodup_ids_survivors t) (mem_undeleted.mp ha).1 (mem_undeleted.mp hb).1
    hid

theorem renormIn_keeper {t : WordTable} {a : LegacyWord} (ha : a ∈ lib.keepers t.survivors) :
    lib.renormIn (lib.keepers t.survivors) a = lib.renorm a :=
  if_pos (List.mem_map.mpr ⟨a, ha, rfl⟩)

theorem renormIn_blank {t : WordTable} {r : LegacyWord} (hr : r ∈ lib.undeleted t)
    (hblank : r.word = none) : lib.renormIn (lib.keepers t.survivors) r = r := by
  refine if_neg fun hmem => ?_
  obtain ⟨a, ha, hid⟩ := List.mem_map.mp hmem
  obtain rfl := undeleted_injective (keepers_subset t ha) hr hid
  obtain ⟨-, k, hkey, -⟩ := keeper_spec ha
  rw [wordKey_eq_none.mpr hblank] at hkey
  cases hkey

theorem mem_migrated {t : WordTable} {r : LegacyWord} :
    r ∈ lib.migrated t ↔ (∃ a ∈ lib.keepers t.survivors, lib.renorm a = r) ∨
      r ∈ t.survivors ∧ r.word = none := by
  rw [migrated, List.mem_map]
  constructor
  · rintro ⟨x, hx, rfl⟩
    rcases (mem_undeleted.mp hx).2 with hblank | hkeeper
    · rw [renormIn_blank hx hblank]
      exact .inr ⟨(mem_undeleted.mp hx).1, hblank⟩
    · exact .inl ⟨x, hkeeper, (renormIn_keeper hkeeper).symm⟩
  · rintro (⟨a, ha, rfl⟩ | ⟨hr, hblank⟩)
    · exact ⟨a, keepers_subset t ha, renormIn_keeper ha⟩
    · have hr : r ∈ lib.undeleted t := mem_undeleted.mpr ⟨hr, .inl hblank⟩
      exact ⟨r, hr, renormIn_blank hr hblank⟩

theorem survivor_of_indexKey {t : WordTable} {a b : LegacyWord} (ha : a ∈ t.survivors)
    (hb : b ∈ t.survivors) (hsome : a.indexKey ≠ none) (heq : a.indexKey = b.indexKey) :
    a.id = b.id := by
  have hgroup : a.groupKey = b.groupKey := by
    obtain ⟨id, userId, word, lang, normalized, addedAt, lastReviewAt⟩ := a
    obtain ⟨id', userId', word', lang', normalized', addedAt', lastReviewAt'⟩ := b
    cases userId <;> cases lang <;> cases normalized <;> cases userId' <;> cases lang' <;>
      cases normalized' <;> simp_all [LegacyWord.indexKey, LegacyWord.groupKey]
  obtain ⟨old, hold, rfl, hsmall⟩ := mem_survivors.mp ha
  obtain ⟨old', hold', rfl, hsmall'⟩ := mem_survivors.mp hb
  exact le_antisymm (hsmall _ (List.mem_map.mpr ⟨old', hold', rfl⟩) hgroup.symm)
    (hsmall' _ (List.mem_map.mpr ⟨old, hold, rfl⟩) hgroup)

theorem uniqueKeys_migrated (t : WordTable) :
    UniqueKeys (lib.migrated t) ↔ ∀ a ∈ lib.keepers t.survivors, ∀ blank ∈ t.survivors,
      blank.word = none → ∀ user lang normalized,
        lib.wordKey a = some (some user, some lang, normalized) →
          blank.indexKey ≠ some (user, lang, normalized) := by
  constructor
  · intro hunique a ha blank hblank hnone user lang normalized hkey hindex
    have hakey : (lib.renorm a).indexKey = some (user, lang, normalized) := indexKey_renorm.mpr hkey
    have hid := hunique _ (mem_migrated.mpr (.inl ⟨a, ha, rfl⟩)) blank
      (mem_migrated.mpr (.inr ⟨hblank, hnone⟩)) (by simp [hakey]) (hakey.trans hindex.symm)
    obtain rfl := List.inj_on_of_nodup_map (nodup_ids_survivors t) (keeper_spec ha).1 hblank hid
    rw [wordKey_eq_none.mpr hnone] at hkey
    cases hkey
  · intro hfree p hp q hq hsome heq
    have hclear : ∀ a ∈ lib.keepers t.survivors, ∀ blank ∈ t.survivors, blank.word = none →
        (lib.renorm a).indexKey ≠ none → (lib.renorm a).indexKey ≠ blank.indexKey := by
      intro a ha blank hblank hnone hsome heq
      obtain ⟨⟨user, lang, normalized⟩, hakey⟩ := Option.ne_none_iff_exists'.mp hsome
      exact hfree a ha blank hblank hnone user lang normalized (indexKey_renorm.mp hakey)
        (heq.symm.trans hakey)
    rcases mem_migrated.mp hp with ⟨a, ha, rfl⟩ | ⟨hp, hpblank⟩
    · rcases mem_migrated.mp hq with ⟨b, hb, rfl⟩ | ⟨hq, hqblank⟩
      · obtain ⟨⟨user, lang, normalized⟩, hakey⟩ := Option.ne_none_iff_exists'.mp hsome
        have hbkey := indexKey_renorm.mp (heq.symm.trans hakey)
        rw [keeper_injective ha hb ((indexKey_renorm.mp hakey).trans hbkey.symm)]
      · exact absurd heq (hclear a ha q hq hqblank hsome)
    · rcases mem_migrated.mp hq with ⟨b, hb, rfl⟩ | ⟨hq, -⟩
      · exact absurd heq.symm (hclear b hb p hp hpblank (heq ▸ hsome))
      · exact survivor_of_indexKey hp hq hsome heq

theorem KeepsMostActive.migratable {t : WordTable}
    (h : lib.KeepsMostActive t.rows.rows (lib.initWords false t)) : lib.Migratable t := by
  obtain ⟨hok, hleft⟩ : _ ∧ ∀ t', lib.initWords false t = some t' →
    t'.indexed = true ∧ t'.rows.rows = lib.migrated t := initWords_spec t
  obtain ⟨t', ht', -, hgroups⟩ := h
  obtain ⟨hfill, hwritten, hunique⟩ := hok.mp ⟨t', ht'⟩
  rw [(hleft t' ht').2] at hgroups
  -- A row that is left was among the survivors.
  have hactive : ∀ r ∈ t.rows.rows, ∀ k, lib.wordKey r = some k →
      ∃ best ∈ t.rows.rows, lib.wordKey best = some k ∧ best.fill ∈ t.survivors ∧
        ∀ other ∈ t.rows.rows, lib.wordKey other = some k → other.activity ≤ best.activity := by
    intro r hr k hkey
    obtain ⟨best, hbest, hbestkey, hmax, hmem, -⟩ := hgroups r hr k hkey
    obtain ⟨x, hx, hxbest⟩ := List.mem_map.mp hmem
    obtain ⟨old, hold, rfl, -⟩ := mem_survivors.mp (mem_undeleted.mp hx).1
    have hid : old.id = best.id := by simpa using congrArg LegacyWord.id hxbest
    obtain rfl := t.rows.key_injective hold hbest hid
    exact ⟨old, hold, hbestkey, (mem_undeleted.mp hx).1, hmax⟩
  refine ⟨hfill, fun r hr k hkey => ?_, fun blank hblank hnone hsmall r hr user lang normalized
    hkey => ?_, fun hindexed a b c heq hstale r hr => hwritten hindexed a b c heq hstale r (.inl hr)⟩
  · obtain ⟨best, hbest, hbestkey, hsurvives, hmax⟩ := hactive r hr k hkey
    exact ⟨best, hbest, hbestkey, (of_decide_eq_true (List.mem_filter.mp hsurvives).2), hmax⟩
  · obtain ⟨best, -, hbestkey, hsurvives, -⟩ := hactive r hr _ hkey
    obtain ⟨a, ha, hakey⟩ := exists_keeper hsurvives ((wordKey_fill best).trans hbestkey)
    exact (uniqueKeys_migrated t).mp hunique a ha blank.fill
      (mem_survivors.mpr ⟨blank, hblank, rfl, hsmall⟩) ((word_fill blank).trans hnone)
      user lang normalized hakey

theorem Migratable.initWords {t : WordTable} (h : lib.Migratable t) :
    ∃ t', lib.initWords false t = some t' ∧ t'.indexed = true ∧
      t'.rows.rows = lib.migrated t := by
  obtain ⟨hok, hleft⟩ : _ ∧ ∀ t', lib.initWords false t = some t' →
    t'.indexed = true ∧ t'.rows.rows = lib.migrated t := initWords_spec t
  have hblank : ∀ a ∈ lib.keepers t.survivors, ∀ blank ∈ t.survivors, blank.word = none →
      ∀ user lang normalized, lib.wordKey a = some (some user, some lang, normalized) →
        blank.indexKey ≠ some (user, lang, normalized) := by
    intro a ha blank hblank hnone user lang normalized hkey
    obtain ⟨old, hold, rfl, hsmall⟩ := mem_survivors.mp hblank
    obtain ⟨old', hold', rfl, -⟩ := mem_survivors.mp (keeper_spec ha).1
    exact h.blankFree old hold (by simpa using hnone) hsmall old' hold' user lang normalized
      (by simpa using hkey)
  have hwritten : t.indexed = true → ∀ a b c, lib.keepers t.survivors = a ++ b :: c →
      b.normalizedWord ≠ (lib.renorm b).normalizedWord →
        ∀ r, r ∈ c ∨ r ∈ lib.undeleted t ∧ r.word = none → ∀ user lang normalized,
          lib.wordKey b = some (some user, some lang, normalized) →
            r.indexKey ≠ some (user, lang, normalized) := by
    intro hindexed a b c heq hstale r hr
    rcases hr with hr | ⟨hr, hnone⟩
    · exact h.writtenFree hindexed a b c heq hstale r hr
    · exact hblank b (by rw [heq]; simp) r (mem_undeleted.mp hr).1 hnone
  obtain ⟨t', ht'⟩ := hok.mpr ⟨h.fillFree, hwritten, (uniqueKeys_migrated t).mpr hblank⟩
  exact ⟨t', ht', hleft t' ht'⟩

theorem Migratable.keepsMostActive {t : WordTable} (h : lib.Migratable t) :
    lib.KeepsMostActive t.rows.rows (lib.initWords false t) := by
  obtain ⟨t', ht', hindexed, hrows⟩ := h.initWords
  refine ⟨t', ht', hindexed, fun r hr k hkey => ?_⟩
  rw [hrows]
  obtain ⟨best, hbest, hbestkey, hsmall, hmax⟩ := h.activeFirst r hr k hkey
  have hsurvives : best.fill ∈ t.survivors := mem_survivors.mpr ⟨best, hbest, rfl, hsmall⟩
  obtain ⟨a, ha, hakey⟩ := exists_keeper hsurvives ((wordKey_fill best).trans hbestkey)
  obtain ⟨hasurvives, k', hakey', hamax⟩ := keeper_spec ha
  obtain rfl : k' = k := Option.some.inj (hakey'.symm.trans hakey)
  obtain ⟨original, horiginal, rfl, -⟩ := mem_survivors.mp hasurvives
  refine ⟨original, horiginal, by simpa using hakey, fun other hother hotherkey => ?_,
    mem_migrated.mpr (.inl ⟨_, ha, renorm_fill original⟩), fun left hleft hleftkey => ?_⟩
  · have hle := hamax best.fill hsurvives ((wordKey_fill best).trans hbestkey)
    rw [activity_fill, activity_fill] at hle
    exact (hmax other hother hotherkey).trans hle
  · rcases mem_migrated.mp hleft with ⟨b, hb, rfl⟩ | ⟨-, hnone⟩
    · obtain rfl := keeper_injective hb ha (hleftkey.trans hakey.symm)
      exact renorm_fill original
    · rw [wordKey_eq_none.mpr hnone] at hleftkey
      cases hleftkey

/-- **The migration keeps the most recently active row of every group**, and the
unique index is there at the end, exactly when the table is `Migratable`. -/
theorem keepsMostActive_iff (lib : UnicodeLib) (t : WordTable) :
    lib.KeepsMostActive t.rows.rows (lib.initWords false t) ↔ lib.Migratable t :=
  ⟨fun h => h.migratable, fun h => h.keepsMostActive⟩

/-- A word saved in January, and saved again before the index was there and
reviewed in March. -/
def savedTwice : WordTable where
  rows := {
    rows := [
      ⟨1, some 7, some "tree", some "en", some "tree", some "2026-01-01T00:00:00+00:00", none⟩,
      ⟨2, some 7, some "Tree", some "en", some "tree", some "2026-01-02T00:00:00+00:00",
        some "2026-03-01T00:00:00+00:00"⟩]
    seq := 2
    sorted := by decide
    positive := by decide
    below := by decide }
  indexed := false
  unique := by decide

/-- The row reviewed in March is deleted for its larger id. -/
theorem reviewed_duplicate_deleted :
    (UnicodeLib.ascii.initWords false savedTwice).map (fun t => t.rows.rows.map LegacyWord.id) =
        some [1] ∧
      ¬ UnicodeLib.ascii.KeepsMostActive savedTwice.rows.rows
        (UnicodeLib.ascii.initWords false savedTwice) := by
  have hrun : (UnicodeLib.ascii.initWords false savedTwice).map
      (fun t => t.rows.rows.map LegacyWord.id) = some [1] := by
    decide +kernel
  refine ⟨hrun, ?_⟩
  rintro ⟨t, ht, -, hgroups⟩
  rw [ht, Option.map_some, Option.some.injEq] at hrun
  have hkey : ∀ r ∈ savedTwice.rows.rows,
      UnicodeLib.ascii.wordKey r = some (some 7, some "en", "tree") := by decide +kernel
  obtain ⟨original, horiginal, -, hmax, hleft, -⟩ :=
    hgroups _ List.mem_cons_self _ (hkey _ List.mem_cons_self)
  have hid : original.id = 1 := by
    have hmem : (UnicodeLib.ascii.renorm original).id ∈ t.rows.rows.map LegacyWord.id :=
      List.mem_map.mpr ⟨_, hleft, rfl⟩
    rw [hrun, List.mem_singleton] at hmem
    exact hmem
  have hactive : ∀ r ∈ savedTwice.rows.rows, r.id = 1 →
      ¬ ∀ other ∈ savedTwice.rows.rows, other.activity ≤ r.activity := by decide +kernel
  exact hactive original horiginal hid fun other hother => hmax other hother (hkey other hother)

end UnicodeLib

end HamZaboon
