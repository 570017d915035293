import HamZaboon.Senses.Pruning

/-! # The partition into kept and dropped senses

Each screen divides the senses it is given, so the chain does.  Of the senses
with one gloss the twin screen keeps the winner, whose id the others are dropped
under.  The kept rows pass every screen again.
-/

namespace HamZaboon
open Library

namespace PyText
variable {py : PyText}

/-! ## Flags -/

theorem mergedFlags_mergedFlags (existing : JsonValue) (needed : Bool) :
    mergedFlags (.arr (mergedFlags existing needed)) needed = mergedFlags existing needed := by
  have hself : (JsonValue.str "dialectal").pyEq (.str "dialectal") = true := by
    simp [JsonValue.pyEq]
  have hmerged : ∀ flags : List JsonValue,
      mergedFlags (.arr flags) needed = if needed && !flags.any (·.pyEq (.str "dialectal"))
        then flags ++ [.str "dialectal"] else flags := fun flags => rfl
  have hagain : ∀ flags : List JsonValue,
      mergedFlags (.arr (mergedFlags (.arr flags) needed)) needed =
        mergedFlags (.arr flags) needed := by
    intro flags
    rw [hmerged flags]
    split
    · rw [hmerged, List.any_append, List.any_cons, hself]
      simp
    · rename_i hnot
      rw [hmerged, if_neg hnot]
  cases existing with
  | arr flags => exact hagain flags
  | null => exact hagain []
  | _ => exact hagain [_]

theorem withDialectalFlags_eq_some {s row : JsonValue} :
    py.withDialectalFlags s = some row ↔ ∃ needed, py.needsDialectalFlag s = some needed ∧
      .obj ((entriesOf s).set "flags"
        (.arr (mergedFlags ((entriesOf s).get "flags") needed))) = row := by
  unfold withDialectalFlags
  rw [← Option.map_eq_some_iff]
  cases py.needsDialectalFlag s <;> rfl

theorem isSome_withDialectalFlags {s : JsonValue} (h : (py.senseTags s).isSome = true) :
    (py.withDialectalFlags s).isSome = true := by
  obtain ⟨tags, htags⟩ := Option.isSome_iff_exists.mp h
  rw [withDialectalFlags, needsDialectalFlag, htags]
  rfl

theorem fieldOf_entriesOf (field : String) (s : JsonValue) :
    Dict.get (entriesOf s) field = fieldOf field s := by
  cases s <;> rfl

theorem fieldOf_withDialectalFlags {s row : JsonValue} (h : py.withDialectalFlags s = some row)
    {field : String} (hne : field ≠ "flags") : fieldOf field row = fieldOf field s := by
  obtain ⟨needed, -, rfl⟩ := withDialectalFlags_eq_some.mp h
  rw [fieldOf, Dict.get, Dict.lookup_set, if_neg hne]
  exact fieldOf_entriesOf field s

theorem sameReading_withDialectalFlags {s row : JsonValue}
    (h : py.withDialectalFlags s = some row) : SameReading s row where
  glosses := fieldOf_withDialectalFlags h (by decide)
  gloss := fieldOf_withDialectalFlags h (by decide)
  tags := fieldOf_withDialectalFlags h (by decide)
  pos := fieldOf_withDialectalFlags h (by decide)
  formOf := fieldOf_withDialectalFlags h (by decide)

theorem withDialectalFlags_again {s row : JsonValue} (h : py.withDialectalFlags s = some row) :
    py.withDialectalFlags row = some row := by
  have hneeded : py.needsDialectalFlag row = py.needsDialectalFlag s := by
    rw [needsDialectalFlag, (sameReading_withDialectalFlags h).senseTags, needsDialectalFlag]
  obtain ⟨needed, hs, rfl⟩ := withDialectalFlags_eq_some.mp h
  refine withDialectalFlags_eq_some.mpr ⟨needed, hneeded.trans hs, ?_⟩
  rw [entriesOf, Dict.get_set_self, mergedFlags_mergedFlags, Dict.set_set]

/-- The row of a kept sense: the fields other than `topics`, `categories` and
`flags` are as they were.  What is no dictionary becomes one with no flags in it. -/
def RowOf (s row : JsonValue) : Prop :=
  match s with
  | .obj sense => ∃ entries, row = .obj entries ∧
      ∀ field, field ≠ "topics" → field ≠ "categories" → field ≠ "flags" →
        entries.lookup field = sense.lookup field
  | _ => row = .obj [("flags", .arr [])]

/-! ## The twin screen -/

/-- The sense as it was, or with the topics and categories of twins. -/
def TwinRow (py : PyText) (twins : List JsonValue) (s row : JsonValue) : Prop :=
  row = s ∨ ∃ winner losers, s = .obj winner ∧ row = .obj (py.twinUnionCopy winner losers) ∧
    ∀ loser ∈ losers, loser ∈ twins

theorem TwinRow.sameReading {twins : List JsonValue} {s row : JsonValue}
    (h : py.TwinRow twins s row) : SameReading s row := by
  rcases h with rfl | ⟨winner, losers, rfl, rfl, -⟩
  · exact .refl row
  · have hfield : ∀ field, field ≠ "topics" → field ≠ "categories" →
        fieldOf field (.obj (py.twinUnionCopy winner losers)) = fieldOf field (.obj winner) := by
      intro field htopics hcategories
      rw [fieldOf, Dict.get, lookup_twinUnionCopy htopics hcategories]
      rfl
    exact ⟨hfield _ (by decide) (by decide), hfield _ (by decide) (by decide),
      hfield _ (by decide) (by decide), hfield _ (by decide) (by decide),
      hfield _ (by decide) (by decide)⟩

theorem TwinRow.rowOf {twins : List JsonValue} {s united row : JsonValue}
    (h : py.TwinRow twins s united) (hflags : py.withDialectalFlags united = some row) :
    RowOf s row := by
  rcases h with rfl | ⟨winner, losers, rfl, rfl, -⟩
  · cases united with
    | obj sense =>
      obtain ⟨needed, -, rfl⟩ := withDialectalFlags_eq_some.mp hflags
      refine ⟨_, rfl, fun field _ _ hne => ?_⟩
      rw [Dict.lookup_set, if_neg hne]
      rfl
    | _ => exact Option.some.inj (hflags.symm.trans rfl)
  · obtain ⟨needed, -, rfl⟩ := withDialectalFlags_eq_some.mp hflags
    refine ⟨_, rfl, fun field htopics hcategories hne => ?_⟩
    rw [Dict.lookup_set, if_neg hne]
    exact lookup_twinUnionCopy htopics hcategories winner losers

/-- What the twin screen compares. -/
def glossKey (py : PyText) (s : JsonValue) : Option String :=
  (py.senseGloss s).map py.normalizeGloss

theorem SameReading.glossKey {a b : JsonValue} (h : SameReading a b) :
    py.glossKey b = py.glossKey a := by
  rw [PyText.glossKey, h.senseGloss, PyText.glossKey]

theorem twinEntries_spec {index : Nat} {pairs : List SensePair} {entries : List TwinEntry}
    (h : py.twinEntries index pairs = some entries) :
    entries.map (fun e => (e.senseId, e.sense)) = pairs ∧
      (∀ e ∈ entries, py.senseGloss e.sense = some e.gloss ∧ index ≤ e.index) ∧
      entries.Pairwise (fun a b => a.index < b.index) := by
  induction pairs generalizing index entries with
  | nil =>
    obtain rfl := Option.some.inj h
    exact ⟨rfl, fun e he => absurd he List.not_mem_nil, .nil⟩
  | cons pair pairs ih =>
    obtain ⟨sid, sense⟩ := pair
    obtain ⟨gloss, hgloss, h⟩ := Option.bind_eq_some_iff.mp h
    obtain ⟨rest, hrest, h⟩ := Option.bind_eq_some_iff.mp h
    obtain rfl := Option.some.inj h
    obtain ⟨hmap, hmem, hsorted⟩ := ih hrest
    refine ⟨by rw [List.map_cons, hmap], fun e he => ?_, List.pairwise_cons.mpr ⟨?_, hsorted⟩⟩
    · rcases List.mem_cons.mp he with rfl | he
      · exact ⟨hgloss, le_rfl⟩
      · exact ⟨(hmem e he).1, by have := (hmem e he).2; omega⟩
    · intro e he
      have := (hmem e he).2
      show index < e.index
      omega

theorem exists_twinEntries {pairs : List SensePair}
    (h : ∀ pair ∈ pairs, (py.senseGloss pair.2).isSome = true) (index : Nat) :
    ∃ entries, py.twinEntries index pairs = some entries := by
  induction pairs generalizing index with
  | nil => exact ⟨[], rfl⟩
  | cons pair pairs ih =>
    obtain ⟨gloss, hgloss⟩ := Option.isSome_iff_exists.mp (h pair List.mem_cons_self)
    obtain ⟨rest, hrest⟩ := ih (fun p hp => h p (List.mem_cons_of_mem _ hp)) (index + 1)
    rw [twinEntries, hgloss, hrest]
    exact ⟨_, rfl⟩

theorem twinKey_eq_some {e : TwinEntry} (h : py.senseGloss e.sense = some e.gloss) {key : String} :
    py.twinKey e = some key ↔ key ≠ "" ∧ py.glossKey e.sense = some key := by
  rw [glossKey, h, Option.map_some, Option.some.injEq, twinKey]
  split
  · rename_i hempty
    constructor
    · intro h
      cases h
    · rintro ⟨hne, rfl⟩
      exact absurd hempty hne
  · rename_i hne
    rw [Option.some.injEq]
    constructor
    · rintro rfl
      exact ⟨hne, rfl⟩
    · exact And.right

section Twins
variable {entries : List TwinEntry}

def LosesTwin (py : PyText) (entries : List TwinEntry) (e : TwinEntry) : Prop :=
  Loses py.twinKey TwinEntry.rank entries e

theorem eq_of_index_eq (hsorted : entries.Pairwise fun a b => a.index < b.index)
    {a b : TwinEntry} (ha : a ∈ entries) (hb : b ∈ entries) (h : a.index = b.index) : a = b :=
  List.inj_on_of_nodup_map (List.pairwise_map.mpr (hsorted.imp fun hlt => ne_of_lt hlt)) ha hb h

theorem nodup_of_sorted (hsorted : entries.Pairwise fun a b => a.index < b.index) :
    entries.Nodup :=
  hsorted.imp fun hlt heq => absurd (congrArg TwinEntry.index heq) (ne_of_lt hlt)

theorem mem_of_mem_losers {c : TwinEntry × List TwinEntry} (hc : c ∈ py.twinContests entries)
    {e : TwinEntry} (he : e ∈ c.2) : e ∈ entries := by
  obtain ⟨k, hkeys⟩ := key_of_mem_contests hc
  exact (hkeys e (List.mem_cons_of_mem _ he)).1

theorem of_lookup_dropAt (hsorted : entries.Pairwise fun a b => a.index < b.index)
    {e : TwinEntry} (he : e ∈ entries) {reason : String}
    (h : (py.dropAt entries).lookup e.index = some reason) :
    ∃ c ∈ py.twinContests entries, e ∈ c.2 ∧ reason = twinOfPrefix ++ c.1.senseId := by
  obtain ⟨before, after, heq, -⟩ := List.lookup_eq_some_iff.mp h
  have hmem : (e.index, reason) ∈ py.dropAt entries := by
    rw [heq]
    exact List.mem_append_right _ List.mem_cons_self
  obtain ⟨c, hc, hmem⟩ := List.mem_flatMap.mp hmem
  obtain ⟨loser, hloser, hpair⟩ := List.mem_map.mp hmem
  obtain ⟨hindex, rfl⟩ := Prod.mk.inj hpair
  obtain rfl := eq_of_index_eq hsorted (mem_of_mem_losers hc hloser) he hindex
  exact ⟨c, hc, hloser, rfl⟩

theorem isSome_lookup_dropAt (hsorted : entries.Pairwise fun a b => a.index < b.index)
    {e : TwinEntry} (he : e ∈ entries) :
    ((py.dropAt entries).lookup e.index).isSome = true ↔ py.LosesTwin entries e := by
  constructor
  · intro h
    obtain ⟨reason, hreason⟩ := Option.isSome_iff_exists.mp h
    obtain ⟨c, hc, hlost, -⟩ := of_lookup_dropAt hsorted he hreason
    exact ⟨c, hc, hlost⟩
  · rintro ⟨c, hc, hlost⟩
    by_contra hnone
    have hmem : (e.index, twinOfPrefix ++ c.1.senseId) ∈ py.dropAt entries :=
      List.mem_flatMap.mpr ⟨c, hc, List.mem_map.mpr ⟨e, hlost, rfl⟩⟩
    have hne := List.lookup_eq_none_iff.mp (Option.not_isSome_iff_eq_none.mp hnone) _ hmem
    simp at hne

theorem twinRow_lookup_unionAt (hsorted : entries.Pairwise fun a b => a.index < b.index)
    {e : TwinEntry} (he : e ∈ entries) :
    py.TwinRow (entries.map TwinEntry.sense) e.sense
      (((py.unionAt entries).lookup e.index).getD e.sense) := by
  cases hlookup : (py.unionAt entries).lookup e.index with
  | none => exact .inl rfl
  | some row =>
    obtain ⟨before, after, heq, -⟩ := List.lookup_eq_some_iff.mp hlookup
    have hmem : (e.index, row) ∈ py.unionAt entries := by
      rw [heq]
      exact List.mem_append_right _ List.mem_cons_self
    obtain ⟨c, hc, hrow⟩ := List.mem_filterMap.mp hmem
    obtain ⟨k, hkeys⟩ := key_of_mem_contests hc
    have hwinner : c.1 ∈ entries := (hkeys _ List.mem_cons_self).1
    split at hrow
    · rename_i winner hsense
      obtain ⟨hindex, rfl⟩ := Prod.mk.inj (Option.some.inj hrow)
      obtain rfl := eq_of_index_eq hsorted hwinner he hindex
      refine .inr ⟨winner, _, hsense, rfl, fun loser hloser => ?_⟩
      obtain ⟨twin, htwin, rfl⟩ := List.mem_map.mp hloser
      exact List.mem_map_of_mem (mem_of_mem_losers hc ((mem_sortBy _).mp htwin))
    · cases hrow

theorem splitTwins_spec (py : PyText) (hsorted : entries.Pairwise fun a b => a.index < b.index) :
    ∃ kept gone, Splits entries kept gone ∧
      List.Forall₂ (fun e pair => pair.1 = e.senseId ∧
        py.TwinRow (entries.map TwinEntry.sense) e.sense pair.2) kept (py.splitTwins entries).1 ∧
      List.Forall₂ (fun e drop => drop.senseId = e.senseId ∧ drop.gloss = e.gloss ∧
        ∃ winner ∈ kept, ∃ key, py.twinKey winner = some key ∧ py.twinKey e = some key ∧
          drop.reason = twinOfPrefix ++ winner.senseId) gone (py.splitTwins entries).2 ∧
      kept.Pairwise fun a b => py.twinKey a = py.twinKey b → py.twinKey a = none := by
  let lost : TwinEntry → Bool := fun e => ((py.dropAt entries).lookup e.index).isSome
  have hkeeps : ∀ e, e ∈ entries.filter (fun e => !lost e) ↔
      e ∈ entries ∧ ¬ py.LosesTwin entries e := by
    intro e
    rw [List.mem_filter, Bool.not_eq_true']
    constructor
    · rintro ⟨he, hnot⟩
      exact ⟨he, fun hloses => by simp [(isSome_lookup_dropAt hsorted he).mpr hloses, lost] at hnot⟩
    · rintro ⟨he, hnot⟩
      exact ⟨he, Bool.eq_false_of_not_eq_true fun h => hnot ((isSome_lookup_dropAt hsorted he).mp h)⟩
  have hsplits := splits_filter (fun e => !lost e) entries
  simp only [Bool.not_not] at hsplits
  refine ⟨entries.filter fun e => !lost e, entries.filter lost, hsplits, ?_, ?_, ?_⟩
  · have hrows : List.Forall₂ _ (entries.filter fun e => !lost e) (py.splitTwins entries).1 :=
      forall₂_filterMap fun e _ => by
        show _ = !((py.dropAt entries).lookup e.index).isSome
        cases (py.dropAt entries).lookup e.index <;> rfl
    refine ((List.forall₂_and_left _ _).mpr ⟨fun e he => ((hkeeps e).mp he).1, hrows⟩).imp ?_
    rintro e pair ⟨he, hpair⟩
    split at hpair
    · cases hpair
    · obtain rfl := Option.some.inj hpair
      exact ⟨rfl, twinRow_lookup_unionAt hsorted he⟩
  · have hdrops : List.Forall₂ _ (entries.filter lost) (py.splitTwins entries).2 :=
      forall₂_filterMap fun e _ => Option.isSome_map
    refine ((List.forall₂_and_left _ _).mpr ⟨fun e he => (List.mem_filter.mp he).1, hdrops⟩).imp ?_
    rintro e drop ⟨he, hdrop⟩
    obtain ⟨reason, hreason, rfl⟩ := Option.map_eq_some_iff.mp hdrop
    obtain ⟨c, hc, hlost, rfl⟩ := of_lookup_dropAt hsorted he hreason
    obtain ⟨key, hkeys⟩ := key_of_mem_contests hc
    have hwinner := hkeys c.1 List.mem_cons_self
    exact ⟨rfl, rfl, c.1, (hkeeps c.1).mpr ⟨hwinner.1,
      not_loses_winner (nodup_of_sorted hsorted) hc⟩, key, hwinner.2,
      (hkeys e (List.mem_cons_of_mem _ hlost)).2, rfl⟩
  · refine ((nodup_of_sorted hsorted).filter _).imp_of_mem fun {a b} ha hb hne hkey => ?_
    by_contra hsome
    obtain ⟨key, hka⟩ := Option.ne_none_iff_exists'.mp hsome
    have ha := (hkeeps a).mp ha
    have hb := (hkeeps b).mp hb
    have hone : py.LosesTwin entries a ∨ py.LosesTwin entries b :=
      loses_or_loses ha.1 hb.1 hne hka (hkey ▸ hka)
    rcases hone with hlost | hlost
    · exact ha.2 hlost
    · exact hb.2 hlost

end Twins

/-- **The twin screen** divides the senses; each that is dropped names a kept one
with its gloss, and no two that are kept have one gloss, unless it is empty. -/
theorem twinsPairs_spec {pairs kept : List SensePair} {dropped : List SenseDrop}
    (h : py.twinsPairs pairs = some (kept, dropped)) :
    ∃ sources gone, Splits pairs sources gone ∧
      List.Forall₂ (fun source pair => pair.1 = source.1 ∧
        py.TwinRow (pairs.map Prod.snd) source.2 pair.2) sources kept ∧
      List.Forall₂ (fun source drop => py.DropOf source drop ∧
        ∃ winner ∈ sources, py.glossKey winner.2 = py.glossKey source.2 ∧
          drop.reason = twinOfPrefix ++ winner.1) gone dropped ∧
      sources.Pairwise fun a b => py.glossKey a.2 = py.glossKey b.2 → py.glossKey a.2 = some "" := by
  obtain ⟨entries, hentries, hsplit⟩ := Option.map_eq_some_iff.mp h
  obtain ⟨rfl, hgloss, hsorted⟩ := twinEntries_spec hentries
  obtain ⟨keptEntries, gone, hsplits, hkept, hgone, hdistinct⟩ := splitTwins_spec py hsorted
  rw [hsplit] at hkept hgone
  have hsource : ∀ e ∈ keptEntries, py.senseGloss e.sense = some e.gloss := fun e he =>
    (hgloss e (hsplits.sublist.subset he)).1
  refine ⟨_, _, hsplits.map _, ?_, ?_, ?_⟩
  · rw [List.forall₂_map_left_iff, List.map_map]
    exact hkept
  · rw [List.forall₂_map_left_iff]
    have hmem : ∀ e ∈ gone, e ∈ entries := fun e he =>
      hsplits.perm.subset (List.mem_append_right _ he)
    refine ((List.forall₂_and_left _ _).mpr ⟨hmem, hgone⟩).imp ?_
    rintro e drop ⟨he, hid, hdropGloss, winner, hwinner, key, hwinnerKey, hkey, hreason⟩
    have heGloss := (hgloss e he).1
    refine ⟨⟨hid, hdropGloss ▸ heGloss⟩, (winner.senseId, winner.sense),
      List.mem_map.mpr ⟨winner, hwinner, rfl⟩, ?_, hreason⟩
    rw [((twinKey_eq_some (hsource winner hwinner)).mp hwinnerKey).2,
      ((twinKey_eq_some heGloss).mp hkey).2]
  · refine List.pairwise_map.mpr (hdistinct.imp_of_mem fun {a b} ha hb hab hkeys => ?_)
    have haGloss := hsource a ha
    have hbGloss := hsource b hb
    by_contra hne
    have hsome : py.twinKey a = some (py.normalizeGloss a.gloss) := by
      refine (twinKey_eq_some haGloss).mpr ⟨fun hempty => hne ?_, ?_⟩
      · rw [glossKey, haGloss, Option.map_some, hempty]
      · rw [glossKey, haGloss, Option.map_some]
    have hsame : py.twinKey b = some (py.normalizeGloss a.gloss) := by
      have ha := (twinKey_eq_some haGloss).mp hsome
      exact (twinKey_eq_some hbGloss).mpr ⟨ha.1, hkeys ▸ ha.2⟩
    rw [hab (hsome.trans hsame.symm)] at hsome
    cases hsome

theorem exists_twinsPairs {pairs : List SensePair}
    (h : ∀ pair ∈ pairs, (py.senseGloss pair.2).isSome = true) :
    ∃ kept dropped, py.twinsPairs pairs = some (kept, dropped) := by
  obtain ⟨entries, hentries⟩ := exists_twinEntries h 0
  exact ⟨_, _, by rw [twinsPairs, hentries, Option.map_some]⟩

theorem twinsPairs_eq_self {pairs : List SensePair}
    (hgloss : ∀ pair ∈ pairs, (py.senseGloss pair.2).isSome = true)
    (hdistinct : pairs.Pairwise fun a b =>
      py.glossKey a.2 = py.glossKey b.2 → py.glossKey a.2 = some "") :
    py.twinsPairs pairs = some (pairs, []) := by
  obtain ⟨entries, hentries⟩ := exists_twinEntries hgloss 0
  obtain ⟨hmap, hsource, -⟩ := twinEntries_spec hentries
  have hnone : py.twinContests entries = [] := by
    refine contests_eq_nil ?_
    rw [← hmap, List.pairwise_map] at hdistinct
    refine hdistinct.imp_of_mem fun {a b} ha hb hab hkeys => ?_
    by_contra hsome
    obtain ⟨key, hka⟩ := Option.ne_none_iff_exists'.mp hsome
    have ha := (twinKey_eq_some (hsource a ha).1).mp hka
    have hb := (twinKey_eq_some (hsource b hb).1).mp (hkeys ▸ hka)
    have hempty := hab (ha.2.trans hb.2.symm)
    exact ha.1 (Option.some.inj (ha.2.symm.trans hempty))
  have hdropAt : py.dropAt entries = [] := by rw [dropAt, hnone]; rfl
  have hunionAt : py.unionAt entries = [] := by rw [unionAt, hnone]; rfl
  rw [twinsPairs, hentries, Option.map_some, splitTwins, hdropAt, hunionAt, ← hmap]
  simp

/-! ## The chain -/

/-- What the chain does to the senses: `survivors` pass the first three screens,
and `sources` pass the twin screen as well. -/
structure Chained (py : PyText) (pairs survivors sources gone kept : List SensePair)
    (dropped : List SenseDrop) : Prop where
  passed : ∀ pair ∈ survivors, pair ∈ pairs ∧ py.properVerdict pair = some none ∧
    py.hardVerdict pair = some none ∧ py.nicheVerdict pair = some none
  survive : ∀ pair ∈ sources, pair ∈ survivors
  splits : Splits pairs sources gone
  rows : List.Forall₂ (fun source pair => py.TwinRow (survivors.map Prod.snd) source.2 pair.2)
    sources kept
  drops : List.Forall₂ py.DropOf gone dropped
  reasons : ∀ drop ∈ dropped, drop.reason ∈ plainReasons ∨ ∃ winner ∈ sources,
    py.glossKey winner.2 = some (py.normalizeGloss drop.gloss) ∧
      drop.reason = twinOfPrefix ++ winner.1
  distinct : sources.Pairwise fun a b =>
    py.glossKey a.2 = py.glossKey b.2 → py.glossKey a.2 = some ""

theorem pruneChain_of_screens {pairs kept₁ kept₂ kept₃ kept₄ : List SensePair}
    {proper hard niche twins : List SenseDrop}
    (hproper : screen py.properVerdict pairs = some (kept₁, proper))
    (hhard : screen py.hardVerdict kept₁ = some (kept₂, hard))
    (hniche : screen py.nicheVerdict kept₂ = some (kept₃, niche))
    (htwins : py.twinsPairs kept₃ = some (kept₄, twins)) :
    py.pruneChain pairs = some (kept₄, proper ++ hard ++ niche ++ twins) :=
  Option.bind_eq_some_iff.mpr ⟨_, hproper, Option.bind_eq_some_iff.mpr ⟨_, hhard,
    Option.bind_eq_some_iff.mpr ⟨_, hniche, Option.bind_eq_some_iff.mpr ⟨_, htwins, rfl⟩⟩⟩⟩

theorem pruneChain_spec {pairs kept : List SensePair} {dropped : List SenseDrop}
    (h : py.pruneChain pairs = some (kept, dropped)) :
    ∃ survivors sources gone, py.Chained pairs survivors sources gone kept dropped := by
  obtain ⟨⟨kept₁, proper⟩, hproper, h⟩ := Option.bind_eq_some_iff.mp h
  obtain ⟨⟨kept₂, hard⟩, hhard, h⟩ := Option.bind_eq_some_iff.mp h
  obtain ⟨⟨kept₃, niche⟩, hniche, h⟩ := Option.bind_eq_some_iff.mp h
  obtain ⟨⟨kept₄, twins⟩, htwins, h⟩ := Option.bind_eq_some_iff.mp h
  obtain ⟨rfl, rfl⟩ := Prod.mk.inj (Option.some.inj h)
  obtain ⟨gone₁, hsplits₁, hkept₁, hgone₁⟩ := screen_spec hproper
  obtain ⟨gone₂, hsplits₂, hkept₂, hgone₂⟩ := screen_spec hhard
  obtain ⟨gone₃, hsplits₃, hkept₃, hgone₃⟩ := screen_spec hniche
  obtain ⟨sources, gone₄, hsplits₄, hrows, hgone₄, hdistinct⟩ := twinsPairs_spec htwins
  have hsub₂ := hsplits₃.sublist
  have hsub₁ := hsub₂.trans hsplits₂.sublist
  refine ⟨kept₃, sources, _, ?_, fun pair hpair => hsplits₄.sublist.subset hpair,
    ((hsplits₁.trans hsplits₂).trans hsplits₃).trans hsplits₄, hrows.imp fun _ _ => And.right,
    ?_, ?_, hdistinct⟩
  · exact fun pair hpair => ⟨hsplits₁.sublist.subset (hsub₁.subset hpair),
      hkept₁ pair (hsub₁.subset hpair), hkept₂ pair (hsub₂.subset hpair), hkept₃ pair hpair⟩
  · have hdrops₁ := hgone₁.imp fun _ _ h => (dropOf_properVerdict h).1
    have hdrops₂ := hgone₂.imp fun _ _ h => (dropOf_hardVerdict h).1
    have hdrops₃ := hgone₃.imp fun _ _ h => (dropOf_nicheVerdict h).1
    have hdrops₄ := hgone₄.imp fun _ _ => And.left
    exact List.rel_append (List.rel_append (List.rel_append hdrops₁ hdrops₂) hdrops₃) hdrops₄
  · intro drop hdrop
    rw [List.mem_append, List.mem_append, List.mem_append] at hdrop
    rcases hdrop with ((hdrop | hdrop) | hdrop) | hdrop
    · obtain ⟨pair, -, hverdict⟩ := exists_left_of_forall₂ hgone₁ hdrop
      exact .inl (dropOf_properVerdict hverdict).2
    · obtain ⟨pair, -, hverdict⟩ := exists_left_of_forall₂ hgone₂ hdrop
      exact .inl (dropOf_hardVerdict hverdict).2
    · obtain ⟨pair, -, hverdict⟩ := exists_left_of_forall₂ hgone₃ hdrop
      exact .inl (dropOf_nicheVerdict hverdict).2
    · obtain ⟨pair, -, ⟨-, hgloss⟩, winner, hwinner, hkey, hreason⟩ :=
        exists_left_of_forall₂ hgone₄ hdrop
      refine .inr ⟨winner, hwinner, hkey.trans ?_, hreason⟩
      rw [glossKey, hgloss, Option.map_some]

/-- A sense whose list fields can be iterated. -/
def Readable (s : JsonValue) : Prop :=
  ∀ field ∈ ["glosses", "tags", "topics", "categories"], (fieldOf field s).iterate.isSome = true

namespace Readable
variable {s : JsonValue}

theorem senseGloss (h : Readable s) : (py.senseGloss s).isSome = true := by
  rw [senseGloss_eq, Option.isSome_map]
  exact h _ (by simp)

theorem senseTags (h : Readable s) : (py.senseTags s).isSome = true := by
  rw [senseTags_eq, Option.isSome_map]
  exact h _ (by simp)

theorem senseTopics (h : Readable s) : (py.senseTopics s).isSome = true := by
  obtain ⟨topics, htopics⟩ := Option.isSome_iff_exists.mp (h "topics" (by simp))
  obtain ⟨categories, hcategories⟩ := Option.isSome_iff_exists.mp (h "categories" (by simp))
  rw [senseTopics_eq, htopics, hcategories]
  rfl

end Readable

theorem isSome_properVerdict (py : PyText) {pair : SensePair} (h : Readable pair.2) :
    (py.properVerdict pair).isSome = true := by
  obtain ⟨gloss, hgloss⟩ := Option.isSome_iff_exists.mp h.senseGloss
  obtain ⟨tags, htags⟩ := Option.isSome_iff_exists.mp h.senseTags
  have hacronym : (py.isObscureAcronym pair.2 gloss).isSome = true := by
    unfold isObscureAcronym
    split
    · rw [htags]
      rfl
    · rfl
  obtain ⟨acronym, hacronym⟩ := Option.isSome_iff_exists.mp hacronym
  rw [properVerdict, hgloss]
  show ((py.isObscureAcronym pair.2 gloss).bind _).isSome = true
  rw [hacronym]
  rfl

theorem isSome_hardVerdict (py : PyText) {pair : SensePair} (h : Readable pair.2) :
    (py.hardVerdict pair).isSome = true := by
  obtain ⟨gloss, hgloss⟩ := Option.isSome_iff_exists.mp h.senseGloss
  obtain ⟨tags, htags⟩ := Option.isSome_iff_exists.mp h.senseTags
  rw [hardVerdict, hgloss, htags]
  rfl

theorem isSome_nicheVerdict (py : PyText) {pair : SensePair} (h : Readable pair.2) :
    (py.nicheVerdict pair).isSome = true := by
  obtain ⟨topics, htopics⟩ := Option.isSome_iff_exists.mp h.senseTopics
  obtain ⟨gloss, hgloss⟩ := Option.isSome_iff_exists.mp h.senseGloss
  rw [nicheVerdict, htopics, hgloss]
  show (if _ then _ else _ : Option (Option SenseDrop)).isSome = true
  split <;> rfl

/-! ## Pruning -/

/-- What pruning promises: kept and dropped rows together are the senses with
their ids, kept rows stand in the order of the senses, a row dropped as a twin
names a kept one with its gloss, and no two kept rows have one gloss, unless it
is empty. -/
structure Partitioned (py : PyText) (pairs sources gone : List SensePair) (kept : List JsonValue)
    (dropped : List SenseDrop) : Prop where
  splits : Splits pairs sources gone
  rows : List.Forall₂ (fun source row => RowOf source.2 row) sources kept
  drops : List.Forall₂ py.DropOf gone dropped
  twins : ∀ drop ∈ dropped, ∀ sid, drop.reason = twinOfPrefix ++ sid →
    ∃ source ∈ sources, source.1 = sid ∧
      py.glossKey source.2 = some (py.normalizeGloss drop.gloss)
  distinct : kept.Pairwise fun a b => py.glossKey a = py.glossKey b → py.glossKey a = some ""

theorem map_snd_pairUp (py : PyText) (senses : List JsonValue) (headword : String) :
    (py.pairUp senses headword).map Prod.snd = senses := by
  rw [pairUp, List.map_map]
  exact List.zipIdx_map_fst 0 senses

theorem snd_mem_of_mem_pairUp {senses : List JsonValue} {headword : String} {pair : SensePair}
    (h : pair ∈ py.pairUp senses headword) : pair.2 ∈ senses := by
  rw [← map_snd_pairUp py senses headword]
  exact List.mem_map_of_mem h

theorem pruneSenses_eq_some {senses kept : List JsonValue} {headword : String}
    {dropped : List SenseDrop} {stats : PruneStats}
    (h : py.pruneSenses senses headword = some (kept, dropped, stats)) :
    ∃ keptPairs, py.pruneChain (py.pairUp senses headword) = some (keptPairs, dropped) ∧
      List.Forall₂ (fun pair row => py.withDialectalFlags pair.2 = some row) keptPairs kept := by
  obtain ⟨topicsSeen, -, h⟩ := Option.bind_eq_some_iff.mp h
  obtain ⟨⟨keptPairs, dropped'⟩, hchain, h⟩ := Option.bind_eq_some_iff.mp h
  obtain ⟨kept', hkept, h⟩ := Option.bind_eq_some_iff.mp h
  obtain ⟨rfl, heq⟩ := Prod.mk.inj (Option.some.inj h)
  obtain ⟨rfl, -⟩ := Prod.mk.inj heq
  exact ⟨keptPairs, hchain, forall₂_of_mapM hkept⟩

theorem exists_pruneSenses {senses kept : List JsonValue} {headword : String}
    {keptPairs : List SensePair} {dropped : List SenseDrop}
    (htopics : ∀ s ∈ senses, (py.senseTopics s).isSome = true)
    (hchain : py.pruneChain (py.pairUp senses headword) = some (keptPairs, dropped))
    (hkept : keptPairs.mapM (fun pair => py.withDialectalFlags pair.2) = some kept) :
    ∃ stats, py.pruneSenses senses headword = some (kept, dropped, stats) := by
  obtain ⟨topics, htopics⟩ := exists_mapM htopics
  let topicsSeen := groupAdd [] (topics.flatten.map (·, 1))
  have hstats : py.collectTopicStats senses = some topicsSeen :=
    Option.map_eq_some_iff.mpr ⟨topics, htopics, rfl⟩
  refine ⟨pruneStats senses kept dropped topicsSeen, ?_⟩
  exact Option.bind_eq_some_iff.mpr ⟨_, hstats, Option.bind_eq_some_iff.mpr
    ⟨_, hchain, Option.bind_eq_some_iff.mpr ⟨_, hkept, rfl⟩⟩⟩

theorem isSome_pruneSenses {senses : List JsonValue} (h : ∀ s ∈ senses, Readable s)
    (headword : String) : (py.pruneSenses senses headword).isSome = true := by
  have hpairs : ∀ pair ∈ py.pairUp senses headword, Readable pair.2 := fun pair hpair =>
    h _ (snd_mem_of_mem_pairUp hpair)
  obtain ⟨kept₁, proper, hproper⟩ := exists_screen fun pair hpair =>
    isSome_properVerdict py (hpairs pair hpair)
  obtain ⟨_, hsplits₁, -⟩ := screen_spec hproper
  have hpairs₁ := fun pair hpair => hpairs pair (hsplits₁.sublist.subset hpair)
  obtain ⟨kept₂, hard, hhard⟩ := exists_screen fun pair hpair =>
    isSome_hardVerdict py (hpairs₁ pair hpair)
  obtain ⟨_, hsplits₂, -⟩ := screen_spec hhard
  have hpairs₂ := fun pair hpair => hpairs₁ pair (hsplits₂.sublist.subset hpair)
  obtain ⟨kept₃, niche, hniche⟩ := exists_screen fun pair hpair =>
    isSome_nicheVerdict py (hpairs₂ pair hpair)
  obtain ⟨_, hsplits₃, -⟩ := screen_spec hniche
  have hpairs₃ := fun pair hpair => hpairs₂ pair (hsplits₃.sublist.subset hpair)
  have hgloss : ∀ pair ∈ kept₃, (py.senseGloss pair.2).isSome = true := fun pair hpair =>
    (hpairs₃ pair hpair).senseGloss
  obtain ⟨kept₄, twins, htwins⟩ := exists_twinsPairs hgloss
  obtain ⟨sources, _, hsplits₄, hrows, -⟩ := twinsPairs_spec htwins
  have hflags : ∀ pair ∈ kept₄, (py.withDialectalFlags pair.2).isSome = true := by
    intro pair hpair
    obtain ⟨source, hsource, -, hrow⟩ := exists_left_of_forall₂ hrows hpair
    have hread := hpairs₃ source (hsplits₄.sublist.subset hsource)
    refine isSome_withDialectalFlags ?_
    rw [hrow.sameReading.senseTags]
    exact hread.senseTags
  obtain ⟨kept, hkept⟩ := exists_mapM hflags
  have hchain := pruneChain_of_screens hproper hhard hniche htwins
  obtain ⟨stats, hstats⟩ := exists_pruneSenses (fun s hs => (h s hs).senseTopics) hchain hkept
  exact Option.isSome_iff_exists.mpr ⟨_, hstats⟩

/-! ## Pruning again -/

theorem SameReading.properVerdict {pair pair' : SensePair} (h : SameReading pair.2 pair'.2)
    (hkept : py.properVerdict pair = some none) : py.properVerdict pair' = some none := by
  obtain ⟨gloss, hgloss, hacronym, hname⟩ := properVerdict_eq_none.mp hkept
  refine properVerdict_eq_none.mpr ⟨gloss, ?_, ?_, ?_⟩
  · rw [h.senseGloss, hgloss]
  · rw [h.isObscureAcronym, hacronym]
  · rw [h.posIsName, hname]

theorem SameReading.hardVerdict {pair pair' : SensePair} (h : SameReading pair.2 pair'.2)
    (hkept : py.hardVerdict pair = some none) : py.hardVerdict pair' = some none := by
  obtain ⟨gloss, tags, hgloss, htags, hobsolete, hformof, hxref⟩ := hardVerdict_eq_none.mp hkept
  refine hardVerdict_eq_none.mpr ⟨gloss, tags, ?_, ?_, hobsolete, ?_, hxref⟩
  · rw [h.senseGloss, hgloss]
  · rw [h.senseTags, htags]
  · rw [h.isFormofSense, hformof]

theorem TwinRow.niche {twins : List JsonValue}
    (htwins : ∀ s ∈ twins, ListedTopics s ∧ ¬ py.SolelyNiche s) {s row : JsonValue}
    (hs : s ∈ twins) (h : py.TwinRow twins s row) : ListedTopics row ∧ ¬ py.SolelyNiche row := by
  rcases h with rfl | ⟨winner, losers, rfl, rfl, hlosers⟩
  · exact htwins row hs
  · refine ⟨listedTopics_twinUnionCopy (htwins _ hs).1 losers,
      not_solelyNiche_twinUnionCopy fun s hmem => ?_⟩
    rcases List.mem_cons.mp hmem with rfl | hmem
    · exact (htwins _ hs).2
    · exact (htwins s (hlosers s hmem)).2

theorem niche_withDialectalFlags {s row : JsonValue} (h : py.withDialectalFlags s = some row)
    (hs : ListedTopics s ∧ ¬ py.SolelyNiche s) : ListedTopics row ∧ ¬ py.SolelyNiche row := by
  have htopics := fieldOf_withDialectalFlags h (show "topics" ≠ "flags" by decide)
  have hcategories := fieldOf_withDialectalFlags h (show "categories" ≠ "flags" by decide)
  rw [ListedTopics, SolelyNiche, topicTexts, htopics, hcategories]
  exact hs

theorem rows_of_pruneSenses {senses kept : List JsonValue} {headword : String}
    {dropped : List SenseDrop} {stats : PruneStats}
    (h : py.pruneSenses senses headword = some (kept, dropped, stats)) :
    ∃ survivors sources gone keptPairs,
      py.Chained (py.pairUp senses headword) survivors sources gone keptPairs dropped ∧
      List.Forall₂ (fun source row => ∃ pair : SensePair,
        py.TwinRow (survivors.map Prod.snd) source.2 pair.2 ∧
          py.withDialectalFlags pair.2 = some row) sources kept := by
  obtain ⟨keptPairs, hchain, hflags⟩ := pruneSenses_eq_some h
  obtain ⟨survivors, sources, gone, hchained⟩ := pruneChain_spec hchain
  exact ⟨survivors, sources, gone, keptPairs, hchained, forall₂_comp hchained.rows hflags⟩

theorem not_mem_plainReasons (sid : String) : twinOfPrefix ++ sid ∉ plainReasons := by
  intro hmem
  have hplain : ∀ reason ∈ plainReasons, reason.toList.head? ≠ some 't' := by decide
  refine hplain _ hmem ?_
  rw [String.toList_append]
  rfl

/-- **Pruning divides the senses.** -/
theorem partitioned_of_pruneSenses {senses kept : List JsonValue} {headword : String}
    {dropped : List SenseDrop} {stats : PruneStats}
    (h : py.pruneSenses senses headword = some (kept, dropped, stats)) :
    ∃ sources gone, py.Partitioned (py.pairUp senses headword) sources gone kept dropped := by
  obtain ⟨survivors, sources, gone, keptPairs, hchained, hrows⟩ := rows_of_pruneSenses h
  refine ⟨sources, gone, hchained.splits, ?_, hchained.drops, ?_, ?_⟩
  · exact hrows.imp fun source row ⟨pair, htwin, hflags⟩ => htwin.rowOf hflags
  · intro drop hdrop sid hreason
    rcases hchained.reasons drop hdrop with hplain | ⟨winner, hwinner, hkey, hnamed⟩
    · exact absurd (hreason ▸ hplain) (not_mem_plainReasons sid)
    · refine ⟨winner, hwinner, ?_, hkey⟩
      exact String.append_right_inj twinOfPrefix |>.mp (hnamed.symm.trans hreason)
  · have hkeys : kept.map py.glossKey = sources.map fun source => py.glossKey source.2 :=
      map_eq_of_forall₂ hrows fun source _ row ⟨pair, htwin, hflags⟩ =>
        (htwin.sameReading.trans (sameReading_withDialectalFlags hflags)).glossKey
    have hdistinct : (sources.map fun source => py.glossKey source.2).Pairwise
        fun a b => a = b → a = some "" := List.pairwise_map.mpr hchained.distinct
    rw [← hkeys] at hdistinct
    exact List.pairwise_map.mp hdistinct

/-- **Pruning is idempotent** where topics and categories are lists. -/
theorem pruneSenses_again {senses kept : List JsonValue} {headword : String}
    {dropped : List SenseDrop} {stats : PruneStats}
    (h : py.pruneSenses senses headword = some (kept, dropped, stats))
    (hlisted : ∀ s ∈ senses, ListedTopics s) (again : String) :
    ∃ stats', py.pruneSenses kept again = some (kept, [], stats') := by
  obtain ⟨survivors, sources, gone, keptPairs, hchained, hrows⟩ := rows_of_pruneSenses h
  obtain ⟨_, _, hpartitioned⟩ := partitioned_of_pruneSenses h
  have hniche : ∀ s ∈ survivors.map Prod.snd, ListedTopics s ∧ ¬ py.SolelyNiche s := by
    intro s hs
    obtain ⟨pair, hpair, rfl⟩ := List.mem_map.mp hs
    obtain ⟨hmem, -, -, hkept⟩ := hchained.passed pair hpair
    have hlist := hlisted _ (snd_mem_of_mem_pairUp hmem)
    exact ⟨hlist, (nicheVerdict_of_listed hlist).mp hkept⟩
  -- Every kept row passes every screen, whatever its id.
  have hrow : ∀ pair ∈ py.pairUp kept again, ListedTopics pair.2 ∧
      py.withDialectalFlags pair.2 = some pair.2 ∧ py.properVerdict pair = some none ∧
      py.hardVerdict pair = some none ∧ py.nicheVerdict pair = some none := by
    intro pair hpair
    obtain ⟨source, hsource, united, htwin, hflags⟩ :=
      exists_left_of_forall₂ hrows (snd_mem_of_mem_pairUp hpair)
    have hsurvive := hchained.survive source hsource
    obtain ⟨-, hproper, hhard, -⟩ := hchained.passed source hsurvive
    have hsame := htwin.sameReading.trans (sameReading_withDialectalFlags hflags)
    have hlast := niche_withDialectalFlags hflags
      (htwin.niche hniche (List.mem_map_of_mem hsurvive))
    exact ⟨hlast.1, withDialectalFlags_again hflags, hsame.properVerdict hproper,
      hsame.hardVerdict hhard, (nicheVerdict_of_listed hlast.1).mpr hlast.2⟩
  have hgloss : ∀ pair ∈ py.pairUp kept again, (py.senseGloss pair.2).isSome = true := by
    intro pair hpair
    obtain ⟨gloss, hgloss, -⟩ := properVerdict_eq_none.mp (hrow pair hpair).2.2.1
    rw [hgloss]
    rfl
  have hdistinct : (py.pairUp kept again).Pairwise fun a b =>
      py.glossKey a.2 = py.glossKey b.2 → py.glossKey a.2 = some "" := by
    have hkept := hpartitioned.distinct
    rw [← map_snd_pairUp py kept again] at hkept
    exact List.pairwise_map.mp hkept
  have hchain := pruneChain_of_screens
    (screen_eq_self fun pair hpair => (hrow pair hpair).2.2.1)
    (screen_eq_self fun pair hpair => (hrow pair hpair).2.2.2.1)
    (screen_eq_self fun pair hpair => (hrow pair hpair).2.2.2.2)
    (twinsPairs_eq_self hgloss hdistinct)
  have hflags := mapM_eq_map fun pair hpair => (hrow pair hpair).2.1
  rw [map_snd_pairUp] at hflags
  refine exists_pruneSenses (fun s hs => ?_) hchain hflags
  rw [← map_snd_pairUp py kept again] at hs
  obtain ⟨pair, hpair, rfl⟩ := List.mem_map.mp hs
  rw [senseTopics_of_listed (hrow pair hpair).1]
  rfl

/-- **Pruning** goes through when the list fields can be iterated; whenever it
does, it divides the senses, and a second pruning drops nothing where topics and
categories are lists. -/
theorem pruneSenses_divides (py : PyText) (senses : List JsonValue) (headword again : String) :
    ((∀ s ∈ senses, Readable s) → (py.pruneSenses senses headword).isSome = true) ∧
      ∀ kept dropped stats, py.pruneSenses senses headword = some (kept, dropped, stats) →
        (∃ sources gone,
          py.Partitioned (py.pairUp senses headword) sources gone kept dropped) ∧
        ((∀ s ∈ senses, ListedTopics s) →
          ∃ stats', py.pruneSenses kept again = some (kept, [], stats')) :=
  ⟨fun h => isSome_pruneSenses h headword, fun _ _ _ h =>
    ⟨partitioned_of_pruneSenses h, fun hlisted => pruneSenses_again h hlisted again⟩⟩

/-- Two senses of one gloss; the second has topics and categories, the first has an example. -/
def plankTwins (categories : JsonValue) : List JsonValue :=
  [.obj [("gloss", .str "a plank"), ("examples", .arr [.str "walk the plank"])],
    .obj [("gloss", .str "A plank"), ("topics", .arr [.str "nautical"]),
      ("categories", categories)]]

theorem plankTwins_pruned_once :
    ∃ kept dropped stats stats',
      PyText.ascii.pruneSenses (plankTwins (.arr [.str "law"])) "plank" =
          some (kept, dropped, stats) ∧
        PyText.ascii.pruneSenses kept "plank" = some (kept, [], stats') := by
  obtain ⟨hreturns, hlaw⟩ :=
    pruneSenses_divides PyText.ascii (plankTwins (.arr [.str "law"])) "plank" "plank"
  have hreadable : ∀ s ∈ plankTwins (.arr [.str "law"]), Readable s := by
    simp [plankTwins, Readable, fieldOf, Dict.get, JsonValue.iterate, JsonValue.truthy,
      List.lookup_cons]
  have hlisted : ∀ s ∈ plankTwins (.arr [.str "law"]), ListedTopics s := by
    simp [plankTwins, ListedTopics, Listed, fieldOf, Dict.get, JsonValue.listItems,
      JsonValue.truthy, List.lookup_cons]
  obtain ⟨⟨kept, dropped, stats⟩, h⟩ := Option.isSome_iff_exists.mp (hreturns hreadable)
  obtain ⟨-, hagain⟩ := hlaw kept dropped stats h
  obtain ⟨stats', hstats⟩ := hagain hlisted
  exact ⟨kept, dropped, stats, stats', h, hstats⟩

/-- With a text for its categories the second sense is not solely niche; the row
of the first takes over its topics only, and is dropped the next time.  A number
for the tags stops the pruning. -/
theorem plankTwins_pruned_twice :
    (∃ kept dropped stats kept' stats',
      PyText.ascii.pruneSenses (plankTwins (.str "law")) "plank" = some (kept, dropped, stats) ∧
        PyText.ascii.pruneSenses kept "plank" =
          some (kept', [⟨"plank#0", "niche", "a plank"⟩], stats')) ∧
      PyText.ascii.pruneSenses [.obj [("gloss", .str "a plank"), ("tags", .int 5)]] "plank" =
        none := by
  constructor
  · have hdrops : ((PyText.ascii.pruneSenses (plankTwins (.str "law")) "plank").bind fun first =>
        PyText.ascii.pruneSenses first.1 "plank").map (fun second => second.2.1) =
          some [⟨"plank#0", "niche", "a plank"⟩] := by decide +kernel
    obtain ⟨⟨kept', dropped', stats'⟩, hsecond, rfl⟩ := Option.map_eq_some_iff.mp hdrops
    obtain ⟨⟨kept, dropped, stats⟩, hfirst, hsecond⟩ := Option.bind_eq_some_iff.mp hsecond
    exact ⟨kept, dropped, stats, kept', stats', hfirst, hsecond⟩
  · rw [← Option.isNone_iff_eq_none]
    decide +kernel

end PyText

end HamZaboon
