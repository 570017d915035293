import HamZaboon.Precard.LabelBatch

/-! # Resuming a label run

A run that is stopped has its completed chunks in the cache, and a run over the same batch
resolves their senses from there.  An entry has its own key in a reply, so two items with one
text, one gloss and one sense id, a word and a phrase, may be labelled differently; in the cache
they are one entry, and the later label counts for both.

So a resumed run gives each sense what it had exactly when the senses under one key of the cache
are answered alike (`label_resume_exact_iff`).
-/

namespace HamZaboon
open Library

/-! ## What the cache has behind a run -/

/-- The label that comes last under a key of the cache. -/
def lastAnswer (answers : List (LabelEntry × Option TopicLabel)) (key : String) :
    Option TopicLabel :=
  ((answers.filter fun a => a.1.cacheKey = key).filterMap (·.2)).getLast?

theorem lastAnswer_append (a b : List (LabelEntry × Option TopicLabel)) (key : String) :
    lastAnswer (a ++ b) key = (lastAnswer b key).or (lastAnswer a key) := by
  rw [lastAnswer, List.filter_append, List.filterMap_append, List.getLast?_append]
  rfl

theorem lookup_storeLabels (cache : LabelCache) (answers : List (LabelEntry × Option TopicLabel))
    (key : String) : (storeLabels cache answers).lookup key =
      ((lastAnswer answers key).map fun l => CachedLabel.record l.label l.vector).or
        (cache.lookup key) := by
  induction answers generalizing cache with
  | nil => rfl
  | cons answer answers ih =>
    obtain ⟨e, label⟩ := answer
    have hcons : lastAnswer ((e, label) :: answers) key =
        (lastAnswer answers key).or (lastAnswer [(e, label)] key) :=
      lastAnswer_append [(e, label)] answers key
    rw [hcons, storeLabels, List.foldl_cons]
    cases label with
    | none =>
      have hone : lastAnswer [(e, none)] key = none := by
        by_cases hkey : e.cacheKey = key <;> simp [lastAnswer, hkey]
      rw [hone, Option.or_none]
      exact ih cache
    | some label =>
      have hstore := ih (setEntry cache e.cacheKey (.record label.label label.vector))
      rw [storeLabels] at hstore
      rw [hstore, lookup_setEntry]
      by_cases hkey : key = e.cacheKey
      · have hone : lastAnswer [(e, some label)] key = some label := by
          simp [lastAnswer, hkey]
        rw [if_pos hkey, hone]
        cases lastAnswer answers key <;> rfl
      · have hone : lastAnswer [(e, some label)] key = none := by
          simp [lastAnswer, Ne.symm hkey]
        rw [if_neg hkey, hone, Option.or_none]

theorem lookup_cache_labelChunks (lib : TopicLib) (script : Nat → ChunkOutcome) (n : Nat)
    (cache : LabelCache) (chunks : List (List LabelEntry)) (key : String) :
    (labelChunks lib script n cache chunks).cache.lookup key =
      ((lastAnswer (labelChunks lib script n cache chunks).answers key).map
        fun l => CachedLabel.record l.label l.vector).or (cache.lookup key) := by
  induction chunks generalizing n cache with
  | nil => rfl
  | cons chunk chunks ih =>
    rw [labelChunks]
    cases hn : script n with
    | stopped e => rfl
    | best reply =>
      simp only
      rw [ih, lastAnswer_append, lookup_storeLabels]
      cases lastAnswer (labelChunks lib script (n + 1)
        (storeLabels cache (answersOf chunk (lib.chunkLabels chunk reply))) chunks).answers key <;> rfl
    | nothing =>
      simp only
      have hnone : lastAnswer (answersOf chunk []) key = none := by
        simp [lastAnswer, answersOf]
      rw [ih, lastAnswer_append, hnone, Option.or_none]

theorem labelChunks_within (lib : TopicLib) (script : Nat → ChunkOutcome) (n : Nat)
    (cache : LabelCache) (chunks : List (List LabelEntry)) :
    (∀ chunk ∈ (labelChunks lib script n cache chunks).asked, chunk ∈ chunks) ∧
      ∀ a ∈ (labelChunks lib script n cache chunks).answers, ∃ chunk ∈ chunks, a.1 ∈ chunk := by
  induction chunks generalizing n cache with
  | nil => exact ⟨nofun, nofun⟩
  | cons chunk chunks ih =>
    have hown : ∀ labels, ∀ a ∈ answersOf chunk labels, ∃ c ∈ chunk :: chunks, a.1 ∈ c := by
      intro labels a ha
      obtain ⟨e, he, rfl⟩ := List.mem_map.mp ha
      exact ⟨chunk, List.mem_cons_self, he⟩
    have hrest : ∀ cache' answers, (∀ a ∈ answers, ∃ c ∈ chunk :: chunks, a.1 ∈ c) →
        (∀ c ∈ chunk :: (labelChunks lib script (n + 1) cache' chunks).asked, c ∈ chunk :: chunks) ∧
        ∀ a ∈ answers ++ (labelChunks lib script (n + 1) cache' chunks).answers,
          ∃ c ∈ chunk :: chunks, a.1 ∈ c := by
      intro cache' answers hanswers
      obtain ⟨hasked, hans⟩ := ih (n + 1) cache'
      refine ⟨fun c hc => ?_, fun a ha => ?_⟩
      · rcases List.mem_cons.mp hc with rfl | hc
        · exact List.mem_cons_self
        · exact List.mem_cons_of_mem _ (hasked c hc)
      · rcases List.mem_append.mp ha with ha | ha
        · exact hanswers a ha
        · obtain ⟨c, hc, hmem⟩ := hans a ha
          exact ⟨c, List.mem_cons_of_mem _ hc, hmem⟩
    rw [labelChunks]
    cases script n with
    | stopped e => exact ⟨fun c hc => List.mem_singleton.mp hc ▸ List.mem_cons_self, nofun⟩
    | best reply => exact hrest _ _ (hown _)
    | nothing => exact hrest _ _ (hown _)

theorem stopped_of_nothing (lib : TopicLib) (n : Nat) (cache : LabelCache)
    (chunks : List (List LabelEntry)) :
    (labelChunks lib (fun _ => .nothing) n cache chunks).stopped = none := by
  induction chunks generalizing n with
  | nil => rfl
  | cons chunk chunks ih => exact ih (n + 1)

/-! ## The labels of a chunk -/

def TopicLabel.Full (label : TopicLabel) : Prop := label.label ≠ "" ∧ label.vector ≠ []

/-- The label of a sense that passed the checks. -/
def TopicLabel.Validated (lib : TopicLib) (label : TopicLabel) : Prop :=
  ∃ x n, lib.normSense x = some n ∧ label = labelOf n

theorem TopicLabel.Validated.full {lib : TopicLib} {label : TopicLabel} (h : label.Validated lib) :
    label.Full := by
  obtain ⟨-, n, -, rfl⟩ := h
  have hfound : (if n.topicLabel = "" then "Other / Abstract" else n.topicLabel) ≠ "" := by
    split
    · decide
    · assumption
  refine ⟨hfound, ?_⟩
  rw [labelOf]
  dsimp only
  split
  · rw [singleTopicVector]
    exact List.cons_ne_nil _ _
  · assumption

theorem validated_mergeEntries {lib : TopicLib} {lemmas : List (JsonValue × Dict)} {rows : List Dict}
    {entries : List TopicEntry} {state merged : List Nat × List (String × TopicLabel)}
    (hstate : ∀ l ∈ state.2, l.2.Validated lib)
    (h : entries.foldlM (lib.mergeEntry lemmas rows) state = some merged) :
    ∀ l ∈ merged.2, l.2.Validated lib := by
  induction entries generalizing state with
  | nil => exact Option.some.inj h ▸ hstate
  | cons entry entries ih =>
    rw [List.foldlM_cons] at h
    obtain ⟨next, hnext, h⟩ := Option.bind_eq_some_iff.mp h
    refine ih ?_ h
    obtain ⟨found, -, hnext⟩ := Option.bind_eq_some_iff.mp hnext
    dsimp only at hnext
    split at hnext
    · rename_i label hlabel
      obtain rfl := Option.some.inj hnext
      intro l hl
      rcases mem_setEntry hl with hl | rfl
      · exact hstate l hl
      · obtain ⟨x, n, -, -, hn, rfl⟩ := lib.labelSenses_eq_some hlabel
        exact ⟨x, n, hn, rfl⟩
    · obtain rfl := Option.some.inj hnext
      exact hstate

theorem validated_chunkLabels (lib : TopicLib) (chunk : List LabelEntry) (reply : JsonValue) :
    ∀ l ∈ lib.chunkLabels chunk reply, l.2.Validated lib := by
  rw [TopicLib.chunkLabels]
  cases hmerge : lib.mergeReply (chunk.map (·.topicEntry)) reply with
  | none => exact nofun
  | some merged =>
    simp only [TopicLib.mergeReply, Option.bind_eq_bind] at hmerge
    split at hmerge <;>
    · simp only [Option.bind_eq_some_iff] at hmerge
      obtain ⟨results, -, lemmas, -, merged', hfold, h⟩ := hmerge
      obtain rfl := Option.some.inj h
      exact validated_mergeEntries (fun l hl => absurd hl List.not_mem_nil) hfold

theorem validated_answers (lib : TopicLib) (script : Nat → ChunkOutcome) (n : Nat) (cache : LabelCache)
    (chunks : List (List LabelEntry)) :
    ∀ a ∈ (labelChunks lib script n cache chunks).answers, ∀ label, a.2 = some label →
      label.Validated lib := by
  induction chunks generalizing n cache with
  | nil => exact nofun
  | cons chunk chunks ih =>
    rw [labelChunks]
    cases script n with
    | stopped e => exact nofun
    | best reply =>
      intro a ha label hlabel
      rcases List.mem_append.mp ha with ha | ha
      · obtain ⟨e, -, rfl⟩ := List.mem_map.mp ha
        exact validated_chunkLabels lib chunk reply _ (mem_of_lookup_eq_some hlabel)
      · exact ih _ _ a ha label hlabel
    | nothing =>
      intro a ha label hlabel
      rcases List.mem_append.mp ha with ha | ha
      · obtain ⟨e, -, rfl⟩ := List.mem_map.mp ha
        cases hlabel
      · exact ih _ _ a ha label hlabel

/-! ## Folding back -/

/-- The row that the output has for the sense of an entry. -/
def rowIn (out : LabelOut) (e : LabelEntry) : Option LabelRow :=
  (out.lookup e.itemKey).bind fun item =>
    if e.primary then some item.row
    else (item.extra.find? fun x => x.senseId = e.senseId).map (·.row)

/-- The entries of an item: its first pick, and others with senses of their own. -/
structure ItemBlock (key : String) (entries : List LabelEntry) : Prop where
  keys : ∀ e ∈ entries, e.itemKey = key
  head : ∃ first rest, entries = first :: rest ∧ first.primary = true ∧
    (∀ e ∈ rest, e.primary = false) ∧ (rest.map (·.senseId)).Nodup

theorem foldBack_extras {key : String} (resolved : List (LabelEntry × LabelRow)) (out : LabelOut)
    (item : LabelledItem) (hitem : out.lookup key = some item)
    (hkeys : ∀ r ∈ resolved, r.1.itemKey = key ∧ r.1.primary = false)
    (hnodup : (item.extra.map (·.senseId) ++ resolved.map (·.1.senseId)).Nodup) (k : String) :
    (resolved.foldl foldBackEntry out).lookup k =
      if k = key then
        some { item with
          extra := item.extra ++ resolved.map fun r => ⟨r.1.senseId, r.1.gloss, r.1.settled r.2⟩ }
      else out.lookup k := by
  induction resolved generalizing out item with
  | nil =>
    by_cases hk : k = key
    · subst hk
      simp [hitem]
    · simp [hk]
  | cons r resolved ih =>
    obtain ⟨hkey, hsecondary⟩ := hkeys r List.mem_cons_self
    have hnew : item.extra.all (·.senseId ≠ r.1.senseId) = true := by
      rw [List.all_eq_true]
      intro x hx
      rw [List.nodup_append] at hnodup
      exact decide_eq_true (hnodup.2.2 _ (List.mem_map_of_mem hx) _ (by simp))
    have hstep : foldBackEntry out r = setEntry out key { item with
        extra := item.extra ++ [⟨r.1.senseId, r.1.gloss, r.1.settled r.2⟩] } := by
      simp only [foldBackEntry, hsecondary, hkey, hitem, hnew, if_true, Bool.false_eq_true, if_false]
    rw [List.foldl_cons, hstep, ih _ { item with
        extra := item.extra ++ [⟨r.1.senseId, r.1.gloss, r.1.settled r.2⟩] }]
    · by_cases hk : k = key
      · simp [hk]
      · simp [hk, lookup_setEntry]
    · rw [lookup_setEntry, if_pos rfl]
    · exact fun r' hr' => hkeys r' (List.mem_cons_of_mem _ hr')
    · simpa using hnodup

theorem foldBack_block {key : String} {resolved : List (LabelEntry × LabelRow)}
    (hblock : ItemBlock key (resolved.map (·.1))) (out : LabelOut) :
    (∀ k, k ≠ key → (resolved.foldl foldBackEntry out).lookup k = out.lookup k) ∧
      ∀ out' : LabelOut, out'.lookup key = (resolved.foldl foldBackEntry out).lookup key →
        ∀ r ∈ resolved, rowIn out' r.1 = some (r.1.settled r.2) := by
  obtain ⟨first, rest, hmap, hfirst, hrest, hnodup⟩ := hblock.head
  obtain ⟨⟨e, row⟩, others, rfl, rfl, rfl⟩ := List.map_eq_cons_iff.mp hmap
  replace hfirst : e.primary = true := hfirst
  have hkey : e.itemKey = key := hblock.keys e (by simp)
  have hothers : ∀ r ∈ others, r.1.itemKey = key ∧ r.1.primary = false := fun r hr =>
    ⟨hblock.keys r.1 (List.mem_map_of_mem (List.mem_cons_of_mem _ hr)), hrest r.1 (List.mem_map_of_mem hr)⟩
  rw [List.map_map] at hnodup
  have hstep : foldBackEntry out (e, row) = setEntry out key ⟨e.settled row, []⟩ := by
    rw [foldBackEntry, hkey]
    exact if_pos hfirst
  have hfold := foldBack_extras others (setEntry out key ⟨e.settled row, []⟩)
    ⟨e.settled row, []⟩ (by rw [lookup_setEntry, if_pos rfl]) hothers hnodup
  rw [List.foldl_cons, hstep]
  refine ⟨fun k hk => by rw [hfold, if_neg hk, lookup_setEntry, if_neg hk], fun out' hout r hr => ?_⟩
  rw [hfold, if_pos rfl] at hout
  rcases List.mem_cons.mp hr with rfl | hr
  · simp only [rowIn, hkey, hout, Option.bind_some, hfirst, if_true]
  · obtain ⟨hitem, hsecondary⟩ := hothers r hr
    have hextra : (others.find? fun r' => r'.1.senseId = r.1.senseId) = some r := by
      cases hfind : others.find? fun r' => r'.1.senseId = r.1.senseId with
      | none =>
        have hne := List.find?_eq_none.mp hfind r hr
        simp at hne
      | some r' =>
        have hsame : r'.1.senseId = r.1.senseId := by simpa using List.find?_some hfind
        rw [List.inj_on_of_nodup_map hnodup (List.mem_of_find?_eq_some hfind) hr hsame]
    simp only [rowIn, hitem, hout, Option.bind_some, hsecondary, Bool.false_eq_true, if_false,
      List.nil_append, List.find?_map, Function.comp_def, hextra, Option.map_some]

section Runs
variable (call : LabelCall)

theorem text_of_key {item item' : SampleItem} (h : sourceItemKey item = sourceItemKey item') :
    item.text = item'.text := by
  have hdrop : ∀ i : SampleItem, (sourceItemKey i).toList.drop 2 = i.text.toList := fun i => by
    rw [sourceItemKey, String.toList_append]
    split <;> rfl
  rw [← String.toList_inj, ← hdrop, ← hdrop, h]

theorem entriesOf_congr {item item' : SampleItem} (h : sourceItemKey item = sourceItemKey item') :
    call.entriesOf item = call.entriesOf item' := by
  simp only [LabelCall.entriesOf, LabelCall.entryOf, LabelCall.senseIdOf, h, text_of_key h]

theorem itemBlock_entriesOf (item : SampleItem) :
    ItemBlock (sourceItemKey item) (call.entriesOf item) := by
  constructor
  · intro e he
    obtain ⟨p, -, rfl⟩ := List.mem_map.mp he
    rfl
  · obtain ⟨first, rest, hpicks⟩ := List.exists_cons_of_ne_nil (call.picks (sourceItemKey item)).ne_nil
    refine ⟨call.entryOf item first 0, (rest.zipIdx 1).map fun p => call.entryOf item p.1 p.2,
      by rw [LabelCall.entriesOf, hpicks]; rfl, rfl, fun e he => ?_, ?_⟩
    · obtain ⟨⟨sub, pos⟩, hp, rfl⟩ := List.mem_map.mp he
      have hpos := (List.mem_zipIdx hp).1
      exact decide_eq_false (by omega)
    · have hdistinct := (call.picks (sourceItemKey item)).distinct
      have hnamed := (call.picks (sourceItemKey item)).named
      rw [hpicks] at hdistinct hnamed
      have hids : ((rest.zipIdx 1).map fun p => call.entryOf item p.1 p.2).map (·.senseId) =
          rest.map (·.senseId) := by
        rw [List.map_map, ← List.zipIdx_map_fst 1 rest, List.map_map, List.zipIdx_map_fst]
        refine List.map_congr_left fun p hp => ?_
        have hsub : p.1 ∈ rest := List.fst_mem_of_mem_zipIdx hp
        have hne := hnamed (by have := List.length_pos_of_mem hsub; simp; omega) p.1
          (List.mem_cons_of_mem _ hsub)
        exact if_neg hne
      rw [hids]
      exact (List.nodup_cons.mp hdistinct).2

theorem foldBack_batch (batch : List SampleItem) {resolved : List (LabelEntry × LabelRow)}
    (hmap : resolved.map (·.1) = batch.flatMap call.entriesOf) (out : LabelOut) :
    (∀ k, k ∉ batch.map sourceItemKey → (resolved.foldl foldBackEntry out).lookup k = out.lookup k) ∧
      ∀ e ∈ batch.flatMap call.entriesOf, ∃ row, (e, row) ∈ resolved ∧
        rowIn (resolved.foldl foldBackEntry out) e = some (e.settled row) := by
  induction batch generalizing resolved out with
  | nil =>
    obtain rfl := List.map_eq_nil_iff.mp hmap
    exact ⟨fun _ _ => rfl, nofun⟩
  | cons item batch ih =>
    rw [List.flatMap_cons] at hmap ⊢
    obtain ⟨block, others, rfl, hblock, hothers⟩ := List.map_eq_append_iff.mp hmap
    obtain ⟨hkept, hrows⟩ := foldBack_block (hblock ▸ itemBlock_entriesOf call item) out
    obtain ⟨hlater, hlaterRows⟩ := ih hothers (block.foldl foldBackEntry out)
    rw [List.foldl_append]
    refine ⟨fun k hk => ?_, fun e he => ?_⟩
    · rw [List.map_cons, List.mem_cons, not_or] at hk
      rw [hlater k hk.2, hkept k hk.1]
    · by_cases hagain : sourceItemKey item ∈ batch.map sourceItemKey
      · -- a later copy of the item takes the place of its rows
        have hmem : e ∈ batch.flatMap call.entriesOf := by
          rcases List.mem_append.mp he with he | he
          · obtain ⟨copy, hcopy, hkey⟩ := List.mem_map.mp hagain
            exact List.mem_flatMap.mpr ⟨copy, hcopy, entriesOf_congr call hkey ▸ he⟩
          · exact he
        obtain ⟨row, hrow, hin⟩ := hlaterRows e hmem
        exact ⟨row, List.mem_append_right _ hrow, hin⟩
      · rcases List.mem_append.mp he with he | he
        · rw [← hblock] at he
          obtain ⟨⟨e, row⟩, hr, rfl⟩ := List.mem_map.mp he
          exact ⟨row, List.mem_append_left _ hr, hrows _ (hlater _ hagain) _ hr⟩
        · obtain ⟨row, hrow, hin⟩ := hlaterRows e he
          exact ⟨row, List.mem_append_right _ hrow, hin⟩

theorem map_resolveRows (py : GlossText) (cache : LabelCache) (es : List LabelEntry)
    (answers : List (LabelEntry × Option TopicLabel)) :
    (resolveRows py cache es answers).map (·.1) = es := by
  induction es generalizing answers with
  | nil => rfl
  | cons e es ih =>
    rw [resolveRows]
    split
    · rw [List.map_cons, ih]
    · rw [List.map_cons, ih]

theorem resolveRows_of_hit {py : GlossText} {cache : LabelCache} {es : List LabelEntry}
    {answers : List (LabelEntry × Option TopicLabel)} {e : LabelEntry} {row hit : LabelRow}
    (h : (e, row) ∈ resolveRows py cache es answers) (hhit : labelCacheHit cache e = some hit) :
    row = e.guarded py hit := by
  induction es generalizing answers with
  | nil => cases h
  | cons e' es ih =>
    rw [resolveRows] at h
    split at h
    · rename_i hit' hhit'
      rcases List.mem_cons.mp h with heq | h
      · obtain ⟨rfl, hrow⟩ := Prod.mk.inj heq
        rw [hhit] at hhit'
        rw [hrow, Option.some.inj hhit']
      · exact ih h
    · rename_i hmiss
      rcases List.mem_cons.mp h with heq | h
      · obtain ⟨rfl, -⟩ := Prod.mk.inj heq
        rw [hhit] at hmiss
        cases hmiss
      · exact ih h

theorem mem_pending_of_chunk {cache : LabelCache} {chunk : List LabelEntry}
    (h : chunk ∈ LabelCall.chunksOf (call.pending cache)) {e : LabelEntry} (he : e ∈ chunk) :
    e ∈ call.expanded ∧ labelCacheHit cache e = none := by
  obtain ⟨base, -, rfl⟩ := List.mem_map.mp h
  obtain ⟨hmem, hmiss⟩ := List.mem_filter.mp (List.mem_of_mem_drop (List.mem_of_mem_take he))
  exact ⟨hmem, Option.isNone_iff_eq_none.mp hmiss⟩

/-- The entry as another run over the batch has it. -/
def reread (lookups : String → String → List VectorEntry) (e : LabelEntry) : LabelEntry :=
  { e with known := lookups e.itemKey e.senseId }

theorem reread_mem_expanded {e : LabelEntry} (h : e ∈ call.expanded)
    (lookups : String → String → List VectorEntry) :
    reread lookups e ∈ ({ call with lookups := lookups } : LabelCall).expanded := by
  obtain ⟨item, hitem, he⟩ := List.mem_flatMap.mp h
  obtain ⟨p, hp, rfl⟩ := List.mem_map.mp he
  exact List.mem_flatMap.mpr ⟨item, hitem, List.mem_map.mpr ⟨p, hp, rfl⟩⟩

theorem guarded_congr (py : GlossText) {e e' : LabelEntry} {row row' : LabelRow}
    (htext : e.text = e'.text) (hgloss : e.gloss = e'.gloss) (hlabel : row.label = row'.label)
    (hvector : row.vector = row'.vector) : (e.guarded py row).label = (e'.guarded py row').label ∧
      (e.guarded py row).vector = (e'.guarded py row').vector := by
  unfold LabelEntry.guarded
  rw [htext, hgloss, hlabel]
  dsimp only
  split
  · exact ⟨rfl, rfl⟩
  · exact ⟨hlabel, hvector⟩

theorem label_guarded (py : GlossText) (e : LabelEntry) {row : LabelRow}
    (h : row.label.getD "" ≠ "") : (e.guarded py row).label.getD "" ≠ "" := by
  unfold LabelEntry.guarded
  dsimp only
  split
  · rename_i hguard
    rw [Option.getD_some]
    exact hguard.1
  · exact h

/-! ## The law -/

/-- Every entry has the row of an entry like it in the output, so no sense that is labelled is
missing from its item. -/
def NothingMissing (call : LabelCall) (run : LabelRun) : Prop :=
  ∀ out, run.out = some out → ∀ e ∈ call.expanded,
    ∃ row, (e, row) ∈ run.resolved ∧ rowIn out e = some (e.settled row)

/-- What a run resumes of the labels that the completed chunks of an earlier one got. -/
structure Resumes (call : LabelCall) (answers : List (LabelEntry × Option TopicLabel))
    (run : LabelRun) : Prop where
  unasked : ∀ e label, (e, some label) ∈ answers → ∀ chunk ∈ run.asked, ∀ e' ∈ chunk,
    e'.cacheKey ≠ e.cacheKey
  same : ∀ e label, (e, some label) ∈ answers → ∀ out, run.out = some out →
    ∃ row, rowIn out e = some row ∧ row.label = (e.labelled call.py label).label ∧
      row.vector = (e.labelled call.py label).vector

/-- The label that comes last under the key of an answered entry has, behind the guard of the
entry, the label and the vector of its own answer. -/
def AnswersAgree (py : GlossText) (answers : List (LabelEntry × Option TopicLabel)) : Prop :=
  ∀ e label, (e, some label) ∈ answers → ∀ last, lastAnswer answers e.cacheKey = some last →
    (e.labelled py last).label = (e.labelled py label).label ∧
      (e.labelled py last).vector = (e.labelled py label).vector

theorem nothingMissing (cache : LabelCache) (script : Nat → ChunkOutcome) :
    NothingMissing call (call.labelBatch cache script) := by
  intro out hout e he
  rw [LabelRun.out] at hout
  split at hout
  · cases hout
  · obtain rfl := Option.some.inj hout
    exact (foldBack_batch call call.batch
      (map_resolveRows call.py cache call.expanded _) []).2 e he

variable {call}

theorem exists_lastAnswer {cache : LabelCache} {script : Nat → ChunkOutcome} {e : LabelEntry}
    {label : TopicLabel} (h : (e, some label) ∈ (call.labelBatch cache script).answers) :
    e ∈ call.expanded ∧ ∃ last, lastAnswer (call.labelBatch cache script).answers e.cacheKey = some last ∧
      last.Full ∧ (call.labelBatch cache script).cache.lookup e.cacheKey =
        some (.record last.label last.vector) := by
  obtain ⟨chunk, hchunk, hmem⟩ := (labelChunks_within call.lib script 0 cache _).2 _ h
  refine ⟨(mem_pending_of_chunk call hchunk hmem).1, ?_⟩
  cases hlast : lastAnswer (call.labelBatch cache script).answers e.cacheKey with
  | none =>
    rw [lastAnswer, List.getLast?_eq_none_iff, List.filterMap_eq_nil_iff] at hlast
    cases hlast _ (List.mem_filter.mpr ⟨h, decide_eq_true rfl⟩)
  | some last =>
    refine ⟨last, rfl, ?_, ?_⟩
    · obtain ⟨a, ha, hlabel⟩ := List.mem_filterMap.mp (List.mem_of_getLast? hlast)
      exact (validated_answers call.lib script 0 cache _ a (List.mem_of_mem_filter ha) last hlabel).full
    · have hcache := lookup_cache_labelChunks call.lib script 0 cache
        (LabelCall.chunksOf (call.pending cache)) e.cacheKey
      rw [show lastAnswer (labelChunks _ _ _ _ _).answers e.cacheKey = some last from hlast] at hcache
      exact hcache

theorem row_of_resumed {cache : LabelCache} {lookups : String → String → List VectorEntry}
    {script : Nat → ChunkOutcome} {e : LabelEntry} {last : TopicLabel} (he : e ∈ call.expanded)
    (hfull : last.Full) (hcache : cache.lookup e.cacheKey = some (.record last.label last.vector))
    {out : LabelOut}
    (hout : (({ call with lookups := lookups } : LabelCall).labelBatch cache script).out = some out) :
    ∃ row, rowIn out e = some row ∧ row.label = (e.labelled call.py last).label ∧
      row.vector = (e.labelled call.py last).vector := by
  obtain ⟨row, hrow, hin⟩ := nothingMissing { call with lookups := lookups } cache script out hout _
    (reread_mem_expanded call he lookups)
  have hhit : labelCacheHit cache (reread lookups e) =
      some ⟨some last.label, plainVector last.vector, .cache, false⟩ := by
    rw [labelCacheHit, show (reread lookups e).cacheKey = e.cacheKey from rfl, hcache, Option.map_some,
      CachedLabel.row, if_neg hfull.1, if_pos hfull.2]
  have hguarded := resolveRows_of_hit hrow hhit
  have hlabelled : ((reread lookups e).settled row) = row := by
    refine if_neg ?_
    rw [hguarded]
    exact label_guarded call.py _ hfull.1
  refine ⟨row, ?_, ?_⟩
  · rw [hlabelled] at hin
    exact hin
  · rw [hguarded]
    exact guarded_congr call.py rfl rfl rfl rfl

variable (call)

/-- **A resumed run is exact exactly when** the senses under one key of the cache are answered
alike; and no run misses a sense. -/
theorem label_resume_exact_iff (cache : LabelCache) (script : Nat → ChunkOutcome) :
    (NothingMissing call (call.labelBatch cache script) ∧
      ∀ lookups script', NothingMissing { call with lookups := lookups }
          (({ call with lookups := lookups } : LabelCall).labelBatch
            (call.labelBatch cache script).cache script') ∧
        Resumes call (call.labelBatch cache script).answers
          (({ call with lookups := lookups } : LabelCall).labelBatch
            (call.labelBatch cache script).cache script')) ↔
      AnswersAgree call.py (call.labelBatch cache script).answers := by
  constructor
  · rintro ⟨-, hall⟩ e label h last hlast
    obtain ⟨he, last', hlast', hfull, hcache⟩ := exists_lastAnswer h
    obtain rfl : last = last' := Option.some.inj (hlast.symm.trans hlast')
    -- a second run that gets no reply comes to its end
    have hout := stopped_of_nothing call.lib 0 (call.labelBatch cache script).cache
      (LabelCall.chunksOf (call.pending (call.labelBatch cache script).cache))
    obtain ⟨row, hin, hlabel, hvector⟩ := (hall call.lookups fun _ => .nothing).2.same e label h _
      (if_neg (by rw [show (call.labelBatch _ _).stopped = none from hout]; exact Bool.false_ne_true))
    obtain ⟨row', hin', hlabel', hvector'⟩ := row_of_resumed he hfull hcache
      (if_neg (by rw [show (call.labelBatch _ _).stopped = none from hout]; exact Bool.false_ne_true))
    obtain rfl : row' = row := Option.some.inj (hin'.symm.trans hin)
    exact ⟨hlabel'.symm.trans hlabel, hvector'.symm.trans hvector⟩
  · intro hagree
    refine ⟨nothingMissing call cache script, fun lookups script' => ⟨nothingMissing _ _ script', ?_, ?_⟩⟩
    · intro e label h chunk hchunk e' he' hkey
      obtain ⟨-, last, -, -, hcache⟩ := exists_lastAnswer h
      obtain ⟨-, hmiss⟩ := mem_pending_of_chunk { call with lookups := lookups }
        ((labelChunks_within call.lib script' 0 _ _).1 chunk hchunk) he'
      rw [labelCacheHit, hkey, hcache] at hmiss
      cases hmiss
    · intro e label h out hout
      obtain ⟨he, last, hlast, hfull, hcache⟩ := exists_lastAnswer h
      obtain ⟨row, hin, hlabel, hvector⟩ := row_of_resumed he hfull hcache hout
      obtain ⟨hsame, hsame'⟩ := hagree e label h last hlast
      exact ⟨row, hin, hlabel.trans hsame, hvector.trans hsame'⟩

end Runs

/-! ## A word and a phrase of one text -/

theorem named_of_one (p : SensePick) (h : 1 < [p].length) : ∀ q ∈ [p], q.senseId ≠ "" :=
  absurd h (lt_irrefl 1)

def Fanout.single (p : SensePick) : Fanout :=
  ⟨[p], List.cons_ne_nil _ _, List.nodup_singleton _, named_of_one p⟩

/-- A word and a phrase, picked in one sense. -/
def runTwice : LabelCall where
  py := .ascii
  lib := .plain
  batch := [⟨"word", "run"⟩, ⟨"phrase", "run"⟩]
  picks _ := .single ⟨"run#0", "to move fast"⟩
  lookups _ _ := []

/-- A row for the sense, with this label. -/
def runRow (topicId : Int) (label : String) : JsonValue :=
  .obj [("lemma", .str "run"), ("senses", .arr [.obj [("sense_id", .str "run#0"),
    ("topic_id", .int topicId), ("topic_label", .str label), ("confidence", .int 1),
    ("vector", .arr [.obj [("topic_id", .int topicId), ("topic_label", .str label),
      ("weight", .int 1)]])]])]

/-- A reply that labels the word and the phrase differently. -/
def runReplies (_ : Nat) : ChunkOutcome :=
  .best (.obj [("results", .arr [runRow 14 "Sports & Leisure", runRow 6 "Travel & Transportation"])])

/-- The word is resumed with the label of the phrase. -/
theorem word_resumes_as_phrase : ¬(NothingMissing runTwice (runTwice.labelBatch [] runReplies) ∧
    ∀ lookups script', NothingMissing { runTwice with lookups := lookups }
        (({ runTwice with lookups := lookups } : LabelCall).labelBatch
          (runTwice.labelBatch [] runReplies).cache script') ∧
      Resumes runTwice (runTwice.labelBatch [] runReplies).answers
        (({ runTwice with lookups := lookups } : LabelCall).labelBatch
          (runTwice.labelBatch [] runReplies).cache script')) := by
  rintro ⟨-, hall⟩
  obtain ⟨row, hin, hlabel, -⟩ := (hall runTwice.lookups fun _ => .nothing).2.same
    (runTwice.entryOf ⟨"word", "run"⟩ ⟨"run#0", "to move fast"⟩ 0)
    ⟨"Sports & Leisure", [("Sports & Leisure", 1)]⟩ (by decide +kernel) _ (if_neg (by decide +kernel))
  have hrow : ((rowIn (foldBack (runTwice.labelBatch (runTwice.labelBatch [] runReplies).cache
      fun _ => .nothing).resolved)
        (runTwice.entryOf ⟨"word", "run"⟩ ⟨"run#0", "to move fast"⟩ 0)).bind (·.label)) =
      some "Travel & Transportation" := by decide +kernel
  have hword : ((runTwice.entryOf ⟨"word", "run"⟩ ⟨"run#0", "to move fast"⟩ 0).labelled runTwice.py
      ⟨"Sports & Leisure", [("Sports & Leisure", 1)]⟩).label = some "Sports & Leisure" := by
    decide +kernel
  rw [show rowIn (foldBack _) _ = some row from hin, Option.bind_some, hlabel, hword] at hrow
  exact absurd hrow (by decide)

end HamZaboon
