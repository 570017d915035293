import HamZaboon.Factory.Fingerprint

/-! # The one-shot import

`migrate_v14`: the fixtures of the first word list become lemmas, pre-cards,
merges and stage flags.  The lemma's hash is stored with its raw senses, and the
flags of the later fixtures are added by further calls.
-/

namespace HamZaboon
open Library

/-! ## Fixtures -/

/-- A sense of `uniq_senses-v14a.json`. -/
structure UniqSense where
  senseId : JsonValue
  gloss : JsonValue
  synonyms : JsonValue

/-- A row of `uniq_senses-v14a.json`. -/
structure UniqRow where
  word : String
  cefr : Option String
  pos : String
  uniqSenses : List UniqSense

/-- A sense of `ranked_senses-v14a.json` and `-v14b.json`. -/
structure RankedSense where
  gloss : Option String
  senseCefr : Option String
  senseId : Option String
  mergedFrom : List String

/-- A row of `ranked_senses-v14a.json` and `-v14b.json`. -/
structure RankedRow where
  word : String
  cefr : Option String
  rankedSenses : List RankedSense

/-- A row of `ranked_senses-v14c.json`. -/
structure JudgedRow where
  word : String
  cefr : Option String
  pickSource : Option JsonValue

/-- The fixtures; a topic label is read for its sense id. -/
structure V14Fixtures where
  uniq : List UniqRow
  ra : List RankedRow
  rb : List RankedRow
  rc : List JudgedRow
  topics : List (Option String)

/-- What the import takes besides. -/
structure MigrationLib extends RegistryLib where
  /-- `json.dumps(value, sort_keys=True, ensure_ascii=False)`. -/
  dumps : JsonValue → String

/-- The functions on ASCII texts; the blob of a list is the number of its items. -/
def MigrationLib.ascii : MigrationLib where
  toRegistryLib := .ascii
  dumps
    | .arr items => String.ofList (Nat.toDigits 10 items.length)
    | _ => ""

namespace V14Fixtures

/-- The rows of `uniq` with a lemma and a level. -/
def rowsFor (fx : V14Fixtures) (word : String) (cefr : Option String) : List UniqRow :=
  fx.uniq.filter fun row => row.word = word && row.cefr = cefr

def uniqRowFor (fx : V14Fixtures) (word : String) (cefr : Option String) :
    Except RegistryError UniqRow :=
  match fx.rowsFor word cefr with
  | [] => .error (.keyError (word, cefr))
  | row :: _ => .ok row

/-- The check that `(lemma, cefr)` names one row. -/
def checkUnambiguous (fx : V14Fixtures) : Except RegistryError Unit :=
  match fx.uniq.find? fun row => (fx.rowsFor row.word row.cefr).length ≠ 1 with
  | none => .ok ()
  | some row => .error (.ambiguousRow row.word row.cefr)

end V14Fixtures

namespace MigrationLib
variable (lib : MigrationLib)

def rawBlob (row : UniqRow) : String :=
  lib.dumps (.arr (row.uniqSenses.map fun sense =>
    .obj [("sense_id", sense.senseId), ("gloss", sense.gloss), ("synonyms", sense.synonyms)]))

/-- The `raw_hash` of a row. -/
def rawHash (row : UniqRow) : String := lib.sha1 (lib.rawBlob row)

/-- `lemma_key_for(u["lemma"], u["pos"])`. -/
def keyOf (row : UniqRow) : Except RegistryError String :=
  lib.lemmaKeyFor (some row.word) (some row.pos)

end MigrationLib

namespace FactoryRegistry
variable (lib : MigrationLib) (fx : V14Fixtures)

/-- The call that stores a lemma with its raw senses. -/
def importCall (row : UniqRow) : LemmaUpdate :=
  ⟨"en", some row.word, some row.pos, row.cefr, some (lib.rawHash row),
    [("deduped", .bool true), ("n_uniq", .int row.uniqSenses.length)],
    some "v14a", some "legacy-import"⟩

def flagCall (word pos : String) (stages : Dict) : LemmaUpdate :=
  ⟨"en", some word, some pos, none, none, stages, some "v14a", some "legacy-import"⟩

def importUniq (s : FactoryRegistry) (row : UniqRow) : Except RegistryError FactoryRegistry :=
  s.upsertLemma lib.toRegistryLib (importCall lib row)

def addSenses (createdRun lemmaKey : String) (s : FactoryRegistry) (senses : List RankedSense) :
    Except RegistryError FactoryRegistry :=
  senses.foldlM (fun s sense => (s.addPrecard lib.toRegistryLib "en" lemmaKey sense.gloss
    sense.senseCefr sense.senseId (some createdRun)).map (·.1)) s

/-- One row of `ranked_senses-v14a.json` or `-v14b.json`. -/
def importRanked (flag createdRun : String) (s : FactoryRegistry) (row : RankedRow) :
    Except RegistryError FactoryRegistry := do
  let u ← fx.uniqRowFor row.word row.cefr
  let key ← lib.keyOf u
  let s ← s.upsertLemma lib.toRegistryLib (flagCall u.word u.pos [(flag, .bool true)])
  addSenses lib createdRun key s row.rankedSenses

/-- The pre-card ids of ranked rows, each with the ids its sense was merged from. -/
def rankedIds (rows : List RankedRow) :
    Except RegistryError (List (String × List String)) := do
  let ids ← rows.mapM fun row => do
    let u ← fx.uniqRowFor row.word row.cefr
    let key ← lib.keyOf u
    row.rankedSenses.mapM fun sense => do
      let pid ← lib.precardIdFor key sense.gloss
      return (pid, sense.mergedFrom)
  return ids.flatten

/-- `mf_to_survivor`: the first card that a legacy id was merged into. -/
def survivorOfAlias (bIds : List (String × List String)) (legacy : String) : Option String :=
  (bIds.find? fun entry => legacy ∈ entry.2).map (·.1)

/-- `survs[0] if survs else None`. -/
def survivorOf (s : FactoryRegistry) (bIds : List (String × List String)) (pid : String) :
    Option String :=
  let aliases := (s.lemmaAliases.rows.filter fun row => row.1 = "en" && row.2.2 = pid).map (·.2.1)
  let survivors := (aliases.filterMap (survivorOfAlias bIds)).filter (· ≠ pid)
  (survivors.insertionSort fun a b => textLe a.toList b.toList = true).head?

/-- `sorted(a_ids - b_ids)`: the cards that the second fixture no longer has. -/
def droppedIds (aIds bIds : List (String × List String)) : List String :=
  ((aIds.map (·.1)).dedup.filter fun pid => pid ∉ bIds.map (·.1)).insertionSort
    fun a b => textLe a.toList b.toList = true

def markDropped (s : FactoryRegistry) (bIds : List (String × List String))
    (dropped : List String) : FactoryRegistry :=
  dropped.foldl (fun s pid => (s.markMerged "en" (s.survivorOf bIds pid) pid).1) s

/-- One row of `ranked_senses-v14c.json`. -/
def importJudged (s : FactoryRegistry) (row : JudgedRow) : Except RegistryError FactoryRegistry := do
  let u ← fx.uniqRowFor row.word row.cefr
  s.upsertLemma lib.toRegistryLib (flagCall u.word u.pos
    [("judged", .bool true), ("pick_source", row.pickSource.getD (.str "judge"))])

/-- The keys of the lemmas that own a card with a topic label. -/
def touched (s : FactoryRegistry) : List String :=
  (fx.topics.flatMap fun senseId =>
    (s.lemmaAliases.rows.filter fun row => row.1 = "en" && some row.2.1 = senseId).filterMap
      fun row => (s.precards.lookup ("en", row.2.2)).map (·.lemmaKey)).dedup

/-- `lk.partition("|")`, its two ends. -/
def partitionKey (lemmaKey : String) : String × String :=
  (RegistryLib.lemmaOfKey lemmaKey,
    String.ofList ((lemmaKey.toList.dropWhile (· ≠ '|')).drop 1))

def flagTopics (s : FactoryRegistry) (lemmaKey : String) : Except RegistryError FactoryRegistry :=
  let parts := partitionKey lemmaKey
  s.upsertLemma lib.toRegistryLib (flagCall parts.1 parts.2 [("topics", .bool true)])

/-- `migrate_v14`, up to the topic labels. -/
def importSenses (s : FactoryRegistry) : Except RegistryError FactoryRegistry := do
  fx.checkUnambiguous
  let s ← fx.uniq.foldlM (importUniq lib) (s.registerLanguage "en" "v14a")
  let s ← fx.ra.foldlM (importRanked lib fx "ranked" "import-v14a") s
  let aIds ← rankedIds lib fx fx.ra
  let s ← fx.rb.foldlM (importRanked lib fx "merged" "import-v14b") s
  let bIds ← rankedIds lib fx fx.rb
  fx.rc.foldlM (importJudged lib fx) (s.markDropped bIds (droppedIds aIds bIds))

def migrateV14 (s : FactoryRegistry) : Except RegistryError FactoryRegistry := do
  let s ← importSenses lib fx s
  (touched fx s).foldlM (flagTopics lib) s

/-! ## What the later fixtures do to a lemma -/

def laterFlags : List String := ["ranked", "merged", "judged", "pick_source", "topics", "fp"]

def isKey (key : String) : Except RegistryError String → Bool
  | .ok k => k = key
  | .error _ => false

/-- Calls that add flags of the later fixtures; with `hit`, at least one of them
is for the lemma, which then has neither level nor hash. -/
structure FlagPhase (key : String) (hit : Bool) (s s' : FactoryRegistry) : Prop where
  languages : s'.languages = s.languages
  kept : hit = false → s'.lemmas.lookup ("en", key) = s.lemmas.lookup ("en", key)
  blank : hit = true → ∃ row, s'.lemmas.lookup ("en", key) = some row ∧ row.cefr = none ∧
    row.rawHash = none ∧ row.stages.lookup "fp" = some (.str "v14a:legacy-import")
  flags : ∀ flag ∉ laterFlags, ∀ v, (s.stagesOf "en" key).lookup flag = some v →
    (s'.stagesOf "en" key).lookup flag = some v

section Phases
variable {lib : MigrationLib} {fx : V14Fixtures} {key : String} {s s' s'' : FactoryRegistry}

theorem FlagPhase.of_lemmas (hlang : s'.languages = s.languages) (h : s'.lemmas = s.lemmas) :
    FlagPhase key false s s' where
  languages := hlang
  kept _ := by rw [h]
  blank := nofun
  flags _ _ v hv := by rwa [stagesOf, h]

theorem FlagPhase.trans {a b : Bool} (h : FlagPhase key a s s') (h' : FlagPhase key b s' s'') :
    FlagPhase key (a || b) s s'' where
  languages := h'.languages.trans h.languages
  kept hno := by
    obtain ⟨ha, hb⟩ := Bool.or_eq_false_iff.mp hno
    exact (h'.kept hb).trans (h.kept ha)
  blank hyes := by
    cases b with
    | true => exact h'.blank rfl
    | false =>
      rw [h'.kept rfl]
      exact h.blank (by simpa using hyes)
  flags flag hflag v hv := h'.flags flag hflag v (h.flags flag hflag v hv)

theorem flagPhase_foldlM {α : Type} {f : FactoryRegistry → α → Except RegistryError FactoryRegistry}
    {hit : α → Bool} {l : List α}
    (hstep : ∀ a ∈ l, ∀ s s', f s a = .ok s' → FlagPhase key (hit a) s s')
    (h : l.foldlM f s = .ok s') : FlagPhase key (l.any hit) s s' := by
  induction l generalizing s with
  | nil =>
    obtain rfl := Except.ok.inj h
    exact .of_lemmas rfl rfl
  | cons a l ih =>
    rw [List.foldlM_cons] at h
    obtain ⟨mid, hmid, h⟩ := bind_eq_ok.mp h
    exact (hstep a List.mem_cons_self s mid hmid).trans
      (ih (fun b hb => hstep b (List.mem_cons_of_mem a hb)) h)

theorem flagPhase_flagCall {word pos : String} {stages : Dict}
    (hstages : ∀ e ∈ stages, e.1 ∈ laterFlags)
    (h : s.upsertLemma lib.toRegistryLib (flagCall word pos stages) = .ok s') :
    FlagPhase key (isKey key (lib.lemmaKeyFor (some word) (some pos))) s s' := by
  obtain ⟨k, p, hk, -, rfl⟩ := upsertLemma_eq_ok.mp h
  have hk' : lib.lemmaKeyFor (some word) (some pos) = .ok k := hk
  rw [hk']
  by_cases hkey : k = key
  · subst hkey
    have hrow := lookup_putLemma s (flagCall word pos stages) k p "en" k
    rw [if_pos ⟨rfl, rfl⟩] at hrow
    have htrue : isKey k (.ok k) = true := decide_eq_true rfl
    rw [htrue]
    refine ⟨rfl, nofun, fun _ => ⟨_, hrow, rfl, rfl, ?_⟩, fun flag hflag v hv => ?_⟩
    · exact lookup_fp_mergedStages _ _ "v14a" "legacy-import"
    · have hstagesOf := stagesOf_putLemma s (flagCall word pos stages) k p
      change ((s.putLemma (flagCall word pos stages) k p).stagesOf "en" k).lookup flag = some v
      rw [show (flagCall word pos stages).lang = "en" from rfl] at hstagesOf
      rw [hstagesOf]
      refine lookup_mergedStages hv ?_ fun e he heq => ?_
      · rintro rfl
        exact hflag (by simp [laterFlags])
      · exact absurd (heq ▸ hstages e he) hflag
  · have hrow := lookup_putLemma s (flagCall word pos stages) k p "en" key
    rw [if_neg fun h => hkey h.2] at hrow
    have hfalse : isKey key (.ok k) = false := decide_eq_false hkey
    rw [hfalse]
    exact ⟨rfl, fun _ => hrow, nofun, fun flag _ v hv => by rwa [stagesOf, hrow]⟩

def laterKey (lib : MigrationLib) (fx : V14Fixtures) (word : String) (cefr : Option String) :
    Except RegistryError String := do
  let u ← fx.uniqRowFor word cefr
  lib.keyOf u

theorem laterKey_of_uniqRow {word : String} {cefr : Option String} {u : UniqRow}
    (hu : fx.uniqRowFor word cefr = .ok u) :
    laterKey lib fx word cefr = lib.lemmaKeyFor (some u.word) (some u.pos) := by
  simp only [laterKey, hu, bind, Except.bind, MigrationLib.keyOf]

theorem addPrecard_lemmas {lang lemmaKey : String} {gloss senseCefr legacyId run : Option String}
    {result : FactoryRegistry × Bool}
    (h : s.addPrecard lib.toRegistryLib lang lemmaKey gloss senseCefr legacyId run = .ok result) :
    result.1.languages = s.languages ∧ result.1.lemmas = s.lemmas := by
  obtain ⟨pid, -, h⟩ := bind_eq_ok.mp h
  obtain rfl := Except.ok.inj h
  exact ⟨rfl, rfl⟩

theorem addSenses_lemmas {createdRun lemmaKey : String} {senses : List RankedSense}
    (h : addSenses lib createdRun lemmaKey s senses = .ok s') :
    s'.languages = s.languages ∧ s'.lemmas = s.lemmas := by
  refine foldlM_related (R := fun a b => b.languages = a.languages ∧ b.lemmas = a.lemmas)
    (fun _ => ⟨rfl, rfl⟩) ?_ ?_ h
  · rintro a b c ⟨hlang, hlemmas⟩ ⟨hlang', hlemmas'⟩
    exact ⟨hlang'.trans hlang, hlemmas'.trans hlemmas⟩
  intro sense _ a b hstep
  obtain ⟨result, hresult, rfl⟩ := map_eq_ok.mp hstep
  exact addPrecard_lemmas hresult

theorem flagPhase_importRanked {flag createdRun : String} (hflag : flag ∈ laterFlags)
    {row : RankedRow} (h : importRanked lib fx flag createdRun s row = .ok s') :
    FlagPhase key (isKey key (laterKey lib fx row.word row.cefr)) s s' := by
  obtain ⟨u, hu, h⟩ := bind_eq_ok.mp h
  obtain ⟨k, hk, h⟩ := bind_eq_ok.mp h
  obtain ⟨mid, hmid, h⟩ := bind_eq_ok.mp h
  have hcall : FlagPhase key (isKey key (lib.lemmaKeyFor (some u.word) (some u.pos))) s mid :=
    flagPhase_flagCall (by simpa using hflag) hmid
  obtain ⟨hlang, hlemmas⟩ := addSenses_lemmas h
  have hend := hcall.trans (.of_lemmas hlang hlemmas)
  rw [laterKey_of_uniqRow hu]
  simpa using hend

theorem flagPhase_importJudged {row : JudgedRow} (h : importJudged lib fx s row = .ok s') :
    FlagPhase key (isKey key (laterKey lib fx row.word row.cefr)) s s' := by
  obtain ⟨u, hu, h⟩ := bind_eq_ok.mp h
  rw [laterKey_of_uniqRow hu]
  exact flagPhase_flagCall (by simp [laterFlags]) h

theorem markDropped_lemmas (bIds : List (String × List String)) (dropped : List String) :
    (s.markDropped bIds dropped).languages = s.languages ∧
      (s.markDropped bIds dropped).lemmas = s.lemmas := by
  unfold markDropped
  induction dropped generalizing s with
  | nil => exact ⟨rfl, rfl⟩
  | cons pid dropped ih =>
    have hmerge : (s.markMerged "en" (s.survivorOf bIds pid) pid).1.languages = s.languages ∧
        (s.markMerged "en" (s.survivorOf bIds pid) pid).1.lemmas = s.lemmas := by
      unfold markMerged
      split
      · exact ⟨rfl, rfl⟩
      · split
        · exact ⟨rfl, rfl⟩
        · split <;> exact ⟨rfl, rfl⟩
    rw [List.foldl_cons]
    have hrest := ih (s := (s.markMerged "en" (s.survivorOf bIds pid) pid).1)
    exact ⟨hrest.1.trans hmerge.1, hrest.2.trans hmerge.2⟩

/-- The lemma has a row in a later fixture, or owns a card with a topic label. -/
def laterHit (lib : MigrationLib) (fx : V14Fixtures) (imported : FactoryRegistry) (key : String) :
    Bool :=
  fx.ra.any (fun row => isKey key (laterKey lib fx row.word row.cefr)) ||
    fx.rb.any (fun row => isKey key (laterKey lib fx row.word row.cefr)) ||
    fx.rc.any (fun row => isKey key (laterKey lib fx row.word row.cefr)) ||
    (touched fx imported).any fun lemmaKey =>
      isKey key (lib.lemmaKeyFor (some (partitionKey lemmaKey).1) (some (partitionKey lemmaKey).2))

theorem migrateV14_phases {imported : FactoryRegistry}
    (hsenses : importSenses lib fx s = .ok imported) (h : migrateV14 lib fx s = .ok s') :
    ∃ stored, fx.uniq.foldlM (importUniq lib) (s.registerLanguage "en" "v14a") = .ok stored ∧
      FlagPhase key (laterHit lib fx imported key) stored s' := by
  have htopics : (touched fx imported).foldlM (flagTopics lib) imported = .ok s' := by
    rw [migrateV14, hsenses] at h
    exact h
  obtain ⟨-, -, h⟩ := bind_eq_ok.mp hsenses
  obtain ⟨stored, hstored, h⟩ := bind_eq_ok.mp h
  obtain ⟨ranked, hranked, h⟩ := bind_eq_ok.mp h
  obtain ⟨aIds, -, h⟩ := bind_eq_ok.mp h
  obtain ⟨merged, hmerged, h⟩ := bind_eq_ok.mp h
  obtain ⟨bIds, -, hjudged⟩ := bind_eq_ok.mp h
  have hdropped := markDropped_lemmas (s := merged) bIds (droppedIds aIds bIds)
  have hra : FlagPhase key _ stored ranked := flagPhase_foldlM (fun row _ _ _ hrow =>
    flagPhase_importRanked (by simp [laterFlags]) hrow) hranked
  have hrb : FlagPhase key _ ranked merged := flagPhase_foldlM (fun row _ _ _ hrow =>
    flagPhase_importRanked (by simp [laterFlags]) hrow) hmerged
  have hrc : FlagPhase key _ _ imported := flagPhase_foldlM (fun row _ _ _ hrow =>
    flagPhase_importJudged hrow) hjudged
  have ht : FlagPhase key _ imported s' := flagPhase_foldlM (fun lemmaKey _ _ _ hrow =>
    flagPhase_flagCall (by simp [laterFlags]) hrow) htopics
  have hall := (((hra.trans hrb).trans (.of_lemmas hdropped.1 hdropped.2)).trans hrc).trans ht
  rw [Bool.or_false] at hall
  exact ⟨stored, hstored, hall⟩

theorem importCall_not_later {u : UniqRow} {e : String × JsonValue}
    (he : e ∈ (importCall lib u).stages) : e.1 ∉ laterFlags := by
  have hname : e.1 = "deduped" ∨ e.1 = "n_uniq" := by
    rcases List.mem_cons.mp he with rfl | he
    · exact .inl rfl
    · obtain rfl := List.mem_singleton.mp he
      exact .inr rfl
  rcases hname with hname | hname <;> rw [hname] <;> decide

theorem lookup_stages_importCall {u : UniqRow} {e : String × JsonValue} (k p : String)
    (he : e ∈ (importCall lib u).stages) :
    (s.updatedLemma (importCall lib u) k p).stages.lookup e.1 = some e.2 := by
  have hnodup : ((importCall lib u).stages.map Prod.fst).Nodup :=
    (by decide : ["deduped", "n_uniq"].Nodup)
  have hne : e.1 ≠ "fp" := by
    intro hfp
    exact importCall_not_later he (hfp ▸ by simp [laterFlags])
  have hlookup : (importCall lib u).stages.lookup e.1 = some e.2 := by
    rcases List.mem_cons.mp he with rfl | he
    · rfl
    · obtain rfl := List.mem_singleton.mp he
      rfl
  simp only [updatedLemma, mergedStages, importCall]
  rw [Dict.lookup_set, if_neg hne]
  exact (Dict.lookup_update _ hnodup _).trans (by rw [hlookup, Option.some_or])

theorem stored_importUniq {pre post : List UniqRow} {u : UniqRow} (hkey : lib.keyOf u = .ok key)
    (hpost : ∀ v ∈ post, lib.keyOf v ≠ .ok key)
    (h : (pre ++ u :: post).foldlM (importUniq lib) s = .ok s') :
    s'.languages = s.languages ∧ ∃ row, s'.lemmas.lookup ("en", key) = some row ∧
      row.cefr = u.cefr ∧ row.rawHash = some (lib.rawHash u) ∧
      row.stages.lookup "fp" = some (.str "v14a:legacy-import") ∧
      ∀ e ∈ (importCall lib u).stages, row.stages.lookup e.1 = some e.2 := by
  rw [List.foldlM_append] at h
  obtain ⟨before, hbefore, h⟩ := bind_eq_ok.mp h
  rw [List.foldlM_cons] at h
  obtain ⟨mid, hmid, h⟩ := bind_eq_ok.mp h
  have hlangBefore : before.languages = s.languages := by
    refine foldlM_related (R := fun a b => b.languages = a.languages) (fun _ => rfl) ?_ ?_ hbefore
    · intro a b c hab hbc
      exact hbc.trans hab
    · intro v _ a b hstep
      obtain ⟨k, p, -, -, rfl⟩ := upsertLemma_eq_ok.mp hstep
      rfl
  have hafter : s'.languages = mid.languages ∧
      s'.lemmas.lookup ("en", key) = mid.lemmas.lookup ("en", key) := by
    refine foldlM_related (R := fun a b => b.languages = a.languages ∧
      b.lemmas.lookup ("en", key) = a.lemmas.lookup ("en", key)) (fun _ => ⟨rfl, rfl⟩) ?_ ?_ h
    · rintro a b c ⟨hlang, hrow⟩ ⟨hlang', hrow'⟩
      exact ⟨hlang'.trans hlang, hrow'.trans hrow⟩
    intro v hv a b hstep
    obtain ⟨k, p, hk, -, rfl⟩ := upsertLemma_eq_ok.mp hstep
    refine ⟨rfl, ?_⟩
    rw [lookup_putLemma, if_neg]
    rintro ⟨-, rfl⟩
    exact hpost v hv hk
  obtain ⟨k, p, hk, -, rfl⟩ := upsertLemma_eq_ok.mp hmid
  obtain rfl : k = key := Except.ok.inj (hk.symm.trans hkey)
  refine ⟨hafter.1.trans hlangBefore, before.updatedLemma (importCall lib u) k p,
    hafter.2.trans ?_, rfl, rfl, ?_, ?_⟩
  · exact (lookup_putLemma _ _ _ _ _ _).trans (if_pos ⟨rfl, rfl⟩)
  · exact lookup_fp_mergedStages _ _ "v14a" "legacy-import"
  · exact fun e he => lookup_stages_importCall _ _ he

end Phases

/-- A lemma of the first fixture, after the whole import. -/
structure ImportedReused (lib : MigrationLib) (s : FactoryRegistry) (u : UniqRow) (key : String) :
    Prop where
  reuse : s.fingerprint "en" key "v14a" "legacy-import" (some (lib.rawHash u)) = .reuse
  cefr : s.cefrOf "en" key = u.cefr
  flags : ∀ e ∈ (importCall lib u).stages, (s.stagesOf "en" key).lookup e.1 = some e.2

theorem importedReused_iff {lib : MigrationLib} {fx : V14Fixtures} {s imported s' : FactoryRegistry}
    {pre post : List UniqRow} {u : UniqRow} {key : String}
    (hsenses : importSenses lib fx s = .ok imported) (h : migrateV14 lib fx s = .ok s')
    (huniq : fx.uniq = pre ++ u :: post) (hkey : lib.keyOf u = .ok key)
    (hpost : ∀ v ∈ post, lib.keyOf v ≠ .ok key) :
    ImportedReused lib s' u key ↔
      laterHit lib fx imported key = false ∨ (u.cefr = none ∧ lib.rawHash u = "") := by
  obtain ⟨stored, hstored, hphase⟩ : ∃ stored,
      fx.uniq.foldlM (importUniq lib) (s.registerLanguage "en" "v14a") = .ok stored ∧
        FlagPhase key (laterHit lib fx imported key) stored s' := migrateV14_phases hsenses h
  rw [huniq] at hstored
  obtain ⟨hlang, row, hrow, hcefr, hhash, hfp, hflags⟩ := stored_importUniq hkey hpost hstored
  have hpack : s'.packIs "en" "v14a" := by
    rw [packIs, hphase.languages, hlang, registerLanguage, KeyedTable.lookup_upsert, if_pos rfl]
    cases s.languages.lookup "en" <;> rfl
  have hkept : ∀ e ∈ (importCall lib u).stages, (s'.stagesOf "en" key).lookup e.1 = some e.2 := by
    intro e he
    refine hphase.flags e.1 (importCall_not_later he) e.2 ?_
    rw [stagesOf, hrow]
    exact hflags e he
  cases hhit : laterHit lib fx imported key with
  | false =>
    refine iff_of_true ⟨?_, ?_, hkept⟩ (.inl rfl)
    · rw [fingerprint_eq_reuse, hphase.kept hhit]
      exact ⟨hpack, row, hrow, by rw [hhash], hfp⟩
    · rw [cefrOf, hphase.kept hhit, hrow]
      exact hcefr
  | true =>
    obtain ⟨last, hlast, hnone, hblank, hfp'⟩ := hphase.blank hhit
    have hcefr' : s'.cefrOf "en" key = none := by
      rw [cefrOf, hlast]
      exact hnone
    constructor
    · intro himported
      obtain ⟨-, found, hfound, hsame, -⟩ := fingerprint_eq_reuse.mp himported.reuse
      obtain rfl := Option.some.inj (hlast.symm.trans hfound)
      rw [hblank] at hsame
      exact .inr ⟨himported.cefr.symm.trans hcefr', hsame.symm⟩
    · rintro (hno | ⟨hlevel, hempty⟩)
      · cases hno
      · refine ⟨fingerprint_eq_reuse.mpr ⟨hpack, last, hlast, ?_, hfp'⟩, ?_, hkept⟩
        · rw [hblank, hempty]
          rfl
        · rw [hcefr', hlevel]

/-! ## Finished lemmas -/

/-- **When finished lemmas are reused.**  After any calls of a lemma, and for the
lemmas of the import. -/
theorem finished_reused_iff (lib : MigrationLib) :
    (∀ (s : FactoryRegistry) (u : LemmaUpdate) (key pack code h : String)
      (later : List LemmaUpdate), lib.lemmaKeyFor u.word u.pos = .ok key →
      u.packVersion = some pack → u.codeHash = some code → u.rawHash = some h →
      Meets (fun s u => s.step lib.toRegistryLib (.upsertLemma u))
        (AddsFlags lib.toRegistryLib u.lang key pack code)
        (s.step lib.toRegistryLib (.upsertLemma u)) later →
      (StaysFinished lib.toRegistryLib (s.step lib.toRegistryLib (.upsertLemma u)) later u.lang
          key pack code h ↔
        s.packIs u.lang pack ∧ (later = [] ∨ (u.cefr = none ∧ h = "")))) ∧
    ∀ (fx : V14Fixtures) (s imported s' : FactoryRegistry) (pre post : List UniqRow) (u : UniqRow)
      (key : String), importSenses lib fx s = .ok imported → migrateV14 lib fx s = .ok s' →
      fx.uniq = pre ++ u :: post → lib.keyOf u = .ok key → (∀ v ∈ post, lib.keyOf v ≠ .ok key) →
      (ImportedReused lib s' u key ↔
        laterHit lib fx imported key = false ∨ (u.cefr = none ∧ lib.rawHash u = "")) :=
  ⟨fun _ _ _ _ _ _ _ hkey hpack hcode hhash hlater =>
      staysFinished_iff hkey hpack hcode hhash hlater,
    fun _ _ _ _ _ _ _ _ hsenses h huniq hkey hpost =>
      importedReused_iff hsenses h huniq hkey hpost⟩

/-- A finished lemma, and a call that adds a flag to it. -/
def catStored : LemmaUpdate :=
  ⟨"en", some "cat", some "noun", some "A1", some "h1", [("ranked", .bool true)], some "v14a",
    some "c1"⟩

def catTopics : LemmaUpdate :=
  ⟨"en", some "cat", some "noun", none, none, [("topics", .bool true)], some "v14a", some "c1"⟩

theorem catTopics_adds : AddsFlags .ascii "en" "cat|noun" "v14a" "c1"
    ((empty.registerLanguage "en" "v14a").step .ascii (.upsertLemma catStored)) catTopics where
  lang_eq := rfl
  key_eq := by rfl
  cefr_eq := rfl
  rawHash_eq := rfl
  pack_eq := rfl
  code_eq := rfl
  adds e he := by
    obtain rfl := List.mem_singleton.mp he
    exact .inl (by rfl)

theorem flag_call_forgets_hash :
    (empty.registerLanguage "en" "v14a").packIs "en" "v14a" ∧
    AddsFlags .ascii "en" "cat|noun" "v14a" "c1"
      ((empty.registerLanguage "en" "v14a").step .ascii (.upsertLemma catStored)) catTopics ∧
    ¬ StaysFinished .ascii
      ((empty.registerLanguage "en" "v14a").step .ascii (.upsertLemma catStored)) [catTopics]
      "en" "cat|noun" "v14a" "c1" "h1" := by
  refine ⟨rfl, catTopics_adds, fun h => ?_⟩
  have hreuse := h.reuse
  revert hreuse
  decide

/-- Two lemmas of the first fixture, of which one is ranked. -/
def twoLemmas : V14Fixtures where
  uniq := [⟨"cat", some "A1", "noun", []⟩, ⟨"dog", some "A1", "noun", []⟩]
  ra := [⟨"cat", some "A1", []⟩]
  rb := []
  rc := []
  topics := []

theorem finished_reused_unflagged :
    StaysFinished .ascii ((empty.registerLanguage "en" "v14a").step .ascii (.upsertLemma catStored))
      [] "en" "cat|noun" "v14a" "c1" "h1" ∧
    ∀ imported, migrateV14 .ascii twoLemmas empty = .ok imported →
      ImportedReused .ascii imported ⟨"dog", some "A1", "noun", []⟩ "dog|noun" ∧
      ¬ ImportedReused .ascii imported ⟨"cat", some "A1", "noun", []⟩ "cat|noun" := by
  have hlaws := finished_reused_iff .ascii
  refine ⟨(hlaws.1 (empty.registerLanguage "en" "v14a") catStored "cat|noun" "v14a" "c1" "h1" []
    (by rfl) rfl rfl rfl trivial).mpr ⟨rfl, .inl rfl⟩, fun s' h => ?_⟩
  obtain ⟨imported, hsenses⟩ : ∃ s, importSenses .ascii twoLemmas empty = .ok s := ⟨_, rfl⟩
  refine ⟨(hlaws.2 twoLemmas empty imported s' [⟨"cat", some "A1", "noun", []⟩] []
    ⟨"dog", some "A1", "noun", []⟩ "dog|noun" hsenses h rfl (by rfl)
    (fun v hv => by cases hv)).mpr (.inl (by rfl)), fun hcat => ?_⟩
  have hcond := (hlaws.2 twoLemmas empty imported s' []
    [⟨"dog", some "A1", "noun", []⟩] ⟨"cat", some "A1", "noun", []⟩ "cat|noun" hsenses h rfl (by rfl) (fun v hv => by
      obtain rfl := List.mem_singleton.mp hv
      decide)).mp hcat
  rcases hcond with hno | ⟨hlevel, -⟩
  · cases hno
  · cases hlevel

end FactoryRegistry

end HamZaboon
