import HamZaboon.Library.Numerals
import HamZaboon.Library.Ranking
import HamZaboon.Library.Results
import HamZaboon.Library.Runs
import HamZaboon.Library.Table
import HamZaboon.Texts.Unicode
import Mathlib.Data.Prod.Lex
import Mathlib.Data.String.Basic

/-! # The factory registry

`factory/core/registry.py`: languages, lemmas, pre-cards and batch tickets in
one SQLite file.  Every write is one immediate transaction, so it is one step
here.  The clock is part of the call.
-/

namespace HamZaboon
open Library

/-- What the registry takes from Python's texts and from `hashlib`. -/
structure RegistryLib extends UnicodeLib where
  lower : String → String
  /-- `hashlib.sha1(s.encode("utf-8")).hexdigest()`. -/
  sha1 : String → String

/-- The functions on ASCII texts, with the text itself for its hash. -/
def RegistryLib.ascii : RegistryLib where
  toUnicodeLib := .ascii
  lower s := String.ofList (s.toList.map Char.toLower)
  sha1 s := s

inductive RegistryError
  | valueError (message : String)
  | keyError (key : String × Option String)
  | ambiguousRow (word : String) (cefr : Option String)
  | integrityError (message : String)
  deriving DecidableEq, Repr

/-! ## Identities -/

namespace RegistryLib
variable (lib : RegistryLib)

/-- `s is None or not s.strip()`. -/
def isBlank (s : Option String) : Bool := s.all fun s => lib.strip s = ""

def normalizeLemma (s : Option String) : Except RegistryError String :=
  if lib.isBlank s then .error (.valueError "normalize_lemma: empty lemma")
  else .ok (lib.lower (lib.collapse (lib.strip (s.getD ""))))

def normalizePos (s : Option String) : Except RegistryError String :=
  if lib.isBlank s then .error (.valueError "normalize_pos: empty pos")
  else .ok (lib.lower (lib.strip (s.getD "")))

/-- `s.rstrip(".")`. -/
def rstripDots (s : String) : String :=
  String.ofList ((s.toList.reverse.dropWhile (· = '.')).reverse)

def normalizeGloss (s : Option String) : Except RegistryError String :=
  if lib.isBlank s then .error (.valueError "normalize_gloss: empty gloss")
  else .ok (rstripDots (lib.collapse (lib.lower (s.getD ""))))

def lemmaKeyFor (word pos : Option String) : Except RegistryError String := do
  let word ← lib.normalizeLemma word
  let pos ← lib.normalizePos pos
  return word ++ "|" ++ pos

/-- `lemma_key.partition("|")[0]`. -/
def lemmaOfKey (lemmaKey : String) : String := String.ofList (lemmaKey.toList.takeWhile (· ≠ '|'))

def precardIdFor (lemmaKey : String) (gloss : Option String) : Except RegistryError String := do
  let gloss := if lib.isBlank gloss then some (lemmaOfKey lemmaKey) else gloss
  let gloss ← lib.normalizeGloss gloss
  return lemmaKey ++ "::" ++ String.ofList ((lib.sha1 gloss).toList.take 10)

end RegistryLib

/-! ## Tables -/

namespace FactoryRegistry

/-- A row of `languages`. -/
structure Language where
  code : String
  packVersion : String

/-- A row of `lemmas`; the stage flags are decoded. -/
structure Lemma where
  lang : String
  lemmaKey : String
  pos : String
  cefr : Option String
  stages : Dict
  rawHash : Option String

inductive Status
  | active
  | superseded
  deriving DecidableEq, Repr

/-- A row of `precards`. -/
structure Precard where
  lang : String
  preCardId : String
  lemmaKey : String
  gloss : String
  senseCefr : Option String
  status : Status
  mergedInto : Option String
  convertedFinalId : Option String
  createdRun : Option String
  deriving DecidableEq, Repr

/-- The `progress` of a ticket, in whole seconds of UTC. -/
structure TicketProgress where
  leasedAt : Int
  quota : Int
  nItems : Nat
  done : Nat
  deriving DecidableEq, Repr

/-- A row of `batches`. -/
structure Batch where
  ticket : String
  lang : String
  quota : Int
  progress : TicketProgress
  deriving DecidableEq, Repr

/-- `batch_items.status`. -/
inductive ItemStatus
  | claimed
  | queued
  | done
  deriving DecidableEq, Repr

/-- A row of `batch_items`. -/
structure BatchItem where
  ticket : String
  preCardId : String
  status : ItemStatus
  deriving DecidableEq, Repr

/-- `status IN ('claimed','done')`. -/
def BatchItem.isLive (item : BatchItem) : Bool := item.status ≠ .queued

end FactoryRegistry

open FactoryRegistry

structure FactoryRegistry where
  languages : KeyedTable String Language (·.code)
  lemmas : KeyedTable (String × String) Lemma fun r => (r.lang, r.lemmaKey)
  precards : KeyedTable (String × String) Precard fun r => (r.lang, r.preCardId)
  /-- Language, alias and pre-card. -/
  lemmaAliases : KeyedTable (String × String × String) (String × String × String) id
  batches : KeyedTable String Batch (·.ticket)
  batchItems : KeyedTable (String × String) BatchItem fun r => (r.ticket, r.preCardId)

namespace FactoryRegistry

/-- The registry of `init_db`. -/
def empty : FactoryRegistry := ⟨.empty, .empty, .empty, .empty, .empty, .empty⟩

/-! ## Languages and lemmas -/

def registerLanguage (s : FactoryRegistry) (code packVersion : String) : FactoryRegistry :=
  let languages := s.languages.upsert ⟨code, packVersion⟩
    (fun r => { r with packVersion := packVersion }) fun _ => rfl
  { s with languages := languages }

/-- The stage flags after an `upsert_lemma`. -/
def mergedStages (old stages : Dict) (packVersion codeHash : Option String) : Dict :=
  let merged := old.update stages
  match packVersion, codeHash with
  | some pack, some code => merged.set "fp" (.str (pack ++ ":" ++ code))
  | _, _ => merged

/-- The arguments of `upsert_lemma` besides the registry. -/
structure LemmaUpdate where
  lang : String
  word : Option String
  pos : Option String
  cefr : Option String
  rawHash : Option String
  stages : Dict
  packVersion : Option String
  codeHash : Option String

/-- The decoded stage flags of a lemma, none where it has no row. -/
def stagesOf (s : FactoryRegistry) (lang lemmaKey : String) : Dict :=
  ((s.lemmas.lookup (lang, lemmaKey)).map (·.stages)).getD []

/-- The row an `upsert_lemma` writes. -/
def updatedLemma (s : FactoryRegistry) (u : LemmaUpdate) (key pos : String) : Lemma :=
  ⟨u.lang, key, pos, u.cefr,
    mergedStages (s.stagesOf u.lang key) u.stages u.packVersion u.codeHash, u.rawHash⟩

/-- `INSERT INTO lemmas … ON CONFLICT(lang, lemma_key) DO UPDATE SET …`. -/
def putLemma (s : FactoryRegistry) (u : LemmaUpdate) (key pos : String) : FactoryRegistry :=
  let row := s.updatedLemma u key pos
  let lemmas := s.lemmas.upsert row
    (fun r => { r with pos := row.pos, cefr := row.cefr, stages := row.stages,
                       rawHash := row.rawHash }) fun _ => rfl
  { s with lemmas := lemmas }

def upsertLemma (lib : RegistryLib) (s : FactoryRegistry) (u : LemmaUpdate) :
    Except RegistryError FactoryRegistry := do
  let key ← lib.lemmaKeyFor u.word u.pos
  let pos ← lib.normalizePos u.pos
  return s.putLemma u key pos

theorem lookup_putLemma (s : FactoryRegistry) (u : LemmaUpdate) (key pos lang k : String) :
    (s.putLemma u key pos).lemmas.lookup (lang, k) =
      if u.lang = lang ∧ key = k then some (s.updatedLemma u key pos)
      else s.lemmas.lookup (lang, k) := by
  unfold putLemma
  rw [KeyedTable.lookup_upsert]
  by_cases hkey : u.lang = lang ∧ key = k
  · obtain ⟨rfl, rfl⟩ := hkey
    refine (if_pos rfl).trans ((congrArg some ?_).trans (if_pos ⟨rfl, rfl⟩).symm)
    cases hold : s.lemmas.lookup (u.lang, key) with
    | none => rfl
    | some old =>
      have hkey := KeyedTable.key_of_lookup hold
      obtain ⟨hl, hk⟩ := Prod.mk.inj hkey
      simp only [Option.elim_some, updatedLemma, hl, hk]
  · refine (if_neg fun heq => hkey ?_).trans (if_neg hkey).symm
    exact Prod.mk.inj heq

/-- The two answers of `fingerprint`. -/
inductive Fingerprint
  | reuse
  | reprocess
  deriving DecidableEq, Repr

def fingerprint (s : FactoryRegistry) (lang lemmaKey packVersion codeHash : String)
    (rawHash : Option String) : Fingerprint :=
  match s.languages.lookup lang with
  | none => .reprocess
  | some language =>
    if language.packVersion ≠ packVersion then .reprocess
    else match s.lemmas.lookup (lang, lemmaKey) with
      | none => .reprocess
      | some row =>
        if row.rawHash.getD "" ≠ rawHash.getD "" then .reprocess
        else match row.stages.get "fp" with
          | .str fp => if fp = packVersion ++ ":" ++ codeHash then .reuse else .reprocess
          | _ => .reprocess

/-! ## Pre-cards -/

/-- `add_precard`; a missing gloss violates `NOT NULL`, so the row is ignored. -/
def addPrecard (lib : RegistryLib) (s : FactoryRegistry) (lang lemmaKey : String)
    (gloss senseCefr legacyId createdRun : Option String) :
    Except RegistryError (FactoryRegistry × Bool) := do
  let pid ← lib.precardIdFor lemmaKey gloss
  let precards := match gloss with
    | none => s.precards
    | some gloss => s.precards.insertOrIgnore
        ⟨lang, pid, lemmaKey, gloss, senseCefr, .active, none, none, createdRun⟩
  let new := gloss.isSome && !s.precards.has (lang, pid)
  let lemmaAliases := match legacyId with
    | none => s.lemmaAliases
    | some legacy =>
      if legacy = "" then s.lemmaAliases else s.lemmaAliases.insertOrIgnore (lang, legacy, pid)
  return ({ s with precards := precards, lemmaAliases := lemmaAliases }, new)

/-- `UPDATE precards SET … WHERE lang=? AND pre_card_id=?`. -/
def updatePrecard (s : FactoryRegistry) (lang preCardId : String) (f : Precard → Precard)
    (hf : ∀ r, ((f r).lang, (f r).preCardId) = (r.lang, r.preCardId)) : FactoryRegistry :=
  let precards := s.precards.updateWhere (fun r => r.lang = lang && r.preCardId = preCardId) f hf
  { s with precards := precards }

theorem lookup_updatePrecard (s : FactoryRegistry) (lang preCardId : String)
    (f : Precard → Precard) (hf : ∀ r, ((f r).lang, (f r).preCardId) = (r.lang, r.preCardId))
    (l p : String) :
    (s.updatePrecard lang preCardId f hf).precards.lookup (l, p) =
      (s.precards.lookup (l, p)).map fun r => if l = lang ∧ p = preCardId then f r else r := by
  rw [updatePrecard, KeyedTable.lookup_updateWhere]
  cases hrow : s.precards.lookup (l, p) with
  | none => rfl
  | some r =>
    have hkey := KeyedTable.key_of_lookup hrow
    obtain ⟨rfl, rfl⟩ := Prod.mk.inj hkey
    simp only [Option.map_some, Bool.and_eq_true, decide_eq_true_eq]

theorem has_updatePrecard (s : FactoryRegistry) (lang preCardId : String)
    (f : Precard → Precard) (hf : ∀ r, ((f r).lang, (f r).preCardId) = (r.lang, r.preCardId))
    (key : String × String) :
    (s.updatePrecard lang preCardId f hf).precards.has key = s.precards.has key := by
  rw [Bool.eq_iff_iff, KeyedTable.has_iff_lookup, KeyedTable.has_iff_lookup,
    lookup_updatePrecard s lang preCardId f hf key.1 key.2]
  simp

/-- `UPDATE precards SET status='superseded', merged_into=? …`. -/
def setMerged (s : FactoryRegistry) (lang survivor dropped : String) : FactoryRegistry :=
  s.updatePrecard lang dropped
    (fun r => { r with status := .superseded, mergedInto := some survivor }) fun _ => rfl

def markMerged (s : FactoryRegistry) (lang : String) (survivorId : Option String)
    (droppedId : String) : FactoryRegistry × Bool :=
  match survivorId with
  | none => (s, false)
  | some survivor =>
    if survivor = "" || survivor = droppedId then (s, false)
    else match s.precards.lookup (lang, droppedId) with
      | none => (s, false)
      | some _ => (s.setMerged lang survivor droppedId, true)

/-- The card has the receipt of another conversion. -/
def convertedElsewhere (row : Precard) (finalId : Option String) : Bool :=
  row.convertedFinalId ≠ none && row.convertedFinalId ≠ finalId

/-- `UPDATE precards SET converted_final_id=? …`. -/
def setConverted (s : FactoryRegistry) (lang preCardId : String) (finalId : Option String) :
    FactoryRegistry :=
  s.updatePrecard lang preCardId (fun r => { r with convertedFinalId := finalId }) fun _ => rfl

def markConverted (s : FactoryRegistry) (lang preCardId : String) (finalId : Option String) :
    FactoryRegistry × Bool :=
  match s.precards.lookup (lang, preCardId) with
  | none => (s, false)
  | some row =>
    if convertedElsewhere row finalId then (s, false)
    else (s.setConverted lang preCardId finalId, true)

end FactoryRegistry

end HamZaboon
