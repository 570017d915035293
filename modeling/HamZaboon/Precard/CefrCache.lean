import HamZaboon.Lexicon.Sampling
import HamZaboon.Library.Memo
import HamZaboon.Library.Runs

/-! # The cache of CEFR candidates

`sense_cefr_for` of `factory/precard/cefr.py` reads the level of a sense off the rows of a
bridge, and keeps the candidates of a lemma and a part of speech in `_CAND_CACHE`, with the
identity number of the bridge they come from.

The cache does not keep that bridge alive.  When it is dropped its number is free, and a
later bridge that gets it is answered with the candidates of the old one.  A run is
transparent exactly when no call meets such an entry that tells other levels
(`cefr_cache_transparent_iff`).
-/

namespace HamZaboon
open Library

/-- What the lookup takes from Python's texts, over those of the registry. -/
structure CefrLib extends RegistryLib where
  /-- `str` of a value that is no text; `none` for the `ValueError`. -/
  display : JsonValue → Option String
  /-- `\w`. -/
  isWord : Char → Bool
  lower_a : lower "a" = "a"
  isWord_a : isWord 'a' = true

inductive CefrMethod
  | wnSingle
  | wnEvpGloss
  | unmapped
  deriving DecidableEq, Repr

/-- `CEFR_ORDER`. -/
def cefrNames : List (String × CefrLevel) :=
  [("A1", .a1), ("A2", .a2), ("B1", .b1), ("B2", .b2), ("C1", .c1), ("C2", .c2)]

def cefrOf (s : String) : Option CefrLevel := cefrNames.lookup s

def CefrLevel.text : CefrLevel → String
  | .a1 => "A1" | .a2 => "A2" | .b1 => "B1" | .b2 => "B2" | .c1 => "C1" | .c2 => "C2"

@[simp] theorem cefrOf_text (level : CefrLevel) : cefrOf level.text = some level := by
  cases level <;> rfl

/-- `WN_POS`, in the order of its sets. -/
def wnPos : List (String × List Nat) :=
  [("noun", [1]), ("verb", [2]), ("adj", [3, 5]), ("adjective", [3, 5]), ("adv", [4]),
    ("adverb", [4])]

/-- `WN_POS.get(pos_norm, _ALL_POSNUMS)`. -/
def posnums (posNorm : String) : List Nat := (wnPos.lookup posNorm).getD [1, 2, 3, 4, 5]

def candCacheMax : Nat := 20000

/-- A bridge, with its identity number and what it holds for a lemma and a number of a
part of speech.  A value that is no dictionary counts as a new empty bridge. -/
structure BridgeObject where
  id : Nat
  rows : String → Nat → JsonValue

/-- The candidates of a lemma: sense keys with their levels. -/
abbrev CefrCands := List (String × CefrLevel)

abbrev CandCache := Memo (String × String) Nat CefrCands

/-- `a, b = value`. -/
def unpackTwo (value : JsonValue) : Option (JsonValue × JsonValue) :=
  match value.iterate with
  | some [a, b] => some (a, b)
  | _ => none

def candidateRow (row : JsonValue) : Option (String × CefrLevel) :=
  match unpackTwo row with
  | some (.str sensekey, .str cefr) => (cefrOf cefr).map fun level => (sensekey, level)
  | _ => none

def BridgeObject.candidates (bridge : BridgeObject) (lemmaNorm posNorm : String) : CefrCands :=
  (posnums posNorm).flatMap fun posnum =>
    ((bridge.rows lemmaNorm posnum).listItems.getD []).filterMap candidateRow

def minCefr (levels : List CefrLevel) : Option CefrLevel :=
  CefrLevel.order.find? fun level => level ∈ levels

/-- The arguments of a call; a missing bridge or EVP map is the loaded one. -/
structure CefrCall where
  lemma' : JsonValue
  pos : JsonValue
  gloss : JsonValue
  bridge : BridgeObject
  evp : Dict

namespace CefrLib
variable (lib : CefrLib)

/-- `str(value)`. -/
def str : JsonValue → Option String
  | .str s => some s
  | value => lib.display value

/-- `normalize_lemma(str(lemma or "").replace("_", " "))`; `none` for the `ValueError`. -/
def lemmaNorm (value : JsonValue) : Option String := do
  let text ← if value.truthy then lib.str value else some ""
  (lib.normalizeLemma (some (String.ofList (text.toList.map fun c => if c = '_' then ' ' else c)))).toOption

/-- `normalize_pos(pos)`, or nothing. -/
def posNorm (value : JsonValue) : String :=
  match value with
  | .null => ""
  | value => ((lib.str value).bind fun s => (lib.normalizePos (some s)).toOption).getD ""

/-! ## The level of a sense -/

/-- `\b`. -/
def wordBoundary (before after : Option Char) : Bool := before.any lib.isWord != after.any lib.isWord

/-- The guideword stands here, between word boundaries. -/
def guidewordAt (word : List Char) (before : Option Char) (text : List Char) : Bool :=
  lib.wordBoundary before text.head? && word.isPrefixOf text &&
    lib.wordBoundary word.getLast? (text.drop word.length).head?

/-- `re.search` of a guideword between word boundaries. -/
def searchGuideword (word : List Char) (before : Option Char) : List Char → Bool
  | [] => lib.guidewordAt word before []
  | c :: text => lib.guidewordAt word before (c :: text) || searchGuideword word (some c) text

/-- The level of an EVP pair that the gloss names. -/
def matchedLevel (levels : List CefrLevel) (glossary : String) (pair : JsonValue) :
    Option CefrLevel :=
  match unpackTwo pair with
  | some (.str guideword, .str cefr) =>
      (cefrOf cefr).filter fun level => level ∈ levels && guideword ≠ "" &&
        lib.searchGuideword guideword.toList none glossary.toList
  | _ => none

/-- The levels of the EVP pairs that the gloss names. -/
def matchedLevels (cands : CefrCands) (lemmaNorm glossary : String) (evp : Dict) :
    List CefrLevel :=
  (((evp.lookup lemmaNorm).getD (.arr [])).iterate.getD []).filterMap
    (lib.matchedLevel (cands.map (·.2)) glossary)

/-- `gloss.lower() if isinstance(gloss, str) else ""`. -/
def glossaryOf : JsonValue → String
  | .str s => lib.lower s
  | _ => ""

def levelOfCands (cands : CefrCands) (lemmaNorm : String) (gloss : JsonValue) (evp : Dict) :
    Option CefrLevel × CefrMethod :=
  match cands with
  | [] => (none, .unmapped)
  | [cand] => (some cand.2, .wnSingle)
  | cands =>
      let glossary := lib.glossaryOf gloss
      if glossary = "" then (none, .unmapped)
      else
        match lib.matchedLevels cands lemmaNorm glossary evp with
        | [] => (none, .unmapped)
        | matched => (minCefr matched, .wnEvpGloss)

/-- `sense_cefr_for`: what it returns, and the cache that it leaves. -/
def senseCefrFor (cache : CandCache) (call : CefrCall) :
    (Option CefrLevel × CefrMethod) × CandCache :=
  match lib.lemmaNorm call.lemma' with
  | none => ((none, .unmapped), cache)
  | some lemmaNorm =>
      let posNorm := lib.posNorm call.pos
      let asked := cache.ask candCacheMax (lemmaNorm, posNorm) call.bridge.id
        (call.bridge.candidates lemmaNorm posNorm)
      (lib.levelOfCands asked.1 lemmaNorm call.gloss call.evp, asked.2)

end CefrLib

/-! ## Bridges come and go -/

/-- A bridge is built or dropped, or a sense is looked up. -/
inductive CefrEvent
  | create (bridge : BridgeObject)
  | drop (id : Nat)
  | call (call : CefrCall)

/-- The bridges that are alive, and the cache. -/
structure CefrState where
  alive : List BridgeObject
  cache : CandCache

/-- Nothing is alive, and the cache is empty. -/
def CefrState.empty : CefrState := ⟨[], []⟩

/-- A new bridge has a number that no other bridge alive has, and calls use bridges that
are alive. -/
def CefrLawful (s : CefrState) : CefrEvent → Prop
  | .create bridge => ∀ b ∈ s.alive, b.id ≠ bridge.id
  | .drop _ => True
  | .call call => call.bridge ∈ s.alive

namespace CefrLib
variable (lib : CefrLib)

def cefrStep (s : CefrState) : CefrEvent → CefrState
  | .create bridge => { s with alive := bridge :: s.alive }
  | .drop id => { s with alive := s.alive.filter fun b => b.id ≠ id }
  | .call call => { s with cache := (lib.senseCefrFor s.cache call).2 }

/-- The call returns what it would with an empty cache. -/
def Transparent (s : CefrState) : CefrEvent → Prop
  | .call call => (lib.senseCefrFor s.cache call).1 = (lib.senseCefrFor [] call).1
  | _ => True

end CefrLib

/-- Candidates that tell the same levels: both none, both one with the same level, or both
several with the same levels. -/
structure TellAlike (a b : CefrCands) : Prop where
  count : min a.length 2 = min b.length 2
  levels : ∀ level, level ∈ a.map (·.2) ↔ level ∈ b.map (·.2)

/-- The call meets no entry with the number of its bridge whose candidates tell something
else than its own bridge. -/
def CefrLib.OwnCandidates (lib : CefrLib) (s : CefrState) : CefrEvent → Prop
  | .call call => ∀ lemmaNorm held, lib.lemmaNorm call.lemma' = some lemmaNorm →
      s.cache.Holds (lemmaNorm, lib.posNorm call.pos) call.bridge.id held →
        TellAlike held (call.bridge.candidates lemmaNorm (lib.posNorm call.pos))
  | _ => True

/-! ## What candidates tell -/

@[simp] theorem minCefr_singleton (level : CefrLevel) : minCefr [level] = some level := by
  cases level <;> rfl

namespace CefrLib
variable {lib : CefrLib} {a b : CefrCands} {lemmaNorm : String}

theorem matchedLevel_congr {levels levels' : List CefrLevel}
    (h : ∀ level, level ∈ levels ↔ level ∈ levels') (glossary : String) (pair : JsonValue) :
    lib.matchedLevel levels glossary pair = lib.matchedLevel levels' glossary pair := by
  unfold matchedLevel
  split
  · simp only [h]
  · rfl

theorem levelOfCands_congr (h : TellAlike a b) (gloss : JsonValue) (evp : Dict) :
    lib.levelOfCands a lemmaNorm gloss evp = lib.levelOfCands b lemmaNorm gloss evp := by
  have hcount := h.count
  match a, b with
  | [], [] => rfl
  | [x], [y] =>
    have hlevel : x.2 = y.2 := by simpa using (h.levels x.2).mp (by simp)
    show (some x.2, CefrMethod.wnSingle) = (some y.2, .wnSingle)
    rw [hlevel]
  | x :: x' :: a, y :: y' :: b =>
    have hmatched : ∀ glossary, lib.matchedLevels (x :: x' :: a) lemmaNorm glossary evp =
        lib.matchedLevels (y :: y' :: b) lemmaNorm glossary evp := fun glossary =>
      List.filterMap_congr fun pair _ => matchedLevel_congr h.levels glossary pair
    simp only [levelOfCands, hmatched]
  | [], _ :: _ | [_], [] | [_], _ :: _ :: _ | _ :: _ :: _, [] | _ :: _ :: _, [_] =>
    simp only [List.length_cons, List.length_nil] at hcount
    omega

/-- The guideword "a" with a level. -/
def probe (lemmaNorm : String) (level : CefrLevel) : Dict :=
  [(lemmaNorm, .arr [.arr [.str "a", .str level.text]])]

theorem matchedLevels_probe (cands : CefrCands) (level : CefrLevel) :
    lib.matchedLevels cands lemmaNorm (lib.glossaryOf (.str "a")) (probe lemmaNorm level) =
      if level ∈ cands.map (·.2) then [level] else [] := by
  have hsearch : lib.searchGuideword "a".toList none "a".toList = true := by
    show (lib.guidewordAt ['a'] none ['a'] || _) = true
    simp [guidewordAt, wordBoundary, lib.isWord_a]
  have hentry : (probe lemmaNorm level).lookup lemmaNorm =
      some (.arr [.arr [.str "a", .str level.text]]) := List.lookup_cons_self
  have hmatched : lib.matchedLevel (cands.map (·.2)) "a" (.arr [.str "a", .str level.text]) =
      if level ∈ cands.map (·.2) then some level else none := by
    show ((cefrOf level.text).filter fun level => level ∈ cands.map (·.2) && "a" ≠ "" &&
      lib.searchGuideword "a".toList none "a".toList) = _
    rw [cefrOf_text, hsearch, Option.filter_some]
    by_cases h : level ∈ cands.map (·.2)
    · rw [if_pos h, if_pos (by simpa using h)]
    · rw [if_neg h, if_neg (by simpa using h)]
  unfold matchedLevels
  rw [hentry, show lib.glossaryOf (.str "a") = "a" from lib.lower_a]
  show [JsonValue.arr [.str "a", .str level.text]].filterMap _ = _
  rw [List.filterMap_cons, hmatched]
  by_cases h : level ∈ cands.map (·.2)
  · simp only [if_pos h, List.filterMap_nil]
  · simp only [if_neg h, List.filterMap_nil]

theorem glossaryOf_a_ne (lib : CefrLib) : lib.glossaryOf (.str "a") ≠ "" := by
  show lib.lower "a" ≠ ""
  rw [lib.lower_a]
  decide

theorem levelOfCands_probe (x y : String × CefrLevel) (cands : CefrCands) (level : CefrLevel) :
    lib.levelOfCands (x :: y :: cands) lemmaNorm (.str "a") (probe lemmaNorm level) =
      if level ∈ (x :: y :: cands).map (·.2) then (some level, .wnEvpGloss)
      else (none, .unmapped) := by
  simp only [levelOfCands, if_neg lib.glossaryOf_a_ne, matchedLevels_probe]
  by_cases h : level ∈ (x :: y :: cands).map (·.2)
  · simp only [if_pos h, minCefr_singleton]
  · simp only [if_neg h]

theorem tellAlike_of_levelOfCands (h : ∀ gloss evp,
    lib.levelOfCands a lemmaNorm gloss evp = lib.levelOfCands b lemmaNorm gloss evp) :
    TellAlike a b := by
  have hplain := h .null []
  match a, b with
  | [], [] => exact ⟨rfl, fun _ => Iff.rfl⟩
  | [x], [y] =>
    have hlevel : x.2 = y.2 := by simpa [levelOfCands] using hplain
    exact ⟨rfl, fun level => by simp [hlevel]⟩
  | x :: x' :: a, y :: y' :: b =>
    refine ⟨by simp only [List.length_cons]; omega, fun level => ?_⟩
    have hprobe := h (.str "a") (probe lemmaNorm level)
    rw [levelOfCands_probe, levelOfCands_probe] at hprobe
    split at hprobe <;> split at hprobe <;> simp_all
  | [], [_] | [_], [] | [_], _ :: _ :: _ | _ :: _ :: _, [_] =>
    simp [levelOfCands, glossaryOf] at hplain
  | [], y :: y' :: b =>
    have hprobe := h (.str "a") (probe lemmaNorm y.2)
    rw [levelOfCands_probe, if_pos (by simp)] at hprobe
    cases hprobe
  | x :: x' :: a, [] =>
    have hprobe := h (.str "a") (probe lemmaNorm x.2)
    rw [levelOfCands_probe, if_pos (by simp)] at hprobe
    cases hprobe

/-! ## The cache -/

variable {s : CefrState} {call : CefrCall}

variable (call) in
theorem senseCefrFor_fst {lemmaNorm : String} (h : lib.lemmaNorm call.lemma' = some lemmaNorm)
    (cache : CandCache) :
    (lib.senseCefrFor cache call).1 = lib.levelOfCands
      (cache.ask candCacheMax (lemmaNorm, lib.posNorm call.pos) call.bridge.id
        (call.bridge.candidates lemmaNorm (lib.posNorm call.pos))).1 lemmaNorm call.gloss call.evp := by
  rw [senseCefrFor, h]

variable (call) in
theorem senseCefrFor_of_none (h : lib.lemmaNorm call.lemma' = none) (cache : CandCache) :
    (lib.senseCefrFor cache call).1 = (none, .unmapped) := by
  rw [senseCefrFor, h]

variable (call) in
theorem senseCefrFor_nil {lemmaNorm : String} (h : lib.lemmaNorm call.lemma' = some lemmaNorm) :
    (lib.senseCefrFor [] call).1 = lib.levelOfCands
      (call.bridge.candidates lemmaNorm (lib.posNorm call.pos)) lemmaNorm call.gloss call.evp := by
  rw [senseCefrFor_fst call h]
  rfl

/-- A call is transparent for every gloss and EVP map exactly where the cache holds no
foreign candidates for its bridge's number. -/
theorem ownCandidates_iff : lib.OwnCandidates s (.call call) ↔
    ∀ gloss evp, lib.Transparent s (.call { call with gloss := gloss, evp := evp }) := by
  cases hlemma : lib.lemmaNorm call.lemma' with
  | none =>
    refine iff_of_true (fun lemmaNorm held h => ?_) fun gloss evp => ?_
    · exact absurd (hlemma.symm.trans h) (by simp)
    · show (lib.senseCefrFor _ _).1 = (lib.senseCefrFor _ _).1
      rw [senseCefrFor_of_none { call with gloss := gloss, evp := evp } hlemma,
        senseCefrFor_of_none { call with gloss := gloss, evp := evp } hlemma]
  | some lemmaNorm =>
    have hask := Memo.ask_iff candCacheMax s.cache
      (lemmaNorm, lib.posNorm call.pos) call.bridge.id
      (call.bridge.candidates lemmaNorm (lib.posNorm call.pos))
      (R := fun cands => ∀ gloss evp, lib.levelOfCands cands lemmaNorm gloss evp =
        lib.levelOfCands (call.bridge.candidates lemmaNorm (lib.posNorm call.pos)) lemmaNorm gloss evp)
      (fun _ _ => rfl)
    have htransparent : (∀ gloss evp,
        lib.Transparent s (.call { call with gloss := gloss, evp := evp })) ↔
        ∀ gloss evp, lib.levelOfCands
          (s.cache.ask candCacheMax (lemmaNorm, lib.posNorm call.pos) call.bridge.id
            (call.bridge.candidates lemmaNorm (lib.posNorm call.pos))).1 lemmaNorm gloss evp =
          lib.levelOfCands (call.bridge.candidates lemmaNorm (lib.posNorm call.pos)) lemmaNorm
            gloss evp := by
      refine forall_congr' fun gloss => forall_congr' fun evp => ?_
      show (lib.senseCefrFor _ _).1 = (lib.senseCefrFor _ _).1 ↔ _
      rw [senseCefrFor_fst { call with gloss := gloss, evp := evp } hlemma,
        senseCefrFor_nil { call with gloss := gloss, evp := evp } hlemma]
    rw [htransparent, hask]
    constructor
    · exact fun h held hheld gloss evp => levelOfCands_congr (h lemmaNorm held hlemma hheld) gloss evp
    · intro h lemmaNorm' held hlemma' hheld
      obtain rfl := Option.some.inj (hlemma.symm.trans hlemma')
      exact tellAlike_of_levelOfCands (h held hheld)

end CefrLib

/-- **A run whose calls meet no foreign candidates is transparent.**  And a call that meets
some is not: with some gloss and some EVP map it returns another level. -/
theorem cefr_cache_transparent_iff (lib : CefrLib) :
    (∀ events, Meets lib.cefrStep lib.OwnCandidates .empty events →
      Meets lib.cefrStep lib.Transparent .empty events) ∧
    ∀ s call, lib.OwnCandidates s (.call call) ↔
      ∀ gloss evp, lib.Transparent s (.call { call with gloss := gloss, evp := evp }) := by
  refine ⟨fun events h => ?_, fun s call => CefrLib.ownCandidates_iff⟩
  refine meets_of_meets lib.cefrStep (I := fun _ => True) (fun _ _ _ _ => trivial)
    (fun s e _ hown => ?_) trivial h
  cases e with
  | create bridge => trivial
  | drop id => trivial
  | call call => exact CefrLib.ownCandidates_iff.mp hown call.gloss call.evp

def CefrLib.ascii : CefrLib where
  toRegistryLib := .ascii
  display _ := none
  isWord c := c.isAlphanum || c == '_'
  lower_a := by decide
  isWord_a := by decide

/-- A bridge with the number 1 and one sense of "dog". -/
def dogBridge (cefr : String) : BridgeObject where
  id := 1
  rows lemma' posnum :=
    if lemma' = "dog" ∧ posnum = 1 then .arr [.arr [.str "dog%1:05:00::", .str cefr]] else .null

/-- "dog" as a noun, asked of such a bridge. -/
def dogCall (cefr : String) : CefrCall where
  lemma' := .str "dog"
  pos := .str "noun"
  gloss := .str ""
  bridge := dogBridge cefr
  evp := []

/-- A bridge is dropped and its number goes to the next one, which holds another level:
the call returns the level of the dropped bridge. -/
theorem reused_number_tells_old_level :
    Meets CefrLib.ascii.cefrStep CefrLawful .empty
      [.create (dogBridge "A1"), .call (dogCall "A1"), .drop 1, .create (dogBridge "C1"),
        .call (dogCall "C1")] ∧
    ¬ Meets CefrLib.ascii.cefrStep CefrLib.ascii.Transparent .empty
      [.create (dogBridge "A1"), .call (dogCall "A1"), .drop 1, .create (dogBridge "C1"),
        .call (dogCall "C1")] := by
  refine ⟨⟨fun _ h => absurd h List.not_mem_nil, List.mem_cons_self, trivial,
    fun b h => ?_, List.mem_cons_self, trivial⟩, fun h => ?_⟩
  · exact absurd h List.not_mem_nil
  · obtain ⟨-, -, -, -, hcall, -⟩ := h
    have hlevel : (some CefrLevel.a1, CefrMethod.wnSingle) = (some .c1, .wnSingle) := hcall
    cases hlevel

end HamZaboon
