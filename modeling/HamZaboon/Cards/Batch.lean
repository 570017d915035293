import HamZaboon.Cards.Validation
import Mathlib.Data.List.Nodup

/-! # Validating a batch of cards

`services/ai/card_validation.py`, `validate_batch`: one pass over the cards of
an answer.  A card counts as rejected, as a duplicate or as accepted, and the
pass ends when `expected_count` cards are accepted.  Its duplicates are those of
the key `word.strip().casefold()`; the saved words have another key,
`normalize_word`.
-/

namespace HamZaboon
open Library

/-- A dictionary of counters; an absent counter has no entry. -/
abbrev Tally := String → Option Int

namespace Tally

/-- `stats.get(key, 0)`. -/
def count (t : Tally) (key : String) : Int := (t key).getD 0

/-- `stats.setdefault(key, 0)`. -/
def ensure (t : Tally) (key : String) : Tally :=
  fun k => if k = key then some (t.count key) else t k

/-- `stats[key] = value`. -/
def set (t : Tally) (key : String) (value : Int) : Tally :=
  fun k => if k = key then some value else t k

/-- `stats[key] = stats.get(key, 0) + 1`. -/
def bump (t : Tally) (key : String) : Tally := t.set key (t.count key + 1)

@[simp] theorem count_ensure (t : Tally) (key k : String) : (t.ensure key).count k = t.count k := by
  by_cases h : k = key
  · subst h
    simp [ensure, count]
  · simp [ensure, count, h]

@[simp] theorem count_set (t : Tally) (key : String) (value : Int) (k : String) :
    (t.set key value).count k = if k = key then value else t.count k := by
  by_cases h : k = key <;> simp [set, count, h]

@[simp] theorem count_bump (t : Tally) (key k : String) :
    (t.bump key).count k = t.count k + if k = key then 1 else 0 := by
  by_cases h : k = key
  · subst h
    simp [bump]
  · simp [bump, h]

end Tally

/-- `BatchValidationError`, with its diagnostics. -/
structure BatchError where
  message : String
  diagnostics : Tally

structure BatchPass where
  cards : List ValidCard
  used : List String
  stats : Tally
  reasons : Option Tally

namespace PyText
variable (py : PyText)

/-- `word.strip().casefold()`. -/
def batchKey (word : String) : String := py.casefold (py.strip word)

def avoidTexts (usedWords : Option (List JsonValue)) : List String :=
  (usedWords.getD []).filterMap fun
    | .str word => some word
    | _ => none

/-- The set `avoid`. -/
def avoidKeys (usedWords : Option (List JsonValue)) : List String :=
  (((avoidTexts usedWords).filter fun word => py.strip word ≠ "").map py.batchKey).dedup

/-- The body of the loop; whether it accepted the card. -/
def batchItem (avoid : List String) (pass : BatchPass) (item : JsonValue) : BatchPass × Bool :=
  let stats := pass.stats.bump "received"
  match py.validateCard item with
  | .error e =>
    ({ pass with
        stats := stats.bump "validation_rejected"
        reasons := pass.reasons.map (·.bump e.message) }, false)
  | .ok card =>
    let normalizedWord := py.batchKey card.word
    if normalizedWord ∈ avoid then
      ({ pass with stats := (stats.bump "duplicates_against_avoid").bump "duplicates" }, false)
    else if normalizedWord ∈ pass.used then
      ({ pass with stats := (stats.bump "duplicates_within_batch").bump "duplicates" }, false)
    else
      ({ pass with
          used := normalizedWord :: pass.used
          cards := pass.cards ++ [card]
          stats := stats.bump "accepted" }, true)

def batchLoop (avoid : List String) (expectedCount : Int) : BatchPass → List JsonValue → BatchPass
  | pass, [] => pass
  | pass, item :: items =>
    let (next, accepted) := py.batchItem avoid pass item
    if accepted ∧ expectedCount ≤ next.cards.length then next
    else batchLoop avoid expectedCount next items

/-- The counters `validate_batch` starts from. -/
def batchStats (diagnostics : Option Tally) : Tally :=
  ["received", "accepted", "validation_rejected", "duplicates", "duplicates_against_avoid",
    "duplicates_within_batch"].foldl Tally.ensure (diagnostics.getD fun _ => none)

def batchCards : JsonValue → Option (List JsonValue)
  | .obj data =>
    match Dict.get data "cards" with
    | .arr items => some items
    | _ => none
  | .arr items => some items
  | _ => none

/-- `validate_batch`: the cards, the diagnostics and the reasons for rejections. -/
def validateBatch (data : JsonValue) (expectedCount : Int) (usedWords : Option (List JsonValue))
    (diagnostics rejectionReasons : Option Tally) : Except BatchError BatchPass :=
  let stats := batchStats diagnostics
  match batchCards data with
  | none => .error ⟨"Batch output must be a JSON array", stats⟩
  | some items =>
    let avoid := py.avoidKeys usedWords
    .ok (py.batchLoop avoid expectedCount
      { cards := [], used := avoid, stats := stats.set "avoid_words" avoid.length,
        reasons := rejectionReasons } items)

/-! ## What one card does -/

theorem batchItem_cases (avoid : List String) (pass : BatchPass) (item : JsonValue) :
    (∃ e, py.validateCard item = .error e ∧ py.batchItem avoid pass item =
      ({ pass with
          stats := (pass.stats.bump "received").bump "validation_rejected"
          reasons := pass.reasons.map (·.bump e.message) }, false)) ∨
    (∃ card, py.validateCard item = .ok card ∧ py.batchKey card.word ∈ avoid ∧
      py.batchItem avoid pass item =
        ({ pass with
            stats := ((pass.stats.bump "received").bump "duplicates_against_avoid").bump
              "duplicates" }, false)) ∨
    (∃ card, py.validateCard item = .ok card ∧ py.batchKey card.word ∉ avoid ∧
      py.batchKey card.word ∈ pass.used ∧ py.batchItem avoid pass item =
        ({ pass with
            stats := ((pass.stats.bump "received").bump "duplicates_within_batch").bump
              "duplicates" }, false)) ∨
    ∃ card, py.validateCard item = .ok card ∧ py.batchKey card.word ∉ avoid ∧
      py.batchKey card.word ∉ pass.used ∧ py.batchItem avoid pass item =
        ({ pass with
            used := py.batchKey card.word :: pass.used
            cards := pass.cards ++ [card]
            stats := (pass.stats.bump "received").bump "accepted" }, true) := by
  cases hv : py.validateCard item with
  | error e => exact .inl ⟨e, rfl, by simp only [batchItem, hv]⟩
  | ok card =>
    by_cases havoid : py.batchKey card.word ∈ avoid
    · exact .inr (.inl ⟨card, rfl, havoid, by simp only [batchItem, hv, if_pos havoid]⟩)
    · by_cases hused : py.batchKey card.word ∈ pass.used
      · exact .inr (.inr (.inl ⟨card, rfl, havoid, hused, by
          simp only [batchItem, hv, if_neg havoid, if_pos hused]⟩))
      · exact .inr (.inr (.inr ⟨card, rfl, havoid, hused, by
          simp only [batchItem, hv, if_neg havoid, if_neg hused]⟩))

/-! ## The counters -/

/-- What the counters say of the items read between two moments of a pass. -/
structure Tallied (py : PyText) (read : List JsonValue) (pass next : BatchPass) : Prop where
  received : next.stats.count "received" = pass.stats.count "received" + read.length
  rejected : next.stats.count "validation_rejected" = pass.stats.count "validation_rejected" +
    read.countP fun item => !(py.validateCard item).toBool
  accepted : next.stats.count "accepted" + pass.cards.length =
    pass.stats.count "accepted" + next.cards.length
  total : next.stats.count "accepted" + next.stats.count "validation_rejected" +
      next.stats.count "duplicates" - next.stats.count "received" =
    pass.stats.count "accepted" + pass.stats.count "validation_rejected" +
      pass.stats.count "duplicates" - pass.stats.count "received"
  duplicates : next.stats.count "duplicates" - next.stats.count "duplicates_within_batch" -
      next.stats.count "duplicates_against_avoid" =
    pass.stats.count "duplicates" - pass.stats.count "duplicates_within_batch" -
      pass.stats.count "duplicates_against_avoid"

variable {py}

theorem Tallied.refl (pass : BatchPass) : py.Tallied [] pass pass := by
  constructor <;> simp

theorem Tallied.trans {read read' : List JsonValue} {a b c : BatchPass} (h : py.Tallied read a b)
    (h' : py.Tallied read' b c) : py.Tallied (read ++ read') a c where
  received := by
    have := h.received
    have := h'.received
    rw [List.length_append]
    omega
  rejected := by
    have := h.rejected
    have := h'.rejected
    rw [List.countP_append]
    omega
  accepted := by
    have := h.accepted
    have := h'.accepted
    omega
  total := h'.total.trans h.total
  duplicates := h'.duplicates.trans h.duplicates

variable (py)

theorem tallied_batchItem (avoid : List String) (pass : BatchPass) (item : JsonValue) :
    py.Tallied [item] pass (py.batchItem avoid pass item).1 := by
  rcases py.batchItem_cases avoid pass item with
    ⟨e, hv, hitem⟩ | ⟨card, hv, -, hitem⟩ | ⟨card, hv, -, -, hitem⟩ | ⟨card, hv, -, -, hitem⟩
  all_goals
    rw [hitem]
    constructor <;> simp [hv, Except.toBool] <;> omega

theorem tallied_batchLoop (avoid : List String) (expectedCount : Int) (pass : BatchPass)
    (items : List JsonValue) : ∃ read rest, items = read ++ rest ∧
      py.Tallied read pass (py.batchLoop avoid expectedCount pass items) := by
  induction items generalizing pass with
  | nil => exact ⟨[], [], rfl, .refl pass⟩
  | cons item items ih =>
    have hitem := py.tallied_batchItem avoid pass item
    simp only [batchLoop]
    split
    · exact ⟨[item], items, rfl, hitem⟩
    · obtain ⟨read, rest, rfl, hrest⟩ := ih (py.batchItem avoid pass item).1
      exact ⟨item :: read, rest, rfl, hitem.trans hrest⟩

/-! ## The accepted words -/

def validWords (items : List JsonValue) : List String :=
  items.filterMap fun item => (py.validateCard item).toOption.map ValidCard.word

/-- The batch key of a word is no avoid key and no key of the words before it. -/
def IsNew (avoid before : List String) (word : String) : Prop :=
  py.batchKey word ∉ avoid ∧ py.batchKey word ∉ before.map py.batchKey

instance (avoid before : List String) (word : String) : Decidable (py.IsNew avoid before word) :=
  inferInstanceAs (Decidable (_ ∧ _))

/-- The words that are new where they stand, after the words `before`. -/
def newWords (avoid : List String) : List String → List String → List String
  | _, [] => []
  | before, word :: words =>
    if py.IsNew avoid before word then word :: newWords avoid (before ++ [word]) words
    else newWords avoid (before ++ [word]) words

variable {py}

theorem newWords_append (avoid before words words' : List String) :
    py.newWords avoid before (words ++ words') =
      py.newWords avoid before words ++ py.newWords avoid (before ++ words) words' := by
  induction words generalizing before with
  | nil => simp [newWords]
  | cons word words ih =>
    simp only [List.cons_append, newWords, ih, List.append_assoc, List.nil_append]
    split <;> rfl

theorem validWords_of_error {item : JsonValue} {e : CardError} (items : List JsonValue)
    (h : py.validateCard item = .error e) : py.validWords (item :: items) = py.validWords items := by
  simp [validWords, h, Except.toOption]

theorem validWords_of_ok {item : JsonValue} {card : ValidCard} (items : List JsonValue)
    (h : py.validateCard item = .ok card) :
    py.validWords (item :: items) = card.word :: py.validWords items := by
  simp [validWords, h, Except.toOption]

/-- The used keys are those to avoid and those of the words so far. -/
def Remembers (py : PyText) (avoid before used : List String) : Prop :=
  ∀ key, key ∈ used ↔ key ∈ avoid ∨ key ∈ before.map py.batchKey

section Remembers
variable {avoid before used : List String} {word : String}

theorem Remembers.old (h : py.Remembers avoid before used) (hword : ¬ py.IsNew avoid before word) :
    py.Remembers avoid (before ++ [word]) used := by
  intro key
  rw [h, List.map_append, List.mem_append, List.map_singleton, List.mem_singleton]
  simp only [IsNew, not_and_or, not_not] at hword
  constructor
  · rintro (havoid | hbefore)
    · exact .inl havoid
    · exact .inr (.inl hbefore)
  · rintro (havoid | hbefore | rfl)
    · exact .inl havoid
    · exact .inr hbefore
    · exact hword

theorem Remembers.new (h : py.Remembers avoid before used) :
    py.Remembers avoid (before ++ [word]) (py.batchKey word :: used) := by
  intro key
  rw [List.mem_cons, h, List.map_append, List.mem_append, List.map_singleton, List.mem_singleton]
  tauto

end Remembers

/-- **The accepted words** are the new ones of the batch, up to `expected_count`. -/
theorem batchLoop_words {avoid before : List String} {expectedCount : Nat} {pass : BatchPass}
    (hused : py.Remembers avoid before pass.used) (hlen : pass.cards.length < expectedCount)
    (items : List JsonValue) :
    (py.batchLoop avoid expectedCount pass items).cards.map ValidCard.word =
      pass.cards.map ValidCard.word ++
        (py.newWords avoid before (py.validWords items)).take (expectedCount - pass.cards.length) := by
  induction items generalizing pass before with
  | nil => simp [batchLoop, validWords, newWords]
  | cons item items ih =>
    rcases py.batchItem_cases avoid pass item with
      ⟨e, hv, hitem⟩ | ⟨card, hv, havoid, hitem⟩ | ⟨card, hv, havoid, hin, hitem⟩ |
        ⟨card, hv, havoid, hout, hitem⟩
    · rw [batchLoop, hitem, validWords_of_error items hv]
      exact ih hused hlen
    · have hnew : ¬ py.IsNew avoid before card.word := fun h => h.1 havoid
      rw [batchLoop, hitem, validWords_of_ok items hv, newWords, if_neg hnew]
      exact ih (hused.old hnew) hlen
    · have hnew : ¬ py.IsNew avoid before card.word := fun h =>
        ((hused _).mp hin).elim h.1 h.2
      rw [batchLoop, hitem, validWords_of_ok items hv, newWords, if_neg hnew]
      exact ih (hused.old hnew) hlen
    · have hnew : py.IsNew avoid before card.word :=
        ⟨havoid, fun h => hout ((hused _).mpr (.inr h))⟩
      obtain ⟨n, hn⟩ : ∃ n, expectedCount - pass.cards.length = n + 1 :=
        ⟨expectedCount - pass.cards.length - 1, by omega⟩
      rw [batchLoop, hitem, validWords_of_ok items hv, newWords, if_pos hnew, hn,
        List.take_succ_cons]
      simp only [true_and, List.length_append, List.length_singleton]
      split
      · have hzero : n = 0 := by omega
        subst hzero
        simp
      · have hrest : expectedCount - (pass.cards.length + 1) = n := by omega
        rw [ih hused.new (by simp; omega)]
        simp [hrest]

/-! ## The two keys -/

/-- Every card of the pass is counted once, and no saved word comes twice. -/
structure BatchLaw (py : PyText) (expectedCount : Int) (usedWords : Option (List JsonValue))
    (items : List JsonValue) (start : Tally) (pass : BatchPass) : Prop where
  atMost : (pass.cards.length : Int) ≤ expectedCount
  notAvoided : ∀ card ∈ pass.cards, ∀ word ∈ avoidTexts usedWords,
    py.normalizeWord card.word ≠ py.normalizeWord word
  distinct : pass.cards.Pairwise fun a b => py.normalizeWord a.word ≠ py.normalizeWord b.word
  counted : ∃ read rest, items = read ++ rest ∧
    pass.stats.count "received" - start.count "received" = read.length ∧
    pass.stats.count "validation_rejected" - start.count "validation_rejected" =
      read.countP (fun item => !(py.validateCard item).toBool) ∧
    pass.stats.count "accepted" - start.count "accepted" = pass.cards.length ∧
    (pass.stats.count "accepted" - start.count "accepted") +
      (pass.stats.count "validation_rejected" - start.count "validation_rejected") +
      (pass.stats.count "duplicates" - start.count "duplicates") = read.length
  duplicates : pass.stats.count "duplicates" - start.count "duplicates" =
    (pass.stats.count "duplicates_within_batch" - start.count "duplicates_within_batch") +
      (pass.stats.count "duplicates_against_avoid" - start.count "duplicates_against_avoid")

/-- A word whose batch key is new, before enough such words have come, has a new
saved-word key too. -/
def SavedKeysAgree (py : PyText) (expectedCount : Int) (usedWords : Option (List JsonValue))
    (words : List String) : Prop :=
  ∀ before word after, words = before ++ word :: after →
    (py.newWords (py.avoidKeys usedWords) [] before).length < expectedCount →
    py.IsNew (py.avoidKeys usedWords) before word →
    ∀ other ∈ avoidTexts usedWords ++ py.newWords (py.avoidKeys usedWords) [] before,
      py.normalizeWord word ≠ py.normalizeWord other

theorem forall_split_concat {α : Type} {P : List α → α → Prop} {l : List α} {a : α} :
    (∀ before b after, l ++ [a] = before ++ b :: after → P before b) ↔
      (∀ before b after, l = before ++ b :: after → P before b) ∧ P l a := by
  constructor
  · intro h
    refine ⟨fun before b after hl => h before b (after ++ [a]) (by simp [hl]), ?_⟩
    exact h l a [] rfl
  · rintro ⟨hl, ha⟩ before b after h
    rcases List.eq_nil_or_concat after with rfl | ⟨after, c, rfl⟩
    · obtain ⟨rfl, hab⟩ := List.append_inj' h rfl
      cases hab
      exact ha
    · rw [List.concat_eq_append, ← List.cons_append, ← List.append_assoc] at h
      exact hl before b after (List.append_inj' h rfl).1

variable (py) in
/-- **The new words and their saved-word keys.** -/
theorem savedKeysAgree_iff (n : Nat) (usedWords : Option (List JsonValue)) (words : List String) :
    py.SavedKeysAgree n usedWords words ↔
      (∀ word ∈ (py.newWords (py.avoidKeys usedWords) [] words).take n,
        ∀ other ∈ avoidTexts usedWords, py.normalizeWord word ≠ py.normalizeWord other) ∧
      ((py.newWords (py.avoidKeys usedWords) [] words).take n).Pairwise
        fun a b => py.normalizeWord a ≠ py.normalizeWord b := by
  induction words using List.reverseRecOn with
  | nil => simp [SavedKeysAgree, newWords]
  | append_singleton words word ih =>
    rw [SavedKeysAgree, forall_split_concat]
    refine (and_congr_left' ih).trans ?_
    rw [newWords_append]
    generalize hnew : py.newWords (py.avoidKeys usedWords) [] words = found
    simp only [List.nil_append, newWords]
    by_cases hword : py.IsNew (py.avoidKeys usedWords) words word
    · rw [if_pos hword]
      by_cases hlen : found.length < n
      · rw [List.take_of_length_le (l := found) (by omega),
          List.take_of_length_le (l := found ++ [word]) (by simp; omega)]
        constructor
        · rintro ⟨⟨havoid, hpair⟩, hlast⟩
          have hlast := hlast (by omega) hword
          refine ⟨fun w hw other hother => ?_, List.pairwise_append.mpr
            ⟨hpair, List.pairwise_singleton .., fun a ha b hb => ?_⟩⟩
          · rcases List.mem_append.mp hw with hw | hw
            · exact havoid w hw other hother
            · rw [List.mem_singleton.mp hw]
              exact hlast other (List.mem_append_left _ hother)
          · rw [List.mem_singleton.mp hb]
            exact (hlast a (List.mem_append_right _ ha)).symm
        · rintro ⟨havoid, hpair⟩
          obtain ⟨hpair, -, hlast⟩ := List.pairwise_append.mp hpair
          refine ⟨⟨fun w hw => havoid w (List.mem_append_left _ hw), hpair⟩, ?_⟩
          intro _ _ other hother
          rcases List.mem_append.mp hother with hother | hother
          · exact havoid word (by simp) other hother
          · exact (hlast other hother word (by simp)).symm
      · rw [List.take_append_of_le_length (by omega)]
        exact and_iff_left fun h => absurd h (by omega)
    · rw [if_neg hword, List.append_nil]
      exact and_iff_left fun _ h => absurd h hword

@[simp] theorem count_batchStats (diagnostics : Option Tally) (key : String) :
    (batchStats diagnostics).count key = (diagnostics.getD fun _ => none).count key := by
  simp [batchStats]

/-- **A batch without duplicates.**  At most `expected_count` cards are accepted,
every card read is counted once, and no saved word comes twice, exactly when no
card with a new batch key has an old saved-word key. -/
theorem validateBatch_law_iff (py : PyText) (data : JsonValue) (expectedCount : Int)
    (h : 1 ≤ expectedCount) (usedWords : Option (List JsonValue))
    (diagnostics rejectionReasons : Option Tally) :
    (∀ items pass, batchCards data = some items →
      py.validateBatch data expectedCount usedWords diagnostics rejectionReasons = .ok pass →
        py.BatchLaw expectedCount usedWords items (diagnostics.getD fun _ => none) pass) ↔
    ∀ items, batchCards data = some items →
      py.SavedKeysAgree expectedCount usedWords (py.validWords items) := by
  obtain ⟨n, rfl⟩ : ∃ n : Nat, expectedCount = n := ⟨expectedCount.toNat, by omega⟩
  cases hitems : batchCards data with
  | none => exact iff_of_true (fun _ _ h => by cases h) (fun _ h => by cases h)
  | some items =>
    let avoid := py.avoidKeys usedWords
    let start : BatchPass := {
      cards := []
      used := avoid
      stats := (batchStats diagnostics).set "avoid_words" avoid.length
      reasons := rejectionReasons }
    have hrun : py.validateBatch data n usedWords diagnostics rejectionReasons =
        .ok (py.batchLoop avoid n start items) := by
      simp only [validateBatch, hitems]
      rfl
    have hwords : (py.batchLoop avoid n start items).cards.map ValidCard.word =
        (py.newWords avoid [] (py.validWords items)).take n := by
      have hused : py.Remembers avoid [] start.used := fun key => by simp [start]
      have hlen : start.cards.length < n := show 0 < n by omega
      simpa [start] using batchLoop_words hused hlen items
    have hagree := py.savedKeysAgree_iff n usedWords (py.validWords items)
    rw [← hwords] at hagree
    simp only [Option.some.injEq, forall_eq', hrun, Except.ok.injEq, hagree]
    obtain ⟨read, rest, hread, htally⟩ :=
      py.tallied_batchLoop avoid n start items
    generalize py.batchLoop avoid n start items = pass at *
    have hstart : ∀ key, key ≠ "avoid_words" →
        start.stats.count key = (diagnostics.getD fun _ => none).count key := by
      intro key hkey
      simp [start, hkey]
    obtain ⟨hreceived, hrejected, haccepted, htotal, hduplicates⟩ := htally
    simp only [hstart "received" (by decide), hstart "validation_rejected" (by decide),
      hstart "accepted" (by decide), hstart "duplicates" (by decide),
      hstart "duplicates_within_batch" (by decide),
      hstart "duplicates_against_avoid" (by decide)]
      at hreceived hrejected haccepted htotal hduplicates
    have hnone : start.cards.length = 0 := rfl
    rw [List.pairwise_map, List.forall_mem_map]
    constructor
    · intro hlaw
      have law := hlaw items pass rfl rfl
      exact ⟨law.notAvoided, law.distinct⟩
    · rintro ⟨havoid, hdistinct⟩ _ _ rfl rfl
      have hlen : pass.cards.length ≤ n := by
        rw [← List.length_map ValidCard.word, hwords, List.length_take]
        omega
      exact {
        atMost := by omega
        notAvoided := havoid
        distinct := hdistinct
        counted := ⟨read, rest, hread, by omega, by omega, by omega, by omega⟩
        duplicates := by omega }

def cardFor (word : String) : JsonValue := .obj [
  ("word", .str word), ("fa_meaning", .str "m"), ("fa_explanation", .str "x"),
  ("examples", .arr [.str "a", .str "b"]), ("example_translations", .arr [.str "c", .str "d"])]

theorem known_word_is_duplicate :
    ∃ pass, PyText.ascii.validateBatch (.arr [cardFor "Known", cardFor "new"]) 2
        (some [.str " known "]) none none = .ok pass ∧
      pass.cards.map ValidCard.word = ["new"] ∧
      PyText.ascii.BatchLaw 2 (some [.str " known "]) [cardFor "Known", cardFor "new"]
        (fun _ => none) pass := by
  have hwords : PyText.ascii.validWords [cardFor "Known", cardFor "new"] = ["Known", "new"] := by
    decide +kernel
  have hagree : ∀ items, batchCards (.arr [cardFor "Known", cardFor "new"]) = some items →
      PyText.ascii.SavedKeysAgree 2 (some [.str " known "]) (PyText.ascii.validWords items) := by
    intro items hitems
    cases hitems
    rw [hwords]
    exact (savedKeysAgree_iff .ascii 2 _ _).mpr (by decide +kernel)
  have hlaw := (validateBatch_law_iff .ascii _ 2 (by decide) _ none none).mpr hagree
  let start : BatchPass := ⟨[], ["known"], (batchStats none).set "avoid_words" 1, none⟩
  have hcards : (PyText.ascii.batchLoop ["known"] 2 start
      [cardFor "Known", cardFor "new"]).cards.map ValidCard.word = ["new"] := by
    decide +kernel
  exact ⟨_, rfl, hcards, hlaw _ _ rfl rfl⟩

/-- One word, spelled with one blank and with two. -/
theorem spaced_word_accepted_twice :
    let batch : JsonValue := .arr [cardFor "ice cream", cardFor "ice  cream"]
    ∃ pass, PyText.ascii.validateBatch batch 2 none none none = .ok pass ∧
      pass.cards.map ValidCard.word = ["ice cream", "ice  cream"] ∧
      PyText.ascii.normalizeWord "ice cream" = PyText.ascii.normalizeWord "ice  cream" ∧
      ¬ PyText.ascii.BatchLaw 2 none [cardFor "ice cream", cardFor "ice  cream"]
        (fun _ => none) pass := by
  intro batch
  have hsame : PyText.ascii.normalizeWord "ice cream" =
      PyText.ascii.normalizeWord "ice  cream" := by decide +kernel
  let start : BatchPass := ⟨[], [], (batchStats none).set "avoid_words" 0, none⟩
  have hcards : (PyText.ascii.batchLoop [] 2 start
      [cardFor "ice cream", cardFor "ice  cream"]).cards.map ValidCard.word =
        ["ice cream", "ice  cream"] := by
    decide +kernel
  refine ⟨_, rfl, hcards, hsame, fun law => ?_⟩
  have hdistinct : (["ice cream", "ice  cream"] : List String).Pairwise
      fun a b => PyText.ascii.normalizeWord a ≠ PyText.ascii.normalizeWord b := by
    rw [← hcards]
    exact List.pairwise_map.mpr law.distinct
  exact (List.pairwise_cons.mp hdistinct).1 "ice  cream" (by simp) hsame

end PyText

end HamZaboon
