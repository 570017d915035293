import Mathlib.Tactic.Common

/-! # Cards

The decoded content of a word card (`saved_words.card_data`), the display
toggles a learner's rendering is gated by, and the two enumerations the study
session speaks about: card modes and staged prompt types.

A card is a JSON object whose text fields are strings and whose list fields are
lists of strings; a missing or empty field reads the same way everywhere
(`card_data.get(…) or []`), so fields are plain strings and lists.  Only the
absence of `word` is observable, through `setdefault`.  The pronunciation is
the one field with two shapes.
-/

namespace HamZaboon

/-- `SRS_PROMPT_TYPES`. -/
inductive PromptType
  | standard
  | fillBlank
  | meaning
  | synonym
  | directTranslate
  deriving DecidableEq, Repr

/-- `CARD_MODES`. -/
inductive CardMode
  | staged
  | immediate
  deriving DecidableEq, Repr

/-- The `phonetic` field, as `phonetic_lines` tells its values apart. -/
inductive Phonetic
  /-- A text that is not JSON. -/
  | text (value : String)
  /-- An object with an `ipa` entry, or the JSON text of one. -/
  | ipa (value : String)
  /-- Anything else: missing, `null`, or JSON without an object. -/
  | absent
  deriving DecidableEq, Repr

/-- The card dictionary decoded from `card_data`. -/
structure CardData where
  word : Option String := none
  phonetic : Phonetic := .absent
  faMeaning : String := ""
  faExplanation : String := ""
  synonyms : List String := []
  antonyms : List String := []
  examples : List String := []
  exampleTranslations : List String := []
  grammarTip : String := ""
  deriving DecidableEq, Repr

/-- `card_data.get("word", "")`. -/
def CardData.wordText (c : CardData) : String := c.word.getD ""

/-- `card_data.setdefault("word", w)`. -/
def CardData.setDefaultWord (c : CardData) (w : String) : CardData :=
  { c with word := some (c.word.getD w) }

/-- The resolved display toggles of a user (`get_effective`): every
`DISPLAY_TOGGLE_FIELDS` entry has a value. -/
structure Toggles where
  synonyms : Bool
  antonyms : Bool
  explanation : Bool
  examples : Bool
  exampleTranslations : Bool
  grammarTip : Bool
  deriving DecidableEq, Repr

end HamZaboon
