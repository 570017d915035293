import HamZaboon.Texts.Unicode
import Mathlib.Data.List.Dedup

/-! # Card validation

`services/ai/card_validation.py`: the check of a whole card, the list of its
fields that a repair has to replace, and the check of the repair.  All three
read a decoded JSON value whose keys may be spelled in full or by their compact
aliases.
-/

namespace HamZaboon
open Library

/-- `CardValidationError`. -/
inductive CardError
  | notAnObject
  | emptyText (field : String)
  | notAList (field : String)
  | emptyList (field : String)
  | notDistinct (field : String)
  | notTwoExamples
  | unpairedExamples
  | patchNotAnObject
  | wrongFields
  | notTwoItems (field : String)
  | unsupportedField (field : String)
  | repairedApart
  deriving DecidableEq, Repr

def CardError.message : CardError → String
  | .notAnObject => "Card output must be a JSON object"
  | .emptyText field => s!"Card field '{field}' must be a non-empty string"
  | .notAList field => s!"Card field '{field}' must be a list of strings"
  | .emptyList field => s!"Card field '{field}' must not be empty"
  | .notDistinct field => s!"Card field '{field}' must contain distinct items"
  | .notTwoExamples => "Card must contain exactly two examples and translations"
  | .unpairedExamples => "Each example must have exactly one translation"
  | .patchNotAnObject => "Card repair output must be a JSON object"
  | .wrongFields => "Card repair output must contain exactly the requested fields"
  | .notTwoItems field => s!"Card repair field '{field}' must contain exactly two items"
  | .unsupportedField field => s!"Unsupported card repair field '{field}'"
  | .repairedApart => "Examples and translations must be repaired together"

def compactCardFields : List (String × String) :=
  [("w", "word"), ("ph", "phonetic"), ("m", "fa_meaning"), ("x", "fa_explanation"),
    ("s", "synonyms"), ("a", "antonyms"), ("e", "examples"), ("t", "example_translations"),
    ("g", "grammar_tip")]

def expandCardAliases (data : Dict) : Dict :=
  compactCardFields.foldl
    (fun expanded names =>
      match expanded.lookup names.2, expanded.lookup names.1 with
      | none, some value => expanded.set names.2 value
      | _, _ => expanded)
    data

structure ValidCard where
  word : String
  /-- The `ipa` entry of the normalized `phonetic`. -/
  phonetic : JsonValue
  faMeaning : String
  faExplanation : String
  synonyms : List String
  antonyms : List String
  examples : List String
  exampleTranslations : List String
  grammarTip : String

/-- The strings of a list that holds nothing else. -/
def allStrings : List JsonValue → Option (List String)
  | [] => some []
  | .str s :: items => (allStrings items).map (s :: ·)
  | _ :: _ => none

namespace PyText
variable (py : PyText)

/-- `" ".join(value.split()).casefold()`. -/
def foldedItem (value : String) : String := py.casefold (py.collapse value)

def requiredText (data : Dict) (field : String) : Except CardError String :=
  match data.get field with
  | .str value =>
    if py.strip value = "" then .error (.emptyText field) else .ok (py.strip value)
  | _ => .error (.emptyText field)

def nonBlank (items : List String) : List String :=
  (items.filter fun item => py.strip item ≠ "").map py.strip

def textList (data : Dict) (field : String) (required : Bool) : Except CardError (List String) :=
  match data.get field with
  | .null => if required then .error (.notAList field) else .ok []
  | .arr items =>
    match allStrings items with
    | none => .error (.notAList field)
    | some items =>
      if required && py.nonBlank items = [] then .error (.emptyList field)
      else .ok (py.nonBlank items)
  | _ => .error (.notAList field)

def validateOptionalRichList (field : String) (values : List String) : Except CardError Unit :=
  if (values.map py.foldedItem).dedup.length = values.length then .ok ()
  else .error (.notDistinct field)

/-- A list field with its distinctness: `_text_list`, then `_validate_optional_rich_list`. -/
def richList (data : Dict) (field : String) : Except CardError (List String) :=
  match py.textList data field false with
  | .error e => .error e
  | .ok values =>
    match py.validateOptionalRichList field values with
    | .error e => .error e
    | .ok () => .ok values

/-! ## Pronunciation -/

/-- `_PHONETIC_LINE_RE`: the label and the value of a line. -/
def phoneticLine (line : List Char) : Option (List Char × List Char) :=
  match line.dropWhile py.isSpace with
  | i :: p :: a :: rest =>
    if py.sameCase 'i' i && py.sameCase 'p' p && py.sameCase 'a' a then
      match rest.dropWhile py.isSpace with
      | ':' :: c :: value => some ([i, p, a], trim py.isSpace (c :: value))
      | _ => none
    else none
  | _ => none

/-- `normalize_phonetic`: the value of the last `ipa` line, if there is one. -/
def normalizePhonetic (raw : String) : Option String :=
  let raw := py.strip raw
  if raw = "" then none
  else
    let found := (raw.toList.splitOnP py.isLineEnd).filterMap py.phoneticLine
    let ipa := found.filter fun section' => py.casefold (String.ofList section'.1) = "ipa"
    ipa.getLast?.map fun section' => String.ofList section'.2

/-- The `ipa` entry `validate_card` gives a card. -/
def cardPhonetic : JsonValue → JsonValue
  | .obj entries => (entries.lookup "ipa").getD (.str "")
  | .str raw =>
    if py.strip raw = "" then .str ""
    else .str ((py.normalizePhonetic (py.strip raw)).getD (py.strip raw))
  | _ => .str ""

/-- `str(value or "")`. -/
def displayed : JsonValue → String
  | .null => ""
  | .bool value => if value then "True" else ""
  | .int value => if value = 0 then "" else toString value
  | .float value => if value = 0 then "" else py.display (.float value)
  | .str value => value
  | .arr items => if items.isEmpty then "" else py.display (.arr items)
  | .obj entries => if entries.isEmpty then "" else py.display (.obj entries)

/-! ## The three checks -/

def validateCard : JsonValue → Except CardError ValidCard
  | .obj data => do
    let data := expandCardAliases data
    let examples ← py.textList data "examples" true
    let translations ← py.textList data "example_translations" true
    if examples.length ≠ 2 ∨ translations.length ≠ 2 then throw .notTwoExamples
    if examples.length ≠ translations.length then throw .unpairedExamples
    let synonyms ← py.textList data "synonyms" false
    let antonyms ← py.textList data "antonyms" false
    py.validateOptionalRichList "synonyms" synonyms
    py.validateOptionalRichList "antonyms" antonyms
    let word ← py.requiredText data "word"
    let faMeaning ← py.requiredText data "fa_meaning"
    let faExplanation ← py.requiredText data "fa_explanation"
    return {
      word := word
      phonetic := py.cardPhonetic (data.get "phonetic")
      faMeaning := faMeaning
      faExplanation := faExplanation
      synonyms := synonyms
      antonyms := antonyms
      examples := examples
      exampleTranslations := translations
      grammarTip := py.strip (py.displayed (data.get "grammar_tip")) }
  | _ => .error .notAnObject

/-- The value is a string that is not blank. -/
def isText : JsonValue → Bool
  | .str value => py.strip value ≠ ""
  | _ => false

/-- The value is a list of two strings that are not blank. -/
def isTwoTexts : JsonValue → Bool
  | .arr items => items.length = 2 && items.all py.isText
  | _ => false

/-- The repair asks for the pronunciation. -/
def phoneticNeedsRepair (value : JsonValue) : Bool :=
  match value with
  | .str raw => py.strip raw ≠ "" && (py.normalizePhonetic raw).isNone
  | .obj entries => !(Dict.get entries "ipa").truthy
  | _ => false

/-- The repair asks for a list field. -/
def listNeedsRepair (data : Dict) (field : String) : Bool :=
  match data.get field with
  | .null => false
  | _ => !(py.richList data field).toBool

def cardRepairFields : JsonValue → List String
  | .obj data =>
    let data := expandCardAliases data
    let texts := ["word", "fa_meaning", "fa_explanation"].filter fun field =>
      !py.isText (data.get field)
    let examples :=
      if py.isTwoTexts (data.get "examples") && py.isTwoTexts (data.get "example_translations")
      then [] else ["examples", "example_translations"]
    let phoneticValue := match data.get "phonetic" with
      | .null => data.get "ph"
      | value => value
    let phonetic := if py.phoneticNeedsRepair phoneticValue then ["phonetic"] else []
    let lists := ["synonyms", "antonyms"].filter (py.listNeedsRepair data)
    (texts ++ examples ++ phonetic ++ lists).eraseDups
  | _ => ["word", "fa_meaning", "fa_explanation", "examples", "example_translations"]

def patchField (expanded : Dict) (field : String) : Except CardError JsonValue :=
  if field ∈ ["word", "fa_meaning", "fa_explanation"] then
    (py.requiredText expanded field).map .str
  else if field ∈ ["examples", "example_translations"] then
    match py.textList expanded field true with
    | .error e => .error e
    | .ok values =>
      if values.length ≠ 2 then .error (.notTwoItems field) else .ok (.arr (values.map .str))
  else if field ∈ ["synonyms", "antonyms"] then
    (py.richList expanded field).map fun values => .arr (values.map .str)
  else if field = "phonetic" then (py.requiredText expanded field).map .str
  else .error (.unsupportedField field)

/-- The loop of `validate_card_patch`. -/
def patchFields (expanded : Dict) : Dict → List String → Except CardError Dict
  | patch, [] => .ok patch
  | patch, field :: fields =>
    match py.patchField expanded field with
    | .error e => .error e
    | .ok value => patchFields expanded (patch.set field value) fields

def validateCardPatch (data : JsonValue) (fields : List String) : Except CardError Dict :=
  match data with
  | .obj data =>
    let expanded := expandCardAliases data
    let keys := expanded.map Prod.fst
    if ¬ (keys ⊆ fields ∧ fields ⊆ keys) then .error .wrongFields
    else
      match py.patchFields expanded [] fields with
      | .error e => .error e
      | .ok patch =>
        if ("examples" ∈ fields ∨ "example_translations" ∈ fields) ∧
            ¬ ("examples" ∈ fields ∧ "example_translations" ∈ fields) then
          .error .repairedApart
        else .ok patch
  | _ => .error .patchNotAnObject

/-- The card with a repair put over it: `merged = dict(card); merged.update(patch)`. -/
def repaired (card : JsonValue) (patch : Dict) : JsonValue :=
  match card with
  | .obj data => .obj (Dict.update data patch)
  | _ => .obj (Dict.update [] patch)

end PyText

end HamZaboon
