import HamZaboon.Cards.Text
import HamZaboon.Library.Draws

/-! # The staged-reveal prompt engine

`services/utils/formatting_cards.py`: which prompt types a card supports under
the display toggles, the draw of one of them, and the two stages of a card.
The front stage hides the answer behind a prompt; each prompt type reads other
parts of the card, and what it draws at random comes from the system source.
-/

namespace HamZaboon
open Library

/-- The exceptions of the `random` module. -/
inductive DrawError
  /-- `randrange` of an empty range. -/
  | emptyRange
  /-- `choice` of an empty sequence. -/
  | emptySequence
  /-- `sample` of more than there is. -/
  | sampleTooLarge
  deriving DecidableEq, Repr

/-- A random choice of the prompt engine. -/
abbrev Drawn (α : Type) := Draw DrawError α

/-! ## Copy -/

def srsHiddenHeader : String := "? ? ?"
def srsFrontSubInstruction : String :=
  "👇 دکمه‌ی «نمایش پاسخ» را بزن؛ سپس صادقانه با دکمه‌ها به یادآوری‌ات نمره بده."
def srsPostReveal : String := "🧠 با دکمه‌های توصیفی زیر یادآوری خود را ثبت کنید."
def newCardBadge : String := "کارت جدید ✨"
def srsInstructStandard : String :=
  "🧠 از حافظه‌ات استفاده کن تا معنا، مترادف‌ها و متضادهای این واژه را یادآوری کنی."
def srsInstructFillBlank : String := "🧠 واژه جا افتاده در این جمله را به یاد بیاور:"
def srsHintSynonym (item : String) : String := "💡 راهنما: مترادف " ++ item
def srsHintAntonym (item : String) : String := "💡 راهنما: متضاد " ++ item
def srsHintMeaning (meaning : String) : String := "💡 راهنما: به معنای «" ++ meaning ++ "»"

/-! ## Badges and pronunciation -/

/-- `format_review_badge`, called with a review number. -/
def formatReviewBadge (days : Option Int) (reviewNumber : Int) : String :=
  let base := match days with
    | none => ""
    | some d => "⏰ آخرین مرور: " ++ toPersianDigits d ++ " روز پیش"
  let ordinal :=
    if reviewNumber ≤ 0 then "اولین دیدار" else "مرور " ++ toPersianDigits reviewNumber ++ "ام"
  if base = "" then ordinal else base ++ " · " ++ ordinal

def phoneticLines (α : Alphabet) (value : Phonetic) : List String :=
  let ipa := match value with
    | .text v => α.strip v
    | .ipa v => v
    | .absent => ""
  if ipa = "" then [] else ["`" ++ escapeMdv2Code ipa ++ "`"]

/-! ## Hints -/

def hintLine (item : String) (isSynonym : Bool) : String :=
  if isSynonym then srsHintSynonym item else srsHintAntonym item

def visibleSynonyms (card : CardData) (toggles : Toggles) : List String :=
  if toggles.synonyms then card.synonyms else []

def visibleAntonyms (card : CardData) (toggles : Toggles) : List String :=
  if toggles.antonyms then card.antonyms else []

def fillBlankHints (card : CardData) (toggles : Toggles) : Drawn (List String) :=
  let syn := (visibleSynonyms card toggles).map (·, true)
  let ant := (visibleAntonyms card toggles).map (·, false)
  if (2 ≤ syn.length ∧ 1 ≤ ant.length) ∨ (2 ≤ ant.length ∧ 1 ≤ syn.length) then
    -- the synonyms dominate on a tie
    let dominant := if syn.length < ant.length then ant else syn
    let other := if syn.length < ant.length then syn else ant
    do
      let pair ← Draw.sample .sampleTooLarge 2 dominant
      let single ← Draw.oneOf .emptySequence other
      return (pair ++ [single]).map (fun h => hintLine h.1 h.2)
  else if 2 ≤ (syn ++ ant).length then do
    let pair ← Draw.sample .sampleTooLarge 2 (syn ++ ant)
    return pair.map (fun h => hintLine h.1 h.2)
  else if card.faMeaning ≠ "" then return [srsHintMeaning card.faMeaning]
  else return []

def joinGuillemets (items : List String) : String :=
  "«" ++ "» و «".intercalate items ++ "»"

def synonymInstruct (synItems antItems : List String) : String :=
  let synWord := if synItems.length = 1 then "مترادف" else "مترادف‌های"
  let antWord := if antItems.length = 1 then "متضاد" else "متضادهای"
  if synItems ≠ [] ∧ antItems ≠ [] then
    "🧠 چه واژه‌ای " ++ synWord ++ " " ++ joinGuillemets synItems ++ " و " ++ antWord ++ " " ++
      joinGuillemets antItems ++ " دارد؟"
  else if synItems ≠ [] then
    "🧠 چه واژه‌ای " ++ synWord ++ " " ++ joinGuillemets synItems ++ " دارد؟"
  else "🧠 چه واژه‌ای " ++ antWord ++ " " ++ joinGuillemets antItems ++ " دارد؟"

def drawSynonymItems (card : CardData) (toggles : Toggles) :
    Drawn (List String × List String) :=
  let syn := visibleSynonyms card toggles
  let ant := visibleAntonyms card toggles
  if syn ++ ant = [] then return ([], [])
  else do
    -- `randint(2, 3)`
    let extra ← Draw.below .emptyRange 2
    let drawn ← Draw.sample .sampleTooLarge (min (syn ++ ant).length (2 + extra)) (syn ++ ant)
    return (drawn.filter (· ∈ syn), drawn.filter (· ∈ ant))

/-! ## Selection -/

/-- The examples that contain the answer word. -/
def matchingExamples (α : Alphabet) (card : CardData) : List String :=
  card.examples.filter (fun e => α.exampleHasWord e card.wordText)

def eligibleSrsPromptTypes (α : Alphabet) (card : CardData) (toggles : Toggles) :
    List PromptType :=
  let syn := visibleSynonyms card toggles
  let ant := visibleAntonyms card toggles
  (if card.wordText ≠ "" then [.standard] else []) ++
  (if toggles.examples ∧ matchingExamples α card ≠ [] ∧ 2 ≤ syn.length + ant.length
    then [.fillBlank] else []) ++
  (if card.faMeaning ≠ "" then [.meaning, .directTranslate] else []) ++
  (if syn ≠ [] ∨ ant ≠ [] then [.synonym] else [])

def selectSrsPromptType (α : Alphabet) (card : CardData) (toggles : Toggles) :
    Drawn PromptType :=
  if eligibleSrsPromptTypes α card toggles = [] then return .standard
  else Draw.oneOf .emptyRange (eligibleSrsPromptTypes α card toggles)

/-! ## Stages -/

/-- A block of its own, escaped. -/
def paragraph (text : String) : String := "\n" ++ escapeMdv2 text

/-- The lines of the front stage between its header and its footer. -/
def frontPrompt (α : Alphabet) (card : CardData) (toggles : Toggles) :
    PromptType → Drawn (List String)
  | .standard => return [paragraph srsInstructStandard]
  | .fillBlank => do
      let chosen ← Draw.oneOf .emptyRange (matchingExamples α card)
      let hints ← fillBlankHints card toggles
      let blanked := (hints.map (fun h => α.blankWord h card.wordText 0)).filter
        (fun h => h ≠ "" ∧ α.strip h ≠ "")
      return [paragraph srsInstructFillBlank,
        "\n✦ " ++ escapeMdv2 (α.blankWord chosen card.wordText 1)] ++ blanked.map paragraph
  | .meaning =>
      let hint := α.blankWord card.faExplanation card.wordText 0
      return paragraph ("🧠 چه واژه‌ای به معنای «" ++ card.faMeaning ++ "» است؟") ::
        (if toggles.explanation ∧ card.faExplanation ≠ "" ∧ hint ≠ "" ∧ α.strip hint ≠ "" then
          [paragraph ("راهنما: " ++ hint)] else [])
  | .synonym => do
      let items ← drawSynonymItems card toggles
      return [paragraph (synonymInstruct items.1 items.2)]
  | .directTranslate =>
      -- no caller passes a language, so its label is empty
      return [paragraph ("🧠 معادل  «" ++ card.faMeaning ++ "» را به یاد بیاور.")]

def formatSrsFrontStage (α : Alphabet) (card : CardData) (promptType : PromptType)
    (toggles : Toggles) (phonetic : List String) (badge footer : String) : Drawn String := do
  let prompt ← frontPrompt α card toggles promptType
  let header := if promptType = .standard then
      ("*" ++ escapeMdv2 card.wordText ++ "*") :: phonetic
    else [srsHiddenHeader]
  return "\n".intercalate (header ++ (if badge = "" then [] else [paragraph badge]) ++ prompt ++
    [paragraph srsFrontSubInstruction] ++ (if footer = "" then [] else [paragraph footer]))

def listOrDash (items : List String) : String :=
  let joined := "، ".intercalate (items.map escapeMdv2)
  if joined = "" then "—" else joined

def exampleLines (card : CardData) (toggles : Toggles) : List String :=
  let translations := card.exampleTranslations.take 2
  (card.examples.take 2).zipIdx.flatMap fun e =>
    ("✦ " ++ escapeMdv2 e.1) ::
      (if toggles.exampleTranslations then
        ((translations[e.2]?).map (fun t => "||" ++ escapeMdv2 t ++ "||")).toList else [])

def formatSrsBackStage (card : CardData) (toggles : Toggles) (phonetic : List String)
    (footer badge : String) : String :=
  "\n".intercalate (
    ("*" ++ escapeMdv2 card.wordText ++ "*") :: phonetic ++
    (if badge = "" then [] else [paragraph badge]) ++
    ["\n✤ *" ++ escapeMdv2 card.faMeaning ++ "*"] ++
    (if card.faExplanation ≠ "" ∧ toggles.explanation then [paragraph card.faExplanation] else []) ++
    (if toggles.synonyms then ["\n🟢 *" ++ "مترادف" ++ ":* " ++ listOrDash card.synonyms] else []) ++
    (if toggles.antonyms then ["🔴 *" ++ "متضاد" ++ ":* " ++ listOrDash card.antonyms] else []) ++
    (if toggles.examples then
      ("\n📝 *" ++ escapeMdv2 (if toggles.exampleTranslations then "مثال‌ها + ترجمه" else "مثال‌ها") ++ ":*") ::
        exampleLines card toggles else []) ++
    (if toggles.grammarTip ∧ card.grammarTip ≠ "" then
      ["\n✍️ *نکته‌ی گرامری:*\n" ++ escapeMdv2 card.grammarTip] else []) ++
    [paragraph srsPostReveal] ++ (if footer = "" then [] else [paragraph footer]))

/-! ## What can raise -/

theorem total_fillBlankHints (card : CardData) (toggles : Toggles) :
    (fillBlankHints card toggles).Total := by
  simp only [fillBlankHints]
  split
  · rename_i hthree
    refine Draw.Total.bind (Draw.total_sample _ _ _ ?_) fun pair =>
      Draw.Total.bind (Draw.total_oneOf _ ?_) fun single => Draw.total_pure _
    · split <;> omega
    · rw [← List.length_pos_iff]
      split <;> omega
  · split
    · rename_i htwo
      exact Draw.Total.bind (Draw.total_sample _ _ _ htwo) fun pair => Draw.total_pure _
    · split <;> exact Draw.total_pure _

theorem total_drawSynonymItems (card : CardData) (toggles : Toggles) :
    (drawSynonymItems card toggles).Total := by
  simp only [drawSynonymItems]
  split
  · exact Draw.total_pure _
  · exact Draw.Total.bind (Draw.total_below _ Nat.two_pos) fun extra =>
      Draw.Total.bind (Draw.total_sample _ _ _ (Nat.min_le_left _ _)) fun drawn =>
        Draw.total_pure _

theorem total_selectSrsPromptType (α : Alphabet) (card : CardData) (toggles : Toggles) :
    (selectSrsPromptType α card toggles).Total := by
  unfold selectSrsPromptType
  split
  · exact Draw.total_pure _
  · rename_i h
    exact Draw.total_oneOf _ h

/-- What the card must have for the prompt type to render. -/
def Supports (α : Alphabet) (card : CardData) (promptType : PromptType) : Prop :=
  promptType = .fillBlank → matchingExamples α card ≠ []

instance (α : Alphabet) (card : CardData) (promptType : PromptType) :
    Decidable (Supports α card promptType) :=
  inferInstanceAs (Decidable (_ → _))

/-- **The front stage renders every prompt type the card supports**, whatever is
drawn. -/
theorem total_formatSrsFrontStage {α : Alphabet} {card : CardData} {promptType : PromptType}
    (h : Supports α card promptType) (toggles : Toggles) (phonetic : List String)
    (badge footer : String) :
    (formatSrsFrontStage α card promptType toggles phonetic badge footer).Total := by
  refine Draw.Total.bind ?_ fun prompt => Draw.total_pure _
  cases promptType with
  | standard => exact Draw.total_pure _
  | fillBlank =>
    exact Draw.Total.bind (Draw.total_oneOf _ (h rfl)) fun chosen =>
      Draw.Total.bind (total_fillBlankHints card toggles) fun hints => Draw.total_pure _
  | meaning => exact Draw.total_pure _
  | synonym =>
    exact Draw.Total.bind (total_drawSynonymItems card toggles) fun items => Draw.total_pure _
  | directTranslate => exact Draw.total_pure _

theorem fails_formatSrsFrontStage {α : Alphabet} {card : CardData} {promptType : PromptType}
    (h : ¬ Supports α card promptType) (toggles : Toggles) (phonetic : List String)
    (badge footer : String) :
    (formatSrsFrontStage α card promptType toggles phonetic badge footer).Fails := by
  obtain ⟨rfl, hnone⟩ := Classical.not_imp.mp h
  refine Draw.Fails.bind _ (Draw.Fails.bind _ ?_)
  rw [Classical.not_not.mp hnone]
  exact Draw.fails_oneOf _

/-- **The selector only picks prompt types the card supports.** -/
theorem supports_selectSrsPromptType {α : Alphabet} {card : CardData} {toggles : Toggles}
    {r r' : Source} {promptType : PromptType}
    (h : selectSrsPromptType α card toggles r = .ok (promptType, r')) :
    Supports α card promptType := by
  rintro rfl
  unfold selectSrsPromptType at h
  split at h
  · cases h
  · have hmem := Draw.mem_of_oneOf h
    simp only [eligibleSrsPromptTypes, List.mem_append] at hmem
    rcases hmem with ((hmem | hmem) | hmem) | hmem
    · split at hmem <;> simp at hmem
    · split at hmem
      · rename_i hfill
        exact hfill.2.1
      · cases hmem
    · split at hmem <;> simp at hmem
    · split at hmem <;> simp at hmem

end HamZaboon
