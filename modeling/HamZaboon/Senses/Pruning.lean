import HamZaboon.Senses.Prune

/-! # What pruning keeps

The screens read a sense through its fields, and all but the niche screen
through fields that no kept row changes (`SameReading`).  The topics of a row
that takes over those of its twins are the topics of all of them
(`mem_topicTexts_twinUnionCopy`); none of the twins was solely niche, so the row
is not.  Hence a second pruning drops nothing, as long as topics and categories
are lists.
-/

namespace HamZaboon
open Library

namespace PyText
variable {py : PyText}

/-! ## Readers of fields -/

theorem senseGloss_eq (s : JsonValue) :
    py.senseGloss s = (fieldOf "glosses" s).iterate.map fun glosses =>
      ((glosses.findSome? py.textOf).or (py.textOf (fieldOf "gloss" s))).getD "" := by
  cases s with
  | obj sense =>
    show (Dict.get sense "glosses").iterate.bind _ = _
    rw [Option.map_eq_bind]
    rfl
  | _ => rfl

theorem senseTags_eq (s : JsonValue) :
    py.senseTags s = (fieldOf "tags" s).iterate.map fun tags =>
      (tags.filterMap py.textOf).map py.casefold := by
  cases s with
  | obj sense =>
    show (Dict.get sense "tags").iterate.bind _ = _
    rw [Option.map_eq_bind]
    rfl
  | _ => rfl

theorem senseTopics_eq (s : JsonValue) :
    py.senseTopics s = (fieldOf "topics" s).iterate.bind fun topics =>
      (fieldOf "categories" s).iterate.bind fun categories =>
        some (((topics ++ categories.map categoryName).filterMap py.textOf).map
          py.casefold).dedup := by
  cases s <;> rfl

theorem sensePos_eq (s : JsonValue) :
    py.sensePos s = match fieldOf "pos" s with
      | .arr items => items.filterMap py.posValue
      | value => (py.posValue value).toList := by
  cases s <;> rfl

theorem isFormofSense_eq (s : JsonValue) :
    py.isFormofSense s = match (fieldOf "tags" s).iterate with
      | some tags =>
        decide ("form-of" ∈ ((tags.map fun tag => py.strip (py.displayed tag)).filter
          (· ≠ "")).map py.casefold) || (fieldOf "form_of" s).truthy
      | none => false := by
  cases s <;> rfl

/-- The screens before the niche screen read the same off both. -/
structure SameReading (a b : JsonValue) : Prop where
  glosses : fieldOf "glosses" b = fieldOf "glosses" a
  gloss : fieldOf "gloss" b = fieldOf "gloss" a
  tags : fieldOf "tags" b = fieldOf "tags" a
  pos : fieldOf "pos" b = fieldOf "pos" a
  formOf : fieldOf "form_of" b = fieldOf "form_of" a

namespace SameReading
variable {a b c : JsonValue}

theorem refl (a : JsonValue) : SameReading a a := ⟨rfl, rfl, rfl, rfl, rfl⟩

theorem trans (h : SameReading a b) (h' : SameReading b c) : SameReading a c where
  glosses := h'.glosses.trans h.glosses
  gloss := h'.gloss.trans h.gloss
  tags := h'.tags.trans h.tags
  pos := h'.pos.trans h.pos
  formOf := h'.formOf.trans h.formOf

theorem senseGloss (h : SameReading a b) : py.senseGloss b = py.senseGloss a := by
  rw [senseGloss_eq, senseGloss_eq, h.glosses, h.gloss]

theorem senseTags (h : SameReading a b) : py.senseTags b = py.senseTags a := by
  rw [senseTags_eq, senseTags_eq, h.tags]

theorem posIsName (h : SameReading a b) : py.posIsName b = py.posIsName a := by
  unfold PyText.posIsName
  rw [sensePos_eq, sensePos_eq, h.pos]

theorem isFormofSense (h : SameReading a b) : py.isFormofSense b = py.isFormofSense a := by
  rw [isFormofSense_eq, isFormofSense_eq, h.tags, h.formOf]

theorem isObscureAcronym (h : SameReading a b) (gloss : String) :
    py.isObscureAcronym b gloss = py.isObscureAcronym a gloss := by
  rw [PyText.isObscureAcronym, PyText.isObscureAcronym, h.posIsName, h.senseTags]

end SameReading

/-! ## Verdicts -/

/-- A reason that is not the name of a twin. -/
def plainReasons : List String :=
  ["DROP_OBSCURE_ACRONYM", "DROP_PROPER_NOUN", "obsolete", "form-of", "xref", "niche"]

def DropOf (py : PyText) (pair : SensePair) (drop : SenseDrop) : Prop :=
  drop.senseId = pair.1 ∧ py.senseGloss pair.2 = some drop.gloss

theorem properVerdict_eq_none {pair : SensePair} :
    py.properVerdict pair = some none ↔ ∃ gloss, py.senseGloss pair.2 = some gloss ∧
      py.isObscureAcronym pair.2 gloss = some false ∧ py.posIsName pair.2 = false := by
  unfold properVerdict
  constructor
  · intro h
    obtain ⟨gloss, hgloss, h⟩ := Option.bind_eq_some_iff.mp h
    obtain ⟨acronym, hacronym, h⟩ := Option.bind_eq_some_iff.mp h
    refine ⟨gloss, hgloss, ?_⟩
    cases acronym <;> cases hname : py.posIsName pair.2 <;> simp_all
  · rintro ⟨gloss, hgloss, hacronym, hname⟩
    simp [hgloss, hacronym, hname]

theorem dropOf_properVerdict {pair : SensePair} {drop : SenseDrop}
    (h : py.properVerdict pair = some (some drop)) :
    py.DropOf pair drop ∧ drop.reason ∈ plainReasons := by
  unfold properVerdict at h
  obtain ⟨gloss, hgloss, h⟩ := Option.bind_eq_some_iff.mp h
  obtain ⟨acronym, -, h⟩ := Option.bind_eq_some_iff.mp h
  have h := Option.some.inj h
  split at h
  · obtain rfl := Option.some.inj h
    exact ⟨⟨rfl, hgloss⟩, by simp [plainReasons]⟩
  · split at h
    · obtain rfl := Option.some.inj h
      exact ⟨⟨rfl, hgloss⟩, by simp [plainReasons]⟩
    · cases h

theorem hardVerdict_eq_none {pair : SensePair} :
    py.hardVerdict pair = some none ↔ ∃ gloss tags, py.senseGloss pair.2 = some gloss ∧
      py.senseTags pair.2 = some tags ∧ tags.any (· ∈ py.obsoleteSet) = false ∧
      py.isFormofSense pair.2 = false ∧ (py.detectXref gloss).isSome = false := by
  unfold hardVerdict
  constructor
  · intro h
    obtain ⟨gloss, hgloss, h⟩ := Option.bind_eq_some_iff.mp h
    obtain ⟨tags, htags, h⟩ := Option.bind_eq_some_iff.mp h
    have h := Option.some.inj h
    refine ⟨gloss, tags, hgloss, htags, ?_⟩
    split at h
    · cases h
    · rename_i hobsolete
      split at h
      · cases h
      · rename_i hformof
        split at h
        · cases h
        · rename_i hxref
          exact ⟨Bool.eq_false_of_not_eq_true hobsolete, Bool.eq_false_of_not_eq_true hformof,
            Bool.eq_false_of_not_eq_true hxref⟩
  · rintro ⟨gloss, tags, hgloss, htags, hobsolete, hformof, hxref⟩
    rw [hgloss, htags]
    show some (if _ then _ else _) = _
    rw [hobsolete, hformof, hxref]
    rfl

theorem dropOf_hardVerdict {pair : SensePair} {drop : SenseDrop}
    (h : py.hardVerdict pair = some (some drop)) :
    py.DropOf pair drop ∧ drop.reason ∈ plainReasons := by
  unfold hardVerdict at h
  obtain ⟨gloss, hgloss, h⟩ := Option.bind_eq_some_iff.mp h
  obtain ⟨tags, -, h⟩ := Option.bind_eq_some_iff.mp h
  have h := Option.some.inj h
  split at h
  · obtain rfl := Option.some.inj h
    exact ⟨⟨rfl, hgloss⟩, by simp [plainReasons]⟩
  · split at h
    · obtain rfl := Option.some.inj h
      exact ⟨⟨rfl, hgloss⟩, by simp [plainReasons]⟩
    · split at h
      · obtain rfl := Option.some.inj h
        exact ⟨⟨rfl, hgloss⟩, by simp [plainReasons]⟩
      · cases h

theorem nicheVerdict_eq_none {pair : SensePair} :
    py.nicheVerdict pair = some none ↔
      ∃ topics, py.senseTopics pair.2 = some topics ∧ solelyNiche topics = false := by
  unfold nicheVerdict
  constructor
  · intro h
    obtain ⟨topics, htopics, h⟩ := Option.bind_eq_some_iff.mp h
    refine ⟨topics, htopics, ?_⟩
    split at h
    · obtain ⟨gloss, -, h⟩ := Option.bind_eq_some_iff.mp h
      cases h
    · rename_i hniche
      exact Bool.eq_false_of_not_eq_true hniche
  · rintro ⟨topics, htopics, hniche⟩
    simp [htopics, hniche]

theorem dropOf_nicheVerdict {pair : SensePair} {drop : SenseDrop}
    (h : py.nicheVerdict pair = some (some drop)) :
    py.DropOf pair drop ∧ drop.reason ∈ plainReasons := by
  unfold nicheVerdict at h
  obtain ⟨topics, -, h⟩ := Option.bind_eq_some_iff.mp h
  split at h
  · obtain ⟨gloss, hgloss, h⟩ := Option.bind_eq_some_iff.mp h
    obtain rfl := Option.some.inj (Option.some.inj h)
    exact ⟨⟨rfl, hgloss⟩, by simp [plainReasons]⟩
  · cases h

/-! ## Topics -/

end PyText

/-- The value is a list, or counts as nothing. -/
def Listed (value : JsonValue) : Prop := value.listItems.isSome = true ∨ value.truthy = false

theorem Listed.iterate {value : JsonValue} (h : Listed value) :
    value.iterate = some (value.listItems.getD []) := by
  cases value with
  | arr items => rfl
  | null => rfl
  | bool value =>
    rcases h with h | h
    · cases h
    · simp [JsonValue.iterate, JsonValue.listItems, h]
  | int value =>
    rcases h with h | h
    · cases h
    · simp [JsonValue.iterate, JsonValue.listItems, h]
  | float value =>
    rcases h with h | h
    · cases h
    · simp [JsonValue.iterate, JsonValue.listItems, h]
  | str value =>
    rcases h with h | h
    · cases h
    · obtain rfl : value = "" := by simpa [JsonValue.truthy] using h
      rfl
  | obj entries =>
    rcases h with h | h
    · cases h
    · obtain rfl : entries = [] := by simpa [JsonValue.truthy] using h
      rfl

namespace PyText
variable {py : PyText}

/-- The topics and the categories of the sense are lists, or nothing. -/
def ListedTopics (s : JsonValue) : Prop :=
  Listed (fieldOf "topics" s) ∧ Listed (fieldOf "categories" s)

def textsOf (py : PyText) (name : JsonValue → JsonValue) (value : JsonValue) : List String :=
  (value.listItems.getD []).filterMap fun item => py.rawText (name item)

def topicTexts (py : PyText) (s : JsonValue) : List String :=
  py.textsOf id (fieldOf "topics" s) ++ py.textsOf categoryName (fieldOf "categories" s)

/-- There are topics, and all of them are niche topics. -/
def SolelyNiche (py : PyText) (s : JsonValue) : Prop :=
  py.topicTexts s ≠ [] ∧ ∀ text ∈ py.topicTexts s, py.casefold (py.strip text) ∈ nicheTopics

theorem senseTopics_of_listed {s : JsonValue} (h : ListedTopics s) :
    py.senseTopics s =
      some ((py.topicTexts s).map fun text => py.casefold (py.strip text)).dedup := by
  have htext : ∀ items : List JsonValue,
      (items.filterMap py.textOf).map py.casefold =
        (items.filterMap py.rawText).map fun text => py.casefold (py.strip text) := by
    intro items
    have hcomp : py.textOf = fun item => (py.rawText item).map py.strip := rfl
    rw [hcomp, ← List.map_filterMap, List.map_map]
    rfl
  rw [senseTopics_eq, h.1.iterate, h.2.iterate, Option.bind_some, Option.bind_some, htext,
    List.filterMap_append, List.filterMap_map]
  rfl

theorem nicheVerdict_of_listed {pair : SensePair} (h : ListedTopics pair.2) :
    py.nicheVerdict pair = some none ↔ ¬ py.SolelyNiche pair.2 := by
  rw [nicheVerdict_eq_none, senseTopics_of_listed h]
  constructor
  · rintro ⟨topics, htopics, hniche⟩ ⟨hne, hall⟩
    obtain rfl := Option.some.inj htopics
    simp only [solelyNiche, Bool.and_eq_false_iff, decide_eq_false_iff_not, not_not,
      List.all_eq_false] at hniche
    rcases hniche with hnil | ⟨topic, htopic, hother⟩
    · rw [List.dedup_eq_nil, List.map_eq_nil_iff] at hnil
      exact hne hnil
    · obtain ⟨text, htext, rfl⟩ := List.mem_map.mp (List.mem_dedup.mp htopic)
      exact hother (by simpa using hall text htext)
  · intro hnot
    refine ⟨_, rfl, ?_⟩
    by_contra hniche
    rw [Bool.not_eq_false, solelyNiche, Bool.and_eq_true, decide_eq_true_eq,
      List.all_eq_true] at hniche
    refine hnot ⟨fun hnil => hniche.1 (by rw [hnil]; rfl), fun text htext => ?_⟩
    have hmem : py.casefold (py.strip text) ∈
        ((py.topicTexts pair.2).map fun text => py.casefold (py.strip text)).dedup :=
      List.mem_dedup.mpr (List.mem_map.mpr ⟨text, htext, rfl⟩)
    simpa using hniche.2 _ hmem

theorem rawText_str {value : JsonValue} {text : String} (h : py.rawText value = some text) :
    py.rawText (.str text) = some text := by
  cases value with
  | str own =>
    have hown := h
    rw [rawText] at hown
    split at hown
    · cases hown
    · obtain rfl := Option.some.inj hown
      exact h
  | _ => cases h

theorem mem_textsOf {name : JsonValue → JsonValue} {value : JsonValue} {text : String} :
    text ∈ py.textsOf name value ↔
      ∃ item ∈ value.listItems.getD [], py.rawText (name item) = some text :=
  List.mem_filterMap

theorem mem_textsOf_unionTopics {sources : List JsonValue} {text : String} :
    text ∈ py.textsOf id (.arr (py.unionTopics sources)) ↔
      ∃ source ∈ sources, text ∈ py.textsOf id source := by
  have hsources : text ∈ (sources.flatMap fun source => source.listItems.getD []).filterMap
      py.rawText ↔ ∃ source ∈ sources, text ∈ py.textsOf id source := by
    rw [List.mem_filterMap]
    constructor
    · rintro ⟨item, hitem, htext⟩
      obtain ⟨source, hsource, hitem⟩ := List.mem_flatMap.mp hitem
      exact ⟨source, hsource, mem_textsOf.mpr ⟨item, hitem, htext⟩⟩
    · rintro ⟨source, hsource, htext⟩
      obtain ⟨item, hitem, htext⟩ := mem_textsOf.mp htext
      exact ⟨item, List.mem_flatMap.mpr ⟨source, hsource, hitem⟩, htext⟩
  rw [← hsources, mem_textsOf]
  constructor
  · rintro ⟨item, hitem, htext⟩
    obtain ⟨own, hown, rfl⟩ := List.mem_map.mp hitem
    have hown := List.mem_eraseDups.mp hown
    obtain ⟨value, -, hvalue⟩ := List.mem_filterMap.mp hown
    obtain rfl := Option.some.inj ((rawText_str hvalue).symm.trans htext)
    exact hown
  · intro htext
    obtain ⟨value, -, hvalue⟩ := List.mem_filterMap.mp htext
    exact ⟨.str text, List.mem_map_of_mem (List.mem_eraseDups.mpr htext), rawText_str hvalue⟩

theorem exists_unionCategoryItems {seenValues : List String} {seenBlobs values : List JsonValue}
    {text : String} :
    (∃ item ∈ py.unionCategoryItems seenValues seenBlobs values,
        py.rawText (categoryName item) = some text) ↔
      text ∉ seenValues ∧ ∃ item ∈ values, py.rawText (categoryName item) = some text := by
  induction values generalizing seenValues seenBlobs with
  | nil => simp [unionCategoryItems]
  | cons value values ih =>
    rw [unionCategoryItems.eq_def]
    simp only [List.exists_mem_cons_iff]
    cases hname : py.rawText (categoryName value) with
    | some name =>
      simp only [Option.some.injEq]
      by_cases hseen : name ∈ seenValues
      · rw [if_pos hseen, ih]
        constructor
        · rintro ⟨hnew, hrest⟩
          exact ⟨hnew, .inr hrest⟩
        · rintro ⟨hnew, rfl | hrest⟩
          · exact absurd hseen hnew
          · exact ⟨hnew, hrest⟩
      · rw [if_neg hseen, List.exists_mem_cons_iff, hname, ih, Option.some.injEq, List.mem_cons,
          not_or]
        constructor
        · rintro (rfl | ⟨⟨-, hnew⟩, hrest⟩)
          · exact ⟨hseen, .inl rfl⟩
          · exact ⟨hnew, .inr hrest⟩
        · rintro ⟨hnew, hor⟩
          by_cases htext : name = text
          · exact .inl htext
          · exact .inr ⟨⟨fun heq => htext heq.symm, hnew⟩, hor.resolve_left htext⟩
    | none =>
      simp only [reduceCtorEq, false_or]
      split
      · exact ih
      · split
        · exact ih
        · rw [List.exists_mem_cons_iff, hname, ih]
          simp

theorem mem_textsOf_unionCategories {sources : List JsonValue} {text : String} :
    text ∈ py.textsOf categoryName (.arr (py.unionCategories sources)) ↔
      ∃ source ∈ sources, text ∈ py.textsOf categoryName source := by
  rw [mem_textsOf]
  show (∃ item ∈ py.unionCategoryItems [] [] _, _) ↔ _
  rw [exists_unionCategoryItems]
  constructor
  · rintro ⟨-, item, hitem, htext⟩
    obtain ⟨source, hsource, hitem⟩ := List.mem_flatMap.mp hitem
    exact ⟨source, hsource, mem_textsOf.mpr ⟨item, hitem, htext⟩⟩
  · rintro ⟨source, hsource, htext⟩
    obtain ⟨item, hitem, htext⟩ := mem_textsOf.mp htext
    exact ⟨List.not_mem_nil, item, List.mem_flatMap.mpr ⟨source, hsource, hitem⟩, htext⟩

/-! ## The row of a winner -/

theorem get_uniteField_of_ne {field other : String} (hne : other ≠ field)
    (unite : List JsonValue → List JsonValue) (winner enriched : Dict) (losers : List JsonValue) :
    (uniteField field unite winner losers enriched).lookup other = enriched.lookup other := by
  unfold uniteField
  simp only
  split
  · rw [Dict.lookup_set, if_neg hne]
  · rfl

theorem mem_textsOf_uniteField {field : String} {unite : List JsonValue → List JsonValue}
    {name : JsonValue → JsonValue}
    (hunite : ∀ sources text, text ∈ py.textsOf name (.arr (unite sources)) ↔
      ∃ source ∈ sources, text ∈ py.textsOf name source)
    {winner enriched : Dict} (hsame : enriched.lookup field = winner.lookup field)
    (losers : List JsonValue) (text : String) :
    text ∈ py.textsOf name (Dict.get (uniteField field unite winner losers enriched) field) ↔
      ∃ s ∈ JsonValue.obj winner :: losers, text ∈ py.textsOf name (fieldOf field s) := by
  have hsources : (∃ source ∈ winner.get field :: losers.map (fieldOf field),
      text ∈ py.textsOf name source) ↔
        ∃ s ∈ JsonValue.obj winner :: losers, text ∈ py.textsOf name (fieldOf field s) := by
    simp [fieldOf]
  rw [← hsources]
  unfold uniteField
  simp only
  split
  · rw [Dict.get_set_self, hunite]
  · rename_i hnone
    -- No source is a list, so none has a text.
    have hempty : ∀ source ∈ winner.get field :: losers.map (fieldOf field),
        text ∉ py.textsOf name source := by
      intro source hsource htext
      have hlist : source.listItems = none := by
        have hall := List.any_eq_false.mp (Bool.eq_false_of_not_eq_true hnone) source hsource
        simpa using hall
      rw [mem_textsOf, hlist] at htext
      obtain ⟨item, hitem, -⟩ := htext
      exact List.not_mem_nil hitem
    refine iff_of_false ?_ fun ⟨source, hsource, htext⟩ => hempty source hsource htext
    rw [Dict.get, hsame]
    exact hempty _ List.mem_cons_self

theorem listed_uniteField {field : String} {winner enriched : Dict}
    (hsame : enriched.lookup field = winner.lookup field) (h : Listed (winner.get field))
    (unite : List JsonValue → List JsonValue) (losers : List JsonValue) :
    Listed (Dict.get (uniteField field unite winner losers enriched) field) := by
  unfold uniteField
  simp only
  split
  · rw [Dict.get_set_self]
    exact .inl rfl
  · rw [Dict.get, hsame]
    exact h

theorem lookup_twinUnionCopy {field : String} (htopics : field ≠ "topics")
    (hcategories : field ≠ "categories") (winner : Dict) (losers : List JsonValue) :
    (py.twinUnionCopy winner losers).lookup field = winner.lookup field := by
  rw [twinUnionCopy, get_uniteField_of_ne hcategories, get_uniteField_of_ne htopics]

/-- **The topics of a winner's row** are those of all twins. -/
theorem mem_topicTexts_twinUnionCopy (winner : Dict) (losers : List JsonValue) (text : String) :
    text ∈ py.topicTexts (.obj (py.twinUnionCopy winner losers)) ↔
      ∃ s ∈ JsonValue.obj winner :: losers, text ∈ py.topicTexts s := by
  let enriched := uniteField "topics" py.unionTopics winner losers winner
  have htopics : text ∈ py.textsOf id (fieldOf "topics" (.obj (py.twinUnionCopy winner losers))) ↔
      ∃ s ∈ JsonValue.obj winner :: losers, text ∈ py.textsOf id (fieldOf "topics" s) := by
    have hfield : fieldOf "topics" (.obj (py.twinUnionCopy winner losers)) =
        Dict.get enriched "topics" := by
      show Dict.get (uniteField "categories" py.unionCategories winner losers enriched) _ = _
      rw [Dict.get, get_uniteField_of_ne (by decide), Dict.get]
    rw [hfield]
    exact mem_textsOf_uniteField (fun _ _ => mem_textsOf_unionTopics) rfl losers text
  have hcategories : text ∈ py.textsOf categoryName
        (fieldOf "categories" (.obj (py.twinUnionCopy winner losers))) ↔
      ∃ s ∈ JsonValue.obj winner :: losers,
        text ∈ py.textsOf categoryName (fieldOf "categories" s) :=
    mem_textsOf_uniteField (fun _ _ => mem_textsOf_unionCategories)
      (get_uniteField_of_ne (by decide) ..) losers text
  rw [topicTexts, List.mem_append, htopics, hcategories]
  constructor
  · rintro (⟨s, hs, htext⟩ | ⟨s, hs, htext⟩)
    · exact ⟨s, hs, List.mem_append_left _ htext⟩
    · exact ⟨s, hs, List.mem_append_right _ htext⟩
  · rintro ⟨s, hs, htext⟩
    rcases List.mem_append.mp htext with htext | htext
    · exact .inl ⟨s, hs, htext⟩
    · exact .inr ⟨s, hs, htext⟩

theorem listedTopics_twinUnionCopy {winner : Dict} (h : ListedTopics (.obj winner))
    (losers : List JsonValue) : ListedTopics (.obj (py.twinUnionCopy winner losers)) := by
  refine ⟨?_, listed_uniteField (get_uniteField_of_ne (by decide) ..) h.2 ..⟩
  show Listed (Dict.get (uniteField "categories" _ winner losers _) "topics")
  rw [Dict.get, get_uniteField_of_ne (by decide)]
  exact listed_uniteField rfl h.1 ..

/-- **No merge makes a row solely niche** when none of the twins is. -/
theorem not_solelyNiche_twinUnionCopy {winner : Dict} {losers : List JsonValue}
    (h : ∀ s ∈ JsonValue.obj winner :: losers, ¬ py.SolelyNiche s) :
    ¬ py.SolelyNiche (.obj (py.twinUnionCopy winner losers)) := by
  rintro ⟨hne, hall⟩
  obtain ⟨text, htext⟩ := List.exists_mem_of_ne_nil _ hne
  obtain ⟨s, hs, htext⟩ := (mem_topicTexts_twinUnionCopy winner losers text).mp htext
  refine h s hs ⟨List.ne_nil_of_mem htext, fun other hother => ?_⟩
  exact hall other ((mem_topicTexts_twinUnionCopy winner losers other).mpr ⟨s, hs, hother⟩)

end PyText

end HamZaboon
