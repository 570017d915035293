import HamZaboon.Cards.Validation
import HamZaboon.Library.Results

/-! # Repairing a card

`validate_card` accepts an object exactly when seven of its fields pass a check
each (`validateCard_iff`).  `card_repair_fields` lists the fields that do not
pass, with their partners, and what `validate_card_patch` lets through passes.
So a card without fields to repair is valid, and so is a repaired one.
-/

namespace HamZaboon
open Library

/-! ## Aliases -/

theorem lookup_expandStep (d : Dict) (names : String × String) (x : String) :
    (match d.lookup names.2, d.lookup names.1 with
      | none, some value => d.set names.2 value
      | _, _ => d).lookup x =
      if x = names.2 then (d.lookup names.2).or (d.lookup names.1) else d.lookup x := by
  cases hk : d.lookup names.2 with
  | some v =>
    by_cases hx : x = names.2
    · simp [hx, hk]
    · simp [hx]
  | none =>
    cases hc : d.lookup names.1 with
    | none =>
      by_cases hx : x = names.2
      · simp [hx, hk]
      · simp [hx]
    | some v => simp [Dict.lookup_set]

/-- The compact name of a canonical one. -/
def aliasOf (field : String) : Option String :=
  (compactCardFields.find? fun names => names.2 = field).map Prod.fst

/-- **Expansion.**  A canonical name reads its own entry, else that of its alias. -/
theorem lookup_expandCardAliases (data : Dict) (x : String) :
    (expandCardAliases data).lookup x =
      (data.lookup x).or ((aliasOf x).bind fun c => data.lookup c) := by
  have hfold : ∀ (names : List (String × String)) (d : Dict),
      (names.map Prod.snd).Nodup → (∀ n ∈ names, n.1 ∉ names.map Prod.snd) →
      (names.foldl (fun expanded names =>
        match expanded.lookup names.2, expanded.lookup names.1 with
        | none, some value => expanded.set names.2 value
        | _, _ => expanded) d).lookup x =
      (d.lookup x).or (((names.find? fun n => n.2 = x).map Prod.fst).bind fun c => d.lookup c) := by
    intro names
    induction names with
    | nil => intros; simp
    | cons n names ih =>
      intro d hnodup halias
      obtain ⟨hn, hnodup⟩ := List.nodup_cons.mp hnodup
      have halias' : ∀ m ∈ names, m.1 ∉ names.map Prod.snd := fun m hm hmem =>
        halias m (List.mem_cons_of_mem _ hm) (List.mem_cons_of_mem _ hmem)
      rw [List.foldl_cons, ih _ hnodup halias', lookup_expandStep]
      by_cases hx : x = n.2
      · have hnone : names.find? (fun m => m.2 = x) = none := by
          rw [List.find?_eq_none]
          intro m hm heq
          exact hn (List.mem_map.mpr ⟨m, hm, (of_decide_eq_true heq).trans hx⟩)
        subst hx
        simp [hnone]
      · rw [if_neg hx, List.find?_cons_of_neg (by simpa using fun h => hx h.symm)]
        cases hfind : names.find? (fun m => m.2 = x) with
        | none => rfl
        | some m =>
          have hm := List.mem_of_find?_eq_some hfind
          have hne : m.1 ≠ n.2 := fun heq =>
            halias m (List.mem_cons_of_mem _ hm) (heq ▸ List.mem_cons_self)
          simp only [Option.map_some, Option.bind_some]
          rw [lookup_expandStep, if_neg hne]
  exact hfold compactCardFields data (by decide) (by decide)

theorem expandCardAliases_eq_self {data : Dict}
    (h : ∀ names ∈ compactCardFields, names.1 ∉ data.map Prod.fst) :
    expandCardAliases data = data := by
  have hfold : ∀ names : List (String × String), (∀ n ∈ names, n.1 ∉ data.map Prod.fst) →
      names.foldl (fun expanded names =>
        match expanded.lookup names.2, expanded.lookup names.1 with
        | none, some value => expanded.set names.2 value
        | _, _ => expanded) data = data := by
    intro names
    induction names with
    | nil => intros; rfl
    | cons n names ih =>
      intro hnames
      have hnone : data.lookup n.1 = none := by
        rw [← Option.not_isSome_iff_eq_none, Dict.isSome_lookup]
        exact hnames n List.mem_cons_self
      have htail := ih fun m hm => hnames m (List.mem_cons_of_mem _ hm)
      rw [List.foldl_cons, hnone]
      cases data.lookup n.2 <;> exact htail
  exact hfold compactCardFields h

theorem mem_keys_expand {data : Dict} {key : String} (h : key ∈ data.map Prod.fst) :
    key ∈ (expandCardAliases data).map Prod.fst := by
  rw [← Dict.isSome_lookup] at h ⊢
  rw [lookup_expandCardAliases, Option.isSome_or, h, Bool.true_or]

namespace PyText
variable (py : PyText)

/-! ## One check for each field -/

/-- The fields `validate_card` looks at with a check. -/
def checkedFields : List String :=
  ["word", "fa_meaning", "fa_explanation", "examples", "example_translations", "synonyms",
    "antonyms"]

def FieldOk (data : Dict) (field : String) : Prop :=
  if field ∈ ["word", "fa_meaning", "fa_explanation"] then
    ∃ text, py.requiredText data field = .ok text
  else if field ∈ ["examples", "example_translations"] then
    ∃ values, py.textList data field true = .ok values ∧ values.length = 2
  else if field ∈ ["synonyms", "antonyms"] then ∃ values, py.richList data field = .ok values
  else True

variable {py}

theorem fieldOk_congr {data data' : Dict} {field : String} (h : data.get field = data'.get field) :
    py.FieldOk data field ↔ py.FieldOk data' field := by
  have htext : py.requiredText data field = py.requiredText data' field := by
    simp only [requiredText, h]
  have hlist : ∀ required, py.textList data field required = py.textList data' field required :=
    fun required => by simp only [textList, h]
  have hrich : py.richList data field = py.richList data' field := by
    simp only [richList, hlist]
  simp only [FieldOk, htext, hlist, hrich]

theorem richList_eq_ok {data : Dict} {field : String} {values : List String} :
    py.richList data field = .ok values ↔
      py.textList data field false = .ok values ∧
        py.validateOptionalRichList field values = .ok () := by
  unfold richList
  cases htext : py.textList data field false with
  | error e => simp
  | ok found =>
    simp only [Except.ok.injEq]
    cases hrich : py.validateOptionalRichList field found with
    | error e =>
      refine iff_of_false (fun h => by cases h) ?_
      rintro ⟨rfl, h⟩
      rw [hrich] at h
      cases h
    | ok u =>
      simp only [Except.ok.injEq]
      constructor
      · rintro rfl
        exact ⟨rfl, hrich⟩
      · exact fun h => h.1

theorem validateCard_iff (data : Dict) :
    (∃ card, py.validateCard (.obj data) = .ok card) ↔
      ∀ field ∈ checkedFields, py.FieldOk (expandCardAliases data) field := by
  generalize hexp : expandCardAliases data = expanded
  have hcheck : (∀ field ∈ checkedFields, py.FieldOk expanded field) ↔
      (∃ text, py.requiredText expanded "word" = .ok text) ∧
      (∃ text, py.requiredText expanded "fa_meaning" = .ok text) ∧
      (∃ text, py.requiredText expanded "fa_explanation" = .ok text) ∧
      (∃ values, py.textList expanded "examples" true = .ok values ∧ values.length = 2) ∧
      (∃ values, py.textList expanded "example_translations" true = .ok values ∧
        values.length = 2) ∧
      (∃ values, py.richList expanded "synonyms" = .ok values) ∧
      ∃ values, py.richList expanded "antonyms" = .ok values := by
    simp [checkedFields, FieldOk]
  rw [hcheck]
  simp only [validateCard, hexp]
  constructor
  · rintro ⟨card, h⟩
    obtain ⟨examples, hexamples, h⟩ := bind_eq_ok.mp h
    obtain ⟨translations, htranslations, h⟩ := bind_eq_ok.mp h
    split at h
    · cases h
    · rename_i hlen
      obtain ⟨hlen, hlen'⟩ : examples.length = 2 ∧ translations.length = 2 := by
        simpa only [not_or, not_not] using hlen
      split at h
      · cases h
      · obtain ⟨synonyms, hsyn, h⟩ := bind_eq_ok.mp h
        obtain ⟨antonyms, hant, h⟩ := bind_eq_ok.mp h
        obtain ⟨_, hsyn', h⟩ := bind_eq_ok.mp h
        obtain ⟨_, hant', h⟩ := bind_eq_ok.mp h
        obtain ⟨word, hword, h⟩ := bind_eq_ok.mp h
        obtain ⟨meaning, hmeaning, h⟩ := bind_eq_ok.mp h
        obtain ⟨explanation, hexplanation, h⟩ := bind_eq_ok.mp h
        exact ⟨⟨word, hword⟩, ⟨meaning, hmeaning⟩, ⟨explanation, hexplanation⟩,
          ⟨examples, hexamples, hlen⟩, ⟨translations, htranslations, hlen'⟩,
          ⟨synonyms, richList_eq_ok.mpr ⟨hsyn, hsyn'⟩⟩,
          antonyms, richList_eq_ok.mpr ⟨hant, hant'⟩⟩
  · rintro ⟨⟨word, hword⟩, ⟨meaning, hmeaning⟩, ⟨explanation, hexplanation⟩,
      ⟨examples, hexamples, hlen⟩, ⟨translations, htranslations, hlen'⟩,
      ⟨synonyms, hsynonyms⟩, antonyms, hantonyms⟩
    obtain ⟨hsyn, hsyn'⟩ := richList_eq_ok.mp hsynonyms
    obtain ⟨hant, hant'⟩ := richList_eq_ok.mp hantonyms
    simp [hword, hmeaning, hexplanation, hexamples, htranslations, hlen, hlen', hsyn, hsyn',
      hant, hant', bind, Except.bind, pure, Except.pure]

/-! ## A field that needs no repair -/

theorem requiredText_of_isText {data : Dict} {field : String} (h : py.isText (data.get field)) :
    ∃ text, py.requiredText data field = .ok text := by
  unfold requiredText
  cases hv : data.get field with
  | str value =>
    have hne : py.strip value ≠ "" := by simpa [isText, hv] using h
    exact ⟨py.strip value, if_neg hne⟩
  | _ => simp [isText, hv] at h

theorem nonBlank_eq_map {items : List String} (h : ∀ item ∈ items, py.strip item ≠ "") :
    py.nonBlank items = items.map py.strip := by
  unfold nonBlank
  rw [List.filter_eq_self.mpr]
  intro item hitem
  exact decide_eq_true (h item hitem)

@[simp] theorem allStrings_map (items : List String) :
    allStrings (items.map .str) = some items := by
  induction items with
  | nil => rfl
  | cons s items ih => simp [allStrings, ih]

theorem exists_of_all_isText {items : List JsonValue} (h : items.all py.isText) :
    ∃ texts : List String, items = texts.map .str ∧ ∀ text ∈ texts, py.strip text ≠ "" := by
  induction items with
  | nil => exact ⟨[], rfl, by simp⟩
  | cons item items ih =>
    rw [List.all_cons, Bool.and_eq_true] at h
    obtain ⟨texts, rfl, htexts⟩ := ih h.2
    cases item with
    | str s =>
      have hs : py.strip s ≠ "" := by simpa [isText] using h.1
      refine ⟨s :: texts, rfl, ?_⟩
      intro text htext
      rcases List.mem_cons.mp htext with rfl | htext
      · exact hs
      · exact htexts text htext
    | _ => exact absurd h.1 (by simp [isText])

theorem textList_of_isTwoTexts {data : Dict} {field : String} (h : py.isTwoTexts (data.get field)) :
    ∃ values, py.textList data field true = .ok values ∧ values.length = 2 := by
  cases hv : data.get field with
  | arr items =>
    rw [hv, isTwoTexts, Bool.and_eq_true] at h
    obtain ⟨texts, rfl, htexts⟩ := exists_of_all_isText h.2
    have hlen : texts.length = 2 := by simpa using h.1
    have hne : texts.map py.strip ≠ [] := by
      intro heq
      have : (texts.map py.strip).length = 0 := by rw [heq]; rfl
      rw [List.length_map] at this
      omega
    refine ⟨texts.map py.strip, ?_, by rw [List.length_map, hlen]⟩
    simp only [textList, hv, allStrings_map, nonBlank_eq_map htexts, hne]
    rfl
  | _ => simp [isTwoTexts, hv] at h

theorem richList_of_not_needsRepair {data : Dict} {field : String}
    (h : ¬ py.listNeedsRepair data field) : ∃ values, py.richList data field = .ok values := by
  cases hv : data.get field with
  | null => exact ⟨[], by simp [richList, textList, hv, validateOptionalRichList]⟩
  | _ =>
    cases hrich : py.richList data field with
    | ok values => exact ⟨values, rfl⟩
    | error e => simp [listNeedsRepair, hv, hrich, Except.toBool] at h

end PyText

/-- The entries of an object; none of any other value. -/
def entriesOf : JsonValue → Dict
  | .obj data => data
  | _ => []

namespace PyText
variable {py : PyText}

theorem repaired_eq (card : JsonValue) (patch : Dict) :
    repaired card patch = .obj (Dict.update (entriesOf card) patch) := by
  cases card <;> rfl

/-- **What is not asked for passes.** -/
theorem fieldOk_of_not_mem {card : JsonValue} {field : String} (hfield : field ∈ checkedFields)
    (h : field ∉ py.cardRepairFields card) :
    py.FieldOk (expandCardAliases (entriesOf card)) field := by
  cases card with
  | obj data =>
    simp only [cardRepairFields, List.mem_eraseDups, List.mem_append, not_or] at h
    obtain ⟨⟨⟨htexts, hexamples⟩, -⟩, hlists⟩ := h
    show py.FieldOk (expandCardAliases data) field
    generalize expandCardAliases data = expanded at *
    unfold FieldOk
    split
    · rename_i hmem
      refine requiredText_of_isText ?_
      simpa [hmem] using htexts
    · split
      · rename_i _ hmem
        refine textList_of_isTwoTexts ?_
        split at hexamples
        · rename_i hboth
          rw [Bool.and_eq_true] at hboth
          rcases List.mem_pair.mp hmem with rfl | rfl
          · exact hboth.1
          · exact hboth.2
        · exact absurd hmem hexamples
      · split
        · rename_i _ _ hmem
          refine richList_of_not_needsRepair ?_
          simpa [hmem] using hlists
        · trivial
  | _ =>
    -- Only the optional lists are left, and a card without entries has none of them.
    have hnone : ∀ field, (expandCardAliases []).get field = .null := by
      intro field
      simp [Dict.get, lookup_expandCardAliases]
    have hrich : ∃ values, py.richList (expandCardAliases []) field = .ok values :=
      ⟨[], by simp [richList, textList, hnone, validateOptionalRichList]⟩
    have hlist : field ∈ ["synonyms", "antonyms"] := by
      simp only [checkedFields, cardRepairFields, List.mem_cons, List.not_mem_nil, or_false]
        at hfield h ⊢
      tauto
    rcases List.mem_pair.mp hlist with rfl | rfl
    · exact hrich
    · exact hrich

/-! ## What a patch brings -/

theorem patchFields_spec {expanded start patch : Dict} {fields : List String}
    (hstart : (start.map Prod.fst).Nodup)
    (h : py.patchFields expanded start fields = .ok patch) :
    (patch.map Prod.fst).Nodup ∧
      ∀ x, if x ∈ fields then ∃ v, py.patchField expanded x = .ok v ∧ patch.lookup x = some v
        else patch.lookup x = start.lookup x := by
  induction fields generalizing start with
  | nil =>
    cases h
    exact ⟨hstart, fun x => by simp⟩
  | cons field fields ih =>
    rw [patchFields] at h
    cases hv : py.patchField expanded field with
    | error e => simp [hv] at h
    | ok value =>
      rw [hv] at h
      obtain ⟨hnodup, hfields⟩ := ih (Dict.nodup_keys_set hstart field value) h
      refine ⟨hnodup, fun x => ?_⟩
      have hx := hfields x
      by_cases hmem : x ∈ fields
      · rw [if_pos hmem] at hx
        rw [if_pos (List.mem_cons_of_mem _ hmem)]
        exact hx
      · rw [if_neg hmem, Dict.lookup_set] at hx
        by_cases hxf : x = field
        · subst hxf
          rw [if_pos List.mem_cons_self]
          rw [if_pos rfl] at hx
          exact ⟨value, hv, hx⟩
        · rw [if_neg (by simp [hxf, hmem]), hx, if_neg hxf]

theorem strip_ne_of_mem_nonBlank {items : List String} {text : String}
    (h : text ∈ py.nonBlank items) : py.strip text = text ∧ py.strip text ≠ "" := by
  obtain ⟨item, hitem, rfl⟩ := List.mem_map.mp h
  have hne : py.strip item ≠ "" := of_decide_eq_true (List.mem_filter.mp hitem).2
  rw [UnicodeLib.strip_strip]
  exact ⟨rfl, hne⟩

theorem nonBlank_nonBlank (items : List String) :
    py.nonBlank (py.nonBlank items) = py.nonBlank items := by
  rw [nonBlank_eq_map fun text htext => (strip_ne_of_mem_nonBlank htext).2]
  exact List.map_congr_left (fun text htext => (strip_ne_of_mem_nonBlank htext).1) |>.trans
    (List.map_id _)

theorem textList_of_textList {data data' : Dict} {field : String} {required required' : Bool}
    {values : List String} (h : py.textList data field required = .ok values)
    (hvalue : data'.get field = .arr (values.map .str)) (hne : required' = true → values ≠ []) :
    py.textList data' field required' = .ok values := by
  have hkept : py.nonBlank values = values := by
    unfold textList at h
    split at h
    · split at h
      · cases h
      · cases h
        rfl
    · split at h
      · cases h
      · split at h
        · cases h
        · cases h
          exact nonBlank_nonBlank _
    · cases h
  simp only [textList, hvalue, allStrings_map, hkept]
  cases required' with
  | false => rfl
  | true => simp [hne rfl]

theorem requiredText_of_requiredText {data data' : Dict} {field text : String}
    (h : py.requiredText data field = .ok text) (hvalue : data'.get field = .str text) :
    py.requiredText data' field = .ok text := by
  unfold requiredText at h
  split at h
  · split at h
    · cases h
    · rename_i hne
      cases h
      simp [requiredText, hvalue, hne]
  · cases h

/-- **What a patch brings passes.** -/
theorem fieldOk_of_patchField {expanded data : Dict} {field : String} {value : JsonValue}
    (h : py.patchField expanded field = .ok value) (hvalue : data.get field = value) :
    py.FieldOk data field := by
  unfold patchField at h
  unfold FieldOk
  split
  · rename_i hmem
    rw [if_pos hmem] at h
    obtain ⟨text, htext, rfl⟩ := map_eq_ok.mp h
    exact ⟨text, requiredText_of_requiredText htext hvalue⟩
  · rename_i hmem
    rw [if_neg hmem] at h
    split
    · rename_i hmem
      rw [if_pos hmem] at h
      split at h
      · cases h
      · rename_i values htext
        split at h
        · cases h
        · rename_i hlen
          cases h
          have hlen : values.length = 2 := by omega
          refine ⟨values, textList_of_textList htext hvalue fun _ hnil => ?_, hlen⟩
          rw [hnil, List.length_nil] at hlen
          omega
    · rename_i hmem
      rw [if_neg hmem] at h
      split
      · rename_i hmem
        rw [if_pos hmem] at h
        obtain ⟨values, hrich, rfl⟩ := map_eq_ok.mp h
        obtain ⟨htext, hdistinct⟩ := richList_eq_ok.mp hrich
        have htext : py.textList data field false = .ok values :=
          textList_of_textList htext hvalue (by simp)
        exact ⟨values, richList_eq_ok.mpr ⟨htext, hdistinct⟩⟩
      · trivial

/-! ## Soundness of the repair -/

theorem mem_of_mem_cardRepairFields {card : JsonValue} {field : String}
    (h : field ∈ py.cardRepairFields card) : field = "phonetic" ∨ field ∈ checkedFields := by
  cases card with
  | obj data =>
    simp only [cardRepairFields, List.mem_eraseDups, List.mem_append] at h
    rcases h with ((h | h) | h) | h
    · have hmem := (List.mem_filter.mp h).1
      simp only [List.mem_cons, List.not_mem_nil, or_false] at hmem
      rcases hmem with rfl | rfl | rfl <;> decide
    · split at h
      · cases h
      · rcases List.mem_pair.mp h with rfl | rfl <;> decide
    · exact .inl (List.mem_singleton.mp (List.mem_ite_nil_right.mp h).2)
    · rcases List.mem_pair.mp (List.mem_filter.mp h).1 with rfl | rfl <;> decide
  | _ =>
    simp only [cardRepairFields, List.mem_cons, List.not_mem_nil, or_false] at h
    rcases h with rfl | rfl | rfl | rfl | rfl <;> decide

theorem patchFields_of_validateCardPatch {data : JsonValue} {fields : List String} {patch : Dict}
    (h : py.validateCardPatch data fields = .ok patch) :
    py.patchFields (expandCardAliases (entriesOf data)) [] fields = .ok patch := by
  cases data with
  | obj data =>
    simp only [validateCardPatch] at h
    split at h
    · cases h
    · split at h
      · cases h
      · rename_i hpatch
        split at h
        · cases h
        · cases h
          exact hpatch
  | _ => cases h

/-- **Card repair is sound.**  A card without fields to repair is valid; and so
is a card with an accepted repair of its fields put over it. -/
theorem card_repair_sound (py : PyText) (card : JsonValue) :
    (py.cardRepairFields card = [] → ∃ valid, py.validateCard card = .ok valid) ∧
      ∀ (answer : JsonValue) (patch : Dict),
        py.validateCardPatch answer (py.cardRepairFields card) = .ok patch →
          ∃ valid, py.validateCard (repaired card patch) = .ok valid := by
  constructor
  · intro hnil
    cases card with
    | obj data =>
      refine (validateCard_iff data).mpr fun field hfield => ?_
      have hmem : field ∉ py.cardRepairFields (.obj data) := by
        rw [hnil]
        simp
      have hok := fieldOk_of_not_mem hfield hmem
      exact hok
    | _ => simp [cardRepairFields] at hnil
  · intro answer patch hpatch
    have hstart : (([] : Dict).map Prod.fst).Nodup := List.nodup_nil
    obtain ⟨hnodup, hspec⟩ :=
      patchFields_spec hstart (patchFields_of_validateCardPatch hpatch)
    have hread : ∀ field, (Dict.update (entriesOf card) patch).lookup field =
        (patch.lookup field).or ((entriesOf card).lookup field) :=
      Dict.lookup_update _ hnodup
    rw [repaired_eq, validateCard_iff]
    intro field hfield
    by_cases hmem : field ∈ py.cardRepairFields card
    · have hx := hspec field
      rw [if_pos hmem] at hx
      obtain ⟨value, hvalue, hlookup⟩ := hx
      refine fieldOk_of_patchField hvalue ?_
      simp [Dict.get, lookup_expandCardAliases, hread, hlookup]
    · -- Neither the field nor its alias is in the patch: the card's own entry is read.
      have hpatch_none : ∀ x, x ∉ py.cardRepairFields card → patch.lookup x = none := by
        intro x hx
        have := hspec x
        rwa [if_neg hx] at this
      have halias : ∀ c, aliasOf field = some c → patch.lookup c = none := by
        intro c hc
        refine hpatch_none c fun hrepair => ?_
        have hcanon : ∀ field ∈ checkedFields, ∀ c, aliasOf field = some c →
            c ≠ "phonetic" ∧ c ∉ checkedFields := by decide
        rcases mem_of_mem_cardRepairFields hrepair with h | h
        · exact (hcanon field hfield c hc).1 h
        · exact (hcanon field hfield c hc).2 h
      refine (fieldOk_congr ?_).mpr (fieldOk_of_not_mem hfield hmem)
      simp only [Dict.get, lookup_expandCardAliases, hread, hpatch_none field hmem,
        Option.none_or]
      cases hc : aliasOf field with
      | none => rfl
      | some c => simp [halias c hc]

/-- A card with a blank meaning and one example, by compact names. -/
def blankMeaning : JsonValue := .obj [
  ("w", .str "tree"), ("m", .str " "), ("x", .str "a plant"),
  ("e", .arr [.str "a tree"]), ("t", .arr [.str "one", .str "two"])]

/-- An answer to the request for its fields. -/
def meaningAndExamples : JsonValue := .obj [
  ("fa_meaning", .str " plant "), ("examples", .arr [.str "a tree", .str "trees "]),
  ("example_translations", .arr [.str "one", .str "two"])]

theorem blankMeaning_repaired :
    PyText.ascii.cardRepairFields blankMeaning =
        ["fa_meaning", "examples", "example_translations"] ∧
      ∃ patch valid, PyText.ascii.validateCardPatch meaningAndExamples
          ["fa_meaning", "examples", "example_translations"] = .ok patch ∧
        PyText.ascii.validateCard (repaired blankMeaning patch) = .ok valid := by
  have hfields : PyText.ascii.cardRepairFields blankMeaning =
      ["fa_meaning", "examples", "example_translations"] := by decide +kernel
  have hpatch : PyText.ascii.validateCardPatch meaningAndExamples
      (PyText.ascii.cardRepairFields blankMeaning) =
      .ok [("fa_meaning", .str "plant"), ("examples", .arr [.str "a tree", .str "trees"]),
        ("example_translations", .arr [.str "one", .str "two"])] := by
    rw [hfields]
    rfl
  obtain ⟨valid, hvalid⟩ := (card_repair_sound .ascii blankMeaning).2 meaningAndExamples _ hpatch
  exact ⟨hfields, _, valid, hfields ▸ hpatch, hvalid⟩

end PyText

end HamZaboon
