import HamZaboon.Cards.Repair

/-! # Compact names

An object that spells some of its canonical names by their aliases reads the
same after expansion.  The check of a whole card and the list of fields to
repair read nothing else.  The check of a patch also compares the set of keys,
where an alias stays beside the name it stands for.
-/

namespace HamZaboon
open Library

/-- The name an entry gets when the chosen canonical names are made compact. -/
def spelling (chosen : List String) (key : String) : String :=
  if key ∈ chosen then (aliasOf key).getD key else key

/-- The object with the chosen canonical names replaced by their aliases. -/
def respell (chosen : List String) (data : Dict) : Dict := data.mapKeys (spelling chosen)

theorem mem_of_aliasOf {key c : String} (h : aliasOf key = some c) :
    (c, key) ∈ compactCardFields := by
  obtain ⟨names, hnames, rfl⟩ := Option.map_eq_some_iff.mp h
  have hkey : names.2 = key := by simpa using List.find?_some hnames
  subst hkey
  exact List.mem_of_find?_eq_some hnames

theorem aliasOf_of_mem {names : String × String} (h : names ∈ compactCardFields) :
    aliasOf names.2 = some names.1 := by
  revert names
  decide

theorem compactCardFields_disjoint : ∀ a ∈ compactCardFields, ∀ b ∈ compactCardFields,
    a.1 ≠ b.2 ∧ (a.1 = b.1 → a = b) := by
  decide

theorem spelling_eq (chosen : List String) (key : String) :
    spelling chosen key = key ∨
      key ∈ chosen ∧ (spelling chosen key, key) ∈ compactCardFields := by
  unfold spelling
  split
  · rename_i hmem
    cases h : aliasOf key with
    | none => exact .inl rfl
    | some c => exact .inr ⟨hmem, mem_of_aliasOf h⟩
  · exact .inl rfl

theorem spelling_of_mem {chosen : List String} {names : String × String}
    (h : names ∈ compactCardFields) (hmem : names.2 ∈ chosen) :
    spelling chosen names.2 = names.1 := by
  simp [spelling, hmem, aliasOf_of_mem h]

theorem spelling_alias {chosen : List String} {names : String × String}
    (h : names ∈ compactCardFields) : spelling chosen names.1 = names.1 := by
  rcases spelling_eq chosen names.1 with heq | ⟨-, hmem⟩
  · exact heq
  · exact absurd rfl (compactCardFields_disjoint _ h _ hmem).1

/-- **Reading a respelled object.**  Either both entries are where they were, or
the canonical one has moved to the alias, which was free. -/
theorem lookup_respell {chosen : List String} {data : Dict} {names : String × String}
    (h : names ∈ compactCardFields) (hnodup : ((respell chosen data).map Prod.fst).Nodup) :
    ((respell chosen data).lookup names.2 = data.lookup names.2 ∧
        (respell chosen data).lookup names.1 = data.lookup names.1) ∨
      ((respell chosen data).lookup names.2 = none ∧ data.lookup names.1 = none ∧
        (respell chosen data).lookup names.1 = data.lookup names.2) := by
  have hcanon : ∀ y, spelling chosen y = names.2 → y = names.2 := by
    intro y hy
    rcases spelling_eq chosen y with heq | ⟨-, hmem⟩
    · exact heq.symm.trans hy
    · exact absurd hy (compactCardFields_disjoint _ hmem _ h).1
  have halias : ∀ y, spelling chosen y = names.1 → y = names.1 ∨ y = names.2 ∧ y ∈ chosen := by
    intro y hy
    rcases spelling_eq chosen y with heq | ⟨hchosen, hmem⟩
    · exact .inl (heq.symm.trans hy)
    · have := (compactCardFields_disjoint _ hmem _ h).2 hy
      exact .inr ⟨congrArg Prod.snd this, hchosen⟩
  by_cases hmoved : names.2 ∈ chosen ∧ names.2 ∈ data.map Prod.fst
  · obtain ⟨hchosen, hkey⟩ := hmoved
    have hspell := spelling_of_mem h hchosen
    have hfree : names.1 ∉ data.map Prod.fst := by
      intro hmem
      rw [respell, Dict.keys_mapKeys] at hnodup
      have := List.inj_on_of_nodup_map hnodup hmem hkey
        ((spelling_alias h).trans hspell.symm)
      exact (compactCardFields_disjoint _ h _ h).1 this
    refine .inr ⟨?_, ?_, ?_⟩
    · rw [← Option.not_isSome_iff_eq_none, Dict.isSome_lookup, respell, Dict.keys_mapKeys]
      intro hmem
      obtain ⟨y, -, hy⟩ := List.mem_map.mp hmem
      rw [hcanon y hy, hspell] at hy
      exact (compactCardFields_disjoint _ h _ h).1 hy
    · rwa [← Option.not_isSome_iff_eq_none, Dict.isSome_lookup]
    · refine Dict.lookup_mapKeys fun y hmem => ⟨fun hy => ?_, fun hy => hy ▸ hspell⟩
      rcases halias y hy with rfl | hy
      · exact absurd hmem hfree
      · exact hy.1
  · refine .inl ⟨Dict.lookup_mapKeys fun y hmem => ⟨hcanon y, ?_⟩,
      Dict.lookup_mapKeys fun y hmem => ⟨fun hy => ?_, ?_⟩⟩
    · rintro rfl
      have hchosen : names.2 ∉ chosen := fun hchosen => hmoved ⟨hchosen, hmem⟩
      simp [spelling, hchosen]
    · rcases halias y hy with hy | ⟨rfl, hchosen⟩
      · exact hy
      · exact absurd ⟨hchosen, hmem⟩ hmoved
    · rintro rfl
      exact spelling_alias h

theorem lookup_expand_respell {chosen : List String} {data : Dict} {names : String × String}
    (h : names ∈ compactCardFields) (hnodup : ((respell chosen data).map Prod.fst).Nodup) :
    (expandCardAliases (respell chosen data)).lookup names.2 =
      (expandCardAliases data).lookup names.2 := by
  rw [lookup_expandCardAliases, lookup_expandCardAliases, aliasOf_of_mem h]
  rcases lookup_respell h hnodup with ⟨hcanon, halias⟩ | ⟨hcanon, hfree, halias⟩
  · simp [hcanon, halias]
  · simp [hcanon, hfree, halias]

def canonicalFields : List String := compactCardFields.map Prod.snd

theorem get_expand_respell {chosen : List String} {data : Dict}
    (hnodup : ((respell chosen data).map Prod.fst).Nodup) {field : String}
    (hfield : field ∈ canonicalFields) :
    (expandCardAliases (respell chosen data)).get field = (expandCardAliases data).get field := by
  obtain ⟨names, hnames, rfl⟩ := List.mem_map.mp hfield
  rw [Dict.get, lookup_expand_respell hnames hnodup, Dict.get]

theorem get_ph_respell {chosen : List String} {data : Dict}
    (hnodup : ((respell chosen data).map Prod.fst).Nodup)
    (hnull : (expandCardAliases data).get "phonetic" = .null) :
    (expandCardAliases (respell chosen data)).get "ph" = (expandCardAliases data).get "ph" := by
  have hph : aliasOf "ph" = none := by decide
  simp only [Dict.get, lookup_expandCardAliases, hph, Option.bind_none, Option.or_none] at hnull ⊢
  have hname : ("ph", "phonetic") ∈ compactCardFields := by decide
  rcases lookup_respell hname hnodup with ⟨-, halias⟩ | ⟨-, hfree, halias⟩
  · rw [halias]
  · -- The pronunciation was `null` itself, and its alias had no entry.
    rw [halias, hfree]
    cases hold : data.lookup "phonetic" with
    | none => rfl
    | some value => simpa [hold] using hnull

namespace PyText
variable {py : PyText}

/-! ## The whole card and its missing fields -/

theorem validateCard_respell {chosen : List String} {data : Dict}
    (hnodup : ((respell chosen data).map Prod.fst).Nodup) :
    py.validateCard (.obj (respell chosen data)) = py.validateCard (.obj data) := by
  have hget : ∀ field ∈ canonicalFields, (expandCardAliases (respell chosen data)).get field =
      (expandCardAliases data).get field := fun _ => get_expand_respell hnodup
  simp only [validateCard, requiredText, textList, hget "word" (by decide),
    hget "phonetic" (by decide), hget "fa_meaning" (by decide), hget "fa_explanation" (by decide),
    hget "synonyms" (by decide), hget "antonyms" (by decide), hget "examples" (by decide),
    hget "example_translations" (by decide), hget "grammar_tip" (by decide)]

theorem cardRepairFields_respell {chosen : List String} {data : Dict}
    (hnodup : ((respell chosen data).map Prod.fst).Nodup) :
    py.cardRepairFields (.obj (respell chosen data)) = py.cardRepairFields (.obj data) := by
  have hget : ∀ field ∈ canonicalFields, (expandCardAliases (respell chosen data)).get field =
      (expandCardAliases data).get field := fun _ => get_expand_respell hnodup
  have htexts : ["word", "fa_meaning", "fa_explanation"].filter (fun field =>
        !py.isText ((expandCardAliases (respell chosen data)).get field)) =
      ["word", "fa_meaning", "fa_explanation"].filter fun field =>
        !py.isText ((expandCardAliases data).get field) := by
    refine List.filter_congr fun field hfield => ?_
    rw [hget field (by revert field; decide)]
  have hlists : ["synonyms", "antonyms"].filter
        (py.listNeedsRepair (expandCardAliases (respell chosen data))) =
      ["synonyms", "antonyms"].filter (py.listNeedsRepair (expandCardAliases data)) := by
    refine List.filter_congr fun field hfield => ?_
    have hcanon : field ∈ canonicalFields := by revert field; decide
    simp only [listNeedsRepair, richList, textList, hget field hcanon]
  simp only [cardRepairFields, htexts, hlists, hget "examples" (by decide),
    hget "example_translations" (by decide), hget "phonetic" (by decide)]
  cases hphonetic : (expandCardAliases data).get "phonetic" with
  | null => simp only [get_ph_respell hnodup hphonetic]
  | _ => rfl

/-! ## The patch -/

def patchable : List String := "phonetic" :: checkedFields

/-- The value of a field passes the check a patch gives it. -/
def FitsField (py : PyText) (data : Dict) (field : String) : Prop :=
  if field = "phonetic" then ∃ text, py.requiredText data field = .ok text
  else field ∈ checkedFields ∧ py.FieldOk data field

/-- The object, by canonical names alone, is a repair of the requested fields. -/
structure FitsPatch (py : PyText) (data : Dict) (fields : List String) : Prop where
  keys : ∀ key, key ∈ data.map Prod.fst ↔ key ∈ fields
  values : ∀ field ∈ fields, py.FitsField data field
  together : "examples" ∈ fields ↔ "example_translations" ∈ fields

theorem patchField_isOk {data : Dict} {field : String} :
    (∃ value, py.patchField data field = .ok value) ↔ py.FitsField data field := by
  by_cases hph : field = "phonetic"
  · subst hph
    have hfield : py.patchField data "phonetic" = (py.requiredText data "phonetic").map JsonValue.str := by
      rw [patchField, if_neg (by decide), if_neg (by decide), if_neg (by decide), if_pos rfl]
    rw [hfield, exists_map_eq_ok, FitsField, if_pos rfl]
  · have hnames : field ∈ checkedFields ↔ field ∈ ["word", "fa_meaning", "fa_explanation"] ∨
        field ∈ ["examples", "example_translations"] ∨ field ∈ ["synonyms", "antonyms"] := by
      simp [checkedFields, or_assoc]
    rw [FitsField, if_neg hph, hnames]
    unfold patchField FieldOk
    split
    · rename_i hmem
      simp only [hmem, true_or, true_and, exists_map_eq_ok]
    · rename_i htext
      split
      · rename_i hmem
        simp only [hmem, htext, true_or, false_or, true_and]
        cases py.textList data field true with
        | error e => simp
        | ok values => by_cases hlen : values.length = 2 <;> simp [hlen]
      · rename_i hpair
        split
        · rename_i hmem
          simp only [hmem, htext, hpair, false_or, true_and, exists_map_eq_ok]
        · rename_i hlist
          simp [htext, hpair, hlist]

theorem patchFields_isOk {expanded patch : Dict} {fields : List String} :
    (∃ result, py.patchFields expanded patch fields = .ok result) ↔
      ∀ field ∈ fields, ∃ value, py.patchField expanded field = .ok value := by
  induction fields generalizing patch with
  | nil => simp [patchFields]
  | cons field fields ih =>
    rw [patchFields, List.forall_mem_cons]
    cases hv : py.patchField expanded field with
    | error e => simp
    | ok value =>
      rw [ih]
      simp

theorem FitsField.mem_patchable {data : Dict} {field : String} (h : py.FitsField data field) :
    field ∈ patchable := by
  unfold FitsField at h
  split at h
  · rename_i hph
    exact hph ▸ List.mem_cons_self
  · exact List.mem_cons_of_mem _ h.1

theorem alias_not_mem {data : Dict} (h : data.map Prod.fst ⊆ patchable) :
    ∀ names ∈ compactCardFields, names.1 ∉ data.map Prod.fst := by
  have hdisjoint : ∀ names ∈ compactCardFields, names.1 ∉ patchable := by decide
  exact fun names hnames hmem => hdisjoint names hnames (h hmem)

theorem FitsPatch.keys_patchable {data : Dict} {fields : List String}
    (h : py.FitsPatch data fields) : data.map Prod.fst ⊆ patchable :=
  fun key hkey => (h.values key ((h.keys key).mp hkey)).mem_patchable

theorem validateCardPatch_isOk {data : Dict} {fields : List String} :
    (∃ patch, py.validateCardPatch (.obj data) fields = .ok patch) ↔ py.FitsPatch data fields := by
  constructor
  · rintro ⟨patch, h⟩
    have hpatch := patchFields_of_validateCardPatch h
    have hvalues : ∀ field ∈ fields, py.FitsField (expandCardAliases data) field :=
      fun field hfield => patchField_isOk.mp (patchFields_isOk.mp ⟨patch, hpatch⟩ field hfield)
    simp only [validateCardPatch] at h
    split at h
    · cases h
    · rename_i hkeys
      obtain ⟨hsub, hsup⟩ := not_not.mp hkeys
      split at h
      · cases h
      · split at h
        · cases h
        · rename_i htogether
          -- Every key is requested, and no alias can be.
          have hself : expandCardAliases data = data :=
            expandCardAliases_eq_self <| alias_not_mem fun key hkey =>
              (hvalues key (hsub (mem_keys_expand hkey))).mem_patchable
          rw [hself] at hsub hsup hvalues
          exact ⟨fun key => ⟨fun hkey => hsub hkey, fun hkey => hsup hkey⟩, hvalues, by tauto⟩
  · intro h
    have hself : expandCardAliases data = data :=
      expandCardAliases_eq_self (alias_not_mem h.keys_patchable)
    obtain ⟨patch, hpatch⟩ : ∃ patch, py.patchFields data [] fields = .ok patch :=
      patchFields_isOk.mpr fun field hfield => patchField_isOk.mpr (h.values field hfield)
    have hkeys : data.map Prod.fst ⊆ fields ∧ fields ⊆ data.map Prod.fst :=
      ⟨fun key hkey => (h.keys key).mp hkey, fun key hkey => (h.keys key).mpr hkey⟩
    have htogether := h.together
    refine ⟨patch, ?_⟩
    simp only [validateCardPatch, hself, hpatch]
    rw [if_neg (not_not.mpr hkeys), if_neg (by tauto)]

theorem not_fitsPatch_respell {chosen : List String} {data : Dict} {fields : List String}
    (h : respell chosen data ≠ data) : ¬ py.FitsPatch (respell chosen data) fields := by
  intro hfits
  refine h ?_
  have halias := alias_not_mem hfits.keys_patchable
  have hid : ∀ e ∈ data, (spelling chosen e.1, e.2) = e := by
    intro e he
    rcases spelling_eq chosen e.1 with heq | ⟨-, hmem⟩
    · rw [heq]
    · refine absurd (List.mem_map.mpr ⟨_, List.mem_map.mpr ⟨e, he, rfl⟩, rfl⟩) (halias _ hmem)
  exact (List.map_congr_left hid).trans (List.map_id _)

/-- **Compact names.**  Whatever canonical names of an object are replaced by
their aliases, the whole card and the fields to repair come out the same; the
patch does exactly when nothing was replaced or there was nothing to accept. -/
theorem aliases_transparent_iff (py : PyText) (data : Dict) (chosen fields : List String)
    (hnodup : ((respell chosen data).map Prod.fst).Nodup) :
    (py.validateCard (.obj (respell chosen data)) = py.validateCard (.obj data) ∧
      py.cardRepairFields (.obj (respell chosen data)) = py.cardRepairFields (.obj data) ∧
      (py.validateCardPatch (.obj (respell chosen data)) fields).toOption =
        (py.validateCardPatch (.obj data) fields).toOption) ↔
    respell chosen data = data ∨ ¬ py.FitsPatch data fields := by
  have hrejected : ∀ d : Dict, ¬ py.FitsPatch d fields →
      (py.validateCardPatch (.obj d) fields).toOption = none := by
    intro d hd
    cases hv : py.validateCardPatch (.obj d) fields with
    | error e => rfl
    | ok patch => exact absurd (validateCardPatch_isOk.mp ⟨patch, hv⟩) hd
  constructor
  · rintro ⟨-, -, hpatch⟩
    by_contra hor
    obtain ⟨hmoved, hfits⟩ := not_or.mp hor
    obtain ⟨patch, hv⟩ := validateCardPatch_isOk.mpr (not_not.mp hfits)
    rw [hrejected _ (not_fitsPatch_respell hmoved), hv] at hpatch
    cases hpatch
  · intro h
    refine ⟨validateCard_respell hnodup, cardRepairFields_respell hnodup, ?_⟩
    by_cases hsame : respell chosen data = data
    · rw [hsame]
    · rw [hrejected _ (not_fitsPatch_respell hsame),
        hrejected _ (h.resolve_left hsame)]

theorem word_alias_card_same :
    let data : Dict := [("word", .str "tree"), ("grammar_tip", .null)]
    PyText.ascii.validateCard (.obj (respell ["word"] data)) =
        PyText.ascii.validateCard (.obj data) ∧
      PyText.ascii.cardRepairFields (.obj (respell ["word"] data)) =
        PyText.ascii.cardRepairFields (.obj data) ∧
      (PyText.ascii.validateCardPatch (.obj (respell ["word"] data)) ["word"]).toOption =
        (PyText.ascii.validateCardPatch (.obj data) ["word"]).toOption := by
  intro data
  refine (aliases_transparent_iff .ascii data ["word"] ["word"] (by decide)).mpr (.inr fun h => ?_)
  have : "grammar_tip" ∈ ["word"] := (h.keys "grammar_tip").mp (by decide)
  exact absurd this (by decide)

/-- The patch of one word, by its name and by its alias. -/
theorem word_alias_rejected :
    let data : Dict := [("word", .str "tree")]
    ((respell ["word"] data).map Prod.fst).Nodup ∧
      PyText.ascii.validateCardPatch (.obj data) ["word"] = .ok data ∧
      PyText.ascii.validateCardPatch (.obj (respell ["word"] data)) ["word"] =
        .error .wrongFields ∧
      (PyText.ascii.validateCardPatch (.obj (respell ["word"] data)) ["word"]).toOption ≠
        (PyText.ascii.validateCardPatch (.obj data) ["word"]).toOption :=
  ⟨by decide, rfl, rfl, fun h => nomatch h⟩

end PyText

end HamZaboon
