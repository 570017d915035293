import HamZaboon.Factory.Registry
import HamZaboon.Library.Chunks

/-! # When variants of a gloss are one pre-card

`normalize_gloss` strips the periods after it has put the words together, so a gloss
whose last word is periods only keeps the space before them, and a gloss of periods only
becomes empty.  Everywhere else case, spaces and closing periods make no difference
(`glossIdentity_iff`).
-/

namespace HamZaboon
open Library

/-- What the identity of a gloss needs of `str.isspace` and `str.lower`. -/
structure GlossLaws (lib : RegistryLib) : Prop where
  space : lib.isSpace ' ' = true
  lower_blank : ∀ s : String, (∀ c ∈ s.toList, lib.isSpace c = true) → lib.lower s = s
  lower_lowered : ∀ s : String,
    (∀ c ∈ s.toList, c = ' ' ∨ ∃ t : String, c ∈ (lib.lower t).toList) → lib.lower s = s

theorem glossLaws_ascii : GlossLaws .ascii where
  space := by decide
  lower_blank s hs := by
    have hmap : s.toList.map Char.toLower = s.toList := by
      refine (List.map_congr_left fun c hc => ?_).trans (List.map_id _)
      have hspace : c.isWhitespace = true := hs c hc
      simp only [Char.isWhitespace, Bool.or_eq_true, decide_eq_true_eq] at hspace
      rcases hspace with (((rfl | rfl) | rfl) | rfl) <;> decide
    exact (congrArg String.ofList hmap).trans String.ofList_toList
  lower_lowered s hs := by
    have hmap : s.toList.map Char.toLower = s.toList := by
      refine (List.map_congr_left fun c hc => ?_).trans (List.map_id _)
      rcases hs c hc with rfl | ⟨t, ht⟩
      · decide
      · obtain ⟨d, -, rfl⟩ := List.mem_map.mp (String.toList_ofList ▸ ht)
        exact (toLower_facts d).1
    exact (congrArg String.ofList hmap).trans String.ofList_toList

namespace RegistryLib
variable (lib : RegistryLib) {lib' : RegistryLib} {g g' : String}

/-- `s.lower().split()`. -/
def lowerWords (g : String) : List (List Char) := chunks lib.isSpace (lib.lower g).toList

/-- What is left of a gloss when case, spaces and closing periods do not count. -/
def glossCore (g : String) : List Char :=
  (join ' ' (lib.lowerWords g)).rdropWhile fun c => c = '.' || c = ' '

/-- The glosses differ in letter case, spaces or closing periods only. -/
def SameGloss (g g' : String) : Prop := lib.glossCore g = lib.glossCore g'

/-- The last word is not periods only. -/
def EndsInWord (g : String) : Prop :=
  ∃ last ∈ (lib.lowerWords g).getLast?, ∃ c ∈ last, c ≠ '.'

/-- The text that `normalize_gloss` returns. -/
def glossText (g : String) : List Char := (join ' ' (lib.lowerWords g)).rdropWhile (· = '.')

/-! ## The normal form -/

theorem toList_collapse (s : String) :
    (lib.collapse s).toList = join ' ' (chunks lib.isSpace s.toList) := by
  have hfilter : (s.toList.splitOnP lib.isSpace).filter (· ≠ []) = chunks lib.isSpace s.toList :=
    List.filter_congr fun run _ => by cases run <;> rfl
  rw [UnicodeLib.collapse, hfilter]
  simp [String.toList_intercalate, join, Function.comp_def]

theorem isBlank_iff : lib.isBlank (some g) = true ↔ ∀ c ∈ g.toList, lib.isSpace c = true := by
  rw [isBlank, Option.all_some, decide_eq_true_eq, UnicodeLib.strip, String.ofList_eq_empty_iff,
    trim_eq_nil_iff]

theorem normalizeGloss_eq (h : lib.isBlank (some g) = false) :
    lib.normalizeGloss (some g) = .ok (String.ofList (lib.glossText g)) := by
  rw [normalizeGloss, h, if_neg Bool.false_ne_true, rstripDots, Option.getD_some, toList_collapse]
  rfl

/-! ## The last word -/

theorem isChunk_of_mem_lowerWords {run : List Char} (h : run ∈ lib.lowerWords g) :
    IsChunk lib.isSpace run := (isChunk_of_mem_chunks h).1

theorem rdropWhile_dots_spaces (laws : GlossLaws lib) {run : List Char}
    (h : IsChunk lib.isSpace run) :
    (run.rdropWhile fun c => c = '.' || c = ' ') = run.rdropWhile (· = '.') :=
  rdropWhile_congr fun c hc => by
    have hspace : c ≠ ' ' := by
      rintro rfl
      exact Bool.noConfusion ((h.2 ' ' hc).symm.trans laws.space)
    simp [hspace]

/-- The words around the last one. -/
inductive WordsCase (g : String) : Prop
  | none (h : lib.lowerWords g = [])
  | dots (init : List (List Char)) (last : List Char) (h : lib.lowerWords g = init ++ [last])
      (hnil : last.rdropWhile (· = '.') = [])
  | word (init : List (List Char)) (last : List Char) (h : lib.lowerWords g = init ++ [last])
      (hne : last.rdropWhile (· = '.') ≠ [])

theorem wordsCase (g : String) : lib.WordsCase g := by
  rcases List.eq_nil_or_concat (lib.lowerWords g) with h | ⟨init, last, h⟩
  · exact .none h
  · rw [List.concat_eq_append] at h
    by_cases hnil : last.rdropWhile (· = '.') = []
    · exact .dots init last h hnil
    · exact .word init last h hnil

theorem endsInWord_iff {init : List (List Char)} {last : List Char}
    (h : lib.lowerWords g = init ++ [last]) :
    lib.EndsInWord g ↔ last.rdropWhile (· = '.') ≠ [] := by
  rw [EndsInWord, h, List.getLast?_concat, Ne, List.rdropWhile_eq_nil_iff]
  simp

theorem lower_joined (laws : GlossLaws lib) {l : List Char}
    (h : ∀ c ∈ l, c = ' ' ∨ ∃ run ∈ lib.lowerWords g, c ∈ run) :
    lib.lower (String.ofList l) = String.ofList l := by
  refine laws.lower_lowered _ fun c hc => ?_
  rw [String.toList_ofList] at hc
  rcases h c hc with rfl | ⟨run, hrun, hc⟩
  · exact .inl rfl
  · exact .inr ⟨g, (isChunk_of_mem_chunks hrun).2 c hc⟩

theorem lowerWords_of_runs (laws : GlossLaws lib) {runs : List (List Char)} {l : List Char}
    (hruns : chunks lib.isSpace l = runs)
    (h : ∀ c ∈ l, c = ' ' ∨ ∃ run ∈ lib.lowerWords g, c ∈ run) :
    lib.lowerWords (String.ofList l) = runs := by
  rw [lowerWords, lib.lower_joined laws h, String.toList_ofList, hruns]

theorem lowerWords_of_isBlank (laws : GlossLaws lib) (h : lib.isBlank (some g) = true) :
    lib.lowerWords g = [] := by
  have hspaces := lib.isBlank_iff.mp h
  rw [lowerWords, laws.lower_blank g hspaces, chunks_eq_nil hspaces]

/-! ## Normalizing twice -/

/-- `normalize_gloss` returns a text of its own for the gloss. -/
def Normalizes (g : String) : Prop :=
  ∃ n, lib.normalizeGloss (some g) = .ok n ∧ n ≠ "" ∧ lib.normalizeGloss (some n) = .ok n

theorem glossText_of_word {init : List (List Char)} {last : List Char}
    (h : lib.lowerWords g = init ++ [last]) (hne : last.rdropWhile (· = '.') ≠ []) :
    lib.glossText g = joinBefore ' ' init ++ last.rdropWhile (· = '.') := by
  rw [glossText, h, join_append_singleton, rdropWhile_append_of_ne_nil hne]

theorem glossText_of_dots {init : List (List Char)} {last : List Char}
    (h : lib.lowerWords g = init ++ [last]) (hnil : last.rdropWhile (· = '.') = []) :
    lib.glossText g = joinBefore ' ' init := by
  rw [glossText, h, join_append_singleton, rdropWhile_append_of_nil hnil]
  rcases List.eq_nil_or_concat init with rfl | ⟨before, w, rfl⟩
  · rfl
  · rw [List.concat_eq_append, joinBefore_append_singleton]
    exact List.rdropWhile_concat_neg _ _ _ (by decide)

theorem normalizes_of_word (laws : GlossLaws lib) {init : List (List Char)} {last : List Char}
    (h : lib.lowerWords g = init ++ [last]) (hne : last.rdropWhile (· = '.') ≠ [])
    (hblank : lib.isBlank (some g) = false) : lib.Normalizes g := by
  have hlast : ∀ c ∈ last.rdropWhile (· = '.'), c ∈ last :=
    fun c hc => (List.rdropWhile_prefix _ _).mem hc
  have hchunk : ∀ run ∈ init ++ [last], IsChunk lib.isSpace run :=
    fun run hrun => lib.isChunk_of_mem_lowerWords (h ▸ hrun)
  have hwords : lib.lowerWords (String.ofList (lib.glossText g)) =
      init ++ [last.rdropWhile (· = '.')] := by
    rw [lib.glossText_of_word h hne]
    refine lib.lowerWords_of_runs (g := g) laws ?_ fun c hc => ?_
    · rw [chunks_joinBefore laws.space fun run hrun => hchunk run (List.mem_append_left _ hrun),
        chunks_of_isChunk ⟨hne, fun c hc => (hchunk last (by simp)).2 c (hlast c hc)⟩]
    · rw [h]
      rcases List.mem_append.mp hc with hc | hc
      · rcases mem_joinBefore hc with hsep | ⟨run, hrun, hc⟩
        · exact .inl hsep
        · exact .inr ⟨run, List.mem_append_left _ hrun, hc⟩
      · exact .inr ⟨last, by simp, hlast c hc⟩
  have hagain : lib.glossText (String.ofList (lib.glossText g)) = lib.glossText g := by
    have hkeep := List.rdropWhile_idempotent (fun c => decide (c = '.')) last
    rw [lib.glossText_of_word hwords (by rwa [hkeep]), hkeep, lib.glossText_of_word h hne]
  have hfull : lib.isBlank (some (String.ofList (lib.glossText g))) = false := by
    refine eq_false_of_ne_true fun hblank' => ?_
    have hnil := lib.lowerWords_of_isBlank laws hblank'
    rw [hwords] at hnil
    simp at hnil
  refine ⟨_, lib.normalizeGloss_eq hblank, fun hempty => ?_, ?_⟩
  · rw [String.ofList_eq_empty_iff, lib.glossText_of_word h hne, List.append_eq_nil_iff] at hempty
    exact hne hempty.2
  · rw [lib.normalizeGloss_eq hfull, hagain]

theorem not_normalizes_of_dots (laws : GlossLaws lib) {init : List (List Char)} {last : List Char}
    (h : lib.lowerWords g = init ++ [last]) (hnil : last.rdropWhile (· = '.') = [])
    (hblank : lib.isBlank (some g) = false) : ¬lib.Normalizes g := by
  rintro ⟨n, hn, hne, hagain⟩
  rw [lib.normalizeGloss_eq hblank, lib.glossText_of_dots h hnil] at hn
  obtain rfl := Except.ok.inj hn
  have hchunk : ∀ run ∈ init, IsChunk lib.isSpace run := fun run hrun =>
    lib.isChunk_of_mem_lowerWords (h ▸ List.mem_append_left _ hrun)
  have hwords : lib.lowerWords (String.ofList (joinBefore ' ' init)) = init := by
    refine lib.lowerWords_of_runs (g := g) laws ?_ fun c hc => ?_
    · have hruns := chunks_joinBefore laws.space hchunk []
      rwa [List.append_nil, chunks_nil, List.append_nil] at hruns
    · rw [h]
      rcases mem_joinBefore hc with hsep | ⟨run, hrun, hc⟩
      · exact .inl hsep
      · exact .inr ⟨run, List.mem_append_left _ hrun, hc⟩
  have hfull : lib.isBlank (some (String.ofList (joinBefore ' ' init))) = false := by
    refine eq_false_of_ne_true fun hblank' => hne ?_
    rw [← hwords, lib.lowerWords_of_isBlank laws hblank']
    rfl
  rw [lib.normalizeGloss_eq hfull, glossText, hwords] at hagain
  have hsame := String.ofList_injective (Except.ok.inj hagain)
  rcases List.eq_nil_or_concat init with rfl | ⟨before, w, rfl⟩
  · exact hne rfl
  · rw [List.concat_eq_append, joinBefore_append_singleton] at hsame
    have hlen := (List.rdropWhile_prefix (fun c => decide (c = '.'))
      (join ' ' (before ++ [w]))).length_le
    rw [hsame] at hlen
    simp at hlen

theorem normalizes_iff (laws : GlossLaws lib) (hblank : lib.isBlank (some g) = false) :
    lib.Normalizes g ↔ lib.EndsInWord g := by
  cases lib.wordsCase g with
  | none h =>
    refine iff_of_false ?_ ?_
    · rintro ⟨n, hn, hne, -⟩
      rw [lib.normalizeGloss_eq hblank, glossText, h] at hn
      exact hne (Except.ok.inj hn).symm
    · rintro ⟨last, hlast, -⟩
      rw [h] at hlast
      cases hlast
  | dots init last h hnil =>
    exact iff_of_false (lib.not_normalizes_of_dots laws h hnil hblank)
      fun hends => (lib.endsInWord_iff h).mp hends hnil
  | word init last h hne =>
    exact iff_of_true (lib.normalizes_of_word laws h hne hblank) ((lib.endsInWord_iff h).mpr hne)

/-! ## The same pre-card -/

theorem glossCore_of_endsInWord (laws : GlossLaws lib) (h : lib.EndsInWord g) :
    lib.glossCore g = lib.glossText g ∧ lib.glossCore g ≠ [] := by
  cases lib.wordsCase g with
  | none hnil =>
    obtain ⟨last, hlast, -⟩ := h
    rw [hnil] at hlast
    cases hlast
  | dots init last hwords hnil => exact absurd hnil ((lib.endsInWord_iff hwords).mp h)
  | word init last hwords hne =>
    have hlast := lib.rdropWhile_dots_spaces laws
      (lib.isChunk_of_mem_lowerWords (hwords ▸ List.mem_append_right init List.mem_cons_self))
    have hcore : lib.glossCore g = joinBefore ' ' init ++ last.rdropWhile (· = '.') := by
      rw [glossCore, hwords, join_append_singleton,
        rdropWhile_append_of_ne_nil (by rwa [hlast]), hlast]
    exact ⟨hcore.trans (lib.glossText_of_word hwords hne).symm, by simp [hcore, hne]⟩

theorem glossCore_of_isBlank (laws : GlossLaws lib) (h : lib.isBlank (some g) = true) :
    lib.glossCore g = [] := by
  rw [glossCore, lib.lowerWords_of_isBlank laws h]
  rfl

/-- The gloss is blank, or its last word is not periods only. -/
def Closes (g : String) : Prop := lib.isBlank (some g) = true ∨ lib.EndsInWord g

theorem precardIdFor_congr (laws : GlossLaws lib) (lemmaKey : String) (hsame : lib.SameGloss g g')
    (h : lib.Closes g) (h' : lib.Closes g') :
    lib.precardIdFor lemmaKey (some g) = lib.precardIdFor lemmaKey (some g') := by
  have hblank : ∀ {a b : String}, lib.SameGloss a b → lib.Closes a →
      lib.isBlank (some b) = true → lib.isBlank (some a) = true := by
    intro a b hab ha hb
    refine ha.resolve_right fun hends => ?_
    exact (lib.glossCore_of_endsInWord laws hends).2 (hab.trans (lib.glossCore_of_isBlank laws hb))
  cases hg : lib.isBlank (some g) with
  | true =>
    rw [precardIdFor, precardIdFor, if_pos hg, if_pos (hblank hsame.symm h' hg)]
  | false =>
    have hg' : lib.isBlank (some g') = false :=
      eq_false_of_ne_true fun hb => Bool.noConfusion (hg.symm.trans (hblank hsame h hb))
    have hends : lib.EndsInWord g := h.resolve_left (by simp [hg])
    have hends' : lib.EndsInWord g' := h'.resolve_left (by simp [hg'])
    have htext : lib.glossText g = lib.glossText g' :=
      (lib.glossCore_of_endsInWord laws hends).1.symm.trans
        (hsame.trans (lib.glossCore_of_endsInWord laws hends').1)
    rw [precardIdFor, precardIdFor, hg, hg', if_neg Bool.false_ne_true, if_neg Bool.false_ne_true,
      lib.normalizeGloss_eq hg, lib.normalizeGloss_eq hg', htext]

end RegistryLib

namespace FactoryRegistry
variable {lib : RegistryLib} {s s' : FactoryRegistry}

theorem addPrecard_of_has {lang lemmaKey pid g : String}
    (hid : lib.precardIdFor lemmaKey (some g) = .ok pid) (hhas : s.precards.has (lang, pid) = true)
    (cefr legacy run : Option String) :
    ∃ s', s.addPrecard lib lang lemmaKey (some g) cefr legacy run = .ok (s', false) ∧
      s'.precards = s.precards := by
  have hsame : s.precards.insertOrIgnore
      ⟨lang, pid, lemmaKey, g, cefr, .active, none, none, run⟩ = s.precards := dif_pos hhas
  obtain ⟨lemmaAliases, hadd⟩ : ∃ lemmaAliases,
      s.addPrecard lib lang lemmaKey (some g) cefr legacy run =
        .ok ({ s with precards := s.precards, lemmaAliases := lemmaAliases }, false) := by
    rw [← hsame]
    refine ⟨_, bind_eq_ok.mpr ⟨pid, hid, congrArg Except.ok (Prod.ext rfl ?_)⟩⟩
    rw [hhas]
    rfl
  exact ⟨_, hadd, rfl⟩

theorem has_of_addPrecard {lang lemmaKey g : String} {cefr legacy run : Option String}
    {isNew : Bool}
    (h : s.addPrecard lib lang lemmaKey (some g) cefr legacy run = .ok (s', isNew)) :
    ∃ pid, lib.precardIdFor lemmaKey (some g) = .ok pid ∧ s'.precards.has (lang, pid) = true := by
  obtain ⟨pid, hpid, h⟩ := bind_eq_ok.mp h
  obtain ⟨rfl, -⟩ := Prod.mk.inj (Except.ok.inj h)
  refine ⟨pid, hpid, ?_⟩
  rw [KeyedTable.has_iff_lookup]
  cases hold : s.precards.lookup (lang, pid) with
  | none => exact ⟨_, by rw [KeyedTable.lookup_insertOrIgnore, hold, if_pos rfl, Option.none_or]⟩
  | some row => exact ⟨row, by rw [KeyedTable.lookup_insertOrIgnore, hold, Option.some_or]⟩

end FactoryRegistry

/-- What makes a gloss the identity of its pre-card, for two glosses of one lemma. -/
structure GlossIdentity (lib : RegistryLib) (lemmaKey g g' : String) : Prop where
  normalizes : lib.isBlank (some g) = false → lib.Normalizes g
  normalizes' : lib.isBlank (some g') = false → lib.Normalizes g'
  sameId : lib.precardIdFor lemmaKey (some g) = lib.precardIdFor lemmaKey (some g')
  noRow : ∀ (s s' : FactoryRegistry) (lang : String) (cefr legacy run : Option String)
    (isNew : Bool), s.addPrecard lib lang lemmaKey (some g) cefr legacy run = .ok (s', isNew) →
    ∀ cefr' legacy' run' : Option String, ∃ s'' : FactoryRegistry,
      s'.addPrecard lib lang lemmaKey (some g') cefr' legacy' run' = .ok (s'', false) ∧
        s''.precards = s'.precards

/-- Variants of a gloss are one pre-card exactly when neither ends in a word of periods. -/
theorem glossIdentity_iff {lib : RegistryLib} (laws : GlossLaws lib) (lemmaKey : String)
    {g g' : String} (hsame : lib.SameGloss g g') :
    GlossIdentity lib lemmaKey g g' ↔ lib.Closes g ∧ lib.Closes g' := by
  have hcloses : ∀ t, lib.Closes t ↔ (lib.isBlank (some t) = false → lib.Normalizes t) := by
    intro t
    cases ht : lib.isBlank (some t) with
    | true => simp [RegistryLib.Closes, ht]
    | false => simp [RegistryLib.Closes, ht, lib.normalizes_iff laws ht]
  constructor
  · intro h
    exact ⟨(hcloses g).mpr h.normalizes, (hcloses g').mpr h.normalizes'⟩
  · rintro ⟨h, h'⟩
    have hid := lib.precardIdFor_congr laws lemmaKey hsame h h'
    exact {
      normalizes := (hcloses g).mp h
      normalizes' := (hcloses g').mp h'
      sameId := hid
      noRow := by
        intro s s' lang cefr legacy run isNew hadd
        obtain ⟨pid, hpid, hhas⟩ := FactoryRegistry.has_of_addPrecard hadd
        exact FactoryRegistry.addPrecard_of_has (hid ▸ hpid) hhas }

/-- "A Pet." and "a  pet" of a cat are one pre-card. -/
theorem glossIdentity_pet : GlossIdentity .ascii "cat|noun" "A Pet." "a  pet" :=
  (glossIdentity_iff glossLaws_ascii "cat|noun" (by unfold RegistryLib.SameGloss; decide +kernel)).mpr
    ⟨.inr ⟨"pet.".toList, by decide +kernel, 'p', by decide, by decide⟩,
      .inr ⟨"pet".toList, by decide +kernel, 'p', by decide, by decide⟩⟩

/-- "a pet ." keeps a space that a second call strips, and is a pre-card of its own beside
"a pet.". -/
theorem spaced_period_splits :
    RegistryLib.ascii.SameGloss "a pet ." "a pet." ∧
      RegistryLib.ascii.normalizeGloss (some "a pet .") = .ok "a pet " ∧
      RegistryLib.ascii.normalizeGloss (some "a pet ") = .ok "a pet" ∧
      RegistryLib.ascii.precardIdFor "cat|noun" (some "a pet .") ≠
        RegistryLib.ascii.precardIdFor "cat|noun" (some "a pet.") ∧
      ¬GlossIdentity .ascii "cat|noun" "a pet ." "a pet." := by
  have hids : RegistryLib.ascii.precardIdFor "cat|noun" (some "a pet .") ≠
      RegistryLib.ascii.precardIdFor "cat|noun" (some "a pet.") := by decide +kernel
  refine ⟨?_, by decide +kernel, by decide +kernel, hids, fun h => hids h.sameId⟩
  unfold RegistryLib.SameGloss
  decide +kernel

end HamZaboon
