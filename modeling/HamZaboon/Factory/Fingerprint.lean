import HamZaboon.Factory.Tickets

/-! # Reuse of finished lemmas

`upsert_lemma` merges the stage flags in code, and its SQL overwrites the other
columns with what the call was given: a call that only adds a flag writes NULL
over the level and the hash, and `fingerprint` reads the hash.
-/

namespace HamZaboon
open Library

namespace FactoryRegistry

/-- The stored level of a lemma. -/
def cefrOf (s : FactoryRegistry) (lang lemmaKey : String) : Option String :=
  (s.lemmas.lookup (lang, lemmaKey)).bind (·.cefr)

def packIs (s : FactoryRegistry) (lang pack : String) : Prop :=
  (s.languages.lookup lang).map (·.packVersion) = some pack

theorem fingerprint_eq_reuse {s : FactoryRegistry} {lang key pack code : String}
    {h : Option String} : s.fingerprint lang key pack code h = .reuse ↔
      s.packIs lang pack ∧ ∃ row, s.lemmas.lookup (lang, key) = some row ∧
        row.rawHash.getD "" = h.getD "" ∧
        row.stages.lookup "fp" = some (.str (pack ++ ":" ++ code)) := by
  unfold fingerprint packIs
  cases s.languages.lookup lang with
  | none => simp
  | some language =>
    simp only [Option.map_some, Option.some.injEq]
    by_cases hpack : language.packVersion = pack
    · rw [if_neg (not_not.mpr hpack)]
      cases s.lemmas.lookup (lang, key) with
      | none => simp
      | some row =>
        simp only [Option.some.injEq, exists_eq_left', hpack, true_and]
        by_cases hhash : row.rawHash.getD "" = h.getD ""
        · rw [if_neg (not_not.mpr hhash), Dict.get]
          simp only [hhash, true_and]
          cases row.stages.lookup "fp" with
          | none => simp
          | some value => cases value <;> simp
        · simp [hhash]
    · simp [hpack]

/-! ## One call -/

theorem lookup_fp_mergedStages (old stages : Dict) (pack code : String) :
    (mergedStages old stages (some pack) (some code)).lookup "fp" =
      some (.str (pack ++ ":" ++ code)) := by
  rw [mergedStages, Dict.lookup_set, if_pos rfl]

theorem lookup_mergedStages {old stages : Dict} {pack code : Option String} {flag : String}
    {v : JsonValue} (h : old.lookup flag = some v) (hfp : flag ≠ "fp")
    (hsame : ∀ e ∈ stages, e.1 = flag → e.2 = v) :
    (mergedStages old stages pack code).lookup flag = some v := by
  have hkept := Dict.lookup_update_of_same h hsame
  unfold mergedStages
  split
  · rwa [Dict.lookup_set, if_neg hfp]
  · exact hkept

theorem upsertLemma_eq_ok {lib : RegistryLib} {s s' : FactoryRegistry} {u : LemmaUpdate} :
    s.upsertLemma lib u = .ok s' ↔ ∃ key pos, lib.lemmaKeyFor u.word u.pos = .ok key ∧
      lib.normalizePos u.pos = .ok pos ∧ s' = s.putLemma u key pos := by
  rw [upsertLemma, bind_eq_ok]
  refine exists_congr fun key => ?_
  rw [bind_eq_ok]
  constructor
  · rintro ⟨hkey, pos, hpos, h⟩
    exact ⟨pos, hkey, hpos, (Except.ok.inj h).symm⟩
  · rintro ⟨pos, hkey, hpos, rfl⟩
    exact ⟨hkey, pos, hpos, rfl⟩

theorem normalizePos_of_key {lib : RegistryLib} {word pos : Option String} {key : String}
    (h : lib.lemmaKeyFor word pos = .ok key) : ∃ p, lib.normalizePos pos = .ok p := by
  obtain ⟨_, -, h⟩ := bind_eq_ok.mp h
  obtain ⟨p, hp, -⟩ := bind_eq_ok.mp h
  exact ⟨p, hp⟩

theorem step_upsertLemma {lib : RegistryLib} {s : FactoryRegistry} {u : LemmaUpdate} {key : String}
    (h : lib.lemmaKeyFor u.word u.pos = .ok key) :
    ∃ pos, s.step lib (.upsertLemma u) = s.putLemma u key pos := by
  obtain ⟨pos, hpos⟩ := normalizePos_of_key h
  have hok : s.upsertLemma lib u = .ok (s.putLemma u key pos) :=
    upsertLemma_eq_ok.mpr ⟨key, pos, h, hpos, rfl⟩
  refine ⟨pos, ?_⟩
  rw [step, hok]
  rfl

theorem stagesOf_putLemma (s : FactoryRegistry) (u : LemmaUpdate) (key pos : String) :
    (s.putLemma u key pos).stagesOf u.lang key =
      mergedStages (s.stagesOf u.lang key) u.stages u.packVersion u.codeHash := by
  rw [stagesOf, lookup_putLemma, if_pos ⟨rfl, rfl⟩]
  rfl

theorem cefrOf_putLemma (s : FactoryRegistry) (u : LemmaUpdate) (key pos : String) :
    (s.putLemma u key pos).cefrOf u.lang key = u.cefr := by
  rw [cefrOf, lookup_putLemma, if_pos ⟨rfl, rfl⟩]
  rfl

theorem fingerprint_putLemma {s : FactoryRegistry} {u : LemmaUpdate} {key pos pack code : String}
    (hpack : u.packVersion = some pack) (hcode : u.codeHash = some code) (h : Option String) :
    (s.putLemma u key pos).fingerprint u.lang key pack code h = .reuse ↔
      s.packIs u.lang pack ∧ u.rawHash.getD "" = h.getD "" := by
  have hfp : (s.updatedLemma u key pos).stages.lookup "fp" = some (.str (pack ++ ":" ++ code)) := by
    rw [updatedLemma, hpack, hcode]
    exact lookup_fp_mergedStages _ _ _ _
  rw [fingerprint_eq_reuse, lookup_putLemma, if_pos ⟨rfl, rfl⟩]
  constructor
  · rintro ⟨hp, row, hrow, hhash, -⟩
    obtain rfl := Option.some.inj hrow
    exact ⟨hp, hhash⟩
  · rintro ⟨hp, hhash⟩
    exact ⟨hp, _, rfl, hhash, hfp⟩

/-! ## A lemma's calls -/

/-- The call adds stage flags to the lemma, under the pack version and the code
hash, and gives neither level nor hash. -/
structure AddsFlags (lib : RegistryLib) (lang key pack code : String) (s : FactoryRegistry)
    (u : LemmaUpdate) : Prop where
  lang_eq : u.lang = lang
  key_eq : lib.lemmaKeyFor u.word u.pos = .ok key
  cefr_eq : u.cefr = none
  rawHash_eq : u.rawHash = none
  pack_eq : u.packVersion = some pack
  code_eq : u.codeHash = some code
  adds : ∀ e ∈ u.stages, (s.stagesOf lang key).lookup e.1 = none ∨
    (s.stagesOf lang key).lookup e.1 = some e.2

def upserts (lib : RegistryLib) (s : FactoryRegistry) (calls : List LemmaUpdate) :
    FactoryRegistry :=
  run (fun s u => s.step lib (.upsertLemma u)) s calls

/-- The lemma is reused for the hash, its level is the one of `s`, and no flag of
an earlier moment is lost. -/
structure StaysFinished (lib : RegistryLib) (s : FactoryRegistry) (later : List LemmaUpdate)
    (lang key pack code h : String) : Prop where
  reuse : (s.upserts lib later).fingerprint lang key pack code (some h) = .reuse
  cefr : (s.upserts lib later).cefrOf lang key = s.cefrOf lang key
  flags : ∀ a b, later = a ++ b → ∀ flag v,
    ((s.upserts lib a).stagesOf lang key).lookup flag = some v →
    ((s.upserts lib later).stagesOf lang key).lookup flag = some v

section Calls
variable {lib : RegistryLib} {s : FactoryRegistry} {lang key pack code : String}

theorem AddsFlags.keeps {u : LemmaUpdate} (h : AddsFlags lib lang key pack code s u)
    (hfp : (s.stagesOf lang key).lookup "fp" = some (.str (pack ++ ":" ++ code))) {flag : String}
    {v : JsonValue} (hflag : (s.stagesOf lang key).lookup flag = some v) :
    ((s.step lib (.upsertLemma u)).stagesOf lang key).lookup flag = some v := by
  obtain ⟨pos, hstep⟩ := step_upsertLemma (s := s) h.key_eq
  obtain rfl := h.lang_eq
  rw [hstep, stagesOf_putLemma, h.pack_eq, h.code_eq]
  by_cases hflagfp : flag = "fp"
  · subst hflagfp
    rw [lookup_fp_mergedStages, ← hfp, hflag]
  · refine lookup_mergedStages hflag hflagfp fun e he heq => ?_
    rcases h.adds e he with hnone | hsame
    · rw [heq, hflag] at hnone
      cases hnone
    · rw [heq, hflag] at hsame
      exact (Option.some.inj hsame).symm

theorem flags_upserts {later : List LemmaUpdate}
    (hfp : (s.stagesOf lang key).lookup "fp" = some (.str (pack ++ ":" ++ code)))
    (h : Meets (fun s u => s.step lib (.upsertLemma u)) (AddsFlags lib lang key pack code) s later)
    {flag : String} {v : JsonValue} (hflag : (s.stagesOf lang key).lookup flag = some v) :
    ((s.upserts lib later).stagesOf lang key).lookup flag = some v := by
  induction later generalizing s with
  | nil => exact hflag
  | cons u later ih => exact ih (h.1.keeps hfp hfp) h.2 (h.1.keeps hfp hflag)

theorem upserts_blank {later : List LemmaUpdate} (hne : later ≠ [])
    (h : Meets (fun s u => s.step lib (.upsertLemma u)) (AddsFlags lib lang key pack code) s later)
    (hash : Option String) :
    (s.upserts lib later).cefrOf lang key = none ∧
      ((s.upserts lib later).fingerprint lang key pack code hash = .reuse ↔
        s.packIs lang pack ∧ hash.getD "" = "") := by
  induction later generalizing s with
  | nil => exact absurd rfl hne
  | cons u later ih =>
    obtain ⟨hu, hrest⟩ := h
    obtain ⟨pos, hstep⟩ := step_upsertLemma (s := s) hu.key_eq
    obtain rfl := hu.lang_eq
    by_cases hlast : later = []
    · subst hlast
      change (s.step lib (.upsertLemma u)).cefrOf u.lang key = none ∧
        ((s.step lib (.upsertLemma u)).fingerprint u.lang key pack code hash = .reuse ↔ _)
      rw [hstep, cefrOf_putLemma, fingerprint_putLemma hu.pack_eq hu.code_eq, hu.rawHash_eq]
      exact ⟨hu.cefr_eq, and_congr_right fun _ => eq_comm⟩
    · have hpack : (s.step lib (.upsertLemma u)).packIs u.lang pack ↔ s.packIs u.lang pack := by
        rw [hstep]
        exact Iff.rfl
      have htail := ih hlast hrest
      rw [hpack] at htail
      exact htail

theorem flags_upserts_append {later a b : List LemmaUpdate}
    (hfp : (s.stagesOf lang key).lookup "fp" = some (.str (pack ++ ":" ++ code)))
    (h : Meets (fun s u => s.step lib (.upsertLemma u)) (AddsFlags lib lang key pack code) s later)
    (hsplit : later = a ++ b) {flag : String} {v : JsonValue}
    (hflag : ((s.upserts lib a).stagesOf lang key).lookup flag = some v) :
    ((s.upserts lib later).stagesOf lang key).lookup flag = some v := by
  subst hsplit
  obtain ⟨ha, hb⟩ := (meets_append _).mp h
  have hend := flags_upserts (flags_upserts hfp ha hfp) hb hflag
  rwa [upserts, upserts, ← run_append] at hend

end Calls

/-- **When a finished lemma is reused.**  After a call that stored the hash, and
calls that only added flags. -/
theorem staysFinished_iff {lib : RegistryLib} {s : FactoryRegistry} {u : LemmaUpdate}
    {key pack code h : String} {later : List LemmaUpdate}
    (hkey : lib.lemmaKeyFor u.word u.pos = .ok key) (hpack : u.packVersion = some pack)
    (hcode : u.codeHash = some code) (hhash : u.rawHash = some h)
    (hlater : Meets (fun s u => s.step lib (.upsertLemma u))
      (AddsFlags lib u.lang key pack code) (s.step lib (.upsertLemma u)) later) :
    StaysFinished lib (s.step lib (.upsertLemma u)) later u.lang key pack code h ↔
      s.packIs u.lang pack ∧ (later = [] ∨ (u.cefr = none ∧ h = "")) := by
  obtain ⟨pos, hstep⟩ := step_upsertLemma (s := s) hkey
  have hfp : ((s.step lib (.upsertLemma u)).stagesOf u.lang key).lookup "fp" =
      some (.str (pack ++ ":" ++ code)) := by
    rw [hstep, stagesOf_putLemma, hpack, hcode]
    exact lookup_fp_mergedStages _ _ _ _
  have hlang : (s.step lib (.upsertLemma u)).packIs u.lang pack ↔ s.packIs u.lang pack := by
    rw [hstep]
    exact Iff.rfl
  have hflags : ∀ a b, later = a ++ b → ∀ flag v,
      (((s.step lib (.upsertLemma u)).upserts lib a).stagesOf u.lang key).lookup flag = some v →
      (((s.step lib (.upsertLemma u)).upserts lib later).stagesOf u.lang key).lookup flag =
        some v := fun a b hsplit flag v hflag => flags_upserts_append hfp hlater hsplit hflag
  by_cases hnil : later = []
  · subst hnil
    have hreuse : (s.putLemma u key pos).fingerprint u.lang key pack code (some h) = .reuse ↔ _ :=
      fingerprint_putLemma hpack hcode (some h)
    constructor
    · intro hstays
      have hfinal := hstays.reuse
      rw [hstep] at hfinal
      exact ⟨(hreuse.mp hfinal).1, .inl rfl⟩
    · rintro ⟨hp, -⟩
      refine ⟨?_, rfl, hflags⟩
      rw [hstep]
      exact hreuse.mpr ⟨hp, by rw [hhash]⟩
  · obtain ⟨hcefr, hreuse⟩ := upserts_blank hnil hlater (some h)
    have hold : (s.step lib (.upsertLemma u)).cefrOf u.lang key = u.cefr := by
      rw [hstep, cefrOf_putLemma]
    constructor
    · intro hstays
      have hkept := hstays.cefr
      rw [hcefr, hold] at hkept
      obtain ⟨hp, hempty⟩ := hreuse.mp hstays.reuse
      exact ⟨hlang.mp hp, .inr ⟨hkept.symm, hempty⟩⟩
    · rintro ⟨hp, hcond⟩
      obtain ⟨hnone, rfl⟩ := hcond.resolve_left hnil
      exact ⟨hreuse.mpr ⟨hlang.mpr hp, rfl⟩, by rw [hcefr, hold, hnone], hflags⟩

end FactoryRegistry

end HamZaboon
